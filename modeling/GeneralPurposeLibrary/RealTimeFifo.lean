import Mathlib.Logic.Function.Basic

/-!
# The real-time fifo

The intrusive lists of `linux/utils/include/list.h` and the queue built on them in
`linux/utils/src/real_time_fifo.c`. A pointer is an `Option Addr` where the code compares it
with `NULL` and an `Addr` where it does not. The list head embedded in a `real_time_fifo_t`
is the node stored under the address of the fifo itself.

The counters `in`, `out` and the `size` are 32 bit integers that wrap around. The `release`
callback owns the node it is handed and may overwrite its links; the calls made to it are
kept in a ghost log. The mutex orders concurrent calls and has no effect on a sequence of
calls. The loop of `real_time_fifo_destroy` takes fuel, and `none` is a run that ends for
lack of it.
-/

namespace GeneralPurposeLibrary

structure ListHead (Addr : Type) where
  next : Addr
  prev : Addr
  deriving DecidableEq, Repr

abbrev Nodes (Addr : Type) := Addr → ListHead Addr

section List

variable {Addr : Type} [DecidableEq Addr] (nodes : Nodes Addr)

def Nodes.setNext (a v : Addr) : Nodes Addr :=
  Function.update nodes a { nodes a with next := v }

def Nodes.setPrev (a v : Addr) : Nodes Addr :=
  Function.update nodes a { nodes a with prev := v }

/-- `INIT_LIST_HEAD(ptr)`. -/
def initListHead (ptr : Addr) : Nodes Addr :=
  let nodes := nodes.setNext ptr ptr
  nodes.setPrev ptr ptr

def _listAdd (_new prev next : Addr) : Nodes Addr :=
  let nodes := nodes.setPrev next _new
  let nodes := nodes.setNext _new next
  let nodes := nodes.setPrev _new prev
  nodes.setNext prev _new

def listAddTail (_new head : Addr) : Nodes Addr :=
  _listAdd nodes _new (nodes head).prev head

def _listDel (prev next : Addr) : Nodes Addr :=
  let nodes := nodes.setPrev next prev
  nodes.setNext prev next

def listDel (entry : Addr) : Nodes Addr :=
  _listDel nodes (nodes entry).prev (nodes entry).next

def listEmpty (head : Addr) : Bool :=
  (nodes head).next = head

end List

abbrev ReleaseFunc (Addr : Type) := Addr → ListHead Addr → ListHead Addr

structure RealTimeFifo (Addr : Type) where
  in_ : BitVec 32
  out : BitVec 32
  size : BitVec 32
  release : Option (ReleaseFunc Addr)
  isInitial : Int

/-- The memory the fifo functions work on: the list nodes, the other members of each fifo,
the pointer variables handed to `real_time_fifo_get`, and the log of released nodes. -/
structure FifoMemory (Addr : Type) where
  nodes : Nodes Addr
  fifo : Addr → RealTimeFifo Addr
  slot : Addr → Option Addr
  released : List Addr

section Fifo

variable {Addr : Type} [DecidableEq Addr] (m : FifoMemory Addr)

def FifoMemory.setFifo (rfifo : Addr) (f : RealTimeFifo Addr) : FifoMemory Addr :=
  { m with fifo := Function.update m.fifo rfifo f }

def FifoMemory.setSlot (a : Addr) (v : Option Addr) : FifoMemory Addr :=
  { m with slot := Function.update m.slot a v }

def FifoMemory.setNodes (nodes : Nodes Addr) : FifoMemory Addr := { m with nodes := nodes }

def FifoMemory.incIn (rfifo : Addr) : FifoMemory Addr :=
  m.setFifo rfifo { m.fifo rfifo with in_ := (m.fifo rfifo).in_ + 1 }

def FifoMemory.incOut (rfifo : Addr) : FifoMemory Addr :=
  m.setFifo rfifo { m.fifo rfifo with out := (m.fifo rfifo).out + 1 }

/-- `(NULL == rfifo->release) ? : rfifo->release(ptr)`. -/
def callRelease (rfifo ptr : Addr) : FifoMemory Addr :=
  match (m.fifo rfifo).release with
  | none => m
  | some release =>
    { m with
      nodes := Function.update m.nodes ptr (release ptr (m.nodes ptr))
      released := m.released ++ [ptr] }

def realTimeFifoInit (rfifo : Option Addr) (size : BitVec 32)
    (func : Option (ReleaseFunc Addr)) : Int × FifoMemory Addr :=
  match rfifo with
  | none => (-1, m)
  | some rfifo =>
    let m := m.setFifo rfifo ⟨0, 0, size, func, 1⟩
    let m := m.setNodes (initListHead m.nodes rfifo)
    (0, m)

/-- The test that makes `real_time_fifo_put` drop the oldest element. -/
def putEvicts (rfifo : Addr) : Bool :=
  (m.fifo rfifo).out - (m.fifo rfifo).in_ == (m.fifo rfifo).size && !listEmpty m.nodes rfifo

def realTimeFifoPut (rfifo list : Option Addr) : Int × FifoMemory Addr :=
  match rfifo, list with
  | some rfifo, some list =>
    if (m.fifo rfifo).isInitial = 0 then (-1, m)
    else
      let m :=
        if putEvicts m rfifo then
          let ptr := (m.nodes rfifo).next
          let m := m.setNodes (listDel m.nodes ptr)
          callRelease m rfifo ptr
        else m
      let m := m.incIn rfifo
      let m := m.setNodes (listAddTail m.nodes list rfifo)
      let m := m.incOut rfifo
      (0, m)
  | _, _ => (-1, m)

def realTimeFifoGet (rfifo list : Option Addr) : Int × FifoMemory Addr :=
  match rfifo, list with
  | some rfifo, some list =>
    if (m.fifo rfifo).isInitial = 0 then (-1, m)
    else if listEmpty m.nodes rfifo then (-1, m)
    else
      let entry := (m.nodes rfifo).next
      let m := m.setSlot list (some entry)
      let m := m.setNodes (listDel m.nodes entry)
      let m := m.incIn rfifo
      (0, m)
  | _, _ => (-1, m)

/-- The `list_for_each_safe` loop of `real_time_fifo_destroy`. -/
def destroyLoop (rfifo : Addr) : Nat → FifoMemory Addr → Addr → Addr → Option (FifoMemory Addr)
  | 0, _, _, _ => none
  | fuel + 1, m, pos, next =>
    if pos = rfifo then some m
    else
      let m := m.setNodes (listDel m.nodes pos)
      let m := callRelease m rfifo pos
      destroyLoop rfifo fuel m next (m.nodes next).next

def realTimeFifoDestroy (fuel : Nat) (rfifo : Option Addr) : Option (Int × FifoMemory Addr) :=
  match rfifo with
  | none => some (-1, m)
  | some rfifo =>
    let pos := (m.nodes rfifo).next
    match destroyLoop rfifo fuel m pos (m.nodes pos).next with
    | none => none
    | some m =>
      some (0, m.setFifo rfifo { m.fifo rfifo with in_ := 0, out := 0, isInitial := 0 })

end Fifo

/-- A call of the sequence made on a fifo: `put` with the node it adds, or `get` with the
pointer variable it fills. -/
inductive FifoCall (Addr : Type) where
  | put (list : Addr)
  | get (list : Addr)
  deriving DecidableEq, Repr

section Calls

variable {Addr : Type} [DecidableEq Addr] (rfifo : Addr)

def FifoMemory.call (m : FifoMemory Addr) : FifoCall Addr → Int × FifoMemory Addr
  | .put list => realTimeFifoPut m (some rfifo) (some list)
  | .get list => realTimeFifoGet m (some rfifo) (some list)

def runCalls (m : FifoMemory Addr) : List (FifoCall Addr) → FifoMemory Addr
  | [] => m
  | call :: calls => runCalls (m.call rfifo call).2 calls

end Calls

end GeneralPurposeLibrary
