import GeneralPurposeLibrary.Klist
import GeneralPurposeLibrary.Sniffer

/-!
# The sniffer framework

`sniffer_init`, `register_sniffer` and `sniffer_model` of `socket/sniffer_framework.c`. The
entry of a `sniffer_filter_t` is its first member, so a filter and its entry have the same
address. The callbacks may change the receive buffer and the memory of the application, but
not the links of the list. One call of `sniffer_model` is one turn of the worker thread.
-/

namespace GeneralPurposeLibrary

/-- What the callbacks work on. -/
structure SnifferContext (World : Type) where
  buffer : List UInt8
  world : World
  deriving DecidableEq, Repr

/-- The members `match` and `action` of a `sniffer_filter_t`, called with its `data`. -/
structure SnifferFilter (World : Type) where
  match_ : SnifferContext World → Int32 → Int × SnifferContext World
  action : SnifferContext World → Int32 → SnifferContext World

structure SnifferMemory (World : Type) where
  nodes : Nodes ℕ
  filter : ℕ → SnifferFilter World
  context : SnifferContext World

def maxEthFrame : ℕ := 1536

section Functions

variable {World : Type} (filterHead : ℕ)

/-- `malloc` is the block of `MAX_ETH_FRAME` bytes, if any, and `sockfd` what `socket`
returns. -/
def snifferInit (m : SnifferMemory World) (malloc : Option (List UInt8)) (sockfd : Int) :
    Int × SnifferMemory World :=
  match malloc with
  | none => (-1, m)
  | some buffer =>
    if sockfd < 0 then (-1, m)
    else
      (0, { m with
        nodes := initListHead m.nodes filterHead
        context := { m.context with buffer := buffer } })

def registerSniffer (m : SnifferMemory World) (filter : ℕ) : Int × SnifferMemory World :=
  (0, { m with nodes := listAdd m.nodes filter filterHead })

/-- The body of the loop over the filters. -/
def applyFilter (filter : SnifferFilter World) (dataSize : Int32)
    (context : SnifferContext World) : SnifferContext World :=
  let (matched, context) := filter.match_ context dataSize
  if matched = 0 then context else filter.action context dataSize

/-- `list_for_each_entry` from the filter `pos` on. -/
def filterLoop (m : SnifferMemory World) (dataSize : Int32) :
    ℕ → ℕ → SnifferContext World → Option (SnifferContext World)
  | 0, _, _ => none
  | fuel + 1, pos, context =>
    if pos = filterHead then some context
    else
      filterLoop m dataSize fuel (m.nodes pos).next (applyFilter (m.filter pos) dataSize context)

/-- The size of the frame as `recvfrom` returns it. -/
def receivedSize (frame : List UInt8) : Int32 := Int32.ofNat (min frame.length maxEthFrame)

/-- `received` is the frame that `recvfrom` delivers, or `none` when it fails. -/
def snifferModel (m : SnifferMemory World) (received : Option (List UInt8)) (fuel : ℕ) :
    Option (SnifferMemory World) :=
  match received with
  | none => some m
  | some frame =>
    let context := { m.context with buffer := receive m.context.buffer frame }
    (filterLoop filterHead m (receivedSize frame) fuel (m.nodes filterHead).next context).map
      fun context => { m with context := context }

inductive SnifferCall where
  | register (filter : ℕ)
  | turn (received : Option (List UInt8))
  deriving DecidableEq, Repr

def snifferStep (fuel : ℕ) (m : SnifferMemory World) : SnifferCall → Option (SnifferMemory World)
  | .register filter => some (registerSniffer filterHead m filter).2
  | .turn received => snifferModel filterHead m received fuel

end Functions

end GeneralPurposeLibrary
