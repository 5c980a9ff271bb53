import GeneralPurposeLibrary.RealTimeFifo
import GeneralPurposeLibrary.Foundation.SlabLayout
import Mathlib.Data.BitVec

/-!
# The pool of list elements

`list/pool_list.c` over the lists of `list/klist.h`, whose functions are those of
`linux/utils/include/list.h` except that `list_del` stores null pointers in the entry. The
calls to `expand_pool` are read as calls to `expand_pool_list`, and the parameters that some
of the functions lack are added.

Addresses are byte addresses, with 0 for the null pointer. A `struct list_head` takes 16
bytes and a `pool_elem_t` 24, with its list first. The three list heads of a `pool_list_t` are
its first members; the others are kept in `PoolList`. What `calloc` returns is handed to the
functions that call it.
-/

namespace GeneralPurposeLibrary
open SlabLayout

structure PoolList where
  nodes : Nodes ℕ
  /-- The member `addr` of the `pool_elem_t` at an address. -/
  addr : ℕ → ℕ
  freeNum : Int32
  curSlub : Int32
  maxSlub : UInt32
  elemSize : Int32
  preallocNum : Int32

def listHeadSize : ℕ := 16

def poolElemSize : ℕ := 24

/-- The addresses of the members `slub`, `free` and `available` of the pool. -/
def slubHead (pool : ℕ) : ℕ := pool

def freeHead (pool : ℕ) : ℕ := pool + listHeadSize

def availableHead (pool : ℕ) : ℕ := pool + 2 * listHeadSize

section Klist

variable (nodes : Nodes ℕ)

def listAdd (_new head : ℕ) : Nodes ℕ := _listAdd nodes _new head (nodes head).next

/-- `list_del` of `klist.h`. -/
def klistDel (entry : ℕ) : Nodes ℕ :=
  let nodes := _listDel nodes (nodes entry).prev (nodes entry).next
  let nodes := nodes.setNext entry 0
  nodes.setPrev entry 0

def listMove (list head : ℕ) : Nodes ℕ :=
  let nodes := _listDel nodes (nodes list).prev (nodes list).next
  listAdd nodes list head

/-- `list_first_entry`, where the list is the first member of the entry. -/
def listFirstEntry (head : ℕ) : ℕ := (nodes head).next

end Klist

section Pool

variable (pool : ℕ) (m : PoolList)

/-- The loop of `expand_pool_list`: `n` more turns from `i`, with the pointer `ptr` into the
data of the slab. -/
def expandLoop (elem size : ℕ) : ℕ → ℕ → ℕ → PoolList → PoolList
  | _, 0, _, m => m
  | i, n + 1, ptr, m =>
    let e := elem + poolElemSize * i
    let m := { m with addr := Function.update m.addr e ptr }
    let m := { m with nodes := listAdd m.nodes e (freeHead pool) }
    expandLoop elem size (i + 1) n (ptr + size) m

def expandPoolList (num size : Int32) : Option ℕ → Int × PoolList
  | none => (-1, m)
  | some slub =>
    let m := { m with nodes := listAdd m.nodes slub (slubHead pool) }
    let ptr := slub + listHeadSize
    let elem := ptr + (num * size).toNatClampNeg
    let m := expandLoop pool elem size.toNatClampNeg 0 num.toNatClampNeg ptr m
    (0, { m with freeNum := m.freeNum + num })

def poolListInit (elemSize : Int32) : PoolList :=
  let nodes := initListHead m.nodes (availableHead pool)
  let nodes := initListHead nodes (freeHead pool)
  let nodes := initListHead nodes (slubHead pool)
  { m with
    nodes := nodes
    maxSlub := -1
    elemSize := elemSize
    freeNum := 0
    preallocNum := 16 }

def poolListSetLimit (maxSlub preallocNum : Int32) : PoolList :=
  { m with maxSlub := maxSlub.toUInt32, preallocNum := preallocNum }

/-- The condition under which a pool with no free element may expand; `cur_slub` is compared
as an unsigned number. -/
def mayExpand : Bool := m.maxSlub == -1 || m.curSlub.toUInt32 < m.maxSlub

def poolListGetFreeElem (calloc : Option ℕ) : Option ℕ × PoolList :=
  let m :=
    if listEmpty m.nodes (freeHead pool) && mayExpand m then
      let (ret, m) := expandPoolList pool m m.preallocNum m.elemSize calloc
      if ret = 0 then { m with curSlub := m.curSlub + 1 } else m
    else m
  if listEmpty m.nodes (freeHead pool) then (none, m)
  else
    let elem := listFirstEntry m.nodes (freeHead pool)
    let m := { m with nodes := klistDel m.nodes elem }
    (some elem, { m with freeNum := m.freeNum - 1 })

def poolListPutAvailableElem (elem : ℕ) : PoolList :=
  { m with nodes := listAddTail m.nodes elem (availableHead pool) }

def poolListGetAvailableElem : Option ℕ :=
  if listEmpty m.nodes (availableHead pool) then none
  else some (listFirstEntry m.nodes (availableHead pool))

def poolListPutFreeElem (elem : ℕ) : PoolList :=
  let m := { m with nodes := listMove m.nodes elem (freeHead pool) }
  { m with freeNum := m.freeNum + 1 }

end Pool

/-! ### Runs -/

/-- The pool in the hands of a caller: the slabs that were allocated, the elements that the
caller holds and the elements put on the available list, oldest first. -/
structure PoolRun where
  memory : PoolList
  slabs : List ℕ
  held : List ℕ
  available : List ℕ

inductive PoolCall where
  | getFree (calloc : Option ℕ)
  | putAvailable (elem : ℕ)
  | getAvailable
  | putFree (elem : ℕ)
  deriving DecidableEq, Repr

section Runs

variable (pool : ℕ)

def poolListSize : ℕ := 3 * listHeadSize + 24

/-- The layout of the slabs of the pool. -/
def poolLayout (m : PoolList) : Layout :=
  ⟨listHeadSize, poolElemSize, m.preallocNum.toNatClampNeg, m.elemSize.toNatClampNeg⟩

/-- What `calloc` promises: a block of its own. -/
def CallocFresh (r : PoolRun) (slab : ℕ) : Prop :=
  slab ≠ 0 ∧ Apart slab (poolLayout r.memory).bytes pool poolListSize ∧
    ∀ slab' ∈ r.slabs, Apart slab (poolLayout r.memory).bytes slab' ((poolLayout r.memory).bytes)

instance (r : PoolRun) (slab : ℕ) : Decidable (CallocFresh pool r slab) :=
  inferInstanceAs (Decidable (_ ∧ _ ∧ ∀ slab' ∈ r.slabs, Apart slab _ slab' _))

/-- The slab that a call of `pool_list_get_free_elem` allocates. -/
def allocates (m : PoolList) (calloc : Option ℕ) : Option ℕ :=
  if listEmpty m.nodes (freeHead pool) && mayExpand m then calloc else none

/-- A step of the caller, who puts elements it holds and frees elements that are available. -/
def poolStep (r : PoolRun) : PoolCall → Option PoolRun
  | .getFree calloc =>
    if ∀ slab ∈ calloc, CallocFresh pool r slab then
      let (elem, m) := poolListGetFreeElem pool r.memory calloc
      some
        { memory := m
          slabs := (allocates pool r.memory calloc).toList ++ r.slabs
          held := elem.toList ++ r.held
          available := r.available }
    else none
  | .putAvailable elem =>
    if elem ∈ r.held then
      some
        { r with
          memory := poolListPutAvailableElem pool r.memory elem
          held := r.held.erase elem
          available := r.available ++ [elem] }
    else none
  | .getAvailable => some r
  | .putFree elem =>
    if elem ∈ r.available then
      some
        { r with
          memory := poolListPutFreeElem pool r.memory elem
          available := r.available.erase elem }
    else none

/-- The pool after `pool_list_init` and `pool_list_set_limit`. -/
def initPoolRun (memory : PoolList) (elemSize maxSlub preallocNum : Int32) : PoolRun :=
  ⟨poolListSetLimit (poolListInit pool memory elemSize) maxSlub preallocNum, [], [], []⟩

end Runs

end GeneralPurposeLibrary
