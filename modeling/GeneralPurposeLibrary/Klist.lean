import GeneralPurposeLibrary.PoolList

/-!
# The kernel lists

The other functions of `list/klist.h`, which `linux/utils/include/list.h` has as well, with
the loops that the iteration macros stand for. The two headers differ in `list_del`, and only
`klist.h` has `list_for_each_prev`. An address is a number, with 0 for the null pointer. A loop
takes fuel, and `none` is a loop that ends for lack of it.
-/

namespace GeneralPurposeLibrary

inductive ListVersion where
  /-- `list/klist.h`. -/
  | klist
  /-- `linux/utils/include/list.h`. -/
  | utils
  deriving DecidableEq, Repr

section Operations

variable (nodes : Nodes ℕ)

/-- `list_del` of either header. -/
def entryDel (version : ListVersion) (entry : ℕ) : Nodes ℕ :=
  match version with
  | .klist => klistDel nodes entry
  | .utils => listDel nodes entry

def listDelInit (entry : ℕ) : Nodes ℕ :=
  let nodes := _listDel nodes (nodes entry).prev (nodes entry).next
  initListHead nodes entry

def listMoveTail (list head : ℕ) : Nodes ℕ :=
  let nodes := _listDel nodes (nodes list).prev (nodes list).next
  listAddTail nodes list head

def _listSplice (list head : ℕ) : Nodes ℕ :=
  let first := (nodes list).next
  let last := (nodes list).prev
  let at_ := (nodes head).next
  let nodes := nodes.setPrev first head
  let nodes := nodes.setNext head first
  let nodes := nodes.setNext last at_
  nodes.setPrev at_ last

def listSplice (list head : ℕ) : Nodes ℕ :=
  if !listEmpty nodes list then _listSplice nodes list head else nodes

def listSpliceInit (list head : ℕ) : Nodes ℕ :=
  if !listEmpty nodes list then
    let nodes := _listSplice nodes list head
    initListHead nodes list
  else nodes

end Operations

/-! ### Iteration -/

section Iteration

variable (nodes : Nodes ℕ) (head : ℕ)

/-- The entries that a loop visits from `pos` on, following one of the two links. -/
def forEachLoop (link : ListHead ℕ → ℕ) : ℕ → ℕ → Option (List ℕ)
  | 0, _ => none
  | fuel + 1, pos =>
    if pos = head then some []
    else (forEachLoop link fuel (link (nodes pos))).map (pos :: ·)

def listForEach (fuel : ℕ) : Option (List ℕ) :=
  forEachLoop nodes head ListHead.next fuel (nodes head).next

def listForEachPrev (fuel : ℕ) : Option (List ℕ) :=
  forEachLoop nodes head ListHead.prev fuel (nodes head).prev

/-- `list_for_each_safe` reads `n` ahead of the body, which may change the entry it is at. -/
def forEachSafeLoop (body : ℕ → Nodes ℕ → Nodes ℕ) :
    ℕ → ℕ → ℕ → Nodes ℕ → Option (List ℕ × Nodes ℕ)
  | 0, _, _, _ => none
  | fuel + 1, pos, n, nodes =>
    if pos = head then some ([], nodes)
    else
      let nodes := body pos nodes
      (forEachSafeLoop body fuel n (nodes n).next nodes).map fun r => (pos :: r.1, r.2)

def listForEachSafe (body : ℕ → Nodes ℕ → Nodes ℕ) (fuel : ℕ) : Option (List ℕ × Nodes ℕ) :=
  let pos := (nodes head).next
  forEachSafeLoop head body fuel pos (nodes pos).next nodes

end Iteration

/-! ### Runs -/

inductive KlistCall where
  | init (ptr : ℕ)
  | add (new head : ℕ)
  | addTail (new head : ℕ)
  | del (entry : ℕ)
  | delInit (entry : ℕ)
  | move (list head : ℕ)
  | moveTail (list head : ℕ)
  | splice (list head : ℕ)
  | spliceInit (list head : ℕ)
  deriving DecidableEq, Repr

def klistStep (version : ListVersion) (nodes : Nodes ℕ) : KlistCall → Nodes ℕ
  | .init ptr => initListHead nodes ptr
  | .add new head => listAdd nodes new head
  | .addTail new head => listAddTail nodes new head
  | .del entry => entryDel nodes version entry
  | .delInit entry => listDelInit nodes entry
  | .move list head => listMove nodes list head
  | .moveTail list head => listMoveTail nodes list head
  | .splice list head => listSplice nodes list head
  | .spliceInit list head => listSpliceInit nodes list head

end GeneralPurposeLibrary
