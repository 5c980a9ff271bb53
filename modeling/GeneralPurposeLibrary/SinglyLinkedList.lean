import GeneralPurposeLibrary.Foundation.LinkedChain

/-!
# The singly linked list

The functions of `list/singly_linked_list.h`. A `node_t **` is a slot: the `head` member of
the list or the `next` member of a node; `none` is the null pointer. The loop of
`singly_linked_list_del` takes fuel. `free` hands a node back to the allocator, which may
overwrite its `next` member; the calls made to it are kept in a ghost log.
-/

namespace GeneralPurposeLibrary
open LinkedChain

inductive InsertType where
  | head
  | tail
  deriving DecidableEq, Repr

/-- The list and the nodes, with the members `head` of the list and `next` of the nodes in
`cells`. -/
structure SinglyLinkedList (Addr : Type) where
  cells : Cells Addr
  tail : Slot Addr
  type : InsertType
  freed : List Addr

inductive ListOutcome (Addr : Type) where
  | returned (list : SinglyLinkedList Addr)
  | nullPointer
  | outOfFuel

section List

variable {Addr : Type} [DecidableEq Addr]

/-- `INIT_SINGLY_LINKED_LIST(list, type)`. -/
def initSinglyLinkedList (list : SinglyLinkedList Addr) (type : InsertType) :
    SinglyLinkedList Addr :=
  { list with cells := list.cells.write .head none, tail := .head, type := type }

def singlyLinkedListAdd (list : SinglyLinkedList Addr) (new : Addr) : SinglyLinkedList Addr :=
  match list.type with
  | .tail =>
    let cells := list.cells.write (.next new) none
    let cells := cells.write list.tail (some new)
    { list with cells := cells, tail := .next new }
  | .head =>
    let cells := list.cells.write (.next new) (list.cells.read list.tail)
    let cells := cells.write .head (some new)
    { list with cells := cells, tail := .head }

/-- `free(tmp)`, after which the allocator has put `junk tmp` in its `next` member. -/
def freeNode (junk : Addr → Option Addr) (list : SinglyLinkedList Addr) (tmp : Addr) :
    SinglyLinkedList Addr :=
  { list with
    cells := list.cells.write (.next tmp) (junk tmp)
    freed := list.freed ++ [tmp] }

/-- `&(*ptr)->next`, which is the null pointer when `*ptr` is. -/
def nextSlot (list : SinglyLinkedList Addr) (ptr : Slot Addr) : Option (Slot Addr) :=
  (list.cells.read ptr).map .next

/-- The body of the loop of `singly_linked_list_del` at `ptr`, where `*ptr` is `tmp`. -/
def delBody (junk : Addr → Option Addr) (list : SinglyLinkedList Addr) (ptr : Slot Addr)
    (tmp new : Addr) : SinglyLinkedList Addr :=
  if tmp ≠ new then list
  else
    let list := { list with cells := list.cells.write ptr (list.cells.next tmp) }
    let list :=
      if list.type = .tail ∧ list.cells.read ptr = none then { list with tail := ptr } else list
    freeNode junk list tmp

def delLoop (junk : Addr → Option Addr) :
    ℕ → SinglyLinkedList Addr → Option (Slot Addr) → Addr → ListOutcome Addr
  | 0, _, _, _ => .outOfFuel
  | _ + 1, _, none, _ => .nullPointer
  | fuel + 1, list, some ptr, new =>
    match list.cells.read ptr with
    | none => .returned list
    | some tmp =>
      let list := delBody junk list ptr tmp new
      delLoop junk fuel list (nextSlot list ptr) new

def singlyLinkedListDel (junk : Addr → Option Addr) (fuel : ℕ) (list : SinglyLinkedList Addr)
    (new : Addr) : ListOutcome Addr :=
  delLoop junk fuel list (some .head) new

inductive ListCall (Addr : Type) where
  | add (new : Addr)
  | del (new : Addr)
  deriving DecidableEq, Repr

def runList (junk : Addr → Option Addr) (fuel : ℕ) :
    SinglyLinkedList Addr → List (ListCall Addr) → ListOutcome Addr
  | list, [] => .returned list
  | list, .add new :: calls => runList junk fuel (singlyLinkedListAdd list new) calls
  | list, .del new :: calls =>
    match singlyLinkedListDel junk fuel list new with
    | .returned list => runList junk fuel list calls
    | .nullPointer => .nullPointer
    | .outOfFuel => .outOfFuel

end List

end GeneralPurposeLibrary
