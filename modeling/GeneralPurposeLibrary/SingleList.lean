import GeneralPurposeLibrary.SinglyLinkedList

/-!
# Lists of data

The functions of `list/singly_linked_list.c`, which keep one pointer to data in each node and
take the nodes from `malloc`. `none` is the null pointer, as a list and as what `malloc`
returns. The member `node` of `template_t` comes first, so `container_of` is the node's own
address. `mallocs` is a ghost log of the blocks that `malloc` has given out for nodes; the
block of the list itself is allocated by `single_list_new` and given back by the last
statement of `single_list_free`.
-/

namespace GeneralPurposeLibrary
open LinkedChain

inductive ListFault where
  | nullPointer
  | outOfFuel
  deriving DecidableEq, Repr

structure SingleList (Addr Data : Type) where
  list : Option (SinglyLinkedList Addr)
  data : Addr → Data
  mallocs : List Addr

section SingleList

variable {Addr Data : Type} [DecidableEq Addr]

/-- `single_list_new(type)`, where `memory` is what the new block held. -/
def singleListNew (mallocSucceeds : Bool) (memory : SinglyLinkedList Addr) (data : Addr → Data)
    (type : InsertType) : SingleList Addr Data :=
  { list := if mallocSucceeds then some (initSinglyLinkedList memory type) else none
    data := data
    mallocs := [] }

/-- `single_list_add(list, data)`, where `malloc` has returned `ptr`. The test is for a null
`list` and leaves the new block behind; a null `ptr` is written through. -/
def singleListAdd (s : SingleList Addr Data) (data : Data) (ptr : Option Addr) :
    Except ListFault (Int × SingleList Addr Data) :=
  let mallocs := s.mallocs ++ ptr.toList
  match s.list with
  | none => .ok (-1, { s with mallocs := mallocs })
  | some list =>
    match ptr with
    | none => .error .nullPointer
    | some ptr =>
      .ok (0, { list := some (singlyLinkedListAdd list ptr)
                data := Function.update s.data ptr data
                mallocs := mallocs })

def singleListDel (junk : Addr → Option Addr) (fuel : ℕ) (s : SingleList Addr Data)
    (template : Addr) : Except ListFault (Int × SingleList Addr Data) :=
  match s.list with
  | none => .error .nullPointer
  | some list =>
    match singlyLinkedListDel junk fuel list template with
    | .returned list => .ok (0, { s with list := some list })
    | .nullPointer => .error .nullPointer
    | .outOfFuel => .error .outOfFuel

def freeLoop (junk : Addr → Option Addr) :
    ℕ → SinglyLinkedList Addr → Except ListFault (SinglyLinkedList Addr)
  | 0, _ => .error .outOfFuel
  | fuel + 1, list =>
    match list.cells.head with
    | none => .ok list
    | some ptr =>
      let list := { list with cells := list.cells.write .head (list.cells.next ptr) }
      freeLoop junk fuel (freeNode junk list ptr)

def singleListFree (junk : Addr → Option Addr) (fuel : ℕ) (s : SingleList Addr Data) :
    Except ListFault (SingleList Addr Data) :=
  match s.list with
  | none => .error .nullPointer
  | some list => (freeLoop junk fuel list).map (fun list => { s with list := some list })

/-- The loop of `dump_template` from `ptr` on: what `do_show` is called with. -/
def dumpLoop (next : Addr → Option Addr) (data : Addr → Data) :
    ℕ → Option Addr → Except ListFault (List Data)
  | 0, _ => .error .outOfFuel
  | _ + 1, none => .ok []
  | fuel + 1, some ptr => (dumpLoop next data fuel (next ptr)).map (data ptr :: ·)

def dumpTemplate (fuel : ℕ) (s : SingleList Addr Data) (doShow : Bool) :
    Except ListFault (List Data) :=
  match s.list with
  | none => .error .nullPointer
  | some list =>
    (dumpLoop list.cells.next s.data fuel list.cells.head).map
      (fun shown => if doShow then shown else [])

inductive SingleListCall (Addr Data : Type) where
  | add (data : Data) (ptr : Option Addr)
  | del (template : Addr)
  deriving DecidableEq, Repr

def singleListCall (junk : Addr → Option Addr) (fuel : ℕ) (s : SingleList Addr Data) :
    SingleListCall Addr Data → Except ListFault (SingleList Addr Data)
  | .add data ptr => (singleListAdd s data ptr).map Prod.snd
  | .del template => (singleListDel junk fuel s template).map Prod.snd

/-- A list is made, changed by the calls, shown and freed. -/
def singleListProgram (junk : Addr → Option Addr) (fuel : ℕ) (mallocSucceeds : Bool)
    (memory : SinglyLinkedList Addr) (data : Addr → Data) (type : InsertType)
    (calls : List (SingleListCall Addr Data)) :
    Except ListFault (List Data × SingleList Addr Data) := do
  let s ← calls.foldlM (singleListCall junk fuel) (singleListNew mallocSucceeds memory data type)
  let shown ← dumpTemplate fuel s true
  let s ← singleListFree junk fuel s
  return (shown, s)

end SingleList

end GeneralPurposeLibrary
