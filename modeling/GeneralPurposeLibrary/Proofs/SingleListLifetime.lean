import GeneralPurposeLibrary.Proofs.SinglyLinkedListRefinement
import GeneralPurposeLibrary.SingleList

/-!
# The lifetime of a list of data

A list that is made, changed, shown and freed shows its data in the order of the abstract
sequence, and gives every block back that it took. It gets to the end exactly when `malloc`
always succeeds and no call deletes the last node.
-/

namespace GeneralPurposeLibrary.Proofs
open LinkedChain

variable {Addr Data : Type}

lemma map_insertNode (type : InsertType) (entry : Addr × Data) (entries : List (Addr × Data)) :
    (insertNode type entry entries).map Prod.fst =
      insertNode type entry.1 (entries.map Prod.fst) := by
  cases type <;> simp [insertNode]

lemma insertNode_perm {α : Type} (type : InsertType) (a : α) (l : List α) :
    (insertNode type a l).Perm (a :: l) := by
  cases type with
  | tail => exact List.perm_append_singleton a l
  | head => exact List.Perm.refl _

lemma dumpLoop_chain (data : Addr → Data) {cells : Cells Addr} {slot : Slot Addr}
    {nodes : List Addr} (h : IsChain cells slot nodes) {fuel : ℕ} (hfuel : nodes.length < fuel) :
    dumpLoop cells.next data fuel (cells.read slot) = .ok (nodes.map data) := by
  induction nodes generalizing slot fuel with
  | nil =>
    obtain ⟨k, rfl⟩ : ∃ k, fuel = k + 1 := ⟨fuel - 1, by omega⟩
    rw [isChain_nil.mp h]
    rfl
  | cons a nodes ih =>
    rw [List.length_cons] at hfuel
    obtain ⟨k, rfl⟩ : ∃ k, fuel = k + 1 := ⟨fuel - 1, by omega⟩
    obtain ⟨hread, htail⟩ := isChain_cons.mp h
    have hrest : dumpLoop cells.next data k (cells.next a) = .ok (nodes.map data) :=
      ih htail (by omega)
    rw [hread, dumpLoop, hrest]
    rfl

variable [DecidableEq Addr]

def entriesStep (type : InsertType) (entries : List (Addr × Data)) :
    SingleListCall Addr Data → List (Addr × Data)
  | .add data (some ptr) => insertNode type (ptr, data) entries
  | .add _ none => entries
  | .del template => entries.eraseP (fun entry => entry.1 == template)

/-- `malloc` succeeds, and the node to delete is not the last one. -/
def CallReturns (entries : List (Addr × Data)) : SingleListCall Addr Data → Prop
  | .add _ ptr => ptr ≠ none
  | .del template => (entries.map Prod.fst).getLast? ≠ some template

def CallsReturn (type : InsertType) :
    List (Addr × Data) → List (SingleListCall Addr Data) → Prop
  | _, [] => True
  | entries, call :: calls =>
    CallReturns entries call ∧ CallsReturn type (entriesStep type entries call) calls

/-- As long as the calls return, `malloc` never gives out a block that is in the list. -/
def FreshBlocks (type : InsertType) :
    List (Addr × Data) → List (SingleListCall Addr Data) → Prop
  | _, [] => True
  | entries, call :: calls =>
    (∀ data ptr, call = .add data (some ptr) → ptr ∉ entries.map Prod.fst) ∧
      (CallReturns entries call → FreshBlocks type (entriesStep type entries call) calls)

/-- The list in memory has the nodes of the entries, the nodes have their data, and a block
given out is in the list or has been freed. `before` was freed before the list was made. -/
structure HoldsEntries (type : InsertType) (before : List Addr) (s : SingleList Addr Data)
    (list : SinglyLinkedList Addr) (entries : List (Addr × Data)) : Prop where
  list_eq : s.list = some list
  represents : Represents type list ⟨entries.map Prod.fst, list.freed⟩
  data : ∀ entry ∈ entries, s.data entry.1 = entry.2
  balance : (before ++ s.mallocs).Perm (entries.map Prod.fst ++ list.freed)

lemma map_eraseP_fst (entries : List (Addr × Data)) (template : Addr) :
    (entries.eraseP (fun entry => entry.1 == template)).map Prod.fst =
      (entries.map Prod.fst).erase template := by
  rw [List.erase_eq_eraseP', List.eraseP_map]
  rfl

/-! ### One call -/

section Step

variable {type : InsertType} {before : List Addr} {s : SingleList Addr Data}
  {list : SinglyLinkedList Addr} {entries : List (Addr × Data)}

lemma singleListAdd_holds (h : HoldsEntries type before s list entries) (data : Data) {ptr : Addr}
    (hptr : ptr ∉ entries.map Prod.fst) :
    ∃ s', singleListAdd s data (some ptr) = .ok (0, s') ∧
      HoldsEntries type before s' (singlyLinkedListAdd list ptr)
        (insertNode type (ptr, data) entries) := by
  have hadd := add_represents h.represents hptr
  have hfreed : (singlyLinkedListAdd list ptr).freed = list.freed := by
    rw [hadd.freed]
    rfl
  refine ⟨{ list := some (singlyLinkedListAdd list ptr)
            data := Function.update s.data ptr data
            mallocs := s.mallocs ++ [ptr] }, ?_, ?_⟩
  · rw [singleListAdd, h.list_eq]
    rfl
  · constructor
    case list_eq => rfl
    case represents =>
      rw [map_insertNode, hfreed]
      exact hadd
    case data =>
      intro entry hentry
      rcases List.mem_cons.mp ((insertNode_perm type _ _).mem_iff.mp hentry) with rfl | hold
      · exact Function.update_self ptr data s.data
      · have hne : entry.1 ≠ ptr := by
          rintro rfl
          exact hptr (List.mem_map_of_mem hold)
        exact (Function.update_of_ne hne data s.data).trans (h.data entry hold)
    case balance =>
      rw [map_insertNode, hfreed]
      rw [← List.append_assoc]
      calc List.Perm (before ++ s.mallocs ++ [ptr]) (ptr :: (before ++ s.mallocs)) :=
          List.perm_append_singleton _ _
        List.Perm _ (ptr :: (entries.map Prod.fst ++ list.freed)) := h.balance.cons ptr
        List.Perm _ (insertNode type ptr (entries.map Prod.fst) ++ list.freed) :=
          ((insertNode_perm type ptr _).append_right list.freed).symm

lemma singleListDel_holds (junk : Addr → Option Addr) {fuel : ℕ}
    (h : HoldsEntries type before s list entries) {template : Addr}
    (hlast : (entries.map Prod.fst).getLast? ≠ some template) (hfuel : entries.length < fuel) :
    ∃ s' list', singleListDel junk fuel s template = .ok (0, s') ∧
      HoldsEntries type before s' list'
        (entries.eraseP (fun entry => entry.1 == template)) := by
  obtain ⟨list', hdel, hrepr⟩ := del_represents junk h.represents hlast
    (by rw [List.length_map]; exact hfuel)
  have hnodes : (specStep type ⟨entries.map Prod.fst, list.freed⟩ (.del template)).nodes =
      (entries.map Prod.fst).erase template := by
    rw [specStep]
    split
    · rfl
    · rename_i hmem
      exact (List.erase_of_not_mem hmem).symm
  have hfreed : (list.freed ++ entries.map Prod.fst).Perm
      (list'.freed ++ (entries.map Prod.fst).erase template) := by
    rw [hrepr.freed, specStep]
    split
    · rename_i hmem
      rw [List.append_assoc]
      exact (List.perm_cons_erase hmem).append_left list.freed
    · rename_i hmem
      rw [List.erase_of_not_mem hmem]
  refine ⟨{ s with list := some list' }, list', ?_, ?_⟩
  · simp only [singleListDel, h.list_eq, hdel]
  · constructor
    case list_eq => rfl
    case represents =>
      rw [map_eraseP_fst, ← hnodes]
      exact ⟨hrepr.type_eq, hrepr.chain, hrepr.nodup, hrepr.tail, rfl⟩
    case data => exact fun entry hentry => h.data entry (List.mem_of_mem_eraseP hentry)
    case balance =>
      rw [map_eraseP_fst]
      calc List.Perm (before ++ s.mallocs) (entries.map Prod.fst ++ list.freed) := h.balance
        List.Perm _ (list.freed ++ entries.map Prod.fst) := List.perm_append_comm
        List.Perm _ (list'.freed ++ (entries.map Prod.fst).erase template) := hfreed
        List.Perm _ ((entries.map Prod.fst).erase template ++ list'.freed) :=
          List.perm_append_comm

lemma singleListCall_holds (junk : Addr → Option Addr) {fuel : ℕ}
    (h : HoldsEntries type before s list entries) {call : SingleListCall Addr Data}
    (hfresh : ∀ data ptr, call = .add data (some ptr) → ptr ∉ entries.map Prod.fst)
    (hreturns : CallReturns entries call) (hfuel : entries.length < fuel) :
    ∃ s' list', singleListCall junk fuel s call = .ok s' ∧
      HoldsEntries type before s' list' (entriesStep type entries call) := by
  cases call with
  | add data ptr =>
    obtain ⟨ptr, rfl⟩ := Option.ne_none_iff_exists'.mp hreturns
    obtain ⟨s', hadd, hs'⟩ := singleListAdd_holds h data (hfresh data ptr rfl)
    refine ⟨s', _, ?_, hs'⟩
    rw [singleListCall, hadd]
    rfl
  | del template =>
    obtain ⟨s', list', hdel, hs'⟩ := singleListDel_holds junk h hreturns hfuel
    refine ⟨s', list', ?_, hs'⟩
    rw [singleListCall, hdel]
    rfl

lemma singleListCall_faults (junk : Addr → Option Addr) {fuel : ℕ}
    (h : HoldsEntries type before s list entries) {call : SingleListCall Addr Data}
    (hreturns : ¬ CallReturns entries call) (hfuel : entries.length < fuel) :
    singleListCall junk fuel s call = .error .nullPointer := by
  cases call with
  | add data ptr =>
    obtain rfl : ptr = none := not_not.mp hreturns
    rw [singleListCall, singleListAdd, h.list_eq]
    rfl
  | del template =>
    obtain ⟨l, hl⟩ := List.getLast?_eq_some_iff.mp (not_not.mp hreturns)
    have hchain := h.represents.chain
    have hnodup := h.represents.nodup
    have hlength : (entries.map Prod.fst).length = l.length + 1 := by
      rw [hl, List.length_append, List.length_singleton]
    rw [List.length_map] at hlength
    rw [hl] at hchain hnodup
    have hdel : singlyLinkedListDel junk fuel list template = .nullPointer :=
      del_last hchain hnodup (by omega)
    simp only [singleListCall, singleListDel, h.list_eq, hdel]
    rfl

end Step

/-! ### Showing and freeing -/

lemma freeLoop_chain (junk : Addr → Option Addr) {list : SinglyLinkedList Addr}
    {nodes : List Addr} (h : IsChain list.cells .head nodes) (hnodup : nodes.Nodup) {fuel : ℕ}
    (hfuel : nodes.length < fuel) :
    ∃ list', freeLoop junk fuel list = .ok list' ∧ list'.freed = list.freed ++ nodes := by
  induction nodes generalizing list fuel with
  | nil =>
    obtain ⟨k, rfl⟩ : ∃ k, fuel = k + 1 := ⟨fuel - 1, by omega⟩
    have hhead : list.cells.head = none := isChain_nil.mp h
    refine ⟨list, ?_, (List.append_nil _).symm⟩
    rw [freeLoop, hhead]
  | cons a nodes ih =>
    rw [List.length_cons] at hfuel
    obtain ⟨k, rfl⟩ : ∃ k, fuel = k + 1 := ⟨fuel - 1, by omega⟩
    have hhead : list.cells.head = some a := (isChain_cons.mp h).1
    have hunlink : IsChain (list.cells.write .head (list.cells.next a)) .head nodes :=
      (show IsChain list.cells .head ([] ++ a :: nodes) from h).unlink hnodup
    have hchain : IsChain ((list.cells.write .head (list.cells.next a)).write (.next a) (junk a))
        .head nodes := by
      refine hunlink.congr (read_write_of_ne _ _ (by simp)) ?_
      intro b hb
      have hne : Slot.next b ≠ Slot.next a := by
        intro heq
        cases heq
        exact (List.nodup_cons.mp hnodup).1 hb
      exact read_write_of_ne _ _ hne
    obtain ⟨list', hloop, hfreed⟩ : ∃ list', freeLoop junk k (freeNode junk
          { list with cells := list.cells.write .head (list.cells.next a) } a) = .ok list' ∧
        list'.freed = list.freed ++ [a] ++ nodes :=
      ih hchain hnodup.of_cons (by omega)
    refine ⟨list', ?_, ?_⟩
    · rw [freeLoop, hhead]
      exact hloop
    · rw [hfreed, List.append_assoc]
      rfl

/-! ### Runs -/

section Run

variable {type : InsertType} {before : List Addr} {s : SingleList Addr Data}
  {list : SinglyLinkedList Addr} {entries : List (Addr × Data)}

def entriesRun (type : InsertType) (entries : List (Addr × Data))
    (calls : List (SingleListCall Addr Data)) : List (Addr × Data) :=
  calls.foldl (entriesStep type) entries

lemma length_entriesStep_le (type : InsertType) (entries : List (Addr × Data))
    (call : SingleListCall Addr Data) :
    (entriesStep type entries call).length ≤ entries.length + 1 := by
  cases call with
  | add data ptr =>
    cases ptr with
    | none => exact Nat.le_succ _
    | some ptr => exact Nat.le_of_eq (insertNode_perm type (ptr, data) entries).length_eq
  | del template => exact Nat.le_succ_of_le List.eraseP_sublist.length_le

lemma length_entriesRun_le (type : InsertType) (calls : List (SingleListCall Addr Data))
    (entries : List (Addr × Data)) :
    (entriesRun type entries calls).length ≤ entries.length + calls.length := by
  induction calls generalizing entries with
  | nil => exact Nat.le_refl _
  | cons call calls ih =>
    have hstep := length_entriesStep_le type entries call
    have hrest := ih (entriesStep type entries call)
    rw [entriesRun, List.foldl_cons, List.length_cons]
    rw [entriesRun] at hrest
    omega

lemma singleListCalls_hold (junk : Addr → Option Addr) {fuel : ℕ}
    (calls : List (SingleListCall Addr Data)) (h : HoldsEntries type before s list entries)
    (hfresh : FreshBlocks type entries calls) (hreturn : CallsReturn type entries calls)
    (hfuel : entries.length + calls.length < fuel) :
    ∃ s' list', calls.foldlM (singleListCall junk fuel) s = .ok s' ∧
      HoldsEntries type before s' list' (entriesRun type entries calls) := by
  induction calls generalizing s list entries with
  | nil => exact ⟨s, list, rfl, h⟩
  | cons call calls ih =>
    have hlength := length_entriesStep_le type entries call
    rw [List.length_cons] at hfuel
    obtain ⟨s₁, list₁, hcall, h₁⟩ :=
      singleListCall_holds junk h hfresh.1 hreturn.1 (by omega : entries.length < fuel)
    obtain ⟨s₂, list₂, hrun, h₂⟩ := ih h₁ (hfresh.2 hreturn.1) hreturn.2 (by omega)
    refine ⟨s₂, list₂, ?_, h₂⟩
    rw [List.foldlM_cons, hcall]
    exact hrun

lemma singleListCalls_fault (junk : Addr → Option Addr) {fuel : ℕ}
    (calls : List (SingleListCall Addr Data)) (h : HoldsEntries type before s list entries)
    (hfresh : FreshBlocks type entries calls) (hreturn : ¬ CallsReturn type entries calls)
    (hfuel : entries.length + calls.length < fuel) :
    calls.foldlM (singleListCall junk fuel) s = .error .nullPointer := by
  induction calls generalizing s list entries with
  | nil => exact absurd trivial hreturn
  | cons call calls ih =>
    have hlength := length_entriesStep_le type entries call
    rw [List.length_cons] at hfuel
    have hbound : entries.length < fuel := by omega
    rw [List.foldlM_cons]
    by_cases hcall : CallReturns entries call
    · obtain ⟨s₁, list₁, hstep, h₁⟩ := singleListCall_holds junk h hfresh.1 hcall hbound
      rw [hstep]
      exact ih h₁ (hfresh.2 hcall) (fun hrest => hreturn ⟨hcall, hrest⟩) (by omega)
    · rw [singleListCall_faults junk h hcall hbound]
      rfl

lemma singleListCalls_without_list (junk : Addr → Option Addr) (fuel : ℕ)
    (calls : List (SingleListCall Addr Data)) (h : s.list = none) :
    calls.foldlM (singleListCall junk fuel) s = .error .nullPointer ∨
      ∃ s', calls.foldlM (singleListCall junk fuel) s = .ok s' ∧ s'.list = none := by
  induction calls generalizing s with
  | nil => exact Or.inr ⟨s, rfl, h⟩
  | cons call calls ih =>
    rw [List.foldlM_cons]
    cases call with
    | add data ptr =>
      have hcall : singleListCall junk fuel s (.add data ptr) =
          .ok { s with mallocs := s.mallocs ++ ptr.toList } := by
        simp only [singleListCall, singleListAdd, h]
        rfl
      have hlist : { s with mallocs := s.mallocs ++ ptr.toList }.list = none := h
      rw [hcall]
      exact ih hlist
    | del template =>
      left
      simp only [singleListCall, singleListDel, h]
      rfl

lemma singleListNew_holds (memory : SinglyLinkedList Addr) (data : Addr → Data)
    (type : InsertType) :
    HoldsEntries type memory.freed (singleListNew true memory data type)
      (initSinglyLinkedList memory type) [] := by
  constructor
  case list_eq => rfl
  case represents => exact init_represents memory type
  case data => simp
  case balance =>
    rw [singleListNew, List.append_nil]
    exact List.Perm.refl _

/-- The list shows its entries, and its nodes are given back one by one. -/
lemma dump_then_free (junk : Addr → Option Addr) (h : HoldsEntries type before s list entries)
    {fuel : ℕ} (hfuel : entries.length < fuel) :
    dumpTemplate fuel s true = .ok (entries.map Prod.snd) ∧
      ∃ s' list', singleListFree junk fuel s = .ok s' ∧ s'.list = some list' ∧
        (before ++ s'.mallocs).Perm list'.freed := by
  have hlength : (entries.map Prod.fst).length < fuel := by
    rw [List.length_map]
    exact hfuel
  have hshown : (entries.map Prod.fst).map s.data = entries.map Prod.snd := by
    rw [List.map_map]
    exact List.map_congr_left h.data
  have hdump : dumpLoop list.cells.next s.data fuel list.cells.head =
      .ok (entries.map Prod.snd) := by
    rw [← hshown]
    exact dumpLoop_chain s.data h.represents.chain hlength
  obtain ⟨list', hloop, hfreed⟩ :=
    freeLoop_chain junk h.represents.chain h.represents.nodup hlength
  refine ⟨?_, { s with list := some list' }, list', ?_, rfl, ?_⟩
  · rw [dumpTemplate, h.list_eq]
    dsimp only
    rw [hdump]
    rfl
  · rw [singleListFree, h.list_eq]
    dsimp only
    rw [hloop]
    rfl
  · rw [hfreed]
    exact h.balance.trans List.perm_append_comm

end Run

/-- A list that is made, changed, shown and freed gets to its end exactly when every `malloc`
succeeds and no call deletes the last node. It has then shown the data in the order of the
abstract sequence and freed every block as often as it was given out. -/
theorem singleListProgram_balances (junk : Addr → Option Addr) (fuel : ℕ) (mallocSucceeds : Bool)
    (memory : SinglyLinkedList Addr) (data : Addr → Data) (type : InsertType)
    (calls : List (SingleListCall Addr Data)) (hfresh : FreshBlocks type [] calls)
    (hfuel : calls.length < fuel) :
    ((mallocSucceeds = true ∧ CallsReturn type [] calls) →
      ∃ s list, singleListProgram junk fuel mallocSucceeds memory data type calls =
          .ok ((entriesRun type [] calls).map Prod.snd, s) ∧
        s.list = some list ∧ (memory.freed ++ s.mallocs).Perm list.freed) ∧
    (¬ (mallocSucceeds = true ∧ CallsReturn type [] calls) →
      singleListProgram junk fuel mallocSucceeds memory data type calls =
        .error .nullPointer) := by
  have hnew := singleListNew_holds memory data type
  have hbound : ([] : List (Addr × Data)).length + calls.length < fuel := by simpa using hfuel
  constructor
  · rintro ⟨rfl, hreturn⟩
    obtain ⟨s, list, hrun, hs⟩ := singleListCalls_hold junk calls hnew hfresh hreturn hbound
    have hlength : (entriesRun type [] calls).length < fuel :=
      Nat.lt_of_le_of_lt (length_entriesRun_le type calls []) hbound
    obtain ⟨hdump, s', list', hfree, hlist', hbalance⟩ := dump_then_free junk hs hlength
    refine ⟨s', list', ?_, hlist', hbalance⟩
    simp only [singleListProgram, hrun, bind, Except.bind, hdump, hfree]
    rfl
  · intro hfails
    cases mallocSucceeds with
    | true =>
      have hreturn : ¬ CallsReturn type [] calls := fun h => hfails ⟨rfl, h⟩
      have hrun := singleListCalls_fault junk calls hnew hfresh hreturn hbound
      simp only [singleListProgram, hrun]
      rfl
    | false =>
      have hnull : (singleListNew false memory data type).list = none := rfl
      rcases singleListCalls_without_list junk fuel calls hnull with hrun | ⟨s, hrun, hlist⟩
      · simp only [singleListProgram, hrun]
        rfl
      · simp only [singleListProgram, hrun, bind, Except.bind, dumpTemplate, hlist]

/-- Block `0` is deleted and given out again; the fifo shows what is left in order. -/
theorem singleListProgram_reuses_block :
    ∃ s list, singleListProgram (fun _ => none) 5 true emptyListMemory (fun _ => (0 : Nat)) .tail
        [.add 1 (some 0), .add 2 (some 1), .del 0, .add 3 (some 0)] = .ok ([2, 3], s) ∧
      s.list = some list ∧ (emptyListMemory.freed ++ s.mallocs).Perm list.freed := by
  have hfresh : FreshBlocks .tail ([] : List (ℕ × Nat))
      [.add 1 (some 0), .add 2 (some 1), .del 0, .add 3 (some 0)] := by
    simp [FreshBlocks, entriesStep, insertNode]
  exact (singleListProgram_balances (fun _ => none) 5 true emptyListMemory (fun _ => (0 : Nat))
    .tail _ hfresh (by decide)).1 ⟨rfl, by simp [CallsReturn, CallReturns, entriesStep, insertNode]⟩

end GeneralPurposeLibrary.Proofs
