import GeneralPurposeLibrary.SinglyLinkedList

/-!
# The singly linked list as a sequence

The abstract list after a sequence of calls, and what the memory of the code has to do with
it. Deleting a node is exact as long as it is not the last one: then the loop goes on from
the null pointer that the unlinking has left in the slot.
-/

namespace GeneralPurposeLibrary.Proofs
open LinkedChain

variable {Addr : Type} [DecidableEq Addr]

def insertNode : InsertType → Addr → List Addr → List Addr
  | .tail, new, l => l ++ [new]
  | .head, new, l => new :: l

/-- The abstract list and the nodes freed on the way. -/
structure ListSpec (Addr : Type) where
  nodes : List Addr
  freed : List Addr

def specStep (type : InsertType) (spec : ListSpec Addr) : ListCall Addr → ListSpec Addr
  | .add new => { spec with nodes := insertNode type new spec.nodes }
  | .del new =>
    if new ∈ spec.nodes then ⟨spec.nodes.erase new, spec.freed ++ [new]⟩ else spec

/-- Every node is added while it is not in the list. -/
def FreshAdds (type : InsertType) : ListSpec Addr → List (ListCall Addr) → Prop
  | _, [] => True
  | spec, call :: calls =>
    (∀ new, call = .add new → new ∉ spec.nodes) ∧ FreshAdds type (specStep type spec call) calls

/-- No call deletes the node that is the last of the list at that time. -/
def SparesLast (type : InsertType) : ListSpec Addr → List (ListCall Addr) → Prop
  | _, [] => True
  | spec, call :: calls =>
    (∀ new, call = .del new → spec.nodes.getLast? ≠ some new) ∧
      SparesLast type (specStep type spec call) calls

/-- The slot a call of `singly_linked_list_add` has to work on. -/
def tailSlot : InsertType → List Addr → Slot Addr
  | .tail, l => endSlot .head l
  | .head, _ => .head

/-- The memory holds the abstract list, `tail` designates the right slot, and the nodes freed
are those the abstract list has freed. -/
structure Represents (type : InsertType) (list : SinglyLinkedList Addr) (spec : ListSpec Addr) :
    Prop where
  type_eq : list.type = type
  chain : IsChain list.cells .head spec.nodes
  nodup : spec.nodes.Nodup
  tail : list.tail = tailSlot type spec.nodes
  freed : list.freed = spec.freed

/-! ### Adding -/

lemma add_represents {type : InsertType} {list : SinglyLinkedList Addr} {spec : ListSpec Addr}
    {new : Addr} (h : Represents type list spec) (hnew : new ∉ spec.nodes) :
    Represents type (singlyLinkedListAdd list new) (specStep type spec (.add new)) := by
  have hsame : ∀ v, ∀ a ∈ spec.nodes,
      (list.cells.write (.next new) v).next a = list.cells.next a := by
    intro v a ha
    have hne : Slot.next a ≠ Slot.next new := by
      intro heq
      cases heq
      exact hnew ha
    exact read_write_of_ne list.cells v hne
  have hchain : ∀ v, IsChain (list.cells.write (.next new) v) .head spec.nodes := fun v =>
    h.chain.congr (read_write_of_ne _ _ (by simp)) (hsame v)
  cases type with
  | tail =>
    have htail : list.tail = endSlot .head spec.nodes := h.tail
    unfold singlyLinkedListAdd
    rw [h.type_eq]
    constructor
    case type_eq => rfl
    case chain =>
      dsimp only
      rw [htail]
      have hnext : (list.cells.write (.next new) none).read (.next new) = none :=
        read_write_same _ _ _
      exact (hchain none).append h.nodup hnew hnext
    case nodup =>
      change (spec.nodes ++ [new]).Nodup
      rw [← List.concat_eq_append]
      exact List.Nodup.concat hnew h.nodup
    case tail => exact (endSlot_append .head spec.nodes [new]).symm
    case freed => exact h.freed
  | head =>
    have htail : list.tail = .head := h.tail
    unfold singlyLinkedListAdd
    rw [h.type_eq]
    constructor
    case type_eq => rfl
    case chain =>
      dsimp only
      rw [htail]
      change IsChain _ .head (new :: spec.nodes)
      rw [isChain_cons, read_write_same]
      refine ⟨rfl, (hchain _).congr ?_ (fun a _ => rfl)⟩
      rw [read_write_of_ne _ _ (by simp), read_write_same, read_write_of_ne _ _ (by simp)]
    case nodup => exact List.nodup_cons.mpr ⟨hnew, h.nodup⟩
    case tail => rfl
    case freed => exact h.freed

/-! ### Deleting -/

section Delete

variable {junk : Addr → Option Addr} {list : SinglyLinkedList Addr} {new : Addr}

lemma delLoop_walk {s : Slot Addr} {l : List Addr} (h : Links list.cells s l) (hn : new ∉ l)
    (fuel : ℕ) :
    delLoop junk (l.length + fuel) list (some s) new =
      delLoop junk fuel list (some (endSlot s l)) new := by
  induction l generalizing s with
  | nil => rw [List.length_nil, Nat.zero_add, endSlot]
  | cons a l ih =>
    have hne : new ≠ a := List.ne_of_not_mem_cons hn
    have hl : new ∉ l := List.not_mem_of_not_mem_cons hn
    have hbody : delBody junk list s a new = list := if_pos (Ne.symm hne)
    have hslot : nextSlot list s = some (.next a) := by rw [nextSlot, h.1, Option.map_some]
    have hfuel : (a :: l).length + fuel = (l.length + fuel) + 1 := by
      rw [List.length_cons]
      omega
    rw [hfuel, delLoop, h.1]
    dsimp only
    rw [hbody, hslot, ih h.2 hl]
    rfl

lemma delLoop_absent {s : Slot Addr} {l : List Addr} (h : IsChain list.cells s l)
    (hn : new ∉ l) {fuel : ℕ} (hfuel : l.length < fuel) :
    delLoop junk fuel list (some s) new = .returned list := by
  obtain ⟨k, rfl⟩ : ∃ k, fuel = l.length + (k + 1) := ⟨fuel - l.length - 1, by omega⟩
  rw [delLoop_walk h.1 hn, delLoop, h.2]

lemma delBody_chain (junk : Addr → Option Addr) {l₁ l₂ : List Addr}
    (h : IsChain list.cells .head (l₁ ++ new :: l₂))
    (hl : (l₁ ++ new :: l₂).Nodup) :
    IsChain (delBody junk list (endSlot .head l₁) new new).cells .head (l₁ ++ l₂) := by
  have hcells : (delBody junk list (endSlot .head l₁) new new).cells =
      (list.cells.write (endSlot .head l₁) (list.cells.next new)).write (.next new) (junk new) := by
    unfold delBody freeNode
    rw [if_neg (by simp)]
    dsimp only
    split <;> rfl
  have hnotin : new ∉ l₁ ++ l₂ := (List.nodup_middle.mp hl).notMem
  rw [hcells]
  refine (h.unlink hl).congr (read_write_of_ne _ _ (by simp)) ?_
  intro a ha
  have hne : Slot.next a ≠ Slot.next new := by
    intro heq
    cases heq
    exact hnotin ha
  exact read_write_of_ne _ _ hne

lemma delBody_inner (junk : Addr → Option Addr) (ptr : Slot Addr) {b : Addr}
    (h : list.cells.next new = some b) :
    delBody junk list ptr new new =
      freeNode junk { list with cells := list.cells.write ptr (some b) } new := by
  unfold delBody
  rw [if_neg (by simp), h]
  dsimp only
  rw [if_neg (by simp)]

/-- Deleting the last node follows the null pointer that takes its place. -/
lemma del_last {l : List Addr} (h : IsChain list.cells .head (l ++ [new]))
    (hl : (l ++ [new]).Nodup) {fuel : ℕ} (hfuel : l.length + 1 < fuel) :
    singlyLinkedListDel junk fuel list new = .nullPointer := by
  obtain ⟨k, rfl⟩ : ∃ k, fuel = l.length + (k + 2) := ⟨fuel - l.length - 2, by omega⟩
  obtain ⟨hlinks, hrest⟩ := isChain_append.mp h
  have hread : list.cells.read (endSlot .head l) = some new := (isChain_cons.mp hrest).1
  have hnew : new ∉ l := fun hmem =>
    List.disjoint_of_nodup_append hl hmem (List.mem_singleton.mpr rfl)
  have hafter := (isChain_append.mp (delBody_chain junk h hl)).2
  have hslot : nextSlot (delBody junk list (endSlot .head l) new new) (endSlot .head l) = none := by
    rw [nextSlot, isChain_nil.mp hafter, Option.map_none]
  rw [singlyLinkedListDel, delLoop_walk hlinks hnew, delLoop, hread]
  dsimp only
  rw [hslot, delLoop]

lemma del_inner {l₁ l₂ : List Addr} {b : Addr}
    (h : IsChain list.cells .head (l₁ ++ new :: b :: l₂))
    (hl : (l₁ ++ new :: b :: l₂).Nodup) {fuel : ℕ} (hfuel : l₁.length + l₂.length + 2 < fuel) :
    singlyLinkedListDel junk fuel list new =
      .returned (delBody junk list (endSlot .head l₁) new new) := by
  obtain ⟨k, rfl⟩ : ∃ k, fuel = l₁.length + (k + 1) := ⟨fuel - l₁.length - 1, by omega⟩
  obtain ⟨hlinks, hrest⟩ := isChain_append.mp h
  have hread : list.cells.read (endSlot .head l₁) = some new := (isChain_cons.mp hrest).1
  have hnew : new ∉ l₁ ++ b :: l₂ := (List.nodup_middle.mp hl).notMem
  have hafter := (isChain_append.mp (delBody_chain junk h hl)).2
  obtain ⟨hnext, htail⟩ := isChain_cons.mp hafter
  have hslot : nextSlot (delBody junk list (endSlot .head l₁) new new) (endSlot .head l₁) =
      some (.next b) := by
    rw [nextSlot, hnext, Option.map_some]
  rw [singlyLinkedListDel, delLoop_walk hlinks (fun hmem => hnew (List.mem_append_left _ hmem)),
    delLoop, hread]
  dsimp only
  rw [hslot]
  apply delLoop_absent htail _ (by omega)
  exact fun hmem => hnew (List.mem_append_right _ (List.mem_cons_of_mem b hmem))

lemma del_represents (junk : Addr → Option Addr) {type : InsertType} {spec : ListSpec Addr}
    (h : Represents type list spec) (hlast : spec.nodes.getLast? ≠ some new) {fuel : ℕ}
    (hfuel : spec.nodes.length < fuel) :
    ∃ list', singlyLinkedListDel junk fuel list new = .returned list' ∧
      Represents type list' (specStep type spec (.del new)) := by
  by_cases hmem : new ∈ spec.nodes
  · obtain ⟨l₁, l₂, hsplit⟩ := List.append_of_mem hmem
    cases l₂ with
    | nil =>
      rw [hsplit] at hlast
      simp at hlast
    | cons b l₂ =>
      have hchain := h.chain
      have hnodup := h.nodup
      rw [hsplit] at hchain hnodup hfuel
      have hnotin : new ∉ l₁ := fun hm =>
        List.disjoint_of_nodup_append hnodup hm List.mem_cons_self
      have herase : spec.nodes.erase new = l₁ ++ b :: l₂ := by
        rw [hsplit, List.erase_append_right _ hnotin, List.erase_cons_head]
      have hnext : list.cells.next new = some b :=
        (isChain_cons.mp (isChain_cons.mp (isChain_append.mp hchain).2).2).1
      have hbody := delBody_inner junk (endSlot .head l₁) hnext
      have hlength : l₁.length + l₂.length + 2 < fuel := by
        simp only [List.length_append, List.length_cons] at hfuel
        omega
      refine ⟨_, del_inner hchain hnodup hlength, ?_⟩
      rw [specStep, if_pos hmem, herase]
      constructor
      case type_eq =>
        rw [hbody]
        exact h.type_eq
      case chain => exact delBody_chain junk hchain hnodup
      case nodup => exact (List.nodup_middle.mp hnodup).of_cons
      case tail =>
        have hsame : tailSlot type spec.nodes = tailSlot type (l₁ ++ b :: l₂) := by
          cases type with
          | tail => simp only [tailSlot, hsplit, endSlot_append, endSlot]
          | head => rfl
        rw [hbody, ← hsame]
        exact h.tail
      case freed =>
        rw [hbody]
        exact congrArg (· ++ [new]) h.freed
  · refine ⟨list, delLoop_absent h.chain hmem hfuel, ?_⟩
    rw [specStep, if_neg hmem]
    exact h

end Delete

/-! ### Runs -/

/-- The abstract list after a sequence of calls. -/
def specRun (type : InsertType) (spec : ListSpec Addr) (calls : List (ListCall Addr)) :
    ListSpec Addr :=
  calls.foldl (specStep type) spec

lemma length_specStep_le (type : InsertType) (spec : ListSpec Addr) (call : ListCall Addr) :
    (specStep type spec call).nodes.length ≤ spec.nodes.length + 1 := by
  cases call with
  | add new => cases type <;> simp [specStep, insertNode]
  | del new =>
    rw [specStep]
    split
    · have hle : (spec.nodes.erase new).length ≤ spec.nodes.length := List.length_erase_le
      exact Nat.le_succ_of_le hle
    · omega

lemma runList_represents {junk : Addr → Option Addr} {type : InsertType} {fuel : ℕ}
    (calls : List (ListCall Addr)) {list : SinglyLinkedList Addr} {spec : ListSpec Addr}
    (h : Represents type list spec) (hfresh : FreshAdds type spec calls)
    (hspares : SparesLast type spec calls) (hfuel : spec.nodes.length + calls.length < fuel) :
    ∃ list', runList junk fuel list calls = .returned list' ∧
      Represents type list' (specRun type spec calls) := by
  induction calls generalizing list spec with
  | nil => exact ⟨list, rfl, h⟩
  | cons call calls ih =>
    have hlength := length_specStep_le type spec call
    rw [List.length_cons] at hfuel
    cases call with
    | add new =>
      exact ih (add_represents h (hfresh.1 new rfl)) hfresh.2 hspares.2 (by omega)
    | del new =>
      obtain ⟨list₁, hdel, hstep⟩ :=
        del_represents junk h (hspares.1 new rfl) (by omega : spec.nodes.length < fuel)
      obtain ⟨list₂, hrun, hrest⟩ := ih hstep hfresh.2 hspares.2 (by omega)
      refine ⟨list₂, ?_, hrest⟩
      rw [runList, hdel]
      exact hrun

lemma runList_nullPointer {junk : Addr → Option Addr} {type : InsertType} {fuel : ℕ}
    (calls : List (ListCall Addr)) {list : SinglyLinkedList Addr} {spec : ListSpec Addr}
    (h : Represents type list spec) (hfresh : FreshAdds type spec calls)
    (hspares : ¬ SparesLast type spec calls) (hfuel : spec.nodes.length + calls.length < fuel) :
    runList junk fuel list calls = .nullPointer := by
  induction calls generalizing list spec with
  | nil => exact absurd trivial hspares
  | cons call calls ih =>
    have hlength := length_specStep_le type spec call
    rw [List.length_cons] at hfuel
    cases call with
    | add new =>
      apply ih (add_represents h (hfresh.1 new rfl)) hfresh.2 _ (by omega)
      intro hrest
      refine hspares ⟨?_, hrest⟩
      intro _ hcall
      cases hcall
    | del new =>
      by_cases hlast : spec.nodes.getLast? = some new
      · obtain ⟨l, hl⟩ := List.getLast?_eq_some_iff.mp hlast
        have hchain := h.chain
        have hnodup := h.nodup
        rw [hl] at hchain hnodup hfuel
        have hdel : singlyLinkedListDel junk fuel list new = .nullPointer := by
          apply del_last hchain hnodup
          rw [List.length_append, List.length_singleton] at hfuel
          omega
        rw [runList, hdel]
      · obtain ⟨list₁, hdel, hstep⟩ :=
          del_represents junk h hlast (by omega : spec.nodes.length < fuel)
        rw [runList, hdel]
        apply ih hstep hfresh.2 _ (by omega)
        intro hrest
        refine hspares ⟨?_, hrest⟩
        intro _ hcall
        cases hcall
        exact hlast

lemma init_represents (memory : SinglyLinkedList Addr) (type : InsertType) :
    Represents type (initSinglyLinkedList memory type) ⟨[], memory.freed⟩ := by
  constructor
  case type_eq => rfl
  case chain => exact isChain_nil.mpr rfl
  case nodup => exact List.nodup_nil
  case tail => cases type <;> rfl
  case freed => rfl

/-- For either insert type, a sequence of calls refines the abstract list if and only if no
call deletes the last node of the list. -/
theorem list_refines_iff_spares_last (junk : Addr → Option Addr) (type : InsertType)
    (memory : SinglyLinkedList Addr) (calls : List (ListCall Addr)) (fuel : ℕ)
    (hfresh : FreshAdds type ⟨[], memory.freed⟩ calls) (hfuel : calls.length < fuel) :
    (∃ list, runList junk fuel (initSinglyLinkedList memory type) calls = .returned list ∧
        Represents type list (specRun type ⟨[], memory.freed⟩ calls)) ↔
      SparesLast type ⟨[], memory.freed⟩ calls := by
  have hinit := init_represents memory type
  have hbound : ([] : List Addr).length + calls.length < fuel := by simpa using hfuel
  constructor
  · rintro ⟨list, hrun, -⟩
    by_contra hspares
    rw [runList_nullPointer calls hinit hfresh hspares hbound] at hrun
    cases hrun
  · intro hspares
    exact runList_represents calls hinit hfresh hspares hbound

def emptyListMemory : SinglyLinkedList ℕ := ⟨⟨none, fun _ => none⟩, .head, .head, []⟩

theorem delete_first_refines :
    FreshAdds .tail ⟨[], emptyListMemory.freed⟩ [.add 0, .add 1, .del 0] ∧
      ((∃ list, runList (fun _ => none) 4 (initSinglyLinkedList emptyListMemory .tail)
          [.add 0, .add 1, .del 0] = .returned list ∧
          Represents .tail list
            (specRun .tail ⟨[], emptyListMemory.freed⟩ [.add 0, .add 1, .del 0])) ↔
        SparesLast .tail ⟨[], emptyListMemory.freed⟩ [.add 0, .add 1, .del 0]) := by
  have hfresh : FreshAdds .tail ⟨[], emptyListMemory.freed⟩ [.add 0, .add 1, .del 0] := by
    simp [FreshAdds, specStep, insertNode, emptyListMemory]
  exact ⟨hfresh, list_refines_iff_spares_last (fun _ => none) .tail emptyListMemory _ 4 hfresh
    (by decide)⟩

/-- Adding a node and deleting it again does not return, whatever the fuel. -/
theorem delete_only_node_faults :
    ¬ ∃ fuel list, runList (fun _ => none) fuel (initSinglyLinkedList emptyListMemory .tail)
      [.add 0, .del 0] = .returned list := by
  rintro ⟨fuel, list, hrun⟩
  match fuel with
  | 0 => cases hrun
  | 1 => cases hrun
  | fuel + 2 => cases hrun

end GeneralPurposeLibrary.Proofs
