import GeneralPurposeLibrary.Foundation.LinkedRing
import Mathlib.Data.List.Basic

/-!
# Families of doubly linked rings

Several rings over the same two maps, each under its head node. No node is on two of them, as
a member or as a head. An operation touches the nodes of some of the rings; the others are
carried over by `IsFamily.replace`.
-/

namespace LinkedRing

variable {A : Type}

structure IsFamily (next prev : A → A) (rings : A → Option (List A)) : Prop where
  ring : ∀ head l, rings head = some l → IsRing next prev head l
  apart : ∀ head l head' l', rings head = some l → rings head' = some l' → head ≠ head' →
    (head :: l).Disjoint (head' :: l')

/-- The node is on no ring, unless it is a ring of its own. -/
def Loose (rings : A → Option (List A)) (a : A) : Prop :=
  (∀ head l, rings head = some l → a ∉ l) ∧ (rings a = none ∨ rings a = some [])

def Member (rings : A → Option (List A)) (a : A) : Prop := ∃ head l, rings head = some l ∧ a ∈ l

section Splice

variable {next prev : A → A} {list head : A} {m l : List A} [DecidableEq A]

lemma IsRing.splice (h₁ : IsRing next prev list m) (h₂ : IsRing next prev head l)
    (hm : m ≠ []) (hapart : (list :: m).Disjoint (head :: l)) :
    IsRing (Function.update (Function.update next head (next list)) (prev list) (next head))
      (Function.update (Function.update prev (next list) head) (next head) (prev list))
      head (m ++ l) := by
  obtain ⟨a, m, rfl⟩ : ∃ a m', m = a :: m' := List.exists_cons_of_ne_nil hm
  obtain ⟨c, r, hcr⟩ : ∃ c r, l ++ [head] = c :: r := List.exists_cons_of_ne_nil (by simp)
  have hfirst : next list = a := h₁.next_head
  have hat : next head = c := by
    have hjoined := h₂.joined
    rw [List.cons_append, hcr] at hjoined
    exact hjoined.rel.1
  have hlast : (a :: m).getLast? = some (prev list) := by
    have hlast := h₁.last_joined.1
    rwa [List.getLast?_cons_cons] at hlast
  have hlastmem : prev list ∈ a :: m := List.mem_of_getLast? hlast
  have hmnodup : (a :: m).Nodup := (List.nodup_cons.mp h₁.nodup).2
  have hcnodup : (c :: r).Nodup := by
    rw [← hcr, List.nodup_append_comm]
    exact h₂.nodup
  have hcmem : ∀ b, b ∈ c :: r ↔ b ∈ head :: l := by
    intro b
    rw [← hcr, List.mem_append, List.mem_singleton, List.mem_cons, or_comm]
  have hne : ∀ b ∈ a :: m, ∀ b' ∈ head :: l, b ≠ b' := by
    rintro b hb b' hb' rfl
    exact hapart (List.mem_cons_of_mem list hb) hb'
  refine ⟨?_, ?_⟩
  · rw [List.nodup_cons, List.mem_append, not_or, List.nodup_append]
    refine ⟨⟨?_, h₂.head_notMem⟩, hmnodup, (List.nodup_cons.mp h₂.nodup).2, ?_⟩
    · intro hmem
      exact hne head hmem head List.mem_cons_self rfl
    · intro b hb b' hb'
      exact hne b hb b' (List.mem_cons_of_mem head hb')
  · have hchain₁ : (a :: m).IsChain (Joined next prev) := by
      have hjoined := h₁.joined
      rw [List.cons_append] at hjoined
      exact hjoined.of_cons.left_of_append
    have hchain₂ : (c :: r).IsChain (Joined next prev) := by
      have hjoined := h₂.joined
      rw [List.cons_append, hcr] at hjoined
      exact hjoined.of_cons
    rw [hfirst, hat, List.cons_append, List.append_assoc, hcr, List.cons_append,
      List.isChain_cons_cons, ← List.cons_append, List.isChain_append]
    have hheadlast : head ≠ prev list :=
      (hne (prev list) hlastmem head List.mem_cons_self).symm
    have hac : a ≠ c := hne a List.mem_cons_self c ((hcmem c).mp List.mem_cons_self)
    refine ⟨?_, isChain_congr hchain₁ ?_ ?_, isChain_congr hchain₂ ?_ ?_, ?_⟩
    · simp [Joined, hheadlast, hac]
    · intro b hb
      have hbhead : b ≠ head :=
        hne b (List.dropLast_subset _ hb) head List.mem_cons_self
      have hblast : b ≠ prev list :=
        fun e => nodup_getLast_notMem_dropLast hmnodup hlast (e ▸ hb)
      simp [hbhead, hblast]
    · intro b hb
      rw [List.tail_cons] at hb
      have hba : b ≠ a := fun e => (List.nodup_cons.mp hmnodup).1 (e ▸ hb)
      have hbc : b ≠ c :=
        hne b (List.mem_cons_of_mem a hb) c ((hcmem c).mp List.mem_cons_self)
      simp [hba, hbc]
    · intro b hb
      have hbl : b ∈ l := by rwa [← hcr, List.dropLast_concat] at hb
      have hbhead : b ≠ head := fun e => h₂.head_notMem (e ▸ hbl)
      have hblast : b ≠ prev list :=
        (hne (prev list) hlastmem b (List.mem_cons_of_mem head hbl)).symm
      simp [hbhead, hblast]
    · intro b hb
      rw [List.tail_cons] at hb
      have hbc : b ≠ c := fun e => (List.nodup_cons.mp hcnodup).1 (e ▸ hb)
      have hba : b ≠ a :=
        (hne a List.mem_cons_self b ((hcmem b).mp (List.mem_cons_of_mem c hb))).symm
      simp [hbc, hba]
    · intro b hb b' hb'
      rw [hlast, Option.mem_some_iff] at hb
      rw [List.head?_cons, Option.mem_some_iff] at hb'
      subst hb hb'
      simp [Joined]

end Splice

lemma Loose.notMem {rings : A → Option (List A)} {a head : A} {l : List A} (ha : Loose rings a)
    (hl : rings head = some l) (hne : head ≠ a) : a ∉ head :: l := by
  intro hmem
  rcases List.mem_cons.mp hmem with rfl | hmem
  · exact hne rfl
  · exact ha.1 head l hl hmem

namespace IsFamily

variable {next prev next' prev' : A → A} {rings rings' : A → Option (List A)} {head a : A}
  {l : List A}

lemma empty (next prev : A → A) : IsFamily next prev fun _ => none where
  ring := by simp
  apart := by simp

lemma congr (h : IsFamily next prev rings)
    (hsame : ∀ head l, rings head = some l →
      ∀ a ∈ head :: l, next' a = next a ∧ prev' a = prev a) :
    IsFamily next' prev' rings where
  ring := by
    intro head l hl
    apply (h.ring head l hl).congr
    · intro a ha
      exact (hsame head l hl a ha).1
    · intro a ha
      exact (hsame head l hl a ha).2
  apart := h.apart

/-- The nodes in `T` may be linked anew, into one ring, if the other rings lie outside `T`. -/
lemma replace (h : IsFamily next prev rings) (head : A) (T : A → Prop)
    (hframe : ∀ a, ¬T a → next' a = next a ∧ prev' a = prev a)
    (hothers : ∀ head' l', rings' head' = some l' → head' ≠ head →
      rings head' = some l' ∧ ∀ a ∈ head' :: l', ¬T a)
    (hring : ∀ l, rings' head = some l → IsRing next' prev' head l ∧ ∀ a ∈ head :: l, T a) :
    IsFamily next' prev' rings' := by
  have hcross : ∀ l head' l', rings' head = some l → rings' head' = some l' → head' ≠ head →
      (head :: l).Disjoint (head' :: l') := by
    intro l head' l' hl hl' hne a ha ha'
    exact (hothers head' l' hl' hne).2 a ha' ((hring l hl).2 a ha)
  refine ⟨?_, ?_⟩
  · intro head' l' hl'
    by_cases hne : head' = head
    · subst hne
      exact (hring l' hl').1
    · obtain ⟨hold, hout⟩ := hothers head' l' hl' hne
      apply (h.ring head' l' hold).congr
      · intro a ha
        exact (hframe a (hout a ha)).1
      · intro a ha
        exact (hframe a (hout a ha)).2
  · intro head₁ l₁ head₂ l₂ h₁ h₂ hne
    by_cases hne₁ : head₁ = head
    · subst hne₁
      exact hcross l₁ head₂ l₂ h₁ h₂ hne.symm
    · by_cases hne₂ : head₂ = head
      · subst hne₂
        exact fun a ha ha' => hcross l₂ head₁ l₁ h₂ h₁ hne ha' ha
      · exact h.apart head₁ l₁ head₂ l₂ (hothers head₁ l₁ h₁ hne₁).1
          (hothers head₂ l₂ h₂ hne₂).1 hne

lemma head_ne_of_mem (h : IsFamily next prev rings) (hl : rings head = some l) (ha : a ∈ l)
    {head' : A} {l' : List A} (hl' : rings head' = some l') : head' ≠ a := by
  rintro rfl
  by_cases hne : head = head'
  · subst hne
    exact (h.ring head l hl).head_notMem ha
  · exact h.apart head l head' l' hl hl' hne (List.mem_cons_of_mem head ha) List.mem_cons_self

lemma eq_of_mem (h : IsFamily next prev rings) (hl : rings head = some l) (ha : a ∈ l)
    {head' : A} {l' : List A} (hl' : rings head' = some l') (ha' : a ∈ l') : head' = head := by
  by_contra hne
  exact h.apart head' l' head l hl' hl hne (List.mem_cons_of_mem head' ha')
    (List.mem_cons_of_mem head ha)

variable [DecidableEq A]

lemma single (h : IsFamily next prev rings) (ha : Loose rings a) :
    IsFamily (Function.update next a a) (Function.update prev a a)
      (Function.update rings a (some [])) := by
  refine h.replace a (· = a) ?_ ?_ ?_
  · intro b hb
    simp [hb]
  · intro head' l' hl' hne
    rw [Function.update_of_ne hne] at hl'
    refine ⟨hl', ?_⟩
    rintro b hb rfl
    exact ha.notMem hl' hne hb
  · intro l hl
    rw [Function.update_self] at hl
    cases hl
    exact ⟨IsRing.nil (by simp) (by simp), by simp⟩

lemma others_of_insert (h : IsFamily next prev rings) (hl : rings head = some l)
    (ha : Loose rings a) {m : List A} :
    ∀ head' l', Function.update (Function.update rings a none) head (some m) head' = some l' →
      head' ≠ head → rings head' = some l' ∧ ∀ b ∈ head' :: l', ¬(b ∈ a :: head :: l) := by
  intro head' l' hl' hne
  have hnea : head' ≠ a := by
    rintro rfl
    rw [Function.update_of_ne hne, Function.update_self] at hl'
    cases hl'
  rw [Function.update_of_ne hne, Function.update_of_ne hnea] at hl'
  refine ⟨hl', ?_⟩
  intro b hb hmem
  rcases List.mem_cons.mp hmem with rfl | hmem
  · exact ha.notMem hl' hnea hb
  · exact h.apart head' l' head l hl' hl hne hb hmem

lemma insertFirst (h : IsFamily next prev rings) (hl : rings head = some l) (ha : Loose rings a)
    (hne : head ≠ a) :
    IsFamily (Function.update (Function.update next a (next head)) head a)
      (Function.update (Function.update prev (next head) a) a head)
      (Function.update (Function.update rings a none) head (some (a :: l))) := by
  have hring := h.ring head l hl
  refine h.replace head (· ∈ a :: head :: l) ?_ (h.others_of_insert hl ha) ?_
  · intro b hb
    have hba : b ≠ a := fun e => hb (by simp [e])
    have hbhead : b ≠ head := fun e => hb (by simp [e])
    have hbnext : b ≠ next head := by
      rintro rfl
      exact hb (List.mem_cons_of_mem a (hring.next_mem List.mem_cons_self))
    simp [hba, hbhead, hbnext]
  · intro l' hl'
    rw [Function.update_self] at hl'
    cases hl'
    refine ⟨hring.insertFirst (ha.notMem hl hne), ?_⟩
    intro b hb
    simp only [List.mem_cons] at hb ⊢
    tauto

lemma append (h : IsFamily next prev rings) (hl : rings head = some l) (ha : Loose rings a)
    (hne : head ≠ a) :
    IsFamily (Function.update (Function.update next a head) (prev head) a)
      (Function.update (Function.update prev head a) a (prev head))
      (Function.update (Function.update rings a none) head (some (l ++ [a]))) := by
  have hring := h.ring head l hl
  refine h.replace head (· ∈ a :: head :: l) ?_ (h.others_of_insert hl ha) ?_
  · intro b hb
    have hba : b ≠ a := fun e => hb (by simp [e])
    have hbhead : b ≠ head := fun e => hb (by simp [e])
    have hbprev : b ≠ prev head := by
      rintro rfl
      exact hb (List.mem_cons_of_mem a (hring.prev_mem List.mem_cons_self))
    simp [hba, hbhead, hbprev]
  · intro l' hl'
    rw [Function.update_self] at hl'
    cases hl'
    refine ⟨hring.append (ha.notMem hl hne), ?_⟩
    intro b hb
    simp only [List.mem_cons, List.mem_append, List.not_mem_nil, or_false] at hb ⊢
    tauto

lemma unlink (h : IsFamily next prev rings) (hl : rings head = some l) (ha : a ∈ l) :
    IsFamily (Function.update next (prev a) (next a)) (Function.update prev (next a) (prev a))
      (fun head' => (rings head').map (List.erase · a)) := by
  have hring := h.ring head l hl
  have hnext : next a ∈ head :: l := hring.next_mem (List.mem_cons_of_mem head ha)
  have hprev : prev a ∈ head :: l := hring.prev_mem (List.mem_cons_of_mem head ha)
  refine h.replace head (· ∈ head :: l) ?_ ?_ ?_
  · intro b hb
    have hbnext : b ≠ next a := fun e => hb (e ▸ hnext)
    have hbprev : b ≠ prev a := fun e => hb (e ▸ hprev)
    simp [hbnext, hbprev]
  · intro head' l' hl' hne
    obtain ⟨m, hm, rfl⟩ := Option.map_eq_some_iff.mp hl'
    have hnotin : a ∉ m := fun hmem => hne (h.eq_of_mem hl ha hm hmem)
    rw [List.erase_of_not_mem hnotin]
    exact ⟨hm, fun b hb hmem => h.apart head' m head l hm hl hne hb hmem⟩
  · intro l' hl'
    rw [hl, Option.map_some, Option.some_inj] at hl'
    subst hl'
    obtain ⟨l₁, l₂, hsplit, hnotin⟩ := List.eq_append_cons_of_mem ha
    subst hsplit
    rw [List.erase_append_right _ hnotin, List.erase_cons_head]
    refine ⟨hring.unlinkMember, ?_⟩
    intro b hb
    simp only [List.mem_cons, List.mem_append] at hb ⊢
    tauto

lemma loose_of_unlink (h : IsFamily next prev rings) (hl : rings head = some l) (ha : a ∈ l) :
    Loose (fun head' => (rings head').map (List.erase · a)) a := by
  refine ⟨?_, ?_⟩
  · intro head' l' hl'
    obtain ⟨m, hm, rfl⟩ := Option.map_eq_some_iff.mp hl'
    exact ((List.nodup_cons.mp (h.ring head' m hm).nodup).2).not_mem_erase
  · left
    cases hm : rings a with
    | none => simp [hm]
    | some m => exact absurd rfl (h.head_ne_of_mem hl ha hm)

lemma splice {list : A} {m : List A} (h : IsFamily next prev rings) (hm : rings list = some m)
    (hl : rings head = some l) (hne : list ≠ head) (hnil : m ≠ []) :
    IsFamily (Function.update (Function.update next head (next list)) (prev list) (next head))
      (Function.update (Function.update prev (next list) head) (next head) (prev list))
      (Function.update (Function.update rings list none) head (some (m ++ l))) := by
  have hring₁ := h.ring list m hm
  have hring₂ := h.ring head l hl
  refine h.replace head (· ∈ (list :: m) ++ (head :: l)) ?_ ?_ ?_
  · intro b hb
    rw [List.mem_append, not_or] at hb
    have hbhead : b ≠ head := fun e => hb.2 (by simp [e])
    have hblast : b ≠ prev list := fun e => hb.1 (e ▸ hring₁.prev_mem List.mem_cons_self)
    have hbfirst : b ≠ next list := fun e => hb.1 (e ▸ hring₁.next_mem List.mem_cons_self)
    have hbat : b ≠ next head := fun e => hb.2 (e ▸ hring₂.next_mem List.mem_cons_self)
    simp [hbhead, hblast, hbfirst, hbat]
  · intro head' l' hl' hne'
    have hnelist : head' ≠ list := by
      rintro rfl
      rw [Function.update_of_ne hne', Function.update_self] at hl'
      cases hl'
    rw [Function.update_of_ne hne', Function.update_of_ne hnelist] at hl'
    refine ⟨hl', ?_⟩
    intro b hb hmem
    rcases List.mem_append.mp hmem with hmem | hmem
    · exact h.apart head' l' list m hl' hm hnelist hb hmem
    · exact h.apart head' l' head l hl' hl hne' hb hmem
  · intro l' hl'
    rw [Function.update_self] at hl'
    cases hl'
    refine ⟨hring₁.splice hring₂ hnil (h.apart list m head l hm hl hne), ?_⟩
    intro b hb
    simp only [List.mem_cons, List.mem_append] at hb ⊢
    tauto

lemma loose_of_splice {list : A} {m : List A} (h : IsFamily next prev rings)
    (hm : rings list = some m) (hl : rings head = some l) (hne : list ≠ head) :
    Loose (Function.update (Function.update rings list none) head (some (m ++ l))) list := by
  refine ⟨?_, ?_⟩
  · intro head' l' hl' hmem
    by_cases hhead : head' = head
    · subst hhead
      rw [Function.update_self] at hl'
      cases hl'
      rcases List.mem_append.mp hmem with hmem | hmem
      · exact (h.ring list m hm).head_notMem hmem
      · exact h.head_ne_of_mem hl hmem hm rfl
    · rw [Function.update_of_ne hhead] at hl'
      by_cases hlist : head' = list
      · subst hlist
        rw [Function.update_self] at hl'
        cases hl'
      · rw [Function.update_of_ne hlist] at hl'
        exact h.head_ne_of_mem hl' hmem hm rfl
  · left
    rw [Function.update_of_ne hne, Function.update_self]

end IsFamily

end LinkedRing
