import Mathlib.Data.List.Chain
import Mathlib.Data.List.Nodup
import Mathlib.Logic.Function.Basic

/-!
# Doubly linked rings

A ring through a head node and a list of further nodes, given by the two maps `next` and
`prev`. The nodes are pairwise distinct and neighbours point at each other both ways.
-/

namespace LinkedRing

variable {A : Type}

def Joined (next prev : A → A) (a b : A) : Prop := next a = b ∧ prev b = a

structure IsRing (next prev : A → A) (head : A) (nodes : List A) : Prop where
  nodup : (head :: nodes).Nodup
  joined : ((head :: nodes) ++ [head]).IsChain (Joined next prev)

section Chains

variable {next prev next' prev' : A → A}

lemma isChain_congr {l : List A} (h : l.IsChain (Joined next prev))
    (hnext : ∀ a ∈ l.dropLast, next' a = next a) (hprev : ∀ a ∈ l.tail, prev' a = prev a) :
    l.IsChain (Joined next' prev') := by
  induction l with
  | nil => exact .nil
  | cons a l ih =>
    cases l with
    | nil => exact .singleton a
    | cons b l =>
      rw [List.isChain_cons_cons] at h ⊢
      have hjoined : Joined next' prev' a b := by
        refine ⟨?_, ?_⟩
        · rw [hnext a (by simp)]
          exact h.1.1
        · rw [hprev b (by simp)]
          exact h.1.2
      refine ⟨hjoined, ih h.2 ?_ ?_⟩
      · intro c hc
        exact hnext c (by simp [hc])
      · intro c hc
        exact hprev c (List.mem_cons_of_mem b hc)

lemma nodup_getLast_notMem_dropLast {l : List A} (h : l.Nodup) {a : A}
    (ha : l.getLast? = some a) : a ∉ l.dropLast := by
  obtain ⟨l, rfl⟩ : ∃ l', l = l' ++ [a] := List.getLast?_eq_some_iff.mp ha
  rw [List.dropLast_concat]
  intro hmem
  exact List.disjoint_of_nodup_append h hmem (List.mem_singleton_self a)

end Chains

namespace IsRing

variable {next prev : A → A} {head : A} {nodes : List A}

lemma nil (hnext : next head = head) (hprev : prev head = head) : IsRing next prev head [] where
  nodup := List.nodup_singleton head
  joined := by simp [Joined, hnext, hprev]

lemma head_notMem (h : IsRing next prev head nodes) : head ∉ nodes :=
  (List.nodup_cons.mp h.nodup).1

lemma congr {next' prev' : A → A} (h : IsRing next prev head nodes)
    (hnext : ∀ a ∈ head :: nodes, next' a = next a)
    (hprev : ∀ a ∈ head :: nodes, prev' a = prev a) : IsRing next' prev' head nodes where
  nodup := h.nodup
  joined := by
    refine isChain_congr h.joined ?_ ?_
    · intro a ha
      rw [List.dropLast_concat] at ha
      exact hnext a ha
    · intro a ha
      refine hprev a ?_
      simpa [or_comm] using ha

lemma next_head_eq (h : IsRing next prev head nodes) : next head = nodes.head?.getD head := by
  cases nodes with
  | nil => exact h.joined.rel.1
  | cons a nodes => exact h.joined.rel.1

lemma next_head {a : A} (h : IsRing next prev head (a :: nodes)) : next head = a :=
  h.next_head_eq

lemma next_first {a : A} (h : IsRing next prev head (a :: nodes)) :
    next a = nodes.head?.getD head := by
  have hjoined := (List.isChain_cons_cons.mp h.joined).2
  cases nodes with
  | nil => exact hjoined.rel.1
  | cons b nodes => exact hjoined.rel.1

lemma prev_first {a : A} (h : IsRing next prev head (a :: nodes)) : prev a = head :=
  h.joined.rel.2

lemma next_head_eq_iff (h : IsRing next prev head nodes) : next head = head ↔ nodes = [] := by
  cases nodes with
  | nil => exact iff_of_true h.joined.rel.1 rfl
  | cons a nodes =>
    have hne : a ≠ head := fun e => h.head_notMem (by simp [e])
    simp [h.next_head, hne]

lemma unique_aux {prev' : A → A} (a : A) (xs ys : List A)
    (hx : (a :: (xs ++ [head])).IsChain (Joined next prev))
    (hy : (a :: (ys ++ [head])).IsChain (Joined next prev'))
    (hxs : head ∉ xs) (hys : head ∉ ys) : xs = ys := by
  induction xs generalizing a ys with
  | nil =>
    cases ys with
    | nil => rfl
    | cons y ys =>
      have hnext : head = y := hx.rel.1.symm.trans hy.rel.1
      simp [hnext] at hys
  | cons x xs ih =>
    cases ys with
    | nil =>
      have hnext : head = x := hy.rel.1.symm.trans hx.rel.1
      simp [hnext] at hxs
    | cons y ys =>
      have hnext : x = y := hx.rel.1.symm.trans hy.rel.1
      subst hnext
      rw [ih x ys hx.of_cons hy.of_cons (by simp_all) (by simp_all)]

lemma unique {nodes' : List A} (h : IsRing next prev head nodes)
    (h' : IsRing next prev head nodes') : nodes = nodes' :=
  unique_aux head nodes nodes' h.joined h'.joined h.head_notMem h'.head_notMem

lemma last_joined (h : IsRing next prev head nodes) :
    (head :: nodes).getLast? = some (prev head) ∧ next (prev head) = head := by
  have hjoined := (List.isChain_append.mp h.joined).2.2
  obtain ⟨last, hlast⟩ : ∃ last, (head :: nodes).getLast? = some last :=
    ⟨_, List.getLast?_eq_some_getLast (List.cons_ne_nil head nodes)⟩
  have := hjoined last hlast head rfl
  rw [this.2]
  exact ⟨hlast, this.1⟩

lemma rotate {a : A} {l₁ l₂ : List A} (h : IsRing next prev head (l₁ ++ a :: l₂)) :
    IsRing next prev a (l₂ ++ head :: l₁) := by
  have hjoined := h.joined
  have hsplit : ((head :: (l₁ ++ a :: l₂)) ++ [head]) = (head :: l₁) ++ a :: (l₂ ++ [head]) := by
    simp
  rw [hsplit, List.isChain_split] at hjoined
  refine ⟨?_, ?_⟩
  · have hperm : (a :: (l₂ ++ head :: l₁)).Perm (head :: (l₁ ++ a :: l₂)) := by
      have hswap : ((a :: l₂) ++ (head :: l₁)).Perm ((head :: l₁) ++ (a :: l₂)) :=
        List.perm_append_comm
      exact hswap
    exact hperm.nodup_iff.mpr h.nodup
  · have hrotated : ((a :: (l₂ ++ head :: l₁)) ++ [a]) = (a :: l₂) ++ head :: (l₁ ++ [a]) := by
      simp
    rw [hrotated, List.isChain_split]
    exact ⟨hjoined.2, hjoined.1⟩

lemma next_mem (h : IsRing next prev head nodes) {a : A} (ha : a ∈ head :: nodes) :
    next a ∈ head :: nodes := by
  rcases List.mem_cons.mp ha with rfl | ha
  · rw [h.next_head_eq]
    cases nodes <;> simp
  · obtain ⟨l₁, l₂, rfl⟩ := List.append_of_mem ha
    rw [h.rotate.next_head_eq]
    cases l₂ <;> simp

lemma prev_mem (h : IsRing next prev head nodes) {a : A} (ha : a ∈ head :: nodes) :
    prev a ∈ head :: nodes := by
  rcases List.mem_cons.mp ha with rfl | ha
  · exact List.mem_of_getLast? h.last_joined.1
  · obtain ⟨l₁, l₂, rfl⟩ := List.append_of_mem ha
    have hmem := List.mem_of_getLast? h.rotate.last_joined.1
    simp only [List.mem_cons, List.mem_append] at hmem ⊢
    tauto

variable [DecidableEq A]

lemma append (h : IsRing next prev head nodes) {a : A} (ha : a ∉ head :: nodes) :
    IsRing (Function.update (Function.update next a head) (prev head) a)
      (Function.update (Function.update prev head a) a (prev head)) head (nodes ++ [a]) := by
  obtain ⟨hlast, hnextlast⟩ := h.last_joined
  have hlastmem : prev head ∈ head :: nodes := List.mem_of_getLast? hlast
  have halast : a ≠ prev head := fun e => ha (e ▸ hlastmem)
  have hahead : a ≠ head := fun e => ha (by simp [e])
  refine ⟨?_, ?_⟩
  · rw [← List.cons_append, List.nodup_append]
    refine ⟨h.nodup, List.nodup_singleton a, ?_⟩
    intro b hb c hc
    rw [List.mem_singleton] at hc
    exact fun e => ha (hc ▸ e ▸ hb)
  · rw [← List.cons_append, List.append_assoc, List.isChain_append]
    refine ⟨?_, ?_, ?_⟩
    · refine isChain_congr (List.isChain_append.mp h.joined).1 ?_ ?_
      · intro b hb
        have hblast : b ≠ prev head :=
          fun e => nodup_getLast_notMem_dropLast h.nodup hlast (e ▸ hb)
        have hba : b ≠ a := fun e => ha (e ▸ List.dropLast_subset _ hb)
        simp [hblast, hba]
      · intro b hb
        rw [List.tail_cons] at hb
        have hbhead : b ≠ head := fun e => h.head_notMem (e ▸ hb)
        have hba : b ≠ a := fun e => ha (List.mem_cons_of_mem head (e ▸ hb))
        simp [hbhead, hba]
    · simp [Joined, halast, hahead.symm]
    · intro b hb c hc
      rw [hlast, Option.mem_some_iff] at hb
      simp only [List.singleton_append, List.head?_cons, Option.mem_some_iff] at hc
      subst hb hc
      simp [Joined]

lemma unlink {a : A} (h : IsRing next prev head (a :: nodes)) :
    IsRing (Function.update next (prev a) (next a)) (Function.update prev (next a) (prev a))
      head nodes := by
  obtain ⟨b, l, hbl⟩ : ∃ b l, nodes ++ [head] = b :: l :=
    List.exists_cons_of_ne_nil (by simp)
  have hchain : (head :: a :: b :: l).IsChain (Joined next prev) := by
    have := h.joined
    rwa [List.cons_append, List.cons_append, hbl] at this
  have hnext : next a = b := hchain.of_cons.rel.1
  have hnodup : (head :: nodes).Nodup := h.nodup.sublist (by simp)
  have hrotated : (b :: l).Nodup := by
    rw [← hbl, List.nodup_append_comm]
    exact hnodup
  refine ⟨hnodup, ?_⟩
  rw [List.cons_append, hbl, hnext, h.prev_first, List.isChain_cons_cons]
  refine ⟨by simp [Joined], isChain_congr hchain.of_cons.of_cons ?_ ?_⟩
  · intro c hc
    rw [← hbl, List.dropLast_concat] at hc
    have hchead : c ≠ head := fun e => (List.nodup_cons.mp hnodup).1 (e ▸ hc)
    simp [hchead]
  · intro c hc
    have hcb : c ≠ b := fun e => (List.nodup_cons.mp hrotated).1 (e ▸ hc)
    simp [hcb]

lemma insertFirst (h : IsRing next prev head nodes) {a : A} (ha : a ∉ head :: nodes) :
    IsRing (Function.update (Function.update next a (next head)) head a)
      (Function.update (Function.update prev (next head) a) a head) head (a :: nodes) := by
  cases nodes with
  | nil =>
    have hnext : next head = head := h.next_head_eq
    have hprev : prev head = head := h.joined.rel.2
    have hring := h.append ha
    rw [hprev] at hring
    rw [hnext]
    exact hring
  | cons b nodes =>
    have hfirst : IsRing next prev head ([] ++ b :: nodes) := h
    have hrotated : IsRing next prev b (nodes ++ [head]) := hfirst.rotate
    have hnotin : a ∉ b :: (nodes ++ [head]) := by
      simp only [List.mem_cons, List.mem_append, List.not_mem_nil] at ha ⊢
      tauto
    have hring := hrotated.append hnotin
    rw [h.prev_first] at hring
    rw [h.next_head]
    have hsplit : nodes ++ [head] ++ [a] = nodes ++ head :: [a] := by simp
    rw [hsplit] at hring
    exact hring.rotate

lemma unlinkMember {a : A} {l₁ l₂ : List A} (h : IsRing next prev head (l₁ ++ a :: l₂)) :
    IsRing (Function.update next (prev a) (next a)) (Function.update prev (next a) (prev a))
      head (l₁ ++ l₂) := by
  induction l₁ using List.reverseRecOn with
  | nil => exact h.unlink
  | append_singleton l₁ b _ =>
    have hsplit : l₁ ++ [b] ++ a :: l₂ = l₁ ++ b :: (a :: l₂) := by simp
    rw [hsplit] at h
    have hrotated : IsRing next prev b (a :: (l₂ ++ head :: l₁)) := h.rotate
    have hback : l₁ ++ [b] ++ l₂ = l₁ ++ b :: l₂ := by simp
    rw [hback]
    exact hrotated.unlink.rotate

end IsRing

end LinkedRing
