import Mathlib.Data.List.Basic

/-!
# Rooted trees given by their parents

Every node has a parent, and a depth that its parent undercuts by one until the root is
reached at depth zero. The chain of a node runs from the node up to the root.
-/

structure ParentTree (S : Type) where
  root : S
  parent : S → S
  depth : S → Nat
  depth_eq_zero : ∀ s, depth s = 0 ↔ s = root
  depth_parent : ∀ s, s ≠ root → depth s = depth (parent s) + 1

namespace ParentTree

variable {S : Type} (tree : ParentTree S)

def chainFrom : Nat → S → List S
  | 0, s => [s]
  | n + 1, s => s :: chainFrom n (tree.parent s)

/-- The node, its parent, and so on up to the root. -/
def chain (s : S) : List S := tree.chainFrom (tree.depth s) s

lemma depth_root : tree.depth tree.root = 0 := (tree.depth_eq_zero _).mpr rfl

@[simp] lemma chain_root : tree.chain tree.root = [tree.root] := by
  rw [chain, depth_root, chainFrom]

lemma chain_of_ne_root {s : S} (hs : s ≠ tree.root) :
    tree.chain s = s :: tree.chain (tree.parent s) := by
  rw [chain, tree.depth_parent s hs, chainFrom, chain]

/-- Induction from the root downwards. -/
lemma rec_parent {P : S → Prop} (hroot : P tree.root)
    (hparent : ∀ s, s ≠ tree.root → P (tree.parent s) → P s) (s : S) : P s := by
  induction hn : tree.depth s generalizing s with
  | zero =>
    rw [(tree.depth_eq_zero s).mp hn]
    exact hroot
  | succ n ih =>
    have hs : s ≠ tree.root := by
      intro h
      rw [h, depth_root] at hn
      omega
    have hd := tree.depth_parent s hs
    exact hparent s hs (ih (tree.parent s) (by omega))

lemma mem_chain_self (s : S) : s ∈ tree.chain s := by
  by_cases hs : s = tree.root
  · simp [hs]
  · simp [tree.chain_of_ne_root hs]

lemma root_mem_chain (s : S) : tree.root ∈ tree.chain s := by
  induction s using tree.rec_parent with
  | hroot => simp
  | hparent s hs ih => simp [tree.chain_of_ne_root hs, ih]

lemma getLast_chain (s : S) : (tree.chain s).getLast? = some tree.root := by
  induction s using tree.rec_parent with
  | hroot => simp
  | hparent s hs ih => simp [tree.chain_of_ne_root hs, List.getLast?_cons, ih]

lemma parent_mem_chain {s u : S} (hu : u ∈ tree.chain s) (hroot : u ≠ tree.root) :
    tree.parent u ∈ tree.chain s := by
  induction s using tree.rec_parent with
  | hroot => simp_all
  | hparent s hs ih =>
    rw [tree.chain_of_ne_root hs, List.mem_cons] at hu ⊢
    rcases hu with rfl | hu
    · exact .inr (tree.mem_chain_self _)
    · exact .inr (ih hu)

lemma depth_le_of_mem_chain {s u : S} (hu : u ∈ tree.chain s) : tree.depth u ≤ tree.depth s := by
  induction s using tree.rec_parent with
  | hroot => simp_all
  | hparent s hs ih =>
    rw [tree.chain_of_ne_root hs, List.mem_cons] at hu
    rcases hu with rfl | hu
    · exact Nat.le_refl _
    · have hd := tree.depth_parent s hs
      have := ih hu
      omega

lemma depth_lt_of_mem_chain {s u : S} (hu : u ∈ tree.chain s) (hne : u ≠ s) :
    tree.depth u < tree.depth s := by
  by_cases hs : s = tree.root
  · rw [hs, chain_root, List.mem_singleton] at hu
    exact absurd (hu.trans hs.symm) hne
  · rw [tree.chain_of_ne_root hs, List.mem_cons] at hu
    have hle := tree.depth_le_of_mem_chain (hu.resolve_left hne)
    have hd := tree.depth_parent s hs
    omega

lemma chain_subset {s u : S} (hu : u ∈ tree.chain s) : tree.chain u ⊆ tree.chain s := by
  induction s using tree.rec_parent with
  | hroot => simp_all
  | hparent s hs ih =>
    rw [tree.chain_of_ne_root hs, List.mem_cons] at hu
    rcases hu with rfl | hu
    · exact fun _ h => h
    · rw [tree.chain_of_ne_root hs]
      exact fun x hx => List.mem_cons_of_mem _ (ih hu hx)

lemma length_chain (s : S) : (tree.chain s).length = tree.depth s + 1 := by
  induction s using tree.rec_parent with
  | hroot => rw [chain_root, depth_root, List.length_singleton]
  | hparent s hs ih =>
    rw [tree.chain_of_ne_root hs, List.length_cons, ih, tree.depth_parent s hs]

lemma depth_of_getElem?_chain {s u : S} {k : Nat} (h : (tree.chain s)[k]? = some u) :
    tree.depth u + k = tree.depth s := by
  induction s using tree.rec_parent generalizing k with
  | hroot =>
    rw [chain_root] at h
    have hk : k = 0 := by
      have hlt := (List.getElem?_eq_some_iff.mp h).1
      rw [List.length_singleton] at hlt
      omega
    subst hk
    rw [Option.some.inj h, Nat.add_zero]
  | hparent s hs ih =>
    rw [tree.chain_of_ne_root hs] at h
    cases k with
    | zero => rw [Option.some.inj h, Nat.add_zero]
    | succ k =>
      have hd := tree.depth_parent s hs
      have hk := ih h
      omega

lemma not_mem_chain_parent {s : S} (hs : s ≠ tree.root) : s ∉ tree.chain (tree.parent s) := by
  intro hmem
  have hle := tree.depth_le_of_mem_chain hmem
  have hd := tree.depth_parent s hs
  omega

lemma parent_ne_self {s : S} (hs : s ≠ tree.root) : tree.parent s ≠ s := by
  intro h
  apply tree.not_mem_chain_parent hs
  rw [h]
  exact tree.mem_chain_self s

section Ancestors

variable [DecidableEq S]

/-- The first node on the chain of `s` that is also on the chain of `t`. -/
def lca (s t : S) : S := ((tree.chain s).find? (fun a => decide (a ∈ tree.chain t))).getD tree.root

/-- The nodes from `s` up to, but not including, `a`. -/
def upTo (s a : S) : List S := (tree.chain s).takeWhile (fun u => decide (u ≠ a))

lemma lca_mem_chain (s t : S) : tree.lca s t ∈ tree.chain s := by
  unfold lca
  cases hfind : (tree.chain s).find? (fun a => decide (a ∈ tree.chain t)) with
  | none => exact tree.root_mem_chain s
  | some a => exact List.mem_of_find?_eq_some hfind

lemma lca_mem_chain_right (s t : S) : tree.lca s t ∈ tree.chain t := by
  unfold lca
  cases hfind : (tree.chain s).find? (fun a => decide (a ∈ tree.chain t)) with
  | none => exact tree.root_mem_chain t
  | some a => simpa using List.find?_some hfind

lemma lca_of_mem {s t : S} (h : s ∈ tree.chain t) : tree.lca s t = s := by
  unfold lca
  by_cases hs : s = tree.root
  · subst hs
    simp [tree.root_mem_chain t]
  · rw [tree.chain_of_ne_root hs, List.find?_cons_of_pos (by simpa using h), Option.getD_some]

lemma lca_of_not_mem {s t : S} (h : s ∉ tree.chain t) :
    tree.lca s t = tree.lca (tree.parent s) t := by
  have hs : s ≠ tree.root := by
    rintro rfl
    exact h (tree.root_mem_chain t)
  unfold lca
  rw [tree.chain_of_ne_root hs, List.find?_cons_of_neg (by simpa using h)]

lemma lca_eq_of_mem_chain {s t : S} (h : t ∈ tree.chain s) : tree.lca s t = t := by
  induction s using tree.rec_parent with
  | hroot =>
    have ht : t = tree.root := by simpa using h
    rw [ht, tree.lca_of_mem (tree.mem_chain_self _)]
  | hparent s hs ih =>
    by_cases hst : t = s
    · rw [hst, tree.lca_of_mem (tree.mem_chain_self s)]
    · have hlt := tree.depth_lt_of_mem_chain h hst
      have hout : s ∉ tree.chain t := fun hmem => by
        have hle := tree.depth_le_of_mem_chain hmem
        omega
      rw [tree.lca_of_not_mem hout]
      apply ih
      rw [tree.chain_of_ne_root hs] at h
      exact (List.mem_cons.mp h).resolve_left hst

lemma lca_of_siblings {s t : S} (hs : s ≠ tree.root) (ht : t ≠ tree.root) (hne : s ≠ t)
    (hsame : tree.parent s = tree.parent t) : tree.lca s t = tree.parent s := by
  have hout : s ∉ tree.chain t := by
    rw [tree.chain_of_ne_root ht, ← hsame]
    exact fun hmem => (List.mem_cons.mp hmem).elim hne (tree.not_mem_chain_parent hs)
  rw [tree.lca_of_not_mem hout]
  apply tree.lca_of_mem
  rw [hsame]
  exact tree.parent_mem_chain (tree.mem_chain_self t) ht

lemma chain_eq_upTo_append {s a : S} (ha : a ∈ tree.chain s) :
    ∃ l, tree.chain s = tree.upTo s a ++ a :: l := by
  unfold upTo
  generalize tree.chain s = chain at ha
  induction chain with
  | nil => simp at ha
  | cons u l ih =>
    by_cases hu : u = a
    · exact ⟨l, by simp [hu]⟩
    · obtain ⟨l', hl'⟩ := ih ((List.mem_cons.mp ha).resolve_left (Ne.symm hu))
      refine ⟨l', ?_⟩
      rw [List.takeWhile_cons_of_pos (by simpa using hu), List.cons_append, ← hl']

lemma depth_lt_of_mem_upTo {s a u : S} (ha : a ∈ tree.chain s) (hu : u ∈ tree.upTo s a) :
    tree.depth a < tree.depth u := by
  induction s using tree.rec_parent with
  | hroot =>
    have ha' : a = tree.root := by simpa using ha
    simp [upTo, ha'] at hu
  | hparent s hs ih =>
    by_cases hsa : s = a
    · rw [upTo, ← hsa, tree.chain_of_ne_root hs] at hu
      simp at hu
    · have ha' : a ∈ tree.chain (tree.parent s) := by
        rw [tree.chain_of_ne_root hs] at ha
        exact (List.mem_cons.mp ha).resolve_left (Ne.symm hsa)
      rw [upTo, tree.chain_of_ne_root hs, List.takeWhile_cons_of_pos (by simpa using hsa)] at hu
      rcases List.mem_cons.mp hu with rfl | hu
      · exact tree.depth_lt_of_mem_chain ha (Ne.symm hsa)
      · exact ih ha' hu

@[simp] lemma upTo_self (a : S) : tree.upTo a a = [] := by
  unfold upTo
  by_cases ha : a = tree.root
  · subst ha
    simp
  · rw [tree.chain_of_ne_root ha, List.takeWhile_cons_of_neg (by simp)]

lemma upTo_cons {s a : S} (hs : s ≠ tree.root) (hne : s ≠ a) :
    tree.upTo s a = s :: tree.upTo (tree.parent s) a := by
  unfold upTo
  rw [tree.chain_of_ne_root hs, List.takeWhile_cons_of_pos (by simpa using hne)]

lemma mem_upTo_root {s u : S} (hu : u ∈ tree.chain s) (hne : u ≠ tree.root) :
    u ∈ tree.upTo s tree.root := by
  induction s using tree.rec_parent with
  | hroot =>
    rw [chain_root, List.mem_singleton] at hu
    exact absurd hu hne
  | hparent s hs ih =>
    rw [tree.chain_of_ne_root hs, List.mem_cons] at hu
    rw [tree.upTo_cons hs hs, List.mem_cons]
    rcases hu with hu | hu
    · exact .inl hu
    · exact .inr (ih hu)

lemma upTo_parent {s : S} (hs : s ≠ tree.root) : tree.upTo s (tree.parent s) = [s] := by
  rw [tree.upTo_cons hs (tree.parent_ne_self hs).symm, upTo_self]

lemma length_upTo {s a : S} (ha : a ∈ tree.chain s) :
    (tree.upTo s a).length + tree.depth a = tree.depth s := by
  induction s using tree.rec_parent with
  | hroot =>
    have ha' : a = tree.root := by simpa using ha
    rw [ha', upTo_self, List.length_nil, Nat.zero_add]
  | hparent s hs ih =>
    by_cases hsa : s = a
    · rw [hsa, upTo_self, List.length_nil, Nat.zero_add]
    · rw [tree.chain_of_ne_root hs] at ha
      have hrest := ih ((List.mem_cons.mp ha).resolve_left (Ne.symm hsa))
      have hd := tree.depth_parent s hs
      rw [tree.upTo_cons hs hsa, List.length_cons]
      omega

lemma length_upTo_root (s : S) : (tree.upTo s tree.root).length = tree.depth s := by
  have h := tree.length_upTo (tree.root_mem_chain s)
  rwa [depth_root, Nat.add_zero] at h

lemma ne_root_of_mem_upTo {s a u : S} (ha : a ∈ tree.chain s) (hu : u ∈ tree.upTo s a) :
    u ≠ tree.root := by
  intro hroot
  have hlt := tree.depth_lt_of_mem_upTo ha hu
  rw [hroot, tree.depth_root] at hlt
  omega

lemma mem_upTo_self {s a : S} (hne : s ≠ a) : s ∈ tree.upTo s a := by
  unfold upTo
  by_cases hs : s = tree.root
  · subst hs
    simp [hne]
  · rw [tree.chain_of_ne_root hs, List.takeWhile_cons_of_pos (by simpa using hne)]
    exact List.mem_cons_self

end Ancestors

end ParentTree
