import Mathlib.Data.List.Induction
import Mathlib.Logic.Function.Basic

/-!
# Trees addressed by paths

A tree assigns values to paths. Some values are inner ones, and every entry lies below an
inner one, up to the root. `Grown` says that a tree came out of another one by adding what was
missing of a chain of entries.
-/

namespace PathTree

structure Tree (N V : Type) (inner : V → Bool) where
  node : List N → Option V
  root : (node []).any inner = true
  parent : ∀ dir name, (node (dir ++ [name])).isSome = true → (node dir).any inner = true

variable {N V : Type} {inner : V → Bool}

def IsInner (t : Tree N V inner) (path : List N) : Prop := (t.node path).any inner = true

instance (t : Tree N V inner) (path : List N) : Decidable (IsInner t path) :=
  inferInstanceAs (Decidable ((t.node path).any inner = true))

lemma isSome_of_isInner {t : Tree N V inner} {path : List N} (h : IsInner t path) :
    (t.node path).isSome = true := by
  unfold IsInner at h
  cases hnode : t.node path with
  | none =>
    rw [hnode] at h
    cases h
  | some v => rfl

lemma isSome_of_append {t : Tree N V inner} {path rest : List N}
    (h : (t.node (path ++ rest)).isSome = true) : (t.node path).isSome = true := by
  induction rest using List.reverseRecOn with
  | nil => rwa [List.append_nil] at h
  | append_singleton rest name ih =>
    rw [← List.append_assoc] at h
    exact ih (isSome_of_isInner (t.parent _ name h))

lemma isInner_of_append {t : Tree N V inner} {path rest : List N} (h : IsInner t (path ++ rest)) :
    IsInner t path := by
  induction rest using List.reverseRecOn with
  | nil => rwa [List.append_nil] at h
  | append_singleton rest name ih =>
    rw [← List.append_assoc] at h
    exact ih (t.parent _ name (isSome_of_isInner h))

variable [DecidableEq N]

/-- A new entry below an inner one. -/
def add (t : Tree N V inner) (dir : List N) (name : N) (v : V) (hdir : IsInner t dir)
    (hnew : t.node (dir ++ [name]) = none) : Tree N V inner where
  node := Function.update t.node (dir ++ [name]) (some v)
  root := by
    have hne : [] ≠ dir ++ [name] := (List.append_ne_nil_of_right_ne_nil dir (by simp)).symm
    rw [Function.update_of_ne hne]
    exact t.root
  parent := by
    intro above below h
    have hne : ∀ path, IsInner t path → path ≠ dir ++ [name] := by
      rintro path hpath rfl
      have hsome := isSome_of_isInner hpath
      rw [hnew] at hsome
      cases hsome
    by_cases hpath : above ++ [below] = dir ++ [name]
    · have habove : above = dir := (List.append_inj' hpath rfl).1
      rw [habove, Function.update_of_ne (hne dir hdir)]
      exact hdir
    · rw [Function.update_of_ne hpath] at h
      have habove := t.parent above below h
      rw [Function.update_of_ne (hne above habove)]
      exact habove

/-- The second tree is the first one with the missing entries of the chain, all of value `v`. -/
def Grown (t t' : Tree N V inner) (chain : List N) (v : V) : Prop :=
  ∀ path, t'.node path = (t.node path).or (if path <+: chain then some v else none)

section Grown

variable {t t₁ t₂ : Tree N V inner} {chain : List N} {v : V}

lemma grown_refl (h : (t.node chain).isSome = true) : Grown t t chain v := by
  intro path
  cases hnode : t.node path with
  | some w => rfl
  | none =>
    have hinit : ¬path <+: chain := by
      rintro ⟨rest, rfl⟩
      have hsome := isSome_of_append h
      rw [hnode] at hsome
      cases hsome
    rw [if_neg hinit]
    rfl

lemma grown_add {dir : List N} {name : N} (hdir : IsInner t dir)
    (hnew : t.node (dir ++ [name]) = none) :
    Grown t (add t dir name v hdir hnew) (dir ++ [name]) v := by
  intro path
  by_cases hpath : path = dir ++ [name]
  · subst hpath
    rw [hnew, if_pos (List.prefix_refl _)]
    exact Function.update_self _ _ _
  · have hsame : (add t dir name v hdir hnew).node path = t.node path :=
      Function.update_of_ne hpath _ _
    rw [hsame]
    cases hnode : t.node path with
    | some w => rfl
    | none =>
      have hinit : ¬path <+: dir ++ [name] := by
        intro h
        rcases List.prefix_concat_iff.mp h with h | h
        · exact hpath h
        · obtain ⟨rest, rfl⟩ := h
          have hsome := isSome_of_append (isSome_of_isInner hdir)
          rw [hnode] at hsome
          cases hsome
      rw [if_neg hinit]
      rfl

lemma Grown.trans {chain₁ : List N} (h₁ : Grown t t₁ chain₁ v) (h₂ : Grown t₁ t₂ chain v)
    (hchain : chain₁ <+: chain) : Grown t t₂ chain v := by
  intro path
  rw [h₂ path, h₁ path]
  cases t.node path with
  | some w => rfl
  | none =>
    by_cases hinit : path <+: chain₁
    · rw [if_pos hinit, if_pos (hinit.trans hchain)]
      rfl
    · rw [if_neg hinit]
      rfl

lemma Grown.kept (h : Grown t t₁ chain v) {path : List N} {w : V} (hnode : t.node path = some w) :
    t₁.node path = some w := by
  rw [h path, hnode]
  rfl

lemma Grown.isInner (h : Grown t t₁ chain v) {path : List N} (hinner : IsInner t path) :
    IsInner t₁ path := by
  obtain ⟨w, hw⟩ := Option.isSome_iff_exists.mp (isSome_of_isInner hinner)
  unfold IsInner at hinner ⊢
  rw [h.kept hw]
  rwa [hw] at hinner

end Grown

end PathTree
