import Mathlib.Data.Int.Notation
import Mathlib.Data.List.Basic
import Mathlib.Data.List.Induction
import Mathlib.Data.Nat.Notation
import Mathlib.Order.Bounds.Basic

/-!
# Searching with a sliding window

A window of the length of a pattern slides over a text. When the pattern is not in the
window, the letter behind the window decides how far it may move: as far as brings the
last such letter of the pattern under it, or past it when the pattern does not have it.
No occurrence is jumped over, so the windows visited from the start find the first one.
-/

namespace WindowSearch

variable {α : Type}

def OccursAt (pattern text : List α) (i : ℕ) : Prop :=
  i + pattern.length ≤ text.length ∧ ∀ k < pattern.length, text[i + k]? = pattern[k]?

instance [DecidableEq α] (pattern text : List α) (i : ℕ) : Decidable (OccursAt pattern text i) :=
  inferInstanceAs (Decidable (_ ∧ _))

/-- The first occurrence, or -1 when there is none. -/
def FirstOccurrence (pattern text : List α) (r : ℤ) : Prop :=
  (∃ i : ℕ, r = i ∧ IsLeast {k | OccursAt pattern text k} i) ∨
    (r = -1 ∧ ∀ i, ¬ OccursAt pattern text i)

lemma firstOccurrence_none {pattern text : List α} {i : ℕ}
    (hbefore : ∀ k < i, ¬ OccursAt pattern text k) (hpast : text.length < i + pattern.length) :
    FirstOccurrence pattern text (-1) := by
  refine .inr ⟨rfl, ?_⟩
  intro k hk
  by_cases hki : k < i
  · exact hbefore k hki hk
  · have hfits := hk.1
    omega

lemma FirstOccurrence.unique {pattern text : List α} {r r' : ℤ}
    (h : FirstOccurrence pattern text r) (h' : FirstOccurrence pattern text r') : r = r' := by
  rcases h with ⟨i, rfl, hi⟩ | ⟨rfl, hnone⟩
  · rcases h' with ⟨i', rfl, hi'⟩ | ⟨rfl, hnone'⟩
    · rw [hi.unique hi']
    · exact absurd hi.1 (hnone' i)
  · rcases h' with ⟨i', rfl, hi'⟩ | ⟨rfl, hnone'⟩
    · exact absurd hi'.1 (hnone i')
    · rfl

variable [DecidableEq α]

/-- The distance from the end of the pattern to its last `c`, or one more than its length. -/
def jump (pattern : List α) (c : α) : ℕ := pattern.reverse.idxOf c + 1

lemma jump_pos (pattern : List α) (c : α) : 0 < jump pattern c := Nat.succ_pos _

lemma jump_le (pattern : List α) (c : α) : jump pattern c ≤ pattern.length + 1 := by
  have hle : pattern.reverse.idxOf c ≤ pattern.reverse.length := List.idxOf_le_length
  rw [List.length_reverse] at hle
  exact Nat.succ_le_succ hle

lemma jump_eq_length_iff (pattern : List α) (c : α) :
    jump pattern c = pattern.length + 1 ↔ c ∉ pattern := by
  have hmem := List.idxOf_lt_length_iff (l := pattern.reverse) (a := c)
  have hle : pattern.reverse.idxOf c ≤ pattern.reverse.length := List.idxOf_le_length
  rw [List.length_reverse, List.mem_reverse] at hmem
  rw [List.length_reverse] at hle
  rw [← hmem, jump]
  omega

lemma jump_concat (pattern : List α) (p c : α) :
    jump (pattern ++ [p]) c = if p = c then 1 else jump pattern c + 1 := by
  unfold jump
  rw [List.reverse_append, List.reverse_singleton, List.singleton_append]
  by_cases hpc : p = c
  · rw [if_pos hpc, List.idxOf_cons_eq _ hpc]
  · rw [if_neg hpc, List.idxOf_cons_ne _ hpc]

lemma jump_le_of_getElem? {pattern : List α} {c : α} {k : ℕ} (h : pattern[k]? = some c) :
    jump pattern c ≤ pattern.length - k := by
  induction pattern using List.reverseRecOn with
  | nil => simp at h
  | append_singleton pattern p ih =>
    rw [jump_concat, List.length_append, List.length_singleton]
    by_cases hk : k < pattern.length
    · rw [List.getElem?_append_left hk] at h
      have hle := ih h
      split <;> omega
    · have hlast : k = pattern.length := by
        have hlt := (List.getElem?_eq_some_iff.mp h).1
        rw [List.length_append, List.length_singleton] at hlt
        omega
      rw [hlast, List.getElem?_concat_length] at h
      rw [if_pos (Option.some.inj h), hlast]
      omega

/-- No occurrence lies between a window and the one the letter behind it sends us to. -/
theorem add_jump_le_of_occursAt {pattern text : List α} {i i' : ℕ} {c : α}
    (hocc : OccursAt pattern text i') (hi : i < i')
    (hc : i + pattern.length < text.length → text[i + pattern.length]? = some c) :
    i + jump pattern c ≤ i' := by
  obtain ⟨hfits, hletters⟩ := hocc
  have hjump := jump_le pattern c
  by_cases hfar : i + pattern.length < i'
  · omega
  · have hbehind := hc (by omega)
    have hletter := hletters (i + pattern.length - i') (by omega)
    rw [show i' + (i + pattern.length - i') = i + pattern.length by omega, hbehind] at hletter
    have hle := jump_le_of_getElem? hletter.symm
    omega

/-- The windows looked at from the start of the text, up to the first occurrence. -/
inductive Visits (pattern text : List α) : ℕ → Prop
  | start : Visits pattern text 0
  | next {i : ℕ} {c : α} (hi : Visits pattern text i) (hocc : ¬ OccursAt pattern text i)
      (hc : text[i + pattern.length]? = some c) : Visits pattern text (i + jump pattern c)

theorem Visits.not_occursAt_before {pattern text : List α} {i : ℕ} (h : Visits pattern text i) :
    ∀ k < i, ¬ OccursAt pattern text k := by
  induction h with
  | start => exact fun k hk => absurd hk (Nat.not_lt_zero k)
  | @next i c hi hocc hc ih =>
    intro k hk hoccurs
    rcases Nat.lt_trichotomy k i with hlt | rfl | hgt
    · exact ih k hlt hoccurs
    · exact hocc hoccurs
    · have hle := add_jump_le_of_occursAt hoccurs hgt (fun _ => hc)
      omega

lemma Visits.firstOccurrence {pattern text : List α} {i : ℕ} (h : Visits pattern text i)
    (hocc : OccursAt pattern text i) : FirstOccurrence pattern text i := by
  refine .inl ⟨i, rfl, hocc, ?_⟩
  intro k hk
  by_contra hlt
  exact h.not_occursAt_before k (by omega) hk

end WindowSearch
