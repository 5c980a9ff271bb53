import Mathlib.Data.List.Basic

/-!
# Texts with separators

The pieces of a text are what stands in front of each of its separators. `tokens` takes a run
of separators for one, but for a run at the very start, and `collapse` replaces each run by
one separator.
-/

namespace SeparatedText

variable {α : Type} (sep : α)

/-- No two separators stand next to each other. -/
def NoDouble (l : List α) : Prop := ¬[sep, sep] <:+: l

variable {sep}

lemma NoDouble.of_cons {a : α} {l : List α} (h : NoDouble sep (a :: l)) : NoDouble sep l :=
  fun hl => h (List.infix_cons hl)

lemma NoDouble.head {l : List α} (h : NoDouble sep (sep :: l)) : l.head? ≠ some sep := by
  intro hhead
  obtain ⟨rest, rfl⟩ : ∃ rest, l = sep :: rest := List.head?_eq_some_iff.mp hhead
  exact h ⟨[], rest, rfl⟩

variable [DecidableEq α] (sep)

/-- The pieces of a text of which `cur` is already read; what follows the last separator is
none of them. -/
def pieces : List α → List α → List (List α)
  | _, [] => []
  | cur, a :: l => if a = sep then cur :: pieces [] l else pieces (cur ++ [a]) l

/-- As `pieces`, but when `skip` is set, or after a piece, separators in a row are skipped. -/
def tokens : Bool → List α → List α → List (List α)
  | _, _, [] => []
  | skip, cur, a :: l =>
    if a = sep then
      if skip then tokens true [] l else cur :: tokens true [] l
    else tokens false (cur ++ [a]) l

def collapse : List α → List α
  | [] => []
  | [a] => [a]
  | a :: b :: l => if a = sep ∧ b = sep then collapse (b :: l) else a :: collapse (b :: l)

variable {sep}

lemma tokens_skip_of_head {cur l : List α} (h : l.head? ≠ some sep) :
    tokens sep true cur l = tokens sep false cur l := by
  cases l with
  | nil => rfl
  | cons a l =>
    have ha : a ≠ sep := fun ha => h (congrArg some ha)
    rw [tokens, if_neg ha, tokens, if_neg ha]

lemma tokens_dropWhile (l : List α) :
    tokens sep true [] l = tokens sep false [] (l.dropWhile (fun a => decide (a = sep))) := by
  induction l with
  | nil => rfl
  | cons a l ih =>
    by_cases ha : a = sep
    · have hdrop : (a :: l).dropWhile (fun a => decide (a = sep)) =
          l.dropWhile (fun a => decide (a = sep)) :=
        List.dropWhile_cons_of_pos (decide_eq_true ha)
      rw [tokens, if_pos ha, if_pos rfl, hdrop, ih]
    · rw [List.dropWhile_cons_of_neg (by rwa [decide_eq_true_eq])]
      exact tokens_skip_of_head (fun h => ha (Option.some.inj h))

/-- Without double separators the tokens are the pieces. -/
theorem tokens_eq_pieces {cur l : List α} (h : NoDouble sep l) :
    tokens sep false cur l = pieces sep cur l := by
  induction l generalizing cur with
  | nil => rfl
  | cons a l ih =>
    by_cases ha : a = sep
    · subst ha
      rw [tokens, if_pos rfl, if_neg Bool.false_ne_true, pieces, if_pos rfl,
        tokens_skip_of_head h.head, ih h.of_cons]
    · rw [tokens, if_neg ha, pieces, if_neg ha, ih h.of_cons]

/-- A run of separators counts as one. -/
theorem tokens_collapse (skip : Bool) (cur l : List α) :
    tokens sep skip cur (collapse sep l) = tokens sep skip cur l := by
  fun_induction collapse sep l generalizing skip cur with
  | case1 => rfl
  | case2 a => rfl
  | case3 a b l h ih =>
    obtain ⟨rfl, rfl⟩ := h
    rw [ih]
    cases skip with
    | true => simp only [tokens, if_true]
    | false => simp only [tokens, if_true, Bool.false_eq_true, if_false]
  | case4 a b l h ih =>
    by_cases ha : a = sep
    · cases skip with
      | true => simp only [tokens, ha, if_true, ih]
      | false => simp only [tokens, ha, if_true, Bool.false_eq_true, if_false, ih]
    · simp only [tokens, ha, if_false, ih]

lemma collapse_cons (a : α) (l : List α) : ∃ rest, collapse sep (a :: l) = a :: rest := by
  induction l generalizing a with
  | nil => exact ⟨[], rfl⟩
  | cons b l ih =>
    by_cases h : a = sep ∧ b = sep
    · obtain ⟨rfl, rfl⟩ := h
      rw [collapse, if_pos ⟨rfl, rfl⟩]
      exact ih _
    · rw [collapse, if_neg h]
      exact ⟨_, rfl⟩

theorem noDouble_collapse (l : List α) : NoDouble sep (collapse sep l) := by
  fun_induction collapse sep l with
  | case1 =>
    intro h
    have hlength := h.length_le
    cases hlength
  | case2 a =>
    intro h
    have hlength := h.length_le
    simp only [List.length_cons, List.length_nil] at hlength
    omega
  | case3 a b l h ih => exact ih
  | case4 a b l h ih =>
    obtain ⟨rest, hrest⟩ : ∃ rest, collapse sep (b :: l) = b :: rest := collapse_cons b l
    intro hdouble
    rcases List.infix_cons_iff.mp hdouble with hinit | hinfix
    · rw [hrest] at hinit
      obtain ⟨t, ht⟩ := hinit
      cases ht
      exact h ⟨rfl, rfl⟩
    · exact ih hinfix

lemma mem_of_mem_collapse {a : α} {l : List α} (h : a ∈ collapse sep l) : a ∈ l := by
  fun_induction collapse sep l with
  | case1 => exact h
  | case2 b => exact h
  | case3 b c l _ ih => exact List.mem_cons_of_mem _ (ih h)
  | case4 b c l _ ih =>
    rcases List.mem_cons.mp h with rfl | h
    · exact List.mem_cons_self
    · exact List.mem_cons_of_mem _ (ih h)

lemma ne_nil_of_mem_pieces {cur l piece : List α} (h : NoDouble sep l)
    (hstart : cur ≠ [] ∨ l.head? ≠ some sep) (hpiece : piece ∈ pieces sep cur l) :
    piece ≠ [] := by
  induction l generalizing cur with
  | nil => cases hpiece
  | cons a l ih =>
    by_cases ha : a = sep
    · subst ha
      rw [pieces, if_pos rfl] at hpiece
      rcases List.mem_cons.mp hpiece with rfl | hrest
      · exact hstart.resolve_right (fun hhead => hhead rfl)
      · exact ih h.of_cons (Or.inr h.head) hrest
    · rw [pieces, if_neg ha] at hpiece
      exact ih h.of_cons (Or.inl (by simp)) hpiece

end SeparatedText
