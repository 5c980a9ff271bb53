import GeneralPurposeLibrary.Proofs.SundaySearch
import Mathlib.Data.Nat.Find

/-!
# `sunday_match` returns the first occurrence

With letters below 128 and one readable byte behind the text, the search returns the first
occurrence of the pattern, or -1. The one exception is the largest text an `int` can
measure: a jump past its last window by the default shift wraps around, and the search goes
on in front of the text.
-/

namespace GeneralPurposeLibrary.Proofs
open WindowSearch

/-- The last window of the largest text is visited in vain, and the byte behind the text
sends the window past it by the default shift. -/
def LastJumpWraps (text pattern : List Int8) (next : Int8) : Prop :=
  text.length = 2 ^ 31 - 1 ∧ Visits pattern text (text.length - pattern.length) ∧
    ¬ OccursAt pattern text (text.length - pattern.length) ∧ next ∉ pattern

lemma exists_firstOccurrence (pattern : List Int8) {text : List Int8}
    (hlen : text.length < 2 ^ 31) :
    ∃ r : Int32, FirstOccurrence pattern text r.toInt := by
  by_cases hocc : ∃ i, OccursAt pattern text i
  · have hfirst := Nat.find_spec hocc
    refine ⟨Int32.ofNat (Nat.find hocc), .inl ⟨Nat.find hocc, ?_, hfirst, ?_⟩⟩
    · have hfits := hfirst.1
      exact Int32.toInt_ofNat_of_lt (by omega)
    · exact fun k hk => Nat.find_min' hocc hk
  · exact ⟨-1, .inr ⟨rfl, fun i hi => hocc ⟨i, hi⟩⟩⟩

section Search

variable {text pattern : List Int8} {next : Int8} {srcLen patternLen : Int32}
  {shift : ShiftTable} (hin : SundayInput text pattern srcLen patternLen)
  (hshift : ShiftHolds pattern shift)
include hin hshift

lemma searchFrom_last (hnext : 0 ≤ next.toInt) (hsafe : ¬ LastJumpWraps text pattern next) {i : ℕ}
    (hvisits : Visits pattern text i) (hocc : ¬ OccursAt pattern text i)
    (hlast : i + pattern.length = text.length) (fuel : ℕ) :
    searchFrom shift (text ++ [next]) srcLen pattern patternLen (fuel + 2) (Int32.ofNat i) =
      .ok (-1) := by
  have hlt := hin.text_lt
  have hle := jump_le pattern next
  have hpos := jump_pos pattern next
  have hc : (text ++ [next])[i + pattern.length]? = some next := by
    rw [hlast, List.getElem?_concat_length]
  have hfits : i + jump pattern next < 2 ^ 31 := by
    by_contra hwrap
    have hdefault : jump pattern next = pattern.length + 1 := by omega
    have hwindow : i = text.length - pattern.length := by omega
    rw [hwindow] at hvisits hocc
    exact hsafe ⟨by omega, hvisits, hocc, (jump_eq_length_iff pattern next).mp hdefault⟩
  rw [searchFrom_jumps hin hshift hlast.le hocc hc hnext, searchFrom_past hin hfits (by omega)]

lemma searchFrom_visited (htext : ∀ c ∈ text, 0 ≤ c.toInt) (hnext : 0 ≤ next.toInt)
    (hsafe : ¬ LastJumpWraps text pattern next) {r : Int32}
    (hr : FirstOccurrence pattern text r.toInt) (fuel : ℕ) {i : ℕ}
    (hvisits : Visits pattern text i) (hi : i ≤ text.length)
    (hfuel : text.length + 2 ≤ fuel + i) :
    searchFrom shift (text ++ [next]) srcLen pattern patternLen fuel (Int32.ofNat i) = .ok r := by
  have hlt := hin.text_lt
  induction fuel generalizing i with
  | zero => omega
  | succ fuel ih =>
    by_cases hpast : text.length < i + pattern.length
    · have hnone := hr.unique (firstOccurrence_none hvisits.not_occursAt_before hpast)
      rw [searchFrom_past hin (by omega) hpast]
      congr 1
      exact Int32.toInt_inj.mp hnone.symm
    by_cases hocc : OccursAt pattern text i
    · have hfound := hr.unique (hvisits.firstOccurrence hocc)
      rw [searchFrom_found hin hocc]
      congr 1
      rw [← Int32.toInt_inj, hfound, Int32.toInt_ofNat_of_lt (by omega)]
    by_cases hlast : i + pattern.length = text.length
    · have hbefore : ∀ k < i + 1, ¬ OccursAt pattern text k := by
        intro k hk
        by_cases hki : k = i
        · rwa [hki]
        · exact hvisits.not_occursAt_before k (by omega)
      have hnone := hr.unique (firstOccurrence_none hbefore (by omega))
      obtain ⟨fuel, rfl⟩ : ∃ k, fuel = k + 1 := ⟨fuel - 1, by omega⟩
      rw [searchFrom_last hin hshift hnext hsafe hvisits hocc hlast]
      congr 1
      exact Int32.toInt_inj.mp hnone.symm
    · have hinside : i + pattern.length < text.length := by omega
      have hc : text[i + pattern.length]? = some text[i + pattern.length] :=
        List.getElem?_eq_getElem hinside
      have hbuffer : (text ++ [next])[i + pattern.length]? = some text[i + pattern.length] := by
        rw [List.getElem?_append_left hinside, hc]
      have hle := jump_le pattern text[i + pattern.length]
      have hpos := jump_pos pattern text[i + pattern.length]
      rw [searchFrom_jumps hin hshift hinside.le hocc hbuffer (htext _ (List.getElem_mem hinside))]
      exact ih (hvisits.next hocc hc) (by omega) (by omega)

/-- When the last jump wraps, the next window starts in front of the text. -/
lemma searchFrom_wraps (htext : ∀ c ∈ text, 0 ≤ c.toInt) (hnext : 0 ≤ next.toInt)
    (hwraps : LastJumpWraps text pattern next) :
    ∃ rounds, ∀ fuel, rounds ≤ fuel →
      searchFrom shift (text ++ [next]) srcLen pattern patternLen fuel 0 =
        .error .srcBounds := by
  obtain ⟨hlen, hvisits, hocc, hmem⟩ := hwraps
  have hpattern := (eq_ofNat_of_toInt hin.patternLen).2
  rcases reaches_of_visits [next] hin hshift hvisits with
    ⟨rounds, hrounds⟩ | ⟨k, c, -, -, hc, hneg, -⟩
  · refine ⟨rounds + 2, fun fuel hfuel => ?_⟩
    have hc : (text ++ [next])[text.length - pattern.length + pattern.length]? = some next := by
      rw [show text.length - pattern.length + pattern.length = text.length by omega,
        List.getElem?_concat_length]
    have hjump := (jump_eq_length_iff pattern next).mpr hmem
    have hwindow : text.length - pattern.length + jump pattern next = 2 ^ 31 := by omega
    have hinside : Int32.ofNat (2 ^ 31) ≤ srcLen - patternLen := by
      have hfront : (Int32.ofNat (2 ^ 31)).toInt = -2 ^ 31 := rfl
      rw [Int32.le_iff_toInt_le, hin.toInt_lastWindow, hfront]
      omega
    rw [show fuel = fuel - rounds - 2 + 1 + 1 + rounds by omega, hrounds,
      searchFrom_jumps hin hshift (by omega) hocc hc hnext, hwindow, searchFrom, if_pos hinside]
    rfl
  · have := htext c (List.mem_of_getElem? hc)
    omega

end Search

/-- The call ends and returns the first occurrence of the pattern. -/
def ReturnsFirstOccurrence (text pattern : List Int8) (next : Int8) (srcLen patternLen : Int32) :
    Prop :=
  ∃ r : Int32, FirstOccurrence pattern text r.toInt ∧
    ∃ rounds, ∀ fuel, rounds ≤ fuel →
      sundayMatch fuel (text ++ [next]) srcLen pattern patternLen = .ok r

lemma not_returnsFirstOccurrence_of_wraps {text pattern : List Int8} {next : Int8}
    {srcLen patternLen : Int32} (hin : SundayInput text pattern srcLen patternLen)
    (htext : ∀ c ∈ text, 0 ≤ c.toInt) (hnext : 0 ≤ next.toInt)
    (hpattern : ∀ c ∈ pattern, 0 ≤ c.toInt) (hwraps : LastJumpWraps text pattern next) :
    ¬ ReturnsFirstOccurrence text pattern next srcLen patternLen := by
  rintro ⟨r, -, rounds, hok⟩
  obtain ⟨shift, hshift, hmatch⟩ := sundayMatch_eq hin.patternLen hpattern
  obtain ⟨rounds', herror⟩ := searchFrom_wraps hin hshift htext hnext hwraps
  have hboth := (hok (max rounds rounds') (le_max_left _ _)).symm
  rw [hmatch, herror _ (le_max_right _ _)] at hboth
  cases hboth

/-- The search returns the first occurrence, unless its last jump wraps around. -/
theorem sundayMatch_first_occurrence_iff (text pattern : List Int8) (next : Int8)
    (srcLen patternLen : Int32) (hin : SundayInput text pattern srcLen patternLen)
    (htext : ∀ c ∈ text, 0 ≤ c.toInt) (hnext : 0 ≤ next.toInt)
    (hpattern : ∀ c ∈ pattern, 0 ≤ c.toInt) :
    ReturnsFirstOccurrence text pattern next srcLen patternLen ↔
      ¬ LastJumpWraps text pattern next := by
  constructor
  · intro hreturns hwraps
    exact not_returnsFirstOccurrence_of_wraps hin htext hnext hpattern hwraps hreturns
  · intro hsafe
    obtain ⟨shift, hshift, hmatch⟩ := sundayMatch_eq hin.patternLen hpattern
    obtain ⟨r, hr⟩ := exists_firstOccurrence pattern hin.text_lt
    refine ⟨r, hr, text.length + 2, fun fuel hfuel => ?_⟩
    rw [hmatch]
    exact searchFrom_visited hin hshift htext hnext hsafe hr fuel .start (Nat.zero_le _) hfuel

theorem sundayMatch_finds_ac_in_abac :
    ReturnsFirstOccurrence [97, 98, 97, 99] [97, 99] 0 4 2 :=
  (sundayMatch_first_occurrence_iff [97, 98, 97, 99] [97, 99] 0 4 2
    ⟨by decide, by decide, by decide⟩ (by simp) (by decide) (by simp)).mpr
    fun hwraps => absurd hwraps.1 (by decide)

/-! ### The largest text -/

def largestText : List Int8 := List.replicate (2 ^ 31 - 1) 97

lemma largestText_length : largestText.length = 2 ^ 31 - 1 := List.length_replicate

lemma largestText_getElem? {i : ℕ} (hi : i < 2 ^ 31 - 1) : largestText[i]? = some 97 :=
  List.getElem?_replicate_of_lt hi

lemma not_occursAt_largestText {i : ℕ} (hi : i < 2 ^ 31 - 1) :
    ¬ OccursAt [98] largestText i := by
  intro h
  have hletter := h.2 0 (by decide)
  rw [Nat.add_zero, largestText_getElem? hi] at hletter
  exact absurd hletter (by decide)

lemma visits_largestText (k : ℕ) (hk : 2 * k < 2 ^ 31) : Visits [98] largestText (2 * k) := by
  induction k with
  | zero => exact .start
  | succ k ih =>
    have hprev := ih (by omega)
    have hbehind : largestText[2 * k + [(98 : Int8)].length]? = some 97 :=
      largestText_getElem? (by rw [List.length_singleton]; omega)
    exact hprev.next (not_occursAt_largestText (by omega)) hbehind

/-- Looking for `b` in a text of `2 ^ 31 - 1` letters `a` ends in front of the text. -/
theorem sundayMatch_wraps_on_largest_text :
    SundayInput largestText [98] 2147483647 1 ∧
      ¬ ReturnsFirstOccurrence largestText [98] 97 2147483647 1 := by
  have hin : SundayInput largestText [98] 2147483647 1 :=
    ⟨by rw [largestText_length]; rfl, rfl, le_rfl⟩
  refine ⟨hin, not_returnsFirstOccurrence_of_wraps hin ?_ (by decide) (by simp) ?_⟩
  · intro c hc
    rw [List.eq_of_mem_replicate hc]
    decide
  · refine ⟨largestText_length, ?_, ?_, by decide⟩
    · rw [largestText_length]
      exact visits_largestText (2 ^ 30 - 1) (by decide)
    · rw [largestText_length]
      exact not_occursAt_largestText (by decide)

end GeneralPurposeLibrary.Proofs
