import GeneralPurposeLibrary.Proofs.SundaySearch

/-!
# The indices of `sunday_match`

On buffers of exactly the given lengths, the search uses a letter as an index of its table
for every letter of the pattern and for the letter behind every window that it leaves. The
first must not be negative, and the second must be there and must not be negative.
-/

namespace GeneralPurposeLibrary.Proofs
open WindowSearch

/-- Every index that the call uses is inside its array: the run ends in no fault, however
far it is followed. -/
def IndicesInside (text pattern : List Int8) (srcLen patternLen : Int32) : Prop :=
  ∀ fuel fault, sundayMatch fuel text srcLen pattern patternLen = .error fault → fault = .fuel

/-- Behind every window that is visited in vain the text goes on with a 7-bit letter. -/
def LettersBehindWindows (text pattern : List Int8) : Prop :=
  ∀ i, Visits pattern text i → i + pattern.length ≤ text.length → ¬ OccursAt pattern text i →
    ∃ c, text[i + pattern.length]? = some c ∧ 0 ≤ c.toInt

section Search

variable {text pattern : List Int8} {srcLen patternLen : Int32} {shift : ShiftTable}
  (hin : SundayInput text pattern srcLen patternLen)
include hin

lemma searchFrom_outside {i : ℕ} (hi : i + pattern.length ≤ text.length)
    (hocc : ¬ OccursAt pattern text i)
    (hc : ¬ ∃ c, text[i + pattern.length]? = some c ∧ 0 ≤ c.toInt)
    (hreaches : Reaches shift (text ++ []) srcLen pattern patternLen i) :
    ∃ fuel fault, searchFrom shift text srcLen pattern patternLen fuel 0 = .error fault ∧
      fault ≠ .fuel := by
  obtain ⟨rounds, hrounds⟩ := hreaches
  have hone := hrounds 1
  rw [List.append_nil] at hone
  have hstep : ∃ fault, searchFrom shift text srcLen pattern patternLen 1 (Int32.ofNat i) =
      .error fault ∧ fault ≠ .fuel := by
    rw [← List.append_nil text]
    cases hbehind : (text ++ [])[i + pattern.length]? with
    | none => exact ⟨.srcBounds, searchFrom_unread hin hi hocc hbehind 0, by decide⟩
    | some c =>
      have hneg : c.toInt < 0 := by
        by_contra hpos
        rw [List.append_nil] at hbehind
        exact hc ⟨c, hbehind, by omega⟩
      exact ⟨.shiftBounds, searchFrom_negative hin hi hocc hbehind hneg 0, by decide⟩
  obtain ⟨fault, hfault, hne⟩ := hstep
  exact ⟨1 + rounds, fault, hone.trans hfault, hne⟩

variable (hshift : ShiftHolds pattern shift)
include hshift

lemma searchFrom_inside (hletters : LettersBehindWindows text pattern) (fuel : ℕ) {i : ℕ}
    (hvisits : Visits pattern text i) (hi : i ≤ text.length) {fault : SundayFault}
    (hfault : searchFrom shift text srcLen pattern patternLen fuel (Int32.ofNat i) =
      .error fault) : fault = .fuel := by
  have hlt := hin.text_lt
  rw [← List.append_nil text] at hfault
  induction fuel generalizing i with
  | zero =>
    rw [searchFrom] at hfault
    cases hfault
    rfl
  | succ fuel ih =>
    by_cases hpast : text.length < i + pattern.length
    · rw [searchFrom_past hin (by omega) hpast] at hfault
      cases hfault
    by_cases hocc : OccursAt pattern text i
    · rw [searchFrom_found hin hocc] at hfault
      cases hfault
    · obtain ⟨c, hc, hpos⟩ := hletters i hvisits (by omega) hocc
      have hinside : i + pattern.length < text.length := (List.getElem?_eq_some_iff.mp hc).1
      have hbuffer : (text ++ [])[i + pattern.length]? = some c := by rwa [List.append_nil]
      have hle := jump_le pattern c
      rw [searchFrom_jumps hin hshift hinside.le hocc hbuffer hpos] at hfault
      exact ih (hvisits.next hocc hc) (by omega) hfault

end Search

/-- The indices are inside their arrays exactly when every letter of the pattern and every
letter behind a window left in vain can be used as an index. -/
theorem sundayMatch_indices_inside_iff (text pattern : List Int8) (srcLen patternLen : Int32)
    (hin : SundayInput text pattern srcLen patternLen) :
    IndicesInside text pattern srcLen patternLen ↔
      (∀ c ∈ pattern, 0 ≤ c.toInt) ∧ LettersBehindWindows text pattern := by
  by_cases hpattern : ∀ c ∈ pattern, 0 ≤ c.toInt
  · obtain ⟨shift, hshift, hmatch⟩ := sundayMatch_eq hin.patternLen hpattern
    unfold IndicesInside
    simp only [hmatch]
    refine ⟨fun hinside => ⟨hpattern, ?_⟩, ?_⟩
    · intro i hvisits hi hocc
      by_contra hc
      rcases reaches_of_visits [] hin hshift hvisits with
        hreaches | ⟨k, c, -, hk, hc', hneg, hreaches⟩
      · obtain ⟨fuel, fault, hfault, hne⟩ := searchFrom_outside hin hi hocc hc hreaches
        exact hne (hinside fuel fault hfault)
      · have hk' : k + pattern.length < text.length := (List.getElem?_eq_some_iff.mp hc').1
        have hunusable : ¬ ∃ c, text[k + pattern.length]? = some c ∧ 0 ≤ c.toInt := by
          rintro ⟨d, hd, hpos⟩
          rw [hc'] at hd
          cases hd
          omega
        obtain ⟨fuel, fault, hfault, hne⟩ :=
          searchFrom_outside hin hk'.le hk hunusable hreaches
        exact hne (hinside fuel fault hfault)
    · rintro ⟨-, hletters⟩ fuel fault hfault
      exact searchFrom_inside hin hshift hletters fuel .start (Nat.zero_le _) hfault
  · refine ⟨fun hinside => ?_, fun hcond => absurd hcond.1 hpattern⟩
    have hneg : ∃ c ∈ pattern, c.toInt < 0 := by
      by_contra hnone
      exact hpattern fun c hc => by
        by_contra hlt
        exact hnone ⟨c, hc, by omega⟩
    have hfault : sundayMatch 0 text srcLen pattern patternLen = .error .shiftBounds := by
      rw [sundayMatch, fillShift_error hin.patternLen hneg]
      rfl
    exact absurd (hinside 0 .shiftBounds hfault) (by decide)

lemma lettersBehindWindows_abc : LettersBehindWindows [97, 98, 99] [98] := by
  have hwindows : ∀ i, Visits [(98 : Int8)] [97, 98, 99] i → i = 0 ∨ i = 1 := by
    intro i hvisits
    induction hvisits with
    | start => exact .inl rfl
    | next _ hocc hc ih =>
      rcases ih with rfl | rfl
      · cases hc
        exact .inr rfl
      · exact absurd (by decide) hocc
  intro i hvisits _ hocc
  rcases hwindows i hvisits with rfl | rfl
  · exact ⟨98, rfl, by decide⟩
  · exact absurd (by decide) hocc

theorem sundayMatch_inside_abc : IndicesInside [97, 98, 99] [98] 3 1 :=
  (sundayMatch_indices_inside_iff [97, 98, 99] [98] 3 1 ⟨rfl, rfl, le_rfl⟩).mpr
    ⟨by simp, lettersBehindWindows_abc⟩

/-- The search reads behind a text whose last window does not match, and a byte from 128 on
is a negative index. -/
theorem sundayMatch_leaves_arrays :
    SundayInput [97, 98] [97, 99] 2 2 ∧ ¬ IndicesInside [97, 98] [97, 99] 2 2 ∧
      SundayInput [97] [-1] 1 1 ∧ ¬ IndicesInside [97] [-1] 1 1 := by
  refine ⟨⟨rfl, rfl, by decide⟩, ?_, ⟨rfl, rfl, by decide⟩, ?_⟩
  · intro hinside
    have hfault : sundayMatch 1 [97, 98] 2 [97, 99] 2 = .error .srcBounds := by decide
    exact absurd (hinside 1 .srcBounds hfault) (by decide)
  · intro hinside
    have hfault : sundayMatch 1 [97] 1 [-1] 1 = .error .shiftBounds := by decide
    exact absurd (hinside 1 .shiftBounds hfault) (by decide)

end GeneralPurposeLibrary.Proofs
