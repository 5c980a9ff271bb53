import GeneralPurposeLibrary.SundayMatch
import GeneralPurposeLibrary.Foundation.WindowSearch
import Mathlib.Algebra.Group.Nat.Defs

/-!
# The windows of `sunday_match`

The table of shifts holds the jump of every letter it has an entry for, and one round of
the search either finds the pattern in its window or moves the window by the jump of the
letter behind it. The walk over the windows is therefore the one of `WindowSearch`, as long
as the letters it uses are not negative.
-/

namespace GeneralPurposeLibrary.Proofs
open WindowSearch

/-! ### Indices -/

lemma eq_ofNat_of_toInt {x : Int32} {n : ℕ} (h : x.toInt = n) : x = Int32.ofNat n ∧ n < 2 ^ 31 := by
  have hlt : n < 2 ^ 31 := by
    have := Int32.toInt_lt x
    omega
  refine ⟨?_, hlt⟩
  rw [← Int32.toInt_inj, h, Int32.toInt_ofNat_of_lt hlt]

lemma readChar_of_some {fault : SundayFault} {buffer : List Int8} {i : ℕ} {c : Int8}
    (hi : i < 2 ^ 31) (hc : buffer[i]? = some c) :
    readChar fault buffer (Int32.ofNat i) = .ok c := by
  unfold readChar
  rw [Int32.toInt_ofNat_of_lt hi, if_pos (Int.natCast_nonneg i), Int.toNat_natCast, hc]

lemma readChar_of_none {fault : SundayFault} {buffer : List Int8} {i : ℕ} (hi : i < 2 ^ 31)
    (hc : buffer[i]? = none) : readChar fault buffer (Int32.ofNat i) = .error fault := by
  unfold readChar
  rw [Int32.toInt_ofNat_of_lt hi, if_pos (Int.natCast_nonneg i), Int.toNat_natCast, hc]

def letterIndex (c : Int8) : Fin 256 := Fin.ofNat 256 c.toInt.toNat

lemma shiftIndex_of_nonneg {c : Int8} (h : 0 ≤ c.toInt) : shiftIndex c = .ok (letterIndex c) := by
  have hlt : c.toInt < 128 := Int8.toInt_lt c
  unfold shiftIndex
  rw [dif_pos ⟨h, by omega⟩]
  congr 1
  exact Fin.ext (Nat.mod_eq_of_lt (by omega)).symm

lemma shiftIndex_of_negative {c : Int8} (h : c.toInt < 0) :
    shiftIndex c = .error .shiftBounds := by
  unfold shiftIndex
  rw [dif_neg (by omega)]

lemma letterIndex_inj {c c' : Int8} (h : 0 ≤ c.toInt) (h' : 0 ≤ c'.toInt)
    (heq : letterIndex c = letterIndex c') : c = c' := by
  have hlt : c.toInt < 128 := Int8.toInt_lt c
  have hlt' : c'.toInt < 128 := Int8.toInt_lt c'
  have hval := congrArg Fin.val heq
  simp only [letterIndex, Fin.val_ofNat] at hval
  rw [← Int8.toInt_inj]
  omega

/-! ### The table -/

/-- Every letter that can be looked up has its jump in the table. -/
def ShiftHolds (pattern : List Int8) (shift : ShiftTable) : Prop :=
  ∀ c : Int8, 0 ≤ c.toInt → shift.get (letterIndex c) = Int32.ofNat (jump pattern c)

/-- The body of the loop that enters the letters of the pattern. -/
def fillStep (pattern : List Int8) (patternLen : Int32) (shift : ShiftTable) (i : ℕ) :
    Except SundayFault ShiftTable := do
  let c ← readChar .patternBounds pattern (Int32.ofNat i)
  let a ← shiftIndex c
  return shift.setIfInBounds a (patternLen - Int32.ofNat i)

lemma fillStep_of_nonneg {pattern : List Int8} {patternLen : Int32} (shift : ShiftTable) {i : ℕ}
    {c : Int8} (hi : i < 2 ^ 31) (hc : pattern[i]? = some c) (hpos : 0 ≤ c.toInt) :
    fillStep pattern patternLen shift i =
      .ok (shift.setIfInBounds (letterIndex c) (patternLen - Int32.ofNat i)) := by
  unfold fillStep
  rw [readChar_of_some hi hc]
  change (shiftIndex c >>= _) = _
  rw [shiftIndex_of_nonneg hpos]
  rfl

lemma fillStep_of_negative {pattern : List Int8} {patternLen : Int32} (shift : ShiftTable)
    {i : ℕ} {c : Int8} (hi : i < 2 ^ 31) (hc : pattern[i]? = some c) (hneg : c.toInt < 0) :
    fillStep pattern patternLen shift i = .error .shiftBounds := by
  unfold fillStep
  rw [readChar_of_some hi hc]
  change (shiftIndex c >>= _) = _
  rw [shiftIndex_of_negative hneg]
  rfl

/-- After `k` letters, an entry is the jump in the part of the pattern entered so far, as if
the rest of the pattern had other letters. -/
def ShiftHoldsUpTo (pattern : List Int8) (k : ℕ) (shift : ShiftTable) : Prop :=
  ∀ c : Int8, 0 ≤ c.toInt →
    shift.get (letterIndex c) = Int32.ofNat (pattern.length - k + jump (pattern.take k) c)

lemma shiftHoldsUpTo_set {pattern : List Int8} {k : ℕ} {shift : ShiftTable} {p : Int8}
    (h : ShiftHoldsUpTo pattern k shift) (hp : pattern[k]? = some p) (hpos : 0 ≤ p.toInt) :
    ShiftHoldsUpTo pattern (k + 1)
      (shift.setIfInBounds (letterIndex p) (Int32.ofNat pattern.length - Int32.ofNat k)) := by
  have hk : k < pattern.length := (List.getElem?_eq_some_iff.mp hp).1
  intro c hc
  rw [List.take_add_one, hp, Option.toList_some, jump_concat]
  by_cases hpc : p = c
  · subst hpc
    rw [if_pos rfl, ← Int32.ofNat_sub _ _ hk.le, show pattern.length - (k + 1) + 1 =
      pattern.length - k by omega]
    exact Vector.getElem_setIfInBounds_self (letterIndex p).isLt
  · have hindex : (letterIndex p).val ≠ (letterIndex c).val := fun heq =>
      hpc (letterIndex_inj hpos hc (Fin.ext heq))
    rw [if_neg hpc, show pattern.length - (k + 1) + (jump (pattern.take k) c + 1) =
      pattern.length - k + jump (pattern.take k) c by omega, ← h c hc]
    exact Vector.getElem_setIfInBounds_ne (letterIndex c).isLt hindex

lemma foldlM_fillStep {pattern : List Int8} (hlen : pattern.length < 2 ^ 31) (k : ℕ)
    (hk : k ≤ pattern.length) :
    (∃ shift, (List.range k).foldlM (fillStep pattern (Int32.ofNat pattern.length))
        (Vector.replicate 256 (Int32.ofNat pattern.length + 1)) = .ok shift ∧
      (∀ c ∈ pattern.take k, 0 ≤ c.toInt) ∧ ShiftHoldsUpTo pattern k shift) ∨
    ((List.range k).foldlM (fillStep pattern (Int32.ofNat pattern.length))
        (Vector.replicate 256 (Int32.ofNat pattern.length + 1)) = .error .shiftBounds ∧
      ∃ c ∈ pattern.take k, c.toInt < 0) := by
  induction k with
  | zero =>
    refine .inl ⟨_, rfl, by simp, ?_⟩
    intro c hc
    have hdefault : Int32.ofNat pattern.length + 1 = Int32.ofNat (pattern.length + 1) :=
      (Int32.ofNat_add _ _).symm
    rw [hdefault]
    exact Vector.getElem_replicate (letterIndex c).isLt
  | succ k ih =>
    have hp : pattern[k]? = some pattern[k] := List.getElem?_eq_getElem hk
    have htake : pattern.take (k + 1) = pattern.take k ++ [pattern[k]] := by
      rw [List.take_add_one, hp]
      rfl
    rw [List.range_succ, List.foldlM_append, htake]
    rcases ih (by omega) with ⟨shift, hfold, hpos, hholds⟩ | ⟨hfold, c, hc, hneg⟩
    · rw [hfold]
      change (∃ shift', fillStep _ _ shift k >>= pure = .ok shift' ∧ _) ∨
        (fillStep _ _ shift k >>= pure = .error .shiftBounds ∧ _)
      rw [bind_pure]
      by_cases hk' : 0 ≤ pattern[k].toInt
      · rw [fillStep_of_nonneg shift (by omega) hp hk']
        refine .inl ⟨_, rfl, ?_, shiftHoldsUpTo_set hholds hp hk'⟩
        intro c hc
        rcases List.mem_append.mp hc with hc | hc
        · exact hpos c hc
        · rw [List.mem_singleton.mp hc]
          exact hk'
      · refine .inr ⟨fillStep_of_negative shift (by omega) hp (by omega), pattern[k], ?_, by omega⟩
        exact List.mem_append_right _ (List.mem_singleton_self _)
    · rw [hfold]
      exact .inr ⟨rfl, c, List.mem_append_left _ hc, hneg⟩

lemma fillShift_ok {pattern : List Int8} {patternLen : Int32}
    (hlen : patternLen.toInt = pattern.length) (hpos : ∀ c ∈ pattern, 0 ≤ c.toInt) :
    ∃ shift, fillShift pattern patternLen = .ok shift ∧ ShiftHolds pattern shift := by
  obtain ⟨rfl, hlt⟩ := eq_ofNat_of_toInt hlen
  unfold fillShift
  rw [hlen, Int.toNat_natCast]
  rcases foldlM_fillStep hlt pattern.length le_rfl with ⟨shift, hfold, -, hholds⟩ | ⟨-, c, hc, hneg⟩
  · refine ⟨shift, hfold, ?_⟩
    intro c hc
    rw [hholds c hc, List.take_length, Nat.sub_self, Nat.zero_add]
  · have := hpos c (List.mem_of_mem_take hc)
    omega

lemma fillShift_error {pattern : List Int8} {patternLen : Int32}
    (hlen : patternLen.toInt = pattern.length) (hneg : ∃ c ∈ pattern, c.toInt < 0) :
    fillShift pattern patternLen = .error .shiftBounds := by
  obtain ⟨rfl, hlt⟩ := eq_ofNat_of_toInt hlen
  obtain ⟨c, hc, hneg⟩ := hneg
  unfold fillShift
  rw [hlen, Int.toNat_natCast]
  rcases foldlM_fillStep hlt pattern.length le_rfl with ⟨shift, -, hpos, -⟩ | ⟨hfold, -⟩
  · rw [List.take_length] at hpos
    have := hpos c hc
    omega
  · exact hfold

lemma sundayMatch_eq {pattern : List Int8} {patternLen : Int32}
    (hlen : patternLen.toInt = pattern.length) (hpos : ∀ c ∈ pattern, 0 ≤ c.toInt) :
    ∃ shift, ShiftHolds pattern shift ∧ ∀ fuel src srcLen,
      sundayMatch fuel src srcLen pattern patternLen =
        searchFrom shift src srcLen pattern patternLen fuel 0 := by
  obtain ⟨shift, hfill, hshift⟩ := fillShift_ok hlen hpos
  refine ⟨shift, hshift, fun fuel src srcLen => ?_⟩
  rw [sundayMatch, hfill]
  rfl

/-! ### One window -/

/-- The arguments of a call: the text with its length, whatever may be read behind it, and a
pattern that is not empty. -/
structure SundayInput (text pattern : List Int8) (srcLen patternLen : Int32) : Prop where
  srcLen : srcLen.toInt = text.length
  patternLen : patternLen.toInt = pattern.length
  nonempty : 1 ≤ pattern.length

section Windows

variable {text behind pattern : List Int8} {srcLen patternLen : Int32} {shift : ShiftTable}
  (hin : SundayInput text pattern srcLen patternLen)
include hin

lemma SundayInput.text_lt : text.length < 2 ^ 31 := (eq_ofNat_of_toInt hin.srcLen).2

lemma matchFrom_eq {i : ℕ} (hi : i + pattern.length ≤ text.length) (fuel : ℕ) {j : ℕ}
    (hj : j < pattern.length) (hfuel : pattern.length ≤ fuel + j) :
    matchFrom (text ++ behind) pattern patternLen (Int32.ofNat i) (fuel + 1) (Int32.ofNat j) =
      .ok (decide (∀ k < pattern.length, j ≤ k → text[i + k]? = pattern[k]?)) := by
  obtain ⟨hlen, hlt⟩ := eq_ofNat_of_toInt hin.patternLen
  have htext := hin.text_lt
  induction fuel generalizing j with
  | zero => omega
  | succ fuel ih =>
    have hs : text[i + j]? = some text[i + j] := List.getElem?_eq_getElem (by omega)
    have hsrc : (text ++ behind)[i + j]? = some text[i + j] := by
      rw [List.getElem?_append_left (by omega), hs]
    have hp : pattern[j]? = some pattern[j] := List.getElem?_eq_getElem hj
    have hnext : Int32.ofNat j + 1 = Int32.ofNat (j + 1) := (Int32.ofNat_add j 1).symm
    have hend : Int32.ofNat j + 1 ≥ patternLen ↔ pattern.length ≤ j + 1 := by
      rw [hnext, hlen, ge_iff_le, Int32.ofNat_le_iff_le hlt (by omega)]
    rw [matchFrom, ← Int32.ofNat_add, readChar_of_some (by omega) hsrc,
      readChar_of_some (by omega) hp]
    change (if text[i + j] = pattern[j] then
      (if Int32.ofNat j + 1 ≥ patternLen then Except.ok true else matchFrom _ _ _ _ _ _)
      else Except.ok false) = _
    by_cases hletter : text[i + j] = pattern[j]
    · rw [if_pos hletter]
      by_cases hlast : pattern.length ≤ j + 1
      · rw [if_pos (hend.mpr hlast)]
        congr 1
        symm
        rw [decide_eq_true_iff]
        intro k hk hjk
        rw [show k = j by omega, hs, hp, hletter]
      · rw [if_neg (fun h => hlast (hend.mp h)), hnext, ih (by omega) (by omega)]
        congr 1
        rw [decide_eq_decide]
        constructor
        · intro h k hk hjk
          by_cases hkj : k = j
          · rw [hkj, hs, hp, hletter]
          · exact h k hk (by omega)
        · exact fun h k hk hjk => h k hk (by omega)
    · rw [if_neg hletter]
      congr 1
      symm
      rw [decide_eq_false_iff_not]
      intro h
      have hsame := h j hj le_rfl
      rw [hs, hp] at hsame
      exact hletter (Option.some.inj hsame)

lemma matchFrom_window {i : ℕ} (hi : i + pattern.length ≤ text.length) :
    matchFrom (text ++ behind) pattern patternLen (Int32.ofNat i)
      (patternLen.toInt.toNat + 1) 0 = .ok (decide (OccursAt pattern text i)) := by
  have hzero : (0 : Int32) = Int32.ofNat 0 := rfl
  rw [hin.patternLen, Int.toNat_natCast, hzero,
    matchFrom_eq hin hi pattern.length hin.nonempty (by omega)]
  congr 1
  rw [decide_eq_decide]
  exact ⟨fun h => ⟨hi, fun k hk => h k hk (Nat.zero_le k)⟩, fun h k hk _ => h.2 k hk⟩

lemma SundayInput.toInt_lastWindow :
    (srcLen - patternLen).toInt = text.length - pattern.length := by
  have hsrc := hin.srcLen
  have hpattern := hin.patternLen
  have htext := Int32.toInt_lt srcLen
  have hlen := Int32.toInt_lt patternLen
  rw [Int32.toInt_sub, hsrc, hpattern]
  exact Int.bmod_eq_of_le (by omega) (by omega)

lemma window_le_iff {i : ℕ} (hi : i < 2 ^ 31) :
    Int32.ofNat i ≤ srcLen - patternLen ↔ i + pattern.length ≤ text.length := by
  rw [Int32.le_iff_toInt_le, Int32.toInt_ofNat_of_lt hi, hin.toInt_lastWindow]
  omega

lemma searchFrom_found {i : ℕ} (hocc : OccursAt pattern text i) (fuel : ℕ) :
    searchFrom shift (text ++ behind) srcLen pattern patternLen (fuel + 1) (Int32.ofNat i) =
      .ok (Int32.ofNat i) := by
  have htext := hin.text_lt
  have hi := hocc.1
  rw [searchFrom, if_pos ((window_le_iff hin (by omega)).mpr hi), matchFrom_window hin hi,
    decide_eq_true hocc]
  rfl

lemma searchFrom_past {i : ℕ} (hi : i < 2 ^ 31) (hpast : text.length < i + pattern.length)
    (fuel : ℕ) :
    searchFrom shift (text ++ behind) srcLen pattern patternLen (fuel + 1) (Int32.ofNat i) =
      .ok (-1) := by
  have hnot : ¬ Int32.ofNat i ≤ srcLen - patternLen := by
    rw [window_le_iff hin hi]
    omega
  rw [searchFrom, if_neg hnot]
  rfl

lemma searchFrom_moves {i : ℕ} (hi : i + pattern.length ≤ text.length)
    (hocc : ¬ OccursAt pattern text i) (fuel : ℕ) :
    searchFrom shift (text ++ behind) srcLen pattern patternLen (fuel + 1) (Int32.ofNat i) =
      (do
        let c ← readChar .srcBounds (text ++ behind) (Int32.ofNat (i + pattern.length))
        let a ← shiftIndex c
        searchFrom shift (text ++ behind) srcLen pattern patternLen fuel
          (Int32.ofNat i + shift.get a)) := by
  have htext := hin.text_lt
  have hbehind : Int32.ofNat i + patternLen = Int32.ofNat (i + pattern.length) := by
    rw [(eq_ofNat_of_toInt hin.patternLen).1, Int32.ofNat_add]
  rw [searchFrom, if_pos ((window_le_iff hin (by omega)).mpr hi), matchFrom_window hin hi,
    decide_eq_false hocc, hbehind]
  rfl

lemma searchFrom_jumps (hshift : ShiftHolds pattern shift) {i : ℕ}
    (hi : i + pattern.length ≤ text.length) (hocc : ¬ OccursAt pattern text i) {c : Int8}
    (hc : (text ++ behind)[i + pattern.length]? = some c) (hpos : 0 ≤ c.toInt) (fuel : ℕ) :
    searchFrom shift (text ++ behind) srcLen pattern patternLen (fuel + 1) (Int32.ofNat i) =
      searchFrom shift (text ++ behind) srcLen pattern patternLen fuel
        (Int32.ofNat (i + jump pattern c)) := by
  have htext := hin.text_lt
  rw [searchFrom_moves hin hi hocc, readChar_of_some (by omega) hc]
  change (shiftIndex c >>= _) = _
  rw [shiftIndex_of_nonneg hpos, Int32.ofNat_add, ← hshift c hpos]
  rfl

lemma searchFrom_negative {i : ℕ} (hi : i + pattern.length ≤ text.length)
    (hocc : ¬ OccursAt pattern text i) {c : Int8}
    (hc : (text ++ behind)[i + pattern.length]? = some c) (hneg : c.toInt < 0) (fuel : ℕ) :
    searchFrom shift (text ++ behind) srcLen pattern patternLen (fuel + 1) (Int32.ofNat i) =
      .error .shiftBounds := by
  have htext := hin.text_lt
  rw [searchFrom_moves hin hi hocc, readChar_of_some (by omega) hc]
  change (shiftIndex c >>= _) = _
  rw [shiftIndex_of_negative hneg]
  rfl

lemma searchFrom_unread {i : ℕ} (hi : i + pattern.length ≤ text.length)
    (hocc : ¬ OccursAt pattern text i) (hc : (text ++ behind)[i + pattern.length]? = none)
    (fuel : ℕ) :
    searchFrom shift (text ++ behind) srcLen pattern patternLen (fuel + 1) (Int32.ofNat i) =
      .error .srcBounds := by
  have htext := hin.text_lt
  rw [searchFrom_moves hin hi hocc, readChar_of_none (by omega) hc]
  rfl

/-! ### The walk over the windows -/

/-- The search gets to window `i`, from where it goes on with the fuel that is left. -/
def Reaches (shift : ShiftTable) (src : List Int8) (srcLen : Int32) (pattern : List Int8)
    (patternLen : Int32) (i : ℕ) : Prop :=
  ∃ rounds, ∀ fuel, searchFrom shift src srcLen pattern patternLen (fuel + rounds) 0 =
    searchFrom shift src srcLen pattern patternLen fuel (Int32.ofNat i)

variable (behind) in
/-- The search gets to every visited window, or to one with a negative letter behind it. -/
lemma reaches_of_visits (hshift : ShiftHolds pattern shift) {i : ℕ}
    (h : Visits pattern text i) :
    Reaches shift (text ++ behind) srcLen pattern patternLen i ∨
      ∃ k c, Visits pattern text k ∧ ¬ OccursAt pattern text k ∧
        text[k + pattern.length]? = some c ∧ c.toInt < 0 ∧
        Reaches shift (text ++ behind) srcLen pattern patternLen k := by
  induction h with
  | start => exact .inl ⟨0, fun _ => rfl⟩
  | @next i c hi hocc hc ih =>
    rcases ih with ⟨rounds, hrounds⟩ | hstuck
    · by_cases hpos : 0 ≤ c.toInt
      · have hlt : i + pattern.length < text.length := (List.getElem?_eq_some_iff.mp hc).1
        have hbuffer : (text ++ behind)[i + pattern.length]? = some c := by
          rw [List.getElem?_append_left hlt, hc]
        refine .inl ⟨rounds + 1, fun fuel => ?_⟩
        rw [show fuel + (rounds + 1) = fuel + 1 + rounds by omega, hrounds,
          searchFrom_jumps hin hshift hlt.le hocc hbuffer hpos]
      · exact .inr ⟨i, c, hi, hocc, hc, by omega, rounds, hrounds⟩
    · exact .inr hstuck

end Windows

end GeneralPurposeLibrary.Proofs
