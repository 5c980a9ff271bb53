import GeneralPurposeLibrary.Proofs.StatsAverage

/-!
# The extremes of the running statistics

`MIN` and `MAX` compare the added `int` with a `uint64_t` member, so a negative value
counts as one above every non-negative value. The stored words are the least and the
greatest of the added values in that order, which is the order of the integers exactly
when the values do not change sign.
-/

namespace GeneralPurposeLibrary.Proofs

lemma toNat_intToUint64_emod (value : Int32) :
    ((intToUint64 value).toNat : ℤ) = value.toInt % 2 ^ 64 := by
  have hword : (intToUint64 value).toNat = value.toInt64.toBitVec.toNat := rfl
  have hint : value.toInt = value.toInt64.toBitVec.toInt := (Int32.toInt_toInt64 value).symm
  rw [hword, hint, BitVec.toInt_eq_toNat_cond]
  have hlt := value.toInt64.toBitVec.isLt
  split <;> omega

lemma toInt_toInt64_of_emod {word : UInt64} {x : ℤ} (hx : -2 ^ 31 ≤ x ∧ x < 2 ^ 31)
    (hword : (word.toNat : ℤ) = x % 2 ^ 64) : word.toInt64.toInt = x := by
  have hint : word.toInt64.toInt = word.toBitVec.toInt := rfl
  have hnat : word.toNat = word.toBitVec.toNat := rfl
  rw [hnat] at hword
  rw [hint, BitVec.toInt_eq_toNat_cond]
  split <;> omega

/-- The word stored for one end of the order `r`: no value, read as `uint64_t`, lies beyond
it, and it is one of the values unless none was added yet. -/
structure WordExtreme (r : ℤ → ℤ → Prop) (sentinel : ℤ) (values : List ℤ) (word : UInt64) :
    Prop where
  bound : ∀ x ∈ values, r word.toNat (x % 2 ^ 64)
  mem : values ≠ [] → ∃ x ∈ values, (word.toNat : ℤ) = x % 2 ^ 64
  start : values = [] → (word.toNat : ℤ) = sentinel

/-- One `MIN` or `MAX`: the stored word stays when it is first in the order. -/
lemma WordExtreme.update {r : ℤ → ℤ → Prop} [Std.Total r] [IsTrans ℤ r] {sentinel : ℤ}
    (hlast : ∀ w, 0 ≤ w → w < 2 ^ 64 → r sentinel w → sentinel = w) {values : List ℤ}
    {word word' : UInt64} {value : Int32} (h : WordExtreme r sentinel values word)
    (hkeep : r word.toNat (intToUint64 value).toNat → word' = word)
    (htake : ¬ r word.toNat (intToUint64 value).toNat → word' = intToUint64 value) :
    WordExtreme r sentinel (values ++ [value.toInt]) word' := by
  have hvalue := toNat_intToUint64_emod value
  have hnil : values ++ [value.toInt] = [] → (word'.toNat : ℤ) = sentinel := by simp
  by_cases hr : r word.toNat (intToUint64 value).toNat
  · rw [hkeep hr] at hnil ⊢
    refine ⟨?_, ?_, hnil⟩
    · intro x hx
      rcases List.mem_append.mp hx with hx | hx
      · exact h.bound x hx
      · rw [List.mem_singleton.mp hx, ← hvalue]
        exact hr
    · intro _
      by_cases hempty : values = []
      · have hstart := h.start hempty
        rw [hstart] at hr
        have hlt := (intToUint64 value).toNat_lt
        have hsame := hlast _ (by omega) (by omega) hr
        exact ⟨value.toInt, by simp, by omega⟩
      · obtain ⟨x, hx, hword⟩ := h.mem hempty
        exact ⟨x, List.mem_append_left _ hx, hword⟩
  · rw [htake hr] at hnil ⊢
    have hafter : r (intToUint64 value).toNat word.toNat := (Std.Total.total _ _).resolve_left hr
    refine ⟨?_, fun _ => ⟨value.toInt, by simp, hvalue⟩, hnil⟩
    intro x hx
    rcases List.mem_append.mp hx with hx | hx
    · exact Trans.trans hafter (h.bound x hx)
    · rw [List.mem_singleton.mp hx, ← hvalue]
      exact (Std.Total.total _ _).elim id id

/-- The stored words are the extremes of the values read as `uint64_t`. -/
structure WordExtremes (values : List ℤ) (stats : Stats) : Prop where
  min : WordExtreme (· ≤ ·) (2 ^ 64 - 1) values stats.min
  max : WordExtreme (· ≥ ·) 0 values stats.max

namespace WordExtremes

variable {values : List ℤ} {stats : Stats}

lemma congr {stats' : Stats} (h : WordExtremes values stats) (hmin : stats'.min = stats.min)
    (hmax : stats'.max = stats.max) : WordExtremes values stats' := by
  constructor
  case min => rw [hmin]; exact h.min
  case max => rw [hmax]; exact h.max

lemma update (h : WordExtremes values stats) (value : Int32) :
    WordExtremes (values ++ [value.toInt]) (updateExtremes stats value) := by
  constructor
  case min =>
    have hgt : stats.min > intToUint64 value ↔
        ¬ (stats.min.toNat : ℤ) ≤ (intToUint64 value).toNat := by
      rw [gt_iff_lt, UInt64.lt_iff_toNat_lt]
      omega
    apply h.min.update (fun w _ hlt hle => by omega)
    · intro hle
      exact if_neg fun h => hgt.mp h hle
    · intro hle
      exact if_pos (hgt.mpr hle)
  case max =>
    have hlt : stats.max < intToUint64 value ↔
        ¬ (stats.max.toNat : ℤ) ≥ (intToUint64 value).toNat := by
      rw [UInt64.lt_iff_toNat_lt]
      omega
    apply h.max.update (fun w hpos _ hle => by omega)
    · intro hge
      exact if_neg fun h => hlt.mp h hge
    · intro hge
      exact if_pos (hlt.mpr hge)

end WordExtremes

lemma flushBatch_extremes (stats : Stats) :
    (flushBatch stats).min = stats.min ∧ (flushBatch stats).max = stats.max := by
  unfold flushBatch
  split
  · exact ⟨rfl, rfl⟩
  · exact ⟨rfl, rfl⟩

lemma wordExtremes_apply {values : List ℤ} {stats : Stats} (h : WordExtremes values stats)
    (call : StatsCall) :
    ∃ stats', StatsCall.apply (some stats) call = some stats' ∧
      WordExtremes (values ++ (callValue call).toList) stats' := by
  cases call with
  | add value =>
    refine ⟨_, rfl, (h.update value).congr ?_ ?_⟩
    · dsimp only
      split
      · exact (flushBatch_extremes _).1
      · rfl
    · dsimp only
      split
      · exact (flushBatch_extremes _).2
      · rfl
  | setMaxBatch maxBatch =>
    refine ⟨_, rfl, ?_⟩
    rw [callValue, Option.toList_none, List.append_nil]
    exact h.congr rfl rfl
  | print =>
    refine ⟨_, rfl, ?_⟩
    rw [callValue, Option.toList_none, List.append_nil]
    exact h.congr (flushBatch_extremes stats).1 (flushBatch_extremes stats).2

lemma runStats_wordExtremes (calls : List StatsCall) {values : List ℤ} {stats : Stats}
    (h : WordExtremes values stats) :
    ∃ stats', runStats (some stats) calls = some stats' ∧
      WordExtremes (values ++ addedValues calls) stats' := by
  induction calls generalizing values stats with
  | nil =>
    refine ⟨stats, rfl, ?_⟩
    simpa [addedValues] using h
  | cons call calls ih =>
    obtain ⟨stats₁, happly, hstep⟩ := wordExtremes_apply h call
    obtain ⟨stats₂, hrun, hrest⟩ := ih hstep
    refine ⟨stats₂, ?_, ?_⟩
    · rw [← hrun, ← happly]
      rfl
    · rw [addedValues_cons, ← List.append_assoc]
      exact hrest

lemma init_run_wordExtremes (memory : Stats) (calls : List StatsCall) :
    ∃ stats, runStats (statsInit (some memory)).2 calls = some stats ∧
      WordExtremes (addedValues calls) stats := by
  have hinit : ∃ stats, (statsInit (some memory)).2 = some stats ∧ WordExtremes [] stats := by
    refine ⟨_, rfl, ?_⟩
    constructor
    case min => constructor <;> simp
    case max => constructor <;> simp
  obtain ⟨stats, hsome, hnil⟩ := hinit
  obtain ⟨stats', hrun, hrest⟩ := runStats_wordExtremes calls hnil
  rw [hsome]
  exact ⟨stats', hrun, hrest⟩

lemma addedValues_range (calls : List StatsCall) :
    ∀ x ∈ addedValues calls, -2 ^ 31 ≤ x ∧ x < 2 ^ 31 := by
  intro x hx
  obtain ⟨call, -, hcall⟩ := List.mem_filterMap.mp hx
  cases call with
  | add value =>
    cases hcall
    exact ⟨Int32.le_toInt value, Int32.toInt_lt value⟩
  | setMaxBatch maxBatch => cases hcall
  | print => cases hcall

/-- The stored members, read as signed, are the least and the greatest value added. -/
def SignedExtremes (values : List ℤ) (stats : Stats) : Prop :=
  values.min? = some stats.min.toInt64.toInt ∧ values.max? = some stats.max.toInt64.toInt

instance (values : List ℤ) (stats : Stats) : Decidable (SignedExtremes values stats) :=
  inferInstanceAs (Decidable (_ ∧ _))

lemma signedExtremes_of_order {values : List ℤ} {stats : Stats} (h : WordExtremes values stats)
    (hrange : ∀ x ∈ values, -2 ^ 31 ≤ x ∧ x < 2 ^ 31) (hne : values ≠ [])
    (horder : ∀ x ∈ values, ∀ y ∈ values, x % 2 ^ 64 ≤ y % 2 ^ 64 → x ≤ y) :
    SignedExtremes values stats := by
  obtain ⟨lo, hlo, hmin⟩ := h.min.mem hne
  obtain ⟨hi, hhi, hmax⟩ := h.max.mem hne
  rw [SignedExtremes, toInt_toInt64_of_emod (hrange lo hlo) hmin,
    toInt_toInt64_of_emod (hrange hi hhi) hmax]
  constructor
  · rw [List.min?_eq_some_iff]
    refine ⟨hlo, ?_⟩
    intro x hx
    exact horder lo hlo x hx (hmin ▸ h.min.bound x hx)
  · rw [List.max?_eq_some_iff]
    refine ⟨hhi, ?_⟩
    intro x hx
    exact horder x hx hi hhi (hmax ▸ h.max.bound x hx)

lemma one_sign_of_signedExtremes {values : List ℤ} {stats : Stats}
    (h : WordExtremes values stats) (hrange : ∀ x ∈ values, -2 ^ 31 ≤ x ∧ x < 2 ^ 31)
    (hne : values ≠ []) (hsigned : SignedExtremes values stats) :
    (∀ x ∈ values, 0 ≤ x) ∨ ∀ x ∈ values, x < 0 := by
  obtain ⟨hi, hhi, hmax⟩ := h.max.mem hne
  have hgreatest := hsigned.2
  rw [toInt_toInt64_of_emod (hrange hi hhi) hmax, List.max?_eq_some_iff] at hgreatest
  by_cases hneg : hi < 0
  · exact .inr fun x hx => lt_of_le_of_lt (hgreatest.2 x hx) hneg
  · -- a negative value would have a greater word than the stored one
    refine .inl fun x hx => ?_
    have hle := h.max.bound x hx
    have hx' := hrange x hx
    have hhi' := hrange hi hhi
    omega

/-- After any calls that add at least one value, the stored extremes are those of the values
if and only if no two of the values differ in sign. -/
theorem stats_extremes_iff (memory : Stats) (calls : List StatsCall)
    (hne : addedValues calls ≠ []) :
    ∃ stats, runStats (statsInit (some memory)).2 calls = some stats ∧
      (SignedExtremes (addedValues calls) stats ↔
        (∀ x ∈ addedValues calls, 0 ≤ x) ∨ ∀ x ∈ addedValues calls, x < 0) := by
  obtain ⟨stats, hrun, hwords⟩ := init_run_wordExtremes memory calls
  have hrange := addedValues_range calls
  refine ⟨stats, hrun, one_sign_of_signedExtremes hwords hrange hne, ?_⟩
  rintro (hpos | hneg)
  · apply signedExtremes_of_order hwords hrange hne
    intro x hx y hy hle
    have hx' := hrange x hx
    have hy' := hrange y hy
    have hx0 := hpos x hx
    have hy0 := hpos y hy
    omega
  · apply signedExtremes_of_order hwords hrange hne
    intro x hx y hy hle
    have hx' := hrange x hx
    have hy' := hrange y hy
    have hx0 := hneg x hx
    have hy0 := hneg y hy
    omega

theorem uneven_calls_extremes :
    addedValues unevenCalls ≠ [] ∧
      ∃ stats, runStats (statsInit (some unsetStats)).2 unevenCalls = some stats ∧
        (SignedExtremes (addedValues unevenCalls) stats ↔
          (∀ x ∈ addedValues unevenCalls, 0 ≤ x) ∨ ∀ x ∈ addedValues unevenCalls, x < 0) :=
  ⟨by decide, stats_extremes_iff unsetStats unevenCalls (by decide)⟩

def signedCalls : List StatsCall := [.add (-1), .add 1]

/-- Of -1 and 1, the least value stored is 1 and the greatest -1. -/
theorem signed_calls_miss_extremes :
    ∃ stats, runStats (statsInit (some unsetStats)).2 signedCalls = some stats ∧
      addedValues signedCalls ≠ [] ∧ ¬ SignedExtremes (addedValues signedCalls) stats :=
  ⟨_, rfl, by decide, by decide⟩

end GeneralPurposeLibrary.Proofs
