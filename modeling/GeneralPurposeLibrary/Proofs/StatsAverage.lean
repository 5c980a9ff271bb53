import GeneralPurposeLibrary.Stats
import GeneralPurposeLibrary.Foundation.TruncatedMean

/-!
# Conservation, range and accuracy of the running statistics

The values added so far fall into the samples, which the average accounts for, and the
values of the open batch. `StatsHolds` states what the members of `stats_t` say about the
two lists; every call preserves it.
-/

namespace GeneralPurposeLibrary.Proofs
open TruncatedMean

/-! ### Machine arithmetic inside the ranges -/

lemma toNat_toUInt64 {x : Int64} (h : 0 ≤ x.toInt) : (x.toUInt64.toNat : ℤ) = x.toInt := by
  have hint : x.toInt = x.toBitVec.toInt := rfl
  have hnat : x.toUInt64.toNat = x.toBitVec.toNat := rfl
  rw [hint, BitVec.toInt_eq_toNat_cond] at h
  rw [hnat, hint, BitVec.toInt_eq_toNat_cond]
  split at h <;> rename_i hlt
  · rw [if_pos hlt]
  · omega

lemma toInt_toInt64 {x : UInt64} (h : x.toNat < 2 ^ 63) : x.toInt64.toInt = x.toNat := by
  have hint : x.toInt64.toInt = x.toBitVec.toInt := rfl
  have hnat : x.toNat = x.toBitVec.toNat := rfl
  rw [hint, BitVec.toInt_eq_toNat_cond, if_pos (by omega), hnat]

lemma toNat_intToUint64 {value : Int32} (h : 0 ≤ value.toInt) :
    ((intToUint64 value).toNat : ℤ) = value.toInt := by
  unfold intToUint64
  rw [toNat_toUInt64 (by rwa [Int32.toInt_toInt64]), Int32.toInt_toInt64]

lemma toInt_add_of_lt {a b : Int32} (ha : 0 ≤ a.toInt) (hb : 0 ≤ b.toInt)
    (h : a.toInt + b.toInt < 2 ^ 31) : (a + b).toInt = a.toInt + b.toInt := by
  rw [Int32.toInt_add]
  exact Int.bmod_eq_of_le (by omega) (by omega)

lemma toInt_mul_of_lt {a b : Int64} (ha : 0 ≤ a.toInt * b.toInt)
    (h : a.toInt * b.toInt < 2 ^ 63) : (a * b).toInt = a.toInt * b.toInt := by
  rw [Int64.toInt_mul]
  exact Int.bmod_eq_of_le (by omega) (by omega)

lemma toNat_add_of_lt {a b : UInt64} (h : a.toNat + b.toNat < 2 ^ 64) :
    (a + b).toNat = a.toNat + b.toNat := by
  rw [UInt64.toNat_add, Nat.mod_eq_of_lt h]

lemma eq_zero_iff_toInt {a : Int32} : a = 0 ↔ a.toInt = 0 := by
  rw [← Int32.toInt_inj, Int32.toInt_zero]

/-! ### Sums of values of type `int` -/

lemma sum_nonneg_of_nonneg {l : List ℤ} (h : ∀ x ∈ l, 0 ≤ x ∧ x < 2 ^ 31) : 0 ≤ l.sum :=
  List.sum_nonneg fun x hx => (h x hx).1

lemma sum_le_length {l : List ℤ} (h : ∀ x ∈ l, 0 ≤ x ∧ x < 2 ^ 31) :
    l.sum ≤ l.length * (2 ^ 31 - 1) := by
  have hle := List.sum_le_card_nsmul l (2 ^ 31 - 1) (fun x hx => by have := (h x hx).2; omega)
  simpa using hle

/-- The members of `stats_t` describe the samples already averaged and the open batch, after
`flushes` batches. -/
structure StatsHolds (sampled pending : List ℤ) (flushes : ℕ) (stats : Stats) : Prop where
  range : ∀ x ∈ sampled ++ pending, 0 ≤ x ∧ x < 2 ^ 31
  count : sampled.length + pending.length < 2 ^ 31
  nrSamples : stats.nrSamples.toInt = sampled.length
  nrBatch : stats.nrBatch.toInt = pending.length
  batch : (stats.batch.toNat : ℤ) = pending.sum
  lower : ∀ lo, sampled ≠ [] → (∀ x ∈ sampled, lo ≤ x) → lo ≤ stats.average.toInt
  upper : ∀ hi, sampled ≠ [] → (∀ x ∈ sampled, x ≤ hi) → stats.average.toInt ≤ hi
  above : 0 ≤ deficit sampled.sum stats.average.toInt sampled.length
  short : deficit sampled.sum stats.average.toInt sampled.length ≤ flushes * (sampled.length - 1)
  unflushed : flushes = 0 ↔ sampled = []

namespace StatsHolds

variable {sampled pending : List ℤ} {flushes : ℕ} {stats : Stats}

lemma sampled_range (h : StatsHolds sampled pending flushes stats) :
    ∀ x ∈ sampled, 0 ≤ x ∧ x < 2 ^ 31 :=
  fun x hx => h.range x (List.mem_append_left _ hx)

lemma pending_range (h : StatsHolds sampled pending flushes stats) :
    ∀ x ∈ pending, 0 ≤ x ∧ x < 2 ^ 31 :=
  fun x hx => h.range x (List.mem_append_right _ hx)

lemma product_nonneg (h : StatsHolds sampled pending flushes stats) :
    0 ≤ stats.average.toInt * sampled.length := by
  by_cases hs : sampled = []
  · simp [hs]
  · have hlo := h.lower 0 hs fun x hx => (h.sampled_range x hx).1
    positivity

lemma product_le (h : StatsHolds sampled pending flushes stats) :
    stats.average.toInt * sampled.length ≤ sampled.sum := by
  have habove := h.above
  unfold deficit at habove
  omega

lemma sum_lt (h : StatsHolds sampled pending flushes stats) :
    stats.average.toInt * sampled.length + pending.sum < 2 ^ 62 := by
  have hsampled := sum_le_length h.sampled_range
  have hpending := sum_le_length h.pending_range
  have hproduct := h.product_le
  have hcount := h.count
  omega

lemma batch_nonneg (h : StatsHolds sampled pending flushes stats) : 0 ≤ pending.sum :=
  sum_nonneg_of_nonneg h.pending_range

lemma toInt_count (h : StatsHolds sampled pending flushes stats) :
    (stats.nrSamples + stats.nrBatch).toInt = sampled.length + pending.length := by
  have hcount := h.count
  have hsamples := h.nrSamples
  have hbatch := h.nrBatch
  rw [toInt_add_of_lt (by omega) (by omega) (by omega), hsamples, hbatch]

lemma batch_lt (h : StatsHolds sampled pending flushes stats) : stats.batch.toNat < 2 ^ 62 := by
  have hsum := h.sum_lt
  have hproduct := h.product_nonneg
  have hbatch := h.batch
  omega

lemma toNat_count (h : StatsHolds sampled pending flushes stats) :
    ((intToUint64 (stats.nrSamples + stats.nrBatch)).toNat : ℤ) =
      sampled.length + pending.length := by
  have hcount := h.toInt_count
  rw [toNat_intToUint64 (by omega), hcount]

lemma toNat_dividend (h : StatsHolds sampled pending flushes stats) :
    (((stats.average * stats.nrSamples.toInt64).toUInt64 + stats.batch).toNat : ℤ) =
      stats.average.toInt * sampled.length + pending.sum := by
  have hnonneg := h.product_nonneg
  have hpending := h.batch_nonneg
  have hsum := h.sum_lt
  have hbatch := h.batch
  have hproduct : (stats.average * stats.nrSamples.toInt64).toInt =
      stats.average.toInt * sampled.length := by
    rw [toInt_mul_of_lt] <;> rw [Int32.toInt_toInt64, h.nrSamples]
    all_goals omega
  have hunsigned : ((stats.average * stats.nrSamples.toInt64).toUInt64.toNat : ℤ) =
      stats.average.toInt * sampled.length := by
    rw [toNat_toUInt64 (by omega), hproduct]
  rw [toNat_add_of_lt (by omega)]
  omega

lemma nrBatch_ne_zero (h : StatsHolds sampled pending flushes stats) (hp : pending ≠ []) :
    stats.nrBatch ≠ 0 := by
  rw [ne_eq, eq_zero_iff_toInt, h.nrBatch]
  simpa using hp

/-- The quotient of a flush is the merge of the samples with the batch. -/
lemma flush_average (h : StatsHolds sampled pending flushes stats) (hp : pending ≠ []) :
    (flushBatch stats).average.toInt =
      merge stats.average.toInt sampled.length pending.sum pending.length := by
  have hbatch := h.nrBatch
  have hne := h.nrBatch_ne_zero hp
  unfold flushBatch
  rw [if_neg hne]
  dsimp only
  by_cases hs : sampled = []
  · have hzero : stats.nrSamples = 0 := by
      rw [eq_zero_iff_toInt, h.nrSamples, hs]
      rfl
    have hdivisor : ((intToUint64 stats.nrBatch).toNat : ℤ) = stats.nrBatch.toInt :=
      toNat_intToUint64 (by omega)
    rw [if_pos hzero, toInt_toInt64, UInt64.toNat_div]
    · subst hs
      rw [Int.natCast_ediv, h.batch, hdivisor, hbatch]
      exact (merge_zero_samples _ _ _).symm
    · have hlt := h.batch_lt
      have hle := Nat.div_le_self stats.batch.toNat (intToUint64 stats.nrBatch).toNat
      rw [UInt64.toNat_div]
      omega
  · have hzero : stats.nrSamples ≠ 0 := by
      rw [ne_eq, eq_zero_iff_toInt, h.nrSamples]
      simpa using hs
    rw [if_neg hzero, toInt_toInt64, UInt64.toNat_div]
    · rw [Int.natCast_ediv, h.toNat_dividend, h.toNat_count]
      rfl
    · have hdividend := h.toNat_dividend
      have hlt := h.sum_lt
      rw [UInt64.toNat_div]
      exact lt_of_le_of_lt (Nat.div_le_self _ _) (by omega)

lemma flush (h : StatsHolds sampled pending flushes stats) (hp : pending ≠ []) :
    StatsHolds (sampled ++ pending) [] (flushes + 1) (flushBatch stats) := by
  have hlen : 0 < pending.length := List.length_pos_iff.mpr hp
  have hne := h.nrBatch_ne_zero hp
  have haverage := h.flush_average hp
  have hcount := h.count
  have hlength : ((sampled ++ pending).length : ℤ) = sampled.length + pending.length := by
    simp
  have hsum : (sampled ++ pending).sum = sampled.sum + pending.sum := List.sum_append
  constructor
  case range => simpa using h.range
  case count => simpa using hcount
  case nrSamples =>
    rw [hlength, ← h.toInt_count]
    simp [flushBatch, hne]
  case nrBatch => simp [flushBatch, hne]
  case batch => simp [flushBatch, hne]
  case lower =>
    intro lo _ hlo
    rw [haverage]
    apply le_merge (by omega) (by omega)
    · intro hpos
      apply h.lower lo (List.length_pos_iff.mp (by omega))
      exact fun x hx => hlo x (List.mem_append_left _ hx)
    · have hle := List.card_nsmul_le_sum pending lo fun x hx =>
        hlo x (List.mem_append_right _ hx)
      rw [mul_comm]
      simpa using hle
  case upper =>
    intro hi _ hhi
    rw [haverage]
    apply merge_le (by omega) (by omega)
    · intro hpos
      apply h.upper hi (List.length_pos_iff.mp (by omega))
      exact fun x hx => hhi x (List.mem_append_left _ hx)
    · have hle := List.sum_le_card_nsmul pending hi fun x hx =>
        hhi x (List.mem_append_right _ hx)
      rw [mul_comm]
      simpa using hle
  case above =>
    rw [haverage, hsum, hlength]
    exact deficit_merge_nonneg (by omega) (by omega) h.above
  case short =>
    rw [haverage, hsum, hlength]
    have hle : deficit (sampled.sum + pending.sum)
        (merge stats.average.toInt sampled.length pending.sum pending.length)
          (sampled.length + pending.length) ≤ _ :=
      deficit_merge_le (by omega) (by omega)
    have hshort := h.short
    have hgrow : (flushes : ℤ) * (sampled.length - 1) ≤
        flushes * (sampled.length + pending.length - 1) :=
      mul_le_mul_of_nonneg_left (by omega) (by omega)
    push_cast
    linarith
  case unflushed => simp [hp]

lemma flush_any (h : StatsHolds sampled pending flushes stats) :
    StatsHolds (sampled ++ pending) [] (flushes + (stats.nrBatch != 0).toNat)
      (flushBatch stats) := by
  by_cases hp : pending = []
  · subst hp
    have hzero : stats.nrBatch = 0 := by
      rw [eq_zero_iff_toInt, h.nrBatch]
      rfl
    have hsame : flushBatch stats = stats := by simp [flushBatch, hzero]
    rw [hsame]
    simpa [hzero] using h
  · have hne : (stats.nrBatch != 0) = true := bne_iff_ne.mpr (h.nrBatch_ne_zero hp)
    rw [hne]
    exact h.flush hp

lemma congr {stats' : Stats} (h : StatsHolds sampled pending flushes stats)
    (ha : stats'.average = stats.average) (hs : stats'.nrSamples = stats.nrSamples)
    (hb : stats'.batch = stats.batch) (hn : stats'.nrBatch = stats.nrBatch) :
    StatsHolds sampled pending flushes stats' := by
  constructor
  case range => exact h.range
  case count => exact h.count
  case nrSamples => rw [hs, h.nrSamples]
  case nrBatch => rw [hn, h.nrBatch]
  case batch => rw [hb, h.batch]
  case lower => rw [ha]; exact h.lower
  case upper => rw [ha]; exact h.upper
  case above => rw [ha]; exact h.above
  case short => rw [ha]; exact h.short
  case unflushed => exact h.unflushed

lemma append {value : Int32} (h : StatsHolds sampled pending flushes stats)
    (hv : 0 ≤ value.toInt) (hc : sampled.length + pending.length + 1 < 2 ^ 31) :
    StatsHolds sampled (pending ++ [value.toInt]) flushes
      { stats with
        batch := stats.batch + intToUint64 value
        nrBatch := stats.nrBatch + 1 } := by
  have hlt : value.toInt < 2 ^ 31 := Int32.toInt_lt value
  have hvalue := toNat_intToUint64 hv
  have hone : (1 : Int32).toInt = 1 := rfl
  constructor
  case range =>
    intro x hx
    rw [← List.append_assoc, List.mem_append, List.mem_singleton] at hx
    rcases hx with hx | rfl
    · exact h.range x hx
    · exact ⟨hv, hlt⟩
  case count =>
    rw [List.length_append, List.length_singleton]
    omega
  case nrSamples => exact h.nrSamples
  case nrBatch =>
    have hbatch := h.nrBatch
    have hadd : (stats.nrBatch + 1).toInt = stats.nrBatch.toInt + (1 : Int32).toInt :=
      toInt_add_of_lt (by omega) (by omega) (by omega)
    simp [hadd, hbatch]
  case batch =>
    have hbatch := h.batch
    have hbound := h.batch_lt
    rw [toNat_add_of_lt (by omega), List.sum_append, List.sum_singleton]
    omega
  case lower => exact h.lower
  case upper => exact h.upper
  case above => exact h.above
  case short => exact h.short
  case unflushed => exact h.unflushed

end StatsHolds

/-! ### Runs -/

def callValue : StatsCall → Option ℤ
  | .add value => some value.toInt
  | .setMaxBatch _ => none
  | .print => none

/-- The values handed to `stats_add`, in order. -/
def addedValues (calls : List StatsCall) : List ℤ := calls.filterMap callValue

/-- Whether the call flushes a batch that is not empty. -/
def flushesBatch (stats : Stats) : StatsCall → Bool
  | .add value => addFlushes (updateExtremes stats value) value && stats.nrBatch != 0
  | .setMaxBatch _ => false
  | .print => stats.nrBatch != 0

/-- The number of non-empty batches that a run of calls flushes. -/
def flushCount : Option Stats → List StatsCall → ℕ
  | _, [] => 0
  | none, _ :: _ => 0
  | some stats, call :: calls =>
    (flushesBatch stats call).toNat + flushCount (call.apply (some stats)) calls

/-- The invariant with the split into samples and batch left open. -/
def StatsCount (values : List ℤ) (flushes : ℕ) (stats : Stats) : Prop :=
  ∃ sampled pending, sampled ++ pending = values ∧ StatsHolds sampled pending flushes stats

lemma statsCount_flush {values : List ℤ} {flushes : ℕ} {stats : Stats}
    (h : StatsCount values flushes stats) :
    StatsCount values (flushes + (stats.nrBatch != 0).toNat) (flushBatch stats) := by
  obtain ⟨sampled, pending, rfl, hholds⟩ := h
  have hflush := hholds.flush_any
  exact ⟨sampled ++ pending, [], List.append_nil _, hflush⟩

lemma statsCount_add {values : List ℤ} {flushes : ℕ} {stats : Stats} {value : Int32}
    (h : StatsCount values flushes stats) (hv : 0 ≤ value.toInt)
    (hn : values.length + 1 < 2 ^ 31) :
    ∃ stats', StatsCall.apply (some stats) (.add value) = some stats' ∧
      StatsCount (values ++ [value.toInt])
        (flushes + (flushesBatch stats (.add value)).toNat) stats' := by
  have hextremes : StatsCount values flushes (updateExtremes stats value) := by
    obtain ⟨sampled, pending, happend, hholds⟩ := h
    exact ⟨sampled, pending, happend, hholds.congr rfl rfl rfl rfl⟩
  have hsettled : StatsCount values (flushes + (flushesBatch stats (.add value)).toNat)
      (if addFlushes (updateExtremes stats value) value then
        flushBatch (updateExtremes stats value) else updateExtremes stats value) := by
    by_cases hflush : addFlushes (updateExtremes stats value) value = true
    · rw [flushesBatch, hflush, if_pos rfl, Bool.true_and]
      exact statsCount_flush hextremes
    · simpa [flushesBatch, hflush] using hextremes
  obtain ⟨sampled, pending, rfl, hholds⟩ := hsettled
  refine ⟨_, rfl, sampled, pending ++ [value.toInt], (List.append_assoc _ _ _).symm, ?_⟩
  apply hholds.append hv
  simpa using hn

lemma statsCount_apply {values : List ℤ} {flushes : ℕ} {stats : Stats} {call : StatsCall}
    (h : StatsCount values flushes stats) (hv : ∀ v ∈ callValue call, 0 ≤ v)
    (hn : (values ++ (callValue call).toList).length < 2 ^ 31) :
    ∃ stats', StatsCall.apply (some stats) call = some stats' ∧
      StatsCount (values ++ (callValue call).toList)
        (flushes + (flushesBatch stats call).toNat) stats' := by
  cases call with
  | add value =>
    apply statsCount_add h (hv value.toInt rfl)
    simpa [callValue] using hn
  | setMaxBatch maxBatch =>
    obtain ⟨sampled, pending, happend, hholds⟩ := h
    refine ⟨_, rfl, sampled, pending, ?_, hholds.congr rfl rfl rfl rfl⟩
    rw [happend]
    exact (List.append_nil values).symm
  | print =>
    refine ⟨_, rfl, ?_⟩
    have hflush := statsCount_flush h
    rw [← List.append_nil values] at hflush
    exact hflush

lemma addedValues_cons (call : StatsCall) (calls : List StatsCall) :
    addedValues (call :: calls) = (callValue call).toList ++ addedValues calls := by
  unfold addedValues
  cases hcall : callValue call <;> simp [hcall]

lemma runStats_statsCount (calls : List StatsCall) {values : List ℤ} {flushes : ℕ}
    {stats : Stats} (h : StatsCount values flushes stats)
    (hv : ∀ v ∈ addedValues calls, 0 ≤ v)
    (hn : (values ++ addedValues calls).length < 2 ^ 31) :
    ∃ stats', runStats (some stats) calls = some stats' ∧
      StatsCount (values ++ addedValues calls) (flushes + flushCount (some stats) calls)
        stats' := by
  induction calls generalizing values flushes stats with
  | nil =>
    refine ⟨stats, rfl, ?_⟩
    simpa [addedValues, flushCount] using h
  | cons call calls ih =>
    rw [addedValues_cons, ← List.append_assoc] at hn
    rw [addedValues_cons] at hv
    have hfirst : (values ++ (callValue call).toList).length < 2 ^ 31 := by
      rw [List.length_append] at hn
      omega
    have hcall : ∀ v ∈ callValue call, 0 ≤ v := fun v hm =>
      hv v (List.mem_append_left _ (Option.mem_toList.mpr hm))
    obtain ⟨stats₁, happly, hstep⟩ := statsCount_apply h hcall hfirst
    obtain ⟨stats₂, hrun, hrest⟩ := ih hstep (fun v hm => hv v (List.mem_append_right _ hm)) hn
    refine ⟨stats₂, ?_, ?_⟩
    · rw [← hrun, ← happly]
      rfl
    · rw [addedValues_cons, ← List.append_assoc, flushCount, happly, ← Nat.add_assoc]
      exact hrest

lemma statsInit_statsCount (memory : Stats) :
    ∃ stats, (statsInit (some memory)).2 = some stats ∧ StatsCount [] 0 stats := by
  refine ⟨_, rfl, [], [], rfl, ?_⟩
  constructor <;> simp [deficit]

lemma init_run_statsCount (memory : Stats) {calls : List StatsCall}
    (hv : ∀ v ∈ addedValues calls, 0 ≤ v) (hn : (addedValues calls).length < 2 ^ 31) :
    ∃ stats, runStats (statsInit (some memory)).2 calls = some stats ∧
      StatsCount (addedValues calls) (flushCount (statsInit (some memory)).2 calls) stats := by
  obtain ⟨stats, hinit, hcount⟩ := statsInit_statsCount memory
  obtain ⟨stats', hrun, hrest⟩ := runStats_statsCount calls hcount hv (by simpa using hn)
  refine ⟨stats', by rw [hinit, hrun], ?_⟩
  simpa [hinit] using hrest

/-! ### Conservation and range -/

/-- Every intermediate value of `flush_batch` is in the range of its C type, and neither of
its divisors is zero. -/
structure FlushInRange (stats : Stats) : Prop where
  product : -2 ^ 63 ≤ stats.average.toInt * stats.nrSamples.toInt ∧
    stats.average.toInt * stats.nrSamples.toInt < 2 ^ 63
  sum : 0 ≤ stats.average.toInt * stats.nrSamples.toInt + stats.batch.toNat ∧
    stats.average.toInt * stats.nrSamples.toInt + stats.batch.toNat < 2 ^ 64
  count : -2 ^ 31 ≤ stats.nrSamples.toInt + stats.nrBatch.toInt ∧
    stats.nrSamples.toInt + stats.nrBatch.toInt < 2 ^ 31
  batchDivisor : stats.nrBatch ≠ 0 → intToUint64 stats.nrBatch ≠ 0
  countDivisor : stats.nrBatch ≠ 0 → intToUint64 (stats.nrSamples + stats.nrBatch) ≠ 0

/-- The counters account for all values, the batch is the sum of the last `nr_batch` of them,
and the average is in the range of the first `nr_samples`. -/
structure StatsConserve (values : List ℤ) (stats : Stats) : Prop where
  nrSamples : 0 ≤ stats.nrSamples.toInt
  nrBatch : 0 ≤ stats.nrBatch.toInt
  count : stats.nrSamples.toInt + stats.nrBatch.toInt = values.length
  batch : (stats.batch.toNat : ℤ) =
    (values.drop (values.length - stats.nrBatch.toInt.toNat)).sum
  average : 0 < stats.nrSamples.toInt → ∃ lo hi,
    (values.take stats.nrSamples.toInt.toNat).min? = some lo ∧
    (values.take stats.nrSamples.toInt.toNat).max? = some hi ∧
    lo ≤ stats.average.toInt ∧ stats.average.toInt ≤ hi

namespace StatsHolds

variable {sampled pending : List ℤ} {flushes : ℕ} {stats : Stats}

lemma flushInRange (h : StatsHolds sampled pending flushes stats) : FlushInRange stats := by
  have hsamples := h.nrSamples
  have hbatch := h.nrBatch
  have hsum := h.batch
  have hcount := h.count
  have hnonneg := h.product_nonneg
  have hpending := h.batch_nonneg
  have hlt := h.sum_lt
  constructor
  case product => rw [hsamples]; omega
  case sum => rw [hsamples, hsum]; omega
  case count => omega
  case batchDivisor =>
    intro hne hzero
    have hdivisor := toNat_intToUint64 (by omega : 0 ≤ stats.nrBatch.toInt)
    rw [hzero, UInt64.toNat_zero] at hdivisor
    exact hne (eq_zero_iff_toInt.mpr hdivisor.symm)
  case countDivisor =>
    intro hne hzero
    have hdivisor := h.toNat_count
    rw [hzero, UInt64.toNat_zero] at hdivisor
    exact hne (eq_zero_iff_toInt.mpr (by omega))

lemma statsConserve (h : StatsHolds sampled pending flushes stats) :
    StatsConserve (sampled ++ pending) stats := by
  have hsamples := h.nrSamples
  have hbatch := h.nrBatch
  have htake : (sampled ++ pending).take stats.nrSamples.toInt.toNat = sampled := by
    rw [hsamples, Int.toNat_natCast, List.take_left]
  have hdrop : (sampled ++ pending).drop
      ((sampled ++ pending).length - stats.nrBatch.toInt.toNat) = pending := by
    rw [hbatch, Int.toNat_natCast, List.length_append, Nat.add_sub_cancel, List.drop_left]
  constructor
  case nrSamples => omega
  case nrBatch => omega
  case count => rw [List.length_append, hsamples, hbatch]; omega
  case batch => rw [hdrop, h.batch]
  case average =>
    intro hpos
    have hne : sampled ≠ [] := List.length_pos_iff.mp (by omega)
    rw [htake]
    refine ⟨sampled.min hne, sampled.max hne, List.min?_eq_some_min hne,
      List.max?_eq_some_max hne, ?_, ?_⟩
    · exact h.lower _ hne fun x hx => List.min_le_of_mem hx
    · exact h.upper _ hne fun x hx => List.le_max_of_mem hx

end StatsHolds

/-- After any sequence of calls that add fewer than `2 ^ 31` non-negative values, the counters
conserve the values, the average stays in the range of its samples, and a flush of the state
reached, by `stats_print` or by `stats_add` of any value, stays in the ranges of its types. -/
theorem stats_conserves (memory : Stats) (calls : List StatsCall)
    (hv : ∀ v ∈ addedValues calls, 0 ≤ v) (hn : (addedValues calls).length < 2 ^ 31) :
    ∃ stats, runStats (statsInit (some memory)).2 calls = some stats ∧
      StatsConserve (addedValues calls) stats ∧ FlushInRange stats ∧
      ∀ value, FlushInRange (updateExtremes stats value) := by
  obtain ⟨stats, hrun, sampled, pending, happend, hholds⟩ := init_run_statsCount memory hv hn
  refine ⟨stats, hrun, ?_, hholds.flushInRange, ?_⟩
  · rw [← happend]
    exact hholds.statsConserve
  · intro value
    have hextremes : StatsHolds sampled pending _ (updateExtremes stats value) :=
      hholds.congr rfl rfl rfl rfl
    exact hextremes.flushInRange

def unsetStats : Stats := ⟨0, 0, 0, 0, 0, 0, 0⟩

def unevenCalls : List StatsCall := [.setMaxBatch 2, .add 0, .add 1, .add 2]

theorem uneven_calls_conserved :
    (∀ v ∈ addedValues unevenCalls, 0 ≤ v) ∧ (addedValues unevenCalls).length < 2 ^ 31 ∧
      ∃ stats, runStats (statsInit (some unsetStats)).2 unevenCalls = some stats ∧
        StatsConserve (addedValues unevenCalls) stats ∧ FlushInRange stats ∧
        ∀ value, FlushInRange (updateExtremes stats value) :=
  ⟨by decide, by decide, stats_conserves unsetStats unevenCalls (by decide) (by decide)⟩

/-! ### Accuracy of the average -/

lemma addedValues_append_print (calls : List StatsCall) :
    addedValues (calls ++ [.print]) = addedValues calls := by
  simp [addedValues, callValue]

lemma print_run_statsHolds (memory : Stats) {calls : List StatsCall}
    (hv : ∀ v ∈ addedValues calls, 0 ≤ v) (hn : (addedValues calls).length < 2 ^ 31) :
    ∃ stats, runStats (statsInit (some memory)).2 (calls ++ [.print]) = some stats ∧
      StatsHolds (addedValues calls) []
        (flushCount (statsInit (some memory)).2 (calls ++ [.print])) stats := by
  have hsame := addedValues_append_print calls
  obtain ⟨before, hbefore, -⟩ := init_run_statsCount memory hv hn
  obtain ⟨stats, hrun, sampled, pending, happend, hholds⟩ :=
    init_run_statsCount memory (hsame ▸ hv) (hsame ▸ hn)
  have hprint : stats = flushBatch before := by
    unfold runStats at hbefore hrun
    rw [List.foldl_append, hbefore] at hrun
    exact (Option.some.inj hrun).symm
  have hzero : stats.nrBatch = 0 := by
    rw [hprint]
    unfold flushBatch
    split <;> rename_i hbatch
    · exact hbatch
    · rfl
  have hpending : pending = [] := by
    by_contra hp
    exact hholds.nrBatch_ne_zero hp hzero
  refine ⟨stats, hrun, ?_⟩
  rw [← hsame, ← happend, hpending, List.append_nil, ← hpending]
  exact hholds

/-- The printed average never exceeds the exact mean, and falls short of it by less than the
number of non-empty batches flushed on the way. -/
theorem stats_average_short (memory : Stats) (calls : List StatsCall)
    (hv : ∀ v ∈ addedValues calls, 0 ≤ v) (hn : (addedValues calls).length < 2 ^ 31)
    (hne : addedValues calls ≠ []) :
    ∃ stats, runStats (statsInit (some memory)).2 (calls ++ [.print]) = some stats ∧
      0 ≤ (addedValues calls).sum - stats.average.toInt * (addedValues calls).length ∧
      (addedValues calls).sum - stats.average.toInt * (addedValues calls).length <
        flushCount (statsInit (some memory)).2 (calls ++ [.print]) *
          (addedValues calls).length := by
  obtain ⟨stats, hrun, hholds⟩ := print_run_statsHolds memory hv hn
  refine ⟨stats, hrun, hholds.above, lt_of_le_of_lt hholds.short ?_⟩
  have hflushes : 0 < flushCount (statsInit (some memory)).2 (calls ++ [.print]) :=
    Nat.pos_of_ne_zero fun hzero => hne (hholds.unflushed.mp hzero)
  apply mul_lt_mul_of_pos_left _ (by exact_mod_cast hflushes)
  omega

theorem uneven_calls_short :
    (∀ v ∈ addedValues unevenCalls, 0 ≤ v) ∧ (addedValues unevenCalls).length < 2 ^ 31 ∧
      addedValues unevenCalls ≠ [] ∧
      ∃ stats, runStats (statsInit (some unsetStats)).2 (unevenCalls ++ [.print]) = some stats ∧
        0 ≤ (addedValues unevenCalls).sum -
          stats.average.toInt * (addedValues unevenCalls).length ∧
        (addedValues unevenCalls).sum - stats.average.toInt * (addedValues unevenCalls).length <
          flushCount (statsInit (some unsetStats)).2 (unevenCalls ++ [.print]) *
            (addedValues unevenCalls).length :=
  ⟨by decide, by decide, by decide,
    stats_average_short unsetStats unevenCalls (by decide) (by decide) (by decide)⟩

/-- The average of 0, 1 and 2, flushed one value at a time, is 0: it misses the mean by 1. -/
theorem uneven_calls_miss_mean :
    ∃ stats, runStats (statsInit (some unsetStats)).2 (unevenCalls ++ [.print]) = some stats ∧
      ¬ |stats.average.toInt * (addedValues unevenCalls).length - (addedValues unevenCalls).sum| <
        (addedValues unevenCalls).length :=
  ⟨_, rfl, by decide⟩

end GeneralPurposeLibrary.Proofs
