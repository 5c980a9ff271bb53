import GeneralPurposeLibrary.Proofs.StatsAverage

/-!
# The batch bound of the running statistics

`stats_add` flushes when the fill of the batch plus one equals the limit. A limit of one,
or a limit set at or below the fill, is passed without a flush. `LimitAboveFill` follows
the fill through a sequence of calls and asks that it is below the limit at every
`stats_add`; this is exactly what keeps `nr_batch` within `max_batch`.
-/

namespace GeneralPurposeLibrary.Proofs

/-- The fill after a value joins a batch of `fill` values under the limit. -/
def fillAfterAdd (fill limit : ℤ) : ℤ := if fill + 1 = limit then 1 else fill + 1

/-- No value is added while the batch holds as many values as the limit allows. -/
def LimitAboveFill : ℤ → ℤ → List StatsCall → Prop
  | _, _, [] => True
  | fill, limit, .add _ :: calls =>
    fill < limit ∧ LimitAboveFill (fillAfterAdd fill limit) limit calls
  | fill, _, .setMaxBatch maxBatch :: calls => LimitAboveFill fill maxBatch.toInt calls
  | _, limit, .print :: calls => LimitAboveFill 0 limit calls

/-- After each `stats_add` of the calls the batch holds at most `max_batch` values. -/
def BatchBounded (stats : Option Stats) (calls : List StatsCall) : Prop :=
  ∀ before value after, calls = before ++ .add value :: after →
    ∃ stats', runStats stats (before ++ [.add value]) = some stats' ∧
      stats'.nrBatch.toInt ≤ stats'.maxBatch.toInt

/-- What the callers promise: values are not negative, and limits are at least one. -/
def CallAllowed : StatsCall → Prop
  | .add value => 0 ≤ value.toInt
  | .setMaxBatch maxBatch => 1 ≤ maxBatch.toInt
  | .print => True

/-- The batch holds `fill` values, none of its additions wrapped, and the limit is `limit`. -/
structure BatchFill (fill limit : ℤ) (stats : Stats) : Prop where
  nrBatch : stats.nrBatch.toInt = fill
  maxBatch : stats.maxBatch.toInt = limit
  nonneg : 0 ≤ fill
  small : fill < 2 ^ 31 - 1
  positive : 1 ≤ limit
  batch : (stats.batch.toNat : ℤ) ≤ fill * 2 ^ 31

namespace BatchFill

variable {fill limit : ℤ} {stats : Stats}

lemma limit_lt (h : BatchFill fill limit stats) : limit < 2 ^ 31 := by
  rw [← h.maxBatch]
  exact Int32.toInt_lt _

lemma flushBatch (h : BatchFill fill limit stats) : BatchFill 0 limit (flushBatch stats) := by
  unfold GeneralPurposeLibrary.flushBatch
  split
  case isTrue hzero =>
    have hfill : fill = 0 := by
      rw [← h.nrBatch, hzero]
      rfl
    rw [← hfill]
    exact h
  case isFalse => exact ⟨rfl, h.maxBatch, by omega, by omega, h.positive, by simp⟩

lemma toInt_nrBatch_add_one (h : BatchFill fill limit stats) :
    (stats.nrBatch + 1).toInt = fill + 1 := by
  have hone : (1 : Int32).toInt = 1 := rfl
  have hbatch := h.nrBatch
  have hnonneg := h.nonneg
  have hsmall := h.small
  rw [toInt_add_of_lt (by omega) (by omega) (by omega), hbatch, hone]

lemma toNat_batch_add (h : BatchFill fill limit stats) {value : Int32} (hv : 0 ≤ value.toInt) :
    ((stats.batch + intToUint64 value).toNat : ℤ) = stats.batch.toNat + value.toInt := by
  have hlt : value.toInt < 2 ^ 31 := Int32.toInt_lt value
  have hvalue := toNat_intToUint64 hv
  have hbatch := h.batch
  have hsmall := h.small
  rw [toNat_add_of_lt (by omega)]
  omega

lemma addFlushes_iff (h : BatchFill fill limit stats) {value : Int32} (hv : 0 ≤ value.toInt) :
    addFlushes (updateExtremes stats value) value = true ↔ fill + 1 = limit := by
  have hsum := h.toNat_batch_add hv
  have hwrap : ¬ stats.batch + intToUint64 value < stats.batch := by
    rw [UInt64.lt_iff_toNat_lt]
    omega
  have hlimit : stats.nrBatch + 1 = stats.maxBatch ↔ fill + 1 = limit := by
    rw [← Int32.toInt_inj, h.toInt_nrBatch_add_one, h.maxBatch]
  unfold addFlushes updateExtremes
  rw [Bool.or_eq_true, decide_eq_true_iff, beq_iff_eq]
  exact ⟨fun hor => hlimit.mp (hor.resolve_left hwrap), fun heq => .inr (hlimit.mpr heq)⟩

lemma join (h : BatchFill fill limit stats) {value : Int32} (hv : 0 ≤ value.toInt) :
    (stats.nrBatch + 1).toInt = fill + 1 ∧
    ((stats.batch + intToUint64 value).toNat : ℤ) ≤ (fill + 1) * 2 ^ 31 := by
  have hlt : value.toInt < 2 ^ 31 := Int32.toInt_lt value
  have hsum := h.toNat_batch_add hv
  have hbatch := h.batch
  exact ⟨h.toInt_nrBatch_add_one, by omega⟩

lemma add (h : BatchFill fill limit stats) {value : Int32} (hv : 0 ≤ value.toInt) :
    ∃ stats', StatsCall.apply (some stats) (.add value) = some stats' ∧
      stats'.nrBatch.toInt = fillAfterAdd fill limit ∧ stats'.maxBatch.toInt = limit ∧
      (stats'.batch.toNat : ℤ) ≤ fillAfterAdd fill limit * 2 ^ 31 := by
  have hextremes : BatchFill fill limit (updateExtremes stats value) :=
    ⟨h.nrBatch, h.maxBatch, h.nonneg, h.small, h.positive, h.batch⟩
  refine ⟨_, rfl, ?_⟩
  dsimp only
  unfold fillAfterAdd
  by_cases hfull : fill + 1 = limit
  · rw [if_pos ((h.addFlushes_iff hv).mpr hfull), if_pos hfull]
    have hflushed := hextremes.flushBatch
    obtain ⟨hcount, hbatch⟩ := hflushed.join hv
    exact ⟨by rw [hcount]; rfl, hflushed.maxBatch, by omega⟩
  · rw [if_neg (fun hflush => hfull ((h.addFlushes_iff hv).mp hflush)), if_neg hfull]
    obtain ⟨hcount, hbatch⟩ := hextremes.join hv
    exact ⟨hcount, h.maxBatch, hbatch⟩

lemma of_add (h : BatchFill fill limit stats) {stats' : Stats} (hlt : fill < limit)
    (hcount : stats'.nrBatch.toInt = fillAfterAdd fill limit)
    (hmax : stats'.maxBatch.toInt = limit)
    (hbatch : (stats'.batch.toNat : ℤ) ≤ fillAfterAdd fill limit * 2 ^ 31) :
    BatchFill (fillAfterAdd fill limit) limit stats' := by
  have hnonneg := h.nonneg
  have hlimit := h.limit_lt
  have hrange : 0 ≤ fillAfterAdd fill limit ∧ fillAfterAdd fill limit < 2 ^ 31 - 1 := by
    unfold fillAfterAdd
    split <;> omega
  exact ⟨hcount, hmax, hrange.1, hrange.2, h.positive, hbatch⟩

end BatchFill

lemma fillAfterAdd_le_iff {fill limit : ℤ} (hlimit : 1 ≤ limit) :
    fillAfterAdd fill limit ≤ limit ↔ fill < limit := by
  unfold fillAfterAdd
  split <;> omega

lemma runStats_cons (stats : Option Stats) (call : StatsCall) (calls : List StatsCall) :
    runStats stats (call :: calls) = runStats (call.apply stats) calls := rfl

lemma batchBounded_tail {stats : Option Stats} {call : StatsCall} {calls : List StatsCall}
    (h : BatchBounded stats (call :: calls)) : BatchBounded (call.apply stats) calls := by
  intro before value after hsplit
  have hrun := h (call :: before) value after (by rw [hsplit, List.cons_append])
  rw [List.cons_append, runStats_cons] at hrun
  exact hrun

lemma batchBounded_cons {stats : Option Stats} {call : StatsCall} {calls : List StatsCall}
    (hfirst : ∀ value, call = .add value → ∃ stats', call.apply stats = some stats' ∧
      stats'.nrBatch.toInt ≤ stats'.maxBatch.toInt)
    (hrest : BatchBounded (call.apply stats) calls) : BatchBounded stats (call :: calls) := by
  intro before value after hsplit
  cases before with
  | nil =>
    obtain ⟨rfl, -⟩ := List.cons.inj hsplit
    exact hfirst value rfl
  | cons first before =>
    obtain ⟨rfl, htail⟩ := List.cons.inj hsplit
    rw [List.cons_append, runStats_cons]
    exact hrest before value after htail

lemma batchBounded_iff_of_batchFill (calls : List StatsCall) {fill limit : ℤ} {stats : Stats}
    (h : BatchFill fill limit stats) (hcalls : ∀ call ∈ calls, CallAllowed call) :
    BatchBounded (some stats) calls ↔ LimitAboveFill fill limit calls := by
  induction calls generalizing fill limit stats with
  | nil => exact ⟨fun _ => trivial, fun _ before value after hsplit => by simp at hsplit⟩
  | cons call calls ih =>
    have hcall := hcalls call List.mem_cons_self
    have hrest := fun c hc => hcalls c (List.mem_cons_of_mem _ hc)
    cases call with
    | add value =>
      obtain ⟨stats', happly, hcount, hmax, hbatch⟩ := h.add hcall
      have hbound : stats'.nrBatch.toInt ≤ stats'.maxBatch.toInt ↔ fill < limit := by
        rw [hcount, hmax, fillAfterAdd_le_iff h.positive]
      have hnext := fun hlt => ih (h.of_add hlt hcount hmax hbatch) hrest
      constructor
      · intro hbounded
        obtain ⟨stats'', hrun, hle⟩ := hbounded [] value calls rfl
        have hsame : stats' = stats'' := Option.some.inj (happly.symm.trans hrun)
        rw [← hsame] at hle
        have hlt := hbound.mp hle
        have htail := batchBounded_tail hbounded
        rw [happly] at htail
        exact ⟨hlt, (hnext hlt).mp htail⟩
      · rintro ⟨hlt, hkept⟩
        apply batchBounded_cons
        · intro _ _
          exact ⟨stats', happly, hbound.mpr hlt⟩
        · rw [happly]
          exact (hnext hlt).mpr hkept
    | setMaxBatch maxBatch =>
      have hset : BatchFill fill maxBatch.toInt { stats with maxBatch := maxBatch } :=
        ⟨h.nrBatch, rfl, h.nonneg, h.small, hcall, h.batch⟩
      have hnext := ih hset hrest
      exact ⟨fun hbounded => hnext.mp (batchBounded_tail hbounded),
        fun hkept => batchBounded_cons (fun _ heq => by cases heq) (hnext.mpr hkept)⟩
    | print =>
      have hnext := ih h.flushBatch hrest
      exact ⟨fun hbounded => hnext.mp (batchBounded_tail hbounded),
        fun hkept => batchBounded_cons (fun _ heq => by cases heq) (hnext.mpr hkept)⟩

/-- After `stats_init`, the batch stays within the limit after every `stats_add` of a
sequence of calls if and only if the fill was below the limit before each of them. -/
theorem stats_batch_bounded_iff (memory : Stats) (calls : List StatsCall)
    (hcalls : ∀ call ∈ calls, CallAllowed call) :
    BatchBounded (statsInit (some memory)).2 calls ↔ LimitAboveFill 0 32 calls := by
  have hinit : ∃ stats, (statsInit (some memory)).2 = some stats ∧ BatchFill 0 32 stats :=
    ⟨_, rfl, rfl, rfl, by omega, by omega, by omega, by simp⟩
  obtain ⟨stats, hsome, hfill⟩ := hinit
  rw [hsome]
  exact batchBounded_iff_of_batchFill calls hfill hcalls

lemma unevenCalls_allowed : ∀ call ∈ unevenCalls, CallAllowed call := by
  simp [unevenCalls, CallAllowed]

theorem uneven_calls_batch_bounded : BatchBounded (statsInit (some unsetStats)).2 unevenCalls :=
  (stats_batch_bounded_iff unsetStats unevenCalls unevenCalls_allowed).mpr (by
    simp [unevenCalls, LimitAboveFill, fillAfterAdd])

def unitLimitCalls : List StatsCall := [.setMaxBatch 1, .add 5, .add 6]

/-- With the limit one, the second value joins the first. -/
theorem unit_limit_exceeded :
    (∀ call ∈ unitLimitCalls, CallAllowed call) ∧
      ¬ BatchBounded (statsInit (some unsetStats)).2 unitLimitCalls := by
  constructor
  · simp [unitLimitCalls, CallAllowed]
  · intro hbounded
    obtain ⟨stats, hrun, hle⟩ := hbounded [.setMaxBatch 1, .add 5] 6 [] rfl
    have hstats : stats.nrBatch.toInt = 2 ∧ stats.maxBatch.toInt = 1 := by
      cases hrun
      decide
    omega

end GeneralPurposeLibrary.Proofs
