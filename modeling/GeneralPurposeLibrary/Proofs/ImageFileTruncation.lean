import GeneralPurposeLibrary.Proofs.ImageFileRoundTrip

/-!
# Frames cut short by the stream

A stream that stops inside a frame ends the loop over the rows early, and the call returns 0
all the same.
-/

namespace GeneralPurposeLibrary.Proofs
open StridedPlane RowPacking

variable {fp : ImageStream} {buffer : List UInt8} {width height stride : Int32}
  {W S r n k : ℕ}

/-- `rwOps` on a row moves as many bytes as `moves` allows, and `moves` says the same of any
bytes that follow. -/
structure Transfers (rwOps : FopsFunc) (moves : ImageStream → ℕ → ℕ) : Prop where
  le : ∀ fp m, moves fp m ≤ m
  of_le : ∀ fp {m m'}, m' ≤ m → moves fp m = m → moves fp m' = m'
  stopped : ∀ fp {m} m', moves fp m < m → moves fp (m + m') = moves fp m
  row : ∀ {buffer : List UInt8} {W S r : ℕ} fp, place S r W ≤ buffer.length →
    ∃ buffer' fp', rwOps buffer (place S r 0 : ℕ) W 1 fp =
        some ⟨moves fp W / W, buffer', fp'⟩ ∧
      buffer'.length = buffer.length ∧ fp'.position = fp.position + moves fp W ∧
      (moves fp W = W → ∀ m, moves fp (W + m) = W + moves fp' m)

lemma streamLimit_le (fp : ImageStream) (m : ℕ) : fp.limit m ≤ m := by
  unfold ImageStream.limit
  cases fp.budget with
  | none => exact le_rfl
  | some b => exact Nat.min_le_left m b

lemma streamLimit_of_le (fp : ImageStream) {m m' : ℕ} (hm : m' ≤ m) (h : fp.limit m = m) :
    fp.limit m' = m' := by
  unfold ImageStream.limit at h ⊢
  cases hbudget : fp.budget with
  | none => rfl
  | some b =>
    simp only [hbudget] at h ⊢
    omega

lemma streamLimit_stopped (fp : ImageStream) {m m' : ℕ} (hm : m ≤ m') (h : fp.limit m < m) :
    fp.limit m' = fp.limit m := by
  unfold ImageStream.limit at h ⊢
  cases hbudget : fp.budget with
  | none =>
    simp only [hbudget] at h
    omega
  | some b =>
    simp only [hbudget] at h ⊢
    omega

lemma streamLimit_advance (fp : ImageStream) {m : ℕ} (h : fp.limit m = m) (m' : ℕ) :
    fp.limit (m + m') = m + (fp.advance m).limit m' := by
  unfold ImageStream.limit ImageStream.advance at *
  cases hbudget : fp.budget with
  | none => rfl
  | some b =>
    simp only [hbudget, Option.map_some] at h ⊢
    omega

lemma deliverable_le (fp : ImageStream) (m : ℕ) : fp.deliverable m ≤ m :=
  (streamLimit_le fp _).trans (Nat.min_le_left m fp.remaining)

lemma deliverable_eq_iff (fp : ImageStream) (m : ℕ) :
    fp.deliverable m = m ↔ m ≤ fp.remaining ∧ fp.limit m = m := by
  constructor
  · intro h
    have hle : fp.deliverable m ≤ min m fp.remaining := streamLimit_le fp _
    have hleft : m ≤ fp.remaining := by omega
    rw [ImageStream.deliverable, Nat.min_eq_left hleft] at h
    exact ⟨hleft, h⟩
  · rintro ⟨hleft, hlimit⟩
    rw [ImageStream.deliverable, Nat.min_eq_left hleft, hlimit]

lemma deliverable_stopped (fp : ImageStream) {m m' : ℕ} (hm : m ≤ m')
    (h : fp.deliverable m < m) : fp.deliverable m' = fp.deliverable m := by
  unfold ImageStream.deliverable at h ⊢
  by_cases hleft : m ≤ fp.remaining
  · rw [Nat.min_eq_left hleft] at h ⊢
    exact streamLimit_stopped fp (by omega) h
  · rw [Nat.min_eq_right (by omega), Nat.min_eq_right (by omega)]

lemma deliverable_advance (fp : ImageStream) {m : ℕ} (h : fp.deliverable m = m) (m' : ℕ) :
    fp.deliverable (m + m') = m + (fp.advance m).deliverable m' := by
  obtain ⟨hleft, hlimit⟩ := (deliverable_eq_iff fp m).mp h
  have hmin : min (m + m') fp.remaining = m + min m' (fp.remaining - m) := by omega
  rw [ImageStream.deliverable, ImageStream.deliverable, remaining_advance, hmin,
    streamLimit_advance fp hlimit]

lemma transfers_fwrite : Transfers imageFwrite ImageStream.acceptable where
  le := streamLimit_le
  of_le fp := streamLimit_of_le fp
  stopped fp _ m' := streamLimit_stopped fp (Nat.le_add_right _ m')
  row fp hrow := by
    refine ⟨_, _, imageFwrite_eq hrow fp, rfl, rfl, ?_⟩
    intro hmoved m
    rw [hmoved]
    exact streamLimit_advance fp hmoved m

lemma transfers_fread : Transfers imageFread ImageStream.deliverable where
  le := deliverable_le
  of_le fp m m' hm h := by
    obtain ⟨hleft, hlimit⟩ := (deliverable_eq_iff fp m).mp h
    exact (deliverable_eq_iff fp m').mpr ⟨hm.trans hleft, streamLimit_of_le fp hm hlimit⟩
  stopped fp _ m' := deliverable_stopped fp (Nat.le_add_right _ m')
  row {buffer W S r} fp hrow := by
    refine ⟨_, _, imageFread_eq hrow fp, length_splice ?_, rfl, ?_⟩
    · have hbytes : ((fp.content.drop fp.position).take (fp.deliverable W)).length ≤ W :=
        (List.length_take_le _ _).trans (deliverable_le fp W)
      rw [← place_zero_add] at hrow
      omega
    · intro hmoved m
      rw [hmoved]
      exact deliverable_advance fp hmoved m

section Loop

variable {rwOps : FopsFunc} {moves : ImageStream → ℕ → ℕ} (hops : Transfers rwOps moves)
  (hwidth : width.toInt = W) (hstride : stride.toInt = S)

include hwidth

lemma exists_rwRows_stop (stride : Int32) (n : ℕ) {buffer' : List UInt8} {fp' : ImageStream}
    (hmove : rwOps buffer (place S r 0 : ℕ) W 1 fp = some ⟨0, buffer', fp'⟩) :
    ∃ log, rwRows rwOps width stride (n + 1) buffer (place S r 0 : ℕ) fp =
      some (buffer', fp', log) := by
  rw [rwRows, intToSize_of_toInt hwidth, hmove]
  cases heof : fp'.eof with
  | true => exact ⟨[.info "reach end of file!\n"], by simp [heof]⟩
  | false => exact ⟨[.error "image read or write file failed!\n"], by simp [heof]⟩

include hops hstride

lemma exists_rwRows (fp : ImageStream) (hW : 0 < W) (hrows : Fits S W buffer r n) :
    ∃ buffer' fp' log, rwRows rwOps width stride n buffer (place S r 0 : ℕ) fp =
        some (buffer', fp', log) ∧
      fp'.position = fp.position + moves fp (n * W) := by
  induction n generalizing r fp buffer with
  | zero =>
    have hnone : moves fp (0 * W) = 0 := by simpa using hops.le fp (0 * W)
    exact ⟨buffer, fp, [], rfl, by rw [hnone, Nat.add_zero]⟩
  | succ n ih =>
    obtain ⟨buffer', fp', hmove, hlen, hposition, hnext⟩ := hops.row fp hrows.head
    have hsize : (n + 1) * W = W + n * W := by rw [Nat.add_mul, Nat.one_mul, Nat.add_comm]
    rw [hsize]
    rcases (hops.le fp W).lt_or_eq with hpart | hall
    · rw [Nat.div_eq_of_lt hpart] at hmove
      obtain ⟨log, hstop⟩ := exists_rwRows_stop hwidth stride n hmove
      exact ⟨buffer', fp', log, hstop, by rw [hops.stopped fp _ hpart, hposition]⟩
    · rw [hall, Nat.div_self hW] at hmove
      obtain ⟨buffer'', fp'', log, hrun, hend⟩ := ih fp' (hrows.tail.of_length_eq hlen)
      refine ⟨buffer'', fp'', log, ?_, ?_⟩
      · rw [rwRows_succ hwidth hstride hmove, hrun]
      · rw [hend, hposition, hnext hall, hall, Nat.add_assoc]

end Loop

/-- The stream moves `k` whole rows and stops in the one behind them. -/
def StopsAfter (moves : ℕ → ℕ) (W k : ℕ) : Prop :=
  moves (k * W) = k * W ∧ moves ((k + 1) * W) < (k + 1) * W

/-- A frame of `height` rows is moved as a whole exactly when the stream does not stop before,
and the value returned tells which. -/
def ReportsTruncation (fp : ImageStream) (width height : Int32) (k : ℕ)
    (result : Option FrameResult) : Prop :=
  ∃ r, result = some r ∧
    (r.fp.position = fp.position + height.toInt.toNat * width.toInt.toNat ↔ height.toInt ≤ k) ∧
    (r.ret = 0 ↔ height.toInt ≤ k)

lemma moves_rows_iff {rwOps : FopsFunc} {moves : ImageStream → ℕ → ℕ}
    (hops : Transfers rwOps moves) (hk : StopsAfter (moves fp) W k) (n : ℕ) :
    moves fp (n * W) = n * W ↔ n ≤ k := by
  constructor
  · intro hall
    by_contra hnk
    have hfewer := hops.of_le fp (Nat.mul_le_mul_right W (by omega : k + 1 ≤ n)) hall
    exact absurd hfewer hk.2.ne
  · intro hnk
    exact hops.of_le fp (Nat.mul_le_mul_right W hnk) hk.1

/-- The call always returns 0. -/
lemma reportsTruncation_rw_iff {rwOps : FopsFunc} {moves : ImageStream → ℕ → ℕ}
    (hops : Transfers rwOps moves) (hwidth : 1 ≤ width) (hstride : width ≤ stride)
    (hrows : Fits stride.toInt.toNat width.toInt.toNat buffer 0 height.toInt.toNat)
    (hk : StopsAfter (moves fp) width.toInt.toNat k) :
    ReportsTruncation fp width height k
        (imageFileRwOneFrame fp buffer width height stride rwOps) ↔ height.toInt ≤ k := by
  have hone : 1 ≤ width.toInt := Int32.le_iff_toInt_le.mp hwidth
  have hle : width.toInt ≤ stride.toInt := Int32.le_iff_toInt_le.mp hstride
  have hwidth' : width.toInt = width.toInt.toNat := by omega
  have hstride' : stride.toInt = stride.toInt.toNat := by omega
  obtain ⟨buffer', fp', log, hrun, hend⟩ := exists_rwRows hops hwidth' hstride' fp
    (by omega) hrows
  rw [place, Nat.zero_mul] at hrun
  have hframe : imageFileRwOneFrame fp buffer width height stride rwOps =
      some ⟨0, buffer', fp', log⟩ := congrArg (Option.bind · _) hrun
  have hmoved : fp'.position = fp.position + height.toInt.toNat * width.toInt.toNat ↔
      height.toInt ≤ k := by
    have hiff := moves_rows_iff hops hk height.toInt.toNat
    omega
  constructor
  · rintro ⟨r, hr, -, hret⟩
    rw [hframe] at hr
    cases hr
    exact hret.mp rfl
  · intro hheight
    exact ⟨_, hframe, hmoved, fun _ => hheight, fun _ => rfl⟩

/-- The value returned tells a whole frame from a cut one exactly when the frame is whole:
both calls return 0 on every stream. -/
theorem frame_reports_truncation_iff (fp : ImageStream) (buffer : List UInt8)
    (width height stride : Int32) (k : ℕ) (hwidth : 1 ≤ width) (hstride : width ≤ stride)
    (hrows : Fits stride.toInt.toNat width.toInt.toNat buffer 0 height.toInt.toNat) :
    (StopsAfter fp.deliverable width.toInt.toNat k →
      (ReportsTruncation fp width height k
        (imageFileReadOneFrame fp buffer width height stride) ↔ height.toInt ≤ k)) ∧
    (StopsAfter fp.acceptable width.toInt.toNat k →
      (ReportsTruncation fp width height k
        (imageFileWriteOneFrame fp buffer width height stride) ↔ height.toInt ≤ k)) :=
  ⟨reportsTruncation_rw_iff transfers_fread hwidth hstride hrows,
    reportsTruncation_rw_iff transfers_fwrite hwidth hstride hrows⟩

/-- A file of two rows and a device with room for two. -/
def twoRows : ImageStream := ⟨[1, 2, 3, 4], 0, some 4, false⟩

theorem two_rows_reported :
    ReportsTruncation twoRows 2 2 2 (imageFileReadOneFrame twoRows [0, 0, 0, 0] 2 2 2) ∧
    ReportsTruncation twoRows 2 2 2 (imageFileWriteOneFrame twoRows [5, 6, 7, 8] 2 2 2) := by
  have hread := (frame_reports_truncation_iff twoRows [0, 0, 0, 0] 2 2 2 2 (by decide) (by decide)
    (fits_of_mul_le (by decide) (by decide))).1
  have hwrite := (frame_reports_truncation_iff twoRows [5, 6, 7, 8] 2 2 2 2 (by decide) (by decide)
    (fits_of_mul_le (by decide) (by decide))).2
  exact ⟨(hread ⟨by decide, by decide⟩).mpr (by decide),
    (hwrite ⟨by decide, by decide⟩).mpr (by decide)⟩

/-- From an empty file no row is read, and the call returns 0. -/
theorem empty_file_not_reported :
    StopsAfter ImageStream.empty.deliverable 1 0 ∧
    imageFileReadOneFrame .empty [7] 1 1 1 =
      some ⟨0, [7], ⟨[], 0, none, true⟩, [.info "reach end of file!\n"]⟩ ∧
    ¬ ReportsTruncation .empty 1 1 0 (imageFileReadOneFrame .empty [7] 1 1 1) := by
  have hcall : imageFileReadOneFrame .empty [7] 1 1 1 =
      some ⟨0, [7], ⟨[], 0, none, true⟩, [.info "reach end of file!\n"]⟩ := by decide
  refine ⟨⟨by decide, by decide⟩, hcall, ?_⟩
  rintro ⟨r, hr, -, hret⟩
  rw [hcall] at hr
  cases hr
  have habsurd : (Int32.toInt 1) ≤ (0 : ℕ) := hret.mp rfl
  revert habsurd
  decide

end GeneralPurposeLibrary.Proofs
