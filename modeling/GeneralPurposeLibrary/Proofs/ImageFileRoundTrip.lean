import GeneralPurposeLibrary.ImageFile
import GeneralPurposeLibrary.Proofs.FileRoundTrip

/-!
# Frames written to a file and read back

On a stream without errors the loop over the rows keeps the pointer at the start of the next
row and the position at the end of the rows moved so far. Writing appends the rows without
their padding, and reading puts rows of the file into the buffer and leaves the rest of it.
-/

namespace GeneralPurposeLibrary.Proofs
open StridedPlane RowPacking

variable {fp : ImageStream} {buffer bytes rest : List UInt8} {width stride : Int32}
  {W S H r n : ℕ}

section Transfers

lemma inBuffer_row (h : place S r W ≤ buffer.length) :
    inBuffer buffer (place S r 0 : ℕ) W = true := by
  rw [← place_zero_add] at h
  simp only [inBuffer, Bool.and_eq_true, decide_eq_true_eq]
  omega

lemma imageFread_eq (h : place S r W ≤ buffer.length) (fp : ImageStream) :
    imageFread buffer (place S r 0 : ℕ) W 1 fp =
      some ⟨fp.deliverable W / W,
        splice buffer (place S r 0) ((fp.content.drop fp.position).take (fp.deliverable W)),
        { fp.advance (fp.deliverable W) with
          eof := fp.eof || (fp.remaining < W && fp.deliverable W = fp.remaining) }⟩ := by
  simp only [imageFread, Nat.mul_one, inBuffer_row h, if_true, Int.toNat_natCast]

lemma imageFwrite_eq (h : place S r W ≤ buffer.length) (fp : ImageStream) :
    imageFwrite buffer (place S r 0 : ℕ) W 1 fp =
      some ⟨fp.acceptable W / W, buffer,
        { fp.advance (fp.acceptable W) with
          content := splice fp.content fp.position
            ((buffer.drop (place S r 0)).take (fp.acceptable W)) }⟩ := by
  simp only [imageFwrite, Nat.mul_one, inBuffer_row h, if_true, Int.toNat_natCast]

lemma acceptable_of_budget (hbudget : fp.budget = none) (m : ℕ) : fp.acceptable m = m := by
  rw [ImageStream.acceptable, ImageStream.limit, hbudget]

lemma deliverable_of_budget (hbudget : fp.budget = none) {m : ℕ} (hleft : m ≤ fp.remaining) :
    fp.deliverable m = m := by
  rw [ImageStream.deliverable, ImageStream.limit, hbudget]
  exact Nat.min_eq_left hleft

/-- The stream with the bytes put behind the end of its file. -/
def appended (fp : ImageStream) (bytes : List UInt8) : ImageStream :=
  { fp with content := fp.content ++ bytes, position := fp.position + bytes.length }

lemma appended_appended (fp : ImageStream) (bytes bytes' : List UInt8) :
    appended (appended fp bytes) bytes' = appended fp (bytes ++ bytes') := by
  simp only [appended, List.append_assoc, List.length_append, Nat.add_assoc]

lemma appended_end (hend : fp.position = fp.content.length) (bytes : List UInt8) :
    (appended fp bytes).position = (appended fp bytes).content.length := by
  simp only [appended, List.length_append, hend]

lemma appended_budget (hbudget : fp.budget = none) (bytes : List UInt8) :
    (appended fp bytes).budget = none := hbudget

lemma imageFwrite_row (hW : 0 < W) (h : place S r W ≤ buffer.length)
    (hbudget : fp.budget = none) (hend : fp.position = fp.content.length) :
    imageFwrite buffer (place S r 0 : ℕ) W 1 fp =
      some ⟨1, buffer, appended fp (row S W buffer r)⟩ := by
  have hrow := length_row h
  rw [imageFwrite_eq h, acceptable_of_budget hbudget, Nat.div_self hW, hend, splice_end, appended,
    hrow, ImageStream.advance, hbudget]
  rfl

lemma advance_advance (fp : ImageStream) (m m' : ℕ) :
    (fp.advance m).advance m' = fp.advance (m + m') := by
  rw [ImageStream.advance, ImageStream.advance, ImageStream.advance, Option.map_map]
  simp only [Nat.add_assoc, Function.comp_def, Nat.sub_sub]

lemma advance_budget (hbudget : fp.budget = none) (m : ℕ) : (fp.advance m).budget = none := by
  rw [ImageStream.advance, hbudget]
  rfl

lemma remaining_advance (fp : ImageStream) (m : ℕ) :
    (fp.advance m).remaining = fp.remaining - m := by
  rw [ImageStream.remaining, ImageStream.remaining, ImageStream.advance, Nat.sub_sub]

lemma imageFread_row (hW : 0 < W) (h : place S r W ≤ buffer.length)
    (hbudget : fp.budget = none) (hleft : W ≤ fp.remaining) :
    imageFread buffer (place S r 0 : ℕ) W 1 fp =
      some ⟨1, splice buffer (place S r 0) (row W W (fp.content.drop fp.position) 0),
        fp.advance W⟩ := by
  have hmore : ¬ fp.remaining < W := by omega
  have hfirst : row W W (fp.content.drop fp.position) 0 =
      (fp.content.drop fp.position).take W := by
    rw [row, place, Nat.zero_mul, List.drop_zero]
  rw [imageFread_eq h, deliverable_of_budget hbudget hleft, Nat.div_self hW, hfirst,
    decide_eq_false hmore, Bool.false_and, Bool.or_false]
  rfl

end Transfers

section Loops

variable (hwidth : width.toInt = W) (hstride : stride.toInt = S)

include hwidth hstride

lemma rwRows_succ {rwOps : FopsFunc} {buffer' : List UInt8} {fp' : ImageStream}
    (hmove : rwOps buffer (place S r 0 : ℕ) W 1 fp = some ⟨1, buffer', fp'⟩) :
    rwRows rwOps width stride (n + 1) buffer (place S r 0 : ℕ) fp =
      rwRows rwOps width stride n buffer' (place S (r + 1) 0 : ℕ) fp' := by
  have hnext : ((place S r 0 : ℕ) : ℤ) + stride.toInt = (place S (r + 1) 0 : ℕ) := by
    rw [hstride, place, place, Nat.add_mul, Nat.one_mul]
    omega
  rw [rwRows, intToSize_of_toInt hwidth, hmove]
  simp only [Option.bind_eq_bind, Option.bind_some, hnext]
  rfl

lemma rwRows_fwrite (hW : 0 < W) (hrows : Fits S W buffer r n) (hbudget : fp.budget = none)
    (hend : fp.position = fp.content.length) :
    rwRows imageFwrite width stride n buffer (place S r 0 : ℕ) fp =
      some (buffer, appended fp (packed S W buffer r n), []) := by
  induction n generalizing r fp with
  | zero => simp [rwRows, packed, appended]
  | succ n ih =>
    have hmove := imageFwrite_row hW hrows.head hbudget hend
    have hrest := ih hrows.tail (appended_budget hbudget (row S W buffer r)) (appended_end hend _)
    rw [rwRows_succ hwidth hstride hmove, hrest, appended_appended, packed_succ]

lemma exists_rwRows_fread (hW : 0 < W) (hWS : W ≤ S) (hrows : Fits S W buffer r n)
    (hbudget : fp.budget = none) (hleft : n * W ≤ fp.remaining) :
    ∃ buffer', rwRows imageFread width stride n buffer (place S r 0 : ℕ) fp =
        some (buffer', fp.advance (n * W), []) ∧
      Unpacks S W (fp.content.drop fp.position) buffer buffer' r n := by
  induction n generalizing r fp buffer with
  | zero =>
    refine ⟨buffer, ?_, unpacks_zero _ _⟩
    simp [rwRows, ImageStream.advance]
  | succ n ih =>
    rw [Nat.add_mul, Nat.one_mul] at hleft
    have hfile : W ≤ (fp.content.drop fp.position).length := by
      rw [List.length_drop]
      exact le_trans (by omega) hleft
    have hfirst : W ≤ fp.remaining := by omega
    have hmove := imageFread_row hW hrows.head hbudget hfirst
    have hlen : (splice buffer (place S r 0)
        (row W W (fp.content.drop fp.position) 0)).length = buffer.length := by
      apply length_splice
      rw [length_first_row hfile, place_zero_add]
      exact hrows.head
    have hleft' : n * W ≤ (fp.advance W).remaining := by
      rw [remaining_advance]
      omega
    obtain ⟨buffer', hrun, hread⟩ := ih (hrows.tail.of_length_eq hlen)
      (advance_budget hbudget W) hleft'
    refine ⟨buffer', ?_, ?_⟩
    · rw [rwRows_succ hwidth hstride hmove, hrun, advance_advance, Nat.add_mul, Nat.one_mul,
        Nat.add_comm]
    · apply Unpacks.cons hWS hrows.head hfile
      rw [List.drop_drop]
      exact hread

end Loops

section Frames

variable {height : Int32} (hwidth : width.toInt = W) (hstride : stride.toInt = S)
  (hheight : height.toInt = H)

include hwidth hstride hheight

lemma imageFileWriteOneFrame_eq (hW : 0 < W) (hrows : Fits S W buffer 0 H)
    (hbudget : fp.budget = none) (hend : fp.position = fp.content.length) :
    imageFileWriteOneFrame fp buffer width height stride =
      some ⟨0, buffer, appended fp (packed S W buffer 0 H), []⟩ := by
  have hloop := rwRows_fwrite hwidth hstride hW hrows hbudget hend
  rw [place, Nat.zero_mul] at hloop
  rw [imageFileWriteOneFrame, imageFileRwOneFrame, hheight, Int.toNat_natCast]
  exact congrArg (Option.bind · _) hloop

lemma exists_imageFileReadOneFrame (hW : 0 < W) (hWS : W ≤ S) (hrows : Fits S W buffer 0 H)
    (hbudget : fp.budget = none) (hleft : H * W ≤ fp.remaining) :
    ∃ buffer', imageFileReadOneFrame fp buffer width height stride =
        some ⟨0, buffer', fp.advance (H * W), []⟩ ∧
      Unpacks S W (fp.content.drop fp.position) buffer buffer' 0 H := by
  obtain ⟨buffer', hloop, hread⟩ := exists_rwRows_fread hwidth hstride hW hWS hrows hbudget hleft
  rw [place, Nat.zero_mul] at hloop
  refine ⟨buffer', ?_, hread⟩
  rw [imageFileReadOneFrame, imageFileRwOneFrame, hheight, Int.toNat_natCast]
  exact congrArg (Option.bind · _) hloop

lemma writeFrames_eq (hW : 0 < W) {buffers : List (List UInt8)}
    (hrows : ∀ buffer ∈ buffers, Fits S W buffer 0 H) (hbudget : fp.budget = none)
    (hend : fp.position = fp.content.length) :
    writeFrames width height stride fp buffers =
      some (appended fp (buffers.flatMap fun buffer => packed S W buffer 0 H)) := by
  induction buffers generalizing fp with
  | nil => simp [writeFrames, appended]
  | cons buffer buffers ih =>
    have hframe := imageFileWriteOneFrame_eq hwidth hstride hheight hW
      (hrows buffer List.mem_cons_self) hbudget hend
    have hrest := ih (fun b hb => hrows b (List.mem_cons_of_mem _ hb))
      (appended_budget hbudget (packed S W buffer 0 H)) (appended_end hend _)
    rw [writeFrames, hframe]
    simp only [Option.bind_eq_bind, Option.bind_some]
    rw [hrest, appended_appended, List.flatMap_cons]

end Frames

/-- Row for row the read buffer has the written one's bytes, and its padding is that of the
buffer before. -/
def FrameCopied (S₁ S₂ W H : ℕ) (source target buffer : List UInt8) : Prop :=
  buffer.length = target.length ∧
  (∀ r < H, row S₂ W buffer r = row S₁ W source r) ∧
  ∀ j, ¬ InRows S₂ W 0 H j → buffer[j]? = target[j]?

lemma frameCopied_of_unpacks {S₁ S₂ : ℕ} {source target buffer : List UInt8}
    (hsource : Fits S₁ W source 0 H)
    (h : Unpacks S₂ W (packed S₁ W source 0 H ++ rest) target buffer 0 H) :
    FrameCopied S₁ S₂ W H source target buffer := by
  obtain ⟨hlen, hrows, hother⟩ := h
  refine ⟨hlen, ?_, hother⟩
  intro r hr
  have hrow := hrows r hr
  rw [row_packed hsource rest hr, Nat.zero_add] at hrow
  exact hrow

lemma exists_readFrames {height : Int32} {S₁ S₂ : ℕ} (hwidth : width.toInt = W)
    (hstride : stride.toInt = S₂) (hheight : height.toInt = H) (hW : 0 < W) (hWS : W ≤ S₂)
    {sources targets : List (List UInt8)} (hcount : targets.length = sources.length)
    (hsources : ∀ b ∈ sources, Fits S₁ W b 0 H) (htargets : ∀ b ∈ targets, Fits S₂ W b 0 H)
    (hbudget : fp.budget = none)
    (hfile : fp.content.drop fp.position = sources.flatMap fun b => packed S₁ W b 0 H) :
    ∃ buffers fp', readFrames width height stride fp targets = some (buffers, fp') ∧
      buffers.length = targets.length ∧
      ∀ (i : ℕ) source target buffer, sources[i]? = some source → targets[i]? = some target →
        buffers[i]? = some buffer → FrameCopied S₁ S₂ W H source target buffer := by
  induction targets generalizing sources fp with
  | nil => exact ⟨[], fp, rfl, rfl, by simp⟩
  | cons target targets ih =>
    obtain ⟨source, sources, rfl⟩ : ∃ b bs, sources = b :: bs :=
      List.exists_cons_of_length_pos (by rw [← hcount]; exact Nat.succ_pos _)
    have hsource := hsources source List.mem_cons_self
    have hpacked := length_packed hsource
    rw [List.flatMap_cons] at hfile
    have hleft : H * W ≤ fp.remaining := by
      have hlen := congrArg List.length hfile
      rw [List.length_drop, List.length_append, hpacked] at hlen
      rw [ImageStream.remaining, hlen]
      omega
    obtain ⟨buffer, hframe, hread⟩ := exists_imageFileReadOneFrame hwidth hstride hheight hW hWS
      (htargets target List.mem_cons_self) hbudget hleft
    rw [hfile] at hread
    have hfile' : (fp.advance (H * W)).content.drop (fp.advance (H * W)).position =
        sources.flatMap fun b => packed S₁ W b 0 H := by
      rw [ImageStream.advance, ← List.drop_drop, hfile, ← hpacked, List.drop_left]
    obtain ⟨buffers, fp', hrest, hlen, hcopied⟩ := ih (by simpa using hcount)
      (fun b hb => hsources b (List.mem_cons_of_mem _ hb))
      (fun b hb => htargets b (List.mem_cons_of_mem _ hb)) (advance_budget hbudget (H * W)) hfile'
    refine ⟨buffer :: buffers, fp', ?_, by simp [hlen], ?_⟩
    · rw [readFrames, hframe]
      simp only [Option.bind_eq_bind, Option.bind_some, hrest]
      rfl
    · intro i source' target' buffer' hs ht hb
      cases i with
      | zero =>
        cases hs
        cases ht
        cases hb
        exact frameCopied_of_unpacks hsource hread
      | succ i => exact hcopied i source' target' buffer' hs ht hb

/-- Frames written one after another to an empty file are packed there without padding, and
reading them back fills the rows of each buffer and leaves its padding as it was. -/
theorem frames_round_trip (width height stride₁ stride₂ : Int32) (hwidth : 1 ≤ width)
    (hheight : 0 ≤ height) (hstride₁ : width ≤ stride₁) (hstride₂ : width ≤ stride₂)
    (sources targets : List (List UInt8)) (hcount : targets.length = sources.length)
    (hsources : ∀ b ∈ sources,
      Fits stride₁.toInt.toNat width.toInt.toNat b 0 height.toInt.toNat)
    (htargets : ∀ b ∈ targets,
      Fits stride₂.toInt.toNat width.toInt.toNat b 0 height.toInt.toNat) :
    ∃ file, writeFrames width height stride₁ .empty sources = some file ∧
      file.content = sources.flatMap (fun b =>
        packed stride₁.toInt.toNat width.toInt.toNat b 0 height.toInt.toNat) ∧
      ∃ buffers fp, readFrames width height stride₂ file.rewind targets = some (buffers, fp) ∧
        buffers.length = sources.length ∧
        ∀ (i : ℕ) source target buffer, sources[i]? = some source → targets[i]? = some target →
          buffers[i]? = some buffer →
          FrameCopied stride₁.toInt.toNat stride₂.toInt.toNat width.toInt.toNat
            height.toInt.toNat source target buffer := by
  have hone : 1 ≤ width.toInt := Int32.le_iff_toInt_le.mp hwidth
  have hzero : 0 ≤ height.toInt := Int32.le_iff_toInt_le.mp hheight
  have hle₁ : width.toInt ≤ stride₁.toInt := Int32.le_iff_toInt_le.mp hstride₁
  have hle₂ : width.toInt ≤ stride₂.toInt := Int32.le_iff_toInt_le.mp hstride₂
  have hwidth' : width.toInt = width.toInt.toNat := by omega
  have hheight' : height.toInt = height.toInt.toNat := by omega
  have hstride₁' : stride₁.toInt = stride₁.toInt.toNat := by omega
  have hstride₂' : stride₂.toInt = stride₂.toInt.toNat := by omega
  have hempty : ImageStream.empty.budget = none := rfl
  have hwrite := writeFrames_eq hwidth' hstride₁' hheight' (by omega) hsources hempty rfl
  have hbudget : (appended .empty (sources.flatMap fun b =>
      packed stride₁.toInt.toNat width.toInt.toNat b 0 height.toInt.toNat)).rewind.budget =
      none := rfl
  obtain ⟨buffers, fp, hread, hlen, hcopied⟩ := exists_readFrames hwidth' hstride₂' hheight'
    (by omega) (by omega) hcount hsources htargets hbudget rfl
  exact ⟨_, hwrite, rfl, buffers, fp, hread, hlen.trans hcount, hcopied⟩

theorem two_frames_round_trip :
    ∃ file buffers fp,
      writeFrames 2 2 3 .empty [[1, 2, 9, 3, 4, 9], [5, 6, 9, 7, 8, 9]] = some file ∧
      file.content = [1, 2, 3, 4, 5, 6, 7, 8] ∧
      readFrames 2 2 4 file.rewind [List.replicate 8 0, List.replicate 8 1] =
        some (buffers, fp) ∧
      buffers.length = 2 := by
  have hsources : ∀ b ∈ [[1, 2, 9, 3, 4, 9], [5, 6, 9, 7, 8, (9 : UInt8)]], Fits 3 2 b 0 2 := by
    intro b hb
    apply fits_of_mul_le (by decide)
    rcases List.mem_pair.mp hb with rfl | rfl
    · decide
    · decide
  have htargets : ∀ b ∈ [List.replicate 8 (0 : UInt8), List.replicate 8 1], Fits 4 2 b 0 2 := by
    intro b hb
    apply fits_of_mul_le (by decide)
    rcases List.mem_pair.mp hb with rfl | rfl
    · decide
    · decide
  obtain ⟨file, hwrite, hcontent, buffers, fp, hread, hlen, -⟩ :=
    frames_round_trip 2 2 3 4 (by decide) (by decide) (by decide) (by decide) _ _ (by rfl)
      hsources htargets
  exact ⟨file, buffers, fp, hwrite, hcontent, hread, hlen⟩

end GeneralPurposeLibrary.Proofs
