import GeneralPurposeLibrary.Proofs.SnifferMatch
import Mathlib.Algebra.Group.Nat.Defs
import Mathlib.Data.Bool.AllAny

/-!
# The keep-alive command

`build_keep_alive_command` prints the frame four bytes at a time. It reads behind a short
frame whose length is no multiple of four, and where plain `char` is signed it prints eight
digits for a byte from 0x80 on. In all other cases the command is the frame in hexadecimal.
-/

namespace GeneralPurposeLibrary.Proofs
open CString HexText

/-- The digits the loop prints for a byte. -/
def printedByte (sign : CharSign) (b : UInt8) : List UInt8 := formatHex (sign.promote b).toUInt32

lemma printedByte_unsigned (b : UInt8) : printedByte .unsigned b = hexPair b := by
  rw [printedByte, ← formatHex_byte]
  rfl

lemma printedByte_signed_cases (b : UInt8) :
    (b < 128 → printedByte .signed b = hexPair b) ∧ (128 ≤ b → (printedByte .signed b).length = 8) ∧
      0 ∉ printedByte .signed b := by
  have hall : ∀ n < 256, (UInt8.ofNat n < 128 →
        printedByte .signed (UInt8.ofNat n) = hexPair (UInt8.ofNat n)) ∧
      (128 ≤ UInt8.ofNat n → (printedByte .signed (UInt8.ofNat n)).length = 8) ∧
      0 ∉ printedByte .signed (UInt8.ofNat n) := by
    decide +kernel
  have h := hall b.toNat b.toNat_lt
  rwa [UInt8.ofNat_toNat] at h

lemma printedByte_of_small {sign : CharSign} {b : UInt8} (h : sign = .unsigned ∨ b < 128) :
    printedByte sign b = hexPair b := by
  cases sign with
  | unsigned => exact printedByte_unsigned b
  | signed => exact (printedByte_signed_cases b).1 (h.resolve_left (by decide))

lemma zero_notMem_printedByte (sign : CharSign) (b : UInt8) : 0 ∉ printedByte sign b := by
  cases sign with
  | unsigned =>
    rw [printedByte_unsigned]
    exact fun h => ne_zero_of_mem_hexPair h rfl
  | signed => exact (printedByte_signed_cases b).2.2

lemma two_le_length_printedByte (sign : CharSign) (b : UInt8) :
    2 ≤ (printedByte sign b).length := by
  cases sign with
  | unsigned => exact Nat.le_of_eq (by rw [printedByte_unsigned]; rfl)
  | signed =>
    by_cases hb : b < 128
    · exact Nat.le_of_eq (by rw [(printedByte_signed_cases b).1 hb]; rfl)
    · rw [(printedByte_signed_cases b).2.1 (by simpa using hb)]
      decide

def printed (sign : CharSign) (bytes : List UInt8) : List UInt8 := bytes.flatMap (printedByte sign)

lemma printed_eq_hexText {sign : CharSign} {bytes : List UInt8}
    (h : sign = .unsigned ∨ ∀ b ∈ bytes, b < 128) : printed sign bytes = hexText bytes := by
  induction bytes with
  | nil => rfl
  | cons b bytes ih =>
    have hb : printedByte sign b = hexPair b :=
      printedByte_of_small (h.imp_right fun hall => hall b List.mem_cons_self)
    have hrest := ih (h.imp_right fun hall c hc => hall c (List.mem_cons_of_mem _ hc))
    change printedByte sign b ++ printed sign bytes = hexPair b ++ hexText bytes
    rw [hb, hrest]

lemma length_printed_cons (sign : CharSign) (b : UInt8) (bytes : List UInt8) :
    (printed sign (b :: bytes)).length =
      (printedByte sign b).length + (printed sign bytes).length := List.length_append

lemma two_mul_le_length_printed (sign : CharSign) (bytes : List UInt8) :
    2 * bytes.length ≤ (printed sign bytes).length := by
  induction bytes with
  | nil => exact Nat.le_refl 0
  | cons b bytes ih =>
    have htwo := two_le_length_printedByte sign b
    rw [length_printed_cons, List.length_cons]
    omega

lemma small_of_length_printed {bytes : List UInt8}
    (h : (printed .signed bytes).length ≤ 2 * bytes.length) : ∀ b ∈ bytes, b < 128 := by
  induction bytes with
  | nil => exact fun b hb => absurd hb List.not_mem_nil
  | cons b bytes ih =>
    have htwo := two_le_length_printedByte .signed b
    have hrest := two_mul_le_length_printed .signed bytes
    rw [length_printed_cons, List.length_cons] at h
    have hb : b < 128 := by
      by_contra hb
      rw [(printedByte_signed_cases b).2.1 (by simpa using hb)] at h
      omega
    intro c hc
    rcases List.mem_cons.mp hc with rfl | hc
    · exact hb
    · exact ih (by omega) c hc

/-! ### The loop -/

lemma exists_ok_of_bind {ε α β : Type} {x : Except ε α} {f : α → Except ε β} {b : β}
    (h : (x >>= f) = .ok b) : ∃ a, x = .ok a ∧ f a = .ok b := by
  cases x with
  | error e => cases h
  | ok a => exact ⟨a, rfl, h⟩

lemma lt_length_of_appendFour {sign : CharSign} {frame cmd cmd' : List UInt8} {i : ℕ}
    (h : appendFour sign frame cmd i = .ok cmd') : i + 3 < frame.length := by
  obtain ⟨b₀, -, h⟩ := exists_ok_of_bind h
  obtain ⟨b₁, -, h⟩ := exists_ok_of_bind h
  obtain ⟨b₂, -, h⟩ := exists_ok_of_bind h
  obtain ⟨b₃, hread, -⟩ := exists_ok_of_bind h
  exact (List.getElem?_eq_some_iff.mp (readFrame_eq_ok hread)).1

/-- The command buffer with a string in it and zeros behind. -/
def cmdWith (s : List UInt8) : List UInt8 := s ++ List.replicate (256 - s.length) 0

lemma holds_cmdWith {s : List UInt8} (hs : 0 ∉ s) (hlen : s.length < 256) :
    Holds (cmdWith s) s :=
  holds_zeros hs (by omega)

lemma appendString_cmdWith {s : List UInt8} (hs : 0 ∉ s) (hlen : s.length < 256)
    (t : List UInt8) :
    appendString (cmdWith s) t =
      if (s ++ t).length < 256 then .ok (cmdWith (s ++ t)) else .error .cmdBounds := by
  rw [appendString, (holds_cmdWith hs hlen).strlen_eq, cmdWith]
  by_cases hfits : (s ++ t).length < 256
  · have hroom : t.length < 256 - s.length := by
      rw [List.length_append] at hfits
      omega
    rw [storeAt_zeros hroom, if_pos hfits, cmdWith, List.length_append, Nat.sub_add_eq]
  · have hroom : 256 - s.length ≤ t.length := by
      rw [List.length_append] at hfits
      omega
    rw [storeAt_zeros_of_le hroom, if_neg hfits]

lemma zero_notMem_command (sign : CharSign) (bytes : List UInt8) :
    0 ∉ keepAliveHeader ++ printed sign bytes := by
  intro h
  rcases List.mem_append.mp h with h | h
  · exact absurd h (by decide)
  · obtain ⟨b, -, hb⟩ := List.mem_flatMap.mp h
    exact zero_notMem_printedByte sign b hb

section Loop

variable (sign : CharSign) (frame : List UInt8)

/-- The command after `k` rounds of the loop. -/
def commandAfter (k : ℕ) : List UInt8 := keepAliveHeader ++ printed sign (frame.take (4 * k))

variable {frame}

lemma take_four {k : ℕ} (hk : 4 * k + 3 < frame.length) :
    frame.take (4 * (k + 1)) = frame.take (4 * k) ++
      [frame[4 * k], frame[4 * k + 1], frame[4 * k + 2], frame[4 * k + 3]] := by
  have hstep : ∀ (j : ℕ) (hj : j < frame.length),
      frame.take (j + 1) = frame.take j ++ [frame[j]] := by
    intro j hj
    rw [List.take_add_one, List.getElem?_eq_getElem hj]
    rfl
  rw [show 4 * (k + 1) = 4 * k + 3 + 1 by omega, hstep (4 * k + 3) hk, hstep (4 * k + 2) (by omega),
    hstep (4 * k + 1) (by omega), hstep (4 * k) (by omega)]
  simp only [List.append_assoc, List.cons_append, List.nil_append]

lemma appendFour_of_lt {cmd : List UInt8} {i : ℕ} (hi : i + 3 < frame.length) :
    appendFour sign frame cmd i =
      appendString cmd (printed sign [frame[i], frame[i + 1], frame[i + 2], frame[i + 3]]) := by
  rw [appendFour, readFrame_of_lt (by omega), readFrame_of_lt (by omega),
    readFrame_of_lt (by omega), readFrame_of_lt hi]
  simp only [bind, Except.bind]
  rfl

lemma appendFour_commandAfter {k : ℕ} (hk : 4 * k + 3 < frame.length)
    (hlen : (commandAfter sign frame k).length < 256) :
    appendFour sign frame (cmdWith (commandAfter sign frame k)) (4 * k) =
      if (commandAfter sign frame (k + 1)).length < 256 then
        .ok (cmdWith (commandAfter sign frame (k + 1)))
      else .error .cmdBounds := by
  have hnext : commandAfter sign frame (k + 1) = commandAfter sign frame k ++
      printed sign [frame[4 * k], frame[4 * k + 1], frame[4 * k + 2], frame[4 * k + 3]] := by
    rw [commandAfter, commandAfter, take_four hk, printed, List.flatMap_append, List.append_assoc]
    rfl
  have hzero : 0 ∉ commandAfter sign frame k := zero_notMem_command sign (frame.take (4 * k))
  rw [hnext, ← appendString_cmdWith hzero hlen, appendFour_of_lt sign hk]

lemma length_commandAfter_le {k : ℕ} (hk : 4 * k + 3 < frame.length) :
    (commandAfter sign frame k).length ≤ (commandAfter sign frame (k + 1)).length := by
  rw [commandAfter, commandAfter, take_four hk, printed, printed, List.flatMap_append,
    List.length_append, List.length_append, List.length_append]
  omega

lemma foldlM_appendFour {k : ℕ} (hk : 4 * k ≤ frame.length) :
    (List.range k).foldlM (fun cmd k => appendFour sign frame cmd (4 * k))
        (cmdWith keepAliveHeader) =
      if (commandAfter sign frame k).length < 256 then .ok (cmdWith (commandAfter sign frame k))
      else .error .cmdBounds := by
  induction k with
  | zero =>
    have hstart : commandAfter sign frame 0 = keepAliveHeader := List.append_nil keepAliveHeader
    have hheader : keepAliveHeader.length < 256 := by decide
    rw [hstart, if_pos hheader]
    rfl
  | succ k ih =>
    have hlast : 4 * k + 3 < frame.length := by omega
    rw [List.range_succ, List.foldlM_append, ih (by omega)]
    by_cases hlen : (commandAfter sign frame k).length < 256
    · rw [if_pos hlen]
      change (appendFour sign frame _ (4 * k) >>= pure) = _
      rw [bind_pure, appendFour_commandAfter sign hlast hlen]
    · have hle := length_commandAfter_le sign hlast
      rw [if_neg hlen, if_neg (by omega)]
      rfl

lemma foldlM_appendFour_past {k : ℕ} (hk : frame.length < 4 * k + 4) (cmd : List UInt8) :
    ∀ cmd', (List.range (k + 1)).foldlM (fun cmd k => appendFour sign frame cmd (4 * k)) cmd ≠
      .ok cmd' := by
  intro cmd' h
  rw [List.range_succ, List.foldlM_append] at h
  obtain ⟨cmd₁, -, h⟩ := exists_ok_of_bind h
  obtain ⟨cmd₂, hlast, -⟩ := exists_ok_of_bind h
  have hlt := lt_length_of_appendFour hlast
  omega

end Loop

/-! ### The command -/

lemma copyLen_eq {n : ℕ} (hn : n < 2 ^ 31) :
    (if Int32.ofNat n < 116 then Int32.ofNat n else 116).toInt.toNat = min n 116 := by
  have hlt : Int32.ofNat n < 116 ↔ n < 116 := by
    rw [Int32.lt_iff_toInt_lt, Int32.toInt_ofNat_of_lt hn]
    change (n : Int) < 116 ↔ n < 116
    omega
  by_cases h : n < 116
  · rw [if_pos (hlt.mpr h), Int32.toInt_ofNat_of_lt hn, Int.toNat_natCast,
      Nat.min_eq_left (Nat.le_of_lt h)]
  · rw [if_neg (fun h' => h (hlt.mp h')), Nat.min_eq_right (by omega)]
    rfl

lemma buildKeepAliveCommand_eq (sign : CharSign) (frame : List UInt8) {n : ℕ} (hn : n < 2 ^ 31) :
    buildKeepAliveCommand sign frame (Int32.ofNat n) (List.replicate 256 0) = (do
      let cmd ← (List.range ((min n 116 + 3) / 4)).foldlM
        (fun cmd k => appendFour sign frame cmd (4 * k)) (cmdWith keepAliveHeader)
      return (0, cmd)) := by
  have hempty : List.replicate 256 0 = cmdWith [] := rfl
  have hheader : appendString (cmdWith []) keepAliveHeader = .ok (cmdWith keepAliveHeader) := by
    have hlength : keepAliveHeader.length < 256 := by decide
    rw [appendString_cmdWith (by simp) (by decide), List.nil_append, if_pos hlength]
  unfold buildKeepAliveCommand
  rw [hempty, hheader]
  dsimp only
  rw [copyLen_eq hn]
  rfl

/-- The command is the frame in hexadecimal, inside its buffer, with nothing read behind the
frame. -/
def EncodesFrame (sign : CharSign) (frame : List UInt8) : Prop :=
  ∃ cmd, buildKeepAliveCommand sign frame (Int32.ofNat frame.length) (List.replicate 256 0) =
      .ok (0, cmd) ∧ cmd.length = 256 ∧
    Holds cmd (keepAliveHeader ++ hexText (frame.take 116)) ∧
    decodeHex ((text cmd).drop keepAliveHeader.length) = some (frame.take 116)

lemma foldlM_whole (sign : CharSign) {frame : List UInt8}
    (hwhole : 116 ≤ frame.length ∨ 4 ∣ frame.length) :
    (List.range ((min frame.length 116 + 3) / 4)).foldlM
        (fun cmd k => appendFour sign frame cmd (4 * k)) (cmdWith keepAliveHeader) =
      if (keepAliveHeader ++ printed sign (frame.take 116)).length < 256 then
        .ok (cmdWith (keepAliveHeader ++ printed sign (frame.take 116)))
      else .error .cmdBounds := by
  have hcount : 4 * ((min frame.length 116 + 3) / 4) = min frame.length 116 := by omega
  have htake : frame.take (4 * ((min frame.length 116 + 3) / 4)) = frame.take 116 := by
    rw [hcount, Nat.min_comm, ← List.take_eq_take_min]
  rw [foldlM_appendFour sign (by omega), commandAfter, htake]

lemma whole_of_encodesFrame {sign : CharSign} {frame : List UInt8}
    (hframe : frame.length < 2 ^ 31) (h : EncodesFrame sign frame) :
    116 ≤ frame.length ∨ 4 ∣ frame.length := by
  obtain ⟨cmd, hrun, -⟩ := h
  rw [buildKeepAliveCommand_eq sign frame hframe] at hrun
  obtain ⟨cmd', hloop, -⟩ := exists_ok_of_bind hrun
  by_contra hpart
  have hcount : (min frame.length 116 + 3) / 4 = frame.length / 4 + 1 := by omega
  rw [hcount] at hloop
  exact foldlM_appendFour_past sign (by omega) _ cmd' hloop

lemma small_of_encodesFrame {sign : CharSign} {frame : List UInt8}
    (hframe : frame.length < 2 ^ 31) (h : EncodesFrame sign frame) :
    sign = .unsigned ∨ ∀ b ∈ frame.take 116, b < 128 := by
  have hwhole := whole_of_encodesFrame hframe h
  obtain ⟨cmd, hrun, -, hholds, -⟩ := h
  rw [buildKeepAliveCommand_eq sign frame hframe] at hrun
  obtain ⟨cmd', hloop, hcmd⟩ := exists_ok_of_bind hrun
  rw [foldlM_whole sign hwhole] at hloop
  cases sign with
  | unsigned => exact .inl rfl
  | signed =>
    right
    split at hloop
    case isTrue hlen =>
      cases hloop
      cases hcmd
      have hprinted := (holds_cmdWith (zero_notMem_command .signed (frame.take 116)) hlen).text_eq
      have hsame := List.append_cancel_left (hprinted.symm.trans hholds.text_eq)
      apply small_of_length_printed
      rw [hsame]
      exact Nat.le_of_eq (length_hexText _)
    case isFalse => cases hloop

lemma encodesFrame_of_whole {sign : CharSign} {frame : List UInt8}
    (hframe : frame.length < 2 ^ 31) (hwhole : 116 ≤ frame.length ∨ 4 ∣ frame.length)
    (hsmall : sign = .unsigned ∨ ∀ b ∈ frame.take 116, b < 128) : EncodesFrame sign frame := by
  have hheader : keepAliveHeader.length = 21 := rfl
  have hlength : (keepAliveHeader ++ hexText (frame.take 116)).length < 256 := by
    rw [List.length_append, length_hexText, List.length_take, hheader]
    omega
  have hzero := zero_notMem_command sign (frame.take 116)
  rw [printed_eq_hexText hsmall] at hzero
  have hholds := holds_cmdWith hzero hlength
  refine ⟨cmdWith (keepAliveHeader ++ hexText (frame.take 116)), ?_, ?_, hholds, ?_⟩
  · rw [buildKeepAliveCommand_eq sign frame hframe, foldlM_whole sign hwhole,
      printed_eq_hexText hsmall, if_pos hlength]
    rfl
  · rw [cmdWith, List.length_append, List.length_replicate]
    omega
  · rw [hholds.text_eq, List.drop_left, decodeHex_hexText]

/-- The command is right exactly if the rounds of four bytes end with the frame, or it is cut
at 116 bytes, and no byte is printed as a negative number. -/
theorem encodesFrame_iff (sign : CharSign) (frame : List UInt8) (hframe : frame.length < 2 ^ 31) :
    EncodesFrame sign frame ↔ (116 ≤ frame.length ∨ 4 ∣ frame.length) ∧
      (sign = .unsigned ∨ ∀ b ∈ frame.take 116, b < 128) := by
  constructor
  · exact fun h => ⟨whole_of_encodesFrame hframe h, small_of_encodesFrame hframe h⟩
  · exact fun h => encodesFrame_of_whole hframe h.1 h.2

theorem encodes_four_bytes : EncodesFrame .signed [1, 2, 3, 0x7f] := by
  have hsmall : ∀ b ∈ ([1, 2, 3, 0x7f] : List UInt8), b < 128 := by
    rw [← List.all_iff_forall_prop]
    decide
  exact (encodesFrame_iff .signed [1, 2, 3, 0x7f] (by decide)).mpr
    ⟨.inr (by decide), .inr hsmall⟩

/-- The fourth byte of a frame of three is read, and 0x80 is printed with eight digits. -/
theorem misprints_short_and_negative :
    ¬ EncodesFrame .unsigned [1, 2, 3] ∧ ¬ EncodesFrame .signed [1, 2, 3, 0x80] := by
  constructor
  · intro h
    exact absurd (whole_of_encodesFrame (by decide) h) (by decide)
  · intro h
    rcases small_of_encodesFrame (by decide) h with hsign | hall
    · cases hsign
    · exact absurd (hall 0x80 (by decide)) (by decide)

end GeneralPurposeLibrary.Proofs
