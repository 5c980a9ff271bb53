import GeneralPurposeLibrary.Sniffer
import Mathlib.Data.Nat.Notation

/-!
# What the heartbeat matchers look at

The two matchers test the same eleven bytes of the receive buffer, up to offset 54, however
long the frame in it is. Read as a signed `char`, a byte is never 0x88, so on such a platform
`is_heartbeat` matches nothing.
-/

namespace GeneralPurposeLibrary.Proofs

def userDataLenBytes : List (ℕ × UInt8) := [(38, 0x00), (39, 0x28)]

def heartbeatMsgBytes : List (ℕ × UInt8) :=
  [(42, 0x66), (43, 0x88), (44, 0x66), (45, 0x88), (47, 0x18), (48, 0x00), (49, 0x08), (54, 0x01)]

/-- The bytes of a heartbeat that are the same in every one of them, with their offsets. -/
def heartbeatBytes : List (ℕ × UInt8) := (23, 17) :: (userDataLenBytes ++ heartbeatMsgBytes)

def HeartbeatBytes (ethData : List UInt8) : Prop :=
  ∀ t ∈ heartbeatBytes, ethData[t.1]? = some t.2

instance (ethData : List UInt8) : Decidable (HeartbeatBytes ethData) :=
  inferInstanceAs (Decidable (∀ t ∈ heartbeatBytes, ethData[t.1]? = some t.2))

lemma heartbeatBytes_lt {t : ℕ × UInt8} (ht : t ∈ heartbeatBytes) : t.1 < 55 := by
  have hall : ∀ t ∈ heartbeatBytes, t.1 < 55 := by decide
  exact hall t ht

lemma readFrame_of_lt {ethData : List UInt8} {i : ℕ} (h : i < ethData.length) :
    readFrame ethData i = .ok ethData[i] := by
  rw [readFrame, List.getElem?_eq_getElem h]

lemma readFrame_eq_ok {ethData : List UInt8} {i : ℕ} {b : UInt8} (h : readFrame ethData i = .ok b) :
    ethData[i]? = some b := by
  unfold readFrame at h
  cases hget : ethData[i]? with
  | none =>
    rw [hget] at h
    cases h
  | some c =>
    rw [hget] at h
    cases h
    rfl

lemma promote_unsigned_inj {b c : UInt8} :
    CharSign.unsigned.promote b = CharSign.unsigned.promote c ↔ b = c := by
  constructor
  · intro h
    have hword := congrArg (fun x => x.toUInt32.toNat) h
    exact UInt8.toNat_inj.mp hword
  · rintro rfl
    rfl

lemma promote_signed_ne (b : UInt8) : CharSign.signed.promote b ≠ 0x88 := by
  intro h
  have hvalue : b.toInt8.toInt = 136 := by
    have hint := congrArg Int32.toInt h
    rwa [CharSign.promote, Int8.toInt_toInt32] at hint
  have hlt := Int8.toInt_lt b.toInt8
  omega

lemma bytesEqual_unsigned {ethData : List UInt8} {tests : List (ℕ × UInt8)}
    (h : ∀ t ∈ tests, t.1 < ethData.length) :
    bytesEqual CharSign.unsigned.promote ethData
        (tests.map fun t => (t.1, CharSign.unsigned.promote t.2)) =
      .ok (decide (∀ t ∈ tests, ethData[t.1]? = some t.2)) := by
  induction tests with
  | nil => rfl
  | cons t tests ih =>
    have hlt := h t List.mem_cons_self
    have hget : ethData[t.1]? = some ethData[t.1] := List.getElem?_eq_getElem hlt
    have hrest := ih (fun u hu => h u (List.mem_cons_of_mem _ hu))
    rw [List.map_cons, bytesEqual, readFrame_of_lt hlt]
    change (if CharSign.unsigned.promote ethData[t.1] = CharSign.unsigned.promote t.2 then _
      else Except.ok false) = _
    by_cases hb : ethData[t.1] = t.2
    · rw [if_pos (promote_unsigned_inj.mpr hb), hrest]
      congr 1
      rw [decide_eq_decide, List.forall_mem_cons, hget, hb]
      exact (and_iff_right rfl).symm
    · rw [if_neg (fun hp => hb (promote_unsigned_inj.mp hp))]
      congr 1
      symm
      rw [decide_eq_false_iff_not, List.forall_mem_cons, hget]
      exact fun hall => hb (Option.some.inj hall.1)

lemma bytesEqual_ok (promote : UInt8 → Int32) {ethData : List UInt8} {tests : List (ℕ × Int32)}
    (h : ∀ t ∈ tests, t.1 < ethData.length) :
    ∃ equal, bytesEqual promote ethData tests = .ok equal := by
  induction tests with
  | nil => exact ⟨true, rfl⟩
  | cons t tests ih =>
    have hlt := h t List.mem_cons_self
    rw [bytesEqual, readFrame_of_lt hlt]
    change ∃ equal, (if promote ethData[t.1] = t.2 then _ else Except.ok false) = Except.ok equal
    split
    case isTrue => exact ih (fun u hu => h u (List.mem_cons_of_mem _ hu))
    case isFalse => exact ⟨false, rfl⟩

lemma bytesEqual_signed {ethData : List UInt8} {tests : List (ℕ × Int32)}
    (h : ∀ t ∈ tests, t.1 < ethData.length) (h88 : ∃ t ∈ tests, t.2 = 0x88) :
    bytesEqual CharSign.signed.promote ethData tests = .ok false := by
  induction tests with
  | nil => exact absurd h88 (by simp)
  | cons t tests ih =>
    have hlt := h t List.mem_cons_self
    rw [bytesEqual, readFrame_of_lt hlt]
    change (if CharSign.signed.promote ethData[t.1] = t.2 then _ else Except.ok false) = _
    split
    case isTrue heq =>
      apply ih (fun u hu => h u (List.mem_cons_of_mem _ hu))
      obtain ⟨u, hu, hvalue⟩ := h88
      rcases List.mem_cons.mp hu with rfl | hu
      · exact absurd (heq.trans hvalue) (promote_signed_ne _)
      · exact ⟨u, hu, hvalue⟩
    case isFalse => rfl

section Matchers

variable {ethData : List UInt8} (hlen : 55 ≤ ethData.length)
include hlen

lemma heartbeatMatch_eq {promote : UInt8 → Int32} {dataLen msg : Bool}
    (hdataLen : bytesEqual promote ethData userDataLenTests = .ok dataLen)
    (hmsg : bytesEqual promote ethData heartbeatMsgTests = .ok msg) :
    heartbeatMatch promote ethData =
      .ok (if ethData[23]? = some 17 ∧ dataLen = true ∧ msg = true then 1 else 0) := by
  have hlt : 23 < ethData.length := by omega
  have hread : readFrame ethData (sizeofEthhdr + iphdrProtocol) = .ok ethData[23] :=
    readFrame_of_lt hlt
  unfold heartbeatMatch
  rw [hread, hdataLen, hmsg, List.getElem?_eq_getElem hlt]
  by_cases hprotocol : ethData[23] = 17
  · rw [hprotocol]
    cases dataLen <;> cases msg <;> rfl
  · rw [if_neg (fun h => hprotocol (Option.some.inj h.1))]
    exact if_pos hprotocol

lemma aliveMatch_eq (size : Int32) (data : List UInt8) :
    aliveMatch ethData size data = .ok (if HeartbeatBytes ethData then 1 else 0) := by
  have hlt : ∀ t ∈ userDataLenBytes ++ heartbeatMsgBytes, t.1 < ethData.length :=
    fun t ht => Nat.lt_of_lt_of_le (heartbeatBytes_lt (List.mem_cons_of_mem _ ht)) hlen
  have hdataLen : bytesEqual CharSign.unsigned.promote ethData userDataLenTests = _ :=
    bytesEqual_unsigned fun t ht => hlt t (List.mem_append_left heartbeatMsgBytes ht)
  have hmsg : bytesEqual CharSign.unsigned.promote ethData heartbeatMsgTests = _ :=
    bytesEqual_unsigned fun t ht => hlt t (List.mem_append_right userDataLenBytes ht)
  rw [aliveMatch, heartbeatMatch_eq hlen hdataLen hmsg]
  congr 1
  apply if_congr _ rfl rfl
  rw [decide_eq_true_iff, decide_eq_true_iff, HeartbeatBytes, heartbeatBytes,
    List.forall_mem_cons, List.forall_mem_append]

lemma isHeartbeat_unsigned (len : Int32) :
    isHeartbeat .unsigned ethData len = .ok (if HeartbeatBytes ethData then 1 else 0) :=
  aliveMatch_eq hlen len []

lemma isHeartbeat_signed (len : Int32) : isHeartbeat .signed ethData len = .ok 0 := by
  have hlt : ∀ t ∈ userDataLenTests ++ heartbeatMsgTests, t.1 < ethData.length := by
    have hall : ∀ t ∈ userDataLenTests ++ heartbeatMsgTests, t.1 < 55 := by decide
    exact fun t ht => Nat.lt_of_lt_of_le (hall t ht) hlen
  obtain ⟨dataLen, hdataLen⟩ := bytesEqual_ok CharSign.signed.promote
    fun t ht => hlt t (List.mem_append_left heartbeatMsgTests ht)
  have hmsg := bytesEqual_signed (fun t ht => hlt t (List.mem_append_right userDataLenTests ht))
    ⟨(43, 0x88), by decide, rfl⟩
  rw [isHeartbeat, heartbeatMatch_eq hlen hdataLen hmsg, if_neg]
  exact fun h => absurd h.2.2 (by decide)

end Matchers

/-! ### The two matchers -/

/-- The matchers agree on a frame exactly if plain `char` is unsigned or the frame is no
heartbeat. -/
theorem matchers_agree_iff (sign : CharSign) (frame : List UInt8) (hframe : 55 ≤ frame.length)
    (len size : Int32) (data : List UInt8) :
    isHeartbeat sign frame len = aliveMatch frame size data ↔
      sign = .unsigned ∨ ¬ HeartbeatBytes frame := by
  rw [aliveMatch_eq hframe]
  cases sign with
  | unsigned =>
    rw [isHeartbeat_unsigned hframe]
    exact ⟨fun _ => .inl rfl, fun _ => rfl⟩
  | signed =>
    rw [isHeartbeat_signed hframe]
    by_cases hbytes : HeartbeatBytes frame
    · rw [if_pos hbytes]
      exact ⟨fun h => absurd h (by decide), fun h => by simp [hbytes] at h⟩
    · rw [if_neg hbytes]
      exact ⟨fun _ => .inr hbytes, fun _ => rfl⟩

/-- A frame of `n` bytes, all zero but for those that make it a heartbeat. -/
def heartbeatFrame (n : ℕ) : List UInt8 :=
  (List.range n).map fun i => (heartbeatBytes.lookup i).getD 0

lemma length_heartbeatFrame (n : ℕ) : (heartbeatFrame n).length = n := by
  rw [heartbeatFrame, List.length_map, List.length_range]

lemma heartbeatFrame_getElem? {n : ℕ} {t : ℕ × UInt8} (ht : t ∈ heartbeatBytes) (hn : t.1 < n) :
    (heartbeatFrame n)[t.1]? = some t.2 := by
  have hall : ∀ t ∈ heartbeatBytes, heartbeatBytes.lookup t.1 = some t.2 := by decide
  rw [heartbeatFrame, List.getElem?_map, List.getElem?_range hn, Option.map_some, hall t ht,
    Option.getD_some]

lemma heartbeatBytes_heartbeatFrame {n : ℕ} (hn : 55 ≤ n) : HeartbeatBytes (heartbeatFrame n) :=
  fun _ ht => heartbeatFrame_getElem? ht (Nat.lt_of_lt_of_le (heartbeatBytes_lt ht) hn)

theorem matchers_agree_unsigned :
    isHeartbeat .unsigned (heartbeatFrame 55) 55 = aliveMatch (heartbeatFrame 55) 55 [] :=
  (matchers_agree_iff .unsigned (heartbeatFrame 55) (by decide) 55 55 []).mpr (.inl rfl)

/-- Where plain `char` is signed, `is_heartbeat` rejects a frame that `alive_match` accepts. -/
theorem matchers_disagree_signed :
    isHeartbeat .signed (heartbeatFrame 55) 55 = .ok 0 ∧
      aliveMatch (heartbeatFrame 55) 55 [] = .ok 1 := by
  refine ⟨isHeartbeat_signed (by decide) 55, ?_⟩
  rw [aliveMatch_eq (by decide), if_pos (heartbeatBytes_heartbeatFrame (by decide))]

/-! ### Bytes left over from earlier frames -/

/-- Both matchers answer the same on every two receive buffers that start with the frame. -/
def FrameDecides (sign : CharSign) (frame data : List UInt8) : Prop :=
  ∀ buffer buffer' : List UInt8, buffer.length = 1536 → buffer'.length = 1536 →
    buffer.take frame.length = frame → buffer'.take frame.length = frame →
    isHeartbeat sign buffer (Int32.ofNat frame.length) =
        isHeartbeat sign buffer' (Int32.ofNat frame.length) ∧
      aliveMatch buffer (Int32.ofNat frame.length) data =
        aliveMatch buffer' (Int32.ofNat frame.length) data

/-- A tested byte lies in the frame and is not that of a heartbeat. -/
def FrameRejected (frame : List UInt8) : Prop :=
  ∃ t ∈ heartbeatBytes, ∃ b, frame[t.1]? = some b ∧ b ≠ t.2

lemma getElem?_of_take {buffer frame : List UInt8} (h : buffer.take frame.length = frame) {i : ℕ}
    (hi : i < frame.length) : buffer[i]? = frame[i]? := by
  rw [← h, List.getElem?_take_of_lt hi]

section SameStart

variable {buffer frame : List UInt8}
  (hsame : ∀ i < 55, i < frame.length → buffer[i]? = frame[i]?)
include hsame

lemma not_heartbeatBytes_of_rejected (hrejected : FrameRejected frame) :
    ¬ HeartbeatBytes buffer := by
  obtain ⟨t, ht, b, hb, hne⟩ := hrejected
  intro hbytes
  have hbyte := hsame t.1 (heartbeatBytes_lt ht) (List.getElem?_eq_some_iff.mp hb).1
  rw [hbytes t ht, hb] at hbyte
  exact hne (Option.some.inj hbyte).symm

lemma heartbeatBytes_iff_of_long (hlong : 55 ≤ frame.length) :
    HeartbeatBytes buffer ↔ HeartbeatBytes frame := by
  have hbyte : ∀ t ∈ heartbeatBytes, buffer[t.1]? = frame[t.1]? := by
    intro t ht
    have hlt := heartbeatBytes_lt ht
    exact hsame t.1 hlt (by omega)
  constructor
  · exact fun hbytes t ht => (hbyte t ht).symm.trans (hbytes t ht)
  · exact fun hbytes t ht => (hbyte t ht).trans (hbytes t ht)

end SameStart

lemma matchers_congr {buffer buffer' : List UInt8} (hlen : 55 ≤ buffer.length)
    (hlen' : 55 ≤ buffer'.length) (h : HeartbeatBytes buffer ↔ HeartbeatBytes buffer')
    (sign : CharSign) (len : Int32) (data : List UInt8) :
    isHeartbeat sign buffer len = isHeartbeat sign buffer' len ∧
      aliveMatch buffer len data = aliveMatch buffer' len data := by
  have halive : aliveMatch buffer len data = aliveMatch buffer' len data := by
    rw [aliveMatch_eq hlen, aliveMatch_eq hlen']
    exact congrArg Except.ok (if_congr h rfl rfl)
  cases sign with
  | unsigned => exact ⟨halive, halive⟩
  | signed => exact ⟨by rw [isHeartbeat_signed hlen, isHeartbeat_signed hlen'], halive⟩

section Receive

variable {buffer frame : List UInt8} (hfits : frame.length ≤ buffer.length)
include hfits

lemma receive_eq : receive buffer frame = frame ++ buffer.drop frame.length := by
  rw [receive, List.take_of_length_le hfits]

lemma length_receive : (receive buffer frame).length = buffer.length := by
  rw [receive_eq hfits, List.length_append, List.length_drop]
  omega

lemma take_receive : (receive buffer frame).take frame.length = frame := by
  rw [receive_eq hfits, List.take_left]

lemma getElem?_receive_of_le {i : ℕ} (hi : frame.length ≤ i) :
    (receive buffer frame)[i]? = buffer[i]? := by
  rw [receive_eq hfits, List.getElem?_append_right hi, List.getElem?_drop]
  congr 1
  omega

end Receive

/-- After a heartbeat, a short frame that agrees with it so far is taken for one as well. -/
lemma heartbeatBytes_receive {frame : List UInt8} (hshort : frame.length < 55)
    (hrejected : ¬ FrameRejected frame) :
    HeartbeatBytes (receive (heartbeatFrame 1536) frame) := by
  have hlength := length_heartbeatFrame 1536
  have hfits : frame.length ≤ (heartbeatFrame 1536).length := by omega
  intro t ht
  have hlt := heartbeatBytes_lt ht
  by_cases hin : t.1 < frame.length
  · have hget : frame[t.1]? = some frame[t.1] := List.getElem?_eq_getElem hin
    rw [getElem?_of_take (take_receive hfits) hin, hget]
    by_contra hne
    exact hrejected ⟨t, ht, frame[t.1], hget, fun h => hne (congrArg some h)⟩
  · rw [getElem?_receive_of_le hfits (by omega)]
    exact heartbeatFrame_getElem? ht (by omega)

lemma not_heartbeatBytes_receive {frame : List UInt8} (hshort : frame.length < 55) :
    ¬ HeartbeatBytes (receive (List.replicate 1536 0) frame) := by
  intro hbytes
  have hfits : frame.length ≤ (List.replicate 1536 (0 : UInt8)).length := by
    rw [List.length_replicate]
    omega
  have hbyte := hbytes (54, 0x01) (by decide)
  rw [getElem?_receive_of_le hfits (by omega),
    List.getElem?_replicate_of_lt (by decide)] at hbyte
  exact absurd hbyte (by decide)

lemma not_frameDecides (sign : CharSign) {frame : List UInt8} (data : List UInt8)
    (hshort : frame.length < 55) (hrejected : ¬ FrameRejected frame) :
    ¬ FrameDecides sign frame data := by
  intro hdecides
  have hlength := length_heartbeatFrame 1536
  have hzeros : (List.replicate 1536 (0 : UInt8)).length = 1536 := List.length_replicate
  have hfits : frame.length ≤ (heartbeatFrame 1536).length := by omega
  have hfits' : frame.length ≤ (List.replicate 1536 (0 : UInt8)).length := by omega
  have hlen := (length_receive hfits).trans hlength
  have hlen' := (length_receive hfits').trans hzeros
  have hsame := (hdecides _ _ hlen hlen' (take_receive hfits) (take_receive hfits')).2
  rw [aliveMatch_eq (by omega), aliveMatch_eq (by omega),
    if_neg (not_heartbeatBytes_receive hshort),
    if_pos (heartbeatBytes_receive hshort hrejected)] at hsame
  exact absurd hsame (by decide)

/-- The frame alone decides exactly if it reaches past the last tested byte or holds a byte
that no heartbeat has. -/
theorem frameDecides_iff (sign : CharSign) (frame data : List UInt8) :
    FrameDecides sign frame data ↔ 55 ≤ frame.length ∨ FrameRejected frame := by
  constructor
  · intro hdecides
    by_contra hcond
    rw [not_or] at hcond
    exact not_frameDecides sign data (by omega) hcond.2 hdecides
  · intro hcond buffer buffer' hlen hlen' htake htake'
    have hsame : ∀ i < 55, i < frame.length → buffer[i]? = frame[i]? :=
      fun i _ hi => getElem?_of_take htake hi
    have hsame' : ∀ i < 55, i < frame.length → buffer'[i]? = frame[i]? :=
      fun i _ hi => getElem?_of_take htake' hi
    apply matchers_congr (by omega) (by omega)
    rcases hcond with hlong | hrejected
    · rw [heartbeatBytes_iff_of_long hsame hlong, heartbeatBytes_iff_of_long hsame' hlong]
    · exact iff_of_false (not_heartbeatBytes_of_rejected hsame hrejected)
        (not_heartbeatBytes_of_rejected hsame' hrejected)

/-- The 54 bytes in front of the last tested byte do not decide. -/
theorem short_frame_does_not_decide : ¬ FrameDecides .unsigned (heartbeatFrame 54) [] := by
  apply not_frameDecides .unsigned [] (by decide)
  rintro ⟨t, ht, b, hb, hne⟩
  have hlt := (List.getElem?_eq_some_iff.mp hb).1
  rw [heartbeatFrame_getElem? ht (by rwa [length_heartbeatFrame] at hlt)] at hb
  exact hne (Option.some.inj hb).symm

end GeneralPurposeLibrary.Proofs
