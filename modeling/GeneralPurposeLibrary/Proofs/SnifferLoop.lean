import GeneralPurposeLibrary.Proofs.SnifferCommand

/-!
# The receive loop

The loop of `main` receives every frame into the same buffer. It never faults. A frame that
ends in front of the last tested byte is judged by what earlier frames have left behind it; any
other frame is answered in the same way whatever came before.
-/

namespace GeneralPurposeLibrary.Proofs
open CString HexText

/-- The buffer after the frames received so far. -/
def bufferAfter (buffer : List UInt8) (frames : List (Option (List UInt8))) : List UInt8 :=
  frames.foldl (fun buffer frame => frame.elim buffer (receive buffer)) buffer

/-- The command for a frame of `n` bytes at the start of the buffer, if any. -/
def commandFor (sign : CharSign) (buffer : List UInt8) (n : ℕ) : Option (List UInt8) :=
  if sign = .unsigned ∧ HeartbeatBytes buffer then
    some (cmdWith (commandAfter .unsigned buffer ((min n 116 + 3) / 4)))
  else none

section Packets

variable {buffer : List UInt8} (hbuffer : buffer.length = 1536)
include hbuffer

lemma buildKeepAliveCommand_unsigned {n : ℕ} (hn : n ≤ 1536) :
    buildKeepAliveCommand .unsigned buffer (Int32.ofNat n) (List.replicate 256 0) =
      .ok (0, cmdWith (commandAfter .unsigned buffer ((min n 116 + 3) / 4))) := by
  have hlength : (commandAfter .unsigned buffer ((min n 116 + 3) / 4)).length < 256 := by
    have hheader : keepAliveHeader.length = 21 := rfl
    rw [commandAfter, printed_eq_hexText (.inl rfl), List.length_append, length_hexText,
      List.length_take, hheader]
    omega
  rw [buildKeepAliveCommand_eq .unsigned buffer (by omega), foldlM_appendFour .unsigned (by omega),
    if_pos hlength]
  rfl

lemma handlePacket_eq (sign : CharSign) {n : ℕ} (hn : n ≤ 1536) :
    handlePacket sign buffer (Int32.ofNat n) = .ok (commandFor sign buffer n) := by
  unfold handlePacket commandFor
  cases sign with
  | signed =>
    rw [isHeartbeat_signed (by omega), if_neg (fun h => CharSign.noConfusion h.1)]
    rfl
  | unsigned =>
    rw [isHeartbeat_unsigned (by omega), buildKeepAliveCommand_unsigned hbuffer hn]
    by_cases hbytes : HeartbeatBytes buffer
    · rw [if_pos hbytes, if_pos ⟨rfl, hbytes⟩]
      rfl
    · rw [if_neg hbytes, if_neg (fun h => hbytes h.2)]
      rfl

lemma length_receive_eq (frame : List UInt8) : (receive buffer frame).length = 1536 := by
  rw [receive, List.length_append, List.length_take, List.length_drop]
  omega

lemma handlePacket_receive (sign : CharSign) (frame : List UInt8) :
    handlePacket sign (receive buffer frame)
        (Int32.ofNat (min frame.length (receive buffer frame).length)) =
      .ok (commandFor sign (receive buffer frame) frame.length) := by
  have hlength := length_receive_eq hbuffer frame
  have hcopied : min (min frame.length 1536) 116 = min frame.length 116 := by omega
  rw [hlength, handlePacket_eq hlength sign (Nat.min_le_right _ _), commandFor, hcopied]
  rfl

/-- The loop goes on to the last frame, and answers it by what is in the buffer then. -/
lemma snifferLoop_append_frame (sign : CharSign) (frames : List (Option (List UInt8)))
    (frame : List UInt8) :
    ∃ sent, snifferLoop sign buffer (frames ++ [some frame]) =
      .ok (sent ++ [commandFor sign (receive (bufferAfter buffer frames) frame) frame.length]) := by
  induction frames generalizing buffer with
  | nil =>
    refine ⟨[], ?_⟩
    rw [List.nil_append, snifferLoop, handlePacket_receive hbuffer]
    rfl
  | cons first frames ih =>
    cases first with
    | none => exact ih hbuffer
    | some first =>
      obtain ⟨sent, hsent⟩ := ih (length_receive_eq hbuffer first)
      refine ⟨commandFor sign (receive buffer first) first.length :: sent, ?_⟩
      rw [List.cons_append, snifferLoop, handlePacket_receive hbuffer, hsent]
      rfl

end Packets

/-! ### Frames that decide -/

/-- Whether a command is sent for the last frame of a run. -/
def answersLast (sign : CharSign) (buffer : List UInt8) (frames : List (Option (List UInt8))) :
    Option Bool :=
  (snifferLoop sign buffer frames).toOption.bind fun sent => sent.getLast?.map Option.isSome

lemma answersLast_eq (sign : CharSign) {buffer : List UInt8} (hbuffer : buffer.length = 1536)
    (frames : List (Option (List UInt8))) (frame : List UInt8) :
    answersLast sign buffer (frames ++ [some frame]) =
      some (decide (sign = .unsigned ∧
        HeartbeatBytes (receive (bufferAfter buffer frames) frame))) := by
  obtain ⟨sent, hsent⟩ := snifferLoop_append_frame hbuffer sign frames frame
  rw [answersLast, hsent]
  simp only [Except.toOption, Option.bind_some, List.getLast?_append, List.getLast?_singleton,
    Option.some_or, Option.map_some, commandFor]
  split <;> simp_all

lemma length_bufferAfter {buffer : List UInt8} (hbuffer : buffer.length = 1536)
    (frames : List (Option (List UInt8))) : (bufferAfter buffer frames).length = 1536 := by
  induction frames generalizing buffer with
  | nil => exact hbuffer
  | cons frame frames ih =>
    cases frame with
    | none => exact ih hbuffer
    | some frame => exact ih (length_receive_eq hbuffer frame)

lemma getElem?_receive_of_lt {buffer frame : List UInt8} (hbuffer : buffer.length = 1536) {i : ℕ}
    (hfits : i < 55) (hi : i < frame.length) : (receive buffer frame)[i]? = frame[i]? := by
  have hlt : i < (frame.take buffer.length).length := by
    rw [List.length_take]
    omega
  rw [receive, List.getElem?_append_left hlt, List.getElem?_take_of_lt (by omega)]

/-- A frame gets the same answer whatever the buffer held at first and whatever frames the loop
has received before. -/
def RunsDecide (sign : CharSign) (frame : List UInt8) : Prop :=
  ∀ buffer buffer' : List UInt8, buffer.length = 1536 → buffer'.length = 1536 →
    ∀ frames frames' : List (Option (List UInt8)),
      answersLast sign buffer (frames ++ [some frame]) =
        answersLast sign buffer' (frames' ++ [some frame])

lemma bufferAfter_heartbeat :
    bufferAfter (List.replicate 1536 0) [some (heartbeatFrame 1536)] = heartbeatFrame 1536 := by
  have hlength := length_heartbeatFrame 1536
  have hzeros : (List.replicate 1536 (0 : UInt8)).length = 1536 := List.length_replicate
  change receive (List.replicate 1536 0) (heartbeatFrame 1536) = heartbeatFrame 1536
  rw [receive_eq (by omega), List.drop_of_length_le (by omega), List.append_nil]

/-- Over whole runs of the loop the frame alone decides exactly if nothing is ever answered, or
it reaches past the last tested byte, or it holds a byte that no heartbeat has. -/
theorem runsDecide_iff (sign : CharSign) (frame : List UInt8) :
    RunsDecide sign frame ↔ sign = .signed ∨ 55 ≤ frame.length ∨ FrameRejected frame := by
  have hzeros : (List.replicate 1536 (0 : UInt8)).length = 1536 := List.length_replicate
  constructor
  · intro hdecides
    by_contra hcond
    rw [not_or, not_or] at hcond
    obtain ⟨hsign, hshort, hrejected⟩ := hcond
    have hunsigned : sign = .unsigned := by
      cases sign with
      | signed => exact absurd rfl hsign
      | unsigned => rfl
    have hsame := hdecides _ _ hzeros hzeros [some (heartbeatFrame 1536)] []
    rw [answersLast_eq sign hzeros, answersLast_eq sign hzeros, bufferAfter_heartbeat] at hsame
    have hleft := heartbeatBytes_receive (by omega) hrejected
    have hright : ¬ HeartbeatBytes (receive (bufferAfter (List.replicate 1536 0) []) frame) :=
      not_heartbeatBytes_receive (by omega)
    have hiff := decide_eq_decide.mp (Option.some.inj hsame)
    exact hright (hiff.mp ⟨hunsigned, hleft⟩).2
  · intro hcond buffer buffer' hbuffer hbuffer' frames frames'
    have hsame : ∀ i < 55, i < frame.length →
        (receive (bufferAfter buffer frames) frame)[i]? = frame[i]? :=
      fun _ => getElem?_receive_of_lt (length_bufferAfter hbuffer frames)
    have hsame' : ∀ i < 55, i < frame.length →
        (receive (bufferAfter buffer' frames') frame)[i]? = frame[i]? :=
      fun _ => getElem?_receive_of_lt (length_bufferAfter hbuffer' frames')
    rw [answersLast_eq sign hbuffer, answersLast_eq sign hbuffer']
    congr 1
    rw [decide_eq_decide]
    rcases hcond with rfl | hlong | hrejected
    · exact iff_of_false (fun h => CharSign.noConfusion h.1) (fun h => CharSign.noConfusion h.1)
    · rw [heartbeatBytes_iff_of_long hsame hlong, heartbeatBytes_iff_of_long hsame' hlong]
    · exact iff_of_false (fun h => not_heartbeatBytes_of_rejected hsame hrejected h.2)
        (fun h => not_heartbeatBytes_of_rejected hsame' hrejected h.2)

end GeneralPurposeLibrary.Proofs
