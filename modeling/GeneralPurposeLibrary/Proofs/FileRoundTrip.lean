import GeneralPurposeLibrary.FileUtils
import Mathlib.Tactic.Common

/-!
# Writing a file and reading it back

The read length of `file_read_to_buffer` is the buffer length when the file is at least as
long as the buffer, and one byte otherwise. The size of a file is told right below two
gigabytes.
-/

namespace GeneralPurposeLibrary.Proofs

/-- The call reports success, the buffer starts with as many bytes of the data as it holds,
and the rest of it is unchanged. -/
def RoundTrips (data buffer : List UInt8) (result : Int × List UInt8) : Prop :=
  result.1 = 0 ∧
    result.2 = data.take (min data.length buffer.length) ++
      buffer.drop (min data.length buffer.length)

section RoundTrip

variable {fs : FileSystem} {name : String} {data buffer : List UInt8} {n m : Int32}

lemma intToSize_of_toInt {len : Int32} {k : ℕ} (h : len.toInt = k) : intToSize len = k := by
  have hint : len.toInt64.toBitVec.toInt = k := by
    rw [Int64.toInt_toBitVec, Int32.toInt_toInt64, h]
  have hnat : intToSize len = len.toInt64.toBitVec.toNat := rfl
  rw [BitVec.toInt_eq_toNat_cond] at hint
  rw [hnat]
  split at hint <;> omega

lemma longToInt_of_toInt {len : Int32} {k : ℕ} (h : len.toInt = k) : longToInt k = len := by
  rw [← Int32.toInt_inj, h]
  have hlt := Int32.toInt_lt len
  exact Int32.toInt_ofNat_of_lt (by omega)

lemma content_write (hw : fs.permits name .wb = true) (hn : n.toInt = data.length) :
    (fileWriteFromBuffer fs name data n).2.content name = some data ∧
      (fileWriteFromBuffer fs name data n).2.permits = fs.permits := by
  have hopen : fopen fs name .wb =
      (some ⟨name, 0⟩, { fs with content := Function.update fs.content name (some []) }) := by
    simp [fopen, hw]
  unfold fileWriteFromBuffer
  rw [hopen]
  simp [fwrite, FileSystem.bytes, intToSize_of_toInt hn]

lemma read_content (hr : fs.permits name .rb = true) (hc : fs.content name = some data)
    (hn : n.toInt = data.length) (hm : m.toInt = buffer.length) :
    fileReadToBuffer fs name buffer m =
      (0, store buffer (data.take (if data.length < buffer.length then 1 else buffer.length))) := by
  have hopen : (fopen fs name .rb).1 = some ⟨name, 0⟩ := by simp [fopen, hr, hc]
  have hbytes : fs.bytes name = data := by simp [FileSystem.bytes, hc]
  have hless : n < m ↔ data.length < buffer.length := by
    rw [Int32.lt_iff_toInt_lt, hn, hm]
    omega
  unfold fileReadToBuffer
  rw [hopen]
  simp only [fseek, ftell, fread, hbytes, Nat.add_zero, longToInt_of_toInt hn, List.drop_zero,
    Nat.mul_one]
  by_cases hlt : data.length < buffer.length
  · have hone : intToSize (omittedOperand (truth (decide (n < m))) m) = 1 := by
      simp [truth, omittedOperand, hless.mpr hlt]
      rfl
    rw [hone, if_pos hlt]
  · have hlen : intToSize (omittedOperand (truth (decide (n < m))) m) = buffer.length := by
      have hnot : ¬ n < m := fun h => hlt (hless.mp h)
      simpa [truth, omittedOperand, hnot] using intToSize_of_toInt hm
    rw [hlen, if_neg hlt]

lemma write_then_read (hr : fs.permits name .rb = true) (hw : fs.permits name .wb = true)
    (hn : n.toInt = data.length) (hm : m.toInt = buffer.length) :
    fileReadToBuffer (fileWriteFromBuffer fs name data n).2 name buffer m =
      (0, store buffer (data.take (if data.length < buffer.length then 1 else buffer.length))) := by
  obtain ⟨hcontent, hpermits⟩ := content_write hw hn
  exact read_content (by rw [hpermits, hr]) hcontent hn hm

end RoundTrip

section Buffers

variable {data buffer : List UInt8}

lemma store_all (h : buffer.length ≤ data.length) :
    store buffer (data.take buffer.length) =
      data.take (min data.length buffer.length) ++
        buffer.drop (min data.length buffer.length) := by
  rw [Nat.min_eq_right h, store, List.length_take, Nat.min_eq_left h]

lemma store_one_iff (hd : 1 ≤ data.length) (h : data.length ≤ buffer.length) :
    store buffer (data.take 1) =
        data.take (min data.length buffer.length) ++
          buffer.drop (min data.length buffer.length) ↔
      (buffer.take data.length).drop 1 = data.drop 1 := by
  have hsplit : data = data.take 1 ++ data.drop 1 := (List.take_append_drop 1 data).symm
  have hrest : buffer.drop 1 = (buffer.take data.length).drop 1 ++ buffer.drop data.length := by
    conv_lhs => rw [← List.take_append_drop data.length buffer]
    rw [List.drop_append_of_le_length]
    rw [List.length_take]
    omega
  have hstore : store buffer (data.take 1) =
      data.take 1 ++ ((buffer.take data.length).drop 1 ++ buffer.drop data.length) := by
    rw [store, List.length_take, Nat.min_eq_left hd, hrest]
  have hgoal : data ++ buffer.drop data.length =
      data.take 1 ++ (data.drop 1 ++ buffer.drop data.length) := by
    rw [← List.append_assoc, ← hsplit]
  rw [Nat.min_eq_left h, List.take_length, hstore, hgoal, List.append_cancel_left_eq,
    List.append_cancel_right_eq]

end Buffers

/-- The size of a file that can be read is told exactly if it fits in an `int`. -/
theorem fileGetSizeByPath_eq_length_iff (fs : FileSystem) (name : String) (data : List UInt8)
    (hr : fs.permits name .rb = true) (hc : fs.content name = some data) :
    (fileGetSizeByPath fs name).toInt = data.length ↔ data.length < 2 ^ 31 := by
  have hopen : (fopen fs name .rb).1 = some ⟨name, 0⟩ := by simp [fopen, hr, hc]
  have hsize : fileGetSizeByPath fs name = longToInt data.length := by
    unfold fileGetSizeByPath
    rw [hopen]
    simp [fileGetSize, fseek, ftell, FileSystem.bytes, hc]
  rw [hsize]
  constructor
  · intro h
    have hlt := Int32.toInt_lt (longToInt data.length)
    omega
  · exact fun h => Int32.toInt_ofNat_of_lt h

/-- What is written is read back if and only if the buffer is not longer than the data or
holds all bytes of the data but the first beforehand. -/
theorem write_then_read_round_trips_iff (fs : FileSystem) (name : String)
    (data buffer : List UInt8) (n m : Int32) (hr : fs.permits name .rb = true)
    (hw : fs.permits name .wb = true) (hn : n.toInt = data.length)
    (hm : m.toInt = buffer.length) (hd : 1 ≤ data.length) :
    RoundTrips data buffer
        (fileReadToBuffer (fileWriteFromBuffer fs name data n).2 name buffer m) ↔
      buffer.length ≤ data.length ∨ (buffer.take data.length).drop 1 = data.drop 1 := by
  rw [write_then_read hr hw hn hm]
  unfold RoundTrips
  by_cases hlt : data.length < buffer.length
  · rw [if_pos hlt]
    simp only [true_and]
    rw [store_one_iff hd hlt.le]
    constructor
    · exact Or.inr
    · intro h
      rcases h with h | h
      · omega
      · exact h
  · have hle : buffer.length ≤ data.length := by omega
    rw [if_neg hlt]
    simp [store_all hle, hle]

/-- An empty file system in which every file may be opened. -/
def emptyFileSystem : FileSystem := ⟨fun _ => none, fun _ _ => true⟩

theorem short_buffer_round_trips :
    (2 : Int32).toInt = [7, 8].length ∧ (1 : Int32).toInt = [0].length ∧
      (RoundTrips [7, 8] [0]
          (fileReadToBuffer (fileWriteFromBuffer emptyFileSystem "f" [7, 8] 2).2 "f" [0] 1) ↔
        [(0 : UInt8)].length ≤ [(7 : UInt8), 8].length ∨
          ([(0 : UInt8)].take [(7 : UInt8), 8].length).drop 1 = [(7 : UInt8), 8].drop 1) :=
  ⟨rfl, rfl, write_then_read_round_trips_iff emptyFileSystem "f" [7, 8] [0] 2 1 rfl rfl rfl rfl
    (by decide)⟩

/-- Two bytes written and read into a buffer of three: only the first arrives. -/
theorem long_buffer_misses_byte :
    ¬ RoundTrips [7, 8] [0, 0, 0]
      (fileReadToBuffer (fileWriteFromBuffer emptyFileSystem "f" [7, 8] 2).2 "f" [0, 0, 0] 3) := by
  have hread : fileReadToBuffer (fileWriteFromBuffer emptyFileSystem "f" [7, 8] 2).2 "f"
      [0, 0, 0] 3 = (0, [7, 0, 0]) := write_then_read rfl rfl rfl rfl
  rw [hread]
  unfold RoundTrips
  decide

end GeneralPurposeLibrary.Proofs
