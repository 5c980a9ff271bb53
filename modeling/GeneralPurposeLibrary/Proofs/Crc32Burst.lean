import GeneralPurposeLibrary.Proofs.Crc32Agreement

/-!
# Burst errors

The checksum of `crc32_get` distinguishes any two messages of equal length whose
differences lie inside a window of at most 32 bits, wherever the window starts.
-/

namespace GeneralPurposeLibrary.Proofs
open ShiftRegister (bitsOf clock)

/-- The bits of a message byte by byte, least significant bit of each byte first. -/
def messageBits (a : List (BitVec 8)) : List Bool := a.flatMap bitsOf

lemma messageBits_length (a : List (BitVec 8)) : (messageBits a).length = 8 * a.length := by
  induction a with
  | nil => rfl
  | cons byte a ih =>
    simp only [messageBits, List.flatMap_cons, List.length_append, List.length_cons] at ih ⊢
    rw [ih]
    simp only [bitsOf, List.length_ofFn]
    omega

lemma bitsOf_injective {n : Nat} : Function.Injective (bitsOf (n := n)) := by
  intro x y h
  have hword := congrArg (ShiftRegister.ofBits n) h
  simpa only [ShiftRegister.ofBits_bitsOf, BitVec.setWidth_eq] using hword

lemma messageBits_inj {a b : List (BitVec 8)} (hlen : a.length = b.length)
    (h : messageBits a = messageBits b) : a = b := by
  induction a generalizing b with
  | nil => exact (List.length_eq_zero_iff.mp hlen.symm).symm
  | cons x a ih =>
    cases b with
    | nil => simp at hlen
    | cons y b =>
      simp only [messageBits, List.flatMap_cons] at h
      obtain ⟨hbyte, hrest⟩ := List.append_inj h (by simp [bitsOf])
      rw [bitsOf_injective hbyte, ih (by simpa using hlen) hrest]

lemma foldl_registerByte_eq_clock (a : List (BitVec 8)) (crc : BitVec 32) :
    a.foldl registerByte crc = (messageBits a).foldl (clock crcPoly) crc := by
  induction a generalizing crc with
  | nil => rfl
  | cons byte a ih =>
    have hbyte : registerByte crc byte = (bitsOf byte).foldl (clock crcPoly) crc :=
      (ShiftRegister.foldl_clock_bitsOf crcPoly crc byte (by omega)).symm
    rw [List.foldl_cons, ih, hbyte, messageBits, messageBits, List.flatMap_cons, List.foldl_append]

/-- Messages of equal length that differ, and only inside a window of at most 32
consecutive bits, have different checksums. -/
theorem crc32Get_detects_burst (callocSucceeds : Bool) {table : CrcTable}
    (htable : crc32AllocInitTable callocSucceeds = some table) (a b : List (BitVec 8))
    (hlen : a.length = b.length) (ha : a.length < 2 ^ 32) (hne : a ≠ b)
    (start width : Nat) (hwidth : width ≤ 32)
    (hout : ∀ i, i < start ∨ start + width ≤ i → (messageBits a)[i]? = (messageBits b)[i]?) :
    crc32Get table a (BitVec.ofNat 32 a.length) ≠ crc32Get table b (BitVec.ofNat 32 b.length) := by
  intro h
  rw [crc32Get_eq_register htable a ha, crc32Get_eq_register htable b (hlen ▸ ha),
    foldl_registerByte_eq_clock, foldl_registerByte_eq_clock] at h
  have hbits : (messageBits a).length = (messageBits b).length := by
    rw [messageBits_length, messageBits_length, hlen]
  exact ShiftRegister.foldl_clock_ne_of_window crcPoly (by decide) 0xffffffff _ _ hbits
    (fun h => hne (messageBits_inj hlen h)) start width hwidth hout (BitVec.not_inj.mp h)

theorem crc32Get_detects_straddling_burst :
    ∃ table, crc32AllocInitTable true = some table ∧
      crc32Get table [0x80, 0x01] 2 ≠ crc32Get table [0x00, 0x00] 2 := by
  refine ⟨_, rfl, ?_⟩
  refine crc32Get_detects_burst true rfl [0x80, 0x01] [0x00, 0x00] rfl
    (by decide) (by decide) 7 2 (by decide) ?_
  intro i hi
  by_cases h16 : i < 16
  · have hbits : ∀ i < 16, (i < 7 ∨ 7 + 2 ≤ i) →
        (messageBits [0x80, 0x01])[i]? = (messageBits [0x00, 0x00])[i]? := by decide
    exact hbits i h16 hi
  · rw [List.getElem?_eq_none (by rw [messageBits_length]; exact Nat.le_of_not_lt h16),
      List.getElem?_eq_none (by rw [messageBits_length]; exact Nat.le_of_not_lt h16)]

end GeneralPurposeLibrary.Proofs
