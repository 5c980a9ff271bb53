import GeneralPurposeLibrary.Crc32
import GeneralPurposeLibrary.Foundation.ShiftRegister
import Mathlib.Data.BitVec

/-!
# The CRC-32 routines agree

Every byte loop of the CRC routines, whatever its table builder and its order of shifts
and combinations, is eight shifts of one linear feedback register. The routines therefore
agree up to inversion, and each of them may be fed a buffer in pieces.
-/

namespace GeneralPurposeLibrary.Proofs
open ShiftRegister (step)

def crcPoly : BitVec 32 := 0xedb88320

/-- What one byte does to the register, without a table. -/
def registerByte (crc : BitVec 32) (byte : BitVec 8) : BitVec 32 :=
  (step crcPoly)^[8] (crc ^^^ byte.setWidth 32)

lemma and_one_ne_zero_iff (c : BitVec 32) : c &&& 1 ≠ 0 ↔ c.getLsbD 0 = true := by
  have h : c &&& 1 = (BitVec.ofBool (c.getLsbD 0)).setWidth 32 :=
    BitVec.and_one_eq_setWidth_ofBool_getLsbD
  rw [h]
  cases c.getLsbD 0 <;> decide

lemma crcTableStep_eq : crcTableStep = step crcPoly := by
  funext c
  simp only [crcTableStep, step, and_one_ne_zero_iff, crcPoly, BitVec.xor_comm (c >>> 1)]
  rfl

lemma lutTableStep_eq : lutTableStep = step crcPoly := by
  funext c
  simp only [lutTableStep, step, and_one_ne_zero_iff, crcPoly]

lemma foldl_set_get (entry : Fin 256 → BitVec 32) (l : List (Fin 256)) (table : CrcTable)
    (j : Fin 256) (h : j ∈ l ∨ table.get j = entry j) :
    (l.foldl (fun table i => table.set i (entry i) i.isLt) table).get j = entry j := by
  induction l generalizing table with
  | nil => exact h.resolve_left List.not_mem_nil
  | cons i l ih =>
    rw [List.foldl_cons]
    apply ih
    by_cases hj : j = i
    · subst j
      exact .inr (Vector.getElem_set_self i.isLt)
    · have hval : i.val ≠ j.val := fun h => hj (Fin.ext h.symm)
      refine (h.imp_left (fun hl => (List.mem_cons.mp hl).resolve_left hj)).imp_right ?_
      exact fun hright => (Vector.getElem_set_ne i.isLt j.isLt hval).trans hright

lemma fillTable_get (entry : BitVec 32 → BitVec 32) (table : CrcTable) (j : Fin 256) :
    (fillTable entry table).get j = entry (BitVec.ofNat 32 j) := by
  unfold fillTable
  rw [Fin.foldl_eq_finRange_foldl]
  exact foldl_set_get (fun i => entry (BitVec.ofNat 32 i)) (List.finRange 256) table j
    (.inl (List.mem_finRange j))

lemma and_ff_eq (x : BitVec 32) : x &&& 0xff = (x.setWidth 8).setWidth 32 := by
  apply BitVec.eq_of_getLsbD_eq
  intro i hi
  have hff : (0xff : BitVec 32).getLsbD i = decide (i < 8) := by
    change (255#32).getLsbD i = _
    rw [BitVec.getLsbD_ofNat, show (255 : Nat) = 2 ^ 8 - 1 from rfl, Nat.testBit_two_pow_sub_one]
    simp [hi]
  simp only [BitVec.getLsbD_and, BitVec.getLsbD_setWidth, hff, hi, decide_true, Bool.true_and]
  exact Bool.and_comm _ _

lemma byte_shift_out (byte : BitVec 8) : (byte.setWidth 32) >>> 8 = 0#32 := by
  apply BitVec.eq_of_getLsbD_eq
  intro i hi
  simp

/-- A table lookup in front of a shifted register is eight shifts of the register. -/
lemma crcByte_eq_register (table : CrcTable)
    (h : ∀ j : Fin 256, table.get j = (step crcPoly)^[8] (BitVec.ofNat 32 j))
    (crc : BitVec 32) (byte : BitVec 8) : crcByte table crc byte = registerByte crc byte := by
  unfold crcByte registerByte
  rw [h, BitVec.ofNat_toNat, BitVec.setWidth_eq,
    ShiftRegister.iterate_step_split crcPoly 8 (crc ^^^ byte.setWidth 32), ← and_ff_eq,
    BitVec.ushiftRight_xor_distrib, byte_shift_out, BitVec.xor_zero]

lemma lutByte_eq_crcByte (table : CrcTable) (crc : BitVec 32) (octet : BitVec 8) :
    lutByte table crc octet = crcByte table crc octet := by
  have hmask : (crc &&& 0xff) ^^^ octet.setWidth 32 = (crc ^^^ octet.setWidth 32) &&& 0xff := by
    rw [and_ff_eq, and_ff_eq, BitVec.setWidth_xor, BitVec.setWidth_xor]
    congr 1
    apply BitVec.eq_of_getLsbD_eq
    intro i hi
    by_cases h8 : i < 8
    · simp [hi, h8]
    · simp [BitVec.getLsbD_of_ge octet i (by omega)]
  unfold lutByte crcByte
  simp only [hmask]
  exact BitVec.xor_comm _ _

lemma forBytes_eq_foldl (body : BitVec 32 → BitVec 8 → BitVec 32) (buffer : List (BitVec 8))
    (count : Nat) (hcount : count ≤ buffer.length) (crc : BitVec 32) :
    forBytes body buffer count crc = (buffer.take count).foldl body crc := by
  unfold forBytes
  induction count with
  | zero => simp
  | succ n ih =>
    have hn : n < buffer.length := hcount
    rw [List.range_succ, List.foldl_append, ih (by omega), List.take_add_one,
      List.getElem?_eq_getElem hn, List.foldl_append]
    simp [hn]

lemma forBytes_whole (body : BitVec 32 → BitVec 8 → BitVec 32) (buffer : List (BitVec 8))
    {count : Nat} (hcount : count = buffer.length) (crc : BitVec 32) :
    forBytes body buffer count crc = buffer.foldl body crc := by
  rw [forBytes_eq_foldl body buffer count (Nat.le_of_eq hcount), hcount, List.take_length]

lemma toNat_size (a : List (BitVec 8)) (ha : a.length < 2 ^ 32) :
    (BitVec.ofNat 32 a.length).toNat = a.length := by
  rw [BitVec.toNat_ofNat, Nat.mod_eq_of_lt ha]

lemma toNat_len (a : List (BitVec 8)) (ha : a.length < 2 ^ 32) :
    (BitVec.ofNat 64 a.length).toNat = a.length := by
  rw [BitVec.toNat_ofNat, Nat.mod_eq_of_lt (by omega)]

lemma crcByte_filled (old : CrcTable) :
    crcByte (fillTable (fun i => crcTableStep^[8] i) old) = registerByte := by
  funext crc byte
  apply crcByte_eq_register
  intro j
  rw [fillTable_get, crcTableStep_eq]

lemma lutByte_filled (stack : CrcTable) :
    lutByte (fillTable (fun i => lutTableStep^[8] i) stack) = registerByte := by
  funext crc octet
  rw [lutByte_eq_crcByte]
  apply crcByte_eq_register
  intro j
  rw [fillTable_get, lutTableStep_eq]

lemma crc32_eq_register (old : CrcTable) (crc : BitVec 32) (a : List (BitVec 8))
    (ha : a.length < 2 ^ 32) :
    crc32 (initCrcTable old) crc a (BitVec.ofNat 32 a.length) = a.foldl registerByte crc := by
  unfold crc32 initCrcTable
  rw [forBytes_whole _ _ (toNat_size a ha), crcByte_filled]

lemma lutCrc32_eq_register (stack : CrcTable) (crc : BitVec 32) (a : List (BitVec 8))
    (ha : a.length < 2 ^ 32) :
    lutCrc32 stack crc a (BitVec.ofNat 64 a.length) = ~~~ a.foldl registerByte (~~~ crc) := by
  unfold lutCrc32
  dsimp only
  rw [forBytes_whole _ _ (toNat_len a ha), lutByte_filled]

lemma crc32Get_eq_register {callocSucceeds : Bool} {table : CrcTable}
    (htable : crc32AllocInitTable callocSucceeds = some table) (a : List (BitVec 8))
    (ha : a.length < 2 ^ 32) :
    crc32Get table a (BitVec.ofNat 32 a.length) = ~~~ a.foldl registerByte 0xffffffff := by
  unfold crc32AllocInitTable at htable
  split at htable
  · obtain rfl := Option.some.inj htable
    unfold crc32Get
    rw [forBytes_whole _ _ (toNat_size a ha), crcByte_filled]
  · exact absurd htable (by simp)

/-- The checksum routines agree with each other up to inversion, and `crc32` and
`lut_crc32` may be continued from the value they returned. -/
theorem crc32_routines_agree (old stack₁ stack₂ stack₃ table : CrcTable) (callocSucceeds : Bool)
    (htable : crc32AllocInitTable callocSucceeds = some table)
    (a b : List (BitVec 8)) (hlen : a.length + b.length < 2 ^ 32) (c : BitVec 32) :
    let crcTable := initCrcTable old
    let size (l : List (BitVec 8)) := BitVec.ofNat 32 l.length
    let len (l : List (BitVec 8)) := BitVec.ofNat 64 l.length
    crc32Get table a (size a) = lutCrc32 stack₁ 0 a (len a) ∧
    lutCrc32 stack₁ 0 a (len a) = ~~~ calcCrc crcTable a (size a) ∧
    crc32 crcTable (crc32 crcTable c a (size a)) b (size b) =
      crc32 crcTable c (a ++ b) (size (a ++ b)) ∧
    lutCrc32 stack₂ (lutCrc32 stack₁ c a (len a)) b (len b) =
      lutCrc32 stack₃ c (a ++ b) (len (a ++ b)) ∧
    lutCrc32 stack₁ c a (len a) = ~~~ crc32 crcTable (~~~ c) a (size a) := by
  have ha : a.length < 2 ^ 32 := by omega
  have hb : b.length < 2 ^ 32 := by omega
  have hab : (a ++ b).length < 2 ^ 32 := by simpa using hlen
  dsimp only
  refine ⟨?_, ?_, ?_, ?_, ?_⟩
  · rw [crc32Get_eq_register htable a ha, lutCrc32_eq_register stack₁ 0 a ha]
    rfl
  · rw [lutCrc32_eq_register stack₁ 0 a ha, calcCrc, crc32_eq_register old _ a ha]
    rfl
  · rw [crc32_eq_register old c a ha, crc32_eq_register old _ b hb, crc32_eq_register old c _ hab,
      List.foldl_append]
  · rw [lutCrc32_eq_register stack₁ c a ha, lutCrc32_eq_register stack₂ _ b hb,
      lutCrc32_eq_register stack₃ c _ hab, BitVec.not_not, List.foldl_append]
  · rw [lutCrc32_eq_register stack₁ c a ha, crc32_eq_register old _ a ha]

theorem crc32_routines_agree_ab :
    ∃ table, crc32AllocInitTable true = some table ∧
      crc32Get table [0x61] 1 = ~~~ calcCrc (initCrcTable (Vector.replicate 256 7)) [0x61] 1 ∧
      lutCrc32 (Vector.replicate 256 3) (lutCrc32 (Vector.replicate 256 3) 0 [0x61] 1) [0x62] 1 =
        lutCrc32 (Vector.replicate 256 3) 0 [0x61, 0x62] 2 := by
  refine ⟨_, rfl, ?_⟩
  obtain ⟨hget, hcalc, -, hlut, -⟩ := crc32_routines_agree (Vector.replicate 256 7)
    (Vector.replicate 256 3) (Vector.replicate 256 3) (Vector.replicate 256 3) _ true rfl
    [0x61] [0x62] (by decide) 0
  exact ⟨hget.trans hcalc, hlut⟩

end GeneralPurposeLibrary.Proofs
