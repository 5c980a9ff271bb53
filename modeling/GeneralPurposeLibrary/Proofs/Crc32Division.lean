import GeneralPurposeLibrary.Foundation.MirroredRegister
import GeneralPurposeLibrary.Proofs.Crc32Burst

/-!
# Which division the CRC-32 routines perform

`crc32` is the bit-at-a-time register of the reflected polynomial. The comment above it
names CRC-32/MPEG-2, which shifts the other way and reads every byte from its top bit.
Both checksums are exclusive ors of one word for each set bit of the message, so they
agree on the messages that satisfy 32 parity checks and on no others.
-/

namespace GeneralPurposeLibrary.Proofs
open ShiftRegister (bitsOf clock clockUp lowBit response step stepUp)

/-- `crc32` leaves the register that is clocked once for each bit of the buffer, the bits
of each byte from the least to the most significant. -/
theorem crc32_eq_bitwise_division (old : CrcTable) (c : BitVec 32) (a : List (BitVec 8))
    (ha : a.length < 2 ^ 32) :
    crc32 (initCrcTable old) c a (BitVec.ofNat 32 a.length) =
      (messageBits a).foldl (clock 0xedb88320) c := by
  rw [crc32_eq_register old c a ha, foldl_registerByte_eq_clock, crcPoly]

theorem crc32_eq_bitwise_division_ab :
    crc32 (initCrcTable (Vector.replicate 256 0)) 5 [0x61, 0x62] 2 =
      (messageBits [0x61, 0x62]).foldl (clock 0xedb88320) 5 :=
  crc32_eq_bitwise_division (Vector.replicate 256 0) 5 [0x61, 0x62] (by decide)

/-! ### CRC-32/MPEG-2 -/

def mpegPoly : BitVec 32 := 0x04c11db7

/-- The bits of a message byte by byte, most significant bit of each byte first. -/
def messageBitsTopFirst (a : List (BitVec 8)) : List Bool :=
  a.flatMap (fun byte => (bitsOf byte).reverse)

def crc32Mpeg2 (a : List (BitVec 8)) : BitVec 32 :=
  (messageBitsTopFirst a).foldl (clockUp mpegPoly) 0xffffffff

-- the check value of CRC-32/MPEG-2, over the digits `1` to `9`
example : crc32Mpeg2 [0x31, 0x32, 0x33, 0x34, 0x35, 0x36, 0x37, 0x38, 0x39] = 0x0376e6e7 := by
  decide +kernel

lemma messageBitsTopFirst_length (a : List (BitVec 8)) :
    (messageBitsTopFirst a).length = 8 * a.length := by
  induction a with
  | nil => rfl
  | cons byte a ih =>
    simp only [messageBitsTopFirst, List.flatMap_cons, List.length_append, List.length_cons]
      at ih ⊢
    rw [ih, List.length_reverse]
    simp only [bitsOf, List.length_ofFn]
    omega

/-- What a set bit `b` of a byte that `m` more bytes follow contributes to the difference
of the two checksums. -/
def bitWeight (m b : Nat) : BitVec 32 :=
  (step crcPoly)^[8 * m + (8 - b)] 1 ^^^ (stepUp mpegPoly)^[8 * m + (b + 1)] 0x80000000

def parityChecks : List (BitVec 8) → BitVec 32
  | [] => 0
  | byte :: rest =>
    (List.range 8).foldr
      (fun b x => (if byte.getLsbD b then bitWeight rest.length b else 0) ^^^ x)
      (parityChecks rest)

lemma crcPoly_reverse : crcPoly.reverse = mpegPoly := by decide +kernel

lemma bitWeight_of_bit (m b : Nat) (bit : Bool) :
    (if bit then bitWeight m b else 0) =
      (step crcPoly)^[8 * m] ((step crcPoly)^[8 - b] (lowBit 32 bit)) ^^^
        ((step crcPoly)^[8 * m] ((step crcPoly)^[b + 1] (lowBit 32 bit))).reverse := by
  rw [← Function.iterate_add_apply, ← Function.iterate_add_apply,
    ShiftRegister.reverse_iterate_step, crcPoly_reverse, ShiftRegister.reverse_lowBit]
  cases bit with
  | true => rfl
  | false =>
    have hdown : ∀ n, (step crcPoly)^[n] (lowBit 32 false) = 0 := fun n =>
      Function.iterate_fixed (by decide) n
    have hup : ∀ n, (stepUp mpegPoly)^[n] (ShiftRegister.topBit 32 false) = 0 := fun n =>
      Function.iterate_fixed (by decide) n
    rw [hdown, hup]
    rfl

lemma bitsOf_byte (byte : BitVec 8) :
    bitsOf byte = [byte.getLsbD 0, byte.getLsbD 1, byte.getLsbD 2, byte.getLsbD 3,
      byte.getLsbD 4, byte.getLsbD 5, byte.getLsbD 6, byte.getLsbD 7] := rfl

lemma byte_parityChecks (byte : BitVec 8) (m : Nat) (x : BitVec 32) :
    (List.range 8).foldr (fun b x => (if byte.getLsbD b then bitWeight m b else 0) ^^^ x) x =
      (step crcPoly)^[8 * m] (response crcPoly (bitsOf byte)) ^^^
        ((step crcPoly)^[8 * m] (response crcPoly (bitsOf byte).reverse)).reverse ^^^ x := by
  have hrange : List.range 8 = [0, 1, 2, 3, 4, 5, 6, 7] := rfl
  simp only [hrange, List.foldr_cons, List.foldr_nil, bitWeight_of_bit]
  simp only [bitsOf_byte, List.reverse_cons, List.reverse_nil, List.nil_append, List.cons_append,
    response, List.length_cons, List.length_nil, ShiftRegister.iterate_step_xor,
    ShiftRegister.reverse_xor, Nat.reduceAdd, Nat.reduceSub, BitVec.xor_zero]
  ac_rfl

lemma parityChecks_eq (a : List (BitVec 8)) :
    parityChecks a = response crcPoly (messageBits a) ^^^
      (response crcPoly (messageBitsTopFirst a)).reverse := by
  induction a with
  | nil =>
    have hmirror : (0#32).reverse = 0#32 := BitVec.reverse_eq_zero_iff.mpr rfl
    simp [parityChecks, messageBits, messageBitsTopFirst, response, hmirror]
  | cons byte a ih =>
    have hlow : messageBits (byte :: a) = bitsOf byte ++ messageBits a := rfl
    have htop : messageBitsTopFirst (byte :: a) =
        (bitsOf byte).reverse ++ messageBitsTopFirst a := rfl
    rw [parityChecks, byte_parityChecks, ih, hlow, htop, ShiftRegister.response_append,
      ShiftRegister.response_append, messageBits_length, messageBitsTopFirst_length,
      ShiftRegister.reverse_xor]
    ac_rfl

lemma crc32Mpeg2_eq (a : List (BitVec 8)) :
    crc32Mpeg2 a = (stepUp mpegPoly)^[8 * a.length] 0xffffffff ^^^
      (response crcPoly (messageBitsTopFirst a)).reverse := by
  have hones : (0xffffffff : BitVec 32) = (0xffffffff : BitVec 32).reverse := by decide +kernel
  calc crc32Mpeg2 a
      = ((messageBitsTopFirst a).foldl (clock crcPoly) 0xffffffff).reverse := by
        rw [ShiftRegister.reverse_foldl_clock, crcPoly_reverse, ← hones]
        rfl
    _ = ((step crcPoly)^[8 * a.length] 0xffffffff).reverse ^^^
          (response crcPoly (messageBitsTopFirst a)).reverse := by
        rw [ShiftRegister.foldl_clock_superposition, messageBitsTopFirst_length,
          ShiftRegister.reverse_xor]
    _ = (stepUp mpegPoly)^[8 * a.length] 0xffffffff ^^^
          (response crcPoly (messageBitsTopFirst a)).reverse := by
        rw [ShiftRegister.reverse_iterate_step, crcPoly_reverse, ← hones]

lemma calcCrc_eq (old : CrcTable) (a : List (BitVec 8)) (ha : a.length < 2 ^ 32) :
    calcCrc (initCrcTable old) a (BitVec.ofNat 32 a.length) =
      (step crcPoly)^[8 * a.length] 0xffffffff ^^^ response crcPoly (messageBits a) := by
  rw [calcCrc, crc32_eq_register old _ a ha, foldl_registerByte_eq_clock,
    ShiftRegister.foldl_clock_superposition, messageBits_length]

lemma xor_eq_xor_iff (p q x y : BitVec 32) : p ^^^ x = q ^^^ y ↔ x ^^^ y = p ^^^ q := by
  have hswap : (p ^^^ x) ^^^ (q ^^^ y) = (x ^^^ y) ^^^ (p ^^^ q) := by ac_rfl
  rw [← BitVec.xor_eq_zero_iff, hswap, BitVec.xor_eq_zero_iff]

/-- `calc_crc` returns the CRC-32/MPEG-2 of exactly those messages whose set bits satisfy
the parity checks of their length. -/
theorem calcCrc_eq_mpeg2_iff (old : CrcTable) (a : List (BitVec 8)) (ha : a.length < 2 ^ 32) :
    calcCrc (initCrcTable old) a (BitVec.ofNat 32 a.length) = crc32Mpeg2 a ↔
      parityChecks a = (step crcPoly)^[8 * a.length] 0xffffffff ^^^
        (stepUp mpegPoly)^[8 * a.length] 0xffffffff := by
  rw [calcCrc_eq old a ha, crc32Mpeg2_eq, xor_eq_xor_iff, parityChecks_eq]

/-- Four bytes `0xff` cancel the start value and leave both registers zero. -/
theorem calcCrc_eq_mpeg2_ones :
    calcCrc (initCrcTable (Vector.replicate 256 0)) [0xff, 0xff, 0xff, 0xff] 4 =
      crc32Mpeg2 [0xff, 0xff, 0xff, 0xff] :=
  (calcCrc_eq_mpeg2_iff (Vector.replicate 256 0) [0xff, 0xff, 0xff, 0xff] (by decide)).mpr
    (by decide +kernel)

/-- The one-byte message `0x00` already has two different checksums. -/
theorem calcCrc_ne_mpeg2_zero_byte :
    calcCrc (initCrcTable (Vector.replicate 256 0)) [0x00] 1 ≠ crc32Mpeg2 [0x00] := by
  have hcalc : calcCrc (initCrcTable (Vector.replicate 256 0)) [0x00] 1 = 0x2dfd1072 := by
    have hreg := calcCrc_eq (Vector.replicate 256 0) [0x00] (by decide)
    rw [show (1 : BitVec 32) = BitVec.ofNat 32 [(0x00 : BitVec 8)].length from rfl, hreg]
    decide +kernel
  have hmpeg : crc32Mpeg2 [0x00] = 0x4e08bfb4 := by decide +kernel
  rw [hcalc, hmpeg]
  decide

end GeneralPurposeLibrary.Proofs
