import GeneralPurposeLibrary.Proofs.Crc32Burst

/-!
# Checking a message together with its checksum

A receiver that has a message followed by its checksum need not take the two apart. The
running `lut_crc32` over all the received bytes, in whatever pieces they arrive, ends in
one fixed word exactly when the last four bytes are the checksum of those before them.
-/

namespace GeneralPurposeLibrary.Proofs
open ShiftRegister (bitsOf clock step)

/-- The running checksum of a buffer that arrives in pieces; beside each piece stands what
the local table of that call held before it was filled. -/
def lutCrc32Pieces (crc : BitVec 32) (pieces : List (CrcTable × List (BitVec 8))) : BitVec 32 :=
  pieces.foldl
    (fun crc piece => lutCrc32 piece.1 crc piece.2 (BitVec.ofNat 64 piece.2.length)) crc

lemma lutCrc32Pieces_eq_register (pieces : List (CrcTable × List (BitVec 8))) (crc : BitVec 32)
    (hlen : (pieces.flatMap Prod.snd).length < 2 ^ 32) :
    lutCrc32Pieces crc pieces = ~~~ (pieces.flatMap Prod.snd).foldl registerByte (~~~ crc) := by
  induction pieces generalizing crc with
  | nil => exact BitVec.not_not.symm
  | cons piece pieces ih =>
    rw [List.flatMap_cons, List.length_append] at hlen
    have hpiece : lutCrc32 piece.1 crc piece.2 (BitVec.ofNat 64 piece.2.length) =
        ~~~ piece.2.foldl registerByte (~~~ crc) :=
      lutCrc32_eq_register piece.1 crc piece.2 (by omega)
    rw [List.flatMap_cons, List.foldl_append]
    calc lutCrc32Pieces crc (piece :: pieces)
        = lutCrc32Pieces (~~~ piece.2.foldl registerByte (~~~ crc)) pieces := by
          rw [← hpiece]
          rfl
      _ = ~~~ (pieces.flatMap Prod.snd).foldl registerByte
            (piece.2.foldl registerByte (~~~ crc)) := by
          rw [ih _ (by omega), BitVec.not_not]

lemma messageBits_word (b₀ b₁ b₂ b₃ : BitVec 8) :
    messageBits [b₀, b₁, b₂, b₃] = bitsOf (b₃ ++ b₂ ++ b₁ ++ b₀) := by
  simp only [messageBits, List.flatMap_cons, List.flatMap_nil, List.append_nil,
    ShiftRegister.bitsOf_append]

/-- The register after four bytes is 32 shifts of the word they form, combined with what
the register held. -/
lemma foldl_registerByte_word (r : BitVec 32) (b₀ b₁ b₂ b₃ : BitVec 8) :
    [b₀, b₁, b₂, b₃].foldl registerByte r =
      (step crcPoly)^[32] (r ^^^ (b₃ ++ b₂ ++ b₁ ++ b₀)) := by
  rw [foldl_registerByte_eq_clock, messageBits_word,
    ShiftRegister.foldl_clock_bitsOf crcPoly r _ (le_refl 32), BitVec.setWidth_eq]

lemma residue_eq : ~~~ (step crcPoly)^[32] 0xffffffff = (0x2144df1c : BitVec 32) := by
  decide +kernel

lemma residue_iff (r v : BitVec 32) :
    ~~~ (step crcPoly)^[32] (r ^^^ v) = 0x2144df1c ↔ v = ~~~ r := by
  have hinj : Function.Injective (step crcPoly)^[32] :=
    (ShiftRegister.step_injective (by decide)).iterate 32
  have hones : r ^^^ ~~~ r = 0xffffffff := by
    rw [← BitVec.not_xor_right, BitVec.xor_self]
    rfl
  rw [← residue_eq, BitVec.not_inj, hinj.eq_iff, ← hones, BitVec.xor_right_inj]

/-- Over a message and four more bytes, in whatever pieces they arrive, the running
`lut_crc32` is `0x2144df1c` exactly when the four bytes are the word, lowest byte first,
that `crc32_get` returns for the message. -/
theorem lutCrc32Pieces_residue_iff (callocSucceeds : Bool) (table : CrcTable)
    (htable : crc32AllocInitTable callocSucceeds = some table)
    (pieces : List (CrcTable × List (BitVec 8))) (message : List (BitVec 8))
    (b₀ b₁ b₂ b₃ : BitVec 8)
    (hpieces : pieces.flatMap Prod.snd = message ++ [b₀, b₁, b₂, b₃])
    (hlen : message.length + 4 < 2 ^ 32) :
    lutCrc32Pieces 0 pieces = 0x2144df1c ↔
      b₃ ++ b₂ ++ b₁ ++ b₀ = crc32Get table message (BitVec.ofNat 32 message.length) := by
  have hall : (pieces.flatMap Prod.snd).length < 2 ^ 32 := by
    rw [hpieces, List.length_append]
    exact hlen
  have hones : ~~~ (0 : BitVec 32) = 0xffffffff := rfl
  rw [lutCrc32Pieces_eq_register pieces 0 hall, hpieces, List.foldl_append,
    foldl_registerByte_word, hones, crc32Get_eq_register htable message (by omega)]
  exact residue_iff _ _

theorem lutCrc32Pieces_residue_a :
    lutCrc32Pieces 0 [(Vector.replicate 256 7, [0x61, 0x43]),
      (Vector.replicate 256 0, [0xbe, 0xb7, 0xe8])] = 0x2144df1c := by
  refine (lutCrc32Pieces_residue_iff true _ rfl _ [0x61] 0x43 0xbe 0xb7 0xe8 rfl
    (by decide)).mpr ?_
  rw [crc32Get_eq_register (show crc32AllocInitTable true = some _ from rfl) [0x61] (by decide)]
  decide +kernel

end GeneralPurposeLibrary.Proofs
