import Mathlib.Logic.Function.Iterate

/-!
# The CRC-32 routines

The three table builders and the three byte loops of `linux/utils/src/crc32.c`. A buffer
is the list of bytes it holds, `unsigned int` is `BitVec 32`, and every table index is
given with the proof that it is below 256. `crcTableStep` is the body of the inner loop of
`init_crc_table` and `crc32_alloc_init_table`, `lutTableStep` that of `lut_crc32`, which
shifts before it combines; `crcByte` and `lutByte` are the bodies of the byte loops. The
static `crc_table` is passed in and out.
-/

namespace GeneralPurposeLibrary

abbrev CrcTable := Vector (BitVec 32) 256

def fillTable (entry : BitVec 32 → BitVec 32) (table : CrcTable) : CrcTable :=
  Fin.foldl 256 (fun table i => table.set i (entry (BitVec.ofNat 32 i))) table

def crcTableStep (c : BitVec 32) : BitVec 32 :=
  if c &&& 1 ≠ 0 then 0xedb88320 ^^^ (c >>> 1) else c >>> 1

def lutTableStep (rem : BitVec 32) : BitVec 32 :=
  if rem &&& 1 ≠ 0 then
    let rem := rem >>> 1
    rem ^^^ 0xedb88320
  else rem >>> 1

def initCrcTable (crcTable : CrcTable) : CrcTable :=
  fillTable (fun i => crcTableStep^[8] i) crcTable

lemma low_byte_lt (x : BitVec 32) : (x &&& 0xff).toNat < 256 := by
  rw [BitVec.toNat_and]
  exact Nat.lt_of_le_of_lt Nat.and_le_right (by decide)

lemma low_byte_xor_lt (crc : BitVec 32) (octet : BitVec 8) :
    ((crc &&& 0xff) ^^^ octet.setWidth 32).toNat < 256 := by
  have hoctet : (octet.setWidth 32).toNat < 2 ^ 8 := by
    rw [BitVec.toNat_setWidth]
    have := octet.isLt
    omega
  rw [BitVec.toNat_xor]
  exact Nat.xor_lt_two_pow (low_byte_lt crc) hoctet

def crcByte (table : CrcTable) (crc : BitVec 32) (byte : BitVec 8) : BitVec 32 :=
  table.get ⟨((crc ^^^ byte.setWidth 32) &&& 0xff).toNat, low_byte_lt _⟩ ^^^ (crc >>> 8)

def lutByte (table : CrcTable) (crc : BitVec 32) (octet : BitVec 8) : BitVec 32 :=
  (crc >>> 8) ^^^ table.get ⟨((crc &&& 0xff) ^^^ octet.setWidth 32).toNat, low_byte_xor_lt _ _⟩

def forBytes (body : BitVec 32 → BitVec 8 → BitVec 32) (buffer : List (BitVec 8)) (count : Nat)
    (crc : BitVec 32) : BitVec 32 :=
  (List.range count).foldl (fun crc i => body crc (buffer.getD i 0)) crc

def crc32 (crcTable : CrcTable) (crc : BitVec 32) (buffer : List (BitVec 8))
    (size : BitVec 32) : BitVec 32 :=
  forBytes (crcByte crcTable) buffer size.toNat crc

def calcCrc (crcTable : CrcTable) (buf : List (BitVec 8)) (size : BitVec 32) : BitVec 32 :=
  crc32 crcTable 0xffffffff buf size

/-- `lut_crc32`. Its table is a local array; `stack` is what the array held before the
loop that fills it, which always runs because `have_table` is local too. -/
def lutCrc32 (stack : CrcTable) (crc : BitVec 32) (buf : List (BitVec 8))
    (len : BitVec 64) : BitVec 32 :=
  let table := fillTable (fun i => lutTableStep^[8] i) stack
  ~~~ forBytes (lutByte table) buf len.toNat (~~~ crc)

/-- `crc32_alloc_init_table`: `none` is the `NULL` returned when `calloc` fails. -/
def crc32AllocInitTable (callocSucceeds : Bool) : Option CrcTable :=
  if callocSucceeds then
    some (fillTable (fun i => crcTableStep^[8] i) (Vector.replicate 256 0))
  else none

def crc32Get (table : CrcTable) (buf : List (BitVec 8)) (size : BitVec 32) : BitVec 32 :=
  ~~~ forBytes (crcByte table) buf size.toNat 0xffffffff

end GeneralPurposeLibrary
