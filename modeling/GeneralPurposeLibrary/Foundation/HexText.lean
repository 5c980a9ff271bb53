import Mathlib.Data.List.Basic

/-!
# Hexadecimal text

Bytes written as two lower-case digits each, and the conversion `%02x` of `printf`, which
prints an `unsigned int` with as many digits as it needs but at least two. For the value of
a byte both agree; a value that was extended from a negative byte takes eight digits.
-/

namespace HexText

def asciiByte (c : Char) : UInt8 := UInt8.ofNat c.toNat

def hexDigit (n : Nat) : UInt8 := asciiByte (Nat.digitChar n)

def hexPair (b : UInt8) : List UInt8 := [hexDigit (b.toNat / 16), hexDigit (b.toNat % 16)]

def hexText (bytes : List UInt8) : List UInt8 := bytes.flatMap hexPair

/-- The conversion `%02x`. -/
def formatHex (value : UInt32) : List UInt8 :=
  let digits := (Nat.toDigits 16 value.toNat).map asciiByte
  List.replicate (2 - digits.length) (asciiByte '0') ++ digits

def digitValue (c : UInt8) : Option Nat :=
  if 48 ≤ c.toNat ∧ c.toNat ≤ 57 then some (c.toNat - 48)
  else if 97 ≤ c.toNat ∧ c.toNat ≤ 102 then some (c.toNat - 87)
  else none

/-- Reads pairs of lower-case digits. -/
def decodeHex : List UInt8 → Option (List UInt8)
  | [] => some []
  | a :: b :: rest => do
    let x ← digitValue a
    let y ← digitValue b
    let bytes ← decodeHex rest
    return UInt8.ofNat (16 * x + y) :: bytes
  | [_] => none

lemma digitValue_hexDigit {n : Nat} (h : n < 16) : digitValue (hexDigit n) = some n := by
  have hall : ∀ k < 16, digitValue (hexDigit k) = some k := by decide
  exact hall n h

lemma decodeHex_hexText (bytes : List UInt8) : decodeHex (hexText bytes) = some bytes := by
  induction bytes with
  | nil => rfl
  | cons b bytes ih =>
    have hb : b.toNat < 256 := b.toNat_lt
    have hvalue : 16 * (b.toNat / 16) + b.toNat % 16 = b.toNat := Nat.div_add_mod b.toNat 16
    have hcons : hexText (b :: bytes) =
        hexDigit (b.toNat / 16) :: hexDigit (b.toNat % 16) :: hexText bytes := rfl
    rw [hcons, decodeHex, digitValue_hexDigit (by omega), digitValue_hexDigit (by omega), ih]
    simp only [Option.bind_eq_bind, Option.bind_some, Option.pure_def, hvalue,
      UInt8.ofNat_toNat]

lemma length_hexText (bytes : List UInt8) : (hexText bytes).length = 2 * bytes.length := by
  induction bytes with
  | nil => rfl
  | cons b bytes ih =>
    have hcons : hexText (b :: bytes) = hexPair b ++ hexText bytes := rfl
    rw [hcons, List.length_append, ih, List.length_cons]
    change 2 + 2 * bytes.length = 2 * (bytes.length + 1)
    omega

lemma formatHex_byte (b : UInt8) : formatHex b.toUInt32 = hexPair b := by
  have hall : ∀ n < 256, formatHex (UInt8.ofNat n).toUInt32 = hexPair (UInt8.ofNat n) := by
    decide +kernel
  have h := hall b.toNat b.toNat_lt
  rwa [UInt8.ofNat_toNat] at h

lemma ne_zero_of_mem_hexPair {b c : UInt8} (h : c ∈ hexPair b) : c ≠ 0 := by
  have hall : ∀ n < 16, hexDigit n ≠ 0 := by decide
  have hb : b.toNat < 256 := b.toNat_lt
  rcases List.mem_cons.mp h with rfl | h
  · exact hall _ (by omega)
  · rw [List.mem_singleton.mp h]
    exact hall _ (by omega)

lemma hexText_concat (done : List UInt8) (b : UInt8) :
    hexText (done ++ [b]) = hexText done ++ hexPair b := by
  rw [hexText, List.flatMap_append, List.flatMap_singleton, hexText]

lemma zero_notMem_hexText (bytes : List UInt8) : 0 ∉ hexText bytes := by
  intro h
  obtain ⟨b, -, hb⟩ := List.mem_flatMap.mp h
  exact ne_zero_of_mem_hexPair hb rfl

lemma isSome_digitValue_of_mem {bytes : List UInt8} {c : UInt8} (h : c ∈ hexText bytes) :
    (digitValue c).isSome := by
  obtain ⟨b, -, hb⟩ := List.mem_flatMap.mp h
  have hlt : b.toNat < 256 := b.toNat_lt
  rcases List.mem_pair.mp hb with rfl | rfl
  · rw [digitValue_hexDigit (by omega)]
    rfl
  · rw [digitValue_hexDigit (by omega)]
    rfl

lemma asciiByte_ne_zero_of_isDigit {c : Char} (h : c.isDigit) : asciiByte c ≠ 0 := by
  have hbounds : 48 ≤ c.toNat ∧ c.toNat ≤ 57 := by
    simpa [Char.isDigit, UInt32.le_iff_toNat_le] using h
  intro hzero
  have hmod : c.toNat % 256 = 0 := by
    have hcast := congrArg UInt8.toNat hzero
    rwa [asciiByte, UInt8.toNat_ofNat'] at hcast
  omega

end HexText
