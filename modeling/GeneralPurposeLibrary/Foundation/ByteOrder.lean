import Mathlib.Algebra.Order.Ring.Nat

/-!
# Big-endian numbers

The value of a list of bytes with the most significant one first, and the lowest bytes of a
number in this order.
-/

namespace ByteOrder

def ofBigEndian (bytes : List UInt8) : ℕ := bytes.foldl (fun n b => n * 256 + b.toNat) 0

def toBigEndian : ℕ → ℕ → List UInt8
  | 0, _ => []
  | width + 1, n => toBigEndian width (n / 256) ++ [UInt8.ofNat n]

@[simp] lemma length_toBigEndian (width n : ℕ) : (toBigEndian width n).length = width := by
  induction width generalizing n with
  | zero => rfl
  | succ width ih => rw [toBigEndian, List.length_append, ih, List.length_singleton]

lemma ofBigEndian_concat (bytes : List UInt8) (b : UInt8) :
    ofBigEndian (bytes ++ [b]) = ofBigEndian bytes * 256 + b.toNat := by
  rw [ofBigEndian, List.foldl_append, ofBigEndian]
  rfl

lemma ofBigEndian_toBigEndian (width n : ℕ) :
    ofBigEndian (toBigEndian width n) = n % 256 ^ width := by
  induction width generalizing n with
  | zero =>
    rw [pow_zero, Nat.mod_one]
    rfl
  | succ width ih =>
    have hbyte : (UInt8.ofNat n).toNat = n % 256 := UInt8.toNat_ofNat'
    rw [toBigEndian, ofBigEndian_concat, ih, hbyte, pow_succ', Nat.mod_mul, Nat.add_comm,
      Nat.mul_comm]

end ByteOrder
