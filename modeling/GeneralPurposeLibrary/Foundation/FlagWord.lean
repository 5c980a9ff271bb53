import Mathlib.Data.Nat.Notation

/-!
# Words of flags

A word holds several fields, each of them the bits under a mask. Flags are raised with an or
and cleared with an and-not; the lemmas say what either leaves under a mask.
-/

namespace FlagWord

variable {w : ℕ} {x m k : BitVec w}

lemma not_and_of_disjoint (h : m &&& k = 0) : ~~~m &&& k = k := by
  apply BitVec.eq_of_getLsbD_eq
  intro i hi
  have hbit := congrArg (fun v => v.getLsbD i) h
  simp only [BitVec.getLsbD_and, BitVec.getLsbD_not, hi, decide_true, Bool.true_and,
    BitVec.getLsbD_zero, BitVec.ofNat_eq_ofNat] at hbit ⊢
  cases hm : m.getLsbD i with
  | false => rw [Bool.not_false, Bool.true_and]
  | true =>
    rw [hm, Bool.true_and] at hbit
    rw [hbit, Bool.and_false]

lemma or_and_of_disjoint (h : m &&& k = 0) : (x ||| m) &&& k = x &&& k := by
  rw [BitVec.and_or_distrib_right, h]
  exact BitVec.or_zero

lemma clear_and_of_disjoint (h : m &&& k = 0) : (x &&& ~~~m) &&& k = x &&& k := by
  rw [BitVec.and_assoc, not_and_of_disjoint h]

lemma clear_and_self : (x &&& ~~~m) &&& m = 0 := by
  rw [BitVec.and_assoc, BitVec.not_and_self]
  exact BitVec.and_zero

lemma or_and_of_subset (h : m &&& k = m) : (x ||| m) &&& k = (x &&& k) ||| m := by
  rw [BitVec.and_or_distrib_right, h]

lemma or_and_self : (x ||| m) &&& m = m := by
  apply BitVec.eq_of_getLsbD_eq
  intro i hi
  rw [BitVec.getLsbD_and, BitVec.getLsbD_or]
  cases m.getLsbD i with
  | false => rw [Bool.and_false]
  | true => rw [Bool.or_true, Bool.and_true]

lemma or_eq_right_iff : x ||| m = m ↔ x &&& ~~~m = 0 := by
  constructor
  · intro h
    rw [← h]
    apply BitVec.eq_of_getLsbD_eq
    intro i hi
    rw [BitVec.getLsbD_and, BitVec.getLsbD_not, BitVec.getLsbD_or]
    cases x.getLsbD i with
    | false => simp
    | true => simp
  · intro h
    apply BitVec.eq_of_getLsbD_eq
    intro i hi
    have hbit := congrArg (fun v => v.getLsbD i) h
    rw [BitVec.getLsbD_or]
    cases hx : x.getLsbD i with
    | false => rw [Bool.false_or]
    | true =>
      simp only [BitVec.getLsbD_and, hx, BitVec.getLsbD_not, hi, decide_true, Bool.true_and,
        BitVec.ofNat_eq_ofNat, BitVec.getLsbD_zero, Bool.not_eq_false'] at hbit
      rw [hbit, Bool.true_or]

end FlagWord
