import Mathlib.Data.List.GetD
import Mathlib.Logic.Function.Iterate

/-!
# Right-shifting linear feedback registers

A register of `w` bits shifts right by one and, when the bit shifted out was one, is
combined with a feedback polynomial. Input bits enter at the low end, and words are read
as lists of bits least significant first. This file proves
that the register is linear and, when the polynomial has its top bit, injective; that a
block of at most `w` input bits acts like one exclusive or in front of the block; and
that two inputs which differ only inside such a block leave different registers.
-/

namespace ShiftRegister

variable {w : Nat}

def step (poly r : BitVec w) : BitVec w :=
  if r.getLsbD 0 then (r >>> 1) ^^^ poly else r >>> 1

def lowBit (w : Nat) (b : Bool) : BitVec w := (BitVec.ofBool b).setWidth w

def clock (poly r : BitVec w) (b : Bool) : BitVec w := step poly (r ^^^ lowBit w b)

def bitsOf {n : Nat} (x : BitVec n) : List Bool := List.ofFn (fun i : Fin n => x.getLsbD i)

def ofBits (w : Nat) : List Bool → BitVec w
  | [] => 0
  | b :: l => lowBit w b ^^^ (ofBits w l <<< 1)

lemma getLsbD_lowBit (b : Bool) (i : Nat) :
    (lowBit w b).getLsbD i = (decide (i = 0) && decide (0 < w) && b) := by
  simp only [lowBit, BitVec.getLsbD_setWidth, BitVec.getLsbD_ofBool]
  by_cases hi : i = 0 <;> simp [hi]

lemma getLsbD_ofBits (l : List Bool) (i : Nat) :
    (ofBits w l).getLsbD i = (decide (i < w) && l.getD i false) := by
  induction l generalizing i with
  | nil => simp [ofBits]
  | cons b l ih =>
    simp only [ofBits, BitVec.getLsbD_xor, getLsbD_lowBit, BitVec.getLsbD_shiftLeft, ih]
    cases i with
    | zero => simp
    | succ i =>
      by_cases hi : i + 1 < w
      · simp [hi, show i < w by omega]
      · simp [hi]

lemma ofBits_bitsOf {n : Nat} (x : BitVec n) : ofBits w (bitsOf x) = x.setWidth w := by
  apply BitVec.eq_of_getLsbD_eq
  intro i hi
  rw [getLsbD_ofBits, BitVec.getLsbD_setWidth]
  by_cases hn : i < n
  · simp [bitsOf, List.getD, hn]
  · simp [bitsOf, List.getD, hn, BitVec.getLsbD_of_ge x i (by omega)]

lemma bitsOf_append {m n : Nat} (x : BitVec m) (y : BitVec n) :
    bitsOf (x ++ y) = bitsOf y ++ bitsOf x := by
  apply List.ext_getElem
  · simp [bitsOf, Nat.add_comm]
  · intro i hi hi'
    simp only [bitsOf, List.getElem_ofFn, List.getElem_append, List.length_ofFn,
      BitVec.getLsbD_append]
    by_cases hn : i < n <;> simp [hn]

lemma ofBits_inj {l l' : List Bool} (hlen : l.length = l'.length) (hw : l.length ≤ w)
    (h : ofBits w l = ofBits w l') : l = l' := by
  apply List.ext_getElem hlen
  intro i hi hi'
  have hbit := congrArg (fun x => x.getLsbD i) h
  simp only [getLsbD_ofBits, show i < w by omega, decide_true, Bool.true_and] at hbit
  simpa only [List.getD_eq_getElem _ _ hi, List.getD_eq_getElem _ _ hi'] using hbit

theorem step_xor (poly a b : BitVec w) : step poly (a ^^^ b) = step poly a ^^^ step poly b := by
  unfold step
  simp only [BitVec.getLsbD_xor, BitVec.ushiftRight_xor_distrib]
  cases ha : a.getLsbD 0 <;> cases hb : b.getLsbD 0
  · simp
  · simp [BitVec.xor_assoc]
  · simp only [Bool.xor_false, if_true, Bool.false_eq_true, if_false]
    rw [BitVec.xor_assoc, BitVec.xor_comm (b >>> 1) poly, ← BitVec.xor_assoc]
  · simp only [bne_self_eq_false, Bool.false_eq_true, if_true, if_false]
    rw [BitVec.xor_assoc (a >>> 1) poly, BitVec.xor_comm (b >>> 1) poly, ← BitVec.xor_assoc poly,
      BitVec.xor_self, BitVec.zero_xor]

theorem iterate_step_xor (poly : BitVec w) (n : Nat) (a b : BitVec w) :
    (step poly)^[n] (a ^^^ b) = (step poly)^[n] a ^^^ (step poly)^[n] b := by
  induction n generalizing a b with
  | zero => rfl
  | succ n ih => simp only [Function.iterate_succ_apply, step_xor, ih]

lemma iterate_step_of_low_clear (poly : BitVec w) (n : Nat) (r : BitVec w)
    (h : ∀ i, i < n → r.getLsbD i = false) : (step poly)^[n] r = r >>> n := by
  induction n with
  | zero => simp
  | succ n ih =>
    have hlow : (r >>> n).getLsbD 0 = false := by simpa using h n (by omega)
    rw [Function.iterate_succ_apply', ih (fun i hi => h i (by omega)), step, hlow]
    simp [BitVec.shiftRight_add]

/-- Shifting `n` times looks only at the low `n` bits; the rest moves down. -/
theorem iterate_step_split (poly : BitVec w) (n : Nat) (r : BitVec w) :
    (step poly)^[n] r = (step poly)^[n] ((r.setWidth n).setWidth w) ^^^ (r >>> n) := by
  have hsplit : r = (r.setWidth n).setWidth w ^^^ ((r >>> n) <<< n) := by
    apply BitVec.eq_of_getLsbD_eq
    intro i hi
    simp only [BitVec.getLsbD_xor, BitVec.getLsbD_setWidth, BitVec.getLsbD_shiftLeft,
      BitVec.getLsbD_ushiftRight, hi, decide_true, Bool.true_and]
    by_cases hn : i < n
    · simp [hn]
    · simp [hn, show n + (i - n) = i by omega]
  have hhigh : (step poly)^[n] ((r >>> n) <<< n) = r >>> n := by
    rw [iterate_step_of_low_clear poly n _ (fun i hi => by simp [hi])]
    apply BitVec.eq_of_getLsbD_eq
    intro i hi
    simp only [BitVec.getLsbD_ushiftRight, BitVec.getLsbD_shiftLeft]
    by_cases hn : n + i < w
    · simp [hn]
    · simp [hn, BitVec.getLsbD_of_ge r (n + i) (by omega)]
  calc (step poly)^[n] r
      = (step poly)^[n] ((r.setWidth n).setWidth w ^^^ ((r >>> n) <<< n)) := by rw [← hsplit]
    _ = (step poly)^[n] ((r.setWidth n).setWidth w) ^^^ (r >>> n) := by
      rw [iterate_step_xor, hhigh]

section Injective

variable {poly : BitVec w} (hpoly : poly.getLsbD (w - 1) = true)
include hpoly

lemma step_eq_zero {r : BitVec w} (h : step poly r = 0) : r = 0 := by
  have hw : 0 < w := by
    by_contra hw
    rw [BitVec.getLsbD_of_ge poly (w - 1) (by omega)] at hpoly
    exact absurd hpoly (by simp)
  unfold step at h
  cases h0 : r.getLsbD 0 with
  | true =>
    -- the top bit of the shifted register is clear, that of the polynomial is not
    rw [h0, if_pos rfl] at h
    have htop := congrArg (fun x => x.getLsbD (w - 1)) h
    simp [hpoly, BitVec.getLsbD_of_ge r (1 + (w - 1)) (by omega)] at htop
  | false =>
    rw [h0, if_neg (by simp)] at h
    apply BitVec.eq_of_getLsbD_eq
    intro i hi
    cases i with
    | zero => simpa using h0
    | succ i =>
      have hbit := congrArg (fun x => x.getLsbD i) h
      simpa [Nat.add_comm] using hbit

theorem step_injective : Function.Injective (step poly) := by
  intro a b h
  have hz : step poly (a ^^^ b) = 0 := by
    rw [step_xor, h]
    exact BitVec.xor_self
  exact BitVec.xor_eq_zero_iff.mp (step_eq_zero hpoly hz)

lemma clock_injective (b : Bool) : Function.Injective (fun r => clock poly r b) := by
  intro r r' h
  exact (BitVec.xor_left_inj _).mp (step_injective hpoly h)

lemma foldl_clock_injective (l : List Bool) :
    Function.Injective (fun r => l.foldl (clock poly) r) := by
  induction l with
  | nil => exact fun _ _ h => h
  | cons b l ih => exact fun r r' h => clock_injective hpoly b (ih h)

end Injective

/-- A block of at most `w` input bits is one exclusive or in front of as many shifts. -/
theorem foldl_clock_eq (poly r : BitVec w) (l : List Bool) (hl : l.length ≤ w) :
    l.foldl (clock poly) r = (step poly)^[l.length] (r ^^^ ofBits w l) := by
  induction l generalizing r with
  | nil => simp [ofBits]
  | cons b l ih =>
    have hlen : l.length + 1 ≤ w := by simpa using hl
    -- the later bits wait one place higher, and the shift brings them down unchanged
    have hdown : step poly (ofBits w l <<< 1) = ofBits w l := by
      have hlow : (ofBits w l <<< 1).getLsbD 0 = false := by simp
      rw [step, hlow, if_neg (by simp)]
      apply BitVec.eq_of_getLsbD_eq
      intro i hi
      simp only [BitVec.getLsbD_ushiftRight, BitVec.getLsbD_shiftLeft, getLsbD_ofBits]
      by_cases hi' : 1 + i < w
      · simp [hi']
      · simp [hi', show l.length ≤ i by omega]
    rw [List.foldl_cons, ih _ (by omega), List.length_cons, Function.iterate_succ_apply, ofBits,
      ← BitVec.xor_assoc, step_xor, hdown]
    rfl

theorem foldl_clock_bitsOf {n : Nat} (poly r : BitVec w) (x : BitVec n) (hn : n ≤ w) :
    (bitsOf x).foldl (clock poly) r = (step poly)^[n] (r ^^^ x.setWidth w) := by
  rw [foldl_clock_eq _ _ _ (by simpa [bitsOf] using hn), ofBits_bitsOf]
  simp [bitsOf]

theorem foldl_clock_ne_of_block {poly : BitVec w} (hpoly : poly.getLsbD (w - 1) = true)
    (r : BitVec w) (p m m' s : List Bool) (hlen : m.length = m'.length) (hm : m.length ≤ w)
    (hne : m ≠ m') :
    (p ++ m ++ s).foldl (clock poly) r ≠ (p ++ m' ++ s).foldl (clock poly) r := by
  intro h
  simp only [List.foldl_append] at h
  have hblock := foldl_clock_injective hpoly s h
  simp only [foldl_clock_eq poly _ m hm, foldl_clock_eq poly _ m' (hlen ▸ hm), ← hlen] at hblock
  have hword := (BitVec.xor_right_inj _).mp ((step_injective hpoly).iterate m.length hblock)
  exact hne (ofBits_inj hlen hm hword)

/-- Inputs of equal length that agree outside a window of at most `w` bits, and differ,
leave different registers. -/
theorem foldl_clock_ne_of_window (poly : BitVec w) (hpoly : poly.getLsbD (w - 1) = true)
    (r : BitVec w) (l l' : List Bool) (hlen : l.length = l'.length) (hne : l ≠ l')
    (start width : Nat) (hwidth : width ≤ w)
    (hout : ∀ i, i < start ∨ start + width ≤ i → l[i]? = l'[i]?) :
    l.foldl (clock poly) r ≠ l'.foldl (clock poly) r := by
  have hcut : ∀ k : List Bool,
      k = k.take start ++ (k.drop start).take width ++ k.drop (start + width) := by
    intro k
    rw [List.append_assoc, ← List.drop_drop, List.take_append_drop, List.take_append_drop]
  have htake : l.take start = l'.take start := by
    apply List.ext_getElem?
    intro i
    by_cases hi : i < start
    · simp [hi, hout i (.inl hi)]
    · rw [List.getElem?_take, if_neg hi, List.getElem?_take, if_neg hi]
  have hdrop : l.drop (start + width) = l'.drop (start + width) := by
    apply List.ext_getElem?
    intro i
    rw [List.getElem?_drop, List.getElem?_drop]
    exact hout _ (.inr (by omega))
  have hmid : (l.drop start).take width ≠ (l'.drop start).take width := by
    intro h
    exact hne (by rw [hcut l, hcut l', htake, hdrop, h])
  rw [hcut l, hcut l', htake, hdrop]
  exact foldl_clock_ne_of_block hpoly r _ _ _ _ (by simp [hlen]) (by simp; omega) hmid

end ShiftRegister
