import GeneralPurposeLibrary.Foundation.ShiftRegister

/-!
# Left-shifting registers

The register of `ShiftRegister` with its bits in the opposite order: it shifts left, the
bit shifted out is the top one, and input bits enter at the top. Reversing the bits of
the word carries one register into the other. The response of a register to its input is
the exclusive or of what each single bit of the input leaves behind.
-/

namespace ShiftRegister

variable {w : Nat}

def stepUp (poly r : BitVec w) : BitVec w :=
  if r.msb then (r <<< 1) ^^^ poly else r <<< 1

def topBit (w : Nat) (b : Bool) : BitVec w := lowBit w b <<< (w - 1)

def clockUp (poly r : BitVec w) (b : Bool) : BitVec w := stepUp poly (r ^^^ topBit w b)

/-! ### The mirror -/

lemma reverse_xor (x y : BitVec w) : (x ^^^ y).reverse = x.reverse ^^^ y.reverse := by
  apply BitVec.eq_of_getLsbD_eq
  intro i hi
  simp only [BitVec.getLsbD_reverse, BitVec.getLsbD_xor, BitVec.getMsbD_xor]

lemma reverse_ushiftRight_one (x : BitVec w) : (x >>> 1).reverse = x.reverse <<< 1 := by
  apply BitVec.eq_of_getLsbD_eq
  intro i hi
  rw [BitVec.getLsbD_reverse, BitVec.getMsbD_ushiftRight, BitVec.getLsbD_shiftLeft,
    BitVec.getLsbD_reverse]
  by_cases h1 : i < 1
  · simp [h1]
  · simp [h1, hi]

lemma reverse_lowBit (b : Bool) : (lowBit w b).reverse = topBit w b := by
  apply BitVec.eq_of_getLsbD_eq
  intro i hi
  rw [BitVec.getLsbD_reverse, BitVec.getMsbD_eq_getLsbD, getLsbD_lowBit, topBit,
    BitVec.getLsbD_shiftLeft, getLsbD_lowBit]
  by_cases htop : i = w - 1
  · simp [htop]
  · have hlow : i < w - 1 := by omega
    simp [hlow, show w - 1 - i ≠ 0 by omega]

lemma reverse_step (poly r : BitVec w) :
    (step poly r).reverse = stepUp poly.reverse r.reverse := by
  unfold step stepUp
  rw [BitVec.msb_reverse]
  cases r.getLsbD 0 with
  | true => simp only [if_true, reverse_xor, reverse_ushiftRight_one]
  | false => simp only [Bool.false_eq_true, if_false, reverse_ushiftRight_one]

lemma reverse_iterate_step (poly : BitVec w) (n : Nat) (r : BitVec w) :
    ((step poly)^[n] r).reverse = (stepUp poly.reverse)^[n] r.reverse := by
  induction n generalizing r with
  | zero => rfl
  | succ n ih => rw [Function.iterate_succ_apply, ih, reverse_step, Function.iterate_succ_apply]

/-- Reversing the register carries a run of the one kind into a run of the other. -/
theorem reverse_foldl_clock (poly r : BitVec w) (l : List Bool) :
    (l.foldl (clock poly) r).reverse = l.foldl (clockUp poly.reverse) r.reverse := by
  induction l generalizing r with
  | nil => rfl
  | cons b l ih =>
    rw [List.foldl_cons, ih, List.foldl_cons, clock, reverse_step, reverse_xor, reverse_lowBit,
      clockUp]

/-! ### Superposition -/

def response (poly : BitVec w) : List Bool → BitVec w
  | [] => 0#w
  | b :: l => (step poly)^[l.length + 1] (lowBit w b) ^^^ response poly l

theorem foldl_clock_superposition (poly r : BitVec w) (l : List Bool) :
    l.foldl (clock poly) r = (step poly)^[l.length] r ^^^ response poly l := by
  induction l generalizing r with
  | nil => simp [response]
  | cons b l ih =>
    rw [List.foldl_cons, ih, clock, ← Function.iterate_succ_apply, iterate_step_xor, response,
      List.length_cons, BitVec.xor_assoc]

lemma response_append (poly : BitVec w) (l l' : List Bool) :
    response poly (l ++ l') = (step poly)^[l'.length] (response poly l) ^^^ response poly l' := by
  induction l with
  | nil =>
    have hzero : (step poly)^[l'.length] 0#w = 0#w := by
      rw [iterate_step_of_low_clear poly _ _ (fun i _ => BitVec.getLsbD_zero)]
      exact BitVec.zero_ushiftRight
    simp [response, hzero]
  | cons b l ih =>
    have hcount : (l ++ l').length + 1 = l'.length + (l.length + 1) := by
      rw [List.length_append]
      omega
    rw [List.cons_append, response, ih, response, iterate_step_xor, ← Function.iterate_add_apply,
      hcount, BitVec.xor_assoc]

end ShiftRegister
