import Mathlib.Algebra.Order.Ring.Nat
import Mathlib.Order.Bounds.Basic

/-!
# Strided planes

A plane of lines that start `stride` places apart stores the cell `minor` of the line
`major` at `major * stride + minor`. Cells before the next line starts have places of their
own. The same numbering cuts one dimension into bands of equal size, and the size that
divides the dimension evenly, rounded down to an alignment, leaves every band inside.
-/

namespace StridedPlane

def place (stride major minor : ℕ) : ℕ := major * stride + minor

lemma place_inj {stride major minor major' minor' : ℕ} (hminor : minor < stride)
    (hminor' : minor' < stride) (h : place stride major minor = place stride major' minor') :
    major = major' ∧ minor = minor' := by
  have hpos : 0 < stride := by omega
  have hmajor : major = major' := by
    have hdiv := congrArg (· / stride) h
    simpa [place, Nat.mul_add_div, Nat.mul_comm _ stride, hpos, Nat.div_eq_of_lt hminor,
      Nat.div_eq_of_lt hminor'] using hdiv
  subst hmajor
  exact ⟨rfl, Nat.add_left_cancel h⟩

lemma place_lt {stride majors major minor : ℕ} (hmajor : major < majors)
    (hminor : minor < stride) : place stride major minor < majors * stride := by
  have hlines : (major + 1) * stride ≤ majors * stride := Nat.mul_le_mul_right stride hmajor
  rw [Nat.add_mul, Nat.one_mul] at hlines
  unfold place
  omega

lemma place_add_major (stride major major' minor : ℕ) :
    place stride (major + major') minor = major * stride + place stride major' minor := by
  unfold place
  rw [Nat.add_mul, Nat.add_assoc]

lemma place_add_minor (stride major minor minor' : ℕ) :
    place stride major (minor + minor') = minor + place stride major minor' := by
  unfold place
  omega

/-- The size of a band when a dimension is cut into `num` bands of aligned size. -/
def bandSize (dimension num align : ℕ) : ℕ := dimension / num / align * align

lemma mul_bandSize_le (dimension num align : ℕ) :
    num * bandSize dimension num align ≤ dimension := by
  have hround : bandSize dimension num align ≤ dimension / num := Nat.div_mul_le_self _ _
  exact (Nat.mul_le_mul_left num hround).trans (Nat.mul_div_le dimension num)

lemma mul_bandSize_le_of_le {num i : ℕ} (dimension align : ℕ) (hi : i ≤ num) :
    i * bandSize dimension num align ≤ dimension :=
  (Nat.mul_le_mul_right _ hi).trans (mul_bandSize_le dimension num align)

lemma isGreatest_bandSize (dimension num align : ℕ) :
    IsGreatest {m | align ∣ m ∧ m ≤ dimension / num} (bandSize dimension num align) := by
  refine ⟨⟨Nat.dvd_mul_left _ _, Nat.div_mul_le_self _ _⟩, ?_⟩
  rintro m ⟨⟨k, rfl⟩, hm⟩
  rcases Nat.eq_zero_or_pos align with rfl | hpos
  · rw [Nat.zero_mul]
    exact Nat.zero_le _
  · have hk : k ≤ dimension / num / align := by
      rw [Nat.le_div_iff_mul_le hpos, Nat.mul_comm]
      exact hm
    rw [Nat.mul_comm]
    exact Nat.mul_le_mul_right align hk

lemma lt_mul_bandSize_add {num align : ℕ} (dimension : ℕ) (hnum : 0 < num) (halign : 0 < align) :
    dimension < num * bandSize dimension num align + num * align := by
  have hround : dimension / num < bandSize dimension num align + align := by
    have hdiv := Nat.div_add_mod' (dimension / num) align
    have hmod := Nat.mod_lt (dimension / num) halign
    unfold bandSize
    omega
  have hcut : dimension < num * (dimension / num + 1) := Nat.lt_mul_div_succ dimension hnum
  rw [← Nat.mul_add]
  exact lt_of_lt_of_le hcut (Nat.mul_le_mul_left num hround)

lemma exists_place {num size j : ℕ} (h : j < num * size) :
    ∃ i x, i < num ∧ x < size ∧ j = place size i x := by
  have hpos : 0 < size := Nat.pos_of_ne_zero fun hzero => by simp [hzero] at h
  exact ⟨j / size, j % size, Nat.div_lt_of_lt_mul (by rwa [Nat.mul_comm]), Nat.mod_lt j hpos,
    (Nat.div_add_mod' j size).symm⟩

lemma bandSize_eq_zero_iff {dimension num align : ℕ} (hnum : 0 < num) (halign : 0 < align) :
    bandSize dimension num align = 0 ↔ dimension < num * align := by
  rw [bandSize, Nat.div_div_eq_div_mul, Nat.mul_eq_zero, Nat.div_eq_zero_iff]
  have hpos := Nat.mul_pos hnum halign
  omega

lemma place_bandSize_lt {dimension num align i x : ℕ} (hi : i < num)
    (hx : x < bandSize dimension num align) :
    place (bandSize dimension num align) i x < dimension :=
  lt_of_lt_of_le (place_lt hi hx) (mul_bandSize_le dimension num align)

end StridedPlane
