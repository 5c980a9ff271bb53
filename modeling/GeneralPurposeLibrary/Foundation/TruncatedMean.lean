import Mathlib.Algebra.Order.BigOperators.Group.List
import Mathlib.Tactic.Linarith
import Mathlib.Tactic.Ring

/-!
# Means merged with truncation

A mean of `n` samples is kept as an integer and merged with a batch of `k` further samples.
Every merge rounds down, so the kept value never leaves the range of the samples and never
exceeds their exact mean; what it falls short by grows with the number of merges.
-/

namespace TruncatedMean

variable {average n batch k : ℤ}

/-- The mean of `n` samples of mean `average` and of `k` samples of sum `batch`. -/
def merge (average n batch k : ℤ) : ℤ := (average * n + batch) / (n + k)

lemma merge_zero_samples (average batch k : ℤ) : merge average 0 batch k = batch / k := by
  simp [merge]

lemma le_merge {lo : ℤ} (hn : 0 ≤ n) (hk : 0 < k) (ha : 0 < n → lo ≤ average)
    (hb : lo * k ≤ batch) : lo ≤ merge average n batch k := by
  have hprod : lo * n ≤ average * n := by
    rcases hn.eq_or_lt with rfl | hpos
    · simp
    · exact mul_le_mul_of_nonneg_right (ha hpos) hn
  apply Int.le_ediv_of_mul_le (by omega)
  calc
    lo * (n + k) = lo * n + lo * k := by ring
    _ ≤ average * n + batch := by omega

lemma merge_le {hi : ℤ} (hn : 0 ≤ n) (hk : 0 < k) (ha : 0 < n → average ≤ hi)
    (hb : batch ≤ hi * k) : merge average n batch k ≤ hi := by
  have hprod : average * n ≤ hi * n := by
    rcases hn.eq_or_lt with rfl | hpos
    · simp
    · exact mul_le_mul_of_nonneg_right (ha hpos) hn
  apply Int.ediv_le_of_le_mul (by omega)
  calc
    average * n + batch ≤ hi * n + hi * k := by omega
    _ = hi * (n + k) := by ring

/-- What the exact total exceeds the kept mean by, counted over all samples. -/
def deficit (total average n : ℤ) : ℤ := total - average * n

lemma deficit_merge (total : ℤ) :
    deficit (total + batch) (merge average n batch k) (n + k) =
      deficit total average n + (average * n + batch) % (n + k) := by
  have hdiv := Int.mul_ediv_add_emod (average * n + batch) (n + k)
  unfold deficit merge
  rw [mul_comm (n + k)] at hdiv
  omega

lemma deficit_merge_nonneg {total : ℤ} (hn : 0 ≤ n) (hk : 0 < k)
    (hd : 0 ≤ deficit total average n) :
    0 ≤ deficit (total + batch) (merge average n batch k) (n + k) := by
  have hmod : 0 ≤ (average * n + batch) % (n + k) := Int.emod_nonneg _ (by omega)
  rw [deficit_merge]
  omega

lemma deficit_merge_le {total : ℤ} (hn : 0 ≤ n) (hk : 0 < k) :
    deficit (total + batch) (merge average n batch k) (n + k) ≤
      deficit total average n + (n + k - 1) := by
  have hmod : (average * n + batch) % (n + k) < n + k := Int.emod_lt_of_pos _ (by omega)
  rw [deficit_merge]
  omega

end TruncatedMean
