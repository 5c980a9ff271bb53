import Mathlib.Data.List.Nodup
import Mathlib.Data.List.Flatten
import Mathlib.Tactic.Linarith
import Mathlib.Tactic.Ring

/-!
# Layout of slabs

A slab is a block of bytes with a header, `num` pieces of data of `size` bytes each and a
descriptor for each of them. The lemmas place the pieces and the descriptors inside the slab,
apart from each other and from those of other slabs.
-/

namespace SlabLayout

structure Layout where
  header : ℕ
  descriptor : ℕ
  num : ℕ
  size : ℕ

/-- The `n` bytes at `a` and the `k` bytes at `b` do not overlap. -/
def Apart (a n b k : ℕ) : Prop := a + n ≤ b ∨ b + k ≤ a

instance (a n b k : ℕ) : Decidable (Apart a n b k) :=
  inferInstanceAs (Decidable (a + n ≤ b ∨ b + k ≤ a))

lemma Apart.symm {a n b k : ℕ} (h : Apart a n b k) : Apart b k a n := Or.symm h

lemma Apart.mono {a n b k a' n' b' k' : ℕ} (h : Apart a n b k) (ha : a ≤ a')
    (hn : a' + n' ≤ a + n) (hb : b ≤ b') (hk : b' + k' ≤ b + k) : Apart a' n' b' k' := by
  unfold Apart at h ⊢
  omega

namespace Layout

variable (L : Layout)

def bytes : ℕ := L.header + L.num * (L.size + L.descriptor)

def dataAt (slab i : ℕ) : ℕ := slab + L.header + i * L.size

def descriptorAt (slab i : ℕ) : ℕ := slab + L.header + L.num * L.size + L.descriptor * i

/-- The descriptors of a slab. -/
def descriptors (slab : ℕ) : List ℕ := (List.range L.num).map (L.descriptorAt slab)

/-- The descriptors of all slabs. -/
def allDescriptors (slabs : List ℕ) : List ℕ := slabs.flatMap L.descriptors

variable {L} {slab slab' i j : ℕ}

lemma dataAt_bounds (slab : ℕ) (hi : i < L.num) :
    slab + L.header ≤ L.dataAt slab i ∧
      L.dataAt slab i + L.size ≤ slab + L.header + L.num * L.size := by
  have hle : (i + 1) * L.size ≤ L.num * L.size := Nat.mul_le_mul_right _ hi
  have hsucc : (i + 1) * L.size = i * L.size + L.size := by ring
  unfold dataAt
  omega

lemma descriptorAt_bounds (slab : ℕ) (hi : i < L.num) :
    slab + L.header + L.num * L.size ≤ L.descriptorAt slab i ∧
      L.descriptorAt slab i + L.descriptor ≤ slab + L.bytes := by
  have hle : L.descriptor * (i + 1) ≤ L.descriptor * L.num := Nat.mul_le_mul_left _ hi
  have hsucc : L.descriptor * (i + 1) = L.descriptor * i + L.descriptor := by ring
  have hbytes : L.bytes = L.header + L.num * L.size + L.descriptor * L.num := by
    unfold bytes
    ring
  unfold descriptorAt
  omega

lemma data_in_slab (slab : ℕ) (hi : i < L.num) :
    slab ≤ L.dataAt slab i ∧ L.dataAt slab i + L.size ≤ slab + L.bytes := by
  have hdata := dataAt_bounds slab hi
  have hdesc := descriptorAt_bounds slab hi
  omega

lemma descriptorAt_injective (hd : 0 < L.descriptor) (slab : ℕ) :
    Function.Injective (L.descriptorAt slab) := by
  intro i j h
  have hmul : L.descriptor * i = L.descriptor * j := by
    unfold descriptorAt at h
    omega
  exact Nat.eq_of_mul_eq_mul_left hd hmul

lemma data_apart_of_ne (hij : i ≠ j) :
    Apart (L.dataAt slab i) L.size (L.dataAt slab j) L.size := by
  unfold Apart dataAt
  rcases Nat.lt_or_gt_of_ne hij with h | h
  · left
    have hle : (i + 1) * L.size ≤ j * L.size := Nat.mul_le_mul_right _ h
    have hsucc : (i + 1) * L.size = i * L.size + L.size := by ring
    omega
  · right
    have hle : (j + 1) * L.size ≤ i * L.size := Nat.mul_le_mul_right _ h
    have hsucc : (j + 1) * L.size = j * L.size + L.size := by ring
    omega

lemma data_apart_of_slabs (hslabs : Apart slab L.bytes slab' L.bytes) (hi : i < L.num)
    (hj : j < L.num) : Apart (L.dataAt slab i) L.size (L.dataAt slab' j) L.size := by
  obtain ⟨hlo, hhi⟩ := data_in_slab slab hi
  obtain ⟨hlo', hhi'⟩ := data_in_slab slab' hj
  exact hslabs.mono hlo hhi hlo' hhi'

lemma mem_descriptors {e : ℕ} :
    e ∈ L.descriptors slab ↔ ∃ i < L.num, L.descriptorAt slab i = e := by
  simp [descriptors]

lemma mem_allDescriptors {e : ℕ} {slabs : List ℕ} :
    e ∈ L.allDescriptors slabs ↔ ∃ slab ∈ slabs, ∃ i < L.num, L.descriptorAt slab i = e := by
  simp [allDescriptors, mem_descriptors]

lemma length_allDescriptors (L : Layout) (slabs : List ℕ) :
    (L.allDescriptors slabs).length = slabs.length * L.num := by
  induction slabs with
  | nil => simp [allDescriptors]
  | cons slab slabs ih =>
    have hcons : L.allDescriptors (slab :: slabs) = L.descriptors slab ++ L.allDescriptors slabs :=
      List.flatMap_cons
    rw [hcons, List.length_append, ih, descriptors, List.length_map, List.length_range,
      List.length_cons]
    ring

lemma descriptor_in_slab {e : ℕ} (he : e ∈ L.descriptors slab) :
    slab + L.header ≤ e ∧ e + L.descriptor ≤ slab + L.bytes := by
  obtain ⟨i, hi, rfl⟩ := mem_descriptors.mp he
  have hbounds := descriptorAt_bounds slab hi
  omega

lemma nodup_descriptors (hd : 0 < L.descriptor) (slab : ℕ) : (L.descriptors slab).Nodup :=
  List.nodup_range.map (descriptorAt_injective hd slab)

lemma nodup_allDescriptors (hd : 0 < L.descriptor) {slabs : List ℕ}
    (h : slabs.Pairwise fun slab slab' => Apart slab L.bytes slab' L.bytes) :
    (L.allDescriptors slabs).Nodup := by
  rw [allDescriptors, List.nodup_flatMap]
  refine ⟨fun slab _ => nodup_descriptors hd slab, h.imp ?_⟩
  intro slab slab' hslabs e he he'
  obtain ⟨hlo, hhi⟩ := descriptor_in_slab he
  obtain ⟨hlo', hhi'⟩ := descriptor_in_slab he'
  unfold Apart at hslabs
  omega

end Layout

end SlabLayout
