import GeneralPurposeLibrary.Proofs.PoolRings

/-!
# Expanding a pool

Where the slabs of a pool lie, and what the loop of `expand_pool_list` makes of a new one.
-/

namespace GeneralPurposeLibrary.Proofs
open SlabLayout SlabLayout.Layout

/-- The sizes with which `expand_pool_list` computes in the range of `int`. -/
structure SizesFit (elemSize preallocNum : Int32) : Prop where
  size_nonneg : 0 ≤ elemSize
  num_nonneg : 0 ≤ preallocNum
  product_lt : preallocNum.toInt * elemSize.toInt < 2 ^ 31

lemma SizesFit.toNatClampNeg_mul {elemSize preallocNum : Int32}
    (h : SizesFit elemSize preallocNum) :
    (preallocNum * elemSize).toNatClampNeg =
      preallocNum.toNatClampNeg * elemSize.toNatClampNeg := by
  have hsize : (0 : ℤ) ≤ elemSize.toInt := Int32.le_iff_toInt_le.mp h.size_nonneg
  have hnum : (0 : ℤ) ≤ preallocNum.toInt := Int32.le_iff_toInt_le.mp h.num_nonneg
  have hpos : 0 ≤ preallocNum.toInt * elemSize.toInt := Int.mul_nonneg hnum hsize
  have hbmod : (preallocNum * elemSize).toInt = preallocNum.toInt * elemSize.toInt := by
    rw [Int32.toInt_mul]
    apply Int.bmod_eq_of_le
    · omega
    · have := h.product_lt
      omega
  rw [← Int32.toNat_toInt, ← Int32.toNat_toInt, ← Int32.toNat_toInt, hbmod,
    Int.toNat_mul hnum hsize]

/-! ### Where the slabs are -/

/-- The slabs overlap neither each other nor the pool. -/
structure SlabsPlaced (L : Layout) (pool : ℕ) (slabs : List ℕ) : Prop where
  apart : slabs.Pairwise fun slab slab' => Apart slab L.bytes slab' L.bytes
  off_pool : ∀ slab ∈ slabs, Apart slab L.bytes pool poolListSize

section Placement

variable {m : PoolList} {pool slab : ℕ} {slabs : List ℕ}

lemma heads_off_slab {x : ℕ} (h : Apart slab (poolLayout m).bytes pool poolListSize)
    (hlo : slab ≤ x) (hhi : x < slab + (poolLayout m).bytes) :
    x ≠ slubHead pool ∧ x ≠ freeHead pool ∧ x ≠ availableHead pool := by
  unfold Apart poolListSize at h
  unfold slubHead freeHead availableHead
  unfold listHeadSize at *
  omega

lemma slab_lt_bytes (slab : ℕ) : slab < slab + (poolLayout m).bytes := by
  have hheader : (poolLayout m).header = 16 := rfl
  unfold bytes
  omega

lemma descriptor_lt_bytes {e : ℕ} (he : e ∈ (poolLayout m).descriptors slab) :
    slab < e ∧ e < slab + (poolLayout m).bytes := by
  obtain ⟨hlo, hhi⟩ := descriptor_in_slab he
  have hheader : (poolLayout m).header = 16 := rfl
  have hdescriptor : (poolLayout m).descriptor = 24 := rfl
  omega

lemma notMem_of_fresh {r : PoolRun} {x : ℕ} (h : CallocFresh pool r slab) (hlo : slab ≤ x)
    (hhi : x < slab + (poolLayout r.memory).bytes) :
    x ∉ r.slabs ∧ x ∉ (poolLayout r.memory).allDescriptors r.slabs := by
  obtain ⟨-, -, hslabs⟩ := h
  constructor
  · intro hmem
    have hapart := hslabs x hmem
    have hlt : x < x + (poolLayout r.memory).bytes := slab_lt_bytes x
    unfold Apart at hapart
    omega
  · intro hmem
    obtain ⟨slab', hslab', he⟩ := List.mem_flatMap.mp hmem
    have hapart := hslabs slab' hslab'
    obtain ⟨hlo', hhi'⟩ := descriptor_lt_bytes he
    unfold Apart at hapart
    omega

lemma SlabsPlaced.nodup (h : SlabsPlaced (poolLayout m) pool slabs) :
    ((poolLayout m).allDescriptors slabs).Nodup :=
  nodup_allDescriptors (Nat.succ_pos 23) h.apart

lemma SlabsPlaced.apart_of_ne (h : SlabsPlaced (poolLayout m) pool slabs) {slab' : ℕ}
    (hslab : slab ∈ slabs) (hslab' : slab' ∈ slabs) (hne : slab ≠ slab') :
    Apart slab (poolLayout m).bytes slab' (poolLayout m).bytes := by
  have hsymm : Std.Symm fun a b : ℕ => Apart a (poolLayout m).bytes b (poolLayout m).bytes :=
    ⟨fun _ _ hapart => hapart.symm⟩
  exact h.apart.forall hslab hslab' hne

lemma SlabsPlaced.elem_off (h : SlabsPlaced (poolLayout m) pool slabs) {e : ℕ}
    (he : e ∈ (poolLayout m).allDescriptors slabs) :
    e ∉ slabs ∧ e ≠ slubHead pool ∧ e ≠ freeHead pool ∧ e ≠ availableHead pool := by
  obtain ⟨slab, hslab, hmem⟩ := List.mem_flatMap.mp he
  obtain ⟨hlo, hhi⟩ := descriptor_lt_bytes hmem
  constructor
  · intro heslab
    have hapart := h.apart_of_ne hslab heslab hlo.ne
    have hlt : e < e + (poolLayout m).bytes := slab_lt_bytes e
    unfold Apart at hapart
    omega
  · exact heads_off_slab (h.off_pool slab hslab) hlo.le hhi

end Placement

/-! ### The loop of `expand_pool_list` -/

section Expansion

variable {pool e e' : ℕ} {slubs free available : List ℕ}

lemma OffRings.consFree (h : OffRings pool slubs free available e) (hne : e ≠ e') :
    OffRings pool slubs (e' :: free) available e := by
  obtain ⟨hslub, hfree, havailable⟩ := h
  refine ⟨hslub, ?_, havailable⟩
  simp only [List.mem_cons] at hfree ⊢
  tauto

lemma OffRings.consSlub (h : OffRings pool slubs free available e) (hne : e ≠ e') :
    OffRings pool (e' :: slubs) free available e := by
  obtain ⟨hslub, hfree, havailable⟩ := h
  refine ⟨?_, hfree, havailable⟩
  simp only [List.mem_cons] at hslub ⊢
  tauto

variable (pool) (elem size : ℕ)

lemma expandLoop_eq (i n ptr : ℕ) (m : PoolList) :
    expandLoop pool elem size i n ptr m =
      { m with
        nodes := (expandLoop pool elem size i n ptr m).nodes
        addr := (expandLoop pool elem size i n ptr m).addr } := by
  induction n generalizing i ptr m with
  | zero => rfl
  | succ n ih =>
    rw [expandLoop, ih]

/-- The elements the loop adds from the `i`-th on, the one added last first. -/
lemma expandLoop_rings (i n ptr : ℕ) (m : PoolList)
    (h : PoolRings m.nodes pool slubs free available)
    (hoff : ∀ j, i ≤ j → j < i + n →
      OffRings pool slubs free available (elem + poolElemSize * j)) :
    PoolRings (expandLoop pool elem size i n ptr m).nodes pool slubs
      (((List.range' i n).map fun j => elem + poolElemSize * j).reverse ++ free) available := by
  induction n generalizing i ptr m free with
  | zero => exact h
  | succ n ih =>
    have hfirst := hoff i le_rfl (by omega)
    have hrest := ih (i + 1) (ptr + size)
      { m with
        addr := Function.update m.addr (elem + poolElemSize * i) ptr
        nodes := listAdd m.nodes (elem + poolElemSize * i) (freeHead pool) } (h.addFree hfirst)
      (by
        intro j hij hj
        apply (hoff j (by omega) (by omega)).consFree
        unfold poolElemSize
        omega)
    rw [List.range'_succ, List.map_cons, List.reverse_cons, List.append_assoc]
    exact hrest

lemma expandLoop_addr_of_ne (i n ptr : ℕ) (m : PoolList)
    (he : ∀ j, i ≤ j → j < i + n → e ≠ elem + poolElemSize * j) :
    (expandLoop pool elem size i n ptr m).addr e = m.addr e := by
  induction n generalizing i ptr m with
  | zero => rfl
  | succ n ih =>
    rw [expandLoop, ih]
    · exact Function.update_of_ne (he i le_rfl (by omega)) _ _
    · intro j hij hj
      exact he j (by omega) (by omega)

lemma expandLoop_addr (i n ptr j : ℕ) (m : PoolList) (hj : j < n) :
    (expandLoop pool elem size i n ptr m).addr (elem + poolElemSize * (i + j)) =
      ptr + j * size := by
  induction n generalizing i ptr j m with
  | zero => omega
  | succ n ih =>
    rw [expandLoop]
    cases j with
    | zero =>
      rw [expandLoop_addr_of_ne pool elem size]
      · simp
      · intro k hik hk
        unfold poolElemSize
        omega
    | succ j =>
      have hrest := ih (i + 1) (ptr + size) j
        { m with
          addr := Function.update m.addr (elem + poolElemSize * i) ptr
          nodes := listAdd m.nodes (elem + poolElemSize * i) (freeHead pool) } (by omega)
      have hindex : i + (j + 1) = i + 1 + j := by omega
      rw [hindex, hrest]
      ring

end Expansion

end GeneralPurposeLibrary.Proofs
