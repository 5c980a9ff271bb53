import GeneralPurposeLibrary.Proofs.PoolConservation

/-!
# The slab limit of a pool

`pool_list_init` leaves `cur_slub` as it finds it, and `pool_list_get_free_elem` counts the
slabs from there on.
-/

namespace GeneralPurposeLibrary.Proofs
open SlabLayout SlabLayout.Layout GuardedRuns

/-- A call of `pool_list_get_free_elem` tries to allocate a slab and cannot. -/
def AllocationFails (pool : ℕ) (m : PoolList) (calloc : Option ℕ) : Prop :=
  listEmpty m.nodes (freeHead pool) = true ∧ mayExpand m = true ∧ calloc = none

/-- There are at most `limit` slabs, and an element is refused only when there are `limit` slabs
and no free element, or when an allocation fails. -/
structure SlabLimit (pool limit : ℕ) (r : PoolRun) : Prop where
  slabs_le : r.slabs.length ≤ limit
  refused : ∀ calloc, (∀ slab ∈ calloc, CallocFresh pool r slab) →
    (poolListGetFreeElem pool r.memory calloc).1 = none →
      (r.slabs.length = limit ∧ OnRing r.memory.nodes (freeHead pool) []) ∨
        AllocationFails pool r.memory calloc

/-- The slabs allocated when `start` were counted before the run. -/
def CountedSlabs (start limit : ℕ) (r : PoolRun) : Prop :=
  r.slabs = [] ∨ start + r.slabs.length ≤ limit

section Counting

variable {pool : ℕ} {m₀ : PoolList} {maxSlub : Int32} {r r' : PoolRun}

/-- The comparison of `cur_slub` with `max_slub` counts the slabs of the run. -/
lemma mayExpand_iff (maxSlub : Int32) (h : Configured m₀ r)
    (hlimit : m₀.maxSlub = maxSlub.toUInt32) (hmax : 0 ≤ maxSlub)
    (hcount : CountedSlabs m₀.curSlub.toUInt32.toNat maxSlub.toNatClampNeg r) :
    mayExpand r.memory = true ↔
      m₀.curSlub.toUInt32.toNat + r.slabs.length < maxSlub.toNatClampNeg := by
  have hbound : maxSlub.toNatClampNeg < 2 ^ 31 := maxSlub.toNatClampNeg_lt
  have htoNat : r.memory.maxSlub.toNat = maxSlub.toNatClampNeg := by
    rw [h.max_slub, hlimit, Int32.toNat_toUInt32_of_le hmax]
  have hlimited : r.memory.maxSlub ≠ -1 := by
    intro heq
    rw [heq] at htoNat
    have : (-1 : UInt32).toNat = 2 ^ 32 - 1 := rfl
    omega
  have hcur : r.memory.curSlub.toUInt32.toNat = m₀.curSlub.toUInt32.toNat + r.slabs.length := by
    rw [h.cur_slub, Int32.toUInt32_add, Int32.toUInt32_ofNat', UInt32.toNat_add,
      UInt32.toNat_ofNat', Nat.add_mod_mod]
    apply Nat.mod_eq_of_lt
    have hstart := m₀.curSlub.toUInt32.toNat_lt
    rcases hcount with hnil | hle
    · rw [hnil, List.length_nil]
      omega
    · omega
  rw [mayExpand, Bool.or_eq_true, beq_iff_eq, decide_eq_true_iff, UInt32.lt_iff_toNat_lt, hcur,
    htoNat]
  exact or_iff_right hlimited

lemma countedSlabs_step (h : Configured m₀ r) (hlimit : m₀.maxSlub = maxSlub.toUInt32)
    (hmax : 0 ≤ maxSlub)
    (hcount : CountedSlabs m₀.curSlub.toUInt32.toNat maxSlub.toNatClampNeg r) {call : PoolCall}
    (hstep : poolStep pool r call = some r') :
    CountedSlabs m₀.curSlub.toUInt32.toNat maxSlub.toNatClampNeg r' := by
  obtain ⟨calloc, -, -, rfl⟩ | ⟨e, -, -, rfl⟩ | ⟨-, rfl⟩ | ⟨e, -, -, rfl⟩ := poolStep_cases hstep
  · cases hslab : allocates pool r.memory calloc with
    | none =>
      rw [CountedSlabs, afterGetFree, hslab]
      exact hcount
    | some slab =>
      have hlt := (mayExpand_iff maxSlub h hlimit hmax hcount).mp (allocates_eq_some hslab).2.1
      rw [CountedSlabs, afterGetFree, hslab]
      right
      rw [Option.toList_some, List.singleton_append, List.length_cons]
      omega
  · exact hcount
  · exact hcount
  · exact hcount

end Counting

section Runs

variable {pool : ℕ} {memory : PoolList} {elemSize maxSlub preallocNum : Int32} {r : PoolRun}
  {calls : List PoolCall}

lemma run_countedSlabs (hsizes : SizesFit elemSize preallocNum) (hmax : 0 ≤ maxSlub)
    (hrun : run (poolStep pool) (initPoolRun pool memory elemSize maxSlub preallocNum) calls =
      some r) :
    CountedSlabs memory.curSlub.toUInt32.toNat maxSlub.toNatClampNeg r := by
  let m₀ := (initPoolRun pool memory elemSize maxSlub preallocNum).memory
  let I : PoolRun → Prop := fun r =>
    Configured m₀ r ∧ CountedSlabs m₀.curSlub.toUInt32.toNat maxSlub.toNatClampNeg r
  have hinit : I (initPoolRun pool memory elemSize maxSlub preallocNum) :=
    ⟨configured_init, Or.inl rfl⟩
  have hstep : ∀ r call r', I r → poolStep pool r call = some r' → I r' := by
    intro r call r' h hstep
    constructor
    · apply poolStep_configured h.1 _ hstep
      rw [h.1.elem_size, h.1.prealloc_num]
      exact hsizes
    · exact countedSlabs_step h.1 rfl hmax h.2 hstep
  exact (invariant_of_run hstep hinit hrun).2

lemma num_of_configured
    (h : Configured (initPoolRun pool memory elemSize maxSlub preallocNum).memory r) :
    (poolLayout r.memory).num = preallocNum.toNatClampNeg := by
  rw [poolLayout, h.prealloc_num]
  rfl

lemma toNatClampNeg_pos {n : Int32} (h : 1 ≤ n) : 0 < n.toNatClampNeg := by
  have hle : (1 : ℤ) ≤ n.toInt := Int32.le_iff_toInt_le.mp h
  rw [← Int32.toNat_toInt]
  omega

lemma toNatClampNeg_ne_zero {n : Int32} (hn : 0 ≤ n) (hne : n ≠ 0) : n.toNatClampNeg ≠ 0 := by
  intro hzero
  apply hne
  rw [← Int32.ofNat_toNatClampNeg n hn, hzero]
  rfl

lemma toNat_toUInt32_ne_zero {n : Int32} (hne : n ≠ 0) : n.toUInt32.toNat ≠ 0 := by
  intro hzero
  have hunsigned : n.toUInt32 = 0 := UInt32.toNat_inj.mp hzero
  apply hne
  rw [← Int32.toInt32_toUInt32 n, hunsigned]
  rfl

lemma slabLimit_of_run (hsizes : SizesFit elemSize preallocNum) (hmax : 0 ≤ maxSlub)
    (hnum : 1 ≤ preallocNum) (hzero : memory.curSlub = 0 ∨ maxSlub = 0)
    (hrun : run (poolStep pool) (initPoolRun pool memory elemSize maxSlub preallocNum) calls =
      some r) :
    SlabLimit pool maxSlub.toNatClampNeg r := by
  obtain ⟨free, h⟩ := run_conserved hsizes hrun
  have hconf := run_configured hsizes hrun
  have hcount := run_countedSlabs hsizes hmax hrun
  have hcond : mayExpand r.memory = true ↔
      memory.curSlub.toUInt32.toNat + r.slabs.length < maxSlub.toNatClampNeg := by
    have hiff := mayExpand_iff maxSlub hconf rfl hmax hcount
    exact hiff
  have hpos : 0 < (poolLayout r.memory).num := by
    rw [num_of_configured hconf]
    exact toNatClampNeg_pos hnum
  have hstart : memory.curSlub.toUInt32.toNat = 0 ∨ maxSlub.toNatClampNeg = 0 := by
    rcases hzero with hcur | hlimit
    · left
      rw [hcur]
      rfl
    · right
      rw [hlimit]
      rfl
  have hle : r.slabs.length ≤ maxSlub.toNatClampNeg := by
    rcases hcount with hnil | hle
    · rw [hnil]
      exact Nat.zero_le _
    · omega
  refine ⟨hle, ?_⟩
  intro calloc hfresh hnone
  obtain ⟨rfl, hcalloc⟩ := h.getFree_none hpos hfresh hnone
  by_cases hmay : mayExpand r.memory = true
  · right
    exact ⟨h.rings.free_ring.listEmpty_iff.mpr rfl, hmay, hcalloc hmay⟩
  · left
    rw [hcond] at hmay
    refine ⟨?_, h.rings.free_ring⟩
    omega

/-- With slabs counted before the first one, the pool refuses an element too early. -/
lemma curSlub_zero_of_slabLimit (hsizes : SizesFit elemSize preallocNum) (hmax : 0 ≤ maxSlub)
    (hall : ∀ calls r,
      run (poolStep pool) (initPoolRun pool memory elemSize maxSlub preallocNum) calls = some r →
        SlabLimit pool maxSlub.toNatClampNeg r) :
    memory.curSlub = 0 ∨ maxSlub = 0 := by
  by_contra hnot
  rw [not_or] at hnot
  have hstart := toNat_toUInt32_ne_zero hnot.1
  have hlimit := toNatClampNeg_ne_zero hmax hnot.2
  have hget : ∀ calls r slab,
      run (poolStep pool) (initPoolRun pool memory elemSize maxSlub preallocNum) calls = some r →
        CallocFresh pool r slab → (poolListGetFreeElem pool r.memory (some slab)).1 ≠ none := by
    intro calls r slab hrun hfresh hnone
    have hrefused := (hall calls r hrun).refused (some slab) (callocFresh_some hfresh) hnone
    rcases hrefused with ⟨hlength, -⟩ | ⟨-, -, hfail⟩
    · rcases run_countedSlabs hsizes hmax hrun with hnil | hle
      · rw [hnil] at hlength
        exact hlimit hlength.symm
      · omega
    · cases hfail
  obtain ⟨calls, r, hrun, hheld, -⟩ :=
    exists_held hget (maxSlub.toNatClampNeg * preallocNum.toNatClampNeg + 1)
  obtain ⟨free, h⟩ := run_conserved hsizes hrun
  have hlength := h.perm.length_eq
  rw [length_allDescriptors, List.length_append, hheld,
    num_of_configured (run_configured hsizes hrun)] at hlength
  have hmul : r.slabs.length * preallocNum.toNatClampNeg ≤
      maxSlub.toNatClampNeg * preallocNum.toNatClampNeg :=
    Nat.mul_le_mul_right _ (hall calls r hrun).slabs_le
  omega

/-- Every reached state keeps the limit exactly if `cur_slub` is zero before
`pool_list_init` or the limit is zero. -/
theorem slab_limit_iff_cur_slub_zero (pool : ℕ) (memory : PoolList)
    (elemSize maxSlub preallocNum : Int32) (hsizes : SizesFit elemSize preallocNum)
    (hmax : 0 ≤ maxSlub) (hnum : 1 ≤ preallocNum) :
    (∀ calls r,
        run (poolStep pool) (initPoolRun pool memory elemSize maxSlub preallocNum) calls = some r →
          SlabLimit pool maxSlub.toNatClampNeg r) ↔
      memory.curSlub = 0 ∨ maxSlub = 0 := by
  constructor
  · intro hall
    exact curSlub_zero_of_slabLimit hsizes hmax hall
  · intro hzero calls r hrun
    exact slabLimit_of_run hsizes hmax hnum hzero hrun

theorem two_elements_within_limit :
    ∃ r, run (poolStep 16) (initPoolRun 16 zeroPool 8 1 2) twoElementCalls = some r ∧
      SlabLimit 16 1 r := by
  obtain ⟨r, hr⟩ := Option.isSome_iff_exists.mp
    (show (run (poolStep 16) (initPoolRun 16 zeroPool 8 1 2) twoElementCalls).isSome = true by
      decide)
  have hsizes : SizesFit 8 2 := ⟨by decide, by decide, by decide⟩
  have hlimit := slab_limit_iff_cur_slub_zero 16 zeroPool 8 1 2 hsizes (by decide) (by decide)
  exact ⟨r, hr, hlimit.mpr (Or.inl rfl) twoElementCalls r hr⟩

/-- A pool on memory that holds 1 at `cur_slub` refuses its first element. -/
theorem dirty_pool_refuses_first_element :
    ∃ calls r, run (poolStep 16) (initPoolRun 16 { zeroPool with curSlub := 1 } 8 1 1) calls =
      some r ∧ ¬SlabLimit 16 1 r := by
  refine ⟨[], _, rfl, ?_⟩
  intro h
  have hfresh : CallocFresh 16 (initPoolRun 16 { zeroPool with curSlub := 1 } 8 1 1) 4096 := by
    decide
  have hrefused := h.refused (some 4096) (callocFresh_some hfresh) (by decide)
  rcases hrefused with ⟨hlength, -⟩ | ⟨-, -, hfail⟩
  · cases hlength
  · cases hfail

end Runs

end GeneralPurposeLibrary.Proofs
