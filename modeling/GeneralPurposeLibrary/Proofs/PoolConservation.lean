import GeneralPurposeLibrary.Proofs.PoolInvariant

/-!
# Conservation of the elements of a pool

After every run each element is in one place, the available elements are in the order in which
they were put, and the data of the elements do not overlap.
-/

namespace GeneralPurposeLibrary.Proofs
open SlabLayout SlabLayout.Layout GuardedRuns

variable {pool : ℕ} {memory : PoolList} {elemSize maxSlub preallocNum : Int32} {r r' : PoolRun}
  {calls : List PoolCall}

/-- The elements put on the available list, in the order of the calls. -/
def putElems (calls : List PoolCall) : List ℕ :=
  calls.flatMap fun
    | .putAvailable elem => [elem]
    | _ => []

lemma available_sublist_step {call : PoolCall} (hstep : poolStep pool r call = some r') :
    r'.available.Sublist (r.available ++ putElems [call]) := by
  obtain ⟨calloc, rfl, -, rfl⟩ | ⟨e, rfl, -, rfl⟩ | ⟨rfl, rfl⟩ | ⟨e, rfl, -, rfl⟩ :=
    poolStep_cases hstep
  · exact List.sublist_append_left _ _
  · exact List.Sublist.refl _
  · exact List.sublist_append_left _ _
  · exact List.erase_sublist.trans (List.sublist_append_left _ _)

lemma available_sublist (hrun : run (poolStep pool) r calls = some r') :
    r'.available.Sublist (r.available ++ putElems calls) := by
  induction calls generalizing r with
  | nil =>
    cases hrun
    exact List.sublist_append_left _ _
  | cons call calls ih =>
    obtain ⟨r₁, hstep, hrest⟩ := exists_step_of_run_cons hrun
    have hfirst := (available_sublist_step hstep).append_right (putElems calls)
    have hputs : putElems (call :: calls) = putElems [call] ++ putElems calls := by
      simp [putElems]
    rw [hputs, ← List.append_assoc]
    exact (ih hrest).trans hfirst

/-- The data of every element lies in its slab, off the list header and the elements of the
slab, and off the data of every other element. -/
structure DataPlaced (r : PoolRun) : Prop where
  inside : ∀ slab ∈ r.slabs, ∀ e ∈ (poolLayout r.memory).descriptors slab,
    slab ≤ r.memory.addr e ∧
      r.memory.addr e + (poolLayout r.memory).size ≤ slab + (poolLayout r.memory).bytes
  off_header : ∀ slab ∈ r.slabs, ∀ e ∈ (poolLayout r.memory).descriptors slab,
    Apart (r.memory.addr e) (poolLayout r.memory).size slab listHeadSize
  off_elems : ∀ slab ∈ r.slabs, ∀ e ∈ (poolLayout r.memory).descriptors slab,
    ∀ e' ∈ (poolLayout r.memory).descriptors slab,
      Apart (r.memory.addr e) (poolLayout r.memory).size e' poolElemSize
  disjoint : ∀ e ∈ (poolLayout r.memory).allDescriptors r.slabs,
    ∀ e' ∈ (poolLayout r.memory).allDescriptors r.slabs, e ≠ e' →
      Apart (r.memory.addr e) (poolLayout r.memory).size (r.memory.addr e')
        (poolLayout r.memory).size

lemma Conserved.exists_index {free : List ℕ} (h : Conserved pool r free) {slab e : ℕ}
    (hslab : slab ∈ r.slabs) (he : e ∈ (poolLayout r.memory).descriptors slab) :
    ∃ i < (poolLayout r.memory).num, (poolLayout r.memory).descriptorAt slab i = e ∧
      r.memory.addr e = (poolLayout r.memory).dataAt slab i := by
  obtain ⟨i, hi, rfl⟩ := mem_descriptors.mp he
  exact ⟨i, hi, rfl, h.addr slab hslab i hi⟩

lemma Conserved.dataPlaced {free : List ℕ} (h : Conserved pool r free) : DataPlaced r := by
  constructor
  case inside =>
    intro slab hslab e he
    obtain ⟨i, hi, -, haddr⟩ := h.exists_index hslab he
    rw [haddr]
    exact data_in_slab slab hi
  case off_header =>
    intro slab hslab e he
    obtain ⟨i, hi, -, haddr⟩ := h.exists_index hslab he
    rw [haddr]
    exact Or.inr (dataAt_bounds slab hi).1
  case off_elems =>
    intro slab hslab e he e' he'
    obtain ⟨i, hi, -, haddr⟩ := h.exists_index hslab he
    obtain ⟨j, hj, rfl, -⟩ := h.exists_index hslab he'
    rw [haddr]
    exact Or.inl ((dataAt_bounds slab hi).2.trans (descriptorAt_bounds slab hj).1)
  case disjoint =>
    intro e he e' he' hne
    obtain ⟨slab, hslab, hmem⟩ := List.mem_flatMap.mp he
    obtain ⟨slab', hslab', hmem'⟩ := List.mem_flatMap.mp he'
    obtain ⟨i, hi, hei, haddr⟩ := h.exists_index hslab hmem
    obtain ⟨j, hj, hej, haddr'⟩ := h.exists_index hslab' hmem'
    rw [haddr, haddr']
    by_cases heq : slab = slab'
    · subst heq
      apply data_apart_of_ne
      rintro rfl
      exact hne (hei.symm.trans hej)
    · exact data_apart_of_slabs (h.placed.apart_of_ne hslab hslab' heq) hi hj

lemma Conserved.getAvailable {free : List ℕ} (h : Conserved pool r free) :
    poolListGetAvailableElem pool r.memory = r.available.head? := by
  have hring := h.rings.available_ring
  unfold poolListGetAvailableElem
  cases havailable : r.available with
  | nil =>
    rw [havailable] at hring
    exact if_pos (hring.listEmpty_iff.mpr rfl)
  | cons e rest =>
    rw [havailable] at hring
    obtain ⟨hempty, hfirst⟩ := hring.first
    rw [if_neg hempty, hfirst]
    rfl

/-- Where the elements of the pool are after some calls, with `free` on its free list. -/
structure PoolAccounts (pool : ℕ) (calls : List PoolCall) (r : PoolRun) (free : List ℕ) : Prop where
  free_list : OnRing r.memory.nodes (freeHead pool) free
  available_list : OnRing r.memory.nodes (availableHead pool) r.available
  elems : (free ++ r.available ++ r.held).Perm ((poolLayout r.memory).allDescriptors r.slabs)
  once : ((poolLayout r.memory).allDescriptors r.slabs).Nodup
  put_order : r.available.Sublist (putElems calls)
  first_available : poolListGetAvailableElem pool r.memory = r.available.head?
  data : DataPlaced r

/-- After every run each element of each slab is on the free list, on the available list or
held by the caller, the available elements are in the order they were put, and the data of the
elements do not overlap. `free_num` is the length of the free list as an `int`. -/
theorem pool_conserves_elements (pool : ℕ) (memory : PoolList)
    (elemSize maxSlub preallocNum : Int32) (hsizes : SizesFit elemSize preallocNum)
    (calls : List PoolCall) (r : PoolRun)
    (hrun : run (poolStep pool) (initPoolRun pool memory elemSize maxSlub preallocNum) calls =
      some r) :
    ∃ free, PoolAccounts pool calls r free ∧ r.memory.freeNum = Int32.ofNat free.length ∧
      (free.length < 2 ^ 31 → r.memory.freeNum.toInt = free.length) := by
  obtain ⟨free, h⟩ := run_conserved hsizes hrun
  refine ⟨free, ?_, h.free_num, ?_⟩
  · constructor
    case free_list => exact h.rings.free_ring
    case available_list => exact h.rings.available_ring
    case elems => exact h.perm
    case once => exact h.placed.nodup
    case put_order => exact available_sublist hrun
    case first_available => exact h.getAvailable
    case data => exact h.dataPlaced
  · intro hlt
    rw [h.free_num]
    exact Int32.toInt_ofNat_of_lt hlt

def zeroPool : PoolList := ⟨fun _ => ⟨0, 0⟩, fun _ => 0, 0, 0, 0, 0, 0⟩

/-- A slab of two elements at 4096 is used up, the first element comes back through the
available list, and a second slab cannot be allocated. -/
def twoElementCalls : List PoolCall :=
  [.getFree (some 4096), .getFree none, .getFree none, .putAvailable 4152, .getAvailable,
    .putFree 4152, .getFree none]

theorem two_elements_conserved :
    ∃ r, run (poolStep 16) (initPoolRun 16 zeroPool 8 (-1) 2) twoElementCalls = some r ∧
      ∃ free, PoolAccounts 16 twoElementCalls r free ∧
        r.memory.freeNum = Int32.ofNat free.length ∧
        (free.length < 2 ^ 31 → r.memory.freeNum.toInt = free.length) := by
  obtain ⟨r, hr⟩ := Option.isSome_iff_exists.mp
    (show (run (poolStep 16) (initPoolRun 16 zeroPool 8 (-1) 2) twoElementCalls).isSome = true by
      decide)
  exact ⟨r, hr, pool_conserves_elements 16 zeroPool 8 (-1) 2 ⟨by decide, by decide, by decide⟩
    twoElementCalls r hr⟩

/-! ### Runs with any number of elements -/

lemma exists_callocFresh (pool : ℕ) (r : PoolRun) : ∃ slab, CallocFresh pool r slab := by
  let last := r.slabs.max?.getD 0
  refine ⟨1 + pool + poolListSize + last + (poolLayout r.memory).bytes, ?_, ?_, ?_⟩
  · omega
  · right
    omega
  · intro slab hslab
    right
    have hle : slab ≤ last := List.le_max?_getD_of_mem hslab
    omega

lemma exists_held
    (hget : ∀ calls r slab,
      run (poolStep pool) (initPoolRun pool memory elemSize maxSlub preallocNum) calls = some r →
        CallocFresh pool r slab → (poolListGetFreeElem pool r.memory (some slab)).1 ≠ none)
    (n : ℕ) :
    ∃ calls r,
      run (poolStep pool) (initPoolRun pool memory elemSize maxSlub preallocNum) calls = some r ∧
        r.held.length = n ∧ r.available = [] := by
  induction n with
  | zero => exact ⟨[], _, rfl, rfl, rfl⟩
  | succ n ih =>
    obtain ⟨calls, r, hrun, hheld, havailable⟩ := ih
    obtain ⟨slab, hfresh⟩ := exists_callocFresh pool r
    obtain ⟨e, he⟩ := Option.ne_none_iff_exists'.mp (hget calls r slab hrun hfresh)
    have hstep := poolStep_getFree (callocFresh_some hfresh)
    refine ⟨_, _, run_concat hrun hstep, ?_, havailable⟩
    rw [afterGetFree, he]
    simp [hheld]

lemma exists_all_freed (n : ℕ) {r₀ : PoolRun} (hrun : run (poolStep pool) r₀ calls = some r)
    (hheld : r.held.length = n) (havailable : r.available = []) :
    ∃ calls' r', run (poolStep pool) r₀ calls' = some r' ∧ r'.held = [] ∧ r'.available = [] ∧
      r'.slabs = r.slabs ∧ poolLayout r'.memory = poolLayout r.memory := by
  induction n generalizing calls r with
  | zero => exact ⟨calls, r, hrun, List.length_eq_zero_iff.mp hheld, havailable, rfl, rfl⟩
  | succ n ih =>
    obtain ⟨e, held, hcons⟩ := List.exists_cons_of_length_eq_add_one hheld
    have hput : poolStep pool r (.putAvailable e) = some (afterPutAvailable pool r e) :=
      poolStep_putAvailable (by simp [hcons])
    have hfree : poolStep pool (afterPutAvailable pool r e) (.putFree e) =
        some (afterPutFree pool (afterPutAvailable pool r e) e) :=
      poolStep_putFree (List.mem_append_right _ (List.mem_singleton_self e))
    have hlength : (r.held.erase e).length = n := by
      rw [hcons, List.length_cons] at hheld
      rw [hcons, List.erase_cons_head]
      omega
    have hnone : (r.available ++ [e]).erase e = [] := by simp [havailable]
    have hrest := ih (run_concat (run_concat hrun hput) hfree) hlength hnone
    exact hrest

/-- When the caller has taken and put back 2³¹ elements, the counter of free elements is not
the length of their list. -/
theorem free_num_overflows :
    ∃ calls r free, run (poolStep 16) (initPoolRun 16 zeroPool 0 (-1) 1) calls = some r ∧
      OnRing r.memory.nodes (freeHead 16) free ∧ r.memory.freeNum.toInt ≠ free.length := by
  have hsizes : SizesFit 0 1 := ⟨by decide, by decide, by decide⟩
  have hget : ∀ calls r slab,
      run (poolStep 16) (initPoolRun 16 zeroPool 0 (-1) 1) calls = some r →
        CallocFresh 16 r slab → (poolListGetFreeElem 16 r.memory (some slab)).1 ≠ none := by
    intro calls r slab hrun hfresh hnone
    obtain ⟨free, h⟩ := run_conserved hsizes hrun
    have hconf := run_configured hsizes hrun
    have hnum : 0 < r.memory.preallocNum.toNatClampNeg := by
      rw [hconf.prealloc_num]
      decide
    have hmay : mayExpand r.memory = true := by
      unfold mayExpand
      rw [hconf.max_slub]
      rfl
    exact Option.some_ne_none slab ((h.getFree_none hnum (callocFresh_some hfresh) hnone).2 hmay)
  obtain ⟨calls, r, hrun, hheld, havailable⟩ := exists_held hget (2 ^ 31)
  obtain ⟨calls', r', hrun', hheld', havailable', hslabs, hlayout⟩ :=
    exists_all_freed (2 ^ 31) hrun hheld havailable
  obtain ⟨free, h⟩ := run_conserved hsizes hrun
  obtain ⟨free', h'⟩ := run_conserved hsizes hrun'
  refine ⟨calls', r', free', hrun', h'.rings.free_ring, ?_⟩
  have hlength := h.perm.length_eq
  have hlength' := h'.perm.length_eq
  rw [hslabs, hlayout, ← hlength] at hlength'
  simp only [List.length_append, hheld', havailable', havailable, hheld,
    List.length_nil] at hlength'
  have hlt := r'.memory.freeNum.toInt_lt
  omega

end GeneralPurposeLibrary.Proofs
