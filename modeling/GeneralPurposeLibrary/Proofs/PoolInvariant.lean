import GeneralPurposeLibrary.Foundation.GuardedRuns
import GeneralPurposeLibrary.Proofs.PoolExpansion

/-!
# The invariant of a pool

Every element of every slab is on the free list, on the available list or in the hands of the
caller. `Conserved pool r free` says so of a run, where `free` are the elements on the free
list; every call keeps it. `Configured` follows the members of the pool that limit it.
-/

namespace GeneralPurposeLibrary.Proofs
open SlabLayout SlabLayout.Layout GuardedRuns

/-- The elements of all slabs are spread over the two lists and the caller. -/
structure Conserved (pool : ℕ) (r : PoolRun) (free : List ℕ) : Prop where
  sizes : SizesFit r.memory.elemSize r.memory.preallocNum
  placed : SlabsPlaced (poolLayout r.memory) pool r.slabs
  rings : PoolRings r.memory.nodes pool r.slabs free r.available
  free_num : r.memory.freeNum = Int32.ofNat free.length
  perm : (free ++ r.available ++ r.held).Perm ((poolLayout r.memory).allDescriptors r.slabs)
  addr : ∀ slab ∈ r.slabs, ∀ i < (poolLayout r.memory).num,
    r.memory.addr ((poolLayout r.memory).descriptorAt slab i) = (poolLayout r.memory).dataAt slab i

/-- The pool after a call of `expand_pool_list` from `pool_list_get_free_elem`. -/
def expandedBy (pool : ℕ) (m : PoolList) (slab : ℕ) : PoolList :=
  let m := (expandPoolList pool m m.preallocNum m.elemSize (some slab)).2
  { m with curSlub := m.curSlub + 1 }

/-- The second half of `pool_list_get_free_elem`. -/
def takeFirstFree (pool : ℕ) (m : PoolList) : Option ℕ × PoolList :=
  if listEmpty m.nodes (freeHead pool) then (none, m)
  else
    let elem := listFirstEntry m.nodes (freeHead pool)
    (some elem, { m with nodes := klistDel m.nodes elem, freeNum := m.freeNum - 1 })

lemma poolListGetFreeElem_eq (pool : ℕ) (m : PoolList) (calloc : Option ℕ) :
    poolListGetFreeElem pool m calloc =
      takeFirstFree pool ((allocates pool m calloc).elim m (expandedBy pool m)) := by
  unfold poolListGetFreeElem allocates
  cases calloc with
  | none =>
    cases listEmpty m.nodes (freeHead pool) && mayExpand m <;> rfl
  | some slab =>
    cases listEmpty m.nodes (freeHead pool) && mayExpand m <;> rfl

/-! ### Steps -/

section Successors

variable (pool : ℕ) (r : PoolRun)

def afterGetFree (calloc : Option ℕ) : PoolRun where
  memory := (poolListGetFreeElem pool r.memory calloc).2
  slabs := (allocates pool r.memory calloc).toList ++ r.slabs
  held := (poolListGetFreeElem pool r.memory calloc).1.toList ++ r.held
  available := r.available

def afterPutAvailable (elem : ℕ) : PoolRun where
  memory := poolListPutAvailableElem pool r.memory elem
  slabs := r.slabs
  held := r.held.erase elem
  available := r.available ++ [elem]

def afterPutFree (elem : ℕ) : PoolRun where
  memory := poolListPutFreeElem pool r.memory elem
  slabs := r.slabs
  held := r.held
  available := r.available.erase elem

variable {pool r} {r' : PoolRun}

lemma callocFresh_some {slab : ℕ} (h : CallocFresh pool r slab) :
    ∀ slab' ∈ some slab, CallocFresh pool r slab' := by
  rintro slab' ⟨⟩
  exact h

lemma poolStep_getFree {calloc : Option ℕ} (h : ∀ slab ∈ calloc, CallocFresh pool r slab) :
    poolStep pool r (.getFree calloc) = some (afterGetFree pool r calloc) :=
  if_pos h

lemma poolStep_putAvailable {e : ℕ} (he : e ∈ r.held) :
    poolStep pool r (.putAvailable e) = some (afterPutAvailable pool r e) :=
  if_pos he

lemma poolStep_putFree {e : ℕ} (he : e ∈ r.available) :
    poolStep pool r (.putFree e) = some (afterPutFree pool r e) :=
  if_pos he

/-- What a step can do. -/
lemma poolStep_cases {call : PoolCall} (hstep : poolStep pool r call = some r') :
    (∃ calloc, call = .getFree calloc ∧ (∀ slab ∈ calloc, CallocFresh pool r slab) ∧
        r' = afterGetFree pool r calloc) ∨
      (∃ e, call = .putAvailable e ∧ e ∈ r.held ∧ r' = afterPutAvailable pool r e) ∨
      (call = .getAvailable ∧ r' = r) ∨
      ∃ e, call = .putFree e ∧ e ∈ r.available ∧ r' = afterPutFree pool r e := by
  cases call with
  | getFree calloc =>
    by_cases hfresh : ∀ slab ∈ calloc, CallocFresh pool r slab
    · rw [poolStep_getFree hfresh] at hstep
      cases hstep
      exact Or.inl ⟨calloc, rfl, hfresh, rfl⟩
    · rw [poolStep, if_neg hfresh] at hstep
      cases hstep
  | putAvailable e =>
    by_cases he : e ∈ r.held
    · rw [poolStep_putAvailable he] at hstep
      cases hstep
      exact Or.inr (Or.inl ⟨e, rfl, he, rfl⟩)
    · rw [poolStep, if_neg he] at hstep
      cases hstep
  | getAvailable =>
    cases hstep
    exact Or.inr (Or.inr (Or.inl ⟨rfl, rfl⟩))
  | putFree e =>
    by_cases he : e ∈ r.available
    · rw [poolStep_putFree he] at hstep
      cases hstep
      exact Or.inr (Or.inr (Or.inr ⟨e, rfl, he, rfl⟩))
    · rw [poolStep, if_neg he] at hstep
      cases hstep

end Successors

section Steps

variable {pool slab e : ℕ} {r r' : PoolRun} {free : List ℕ}

lemma Conserved.offRings (h : Conserved pool r free) (hfresh : CallocFresh pool r slab) {x : ℕ}
    (hlo : slab ≤ x) (hhi : x < slab + (poolLayout r.memory).bytes) :
    OffRings pool r.slabs free r.available x := by
  obtain ⟨hslub, hfree, havailable⟩ := heads_off_slab hfresh.2.1 hlo hhi
  obtain ⟨hslabs, helems⟩ := notMem_of_fresh hfresh hlo hhi
  have hnotin : x ∉ free ++ r.available ++ r.held := fun hmem => helems (h.perm.mem_iff.mp hmem)
  simp only [List.mem_append, not_or] at hnotin
  obtain ⟨⟨hnotfree, hnotavailable⟩, -⟩ := hnotin
  constructor
  case slub => exact List.not_mem_cons_of_ne_of_not_mem hslub hslabs
  case free => exact List.not_mem_cons_of_ne_of_not_mem hfree hnotfree
  case available => exact List.not_mem_cons_of_ne_of_not_mem havailable hnotavailable

/-- The pool when the loop of `expand_pool_list` has filled a new slab. -/
def filledSlab (pool : ℕ) (m : PoolList) (slab : ℕ) : PoolList :=
  expandLoop pool ((poolLayout m).descriptorAt slab 0) (poolLayout m).size 0 (poolLayout m).num
    ((poolLayout m).dataAt slab 0) { m with nodes := listAdd m.nodes slab (slubHead pool) }

lemma expandedBy_eq (pool slab : ℕ) {m : PoolList} (h : SizesFit m.elemSize m.preallocNum) :
    expandedBy pool m slab =
      { m with
        nodes := (filledSlab pool m slab).nodes
        addr := (filledSlab pool m slab).addr
        freeNum := m.freeNum + m.preallocNum
        curSlub := m.curSlub + 1 } := by
  have hloop : expandLoop pool (slab + listHeadSize + (m.preallocNum * m.elemSize).toNatClampNeg)
      m.elemSize.toNatClampNeg 0 m.preallocNum.toNatClampNeg (slab + listHeadSize)
      { m with nodes := listAdd m.nodes slab (slubHead pool) } = filledSlab pool m slab := by
    have hdata : (poolLayout m).dataAt slab 0 = slab + listHeadSize := by
      simp [dataAt, poolLayout]
    rw [h.toNatClampNeg_mul, filledSlab, hdata]
    rfl
  unfold expandedBy expandPoolList
  dsimp only
  rw [hloop, filledSlab, expandLoop_eq]

lemma descriptorAt_eq_add (m : PoolList) (slab i : ℕ) :
    (poolLayout m).descriptorAt slab 0 + poolElemSize * i = (poolLayout m).descriptorAt slab i :=
  rfl

lemma filledSlab_addr (m : PoolList) {i : ℕ} (hi : i < (poolLayout m).num) :
    (filledSlab pool m slab).addr ((poolLayout m).descriptorAt slab i) =
      (poolLayout m).dataAt slab i := by
  have haddr := expandLoop_addr pool ((poolLayout m).descriptorAt slab 0) (poolLayout m).size 0
    (poolLayout m).num ((poolLayout m).dataAt slab 0) i
    { m with nodes := listAdd m.nodes slab (slubHead pool) } hi
  rw [Nat.zero_add, descriptorAt_eq_add] at haddr
  rw [filledSlab, haddr]
  unfold dataAt
  omega

lemma filledSlab_addr_of_notMem (m : PoolList) (he : e ∉ (poolLayout m).descriptors slab) :
    (filledSlab pool m slab).addr e = m.addr e := by
  apply expandLoop_addr_of_ne
  rintro j - hj rfl
  apply he
  rw [mem_descriptors]
  exact ⟨j, by omega, rfl⟩

lemma Conserved.filledSlab_rings (h : Conserved pool r []) (hfresh : CallocFresh pool r slab) :
    PoolRings (filledSlab pool r.memory slab).nodes pool (slab :: r.slabs)
      ((poolLayout r.memory).descriptors slab).reverse r.available := by
  have hslab := h.rings.addSlub (h.offRings hfresh le_rfl (slab_lt_bytes slab))
  have hoff : ∀ j, 0 ≤ j → j < 0 + (poolLayout r.memory).num →
      OffRings pool (slab :: r.slabs) [] r.available
        ((poolLayout r.memory).descriptorAt slab 0 + poolElemSize * j) := by
    intro j _ hj
    have hmem : (poolLayout r.memory).descriptorAt slab j ∈
        (poolLayout r.memory).descriptors slab := by
      rw [mem_descriptors]
      exact ⟨j, by omega, rfl⟩
    obtain ⟨hlo, hhi⟩ := descriptor_lt_bytes hmem
    rw [descriptorAt_eq_add]
    exact (h.offRings hfresh hlo.le hhi).consSlub hlo.ne'
  have hrings := expandLoop_rings pool ((poolLayout r.memory).descriptorAt slab 0)
    (poolLayout r.memory).size 0 (poolLayout r.memory).num ((poolLayout r.memory).dataAt slab 0)
    { r.memory with nodes := listAdd r.memory.nodes slab (slubHead pool) } hslab hoff
  rw [List.append_nil, ← List.range_eq_range'] at hrings
  exact hrings

lemma poolLayout_expandedBy (pool slab : ℕ) {m : PoolList}
    (h : SizesFit m.elemSize m.preallocNum) :
    poolLayout (expandedBy pool m slab) = poolLayout m := by
  rw [expandedBy_eq pool slab h]
  rfl

lemma SizesFit.ofNat_num {m : PoolList} (h : SizesFit m.elemSize m.preallocNum) :
    Int32.ofNat (poolLayout m).num = m.preallocNum :=
  Int32.ofNat_toNatClampNeg _ h.num_nonneg

lemma Conserved.expand (h : Conserved pool r []) (hfresh : CallocFresh pool r slab) :
    Conserved pool
      { r with memory := expandedBy pool r.memory slab, slabs := slab :: r.slabs }
      ((poolLayout r.memory).descriptors slab).reverse := by
  have hlayout := poolLayout_expandedBy pool slab h.sizes
  have heq := expandedBy_eq pool slab h.sizes
  constructor
  case sizes =>
    rw [heq]
    exact h.sizes
  case placed =>
    rw [hlayout]
    constructor
    case apart => exact List.pairwise_cons.mpr ⟨hfresh.2.2, h.placed.apart⟩
    case off_pool => exact List.forall_mem_cons.mpr ⟨hfresh.2.1, h.placed.off_pool⟩
  case rings =>
    rw [heq]
    exact h.filledSlab_rings hfresh
  case free_num =>
    rw [heq, List.length_reverse, descriptors, List.length_map, List.length_range,
      h.sizes.ofNat_num]
    change r.memory.freeNum + r.memory.preallocNum = r.memory.preallocNum
    rw [h.free_num]
    exact Int32.zero_add _
  case perm =>
    have hperm := h.perm
    rw [List.nil_append] at hperm
    rw [hlayout, List.append_assoc, allDescriptors, List.flatMap_cons]
    exact (List.reverse_perm _).append hperm
  case addr =>
    rw [hlayout]
    intro slab' hslab' i hi
    rw [heq]
    change (filledSlab pool r.memory slab).addr _ = _
    rcases List.mem_cons.mp hslab' with rfl | hold
    · exact filledSlab_addr _ hi
    · rw [filledSlab_addr_of_notMem]
      · exact h.addr slab' hold i hi
      · intro hmem
        obtain ⟨hlo, hhi⟩ := descriptor_lt_bytes hmem
        apply (notMem_of_fresh hfresh hlo.le hhi).2
        rw [mem_allDescriptors]
        exact ⟨slab', hold, i, hi, rfl⟩

lemma Conserved.relink (h : Conserved pool r free) {nodes : Nodes ℕ} {freeNum : Int32}
    {held available free' : List ℕ} (hrings : PoolRings nodes pool r.slabs free' available)
    (hnum : freeNum = Int32.ofNat free'.length)
    (hperm : (free' ++ available ++ held).Perm (free ++ r.available ++ r.held)) :
    Conserved pool
      { memory := { r.memory with nodes := nodes, freeNum := freeNum }
        slabs := r.slabs
        held := held
        available := available } free' where
  sizes := h.sizes
  placed := h.placed
  rings := hrings
  free_num := hnum
  perm := hperm.trans h.perm
  addr := h.addr

lemma Conserved.takeFirstFree_nil (h : Conserved pool r []) :
    takeFirstFree pool r.memory = (none, r.memory) :=
  if_pos (h.rings.free_ring.listEmpty_iff.mpr rfl)

lemma Conserved.takeFirstFree_cons (h : Conserved pool r (e :: free)) :
    takeFirstFree pool r.memory = (some e,
      { r.memory with
        nodes := klistDel r.memory.nodes e
        freeNum := r.memory.freeNum - 1 }) := by
  obtain ⟨hempty, hfirst⟩ := h.rings.free_ring.first
  rw [takeFirstFree, if_neg hempty, hfirst]

lemma Conserved.take (h : Conserved pool r (e :: free)) :
    Conserved pool
      { r with
        memory :=
          { r.memory with
            nodes := klistDel r.memory.nodes e
            freeNum := r.memory.freeNum - 1 }
        held := e :: r.held } free := by
  apply h.relink h.rings.takeFree
  · have hnum := h.free_num
    rw [List.length_cons, Int32.ofNat_add] at hnum
    rw [hnum]
    exact Int32.add_sub_cancel _ _
  · have hmiddle : (free ++ r.available ++ e :: r.held).Perm
        (e :: (free ++ r.available ++ r.held)) := List.perm_middle
    exact hmiddle

lemma Conserved.nodup (h : Conserved pool r free) : (free ++ r.available ++ r.held).Nodup :=
  h.perm.nodup_iff.mpr h.placed.nodup

lemma Conserved.held_offRings (h : Conserved pool r free) (he : e ∈ r.held) :
    OffRings pool r.slabs free r.available e := by
  have hmem : e ∈ (poolLayout r.memory).allDescriptors r.slabs :=
    h.perm.mem_iff.mp (List.mem_append_right _ he)
  obtain ⟨hslabs, hslub, hfree, havailable⟩ := h.placed.elem_off hmem
  have hnotin : e ∉ free ++ r.available := fun hlists =>
    List.disjoint_of_nodup_append h.nodup hlists he
  rw [List.mem_append, not_or] at hnotin
  constructor
  case slub => exact List.not_mem_cons_of_ne_of_not_mem hslub hslabs
  case free => exact List.not_mem_cons_of_ne_of_not_mem hfree hnotin.1
  case available => exact List.not_mem_cons_of_ne_of_not_mem havailable hnotin.2

lemma Conserved.put (h : Conserved pool r free) (he : e ∈ r.held) :
    Conserved pool (afterPutAvailable pool r e) free := by
  apply h.relink (h.rings.putAvailable (h.held_offRings he)) h.free_num
  have hheld : (e :: r.held.erase e).Perm r.held := (List.perm_cons_erase he).symm
  have hsplit : free ++ (r.available ++ [e]) ++ r.held.erase e =
      free ++ r.available ++ (e :: r.held.erase e) := by simp
  rw [hsplit]
  exact hheld.append_left (free ++ r.available)

lemma Conserved.release (h : Conserved pool r free) (he : e ∈ r.available) :
    Conserved pool (afterPutFree pool r e) (e :: free) := by
  obtain ⟨l₁, l₂, hnotin, hsplit, herase⟩ := List.exists_erase_eq he
  have hrings := h.rings
  rw [hsplit] at hrings
  rw [afterPutFree, herase]
  apply h.relink hrings.moveToFree
  · rw [h.free_num, List.length_cons, Int32.ofNat_add]
    rfl
  · have hmiddle : (free ++ l₁ ++ e :: (l₂ ++ r.held)).Perm
        (e :: (free ++ l₁ ++ (l₂ ++ r.held))) := List.perm_middle
    have hbefore : free ++ r.available ++ r.held = free ++ l₁ ++ e :: (l₂ ++ r.held) := by
      simp [hsplit]
    have hafter : e :: free ++ (l₁ ++ l₂) ++ r.held = e :: (free ++ l₁ ++ (l₂ ++ r.held)) := by
      simp
    rw [hbefore, hafter]
    exact hmiddle.symm

/-- The elements on the free list once `pool_list_get_free_elem` has tried to expand. -/
def freeAfterExpand (pool : ℕ) (m : PoolList) (calloc : Option ℕ) (free : List ℕ) : List ℕ :=
  (allocates pool m calloc).elim free fun slab => ((poolLayout m).descriptors slab).reverse

lemma allocates_eq_some {m : PoolList} {calloc : Option ℕ}
    (hslab : allocates pool m calloc = some slab) :
    listEmpty m.nodes (freeHead pool) = true ∧ mayExpand m = true ∧ calloc = some slab := by
  unfold allocates at hslab
  split at hslab
  case isTrue hcond =>
    rw [Bool.and_eq_true] at hcond
    exact ⟨hcond.1, hcond.2, hslab⟩
  case isFalse => cases hslab

lemma allocates_of_nil {m : PoolList} (h : OnRing m.nodes (freeHead pool) [])
    (calloc : Option ℕ) : allocates pool m calloc = if mayExpand m then calloc else none := by
  rw [allocates, h.listEmpty_iff.mpr rfl, Bool.true_and]

lemma Conserved.tryExpand (h : Conserved pool r free) {calloc : Option ℕ}
    (hfresh : ∀ slab ∈ calloc, CallocFresh pool r slab) :
    Conserved pool
      { r with
        memory := (allocates pool r.memory calloc).elim r.memory (expandedBy pool r.memory)
        slabs := (allocates pool r.memory calloc).toList ++ r.slabs }
      (freeAfterExpand pool r.memory calloc free) := by
  unfold freeAfterExpand
  cases hslab : allocates pool r.memory calloc with
  | none => exact h
  | some slab =>
    obtain ⟨hempty, -, rfl⟩ := allocates_eq_some hslab
    have hnil : free = [] := h.rings.free_ring.listEmpty_iff.mp hempty
    subst hnil
    exact h.expand (hfresh slab rfl)

/-- A call of `pool_list_get_free_elem` hands out the first free element there is. -/
lemma Conserved.getFree (h : Conserved pool r free) {calloc : Option ℕ}
    (hfresh : ∀ slab ∈ calloc, CallocFresh pool r slab) :
    (poolListGetFreeElem pool r.memory calloc).1 =
        (freeAfterExpand pool r.memory calloc free).head? ∧
      Conserved pool (afterGetFree pool r calloc)
        (freeAfterExpand pool r.memory calloc free).tail := by
  have hexpanded := h.tryExpand hfresh
  rw [afterGetFree, poolListGetFreeElem_eq]
  cases hfree : freeAfterExpand pool r.memory calloc free with
  | nil =>
    rw [hfree] at hexpanded
    rw [hexpanded.takeFirstFree_nil]
    exact ⟨rfl, hexpanded⟩
  | cons e rest =>
    rw [hfree] at hexpanded
    rw [hexpanded.takeFirstFree_cons]
    exact ⟨rfl, hexpanded.take⟩

lemma poolStep_conserved (h : Conserved pool r free) {call : PoolCall}
    (hstep : poolStep pool r call = some r') : ∃ free', Conserved pool r' free' := by
  obtain ⟨calloc, -, hfresh, rfl⟩ | ⟨e, -, he, rfl⟩ | ⟨-, rfl⟩ | ⟨e, -, he, rfl⟩ :=
    poolStep_cases hstep
  · exact ⟨_, (h.getFree hfresh).2⟩
  · exact ⟨free, h.put he⟩
  · exact ⟨free, h⟩
  · exact ⟨e :: free, h.release he⟩

end Steps

/-! ### Runs -/

section Runs

variable {pool : ℕ} {memory : PoolList} {elemSize maxSlub preallocNum : Int32} {r r' : PoolRun}
  {calls : List PoolCall}

lemma initListHead_of_ne {nodes : Nodes ℕ} {head b : ℕ} (hb : b ≠ head) :
    initListHead nodes head b = nodes b := by
  rw [initListHead, setPrev_of_ne _ hb, setNext_of_ne _ hb]

lemma initPoolRun_rings (pool : ℕ) (memory : PoolList) (elemSize maxSlub preallocNum : Int32) :
    PoolRings (initPoolRun pool memory elemSize maxSlub preallocNum).memory.nodes pool
      [] [] [] := by
  have hfree : freeHead pool ≠ slubHead pool := by
    unfold freeHead slubHead listHeadSize
    omega
  have havailable : availableHead pool ≠ slubHead pool := by
    unfold availableHead slubHead listHeadSize
    omega
  have hboth : availableHead pool ≠ freeHead pool := by
    unfold availableHead freeHead listHeadSize
    omega
  constructor
  case slub_ring => exact onRing_initListHead
  case free_ring =>
    apply onRing_initListHead.congr
    intro b hb
    rw [List.mem_singleton.mp hb]
    exact initListHead_of_ne hfree
  case available_ring =>
    apply onRing_initListHead.congr
    intro b hb
    rw [List.mem_singleton.mp hb]
    exact (initListHead_of_ne havailable).trans (initListHead_of_ne hboth)
  case slub_free => simpa using hfree
  case slub_available => simpa using havailable
  case free_available => simpa using hboth

lemma conserved_init (pool : ℕ) (memory : PoolList) (maxSlub : Int32)
    (hsizes : SizesFit elemSize preallocNum) :
    Conserved pool (initPoolRun pool memory elemSize maxSlub preallocNum) [] where
  sizes := hsizes
  placed := ⟨List.Pairwise.nil, fun _ hslab => absurd hslab List.not_mem_nil⟩
  rings := initPoolRun_rings pool memory elemSize maxSlub preallocNum
  free_num := rfl
  perm := List.Perm.refl []
  addr := fun _ hslab => absurd hslab List.not_mem_nil

lemma run_conserved (hsizes : SizesFit elemSize preallocNum)
    (hrun : run (poolStep pool) (initPoolRun pool memory elemSize maxSlub preallocNum) calls =
      some r) : ∃ free, Conserved pool r free := by
  have hinit : ∃ free, Conserved pool (initPoolRun pool memory elemSize maxSlub preallocNum) free :=
    ⟨[], conserved_init pool memory maxSlub hsizes⟩
  refine invariant_of_run (I := fun r => ∃ free, Conserved pool r free) ?_ hinit hrun
  rintro r₁ call r₂ ⟨free, h⟩ hstep
  exact poolStep_conserved h hstep

lemma Conserved.getFree_none {free : List ℕ} (h : Conserved pool r free)
    (hnum : 0 < (poolLayout r.memory).num) {calloc : Option ℕ}
    (hfresh : ∀ slab ∈ calloc, CallocFresh pool r slab)
    (hnone : (poolListGetFreeElem pool r.memory calloc).1 = none) :
    free = [] ∧ (mayExpand r.memory = true → calloc = none) := by
  rw [(h.getFree hfresh).1, List.head?_eq_none_iff, freeAfterExpand] at hnone
  cases hslab : allocates pool r.memory calloc with
  | none =>
    rw [hslab, Option.elim_none] at hnone
    subst hnone
    rw [allocates_of_nil h.rings.free_ring] at hslab
    refine ⟨rfl, ?_⟩
    intro hmay
    rwa [if_pos hmay] at hslab
  | some slab =>
    rw [hslab, Option.elim_some, List.reverse_eq_nil_iff, ← List.length_eq_zero_iff, descriptors,
      List.length_map, List.length_range] at hnone
    omega

/-- The members of the pool that limit it, where `m₀` is the pool before the run. -/
structure Configured (m₀ : PoolList) (r : PoolRun) : Prop where
  elem_size : r.memory.elemSize = m₀.elemSize
  prealloc_num : r.memory.preallocNum = m₀.preallocNum
  max_slub : r.memory.maxSlub = m₀.maxSlub
  cur_slub : r.memory.curSlub = m₀.curSlub + Int32.ofNat r.slabs.length

lemma takeFirstFree_eq (pool : ℕ) (m : PoolList) :
    ∃ nodes freeNum, (takeFirstFree pool m).2 = { m with nodes := nodes, freeNum := freeNum } := by
  unfold takeFirstFree
  split
  · exact ⟨m.nodes, m.freeNum, rfl⟩
  · exact ⟨_, _, rfl⟩

lemma configured_getFree {m₀ : PoolList} (h : Configured m₀ r)
    (hsizes : SizesFit r.memory.elemSize r.memory.preallocNum) (calloc : Option ℕ) :
    Configured m₀ (afterGetFree pool r calloc) := by
  rw [afterGetFree, poolListGetFreeElem_eq]
  obtain ⟨nodes, freeNum, heq⟩ := takeFirstFree_eq pool
    ((allocates pool r.memory calloc).elim r.memory (expandedBy pool r.memory))
  rw [heq]
  cases hslab : allocates pool r.memory calloc with
  | none => exact ⟨h.elem_size, h.prealloc_num, h.max_slub, h.cur_slub⟩
  | some slab =>
    rw [Option.elim_some, expandedBy_eq pool slab hsizes]
    constructor
    case elem_size => exact h.elem_size
    case prealloc_num => exact h.prealloc_num
    case max_slub => exact h.max_slub
    case cur_slub =>
      change r.memory.curSlub + 1 = _ + Int32.ofNat (slab :: r.slabs).length
      rw [h.cur_slub, List.length_cons, Int32.ofNat_add, ← Int32.add_assoc]
      rfl

lemma poolStep_configured {m₀ : PoolList} (h : Configured m₀ r)
    (hsizes : SizesFit r.memory.elemSize r.memory.preallocNum) {call : PoolCall}
    (hstep : poolStep pool r call = some r') : Configured m₀ r' := by
  obtain ⟨calloc, -, -, rfl⟩ | ⟨e, -, -, rfl⟩ | ⟨-, rfl⟩ | ⟨e, -, -, rfl⟩ := poolStep_cases hstep
  · exact configured_getFree h hsizes calloc
  · exact ⟨h.elem_size, h.prealloc_num, h.max_slub, h.cur_slub⟩
  · exact h
  · exact ⟨h.elem_size, h.prealloc_num, h.max_slub, h.cur_slub⟩

lemma configured_init : Configured (initPoolRun pool memory elemSize maxSlub preallocNum).memory
    (initPoolRun pool memory elemSize maxSlub preallocNum) :=
  ⟨rfl, rfl, rfl, (Int32.add_zero _).symm⟩

lemma run_configured (hsizes : SizesFit elemSize preallocNum)
    (hrun : run (poolStep pool) (initPoolRun pool memory elemSize maxSlub preallocNum) calls =
      some r) :
    Configured (initPoolRun pool memory elemSize maxSlub preallocNum).memory r := by
  refine invariant_of_run ?_ configured_init hrun
  intro r₁ call r₂ h hstep
  apply poolStep_configured h _ hstep
  rw [h.elem_size, h.prealloc_num]
  exact hsizes

end Runs

end GeneralPurposeLibrary.Proofs
