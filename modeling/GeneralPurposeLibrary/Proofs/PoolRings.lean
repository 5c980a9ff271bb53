import GeneralPurposeLibrary.PoolList
import GeneralPurposeLibrary.Proofs.FifoQueue
import Mathlib.Tactic.Common

/-!
# The three lists of a pool

What the list functions do to the slubs, the free elements and the available elements of a
pool. Each function changes the links of one list and of the entry it is given only.
-/

namespace GeneralPurposeLibrary.Proofs
open LinkedRing

/-- The list at `head` runs through `l`. -/
def OnRing (nodes : Nodes ℕ) (head : ℕ) (l : List ℕ) : Prop :=
  IsRing (nextOf nodes) (prevOf nodes) head l

section Rings

variable {nodes nodes' : Nodes ℕ} {head a b : ℕ} {l l₁ l₂ : List ℕ}

lemma OnRing.congr (h : OnRing nodes head l) (hsame : ∀ a ∈ head :: l, nodes' a = nodes a) :
    OnRing nodes' head l := by
  apply IsRing.congr h
  · intro a ha
    rw [nextOf, nextOf, hsame a ha]
  · intro a ha
    rw [prevOf, prevOf, hsame a ha]

lemma OnRing.listEmpty_iff (h : OnRing nodes head l) :
    listEmpty nodes head = true ↔ l = [] := by
  rw [listEmpty, decide_eq_true_iff]
  exact IsRing.next_head_eq_iff h

lemma OnRing.first (h : OnRing nodes head (a :: l)) :
    ¬listEmpty nodes head = true ∧ listFirstEntry nodes head = a := by
  constructor
  · rw [h.listEmpty_iff]
    exact List.cons_ne_nil a l
  · exact IsRing.next_head h

lemma onRing_initListHead : OnRing (initListHead nodes head) head [] := by
  apply IsRing.nil <;> simp [initListHead]

lemma onRing_listAdd (h : OnRing nodes head l) (ha : a ∉ head :: l) :
    OnRing (listAdd nodes a head) head (a :: l) := by
  have hring := IsRing.insertFirst h ha
  simp only [OnRing, listAdd, _listAdd, nextOf_setNext, nextOf_setPrev, prevOf_setNext,
    prevOf_setPrev]
  exact hring

lemma onRing_listAddTail (h : OnRing nodes head l) (ha : a ∉ head :: l) :
    OnRing (listAddTail nodes a head) head (l ++ [a]) := by
  have hring := IsRing.append h ha
  simp only [OnRing, listAddTail, _listAdd, nextOf_setNext, nextOf_setPrev, prevOf_setNext,
    prevOf_setPrev]
  exact hring

lemma onRing_unlink (h : OnRing nodes head (l₁ ++ a :: l₂)) :
    OnRing (_listDel nodes (nodes a).prev (nodes a).next) head (l₁ ++ l₂) := by
  have hring := IsRing.unlinkMember h
  simp only [OnRing, _listDel, nextOf_setNext, nextOf_setPrev, prevOf_setNext, prevOf_setPrev]
  exact hring

lemma setNext_of_ne (v : ℕ) (h : b ≠ a) : nodes.setNext a v b = nodes b :=
  Function.update_of_ne h _ _

lemma setPrev_of_ne (v : ℕ) (h : b ≠ a) : nodes.setPrev a v b = nodes b :=
  Function.update_of_ne h _ _

lemma _listAdd_of_notMem {prev next : ℕ} (hb : b ∉ [a, prev, next]) :
    _listAdd nodes a prev next b = nodes b := by
  simp only [List.mem_cons, List.not_mem_nil, or_false, not_or] at hb
  obtain ⟨hnew, hprev, hnext⟩ := hb
  rw [_listAdd, setNext_of_ne _ hprev, setPrev_of_ne _ hnew, setNext_of_ne _ hnew,
    setPrev_of_ne _ hnext]

lemma _listAdd_of_ring {prev next : ℕ} (hprev : prev ∈ head :: l) (hnext : next ∈ head :: l)
    (hb : b ∉ a :: head :: l) : _listAdd nodes a prev next b = nodes b := by
  apply _listAdd_of_notMem
  intro hmem
  rcases List.mem_cons.mp hmem with rfl | hmem
  · exact hb List.mem_cons_self
  · apply hb
    apply List.mem_cons_of_mem
    rcases List.mem_cons.mp hmem with rfl | hmem
    · exact hprev
    · rw [List.mem_singleton.mp hmem]
      exact hnext

lemma listAdd_of_notMem (h : OnRing nodes head l) (hb : b ∉ a :: head :: l) :
    listAdd nodes a head b = nodes b :=
  _listAdd_of_ring List.mem_cons_self (IsRing.next_mem h List.mem_cons_self) hb

lemma listAddTail_of_notMem (h : OnRing nodes head l) (hb : b ∉ a :: head :: l) :
    listAddTail nodes a head b = nodes b :=
  _listAdd_of_ring (IsRing.prev_mem h List.mem_cons_self) List.mem_cons_self hb

lemma unlink_of_notMem (h : OnRing nodes head l) (ha : a ∈ head :: l) (hb : b ∉ head :: l) :
    _listDel nodes (nodes a).prev (nodes a).next b = nodes b := by
  have hnext : b ≠ (nodes a).next := by
    rintro rfl
    exact hb (IsRing.next_mem h ha)
  have hprev : b ≠ (nodes a).prev := by
    rintro rfl
    exact hb (IsRing.prev_mem h ha)
  rw [_listDel, setNext_of_ne _ hprev, setPrev_of_ne _ hnext]

lemma klistDel_of_ne (hb : b ≠ a) :
    klistDel nodes a b = _listDel nodes (nodes a).prev (nodes a).next b := by
  rw [klistDel, setPrev_of_ne _ hb, setNext_of_ne _ hb]

end Rings

section Disjointness

variable {e b : ℕ} {l l' X : List ℕ}

lemma notMem_cons_of_disjoint (h : l.Disjoint X) (he : e ∉ X) (hb : b ∈ X) : b ∉ e :: l := by
  intro hmem
  rcases List.mem_cons.mp hmem with rfl | hmem
  · exact he hb
  · exact h hmem hb

lemma disjoint_of_insert (h : l.Disjoint X) (he : e ∉ X) (hsub : ∀ x ∈ l', x = e ∨ x ∈ l) :
    l'.Disjoint X := by
  intro x hx hX
  rcases hsub x hx with rfl | hmem
  · exact he hX
  · exact h hmem hX

end Disjointness

/-- The lists of slubs, free elements and available elements, which have no node in common. -/
structure PoolRings (nodes : Nodes ℕ) (pool : ℕ) (slubs free available : List ℕ) : Prop where
  slub_ring : OnRing nodes (slubHead pool) slubs
  free_ring : OnRing nodes (freeHead pool) free
  available_ring : OnRing nodes (availableHead pool) available
  slub_free : (slubHead pool :: slubs).Disjoint (freeHead pool :: free)
  slub_available : (slubHead pool :: slubs).Disjoint (availableHead pool :: available)
  free_available : (freeHead pool :: free).Disjoint (availableHead pool :: available)

/-- The address is not a node of any of the three lists. -/
structure OffRings (pool : ℕ) (slubs free available : List ℕ) (e : ℕ) : Prop where
  slub : e ∉ slubHead pool :: slubs
  free : e ∉ freeHead pool :: free
  available : e ∉ availableHead pool :: available

namespace PoolRings

variable {nodes : Nodes ℕ} {pool e : ℕ} {slubs free available : List ℕ}

lemma addSlub (h : PoolRings nodes pool slubs free available)
    (he : OffRings pool slubs free available e) :
    PoolRings (listAdd nodes e (slubHead pool)) pool (e :: slubs) free available := by
  have hsub : ∀ x ∈ slubHead pool :: e :: slubs, x = e ∨ x ∈ slubHead pool :: slubs := by
    intro x hx
    simp only [List.mem_cons] at hx ⊢
    tauto
  constructor
  case slub_ring => exact onRing_listAdd h.slub_ring he.slub
  case free_ring =>
    exact h.free_ring.congr fun b hb =>
      listAdd_of_notMem h.slub_ring (notMem_cons_of_disjoint h.slub_free he.free hb)
  case available_ring =>
    exact h.available_ring.congr fun b hb =>
      listAdd_of_notMem h.slub_ring (notMem_cons_of_disjoint h.slub_available he.available hb)
  case slub_free => exact disjoint_of_insert h.slub_free he.free hsub
  case slub_available => exact disjoint_of_insert h.slub_available he.available hsub
  case free_available => exact h.free_available

lemma addFree (h : PoolRings nodes pool slubs free available)
    (he : OffRings pool slubs free available e) :
    PoolRings (listAdd nodes e (freeHead pool)) pool slubs (e :: free) available := by
  have hsub : ∀ x ∈ freeHead pool :: e :: free, x = e ∨ x ∈ freeHead pool :: free := by
    intro x hx
    simp only [List.mem_cons] at hx ⊢
    tauto
  constructor
  case slub_ring =>
    exact h.slub_ring.congr fun b hb =>
      listAdd_of_notMem h.free_ring (notMem_cons_of_disjoint h.slub_free.symm he.slub hb)
  case free_ring => exact onRing_listAdd h.free_ring he.free
  case available_ring =>
    exact h.available_ring.congr fun b hb =>
      listAdd_of_notMem h.free_ring (notMem_cons_of_disjoint h.free_available he.available hb)
  case slub_free => exact (disjoint_of_insert h.slub_free.symm he.slub hsub).symm
  case slub_available => exact h.slub_available
  case free_available => exact disjoint_of_insert h.free_available he.available hsub

lemma putAvailable (h : PoolRings nodes pool slubs free available)
    (he : OffRings pool slubs free available e) :
    PoolRings (listAddTail nodes e (availableHead pool)) pool slubs free (available ++ [e]) := by
  have hsub : ∀ x ∈ availableHead pool :: (available ++ [e]),
      x = e ∨ x ∈ availableHead pool :: available := by
    intro x hx
    simp only [List.mem_cons, List.mem_append, List.not_mem_nil] at hx ⊢
    tauto
  constructor
  case slub_ring =>
    exact h.slub_ring.congr fun b hb => listAddTail_of_notMem h.available_ring
      (notMem_cons_of_disjoint h.slub_available.symm he.slub hb)
  case free_ring =>
    exact h.free_ring.congr fun b hb => listAddTail_of_notMem h.available_ring
      (notMem_cons_of_disjoint h.free_available.symm he.free hb)
  case available_ring => exact onRing_listAddTail h.available_ring he.available
  case slub_free => exact h.slub_free
  case slub_available => exact (disjoint_of_insert h.slub_available.symm he.slub hsub).symm
  case free_available => exact (disjoint_of_insert h.free_available.symm he.free hsub).symm

lemma takeFree (h : PoolRings nodes pool slubs (e :: free) available) :
    PoolRings (klistDel nodes e) pool slubs free available := by
  have hmem : e ∈ freeHead pool :: e :: free := List.mem_cons_of_mem _ List.mem_cons_self
  have hnotin : e ∉ freeHead pool :: free := by
    have hnodup := h.free_ring.nodup
    simp only [List.nodup_cons, List.mem_cons] at hnodup ⊢
    tauto
  have hsub : freeHead pool :: free ⊆ freeHead pool :: e :: free := by
    intro x hx
    simp only [List.mem_cons] at hx ⊢
    tauto
  have hframe : ∀ b, b ∉ freeHead pool :: e :: free → klistDel nodes e b = nodes b := by
    intro b hb
    have hne : b ≠ e := fun heq => hb (heq ▸ hmem)
    rw [klistDel_of_ne hne, unlink_of_notMem h.free_ring hmem hb]
  constructor
  case slub_ring => exact h.slub_ring.congr fun b hb => hframe b (h.slub_free hb)
  case free_ring =>
    have hfirst : OnRing nodes (freeHead pool) ([] ++ e :: free) := h.free_ring
    have hring := onRing_unlink hfirst
    refine hring.congr fun b hb => klistDel_of_ne ?_
    rintro rfl
    exact hnotin hb
  case available_ring =>
    exact h.available_ring.congr fun b hb => hframe b (h.free_available.symm hb)
  case slub_free => exact List.disjoint_of_subset_right hsub h.slub_free
  case slub_available => exact h.slub_available
  case free_available => exact List.disjoint_of_subset_left hsub h.free_available

lemma unlinkAvailable {l₁ l₂ : List ℕ} (h : PoolRings nodes pool slubs free (l₁ ++ e :: l₂)) :
    PoolRings (_listDel nodes (nodes e).prev (nodes e).next) pool slubs free (l₁ ++ l₂) ∧
      OffRings pool slubs free (l₁ ++ l₂) e := by
  have hmem : e ∈ availableHead pool :: (l₁ ++ e :: l₂) := by simp
  have hnotin : e ∉ availableHead pool :: (l₁ ++ l₂) := by
    have hnodup := h.available_ring.nodup
    have hmiddle : (e :: (availableHead pool :: (l₁ ++ l₂))).Nodup := by
      rw [← List.cons_append] at hnodup
      exact List.nodup_middle.mp hnodup
    exact hmiddle.notMem
  have hsub : availableHead pool :: (l₁ ++ l₂) ⊆ availableHead pool :: (l₁ ++ e :: l₂) := by
    intro x hx
    simp only [List.mem_cons, List.mem_append] at hx ⊢
    tauto
  constructor
  · constructor
    case slub_ring =>
      exact h.slub_ring.congr fun b hb =>
        unlink_of_notMem h.available_ring hmem (h.slub_available hb)
    case free_ring =>
      exact h.free_ring.congr fun b hb =>
        unlink_of_notMem h.available_ring hmem (h.free_available hb)
    case available_ring => exact onRing_unlink h.available_ring
    case slub_free => exact h.slub_free
    case slub_available => exact List.disjoint_of_subset_right hsub h.slub_available
    case free_available => exact List.disjoint_of_subset_right hsub h.free_available
  · exact ⟨fun hs => h.slub_available hs hmem, fun hf => h.free_available hf hmem, hnotin⟩

lemma moveToFree {l₁ l₂ : List ℕ} (h : PoolRings nodes pool slubs free (l₁ ++ e :: l₂)) :
    PoolRings (listMove nodes e (freeHead pool)) pool slubs (e :: free) (l₁ ++ l₂) := by
  obtain ⟨hrings, hoff⟩ := h.unlinkAvailable
  exact hrings.addFree hoff

end PoolRings

end GeneralPurposeLibrary.Proofs
