import GeneralPurposeLibrary.IpcMutexCreate
import GeneralPurposeLibrary.Foundation.GuardedRuns
import Mathlib.Tactic.Common

/-!
# Concurrent creation of the cross-process mutex

The process that finds the name absent sets the segment up. All is well when there is only
one such process at a time and the others wait with the count until the mutex is ready.
-/

namespace GeneralPurposeLibrary.Proofs
open GuardedRuns

variable {Process : Type}

/-- The process has found the name absent and has not returned yet. -/
def setsUp : CreatePhase → Bool
  | .tested false => true
  | .opened false _ => true
  | .sized _ => true
  | .mapped false _ => true
  | .attributed false _ => true
  | .initialised _ => true
  | _ => false

/-- The segment that a process sets up. -/
def setupSegment : CreatePhase → Option ℕ
  | .opened false i => some i
  | .sized i => some i
  | .mapped false i => some i
  | .attributed false i => some i
  | .initialised i => some i
  | _ => none

/-- The process has returned, with or without a handle, or has not called. -/
def atRest : CreatePhase → Bool
  | .idle => true
  | .returned _ => true
  | .failed => true
  | _ => false

/-- The mutex is never initialised twice, no call has returned before it is initialised, and
when all calls have returned and some have succeeded it has been initialised and the count is
their number. -/
structure CreatedOnce (s : CreateSystem Process) : Prop where
  once : s.inits ≤ 1
  ready : ∀ p i, s.phase p = .returned i → (s.segment i).mutexReady = true
  counted : (∀ p, atRest (s.phase p) = true) → s.created ≠ 0 →
    s.inits = 1 ∧ ∃ i, s.name = some i ∧ (s.segment i).mutexReady = true ∧
      (s.segment i).refcnt.toInt = s.created

/-- An access test finds the name absent only while no process sets the segment up, and a
process that found the segment increments the count only when the mutex has been initialised;
fewer than `2 ^ 15` calls succeed. -/
def CreateOrdered (s : CreateSystem Process) : CreateStep Process → Prop
  | .access _ => s.name = none → ∀ q, setsUp (s.phase q) = false
  | .incRefcnt p => s.created + 1 < 2 ^ 15 ∧
      ∀ i, s.phase p = .attributed true i → (s.segment i).mutexReady = true
  | _ => True

structure CreateInvariant (s : CreateSystem Process) : Prop where
  few : s.created < 2 ^ 15
  unique : ∀ p q, setsUp (s.phase p) = true → setsUp (s.phase q) = true → p = q
  setup_named : ∀ p i, setupSegment (s.phase p) = some i → s.name = some i
  ready_named : ∀ i, (s.segment i).mutexReady = true → s.name = some i
  ready_setup : ∀ p i, (s.segment i).mutexReady = true → setsUp (s.phase p) = true →
    s.phase p = .initialised i
  cleared : ∀ p i, s.phase p = .attributed false i → (s.segment i).refcnt = 0
  ready_of_counting : ∀ p i, s.phase p = .initialised i ∨ s.phase p = .returned i →
    (s.segment i).mutexReady = true
  unready : (∀ i, (s.segment i).mutexReady = false) → s.inits = 0 ∧ s.created = 0
  ready_count : ∀ i, (s.segment i).mutexReady = true →
    s.inits = 1 ∧ (s.segment i).refcnt = Int16.ofNat s.created

lemma initCreateSystem_invariant : CreateInvariant (initCreateSystem Process) := by
  constructor <;> simp [initCreateSystem, setsUp, setupSegment]

lemma setsUp_of_setupSegment {phase : CreatePhase} {i : ℕ} (h : setupSegment phase = some i) :
    setsUp phase = true := by
  unfold setupSegment at h
  split at h <;> first | rfl | cases h

@[simp] lemma createPhase_self [DecidableEq Process] (s : CreateSystem Process) {p : Process}
    (phase : CreatePhase) : (s.setPhase p phase).phase p = phase := by
  simp [CreateSystem.setPhase]

lemma createPhase_of_ne [DecidableEq Process] (s : CreateSystem Process) {p q : Process}
    (h : q ≠ p) (phase : CreatePhase) : (s.setPhase p phase).phase q = s.phase q := by
  simp [CreateSystem.setPhase, h]

@[simp] lemma createSegment_self (s : CreateSystem Process) (i : ℕ) (segment : SharedSegment) :
    (s.setSegment i segment).segment i = segment := by
  simp [CreateSystem.setSegment]

lemma createSegment_of_ne (s : CreateSystem Process) {i j : ℕ} (h : j ≠ i)
    (segment : SharedSegment) : (s.setSegment i segment).segment j = s.segment j := by
  simp [CreateSystem.setSegment, h]

@[simp] lemma createSegment_name (s : CreateSystem Process) (i : ℕ) (segment : SharedSegment) :
    (s.setSegment i segment).name = s.name := rfl

/-- Nobody but `p` sets the segment up, and no mutex is ready. -/
def SetsUpAlone (s : CreateSystem Process) (p : Process) : Prop :=
  (∀ q, q ≠ p → setsUp (s.phase q) = false) ∧ ∀ i, (s.segment i).mutexReady = false

section Specs

variable [DecidableEq Process] {s s' : CreateSystem Process} {p : Process}

lemma mutexInitStep_spec (hstep : mutexInitStep s p = some s') :
    ∃ i, s.phase p = .attributed false i ∧ s'.phase p = .initialised i ∧
      (∀ q, q ≠ p → s'.phase q = s.phase q) ∧ s'.name = s.name ∧ s'.created = s.created ∧
      s'.inits = s.inits + 1 ∧ (s'.segment i).mutexReady = true ∧
      (s'.segment i).refcnt = (s.segment i).refcnt ∧
      ∀ j, j ≠ i → s'.segment j = s.segment j := by
  unfold mutexInitStep at hstep
  split at hstep
  · rename_i i hphase
    cases hstep
    refine ⟨i, hphase, createPhase_self _ _, fun q hq => createPhase_of_ne _ hq _, rfl, rfl, rfl,
      ?_, ?_, fun j hj => createSegment_of_ne s hj _⟩
    · simp [CreateSystem.setPhase, CreateSystem.setSegment]
    · simp [CreateSystem.setPhase, CreateSystem.setSegment]
  · cases hstep

lemma incRefcntStep_spec (hstep : incRefcntStep s p = some s') :
    ∃ i, aboutToCount (s.phase p) = some i ∧ s'.phase p = .returned i ∧
      (∀ q, q ≠ p → s'.phase q = s.phase q) ∧ s'.name = s.name ∧
      s'.created = s.created + 1 ∧ s'.inits = s.inits ∧
      (s'.segment i).mutexReady = (s.segment i).mutexReady ∧
      (s'.segment i).refcnt = (s.segment i).refcnt + 1 ∧
      ∀ j, j ≠ i → s'.segment j = s.segment j := by
  unfold incRefcntStep at hstep
  split at hstep
  · rename_i i hphase
    cases hstep
    refine ⟨i, hphase, createPhase_self _ _, fun q hq => createPhase_of_ne _ hq _, rfl, rfl, rfl,
      ?_, ?_, fun j hj => createSegment_of_ne s hj _⟩
    · simp [CreateSystem.setPhase, CreateSystem.setSegment]
    · simp [CreateSystem.setPhase, CreateSystem.setSegment]
  · cases hstep

end Specs

lemma aboutToCount_eq_some {phase : CreatePhase} {i : ℕ} (h : aboutToCount phase = some i) :
    phase = .attributed true i ∨ phase = .initialised i := by
  unfold aboutToCount at h
  split at h
  · cases h
    exact Or.inl rfl
  · cases h
    exact Or.inr rfl
  · cases h

lemma SetsUpAlone.setSegment {s : CreateSystem Process} {p : Process} (h : SetsUpAlone s p)
    (i : ℕ) {segment : SharedSegment} (hready : segment.mutexReady = false) :
    SetsUpAlone (s.setSegment i segment) p := by
  refine ⟨h.1, ?_⟩
  intro j
  by_cases hj : j = i
  · rw [hj, createSegment_self, hready]
  · rw [createSegment_of_ne s hj, h.2 j]

namespace CreateInvariant

variable {s s' : CreateSystem Process} {p : Process}

/-- A process that sets the segment up does so alone until the mutex is ready. -/
lemma setsUpAlone (h : CreateInvariant s) (hp : setsUp (s.phase p) = true)
    (hbefore : ∀ i, s.phase p ≠ .initialised i) : SetsUpAlone s p := by
  constructor
  · intro q hne
    by_contra hq
    exact hne (h.unique q p (by simpa using hq) hp)
  · intro i
    by_contra hready
    exact hbefore i (h.ready_setup p i (by simpa using hready) hp)

lemma settingUp (h : CreateInvariant s) {phase : CreatePhase} {i : ℕ} (hphase : s.phase p = phase)
    (hsegment : setupSegment phase = some i) (hbefore : ∀ j, phase ≠ .initialised j) :
    SetsUpAlone s p ∧ s.name = some i := by
  subst hphase
  exact ⟨h.setsUpAlone (setsUp_of_setupSegment hsegment) hbefore, h.setup_named p i hsegment⟩

lemma unready_of_unnamed (h : CreateInvariant s) (hname : s.name = none) (i : ℕ) :
    (s.segment i).mutexReady = false := by
  by_contra hready
  have hnamed := h.ready_named i (by simpa using hready)
  rw [hname] at hnamed
  cases hnamed

lemma unlink (h : CreateInvariant s) (hnone : ∀ q, setsUp (s.phase q) = false)
    (hunready : ∀ i, (s.segment i).mutexReady = false) :
    CreateInvariant { s with name := none } := by
  constructor
  case few => exact h.few
  case unique => exact h.unique
  case setup_named =>
    intro q i hq
    have hset : setsUp (s.phase q) = true := setsUp_of_setupSegment hq
    exact absurd hset (ne_true_of_eq_false (hnone q))
  case ready_named =>
    intro i hready
    exact absurd hready (ne_true_of_eq_false (hunready i))
  case ready_setup => exact h.ready_setup
  case cleared => exact h.cleared
  case ready_of_counting => exact h.ready_of_counting
  case unready => exact h.unready
  case ready_count => exact h.ready_count

lemma setSegment (h : CreateInvariant s) {i : ℕ} {segment : SharedSegment}
    (hready : segment.mutexReady = (s.segment i).mutexReady)
    (hcount : segment.refcnt = (s.segment i).refcnt ∨
      segment.refcnt = 0 ∧ (s.segment i).mutexReady = false) :
    CreateInvariant (s.setSegment i segment) := by
  have hsame : ∀ j, ((s.setSegment i segment).segment j).mutexReady =
      (s.segment j).mutexReady := by
    intro j
    by_cases hj : j = i
    · rw [hj, createSegment_self, hready]
    · rw [createSegment_of_ne s hj]
  constructor
  case few => exact h.few
  case unique => exact h.unique
  case setup_named => exact h.setup_named
  case ready_named => exact fun j hj => h.ready_named j ((hsame j).symm.trans hj)
  case ready_setup => exact fun q j hj hq => h.ready_setup q j ((hsame j).symm.trans hj) hq
  case cleared =>
    intro q j hq
    have hold := h.cleared q j hq
    by_cases hj : j = i
    · subst hj
      rw [createSegment_self]
      rcases hcount with hcount | ⟨hzero, -⟩
      · rw [hcount, hold]
      · exact hzero
    · rw [createSegment_of_ne s hj, hold]
  case ready_of_counting => exact fun q j hq => (hsame j).trans (h.ready_of_counting q j hq)
  case unready => exact fun hall => h.unready fun j => (hsame j).symm.trans (hall j)
  case ready_count =>
    intro j hj
    rw [hsame j] at hj
    have hold := h.ready_count j hj
    refine ⟨hold.1, ?_⟩
    by_cases heq : j = i
    · subst heq
      rw [createSegment_self]
      rcases hcount with hcount | ⟨-, hunready⟩
      · rw [hcount]
        exact hold.2
      · exact absurd hj (ne_true_of_eq_false hunready)
    · rw [createSegment_of_ne s heq]
      exact hold.2

lemma rename (h : CreateInvariant s) (hname : s.name = none) (i n : ℕ) :
    CreateInvariant { s with nextSegment := n, name := some i } := by
  have hunready := h.unready_of_unnamed hname
  constructor
  case few => exact h.few
  case unique => exact h.unique
  case setup_named =>
    intro q j hq
    have hnamed := h.setup_named q j hq
    rw [hname] at hnamed
    cases hnamed
  case ready_named =>
    intro j hj
    exact absurd hj (ne_true_of_eq_false (hunready j))
  case ready_setup => exact h.ready_setup
  case cleared => exact h.cleared
  case ready_of_counting => exact h.ready_of_counting
  case unready => exact h.unready
  case ready_count => exact h.ready_count

lemma createdOnce (h : CreateInvariant s) : CreatedOnce s := by
  by_cases hex : ∃ i, (s.segment i).mutexReady = true
  · obtain ⟨i, hi⟩ := hex
    obtain ⟨hone, hcount⟩ := h.ready_count i hi
    constructor
    case once => omega
    case ready => exact fun p j hp => h.ready_of_counting p j (Or.inr hp)
    case counted =>
      intro _ _
      refine ⟨hone, i, h.ready_named i hi, hi, ?_⟩
      rw [hcount]
      exact Int16.toInt_ofNat_of_lt h.few
  · have hunready : ∀ i, (s.segment i).mutexReady = false := by
      intro i
      by_contra hi
      exact hex ⟨i, by simpa using hi⟩
    obtain ⟨hinits, hcreated⟩ := h.unready hunready
    constructor
    case once => omega
    case ready => exact fun p j hp => h.ready_of_counting p j (Or.inr hp)
    case counted => exact fun _ hne => absurd hcreated hne

variable [DecidableEq Process]

lemma setPhase (h : CreateInvariant s) {phase : CreatePhase}
    (hsetup : setsUp phase = true → SetsUpAlone s p)
    (hnamed : ∀ i, setupSegment phase = some i → s.name = some i)
    (hcleared : ∀ i, phase = .attributed false i → (s.segment i).refcnt = 0)
    (hready : ∀ i, phase ≠ .initialised i ∧ phase ≠ .returned i) :
    CreateInvariant (s.setPhase p phase) := by
  constructor
  case few => exact h.few
  case unique =>
    intro q r hq hr
    by_cases hqp : q = p <;> by_cases hrp : r = p
    · rw [hqp, hrp]
    · rw [hqp, createPhase_self] at hq
      rw [createPhase_of_ne s hrp] at hr
      exact absurd hr (ne_true_of_eq_false ((hsetup hq).1 r hrp))
    · rw [hrp, createPhase_self] at hr
      rw [createPhase_of_ne s hqp] at hq
      exact absurd hq (ne_true_of_eq_false ((hsetup hr).1 q hqp))
    · rw [createPhase_of_ne s hqp] at hq
      rw [createPhase_of_ne s hrp] at hr
      exact h.unique q r hq hr
  case setup_named =>
    intro q i hq
    by_cases hqp : q = p
    · rw [hqp, createPhase_self] at hq
      exact hnamed i hq
    · rw [createPhase_of_ne s hqp] at hq
      exact h.setup_named q i hq
  case ready_named => exact h.ready_named
  case ready_setup =>
    intro q i hi hq
    by_cases hqp : q = p
    · rw [hqp, createPhase_self] at hq
      exact absurd hi (ne_true_of_eq_false ((hsetup hq).2 i))
    · rw [createPhase_of_ne s hqp] at hq ⊢
      exact h.ready_setup q i hi hq
  case cleared =>
    intro q i hq
    by_cases hqp : q = p
    · rw [hqp, createPhase_self] at hq
      exact hcleared i hq
    · rw [createPhase_of_ne s hqp] at hq
      exact h.cleared q i hq
  case ready_of_counting =>
    intro q i hq
    by_cases hqp : q = p
    · rw [hqp, createPhase_self] at hq
      rcases hq with hq | hq
      · exact absurd hq (hready i).1
      · exact absurd hq (hready i).2
    · rw [createPhase_of_ne s hqp] at hq
      exact h.ready_of_counting q i hq
  case unready => exact h.unready
  case ready_count => exact h.ready_count

/-! ### One step -/

lemma access (h : CreateInvariant s) (hordered : CreateOrdered s (.access p))
    (hstep : accessStep s p = some s') : CreateInvariant s' := by
  unfold accessStep at hstep
  split at hstep
  · rename_i hphase
    cases hstep
    refine h.setPhase ?_ (by simp [setupSegment]) (by simp) (by simp)
    intro hsetup
    have hname : s.name = none := by
      cases hname : s.name with
      | none => rfl
      | some i =>
        rw [hname] at hsetup
        cases hsetup
    exact ⟨fun q _ => hordered hname q, h.unready_of_unnamed hname⟩
  · cases hstep

lemma shmOpen (h : CreateInvariant s) {succeeds : Bool}
    (hstep : shmOpenStep s p succeeds = some s') : CreateInvariant s' := by
  unfold shmOpenStep at hstep
  split at hstep
  · rename_i isCreate hphase
    have halone : setsUp (.tested isCreate) = true → SetsUpAlone s p := by
      intro hsetup
      exact h.setsUpAlone (by rw [hphase]; exact hsetup) (by simp [hphase])
    have hopened : ∀ i, setsUp (.opened isCreate i) = setsUp (.tested isCreate) := by
      cases isCreate <;> simp [setsUp]
    split at hstep
    · cases hstep
      exact h.setPhase (by simp [setsUp]) (by simp [setupSegment]) (by simp) (by simp)
    · split at hstep
      · rename_i i hname
        cases hstep
        refine h.setPhase ?_ ?_ (by simp) (by simp)
        · rw [hopened]
          exact halone
        · cases isCreate <;> simp [setupSegment, hname]
      · rename_i hname
        cases hstep
        have hunready := h.unready_of_unnamed hname s.nextSegment
        have hfresh : CreateInvariant (s.setSegment s.nextSegment ⟨false, false, 0⟩) :=
          h.setSegment hunready.symm (Or.inr ⟨rfl, hunready⟩)
        refine (hfresh.rename hname s.nextSegment (s.nextSegment + 1)).setPhase ?_ ?_ (by simp)
          (by simp)
        · rw [hopened]
          intro hsetup
          exact (halone hsetup).setSegment s.nextSegment rfl
        · cases isCreate <;> simp [setupSegment]
  · cases hstep

lemma ftruncate (h : CreateInvariant s) {succeeds : Bool}
    (hstep : ftruncateStep s p succeeds = some s') : CreateInvariant s' := by
  unfold ftruncateStep at hstep
  split at hstep
  · rename_i i hphase
    obtain ⟨halone, hnamed⟩ := h.settingUp hphase rfl (by simp)
    split at hstep
    · cases hstep
      have hfailed : CreateInvariant (s.setPhase p .failed) :=
        h.setPhase (by simp [setsUp]) (by simp [setupSegment]) (by simp) (by simp)
      refine hfailed.unlink ?_ halone.2
      intro q
      by_cases hq : q = p
      · rw [hq, createPhase_self]
        rfl
      · rw [createPhase_of_ne s hq]
        exact halone.1 q hq
    · cases hstep
      have hsized : CreateInvariant (s.setSegment i { s.segment i with sized := true }) :=
        h.setSegment rfl (Or.inl rfl)
      refine hsized.setPhase ?_ (by simpa [setupSegment] using hnamed) (by simp) (by simp)
      exact fun _ => halone.setSegment i (halone.2 i)
  · cases hstep

lemma mmap (h : CreateInvariant s) {succeeds : Bool} (hstep : mmapStep s p succeeds = some s') :
    CreateInvariant s' := by
  unfold mmapStep at hstep
  split at hstep
  · cases hstep
    cases succeeds <;>
      exact h.setPhase (by simp [setsUp]) (by simp [setupSegment]) (by simp) (by simp)
  · rename_i i hphase
    obtain ⟨halone, hnamed⟩ := h.settingUp hphase rfl (by simp)
    cases hstep
    refine h.setPhase (fun _ => halone) ?_ ?_ ?_ <;> cases succeeds <;>
      simp [setupSegment, hnamed]
  · cases hstep

lemma setAttributes (h : CreateInvariant s) (hstep : setAttributesStep s p = some s') :
    CreateInvariant s' := by
  unfold setAttributesStep at hstep
  split at hstep
  · rename_i isCreate i hphase
    split at hstep
    · cases hstep
      exact h.setPhase (by simp [setsUp]) (by simp [setupSegment]) (by simp) (by simp)
    · split at hstep
      · cases hstep
        exact h.setPhase (by simp [setsUp]) (by simp [setupSegment]) (by simp) (by simp)
      · rename_i hnew
        rw [Bool.not_eq_true] at hnew
        subst hnew
        obtain ⟨halone, hnamed⟩ := h.settingUp hphase rfl (by simp)
        cases hstep
        have hcleared : CreateInvariant (s.setSegment i ⟨true, false, 0⟩) :=
          h.setSegment (halone.2 i).symm (Or.inr ⟨rfl, halone.2 i⟩)
        refine hcleared.setPhase (fun _ => halone.setSegment i rfl) ?_ ?_ (by simp)
        · simpa [setupSegment] using hnamed
        · intro j hj
          cases hj
          rw [createSegment_self]
  · cases hstep

lemma mutexInit (h : CreateInvariant s) (hstep : mutexInitStep s p = some s') :
    CreateInvariant s' := by
  obtain ⟨i, hphase, hp, hothers, hname, hcreated, hinits, hready, hrefcnt, hframe⟩ :=
    mutexInitStep_spec hstep
  obtain ⟨halone, hnamed⟩ := h.settingUp hphase rfl (by simp)
  have hzero : (s.segment i).refcnt = 0 := h.cleared p i hphase
  have hfirst := h.unready halone.2
  have hsetup : ∀ q, q ≠ p → setsUp (s'.phase q) = false := by
    intro q hq
    rw [hothers q hq]
    exact halone.1 q hq
  have honly : ∀ j, (s'.segment j).mutexReady = true → j = i := by
    intro j hj
    by_contra hne
    rw [hframe j hne, halone.2 j] at hj
    cases hj
  have hself : ∀ q, setsUp (s'.phase q) = true → q = p := by
    intro q hq
    by_contra hne
    exact absurd hq (ne_true_of_eq_false (hsetup q hne))
  constructor
  case few => rw [hcreated]; exact h.few
  case unique =>
    intro q r hq hr
    rw [hself q hq, hself r hr]
  case setup_named =>
    intro q j hq
    have hqp := hself q (setsUp_of_setupSegment hq)
    rw [hqp, hp] at hq
    cases hq
    rw [hname, hnamed]
  case ready_named =>
    intro j hj
    rw [honly j hj, hname, hnamed]
  case ready_setup =>
    intro q j hj hq
    rw [hself q hq, honly j hj, hp]
  case cleared =>
    intro q j hq
    have hqp := hself q (by rw [hq]; rfl)
    rw [hqp, hp] at hq
    cases hq
  case ready_of_counting =>
    intro q j hq
    by_cases hqp : q = p
    · rw [hqp, hp] at hq
      rcases hq with hq | hq <;> cases hq
      exact hready
    · rw [hothers q hqp] at hq
      have hold := h.ready_of_counting q j hq
      exact absurd hold (ne_true_of_eq_false (halone.2 j))
  case unready =>
    intro hall
    exact absurd hready (ne_true_of_eq_false (hall i))
  case ready_count =>
    intro j hj
    rw [honly j hj, hinits, hrefcnt, hcreated, hzero, hfirst.1, hfirst.2]
    exact ⟨rfl, rfl⟩

lemma incRefcnt (h : CreateInvariant s) (hordered : CreateOrdered s (.incRefcnt p))
    (hstep : incRefcntStep s p = some s') : CreateInvariant s' := by
  obtain ⟨i, hphase, hp, hothers, hname, hcreated, hinits, hready, hrefcnt, hframe⟩ :=
    incRefcntStep_spec hstep
  obtain ⟨hfew, hfound⟩ := hordered
  have hi : (s.segment i).mutexReady = true := by
    rcases aboutToCount_eq_some hphase with hattributed | hinitialised
    · exact hfound i hattributed
    · exact h.ready_of_counting p i (Or.inl hinitialised)
  have hsame : ∀ j, (s'.segment j).mutexReady = (s.segment j).mutexReady := by
    intro j
    by_cases hj : j = i
    · rw [hj, hready]
    · rw [hframe j hj]
  have hkept : ∀ q, setsUp (s'.phase q) = true → q ≠ p ∧ setsUp (s.phase q) = true := by
    intro q hq
    by_cases hqp : q = p
    · rw [hqp, hp] at hq
      cases hq
    · rw [hothers q hqp] at hq
      exact ⟨hqp, hq⟩
  constructor
  case few => rw [hcreated]; exact hfew
  case unique => exact fun q r hq hr => h.unique q r (hkept q hq).2 (hkept r hr).2
  case setup_named =>
    intro q j hq
    have hqp := (hkept q (setsUp_of_setupSegment hq)).1
    rw [hothers q hqp] at hq
    rw [hname, h.setup_named q j hq]
  case ready_named =>
    intro j hj
    rw [hname, h.ready_named j ((hsame j).symm.trans hj)]
  case ready_setup =>
    intro q j hj hq
    obtain ⟨hqp, hold⟩ := hkept q hq
    rw [hothers q hqp]
    exact h.ready_setup q j ((hsame j).symm.trans hj) hold
  case cleared =>
    intro q j hq
    obtain ⟨hqp, hold⟩ := hkept q (by rw [hq]; rfl)
    rw [hothers q hqp] at hq
    have hinit := h.ready_setup q i hi hold
    rw [hq] at hinit
    cases hinit
  case ready_of_counting =>
    intro q j hq
    rw [hsame j]
    by_cases hqp : q = p
    · rw [hqp, hp] at hq
      rcases hq with hq | hq <;> cases hq
      exact hi
    · rw [hothers q hqp] at hq
      exact h.ready_of_counting q j hq
  case unready =>
    intro hall
    have hnot := hall i
    rw [hsame i, hi] at hnot
    cases hnot
  case ready_count =>
    intro j hj
    have hold : (s.segment j).mutexReady = true := (hsame j).symm.trans hj
    have hji : j = i := by
      have hnamed := (h.ready_named j hold).symm.trans (h.ready_named i hi)
      exact Option.some.inj hnamed
    obtain ⟨hone, hcount⟩ := h.ready_count i hi
    rw [hji, hinits, hone, hrefcnt, hcreated, hcount, Int16.ofNat_add]
    exact ⟨rfl, rfl⟩

lemma createStep {a : CreateStep Process} (h : CreateInvariant s) (hordered : CreateOrdered s a)
    (hstep : createStep s a = some s') : CreateInvariant s' := by
  cases a with
  | access p => exact h.access hordered hstep
  | shmOpen p succeeds => exact h.shmOpen hstep
  | ftruncate p succeeds => exact h.ftruncate hstep
  | mmap p succeeds => exact h.mmap hstep
  | setAttributes p => exact h.setAttributes hstep
  | mutexInit p => exact h.mutexInit hstep
  | incRefcnt p => exact h.incRefcnt hordered hstep

end CreateInvariant

/-- In every interleaving in which the name is found absent only while nobody sets the segment
up, and those who found it count only once the mutex is ready, the mutex is created once. -/
theorem mutex_created_once [DecidableEq Process] (steps : List (CreateStep Process))
    (s : CreateSystem Process)
    (hordered : AlongRun createStep CreateOrdered (initCreateSystem Process) steps)
    (hrun : run createStep (initCreateSystem Process) steps = some s) : CreatedOnce s := by
  have hinv : CreateInvariant s :=
    invariant_of_steps (fun _ _ _ h hs hstep => h.createStep hs hstep)
      initCreateSystem_invariant hordered hrun
  exact hinv.createdOnce

/-- The steps of a process that finds the name absent, after its access test. -/
def setupSteps (p : ℕ) : List (CreateStep ℕ) :=
  [.shmOpen p true, .ftruncate p true, .mmap p true, .setAttributes p, .mutexInit p, .incRefcnt p]

/-- Process 1 finds the segment that process 0 has opened, and both go on side by side; it
counts itself behind the initialisation, and before process 0 does. -/
def sideBySideSteps : List (CreateStep ℕ) :=
  [.access 0, .shmOpen 0 true, .access 1, .shmOpen 1 true, .ftruncate 0 true, .mmap 0 true,
    .mmap 1 true, .setAttributes 0, .mutexInit 0, .setAttributes 1, .incRefcnt 1, .incRefcnt 0]

theorem side_by_side_created_once :
    AlongRun createStep CreateOrdered (initCreateSystem ℕ) sideBySideSteps ∧
      ∃ s, run createStep (initCreateSystem ℕ) sideBySideSteps = some s ∧ s.created = 2 ∧
        CreatedOnce s := by
  have hordered : AlongRun createStep CreateOrdered (initCreateSystem ℕ) sideBySideSteps := by
    refine .cons (fun _ _ => rfl) rfl (.cons trivial rfl (.cons ?_ rfl (.cons trivial rfl
      (.cons trivial rfl (.cons trivial rfl (.cons trivial rfl (.cons trivial rfl
      (.cons trivial rfl (.cons trivial rfl (.cons ⟨by decide, ?_⟩ rfl
      (.cons ⟨by decide, ?_⟩ rfl trivial)))))))))))
    · intro hname
      cases hname
    · intro i hphase
      cases hphase
      rfl
    · intro i hphase
      cases hphase
  exact ⟨hordered, _, rfl, rfl, mutex_created_once _ _ hordered rfl⟩

/-- Two processes that both find the name absent initialise the mutex twice. -/
theorem two_setups_initialise_twice :
    ∃ s, run createStep (initCreateSystem ℕ)
        (.access 0 :: .access 1 :: (setupSteps 0 ++ setupSteps 1)) = some s ∧
      ¬ CreatedOnce s := by
  refine ⟨_, rfl, ?_⟩
  intro h
  exact absurd h.once (by decide)

end GeneralPurposeLibrary.Proofs
