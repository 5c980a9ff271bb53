import GeneralPurposeLibrary.IpcSemsv
import GeneralPurposeLibrary.Foundation.GuardedRuns
import Mathlib.Tactic.Common

/-!
# Mutual exclusion of the semaphore lock

While the semaphore exists and has been initialised, its value is at most one and is zero
when a process holds the lock. This stays so unless the creator removes the semaphore under a
process that holds it, or a process takes a semaphore before its creator has set its value.
-/

namespace GeneralPurposeLibrary.Proofs
open GuardedRuns

variable {Process : Type}

structure SemInvariant (s : SemSystem Process) : Prop where
  sem_lt : ∀ sem, s.sem = some sem → sem.id < s.nextId
  initialising_lt : ∀ p id b, s.phase p = .initialising id b → id < s.nextId
  initialising_unique : ∀ p q id b c, s.phase p = .initialising id b →
    s.phase q = .initialising id c → p = q
  uninitialised : ∀ p b sem, s.phase p = .initialising sem.id b → s.sem = some sem →
    sem.initialised = false
  value_le : ∀ sem, s.sem = some sem → sem.initialised = true → sem.value ≤ 1
  held : ∀ p, s.holding p = true → ∃ handle sem, s.phase p = .ready handle ∧
    s.sem = some sem ∧ handle.semId = some sem.id ∧ sem.initialised = true ∧ sem.value = 0
  holder_unique : ∀ p q, s.holding p = true → s.holding q = true → p = q

/-- No two processes are between a lock that returned 0 and the matching unlock. -/
def MutualExclusion (s : SemSystem Process) : Prop :=
  ∀ p q, s.holding p = true → s.holding q = true → p = q

/-- The creator does not remove the semaphore while a process holds the lock, and no process
takes a semaphore that its creator has not initialised yet. -/
def SemSafe (s : SemSystem Process) : SemStep Process → Prop
  | .lock p => ∀ handle sem, s.phase p = .ready handle → liveSem s handle = some sem →
      sem.value ≠ 0 → sem.initialised = true
  | .destroy p => ∀ handle, s.phase p = .ready handle → handle.isCreator = true →
      liveSem s handle ≠ none → ∀ q, s.holding q = false
  | _ => True

lemma liveSem_eq_some {s : SemSystem Process} {handle : SemHandle} {sem : Semaphore}
    (h : liveSem s handle = some sem) : s.sem = some sem ∧ handle.semId = some sem.id := by
  unfold liveSem at h
  obtain ⟨hsem, hid⟩ := Option.filter_eq_some_iff.mp h
  exact ⟨hsem, (beq_iff_eq.mp hid).symm⟩

lemma SemInvariant.not_holding {s : SemSystem Process} (h : SemInvariant s) {p : Process}
    (hp : ∀ handle, s.phase p ≠ .ready handle) : s.holding p = false := by
  by_contra hholding
  obtain ⟨handle, sem, hready, -⟩ := h.held p (by simpa using hholding)
  exact hp handle hready

/-- Nobody holds the lock unless an initialised semaphore has the value zero. -/
lemma SemInvariant.no_holder {s : SemSystem Process} (h : SemInvariant s)
    (hfree : ∀ sem, s.sem = some sem → sem.initialised = true → sem.value ≠ 0) :
    ∀ q, s.holding q = false := by
  intro q
  by_contra hq
  obtain ⟨_, sem, -, hsem, -, hinit, hzero⟩ := h.held q (by simpa using hq)
  exact hfree sem hsem hinit hzero

lemma SemInvariant.initialise {s : SemSystem Process} (h : SemInvariant s) {sem : Semaphore}
    (hsem : s.sem = some sem) (hnew : sem.initialised = false)
    (hothers : ∀ q b, s.phase q ≠ .initialising sem.id b) :
    SemInvariant { s with sem := some ⟨sem.id, 1, true⟩ } := by
  have hnone := h.no_holder fun sem' hsem' hinit => by
    rw [hsem] at hsem'
    cases hsem'
    exact absurd hinit (ne_true_of_eq_false hnew)
  constructor
  case sem_lt =>
    intro sem' hsem'
    cases hsem'
    exact h.sem_lt sem hsem
  case initialising_lt => exact h.initialising_lt
  case initialising_unique => exact h.initialising_unique
  case uninitialised =>
    intro q b sem' hq hsem'
    cases hsem'
    exact absurd hq (hothers q b)
  case value_le =>
    intro sem' hsem' _
    cases hsem'
    exact Nat.le_refl 1
  case held =>
    intro q hq
    exact absurd hq (ne_true_of_eq_false (hnone q))
  case holder_unique =>
    intro q r hq
    exact absurd hq (ne_true_of_eq_false (hnone q))

lemma SemInvariant.remove {s : SemSystem Process} (h : SemInvariant s)
    (hnone : ∀ q, s.holding q = false) : SemInvariant { s with sem := none } := by
  constructor
  case sem_lt => simp
  case initialising_lt => exact h.initialising_lt
  case initialising_unique => exact h.initialising_unique
  case uninitialised => simp
  case value_le => simp
  case held => simp [hnone]
  case holder_unique => simp [hnone]

lemma SemInvariant.revalue {s : SemSystem Process} (h : SemInvariant s) {sem : Semaphore}
    (hsem : s.sem = some sem) (hnone : ∀ q, s.holding q = false) {v : ℕ} (hv : v ≤ 1) :
    SemInvariant { s with sem := some { sem with value := v } } := by
  constructor
  case sem_lt =>
    intro sem' hsem'
    cases hsem'
    exact h.sem_lt sem hsem
  case initialising_lt => exact h.initialising_lt
  case initialising_unique => exact h.initialising_unique
  case uninitialised =>
    intro q b sem' hq hsem'
    cases hsem'
    exact h.uninitialised q b sem hq hsem
  case value_le =>
    intro sem' hsem' _
    cases hsem'
    exact hv
  case held => simp [hnone]
  case holder_unique => simp [hnone]

lemma creates_not_ready {phase : SemPhase} {b : Bool} (h : creates phase = some b)
    (handle : SemHandle) : phase ≠ .ready handle := by
  intro heq
  rw [heq] at h
  cases h

lemma SemInvariant.held_live {s : SemSystem Process} (h : SemInvariant s) {p : Process}
    {handle : SemHandle} (hholding : s.holding p = true) (hready : s.phase p = .ready handle) :
    ∃ sem, liveSem s handle = some sem ∧ sem.value = 0 := by
  obtain ⟨handle', sem, hphase, hsem, hid, -, hzero⟩ := h.held p hholding
  rw [hready] at hphase
  cases hphase
  refine ⟨sem, ?_, hzero⟩
  simp [liveSem, hsem, hid]

lemma SemInvariant.lockFails {s s' : SemSystem Process} {p : Process} (h : SemInvariant s)
    (hstep : ipcSemsvLockFails s p = some s') : SemInvariant s' := by
  unfold ipcSemsvLockFails at hstep
  split at hstep
  · cases hstep
    exact h
  · cases hstep

lemma initSemSystem_invariant : SemInvariant (initSemSystem Process) := by
  constructor <;> simp [initSemSystem]

section Members

variable [DecidableEq Process] (s : SemSystem Process) {p q : Process}

@[simp] lemma setPhase_self (phase : SemPhase) : (s.setPhase p phase).phase p = phase := by
  simp [SemSystem.setPhase]

lemma setPhase_of_ne (h : q ≠ p) (phase : SemPhase) :
    (s.setPhase p phase).phase q = s.phase q := by
  simp [SemSystem.setPhase, h]

@[simp] lemma setHolding_self (holding : Bool) : (s.setHolding p holding).holding p = holding := by
  simp [SemSystem.setHolding]

lemma setHolding_of_ne (h : q ≠ p) (holding : Bool) :
    (s.setHolding p holding).holding q = s.holding q := by
  simp [SemSystem.setHolding, h]

end Members

namespace SemInvariant

variable [DecidableEq Process] {s : SemSystem Process} {p : Process}

lemma setPhase (h : SemInvariant s) (hp : s.holding p = false) (phase : SemPhase)
    (hphase : ∀ id b, phase ≠ .initialising id b) : SemInvariant (s.setPhase p phase) := by
  have hold : ∀ q id b, (s.setPhase p phase).phase q = .initialising id b →
      s.phase q = .initialising id b := by
    intro q id b hq
    by_cases heq : q = p
    · subst heq
      rw [setPhase_self] at hq
      exact absurd hq (hphase id b)
    · rwa [setPhase_of_ne s heq] at hq
  constructor
  case sem_lt => exact h.sem_lt
  case initialising_lt => exact fun q id b hq => h.initialising_lt q id b (hold q id b hq)
  case initialising_unique =>
    exact fun q r id b c hq hr => h.initialising_unique q r id b c (hold q id b hq) (hold r id c hr)
  case uninitialised =>
    exact fun q b sem hq hsem => h.uninitialised q b sem (hold q _ b hq) hsem
  case value_le => exact h.value_le
  case held =>
    intro q hq
    obtain ⟨handle, sem, hready, hrest⟩ := h.held q hq
    have hne : q ≠ p := by
      intro heq
      subst heq
      exact ne_true_of_eq_false hp hq
    refine ⟨handle, sem, ?_, hrest⟩
    rw [setPhase_of_ne s hne, hready]
  case holder_unique => exact h.holder_unique

lemma create (h : SemInvariant s) (hp : s.holding p = false) (hsem : s.sem = none) (value : ℕ)
    (b : Bool) :
    SemInvariant
      (({ s with nextId := s.nextId + 1, sem := some ⟨s.nextId, value, false⟩ } :
        SemSystem Process).setPhase p (.initialising s.nextId b)) := by
  have hnone := h.no_holder fun sem hsome => by
    rw [hsem] at hsome
    cases hsome
  have hcases : ∀ q id c,
      (({ s with nextId := s.nextId + 1, sem := some ⟨s.nextId, value, false⟩ } :
        SemSystem Process).setPhase p (.initialising s.nextId b)).phase q = .initialising id c →
      (q = p ∧ id = s.nextId) ∨ (id < s.nextId ∧ s.phase q = .initialising id c) := by
    intro q id c hq
    by_cases heq : q = p
    · subst heq
      rw [setPhase_self] at hq
      cases hq
      exact Or.inl ⟨rfl, rfl⟩
    · rw [setPhase_of_ne _ heq] at hq
      exact Or.inr ⟨h.initialising_lt q id c hq, hq⟩
  constructor
  case sem_lt =>
    intro sem hsem
    cases hsem
    exact Nat.lt_succ_self _
  case initialising_lt =>
    intro q id c hq
    change id < s.nextId + 1
    rcases hcases q id c hq with ⟨-, hid⟩ | ⟨hid, -⟩ <;> omega
  case initialising_unique =>
    intro q r id c d hq hr
    rcases hcases q id c hq with ⟨hqp, hid⟩ | ⟨hid, hq⟩ <;>
      rcases hcases r id d hr with ⟨hrp, hid'⟩ | ⟨hid', hr⟩
    · rw [hqp, hrp]
    · omega
    · omega
    · exact h.initialising_unique q r id c d hq hr
  case uninitialised =>
    intro q c sem _ hsem
    cases hsem
    rfl
  case value_le =>
    intro sem hsem hinit
    cases hsem
    cases hinit
  case held =>
    intro q hq
    exact absurd hq (ne_true_of_eq_false (hnone q))
  case holder_unique =>
    intro q r hq
    exact absurd hq (ne_true_of_eq_false (hnone q))

lemma drop (h : SemInvariant s) : SemInvariant (s.setHolding p false) := by
  have hsub : ∀ q, (s.setHolding p false).holding q = true → s.holding q = true := by
    intro q hq
    by_cases heq : q = p
    · subst heq
      rw [setHolding_self] at hq
      cases hq
    · rwa [setHolding_of_ne s heq] at hq
  constructor
  case sem_lt => exact h.sem_lt
  case initialising_lt => exact h.initialising_lt
  case initialising_unique => exact h.initialising_unique
  case uninitialised => exact h.uninitialised
  case value_le => exact h.value_le
  case held => exact fun q hq => h.held q (hsub q hq)
  case holder_unique => exact fun q r hq hr => h.holder_unique q r (hsub q hq) (hsub r hr)

lemma hold (h : SemInvariant s) (hnone : ∀ q, s.holding q = false) {handle : SemHandle}
    {sem : Semaphore} (hready : s.phase p = .ready handle) (hsem : s.sem = some sem)
    (hid : handle.semId = some sem.id) (hinit : sem.initialised = true)
    (hzero : sem.value = 0) : SemInvariant (s.setHolding p true) := by
  have honly : ∀ q, (s.setHolding p true).holding q = true → q = p := by
    intro q hq
    by_contra hne
    rw [setHolding_of_ne s hne, hnone q] at hq
    cases hq
  constructor
  case sem_lt => exact h.sem_lt
  case initialising_lt => exact h.initialising_lt
  case initialising_unique => exact h.initialising_unique
  case uninitialised => exact h.uninitialised
  case value_le => exact h.value_le
  case held =>
    intro q hq
    rw [honly q hq]
    exact ⟨handle, sem, hready, hsem, hid, hinit, hzero⟩
  case holder_unique =>
    intro q r hq hr
    rw [honly q hq, honly r hr]

/-! ### One step -/

variable {s' : SemSystem Process}

lemma semgetExcl {value : ℕ} (h : SemInvariant s) (hstep : semgetExcl s p value = some s') :
    SemInvariant s' := by
  unfold GeneralPurposeLibrary.semgetExcl at hstep
  split at hstep
  · cases hstep
  · rename_i inLock hcreates
    have hp := h.not_holding (creates_not_ready hcreates)
    split at hstep
    · cases hstep
      exact h.setPhase hp _ (by simp)
    · rename_i hsem
      cases hstep
      exact h.create hp hsem value inLock

lemma setval (h : SemInvariant s) (hstep : setval s p = some s') : SemInvariant s' := by
  unfold GeneralPurposeLibrary.setval at hstep
  split at hstep
  · rename_i id inLock hphase
    have hp := h.not_holding (p := p) (by simp [hphase])
    split at hstep
    · rename_i sem hsem
      split at hstep
      · rename_i hid
        cases hstep
        subst hid
        have hready := h.setPhase hp (.ready ⟨some sem.id, true, 0⟩) (by simp)
        refine hready.initialise hsem (h.uninitialised p inLock sem hphase hsem) ?_
        intro q b hq
        by_cases heq : q = p
        · subst heq
          rw [setPhase_self] at hq
          cases hq
        · rw [setPhase_of_ne s heq] at hq
          exact heq (h.initialising_unique q p sem.id b inLock hq hphase)
      · cases hstep
        exact h.setPhase hp _ (by cases inLock <;> simp [afterNull])
    · cases hstep
      exact h.setPhase hp _ (by cases inLock <;> simp [afterNull])
  · cases hstep

lemma semget {granted : Bool} (h : SemInvariant s) (hstep : semget s p granted = some s') :
    SemInvariant s' := by
  unfold GeneralPurposeLibrary.semget at hstep
  split at hstep
  · rename_i hphase
    cases hstep
    exact h.setPhase (h.not_holding (by simp [hphase])) _ (by simp)
  · cases hstep

lemma createFails (h : SemInvariant s) (hstep : createFails s p = some s') :
    SemInvariant s' := by
  unfold GeneralPurposeLibrary.createFails at hstep
  split at hstep
  · cases hstep
  · rename_i inLock hcreates
    cases hstep
    apply h.setPhase (h.not_holding (creates_not_ready hcreates))
    cases inLock <;> simp [afterNull]

lemma lock (h : SemInvariant s) (hsafe : SemSafe s (.lock p))
    (hstep : ipcSemsvLock s p = some s') : SemInvariant s' := by
  unfold ipcSemsvLock at hstep
  split at hstep
  · rename_i handle hphase
    split at hstep
    · rename_i hlive
      cases hstep
      apply h.setPhase _ _ (by simp)
      by_contra hholding
      obtain ⟨sem, hsome, -⟩ := h.held_live (by simpa using hholding) hphase
      rw [hlive] at hsome
      cases hsome
    · rename_i sem hlive
      split at hstep
      · cases hstep
      · rename_i hvalue
        cases hstep
        obtain ⟨hsem, hid⟩ := liveSem_eq_some hlive
        have hinit := hsafe handle sem hphase hlive hvalue
        have hle := h.value_le sem hsem hinit
        have hnone := h.no_holder fun sem' hsem' _ => by
          rw [hsem] at hsem'
          cases hsem'
          exact hvalue
        have hready := h.setPhase (hnone p)
          (.ready { handle with lockref := handle.lockref + 1 }) (by simp)
        have hvalued := hready.revalue hsem hnone (v := sem.value - 1) (by omega)
        exact hvalued.hold hnone (setPhase_self s _) rfl hid hinit (by
          change sem.value - 1 = 0
          omega)
  · cases hstep

lemma unlock (h : SemInvariant s) (hstep : ipcSemsvUnlock s p = some s') :
    SemInvariant s' := by
  unfold ipcSemsvUnlock at hstep
  split at hstep
  · rename_i handle hphase
    split at hstep
    · rename_i hholding
      obtain ⟨sem, hlive, hzero⟩ := h.held_live hholding hphase
      rw [hlive] at hstep
      cases hstep
      have hnone : ∀ q, (s.setHolding p false).holding q = false := by
        intro q
        by_cases heq : q = p
        · rw [heq, setHolding_self]
        · rw [setHolding_of_ne s heq]
          by_contra hq
          exact heq (h.holder_unique q p (by simpa using hq) hholding)
      have hready := h.drop.setPhase (hnone p)
        (.ready { handle with lockref := handle.lockref - 1 }) (by simp)
      exact hready.revalue (liveSem_eq_some hlive).1 hnone (by omega)
    · cases hstep
  · cases hstep

lemma destroy (h : SemInvariant s) (hsafe : SemSafe s (.destroy p))
    (hstep : ipcSemsvDestroy s p = some s') : SemInvariant s' := by
  unfold ipcSemsvDestroy at hstep
  split at hstep
  · rename_i handle hphase
    split at hstep
    · cases hstep
    · rename_i hholding
      have hp : s.holding p = false := by simpa using hholding
      split at hstep
      · rename_i hcreator
        split at hstep
        · cases hstep
          exact h
        · rename_i sem hlive
          cases hstep
          have hnone := hsafe handle hphase hcreator (by simp [hlive])
          exact (h.remove hnone).setPhase hp _ (by simp)
      · cases hstep
        exact h.setPhase hp _ (by simp)
  · cases hstep

lemma semStep {a : SemStep Process} (h : SemInvariant s) (hsafe : SemSafe s a)
    (hstep : semStep s a = some s') : SemInvariant s' := by
  cases a with
  | semgetExcl p value => exact h.semgetExcl hstep
  | setval p => exact h.setval hstep
  | semget p granted => exact h.semget hstep
  | createFails p => exact h.createFails hstep
  | lock p => exact h.lock hsafe hstep
  | lockFails p => exact h.lockFails hstep
  | unlock p => exact h.unlock hstep
  | destroy p => exact h.destroy hsafe hstep

end SemInvariant

/-- In every run in which the semaphore is never removed while a process holds it and never
taken before it is initialised, at most one process is in the critical section. -/
theorem semsv_mutual_exclusion [DecidableEq Process] (steps : List (SemStep Process))
    (s : SemSystem Process) (hsafe : AlongRun semStep SemSafe (initSemSystem Process) steps)
    (hrun : run semStep (initSemSystem Process) steps = some s) : MutualExclusion s := by
  have hinv : SemInvariant s :=
    invariant_of_steps (fun _ _ _ h hs hstep => h.semStep hs hstep) initSemSystem_invariant
      hsafe hrun
  exact hinv.holder_unique

/-- Process 0 creates the semaphore and process 1 takes it. -/
def takenSteps : List (SemStep ℕ) :=
  [.semgetExcl 0 0, .setval 0, .semgetExcl 1 0, .semget 1 true, .lock 1]

theorem taken_exclusive :
    AlongRun semStep SemSafe (initSemSystem ℕ) takenSteps ∧
      ∃ s, run semStep (initSemSystem ℕ) takenSteps = some s ∧ MutualExclusion s := by
  have hsafe : AlongRun semStep SemSafe (initSemSystem ℕ) takenSteps := by
    refine .cons trivial rfl (.cons trivial rfl (.cons trivial rfl (.cons trivial rfl
      (.cons ?_ rfl trivial))))
    intro handle sem _ hlive _
    cases (liveSem_eq_some hlive).1
    rfl
  exact ⟨hsafe, _, rfl, semsv_mutual_exclusion takenSteps _ hsafe rfl⟩

/-- Process 0 removes the semaphore while process 1 holds it, and process 2 creates and takes
a new one. -/
theorem removed_semaphore_taken_twice :
    ∃ s, run semStep (initSemSystem ℕ)
        (takenSteps ++ [.destroy 0, .semgetExcl 2 0, .setval 2, .lock 2]) = some s ∧
      ¬ MutualExclusion s := by
  refine ⟨_, rfl, ?_⟩
  intro h
  exact absurd (h 1 2 (by decide) (by decide)) (by decide)

end GeneralPurposeLibrary.Proofs
