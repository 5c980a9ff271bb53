import GeneralPurposeLibrary.ShmMutex
import GeneralPurposeLibrary.Foundation.GuardedRuns

/-!
# The lock count of the shared mutex

A process that locks a free mutex increments the count, and one that takes the mutex over from
a dead owner leaves it at the value the owner gave it. The count thus tells whether the mutex
is held, whoever holds it and however often it was taken over.
-/

namespace GeneralPurposeLibrary.Proofs
open GuardedRuns

variable {Process : Type}

/-- The file has been initialised, and its lock count tells whether the mutex is held. -/
inductive CountsHolder : ShmMutex Process → Prop where
  | unlocked (name : List UInt8) (refCount : Int32) :
    CountsHolder ⟨shmMutexMagic, name, refCount, 0, .unlocked⟩
  | locked (name : List UInt8) (refCount : Int32) (owner : Process) :
    CountsHolder ⟨shmMutexMagic, name, refCount, 1, .locked owner true⟩

lemma CountsHolder.lockCount_eq {file : ShmMutex Process} (h : CountsHolder file) :
    file.lockCount = if file.mutex.held then 1 else 0 := by
  cases h with
  | unlocked => rfl
  | locked => rfl

lemma CountsHolder.magic_eq {file : ShmMutex Process} (h : CountsHolder file) :
    file.magic = shmMutexMagic := by
  cases h with
  | unlocked => rfl
  | locked => rfl

lemma CountsHolder.setRefCount {file : ShmMutex Process} (h : CountsHolder file)
    (refCount : Int32) : CountsHolder { file with refCount := refCount } := by
  cases h with
  | unlocked name _ => exact .unlocked name refCount
  | locked name _ owner => exact .locked name refCount owner

/-! ### The calls -/

lemma countsHolder_attach_of_ne {file : ShmMutex Process} (hmagic : file.magic ≠ shmMutexMagic)
    (key : List UInt8) : CountsHolder (file.attach key) := by
  rw [ShmMutex.attach, if_pos hmagic.symm]
  exact .unlocked _ _

lemma CountsHolder.attach {file : ShmMutex Process} (h : CountsHolder file) (key : List UInt8) :
    CountsHolder (file.attach key) := by
  rw [ShmMutex.attach, if_neg (not_not.mpr h.magic_eq.symm)]
  exact h.setRefCount _

/-- A lock on a free mutex counts the new holder, and one that gets `EOWNERDEAD` finds the
count that the dead owner left. -/
lemma CountsHolder.of_lock {file file' : ShmMutex Process} {alive : Process → Bool}
    {p : Process} {ret : Int32} (h : CountsHolder file)
    (hlock : shmMutexLock alive p file = some (ret, file')) : CountsHolder file' := by
  cases h with
  | unlocked name refCount =>
    cases hlock
    exact .locked name refCount p
  | locked name refCount owner =>
    cases howner : alive owner with
    | true =>
      simp only [shmMutexLock, pthreadMutexLock, howner, if_true] at hlock
      cases hlock
    | false =>
      simp only [shmMutexLock, pthreadMutexLock, howner, Bool.false_eq_true, if_false] at hlock
      cases hlock
      exact .locked name (refCount - 1) p

lemma handles_pos_of_ready {s : ShmMutexSystem Process} {p : Process} (h : ready s p = true) :
    0 < s.handles p := by
  rw [ready, Bool.and_eq_true, decide_eq_true_iff] at h
  exact h.2

variable [DecidableEq Process]

lemma CountsHolder.of_unlock {file : ShmMutex Process} {p : Process} (h : CountsHolder file)
    (hheld : file.mutex.heldBy p = true) : CountsHolder (shmMutexUnlock file).2 := by
  cases h with
  | unlocked => cases hheld
  | locked name refCount owner =>
    have hcount : (1 : Int32) - 1 = 0 := by decide
    change CountsHolder ⟨shmMutexMagic, name, refCount, 1 - 1, .unlocked⟩
    rw [hcount]
    exact .unlocked name refCount

/-! ### Runs -/

/-- What a step can do to the file. -/
inductive FileStep (s s' : ShmMutexSystem Process) : ShmMutexCall Process → Prop where
  | same {call : ShmMutexCall Process} (hfile : s'.file = s.file)
    (hhandles : ∀ p, s'.handles p ≤ s.handles p)
    (hcall : ∀ p key, call ≠ .alloc p (some key) .mapped) : FileStep s s' call
  | attach (p : Process) (key : List UInt8) (hfile : s'.file = s.file.attach key) :
    FileStep s s' (.alloc p (some key) .mapped)
  | destroy (p : Process) (hp : 0 < s.handles p)
    (hfile : s'.file = { s.file with refCount := s.file.refCount - 1 }) :
    FileStep s s' (.destroy p)
  | lock (p : Process) (hp : 0 < s.handles p) (ret : Int32)
    (hlock : shmMutexLock s.alive p s.file = some (ret, s'.file)) : FileStep s s' (.lock p)
  | unlock (p : Process) (hp : 0 < s.handles p) (hheld : s.file.mutex.heldBy p = true)
    (hfile : s'.file = (shmMutexUnlock s.file).2) : FileStep s s' (.unlock p)

lemma handles_crashed_le (s : ShmMutexSystem Process) (p q : Process) :
    (crashed s p).handles q ≤ s.handles q := by
  change Function.update s.handles p 0 q ≤ s.handles q
  by_cases hq : q = p
  · subst hq
    rw [Function.update_self]
    exact Nat.zero_le _
  · exact Nat.le_of_eq (Function.update_of_ne hq 0 s.handles)

lemma fileStep_of_step {s s' : ShmMutexSystem Process} {call : ShmMutexCall Process}
    (h : shmMutexStep s call = some s') : FileStep s s' call := by
  cases call with
  | alloc p key result =>
    rw [shmMutexStep, Option.ite_none_right_eq_some] at h
    obtain ⟨-, h⟩ := h
    cases h
    cases key with
    | none => exact .same rfl (fun _ => Nat.le_refl _) (by simp)
    | some key =>
      cases result with
      | null => exact .same rfl (fun _ => Nat.le_refl _) (by simp)
      | mapFailed => exact .same rfl (handles_crashed_le s p) (by simp)
      | mapped => exact .attach p key rfl
  | destroy p =>
    rw [shmMutexStep, Option.ite_none_right_eq_some, Bool.and_eq_true] at h
    obtain ⟨⟨hready, -⟩, h⟩ := h
    cases h
    exact .destroy p (handles_pos_of_ready hready) rfl
  | lock p =>
    rw [shmMutexStep, Option.ite_none_right_eq_some] at h
    obtain ⟨hready, h⟩ := h
    obtain ⟨⟨ret, file⟩, hlock, rfl⟩ := Option.map_eq_some_iff.mp h
    exact .lock p (handles_pos_of_ready hready) ret hlock
  | unlock p =>
    rw [shmMutexStep, Option.ite_none_right_eq_some, Bool.and_eq_true] at h
    obtain ⟨⟨hready, hheld⟩, h⟩ := h
    cases h
    exact .unlock p (handles_pos_of_ready hready) hheld rfl
  | crash p =>
    rw [shmMutexStep, Option.ite_none_right_eq_some] at h
    obtain ⟨-, h⟩ := h
    cases h
    exact .same rfl (handles_crashed_le s p) (by simp)

lemma countsHolder_step (s : ShmMutexSystem Process) (call : ShmMutexCall Process)
    (s' : ShmMutexSystem Process) (h : CountsHolder s.file)
    (hstep : shmMutexStep s call = some s') : CountsHolder s'.file := by
  cases fileStep_of_step hstep with
  | same hfile _ _ => exact hfile ▸ h
  | attach p key hfile => exact hfile ▸ h.attach key
  | destroy p _ hfile => exact hfile ▸ h.setRefCount _
  | lock p _ ret hlock => exact h.of_lock hlock
  | unlock p _ hheld hfile => exact hfile ▸ h.of_unlock hheld

/-- The call maps the file and returns a handle. -/
def MapsFile (call : ShmMutexCall Process) : Prop :=
  ∃ p key, call = .alloc p (some key) .mapped

/-- As long as no call has mapped the file it keeps its contents. -/
structure NotMapped (file : ShmMutex Process) (s : ShmMutexSystem Process) : Prop where
  file_eq : s.file = file
  handles_eq : ∀ p, s.handles p = 0

lemma NotMapped.step {file : ShmMutex Process} {s s' : ShmMutexSystem Process}
    {call : ShmMutexCall Process} (hmagic : file.magic ≠ shmMutexMagic) (h : NotMapped file s)
    (hstep : shmMutexStep s call = some s') :
    MapsFile call ∧ CountsHolder s'.file ∨ ¬ MapsFile call ∧ NotMapped file s' := by
  have hnone (p : Process) : ¬ 0 < s.handles p := by
    rw [h.handles_eq p]
    decide
  cases fileStep_of_step hstep with
  | same hfile hhandles hcall =>
    refine Or.inr ⟨fun ⟨p, key, heq⟩ => hcall p key heq, hfile.trans h.file_eq, ?_⟩
    intro p
    exact Nat.le_zero.mp (h.handles_eq p ▸ hhandles p)
  | attach p key hfile =>
    refine Or.inl ⟨⟨p, key, rfl⟩, ?_⟩
    rw [hfile, h.file_eq]
    exact countsHolder_attach_of_ne hmagic key
  | destroy p hp _ => exact absurd hp (hnone p)
  | lock p hp _ _ => exact absurd hp (hnone p)
  | unlock p hp _ _ => exact absurd hp (hnone p)

lemma NotMapped.run {file : ShmMutex Process} {s s' : ShmMutexSystem Process}
    {calls : List (ShmMutexCall Process)} (hmagic : file.magic ≠ shmMutexMagic)
    (h : NotMapped file s) (hrun : run shmMutexStep s calls = some s') :
    ((∃ call ∈ calls, MapsFile call) → CountsHolder s'.file) ∧
      ((∀ call ∈ calls, ¬ MapsFile call) → NotMapped file s') := by
  induction calls generalizing s with
  | nil =>
    cases hrun
    exact ⟨by simp, fun _ => h⟩
  | cons call calls ih =>
    obtain ⟨s₁, hstep, hrest⟩ := exists_step_of_run_cons hrun
    rcases h.step hmagic hstep with ⟨hmaps, hcounts⟩ | ⟨hmaps, h₁⟩
    · refine ⟨fun _ => invariant_of_run countsHolder_step hcounts hrest, ?_⟩
      intro hall
      exact absurd hmaps (hall call List.mem_cons_self)
    · obtain ⟨hafter, hbefore⟩ := ih h₁ hrest
      refine ⟨?_, fun hall => hbefore fun c hc => hall c (List.mem_cons_of_mem _ hc)⟩
      rintro ⟨c, hc, hmapsc⟩
      rcases List.mem_cons.mp hc with rfl | hc
      · exact absurd hmapsc hmaps
      · exact hafter ⟨c, hc, hmapsc⟩

/-- From the first call on that maps the file, the lock count is 1 while a live or dead
process holds the mutex and 0 otherwise; before it the file is as it was. -/
theorem lock_count_tells_holder (file : ShmMutex Process) (hmagic : file.magic ≠ shmMutexMagic)
    (alive : Process → Bool) (calls : List (ShmMutexCall Process))
    (s : ShmMutexSystem Process)
    (hrun : run shmMutexStep (initShmMutexSystem file alive) calls = some s) :
    ((∃ call ∈ calls, MapsFile call) →
      s.file.lockCount = if s.file.mutex.held then 1 else 0) ∧
    ((∀ call ∈ calls, ¬ MapsFile call) → s.file = file ∧ ∀ p, s.handles p = 0) := by
  have hinit : NotMapped file (initShmMutexSystem file alive) := ⟨rfl, fun _ => rfl⟩
  obtain ⟨hafter, hbefore⟩ := hinit.run hmagic hrun
  refine ⟨fun hmapped => (hafter hmapped).lockCount_eq, ?_⟩
  intro hnone
  exact ⟨(hbefore hnone).file_eq, (hbefore hnone).handles_eq⟩

/-- Two owners in turn die while they hold the mutex, and a third process takes it over. -/
def deathsInTurn : List (ShmMutexCall Nat) :=
  [.alloc 0 (some []) .mapped, .alloc 1 (some []) .mapped, .alloc 2 (some []) .mapped,
    .lock 0, .crash 0, .lock 1, .crash 1, .lock 2]

theorem third_owner_counted :
    ∃ s, run shmMutexStep (initShmMutexSystem ⟨0, [], 0, 7, .uninitialised⟩ fun _ => true)
        deathsInTurn = some s ∧
      s.file.lockCount = if s.file.mutex.held then 1 else 0 := by
  have hruns : (run shmMutexStep
      (initShmMutexSystem ⟨0, [], 0, 7, .uninitialised⟩ fun _ => true) deathsInTurn).isSome := by
    decide
  obtain ⟨s, hrun⟩ := Option.isSome_iff_exists.mp hruns
  have hcount := (lock_count_tells_holder _ (by decide) _ _ s hrun).1
  exact ⟨s, hrun, hcount ⟨.alloc 0 (some []) .mapped, List.mem_cons_self, 0, [], rfl⟩⟩

end GeneralPurposeLibrary.Proofs
