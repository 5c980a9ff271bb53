import GeneralPurposeLibrary.Proofs.ShmMutexLockCount

/-!
# Recovery of the shared mutex

A robust mutex that was made consistent after `EOWNERDEAD` can be taken over again, so no
number of dead owners makes it unusable.
-/

namespace GeneralPurposeLibrary.Proofs
open GuardedRuns

variable {Process : Type} [DecidableEq Process]

/-- A live process that holds the mutex. -/
def LiveHolder (s : ShmMutexSystem Process) (q : Process) : Prop :=
  s.alive q = true ∧ s.file.mutex.heldBy q = true

omit [DecidableEq Process] in
lemma ready_of_handles {s : ShmMutexSystem Process} {p : Process} (h : ready s p = true) :
    ¬∀ q, s.handles q = 0 := by
  intro hnone
  have hpos := handles_pos_of_ready h
  rw [hnone p] at hpos
  exact Nat.lt_irrefl 0 hpos

/-- The lock of an initialised mutex either blocks on a live holder or is granted. -/
lemma lock_blocked_or_granted {s : ShmMutexSystem Process} {p : Process}
    (hcounts : CountsHolder s.file) (hready : ready s p = true) :
    ((∃ q, LiveHolder s q) ∧ shmMutexStep s (.lock p) = none) ∨
      ((¬∃ q, LiveHolder s q) ∧ ∃ file, shmMutexLock s.alive p s.file = some (0, file) ∧
        shmMutexStep s (.lock p) = some { s with file := file } ∧
        ∀ q, file.mutex.heldBy q = true ↔ q = p) := by
  rw [shmMutexStep, if_pos hready]
  obtain ⟨file, alive, handles⟩ := s
  cases hcounts with
  | unlocked name refCount =>
    right
    refine ⟨?_, _, rfl, rfl, ?_⟩
    · rintro ⟨q, _, hheld⟩
      cases hheld
    · intro q
      simp [PthreadMutex.heldBy, eq_comm]
  | locked name refCount owner =>
    cases howner : alive owner with
    | true =>
      left
      refine ⟨⟨owner, howner, by simp [PthreadMutex.heldBy]⟩, ?_⟩
      simp [shmMutexLock, pthreadMutexLock, howner]
    | false =>
      right
      have hlock : shmMutexLock alive p ⟨shmMutexMagic, name, refCount, 1, .locked owner true⟩ =
          some (0, ⟨shmMutexMagic, name, refCount - 1, 1, .locked p true⟩) := by
        simp only [shmMutexLock, pthreadMutexLock, howner, Bool.false_eq_true, if_false]
        rfl
      refine ⟨?_, _, hlock, ?_, ?_⟩
      · rintro ⟨q, halive, hheld⟩
        have hq : owner = q := by simpa [PthreadMutex.heldBy] using hheld
        rw [← hq] at halive
        exact absurd (halive.symm.trans howner) (by decide)
      · rw [hlock]
        rfl
      · intro q
        simp [PthreadMutex.heldBy, eq_comm]

/-- In every state that the processes can bring about, however many owners have died with the
mutex held: a process with a handle that locks it waits exactly as long as a live process
holds the mutex, and otherwise gets 0 and is its one holder. -/
theorem shm_mutex_stays_usable (file : ShmMutex Process) (hmagic : file.magic ≠ shmMutexMagic)
    (alive : Process → Bool) (calls : List (ShmMutexCall Process))
    (s : ShmMutexSystem Process)
    (hrun : run shmMutexStep (initShmMutexSystem file alive) calls = some s) (p : Process)
    (hready : ready s p = true) :
    ((∃ q, LiveHolder s q) ∧ shmMutexStep s (.lock p) = none) ∨
      ((¬∃ q, LiveHolder s q) ∧ ∃ file, shmMutexLock s.alive p s.file = some (0, file) ∧
        shmMutexStep s (.lock p) = some { s with file := file } ∧
        ∀ q, file.mutex.heldBy q = true ↔ q = p) := by
  have hinit : NotMapped file (initShmMutexSystem file alive) := ⟨rfl, fun _ => rfl⟩
  obtain ⟨hafter, hbefore⟩ := hinit.run hmagic hrun
  by_cases hmapped : ∃ call ∈ calls, MapsFile call
  · exact lock_blocked_or_granted (hafter hmapped) hready
  · have hnone := hbefore fun call hcall hmaps => hmapped ⟨call, hcall, hmaps⟩
    exact absurd hnone.handles_eq (ready_of_handles hready)

theorem shm_mutex_stays_usable_after_two_deaths :
    ∃ s, run shmMutexStep (initShmMutexSystem ⟨0, [], 0, 7, .uninitialised⟩ fun _ => true)
        [.alloc 0 (some []) .mapped, .alloc 1 (some []) .mapped, .alloc 2 (some []) .mapped,
          .lock 0, .crash 0, .lock 1, .crash 1] = some s ∧ ready s 2 = true ∧
      (((∃ q, LiveHolder s q) ∧ shmMutexStep s (.lock 2) = none) ∨
        ((¬∃ q, LiveHolder s q) ∧ ∃ file, shmMutexLock s.alive 2 s.file = some (0, file) ∧
          shmMutexStep s (.lock 2) = some { s with file := file } ∧
          ∀ q, file.mutex.heldBy q = true ↔ q = 2)) :=
  ⟨_, rfl, rfl, shm_mutex_stays_usable ⟨0, [], 0, 7, .uninitialised⟩ (by decide) (fun _ => true)
    [.alloc 0 (some []) .mapped, .alloc 1 (some []) .mapped, .alloc 2 (some []) .mapped,
      .lock 0, .crash 0, .lock 1, .crash 1] _ rfl 2 rfl⟩

end GeneralPurposeLibrary.Proofs
