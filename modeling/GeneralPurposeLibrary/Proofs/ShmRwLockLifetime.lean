import GeneralPurposeLibrary.ShmRwLock
import GeneralPurposeLibrary.Foundation.GuardedRuns
import Mathlib.Tactic.Common

/-!
# Lifetime of the shared reader-writer lock

The magic value in the file is set with the lock by the first process to attach and stays
when the lock is destroyed, so no later process initialises the lock again.
-/

namespace GeneralPurposeLibrary.Proofs
open GuardedRuns

variable {Process : Type}

/-- The lock has been initialised and not destroyed since. -/
def LockLive (lock : PthreadRwlock Process) : Prop :=
  ∃ readers writer, lock = .initialised readers writer

variable [DecidableEq Process]

/-- The call acts on a lock that is initialised and not destroyed, and destroys it only when
no other process is attached or holds it. -/
def RwLawful (s : RwSystem Process) : RwCall Process → Prop
  | .alloc _ _ => True
  | .rdlock _ => LockLive s.file.rwLock
  | .wrlock _ => LockLive s.file.rwLock
  | .unlock _ => LockLive s.file.rwLock
  | .destroy p => ∀ q, q ≠ p → s.attached q = false ∧ heldBy q s.file.rwLock = false

/-- The processes attached after a call. -/
def attachedAfter (attached : Process → Bool) : RwCall Process → Process → Bool
  | .alloc p true => Function.update attached p true
  | .destroy p => Function.update attached p false
  | _ => attached

def isDestroy : RwCall Process → Bool
  | .destroy _ => true
  | _ => false

/-- A process destroys only when no other one is attached, and nobody locks or unlocks once a
process has destroyed. -/
def DestroyComesLast (attached : Process → Bool) (destroyed : Bool) : RwCall Process → Prop
  | .alloc _ _ => True
  | .rdlock _ => destroyed = false
  | .wrlock _ => destroyed = false
  | .unlock _ => destroyed = false
  | .destroy p => ∀ q, q ≠ p → attached q = false

/-- Every call of the sequence meets `DestroyComesLast`, where `attached` are the processes
between their alloc and destroy calls. -/
def DestroysLast : (Process → Bool) → Bool → List (RwCall Process) → Prop
  | _, _, [] => True
  | attached, destroyed, call :: calls =>
    DestroyComesLast attached destroyed call ∧
      DestroysLast (attachedAfter attached call) (destroyed || isDestroy call) calls

/-- What the file says about the calls so far. -/
structure RwInvariant (attached : Process → Bool) (destroyed : Bool) (s : RwSystem Process) :
    Prop where
  attached_eq : s.attached = attached
  fresh : s.file.magic ≠ shmMutexMagic → destroyed = false ∧ ∀ p, s.attached p = false
  live : s.file.magic = shmMutexMagic → (LockLive s.file.rwLock ↔ destroyed = false)
  held : ∀ p, heldBy p s.file.rwLock = true → s.attached p = true

lemma initRwSystem_invariant :
    RwInvariant (fun _ => false) false (initRwSystem Process) := by
  constructor
  case attached_eq => rfl
  case fresh => exact fun _ => ⟨rfl, fun _ => rfl⟩
  case live =>
    intro hmagic
    have hne : (0 : Int32) ≠ shmMutexMagic := by decide
    exact absurd hmagic hne
  case held =>
    intro p hp
    cases hp

/-! ### The pthread calls -/

/-- A call of `p` that keeps whether the lock is live and adds no other holder than `p`. -/
def KeepsLock (p : Process) (lock lock' : PthreadRwlock Process) : Prop :=
  (LockLive lock ↔ LockLive lock') ∧ ∀ q, heldBy q lock' = true → q = p ∨ heldBy q lock = true

lemma keepsLock_refl (p : Process) (lock : PthreadRwlock Process) : KeepsLock p lock lock :=
  ⟨Iff.rfl, fun _ => Or.inr⟩

lemma keepsLock_initialised {p : Process} {readers readers' : List Process}
    {writer writer' : Option Process} (hr : ∀ q ∈ readers', q = p ∨ q ∈ readers)
    (hw : ∀ q, writer' = some q → q = p ∨ writer = some q) :
    KeepsLock p (.initialised readers writer) (.initialised readers' writer') := by
  refine ⟨iff_of_true ⟨_, _, rfl⟩ ⟨_, _, rfl⟩, ?_⟩
  intro q hq
  simp only [heldBy, Bool.or_eq_true, decide_eq_true_eq] at hq ⊢
  rcases hq with hq | hq
  · rcases hr q hq with heq | hmem
    · exact Or.inl heq
    · exact Or.inr (Or.inl hmem)
  · rcases hw q hq with heq | hsome
    · exact Or.inl heq
    · exact Or.inr (Or.inr hsome)

lemma rdlock_keepsLock {p : Process} {lock lock' : PthreadRwlock Process}
    (h : pthreadRwlockRdlock p lock = some lock') : KeepsLock p lock lock' := by
  match lock with
  | .uninitialised => cases h; exact keepsLock_refl p _
  | .destroyed => cases h; exact keepsLock_refl p _
  | .initialised readers none =>
    cases h
    exact keepsLock_initialised (fun q hq => List.mem_cons.mp hq) (by simp)
  | .initialised readers (some r) =>
    dsimp only [pthreadRwlockRdlock] at h
    split at h
    · cases h
      exact keepsLock_refl p _
    · cases h

lemma wrlock_keepsLock {p : Process} {lock lock' : PthreadRwlock Process}
    (h : pthreadRwlockWrlock p lock = some lock') : KeepsLock p lock lock' := by
  match lock with
  | .uninitialised => cases h; exact keepsLock_refl p _
  | .destroyed => cases h; exact keepsLock_refl p _
  | .initialised readers none =>
    dsimp only [pthreadRwlockWrlock] at h
    split at h
    · cases h
      refine keepsLock_initialised (by simp) ?_
      intro q hq
      exact Or.inl (Option.some.inj hq).symm
    · cases h
  | .initialised readers (some r) =>
    dsimp only [pthreadRwlockWrlock] at h
    split at h
    · cases h
      exact keepsLock_refl p _
    · cases h

lemma unlock_keepsLock (p : Process) (lock : PthreadRwlock Process) :
    KeepsLock p lock (pthreadRwlockUnlock p lock) := by
  match lock with
  | .uninitialised => exact keepsLock_refl p _
  | .destroyed => exact keepsLock_refl p _
  | .initialised readers writer =>
    dsimp only [pthreadRwlockUnlock]
    split
    · exact keepsLock_initialised (fun q => Or.inr) (by simp)
    · exact keepsLock_initialised (fun q hq => Or.inr (List.mem_of_mem_erase hq)) (fun q => Or.inr)

/-! ### The calls of the library -/

namespace RwInvariant

variable {attached : Process → Bool} {destroyed : Bool} {s s' : RwSystem Process}

lemma magic_of_attached (h : RwInvariant attached destroyed s) {p : Process}
    (hp : s.attached p = true) : s.file.magic = shmMutexMagic := by
  by_contra hmagic
  have hnone := (h.fresh hmagic).2 p
  exact ne_true_of_eq_false hnone hp

lemma live_iff (h : RwInvariant attached destroyed s) {p : Process}
    (hp : s.attached p = true) : LockLive s.file.rwLock ↔ destroyed = false :=
  h.live (h.magic_of_attached hp)

lemma relock (h : RwInvariant attached destroyed s) {p : Process} (hp : s.attached p = true)
    {refCount : Int32} {rwLock : PthreadRwlock Process}
    (hkeeps : KeepsLock p s.file.rwLock rwLock) :
    RwInvariant attached destroyed
      { s with file := { s.file with refCount := refCount, rwLock := rwLock } } := by
  constructor
  case attached_eq => exact h.attached_eq
  case fresh => exact h.fresh
  case live => exact fun hmagic => hkeeps.1.symm.trans (h.live hmagic)
  case held =>
    intro q hq
    rcases hkeeps.2 q hq with rfl | hold
    · exact hp
    · exact h.held q hold

lemma alloc (h : RwInvariant attached destroyed s) {p : Process} {mapped : Bool}
    (hstep : shmRwlockAlloc s p mapped = some s') :
    RwInvariant (attachedAfter attached (.alloc p mapped)) destroyed s' := by
  unfold shmRwlockAlloc at hstep
  split at hstep
  · cases hstep
  · cases mapped with
    | false =>
      cases hstep
      exact h
    | true =>
      have hmono : ∀ q, s.attached q = true → Function.update s.attached p true q = true := by
        intro q hq
        by_cases heq : q = p
        · rw [heq, Function.update_self]
        · rw [Function.update_of_ne heq, hq]
      rw [if_neg (by decide)] at hstep
      split at hstep <;> rename_i hmagic <;> cases hstep
      · constructor
        case attached_eq => exact congrArg (Function.update · p true) h.attached_eq
        case fresh => exact fun hne => absurd rfl hne
        case live => exact fun _ => iff_of_true ⟨[], none, rfl⟩ (h.fresh (Ne.symm hmagic)).1
        case held =>
          intro q hq
          simp [heldBy] at hq
      · have hsame : s.file.magic = shmMutexMagic := by simpa using Eq.symm (not_not.mp hmagic)
        constructor
        case attached_eq => exact congrArg (Function.update · p true) h.attached_eq
        case fresh => exact fun hne => absurd hsame hne
        case live => exact h.live
        case held => exact fun q hq => hmono q (h.held q hq)

lemma destroy (h : RwInvariant attached destroyed s) {p : Process}
    (hstep : shmRwlockDestroy s p = some s') :
    RwInvariant (attachedAfter attached (.destroy p)) true s' := by
  unfold shmRwlockDestroy at hstep
  split at hstep
  · rename_i hcan
    have hp : s.attached p = true := by
      rw [Bool.and_eq_true] at hcan
      exact hcan.1
    cases hstep
    constructor
    case attached_eq => exact congrArg (Function.update · p false) h.attached_eq
    case fresh => exact fun hne => absurd (h.magic_of_attached hp) hne
    case live =>
      intro _
      refine iff_of_false ?_ (by decide)
      rintro ⟨readers, writer, hlock⟩
      cases hlock
    case held =>
      intro q hq
      cases hq
  · cases hstep

lemma rdlock (h : RwInvariant attached destroyed s) {p : Process}
    (hstep : shmRwlockRdlock s p = some s') :
    RwInvariant attached destroyed s' ∧ (LockLive s.file.rwLock ↔ destroyed = false) := by
  unfold shmRwlockRdlock at hstep
  split at hstep
  · rename_i hp
    obtain ⟨rwLock, hlock, rfl⟩ := Option.map_eq_some_iff.mp hstep
    exact ⟨h.relock hp (rdlock_keepsLock hlock), h.live_iff hp⟩
  · cases hstep

lemma wrlock (h : RwInvariant attached destroyed s) {p : Process}
    (hstep : shmRwlockWrlock s p = some s') :
    RwInvariant attached destroyed s' ∧ (LockLive s.file.rwLock ↔ destroyed = false) := by
  unfold shmRwlockWrlock at hstep
  split at hstep
  · rename_i hp
    obtain ⟨rwLock, hlock, rfl⟩ := Option.map_eq_some_iff.mp hstep
    exact ⟨h.relock hp (wrlock_keepsLock hlock), h.live_iff hp⟩
  · cases hstep

lemma unlock (h : RwInvariant attached destroyed s) {p : Process}
    (hstep : shmRwlockUnlock s p = some s') :
    RwInvariant attached destroyed s' ∧ (LockLive s.file.rwLock ↔ destroyed = false) := by
  unfold shmRwlockUnlock at hstep
  split at hstep
  · rename_i hp
    cases hstep
    exact ⟨h.relock hp (unlock_keepsLock p _), h.live_iff hp⟩
  · cases hstep

lemma rwStep {call : RwCall Process} (h : RwInvariant attached destroyed s)
    (hstep : rwStep s call = some s') :
    RwInvariant (attachedAfter attached call) (destroyed || isDestroy call) s' ∧
      (RwLawful s call ↔ DestroyComesLast attached destroyed call) := by
  cases call with
  | alloc p mapped =>
    have hkept : (destroyed || isDestroy (.alloc p mapped)) = destroyed := Bool.or_false _
    rw [hkept]
    exact ⟨h.alloc hstep, Iff.rfl⟩
  | rdlock p =>
    have hkept : (destroyed || isDestroy (.rdlock p)) = destroyed := Bool.or_false _
    rw [hkept]
    exact h.rdlock hstep
  | wrlock p =>
    have hkept : (destroyed || isDestroy (.wrlock p)) = destroyed := Bool.or_false _
    rw [hkept]
    exact h.wrlock hstep
  | unlock p =>
    have hkept : (destroyed || isDestroy (.unlock p)) = destroyed := Bool.or_false _
    rw [hkept]
    exact h.unlock hstep
  | destroy p =>
    rw [isDestroy, Bool.or_true]
    refine ⟨h.destroy hstep, ?_⟩
    unfold RwLawful DestroyComesLast
    rw [← h.attached_eq]
    constructor
    · exact fun hlaw q hq => (hlaw q hq).1
    · intro hquiet q hq
      refine ⟨hquiet q hq, ?_⟩
      by_contra hheld
      have hattached := h.held q (by simpa using hheld)
      exact ne_true_of_eq_false (hquiet q hq) hattached

end RwInvariant

lemma alongRun_iff_destroysLast (calls : List (RwCall Process)) {attached : Process → Bool}
    {destroyed : Bool} {s s' : RwSystem Process} (h : RwInvariant attached destroyed s)
    (hrun : run rwStep s calls = some s') :
    AlongRun rwStep RwLawful s calls ↔ DestroysLast attached destroyed calls := by
  induction calls generalizing attached destroyed s with
  | nil => exact Iff.rfl
  | cons call calls ih =>
    obtain ⟨s₁, hstep, hrest⟩ := exists_step_of_run_cons hrun
    obtain ⟨hinv, hlawful⟩ := h.rwStep hstep
    rw [DestroysLast, ← ih hinv hrest, ← hlawful]
    constructor
    · exact fun halong => ⟨halong.1, halong.2 s₁ hstep⟩
    · exact fun ⟨hlaw, hnext⟩ => AlongRun.cons hlaw hstep hnext

/-- A sequence of calls keeps the lifetime of the lock if and only if a process destroys only
when no other one is attached and nobody locks or unlocks afterwards. -/
theorem rwlock_lifetime_iff_destroys_last (calls : List (RwCall Process)) (s : RwSystem Process)
    (hrun : run rwStep (initRwSystem Process) calls = some s) :
    AlongRun rwStep RwLawful (initRwSystem Process) calls ↔
      DestroysLast (fun _ => false) false calls :=
  alongRun_iff_destroysLast calls initRwSystem_invariant hrun

/-- Two processes read at the same time, and one of them writes later. -/
def attachAndShare : List (RwCall ℕ) :=
  [.alloc 0 true, .alloc 1 true, .rdlock 0, .rdlock 1, .unlock 0, .unlock 1, .wrlock 1, .unlock 1]

/-- Process 1 attaches behind the end of process 0, and does not lock. -/
def attachAndDestroy : List (RwCall ℕ) :=
  [.alloc 0 true, .alloc 1 false, .wrlock 0, .unlock 0, .destroy 0, .alloc 1 true, .destroy 1]

theorem attach_and_destroy_lifetime :
    AlongRun rwStep RwLawful (initRwSystem ℕ) attachAndShare ∧
      AlongRun rwStep RwLawful (initRwSystem ℕ) attachAndDestroy := by
  have hshare : DestroysLast (fun _ => false) false attachAndShare := by
    simp [attachAndShare, DestroysLast, DestroyComesLast, isDestroy]
  have hdestroy : DestroysLast (fun _ => false) false attachAndDestroy := by
    have hothers : ∀ p q : ℕ, q ≠ p → Function.update (fun _ => false) p true q = false := by
      intro p q hq
      rw [Function.update_of_ne hq]
    simp [attachAndDestroy, DestroysLast, DestroyComesLast, isDestroy, attachedAfter]
    exact ⟨hothers 0, hothers 1⟩
  exact ⟨(rwlock_lifetime_iff_destroys_last attachAndShare _ rfl).mpr hshare,
    (rwlock_lifetime_iff_destroys_last attachAndDestroy _ rfl).mpr hdestroy⟩

/-- A process that attaches again after it has destroyed takes a destroyed lock. -/
theorem reattached_lock_is_destroyed :
    (run rwStep (initRwSystem ℕ)
        [.alloc 0 true, .destroy 0, .alloc 0 true, .rdlock 0]).isSome = true ∧
      ¬ AlongRun rwStep RwLawful (initRwSystem ℕ)
        [.alloc 0 true, .destroy 0, .alloc 0 true, .rdlock 0] := by
  refine ⟨rfl, ?_⟩
  intro h
  obtain ⟨readers, writer, hlock⟩ := (((h.2 _ rfl).2 _ rfl).2 _ rfl).1
  cases hlock

end GeneralPurposeLibrary.Proofs
