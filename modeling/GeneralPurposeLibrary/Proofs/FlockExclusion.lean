import GeneralPurposeLibrary.Foundation.GuardedRuns
import GeneralPurposeLibrary.IpcFlock
import Mathlib.Tactic.Common

/-!
# Mutual exclusion of the record lock

Record locks exclude processes, not handles. Where every process has one handle of a file at
most, the two come to the same: two handles of a file are never held at once, and a lock never
outlives the process that took it.
-/

namespace GeneralPurposeLibrary.Proofs
open GuardedRuns

variable {Process Inode : Type} {s s' : FlockSystem Process Inode} {inode : List UInt8 → Inode}
  {h : ℕ}

/-- The process that creates a handle has none of the file yet. -/
def OneHandle (inode : List UInt8 → Inode) (s : FlockSystem Process Inode) :
    FlockCall Process → Prop
  | .create p name opened => opened = true → ∀ h, s.handle h ≠ some ⟨p, inode (flockName name)⟩
  | _ => True

structure FlockInvariant (s : FlockSystem Process Inode) : Prop where
  fresh : ∀ h flock, s.handle h = some flock → h < s.nextHandle
  single : ∀ h h' flock, s.handle h = some flock → s.handle h' = some flock → h = h'
  live : ∀ h, s.holding h = true → ∃ flock, s.handle h = some flock
  holding_iff : ∀ h flock, s.handle h = some flock →
    (s.holding h = true ↔ s.owner flock.file = some flock.process)
  owned : ∀ file p, s.owner file = some p → ∃ h, s.handle h = some ⟨p, file⟩

lemma initFlockSystem_invariant : FlockInvariant (initFlockSystem Process Inode) := by
  refine ⟨?_, ?_, ?_, ?_, ?_⟩ <;> simp [initFlockSystem]

/-! ### What a step does -/

lemma ipcFlockCreate_cases {p : Process} {name : List UInt8} {opened : Bool}
    (hstep : ipcFlockCreate s inode p name opened = some s') :
    (opened = false ∧ s' = s) ∨
      (opened = true ∧
        s' =
          { s with
            nextHandle := s.nextHandle + 1
            handle := Function.update s.handle s.nextHandle
              (some ⟨p, inode (flockName name)⟩) }) := by
  rw [ipcFlockCreate] at hstep
  split at hstep
  · cases opened with
    | false =>
      cases hstep
      exact .inl ⟨rfl, rfl⟩
    | true =>
      cases hstep
      exact .inr ⟨rfl, rfl⟩
  · cases hstep

section Steps

variable [DecidableEq Process] [DecidableEq Inode]

lemma owner_closeFlock (flock : IpcFlock Process Inode) (file : Inode) (q : Process) :
    (closeFlock s flock).owner file = some q ↔
      s.owner file = some q ∧ ¬(file = flock.file ∧ q = flock.process) := by
  rw [closeFlock]
  by_cases hfile : file = flock.file
  · subst hfile
    by_cases hq : s.owner flock.file = some flock.process
    · simp only [if_pos hq, Function.update_self]
      grind
    · rw [if_neg hq]
      grind
  · split <;> simp [hfile]

lemma closeFlock_same (flock : IpcFlock Process Inode) :
    (closeFlock s flock).handle = s.handle ∧ (closeFlock s flock).holding = s.holding ∧
      (closeFlock s flock).nextHandle = s.nextHandle := by
  rw [closeFlock]
  split <;> exact ⟨rfl, rfl, rfl⟩

lemma lock_cases {failed : Bool} (hstep : flockStep s inode (.lock h failed) = some s') :
    ∃ flock, s.handle h = some flock ∧
      ((failed = true ∧ s' = s) ∨
        (failed = false ∧ (∀ q, s.owner flock.file = some q → q = flock.process) ∧
          s' =
            { s with
              owner := Function.update s.owner flock.file (some flock.process)
              holding := Function.update s.holding h true })) := by
  rw [flockStep] at hstep
  obtain ⟨flock, hflock, hstep⟩ := Option.bind_eq_some_iff.mp hstep
  obtain ⟨⟨ret, s₁⟩, hlock, hstep⟩ := Option.bind_eq_some_iff.mp hstep
  refine ⟨flock, hflock, ?_⟩
  rw [ipcFlockLock] at hlock
  cases failed with
  | true =>
    simp only [if_true, Option.some_inj, Prod.mk.injEq] at hlock
    obtain ⟨rfl, rfl⟩ := hlock
    simp only [setHolding] at hstep
    cases hstep
    exact .inl ⟨rfl, rfl⟩
  | false =>
    simp only [Bool.false_eq_true, if_false, Option.map_eq_some_iff] at hlock
    obtain ⟨s₂, hsimple, heq⟩ := hlock
    cases heq
    cases hstep
    refine .inr ⟨rfl, ?_⟩
    simp only [flockSimple] at hsimple
    cases howner : s.owner flock.file with
    | none =>
      simp only [howner, Option.some_inj] at hsimple
      subst hsimple
      exact ⟨fun q hq => absurd hq (by simp), rfl⟩
    | some q =>
      simp only [howner] at hsimple
      split at hsimple
      · rename_i hq
        cases hsimple
        subst hq
        refine ⟨fun q' hq' => (Option.some_inj.mp hq').symm, ?_⟩
        simp only [setHolding, if_true, ← howner, Function.update_eq_self]
      · cases hsimple

lemma unlock_cases {failed : Bool} (hstep : flockStep s inode (.unlock h failed) = some s') :
    ∃ flock, s.handle h = some flock ∧
      ((failed = true ∧ s' = s) ∨
        (failed = false ∧
          s' = { closeFlock s flock with holding := Function.update s.holding h false })) := by
  rw [flockStep] at hstep
  obtain ⟨flock, hflock, hstep⟩ := Option.bind_eq_some_iff.mp hstep
  obtain ⟨⟨ret, s₁⟩, hunlock, hstep⟩ := Option.bind_eq_some_iff.mp hstep
  refine ⟨flock, hflock, ?_⟩
  rw [ipcFlockUnlock] at hunlock
  cases failed with
  | true =>
    simp only [if_true, Option.some_inj, Prod.mk.injEq] at hunlock
    obtain ⟨rfl, rfl⟩ := hunlock
    simp only [setHolding] at hstep
    cases hstep
    exact .inl ⟨rfl, rfl⟩
  | false =>
    simp only [Bool.false_eq_true, if_false, Option.map_eq_some_iff] at hunlock
    obtain ⟨s₂, hsimple, heq⟩ := hunlock
    cases heq
    cases hstep
    have hclose : some (closeFlock s flock) = some s₁ := by
      rw [← hsimple, flockSimple, closeFlock]
      split <;> rfl
    cases hclose
    refine .inr ⟨rfl, ?_⟩
    simp only [setHolding, if_true, (closeFlock_same flock).2.1]

lemma destroy_cases (hstep : flockStep s inode (.destroy h) = some s') :
    ∃ flock, s.handle h = some flock ∧
      s' =
        { closeFlock s flock with
          handle := Function.update s.handle h none
          holding := Function.update s.holding h false } := by
  rw [flockStep] at hstep
  obtain ⟨flock, hflock, hstep⟩ := Option.bind_eq_some_iff.mp hstep
  cases hstep
  refine ⟨flock, hflock, ?_⟩
  rw [(closeFlock_same flock).1, (closeFlock_same flock).2.1]

end Steps

/-! ### The invariant -/

namespace FlockInvariant

lemma create (hinv : FlockInvariant s) {p : Process} {name : List UInt8}
    (hone : ∀ h, s.handle h ≠ some ⟨p, inode (flockName name)⟩) :
    FlockInvariant
      { s with
        nextHandle := s.nextHandle + 1
        handle := Function.update s.handle s.nextHandle (some ⟨p, inode (flockName name)⟩) } := by
  have hnew : s.handle s.nextHandle = none := by
    cases hold : s.handle s.nextHandle with
    | none => rfl
    | some flock => exact absurd (hinv.fresh s.nextHandle flock hold) (Nat.lt_irrefl _)
  refine ⟨?_, ?_, ?_, ?_, ?_⟩
  · intro h flock hflock
    simp only [Function.update_apply] at hflock
    split at hflock
    · rename_i hh
      simp [hh]
    · exact Nat.lt_succ_of_lt (hinv.fresh h flock hflock)
  · intro h h' flock hflock hflock'
    simp only [Function.update_apply] at hflock hflock'
    split at hflock <;> split at hflock'
    · simp_all
    · cases hflock
      exact absurd hflock' (hone h')
    · cases hflock'
      exact absurd hflock (hone h)
    · exact hinv.single h h' flock hflock hflock'
  · intro h hh
    obtain ⟨flock, hflock⟩ := hinv.live h hh
    have hne : h ≠ s.nextHandle := by
      rintro rfl
      rw [hnew] at hflock
      cases hflock
    exact ⟨flock, by simpa [hne] using hflock⟩
  · intro h flock hflock
    simp only [Function.update_apply] at hflock
    split at hflock
    · rename_i hh
      subst hh
      cases hflock
      constructor
      · intro hholding
        obtain ⟨flock, hflock⟩ := hinv.live s.nextHandle hholding
        rw [hnew] at hflock
        cases hflock
      · intro howner
        obtain ⟨h, hh⟩ := hinv.owned _ _ howner
        exact absurd hh (hone h)
    · exact hinv.holding_iff h flock hflock
  · intro file q howner
    obtain ⟨h, hflock⟩ := hinv.owned file q howner
    have hne : h ≠ s.nextHandle := by
      rintro rfl
      rw [hnew] at hflock
      cases hflock
    exact ⟨h, by simpa [hne] using hflock⟩

variable [DecidableEq Inode]

lemma lock (hinv : FlockInvariant s) {flock : IpcFlock Process Inode}
    (hflock : s.handle h = some flock)
    (hfree : ∀ q, s.owner flock.file = some q → q = flock.process) :
    FlockInvariant
      { s with
        owner := Function.update s.owner flock.file (some flock.process)
        holding := Function.update s.holding h true } := by
  refine ⟨hinv.fresh, hinv.single, ?_, ?_, ?_⟩
  · intro k hk
    by_cases hkh : k = h
    · exact ⟨flock, hkh ▸ hflock⟩
    · exact hinv.live k (by simpa [hkh] using hk)
  · intro k flock' hflock'
    have hiff := hinv.holding_iff k flock' hflock'
    by_cases hkh : k = h
    · subst hkh
      have hsame : flock' = flock := Option.some_inj.mp (hflock'.symm.trans hflock)
      simp [hsame]
    · by_cases hfile : flock'.file = flock.file
      · have hprocess : flock.process ≠ flock'.process := by
          intro hsame
          apply hkh
          have heq : flock' = flock := by
            cases flock
            cases flock'
            simp_all
          exact hinv.single k h flock (heq ▸ hflock') hflock
        have hnot : ¬s.owner flock.file = some flock'.process := by
          intro howner
          exact hprocess (hfree flock'.process howner).symm
        simp [hkh, hfile, hiff, hnot, hprocess]
      · simp [hkh, hfile, hiff]
  · intro file q howner
    by_cases hfile : file = flock.file
    · subst hfile
      simp only [Function.update_self, Option.some_inj] at howner
      subst howner
      exact ⟨h, hflock⟩
    · exact hinv.owned file q (by simpa [hfile] using howner)

variable [DecidableEq Process]

lemma release (hinv : FlockInvariant s) {flock : IpcFlock Process Inode}
    (hflock : s.handle h = some flock) :
    FlockInvariant { closeFlock s flock with holding := Function.update s.holding h false } := by
  obtain ⟨hhandle, hholding, hnext⟩ := closeFlock_same (s := s) flock
  refine ⟨?_, ?_, ?_, ?_, ?_⟩
  · simp only [hhandle, hnext]
    exact hinv.fresh
  · simp only [hhandle]
    exact hinv.single
  · intro k hk
    have hkh : k ≠ h := by
      rintro rfl
      simp at hk
    simp only [hhandle]
    exact hinv.live k (by simpa [hkh] using hk)
  · intro k flock' hflock'
    simp only [hhandle] at hflock'
    rw [owner_closeFlock]
    by_cases hkh : k = h
    · subst hkh
      have hsame : flock' = flock := Option.some_inj.mp (hflock'.symm.trans hflock)
      simp [hsame]
    · have hother : ¬(flock'.file = flock.file ∧ flock'.process = flock.process) := by
        rintro ⟨hfile, hprocess⟩
        apply hkh
        have heq : flock' = flock := by
          cases flock
          cases flock'
          simp_all
        exact hinv.single k h flock (heq ▸ hflock') hflock
      simp only [Function.update_of_ne hkh, hinv.holding_iff k flock' hflock', hother,
        not_false_eq_true, and_true]
  · intro file q howner
    simp only [hhandle]
    exact hinv.owned file q ((owner_closeFlock flock file q).mp howner).1

lemma destroy (hinv : FlockInvariant s) {flock : IpcFlock Process Inode}
    (hflock : s.handle h = some flock) :
    FlockInvariant
      { closeFlock s flock with
        handle := Function.update s.handle h none
        holding := Function.update s.holding h false } := by
  obtain ⟨hhandle, hholding, hnext⟩ := closeFlock_same (s := s) flock
  have hreleased := hinv.release hflock
  have hold : ∀ k flock', Function.update s.handle h none k = some flock' →
      k ≠ h ∧ s.handle k = some flock' := by
    intro k flock' hk
    by_cases hkh : k = h
    · subst hkh
      simp at hk
    · exact ⟨hkh, by simpa [hkh] using hk⟩
  refine ⟨?_, ?_, ?_, ?_, ?_⟩
  · intro k flock' hk
    simp only [hnext]
    exact hinv.fresh k flock' (hold k flock' hk).2
  · intro k k' flock' hk hk'
    exact hinv.single k k' flock' (hold k flock' hk).2 (hold k' flock' hk').2
  · intro k hk
    have hkh : k ≠ h := by
      rintro rfl
      simp at hk
    obtain ⟨flock', hflock'⟩ := hinv.live k (by simpa [hkh] using hk)
    exact ⟨flock', by simpa [hkh] using hflock'⟩
  · intro k flock' hk
    apply hreleased.holding_iff k flock'
    simp only [hhandle]
    exact (hold k flock' hk).2
  · intro file q howner
    obtain ⟨hq, hnot⟩ := (owner_closeFlock flock file q).mp howner
    obtain ⟨k, hk⟩ := hinv.owned file q hq
    have hkh : k ≠ h := by
      rintro rfl
      have hsame := Option.some_inj.mp (hk.symm.trans hflock)
      exact hnot (by simp [← hsame])
    exact ⟨k, by simpa [hkh] using hk⟩

omit [DecidableEq Inode] in
lemma exit (hinv : FlockInvariant s) (p : Process) :
    FlockInvariant
      { s with
        handle := fun h => (s.handle h).filter fun flock => flock.process ≠ p
        owner := fun file => (s.owner file).filter fun q => q ≠ p
        holding := fun h => s.holding h && (s.handle h).any fun flock => flock.process ≠ p } := by
  refine ⟨?_, ?_, ?_, ?_, ?_⟩
  · intro h flock hflock
    exact hinv.fresh h flock (Option.filter_eq_some_iff.mp hflock).1
  · intro h h' flock hflock hflock'
    exact hinv.single h h' flock (Option.filter_eq_some_iff.mp hflock).1
      (Option.filter_eq_some_iff.mp hflock').1
  · intro h hh
    simp only [Bool.and_eq_true] at hh
    obtain ⟨flock, hflock⟩ := hinv.live h hh.1
    refine ⟨flock, ?_⟩
    simpa [hflock, Option.filter_eq_some_iff] using hh.2
  · intro h flock hflock
    obtain ⟨hold, hprocess⟩ := Option.filter_eq_some_iff.mp hflock
    have hiff := hinv.holding_iff h flock hold
    simp only [hold, Option.any_some, hprocess, Bool.and_true, hiff, Option.filter_eq_some_iff]
    simp
  · intro file q howner
    obtain ⟨hq, hne⟩ := Option.filter_eq_some_iff.mp howner
    obtain ⟨h, hh⟩ := hinv.owned file q hq
    exact ⟨h, Option.filter_eq_some_iff.mpr ⟨hh, hne⟩⟩

end FlockInvariant

/-! ### Runs -/

variable [DecidableEq Process] [DecidableEq Inode]

lemma flockInvariant_step (s : FlockSystem Process Inode) (call : FlockCall Process)
    (s' : FlockSystem Process Inode) (hinv : FlockInvariant s) (hone : OneHandle inode s call)
    (hstep : flockStep s inode call = some s') : FlockInvariant s' := by
  cases call with
  | create p name opened =>
    rcases ipcFlockCreate_cases hstep with ⟨_, rfl⟩ | ⟨hopened, rfl⟩
    · exact hinv
    · exact hinv.create (hone hopened)
  | lock h failed =>
    obtain ⟨flock, hflock, ⟨_, rfl⟩ | ⟨_, hfree, rfl⟩⟩ := lock_cases hstep
    · exact hinv
    · exact hinv.lock hflock hfree
  | unlock h failed =>
    obtain ⟨flock, hflock, ⟨_, rfl⟩ | ⟨_, rfl⟩⟩ := unlock_cases hstep
    · exact hinv
    · exact hinv.release hflock
  | destroy h =>
    obtain ⟨flock, hflock, rfl⟩ := destroy_cases hstep
    exact hinv.destroy hflock
  | exit p =>
    cases hstep
    exact hinv.exit p

/-- Whatever the processes do, locking again while they hold the lock, failing, destroying
handles or dying, as long as none has two handles of one file: two handles of a file are never
held at the same time, and when none is held, every process that has one can take it. -/
theorem flock_excludes_and_recovers (inode : List UInt8 → Inode)
    (calls : List (FlockCall Process)) (s : FlockSystem Process Inode)
    (hone : AlongRun (fun s call => flockStep s inode call) (OneHandle inode)
      (initFlockSystem Process Inode) calls)
    (hrun : run (fun s call => flockStep s inode call) (initFlockSystem Process Inode) calls =
      some s) (h : ℕ) (flock : IpcFlock Process Inode) (hflock : s.handle h = some flock) :
    (s.holding h = true → ∀ h' flock', s.handle h' = some flock' → flock'.file = flock.file →
      s.holding h' = true → h' = h) ∧
    ((∀ h' flock', s.handle h' = some flock' → flock'.file = flock.file → s.holding h' = false) →
      ∃ s', flockStep s inode (.lock h false) = some s' ∧ s'.holding h = true) := by
  have hinv : FlockInvariant s :=
    invariant_of_steps flockInvariant_step initFlockSystem_invariant hone hrun
  constructor
  · intro hheld h' flock' hflock' hfile hheld'
    have howner := (hinv.holding_iff h flock hflock).mp hheld
    have howner' := (hinv.holding_iff h' flock' hflock').mp hheld'
    rw [hfile, howner, Option.some_inj] at howner'
    have hsame : flock' = flock := by
      cases flock
      cases flock'
      simp_all
    exact hinv.single h' h flock (hsame ▸ hflock') hflock
  · intro hnone
    have hfree : s.owner flock.file = none := by
      cases howner : s.owner flock.file with
      | none => rfl
      | some q =>
        obtain ⟨k, hk⟩ := hinv.owned flock.file q howner
        have hheld := (hinv.holding_iff k ⟨q, flock.file⟩ hk).mpr howner
        rw [hnone k ⟨q, flock.file⟩ hk rfl] at hheld
        cases hheld
    simp [flockStep, hflock, ipcFlockLock, flockSimple, hfree, setHolding]

/-- Two processes with a handle each; the one with the lock dies. -/
def sampleFlockCalls : List (FlockCall ℕ) :=
  [.create 0 [97] true, .create 1 [97] true, .lock 0 false, .exit 0]

lemma sampleFlockCalls_oneHandle :
    AlongRun (fun s call => flockStep s (id : List UInt8 → List UInt8) call) (OneHandle id)
      (initFlockSystem ℕ (List UInt8)) sampleFlockCalls := by
  refine AlongRun.cons ?_ rfl (AlongRun.cons ?_ rfl (AlongRun.cons trivial rfl
    (AlongRun.cons trivial rfl trivial)))
  · intro _ h
    simp [initFlockSystem]
  · intro _ h
    simp only [initFlockSystem, Function.update_apply]
    split <;> simp

theorem flock_recovers_from_exit :
    ∃ s s', run (fun s call => flockStep s (id : List UInt8 → List UInt8) call)
        (initFlockSystem ℕ (List UInt8)) sampleFlockCalls = some s ∧
      s.handle 1 = some ⟨1, flockName [97]⟩ ∧
      flockStep s id (.lock 1 false) = some s' ∧ s'.holding 1 = true := by
  obtain ⟨s', hstep, hholding⟩ := (flock_excludes_and_recovers id sampleFlockCalls _
    sampleFlockCalls_oneHandle rfl 1 ⟨1, flockName [97]⟩ rfl).2 (by
      intro h' flock' _ _
      by_cases hzero : h' = 0
      · rw [hzero]
        rfl
      · simp [initFlockSystem, setHolding, hzero])
  exact ⟨_, s', rfl, rfl, hstep, hholding⟩

end GeneralPurposeLibrary.Proofs
