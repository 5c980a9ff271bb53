import GeneralPurposeLibrary.IpcMutex
import GeneralPurposeLibrary.Foundation.GuardedRuns
import Mathlib.Data.BitVec
import Mathlib.Data.List.Count
import Mathlib.Tactic.Common

/-!
# Reference count of the cross-process mutex

While the mutex is owner-dead the count includes the handle of the dead owner, which the next
lock takes off. Every other handle that a process leaves behind stays in the count.
-/

namespace GeneralPurposeLibrary.Proofs
open GuardedRuns

variable {Process : Type} [DecidableEq Process]

/-- The number of handles of live processes on a segment. -/
def liveHandles (s : MutexSystem Process) (i : ℕ) : ℕ :=
  s.handles.countP fun handle => handle.2 = i

/-- On every segment that is named or in use, the count is the number of live handles unless
the mutex is owner-dead. -/
def RefcntExact (s : MutexSystem Process) : Prop :=
  ∀ i, (s.named = some i ∨ 0 < liveHandles s i) → (s.segment i).mutex ≠ .ownerDead →
    (s.segment i).refcnt.toInt = liveHandles s i

/-- The count is exact before the call, and a destroy call unlinks the segment exactly when it
closes its last live handle. -/
def RefcntLaw (s : MutexSystem Process) : MutexCall Process → Prop
  | .destroy _ i => RefcntExact s ∧ (destroyUnlinks s i = true ↔ liveHandles s i = 1)
  | _ => RefcntExact s

/-- A process that exits has one handle on a mutex it holds and none on others, and the last
live handle is not destroyed while the mutex is owner-dead. -/
def ExitSafe (s : MutexSystem Process) : MutexCall Process → Prop
  | .exit p => ∀ i, s.handles.count (p, i) = if (s.segment i).mutex = .locked p then 1 else 0
  | .destroy _ i => (s.segment i).mutex = .ownerDead → liveHandles s i ≠ 1
  | _ => True

/-- The handle of a dead owner that is still in the count. -/
def deadHandles (mutex : RobustMutex Process) : ℕ := if mutex = .ownerDead then 1 else 0

/-- All handles are on the named segment, whose count includes that of a dead owner. -/
structure RefcntInvariant (s : MutexSystem Process) : Prop where
  few : s.handles.length < 2 ^ 15
  named : ∀ handle ∈ s.handles, s.named = some handle.2
  refcnt : ∀ i, s.named = some i →
    (s.segment i).refcnt = Int16.ofNat (s.handles.length + deadHandles (s.segment i).mutex)

lemma initMutexSystem_invariant : RefcntInvariant (initMutexSystem Process) := by
  constructor <;> simp [initMutexSystem]

namespace RefcntInvariant

variable {s s' : MutexSystem Process}

lemma liveHandles_eq (h : RefcntInvariant s) {i : ℕ} (hi : s.named = some i) :
    liveHandles s i = s.handles.length := by
  rw [liveHandles, List.countP_eq_length]
  intro handle hmem
  have hnamed := h.named handle hmem
  rw [hi] at hnamed
  simpa using (Option.some.inj hnamed).symm

lemma refcntExact (h : RefcntInvariant s) : RefcntExact s := by
  intro i hi hmutex
  have hnamed : s.named = some i := by
    rcases hi with hi | hpos
    · exact hi
    · obtain ⟨handle, hmem, hsame⟩ := List.countP_pos_iff.mp hpos
      rw [h.named handle hmem, of_decide_eq_true hsame]
  rw [h.refcnt i hnamed, h.liveHandles_eq hnamed, deadHandles, if_neg hmutex, Nat.add_zero]
  exact Int16.toInt_ofNat_of_lt h.few

lemma setNamed {i : ℕ} (hi : s.named = some i)
    {segment : MutexSegment Process} {handles : List (Process × ℕ)}
    (hfew : handles.length < 2 ^ 15) (hhandles : ∀ handle ∈ handles, handle.2 = i)
    (hcount : segment.refcnt = Int16.ofNat (handles.length + deadHandles segment.mutex)) :
    RefcntInvariant { s.setSegment i segment with handles := handles } := by
  constructor
  case few => exact hfew
  case named =>
    intro handle hmem
    rw [hhandles handle hmem]
    exact hi
  case refcnt =>
    intro j hj
    have hsame : j = i := Option.some.inj (Eq.trans (Eq.symm hj) hi)
    subst hsame
    simpa [MutexSystem.setSegment] using hcount

lemma handles_snd (h : RefcntInvariant s) {i : ℕ} (hi : s.named = some i) :
    ∀ handle ∈ s.handles, handle.2 = i := by
  intro handle hmem
  exact Option.some.inj ((h.named handle hmem).symm.trans hi)

lemma create (h : RefcntInvariant s) {p : Process} {opened : Bool}
    (hstep : ipcMutexCreate s p opened = some s') : RefcntInvariant s' := by
  unfold ipcMutexCreate at hstep
  split at hstep
  · rename_i hfew
    cases opened with
    | false =>
      cases hstep
      exact h
    | true =>
      rw [if_neg (by decide)] at hstep
      split at hstep
      · rename_i i hi
        cases hstep
        refine setNamed hi hfew ?_ ?_
        · intro handle hmem
          rcases List.mem_cons.mp hmem with rfl | hold
          · rfl
          · exact h.handles_snd hi handle hold
        · change (s.segment i).refcnt + 1 =
            Int16.ofNat (s.handles.length + 1 + deadHandles (s.segment i).mutex)
          rw [Nat.add_right_comm, Int16.ofNat_add, ← h.refcnt i hi]
          rfl
      · rename_i hnone
        have hempty : s.handles = [] := by
          rw [List.eq_nil_iff_forall_not_mem]
          intro handle hmem
          have hnamed := h.named handle hmem
          rw [hnone] at hnamed
          cases hnamed
        cases hstep
        constructor
        case few => exact hfew
        case named =>
          intro handle hmem
          change handle ∈ (p, s.nextSegment) :: s.handles at hmem
          rw [hempty, List.mem_singleton] at hmem
          rw [hmem]
        case refcnt =>
          intro j hj
          cases hj
          simp [MutexSystem.setSegment, hempty, deadHandles]
  · cases hstep

lemma lock (h : RefcntInvariant s) {p : Process} {i : ℕ}
    (hstep : ipcMutexLock s p i = some s') : RefcntInvariant s' := by
  unfold ipcMutexLock at hstep
  split at hstep
  · rename_i hmem
    have hi : s.named = some i := h.named (p, i) hmem
    have hcount := h.refcnt i hi
    dsimp only at hstep
    split at hstep <;> rename_i hmutex <;> cases hstep
    · refine setNamed hi h.few (h.handles_snd hi) ?_
      rw [hcount, hmutex]
      rfl
    · refine setNamed hi h.few (h.handles_snd hi) ?_
      rw [hcount, hmutex]
      simp [deadHandles]
    · exact h
  · cases hstep

lemma unlock (h : RefcntInvariant s) {p : Process} {i : ℕ}
    (hstep : ipcMutexUnlock s p i = some s') : RefcntInvariant s' := by
  unfold ipcMutexUnlock at hstep
  split at hstep
  · rename_i hmem
    have hi : s.named = some i := h.named (p, i) hmem
    have hcount := h.refcnt i hi
    dsimp only at hstep
    split at hstep <;> rename_i hmutex <;> cases hstep
    · refine setNamed hi h.few (h.handles_snd hi) ?_
      rw [hcount, hmutex]
      rfl
    · exact h
  · cases hstep

/-- What the test of `ipc_mutex_destroy` says about the handles. -/
lemma destroyUnlinks_iff (h : RefcntInvariant s) {p : Process} {i : ℕ}
    (hmem : (p, i) ∈ s.handles) :
    destroyUnlinks s i = true ↔
      s.handles.length + deadHandles (s.segment i).mutex = 1 := by
  have hi : s.named = some i := h.named (p, i) hmem
  have hpos : 0 < s.handles.length := List.length_pos_of_mem hmem
  have hdead : deadHandles (s.segment i).mutex ≤ 1 := by
    unfold deadHandles
    split <;> omega
  have hfew := h.few
  have hsub : (s.segment i).refcnt - 1 =
      Int16.ofNat (s.handles.length + deadHandles (s.segment i).mutex - 1) := by
    rw [h.refcnt i hi, Int16.ofNat_sub _ _ (by omega)]
    rfl
  rw [destroyUnlinks, beq_iff_eq, hsub, ← Int16.toInt_inj,
    Int16.toInt_ofNat_of_lt (by omega), Int16.toInt_zero]
  omega

lemma destroy (h : RefcntInvariant s) {p : Process} {i : ℕ}
    (hsafe : ExitSafe s (.destroy p i)) (hstep : ipcMutexDestroy s p i = some s') :
    RefcntInvariant s' ∧ (destroyUnlinks s i = true ↔ liveHandles s i = 1) := by
  unfold ipcMutexDestroy at hstep
  split at hstep
  · rename_i hcan
    have hmem := hcan.1
    have hi : s.named = some i := h.named (p, i) hmem
    have hpos : 0 < s.handles.length := List.length_pos_of_mem hmem
    have hlive := h.liveHandles_eq hi
    have hunlinks := h.destroyUnlinks_iff hmem
    have hlast : s.handles.length + deadHandles (s.segment i).mutex = 1 ↔
        s.handles.length = 1 := by
      unfold deadHandles
      split <;> rename_i hmutex
      · have hnot := hsafe hmutex
        omega
      · omega
    have herase : (s.handles.erase (p, i)).length = s.handles.length - 1 :=
      List.length_erase_of_mem hmem
    refine ⟨?_, by rw [hunlinks, hlast, hlive]⟩
    dsimp only at hstep
    split at hstep <;> rename_i htest <;> cases hstep
    · have hempty : s.handles.erase (p, i) = [] := by
        apply List.eq_nil_of_length_eq_zero
        have hone := hlast.mp (hunlinks.mp htest)
        omega
      constructor
      case few => simp [hempty]
      case named => simp [hempty]
      case refcnt =>
        intro j hj
        cases hj
    · have hfew := h.few
      refine setNamed hi (by omega) ?_ ?_
      · intro handle hh
        exact h.handles_snd hi handle (List.mem_of_mem_erase hh)
      · change (s.segment i).refcnt - 1 = Int16.ofNat
          ((s.handles.erase (p, i)).length + deadHandles (s.segment i).mutex)
        have hlength : (s.handles.erase (p, i)).length + deadHandles (s.segment i).mutex =
            s.handles.length + deadHandles (s.segment i).mutex - 1 := by omega
        rw [hlength, Int16.ofNat_sub _ _ (by omega), ← h.refcnt i hi]
        rfl
  · cases hstep

lemma length_filter_exit (h : RefcntInvariant s) {i : ℕ} (hi : s.named = some i)
    (p : Process) :
    (s.handles.filter fun handle => handle.1 ≠ p).length + s.handles.count (p, i) =
      s.handles.length := by
  have hcount : s.handles.count (p, i) = s.handles.countP fun handle => handle.1 = p := by
    apply List.countP_congr
    intro handle hmem
    have hsnd := h.handles_snd hi handle hmem
    simp [Prod.ext_iff, hsnd]
  have hsplit := List.length_eq_countP_add_countP (fun handle => handle.1 = p) (l := s.handles)
  have hfilter : (s.handles.filter fun handle => handle.1 ≠ p).length =
      s.handles.countP fun handle => ¬ decide (handle.1 = p) = true := by
    rw [List.countP_eq_length_filter]
    simp
  rw [hcount, hfilter]
  omega

lemma exit (h : RefcntInvariant s) {p : Process} (hsafe : ExitSafe s (.exit p)) :
    RefcntInvariant (processExit s p) := by
  constructor
  case few => exact lt_of_le_of_lt (List.length_filter_le _ _) h.few
  case named => exact fun handle hmem => h.named handle (List.mem_of_mem_filter hmem)
  case refcnt =>
    intro i hi
    have hnamed : s.named = some i := hi
    have hlength := h.length_filter_exit hnamed p
    have hcount := hsafe i
    have hrefcnt := h.refcnt i hnamed
    by_cases hmutex : (s.segment i).mutex = .locked p
    · have hsegment : (processExit s p).segment i = { s.segment i with mutex := .ownerDead } :=
        if_pos hmutex
      rw [if_pos hmutex] at hcount
      rw [hmutex] at hrefcnt
      rw [hsegment]
      change (s.segment i).refcnt =
        Int16.ofNat ((s.handles.filter fun handle => handle.1 ≠ p).length + 1)
      rw [hrefcnt, ← hlength, hcount]
      rfl
    · have hsegment : (processExit s p).segment i = s.segment i := if_neg hmutex
      rw [if_neg hmutex] at hcount
      rw [hsegment, hrefcnt, ← hlength, hcount]
      rfl

lemma mutexStep {call : MutexCall Process} (h : RefcntInvariant s) (hsafe : ExitSafe s call)
    (hstep : mutexStep s call = some s') : RefcntInvariant s' := by
  cases call with
  | create p opened => exact h.create hstep
  | lock p i => exact h.lock hstep
  | unlock p i => exact h.unlock hstep
  | destroy p i => exact (h.destroy hsafe hstep).1
  | exit p =>
    cases hstep
    exact h.exit hsafe

lemma refcntLaw {call : MutexCall Process} (h : RefcntInvariant s) (hsafe : ExitSafe s call)
    (hstep : GeneralPurposeLibrary.mutexStep s call = some s') : RefcntLaw s call := by
  cases call with
  | destroy p i => exact ⟨h.refcntExact, (h.destroy hsafe hstep).2⟩
  | create p opened => exact h.refcntExact
  | lock p i => exact h.refcntExact
  | unlock p i => exact h.refcntExact
  | exit p => exact h.refcntExact

end RefcntInvariant

/-- In every run in which a process exits abnormally only with the one handle on a mutex it
holds, and nobody destroys the last live handle of an owner-dead mutex, the count is exact in
every state and every destroy unlinks the segment exactly when it closes the last handle. -/
theorem refcnt_exact_of_exit_safe (calls : List (MutexCall Process)) (s : MutexSystem Process)
    (hsafe : AlongRun mutexStep ExitSafe (initMutexSystem Process) calls)
    (hrun : run mutexStep (initMutexSystem Process) calls = some s) :
    AlongRun mutexStep RefcntLaw (initMutexSystem Process) calls ∧ RefcntExact s := by
  have hstep : ∀ (s : MutexSystem Process) call s', RefcntInvariant s → ExitSafe s call →
      mutexStep s call = some s' → RefcntInvariant s' :=
    fun _ _ _ h hs hstep => h.mutexStep hs hstep
  constructor
  · exact alongRun_of_steps hstep (fun _ _ _ h hs hstep => h.refcntLaw hs hstep)
      initMutexSystem_invariant hsafe hrun
  · exact (invariant_of_steps hstep initMutexSystem_invariant hsafe hrun).refcntExact

/-- The owner of the mutex exits, and the other process recovers and closes the last handle. -/
def ownerExits : List (MutexCall ℕ) :=
  [.create 0 true, .create 1 true, .lock 0 0, .exit 0, .lock 1 0, .unlock 1 0, .destroy 1 0]

theorem owner_exit_counted :
    AlongRun mutexStep ExitSafe (initMutexSystem ℕ) ownerExits ∧
      ∃ s, run mutexStep (initMutexSystem ℕ) ownerExits = some s ∧
        AlongRun mutexStep RefcntLaw (initMutexSystem ℕ) ownerExits ∧ RefcntExact s := by
  have hsafe : AlongRun mutexStep ExitSafe (initMutexSystem ℕ) ownerExits := by
    refine .cons trivial rfl (.cons trivial rfl (.cons trivial rfl (.cons ?_ rfl
      (.cons trivial rfl (.cons trivial rfl (.cons ?_ rfl trivial))))))
    · intro i
      cases i with
      | zero => rfl
      | succ i => rfl
    · intro hdead
      cases hdead
  exact ⟨hsafe, _, rfl, refcnt_exact_of_exit_safe ownerExits _ hsafe rfl⟩

/-- A process that creates a handle and exits without holding the mutex stays in the count. -/
theorem exit_of_waiter_not_counted :
    ∃ s, run mutexStep (initMutexSystem ℕ) [.create 0 true, .exit 0] = some s ∧
      ¬ RefcntExact s := by
  refine ⟨_, rfl, ?_⟩
  intro h
  exact absurd (h 0 (Or.inl rfl) (by decide)) (by decide)

end GeneralPurposeLibrary.Proofs
