import GeneralPurposeLibrary.Proofs.ShmMutexLockCount
import Mathlib.Algebra.BigOperators.Group.Finset.Basic
import Mathlib.Algebra.BigOperators.Group.Finset.Piecewise
import Mathlib.Algebra.Group.Nat.Defs

/-!
# The reference count of the shared mutex

`ref_count` goes up when a process attaches and down when it destroys its handle. The handles
of a process that dies stay counted, and every takeover from a dead owner takes one off,
whatever the owner had open.
-/

namespace GeneralPurposeLibrary.Proofs
open GuardedRuns

variable {Process : Type}

def processOf : ShmMutexCall Process → Process
  | .alloc p _ _ | .destroy p | .lock p | .unlock p | .crash p => p

/-- The handles that a call loses because its process dies. -/
def lostHandles (s : ShmMutexSystem Process) : ShmMutexCall Process → ℕ
  | .crash p | .alloc p (some _) .mapFailed => s.handles p
  | _ => 0

/-- Whether a lock takes the mutex over from a dead owner. -/
def takeovers (s : ShmMutexSystem Process) : ShmMutexCall Process → ℕ
  | .lock _ =>
    match s.file.mutex with
    | .locked owner _ => if s.alive owner then 0 else 1
    | _ => 0
  | _ => 0

variable [DecidableEq Process]

lemma sum_update_add {P : Finset Process} {p : Process} (hp : p ∈ P) (handles : Process → ℕ)
    (n : ℕ) :
    ∑ q ∈ P, Function.update handles p n q + handles p = ∑ q ∈ P, handles q + n := by
  have hold := Finset.add_sum_erase P handles hp
  have hnew := Finset.add_sum_erase P (Function.update handles p n) hp
  have hsame : ∑ q ∈ P.erase p, Function.update handles p n q = ∑ q ∈ P.erase p, handles q := by
    apply Finset.sum_congr rfl
    intro q hq
    exact Function.update_of_ne (Finset.ne_of_mem_erase hq) n handles
  rw [Function.update_self, hsame] at hnew
  omega

/-- The count against the handles that are open, those that were lost and the takeovers. -/
def Balanced (P : Finset Process) (s : ShmMutexSystem Process) (lost taken : ℕ) : Prop :=
  s.file.refCount + Int32.ofNat taken = Int32.ofNat (∑ p ∈ P, s.handles p + lost)

lemma balanced_update {P : Finset Process} {s s' : ShmMutexSystem Process} {p : Process}
    {n lost taken moreLost moreTaken : ℕ} (hbalanced : Balanced P s lost taken) (hp : p ∈ P)
    (hhandles : s'.handles = Function.update s.handles p n)
    (hcount : s'.file.refCount + Int32.ofNat (s.handles p) + Int32.ofNat moreTaken =
      s.file.refCount + Int32.ofNat n + Int32.ofNat moreLost) :
    Balanced P s' (lost + moreLost) (taken + moreTaken) := by
  have hsum := congrArg Int32.ofNat (sum_update_add hp s.handles n)
  unfold Balanced at hbalanced ⊢
  rw [hhandles]
  simp only [Int32.ofNat_add] at hbalanced hsum ⊢
  grind

omit [DecidableEq Process] in
lemma balanced_file {P : Finset Process} {s s' : ShmMutexSystem Process}
    {lost taken moreTaken : ℕ} (hbalanced : Balanced P s lost taken)
    (hhandles : s'.handles = s.handles)
    (hcount : s'.file.refCount + Int32.ofNat moreTaken = s.file.refCount) :
    Balanced P s' lost (taken + moreTaken) := by
  unfold Balanced at hbalanced ⊢
  rw [hhandles, ← hbalanced, Int32.ofNat_add, ← hcount]
  grind

lemma balanced_crashed {P : Finset Process} {s : ShmMutexSystem Process} {p : Process}
    {lost taken : ℕ} (hbalanced : Balanced P s lost taken) (hp : p ∈ P) :
    Balanced P (crashed s p) (lost + s.handles p) taken := by
  have hcrashed : Balanced P (crashed s p) (lost + s.handles p) (taken + 0) := by
    apply balanced_update hbalanced hp rfl
    simp [crashed]
  exact hcrashed

omit [DecidableEq Process] in
lemma refCount_attach {file : ShmMutex Process} (hcounts : CountsHolder file)
    (key : List UInt8) : (file.attach key).refCount = file.refCount + 1 := by
  rw [ShmMutex.attach, if_neg (not_not.mpr hcounts.magic_eq.symm)]

omit [DecidableEq Process] in
/-- A lock takes one off the count exactly when it takes the mutex over. -/
lemma refCount_lock {s : ShmMutexSystem Process} {p : Process} {ret : Int32}
    {file : ShmMutex Process} (hcounts : CountsHolder s.file)
    (hlock : shmMutexLock s.alive p s.file = some (ret, file)) :
    file.refCount + Int32.ofNat (takeovers s (.lock p)) = s.file.refCount := by
  obtain ⟨file₀, alive, handles⟩ := s
  cases hcounts with
  | unlocked name refCount =>
    cases hlock
    simp [takeovers]
  | locked name refCount owner =>
    cases howner : alive owner with
    | true =>
      simp only [shmMutexLock, pthreadMutexLock, howner, if_true] at hlock
      cases hlock
    | false =>
      simp only [shmMutexLock, pthreadMutexLock, howner, Bool.false_eq_true, if_false] at hlock
      cases hlock
      simp only [takeovers, howner, Bool.false_eq_true, if_false]
      change refCount - 1 + 1 = refCount
      grind

lemma balanced_step {P : Finset Process} {s s' : ShmMutexSystem Process}
    {call : ShmMutexCall Process} {lost taken : ℕ} (hcounts : CountsHolder s.file)
    (hbalanced : Balanced P s lost taken) (hp : processOf call ∈ P)
    (hstep : shmMutexStep s call = some s') :
    Balanced P s' (lost + lostHandles s call) (taken + takeovers s call) := by
  cases call with
  | alloc p key result =>
    rw [shmMutexStep, Option.ite_none_right_eq_some] at hstep
    obtain ⟨-, hstep⟩ := hstep
    cases hstep
    cases key with
    | none => exact hbalanced
    | some key =>
      cases result with
      | null => exact hbalanced
      | mapFailed => exact balanced_crashed hbalanced hp
      | mapped =>
        refine balanced_update hbalanced hp rfl ?_
        have hcount : (shmMutexAlloc s p (some key) .mapped).file.refCount =
            s.file.refCount + 1 := refCount_attach hcounts key
        rw [hcount, Int32.ofNat_add]
        simp only [lostHandles, takeovers]
        change s.file.refCount + 1 + Int32.ofNat (s.handles p) + 0 =
          s.file.refCount + (Int32.ofNat (s.handles p) + 1) + 0
        grind
  | destroy p =>
    rw [shmMutexStep, Option.ite_none_right_eq_some, Bool.and_eq_true] at hstep
    obtain ⟨⟨hready, -⟩, hstep⟩ := hstep
    have hpos := handles_pos_of_ready hready
    cases hstep
    refine balanced_update hbalanced hp rfl ?_
    rw [Int32.ofNat_sub (s.handles p) 1 hpos]
    simp only [lostHandles, takeovers]
    change s.file.refCount - 1 + Int32.ofNat (s.handles p) + 0 =
      s.file.refCount + (Int32.ofNat (s.handles p) - 1) + 0
    grind
  | lock p =>
    rw [shmMutexStep, Option.ite_none_right_eq_some] at hstep
    obtain ⟨hready, hstep⟩ := hstep
    obtain ⟨⟨ret, file⟩, hlock, rfl⟩ := Option.map_eq_some_iff.mp hstep
    exact balanced_file hbalanced rfl (refCount_lock hcounts hlock)
  | unlock p =>
    rw [shmMutexStep, Option.ite_none_right_eq_some, Bool.and_eq_true] at hstep
    obtain ⟨⟨hready, hheld⟩, hstep⟩ := hstep
    cases hstep
    exact hbalanced
  | crash p =>
    rw [shmMutexStep, Option.ite_none_right_eq_some] at hstep
    obtain ⟨-, hstep⟩ := hstep
    cases hstep
    exact balanced_crashed hbalanced hp

lemma balanced_run {P : Finset Process} {s s' : ShmMutexSystem Process}
    {calls : List (ShmMutexCall Process)} {lost taken : ℕ} (hcounts : CountsHolder s.file)
    (hbalanced : Balanced P s lost taken) (hP : ∀ call ∈ calls, processOf call ∈ P)
    (hrun : run shmMutexStep s calls = some s') :
    Balanced P s' (lost + total shmMutexStep lostHandles s calls)
      (taken + total shmMutexStep takeovers s calls) := by
  induction calls generalizing s lost taken with
  | nil =>
    cases hrun
    exact hbalanced
  | cons call calls ih =>
    obtain ⟨s₁, hstep, hrest⟩ := exists_step_of_run_cons hrun
    have h₁ := balanced_step hcounts hbalanced (hP call List.mem_cons_self) hstep
    rw [total_cons hstep, total_cons hstep, ← Nat.add_assoc, ← Nat.add_assoc]
    exact ih (countsHolder_step s call s₁ hcounts hstep) h₁
      (fun c hc => hP c (List.mem_cons_of_mem call hc)) hrest

lemma totals_of_notMapped {file : ShmMutex Process} {s s' : ShmMutexSystem Process}
    {call : ShmMutexCall Process} (h : NotMapped file s) (hstep : shmMutexStep s call = some s') :
    lostHandles s call = 0 ∧ takeovers s call = 0 := by
  cases call with
  | alloc p key result =>
    refine ⟨?_, rfl⟩
    cases key with
    | none => rfl
    | some key =>
      cases result with
      | mapFailed => exact h.handles_eq p
      | null => rfl
      | mapped => rfl
  | destroy p => exact ⟨rfl, rfl⟩
  | lock p =>
    rw [shmMutexStep, Option.ite_none_right_eq_some] at hstep
    have hpos := handles_pos_of_ready hstep.1
    rw [h.handles_eq p] at hpos
    exact absurd hpos (Nat.lt_irrefl 0)
  | unlock p => exact ⟨rfl, rfl⟩
  | crash p => exact ⟨h.handles_eq p, rfl⟩

lemma balanced_of_mapped {file : ShmMutex Process} {s s' : ShmMutexSystem Process}
    {call : ShmMutexCall Process} {P : Finset Process} (hmagic : file.magic ≠ shmMutexMagic)
    (h : NotMapped file s) (hmaps : MapsFile call) (hp : processOf call ∈ P)
    (hstep : shmMutexStep s call = some s') : Balanced P s' 0 0 := by
  obtain ⟨p, key, rfl⟩ := hmaps
  rw [shmMutexStep, Option.ite_none_right_eq_some] at hstep
  obtain ⟨-, hstep⟩ := hstep
  cases hstep
  have hcount : (s.file.attach key).refCount = 0 + 1 := by
    rw [h.file_eq, ShmMutex.attach, if_pos hmagic.symm]
  have hzero : ∑ q ∈ P, s.handles q = 0 := Finset.sum_eq_zero fun q _ => h.handles_eq q
  have hsum : ∑ q ∈ P, Function.update s.handles p (s.handles p + 1) q + s.handles p = _ :=
    sum_update_add hp s.handles (s.handles p + 1)
  rw [hzero, h.handles_eq p] at hsum
  have hone : ∑ q ∈ P, (shmMutexAlloc s p (some key) .mapped).handles q = 1 := by
    simp only [shmMutexAlloc, h.handles_eq p]
    exact hsum
  change (s.file.attach key).refCount + Int32.ofNat 0 = Int32.ofNat (_ + 0)
  rw [hcount, hone]
  decide

lemma balanced_run_notMapped {file : ShmMutex Process} {s s' : ShmMutexSystem Process}
    {calls : List (ShmMutexCall Process)} {P : Finset Process}
    (hmagic : file.magic ≠ shmMutexMagic) (h : NotMapped file s)
    (hmapped : ∃ call ∈ calls, MapsFile call) (hP : ∀ call ∈ calls, processOf call ∈ P)
    (hrun : run shmMutexStep s calls = some s') :
    Balanced P s' (total shmMutexStep lostHandles s calls)
      (total shmMutexStep takeovers s calls) := by
  induction calls generalizing s with
  | nil =>
    obtain ⟨call, hcall, _⟩ := hmapped
    cases hcall
  | cons call calls ih =>
    obtain ⟨s₁, hstep, hrest⟩ := exists_step_of_run_cons hrun
    have hp : processOf call ∈ P := hP call List.mem_cons_self
    have hPrest : ∀ c ∈ calls, processOf c ∈ P := fun c hc => hP c (List.mem_cons_of_mem call hc)
    obtain ⟨hlost, htaken⟩ := totals_of_notMapped h hstep
    rw [total_cons hstep, total_cons hstep, hlost, htaken]
    rcases h.step hmagic hstep with ⟨hmaps, hcounts⟩ | ⟨hmaps, h₁⟩
    · exact balanced_run hcounts (balanced_of_mapped hmagic h hmaps hp hstep) hPrest hrest
    · have hlater : ∃ c ∈ calls, MapsFile c := by
        obtain ⟨c, hc, hmapsc⟩ := hmapped
        rcases List.mem_cons.mp hc with rfl | hc
        · exact absurd hmapsc hmaps
        · exact ⟨c, hc, hmapsc⟩
      have hbalanced := ih h₁ hlater hPrest hrest
      rw [Nat.zero_add, Nat.zero_add]
      exact hbalanced

/-- In every run on a new file, `ref_count` is the number of handles that are open, plus those
that processes had open when they died, less the number of times that the mutex was taken over
from a dead owner. -/
theorem ref_count_balance (file : ShmMutex Process) (hmagic : file.magic ≠ shmMutexMagic)
    (alive : Process → Bool) (calls : List (ShmMutexCall Process))
    (hmapped : ∃ call ∈ calls, MapsFile call) (P : Finset Process)
    (hP : ∀ call ∈ calls, processOf call ∈ P) (s : ShmMutexSystem Process)
    (hrun : run shmMutexStep (initShmMutexSystem file alive) calls = some s) :
    s.file.refCount +
        Int32.ofNat (total shmMutexStep takeovers (initShmMutexSystem file alive) calls) =
      Int32.ofNat (∑ p ∈ P, s.handles p +
        total shmMutexStep lostHandles (initShmMutexSystem file alive) calls) :=
  balanced_run_notMapped hmagic ⟨rfl, fun _ => rfl⟩ hmapped hP hrun

/-- One process of three dies with two handles open, and the mutex is taken over once. -/
theorem ref_count_after_takeover :
    ∃ s, run shmMutexStep (initShmMutexSystem ⟨0, [], 0, 7, .uninitialised⟩ fun _ => true)
        [.alloc 0 (some []) .mapped, .alloc 0 (some []) .mapped, .alloc 1 (some []) .mapped,
          .lock 0, .crash 0, .lock 1] = some s ∧
      s.file.refCount + Int32.ofNat 1 = Int32.ofNat (∑ p ∈ {0, 1}, s.handles p + 2) :=
  ⟨_, rfl, ref_count_balance ⟨0, [], 0, 7, .uninitialised⟩ (by decide) (fun _ => true)
    [.alloc 0 (some []) .mapped, .alloc 0 (some []) .mapped, .alloc 1 (some []) .mapped,
      .lock 0, .crash 0, .lock 1]
    ⟨.alloc 0 (some []) .mapped, List.mem_cons_self, 0, [], rfl⟩ {0, 1} (by decide) _ rfl⟩

end GeneralPurposeLibrary.Proofs
