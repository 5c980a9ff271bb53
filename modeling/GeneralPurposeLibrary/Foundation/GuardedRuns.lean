import Mathlib.Logic.Basic

/-!
# Runs of a system whose steps may be disabled

A system takes labelled steps; a step that is not enabled has no successor. `run` follows a
list of labels and `AlongRun` says that every step of a run meets a condition on the state
before it. An invariant that such steps preserve holds at the end of such a run, and as every
prefix of a run is a run, in every state on the way.
-/

namespace GuardedRuns

variable {σ α : Type} (step : σ → α → Option σ)

def run : σ → List α → Option σ
  | s, [] => some s
  | s, a :: as =>
    match step s a with
    | none => none
    | some s' => run s' as

/-- Every step of the run meets `C` in the state it is taken from. -/
def AlongRun (C : σ → α → Prop) : σ → List α → Prop
  | _, [] => True
  | s, a :: as => C s a ∧ ∀ s', step s a = some s' → AlongRun C s' as

/-- What the steps of a run add up to, each in the state it is taken from. -/
def total (f : σ → α → Nat) : σ → List α → Nat
  | _, [] => 0
  | s, a :: as =>
    f s a + match step s a with
      | none => 0
      | some s' => total f s' as

variable {step} {C : σ → α → Prop} {I : σ → Prop}

lemma AlongRun.cons {s s₁ : σ} {a : α} {as : List α} (hC : C s a) (hs : step s a = some s₁)
    (h : AlongRun step C s₁ as) : AlongRun step C s (a :: as) := by
  refine ⟨hC, ?_⟩
  intro s' hs'
  rw [hs] at hs'
  cases hs'
  exact h

lemma exists_step_of_run_cons {s s' : σ} {a : α} {as : List α}
    (h : run step s (a :: as) = some s') :
    ∃ s₁, step s a = some s₁ ∧ run step s₁ as = some s' := by
  rw [run] at h
  cases hstep : step s a with
  | none =>
    rw [hstep] at h
    cases h
  | some s₁ =>
    rw [hstep] at h
    exact ⟨s₁, rfl, h⟩

lemma run_concat {s s₁ s₂ : σ} {a : α} {as : List α} (hrun : run step s as = some s₁)
    (hs : step s₁ a = some s₂) : run step s (as ++ [a]) = some s₂ := by
  induction as generalizing s with
  | nil =>
    cases hrun
    rw [List.nil_append, run, hs]
    rfl
  | cons b as ih =>
    obtain ⟨s', hb, hrest⟩ := exists_step_of_run_cons hrun
    rw [List.cons_append, run, hb]
    exact ih hrest

lemma total_cons {f : σ → α → Nat} {s s₁ : σ} {a : α} (hs : step s a = some s₁) (as : List α) :
    total step f s (a :: as) = f s a + total step f s₁ as := by
  rw [total, hs]

lemma alongRun_of_forall {D : α → Prop} (step : σ → α → Option σ) (s : σ) {as : List α}
    (h : ∀ a ∈ as, D a) : AlongRun step (fun _ a => D a) s as := by
  induction as generalizing s with
  | nil => trivial
  | cons a as ih =>
    refine ⟨h a List.mem_cons_self, ?_⟩
    intro s' _
    exact ih s' fun b hb => h b (List.mem_cons_of_mem a hb)

/-- What steps that meet the condition preserve holds at the end of a run of such steps. -/
theorem invariant_of_steps
    (hstep : ∀ s a s', I s → C s a → step s a = some s' → I s') {s s' : σ} {as : List α}
    (hinit : I s) (halong : AlongRun step C s as) (hrun : run step s as = some s') : I s' := by
  induction as generalizing s with
  | nil =>
    cases hrun
    exact hinit
  | cons a as ih =>
    obtain ⟨s₁, hs, hrest⟩ := exists_step_of_run_cons hrun
    exact ih (hstep s a s₁ hinit halong.1 hs) (halong.2 s₁ hs) hrest

lemma alongRun_true (step : σ → α → Option σ) (s : σ) (as : List α) :
    AlongRun step (fun _ _ => True) s as := by
  induction as generalizing s with
  | nil => trivial
  | cons a as ih => exact ⟨trivial, fun s' _ => ih s'⟩

/-- What every step preserves holds at the end of a run. -/
theorem invariant_of_run (hstep : ∀ s a s', I s → step s a = some s' → I s') {s s' : σ}
    {as : List α} (hinit : I s) (hrun : run step s as = some s') : I s' :=
  invariant_of_steps (fun s a s' h _ hs => hstep s a s' h hs) hinit (alongRun_true step s as) hrun

/-- What an invariant gives for the steps that meet the condition holds along the run. -/
theorem alongRun_of_steps {L : σ → α → Prop}
    (hstep : ∀ s a s', I s → C s a → step s a = some s' → I s')
    (hlaw : ∀ s a s', I s → C s a → step s a = some s' → L s a) {s s' : σ} {as : List α}
    (hinit : I s) (halong : AlongRun step C s as) (hrun : run step s as = some s') :
    AlongRun step L s as := by
  induction as generalizing s with
  | nil => trivial
  | cons a as ih =>
    obtain ⟨s₁, hs, hrest⟩ := exists_step_of_run_cons hrun
    have hnext := ih (hstep s a s₁ hinit halong.1 hs) (halong.2 s₁ hs) hrest
    exact AlongRun.cons (hlaw s a s₁ hinit halong.1 hs) hs hnext

end GuardedRuns
