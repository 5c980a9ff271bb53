import Mathlib.Data.Nat.Notation

/-!
# Calls that are repeated a bounded number of times

`retry` makes a call and repeats it while the value it returned asks for it and the budget
lasts. The state keeps a log of the calls' outcomes; the lemmas say what one `retry` adds to
that log.
-/

namespace BoundedRetry

variable {σ ρ ω : Type} (again : ρ → Prop) [DecidablePred again] (call : σ → σ × ρ)

def retry : ℕ → σ → σ × ρ
  | 0, s => call s
  | budget + 1, s =>
    if again (call s).2 then retry budget (call s).1 else call s

/-- Each call adds its outcome to the log, and its value is that of the outcome. -/
structure Logs (log : σ → List ω) (next : σ → ω) (value : ω → ρ) : Prop where
  log_call : ∀ s, log (call s).1 = log s ++ [next s]
  value_call : ∀ s, (call s).2 = value (next s)

variable {call}

lemma retry_of_not_again {s : σ} (h : ¬again (call s).2) (budget : ℕ) :
    retry again call budget s = call s := by
  cases budget with
  | zero => rfl
  | succ budget => rw [retry, if_neg h]

variable {log : σ → List ω} {next : σ → ω} {value : ω → ρ}

/-- What a `retry` adds to the log: at least the first outcome, at most one outcome for the
call and one for each unit of the budget, and last the one whose value is returned. -/
theorem exists_log_retry (hlogs : Logs call log next value) (budget : ℕ) (s : σ) :
    ∃ rest, log (retry again call budget s).1 = log s ++ next s :: rest ∧
      rest.length ≤ budget ∧
      (retry again call budget s).2 = value ((next s :: rest).getLast (List.cons_ne_nil _ _)) := by
  induction budget generalizing s with
  | zero => exact ⟨[], hlogs.log_call s, Nat.le_refl 0, hlogs.value_call s⟩
  | succ budget ih =>
    by_cases h : again (call s).2
    · obtain ⟨rest, hlog, hlength, hvalue⟩ := ih (call s).1
      refine ⟨next (call s).1 :: rest, ?_, Nat.succ_le_succ hlength, ?_⟩
      · rw [retry, if_pos h, hlog, hlogs.log_call s, List.append_assoc, List.singleton_append]
      · rw [retry, if_pos h, hvalue]
        rfl
    · rw [retry_of_not_again again h]
      exact ⟨[], hlogs.log_call s, Nat.zero_le _, hlogs.value_call s⟩

/-- A first value that asks for it is followed by a second call. -/
theorem exists_log_retry_again (hlogs : Logs call log next value) {s : σ}
    (h : again (value (next s))) (budget : ℕ) :
    ∃ second rest, log (retry again call (budget + 1) s).1 = log s ++ next s :: second :: rest := by
  have hagain : again (call s).2 := by
    rw [hlogs.value_call s]
    exact h
  obtain ⟨rest, hlog, -, -⟩ := exists_log_retry again hlogs budget (call s).1
  refine ⟨next (call s).1, rest, ?_⟩
  rw [retry, if_pos hagain, hlog, hlogs.log_call s, List.append_assoc, List.singleton_append]

end BoundedRetry
