import Mathlib.Data.Nat.Notation

/-!
# Loops with fuel

`run body` repeats `body` until it yields a result. It stops without one when the fuel is used
up, so a loop that ends is one that has a result for every large enough fuel.
-/

namespace FuelLoop

variable {σ ρ : Type} (body : σ → σ ⊕ ρ)

def run : ℕ → σ → Option ρ
  | 0, _ => none
  | fuel + 1, s =>
    match body s with
    | .inl s' => run fuel s'
    | .inr r => some r

variable {body}

lemma run_of_inl {s s' : σ} (h : body s = .inl s') (fuel : ℕ) :
    run body (fuel + 1) s = run body fuel s' := by
  rw [run, h]

lemma run_of_inr {s : σ} {r : ρ} (h : body s = .inr r) (fuel : ℕ) :
    run body (fuel + 1) s = some r := by
  rw [run, h]

/-- A loop ends, with a result that meets the postcondition, if every round either keeps the
invariant and lowers the variant or yields such a result. -/
theorem exists_run {I : σ → Prop} {variant : σ → ℕ} {Q : ρ → Prop}
    (hround : ∀ s, I s → (∃ s', body s = .inl s' ∧ I s' ∧ variant s' < variant s) ∨
      ∃ r, body s = .inr r ∧ Q r) {s : σ} (hI : I s) :
    ∃ r, Q r ∧ ∀ fuel, variant s < fuel → run body fuel s = some r := by
  generalize hn : variant s = n
  induction n using Nat.strongRecOn generalizing s with
  | ind n ih =>
    rcases hround s hI with ⟨s', hbody, hI', hlt⟩ | ⟨r, hbody, hQ⟩
    · obtain ⟨r, hQ, hrun⟩ := ih (variant s') (by omega) hI' rfl
      refine ⟨r, hQ, ?_⟩
      intro fuel hfuel
      obtain ⟨fuel, rfl⟩ : ∃ k, fuel = k + 1 := ⟨fuel - 1, by omega⟩
      rw [run_of_inl hbody]
      exact hrun fuel (by omega)
    · refine ⟨r, hQ, ?_⟩
      intro fuel hfuel
      obtain ⟨fuel, rfl⟩ : ∃ k, fuel = k + 1 := ⟨fuel - 1, by omega⟩
      exact run_of_inr hbody fuel

/-- A loop that always has another round never ends. -/
theorem run_eq_none {J : σ → Prop} (hstep : ∀ s, J s → ∃ s', body s = .inl s' ∧ J s') {s : σ}
    (hJ : J s) (fuel : ℕ) : run body fuel s = none := by
  induction fuel generalizing s with
  | zero => rfl
  | succ fuel ih =>
    obtain ⟨s', hbody, hJ'⟩ := hstep s hJ
    rw [run_of_inl hbody]
    exact ih hJ'

end FuelLoop
