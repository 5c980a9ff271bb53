import Mathlib.Logic.Basic

/-!
# Programs that may stop with a fault

A program reads and writes a state and either returns a value or stops with a fault; the
state it had reached is kept in both cases. `wp m Q E s` says that `m`, started in `s`,
ends in `Q` when it returns and in `E` when it stops. The lemmas compute it along the
structure of a program, and `wp_mono` weakens both postconditions.
-/

namespace FaultingProgram

variable {σ ε α β : Type}

abbrev Program (σ ε α : Type) := ExceptT ε (StateM σ) α

/-- The outcome of a program together with the last state it reached. -/
def exec (m : Program σ ε α) (s : σ) : Except ε α × σ := (ExceptT.run m).run s

def wp (m : Program σ ε α) (Q : α → σ → Prop) (E : ε → σ → Prop) (s : σ) : Prop :=
  match exec m s with
  | (.ok a, s') => Q a s'
  | (.error e, s') => E e s'

@[simp] lemma exec_pure (a : α) (s : σ) : exec (pure a : Program σ ε α) s = (.ok a, s) := rfl

@[simp] lemma exec_get (s : σ) : exec (get : Program σ ε σ) s = (.ok s, s) := rfl

@[simp] lemma exec_modify (f : σ → σ) (s : σ) :
    exec (modify f : Program σ ε PUnit) s = (.ok ⟨⟩, f s) := rfl

lemma exec_bind (m : Program σ ε α) (f : α → Program σ ε β) (s : σ) :
    exec (m >>= f) s = match exec m s with
      | (.ok a, s') => exec (f a) s'
      | (.error e, s') => (.error e, s') := by
  unfold exec
  rw [ExceptT.run_bind, StateT.run_bind]
  rcases (ExceptT.run m).run s with ⟨r, s'⟩
  cases r <;> rfl

lemma exec_bind_ok {m : Program σ ε α} {f : α → Program σ ε β} {s s' : σ} {a : α}
    (h : exec m s = (.ok a, s')) : exec (m >>= f) s = exec (f a) s' := by
  rw [exec_bind, h]

section Rules

variable {Q Q' : α → σ → Prop} {E E' : ε → σ → Prop} {s : σ}

@[simp] lemma wp_pure (a : α) : wp (pure a) Q E s ↔ Q a s := Iff.rfl

@[simp] lemma wp_get {Q : σ → σ → Prop} : wp get Q E s ↔ Q s s := Iff.rfl

@[simp] lemma wp_modify (f : σ → σ) {Q : PUnit → σ → Prop} :
    wp (modify f) Q E s ↔ Q ⟨⟩ (f s) := Iff.rfl

@[simp] lemma wp_bind (m : Program σ ε α) (f : α → Program σ ε β) {Q : β → σ → Prop} :
    wp (m >>= f) Q E s ↔ wp m (fun a => wp (f a) Q E) E s := by
  unfold wp
  rw [exec_bind]
  rcases exec m s with ⟨r, s'⟩
  cases r <;> rfl

lemma wp_mono {m : Program σ ε α} (h : wp m Q E s) (hQ : ∀ a s', Q a s' → Q' a s')
    (hE : ∀ e s', E e s' → E' e s') : wp m Q' E' s := by
  unfold wp at h ⊢
  rcases hm : exec m s with ⟨r, s'⟩
  rw [hm] at h
  cases r with
  | ok a => exact hQ a s' h
  | error e => exact hE e s' h

lemma wp_seq {R : β → σ → Prop} {m : Program σ ε α} {f : α → Program σ ε β} (h : wp m Q E s)
    (hf : ∀ a s', Q a s' → wp (f a) R E s') : wp (m >>= f) R E s :=
  wp_bind m f |>.mpr (wp_mono h hf (fun _ _ h => h))

lemma wp_of_exec_ok {m : Program σ ε α} {a : α} {s' : σ} (h : exec m s = (.ok a, s'))
    (hQ : Q a s') : wp m Q E s := by
  unfold wp
  rw [h]
  exact hQ

lemma of_wp_ok {m : Program σ ε α} {a : α} {s' : σ} (h : wp m Q E s)
    (hm : exec m s = (.ok a, s')) : Q a s' := by
  unfold wp at h
  rw [hm] at h
  exact h

lemma exists_ok_of_wp {m : Program σ ε α} (h : wp m Q (fun _ _ => False) s) :
    ∃ a s', exec m s = (.ok a, s') ∧ Q a s' := by
  unfold wp at h
  rcases hm : exec m s with ⟨r, s'⟩
  rw [hm] at h
  cases r with
  | ok a => exact ⟨a, s', rfl, h⟩
  | error e => exact h.elim

lemma of_wp_error {m : Program σ ε α} {e : ε} {s' : σ} (h : wp m Q E s)
    (hm : exec m s = (.error e, s')) : E e s' := by
  unfold wp at h
  rw [hm] at h
  exact h

lemma exists_error_of_wp {m : Program σ ε α} (h : wp m (fun _ _ => False) E s) :
    ∃ e s', exec m s = (.error e, s') ∧ E e s' := by
  unfold wp at h
  rcases hm : exec m s with ⟨r, s'⟩
  rw [hm] at h
  cases r with
  | ok a => exact h.elim
  | error e => exact ⟨e, s', rfl, h⟩

lemma state_of_wp {m : Program σ ε α} {I : σ → Prop} (h : wp m (fun _ => I) (fun _ => I) s) :
    I (exec m s).2 := by
  unfold wp at h
  rcases hm : exec m s with ⟨r, s'⟩
  rw [hm] at h
  cases r <;> exact h

end Rules

end FaultingProgram
