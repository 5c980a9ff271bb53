import GeneralPurposeLibrary.Proofs.HsmBubbling

/-!
# What a transition can do

The branch of `glb_hsm_dispatch` that takes a transition asks states for their
superstates, runs actions and moves `next_state`; it does nothing else. An invariant of
these elementary steps, together with a set of states closed under superstates, therefore
holds throughout the branch, at a fault as well as at its end.
-/

namespace GeneralPurposeLibrary.Proofs
open FaultingProgram

variable {S : Type}

def PathIn (K : S → Prop) (path : Path S) : Prop := ∀ i s, path i = some s → K s

lemma PathIn.update {K : S → Prop} {path : Path S} (h : PathIn K path) (i : Nat) {s : S}
    (hs : K s) : PathIn K (Function.update path i (some s)) := by
  intro j t ht
  by_cases hj : j = i
  · rw [hj, Function.update_self] at ht
    rw [← Option.some.inj ht]
    exact hs
  · rw [Function.update_of_ne hj] at ht
    exact h j t ht

lemma wp_pathGet {path : Path S} {i : Int} {Q : S → Hsm S → Prop} {E : Fault → Hsm S → Prop}
    {w : Hsm S} (hE : ∀ e, E e w) (hQ : ∀ s, path i.toNat = some s → Q s w) :
    wp (path.get i) Q E w := by
  unfold Path.get
  split
  · cases hs : path i.toNat with
    | none => exact hE _
    | some s => exact hQ s hs
  · exact hE _

lemma wp_pathSet {path : Path S} {i : Int} {s : S} {Q : Path S → Hsm S → Prop}
    {E : Fault → Hsm S → Prop} {w : Hsm S} (hE : ∀ e, E e w)
    (hQ : 0 ≤ i → Q (Function.update path i.toNat (some s)) w) :
    wp (path.set i s) Q E w := by
  unfold Path.set
  split
  · rename_i hi
    exact hQ hi.1
  · exact hE _

variable [DecidableEq S]

lemma wp_searchPath {t : S} {path : Path S} {status ip : Int} {iq : Nat} {I : Hsm S → Prop}
    {w : Hsm S} (hI : I w) :
    wp (searchPath t path status ip iq) (fun _ => I) (fun _ => I) w := by
  induction iq with
  | zero =>
    unfold searchPath
    rw [wp_bind]
    apply wp_pathGet (fun _ => hI)
    intro s _
    split <;> exact hI
  | succ iq ih =>
    unfold searchPath
    rw [wp_bind]
    apply wp_pathGet (fun _ => hI)
    intro s _
    split
    · exact hI
    · exact ih

structure EngineInvariant (ch : Chart S) (tree : ParentTree S) (I : Hsm S → Prop)
    (K : S → Prop) : Prop where
  follows : Follows ch tree
  super : ∀ s, K s → s ≠ tree.root → K (tree.parent s)
  next : ∀ w, I w → K w.nextState
  setNext : ∀ w t, I w → K t → I { w with nextState := t }
  ask : ∀ w s, I w → K s → I (Hsm.log w (.handler s hsmEmptySig (w.hsm s)))
  exit : ∀ w s, I w → I (Hsm.log w (.onExit s))
  entry : ∀ w s, I w → I (Hsm.log w (.onEntry s))

section Transition

variable {ch : Chart S} {tree : ParentTree S} {I : Hsm S → Prop} {K : S → Prop}
  (h : EngineInvariant ch tree I K)
include h

lemma wp_getSuperState {w : Hsm S} {s : S} (hI : I w) (hs : K s) :
    wp (getSuperState ch s) (fun _ => I) (fun _ => I) w := by
  have hlog := h.ask w s hI hs
  unfold getSuperState callHandler
  rw [wp_bind, wp_get, logCall, wp_bind, wp_modify]
  by_cases hroot : s = tree.root
  · rw [hroot, handler_root h.follows]
    rw [hroot] at hlog
    exact hlog
  · rw [handler_of_ne_root h.follows hroot, h.follows.super s hroot]
    dsimp only [evtSuper]
    split
    · exact hlog
    · exact h.setNext _ _ hlog (h.super s hs hroot)

lemma wp_callOnExit {w : Hsm S} (s : S) (hI : I w) :
    wp (callOnExit ch s) (fun _ => I) (fun _ => I) w := by
  unfold callOnExit
  split
  · exact hI
  · exact h.exit w s hI

lemma wp_callOnEntry {w : Hsm S} (s : S) (hI : I w) :
    wp (callOnEntry ch s) (fun _ => I) (fun _ => I) w := by
  unfold callOnEntry
  split
  · exact hI
  · exact h.entry w s hI

lemma wp_exitAndClimb {w : Hsm S} {s : S} (hI : I w) (hs : K s) :
    wp (exitAndClimb ch s) (fun _ => I) (fun _ => I) w := by
  unfold exitAndClimb
  apply wp_seq (wp_callOnExit h s hI)
  intro status w' hI'
  split
  · exact wp_seq (wp_getSuperState h hI' hs) (fun _ _ hI'' => hI'')
  · exact hI'

lemma wp_enterPath {path : Path S} {count : Nat} {w : Hsm S} (hI : I w) :
    wp (enterPath ch path count) (fun _ => I) (fun _ => I) w := by
  induction count generalizing w with
  | zero => exact hI
  | succ ip ih =>
    unfold enterPath
    rw [wp_bind]
    apply wp_pathGet (fun _ => hI)
    intro s _
    exact wp_seq (wp_callOnEntry h s hI) (fun _ _ hI' => ih hI')

lemma wp_climbTarget {s : S} {fuel : Nat} {status iq ip : Int} {path : Path S} {w : Hsm S}
    (hI : I w) (hpath : PathIn K path) (hip : 0 ≤ ip) :
    wp (climbTarget ch s fuel status iq ip path)
      (fun r w' => I w' ∧ PathIn K r.2.2 ∧ r.2.2 0 = path 0) (fun _ => I) w := by
  induction fuel generalizing status iq ip path w with
  | zero => exact hI
  | succ fuel ih =>
    unfold climbTarget
    split
    · rw [wp_bind, wp_get, wp_bind]
      apply wp_pathSet (fun _ => hI)
      intro _
      have hpath' := hpath.update (ip + 1).toNat (h.next w hI)
      have hzero : Function.update path (ip + 1).toNat (some w.nextState) 0 = path 0 :=
        Function.update_of_ne (by omega) _ _
      split
      · split
        · exact hI
        · refine wp_mono (ih hI hpath' (by omega)) ?_ (fun _ _ hI' => hI')
          rintro r w' ⟨hI', hin, h0⟩
          exact ⟨hI', hin, h0.trans hzero⟩
      · apply wp_seq (wp_getSuperState h hI (h.next w hI))
        intro status' w' hI'
        refine wp_mono (ih hI' hpath' (by omega)) ?_ (fun _ _ hI'' => hI'')
        rintro r w'' ⟨hI'', hin, h0⟩
        exact ⟨hI'', hin, h0.trans hzero⟩
    · exact ⟨hI, hpath, rfl⟩

lemma wp_exitSource {path : Path S} {ip : Int} {fuel : Nat} {t : S} {w : Hsm S} (hI : I w)
    (ht : K t) : wp (exitSource ch path ip fuel t) (fun _ => I) (fun _ => I) w := by
  induction fuel generalizing t w with
  | zero => exact hI
  | succ fuel ih =>
    unfold exitSource
    apply wp_seq (wp_exitAndClimb h hI ht)
    intro _ w' hI'
    rw [wp_bind, wp_get]
    apply wp_seq (wp_searchPath hI')
    intro found w'' hI''
    split
    · exact ih hI'' (h.next w' hI')
    · exact hI''

lemma wp_hsmTranRest {fuel : Nat} {path : Path S} {s t : S} {w : Hsm S} (hI : I w)
    (hpath : PathIn K path) (ht : K t) :
    wp (hsmTranRest ch fuel path s t)
      (fun r w' => I w' ∧ PathIn K r.2 ∧ r.2 0 = path 0) (fun _ => I) w := by
  unfold hsmTranRest
  rw [wp_bind]
  apply wp_pathSet (fun _ => hI)
  intro _
  have hpath' := hpath.update (Int.toNat 1) ht
  have hzero : Function.update path (Int.toNat 1) (some t) 0 = path 0 :=
    Function.update_of_ne (by decide) _ _
  rw [wp_bind, wp_get, wp_bind]
  apply wp_pathGet (fun _ => hI)
  intro p hp
  apply wp_seq (wp_getSuperState h hI (hpath' _ p hp))
  intro status w' hI'
  apply wp_seq (wp_climbTarget h hI' hpath' (by decide))
  rintro ⟨iq, ip, path'⟩ w₁ ⟨hI₁, hin, h0⟩
  have hdone : PathIn K path' ∧ path' 0 = path 0 := ⟨hin, h0.trans hzero⟩
  dsimp only
  split
  · split
    · exact hI₁
    · apply wp_seq (wp_callOnExit h s hI₁)
      intro _ w₂ hI₂
      apply wp_seq (wp_searchPath hI₂)
      intro found w₃ hI₃
      split
      · exact wp_seq (wp_exitSource h hI₃ (h.next w hI)) (fun _ _ hI₄ => ⟨hI₄, hdone⟩)
      · exact ⟨hI₃, hdone⟩
  · exact ⟨hI₁, hdone⟩

/-- `hsm_tran` keeps the invariant and leaves the target in `path[0]`. -/
theorem wp_hsmTran {fuel : Nat} {path : Path S} {w : Hsm S} (hI : I w) (hpath : PathIn K path) :
    wp (hsmTran ch fuel path)
      (fun r w' => I w' ∧ PathIn K r.2 ∧ r.2 0 = path 0) (fun _ => I) w := by
  unfold hsmTran
  rw [wp_bind]
  apply wp_pathGet (fun _ => hI)
  intro target htarget
  rw [wp_bind]
  apply wp_pathGet (fun _ => hI)
  intro s hs
  have hexit : ∀ (r : Int) (w' : Hsm S), I w' →
      wp (do let _ ← callOnExit ch s; pure (r, path))
        (fun r w' => I w' ∧ PathIn K r.2 ∧ r.2 0 = path 0) (fun _ => I) w' :=
    fun r w' hI' => wp_seq (wp_callOnExit h s hI') (fun _ _ hI'' => ⟨hI'', hpath, rfl⟩)
  split
  · exact hexit 0 w hI
  · apply wp_seq (wp_getSuperState h hI (hpath _ target htarget))
    intro _ w₁ hI₁
    rw [wp_bind, wp_get]
    dsimp only
    split
    · exact ⟨hI₁, hpath, rfl⟩
    · apply wp_seq (wp_getSuperState h hI₁ (hpath _ s hs))
      intro _ w₂ hI₂
      rw [wp_bind, wp_get]
      split
      · exact hexit 0 w₂ hI₂
      · split
        · exact hexit (-1) w₂ hI₂
        · exact wp_hsmTranRest h hI₂ hpath (h.next w₁ hI₁)

lemma wp_exitUntil {curState nextState : S} {fuel : Nat} {w : Hsm S} (hI : I w)
    (hnext : K nextState) :
    wp (exitUntil ch curState fuel nextState) (fun _ => I) (fun _ => I) w := by
  induction fuel generalizing nextState w with
  | zero => exact hI
  | succ fuel ih =>
    unfold exitUntil
    split
    · apply wp_seq (wp_exitAndClimb h hI hnext)
      intro _ w' hI'
      rw [wp_bind, wp_get]
      exact ih hI' (h.next w' hI')
    · exact hI

lemma wp_drill {nextState : S} {fuel : Nat} {ip : Int} {path : Path S} {w : Hsm S} (hI : I w)
    (hpath : PathIn K path) :
    wp (drill ch nextState fuel ip path) (fun r w' => I w' ∧ PathIn K r.2) (fun _ => I) w := by
  induction fuel generalizing ip path w with
  | zero => exact hI
  | succ fuel ih =>
    unfold drill
    rw [wp_bind, wp_get]
    split
    · rw [wp_bind]
      apply wp_pathSet (fun _ => hI)
      intro _
      apply wp_seq (wp_getSuperState h hI (h.next w hI))
      intro _ w' hI'
      exact ih hI' (hpath.update _ (h.next w hI))
    · exact ⟨hI, hpath⟩

/-- The whole branch that takes a transition keeps the invariant. -/
theorem wp_takeTransition {fuel : Nat} {curState nextState : S} {w : Hsm S} (hI : I w)
    (hcur : K curState) (hnext : K nextState) :
    wp (takeTransition ch fuel curState nextState) (fun s w' => I w' ∧ K s) (fun _ => I) w := by
  unfold takeTransition
  have hempty : PathIn K (fun _ => none) := fun _ _ hs => absurd hs (by simp)
  rw [wp_bind, wp_get, wp_bind]
  apply wp_pathSet (fun _ => hI)
  intro _
  rw [wp_bind]
  apply wp_pathSet (fun _ => hI)
  intro _
  rw [wp_bind]
  apply wp_pathSet (fun _ => hI)
  intro _
  have hpath := ((hempty.update (Int.toNat 0) (h.next w hI)).update (Int.toNat 1) hnext).update
    (Int.toNat 2) hcur
  apply wp_seq (wp_exitUntil h hI hnext)
  intro _ w₁ hI₁
  apply wp_seq (wp_hsmTran h hI₁ hpath)
  rintro ⟨ip, path⟩ w₂ ⟨hI₂, hin, -⟩
  apply wp_seq (wp_enterPath h hI₂)
  intro _ w₃ hI₃
  rw [wp_bind]
  apply wp_pathGet (fun _ => hI₃)
  intro target htarget
  have hI₄ := h.setNext w₃ target hI₃ (hin _ target htarget)
  unfold setNextState
  rw [wp_bind, wp_modify, wp_bind, wp_get, wp_bind]
  apply wp_pathSet (fun _ => hI₄)
  intro _
  apply wp_seq (wp_getSuperState h hI₄ (h.next _ hI₄))
  intro _ w₅ hI₅
  apply wp_seq (wp_drill h hI₅ (hin.update _ (h.next _ hI₄)))
  rintro ⟨ip', path'⟩ w₆ ⟨hI₆, hin'⟩
  dsimp only
  rw [wp_bind]
  apply wp_pathGet (fun _ => hI₆)
  intro first hfirst
  have hI₇ := h.setNext w₆ first hI₆ (hin' _ first hfirst)
  rw [wp_bind, wp_modify]
  apply wp_seq (wp_enterPath h hI₇)
  intro _ w₈ hI₈
  apply wp_pathGet (fun _ => hI₈)
  intro last hlast
  exact ⟨hI₈, hin' _ last hlast⟩

end Transition

end GeneralPurposeLibrary.Proofs
