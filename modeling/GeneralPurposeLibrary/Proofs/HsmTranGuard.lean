import GeneralPurposeLibrary.Proofs.HsmTranPath

/-!
# The overflow guard of a transition

`hsm_tran` compares its index with `HSM_MAX_NEST_DEPTH_` only after the climb, and then for
a value that the index cannot reach without having written past the end of `path`. So the
guard never fires: the entries of `path` are enough, or the climb has overflowed before.
-/

namespace GeneralPurposeLibrary.Proofs
open FaultingProgram

variable {S : Type}

lemma wp_pathSet_outside {path : Path S} {i : Int} {s : S} {Q : Path S → Hsm S → Prop}
    {E : Fault → Hsm S → Prop} {w : Hsm S} (hi : hsmMaxNestDepth ≤ i) (hE : E .pathBounds w) :
    wp (path.set i s) Q E w := by
  unfold Path.set
  rw [if_neg (by omega)]
  exact hE

variable [DecidableEq S]

/-- No run of `hsm_tran` uses an index outside `path`. -/
def PathGuarded (ch : Chart S) (path : Path S) (w : Hsm S) : Prop :=
  ∀ fuel w', exec (hsmTran ch fuel path) w ≠ (.error .pathBounds, w')

lemma wp_climbTarget_full {ch : Chart S} {s : S} {fuel : Nat} {ip : Int} {path : Path S} {w : Hsm S}
    (hip : ip + 1 = hsmMaxNestDepth) :
    wp (climbTarget ch s (fuel + 1) evtStatusSuper 0 ip path) (fun _ _ => False)
      (fun e _ => e = .pathBounds) w := by
  unfold climbTarget
  rw [if_pos rfl, wp_bind, wp_get, wp_bind]
  exact wp_pathSet_outside (by omega) rfl

section Overflow

variable {ch : Chart S} {tree : ParentTree S} (hf : Follows ch tree)
include hf

/-- A climb with more states to store than entries left runs past the end of `path`. -/
lemma wp_climbTarget_overflows {s u : S} {k fuel : Nat} {ip : Int} {path : Path S} {w : Hsm S}
    (hknown : ∀ v, v ≠ tree.root → w.hsm v = .machine) (hnext : w.nextState = u)
    (hip : ip + 1 = k) (hk : (k : Int) ≤ hsmMaxNestDepth)
    (hover : hsmMaxNestDepth < k + (climbStates tree s u).length)
    (hfuel : hsmMaxNestDepth < k + fuel) :
    wp (climbTarget ch s fuel evtStatusSuper 0 ip path) (fun _ _ => False)
      (fun e _ => e = .pathBounds) w := by
  obtain ⟨n, rfl⟩ : ∃ n, fuel = n + 1 := ⟨fuel - 1, by omega⟩
  induction u using tree.rec_parent generalizing k n ip path w with
  | hroot =>
    rw [climbStates_root, List.length_singleton] at hover
    exact wp_climbTarget_full (by omega)
  | hparent u hu ih =>
    by_cases hfull : (k : Int) = hsmMaxNestDepth
    · exact wp_climbTarget_full (by omega)
    · have hs : u ≠ s := by
        rintro rfl
        rw [climbStates_self, List.length_singleton] at hover
        omega
      obtain ⟨m, rfl⟩ : ∃ m, n = m + 1 := ⟨n - 1, by omega⟩
      rw [climbStates_cons tree hu hs, List.length_cons] at hover
      apply wp_climbTarget_round hip (by omega) hnext (fun h => absurd h hs)
      intro _
      apply wp_seq (wp_ask_super hf hu (hknown u hu))
      rintro status w₁ ⟨rfl, hnext₁, hw₁⟩
      have hk₁ : ip + 1 + 1 = ((k + 1 : Nat) : Int) := by omega
      exact ih (hw₁.known hknown) hnext₁ hk₁ (by omega) (by omega) m (by omega)

lemma wp_hsmTranRest_overflows {s t : S} (ht : t ≠ tree.root) (hst : t ≠ s)
    (hpt : tree.parent t ≠ s) {path : Path S} {w : Hsm S}
    (hknown : ∀ v, v ≠ tree.root → w.hsm v = .machine)
    (hover : hsmMaxNestDepth < (climbStates tree s t).length) {fuel : Nat}
    (hfuel : hsmMaxNestDepth ≤ fuel) :
    wp (hsmTranRest ch fuel path s (tree.parent t)) (fun _ _ => False)
      (fun e _ => e = .pathBounds) w := by
  rw [climbStates_cons tree ht hst, List.length_cons] at hover
  have hroot : tree.parent t ≠ tree.root := by
    intro h
    rw [h, climbStates_root, List.length_singleton] at hover
    exact absurd hover (by decide)
  rw [climbStates_cons tree hroot hpt, List.length_cons] at hover
  unfold hsmTranRest
  rw [wp_bind]
  refine wp_pathSet_of (n := 1) rfl (by decide) ?_
  rw [wp_bind, wp_get, wp_bind]
  refine wp_pathGet_of (n := 1) rfl (by decide) (Function.update_self ..) ?_
  apply wp_seq (wp_ask_super hf hroot (hknown _ hroot))
  rintro status w₁ ⟨rfl, hnext, hw₁⟩
  apply wp_seq (wp_climbTarget_overflows hf (hw₁.known hknown) hnext (k := 2) rfl (by decide)
    (by omega) (by omega))
  exact fun _ _ hfalse => hfalse.elim

end Overflow

section Guard

variable {ch : Chart S} {tree : ParentTree S} {w : Hsm S} {path : Path S} {s t : S}

lemma not_pathGuarded_of_not_pathFits (h : TranSetting ch tree w path s t)
    (hfits : ¬ PathFits tree s t) : ¬ PathGuarded ch path w := by
  rw [PathFits, not_or, not_or, Int.not_le] at hfits
  obtain ⟨hover, hsame, hps⟩ := hfits
  have hwp : wp (hsmTran ch hsmMaxNestDepth.toNat path) (fun _ _ => False)
      (fun e _ => e = .pathBounds) w := by
    apply wp_hsmTran_cases h
    case hself =>
      intro hst
      rw [hst, climbStates_self, List.length_singleton] at hover
      exact absurd hover (by decide)
    case hchild =>
      intro hpt
      by_cases hst : t = s
      · rw [hst, climbStates_self, List.length_singleton] at hover
        exact absurd hover (by decide)
      · rw [climbStates_cons tree h.target_ne_root hst, ← hpt, climbStates_self, List.length_cons,
          List.length_singleton] at hover
        exact absurd hover (by decide)
    case hsibling => exact fun _ heq => absurd heq hsame
    case hsuper => exact fun heq => absurd heq hps
    case hrest =>
      intro hst hpt _ _ w' _ hw'
      exact wp_hsmTranRest_overflows h.follows h.target_ne_root hst hpt (hw'.known h.known) hover
        (by decide)
  obtain ⟨e, w', hexec, rfl⟩ := exists_error_of_wp hwp
  exact fun hguard => hguard _ w' hexec

lemma pathGuarded_of_pathFits (h : TranSetting ch tree w path s t) (hfits : PathFits tree s t) :
    PathGuarded ch path w := by
  intro fuel w' hexec
  obtain ⟨hfault, -⟩ := of_wp_error (wp_hsmTran_outcome h hfits fuel) hexec
  exact absurd hfault (by decide)

end Guard

/-- `hsm_tran` stays inside `path` exactly if the states from the target up to the source,
or up to the root, fit into it, or the source is a sibling or a child of the target. -/
theorem hsmTran_path_guarded_iff (ch : Chart S) (tree : ParentTree S) (w : Hsm S) (path : Path S)
    (s t : S) (h : TranSetting ch tree w path s t) :
    PathGuarded ch path w ↔ ((climbStates tree s t).length : Int) ≤ hsmMaxNestDepth ∨
      tree.parent s = tree.parent t ∨ tree.parent s = t := by
  constructor
  · intro hguard
    by_contra hfits
    exact not_pathGuarded_of_not_pathFits h hfits hguard
  · exact pathGuarded_of_pathFits h

theorem level3_to_level1_guarded :
    PathGuarded (jumpChart .level3 .level1) (tranPath .level3 .level1) levelMachine :=
  (hsmTran_path_guarded_iff (jumpChart .level3 .level1) levelTree levelMachine
    (tranPath .level3 .level1) .level3 .level1 level3_to_level1_setting).mpr (.inl (by decide))

/-- Below the root 0, the states 1 to 4 nest in each other and 5 stands alone. -/
def forkTree : ParentTree (Fin 6) where
  root := 0
  parent u := if u = 5 then 0 else u - 1
  depth u := if u = 5 then 1 else u
  depth_eq_zero := by decide
  depth_parent := by decide

def forkChart : Chart (Fin 6) where
  root := 0
  entryAction _ := 0
  exitAction _ := evtStatusHandled
  answer u _ := evtSuper (forkTree.parent u)

def forkMachine : Hsm (Fin 6) := ⟨5, 5, fun _ => .machine, []⟩

lemma fork_setting : TranSetting forkChart forkTree forkMachine (tranPath 5 4) 5 4 where
  follows := ⟨rfl, fun _ _ => rfl⟩
  exits _ _ := rfl
  known _ _ := rfl
  source := rfl
  target := rfl
  source_ne_root := by decide
  target_ne_root := by decide

/-- From 5 to 4 the root is written to `path[4]`. -/
theorem fork_transition_not_guarded :
    TranSetting forkChart forkTree forkMachine (tranPath 5 4) 5 4 ∧
      ¬ PathGuarded forkChart (tranPath 5 4) forkMachine :=
  ⟨fork_setting, not_pathGuarded_of_not_pathFits fork_setting (by
    rintro (hfit | hsame | hps)
    · exact absurd hfit (by decide)
    · exact absurd hsame (by decide)
    · exact absurd hps (by decide))⟩

end GeneralPurposeLibrary.Proofs
