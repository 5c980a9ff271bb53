import GeneralPurposeLibrary.Foundation.GuardedRuns
import GeneralPurposeLibrary.Proofs.HsmEntry
import GeneralPurposeLibrary.Proofs.HsmTransition

/-!
# Whole runs of the state machine

A dispatch either completes no transition or does not return, so a machine that is still
running has never run an exit action, and its state has only moved towards the root. This
file compares a run of `hsm_init` and any number of dispatches with the abstract machine
`restStep`, which moves to the state that ends the climb of the event and has no step for a
transition.
-/

namespace GeneralPurposeLibrary.Proofs
open FaultingProgram GuardedRuns

variable {S : Type} [DecidableEq S]

/-- An event moves the machine up to the state that ends its climb. No step is enabled for
an event that is answered with a transition. -/
def restStep (tree : ParentTree S) (c : S) (event : Chart S × Int) : Option S :=
  if (event.1.handler (taker event.1 tree event.2 c) event.2).status ≥ evtStatusTran then none
  else some (taker event.1 tree event.2 c)

/-- Counts the events that move the machine. -/
def moves (tree : ParentTree S) (c : S) (event : Chart S × Int) : Nat :=
  if taker event.1 tree event.2 c = c then 0 else 1

section RootTarget

variable {ch : Chart S} {tree : ParentTree S} (hf : Follows ch tree)
include hf

/-- A transition to the root stops at the entry action that the root does not have. -/
lemma wp_takeTransition_root {fuel : Nat} {curState nextState : S} {w : Hsm S}
    (ht : w.nextState = tree.root) :
    wp (takeTransition ch fuel curState nextState) (fun _ _ => False) (fun _ _ => True) w := by
  have h := true_engineInvariant hf
  unfold takeTransition
  rw [wp_bind, wp_get, wp_bind]
  apply wp_pathSet (fun _ => trivial)
  intro _
  rw [wp_bind]
  apply wp_pathSet (fun _ => trivial)
  intro _
  rw [wp_bind]
  apply wp_pathSet (fun _ => trivial)
  intro _
  apply wp_seq (wp_exitUntil h trivial trivial)
  intro _ w₁ _
  apply wp_seq (wp_hsmTran h trivial (fun _ _ _ => trivial))
  rintro ⟨ip, path⟩ w₂ ⟨-, -, hzero⟩
  apply wp_seq (wp_enterPath h trivial)
  intro _ w₃ _
  rw [wp_bind]
  apply wp_pathGet (fun _ => trivial)
  intro target htarget
  have hroot : target = tree.root := by
    have hslot : some target = _ := htarget.symm.trans hzero
    rw [← ht]
    simpa [Function.update] using hslot
  unfold setNextState
  rw [wp_bind, wp_modify, wp_bind, wp_get, wp_bind]
  apply wp_pathSet (fun _ => trivial)
  intro _
  apply wp_seq (wp_getSuperState_next hf target _)
  intro _ w₅ hnext
  rw [if_pos hroot] at hnext
  cases fuel with
  | zero => trivial
  | succ fuel =>
    unfold drill
    rw [wp_bind, wp_bind, wp_get, if_neg (not_not.mpr hnext)]
    rw [wp_pure]
    dsimp only
    rw [wp_bind]
    apply wp_pathGet (fun _ => trivial)
    intro first _
    rw [wp_bind, wp_modify, wp_bind]
    change wp (enterPath ch _ 1) _ _ _
    rw [enterPath, wp_bind]
    apply wp_pathGet (fun _ => trivial)
    intro s hs
    have hs' : s = ch.root := by
      rw [hf.root, ← hroot]
      simpa [Function.update] using hs.symm
    rw [wp_bind, callOnEntry, if_pos hs']
    trivial

end RootTarget

section Dispatch

variable {ch : Chart S} {tree : ParentTree S} {signal : Int} {w : Hsm S} {c : S}

lemma WellFormed.climbable (h : WellFormed ch tree) (hw : StableAt tree w c) :
    Climbable ch tree signal w c :=
  ⟨h.follows, hw.known, fun u _ hroot => h.super u signal hroot⟩

lemma exec_dispatch_of_transition (h : WellFormed ch tree) (hw : StableAt tree w c)
    (htran : (ch.handler (taker ch tree signal c) signal).status ≥ evtStatusTran) {fuel : Nat}
    (hfuel : tree.depth c < fuel) (w' : Hsm S) :
    exec (glbHsmDispatch ch fuel signal) w ≠ (.ok (), w') := by
  intro hexec
  rw [exec_dispatch_of_tran hw (h.climbable hw) htran hfuel] at hexec
  have hstuck : wp (takeTransition ch fuel w.curState (taker ch tree signal c))
      (fun _ _ => False) (fun _ _ => True) (climbEnd ch tree signal w c) := by
    by_cases ht : (climbEnd ch tree signal w c).nextState = tree.root
    · exact wp_takeTransition_root h.follows ht
    · exact wp_takeTransition_never_returns h.follows ht
  exact of_wp_ok (wp_seq (R := fun _ _ => False) hstuck (fun _ _ hfalse => hfalse.elim)) hexec

lemma exec_dispatch_rests (h : WellFormed ch tree) (hw : StableAt tree w c)
    (htran : ¬ (ch.handler (taker ch tree signal c) signal).status ≥ evtStatusTran) {fuel : Nat}
    (hfuel : tree.depth c < fuel) :
    ∃ w', exec (glbHsmDispatch ch fuel signal) w = (.ok (), w') ∧
      StableAt tree w' (taker ch tree signal c) ∧ actions w'.trace = actions w.trace := by
  refine ⟨_, exec_dispatch_of_not_tran hw (h.climbable hw) htran hfuel, ⟨rfl, rfl, ?_⟩, ?_⟩
  · intro u hu
    exact hw.known u (tree.chain_subset (taker_mem_chain ch tree signal c) hu)
  · simp [climbEnd, actions_climbCalls]

end Dispatch

lemma restStep_eq_some {tree : ParentTree S} {c c' : S} {event : Chart S × Int}
    (h : restStep tree c event = some c') :
    ¬ (event.1.handler (taker event.1 tree event.2 c) event.2).status ≥ evtStatusTran ∧
      c' = taker event.1 tree event.2 c := by
  unfold restStep at h
  split at h
  · cases h
  · rename_i htran
    exact ⟨htran, (Option.some.inj h).symm⟩

/-- A move takes the machine strictly closer to the root. -/
lemma depth_add_moves_le (tree : ParentTree S) (c : S) (event : Chart S × Int) :
    tree.depth (taker event.1 tree event.2 c) + moves tree c event ≤ tree.depth c := by
  have hmem := taker_mem_chain event.1 tree event.2 c
  unfold moves
  split
  · rename_i hstay
    rw [hstay]
    exact Nat.le_refl _
  · rename_i hmove
    exact tree.depth_lt_of_mem_chain hmem hmove

section Run

variable {tree : ParentTree S} {events : List (Chart S × Int)} {c c' : S}

lemma run_restStep_climbs (hrun : run (restStep tree) c events = some c') :
    c' ∈ tree.chain c ∧
      tree.depth c' + total (restStep tree) (moves tree) c events ≤ tree.depth c := by
  induction events generalizing c with
  | nil =>
    cases hrun
    exact ⟨tree.mem_chain_self _, Nat.le_refl _⟩
  | cons event events ih =>
    obtain ⟨c₁, hstep, hrest⟩ := exists_step_of_run_cons hrun
    obtain ⟨hmem, hdepth⟩ := ih hrest
    have hc₁ := (restStep_eq_some hstep).2
    have hmove := depth_add_moves_le tree c event
    rw [← hc₁] at hmove
    rw [total_cons hstep]
    refine ⟨tree.chain_subset ?_ hmem, by omega⟩
    rw [hc₁]
    exact taker_mem_chain event.1 tree event.2 c

lemma exec_dispatchAll (hevents : ∀ e ∈ events, WellFormed e.1 tree) {w : Hsm S}
    (hw : StableAt tree w c) {fuel : Nat} (hfuel : tree.depth c < fuel) :
    (∀ c', run (restStep tree) c events = some c' → ∃ w',
      exec (dispatchAll fuel events) w = (.ok (), w') ∧ StableAt tree w' c' ∧
        actions w'.trace = actions w.trace) ∧
      (run (restStep tree) c events = none → ∀ w',
        exec (dispatchAll fuel events) w ≠ (.ok (), w')) := by
  induction events generalizing w c with
  | nil =>
    refine ⟨?_, fun hnone => nomatch hnone⟩
    rintro c' ⟨⟩
    exact ⟨w, rfl, hw, rfl⟩
  | cons event events ih =>
    obtain ⟨ch, signal⟩ := event
    have hch : WellFormed ch tree := hevents (ch, signal) List.mem_cons_self
    rw [dispatchAll]
    by_cases htran : (ch.handler (taker ch tree signal c) signal).status ≥ evtStatusTran
    · have hstep : restStep tree c (ch, signal) = none := if_pos htran
      have hrun : run (restStep tree) c ((ch, signal) :: events) = none := by rw [run, hstep]
      refine ⟨fun c' hsome => ?_, fun _ w' hexec => ?_⟩
      · rw [hrun] at hsome
        cases hsome
      · have hstuck := exec_dispatch_of_transition hch hw htran hfuel
        rw [exec_bind] at hexec
        split at hexec
        · rename_i w₁ hdispatch
          exact hstuck w₁ hdispatch
        · cases hexec
    · obtain ⟨w₁, hdispatch, hstable, hact⟩ := exec_dispatch_rests hch hw htran hfuel
      have hstep : restStep tree c (ch, signal) = some (taker ch tree signal c) := if_neg htran
      have hrun : run (restStep tree) c ((ch, signal) :: events) =
          run (restStep tree) (taker ch tree signal c) events := by rw [run, hstep]
      have hdepth := tree.depth_le_of_mem_chain (taker_mem_chain ch tree signal c)
      rw [exec_bind_ok hdispatch, hrun, ← hact]
      exact ih (fun e he => hevents e (List.mem_cons_of_mem _ he)) hstable (by omega)

end Run

/-- A run of `hsm_init` and any dispatches returns exactly when no event of it is answered
with a transition. It then rests in the state that `restStep` computes: a state from the
initial one up to the root, reached in at most as many moves as it lies higher; and the
entry actions of `hsm_init` are all the actions that were run. -/
theorem hsmRun_only_climbs (tree : ParentTree S) (ch : Chart S) (hf : Follows ch tree)
    (initial : S) (hroot : initial ≠ tree.root)
    (hdepth : (tree.depth initial : Int) ≤ hsmMaxNestDepth) (events : List (Chart S × Int))
    (hevents : ∀ e ∈ events, WellFormed e.1 tree) (w : Hsm S) (fuel : Nat)
    (hfuel : tree.depth initial < fuel) :
    (∀ c, run (restStep tree) initial events = some c →
      (∃ w', exec (hsmRun fuel ch initial events) w = (.ok (), w') ∧
        w'.curState = c ∧ w'.nextState = c ∧
        actions w'.trace = actions w.trace ++
          (tree.upTo initial tree.root).reverse.map Call.onEntry) ∧
      c ∈ tree.chain initial ∧
      tree.depth c + total (restStep tree) (moves tree) initial events ≤ tree.depth initial) ∧
    (run (restStep tree) initial events = none → ∀ w',
      exec (hsmRun fuel ch initial events) w ≠ (.ok (), w')) := by
  obtain ⟨_, w₁, hinit, hact, hhsm, hcur, hnext⟩ :=
    exists_ok_of_wp (wp_hsmInit_enters hf hroot hdepth (Nat.le_of_lt hfuel) w)
  have hstable : StableAt tree w₁ initial := by
    refine ⟨hcur, hnext, ?_⟩
    intro u hu hne
    rw [hhsm, tellStates, if_pos (tree.mem_upTo_root hu hne)]
  obtain ⟨hreturns, hstuck⟩ := exec_dispatchAll hevents hstable hfuel
  have hexec : exec (hsmRun fuel ch initial events) w = exec (dispatchAll fuel events) w₁ := by
    rw [hsmRun]
    exact exec_bind_ok hinit
  rw [hexec]
  refine ⟨fun c hc => ⟨?_, run_restStep_climbs hc⟩, hstuck⟩
  obtain ⟨w', hdispatch, hrest, hactions⟩ := hreturns c hc
  exact ⟨w', hdispatch, hrest.cur, hrest.next, hactions.trans hact⟩

lemma guardedChart_wellFormed : WellFormed guardedChart levelTree where
  follows := guardedChart_follows
  super u signal hroot hstatus := by
    have hguard : ¬ (u = .level3 ∧ signal = 9) := by
      intro h
      rw [guardedChart] at hstatus
      simp only [if_pos h] at hstatus
      exact absurd hstatus (by decide)
    rw [guardedChart] at hstatus ⊢
    simp only [if_neg hguard] at hstatus ⊢
    cases u with
    | root => exact absurd rfl hroot
    | level1 => exact levelHandler_super .root signal hstatus
    | level2 => exact levelHandler_super .level1 signal hstatus
    | level3 => exact levelHandler_super .level2 signal hstatus

/-- The guard keeps the machine in `level3`; the start signal, which every level handles,
takes it to the root, where it stays. -/
theorem hsmRun_climbs_to_root :
    run (restStep levelTree) .level3 [(guardedChart, 9), (guardedChart, levelStartSig),
        (guardedChart, 9)] = some .root ∧
      ∃ w', exec (hsmRun 4 guardedChart .level3 [(guardedChart, 9), (guardedChart, levelStartSig),
          (guardedChart, 9)]) (bootHsm .root) = (.ok (), w') ∧ w'.curState = .root ∧
        actions w'.trace = [.onEntry .level1, .onEntry .level2, .onEntry .level3] := by
  have hrun : run (restStep levelTree) .level3 [(guardedChart, 9), (guardedChart, levelStartSig),
      (guardedChart, 9)] = some .root := by decide
  have hevents : ∀ e ∈ [(guardedChart, (9 : Int)), (guardedChart, levelStartSig),
      (guardedChart, 9)], WellFormed e.1 levelTree := by
    intro e he
    have hchart : e.1 = guardedChart := by
      simp only [List.mem_cons, List.not_mem_nil, or_false] at he
      rcases he with rfl | rfl | rfl <;> rfl
    rw [hchart]
    exact guardedChart_wellFormed
  obtain ⟨⟨w', hexec, hcur, -, hact⟩, -⟩ := (hsmRun_only_climbs levelTree guardedChart
    guardedChart_follows .level3 (by decide) (by decide) _ hevents (bootHsm .root) 4
    (by decide)).1 .root hrun
  exact ⟨hrun, w', hexec, hcur, hact⟩

end GeneralPurposeLibrary.Proofs
