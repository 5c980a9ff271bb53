import GeneralPurposeLibrary.Proofs.HsmDelivery

/-!
# Transitions

After it has entered the target, `glb_hsm_dispatch` drills into the target's hierarchy: it
climbs from the target until it meets the target again. No superstate of a state is that
state, and the root names none, so the climb stays at the root and the loop writes past the
end of `path`. Hence no dispatch that takes a transition ever completes, and none obeys the
transition law of hierarchical state machines stated here.
-/

namespace GeneralPurposeLibrary.Proofs
open FaultingProgram

variable {S : Type}

lemma uptoFirst_append_of_stop {p : S → Prop} [DecidablePred p] {l l' : List S} {a : S}
    (ha : p a) : ∀ u ∈ uptoFirst p (l ++ a :: l'), u ∈ l ∨ u = a := by
  induction l with
  | nil => simp [uptoFirst, ha]
  | cons b l ih =>
    intro u hu
    rw [List.cons_append, uptoFirst] at hu
    split at hu
    · exact .inl (List.mem_cons.mpr (.inl (List.mem_singleton.mp hu)))
    · rcases List.mem_cons.mp hu with hb | hu
      · exact .inl (List.mem_cons.mpr (.inl hb))
      · exact (ih u hu).imp (List.mem_cons_of_mem _) id

lemma true_engineInvariant {ch : Chart S} {tree : ParentTree S} (hf : Follows ch tree) :
    EngineInvariant ch tree (fun _ => True) (fun _ => True) where
  follows := hf
  super _ _ _ := trivial
  next _ _ := trivial
  setNext _ _ _ _ := trivial
  ask _ _ _ _ := trivial
  exit _ _ _ := trivial
  entry _ _ _ := trivial

variable [DecidableEq S]

/-- A machine at rest in `c` receives an event that `s` is the first to take, by a
transition to `t`. -/
structure TransitionSetting (ch : Chart S) (tree : ParentTree S) (signal : Int) (w : Hsm S)
    (c s t : S) : Prop where
  follows : Follows ch tree
  stable : StableAt tree w c
  known : ∀ u, u ≠ tree.root → w.hsm u = .machine
  current : c ≠ tree.root
  source : s ∈ tree.chain c
  source_ne_root : s ≠ tree.root
  declines : ∀ u ∈ tree.upTo c s, ch.answer u signal = evtSuper (tree.parent u) ∨
    (ch.answer u signal).status = evtStatusUnhandle
  takes : ch.answer s signal = ⟨evtStatusTran, some t⟩
  target : t ≠ tree.root
  target_depth : (tree.depth t : Int) ≤ hsmMaxNestDepth - 1

/-- The outermost state that a transition from `s` to `t` neither exits nor enters. -/
def transitionPivot (tree : ParentTree S) (s t : S) : S :=
  if s = t then tree.parent s else tree.lca s t

/-- The dispatch ends in `t`; it exits the states from `c` up to the pivot, innermost
first, then enters those from below the pivot down to `t`, and runs no other action. -/
def TransitionLaw (ch : Chart S) (tree : ParentTree S) (signal : Int) (w : Hsm S) (c s t : S) :
    Prop :=
  ∃ n, ∀ fuel, n ≤ fuel → ∃ w', exec (glbHsmDispatch ch fuel signal) w = (.ok (), w') ∧
    actions w'.trace = actions w.trace ++
      (tree.upTo c (transitionPivot tree s t)).map Call.onExit ++
      (tree.upTo t (transitionPivot tree s t)).reverse.map Call.onEntry ∧
    w'.curState = t ∧ w'.nextState = t

section Drill

variable {ch : Chart S} {tree : ParentTree S} (hf : Follows ch tree)
include hf

lemma wp_getSuperState_next (s : S) (w : Hsm S) :
    wp (getSuperState ch s)
      (fun _ w' => w'.nextState = if s = tree.root then w.nextState else tree.parent s)
      (fun _ _ => True) w := by
  unfold getSuperState callHandler
  rw [wp_bind, wp_get, logCall, wp_bind, wp_modify]
  by_cases hroot : s = tree.root
  · rw [if_pos hroot, hroot, handler_root hf]
    rfl
  · rw [if_neg hroot, handler_of_ne_root hf hroot, hf.super s hroot]
    dsimp only [evtSuper]
    split
    · trivial
    · rfl

/-- The drill loop never meets the target again. -/
lemma wp_drill_never_returns {t : S} {fuel : Nat} {ip : Int} {path : Path S} {w : Hsm S}
    (hd : tree.depth w.nextState < tree.depth t) :
    wp (drill ch t fuel ip path) (fun _ _ => False) (fun _ _ => True) w := by
  induction fuel generalizing ip path w with
  | zero => trivial
  | succ fuel ih =>
    have hne : w.nextState ≠ t := by
      intro h
      rw [h] at hd
      omega
    unfold drill
    rw [wp_bind, wp_get, if_pos hne, wp_bind]
    apply wp_pathSet (fun _ => trivial)
    intro _
    apply wp_seq (wp_getSuperState_next hf w.nextState w)
    intro _ w' hnext
    apply ih
    rw [hnext]
    split
    · exact hd
    · rename_i hroot
      have := tree.depth_parent w.nextState hroot
      omega

/-- A transition to a state below the root never completes. -/
theorem wp_takeTransition_never_returns {fuel : Nat} {curState nextState : S} {w : Hsm S}
    (ht : w.nextState ≠ tree.root) :
    wp (takeTransition ch fuel curState nextState) (fun _ _ => False) (fun _ _ => True) w := by
  have h := true_engineInvariant hf
  unfold takeTransition
  rw [wp_bind, wp_get, wp_bind]
  apply wp_pathSet (fun _ => trivial)
  intro _
  rw [wp_bind]
  apply wp_pathSet (fun _ => trivial)
  intro _
  rw [wp_bind]
  apply wp_pathSet (fun _ => trivial)
  intro _
  apply wp_seq (wp_exitUntil h trivial trivial)
  intro _ w₁ _
  apply wp_seq (wp_hsmTran h trivial (fun _ _ _ => trivial))
  rintro ⟨ip, path⟩ w₂ ⟨-, -, hzero⟩
  apply wp_seq (wp_enterPath h trivial)
  intro _ w₃ _
  rw [wp_bind]
  apply wp_pathGet (fun _ => trivial)
  intro target htarget
  have htarget' : target = w.nextState := by
    have hslot : some target = _ := htarget.symm.trans hzero
    simpa [Function.update] using hslot
  rw [← htarget'] at ht
  unfold setNextState
  rw [wp_bind, wp_modify, wp_bind, wp_get, wp_bind]
  apply wp_pathSet (fun _ => trivial)
  intro _
  apply wp_seq (wp_getSuperState_next hf target _)
  intro _ w₅ hnext
  rw [if_neg ht] at hnext
  rw [wp_bind]
  refine wp_mono (wp_drill_never_returns hf ?_) (fun _ _ hfalse => hfalse.elim)
    (fun _ _ _ => trivial)
  have := tree.depth_parent target ht
  rw [hnext]
  omega

end Drill

section Law

variable {ch : Chart S} {tree : ParentTree S} {signal : Int} {w : Hsm S} {c s t : S}

lemma TransitionSetting.source_stops (h : TransitionSetting ch tree signal w c s t) :
    Stops ch signal s := by
  rw [Stops, handler_of_ne_root h.follows h.source_ne_root, h.takes]
  exact ⟨by simp [evtStatusTran, evtStatusSuper], by simp [evtStatusTran, evtStatusHandled]⟩

lemma TransitionSetting.climbable (h : TransitionSetting ch tree signal w c s t) :
    Climbable ch tree signal w c := by
  refine ⟨h.follows, fun u _ => h.known u, ?_⟩
  intro u hu _ hstatus
  obtain ⟨l, hl⟩ := tree.chain_eq_upTo_append h.source
  rw [hl] at hu
  rcases uptoFirst_append_of_stop h.source_stops u hu with hbelow | rfl
  · rcases h.declines u hbelow with hsuper | hunhandle
    · rw [hsuper]
      rfl
    · rw [hstatus] at hunhandle
      exact absurd hunhandle (by decide)
  · rw [h.takes] at hstatus
    exact absurd hstatus (by simp [evtStatusTran, evtStatusSuper])

lemma TransitionSetting.taker_cases (h : TransitionSetting ch tree signal w c s t) :
    taker ch tree signal c = s ∨ (c ≠ s ∧
      (ch.handler (taker ch tree signal c) signal).status = evtStatusUnhandle) := by
  obtain ⟨l, hl⟩ := tree.chain_eq_upTo_append h.source
  unfold taker
  rw [hl, List.find?_append]
  cases hfind : (tree.upTo c s).find? (fun u => decide (Stops ch signal u)) with
  | none =>
    left
    simp [h.source_stops]
  | some u =>
    right
    have hu := List.mem_of_find?_eq_some hfind
    have hstop : Stops ch signal u := by simpa using List.find?_some hfind
    have hcs : c ≠ s := by
      rintro rfl
      simp [ParentTree.upTo, tree.chain_of_ne_root h.current] at hu
    refine ⟨hcs, ?_⟩
    have hroot : u ≠ tree.root := tree.ne_root_of_mem_upTo h.source hu
    rw [Option.some_or, Option.getD_some, handler_of_ne_root h.follows hroot]
    rw [Stops, handler_of_ne_root h.follows hroot] at hstop
    rcases h.declines u hu with hsuper | hunhandle
    · rw [hsuper] at hstop
      exact absurd rfl hstop.1
    · exact hunhandle

lemma transitionPivot_mem_chain (hs : s ≠ tree.root) : transitionPivot tree s t ∈ tree.chain s := by
  unfold transitionPivot
  split
  · exact tree.parent_mem_chain (tree.mem_chain_self s) hs
  · exact tree.lca_mem_chain s t

lemma exec_dispatch_of_taken (hw : StableAt tree w c) (h : Climbable ch tree signal w c)
    (htran : (ch.handler (taker ch tree signal c) signal).status ≥ evtStatusTran)
    (hnext : (ch.handler (taker ch tree signal c) signal).next = some t) (ht : t ≠ tree.root)
    {fuel : Nat} (hfuel : tree.depth c < fuel) (w' : Hsm S) :
    exec (glbHsmDispatch ch fuel signal) w ≠ (.ok (), w') := by
  intro hexec
  rw [exec_dispatch_of_tran hw h htran hfuel] at hexec
  have ht' : (climbEnd ch tree signal w c).nextState ≠ tree.root := by
    rw [climbEnd, hnext]
    exact ht
  exact of_wp_ok (wp_seq (R := fun _ _ => False) (wp_takeTransition_never_returns h.follows ht')
    (fun _ _ hfalse => hfalse.elim)) hexec

lemma actions_dispatch_of_unhandle (hw : StableAt tree w c) (h : Climbable ch tree signal w c)
    (hunhandle : (ch.handler (taker ch tree signal c) signal).status = evtStatusUnhandle)
    {fuel : Nat} (hfuel : tree.depth c < fuel) {w' : Hsm S}
    (hexec : exec (glbHsmDispatch ch fuel signal) w = (.ok (), w')) :
    actions w'.trace = actions w.trace := by
  have htran : ¬ (ch.handler (taker ch tree signal c) signal).status ≥ evtStatusTran := by
    rw [hunhandle]
    decide
  rw [exec_dispatch_of_not_tran hw h htran hfuel] at hexec
  rw [← (Prod.mk.inj hexec).2]
  simp [climbEnd, actions_climbCalls]

/-- The transition law holds of no dispatch: whatever the tree, the current state, the
state that takes the event and the target. -/
theorem transition_law_never_holds (ch : Chart S) (tree : ParentTree S) (signal : Int) (w : Hsm S)
    (c s t : S) (h : TransitionSetting ch tree signal w c s t) :
    ¬ TransitionLaw ch tree signal w c s t := by
  rintro ⟨n, hlaw⟩
  obtain ⟨w', hexec, hact, -, -⟩ := hlaw (max n (tree.depth c + 1)) (by omega)
  have hfuel : tree.depth c < max n (tree.depth c + 1) := by omega
  rcases h.taker_cases with hsource | ⟨hcs, hunhandle⟩
  · have hreply : ch.handler (taker ch tree signal c) signal = ⟨evtStatusTran, some t⟩ := by
      rw [hsource, handler_of_ne_root h.follows h.source_ne_root, h.takes]
    exact exec_dispatch_of_taken h.stable h.climbable (Int.le_of_eq (by rw [hreply]))
      (by rw [hreply]) h.target hfuel w' hexec
  · -- a guard below the source ends the dispatch before any state is exited
    have hpivot : c ≠ transitionPivot tree s t := by
      intro hc
      have hle := tree.depth_le_of_mem_chain (transitionPivot_mem_chain (t := t) h.source_ne_root)
      have hlt := tree.depth_lt_of_mem_chain h.source (Ne.symm hcs)
      rw [← hc] at hle
      omega
    have hmem := tree.mem_upTo_self hpivot
    rw [actions_dispatch_of_unhandle h.stable h.climbable hunhandle hfuel hexec,
      List.append_assoc] at hact
    have hnil := List.self_eq_append_right.mp hact
    rw [List.append_eq_nil_iff, List.map_eq_nil_iff] at hnil
    rw [hnil.1] at hmem
    exact absurd hmem List.not_mem_nil

end Law

/-- The level states with a transition from `source` to `target` on the signal 9. -/
def jumpChart (source target : Level) : Chart Level where
  root := .root
  entryAction _ := 0
  exitAction _ := evtStatusHandled
  answer s signal :=
    if s = source ∧ signal = 9 then ⟨evtStatusTran, some target⟩ else levelChart.answer s signal

lemma jumpChart_follows (source target : Level) : Follows (jumpChart source target) levelTree where
  root := rfl
  super s hs := by
    have hjump : ¬ (s = source ∧ hsmEmptySig = 9) := fun h => absurd h.2 (by decide)
    simp only [jumpChart, if_neg hjump]
    exact levelChart_follows.super s hs

lemma jumpChart_setting :
    TransitionSetting (jumpChart .level3 .level2) levelTree 9 levelMachine .level3 .level3
      .level2 where
  follows := jumpChart_follows .level3 .level2
  stable := levelMachine_stable
  known := by
    intro u hu
    cases u with
    | root => exact absurd rfl hu
    | _ => rfl
  current := by decide
  source := by decide
  source_ne_root := by decide
  declines := by
    intro u hu
    exact absurd hu (by decide +revert)
  takes := rfl
  target := by decide
  target_depth := by decide

/-- `level3` takes the signal 9 to `level2`, and the dispatch never returns. -/
theorem jump_to_level2_breaks_law :
    TransitionSetting (jumpChart .level3 .level2) levelTree 9 levelMachine .level3 .level3 .level2 ∧
      ¬ TransitionLaw (jumpChart .level3 .level2) levelTree 9 levelMachine .level3 .level3
        .level2 := by
  refine ⟨jumpChart_setting, ?_⟩
  rintro ⟨n, hlaw⟩
  obtain ⟨w', hexec, -⟩ := hlaw (max n 4) (by omega)
  exact exec_dispatch_of_taken jumpChart_setting.stable jumpChart_setting.climbable
    (by decide) rfl jumpChart_setting.target (show 3 < max n 4 by omega) w' hexec

theorem jump_to_level2_never_holds :
    ¬ TransitionLaw (jumpChart .level3 .level2) levelTree 9 levelMachine .level3 .level3 .level2 :=
  transition_law_never_holds (jumpChart .level3 .level2) levelTree 9 levelMachine .level3 .level3
    .level2 jumpChart_setting

end GeneralPurposeLibrary.Proofs
