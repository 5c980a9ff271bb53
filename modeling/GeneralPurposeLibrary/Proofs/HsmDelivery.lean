import GeneralPurposeLibrary.Proofs.HsmInvariant

/-!
# Delivery of an event and events without a transition

`glb_hsm_dispatch` asks for the superstate of a state whose handler answered `HANDLED`,
where the comment beside the test speaks of a guard that declined, that is of `UNHANDLE`.
So a handled event keeps climbing, and a declined one does not. It also ends a dispatch
without a transition in the state that ended the climb instead of the current state. This
file says exactly for which answers the machine still does what it is meant to do.
-/

namespace GeneralPurposeLibrary.Proofs
open FaultingProgram

variable {S : Type}

/-- No state on the way up takes a transition: each either stores its superstate and says
so, or answers that it handled, ignored or declined the event. -/
def NoTransition (ch : Chart S) (tree : ParentTree S) (signal : Int) (c : S) : Prop :=
  ∀ u ∈ tree.chain c, u ≠ tree.root → ch.answer u signal = evtSuper (tree.parent u) ∨
    (ch.answer u signal).status = evtStatusHandled ∨
    (ch.answer u signal).status = evtStatusIgnored ∨
    (ch.answer u signal).status = evtStatusUnhandle

/-- After the climb no handler is invoked with the event any more: a transition only asks
states for their superstates. -/
lemma deliveries_engineInvariant {ch : Chart S} {tree : ParentTree S} {signal : Int}
    (hf : Follows ch tree) (he : signal ≠ hsmEmptySig) (l : List S) :
    EngineInvariant ch tree (fun w => deliveries signal w.trace = l) (fun _ => True) where
  follows := hf
  super _ _ _ := trivial
  next _ _ := trivial
  setNext _ _ h _ := h
  ask w s h _ := by simp [Hsm.log, h, he.symm]
  exit w s h := by simp [Hsm.log, h]
  entry w s h := by simp [Hsm.log, h]

lemma uptoFirst_ne_nil (p : S → Prop) [DecidablePred p] {l : List S} (hl : l ≠ []) :
    uptoFirst p l ≠ [] := by
  cases l with
  | nil => exact absurd rfl hl
  | cons s l =>
    unfold uptoFirst
    split <;> simp

/-- Passing over one mark or over another makes a difference exactly when the first
element that is not passed on as `super` carries one of the two marks. -/
lemma uptoFirst_eq_iff (status : S → Int) (super first second : Int) (hmarks : first ≠ second)
    (l : List S) (last : S) (hlast : l.getLast? = some last)
    (hstatus : status last ≠ super ∧ status last ≠ first ∧ status last ≠ second) :
    uptoFirst (fun u => status u ≠ super ∧ status u ≠ first) l =
        uptoFirst (fun u => status u ≠ super ∧ status u ≠ second) l ↔
      ∀ u, l.find? (fun u => decide (status u ≠ super)) = some u →
        status u ≠ first ∧ status u ≠ second := by
  induction l with
  | nil => simp at hlast
  | cons s l ih =>
    have htail : s ≠ last → l ≠ [] ∧ l.getLast? = some last := by
      intro hs
      cases l with
      | nil => exact absurd (by simpa using hlast) hs
      | cons s' l => exact ⟨by simp, by simpa using hlast⟩
    by_cases hsuper : status s = super
    · have hs : s ≠ last := fun h => hstatus.1 (h ▸ hsuper)
      have hrest := ih (htail hs).2
      simpa [uptoFirst, hsuper] using hrest
    · have hfind : (s :: l).find? (fun u => decide (status u ≠ super)) = some s := by
        simp [hsuper]
      rw [hfind]
      simp only [Option.some.injEq, forall_eq']
      by_cases hfirst : status s = first
      · have hs : s ≠ last := fun h => hstatus.2.1 (h ▸ hfirst)
        have hnil := uptoFirst_ne_nil (fun u => status u ≠ super ∧ status u ≠ first) (htail hs).1
        rw [uptoFirst, uptoFirst, if_neg (fun h => h.2 hfirst),
          if_pos ⟨hsuper, fun h => hmarks (hfirst.symm.trans h)⟩]
        exact ⟨fun h => absurd (List.cons.inj h).2 hnil, fun h => absurd hfirst h.1⟩
      · by_cases hsecond : status s = second
        · have hs : s ≠ last := fun h => hstatus.2.2 (h ▸ hsecond)
          have hnil := uptoFirst_ne_nil (fun u => status u ≠ super ∧ status u ≠ second) (htail hs).1
          rw [uptoFirst, uptoFirst, if_pos ⟨hsuper, hfirst⟩, if_neg (fun h => h.2 hsecond)]
          exact ⟨fun h => absurd (List.cons.inj h).2.symm hnil, fun h => absurd hsecond h.2⟩
        · rw [uptoFirst, uptoFirst, if_pos ⟨hsuper, hfirst⟩, if_pos ⟨hsuper, hsecond⟩]
          exact ⟨fun _ => ⟨hfirst, hsecond⟩, fun _ => rfl⟩

variable [DecidableEq S]

/-- The dispatch ends, runs no action, and leaves the machine in `c`. -/
def StaysAt (ch : Chart S) (signal : Int) (w : Hsm S) (c : S) : Prop :=
  ∃ n, ∀ fuel, n ≤ fuel → ∃ w', exec (glbHsmDispatch ch fuel signal) w = (.ok (), w') ∧
    actions w'.trace = actions w.trace ∧ w'.curState = c ∧ w'.nextState = c

/-- The event is handed to the states from `c` up to the first that neither passes it on
as a superstate nor declines it, each once and to no other state. -/
def DeliveredInOrder (ch : Chart S) (tree : ParentTree S) (signal : Int) (w : Hsm S) (c : S) :
    Prop :=
  ∃ n, ∀ fuel, n ≤ fuel →
    deliveries signal (exec (glbHsmDispatch ch fuel signal) w).2.trace =
      deliveries signal w.trace ++
        uptoFirst (fun u => (ch.handler u signal).status ≠ evtStatusSuper ∧
          (ch.handler u signal).status ≠ evtStatusUnhandle) (tree.chain c)

section Dispatch

variable {ch : Chart S} {tree : ParentTree S} {signal : Int} {w : Hsm S} {c : S}

lemma exec_dispatch_of_not_tran (hw : StableAt tree w c) (h : Climbable ch tree signal w c)
    (htran : ¬ (ch.handler (taker ch tree signal c) signal).status ≥ evtStatusTran)
    {fuel : Nat} (hfuel : tree.depth c < fuel) :
    exec (glbHsmDispatch ch fuel signal) w = (.ok (),
      { climbEnd ch tree signal w c with
        curState := taker ch tree signal c
        nextState := taker ch tree signal c }) := by
  unfold glbHsmDispatch
  rw [exec_bind, exec_get]
  dsimp only
  rw [exec_bind_ok (exec_bubble hw.next h hfuel)]
  dsimp only
  rw [if_neg htran]
  rfl

lemma exec_dispatch_of_tran (hw : StableAt tree w c) (h : Climbable ch tree signal w c)
    (htran : (ch.handler (taker ch tree signal c) signal).status ≥ evtStatusTran)
    {fuel : Nat} (hfuel : tree.depth c < fuel) :
    exec (glbHsmDispatch ch fuel signal) w = exec (do
        let last ← takeTransition ch fuel w.curState (taker ch tree signal c)
        modify (fun w => { w with curState := last, nextState := last }))
      (climbEnd ch tree signal w c) := by
  unfold glbHsmDispatch
  rw [exec_bind, exec_get]
  dsimp only
  rw [exec_bind_ok (exec_bubble hw.next h hfuel)]
  dsimp only
  rw [if_pos htran]

end Dispatch

section NoTransition

variable {ch : Chart S} {tree : ParentTree S} {signal : Int} {w : Hsm S} {c : S}

lemma NoTransition.climbable (hno : NoTransition ch tree signal c) (hf : Follows ch tree)
    (hw : StableAt tree w c) :
    Climbable ch tree signal w c := by
  refine ⟨hf, hw.known, ?_⟩
  intro u hu hroot hstatus
  rcases hno u (mem_of_mem_uptoFirst hu) hroot with h | h | h | h
  · rw [h]
    rfl
  all_goals
    rw [hstatus] at h
    exact absurd h (by decide)

lemma NoTransition.taker_status (hno : NoTransition ch tree signal c) (hf : Follows ch tree) :
    (ch.handler (taker ch tree signal c) signal).status < evtStatusTran := by
  by_cases hroot : taker ch tree signal c = tree.root
  · rw [hroot, handler_root hf]
    exact (by decide : evtStatusIgnored < evtStatusTran)
  · rw [handler_of_ne_root hf hroot]
    rcases hno _ (taker_mem_chain ch tree signal c) hroot with h | h | h | h
    · rw [h]
      exact (by decide : evtStatusSuper < evtStatusTran)
    all_goals
      rw [h]
      decide

lemma exec_dispatch_of_noTransition (hf : Follows ch tree) (hw : StableAt tree w c)
    (hno : NoTransition ch tree signal c) {fuel : Nat} (hfuel : tree.depth c < fuel) :
    ∃ w', exec (glbHsmDispatch ch fuel signal) w = (.ok (), w') ∧
      actions w'.trace = actions w.trace ∧
      w'.curState = taker ch tree signal c ∧ w'.nextState = taker ch tree signal c := by
  have hstatus := hno.taker_status hf
  refine ⟨_, exec_dispatch_of_not_tran hw (hno.climbable hf hw) (by omega) hfuel, ?_, rfl, rfl⟩
  simp [climbEnd, actions_climbCalls]

/-- An event that causes no transition leaves the machine where it was exactly when the
current state itself ignores or declines it. -/
theorem staysAt_iff_ignored_or_unhandle (ch : Chart S) (tree : ParentTree S)
    (hf : Follows ch tree) (signal : Int) (w : Hsm S) (c : S) (hc : c ≠ tree.root)
    (hw : StableAt tree w c) (hno : NoTransition ch tree signal c) :
    StaysAt ch signal w c ↔ (ch.answer c signal).status = evtStatusIgnored ∨
      (ch.answer c signal).status = evtStatusUnhandle := by
  have hreply := handler_of_ne_root hf hc signal
  constructor
  · rintro ⟨n, hstay⟩
    by_cases hstop : Stops ch signal c
    · rw [Stops, hreply] at hstop
      rcases hno c (tree.mem_chain_self c) hc with h | h | h | h
      · exact absurd (by rw [h]; rfl) hstop.1
      · exact absurd h hstop.2
      · exact .inl h
      · exact .inr h
    · obtain ⟨w', hexec', -, hcur', -⟩ := hstay (max n (tree.depth c + 1)) (by omega)
      obtain ⟨w'', hexec'', -, hcur'', -⟩ := exec_dispatch_of_noTransition hf hw hno
        (show tree.depth c < max n (tree.depth c + 1) by omega)
      have hsame : w' = w'' := (Prod.mk.inj (hexec'.symm.trans hexec'')).2
      have hmem := taker_mem_chain ch tree signal (tree.parent c)
      rw [← taker_of_not_stops hc hstop, ← hcur'', ← hsame, hcur'] at hmem
      have hle := tree.depth_le_of_mem_chain hmem
      have hd := tree.depth_parent c hc
      omega
  · intro hstatus
    have hstop : Stops ch signal c := by
      rw [Stops, hreply]
      rcases hstatus with h | h <;> rw [h] <;> decide
    refine ⟨tree.depth c + 1, fun fuel hfuel => ?_⟩
    have hdispatch := exec_dispatch_of_noTransition hf hw hno (Nat.lt_of_succ_le hfuel)
    rwa [taker_of_stops hstop] at hdispatch

end NoTransition

section Delivery

variable {ch : Chart S} {tree : ParentTree S} {signal : Int} {w : Hsm S} {c : S}

lemma deliveries_dispatch (hw : StableAt tree w c) (h : Climbable ch tree signal w c)
    (he : signal ≠ hsmEmptySig) {fuel : Nat} (hfuel : tree.depth c < fuel) :
    deliveries signal (exec (glbHsmDispatch ch fuel signal) w).2.trace =
      deliveries signal w.trace ++ uptoFirst (Stops ch signal) (tree.chain c) := by
  have hdel : deliveries signal (climbEnd ch tree signal w c).trace =
      deliveries signal w.trace ++ uptoFirst (Stops ch signal) (tree.chain c) := by
    rw [climbEnd, deliveries_append, deliveries_climbCalls ch tree he]
  by_cases htran : (ch.handler (taker ch tree signal c) signal).status ≥ evtStatusTran
  · have hinv := deliveries_engineInvariant h.follows he
      (deliveries signal w.trace ++ uptoFirst (Stops ch signal) (tree.chain c))
    rw [exec_dispatch_of_tran hw h htran hfuel]
    refine state_of_wp (wp_seq (wp_takeTransition hinv hdel trivial trivial) ?_)
    intro s w' hI
    exact hI.1
  · rw [exec_dispatch_of_not_tran hw h htran hfuel]
    exact hdel

/-- The event is delivered in order exactly when the first state on the way up that does
not pass it on as a superstate answers neither `HANDLED` nor `UNHANDLE`. -/
theorem deliveredInOrder_iff (ch : Chart S) (tree : ParentTree S) (signal : Int) (w : Hsm S) (c : S)
    (he : signal ≠ hsmEmptySig) (hw : StableAt tree w c) (h : Climbable ch tree signal w c) :
    DeliveredInOrder ch tree signal w c ↔
      ∀ u, (tree.chain c).find? (fun u => decide ((ch.handler u signal).status ≠ evtStatusSuper)) =
          some u →
        (ch.handler u signal).status ≠ evtStatusHandled ∧
        (ch.handler u signal).status ≠ evtStatusUnhandle := by
  have hroot := handler_root h.follows signal
  rw [← uptoFirst_eq_iff (fun u => (ch.handler u signal).status) evtStatusSuper evtStatusHandled
    evtStatusUnhandle (by decide) (tree.chain c) tree.root (tree.getLast_chain c)
    (by rw [hroot]; simp [hsmRootHandler, evtStatusIgnored, evtStatusSuper, evtStatusHandled,
      evtStatusUnhandle])]
  constructor
  · rintro ⟨n, hdel⟩
    have hspec := hdel (max n (tree.depth c + 1)) (by omega)
    rw [deliveries_dispatch hw h he (by omega)] at hspec
    exact List.append_cancel_left hspec
  · intro heq
    refine ⟨tree.depth c + 1, fun fuel hfuel => ?_⟩
    rw [deliveries_dispatch hw h he (Nat.lt_of_succ_le hfuel)]
    exact congrArg _ heq

end Delivery

/-! ### The level states -/

def levelTree : ParentTree Level where
  root := .root
  parent
    | .level3 => .level2
    | .level2 => .level1
    | _ => .root
  depth
    | .root => 0
    | .level1 => 1
    | .level2 => 2
    | .level3 => 3
  depth_eq_zero s := by cases s <;> simp
  depth_parent s hs := by
    cases s with
    | root => exact absurd rfl hs
    | _ => rfl

/-- The machine after `hsm_init(get_level3_state())`, as the test program runs it. -/
def levelMachine : Hsm Level :=
  (exec (hsmInit levelChart 4 .level3) ⟨.root, .root, fun _ => .null, []⟩).2

/-- The level states with a guard in `level3` that declines the signal 9. -/
def guardedChart : Chart Level where
  root := .root
  entryAction _ := 0
  exitAction _ := 0
  answer s signal :=
    if s = .level3 ∧ signal = 9 then ⟨evtStatusUnhandle, none⟩ else levelChart.answer s signal

lemma levelChart_follows : Follows levelChart levelTree where
  root := rfl
  super s hs := by
    cases s with
    | root => exact absurd rfl hs
    | _ => rfl

lemma guardedChart_follows : Follows guardedChart levelTree where
  root := rfl
  super s hs := by
    cases s with
    | root => exact absurd rfl hs
    | _ => rfl

lemma levelMachine_stable : StableAt levelTree levelMachine .level3 where
  cur := rfl
  next := rfl
  known := by decide

lemma level_start_noTransition :
    NoTransition levelChart levelTree levelStartSig .level3 := by
  intro u _ hroot
  refine .inr (.inl ?_)
  cases u with
  | root => exact absurd rfl hroot
  | _ => rfl

/-- The level states handle the start signal, and yet the machine ends in the root. -/
theorem level_start_leaves_level3 :
    Follows levelChart levelTree ∧ StableAt levelTree levelMachine .level3 ∧
      NoTransition levelChart levelTree levelStartSig .level3 ∧
      ¬ StaysAt levelChart levelStartSig levelMachine .level3 := by
  refine ⟨levelChart_follows, levelMachine_stable, level_start_noTransition, ?_⟩
  rintro ⟨n, hstay⟩
  obtain ⟨w, hexec, -, hcur, -⟩ := hstay (max n 4) (by omega)
  obtain ⟨w', hexec', -, hcur', -⟩ := exec_dispatch_of_noTransition levelChart_follows
    levelMachine_stable level_start_noTransition (show 3 < max n 4 by omega)
  have hsame : w = w' := (Prod.mk.inj (hexec.symm.trans hexec')).2
  have htaker : taker levelChart levelTree levelStartSig .level3 = .root := rfl
  rw [htaker, ← hsame, hcur] at hcur'
  exact absurd hcur' (by decide)

theorem guarded_level3_stays : StaysAt guardedChart 9 levelMachine .level3 := by
  refine (staysAt_iff_ignored_or_unhandle guardedChart levelTree guardedChart_follows 9 levelMachine
    .level3 (by decide) levelMachine_stable ?_).mpr (.inr rfl)
  intro u _ hroot
  cases u with
  | root => exact absurd rfl hroot
  | level1 => exact .inl rfl
  | level2 => exact .inl rfl
  | level3 => exact .inr (.inr (.inr rfl))

/-- `level3` handles the start signal, but its superstates see it too. -/
theorem level_start_not_consumed :
    StableAt levelTree levelMachine .level3 ∧
      Climbable levelChart levelTree levelStartSig levelMachine .level3 ∧
      (levelChart.handler .level3 levelStartSig).status = evtStatusHandled ∧
      ¬ DeliveredInOrder levelChart levelTree levelStartSig levelMachine .level3 := by
  have hclimb := level_start_noTransition.climbable levelChart_follows levelMachine_stable
  refine ⟨levelMachine_stable, hclimb, rfl, ?_⟩
  rintro ⟨n, hdel⟩
  have hspec := hdel (max n 4) (by omega)
  rw [deliveries_dispatch levelMachine_stable hclimb (by decide)
    (show 3 < max n 4 by omega)] at hspec
  have hlists := List.append_cancel_left hspec
  revert hlists
  decide

theorem level_unknown_signal_delivered :
    DeliveredInOrder levelChart levelTree 9 levelMachine .level3 := by
  have hclimb : Climbable levelChart levelTree 9 levelMachine .level3 :=
    ⟨levelChart_follows, levelMachine_stable.known, by decide⟩
  refine (deliveredInOrder_iff levelChart levelTree 9 levelMachine .level3 (by decide)
    levelMachine_stable hclimb).mpr ?_
  decide

end GeneralPurposeLibrary.Proofs
