import GeneralPurposeLibrary.Proofs.HsmTransition

/-!
# The back-pointers of the states

Only `glb_hsm_init` sets the `hsm` field of a state, and only on the way from the initial
state to the root; `glb_hsm_dispatch` calls handlers without setting it. So a transition to
a state off that way calls a handler that does not know its machine, and a run whose
transitions stay on it never does.
-/

namespace GeneralPurposeLibrary.Proofs
open FaultingProgram

variable {S : Type}

/-- Every handler of a state below the root was called with its machine known. -/
def CallsKnown (tree : ParentTree S) (trace : List (Call S)) : Prop :=
  ∀ s signal p, Call.handler s signal p ∈ trace → s ≠ tree.root → p = .machine

/-- A chart that describes the tree and passes events on to superstates only. -/
structure WellFormed (ch : Chart S) (tree : ParentTree S) : Prop where
  follows : Follows ch tree
  super : ∀ u signal, u ≠ tree.root → (ch.answer u signal).status = evtStatusSuper →
    (ch.answer u signal).next = some (tree.parent u)

/-- The machine before `hsm_init`: no state knows it. -/
def bootHsm (root : S) : Hsm S := ⟨root, root, fun _ => .null, []⟩

structure OnChain (tree : ParentTree S) (initial : S) (w : Hsm S) : Prop where
  calls : CallsKnown tree w.trace
  next : w.nextState ∈ tree.chain initial
  known : ∀ u ∈ tree.chain initial, u ≠ tree.root → w.hsm u = .machine

lemma CallsKnown.handler {tree : ParentTree S} {trace : List (Call S)} (h : CallsKnown tree trace)
    {s : S} {p : HsmPtr} (hp : s ≠ tree.root → p = .machine) (signal : Int) :
    CallsKnown tree (trace ++ [.handler s signal p]) := by
  intro s' signal' p' hmem
  rcases List.mem_append.mp hmem with hold | hnew
  · exact h s' signal' p' hold
  · obtain ⟨rfl, -, rfl⟩ := Call.handler.inj (List.mem_singleton.mp hnew)
    exact hp

lemma CallsKnown.action {tree : ParentTree S} {trace : List (Call S)} (h : CallsKnown tree trace)
    {call : Call S} (hcall : ∀ s signal p, call ≠ .handler s signal p) :
    CallsKnown tree (trace ++ [call]) := by
  intro s signal p hmem
  rcases List.mem_append.mp hmem with hold | hnew
  · exact h s signal p hold
  · exact absurd (List.mem_singleton.mp hnew).symm (hcall s signal p)

/-- As long as the machine stays on the way to the initial state, so do the handlers that
a transition asks. -/
lemma onChain_engineInvariant {ch : Chart S} {tree : ParentTree S} (hf : Follows ch tree)
    (initial : S) : EngineInvariant ch tree (OnChain tree initial) (· ∈ tree.chain initial) where
  follows := hf
  super _ hs hroot := tree.parent_mem_chain hs hroot
  next _ h := h.next
  setNext _ _ h ht := ⟨h.calls, ht, h.known⟩
  ask w s h hs := ⟨h.calls.handler (h.known s hs) _, h.next, h.known⟩
  exit _ _ h := ⟨h.calls.action (fun _ _ _ => by simp), h.next, h.known⟩
  entry _ _ h := ⟨h.calls.action (fun _ _ _ => by simp), h.next, h.known⟩

variable [DecidableEq S]

/-- If the event is taken by a transition, its target lies on the way from the initial
state to the root. -/
def TargetOnChain (tree : ParentTree S) (initial : S) (ch : Chart S) (signal : Int) (c : S) :
    Prop :=
  ∀ t, (ch.handler (taker ch tree signal c) signal).status ≥ evtStatusTran →
    (ch.handler (taker ch tree signal c) signal).next = some t → t ∈ tree.chain initial

def dispatchAll (fuel : Nat) : List (Chart S × Int) → HsmProgram S Unit
  | [] => pure ()
  | (ch, signal) :: events => do
    glbHsmDispatch ch fuel signal
    dispatchAll fuel events

/-- `hsm_init(initial)` followed by any number of dispatches. The handlers may change their
answers from one dispatch to the next. -/
def hsmRun (fuel : Nat) (ch : Chart S) (initial : S) (events : List (Chart S × Int)) :
    HsmProgram S Unit := do
  hsmInit ch fuel initial
  dispatchAll fuel events

/-- Every transition taken along the dispatches stays on the way to the initial state. -/
def TargetsOnChain (tree : ParentTree S) (initial : S) (fuel : Nat) :
    Hsm S → List (Chart S × Int) → Prop
  | _, [] => True
  | w, (ch, signal) :: events =>
    TargetOnChain tree initial ch signal w.curState ∧
      ∀ w', exec (glbHsmDispatch ch fuel signal) w = (.ok (), w') →
        TargetsOnChain tree initial fuel w' events

section Dispatch

variable {ch : Chart S} {tree : ParentTree S} {signal : Int} {initial : S}

lemma CallsKnown.roundCalls {trace : List (Call S)} (h : CallsKnown tree trace)
    {hsm : S → HsmPtr} {u : S} (hu : u ≠ tree.root → hsm u = .machine) :
    CallsKnown tree (trace ++ roundCalls ch signal hsm u) := by
  unfold Proofs.roundCalls
  split
  · rw [← List.singleton_append, ← List.append_assoc]
    exact (h.handler hu _).handler hu _
  · exact h.handler hu _

lemma wp_bubble_known {w : Hsm S} {c : S} {fuel : Nat} (hc : w.nextState = c)
    (h : Climbable ch tree signal w c) (hcalls : CallsKnown tree w.trace) :
    wp (bubble ch signal fuel)
      (fun r w' => CallsKnown tree w'.trace ∧ w'.hsm = w.hsm ∧
        r = ((ch.handler (taker ch tree signal c) signal).status, taker ch tree signal c) ∧
        w'.nextState =
          (ch.handler (taker ch tree signal c) signal).next.getD (taker ch tree signal c))
      (fun _ w' => CallsKnown tree w'.trace) w := by
  induction fuel generalizing w c with
  | zero => exact hcalls
  | succ fuel ih =>
    have hknown := h.known c (tree.mem_chain_self c)
    by_cases hstop : Stops ch signal c
    · refine wp_of_exec_ok (exec_bubble_of_stops hc h hstop fuel) ?_
      rw [taker_of_stops hstop]
      exact ⟨hcalls.handler hknown _, rfl, rfl, rfl⟩
    · have hroot : c ≠ tree.root := by
        rintro rfl
        exact hstop (stops_root h.follows signal)
      unfold wp
      rw [exec_bubble_of_not_stops hc h hstop, taker_of_not_stops hroot hstop]
      exact ih rfl (h.parent hroot hstop rfl) (hcalls.roundCalls hknown)

lemma wp_dispatch_onChain {w : Hsm S} {fuel : Nat} (hch : WellFormed ch tree)
    (hw : OnChain tree initial w) (hstable : w.curState = w.nextState)
    (htarget : TargetOnChain tree initial ch signal w.curState) :
    wp (glbHsmDispatch ch fuel signal)
      (fun _ w' => OnChain tree initial w' ∧ w'.curState = w'.nextState)
      (fun _ w' => CallsKnown tree w'.trace) w := by
  have hsub := tree.chain_subset hw.next
  have hclimb : Climbable ch tree signal w w.nextState :=
    ⟨hch.follows, fun u hu => hw.known u (hsub hu), fun u _ hroot => hch.super u signal hroot⟩
  have htaker := hsub (taker_mem_chain ch tree signal w.nextState)
  unfold glbHsmDispatch
  rw [wp_bind, wp_get]
  apply wp_seq (wp_bubble_known rfl hclimb hw.calls)
  rintro r w₁ ⟨hcalls, hhsm, rfl, hnext⟩
  have hknown : ∀ u ∈ tree.chain initial, u ≠ tree.root → w₁.hsm u = .machine := by
    rw [hhsm]
    exact hw.known
  dsimp only
  split
  · rename_i htran
    have hI : OnChain tree initial w₁ := by
      refine ⟨hcalls, ?_, hknown⟩
      rw [hnext]
      rw [hstable] at htarget
      cases hreply : (ch.handler (taker ch tree signal w.nextState) signal).next with
      | none => exact htaker
      | some t => exact htarget t htran hreply
    refine wp_seq (wp_mono (wp_takeTransition (onChain_engineInvariant hch.follows initial) hI
      (hstable ▸ hw.next) htaker) (fun _ _ hq => hq) (fun _ _ he => he.calls)) ?_
    rintro s w₂ ⟨hI₂, hs⟩
    exact ⟨⟨hI₂.calls, hs, hI₂.known⟩, rfl⟩
  · exact ⟨⟨hcalls, htaker, hknown⟩, rfl⟩

lemma wp_dispatchAll_known {w : Hsm S} {fuel : Nat} {events : List (Chart S × Int)}
    (hevents : ∀ e ∈ events, WellFormed e.1 tree)
    (hw : OnChain tree initial w) (hstable : w.curState = w.nextState)
    (htargets : TargetsOnChain tree initial fuel w events) :
    wp (dispatchAll fuel events) (fun _ w' => CallsKnown tree w'.trace)
      (fun _ w' => CallsKnown tree w'.trace) w := by
  induction events generalizing w with
  | nil => exact hw.calls
  | cons event events ih =>
    obtain ⟨ch, signal⟩ := event
    have hstep : wp (glbHsmDispatch ch fuel signal)
        (fun _ w' => OnChain tree initial w' ∧ w'.curState = w'.nextState)
        (fun _ w' => CallsKnown tree w'.trace) w :=
      wp_dispatch_onChain (hevents _ List.mem_cons_self) hw hstable htargets.1
    unfold dispatchAll
    rw [wp_bind]
    unfold wp at hstep ⊢
    rcases hexec : exec (glbHsmDispatch ch fuel signal) w with ⟨r, w'⟩
    rw [hexec] at hstep
    cases r with
    | ok a =>
      exact ih (fun e he => hevents e (List.mem_cons_of_mem _ he)) hstep.1 hstep.2
        (htargets.2 w' hexec)
    | error e => exact hstep

end Dispatch

section Init

variable {ch : Chart S} {tree : ParentTree S} {initial : S}

/-- While `glb_hsm_init` climbs, the states it has left behind know their machine. -/
structure Climbing (tree : ParentTree S) (initial : S) (w : Hsm S) : Prop where
  calls : CallsKnown tree w.trace
  next : w.nextState ∈ tree.chain initial
  known : ∀ u ∈ tree.chain initial, u ∉ tree.chain w.nextState → w.hsm u = .machine

/-- The machine after one round of the climb: the state is told its machine first. -/
def climbedOnce (tree : ParentTree S) (w : Hsm S) : Hsm S :=
  { w with
    nextState := if w.nextState = tree.root then tree.root else tree.parent w.nextState
    hsm := Function.update w.hsm w.nextState .machine
    trace := w.trace ++ [.handler w.nextState hsmEmptySig .machine] }

lemma exec_setHsm_callHandler (hf : Follows ch tree) (w : Hsm S) :
    ∃ status, exec (do
        setStateHsm w.nextState
        callHandler ch w.nextState hsmEmptySig) w = (.ok status, climbedOnce tree w) := by
  refine ⟨(ch.handler w.nextState hsmEmptySig).status, ?_⟩
  rw [setStateHsm, exec_bind, exec_modify]
  dsimp only
  rw [exec_callHandler hf (fun _ => Function.update_self ..)]
  by_cases hroot : w.nextState = tree.root
  · simp [climbedOnce, Hsm.log, hroot, handler_root hf, hsmRootHandler]
  · simp [climbedOnce, Hsm.log, hroot, handler_of_ne_root hf hroot, hf.super _ hroot, evtSuper]

lemma Climbing.once {w : Hsm S} (h : Climbing tree initial w) :
    Climbing tree initial (climbedOnce tree w) := by
  refine ⟨h.calls.handler (fun _ => rfl) _, ?_, ?_⟩
  · unfold climbedOnce
    dsimp only
    split
    · exact tree.root_mem_chain initial
    · rename_i hroot
      exact tree.parent_mem_chain h.next hroot
  · intro u hu hout
    unfold climbedOnce at hout ⊢
    dsimp only at hout ⊢
    by_cases hself : u = w.nextState
    · rw [hself, Function.update_self]
    · rw [Function.update_of_ne hself]
      apply h.known u hu
      intro hin
      apply hout
      split
      · rename_i hroot
        rwa [hroot] at hin
      · rename_i hroot
        rw [tree.chain_of_ne_root hroot] at hin
        exact (List.mem_cons.mp hin).resolve_left hself

lemma wp_initClimb {fuel : Nat} {ip : Int} {path : Path S} {w : Hsm S} (hf : Follows ch tree)
    (hip : 0 ≤ ip) (hw : Climbing tree initial w) :
    wp (initClimb ch tree.root fuel ip path)
      (fun r w' => OnChain tree initial w' ∧ r.2 0 = path 0)
      (fun _ w' => CallsKnown tree w'.trace) w := by
  induction fuel generalizing ip path w with
  | zero => exact hw.calls
  | succ fuel ih =>
    unfold initClimb
    rw [wp_bind, wp_get]
    split
    · rw [wp_bind]
      apply wp_pathSet (fun _ => hw.calls)
      intro _
      obtain ⟨status, hexec⟩ := exec_setHsm_callHandler hf w
      rw [← bind_assoc, wp_bind]
      refine wp_of_exec_ok hexec (wp_mono (ih (by omega) hw.once) ?_ (fun _ _ he => he))
      rintro r w' ⟨hw', hzero⟩
      exact ⟨hw', hzero.trans (Function.update_of_ne (by omega) _ _)⟩
    · rename_i hnext
      rw [not_not] at hnext
      refine ⟨⟨hw.calls, hw.next, ?_⟩, rfl⟩
      intro u hu hroot
      exact hw.known u hu (by rw [hnext, tree.chain_root]; simpa using hroot)

/-- After `hsm_init` exactly the way to the initial state is known, and no handler was
called before its state knew the machine. -/
lemma wp_hsmInit {fuel : Nat} (hf : Follows ch tree) :
    wp (hsmInit ch fuel initial)
      (fun _ w' => OnChain tree initial w' ∧ w'.curState = w'.nextState)
      (fun _ w' => CallsKnown tree w'.trace) (bootHsm tree.root) := by
  have hcalls : CallsKnown tree ([] : List (Call S)) := fun _ _ _ h => absurd h List.not_mem_nil
  have hinv := onChain_engineInvariant hf initial
  unfold hsmInit glbHsmCtor glbHsmInit
  rw [hf.root, wp_bind, wp_modify, wp_bind, wp_get, wp_bind]
  apply wp_pathSet (fun _ => hcalls)
  intro _
  have hstart : Climbing tree initial ⟨tree.root, initial, fun _ => .null, []⟩ :=
    ⟨hcalls, tree.mem_chain_self initial, fun u hu hout => absurd hu hout⟩
  obtain ⟨status, hexec⟩ := exec_setHsm_callHandler hf ⟨tree.root, initial, fun _ => .null, []⟩
  rw [← bind_assoc, wp_bind]
  refine wp_of_exec_ok hexec ?_
  apply wp_seq (wp_initClimb hf (Int.le_refl 0) hstart.once)
  rintro ⟨ip, path⟩ w₁ ⟨hw₁, hzero⟩
  have hfirst : ∀ s, path (Int.toNat 0) = some s → s ∈ tree.chain initial := by
    intro s hs
    have hslot : some s = _ := hs.symm.trans hzero
    simp only [Int.toNat_zero, Function.update_self, Option.some.injEq] at hslot
    rw [hslot]
    exact tree.mem_chain_self initial
  dsimp only
  rw [wp_bind]
  apply wp_pathGet (fun _ => hw₁.calls)
  intro first hf₁
  have hw₂ : OnChain tree initial { w₁ with nextState := first } :=
    ⟨hw₁.calls, hfirst first hf₁, hw₁.known⟩
  rw [setNextState, wp_bind, wp_modify]
  apply wp_seq (wp_mono (wp_enterPath hinv hw₂) (fun _ _ hq => hq) (fun _ _ he => he.calls))
  intro _ w₃ hw₃
  rw [wp_bind]
  apply wp_pathGet (fun _ => hw₃.calls)
  intro last hlast
  exact ⟨⟨hw₃.calls, hfirst last hlast, hw₃.known⟩, rfl⟩

end Init

/-- In every run whose transitions go to states between the initial state and the root,
every handler of a state below the root is called with its machine known. -/
theorem handlers_know_machine (tree : ParentTree S) (ch : Chart S) (hch : WellFormed ch tree)
    (initial : S) (events : List (Chart S × Int)) (hevents : ∀ e ∈ events, WellFormed e.1 tree)
    (fuel : Nat)
    (htargets : ∀ w, exec (hsmInit ch fuel initial) (bootHsm tree.root) = (.ok (), w) →
      TargetsOnChain tree initial fuel w events) :
    CallsKnown tree (exec (hsmRun fuel ch initial events) (bootHsm tree.root)).2.trace := by
  have hinit : wp (hsmInit ch fuel initial) _ _ (bootHsm tree.root) := wp_hsmInit hch.follows
  apply state_of_wp (I := fun w : Hsm S => CallsKnown tree w.trace)
  unfold hsmRun
  rw [wp_bind]
  unfold wp at hinit ⊢
  rcases hexec : exec (hsmInit ch fuel initial) (bootHsm tree.root) with ⟨r, w⟩
  rw [hexec] at hinit
  cases r with
  | ok a => exact wp_dispatchAll_known hevents hinit.1 hinit.2 (htargets w hexec)
  | error e => exact hinit

lemma levelHandler_super (super : Level) (signal : Int)
    (h : (levelHandler super signal).status = evtStatusSuper) :
    (levelHandler super signal).next = some super := by
  unfold levelHandler at h ⊢
  split
  · rename_i hs
    rw [if_pos hs] at h
    exact absurd h (by decide)
  · split
    · rename_i hn hs
      rw [if_neg hn, if_pos hs] at h
      exact absurd h (by decide)
    · rfl

lemma levelChart_super (u : Level) (signal : Int) (hroot : u ≠ .root)
    (h : (levelChart.answer u signal).status = evtStatusSuper) :
    (levelChart.answer u signal).next = some (levelTree.parent u) := by
  cases u with
  | root => exact absurd rfl hroot
  | level1 => exact levelHandler_super .root signal h
  | level2 => exact levelHandler_super .level1 signal h
  | level3 => exact levelHandler_super .level2 signal h

lemma jumpChart_wellFormed (source target : Level) :
    WellFormed (jumpChart source target) levelTree where
  follows := jumpChart_follows source target
  super u signal hroot h := by
    simp only [jumpChart] at h ⊢
    split
    · rename_i hjump
      rw [if_pos hjump] at h
      exact absurd h (by simp [evtStatusTran, evtStatusSuper])
    · rename_i hjump
      rw [if_neg hjump] at h
      exact levelChart_super u signal hroot h

/-- Started in `level2`, the machine is sent to `level3`, which was never told its machine. -/
theorem jump_to_level3_calls_unknown :
    WellFormed (jumpChart .level2 .level3) levelTree ∧ ¬ CallsKnown levelTree
      (exec (hsmRun 4 (jumpChart .level2 .level3) .level2 [(jumpChart .level2 .level3, 9)])
        (bootHsm .root)).2.trace := by
  refine ⟨jumpChart_wellFormed .level2 .level3, ?_⟩
  intro h
  exact absurd (h .level3 hsmEmptySig .null (by decide) (by decide)) (by decide)

theorem jump_to_level2_handlers_know_machine :
    CallsKnown levelTree
      (exec (hsmRun 4 (jumpChart .level3 .level2) .level3 [(jumpChart .level3 .level2, 9)])
        (bootHsm levelTree.root)).2.trace := by
  refine handlers_know_machine levelTree (jumpChart .level3 .level2)
    (jumpChart_wellFormed .level3 .level2) .level3 [(jumpChart .level3 .level2, 9)] ?_ 4 ?_
  · intro e he
    rw [List.mem_singleton.mp he]
    exact jumpChart_wellFormed .level3 .level2
  · intro w hw
    have hcur : w.curState = .level3 := by
      have hstate : (exec (hsmInit (jumpChart .level3 .level2) 4 .level3)
          (bootHsm levelTree.root)).2 = w := congrArg Prod.snd hw
      rw [← hstate]
      rfl
    refine ⟨?_, fun _ _ => trivial⟩
    rw [hcur]
    intro t _ hnext
    have hreply : ((jumpChart .level3 .level2).handler
        (taker (jumpChart .level3 .level2) levelTree 9 .level3) 9).next = some .level2 := by decide
    rw [Option.some.inj (hnext.symm.trans hreply)]
    decide

end GeneralPurposeLibrary.Proofs
