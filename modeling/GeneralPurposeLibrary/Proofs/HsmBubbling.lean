import GeneralPurposeLibrary.GlbHsm
import GeneralPurposeLibrary.Foundation.ParentTree

/-!
# How an event climbs the hierarchy

The loop of `glb_hsm_dispatch` that processes an event hands it from the current state to
its superstates. This file computes where the loop stops and which calls it makes, for
every tree of states and every assignment of answers.
-/

namespace GeneralPurposeLibrary.Proofs
open FaultingProgram

variable {S : Type}

/-- The handlers of `ch` describe the tree: asked with the empty signal, each answers with
its superstate. -/
structure Follows (ch : Chart S) (tree : ParentTree S) : Prop where
  root : ch.root = tree.root
  super : ∀ s, s ≠ tree.root → ch.answer s hsmEmptySig = evtSuper (tree.parent s)

/-- The machine is at rest in `c`, and the states from `c` up know it. -/
structure StableAt (tree : ParentTree S) (w : Hsm S) (c : S) : Prop where
  cur : w.curState = c
  next : w.nextState = c
  known : ∀ u ∈ tree.chain c, u ≠ tree.root → w.hsm u = .machine

/-- The states handed an event with the given signal, in order. -/
def deliveries (signal : Int) (trace : List (Call S)) : List S :=
  trace.filterMap (fun call => match call with
    | .handler s sig _ => if sig = signal then some s else none
    | _ => none)

/-- The entry and exit actions that were run, in order. -/
def actions (trace : List (Call S)) : List (Call S) :=
  trace.filter (fun call => match call with
    | .handler _ _ _ => false
    | _ => true)

def Hsm.log (w : Hsm S) (call : Call S) : Hsm S := { w with trace := w.trace ++ [call] }

@[simp] lemma deliveries_append (signal : Int) (l l' : List (Call S)) :
    deliveries signal (l ++ l') = deliveries signal l ++ deliveries signal l' :=
  List.filterMap_append

@[simp] lemma actions_append (l l' : List (Call S)) :
    actions (l ++ l') = actions l ++ actions l' := List.filter_append ..

@[simp] lemma deliveries_handler (signal sig : Int) (s : S) (p : HsmPtr) :
    deliveries signal [Call.handler s sig p] = if sig = signal then [s] else [] := by
  by_cases h : sig = signal <;> simp [deliveries, h]

@[simp] lemma deliveries_onExit (signal : Int) (s : S) :
    deliveries signal [Call.onExit s] = [] := rfl

@[simp] lemma deliveries_onEntry (signal : Int) (s : S) :
    deliveries signal [Call.onEntry s] = [] := rfl

/-- A list up to and including its first element with `p`. -/
def uptoFirst (p : S → Prop) [DecidablePred p] : List S → List S
  | [] => []
  | s :: l => if p s then [s] else s :: uptoFirst p l

lemma mem_of_mem_uptoFirst {p : S → Prop} [DecidablePred p] {l : List S} {s : S}
    (hs : s ∈ uptoFirst p l) : s ∈ l := by
  induction l with
  | nil => exact hs
  | cons u l ih =>
    unfold uptoFirst at hs
    split at hs
    · exact List.mem_cons.mpr (.inl (List.mem_singleton.mp hs))
    · rcases List.mem_cons.mp hs with h | h
      · exact List.mem_cons.mpr (.inl h)
      · exact List.mem_cons_of_mem _ (ih h)

variable [DecidableEq S]

section Handlers

variable {ch : Chart S} {tree : ParentTree S} (hf : Follows ch tree)
include hf

lemma handler_root (signal : Int) : ch.handler tree.root signal = hsmRootHandler := by
  rw [Chart.handler, hf.root, if_pos rfl]

lemma handler_of_ne_root {s : S} (hs : s ≠ tree.root) (signal : Int) :
    ch.handler s signal = ch.answer s signal := by
  rw [Chart.handler, hf.root, if_neg hs]

lemma exec_callHandler {s : S} {w : Hsm S} (hk : s ≠ tree.root → w.hsm s = .machine)
    (signal : Int) :
    exec (callHandler ch s signal) w = (.ok (ch.handler s signal).status,
      { Hsm.log w (.handler s signal (w.hsm s)) with
        nextState := (ch.handler s signal).next.getD w.nextState }) := by
  unfold callHandler logCall setNextState
  rw [exec_bind, exec_get]
  dsimp only
  rw [exec_bind, exec_modify]
  dsimp only
  by_cases hs : s = tree.root
  · rw [hs, handler_root hf]
    rfl
  · cases (ch.handler s signal).next with
    | none => rfl
    | some t =>
      dsimp only
      rw [if_neg (by simp [hk hs])]
      rfl

lemma exec_getSuperState {s : S} (hs : s ≠ tree.root) {w : Hsm S} (hk : w.hsm s = .machine) :
    exec (getSuperState ch s) w = (.ok evtStatusSuper,
      { Hsm.log w (.handler s hsmEmptySig (w.hsm s)) with nextState := tree.parent s }) := by
  rw [getSuperState, exec_callHandler hf (fun _ => hk), handler_of_ne_root hf hs, hf.super s hs]
  rfl

end Handlers

/-- The loop stops at a state whose handler answers neither of these two. -/
def Stops (ch : Chart S) (signal : Int) (s : S) : Prop :=
  (ch.handler s signal).status ≠ evtStatusSuper ∧ (ch.handler s signal).status ≠ evtStatusHandled

instance (ch : Chart S) (signal : Int) : DecidablePred (Stops ch signal) :=
  fun _ => inferInstanceAs (Decidable (_ ∧ _))

lemma stops_root {ch : Chart S} {tree : ParentTree S} (hf : Follows ch tree) (signal : Int) :
    Stops ch signal tree.root := by
  rw [Stops, handler_root hf]
  exact ⟨by simp [hsmRootHandler, evtStatusIgnored, evtStatusSuper],
    by simp [hsmRootHandler, evtStatusIgnored, evtStatusHandled]⟩

/-- The state that ends the climb of an event from `c`. -/
def taker (ch : Chart S) (tree : ParentTree S) (signal : Int) (c : S) : S :=
  ((tree.chain c).find? (fun u => decide (Stops ch signal u))).getD tree.root

/-- The calls one round of the loop makes: a state that answers `HANDLED` is asked for its
superstate as well. -/
def roundCalls (ch : Chart S) (signal : Int) (hsm : S → HsmPtr) (u : S) : List (Call S) :=
  .handler u signal (hsm u) ::
    if (ch.handler u signal).status = evtStatusHandled then [.handler u hsmEmptySig (hsm u)] else []

/-- All calls of the loop for an event that climbs from `c`. -/
def climbCalls (ch : Chart S) (tree : ParentTree S) (signal : Int) (hsm : S → HsmPtr) (c : S) :
    List (Call S) :=
  (uptoFirst (Stops ch signal) (tree.chain c)).flatMap (roundCalls ch signal hsm)

lemma actions_climbCalls (ch : Chart S) (tree : ParentTree S) (signal : Int) (hsm : S → HsmPtr)
    (c : S) : actions (climbCalls ch tree signal hsm c) = [] := by
  unfold climbCalls
  induction uptoFirst (Stops ch signal) (tree.chain c) with
  | nil => rfl
  | cons u l ih =>
    rw [List.flatMap_cons, actions_append, ih, List.append_nil, roundCalls]
    split <;> rfl

lemma deliveries_climbCalls (ch : Chart S) (tree : ParentTree S) {signal : Int}
    (he : signal ≠ hsmEmptySig) (hsm : S → HsmPtr) (c : S) :
    deliveries signal (climbCalls ch tree signal hsm c) =
      uptoFirst (Stops ch signal) (tree.chain c) := by
  unfold climbCalls
  induction uptoFirst (Stops ch signal) (tree.chain c) with
  | nil => rfl
  | cons u l ih =>
    have hround : deliveries signal (roundCalls ch signal hsm u) = [u] := by
      unfold roundCalls
      split <;> simp [deliveries, he.symm]
    rw [List.flatMap_cons, deliveries_append, ih, hround, List.singleton_append]

/-- What an event with this signal meets on its way up from `c`: every state knows its
machine, and one that passes the event on stores its superstate. -/
structure Climbable (ch : Chart S) (tree : ParentTree S) (signal : Int) (w : Hsm S) (c : S) :
    Prop where
  follows : Follows ch tree
  known : ∀ u ∈ tree.chain c, u ≠ tree.root → w.hsm u = .machine
  super : ∀ u ∈ uptoFirst (Stops ch signal) (tree.chain c), u ≠ tree.root →
    (ch.answer u signal).status = evtStatusSuper → (ch.answer u signal).next = some (tree.parent u)

section Climb

variable {ch : Chart S} {tree : ParentTree S} {signal : Int} {w : Hsm S} {c : S}

lemma uptoFirst_chain_of_stops (hstop : Stops ch signal c) :
    uptoFirst (Stops ch signal) (tree.chain c) = [c] := by
  by_cases hc : c = tree.root
  · subst hc
    simp [uptoFirst]
  · simp [tree.chain_of_ne_root hc, uptoFirst, hstop]

lemma uptoFirst_chain_of_not_stops (hc : c ≠ tree.root) (hstop : ¬ Stops ch signal c) :
    uptoFirst (Stops ch signal) (tree.chain c) =
      c :: uptoFirst (Stops ch signal) (tree.chain (tree.parent c)) := by
  rw [tree.chain_of_ne_root hc, uptoFirst, if_neg hstop]

lemma taker_of_stops (hstop : Stops ch signal c) : taker ch tree signal c = c := by
  unfold taker
  by_cases hc : c = tree.root
  · subst hc
    simp [hstop]
  · simp [tree.chain_of_ne_root hc, hstop]

lemma taker_of_not_stops (hc : c ≠ tree.root) (hstop : ¬ Stops ch signal c) :
    taker ch tree signal c = taker ch tree signal (tree.parent c) := by
  unfold taker
  simp [tree.chain_of_ne_root hc, hstop]

lemma taker_mem_chain (ch : Chart S) (tree : ParentTree S) (signal : Int) (c : S) :
    taker ch tree signal c ∈ tree.chain c := by
  unfold taker
  cases hfind : (tree.chain c).find? (fun u => decide (Stops ch signal u)) with
  | none => exact tree.root_mem_chain c
  | some u => exact List.mem_of_find?_eq_some hfind

lemma Climbable.parent {w' : Hsm S} (h : Climbable ch tree signal w c) (hc : c ≠ tree.root)
    (hstop : ¬ Stops ch signal c) (hw : w'.hsm = w.hsm) :
    Climbable ch tree signal w' (tree.parent c) := by
  refine ⟨h.follows, ?_, ?_⟩
  · intro u hu
    rw [hw]
    exact h.known u (by rw [tree.chain_of_ne_root hc]; exact List.mem_cons_of_mem _ hu)
  · intro u hu
    apply h.super u
    rw [uptoFirst_chain_of_not_stops hc hstop]
    exact List.mem_cons_of_mem _ hu

lemma exec_bubble_of_stops (hc : w.nextState = c) (h : Climbable ch tree signal w c)
    (hstop : Stops ch signal c) (fuel : Nat) :
    exec (bubble ch signal (fuel + 1)) w = (.ok ((ch.handler c signal).status, c),
      { Hsm.log w (.handler c signal (w.hsm c)) with
        nextState := (ch.handler c signal).next.getD c }) := by
  have hcall := exec_callHandler h.follows (h.known c (tree.mem_chain_self c)) signal
  rw [bubble, exec_bind, exec_get]
  dsimp only
  rw [hc, exec_bind_ok hcall, if_neg hstop.2, exec_bind, exec_pure]
  dsimp only
  rw [if_neg hstop.1, exec_pure, hc]

/-- A state that does not stop the loop hands the event to its superstate, whether it
passed it on as a superstate or answered that it handled it. -/
lemma exec_bubble_of_not_stops (hc : w.nextState = c) (h : Climbable ch tree signal w c)
    (hstop : ¬ Stops ch signal c) (fuel : Nat) :
    exec (bubble ch signal (fuel + 1)) w = exec (bubble ch signal fuel)
      { w with
        nextState := tree.parent c
        trace := w.trace ++ roundCalls ch signal w.hsm c } := by
  have hroot : c ≠ tree.root := by
    rintro rfl
    exact hstop (stops_root h.follows signal)
  have hk := h.known c (tree.mem_chain_self c) hroot
  have hreply := handler_of_ne_root h.follows hroot signal
  have hmem : c ∈ uptoFirst (Stops ch signal) (tree.chain c) := by
    rw [uptoFirst_chain_of_not_stops hroot hstop]
    exact List.mem_cons_self
  have hcall := exec_callHandler h.follows (fun _ => hk) signal
  rw [bubble, exec_bind, exec_get]
  dsimp only
  rw [hc, exec_bind_ok hcall]
  rw [Stops, not_and_or, not_not, not_not] at hstop
  rcases hstop with hsuper | hhandled
  · have hnext := h.super c hmem hroot (hreply ▸ hsuper)
    rw [roundCalls, if_neg (by rw [hsuper]; decide), if_neg (by rw [hsuper]; decide), exec_bind,
      exec_pure]
    dsimp only
    rw [if_pos hsuper, hreply, hnext]
    rfl
  · -- `HANDLED` makes the loop ask the same state for its superstate
    have hask := exec_getSuperState h.follows hroot
      (w := { Hsm.log w (.handler c signal (w.hsm c)) with
        nextState := (ch.handler c signal).next.getD w.nextState }) hk
    rw [roundCalls, if_pos hhandled, if_pos hhandled, exec_bind_ok hask, if_pos rfl]
    simp [Hsm.log]

/-- The machine after the loop, for an event that climbs from `c`. -/
def climbEnd (ch : Chart S) (tree : ParentTree S) (signal : Int) (w : Hsm S) (c : S) : Hsm S :=
  { w with
    nextState := (ch.handler (taker ch tree signal c) signal).next.getD (taker ch tree signal c)
    trace := w.trace ++ climbCalls ch tree signal w.hsm c }

lemma climbEnd_of_stops (hstop : Stops ch signal c) :
    climbEnd ch tree signal w c = { Hsm.log w (.handler c signal (w.hsm c)) with
      nextState := (ch.handler c signal).next.getD c } := by
  rw [climbEnd, taker_of_stops hstop, climbCalls, uptoFirst_chain_of_stops hstop,
    List.flatMap_singleton, roundCalls, if_neg hstop.2]
  rfl

lemma climbEnd_of_not_stops (hroot : c ≠ tree.root) (hstop : ¬ Stops ch signal c) :
    climbEnd ch tree signal w c = climbEnd ch tree signal
      { w with
        nextState := tree.parent c
        trace := w.trace ++ roundCalls ch signal w.hsm c } (tree.parent c) := by
  rw [climbEnd, climbEnd, taker_of_not_stops hroot hstop, climbCalls, climbCalls,
    uptoFirst_chain_of_not_stops hroot hstop, List.flatMap_cons, List.append_assoc]

/-- The loop ends at the first stopping state, having called the handlers of the states
from the current one up to that state. -/
theorem exec_bubble (hc : w.nextState = c) (h : Climbable ch tree signal w c)
    {fuel : Nat} (hfuel : tree.depth c < fuel) :
    exec (bubble ch signal fuel) w =
      (.ok ((ch.handler (taker ch tree signal c) signal).status, taker ch tree signal c),
        climbEnd ch tree signal w c) := by
  induction c using tree.rec_parent generalizing w fuel with
  | hroot =>
    obtain ⟨n, rfl⟩ : ∃ n, fuel = n + 1 := ⟨fuel - 1, by omega⟩
    have hstop := stops_root h.follows signal
    rw [exec_bubble_of_stops hc h hstop, taker_of_stops hstop, climbEnd_of_stops hstop]
  | hparent c hroot ih =>
    obtain ⟨n, rfl⟩ : ∃ n, fuel = n + 1 := ⟨fuel - 1, by omega⟩
    by_cases hstop : Stops ch signal c
    · rw [exec_bubble_of_stops hc h hstop, taker_of_stops hstop, climbEnd_of_stops hstop]
    · have hd := tree.depth_parent c hroot
      rw [exec_bubble_of_not_stops hc h hstop, taker_of_not_stops hroot hstop,
        climbEnd_of_not_stops hroot hstop]
      apply ih
      · rfl
      · exact h.parent hroot hstop rfl
      · omega

end Climb

end GeneralPurposeLibrary.Proofs
