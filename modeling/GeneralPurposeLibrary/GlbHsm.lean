import GeneralPurposeLibrary.Foundation.FaultingProgram
import Mathlib.Logic.Function.Basic

/-!
# The hierarchical state machine

The engine of `linux/glb_hsm/glb_hsm.c` over the states of an application. A pointer to a
`super_state_t` is an element of `S`; the function pointers of the states are a `Chart`,
which supplies the actions and handlers of the application's own states, while those of
the root state are fixed by the engine. A handler answers with an `int` and may set
`next_state` through its own `hsm` pointer. Actions do not touch the machine.

`Hsm` is the machine `m_glb_hsm` with the `hsm` field of every state and a ghost trace of
the calls made. A step that C leaves undefined (an index outside `path`, an unset entry of
`path`, a call through `NULL`) stops with a `Fault`, as does `exit`. Every loop takes fuel;
a run that ends for lack of it is `outOfFuel`. The local `int_fast8_t` indices are integers:
each increment is followed at once by an access to `path`, so none passes 127.
-/

namespace GeneralPurposeLibrary
open FaultingProgram

def hsmMaxNestDepth : Int := 4

def hsmEmptySig : Int := 0

def evtStatusSuper : Int := 0

def evtStatusHandled : Int := 1

def evtStatusIgnored : Int := 2

def evtStatusUnhandle : Int := 3

def evtStatusTran : Int := 4

/-- What a handler does: the value it returns and the state it stores in `next_state`. -/
structure Reply (S : Type) where
  status : Int
  next : Option S

def evtSuper {S : Type} (super : S) : Reply S := ⟨evtStatusSuper, some super⟩

structure Chart (S : Type) where
  root : S
  entryAction : S → Int
  exitAction : S → Int
  answer : S → Int → Reply S

inductive HsmPtr where
  | null
  | machine
  deriving DecidableEq, Repr

/-- A call through a function pointer of a state; for a handler with the signal of the
event and the `hsm` field of the state at that moment. -/
inductive Call (S : Type) where
  | handler (state : S) (signal : Int) (hsm : HsmPtr)
  | onEntry (state : S)
  | onExit (state : S)
  deriving DecidableEq, Repr

structure Hsm (S : Type) where
  curState : S
  nextState : S
  hsm : S → HsmPtr
  trace : List (Call S)

inductive Fault where
  | nullCall
  | nullHsm
  | pathBounds
  | pathUnset
  | exited
  | outOfFuel
  deriving DecidableEq, Repr

abbrev HsmProgram (S : Type) := Program (Hsm S) Fault

/-- `super_state_t *path[HSM_MAX_NEST_DEPTH_]`; `none` is an entry not yet written. -/
abbrev Path (S : Type) := Nat → Option S

section Engine

variable {S : Type} [DecidableEq S] (ch : Chart S)

def Path.get (path : Path S) (i : Int) : HsmProgram S S :=
  if 0 ≤ i ∧ i < hsmMaxNestDepth then
    match path i.toNat with
    | some s => pure s
    | none => throw .pathUnset
  else throw .pathBounds

def Path.set (path : Path S) (i : Int) (s : S) : HsmProgram S (Path S) :=
  if 0 ≤ i ∧ i < hsmMaxNestDepth then pure (Function.update path i.toNat (some s))
  else throw .pathBounds

def logCall (call : Call S) : HsmProgram S Unit :=
  modify (fun w => { w with trace := w.trace ++ [call] })

def setNextState (s : S) : HsmProgram S Unit :=
  modify (fun w => { w with nextState := s })

/-- `SET_STATE_HSM(state, hsm)`. -/
def setStateHsm (s : S) : HsmProgram S Unit :=
  modify (fun w => { w with hsm := Function.update w.hsm s .machine })

def hsmRootHandler : Reply S := ⟨evtStatusIgnored, none⟩

def Chart.handler (s : S) (signal : Int) : Reply S :=
  if s = ch.root then hsmRootHandler else ch.answer s signal

/-- `(state->handler)(state, &event)`: a store to `next_state` goes through `state->hsm`. -/
def callHandler (s : S) (signal : Int) : HsmProgram S Int := do
  let w ← get
  logCall (.handler s signal (w.hsm s))
  let reply := ch.handler s signal
  match reply.next with
  | none => pure reply.status
  | some t =>
    if w.hsm s = .null then throw .nullHsm
    else do
      setNextState t
      pure reply.status

def callOnExit (s : S) : HsmProgram S Int :=
  if s = ch.root then throw .nullCall
  else do
    logCall (.onExit s)
    pure (ch.exitAction s)

def callOnEntry (s : S) : HsmProgram S Int :=
  if s = ch.root then throw .nullCall
  else do
    logCall (.onEntry s)
    pure (ch.entryAction s)

def getSuperState (s : S) : HsmProgram S Int := callHandler ch s hsmEmptySig

/-- `if ((s->on_exit)(s) == EVT_STATUS_HANDLED) get_super_state(s)`. -/
def exitAndClimb (s : S) : HsmProgram S Unit := do
  let status ← callOnExit ch s
  if status = evtStatusHandled then do
    let _ ← getSuperState ch s
    pure ()
  else pure ()

/-- Enters `path[count - 1], ..., path[0]`. -/
def enterPath (path : Path S) : Nat → HsmProgram S Unit
  | 0 => pure ()
  | ip + 1 => do
    let s ← path.get ip
    let _ ← callOnEntry ch s
    enterPath path ip

/-- The loop of case (e): climbs from the target's superstate and stores the entry path. -/
def climbTarget (s : S) : Nat → Int → Int → Int → Path S → HsmProgram S (Int × Int × Path S)
  | 0, _, _, _, _ => throw .outOfFuel
  | fuel + 1, status, iq, ip, path =>
    if status = evtStatusSuper then do
      let ip := ip + 1
      let w ← get
      let path ← path.set ip w.nextState
      if w.nextState = s then
        if ip > hsmMaxNestDepth then throw .exited
        else climbTarget s fuel evtStatusHandled 1 (ip - 1) path
      else do
        let status ← getSuperState ch w.nextState
        climbTarget s fuel status iq ip path
    else pure (iq, ip, path)

/-- The inner loop of cases (f) and (g): looks for `t` in `path[iq], ..., path[0]`. -/
def searchPath (t : S) (path : Path S) (status ip : Int) : Nat → HsmProgram S (Int × Int)
  | 0 => do
    let p ← path.get 0
    if t = p then pure (evtStatusHandled, -1) else pure (status, ip)
  | iq + 1 => do
    let p ← path.get (iq + 1)
    if t = p then pure (evtStatusHandled, iq) else searchPath t path status ip iq

/-- The outer loop of case (g): exits the superstates of the source one by one. -/
def exitSource (path : Path S) (ip : Int) : Nat → S → HsmProgram S Int
  | 0, _ => throw .outOfFuel
  | fuel + 1, t => do
    exitAndClimb ch t
    let w ← get
    let t := w.nextState
    let found ← searchPath t path evtStatusIgnored ip ip.toNat
    if found.1 ≠ evtStatusHandled then exitSource path ip fuel t
    else pure found.2

/-- `hsm_tran` from case (e) on, with `t` the superstate of the target. -/
def hsmTranRest (fuel : Nat) (path : Path S) (s t : S) : HsmProgram S (Int × Path S) := do
  let path ← path.set 1 t
  let w ← get
  let t := w.nextState
  let p ← path.get 1
  let status ← getSuperState ch p
  let (iq, ip, path) ← climbTarget ch s fuel status 0 1 path
  if iq = 0 then
    if ip > hsmMaxNestDepth then throw .exited
    else do
      let _ ← callOnExit ch s
      let found ← searchPath t path evtStatusIgnored ip ip.toNat
      if found.1 ≠ evtStatusHandled then do
        let ip ← exitSource ch path ip fuel t
        pure (ip, path)
      else pure (found.2, path)
  else pure (ip, path)

/-- `hsm_tran`: exits the source up to the least common ancestor and returns the index of
the outermost state to enter, with the entry path. -/
def hsmTran (fuel : Nat) (path : Path S) : HsmProgram S (Int × Path S) := do
  let target ← path.get 0
  let s ← path.get 2
  if s = target then do
    let _ ← callOnExit ch s
    pure (0, path)
  else do
    let _ ← getSuperState ch target
    let w ← get
    let t := w.nextState
    if s = t then pure (0, path)
    else do
      let _ ← getSuperState ch s
      let w ← get
      if w.nextState = t then do
        let _ ← callOnExit ch s
        pure (0, path)
      else if w.nextState = target then do
        let _ ← callOnExit ch s
        pure (-1, path)
      else hsmTranRest ch fuel path s t

/-- The loop that processes the event hierarchically; returns the last status and state. -/
def bubble (signal : Int) : Nat → HsmProgram S (Int × S)
  | 0 => throw .outOfFuel
  | fuel + 1 => do
    let w ← get
    let nextState := w.nextState
    let status ← callHandler ch nextState signal
    let status ← if status = evtStatusHandled then getSuperState ch nextState else pure status
    if status = evtStatusSuper then bubble signal fuel
    else pure (status, nextState)

/-- The loop that exits states until it meets `curState`. -/
def exitUntil (curState : S) : Nat → S → HsmProgram S Unit
  | 0, _ => throw .outOfFuel
  | fuel + 1, nextState =>
    if nextState ≠ curState then do
      exitAndClimb ch nextState
      let w ← get
      exitUntil curState fuel w.nextState
    else pure ()

/-- The loop that drills into the target hierarchy. -/
def drill (nextState : S) : Nat → Int → Path S → HsmProgram S (Int × Path S)
  | 0, _, _ => throw .outOfFuel
  | fuel + 1, ip, path => do
    let w ← get
    if w.nextState ≠ nextState then do
      let ip := ip + 1
      let path ← path.set ip w.nextState
      let _ ← getSuperState ch w.nextState
      drill nextState fuel ip path
    else pure (ip, path)

/-- The branch of `glb_hsm_dispatch` for a transition taken by `nextState`; returns the
state the machine ends in. -/
def takeTransition (fuel : Nat) (curState nextState : S) : HsmProgram S S := do
  let w ← get
  let path ← Path.set (fun _ => none) 0 w.nextState
  let path ← path.set 1 nextState
  let path ← path.set 2 curState
  exitUntil ch curState fuel nextState
  let (ip, path) ← hsmTran ch fuel path
  enterPath ch path (ip + 1).toNat
  let nextState ← path.get 0
  setNextState nextState
  let w ← get
  let path ← path.set 0 w.nextState
  let _ ← getSuperState ch w.nextState
  let (ip, path) ← drill ch nextState fuel 0 path
  let first ← path.get 0
  setNextState first
  enterPath ch path (ip + 1).toNat
  path.get 0

def glbHsmDispatch (fuel : Nat) (signal : Int) : HsmProgram S Unit := do
  let w ← get
  let curState := w.curState
  let (status, nextState) ← bubble ch signal fuel
  let nextState ←
    if status ≥ evtStatusTran then takeTransition ch fuel curState nextState
    else pure nextState
  modify (fun w => { w with curState := nextState, nextState := nextState })

/-- The loop of `glb_hsm_init` that collects the entry path of the initial state. -/
def initClimb (curState : S) : Nat → Int → Path S → HsmProgram S (Int × Path S)
  | 0, _, _ => throw .outOfFuel
  | fuel + 1, ip, path => do
    let w ← get
    if w.nextState ≠ curState then do
      let ip := ip + 1
      let path ← path.set ip w.nextState
      setStateHsm w.nextState
      let _ ← callHandler ch w.nextState hsmEmptySig
      initClimb curState fuel ip path
    else pure (ip, path)

def glbHsmInit (fuel : Nat) : HsmProgram S Unit := do
  let w ← get
  let curState := w.curState
  let path ← Path.set (fun _ => none) 0 w.nextState
  setStateHsm w.nextState
  let _ ← callHandler ch w.nextState hsmEmptySig
  let (ip, path) ← initClimb ch curState fuel 0 path
  let first ← path.get 0
  setNextState first
  enterPath ch path (ip + 1).toNat
  let curState ← path.get 0
  modify (fun w => { w with curState := curState, nextState := curState })

def glbHsmCtor (initial : S) : HsmProgram S Unit :=
  modify (fun w => { w with curState := ch.root, nextState := initial })

def hsmInit (fuel : Nat) (initial : S) : HsmProgram S Unit := do
  glbHsmCtor ch initial
  glbHsmInit ch fuel

end Engine

/-! ### The states of `common_level.c` -/

inductive Level where
  | root
  | level1
  | level2
  | level3
  deriving DecidableEq, Repr

def levelStartSig : Int := hsmEmptySig + 1

def levelStopSig : Int := levelStartSig + 1

/-- The three message handlers differ only in the state they name as superstate. -/
def levelHandler (super : Level) (signal : Int) : Reply Level :=
  if signal = levelStartSig then ⟨evtStatusHandled, none⟩
  else if signal = levelStopSig then ⟨evtStatusHandled, none⟩
  else evtSuper super

def levelMsgHandler (signal : Int) : Reply Level := levelHandler .root signal

def level2MsgHandler (signal : Int) : Reply Level := levelHandler .level1 signal

def level3MsgHandler (signal : Int) : Reply Level := levelHandler .level2 signal

def levelChart : Chart Level where
  root := .root
  entryAction _ := 0
  exitAction _ := 0
  answer
    | .level1 => levelMsgHandler
    | .level2 => level2MsgHandler
    | .level3 => level3MsgHandler
    | .root => fun _ => hsmRootHandler

end GeneralPurposeLibrary
