import Mathlib.Data.Nat.Notation

/-!
# The worker of a pthread model

`pthread/pthread_model.c`: one `pthread_model_t`, the one thread that controls it and the
workers that it starts, with a step for every access of a worker to the model and for every
statement of the controlling thread that a worker can see. Memory that was freed holds
anything, so a worker that reads it is `lost`. Cancellation is deferred, and the points where
it takes effect are in `start_routine`. Destroying needs the thread id of a worker, and a
model that was freed is not used again.
-/

namespace GeneralPurposeLibrary

inductive WorkerPc where
  /-- In front of the test of `model->start_routine`. -/
  | entry
  /-- In front of the test of `handle->running`. -/
  | test
  /-- Behind it, in front of the call of the routine. -/
  | call
  | routine
  | returned
  | cancelled
  | lost
  deriving DecidableEq, Repr

structure Worker where
  pc : WorkerPc
  /-- Whether `pthread_cancel` was called for the thread. -/
  cancelRequested : Bool
  /-- How often it has called `start_routine`. -/
  calls : ℕ
  deriving DecidableEq, Repr

/-- Where the controlling thread is. -/
inductive ControlPc where
  | idle
  /-- In `pthread_model_start`, in front of `pthread_create`. -/
  | creating
  /-- In `pthread_model_destory`, in front of `pthread_cancel`. -/
  | cancelling
  /-- In front of the test of `handle->running`. -/
  | testing
  /-- In front of `free`. -/
  | freeing
  deriving DecidableEq, Repr

structure PthreadModel where
  /-- Whether there is a `start_routine`. -/
  startRoutine : Bool
  running : UInt32
  freed : Bool
  /-- The worker that `thread_id` names. -/
  threadId : Option ℕ
  control : ControlPc
  workers : List Worker
  deriving DecidableEq, Repr

/-- Bit 0 of `running`: the workers shall run. -/
def runBit : UInt32 := (1 : UInt32) <<< (0 : UInt32)

/-- Bit 1 of `running`: the model is from `pthread_model_create`. -/
def dynamicBit : UInt32 := (1 : UInt32) <<< (1 : UInt32)

/-- A model in the memory of the caller. -/
def pthreadModelInit (func : Bool) : PthreadModel := ⟨func, 0, false, none, .idle, []⟩

section Functions

variable (m : PthreadModel)

/-- The next statement of `pthread_model_start`, with what the call returns if it is the last
one. `created` is whether `pthread_create` succeeds. -/
def pthreadModelStart (created : Bool) : Option (Option Int × PthreadModel) :=
  match m.control with
  | .idle =>
    if m.freed then none
    else some (none, { m with running := m.running ||| runBit, control := .creating })
  | .creating =>
    if !created then some (some (-1), { m with control := .idle })
    else
      some (some 0, { m with
        threadId := some m.workers.length
        control := .idle
        workers := m.workers ++ [⟨.entry, false, 0⟩] })
  | _ => none

/-- `pthread_cancel`. -/
def requestCancel (i : ℕ) : PthreadModel :=
  { m with workers := m.workers.modify i fun w => { w with cancelRequested := true } }

/-- The next statement of `pthread_model_destory`, with what the call returns if it is the last
one. -/
def pthreadModelDestory : Option (Option Int × PthreadModel) :=
  match m.control with
  | .idle =>
    if m.freed ∨ m.threadId = none then none
    else some (none, { m with running := m.running &&& ~~~runBit, control := .cancelling })
  | .cancelling =>
    m.threadId.map fun i => (none, { requestCancel m i with control := .testing })
  | .testing =>
    if m.running &&& dynamicBit ≠ 0 then some (none, { m with control := .freeing })
    else some (some 0, { m with control := .idle })
  | .freeing => some (some 0, { m with freed := true, control := .idle })
  | .creating => none

/-- The next step of a worker in `pthread_model_execute`. -/
def pthreadModelExecute (w : Worker) : Option Worker :=
  match w.pc with
  | .entry =>
    if m.freed then some { w with pc := .lost }
    else if !m.startRoutine then some { w with pc := .returned }
    else some { w with pc := .test }
  | .test =>
    if m.freed then some { w with pc := .lost }
    else if m.running &&& runBit ≠ 0 then some { w with pc := .call }
    else some { w with pc := .returned }
  | .call =>
    if m.freed then some { w with pc := .lost }
    else some { w with pc := .routine, calls := w.calls + 1 }
  | .routine => some { w with pc := .test }
  | .returned | .cancelled | .lost => none

/-- A cancellation point of the routine. -/
def cancellationPoint (w : Worker) : Option Worker :=
  if w.pc = .routine ∧ w.cancelRequested = true then some { w with pc := .cancelled } else none

end Functions

/-- A statement of `pthread_model_start` or `pthread_model_destory`, or a step of a worker. -/
inductive ModelStep where
  | start (created : Bool)
  | destory
  | execute (i : ℕ)
  | cancellationPoint (i : ℕ)
  deriving DecidableEq, Repr

/-- A step of the worker with the given number. -/
def workerStep (m : PthreadModel) (i : ℕ) (next : Worker → Option Worker) :
    Option PthreadModel := do
  let w ← m.workers[i]?
  let w' ← next w
  return { m with workers := m.workers.set i w' }

def modelStep (m : PthreadModel) : ModelStep → Option PthreadModel
  | .start created => (pthreadModelStart m created).map Prod.snd
  | .destory => (pthreadModelDestory m).map Prod.snd
  | .execute i => workerStep m i (pthreadModelExecute m)
  | .cancellationPoint i => workerStep m i cancellationPoint

end GeneralPurposeLibrary
