import Mathlib.Data.Int.Notation
import Mathlib.Data.Nat.Notation
import Mathlib.Logic.Function.Basic

/-!
# The System V semaphore lock

`ipc_competition/ipc_semsv.c` run by any number of processes on one name, and so on one key.
Each system call on the semaphore is one atomic step; between them a process is in one of the
phases of its call. The semaphore set of the key is unique while it exists, and a new one
gets a new identifier. POSIX leaves the value of a new semaphore open, so the step that
creates it carries the value.

A step that a process cannot take in its phase, or a `semop` that blocks, is not enabled. The
rules for the callers are part of this: a process unlocks only while it holds the lock and
destroys its handle only while it does not. `initialised` and `holding` are ghost members.
-/

namespace GeneralPurposeLibrary

/-- The members of `ipc_semsv_t`; `semId` is `none` when the second `semget` returned -1. -/
structure SemHandle where
  semId : Option ℕ
  isCreator : Bool
  lockref : ℤ
  deriving DecidableEq, Repr

inductive SemPhase where
  /-- No handle. -/
  | idle
  /-- Between two calls, with a handle. -/
  | ready (handle : SemHandle)
  /-- In `ipc_semsv_lock`, about to create the semaphore again. -/
  | recreating
  /-- In `ipc_semsv_create`, between the exclusive `semget` and `SETVAL`. -/
  | initialising (id : ℕ) (inLock : Bool)
  /-- In `ipc_semsv_create`, before the second `semget`. -/
  | attaching (inLock : Bool)
  /-- `ipc_semsv_lock` has copied from the null pointer that a failed creation returned. -/
  | crashed
  deriving DecidableEq, Repr

structure Semaphore where
  id : ℕ
  value : ℕ
  initialised : Bool
  deriving DecidableEq, Repr

structure SemSystem (Process : Type) where
  nextId : ℕ
  sem : Option Semaphore
  phase : Process → SemPhase
  holding : Process → Bool

inductive SemStep (Process : Type) where
  /-- The exclusive `semget` of `ipc_semsv_create`, with the value of a new semaphore. -/
  | semgetExcl (p : Process) (value : ℕ)
  | setval (p : Process)
  /-- The second `semget` of `ipc_semsv_create`, which asks for the permissions 0555 and is
  refused to a process that has only the 0666 of the set. -/
  | semget (p : Process) (granted : Bool)
  /-- `ipc_semsv_create` fails before it has created a semaphore. -/
  | createFails (p : Process)
  /-- The `semop` of `ipc_semsv_lock`. -/
  | lock (p : Process)
  /-- The `semop` of `ipc_semsv_lock` fails with an error other than `EINVAL`. -/
  | lockFails (p : Process)
  | unlock (p : Process)
  | destroy (p : Process)
  deriving DecidableEq, Repr

section Steps

variable {Process : Type} [DecidableEq Process] (s : SemSystem Process)

def SemSystem.setPhase (p : Process) (phase : SemPhase) : SemSystem Process :=
  { s with phase := Function.update s.phase p phase }

def SemSystem.setHolding (p : Process) (holding : Bool) : SemSystem Process :=
  { s with holding := Function.update s.holding p holding }

/-- The state before anyone has used the name. -/
def initSemSystem (Process : Type) : SemSystem Process :=
  ⟨0, none, fun _ => .idle, fun _ => false⟩

/-- The phase in which `ipc_semsv_create` finds its caller: whether it is called by
`ipc_semsv_lock`. -/
def creates : SemPhase → Option Bool
  | .idle => some false
  | .recreating => some true
  | _ => none

/-- What a null pointer from `ipc_semsv_create` makes of the caller. -/
def afterNull (inLock : Bool) : SemPhase := if inLock then .crashed else .idle

def semgetExcl (p : Process) (value : ℕ) : Option (SemSystem Process) :=
  match creates (s.phase p) with
  | none => none
  | some inLock =>
    match s.sem with
    | some _ => some (s.setPhase p (.attaching inLock))
    | none =>
      let id := s.nextId
      let s := { s with nextId := id + 1, sem := some ⟨id, value, false⟩ }
      some (s.setPhase p (.initialising id inLock))

def setval (p : Process) : Option (SemSystem Process) :=
  match s.phase p with
  | .initialising id inLock =>
    match s.sem with
    | some sem =>
      if sem.id = id then
        let s := { s with sem := some ⟨id, 1, true⟩ }
        some (s.setPhase p (.ready ⟨some id, true, 0⟩))
      else some (s.setPhase p (afterNull inLock))
    | none => some (s.setPhase p (afterNull inLock))
  | _ => none

def semget (p : Process) (granted : Bool) : Option (SemSystem Process) :=
  match s.phase p with
  | .attaching _ =>
    let semId := if granted then s.sem.map Semaphore.id else none
    some (s.setPhase p (.ready ⟨semId, false, 0⟩))
  | _ => none

def createFails (p : Process) : Option (SemSystem Process) :=
  match creates (s.phase p) with
  | none => none
  | some inLock => some (s.setPhase p (afterNull inLock))

/-- The semaphore that a handle refers to, if it still exists. -/
def liveSem (handle : SemHandle) : Option Semaphore :=
  s.sem.filter fun sem => some sem.id == handle.semId

def ipcSemsvLock (p : Process) : Option (SemSystem Process) :=
  match s.phase p with
  | .ready handle =>
    match liveSem s handle with
    | none => some (s.setPhase p .recreating)
    | some sem =>
      if sem.value = 0 then none
      else
        let s := { s with sem := some { sem with value := sem.value - 1 } }
        let s := s.setPhase p (.ready { handle with lockref := handle.lockref + 1 })
        some (s.setHolding p true)
  | _ => none

def ipcSemsvLockFails (p : Process) : Option (SemSystem Process) :=
  match s.phase p with
  | .ready _ => some s
  | _ => none

def ipcSemsvUnlock (p : Process) : Option (SemSystem Process) :=
  match s.phase p with
  | .ready handle =>
    if s.holding p then
      match liveSem s handle with
      | none => some (s.setHolding p false)
      | some sem =>
        let s := { s with sem := some { sem with value := sem.value + 1 } }
        let s := s.setPhase p (.ready { handle with lockref := handle.lockref - 1 })
        some (s.setHolding p false)
    else none
  | _ => none

def ipcSemsvDestroy (p : Process) : Option (SemSystem Process) :=
  match s.phase p with
  | .ready handle =>
    if s.holding p then none
    else if handle.isCreator then
      match liveSem s handle with
      | none => some s
      | some _ =>
        let s := { s with sem := none }
        some (s.setPhase p .idle)
    else some (s.setPhase p .idle)
  | _ => none

def semStep : SemStep Process → Option (SemSystem Process)
  | .semgetExcl p value => semgetExcl s p value
  | .setval p => setval s p
  | .semget p granted => semget s p granted
  | .createFails p => createFails s p
  | .lock p => ipcSemsvLock s p
  | .lockFails p => ipcSemsvLockFails s p
  | .unlock p => ipcSemsvUnlock s p
  | .destroy p => ipcSemsvDestroy s p

end Steps

end GeneralPurposeLibrary
