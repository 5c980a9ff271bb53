import Mathlib.Data.BitVec
import Mathlib.Logic.Function.Basic

/-!
# The cross-process mutex

`ipc_competition/ipc_mutex.c` run by any number of processes on one name, each call one step.
A shared memory segment keeps its contents while a process has it mapped, also after its name
has been unlinked, so segments are numbered and the name refers to at most one of them. A
handle is a mapping of a segment by a process, and a process may have several.

The mutex is robust: when its owner exits it becomes owner-dead. A call that blocks in pthread
is not enabled. The rules for the callers are part of the steps: a process uses handles it
has, destroys one only while it does not hold the mutex, and fewer than `2 ^ 15` handles are
open at a time.
-/

namespace GeneralPurposeLibrary

/-- A robust `pthread_mutex_t`. -/
inductive RobustMutex (Process : Type) where
  | free
  | locked (owner : Process)
  | ownerDead
  | destroyed
  deriving DecidableEq, Repr

structure MutexSegment (Process : Type) where
  mutex : RobustMutex Process
  refcnt : Int16
  deriving DecidableEq, Repr

structure MutexSystem (Process : Type) where
  nextSegment : ℕ
  /-- The segment that the name refers to. -/
  named : Option ℕ
  segment : ℕ → MutexSegment Process
  handles : List (Process × ℕ)

inductive MutexCall (Process : Type) where
  /-- `opened` is whether `shm_open` and `ftruncate` succeed. -/
  | create (p : Process) (opened : Bool)
  | lock (p : Process) (i : ℕ)
  | unlock (p : Process) (i : ℕ)
  | destroy (p : Process) (i : ℕ)
  /-- The process exits without destroying its handles. -/
  | exit (p : Process)
  deriving DecidableEq, Repr

section Calls

variable {Process : Type} [DecidableEq Process] (s : MutexSystem Process)

def initMutexSystem (Process : Type) : MutexSystem Process :=
  ⟨0, none, fun _ => ⟨.free, 0⟩, []⟩

def MutexSystem.setSegment (i : ℕ) (segment : MutexSegment Process) : MutexSystem Process :=
  { s with segment := Function.update s.segment i segment }

def ipcMutexCreate (p : Process) (opened : Bool) : Option (MutexSystem Process) :=
  if s.handles.length + 1 < 2 ^ 15 then
    if !opened then some s
    else
      match s.named with
      | some i =>
        let segment := s.segment i
        let s := s.setSegment i { segment with refcnt := segment.refcnt + 1 }
        some { s with handles := (p, i) :: s.handles }
      | none =>
        let i := s.nextSegment
        let s := s.setSegment i ⟨.free, 0 + 1⟩
        some { s with nextSegment := i + 1, named := some i, handles := (p, i) :: s.handles }
  else none

/-- The loop of `ipc_mutex_lock`: an owner-dead mutex is made consistent and unlocked, the
count decremented, and the mutex locked once more. -/
def ipcMutexLock (p : Process) (i : ℕ) : Option (MutexSystem Process) :=
  if (p, i) ∈ s.handles then
    let segment := s.segment i
    match segment.mutex with
    | .free => some (s.setSegment i { segment with mutex := .locked p })
    | .locked _ => none
    | .ownerDead => some (s.setSegment i ⟨.locked p, segment.refcnt - 1⟩)
    | .destroyed => some s
  else none

def ipcMutexUnlock (p : Process) (i : ℕ) : Option (MutexSystem Process) :=
  if (p, i) ∈ s.handles then
    let segment := s.segment i
    if segment.mutex = .locked p then some (s.setSegment i { segment with mutex := .free })
    else some s
  else none

/-- Whether `ipc_mutex_destroy` goes on to unlink the segment. -/
def destroyUnlinks (i : ℕ) : Bool := (s.segment i).refcnt - 1 == 0

def ipcMutexDestroy (p : Process) (i : ℕ) : Option (MutexSystem Process) :=
  if (p, i) ∈ s.handles ∧ (s.segment i).mutex ≠ .locked p then
    let segment := s.segment i
    let handles := s.handles.erase (p, i)
    if destroyUnlinks s i then
      let s := s.setSegment i ⟨.destroyed, segment.refcnt - 1⟩
      some { s with named := none, handles := handles }
    else
      let s := s.setSegment i { segment with refcnt := segment.refcnt - 1 }
      some { s with handles := handles }
  else none

def processExit (p : Process) : MutexSystem Process :=
  { s with
    handles := s.handles.filter fun handle => handle.1 ≠ p
    segment := fun i =>
      if (s.segment i).mutex = .locked p then { s.segment i with mutex := .ownerDead }
      else s.segment i }

def mutexStep : MutexCall Process → Option (MutexSystem Process)
  | .create p opened => ipcMutexCreate s p opened
  | .lock p i => ipcMutexLock s p i
  | .unlock p i => ipcMutexUnlock s p i
  | .destroy p i => ipcMutexDestroy s p i
  | .exit p => some (processExit s p)

end Calls

end GeneralPurposeLibrary
