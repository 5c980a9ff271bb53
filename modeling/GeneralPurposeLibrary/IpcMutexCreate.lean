import Mathlib.Data.BitVec
import Mathlib.Logic.Function.Basic

/-!
# Creation of the cross-process mutex, step by step

`ipc_mutex_create` of `ipc_competition/ipc_mutex.c` called by any number of processes with one
new name, each system call or access to the shared segment one step. A process decides by its
first step, the access test, whether it is the one to set up the segment. Touching a segment
that has no size yet kills the process. `inits` counts the calls of `pthread_mutex_init` and
`created` the calls of `ipc_mutex_create` that returned a handle; both are ghost members, and
so is `mutexReady`, which is set by `pthread_mutex_init` and cleared by `memset`.
-/

namespace GeneralPurposeLibrary

structure SharedSegment where
  sized : Bool
  mutexReady : Bool
  refcnt : Int16
  deriving DecidableEq, Repr

/-- Where a process is in `ipc_mutex_create`; `isCreate` is the variable of that name, true
when the access test found the segment. -/
inductive CreatePhase where
  | idle
  | tested (isCreate : Bool)
  | opened (isCreate : Bool) (i : ℕ)
  | sized (i : ℕ)
  | mapped (isCreate : Bool) (i : ℕ)
  | attributed (isCreate : Bool) (i : ℕ)
  | initialised (i : ℕ)
  | returned (i : ℕ)
  | failed
  | killed
  deriving DecidableEq, Repr

structure CreateSystem (Process : Type) where
  nextSegment : ℕ
  name : Option ℕ
  segment : ℕ → SharedSegment
  phase : Process → CreatePhase
  inits : ℕ
  created : ℕ

inductive CreateStep (Process : Type) where
  | access (p : Process)
  | shmOpen (p : Process) (succeeds : Bool)
  | ftruncate (p : Process) (succeeds : Bool)
  | mmap (p : Process) (succeeds : Bool)
  /-- `memset` and `pthread_mutexattr_init` when the segment was not found, and the attribute
  settings in any case. -/
  | setAttributes (p : Process)
  | mutexInit (p : Process)
  | incRefcnt (p : Process)
  deriving DecidableEq, Repr

section Steps

variable {Process : Type} [DecidableEq Process] (s : CreateSystem Process)

def initCreateSystem (Process : Type) : CreateSystem Process :=
  ⟨0, none, fun _ => ⟨false, false, 0⟩, fun _ => .idle, 0, 0⟩

def CreateSystem.setPhase (p : Process) (phase : CreatePhase) : CreateSystem Process :=
  { s with phase := Function.update s.phase p phase }

def CreateSystem.setSegment (i : ℕ) (segment : SharedSegment) : CreateSystem Process :=
  { s with segment := Function.update s.segment i segment }

def accessStep (p : Process) : Option (CreateSystem Process) :=
  match s.phase p with
  | .idle => some (s.setPhase p (.tested s.name.isSome))
  | _ => none

/-- `shm_open` with `O_CREAT`. -/
def shmOpenStep (p : Process) (succeeds : Bool) : Option (CreateSystem Process) :=
  match s.phase p with
  | .tested isCreate =>
    if !succeeds then some (s.setPhase p .failed)
    else
      match s.name with
      | some i => some (s.setPhase p (.opened isCreate i))
      | none =>
        let i := s.nextSegment
        let s := s.setSegment i ⟨false, false, 0⟩
        let s := { s with nextSegment := i + 1, name := some i }
        some (s.setPhase p (.opened isCreate i))
  | _ => none

/-- `ftruncate`, whose failure unlinks the name. -/
def ftruncateStep (p : Process) (succeeds : Bool) : Option (CreateSystem Process) :=
  match s.phase p with
  | .opened false i =>
    if !succeeds then
      let s := { s with name := none }
      some (s.setPhase p .failed)
    else
      let s := s.setSegment i { s.segment i with sized := true }
      some (s.setPhase p (.sized i))
  | _ => none

/-- `mmap`; the test for the null pointer misses `MAP_FAILED`, and the next access kills the
process. -/
def mmapStep (p : Process) (succeeds : Bool) : Option (CreateSystem Process) :=
  match s.phase p with
  | .opened true i => some (s.setPhase p (if succeeds then .mapped true i else .killed))
  | .sized i => some (s.setPhase p (if succeeds then .mapped false i else .killed))
  | _ => none

def setAttributesStep (p : Process) : Option (CreateSystem Process) :=
  match s.phase p with
  | .mapped isCreate i =>
    if !(s.segment i).sized then some (s.setPhase p .killed)
    else if isCreate then some (s.setPhase p (.attributed true i))
    else
      let s := s.setSegment i ⟨true, false, 0⟩
      some (s.setPhase p (.attributed false i))
  | _ => none

def mutexInitStep (p : Process) : Option (CreateSystem Process) :=
  match s.phase p with
  | .attributed false i =>
    let s := s.setSegment i { s.segment i with mutexReady := true }
    let s := { s with inits := s.inits + 1 }
    some (s.setPhase p (.initialised i))
  | _ => none

/-- The segment on which a process is about to increment the count. -/
def aboutToCount : CreatePhase → Option ℕ
  | .attributed true i => some i
  | .initialised i => some i
  | _ => none

/-- `ipc_mutex->refcnt++`, after which `ipc_mutex_create` returns. -/
def incRefcntStep (p : Process) : Option (CreateSystem Process) :=
  match aboutToCount (s.phase p) with
  | some i =>
    let s := s.setSegment i { s.segment i with refcnt := (s.segment i).refcnt + 1 }
    let s := { s with created := s.created + 1 }
    some (s.setPhase p (.returned i))
  | none => none

def createStep : CreateStep Process → Option (CreateSystem Process)
  | .access p => accessStep s p
  | .shmOpen p succeeds => shmOpenStep s p succeeds
  | .ftruncate p succeeds => ftruncateStep s p succeeds
  | .mmap p succeeds => mmapStep s p succeeds
  | .setAttributes p => setAttributesStep s p
  | .mutexInit p => mutexInitStep s p
  | .incRefcnt p => incRefcntStep s p

end Steps

end GeneralPurposeLibrary
