import GeneralPurposeLibrary.ShmRwLock

/-!
# The shared robust mutex

`linux/utils/src/shm_mutex.c` as it is built (`USE_SHMAT` 0, robust mutexes), run by any
number of processes on one mapped file, each call one step. The file keeps its contents
between mappings. A call that blocks in pthread is not enabled. A process may crash between
its calls, and dies in `shm_mutex_alloc` when `mmap` fails, as `mmapfile` then returns
`MAP_FAILED`.

The rules for the callers are part of the steps: a process makes a call on a handle it got
from `shm_mutex_alloc` and has not destroyed, unlocks only when it holds the mutex and
destroys a handle only when it does not.
-/

namespace GeneralPurposeLibrary

def pthreadEinval : Int32 := 22

def eownerdead : Int32 := 130

def enotrecoverable : Int32 := 131

/-- A robust `pthread_mutex_t`; taken from a dead owner it is not consistent at first. -/
inductive PthreadMutex (Process : Type) where
  | uninitialised
  | unlocked
  | locked (owner : Process) (consistent : Bool)
  | notRecoverable
  deriving DecidableEq, Repr

namespace PthreadMutex

variable {Process : Type} [DecidableEq Process]

/-- Whether a process, live or dead, holds the mutex. -/
def held : PthreadMutex Process → Bool
  | .locked _ _ => true
  | _ => false

def heldBy (p : Process) : PthreadMutex Process → Bool
  | .locked owner _ => owner = p
  | _ => false

end PthreadMutex

section Pthread

variable {Process : Type} (alive : Process → Bool)

/-- `pthread_mutex_lock`, which blocks while a live process holds the mutex. -/
def pthreadMutexLock (p : Process) :
    PthreadMutex Process → Option (Int32 × PthreadMutex Process)
  | .uninitialised => some (pthreadEinval, .uninitialised)
  | .unlocked => some (0, .locked p true)
  | .locked owner _ => if alive owner then none else some (eownerdead, .locked p false)
  | .notRecoverable => some (enotrecoverable, .notRecoverable)

def pthreadMutexConsistent : PthreadMutex Process → Int32 × PthreadMutex Process
  | .locked owner false => (0, .locked owner true)
  | mutex => (pthreadEinval, mutex)

def pthreadMutexUnlock : PthreadMutex Process → PthreadMutex Process
  | .locked _ true => .unlocked
  | .locked _ false => .notRecoverable
  | mutex => mutex

end Pthread

structure ShmMutex (Process : Type) where
  magic : Int32
  name : List UInt8
  refCount : Int32
  lockCount : Int32
  mutex : PthreadMutex Process
  deriving DecidableEq, Repr

/-- What `mmapfile` returns: null when it cannot open the file, `MAP_FAILED`, or the file. -/
inductive MapResult where
  | null
  | mapFailed
  | mapped
  deriving DecidableEq, Repr

structure ShmMutexSystem (Process : Type) where
  file : ShmMutex Process
  alive : Process → Bool
  handles : Process → Nat

inductive ShmMutexCall (Process : Type) where
  | alloc (p : Process) (key : Option (List UInt8)) (result : MapResult)
  | destroy (p : Process)
  | lock (p : Process)
  | unlock (p : Process)
  | crash (p : Process)
  deriving DecidableEq, Repr

section Functions

variable {Process : Type}

/-- The part of `shm_mutex_alloc` behind `mmapfile`. -/
def ShmMutex.attach (shmMutex : ShmMutex Process) (key : List UInt8) : ShmMutex Process :=
  let shmMutex :=
    if shmMutexMagic ≠ shmMutex.magic then ⟨shmMutexMagic, key.take 63, 0, 0, .unlocked⟩
    else shmMutex
  { shmMutex with refCount := shmMutex.refCount + 1 }

def shmMutexDestroy : Option (ShmMutex Process) → Int32 × Option (ShmMutex Process)
  | none => (-1, none)
  | some shmMutex => (0, some { shmMutex with refCount := shmMutex.refCount - 1 })

def shmMutexLock (alive : Process → Bool) (p : Process) (shmMutex : ShmMutex Process) :
    Option (Int32 × ShmMutex Process) := do
  let (ret, mutex) ← pthreadMutexLock alive p shmMutex.mutex
  if 0 = ret then
    return (0, { shmMutex with lockCount := shmMutex.lockCount + 1, mutex := mutex })
  else
    let (ret, mutex) := if eownerdead = ret then pthreadMutexConsistent mutex else (ret, mutex)
    if 0 = ret then
      return (0, { shmMutex with refCount := shmMutex.refCount - 1, mutex := mutex })
    else return (-1, { shmMutex with mutex := mutex })

def shmMutexUnlock (shmMutex : ShmMutex Process) : Int32 × ShmMutex Process :=
  (0, { shmMutex with
    lockCount := shmMutex.lockCount - 1
    mutex := pthreadMutexUnlock shmMutex.mutex })

end Functions

section Steps

variable {Process : Type} [DecidableEq Process] (s : ShmMutexSystem Process)

/-- The processes before any of them has mapped the file. -/
def initShmMutexSystem (file : ShmMutex Process) (alive : Process → Bool) :
    ShmMutexSystem Process :=
  ⟨file, alive, fun _ => 0⟩

def crashed (p : Process) : ShmMutexSystem Process :=
  { s with alive := Function.update s.alive p false, handles := Function.update s.handles p 0 }

def shmMutexAlloc (p : Process) : Option (List UInt8) → MapResult → ShmMutexSystem Process
  | none, _ => s
  | some _, .null => s
  | some _, .mapFailed => crashed s p
  | some key, .mapped =>
    { s with
      file := s.file.attach key
      handles := Function.update s.handles p (s.handles p + 1) }

/-- Whether the process can make a call on a handle. -/
def ready (p : Process) : Bool := s.alive p && 0 < s.handles p

def shmMutexStep : ShmMutexCall Process → Option (ShmMutexSystem Process)
  | .alloc p key result => if s.alive p then some (shmMutexAlloc s p key result) else none
  | .destroy p =>
    if ready s p && !s.file.mutex.heldBy p then
      (shmMutexDestroy (some s.file)).2.map fun file =>
        { s with file := file, handles := Function.update s.handles p (s.handles p - 1) }
    else none
  | .lock p =>
    if ready s p then
      (shmMutexLock s.alive p s.file).map fun result => { s with file := result.2 }
    else none
  | .unlock p =>
    if ready s p && s.file.mutex.heldBy p then some { s with file := (shmMutexUnlock s.file).2 }
    else none
  | .crash p => if s.alive p then some (crashed s p) else none

end Steps

end GeneralPurposeLibrary
