import Mathlib.Logic.Function.Basic

/-!
# The shared reader-writer lock

`linux/utils/src/shm_rw_lock.c` run by any number of processes on one key, each call one
step. The `shm_rwlock_t` lives in a mapped file, which keeps its contents between mappings and
is filled with zeros when it is new. A call that blocks in pthread is not enabled.

The rules for the callers are part of the steps: a process calls the functions of the lock
between its own `shm_rwlock_alloc` and `shm_rwlock_destroy` only, and destroys only when it
holds no lock. POSIX leaves the effect of a call on a lock that is not initialised open; here
it has none.
-/

namespace GeneralPurposeLibrary

/-- A `pthread_rwlock_t`, with the holders of read locks and of the write lock. -/
inductive PthreadRwlock (Process : Type) where
  | uninitialised
  | initialised (readers : List Process) (writer : Option Process)
  | destroyed
  deriving DecidableEq, Repr

structure ShmRwlock (Process : Type) where
  magic : Int32
  refCount : Int32
  rwLock : PthreadRwlock Process

structure RwSystem (Process : Type) where
  file : ShmRwlock Process
  attached : Process → Bool

inductive RwCall (Process : Type) where
  /-- `mapped` is whether `mmapfile` succeeds. -/
  | alloc (p : Process) (mapped : Bool)
  | rdlock (p : Process)
  | wrlock (p : Process)
  | unlock (p : Process)
  | destroy (p : Process)
  deriving DecidableEq, Repr

def shmMutexMagic : Int32 := 0x5aa53cc3

section Calls

variable {Process : Type} [DecidableEq Process] (s : RwSystem Process)

def initRwSystem (Process : Type) : RwSystem Process :=
  ⟨⟨0, 0, .uninitialised⟩, fun _ => false⟩

/-- Whether the process holds a read lock or the write lock. -/
def heldBy (p : Process) : PthreadRwlock Process → Bool
  | .initialised readers writer => p ∈ readers || writer = some p
  | _ => false

/-- `pthread_rwlock_rdlock`; a process that holds the write lock gets `EDEADLK`. -/
def pthreadRwlockRdlock (p : Process) :
    PthreadRwlock Process → Option (PthreadRwlock Process)
  | .initialised readers none => some (.initialised (p :: readers) none)
  | .initialised readers (some q) =>
    if q = p then some (.initialised readers (some q)) else none
  | lock => some lock

def pthreadRwlockWrlock (p : Process) :
    PthreadRwlock Process → Option (PthreadRwlock Process)
  | .initialised readers none =>
    if readers = [] then some (.initialised [] (some p)) else none
  | .initialised readers (some q) =>
    if q = p then some (.initialised readers (some q)) else none
  | lock => some lock

def pthreadRwlockUnlock (p : Process) : PthreadRwlock Process → PthreadRwlock Process
  | .initialised readers writer =>
    if writer = some p then .initialised readers none
    else .initialised (readers.erase p) writer
  | lock => lock

def shmRwlockAlloc (p : Process) (mapped : Bool) : Option (RwSystem Process) :=
  if s.attached p then none
  else if !mapped then some s
  else
    let attached := Function.update s.attached p true
    if shmMutexMagic ≠ s.file.magic then
      some ⟨⟨shmMutexMagic, 0 + 1, .initialised [] none⟩, attached⟩
    else some ⟨s.file, attached⟩

def shmRwlockRdlock (p : Process) : Option (RwSystem Process) :=
  if s.attached p then
    (pthreadRwlockRdlock p s.file.rwLock).map fun rwLock =>
      { s with file := { s.file with refCount := s.file.refCount + 1, rwLock := rwLock } }
  else none

def shmRwlockWrlock (p : Process) : Option (RwSystem Process) :=
  if s.attached p then
    (pthreadRwlockWrlock p s.file.rwLock).map fun rwLock =>
      { s with file := { s.file with refCount := s.file.refCount + 1, rwLock := rwLock } }
  else none

def shmRwlockUnlock (p : Process) : Option (RwSystem Process) :=
  if s.attached p then
    let rwLock := pthreadRwlockUnlock p s.file.rwLock
    some { s with file := { s.file with refCount := s.file.refCount - 1, rwLock := rwLock } }
  else none

def shmRwlockDestroy (p : Process) : Option (RwSystem Process) :=
  if s.attached p && !heldBy p s.file.rwLock then
    some
      { file := { s.file with refCount := s.file.refCount - 1, rwLock := .destroyed }
        attached := Function.update s.attached p false }
  else none

def rwStep : RwCall Process → Option (RwSystem Process)
  | .alloc p mapped => shmRwlockAlloc s p mapped
  | .rdlock p => shmRwlockRdlock s p
  | .wrlock p => shmRwlockWrlock s p
  | .unlock p => shmRwlockUnlock s p
  | .destroy p => shmRwlockDestroy s p

end Calls

end GeneralPurposeLibrary
