import Mathlib.Data.Nat.Notation
import Mathlib.Logic.Function.Basic

/-!
# The record lock

`ipc_competition/ipc_flock.c` run by any number of processes, each call one step. A POSIX
record lock belongs to a process and a file, whatever descriptor it was taken with: a process
is never blocked by its own lock, and closing any of its descriptors of the file releases the
lock. The functions lock and unlock the whole file. The file that a path names is `inode`,
which stays the same as nothing removes the files. A call that blocks in `fcntl` is not
enabled.

The rules for the callers are part of the steps: a process calls the functions with a handle
it got from `ipc_flock_create` and has not destroyed, and a name is one that `flock_name` has
room for. `holding` is a ghost member.
-/

namespace GeneralPurposeLibrary

def maxFileLockNameLen : ℕ := 128

/-- `sprintf(flock_name,"/tmp/%s",name)`. -/
def flockName (name : List UInt8) : List UInt8 := [47, 116, 109, 112, 47] ++ name

/-- What the descriptor of an `ipc_flock_t` refers to, and whose it is. -/
structure IpcFlock (Process Inode : Type) where
  process : Process
  file : Inode
  deriving DecidableEq, Repr

structure FlockSystem (Process Inode : Type) where
  nextHandle : ℕ
  handle : ℕ → Option (IpcFlock Process Inode)
  /-- The process that has the file locked. -/
  owner : Inode → Option Process
  /-- Whether a lock through the handle returned 0 and no unlock through it has since. -/
  holding : ℕ → Bool

inductive FlockCall (Process : Type) where
  /-- `opened` is whether `calloc` and `open` succeed. -/
  | create (p : Process) (name : List UInt8) (opened : Bool)
  /-- `failed` is whether `fcntl` returns -1, interrupted by a signal or out of locks. -/
  | lock (h : ℕ) (failed : Bool)
  | unlock (h : ℕ) (failed : Bool)
  | destroy (h : ℕ)
  /-- The process ends, and with it all of its descriptors. -/
  | exit (p : Process)
  deriving DecidableEq, Repr

inductive FlockType where
  | wrlck
  | unlck
  deriving DecidableEq, Repr

section Calls

variable {Process Inode : Type} [DecidableEq Process] [DecidableEq Inode]
  (s : FlockSystem Process Inode)

def initFlockSystem (Process Inode : Type) : FlockSystem Process Inode :=
  ⟨0, fun _ => none, fun _ => none, fun _ => false⟩

/-- `flock_simple` with `F_SETLKW` on the whole file, as long as `fcntl` succeeds. -/
def flockSimple (flock : IpcFlock Process Inode) (type : FlockType) :
    Option (FlockSystem Process Inode) :=
  match type with
  | .wrlck =>
    match s.owner flock.file with
    | none => some { s with owner := Function.update s.owner flock.file (some flock.process) }
    | some q => if q = flock.process then some s else none
  | .unlck =>
    if s.owner flock.file = some flock.process then
      some { s with owner := Function.update s.owner flock.file none }
    else some s

def ipcFlockCreate (inode : List UInt8 → Inode) (p : Process) (name : List UInt8)
    (opened : Bool) : Option (FlockSystem Process Inode) :=
  if (flockName name).length < maxFileLockNameLen then
    if !opened then some s
    else
      some
        { s with
          nextHandle := s.nextHandle + 1
          handle := Function.update s.handle s.nextHandle (some ⟨p, inode (flockName name)⟩) }
  else none

/-- `ipc_flock_lock`: the value it returns and the locks after it. -/
def ipcFlockLock (flock : IpcFlock Process Inode) (failed : Bool) :
    Option (Int × FlockSystem Process Inode) :=
  if failed then some (-1, s) else (flockSimple s flock .wrlck).map fun s => (0, s)

def ipcFlockUnlock (flock : IpcFlock Process Inode) (failed : Bool) :
    Option (Int × FlockSystem Process Inode) :=
  if failed then some (-1, s) else (flockSimple s flock .unlck).map fun s => (0, s)

/-- `close(flock->fd)`, which drops the lock of the process on the file. -/
def closeFlock (flock : IpcFlock Process Inode) : FlockSystem Process Inode :=
  if s.owner flock.file = some flock.process then
    { s with owner := Function.update s.owner flock.file none }
  else s

def setHolding (ret : Int) (h : ℕ) (holding : Bool) : FlockSystem Process Inode :=
  if ret = 0 then { s with holding := Function.update s.holding h holding } else s

def flockStep (inode : List UInt8 → Inode) :
    FlockCall Process → Option (FlockSystem Process Inode)
  | .create p name opened => ipcFlockCreate s inode p name opened
  | .lock h failed => do
    let flock ← s.handle h
    let (ret, s) ← ipcFlockLock s flock failed
    some (setHolding s ret h true)
  | .unlock h failed => do
    let flock ← s.handle h
    let (ret, s) ← ipcFlockUnlock s flock failed
    some (setHolding s ret h false)
  | .destroy h => do
    let flock ← s.handle h
    let s := closeFlock s flock
    some
      { s with
        handle := Function.update s.handle h none
        holding := Function.update s.holding h false }
  | .exit p =>
    some
      { s with
        handle := fun h => (s.handle h).filter fun flock => flock.process ≠ p
        owner := fun file => (s.owner file).filter fun q => q ≠ p
        holding := fun h => s.holding h && (s.handle h).any fun flock => flock.process ≠ p }

end Calls

end GeneralPurposeLibrary
