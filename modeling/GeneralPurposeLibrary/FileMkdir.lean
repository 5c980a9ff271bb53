import GeneralPurposeLibrary.Foundation.CString
import GeneralPurposeLibrary.Foundation.FuelLoop
import GeneralPurposeLibrary.Foundation.PathTree

/-!
# Creating the directories of a path

`fs_mkdirs` of `ipc_competition/file_mkdir.c`, over a tree of directories, files and symbolic
links. A directory descriptor is the path of the directory that is open, without links on it.
The system calls do what POSIX says, except that each of them may also fail: the `n`-th call
fails with `fails n` if there is such an error. A read outside the copy of the path is a fault.
-/

namespace GeneralPurposeLibrary
open CString PathTree

def enoent : Int32 := 2
def eexist : Int32 := 17
def enotdir : Int32 := 20
def einval : Int32 := 22
def eloop : Int32 := 40

abbrev FileName := List UInt8

inductive FsNode where
  | directory (mode : UInt32)
  | file (bytes : List UInt8)
  | symlink (target : List UInt8)
  deriving DecidableEq, Repr

def FsNode.isDirectory : FsNode → Bool
  | .directory _ => true
  | _ => false

abbrev FsTree := Tree FileName FsNode FsNode.isDirectory

/-- An error for lack of permission or resources. -/
def CallFailure := { e : Int32 // 0 < e ∧ e ≠ enoent ∧ e ≠ eexist }

structure FsCalls where
  umask : UInt32
  fails : Nat → Option CallFailure

/-- The tree, and the number of system calls made so far. -/
structure FsState where
  tree : FsTree
  calls : Nat

namespace FsCalls

variable (env : FsCalls)

/-- A system call, which has no effect when it fails. -/
def attempt {α : Type} (s : FsState) (call : FsTree → FsTree × Except Int32 α) :
    FsState × Except Int32 α :=
  match env.fails s.calls with
  | some e => (⟨s.tree, s.calls + 1⟩, .error e.val)
  | none => (⟨(call s.tree).1, s.calls + 1⟩, (call s.tree).2)

def openRoot (s : FsState) : FsState × Except Int32 (List FileName) :=
  env.attempt s fun tree => (tree, .ok [])

/-- `fstatat` with `AT_SYMLINK_NOFOLLOW`. -/
def fstatat (fd : List FileName) (name : FileName) (s : FsState) : FsState × Except Int32 FsNode :=
  env.attempt s fun tree =>
    if IsInner tree fd then
      match tree.node (fd ++ [name]) with
      | some node => (tree, .ok node)
      | none => (tree, .error enoent)
    else (tree, .error enotdir)

def mkdirat (fd : List FileName) (name : FileName) (mode : UInt32) (s : FsState) :
    FsState × Except Int32 Unit :=
  env.attempt s fun tree =>
    if hdir : IsInner tree fd then
      if hnew : tree.node (fd ++ [name]) = none then
        (add tree fd name (.directory (mode &&& ~~~env.umask)) hdir hnew, .ok ())
      else (tree, .error eexist)
    else (tree, .error enotdir)

/-- `openat` with `O_NOFOLLOW | O_CLOEXEC`. -/
def openat (fd : List FileName) (name : FileName) (s : FsState) :
    FsState × Except Int32 (List FileName) :=
  env.attempt s fun tree =>
    if IsInner tree fd then
      match tree.node (fd ++ [name]) with
      | some (.symlink _) => (tree, .error eloop)
      | some _ => (tree, .ok (fd ++ [name]))
      | none => (tree, .error enoent)
    else (tree, .error enotdir)

end FsCalls

inductive MkdirsFault where
  | bufBounds
  deriving DecidableEq, Repr

def slash : UInt8 := 47

def dot : FileName := [46]

def dotDot : FileName := [46, 46]

/-- The end of the loop body: step into the segment, which is ready. The error is the value
of `res`. -/
def stepInto (env : FsCalls) (fd : List FileName) (segment : FileName) (s : FsState) :
    FsState × Except Int32 (List FileName) :=
  match env.openat fd segment s with
  | (s, .error e) => (s, .error (-e))
  | (s, .ok nextFd) => (s, .ok nextFd)

/-- The loop body for one segment of the path, from the checks of its name on. -/
def enterSegment (env : FsCalls) (mode : UInt32) (fd : List FileName) (segment : FileName)
    (s : FsState) : FsState × Except Int32 (List FileName) :=
  if segment = dotDot ∨ segment = dot ∨ segment = [] then (s, .error (-einval))
  else
    match env.fstatat fd segment s with
    | (s, .error e) =>
      if e = enoent then
        match env.mkdirat fd segment mode s with
        | (s, .error e) => if e = eexist then stepInto env fd segment s else (s, .error (-e))
        | (s, .ok _) => stepInto env fd segment s
      else (s, .error (-e))
    | (s, .ok (.symlink _)) => (s, .error (-eloop))
    | (s, .ok (.file _)) => (s, .error (-enotdir))
    | (s, .ok (.directory _)) => stepInto env fd segment s

/-- The variables of the loop; `segment` and `p` are indices into `buf`. -/
structure MkdirsState where
  buf : List UInt8
  segment : Nat
  p : Nat
  fd : List FileName
  sys : FsState

/-- `do { p++; } while (*p == '/')`, from the index after `p` on. -/
def skipSlashes (buf : List UInt8) (p : Nat) : Nat :=
  p + ((buf.drop p).takeWhile fun b => decide (b = slash)).length

/-- One round of `while (*p != '\0')`. -/
def mkdirsRound (env : FsCalls) (mode : UInt32) (s : MkdirsState) :
    MkdirsState ⊕ Except MkdirsFault (Int32 × FsTree) :=
  match s.buf[s.p]? with
  | none => .inr (.error .bufBounds)
  | some b =>
    if b = 0 then .inr (.ok (0, s.sys.tree))
    else if b ≠ slash then .inl { s with p := s.p + 1 }
    else
      let buf := s.buf.set s.p 0
      match enterSegment env mode s.fd (text (buf.drop s.segment)) s.sys with
      | (sys, .error res) => .inr (.ok (res, sys.tree))
      | (sys, .ok nextFd) =>
        let buf := buf.set s.p slash
        let p := skipSlashes buf (s.p + 1)
        .inl ⟨buf, p, p, nextFd, sys⟩

/-- The result of `fs_mkdirs` and the tree it leaves; none when the fuel ran out. -/
def fsMkdirs (env : FsCalls) (fuel : Nat) (path : List UInt8) (mode : UInt32) (tree : FsTree) :
    Option (Except MkdirsFault (Int32 × FsTree)) :=
  let buf := path ++ [0]
  if buf.head? ≠ some slash then some (.ok (-einval, tree))
  else
    match env.openRoot ⟨tree, 0⟩ with
    | (s, .error e) => some (.ok (-e, s.tree))
    | (s, .ok fd) => FuelLoop.run (mkdirsRound env mode) fuel ⟨buf, 1, 1, fd, s⟩

end GeneralPurposeLibrary
