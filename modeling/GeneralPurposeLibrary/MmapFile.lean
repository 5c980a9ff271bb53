import GeneralPurposeLibrary.ShmMutex
import Mathlib.Data.Nat.Notation

/-!
# Mapped files

`mmapfile` and `unmapfile` of `linux/utils/src/mmap_file.c`, and the stores that processes make
through the mappings they got. The file that a path names is `inode`. A file that is opened for
the first time is created empty. The outcome of the system calls is handed to the function: a
failed `ftruncate` goes unnoticed.

`mmapfile` takes no lock, so its system calls are also given as steps of a process, between
which other processes take theirs.
-/

namespace GeneralPurposeLibrary

def pathMax : ℕ := 4096

structure MapOutcome where
  opened : Bool
  truncated : Bool
  mapped : Bool
  deriving DecidableEq, Repr

/-- A mapping of the first `size` bytes of a file. -/
structure Mapping (Inode : Type) where
  file : Inode
  size : ℕ
  deriving DecidableEq, Repr

structure MmapFiles (Inode : Type) where
  file : Inode → Option (List UInt8)
  mappings : List (Mapping Inode)

/-- `ftruncate`: the file is cut or filled up with zeros. -/
def ftruncate (contents : List UInt8) (size : ℕ) : List UInt8 :=
  contents.take size ++ List.replicate (size - contents.length) 0

/-- `len < size`, where the `int` is converted to `unsigned long`. -/
def lenBelow (len : Int32) (size : UInt64) : Bool := len.toInt64.toUInt64 < size

/-- The path that `mmapfile` goes on to open. -/
def checkedPath (fn : Option (List UInt8)) (size : UInt64) : Option (List UInt8) :=
  match fn with
  | none => none
  | some fn =>
    if fn.length > pathMax then none
    else if size = 0 then none
    else some fn

section Files

variable {Inode : Type} [DecidableEq Inode] (s : MmapFiles Inode)

def MmapFiles.contents {Inode : Type} (s : MmapFiles Inode) (file : Inode) : List UInt8 :=
  (s.file file).getD []

def MmapFiles.setContents (file : Inode) (contents : List UInt8) : MmapFiles Inode :=
  { s with file := Function.update s.file file (some contents) }

/-- `open` with `O_CREAT`. -/
def MmapFiles.create (file : Inode) : MmapFiles Inode := s.setContents file (s.contents file)

/-- `len = lseek(mem_fd, 0, SEEK_END)`. -/
def MmapFiles.lseekEnd {Inode : Type} (s : MmapFiles Inode) (file : Inode) : Int32 :=
  Int32.ofNat (s.contents file).length

/-- `if (len < size) ftruncate(mem_fd, size)`. -/
def MmapFiles.extend (file : Inode) (len : Int32) (size : UInt64) (truncated : Bool) :
    MmapFiles Inode :=
  if lenBelow len size && truncated then
    s.setContents file (ftruncate (s.contents file) size.toNat)
  else s

def MmapFiles.map {Inode : Type} (s : MmapFiles Inode) (file : Inode) (size : UInt64) :
    MmapFiles Inode :=
  { s with mappings := s.mappings ++ [⟨file, size.toNat⟩] }

def mmapfile (inode : List UInt8 → Inode) (fn : Option (List UInt8)) (size : UInt64)
    (outcome : MapOutcome) : MapResult × MmapFiles Inode :=
  match checkedPath fn size with
  | none => (.null, s)
  | some fn =>
    if !outcome.opened then (.null, s)
    else
      let s := s.create (inode fn)
      let len := s.lseekEnd (inode fn)
      let s := s.extend (inode fn) len size outcome.truncated
      if !outcome.mapped then (.mapFailed, s) else (.mapped, s.map (inode fn) size)

/-- `munmap` of a mapping as a whole. -/
def unmapfile (mapping : Mapping Inode) : MmapFiles Inode :=
  { s with mappings := s.mappings.erase mapping }

/-- A store through a mapping; it has no effect where the file is too short. -/
def storeByte (mapping : Mapping Inode) (offset : ℕ) (b : UInt8) : MmapFiles Inode :=
  { s with
    file := Function.update s.file mapping.file ((s.file mapping.file).map (·.set offset b)) }

end Files

/-! ### Processes -/

/-- Where a process is in `mmapfile`. -/
inductive MmapPhase (Inode : Type) where
  | idle
  /-- In front of `lseek`. -/
  | opened (file : Inode) (size : UInt64)
  /-- In front of the test of `len`. -/
  | measured (file : Inode) (size : UInt64) (len : Int32)
  /-- In front of `mmap`. -/
  | extended (file : Inode) (size : UInt64)
  deriving DecidableEq, Repr

structure MmapSystem (Process Inode : Type) where
  files : MmapFiles Inode
  phase : Process → MmapPhase Inode

inductive MmapCall (Process Inode : Type) where
  /-- `mmapfile` is called and comes to `open`. -/
  | openFile (p : Process) (fn : Option (List UInt8)) (size : UInt64) (opened : Bool)
  | lseek (p : Process)
  | ftruncate (p : Process) (succeeds : Bool)
  | mmap (p : Process) (succeeds : Bool)
  | unmap (mapping : Mapping Inode)
  | store (mapping : Mapping Inode) (offset : ℕ) (b : UInt8)
  deriving DecidableEq, Repr

/-- A process stores through a mapping that exists, inside its bounds. -/
def mappingStep {Process Inode : Type} [DecidableEq Process] [DecidableEq Inode]
    (inode : List UInt8 → Inode) (s : MmapSystem Process Inode) :
    MmapCall Process Inode → Option (MmapSystem Process Inode)
  | .openFile p fn size opened =>
    match s.phase p with
    | .idle =>
      match checkedPath fn size with
      | none => some s
      | some fn =>
        if !opened then some s
        else
          some { files := s.files.create (inode fn)
                 phase := Function.update s.phase p (.opened (inode fn) size) }
    | _ => none
  | .lseek p =>
    match s.phase p with
    | .opened file size =>
      let len := s.files.lseekEnd file
      some { s with phase := Function.update s.phase p (.measured file size len) }
    | _ => none
  | .ftruncate p succeeds =>
    match s.phase p with
    | .measured file size len =>
      some { files := s.files.extend file len size succeeds
             phase := Function.update s.phase p (.extended file size) }
    | _ => none
  | .mmap p succeeds =>
    match s.phase p with
    | .extended file size =>
      some { files := if succeeds then s.files.map file size else s.files
             phase := Function.update s.phase p .idle }
    | _ => none
  | .unmap mapping =>
    if mapping ∈ s.files.mappings then some { s with files := unmapfile s.files mapping }
    else none
  | .store mapping offset b =>
    if mapping ∈ s.files.mappings ∧ offset < mapping.size then
      some { s with files := storeByte s.files mapping offset b }
    else none

end GeneralPurposeLibrary
