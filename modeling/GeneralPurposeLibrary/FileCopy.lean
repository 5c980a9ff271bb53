import GeneralPurposeLibrary.FileUtils
import GeneralPurposeLibrary.Foundation.FuelLoop

/-!
# Copying a file

`file_copy_content` of `linux/utils/src/file_utils.c`. Two paths may name the same file, so
paths lead to inodes and inodes to bytes. How the source delivers its bytes is a parameter:
how many an `fread` gets at most, and where reading starts to fail, if it does. So is how the
destination takes them: on a full disk an `fwrite` takes fewer than it is given, or the stream
cannot write its buffer out in the end. Opening is decided by `permits`.
-/

namespace GeneralPurposeLibrary

structure Disk where
  lookup : String → Option Nat
  data : Nat → List UInt8
  permits : String → OpenMode → Bool
  /-- The inode of the next file that is created. -/
  next : Nat
  fresh : ∀ path inode, lookup path = some inode → inode < next

namespace Disk

/-- What the file of that name holds. -/
def content (disk : Disk) (path : String) : Option (List UInt8) :=
  (disk.lookup path).map disk.data

def setData (disk : Disk) (inode : Nat) (bytes : List UInt8) : Disk :=
  { disk with data := Function.update disk.data inode bytes }

/-- A new empty file. -/
def create (disk : Disk) (path : String) : Disk where
  lookup := Function.update disk.lookup path (some disk.next)
  data := Function.update disk.data disk.next []
  permits := disk.permits
  next := disk.next + 1
  fresh := by
    intro other inode h
    by_cases hpath : other = path
    · subst hpath
      rw [Function.update_self] at h
      cases h
      exact Nat.lt_succ_self _
    · rw [Function.update_of_ne hpath] at h
      exact Nat.lt_succ_of_lt (disk.fresh other inode h)

/-- `fopen`: the inode behind the stream. Mode `"wb"` truncates or creates the file. -/
def fopen (disk : Disk) (path : String) (mode : OpenMode) : Option Nat × Disk :=
  if disk.permits path mode then
    match mode, disk.lookup path with
    | .rb, found => (found, disk)
    | .wb, some inode => (some inode, disk.setData inode [])
    | .wb, none => (some disk.next, disk.create path)
  else (none, disk)

end Disk

def readBufMaxLen : Nat := 1024

/-- How the source delivers its bytes: the `k`-th `fread` stops after `chunk k` bytes, at the
end of the file, or at the position where a persistent read error begins. -/
structure SourceBehaviour where
  chunk : Nat → Nat
  failsAt : Option Nat
  chunk_pos : ∀ k, 0 < chunk k
  chunk_le : ∀ k, chunk k ≤ readBufMaxLen

namespace SourceBehaviour

/-- Where reading stops in a file of that length. -/
def limit (b : SourceBehaviour) (length : Nat) : Nat :=
  match b.failsAt with
  | some position => min position length
  | none => length

/-- Reading stops at the end of the file, not at an error. -/
def endsAtEof (b : SourceBehaviour) (length : Nat) : Bool :=
  match b.failsAt with
  | some position => decide (length < position)
  | none => true

end SourceBehaviour

/-- How the destination takes its bytes: the `k`-th `fwrite` takes at most `accepts k` of them,
and `fflush` and `fclose` lose the last `lost` bytes that were taken. -/
structure DestinationBehaviour where
  accepts : Nat → Nat
  lost : Nat

structure SourceStream where
  inode : Nat
  position : Nat
  reads : Nat
  feof : Bool

structure CopyState where
  disk : Disk
  src : SourceStream
  dst : Nat
  written : Nat

/-- `fread(buf, 1, READ_BUF_MAX_LEN, src)`. `feof` is set by a read that met the end of the
file before it had its bytes; a read that met an error sets nothing the loop looks at. -/
def freadSource (b : SourceBehaviour) (disk : Disk) (src : SourceStream) :
    List UInt8 × SourceStream :=
  let bytes := disk.data src.inode
  let available := b.limit bytes.length - src.position
  let readLen := min (b.chunk src.reads) available
  ((bytes.drop src.position).take readLen,
    { src with
      position := src.position + readLen
      reads := src.reads + 1
      feof := src.feof || (decide (available < b.chunk src.reads) && b.endsAtEof bytes.length) })

/-- One round of `while (!feof(src))`. The count that `fwrite` returns is not looked at. -/
def copyRound (b : SourceBehaviour) (w : DestinationBehaviour) (s : CopyState) :
    CopyState ⊕ Disk :=
  if s.src.feof then .inr s.disk
  else
    let (bytes, src) := freadSource b s.disk s.src
    let taken := bytes.take (w.accepts s.src.reads)
    let old := s.disk.data s.dst
    let new := old.take s.written ++ taken ++ old.drop (s.written + taken.length)
    .inl ⟨s.disk.setData s.dst new, src, s.dst, s.written + taken.length⟩

/-- `fflush` and `fclose` of the destination, whose results are not looked at either. -/
def closeDestination (w : DestinationBehaviour) (disk : Disk) (dst : Nat) : Disk :=
  disk.setData dst ((disk.data dst).take ((disk.data dst).length - w.lost))

/-- The result of `file_copy_content` and the disk it leaves; none when the fuel ran out. -/
def fileCopyContent (b : SourceBehaviour) (w : DestinationBehaviour) (fuel : Nat) (disk : Disk)
    (srcFile dstFile : String) : Option (Int × Disk) :=
  if (disk.lookup srcFile).isNone then some (-1, disk)
  else
    match disk.fopen srcFile .rb with
    | (none, disk) => some (-1, disk)
    | (some src, disk) =>
      match disk.fopen dstFile .wb with
      | (none, disk) => some (-1, disk)
      | (some dst, disk) =>
        let start : CopyState := ⟨disk, ⟨src, 0, 0, false⟩, dst, 0⟩
        (FuelLoop.run (copyRound b w) fuel start).map fun disk =>
          (0, closeDestination w disk dst)

end GeneralPurposeLibrary
