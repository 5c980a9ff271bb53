import GeneralPurposeLibrary.Foundation.RowPacking
import GeneralPurposeLibrary.FileUtils

/-!
# Frames in files

`linux/utils/src/image_file.c` over `fread` and `fwrite` on one open stream. A stream is the
bytes of its file, the position in it and the end-of-file mark; `budget` is the number of
bytes that can still be moved before the device reports an error, if it ever does. A pointer
into a buffer is an offset, and a transfer that would leave the buffer has no result.
-/

namespace GeneralPurposeLibrary
open RowPacking

structure ImageStream where
  content : List UInt8
  position : ℕ
  budget : Option ℕ
  eof : Bool
  deriving DecidableEq, Repr

namespace ImageStream

/-- What the device lets through of a transfer of `n` bytes. -/
def limit (fp : ImageStream) (n : ℕ) : ℕ :=
  match fp.budget with
  | none => n
  | some b => min n b

/-- The bytes between the position and the end of the file. -/
def remaining (fp : ImageStream) : ℕ := fp.content.length - fp.position

/-- How many of the next `n` bytes a read delivers. -/
def deliverable (fp : ImageStream) (n : ℕ) : ℕ := fp.limit (min n fp.remaining)

/-- How many of `n` bytes a write accepts. -/
def acceptable (fp : ImageStream) (n : ℕ) : ℕ := fp.limit n

/-- The stream after `n` bytes have been moved. -/
def advance (fp : ImageStream) (n : ℕ) : ImageStream :=
  { fp with position := fp.position + n, budget := fp.budget.map (· - n) }

def rewind (fp : ImageStream) : ImageStream := { fp with position := 0, eof := false }

/-- A new file on a device without errors. -/
def empty : ImageStream := ⟨[], 0, none, false⟩

end ImageStream

/-- What `rw_ops(ptr, size, nmemb, stream)` returns and leaves behind. -/
structure Transfer where
  count : ℕ
  buffer : List UInt8
  fp : ImageStream
  deriving DecidableEq, Repr

/-- `fops_func`; the arguments are the buffer, the offset of `ptr` in it, `size`, `nmemb` and
the stream. -/
abbrev FopsFunc := List UInt8 → ℤ → ℕ → ℕ → ImageStream → Option Transfer

/-- Whether `n` bytes behind the pointer lie in the buffer. -/
def inBuffer (buffer : List UInt8) (ptr : ℤ) (n : ℕ) : Bool :=
  0 ≤ ptr && ptr + n ≤ buffer.length

def imageFread : FopsFunc := fun buffer ptr size nmemb fp =>
  if inBuffer buffer ptr (size * nmemb) then
    let moved := fp.deliverable (size * nmemb)
    let bytes := (fp.content.drop fp.position).take moved
    let eof := fp.eof || (fp.remaining < size * nmemb && moved = fp.remaining)
    some ⟨moved / size, splice buffer ptr.toNat bytes, { fp.advance moved with eof := eof }⟩
  else none

def imageFwrite : FopsFunc := fun buffer ptr size nmemb fp =>
  if inBuffer buffer ptr (size * nmemb) then
    let moved := fp.acceptable (size * nmemb)
    let bytes := (buffer.drop ptr.toNat).take moved
    let content := splice fp.content fp.position bytes
    some ⟨moved / size, buffer, { fp.advance moved with content := content }⟩
  else none

inductive ImageLog where
  | info (text : String)
  | error (text : String)
  deriving DecidableEq, Repr

/-- What a call returns, the buffer and the stream it leaves, and what it logs. -/
structure FrameResult where
  ret : Int32
  buffer : List UInt8
  fp : ImageStream
  log : List ImageLog
  deriving DecidableEq, Repr

/-- The loop over the rows, `n` of which are left. -/
def rwRows (rwOps : FopsFunc) (width stride : Int32) :
    ℕ → List UInt8 → ℤ → ImageStream → Option (List UInt8 × ImageStream × List ImageLog)
  | 0, buffer, _, fp => some (buffer, fp, [])
  | n + 1, buffer, ptr, fp => do
    let t ← rwOps buffer ptr (intToSize width) 1 fp
    let ret := Int32.ofNat t.count
    if 1 = ret then rwRows rwOps width stride n t.buffer (ptr + stride.toInt) t.fp
    else if t.fp.eof then return (t.buffer, t.fp, [.info "reach end of file!\n"])
    else return (t.buffer, t.fp, [.error "image read or write file failed!\n"])

def imageFileRwOneFrame (fp : ImageStream) (buffer : List UInt8) (width height stride : Int32)
    (rwOps : FopsFunc) : Option FrameResult := do
  let (buffer, fp, log) ← rwRows rwOps width stride height.toInt.toNat buffer 0 fp
  return ⟨0, buffer, fp, log⟩

def imageFileReadOneFrame (fp : ImageStream) (buffer : List UInt8)
    (width height stride : Int32) : Option FrameResult :=
  imageFileRwOneFrame fp buffer width height stride imageFread

def imageFileWriteOneFrame (fp : ImageStream) (buffer : List UInt8)
    (width height stride : Int32) : Option FrameResult :=
  imageFileRwOneFrame fp buffer width height stride imageFwrite

/-- Frames written one after another. -/
def writeFrames (width height stride : Int32) :
    ImageStream → List (List UInt8) → Option ImageStream
  | fp, [] => some fp
  | fp, buffer :: buffers => do
    let r ← imageFileWriteOneFrame fp buffer width height stride
    writeFrames width height stride r.fp buffers

/-- Frames read one after another, each into its own buffer. -/
def readFrames (width height stride : Int32) :
    ImageStream → List (List UInt8) → Option (List (List UInt8) × ImageStream)
  | fp, [] => some ([], fp)
  | fp, buffer :: buffers => do
    let r ← imageFileReadOneFrame fp buffer width height stride
    let (buffers, fp) ← readFrames width height stride r.fp buffers
    return (r.buffer :: buffers, fp)

end GeneralPurposeLibrary
