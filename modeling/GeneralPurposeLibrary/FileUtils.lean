import Mathlib.Data.BitVec
import Mathlib.Logic.Function.Basic

/-!
# File helpers

`linux/utils/src/file_utils.c` over the stdio calls it makes. A file is the list of its
bytes. `permits` tells which files the process may open in which mode; the other calls
succeed. A read stores its bytes at the front of the buffer it is handed.
-/

namespace GeneralPurposeLibrary

inductive OpenMode where
  | rb
  | wb
  deriving DecidableEq, Repr

structure FileSystem where
  content : String → Option (List UInt8)
  permits : String → OpenMode → Bool

structure FileStream where
  path : String
  position : Nat

inductive Whence where
  | seekSet
  | seekEnd
  deriving DecidableEq, Repr

section Stdio

variable (fs : FileSystem)

/-- The content of an open file. -/
def FileSystem.bytes (path : String) : List UInt8 := (fs.content path).getD []

def fopen (path : String) (mode : OpenMode) : Option FileStream × FileSystem :=
  if fs.permits path mode then
    match mode with
    | .rb => ((fs.content path).map fun _ => ⟨path, 0⟩, fs)
    | .wb =>
      (some ⟨path, 0⟩, { fs with content := Function.update fs.content path (some []) })
  else (none, fs)

def fseek (fp : FileStream) (offset : Nat) : Whence → FileStream
  | .seekSet => { fp with position := offset }
  | .seekEnd => { fp with position := (fs.bytes fp.path).length + offset }

def ftell (fp : FileStream) : Nat := fp.position

/-- `fread(ptr, size, nmemb, fp)`: the bytes it stores at `ptr`. -/
def fread (fp : FileStream) (size nmemb : Nat) : List UInt8 :=
  ((fs.bytes fp.path).drop fp.position).take (size * nmemb)

def fwrite (fp : FileStream) (ptr : List UInt8) (size nmemb : Nat) : FileSystem :=
  let data := ptr.take (size * nmemb)
  let old := fs.bytes fp.path
  let new := old.take fp.position ++ data ++ old.drop (fp.position + data.length)
  { fs with content := Function.update fs.content fp.path (some new) }

end Stdio

/-- The conversion of an `int` argument to `size_t`. -/
def intToSize (len : Int32) : Nat := len.toInt64.toUInt64.toNat

/-- The conversion of the `long` that `ftell` returns to `int`. -/
def longToInt (position : Nat) : Int32 := Int32.ofNat position

/-- The value of a C comparison. -/
def truth (condition : Bool) : Int32 := if condition then 1 else 0

/-- `x ? : y`, whose value is that of its condition when this is not zero. -/
def omittedOperand (x y : Int32) : Int32 := if x ≠ 0 then x else y

def store (buffer bytes : List UInt8) : List UInt8 := bytes ++ buffer.drop bytes.length

def fileGetSize (fs : FileSystem) (fp : FileStream) : Int32 × FileStream :=
  let fp := fseek fs fp 0 .seekEnd
  let size := longToInt (ftell fp)
  let fp := fseek fs fp 0 .seekSet
  (size, fp)

def fileGetSizeByPath (fs : FileSystem) (filePath : String) : Int32 :=
  match (fopen fs filePath .rb).1 with
  | none => -1
  | some fp => (fileGetSize fs fp).1

def fileReadToBuffer (fs : FileSystem) (fileName : String) (buffer : List UInt8)
    (len : Int32) : Int × List UInt8 :=
  match (fopen fs fileName .rb).1 with
  | none => (-1, buffer)
  | some fp =>
    let fp := fseek fs fp 0 .seekEnd
    let size := longToInt (ftell fp)
    let fp := fseek fs fp 0 .seekSet
    let size := omittedOperand (truth (size < len)) len
    (0, store buffer (fread fs fp (intToSize size) 1))

def fileWriteFromBuffer (fs : FileSystem) (fileName : String) (buffer : List UInt8)
    (len : Int32) : Int × FileSystem :=
  match fopen fs fileName .wb with
  | (none, fs) => (-1, fs)
  | (some fp, fs) => (0, fwrite fs fp buffer (intToSize len) 1)

end GeneralPurposeLibrary
