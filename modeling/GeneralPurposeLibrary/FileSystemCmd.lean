import GeneralPurposeLibrary.Foundation.CString
import GeneralPurposeLibrary.Foundation.FuelLoop
import GeneralPurposeLibrary.Foundation.LineChunks

/-!
# Running a command

`file_system_cmd` of `linux/utils/src/file_utils.c`. The command is what `popen` makes of it:
the bytes it prints, or nothing when it cannot be started. A store outside the caller's buffer
is a fault, and the sums of `int` wrap around.
-/

namespace GeneralPurposeLibrary
open CString LineChunks

inductive CmdFault where
  | bufBounds
  deriving DecidableEq, Repr

/-- The pointer that `file_system_cmd` returns. -/
inductive CmdPointer where
  | null
  | buf
  deriving DecidableEq, Repr

/-- `fgets` with a buffer of `limit + 2` bytes: the string it stores, and what is left of the
output. -/
def fgets (limit : Nat) (output : List UInt8) : Option (List UInt8 × List UInt8) :=
  match output with
  | [] => none
  | _ =>
    let len := chunkLength 10 (limit + 1) output
    some (output.take len ++ [0], output.drop len)

/-- A store at `buf + offset`. -/
def storeOffset (buf : List UInt8) (offset : Int32) (bytes : List UInt8) :
    Except CmdFault (List UInt8) :=
  if offset < 0 then .error .bufBounds
  else
    match storeAt buf offset.toInt.toNat bytes with
    | some buf => .ok buf
    | none => .error .bufBounds

structure CmdState where
  output : List UInt8
  offset : Int32
  buf : List UInt8

/-- One round of `while (fgets(tmp, sizeof(tmp), fp) != NULL)`. -/
def cmdRound (size : Int32) (s : CmdState) : CmdState ⊕ Except CmdFault (List UInt8) :=
  match fgets 254 s.output with
  | none => .inr (.ok s.buf)
  | some (tmp, output) =>
    let len := Int32.ofNat (strlen tmp)
    if s.offset + len ≥ size then .inr (storeOffset s.buf s.offset [0])
    else
      match storeOffset s.buf s.offset (text tmp ++ [0]) with
      | .error fault => .inr (.error fault)
      | .ok buf => .inl ⟨output, s.offset + len, buf⟩

/-- The pointer returned and the buffer left behind; none when the fuel ran out. -/
def fileSystemCmd (popen : String → Option (List UInt8)) (fuel : Nat) (cmd : String)
    (buf : List UInt8) (size : Int32) : Option (Except CmdFault (CmdPointer × List UInt8)) :=
  match popen cmd with
  | none => some (.ok (.null, buf))
  | some output =>
    (FuelLoop.run (cmdRound size) fuel ⟨output, 0, buf⟩).map fun result =>
      result.map fun buf => (.buf, buf)

end GeneralPurposeLibrary
