import GeneralPurposeLibrary.Foundation.CString
import GeneralPurposeLibrary.Foundation.DecimalText
import GeneralPurposeLibrary.Foundation.LineChunks
import Mathlib.Algebra.Order.Ring.Int
import Mathlib.Data.List.Infix

/-!
# Processor times from `/proc/stat`

`cpus_refresh` of `cpu_usage.c`, which reads the file in pieces of at most 127 bytes and takes
the times of one processor, or of all of them together for the id -1. A conversion of `sscanf`
that fails leaves its variable and those behind it as they were. A word that does not fit in
`cpu` is stored behind it: such a run has no result.
-/

namespace GeneralPurposeLibrary
open CString DecimalText LineChunks

/-- The members of `cpus_info_t` that `cpus_refresh` uses, but for the file. -/
structure CpusInfo where
  id : Int32
  totalTime : Int64
  idleTime : Int64
  deriving DecidableEq, Repr

/-- The variables that `sscanf` fills: the string in `cpu`, and `user`, `nice`, `sys`, `idle`,
`iowait`, `irq` and `softirq` in this order. -/
structure StatVars where
  cpu : List UInt8
  times : List Int64
  deriving DecidableEq, Repr

def StatVars.total (vars : StatVars) : Int64 := vars.times.sum

def StatVars.idle (vars : StatVars) : Int64 := vars.times.getD 3 0

/-- A `long int` that `strtol` clamps to its range. -/
def clampLong (z : ℤ) : Int64 := Int64.ofInt (max (-2 ^ 63) (min (2 ^ 63 - 1) z))

/-- The conversions `%ld` one after the other, up to the first that fails. -/
def scanTimes : List Int64 → List UInt8 → List Int64
  | [], _ => []
  | old :: olds, s =>
    match scanInt s with
    | none => old :: olds
    | some (z, rest) => clampLong z :: scanTimes olds rest

/-- `sscanf(line, "%s%ld%ld%ld%ld%ld%ld%ld", cpu, &user, ...)` with `char cpu[32]`. -/
def sscanfStat (vars : StatVars) (line : List UInt8) : Option StatVars :=
  let s := skipSpace (text line)
  if s = [] then some vars
  else
    let word := s.takeWhile fun b => !isSpace b
    if word.length < 32 then some ⟨word, scanTimes vars.times (s.drop word.length)⟩
    else none

def atoi (s : List UInt8) : Int32 :=
  match scanInt s with
  | none => 0
  | some (z, _) => (clampLong z).toInt32

/-- The loop over the pieces that `fgets` delivers. -/
def refreshLoop (info : CpusInfo) : StatVars → List (List UInt8) → Option CpusInfo
  | _, [] => some info
  | vars, line :: lines =>
    match sscanfStat vars line with
    | none => none
    | some vars =>
      if ¬ ascii "cpu" <:+: vars.cpu then some info
      else if vars.cpu.getD 3 0 = 0 then
        if info.id ≠ -1 then refreshLoop info vars lines
        else some { info with totalTime := vars.total, idleTime := vars.idle }
      else if atoi (vars.cpu.drop 3) = info.id then
        some { info with totalTime := vars.total, idleTime := vars.idle }
      else refreshLoop info vars lines

def cpusRefresh (info : CpusInfo) (stat : List UInt8) : Option CpusInfo :=
  refreshLoop info ⟨[], List.replicate 7 0⟩ (chunks 10 126 stat)

end GeneralPurposeLibrary
