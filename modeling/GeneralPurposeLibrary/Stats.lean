import Mathlib.Data.BitVec

/-!
# Running statistics

The batched minimum, maximum and average of `linux/utils/src/stats.c`. The members of
`stats_t` have their C types, so additions and products wrap around, and an operation on a
signed and an unsigned operand is carried out in `uint64_t`. A `stats_t *` is an
`Option Stats`, where `none` is the null pointer.
-/

namespace GeneralPurposeLibrary

structure Stats where
  min : UInt64
  max : UInt64
  average : Int64
  nrSamples : Int32
  batch : UInt64
  nrBatch : Int32
  maxBatch : Int32
  deriving DecidableEq, Repr

/-- The conversion of an `int` operand to `uint64_t`. -/
def intToUint64 (value : Int32) : UInt64 := value.toInt64.toUInt64

def flushBatch (stats : Stats) : Stats :=
  if stats.nrBatch = 0 then stats
  else
    let average :=
      if stats.nrSamples = 0 then (stats.batch / intToUint64 stats.nrBatch).toInt64
      else
        (((stats.average * stats.nrSamples.toInt64).toUInt64 + stats.batch) /
          intToUint64 (stats.nrSamples + stats.nrBatch)).toInt64
    { stats with
      average := average
      nrSamples := stats.nrSamples + stats.nrBatch
      nrBatch := 0
      batch := 0 }

def statsInit : Option Stats → Int × Option Stats
  | none => (-1, none)
  | some _ =>
    (0, some
      { min := -1, max := 0, average := 0, nrSamples := 0, batch := 0, nrBatch := 0,
        maxBatch := 32 })

/-- The `MIN` and `MAX` lines of `stats_add`, both compared in `uint64_t`. -/
def updateExtremes (stats : Stats) (value : Int32) : Stats :=
  let value := intToUint64 value
  { stats with
    min := if stats.min > value then value else stats.min
    max := if stats.max < value then value else stats.max }

/-- The condition under which `stats_add` flushes the batch first. -/
def addFlushes (stats : Stats) (value : Int32) : Bool :=
  stats.batch + intToUint64 value < stats.batch || stats.nrBatch + 1 == stats.maxBatch

def statsAdd (stats : Option Stats) (value : Int32) : Int × Option Stats :=
  match stats with
  | none => (-1, none)
  | some stats =>
    let stats := updateExtremes stats value
    let stats := if addFlushes stats value then flushBatch stats else stats
    (0, some
      { stats with
        batch := stats.batch + intToUint64 value
        nrBatch := stats.nrBatch + 1 })

def statsSetMaxBatch (stats : Option Stats) (maxBatch : Int32) : Int × Option Stats :=
  match stats with
  | none => (-1, none)
  | some stats => (0, some { stats with maxBatch := maxBatch })

/-- The values `stats_print` hands to the log. -/
structure StatsLine where
  min : UInt64
  max : UInt64
  average : Int64
  nrSamples : Int32
  deriving DecidableEq, Repr

def statsPrint : Option Stats → Option StatsLine × Option Stats
  | none => (none, none)
  | some stats =>
    let stats := flushBatch stats
    (some ⟨stats.min, stats.max, stats.average, stats.nrSamples⟩, some stats)

inductive StatsCall where
  | add (value : Int32)
  | setMaxBatch (maxBatch : Int32)
  | print
  deriving DecidableEq, Repr

def StatsCall.apply (stats : Option Stats) : StatsCall → Option Stats
  | .add value => (statsAdd stats value).2
  | .setMaxBatch maxBatch => (statsSetMaxBatch stats maxBatch).2
  | .print => (statsPrint stats).2

def runStats (stats : Option Stats) (calls : List StatsCall) : Option Stats :=
  calls.foldl StatsCall.apply stats

end GeneralPurposeLibrary
