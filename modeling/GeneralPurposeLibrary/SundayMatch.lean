import Mathlib.Data.Int.Notation
import Mathlib.Data.Nat.Notation

/-!
# Sunday string matching

`sunday_match` of `algorithm/SundayMatch.c`. A buffer is the list of the bytes that may be
read from it, `char` is signed and `int` has 32 bits and wraps around. An index outside an
array ends the run with a fault. The loop over the windows runs on fuel; the comparison
inside it returns after at most `pattern_len` equal characters and has fuel for one more.
-/

namespace GeneralPurposeLibrary

inductive SundayFault where
  | shiftBounds
  | srcBounds
  | patternBounds
  | fuel
  deriving DecidableEq, Repr

abbrev ShiftTable := Vector Int32 256

def readChar (fault : SundayFault) (buffer : List Int8) (index : Int32) :
    Except SundayFault Int8 :=
  if 0 ≤ index.toInt then
    match buffer[index.toInt.toNat]? with
    | some c => .ok c
    | none => .error fault
  else .error fault

/-- A `char` used as an index of `shift`. -/
def shiftIndex (c : Int8) : Except SundayFault (Fin 256) :=
  if h : 0 ≤ c.toInt ∧ c.toInt < 256 then .ok ⟨c.toInt.toNat, by omega⟩
  else .error .shiftBounds

/-- The table after the two loops that fill it: the default, then the letters of the
pattern. -/
def fillShift (pattern : List Int8) (patternLen : Int32) : Except SundayFault ShiftTable :=
  (List.range patternLen.toInt.toNat).foldlM
    (fun shift i => do
      let c ← readChar .patternBounds pattern (Int32.ofNat i)
      let a ← shiftIndex c
      return shift.setIfInBounds a (patternLen - Int32.ofNat i))
    (Vector.replicate 256 (patternLen + 1))

/-- The inner `while`: whether it returns from the function. -/
def matchFrom (src pattern : List Int8) (patternLen i : Int32) :
    ℕ → Int32 → Except SundayFault Bool
  | 0, _ => .error .fuel
  | fuel + 1, j => do
    let s ← readChar .srcBounds src (i + j)
    let p ← readChar .patternBounds pattern j
    if s = p then
      let j := j + 1
      if j ≥ patternLen then return true
      else matchFrom src pattern patternLen i fuel j
    else return false

def searchFrom (shift : ShiftTable) (src : List Int8) (srcLen : Int32) (pattern : List Int8)
    (patternLen : Int32) : ℕ → Int32 → Except SundayFault Int32
  | 0, _ => .error .fuel
  | fuel + 1, i =>
    if i ≤ srcLen - patternLen then do
      let found ← matchFrom src pattern patternLen i (patternLen.toInt.toNat + 1) 0
      if found then return i
      else
        let c ← readChar .srcBounds src (i + patternLen)
        let a ← shiftIndex c
        searchFrom shift src srcLen pattern patternLen fuel (i + shift.get a)
    else return -1

def sundayMatch (fuel : ℕ) (src : List Int8) (srcLen : Int32) (pattern : List Int8)
    (patternLen : Int32) : Except SundayFault Int32 := do
  let shift ← fillShift pattern patternLen
  searchFrom shift src srcLen pattern patternLen fuel 0

end GeneralPurposeLibrary
