import GeneralPurposeLibrary.Foundation.HexText
import Mathlib.Data.Int.Notation
import Mathlib.Data.Nat.Notation

/-!
# Decimal text

Numbers as `%d` of `printf` writes them and as `strtol` reads them back: leading white space
is skipped, a sign is allowed, and the digits end at the first byte that is none. A text
without a digit is not converted.
-/

namespace DecimalText
open HexText

def ascii (s : String) : List UInt8 := s.toList.map asciiByte

def isDigit (b : UInt8) : Bool := decide (48 ≤ b.toNat ∧ b.toNat ≤ 57)

/-- The white space of `isspace`. -/
def isSpace (b : UInt8) : Bool := decide (b = 32 ∨ 9 ≤ b.toNat ∧ b.toNat ≤ 13)

def natText (n : ℕ) : List UInt8 := (Nat.toDigits 10 n).map asciiByte

def intText : ℤ → List UInt8
  | .ofNat n => natText n
  | .negSucc n => 45 :: natText (n + 1)

/-- The value of the digits in front, behind those already read, and what follows them. -/
def scanDigits : ℕ → List UInt8 → ℕ × List UInt8
  | value, [] => (value, [])
  | value, b :: rest =>
    if isDigit b then scanDigits (10 * value + (b.toNat - 48)) rest else (value, b :: rest)

def scanNat (s : List UInt8) : Option (ℕ × List UInt8) :=
  match s with
  | [] => none
  | b :: _ => if isDigit b then some (scanDigits 0 s) else none

def skipSpace (s : List UInt8) : List UInt8 := s.dropWhile isSpace

/-- The conversion of `strtol` with base 10, and what follows the number. -/
def scanInt (s : List UInt8) : Option (ℤ × List UInt8) :=
  match skipSpace s with
  | [] => none
  | b :: rest =>
    if b = 45 then (scanNat rest).map fun (n, rest) => (-(n : ℤ), rest)
    else if b = 43 then (scanNat rest).map fun (n, rest) => ((n : ℤ), rest)
    else (scanNat (b :: rest)).map fun (n, rest) => ((n : ℤ), rest)

lemma asciiByte_isDigit {c : Char} (hc : c.isDigit = true) :
    isDigit (asciiByte c) = true ∧ (asciiByte c).toNat - 48 = c.toNat - '0'.toNat := by
  have hbound : 48 ≤ c.toNat ∧ c.toNat ≤ 57 := by
    rw [Char.isDigit, Bool.and_eq_true, decide_eq_true_iff, decide_eq_true_iff] at hc
    exact hc
  have hnat : (asciiByte c).toNat = c.toNat := by
    rw [asciiByte, UInt8.toNat_ofNat']
    omega
  refine ⟨?_, ?_⟩
  · rw [isDigit, hnat]
    simpa using hbound
  · rw [hnat]
    rfl

lemma scanDigits_map (digits : List Char) (hdigits : ∀ c ∈ digits, c.isDigit = true)
    {rest : List UInt8} (hrest : ∀ b ∈ rest.head?, isDigit b = false) (value : ℕ) :
    scanDigits value (digits.map asciiByte ++ rest) =
      (Nat.ofDigitChars 10 digits value, rest) := by
  induction digits generalizing value with
  | nil =>
    rw [List.map_nil, List.nil_append, Nat.ofDigitChars_nil]
    cases rest with
    | nil => rfl
    | cons b rest =>
      have hb : isDigit b = false := hrest b rfl
      rw [scanDigits, hb]
      rfl
  | cons c digits ih =>
    obtain ⟨hdigit, hvalue⟩ := asciiByte_isDigit (hdigits c List.mem_cons_self)
    rw [List.map_cons, List.cons_append, scanDigits, if_pos hdigit,
      ih (fun d hd => hdigits d (List.mem_cons_of_mem c hd)), Nat.ofDigitChars_cons, hvalue]

lemma isDigit_of_mem_natText {n : ℕ} {b : UInt8} (hb : b ∈ natText n) : isDigit b = true := by
  obtain ⟨c, hc, rfl⟩ := List.mem_map.mp hb
  exact (asciiByte_isDigit (Nat.isDigit_of_mem_toDigits (by decide) (by decide) hc)).1

lemma natText_ne_nil (n : ℕ) : natText n ≠ [] := by
  intro h
  exact Nat.toDigits_ne_nil (List.map_eq_nil_iff.mp h)

lemma exists_natText_cons (n : ℕ) :
    ∃ b rest, natText n = b :: rest ∧ isDigit b = true := by
  cases hn : natText n with
  | nil => exact absurd hn (natText_ne_nil n)
  | cons b rest =>
    have hb : b ∈ natText n := by
      rw [hn]
      exact List.mem_cons_self
    exact ⟨b, rest, rfl, isDigit_of_mem_natText hb⟩

/-- A natural number is read back. -/
theorem scanNat_natText (n : ℕ) {rest : List UInt8}
    (hrest : ∀ b ∈ rest.head?, isDigit b = false) :
    scanNat (natText n ++ rest) = some (n, rest) := by
  obtain ⟨b, bs, hn, hb⟩ := exists_natText_cons n
  have hscan := scanDigits_map (Nat.toDigits 10 n)
    (fun c hc => Nat.isDigit_of_mem_toDigits (by decide) (by decide) hc) hrest 0
  have htext : natText n ++ rest = b :: (bs ++ rest) := by rw [hn, List.cons_append]
  rw [Nat.ofDigitChars_ten_toDigits, ← natText, htext] at hscan
  rw [htext, scanNat, if_pos hb, hscan]

lemma skipSpace_of_not_space {b : UInt8} (hb : isSpace b = false) (rest : List UInt8) :
    skipSpace (b :: rest) = b :: rest := by
  rw [skipSpace, List.dropWhile_cons_of_neg (by simp [hb])]

lemma not_isSpace_of_isDigit {b : UInt8} (hb : isDigit b = true) : isSpace b = false := by
  rw [isDigit, decide_eq_true_iff] at hb
  rw [isSpace, decide_eq_false_iff_not]
  rintro (rfl | h)
  · exact absurd hb.1 (by decide)
  · omega

/-- An integer is read back, white space in front of it skipped. -/
theorem scanInt_intText (z : ℤ) {space rest : List UInt8}
    (hspace : ∀ b ∈ space, isSpace b = true)
    (hrest : ∀ b ∈ rest.head?, isDigit b = false) :
    scanInt (space ++ (intText z ++ rest)) = some (z, rest) := by
  have hskip : ∀ (b : UInt8) (tail : List UInt8), isSpace b = false →
      skipSpace (space ++ b :: tail) = b :: tail := by
    intro b tail hb
    rw [skipSpace, List.dropWhile_append_of_pos hspace]
    exact skipSpace_of_not_space hb tail
  cases z with
  | ofNat n =>
    obtain ⟨b, bs, hn, hb⟩ := exists_natText_cons n
    have hread := scanNat_natText n hrest
    rw [hn, List.cons_append] at hread
    have hminus : b ≠ 45 := by
      rintro rfl
      exact absurd hb (by decide)
    have hplus : b ≠ 43 := by
      rintro rfl
      exact absurd hb (by decide)
    rw [intText, hn, List.cons_append, scanInt, hskip b _ (not_isSpace_of_isDigit hb)]
    dsimp only
    rw [if_neg hminus, if_neg hplus, hread]
    rfl
  | negSucc n =>
    rw [intText, List.cons_append, scanInt, hskip 45 _ (by decide)]
    dsimp only
    rw [if_pos rfl, scanNat_natText (n + 1) hrest]
    rfl

end DecimalText
