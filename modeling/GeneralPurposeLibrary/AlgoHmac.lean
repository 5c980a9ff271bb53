import GeneralPurposeLibrary.Foundation.CString
import GeneralPurposeLibrary.Foundation.HexText

/-!
# Hexadecimal message digests

`hmac_encode` of `algorithm/algo_hmac.c`. OpenSSL is a parameter: the digest that `HMAC_Final`
returns for an engine, a key and an input. The two blocks from `malloc` come with arbitrary
contents, and an access outside them ends the call with a fault. A pointer is an `Option`,
where `none` is the null pointer, and a string is the bytes in front of its terminator.
-/

namespace GeneralPurposeLibrary
open CString HexText

def evpMaxMdSize : Nat := 64

structure AlgoHmac where
  algo : Option (List UInt8)
  key : Option (List UInt8)
  input : Option (List UInt8)
  deriving DecidableEq, Repr

inductive EvpMd where
  | sha512
  | sha256
  | sha1
  | md5
  | sha224
  | sha384
  | sha
  deriving DecidableEq, Repr

inductive HmacFault where
  | outputBounds
  | mdstrBounds
  | mdstrUnterminated
  deriving DecidableEq, Repr

def toLowerByte (c : UInt8) : UInt8 := if 65 ≤ c ∧ c ≤ 90 then c + 32 else c

/-- `strcasecmp(s, t) == 0`. -/
def sameIgnoringCase (s t : List UInt8) : Bool := s.map toLowerByte = t.map toLowerByte

/-- The names in the order in which they are tried. -/
def hmacEngines : List (String × EvpMd) :=
  [("sha512", .sha512), ("sha256", .sha256), ("sha1", .sha1), ("md5", .md5),
    ("sha224", .sha224), ("sha384", .sha384), ("sha", .sha)]

def selectEngine (algo : List UInt8) : Option EvpMd :=
  (hmacEngines.find? fun e => sameIgnoringCase (e.1.toList.map asciiByte) algo).map Prod.snd

/-- The loop from index `i` on, with `n` rounds left: `sprintf(&mdstr[i*2], "%02x", ...)`. -/
def renderDigest (output : List UInt8) : Nat → Nat → List UInt8 → Except HmacFault (List UInt8)
  | 0, _, mdstr => .ok mdstr
  | n + 1, i, mdstr =>
    match output[i]? with
    | none => .error .outputBounds
    | some b =>
      match storeAt mdstr (i * 2) (formatHex b.toUInt32 ++ [0]) with
      | none => .error .mdstrBounds
      | some mdstr => renderDigest output n (i + 1) mdstr

/-- `strdup`, which reads up to the terminator. -/
def strdup (buffer : List UInt8) : Except HmacFault (List UInt8) :=
  if 0 ∈ buffer then .ok (text buffer) else .error .mdstrUnterminated

/-- The value returned and what `result` points to afterwards. -/
def hmacEncode (hmacFinal : EvpMd → List UInt8 → List UInt8 → List UInt8)
    (output : Vector UInt8 evpMaxMdSize) (mdstr : Vector UInt8 (evpMaxMdSize * 2))
    (hmac : Option AlgoHmac) (result : Option (Option (List UInt8))) :
    Except HmacFault (Int32 × Option (Option (List UInt8))) :=
  match hmac, result with
  | some ⟨some algo, some key, some input⟩, some _ =>
    match selectEngine algo with
    | none => .ok (-1, result)
    | some engine => do
      let digest := hmacFinal engine key input
      let outputLength := digest.length
      match storeAt output.toList 0 digest with
      | none => .error .outputBounds
      | some output =>
        let mdstr ← renderDigest output outputLength 0 mdstr.toList
        let copy ← strdup mdstr
        return (0, some (some copy))
  | _, _ => .ok (-1, result)

end GeneralPurposeLibrary
