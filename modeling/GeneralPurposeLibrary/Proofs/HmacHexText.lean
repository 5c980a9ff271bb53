import GeneralPurposeLibrary.AlgoHmac

/-!
# The digest in hexadecimal

Each round of the loop stores two digits and a terminator, which the next round overwrites.
The terminator of the last round needs a place of its own, and a digest of the greatest
length leaves none.
-/

namespace GeneralPurposeLibrary.Proofs
open CString HexText

variable {output rest : List UInt8} {b : UInt8} {n : Nat}

lemma two_digits_each (done : List UInt8) : done.length * 2 = (hexText done).length := by
  rw [length_hexText, Nat.mul_comm]

lemma renderDigest_round {done : List UInt8} (hout : output[done.length]? = some b)
    (hroom : 2 < rest.length) :
    renderDigest output (n + 1) done.length (hexText done ++ rest) =
      renderDigest output n (done ++ [b]).length (hexText (done ++ [b]) ++ 0 :: rest.drop 3) := by
  have hpair : (hexPair b).length < rest.length := hroom
  rw [renderDigest, hout]
  simp only
  rw [formatHex_byte, two_digits_each, storeAt_append hpair, hexText_concat, List.length_append]
  rfl

lemma length_after_round (rest : List UInt8) (hroom : 2 < rest.length) :
    (0 :: rest.drop 3).length = rest.length - 2 := by
  rw [List.length_cons, List.length_drop]
  omega

lemma renderDigest_full {done : List UInt8} (hout : output[done.length]? = some b)
    (hroom : rest.length ≤ 2) :
    renderDigest output (n + 1) done.length (hexText done ++ rest) = .error .mdstrBounds := by
  have hpair : rest.length ≤ (hexPair b).length := hroom
  rw [renderDigest, hout]
  simp only
  rw [formatHex_byte, two_digits_each, storeAt_append_of_le hpair]

lemma getElem?_output {done bytes tail : List UInt8}
    (houtput : output = done ++ b :: bytes ++ tail) :
    output[done.length]? = some b := by
  rw [houtput, List.append_assoc, List.getElem?_append_right (Nat.le_refl _), Nat.sub_self]
  rfl

lemma exists_renderDigest (done rest : List UInt8) {bytes tail : List UInt8} (hbytes : bytes ≠ [])
    (houtput : output = done ++ bytes ++ tail) (hroom : 2 * bytes.length < rest.length) :
    ∃ rest', renderDigest output bytes.length done.length (hexText done ++ rest) =
      .ok (hexText (done ++ bytes) ++ 0 :: rest') := by
  induction bytes generalizing done rest with
  | nil => exact absurd rfl hbytes
  | cons b bytes ih =>
    rw [List.length_cons] at hroom ⊢
    rw [renderDigest_round (getElem?_output houtput) (by omega)]
    cases bytes with
    | nil => exact ⟨rest.drop 3, rfl⟩
    | cons c bytes =>
      have hlen := length_after_round rest (by omega)
      have hnext := ih (done ++ [b]) (0 :: rest.drop 3) (by simp)
        (by rw [houtput]; simp) (by omega)
      rwa [List.append_assoc, List.singleton_append] at hnext

/-- Without room for the last terminator the loop leaves the buffer. -/
lemma renderDigest_overflows (done rest : List UInt8) {bytes tail : List UInt8}
    (hbytes : bytes ≠ []) (houtput : output = done ++ bytes ++ tail)
    (hroom : rest.length ≤ 2 * bytes.length) :
    renderDigest output bytes.length done.length (hexText done ++ rest) =
      .error .mdstrBounds := by
  induction bytes generalizing done rest with
  | nil => exact absurd rfl hbytes
  | cons b bytes ih =>
    have hout := getElem?_output houtput
    rw [List.length_cons] at hroom ⊢
    by_cases hfull : rest.length ≤ 2
    · exact renderDigest_full hout hfull
    · have hlen := length_after_round rest (by omega)
      have hmore : bytes ≠ [] := by
        rintro rfl
        rw [List.length_nil] at hroom
        omega
      rw [renderDigest_round hout (by omega)]
      exact ih (done ++ [b]) _ hmore (by rw [houtput]; simp) (by omega)

/-- The call stores the string of two lower-case digits for each byte of the digest. -/
def RendersDigest (digest : List UInt8)
    (outcome : Except HmacFault (Int32 × Option (Option (List UInt8)))) : Prop :=
  ∃ mdstr, outcome = .ok (0, some (some mdstr)) ∧ mdstr.length = 2 * digest.length ∧
    (∀ c ∈ mdstr, (digitValue c).isSome) ∧ decodeHex mdstr = some digest

lemma rendersDigest_hexText (digest : List UInt8) :
    RendersDigest digest (.ok (0, some (some (hexText digest)))) :=
  ⟨hexText digest, rfl, length_hexText digest, fun _ hc => isSome_digitValue_of_mem hc,
    decodeHex_hexText digest⟩

section Call

variable {hmacFinal : EvpMd → List UInt8 → List UInt8 → List UInt8}
  {output : Vector UInt8 evpMaxMdSize} {mdstr : Vector UInt8 (evpMaxMdSize * 2)}
  {algo key input digest : List UInt8} {engine : EvpMd} {result : Option (List UInt8)}

lemma hmacEncode_eq (halgo : selectEngine algo = some engine)
    (hdigest : hmacFinal engine key input = digest) (hmax : digest.length ≤ evpMaxMdSize) :
    hmacEncode hmacFinal output mdstr (some ⟨some algo, some key, some input⟩) (some result) =
      (do
        let mdstr ← renderDigest (digest ++ output.toList.drop digest.length) digest.length 0
          mdstr.toList
        let copy ← strdup mdstr
        return (0, some (some copy))) := by
  have hstore : storeAt output.toList 0 digest =
      some (digest ++ output.toList.drop digest.length) := by
    rw [storeAt_of_le (by simpa using hmax), List.take_zero, List.nil_append, Nat.zero_add]
  rw [hmacEncode, halgo]
  simp only [hdigest, hstore]

lemma hmacEncode_of_lt (halgo : selectEngine algo = some engine)
    (hdigest : hmacFinal engine key input = digest) (hpos : 1 ≤ digest.length)
    (hlt : digest.length < evpMaxMdSize) :
    hmacEncode hmacFinal output mdstr (some ⟨some algo, some key, some input⟩) (some result) =
      .ok (0, some (some (hexText digest))) := by
  have hne : digest ≠ [] := List.ne_nil_of_length_pos hpos
  obtain ⟨rest, hloop⟩ : ∃ rest, renderDigest (digest ++ output.toList.drop digest.length)
      digest.length 0 mdstr.toList = .ok (hexText digest ++ 0 :: rest) :=
    exists_renderDigest [] mdstr.toList hne rfl
      (by rw [Vector.length_toList]; unfold evpMaxMdSize at *; omega)
  have hholds : Holds (hexText digest ++ 0 :: rest) (hexText digest) :=
    ⟨zero_notMem_hexText digest, rest, rfl⟩
  have hcopy : strdup (hexText digest ++ 0 :: rest) = .ok (hexText digest) := by
    rw [strdup, if_pos (by simp), hholds.text_eq]
  rw [hmacEncode_eq halgo hdigest (by omega), hloop]
  simp only [bind, Except.bind, hcopy]
  rfl

lemma hmacEncode_of_eq (halgo : selectEngine algo = some engine)
    (hdigest : hmacFinal engine key input = digest) (hmax : digest.length = evpMaxMdSize) :
    hmacEncode hmacFinal output mdstr (some ⟨some algo, some key, some input⟩) (some result) =
      .error .mdstrBounds := by
  have hne : digest ≠ [] := by
    rintro rfl
    cases hmax
  have hloop : renderDigest (digest ++ output.toList.drop digest.length) digest.length 0
      mdstr.toList = .error .mdstrBounds :=
    renderDigest_overflows [] mdstr.toList hne rfl (by rw [Vector.length_toList, hmax]; decide)
  rw [hmacEncode_eq halgo hdigest (Nat.le_of_eq hmax), hloop]
  rfl

end Call

/-- The digest is written inside `mdstr` and returned in hexadecimal exactly when it is shorter
than `EVP_MAX_MD_SIZE`: the longest one has no place for the last terminator. -/
theorem hmac_renders_digest_iff (hmacFinal : EvpMd → List UInt8 → List UInt8 → List UInt8)
    (output : Vector UInt8 evpMaxMdSize) (mdstr : Vector UInt8 (evpMaxMdSize * 2))
    (algo key input : List UInt8) (engine : EvpMd) (result : Option (List UInt8))
    (halgo : selectEngine algo = some engine)
    (hpos : 1 ≤ (hmacFinal engine key input).length)
    (hmax : (hmacFinal engine key input).length ≤ evpMaxMdSize) :
    RendersDigest (hmacFinal engine key input)
        (hmacEncode hmacFinal output mdstr (some ⟨some algo, some key, some input⟩)
          (some result)) ↔
      (hmacFinal engine key input).length < evpMaxMdSize := by
  constructor
  · rintro ⟨digits, hcall, -⟩
    by_contra hlong
    rw [hmacEncode_of_eq halgo rfl (by omega)] at hcall
    cases hcall
  · intro hlt
    rw [hmacEncode_of_lt halgo rfl hpos hlt]
    exact rendersDigest_hexText _

def quickKey : List UInt8 := "key".toList.map asciiByte

def quickInput : List UInt8 :=
  "The quick brown fox jumps over the lazy dog".toList.map asciiByte

/-- The HMAC-MD5 of the two strings. -/
def quickMd5 : List UInt8 :=
  [0x80, 0x07, 0x07, 0x13, 0x46, 0x3e, 0x77, 0x49, 0xb9, 0x0c, 0x2d, 0xc2, 0x49, 0x11, 0xe2, 0x75]

/-- The HMAC-SHA512 of the two strings. -/
def quickSha512 : List UInt8 :=
  [0xb4, 0x2a, 0xf0, 0x90, 0x57, 0xba, 0xc1, 0xe2, 0xd4, 0x17, 0x08, 0xe4, 0x8a, 0x90, 0x2e,
    0x09, 0xb5, 0xff, 0x7f, 0x12, 0xab, 0x42, 0x8a, 0x4f, 0xe8, 0x66, 0x53, 0xc7, 0x3d, 0xd2,
    0x48, 0xfb, 0x82, 0xf9, 0x48, 0xa5, 0x49, 0xf7, 0xb7, 0x91, 0xa5, 0xb4, 0x19, 0x15, 0xee,
    0x4d, 0x1e, 0xc3, 0x93, 0x53, 0x57, 0xe4, 0xe2, 0x31, 0x72, 0x50, 0xd0, 0x37, 0x2a, 0xfa,
    0x2e, 0xbe, 0xeb, 0x3a]

theorem md5_digest_rendered :
    RendersDigest quickMd5
      (hmacEncode (fun _ _ _ => quickMd5) (Vector.replicate _ 0) (Vector.replicate _ 0)
        (some ⟨some ("MD5".toList.map asciiByte), some quickKey, some quickInput⟩)
        (some none)) :=
  (hmac_renders_digest_iff (fun _ _ _ => quickMd5) (Vector.replicate _ 0) (Vector.replicate _ 0)
    ("MD5".toList.map asciiByte) quickKey quickInput .md5 none (by decide) (by decide)
    (by decide)).mpr (by decide)

/-- The terminator behind the 128 digits of a SHA-512 digest lies outside `mdstr`. -/
theorem sha512_digest_overflows :
    quickSha512.length = evpMaxMdSize ∧
    hmacEncode (fun _ _ _ => quickSha512) (Vector.replicate _ 0) (Vector.replicate _ 0)
        (some ⟨some ("sha512".toList.map asciiByte), some quickKey, some quickInput⟩)
        (some none) = .error .mdstrBounds ∧
    ¬ RendersDigest quickSha512
      (hmacEncode (fun _ _ _ => quickSha512) (Vector.replicate _ 0) (Vector.replicate _ 0)
        (some ⟨some ("sha512".toList.map asciiByte), some quickKey, some quickInput⟩)
        (some none)) := by
  have halgo : selectEngine ("sha512".toList.map asciiByte) = some .sha512 := by decide
  have hcall : hmacEncode (fun _ _ _ => quickSha512) (Vector.replicate _ 0)
      (Vector.replicate _ 0)
      (some ⟨some ("sha512".toList.map asciiByte), some quickKey, some quickInput⟩)
      (some none) = .error .mdstrBounds :=
    hmacEncode_of_eq halgo rfl (by decide)
  refine ⟨by decide, hcall, ?_⟩
  rintro ⟨digits, hok, -⟩
  rw [hcall] at hok
  cases hok

end GeneralPurposeLibrary.Proofs
