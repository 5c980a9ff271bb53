import GeneralPurposeLibrary.MmapFile
import Mathlib.Algebra.Group.Nat.Defs
import Mathlib.Data.List.Basic

/-!
# The length of a mapped file

`mmapfile` keeps the length of the file in an `int`. A length from `2 ^ 31` on may come out as
a huge number, so that the file is not extended, or as a small one, so that it is cut.
-/

namespace GeneralPurposeLibrary.Proofs

lemma toNat_int_length (n : ℕ) :
    (Int32.ofNat n).toInt64.toUInt64.toNat =
      if n % 2 ^ 32 < 2 ^ 31 then n % 2 ^ 32 else 2 ^ 64 - 2 ^ 32 + n % 2 ^ 32 := by
  have hsign : (Int32.ofNat n).toInt64.toUInt64.toNat =
      ((BitVec.ofNat 32 n).signExtend 64).toNat := rfl
  rw [hsign, BitVec.toNat_signExtend, BitVec.msb_eq_decide]
  simp only [BitVec.toNat_setWidth, BitVec.toNat_ofNat]
  split <;> split <;> simp_all <;> omega

lemma lenBelow_iff (n : ℕ) {size : UInt64} (hsize : size.toNat < 2 ^ 63) :
    lenBelow (Int32.ofNat n) size = true ↔ n % 2 ^ 32 < 2 ^ 31 ∧ n % 2 ^ 32 < size.toNat := by
  rw [lenBelow, decide_eq_true_iff, UInt64.lt_iff_toNat_lt, toNat_int_length]
  split <;> omega

lemma length_ftruncate (contents : List UInt8) (size : ℕ) :
    (ftruncate contents size).length = size := by
  simp [ftruncate]
  omega

lemma ftruncate_prefix_iff (contents : List UInt8) (size : ℕ) :
    contents <+: ftruncate contents size ↔ contents.length ≤ size := by
  constructor
  · intro h
    have hle := h.length_le
    rwa [length_ftruncate] at hle
  · intro h
    rw [ftruncate, List.take_of_length_le h]
    exact List.prefix_append _ _

section Contents

variable {Inode : Type} [DecidableEq Inode] (s : MmapFiles Inode) (file : Inode)

@[simp] lemma contents_setContents_self (contents : List UInt8) :
    (s.setContents file contents).contents file = contents := by
  simp [MmapFiles.setContents, MmapFiles.contents]

@[simp] lemma contents_create : (s.create file).contents = s.contents := by
  funext other
  by_cases h : other = file
  · rw [h, MmapFiles.create, contents_setContents_self]
  · simp [MmapFiles.create, MmapFiles.setContents, MmapFiles.contents, Function.update_of_ne h]

lemma contents_extend (len : Int32) (size : UInt64) :
    (s.extend file len size true).contents file =
      if lenBelow len size then ftruncate (s.contents file) size.toNat else s.contents file := by
  unfold MmapFiles.extend
  rw [Bool.and_true]
  split
  · rw [contents_setContents_self]
  · rfl

end Contents

lemma checkedPath_eq {fn : List UInt8} {size : UInt64} (hfn : fn.length ≤ pathMax)
    (hsize : size ≠ 0) : checkedPath (some fn) size = some fn := by
  rw [checkedPath, if_neg (Nat.not_lt.mpr hfn), if_neg hsize]

lemma exists_mmapfile {Inode : Type} [DecidableEq Inode] (s : MmapFiles Inode)
    (inode : List UInt8 → Inode) {fn : List UInt8} (hfn : fn.length ≤ pathMax) {size : UInt64}
    (hpos : size ≠ 0) :
    ∃ s', mmapfile s inode (some fn) size ⟨true, true, true⟩ = (.mapped, s') ∧
      s'.contents (inode fn) =
        if lenBelow (s.lseekEnd (inode fn)) size then ftruncate (s.contents (inode fn)) size.toNat
        else s.contents (inode fn) := by
  refine ⟨((s.create (inode fn)).extend (inode fn) (s.lseekEnd (inode fn)) size true).map
    (inode fn) size, ?_, ?_⟩
  · rw [mmapfile, checkedPath_eq hfn hpos]
    simp only [Bool.not_true, Bool.false_eq_true, if_false, MmapFiles.lseekEnd, contents_create]
  · rw [← contents_create s (inode fn), ← contents_extend]
    rfl

/-- What the caller of `mmapfile` relies on when the system calls succeed: the whole mapping is
backed by the file, and what was in the file is still there. -/
def MapsSafely {Inode : Type} [DecidableEq Inode] (s : MmapFiles Inode)
    (inode : List UInt8 → Inode) (fn : List UInt8) (size : UInt64) : Prop :=
  ∃ s', mmapfile s inode (some fn) size ⟨true, true, true⟩ = (.mapped, s') ∧
    size.toNat ≤ (s'.contents (inode fn)).length ∧
    s.contents (inode fn) <+: s'.contents (inode fn)

/-- When its system calls succeed, `mmapfile` maps a file that backs the mapping and has kept
its contents exactly if the length is seen on the side of the size where it is: a shorter file
must not come out negative, and a longer one must come out negative or still as long. -/
theorem mapsSafely_iff {Inode : Type} [DecidableEq Inode] (s : MmapFiles Inode)
    (inode : List UInt8 → Inode) (fn : List UInt8) (hfn : fn.length ≤ pathMax) (size : UInt64)
    (hpos : size ≠ 0) (hsize : size.toNat < 2 ^ 63) (length : ℕ)
    (hlength : (s.contents (inode fn)).length = length) :
    MapsSafely s inode fn size ↔
      (length < size.toNat → length % 2 ^ 32 < 2 ^ 31) ∧
        (size.toNat < length → 2 ^ 31 ≤ length % 2 ^ 32 ∨ size.toNat ≤ length % 2 ^ 32) := by
  obtain ⟨s', hcall, hcontents⟩ := exists_mmapfile s inode hfn hpos
  rw [MmapFiles.lseekEnd, hlength] at hcontents
  have hsafe : MapsSafely s inode fn size ↔ size.toNat ≤ (s'.contents (inode fn)).length ∧
      s.contents (inode fn) <+: s'.contents (inode fn) := by
    constructor
    · rintro ⟨s'', hs'', hbacked⟩
      rw [hcall] at hs''
      cases hs''
      exact hbacked
    · exact fun hbacked => ⟨s', hcall, hbacked⟩
  have hbelow := lenBelow_iff length hsize
  have hmod : length % 2 ^ 32 ≤ length := Nat.mod_le _ _
  rw [hsafe, hcontents]
  by_cases hlen : lenBelow (Int32.ofNat length) size = true
  · have hlow := hbelow.mp hlen
    rw [if_pos hlen, length_ftruncate, ftruncate_prefix_iff, hlength]
    constructor
    · rintro ⟨_, hle⟩
      omega
    · rintro ⟨_, hlong⟩
      omega
  · have hhigh : ¬(length % 2 ^ 32 < 2 ^ 31 ∧ length % 2 ^ 32 < size.toNat) :=
      fun h => hlen (hbelow.mpr h)
    rw [if_neg hlen, hlength]
    constructor
    · rintro ⟨hle, _⟩
      omega
    · rintro ⟨hshort, _⟩
      refine ⟨?_, List.prefix_rfl⟩
      omega

def longFile : MmapFiles (List UInt8) := ⟨fun _ => some (List.replicate (2 ^ 32 + 100) 1), []⟩

/-- A file of a little over four gigabytes is cut to one page. -/
theorem mmapfile_cuts_long_file : ¬MapsSafely longFile id [47, 109] 4096 := by
  have hlength : (longFile.contents (id [47, 109])).length = 2 ^ 32 + 100 :=
    List.length_replicate
  rw [mapsSafely_iff _ _ _ (by decide) _ (by decide) (by decide) _ hlength]
  decide

end GeneralPurposeLibrary.Proofs
