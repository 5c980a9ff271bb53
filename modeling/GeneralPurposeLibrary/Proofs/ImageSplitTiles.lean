import GeneralPurposeLibrary.ImageSplit
import GeneralPurposeLibrary.Foundation.StridedPlane
import Mathlib.Data.BitVec
import Mathlib.Data.Set.BooleanAlgebra
import Mathlib.Order.CompletePartialOrder

/-!
# Tiles of an image

What the two splitting routines have in common: the sizes and the tiles they write, and
what it means that tiles show the pixels of the image they were cut from, for any layout
that gives each pixel an address.
-/

namespace GeneralPurposeLibrary.Proofs
open StridedPlane

/-! ### The loop and the sizes -/

lemma foldl_set_range (tile : UInt32 → SplitImage) (dst : List SplitImage) (n : ℕ)
    (hn : n ≤ dst.length) :
    (List.range n).foldl (fun dst i => dst.set i (tile (UInt32.ofNat i))) dst =
      (List.range n).map (fun i => tile (UInt32.ofNat i)) ++ dst.drop n := by
  induction n with
  | zero => simp
  | succ n ih =>
    have hlast : dst.drop n = dst[n] :: dst.drop (n + 1) := List.drop_eq_getElem_cons hn
    rw [List.range_succ, List.foldl_append, ih (by omega), List.foldl_cons, List.foldl_nil,
      List.set_append_right _ _ (by simp), hlast, List.map_append]
    simp only [List.length_map, List.length_range, Nat.sub_self, List.set_cons_zero,
      List.map_cons, List.map_nil, List.append_assoc, List.cons_append, List.nil_append]

lemma writeTiles_eq {num : Int32} (tile : UInt32 → SplitImage) {dst : List SplitImage}
    (hdst : num.toInt.toNat ≤ dst.length) :
    writeTiles num tile dst =
      (List.range num.toInt.toNat).map (fun i => tile (UInt32.ofNat i)) ++
        dst.drop num.toInt.toNat :=
  foldl_set_range tile dst _ hdst

lemma toNat_toUInt32 {x : Int32} (h : 0 ≤ x.toInt) : x.toUInt32.toNat = x.toInt.toNat := by
  have hint : x.toInt = x.toBitVec.toInt := rfl
  have hnat : x.toUInt32.toNat = x.toBitVec.toNat := rfl
  have hlt := x.toBitVec.isLt
  rw [hint, BitVec.toInt_eq_toNat_cond] at h
  rw [hnat, hint, BitVec.toInt_eq_toNat_cond]
  split at h <;> rename_i hsmall
  · rw [if_pos hsmall, Int.toNat_natCast]
  · omega

lemma tileSize_eq (dimension : UInt32) {num align : Int32} (hnum : 1 ≤ num.toInt)
    (halign : 1 ≤ align.toInt) :
    ∃ size, tileSize dimension num align = some size ∧
      size.toNat = bandSize dimension.toNat num.toInt.toNat align.toInt.toNat := by
  have hne : ¬ (num = 0 ∨ align = 0) := by
    rintro (rfl | rfl)
    · exact absurd hnum (by decide)
    · exact absurd halign (by decide)
  refine ⟨_, if_neg hne, ?_⟩
  have hle : dimension.toNat / num.toInt.toNat / align.toInt.toNat * align.toInt.toNat ≤
      dimension.toNat :=
    (Nat.div_mul_le_self _ _).trans (Nat.div_le_self _ _)
  have hlt := dimension.toNat_lt
  have hnum' : num.toUInt32.toNat = num.toInt.toNat := toNat_toUInt32 (by omega)
  have halign' : align.toUInt32.toNat = align.toInt.toNat := toNat_toUInt32 (by omega)
  rw [UInt32.toNat_mul, UInt32.toNat_div, UInt32.toNat_div, hnum', halign',
    Nat.mod_eq_of_lt (by omega)]
  rfl

/-- The tiles that a split writes, `offset` as in the routine. -/
def scanTiles (offset : SplitImage → SplitDir → UInt32 → UInt32 → UInt32) (src : SplitImage)
    (splitDir : SplitDir) (num : ℕ) (size : UInt32) : List SplitImage :=
  (List.range num).map fun i =>
    src.tile splitDir size (offset src splitDir (UInt32.ofNat i) size)

lemma splitMultipleImage_eq (offset : SplitImage → SplitDir → UInt32 → UInt32 → UInt32)
    (src : SplitImage) (dst : List SplitImage) {num align : Int32} (splitDir : SplitDir)
    (hnum : 1 ≤ num.toInt) (halign : 1 ≤ align.toInt) (hdst : num.toInt.toNat ≤ dst.length) :
    ∃ size, size.toNat =
        bandSize (src.dimension splitDir).toNat num.toInt.toNat align.toInt.toNat ∧
      splitMultipleImage offset (some src) (some dst) num splitDir align =
        some (0, some (scanTiles offset src splitDir num.toInt.toNat size ++
          dst.drop num.toInt.toNat)) := by
  obtain ⟨size, hsize, hband⟩ := tileSize_eq (src.dimension splitDir) hnum halign
  refine ⟨size, hband, ?_⟩
  unfold splitMultipleImage
  simp only [hsize, Option.bind_eq_bind, Option.bind_some, Option.pure_def]
  rw [writeTiles_eq _ hdst]
  rfl

lemma getElem?_scanTiles {offset : SplitImage → SplitDir → UInt32 → UInt32 → UInt32}
    {src : SplitImage} {splitDir : SplitDir} {num : ℕ} {size : UInt32} {i : ℕ}
    {tile : SplitImage} (h : (scanTiles offset src splitDir num size)[i]? = some tile) :
    i < num ∧ tile = src.tile splitDir size (offset src splitDir (UInt32.ofNat i) size) := by
  unfold scanTiles at h
  rw [List.getElem?_map] at h
  by_cases hi : i < num
  · rw [List.getElem?_range hi] at h
    exact ⟨hi, (Option.some.inj h).symm⟩
  · rw [List.getElem?_eq_none (by simpa using hi)] at h
    cases h

lemma toNat_index_mul {i : ℕ} {a b : UInt32} (h : i * a.toNat * b.toNat < 2 ^ 32) :
    (UInt32.ofNat i * a * b).toNat = i * a.toNat * b.toNat := by
  rw [UInt32.toNat_mul, UInt32.toNat_mul, UInt32.toNat_ofNat', Nat.mod_mul_mod, Nat.mul_assoc,
    Nat.mod_mul_mod, ← Nat.mul_assoc, Nat.mod_eq_of_lt h]

/-! ### Pixels -/

lemma addr_place_inj {addr : UInt64} {stride majors minors : ℕ} (hstride : minors ≤ stride)
    (harea : stride * majors < 2 ^ 32) {major minor major' minor' : ℕ} (hmajor : major < majors)
    (hminor : minor < minors) (hmajor' : major' < majors) (hminor' : minor' < minors)
    (h : addr + UInt64.ofNat (place stride major minor) =
      addr + UInt64.ofNat (place stride major' minor')) : major = major' ∧ minor = minor' := by
  have hplace := place_lt hmajor (lt_of_lt_of_le hminor hstride)
  have hplace' := place_lt hmajor' (lt_of_lt_of_le hminor' hstride)
  rw [Nat.mul_comm] at hplace hplace'
  have hword := congrArg UInt64.toNat ((UInt64.add_right_inj _).mp h)
  rw [UInt64.toNat_ofNat', UInt64.toNat_ofNat', Nat.mod_eq_of_lt (by omega),
    Nat.mod_eq_of_lt (by omega)] at hword
  exact place_inj (by omega) (by omega) hword

lemma tile_addr_add (src : SplitImage) (splitDir : SplitDir) (size offset : UInt32) (n : ℕ) :
    (src.tile splitDir size offset).addr + UInt64.ofNat n =
      src.addr + UInt64.ofNat (offset.toNat + n) := by
  have hoffset : offset.toUInt64 = UInt64.ofNat offset.toNat := by simp
  rw [UInt64.ofNat_add, ← hoffset]
  cases splitDir with
  | width => exact UInt64.add_assoc _ _ _
  | height => exact UInt64.add_assoc _ _ _

lemma tile_dimension (src : SplitImage) (splitDir : SplitDir) (size offset : UInt32) :
    (src.tile splitDir size offset).dimension splitDir = size := by
  cases splitDir <;> rfl

lemma tile_stride (src : SplitImage) (splitDir : SplitDir) (size offset : UInt32) :
    (src.tile splitDir size offset).stride = src.stride := by
  cases splitDir <;> rfl

/-- The pixel of the source that pixel `(x, y)` of tile `i` should be. -/
def sourcePixel (splitDir : SplitDir) (tile : SplitImage) (i x y : ℕ) : ℕ × ℕ :=
  match splitDir with
  | .width => (place tile.width.toNat i x, y)
  | .height => (x, place tile.height.toNat i y)

section Tiling

variable (pixel : SplitImage → ℕ → ℕ → UInt64)

/-- The addresses of the pixels of an image. -/
def pixels (image : SplitImage) : Set UInt64 :=
  {a | ∃ x y, x < image.width.toNat ∧ y < image.height.toNat ∧ a = pixel image x y}

/-- Every pixel of every tile is the pixel of the source that it stands for. -/
def ShowsSource (src : SplitImage) (splitDir : SplitDir) (tiles : List SplitImage) : Prop :=
  ∀ (i : ℕ) tile, tiles[i]? = some tile →
    ∀ x y, x < tile.width.toNat → y < tile.height.toNat →
      pixel tile x y =
        pixel src (sourcePixel splitDir tile i x y).1 (sourcePixel splitDir tile i x y).2

/-- The tiles show the source, do not overlap and do not leave it. -/
structure PixelTiling (src : SplitImage) (splitDir : SplitDir) (tiles : List SplitImage) :
    Prop where
  shows : ShowsSource pixel src splitDir tiles
  disjoint : ∀ (i j : ℕ) tile tile', tiles[i]? = some tile → tiles[j]? = some tile' → i ≠ j →
    Disjoint (pixels pixel tile) (pixels pixel tile')
  inside : ∀ tile ∈ tiles, pixels pixel tile ⊆ pixels pixel src

/-- Pixels of different tiles stand for different pixels of the source, all inside it. -/
structure TilesApart (src : SplitImage) (splitDir : SplitDir) (tiles : List SplitImage) :
    Prop where
  range : ∀ (i : ℕ) tile, tiles[i]? = some tile →
    ∀ x y, x < tile.width.toNat → y < tile.height.toNat →
      (sourcePixel splitDir tile i x y).1 < src.width.toNat ∧
        (sourcePixel splitDir tile i x y).2 < src.height.toNat
  apart : ∀ (i j : ℕ) tile tile', tiles[i]? = some tile → tiles[j]? = some tile' →
    ∀ x y x' y', x < tile.width.toNat → y < tile.height.toNat → x' < tile'.width.toNat →
      y' < tile'.height.toNat →
      sourcePixel splitDir tile i x y = sourcePixel splitDir tile' j x' y' → i = j

variable {pixel}

lemma pixelTiling_of_showsSource {src : SplitImage} {splitDir : SplitDir}
    {tiles : List SplitImage}
    (hinj : ∀ x y x' y', x < src.width.toNat → y < src.height.toNat → x' < src.width.toNat →
      y' < src.height.toNat → pixel src x y = pixel src x' y' → x = x' ∧ y = y')
    (hshows : ShowsSource pixel src splitDir tiles) (hapart : TilesApart src splitDir tiles) :
    PixelTiling pixel src splitDir tiles := by
  constructor
  case shows => exact hshows
  case disjoint =>
    intro i j tile tile' hi hj hne
    rw [Set.disjoint_left]
    rintro a ⟨x, y, hx, hy, ha⟩ ⟨x', y', hx', hy', ha'⟩
    have hsrc := hapart.range i tile hi x y hx hy
    have hsrc' := hapart.range j tile' hj x' y' hx' hy'
    rw [ha, hshows i tile hi x y hx hy, hshows j tile' hj x' y' hx' hy'] at ha'
    obtain ⟨h1, h2⟩ := hinj _ _ _ _ hsrc.1 hsrc.2 hsrc'.1 hsrc'.2 ha'
    exact hne (hapart.apart i j tile tile' hi hj x y x' y' hx hy hx' hy' (Prod.ext h1 h2))
  case inside =>
    intro tile htile
    obtain ⟨i, hi⟩ := List.mem_iff_getElem?.mp htile
    rintro a ⟨x, y, hx, hy, ha⟩
    obtain ⟨hx', hy'⟩ := hapart.range i tile hi x y hx hy
    exact ⟨_, _, hx', hy', ha.trans (hshows i tile hi x y hx hy)⟩

end Tiling

lemma scanTiles_apart (offset : SplitImage → SplitDir → UInt32 → UInt32 → UInt32)
    (src : SplitImage) (splitDir : SplitDir) {num align : ℕ} {size : UInt32}
    (hsize : size.toNat = bandSize (src.dimension splitDir).toNat num align) :
    TilesApart src splitDir (scanTiles offset src splitDir num size) := by
  constructor
  case range =>
    intro i tile htile x y hx hy
    obtain ⟨hi, rfl⟩ := getElem?_scanTiles htile
    cases splitDir with
    | width =>
      have hx' : x < size.toNat := hx
      refine ⟨?_, hy⟩
      change place size.toNat i x < src.width.toNat
      rw [hsize] at hx' ⊢
      exact place_bandSize_lt hi hx'
    | height =>
      have hy' : y < size.toNat := hy
      refine ⟨hx, ?_⟩
      change place size.toNat i y < src.height.toNat
      rw [hsize] at hy' ⊢
      exact place_bandSize_lt hi hy'
  case apart =>
    intro i j tile tile' hi hj x y x' y' hx hy hx' hy' hsame
    obtain ⟨-, rfl⟩ := getElem?_scanTiles hi
    obtain ⟨-, rfl⟩ := getElem?_scanTiles hj
    cases splitDir with
    | width => exact (place_inj hx hx' (Prod.ext_iff.mp hsame).1).1
    | height => exact (place_inj hy hy' (Prod.ext_iff.mp hsame).2).1

end GeneralPurposeLibrary.Proofs
