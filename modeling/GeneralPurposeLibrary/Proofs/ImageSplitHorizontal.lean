import GeneralPurposeLibrary.Proofs.ImageSplitTiles
import Mathlib.Data.Set.Card
import Mathlib.Order.Interval.Finset.Nat

/-!
# Tiles of a row-major image

`split_multiple_image_horizontal_scan` starts the tiles of a split by width inside the first
row and those of a split by height a whole number of rows apart. The tiles partition the
image up to the lines that the alignment leaves over.
-/

namespace GeneralPurposeLibrary.Proofs
open StridedPlane

/-- The address of pixel `(x, y)` of a row-major image. -/
def rowPixel (image : SplitImage) (x y : ℕ) : UInt64 :=
  image.addr + UInt64.ofNat (place image.stride.toNat y x)

lemma rowPixel_inj {src : SplitImage} (hstride : src.width.toNat ≤ src.stride.toNat)
    (harea : src.stride.toNat * src.height.toNat < 2 ^ 32) {x y x' y' : ℕ}
    (hx : x < src.width.toNat) (hy : y < src.height.toNat) (hx' : x' < src.width.toNat)
    (hy' : y' < src.height.toNat) (h : rowPixel src x y = rowPixel src x' y') :
    x = x' ∧ y = y' :=
  (addr_place_inj hstride harea hy hx hy' hx' h).symm

lemma rowPixel_tile (src : SplitImage) (splitDir : SplitDir) (size offset : UInt32) (x y : ℕ) :
    rowPixel (src.tile splitDir size offset) x y =
      src.addr + UInt64.ofNat (offset.toNat + place src.stride.toNat y x) := by
  rw [rowPixel, tile_stride, tile_addr_add]

/-- The lines of the split dimension that belong to a tile. -/
def CoversLine (splitDir : SplitDir) (tiles : List SplitImage) (j : ℕ) : Prop :=
  ∃ i tile, tiles[i]? = some tile ∧ ∃ k < (tile.dimension splitDir).toNat,
    j = place (tile.dimension splitDir).toNat i k

section Tiles

variable {src : SplitImage} {num align : ℕ} {size : UInt32}

lemma showsSource_row_width (hsize : size.toNat = bandSize src.width.toNat num align) :
    ShowsSource rowPixel src .width (scanTiles horizontalOffset src .width num size) := by
  intro i tile htile x y hx hy
  obtain ⟨hi, rfl⟩ := getElem?_scanTiles htile
  have hband : i * size.toNat ≤ src.width.toNat := by
    rw [hsize]
    exact mul_bandSize_le_of_le _ _ hi.le
  have hoffset : (UInt32.ofNat i * size).toNat = i * size.toNat := by
    have hlt := src.width.toNat_lt
    rw [UInt32.toNat_mul, UInt32.toNat_ofNat', Nat.mod_mul_mod, Nat.mod_eq_of_lt (by omega)]
  rw [rowPixel_tile, horizontalOffset, hoffset, ← place_add_minor]
  rfl

lemma showsSource_row_height (harea : src.stride.toNat * src.height.toNat < 2 ^ 32)
    (hsize : size.toNat = bandSize src.height.toNat num align) :
    ShowsSource rowPixel src .height (scanTiles horizontalOffset src .height num size) := by
  intro i tile htile x y hx hy
  obtain ⟨hi, rfl⟩ := getElem?_scanTiles htile
  have hband : i * size.toNat ≤ src.height.toNat := by
    rw [hsize]
    exact mul_bandSize_le_of_le _ _ hi.le
  have hrows : i * src.stride.toNat * size.toNat = i * size.toNat * src.stride.toNat :=
    Nat.mul_right_comm _ _ _
  have hoffset : i * src.stride.toNat * size.toNat < 2 ^ 32 := by
    have hle := Nat.mul_le_mul_right src.stride.toNat hband
    rw [Nat.mul_comm src.height.toNat] at hle
    omega
  rw [rowPixel_tile, horizontalOffset, toNat_index_mul hoffset, hrows, ← place_add_major]
  rfl

lemma coversLine_scanTiles {splitDir : SplitDir} {j : ℕ} (hj : j < num * size.toNat) :
    CoversLine splitDir (scanTiles horizontalOffset src splitDir num size) j := by
  obtain ⟨i, k, hi, hk, rfl⟩ := exists_place hj
  refine ⟨i, src.tile splitDir size (horizontalOffset src splitDir (UInt32.ofNat i) size), ?_, k,
    ?_, ?_⟩
  · rw [scanTiles, List.getElem?_map, List.getElem?_range hi]
    rfl
  · rwa [tile_dimension]
  · rw [tile_dimension]

end Tiles

/-- The tiles have the largest aligned size, show the pixels of the image without overlap,
and leave fewer than `num * align` of its lines uncovered. -/
theorem split_horizontal_tiling (src : SplitImage) (dst : List SplitImage) (num : Int32)
    (splitDir : SplitDir) (align : Int32) (hnum : 1 ≤ num.toInt) (halign : 1 ≤ align.toInt)
    (hdst : num.toInt.toNat ≤ dst.length) (hstride : src.width.toNat ≤ src.stride.toNat)
    (harea : src.stride.toNat * src.height.toNat < 2 ^ 32) :
    ∃ tiles, tiles.length = num.toInt.toNat ∧
      splitMultipleImageHorizontalScan (some src) (some dst) num splitDir align =
        some (0, some (tiles ++ dst.drop num.toInt.toNat)) ∧
      (∀ tile ∈ tiles, IsGreatest
        {m | align.toInt.toNat ∣ m ∧ m ≤ (src.dimension splitDir).toNat / num.toInt.toNat}
        (tile.dimension splitDir).toNat) ∧
      PixelTiling rowPixel src splitDir tiles ∧
      {j | j < (src.dimension splitDir).toNat ∧ ¬ CoversLine splitDir tiles j}.ncard <
        num.toInt.toNat * align.toInt.toNat := by
  obtain ⟨size, hsize, hsplit⟩ :=
    splitMultipleImage_eq horizontalOffset src dst splitDir hnum halign hdst
  refine ⟨_, by simp [scanTiles], hsplit, ?_, ?_, ?_⟩
  · intro tile htile
    obtain ⟨i, hi⟩ := List.mem_iff_getElem?.mp htile
    obtain ⟨-, rfl⟩ := getElem?_scanTiles hi
    rw [tile_dimension, hsize]
    exact isGreatest_bandSize _ _ _
  · apply pixelTiling_of_showsSource
    · exact fun x y x' y' hx hy hx' hy' => rowPixel_inj hstride harea hx hy hx' hy'
    · cases splitDir with
      | width => exact showsSource_row_width hsize
      | height => exact showsSource_row_height harea hsize
    · exact scanTiles_apart horizontalOffset src splitDir hsize
  · have hnum' : 0 < num.toInt.toNat := by omega
    have halign' : 0 < align.toInt.toNat := by omega
    have hpos := Nat.mul_pos hnum' halign'
    have hleft := lt_mul_bandSize_add (src.dimension splitDir).toNat hnum' halign'
    rw [← hsize] at hleft
    have hsubset : {j | j < (src.dimension splitDir).toNat ∧ ¬ CoversLine splitDir
        (scanTiles horizontalOffset src splitDir num.toInt.toNat size) j} ⊆
        ↑(Finset.Ico (num.toInt.toNat * size.toNat) (src.dimension splitDir).toNat) := by
      rintro j ⟨hj, hout⟩
      rw [Finset.coe_Ico, Set.mem_Ico]
      refine ⟨?_, hj⟩
      by_contra hin
      exact hout (coversLine_scanTiles (by omega))
    have hcard := Set.ncard_le_ncard hsubset (Finset.finite_toSet _)
    rw [Set.ncard_coe_finset, Nat.card_Ico] at hcard
    omega

def wideImage : SplitImage := ⟨0x1000, 7, 2, 8⟩

/-- Seven columns are cut into three tiles of two columns each. -/
theorem wide_split_by_width :
    ∃ tiles,
      splitMultipleImageHorizontalScan (some wideImage)
          (some (List.replicate 3 ⟨0, 0, 0, 0⟩)) 3 .width 2 = some (0, some tiles) ∧
      tiles.length = 3 ∧ PixelTiling rowPixel wideImage .width tiles := by
  obtain ⟨tiles, hlength, hsplit, -, htiling, -⟩ := split_horizontal_tiling wideImage
    (List.replicate 3 ⟨0, 0, 0, 0⟩) 3 .width 2 (by decide) (by decide) (by decide) (by decide)
    (by decide)
  refine ⟨tiles, ?_, hlength, htiling⟩
  rw [hsplit]
  exact congrArg (fun l => some ((0 : Int), some l)) (List.append_nil tiles)

end GeneralPurposeLibrary.Proofs
