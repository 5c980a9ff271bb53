import GeneralPurposeLibrary.Proofs.ImageSplitTiles

/-!
# Tiles of a column-major image

`split_multiple_image_vertical_scan` starts the tiles of a split by width a whole number of
columns apart. For a split by height it multiplies by the width of the image, where the
offset inside a column has no such factor, so every tile but the first starts at a wrong
pixel unless the image has a single column.
-/

namespace GeneralPurposeLibrary.Proofs
open StridedPlane

/-- The address of pixel `(x, y)` of a column-major image. -/
def columnPixel (image : SplitImage) (x y : ℕ) : UInt64 :=
  image.addr + UInt64.ofNat (place image.stride.toNat x y)

lemma columnPixel_inj {src : SplitImage} (hstride : src.height.toNat ≤ src.stride.toNat)
    (harea : src.stride.toNat * src.width.toNat < 2 ^ 32) {x y x' y' : ℕ}
    (hx : x < src.width.toNat) (hy : y < src.height.toNat) (hx' : x' < src.width.toNat)
    (hy' : y' < src.height.toNat) (h : columnPixel src x y = columnPixel src x' y') :
    x = x' ∧ y = y' :=
  addr_place_inj hstride harea hx hy hx' hy' h

lemma columnPixel_tile (src : SplitImage) (splitDir : SplitDir) (size offset : UInt32)
    (x y : ℕ) :
    columnPixel (src.tile splitDir size offset) x y =
      src.addr + UInt64.ofNat (offset.toNat + place src.stride.toNat x y) := by
  rw [columnPixel, tile_stride, tile_addr_add]

section Tiles

variable {src : SplitImage} {num align : ℕ} {size : UInt32}

lemma showsSource_width (harea : src.stride.toNat * src.width.toNat < 2 ^ 32)
    (hsize : size.toNat = bandSize src.width.toNat num align) :
    ShowsSource columnPixel src .width (scanTiles verticalOffset src .width num size) := by
  intro i tile htile x y hx hy
  obtain ⟨hi, rfl⟩ := getElem?_scanTiles htile
  have hband : i * size.toNat ≤ src.width.toNat := by
    rw [hsize]
    exact mul_bandSize_le_of_le _ _ hi.le
  have hoffset : i * size.toNat * src.stride.toNat < 2 ^ 32 := by
    have hle := Nat.mul_le_mul_right src.stride.toNat hband
    rw [Nat.mul_comm src.width.toNat] at hle
    omega
  rw [columnPixel_tile, verticalOffset, toNat_index_mul hoffset, ← place_add_major]
  rfl

lemma showsSource_height (hsize : size.toNat = bandSize src.height.toNat num align)
    (hfactor : num = 1 ∨ src.width.toNat ≤ 1 ∨ size.toNat = 0) :
    ShowsSource columnPixel src .height (scanTiles verticalOffset src .height num size) := by
  intro i tile htile x y hx hy
  obtain ⟨hi, rfl⟩ := getElem?_scanTiles htile
  have hx' : x < src.width.toNat := hx
  have hy' : y < size.toNat := hy
  have hband : i * size.toNat ≤ src.height.toNat := by
    rw [hsize]
    exact mul_bandSize_le_of_le _ _ hi.le
  have hplain : i * src.width.toNat * size.toNat = i * size.toNat := by
    rcases hfactor with hone | hwidth | hzero
    · rw [show i = 0 by omega, Nat.zero_mul]
    · rw [show src.width.toNat = 1 by omega, Nat.mul_one]
    · omega
  have hlt := src.height.toNat_lt
  rw [columnPixel_tile, verticalOffset, toNat_index_mul (by omega), hplain, ← place_add_minor]
  rfl

/-- The first pixel of the second tile is already wrong. -/
lemma not_showsSource_height (hstride : src.height.toNat ≤ src.stride.toNat)
    (harea : src.stride.toNat * src.width.toNat < 2 ^ 32)
    (hsize : size.toNat = bandSize src.height.toNat num align) (hnum : 2 ≤ num)
    (hwidth : 2 ≤ src.width.toNat) (hpos : 0 < size.toNat) :
    ¬ ShowsSource columnPixel src .height (scanTiles verticalOffset src .height num size) := by
  intro hshows
  have hband : size.toNat ≤ src.height.toNat := by
    have hle := mul_bandSize_le src.height.toNat num align
    rw [← hsize] at hle
    have hone := Nat.le_mul_of_pos_left size.toNat (by omega : 0 < num)
    omega
  have hoffset : 1 * src.width.toNat * size.toNat < 2 ^ 32 := by
    rw [Nat.one_mul, Nat.mul_comm]
    exact lt_of_le_of_lt (Nat.mul_le_mul_right _ (by omega)) harea
  have htile : (scanTiles verticalOffset src .height num size)[1]? =
      some (src.tile .height size (UInt32.ofNat 1 * src.width * size)) := by
    rw [scanTiles, List.getElem?_map, List.getElem?_range (by omega)]
    rfl
  have hfirst : 0 < src.width.toNat := by omega
  have hpixel := hshows 1 _ htile 0 0 hfirst hpos
  have hsource : columnPixel src (sourcePixel .height
        (src.tile .height size (UInt32.ofNat 1 * src.width * size)) 1 0 0).1
        (sourcePixel .height (src.tile .height size (UInt32.ofNat 1 * src.width * size)) 1 0 0).2 =
      src.addr + UInt64.ofNat size.toNat := by
    simp [sourcePixel, place, SplitImage.tile, columnPixel]
  rw [hsource, columnPixel_tile, toNat_index_mul hoffset] at hpixel
  have hword := congrArg UInt64.toNat ((UInt64.add_right_inj _).mp hpixel)
  have hplace : place src.stride.toNat 0 0 = 0 := by simp [place]
  have hlt := size.toNat_lt
  rw [hplace, UInt64.toNat_ofNat', UInt64.toNat_ofNat', Nat.mod_eq_of_lt (by omega),
    Nat.mod_eq_of_lt (by omega), Nat.one_mul, Nat.add_zero] at hword
  have hdouble := Nat.mul_le_mul_right size.toNat hwidth
  omega

end Tiles

/-- The split by height is right exactly when there is one tile, at most one column, or no
aligned line for each tile; the split by width always is. -/
theorem split_vertical_tiling_iff (src : SplitImage) (dst : List SplitImage) (num : Int32)
    (splitDir : SplitDir) (align : Int32) (hnum : 1 ≤ num.toInt) (halign : 1 ≤ align.toInt)
    (hdst : num.toInt.toNat ≤ dst.length) (hstride : src.height.toNat ≤ src.stride.toNat)
    (harea : src.stride.toNat * src.width.toNat < 2 ^ 32) :
    ∃ tiles, tiles.length = num.toInt.toNat ∧
      splitMultipleImageVerticalScan (some src) (some dst) num splitDir align =
        some (0, some (tiles ++ dst.drop num.toInt.toNat)) ∧
      (PixelTiling columnPixel src splitDir tiles ↔
        splitDir = .width ∨ num.toInt = 1 ∨ src.width.toNat ≤ 1 ∨
          src.height.toNat < num.toInt.toNat * align.toInt.toNat) := by
  obtain ⟨size, hsize, hsplit⟩ :=
    splitMultipleImage_eq verticalOffset src dst splitDir hnum halign hdst
  refine ⟨_, by simp [scanTiles], hsplit, ?_⟩
  have htiling := fun hshows => pixelTiling_of_showsSource
    (fun x y x' y' hx hy hx' hy' => columnPixel_inj hstride harea hx hy hx' hy') hshows
    (scanTiles_apart verticalOffset src splitDir hsize)
  cases splitDir with
  | width =>
    have hsize' : size.toNat = bandSize src.width.toNat num.toInt.toNat align.toInt.toNat := hsize
    exact ⟨fun _ => .inl rfl, fun _ => htiling (showsSource_width harea hsize')⟩
  | height =>
    have hsize' : size.toNat = bandSize src.height.toNat num.toInt.toNat align.toInt.toNat :=
      hsize
    have hzero : size.toNat = 0 ↔ src.height.toNat < num.toInt.toNat * align.toInt.toNat := by
      rw [hsize', bandSize_eq_zero_iff (by omega) (by omega)]
    constructor
    · intro htiles
      by_contra hnone
      have hfail : ¬ num.toInt = 1 ∧ ¬ src.width.toNat ≤ 1 ∧ ¬ size.toNat = 0 := by
        rw [hzero]
        tauto
      exact not_showsSource_height hstride harea hsize' (by omega) (by omega) (by omega)
        htiles.shows
    · intro hcond
      apply htiling
      apply showsSource_height hsize'
      rw [hzero]
      rcases hcond with hdir | hone | hrest
      · cases hdir
      · exact .inl (by omega)
      · exact .inr hrest

def squareImage : SplitImage := ⟨0x1000, 2, 2, 2⟩

def unsetTiles : List SplitImage := List.replicate 2 ⟨0, 0, 0, 0⟩

theorem square_split_by_width :
    ∃ tiles, tiles.length = 2 ∧
      splitMultipleImageVerticalScan (some squareImage) (some unsetTiles) 2 .width 1 =
        some (0, some (tiles ++ unsetTiles.drop 2)) ∧
      PixelTiling columnPixel squareImage .width tiles := by
  obtain ⟨tiles, hlength, hsplit, hiff⟩ := split_vertical_tiling_iff squareImage unsetTiles 2
    .width 1 (by decide) (by decide) (by decide) (by decide) (by decide)
  exact ⟨tiles, hlength, hsplit, hiff.mpr (.inl rfl)⟩

/-- Of an image of two columns and two lines, the lower tile starts at the second column. -/
theorem square_split_by_height_wrong :
    ∃ tiles,
      splitMultipleImageVerticalScan (some squareImage) (some unsetTiles) 2 .height 1 =
        some (0, some tiles) ∧
      tiles[1]? = some ⟨0x1002, 2, 1, 2⟩ ∧ ¬ PixelTiling columnPixel squareImage .height tiles := by
  refine ⟨[⟨0x1000, 2, 1, 2⟩, ⟨0x1002, 2, 1, 2⟩], rfl, rfl, ?_⟩
  intro htiling
  have hpixel := htiling.shows 1 ⟨0x1002, 2, 1, 2⟩ rfl 0 0 (by decide) (by decide)
  exact absurd hpixel (by decide)

end GeneralPurposeLibrary.Proofs
