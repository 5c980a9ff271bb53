import Mathlib.Data.Nat.Notation

/-!
# Splitting an image into tiles

The two splitting routines of `linux/utils/src/image_split.c`. Sizes are `uint32_t`, so an
`int` operand next to one is converted and products wrap around; the offset of a tile is
widened only when it is added to the address. A pointer is an `Option`, where `none` is
the null pointer, and the image a pointer leads to is not one of the tiles written. The
result `none` is the trap of a division by zero.
-/

namespace GeneralPurposeLibrary

structure SplitImage where
  addr : UInt64
  width : UInt32
  height : UInt32
  stride : UInt32
  deriving DecidableEq, Repr

inductive SplitDir where
  | width
  | height
  deriving DecidableEq, Repr

/-- The dimension that is divided among the tiles. -/
def SplitImage.dimension (image : SplitImage) : SplitDir → UInt32
  | .width => image.width
  | .height => image.height

/-- The image with the divided dimension replaced and its first pixel moved. -/
def SplitImage.tile (src : SplitImage) (splitDir : SplitDir) (size offset : UInt32) :
    SplitImage :=
  match splitDir with
  | .width => ⟨src.addr + offset.toUInt64, size, src.height, src.stride⟩
  | .height => ⟨src.addr + offset.toUInt64, src.width, size, src.stride⟩

def tileSize (dimension : UInt32) (num align : Int32) : Option UInt32 :=
  if num = 0 ∨ align = 0 then none
  else some (((dimension / num.toUInt32) / align.toUInt32) * align.toUInt32)

/-- The loops `for (i = 0; i < num; i++)` that fill `dst`. -/
def writeTiles (num : Int32) (tile : UInt32 → SplitImage) (dst : List SplitImage) :
    List SplitImage :=
  (List.range num.toInt.toNat).foldl (fun dst i => dst.set i (tile (UInt32.ofNat i))) dst

/-- The common body of the two routines; `offset i size` is where tile `i` starts. -/
def splitMultipleImage (offset : SplitImage → SplitDir → UInt32 → UInt32 → UInt32)
    (src : Option SplitImage) (dst : Option (List SplitImage)) (num : Int32)
    (splitDir : SplitDir) (align : Int32) : Option (Int × Option (List SplitImage)) :=
  match src, dst with
  | some src, some dst => do
    let size ← tileSize (src.dimension splitDir) num align
    return (0, some (writeTiles num
      (fun i => src.tile splitDir size (offset src splitDir i size)) dst))
  | _, dst => some (-1, dst)

def horizontalOffset (src : SplitImage) (splitDir : SplitDir) (i size : UInt32) : UInt32 :=
  match splitDir with
  | .width => i * size
  | .height => i * src.stride * size

def verticalOffset (src : SplitImage) (splitDir : SplitDir) (i size : UInt32) : UInt32 :=
  match splitDir with
  | .width => i * size * src.stride
  | .height => i * src.width * size

def splitMultipleImageHorizontalScan (src : Option SplitImage) (dst : Option (List SplitImage))
    (num : Int32) (splitDir : SplitDir) (align : Int32) :
    Option (Int × Option (List SplitImage)) :=
  splitMultipleImage horizontalOffset src dst num splitDir align

def splitMultipleImageVerticalScan (src : Option SplitImage) (dst : Option (List SplitImage))
    (num : Int32) (splitDir : SplitDir) (align : Int32) :
    Option (Int × Option (List SplitImage)) :=
  splitMultipleImage verticalOffset src dst num splitDir align

end GeneralPurposeLibrary
