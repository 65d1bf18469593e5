import SlideDeck.Binary64.Rounding
import SlideDeck.Cascade.Resolved
import SlideDeck.Text.Bytes

/-! # Extents of text

How much space a text takes.  A renderer that knows its fonts installs a
`Measurer`; without one, every code point has the same advance and every line
the same height. -/

namespace SlideDeck

/-- A width and a height in pixels. -/
structure Size where
  width : Int
  height : Int
deriving DecidableEq, Inhabited

/-- The extent of a text at a font size. -/
abbrev Measurer := Bytes → Binary64 → Size

/-! ## Pixels -/

/-- A number of pixels brought into the range from zero to `pixelCap`. -/
def clampPixels (n : Int) : Int :=
  max 0 (min n pixelCap)

namespace Binary64

/-- The whole pixels in a number, in the range from zero to `pixelCap`. -/
def floorPixels (v : Binary64) : Int :=
  clampPixels v.wholePixels

/-- The pixels needed to hold a number, in the range from zero to `pixelCap`. -/
def ceilPixels (v : Binary64) : Int :=
  match v with
  | infinite false => pixelCap
  | v => clampPixels (v.ceil?.getD 0)

end Binary64

/-! ## The approximate extent -/

/-- The advance of a code point, as a fraction of the font size. -/
def advanceRatio : Binary64 :=
  .ofQuotient false 6 10

/-- The height of a line, as a multiple of the font size. -/
def lineHeightRatio : Binary64 :=
  .ofQuotient false 12 10

/-- The number of code points on the first line of a text, and on each of the others. -/
def lineLengths (text : Bytes) : Nat × List Nat :=
  text.foldr
    (fun b (first, others) =>
      if b = Bytes.newline then (0, first :: others)
      else (if Bytes.startsCodePoint b then first + 1 else first, others))
    (0, [])

/-- The extent of a text where no measurer is installed. -/
def approximateExtent : Measurer := fun text size =>
  let (first, others) := lineLengths text
  let widest := others.foldl max first
  let lines := others.length + 1
  ⟨(.ofNat widest * size * advanceRatio : Binary64).ceilPixels,
   (.ofNat lines * size * lineHeightRatio : Binary64).ceilPixels⟩

/-- The extent of a text by the installed measurer, or the approximate one; never negative. -/
def measured (m : Option Measurer) (text : Bytes) (size : Binary64) : Size :=
  let extent := (m.getD approximateExtent) text size
  ⟨max 0 extent.width, max 0 extent.height⟩

end SlideDeck
