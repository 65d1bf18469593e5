import SlideDeck.Box.Basic
import SlideDeck.Box.Extent
import SlideDeck.Text.Decimal

/-! # Arranging content in boxes

Constraints go down, sizes come up: an element is told the most space it may
take, and its box says how much it takes.

* `arrange` gives a tree of boxes placed relative to their parents, with a note
  for every text that needs more space than it has.
* `Element.layOut` checks that every element has its properties and makes all
  places absolute; `Slide.layOut` does so inside the slide's margin.

A row and a column are one computation on a main and a cross extent, and their
`Axis` alone says which of them is the width.  Constraints of children depend on
no sibling (`slots`), so boxes are made first and placed one after the other
afterwards (`placeAlong`). -/

namespace SlideDeck

open Bytes

/-! ## Axes -/

namespace Axis

def main : Axis → Size → Int
  | horizontal, s => s.width
  | vertical, s => s.height

def cross : Axis → Size → Int
  | horizontal, s => s.height
  | vertical, s => s.width

def size : Axis → Int → Int → Size
  | horizontal, main, cross => ⟨main, cross⟩
  | vertical, main, cross => ⟨cross, main⟩

def move (axis : Axis) (b : Box) (distance : Int) : Box :=
  match axis with
  | horizontal => b.moved distance 0
  | vertical => b.moved 0 distance

end Axis

def Box.size (b : Box) : Size :=
  ⟨b.frame.width, b.frame.height⟩

/-! ## Sharing an extent -/

/-- The extents for `count` children in `available` pixels with a gap between any two: what the
gaps leave is split evenly, and the first children get a pixel more each while it does not go up. -/
def slots (available gap : Int) (count : Nat) : List Int :=
  -- Gaps that leave nothing over leave nothing to split, and never less.
  let splittable := clampPixels (available - gap * (count - 1))
  (List.range count).map fun (i : Nat) =>
    splittable / count + if i < splittable % count then 1 else 0

/-- Boxes moved along an axis so that each begins a gap after the one before it, and the cursor
after the last one; the first begins at the cursor. -/
def placeAlong (axis : Axis) (gap : Int) : Int → List Box → List Box × Int
  | cursor, [] => ([], cursor)
  | cursor, [b] => ([axis.move b (clampPixels cursor)], cursor + axis.main b.size)
  | cursor, b :: rest =>
      let (placed, final) := placeAlong axis gap (cursor + axis.main b.size + gap) rest
      (axis.move b (clampPixels cursor) :: placed, final)

/-! ## Notes -/

/-- A text that needs more space than it has. -/
structure LayoutNote where
  node : Nat
  available : Size
  needed : Size
deriving DecidableEq

def LayoutNote.message (n : LayoutNote) : Bytes :=
  ascii "text overflows " ++ dimensions n.available.width n.available.height
    ++ ascii " (needs " ++ dimensions n.needed.width n.needed.height ++ ascii ")"

/-- A tree of boxes and the notes made about it. -/
structure Arranged where
  box : Box
  notes : List LayoutNote

/-! ## Arranging -/

/-- What arranging depends on besides the content: its resolved properties and the measurer. -/
structure LayoutContext where
  styles : ResolvedSlide
  measurer : Option Measurer

namespace LayoutContext

/-- The pixels that a property of an element stands for; none where it has no number. -/
def pixels (c : LayoutContext) (a : Attributes) (key : Property) : Int :=
  (((c.styles.styleFor a.id).number? key.key).map Binary64.floorPixels).getD 0

def textSize (c : LayoutContext) (a : Attributes) : Binary64 :=
  ((c.styles.styleFor a.id).number? Property.size.key).getD defaultTextSize

def textFill (c : LayoutContext) (a : Attributes) : Colour :=
  ((c.styles.styleFor a.id).colour? Property.fill.key).getD defaultTextFill

end LayoutContext

/-- The frame of an element with a size, at its parent's origin. -/
def Attributes.frame (a : Attributes) (kind : Kind) (size : Size) : Frame :=
  { node := a.id, kind, name := a.name.getD [], width := size.width, height := size.height }

/-- A text in a constraint: as large as it needs to be, as far as there is space. -/
def arrangeText (c : LayoutContext) (a : Attributes) (value : Bytes) (most : Size) : Arranged :=
  let size := c.textSize a
  let needed := measured c.measurer value size
  let fits := needed.width ≤ most.width ∧ needed.height ≤ most.height
  let frame := a.frame .text ⟨min needed.width most.width, min needed.height most.height⟩
  ⟨.mk { frame with text := some ⟨value, size, c.textFill a⟩ } [],
   if fits then [] else [⟨a.id, most, needed⟩]⟩

/-- A child in the middle of all the space that a constraint allows. -/
def centred (a : Attributes) (most : Size) (child : Arranged) : Arranged :=
  let inner := child.box.size
  let dx := max 0 ((most.width - inner.width) / 2)
  let dy := max 0 ((most.height - inner.height) / 2)
  ⟨.mk (a.frame .centre most) [child.box.moved dx dy], child.notes⟩

/-- The constraint for a child that is padded on all sides. -/
def paddedMost (amount : Int) (most : Size) : Size :=
  ⟨clampPixels (most.width - 2 * amount), clampPixels (most.height - 2 * amount)⟩

/-- A child with padding on all sides, as far as there is space. -/
def padded (a : Attributes) (amount : Int) (most : Size) (child : Arranged) : Arranged :=
  let inner := child.box.size
  let size := ⟨clampPixels (min most.width (inner.width + 2 * amount)),
    clampPixels (min most.height (inner.height + 2 * amount))⟩
  ⟨.mk (a.frame .padding size) [child.box.moved amount amount], child.notes⟩

/-- The constraints for the children of a stack. -/
def stackedMost (axis : Axis) (gap : Int) (most : Size) (count : Nat) : List Size :=
  (slots (axis.main most) gap count).map fun slot => axis.size slot (axis.cross most)

/-- Children one after the other along an axis. -/
def stacked (a : Attributes) (axis : Axis) (gap : Int) (most : Size) (children : List Arranged) :
    Arranged :=
  let boxes := children.map Arranged.box
  let (placed, cursor) := placeAlong axis gap 0 boxes
  let main := clampPixels (min cursor (axis.main most))
  let widest := (boxes.map fun b => axis.cross b.size).foldl max 0
  ⟨.mk (a.frame axis.kind (axis.size main (min widest (axis.cross most)))) placed,
   children.flatMap Arranged.notes⟩

mutual

def arrange (c : LayoutContext) : Element → Size → Arranged
  | .hole, _ => ⟨default, []⟩
  | .text a value, most => arrangeText c a value most
  | .centre a child, most => centred a most (arrange c child most)
  | .padding a child, most =>
      let amount := c.pixels a .amount
      padded a amount most (arrange c child (paddedMost amount most))
  | .stack a axis children, most =>
      let gap := c.pixels a .gap
      stacked a axis gap most (arrangeAll c children (stackedMost axis gap most children.length))

/-- Some elements, each in its own constraint. -/
def arrangeAll (c : LayoutContext) : List Element → List Size → List Arranged
  | [], _ => []
  | _, [] => []
  | e :: rest, most :: others => arrange c e most :: arrangeAll c rest others

end

/-! ## Laying out -/

/-- The first element in pre-order whose properties are missing. -/
def ResolvedSlide.missing? (r : ResolvedSlide) (e : Element) : Option MissingStyle :=
  (e.flatten.find? fun e => r.nodeStyles.length ≤ e.id).map fun e => ⟨e.id⟩

/-- A tree of content with its box at `(x, y)` and at most as large as `most`. -/
def Element.layOut (c : LayoutContext) (e : Element) (x y : Int) (most : Size) :
    Except MissingStyle Arranged :=
  match c.styles.missing? e with
  | some missing => .error missing
  | none =>
      -- A caller may ask for less than nothing, which is nothing.
      let arranged := arrange c e ⟨max 0 most.width, max 0 most.height⟩
      .ok { arranged with box := arranged.box.absolute x y }

/-- The space that a slide leaves inside its margin. -/
def ResolvedSlide.inner (r : ResolvedSlide) : Size :=
  let margin := clampPixels r.margin
  ⟨clampPixels (r.width - 2 * margin), clampPixels (r.height - 2 * margin)⟩

def Slide.layOut (c : LayoutContext) (s : Slide) : Except MissingStyle Arranged :=
  let margin := clampPixels c.styles.margin
  s.content.layOut c margin margin c.styles.inner

end SlideDeck
