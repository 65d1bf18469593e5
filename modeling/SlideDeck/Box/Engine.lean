import SlideDeck.Box.Arrange

/-! # Layout engines

An engine lays out one tree after another with the measurer installed last.

* `visit` goes through a tree in pre-order and makes its notes on the way.  It
  ends at the first element without properties, and the notes made by then stay.
* `layOutElement` and `layOutSlide` begin by forgetting the notes of the layout
  before, however that one ended.  Nothing else passes from one layout to the
  next. -/

namespace SlideDeck

/-! ## Visits -/

/-- A layout in progress: it adds to the notes, and it may end early without losing them. -/
abbrev Visit := ExceptT MissingStyle (StateM (List LayoutNote))

namespace Visit

def note (notes : List LayoutNote) : Visit Unit :=
  modify fun made => made ++ notes

/-- Go on only where an element has properties. -/
def enter (c : LayoutContext) (a : Attributes) : Visit Unit :=
  match c.styles.styleFor? a.id with
  | .ok _ => pure ()
  | .error missing => throw missing

end Visit

/-- A box whose notes are kept elsewhere. -/
def Arranged.plain (b : Box) : Arranged :=
  ⟨b, []⟩

mutual

/-- The box of an element, as `arrange` makes it, with its notes added to those that there are. -/
def visit (c : LayoutContext) : Element → Size → Visit Box
  | .hole, _ => return default
  | .text a value, most => do
      Visit.enter c a
      let text := arrangeText c a value most
      Visit.note text.notes
      return text.box
  | .centre a child, most => do
      Visit.enter c a
      let inner ← visit c child most
      return (centred a most (.plain inner)).box
  | .padding a child, most => do
      Visit.enter c a
      let amount := c.pixels a .amount
      let inner ← visit c child (paddedMost amount most)
      return (padded a amount most (.plain inner)).box
  | .stack a axis children, most => do
      Visit.enter c a
      let gap := c.pixels a .gap
      let boxes ← visitAll c children (stackedMost axis gap most children.length)
      return (stacked a axis gap most (boxes.map .plain)).box

/-- The boxes of some elements, each in its own constraint. -/
def visitAll (c : LayoutContext) : List Element → List Size → Visit (List Box)
  | [], _ => return []
  | _, [] => return []
  | e :: rest, most :: others => do
      let first ← visit c e most
      let boxes ← visitAll c rest others
      return first :: boxes

end

/-! ## Engines -/

/-- The installed measurer and the notes of the latest layout. -/
structure Engine where
  measurer : Option Measurer := none
  notes : List LayoutNote := []

namespace Engine

/-- The engine with another measurer, or with none. -/
def install (g : Engine) (m : Option Measurer) : Engine :=
  { g with measurer := m }

/-- The engine before it has made any notes. -/
def cleared (g : Engine) : Engine :=
  { g with notes := [] }

/-- Lay out a tree of content with its box at `(x, y)` and at most as large as `most`. -/
def layOutElement (g : Engine) (e : Element) (styles : ResolvedSlide) (x y : Int) (most : Size) :
    Except MissingStyle Box × Engine :=
  -- A caller may ask for less than nothing, which is nothing.
  let visited := visit ⟨styles, g.measurer⟩ e ⟨max 0 most.width, max 0 most.height⟩
  let (box, notes) := visited.run.run g.cleared.notes
  (box.map (Box.absolute x y), { g with notes })

def layOutSlide (g : Engine) (s : Slide) (styles : ResolvedSlide) :
    Except MissingStyle Box × Engine :=
  let margin := clampPixels styles.margin
  g.layOutElement s.content styles margin margin styles.inner

end Engine

end SlideDeck
