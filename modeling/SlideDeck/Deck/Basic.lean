import SlideDeck.Box.Arrange
import SlideDeck.Slide.Parse

/-! # Decks

A deck is a document with every slide resolved for one viewport.  Compiling
goes from a source to a deck, rendering from a deck to boxes; both are pure,
and `Outcome` is what is reported about a compilation. -/

namespace SlideDeck

/-- What a compilation depends on besides the source: the viewport, and whether a style block for
a name that no element has is an error. -/
structure CompileOptions where
  viewport : Viewport := {}
  strict : Bool := true
deriving DecidableEq, Inhabited

/-- A slide and its decided properties. -/
structure CompiledSlide where
  slide : Slide
  style : ResolvedSlide
deriving Inhabited

/-- The compiled slides of a document and the viewport that they are resolved for. -/
structure Deck where
  slides : List CompiledSlide
  viewport : Viewport
deriving Inhabited

/-! ## Compiling -/

def Document.resolve (d : Document) (o : CompileOptions) : Except CompileError Deck := do
  let slides ← d.slides.mapM fun s => do return ⟨s, ← s.resolve o.strict o.viewport⟩
  return ⟨slides, o.viewport⟩

def Deck.compile (source : Bytes) (o : CompileOptions) : Except CompileError Deck := do
  (← Document.ofSource source).resolve o

/-- The same slides resolved for another viewport; a block that no element matches is ignored. -/
def Deck.resized (d : Deck) (v : Viewport) : Deck :=
  ⟨d.slides.map fun c => ⟨c.slide, c.slide.resolved v⟩, v⟩

/-! ## Rendering -/

/-- A laid-out slide: its place in the deck, its size and background, its boxes, and the notes
made about them. -/
structure RenderedSlide where
  index : Nat
  width : Int
  height : Int
  background : Option Colour
  root : Box
  notes : List LayoutNote
deriving Inhabited

def CompiledSlide.render (c : CompiledSlide) (index : Nat) (m : Option Measurer) :
    Except MissingStyle RenderedSlide := do
  let arranged ← c.slide.layOut ⟨c.style, m⟩
  return ⟨index, c.style.width, c.style.height, c.style.background, arranged.box.stored,
    arranged.notes⟩

/-- Lay out slides in order, the first of them as the one with the given index. -/
def renderFrom (m : Option Measurer) : Nat → List CompiledSlide →
    Except MissingStyle (List RenderedSlide)
  | _, [] => .ok []
  | index, c :: rest => do
      let rendered ← c.render index m
      return rendered :: (← renderFrom m (index + 1) rest)

def Deck.render (d : Deck) (m : Option Measurer) : Except MissingStyle (List RenderedSlide) :=
  renderFrom m 0 d.slides

/-! ## Outcomes -/

/-- What is reported about a compilation. -/
inductive Outcome where
  /-- It succeeded with a number of slides; the deck is handed over unless it is kept elsewhere. -/
  | compiled (slides : Nat) (deck : Option Deck)
  | failed (error : CompileError)
deriving Inhabited

namespace Outcome

def ok : Outcome → Bool
  | compiled .. => true
  | failed _ => false

/-- The deck, where it is handed over. -/
def deck? : Outcome → Option Deck
  | compiled _ deck => deck
  | failed _ => none

/-- The error, if there is one. -/
def error? : Outcome → Option CompileError
  | compiled .. => none
  | failed e => some e

def slideCount : Outcome → Nat
  | compiled slides _ => slides
  | failed _ => 0

/-- What happened, in words: the number of slides, or the report of the error. -/
def message : Outcome → Bytes
  | compiled slides _ => .ascii "compiled " ++ Bytes.decimal slides ++ .ascii " slide(s)"
  | failed e => e.report

/-- The place of the error, or the start of the source. -/
def position : Outcome → Position
  | compiled .. => {}
  | failed e => e.position

def ofSource (source : Bytes) (o : CompileOptions) : Outcome :=
  match Deck.compile source o with
  | .ok d => compiled d.slides.length (some d)
  | .error e => failed e

end Outcome

end SlideDeck
