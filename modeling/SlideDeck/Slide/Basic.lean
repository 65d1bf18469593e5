import SlideDeck.Slide.Element

/-! # Slides and documents

A slide is a tree of content and the style blocks beside it; a document is a
list of slides. -/

namespace SlideDeck

/-- Properties for a target: the slide, all content of a kind, or one named element. -/
structure StyleBlock where
  target : Bytes
  properties : PropertyMap := ∅
  position : Position := {}
deriving DecidableEq, Inhabited

namespace StyleBlock

def targetsSlide (b : StyleBlock) : Bool :=
  b.target = slideWord

def targetKind? (b : StyleBlock) : Option Kind :=
  Kind.ofName? b.target

def targetsName (b : StyleBlock) : Bool :=
  !b.targetsSlide && b.targetKind?.isNone

/-- Equality of blocks without regard to positions. -/
def same (a b : StyleBlock) : Bool :=
  a.target == b.target && a.properties.same b.properties

/-- Equality of lists of blocks, position by position. -/
def sameAll : List StyleBlock → List StyleBlock → Bool
  | [], [] => true
  | a :: as, b :: bs => a.same b && sameAll as bs
  | _, _ => false

end StyleBlock

/-- A slide: its content, its style blocks in the order of the source, the place where it begins,
and the number of elements counted while it was read. -/
structure Slide where
  content : Element := .hole
  styles : List StyleBlock := []
  position : Position := {}
  nodeCount : Nat := 0
deriving Inhabited

namespace Slide

/-- The first style block for a target. -/
def findStyle? (s : Slide) (target : Bytes) : Option StyleBlock :=
  s.styles.find? fun b => b.target = target

/-- Equality of slides without regard to positions. -/
def same (a b : Slide) : Bool :=
  a.nodeCount == b.nodeCount && StyleBlock.sameAll a.styles b.styles && a.content.same b.content

end Slide

/-- A list of slides. -/
structure Document where
  slides : List Slide
deriving Inhabited

namespace Document

/-- Equality of lists of slides, position by position. -/
def sameSlides : List Slide → List Slide → Bool
  | [], [] => true
  | a :: as, b :: bs => a.same b && sameSlides as bs
  | _, _ => false

/-- Equality of documents without regard to positions. -/
def same (a b : Document) : Bool :=
  sameSlides a.slides b.slides

end Document

end SlideDeck
