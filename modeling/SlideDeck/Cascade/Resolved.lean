import SlideDeck.Cascade.Basic
import SlideDeck.CompileError

/-! # Resolved slides

Resolving a slide decides every property of every element, and the slide's own
size, margin and background.

* `Slide.resolved` does so whatever the style blocks are for; a block for a
  name that no element has is ignored, and its target noted.
* `Slide.resolve` refuses such a block where targets are strict. -/

namespace SlideDeck

/-- There are no properties for the element with a number. -/
structure MissingStyle where
  node : Nat
deriving DecidableEq

def MissingStyle.message (m : MissingStyle) : Bytes :=
  .ascii "no resolved style for node " ++ Bytes.decimal m.node

/-- A slide with every property decided: its size, background and margin, the properties of each
element by the element's number, and the targets of the blocks that no element matches. -/
structure ResolvedSlide where
  width : Int := 0
  height : Int := 0
  background : Option Colour := none
  margin : Int := 0
  nodeStyles : List PropertyMap := []
  ignoredTargets : List Bytes := []
deriving Inhabited

/-- The largest number of pixels that a property stands for, `2 ^ 28`. -/
def pixelCap : Int := 268435456

/-- The whole pixels in a number, at most `pixelCap`. -/
def Binary64.wholePixels (v : Binary64) : Int :=
  match v with
  | .infinite false => pixelCap
  | v => min (v.floor?.getD 0) pixelCap

/-- The whole pixels that a key stands for, or a fallback where it has no number. -/
def PropertyMap.pixelsOr (m : PropertyMap) (key : Property) (fallback : Int) : Int :=
  match m.number? key.key with
  | some v => v.wholePixels
  | none => fallback

namespace ResolvedSlide

def styleFor? (r : ResolvedSlide) (node : Nat) : Except MissingStyle PropertyMap :=
  match r.nodeStyles[node]? with
  | some style => .ok style
  | none => .error ⟨node⟩

/-- The properties of the element with a number, or none at all. -/
def styleFor (r : ResolvedSlide) (node : Nat) : PropertyMap :=
  r.nodeStyles[node]?.getD ∅

end ResolvedSlide

/-- A list with the entry at an index set, and empty maps in between where it was shorter.  The
index is exact, and so is the length that it asks for: in 32 bits that would be zero for the index
`2 ^ 32 - 1`, the greatest that there is. -/
def placed (styles : List PropertyMap) (index : Nat) (style : PropertyMap) : List PropertyMap :=
  if index < styles.length then styles.set index style
  else styles ++ List.replicate (index - styles.length) ∅ ++ [style]

namespace Slide

/-- The style blocks for a name that no element of the slide has. -/
def unmatchedBlocks (s : Slide) : List StyleBlock :=
  s.styles.filter fun b => b.targetsName && (s.content.findNamed? b.target).isNone

/-- The properties of every element, by number. -/
def nodeStyles (s : Slide) (defaults : PropertyMap) : List PropertyMap :=
  -- A tree built by hand may number its elements with gaps, and `placed` fills these.
  let nodes := s.content.flatten
  nodes.foldl (fun styles e => placed styles e.id (s.elementStyle e defaults))
    (List.replicate nodes.length ∅)

/-- The slide with every property decided; a slide without content has none to decide. -/
def resolved (s : Slide) (v : Viewport) : ResolvedSlide :=
  if s.content.isHole then {}
  else
    let defaults := defaultProperties v
    let own := s.ownStyle defaults
    { width := own.pixelsOr .width v.width
      height := own.pixelsOr .height v.height
      background := own.colour? Property.bg.key
      margin := own.pixelsOr .margin 0
      nodeStyles := s.nodeStyles defaults
      ignoredTargets := s.unmatchedBlocks.map StyleBlock.target }

/-- The slide with every property decided, provided that every named block matches an element
where targets are strict. -/
def resolve (s : Slide) (strict : Bool) (v : Viewport) : Except CompileError ResolvedSlide :=
  match strict && !s.content.isHole, s.unmatchedBlocks with
  | true, b :: _ => .error ⟨b.position, .unresolvedStyleTarget b.target⟩
  | _, _ => .ok (s.resolved v)

end Slide

end SlideDeck
