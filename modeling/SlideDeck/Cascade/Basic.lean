import SlideDeck.Binary64.Rounding
import SlideDeck.Property.Map
import SlideDeck.Slide.Basic

/-! # The cascade of style layers

The value of a property at an element is decided by layers of property maps:
the built-in defaults, the blocks of the slide, of the element's kind and of
its name, and the properties set on the element itself.  The last layer that
has a key decides. -/

namespace SlideDeck

/-- The outer size, in pixels, that slides are laid out for. -/
structure Viewport where
  width : Int := 1920
  height : Int := 1080
deriving DecidableEq, Inhabited

/-- The union of some layers, of which a later one decides over an earlier one; a missing layer
has no say. -/
def cascade (layers : List (Option PropertyMap)) : PropertyMap :=
  layers.foldl (fun m layer => match layer with
    | some overrides => m.merge overrides
    | none => m) ∅

/-- The size of text where nothing else sets it. -/
def defaultTextSize : Binary64 :=
  .ofNat 16

/-- The fill of text where nothing else sets it. -/
def defaultTextFill : Colour :=
  .black

/-- The bottom layer: the size of the viewport and a value for every property but the
background. -/
def defaultProperties (v : Viewport) : PropertyMap :=
  .ofList
    [ (Property.width.key, .number (.ofNat v.width.toNat)),
      (Property.height.key, .number (.ofNat v.height.toNat)),
      (Property.margin.key, .number .zero),
      (Property.size.key, .number defaultTextSize),
      (Property.fill.key, .colour defaultTextFill),
      (Property.amount.key, .number (.ofNat 12)),
      (Property.gap.key, .number .zero) ]

namespace Slide

def layer? (s : Slide) (target : Bytes) : Option PropertyMap :=
  (s.findStyle? target).map StyleBlock.properties

/-- The properties of the slide itself, over some defaults. -/
def ownStyle (s : Slide) (defaults : PropertyMap) : PropertyMap :=
  cascade [some defaults, s.layer? slideWord]

/-- The properties of an element of the slide, over some defaults. -/
def elementStyle (s : Slide) (e : Element) (defaults : PropertyMap) : PropertyMap :=
  cascade
    [ some defaults,
      s.layer? slideWord,
      s.layer? e.kind.name,
      e.name.bind s.layer?,
      some e.attributes.params ]

end Slide

end SlideDeck
