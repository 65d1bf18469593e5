import SlideDeck.Position
import SlideDeck.Property.Map
import SlideDeck.Slide.Kind

/-! # Elements

The content of a slide is a tree of elements.  Texts are its leaves; centre
and padding have one child; a stack, that is a row or a column, has any number.

A tree built by hand may have a `hole` where an element is missing.  A parsed
one never has: holes are for callers that assemble trees themselves, and every
walk over a tree passes them by.

* `Element.flatten` lists the elements of a tree in pre-order.
* `Element.same` is equality of trees without regard to positions. -/

namespace SlideDeck

/-- What every element has: its number in the slide, its name if it has one, the properties set on
it, and the place in the source where it begins.  Numbers are exact, here and in the boxes and notes
that carry them on; 32 bits without a sign would hold them modulo `2 ^ 32`. -/
structure Attributes where
  id : Nat := 0
  name : Option Bytes := none
  params : PropertyMap := ∅
  position : Position := {}
deriving DecidableEq, Inhabited

/-- A tree of content. -/
inductive Element where
  | hole
  | text (attributes : Attributes) (value : Bytes)
  | centre (attributes : Attributes) (child : Element)
  | padding (attributes : Attributes) (child : Element)
  | stack (attributes : Attributes) (axis : Axis) (children : List Element)
deriving Inhabited

namespace Element

def attributes : Element → Attributes
  | hole => {}
  | text a _ => a
  | centre a _ => a
  | padding a _ => a
  | stack a _ _ => a

def id (e : Element) : Nat :=
  e.attributes.id

def name (e : Element) : Option Bytes :=
  e.attributes.name

def kind : Element → Kind
  | hole => .centre
  | text .. => .text
  | centre .. => .centre
  | padding .. => .padding
  | stack _ axis _ => axis.kind

/-- The children of an element, holes included. -/
def children : Element → List Element
  | hole => []
  | text .. => []
  | centre _ child => [child]
  | padding _ child => [child]
  | stack _ _ children => children

/-- Whether an element is missing. -/
def isHole : Element → Bool
  | hole => true
  | _ => false

/-! ## Walking a tree -/

mutual

/-- The elements of a tree in pre-order. -/
def flatten : Element → List Element
  | hole => []
  | text a value => [text a value]
  | centre a child => centre a child :: flatten child
  | padding a child => padding a child :: flatten child
  | stack a axis children => stack a axis children :: flattenAll children

/-- The elements of some trees in pre-order. -/
def flattenAll : List Element → List Element
  | [] => []
  | e :: rest => flatten e ++ flattenAll rest

end

/-- The first element in pre-order that has a name. -/
def findNamed? (e : Element) (name : Bytes) : Option Element :=
  e.flatten.find? fun e => e.name = some name

/-! ## Equality -/

/-- Equality of attributes without regard to the position. -/
def sameAttributes (a b : Attributes) : Bool :=
  a.id == b.id && a.name == b.name && a.params.same b.params

mutual

/-- Equality of trees without regard to positions, with numbers compared as numbers. -/
def same : Element → Element → Bool
  | hole, hole => true
  | text a v, text b w => sameAttributes a b && v == w
  | centre a c, centre b d => sameAttributes a b && same c d
  | padding a c, padding b d => sameAttributes a b && same c d
  | stack a x cs, stack b y ds => sameAttributes a b && x == y && sameAll cs ds
  | _, _ => false

/-- Equality of lists of trees, position by position. -/
def sameAll : List Element → List Element → Bool
  | [], [] => true
  | c :: cs, d :: ds => same c d && sameAll cs ds
  | _, _ => false

end

end Element

end SlideDeck
