import SlideDeck.Binary64.Basic
import SlideDeck.Property.Colour
import SlideDeck.Slide.Kind

/-! # Boxes

Laying out a tree of content gives a tree of boxes of the same shape.  A box
is a frame, the place, size and label of one element, over the boxes of its
children. -/

namespace SlideDeck

/-- What is needed to draw a text. -/
structure TextPayload where
  value : Bytes
  size : Binary64
  fill : Colour
deriving DecidableEq, Inhabited

/-- Equality of text payloads, with sizes compared as numbers. -/
def TextPayload.same (a b : TextPayload) : Bool :=
  a.value == b.value && a.size.same b.size && a.fill == b.fill

/-- The place that is left of an exact one in 32 bits with a sign, where sums wrap around. -/
def wrapped (place : Int) : Int :=
  place.bmod 4294967296

/-- The place, size and label of one element; an element without a name has an empty one. -/
structure Frame where
  node : Nat := 0
  kind : Kind := .centre
  name : Bytes := []
  x : Int := 0
  y : Int := 0
  width : Int := 0
  height : Int := 0
  text : Option TextPayload := none
deriving DecidableEq, Inhabited

namespace Frame

def moved (f : Frame) (dx dy : Int) : Frame :=
  { f with x := f.x + dx, y := f.y + dy }

/-- The frame with its place in 32 bits. -/
def stored (f : Frame) : Frame :=
  { f with x := wrapped f.x, y := wrapped f.y }

def sameText : Option TextPayload → Option TextPayload → Bool
  | none, none => true
  | some a, some b => a.same b
  | _, _ => false

/-- Equality of frames, with text sizes compared as numbers. -/
def same (a b : Frame) : Bool :=
  a.node == b.node && a.kind == b.kind && a.name == b.name && a.x == b.x && a.y == b.y
    && a.width == b.width && a.height == b.height && sameText a.text b.text

end Frame

/-- A tree of frames. -/
inductive Box where
  | mk (frame : Frame) (children : List Box)
deriving Inhabited

namespace Box

def frame : Box → Frame
  | mk f _ => f

def children : Box → List Box
  | mk _ cs => cs

/-- The box with its frame moved, its children left where they are. -/
def moved (b : Box) (dx dy : Int) : Box :=
  mk (b.frame.moved dx dy) b.children

/-! ## Walking a tree -/

mutual

/-- The boxes of a tree in pre-order. -/
def flatten : Box → List Box
  | mk f cs => mk f cs :: flattenAll cs

/-- The boxes of some trees in pre-order. -/
def flattenAll : List Box → List Box
  | [] => []
  | b :: rest => flatten b ++ flattenAll rest

end

mutual

def count : Box → Nat
  | mk _ cs => 1 + countAll cs

def countAll : List Box → Nat
  | [] => 0
  | b :: rest => count b + countAll rest

end

/-- The first box in pre-order for the element with a number. -/
def find? (b : Box) (node : Nat) : Option Box :=
  b.flatten.find? fun b => b.frame.node = node

/-- The first box in pre-order with a name; an empty name is none. -/
def findNamed? (b : Box) (name : Bytes) : Option Box :=
  b.flatten.find? fun b => b.frame.name ≠ [] ∧ b.frame.name = name

/-! ## Equality -/

mutual

/-- Equality of trees, with text sizes compared as numbers. -/
def same : Box → Box → Bool
  | mk f cs, mk g ds => f.same g && sameAll cs ds

/-- Equality of lists of trees, position by position. -/
def sameAll : List Box → List Box → Bool
  | [], [] => true
  | b :: bs, c :: cs => same b c && sameAll bs cs
  | _, _ => false

end

/-! ## From relative to absolute places -/

mutual

/-- A tree in which each box is placed relative to its parent, with all places made absolute; the
root is moved by `dx` and `dy`. -/
def absolute (dx dy : Int) : Box → Box
  | mk f cs => mk (f.moved dx dy) (absoluteAll (f.x + dx) (f.y + dy) cs)

/-- Some trees in which each box is placed relative to its parent, with all places made absolute. -/
def absoluteAll (dx dy : Int) : List Box → List Box
  | [] => []
  | b :: rest => absolute dx dy b :: absoluteAll dx dy rest

end

mutual

/-- A tree with all places in 32 bits.  Since wrapping once is wrapping after every addition, exact
sums can be stored when all of them are known. -/
def stored : Box → Box
  | mk f cs => mk f.stored (storedAll cs)

/-- Some trees with all places in 32 bits. -/
def storedAll : List Box → List Box
  | [] => []
  | b :: rest => stored b :: storedAll rest

end

end Box

end SlideDeck
