import SlideDeck.Property.Basic

/-! # Kinds of content

The five words that a content expression may start with, and the properties
that each may set for itself. -/

namespace SlideDeck

/-- The direction in which a row or a column goes on. -/
inductive Axis where
  | horizontal
  | vertical
deriving DecidableEq

/-- The kinds of content. -/
inductive Kind where
  | centre
  | padding
  | row
  | column
  | text
deriving DecidableEq, Inhabited

def Axis.kind : Axis → Kind
  | horizontal => .row
  | vertical => .column

namespace Kind

def all : List Kind :=
  [centre, padding, row, column, text]

def name : Kind → Bytes
  | centre => .ascii "centre"
  | padding => .ascii "padding"
  | row => .ascii "row"
  | column => .ascii "column"
  | text => .ascii "text"

def ofName? (word : Bytes) : Option Kind :=
  all.find? fun k => k.name = word

/-- The properties that content of a kind may set in the block attached to it. -/
def inlineProperties : Kind → List Property
  | centre => []
  | padding => [.amount]
  | row => [.gap]
  | column => [.gap]
  | text => [.size, .fill]

end Kind

/-- The word that stands for the slide itself as the target of a style block. -/
def slideWord : Bytes :=
  .ascii "slide"

/-- A word that cannot name an element: it is a kind, or stands for the slide. -/
def isReserved (word : Bytes) : Bool :=
  word = slideWord || (Kind.ofName? word).isSome

end SlideDeck
