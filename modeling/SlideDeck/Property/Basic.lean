import SlideDeck.Binary64.Written
import SlideDeck.Property.Colour
import SlideDeck.Text.Quoted

/-! # Properties

The eight properties that the source format knows, what type of value each
takes, and the values themselves. -/

namespace SlideDeck

/-- The types of property values. -/
inductive ValueType where
  | number
  | colour
deriving DecidableEq

def ValueType.name : ValueType → Bytes
  | number => .ascii "number"
  | colour => .ascii "colour"

/-- The properties that a source may set. -/
inductive Property where
  | width
  | height
  | margin
  | bg
  | amount
  | size
  | fill
  | gap
deriving DecidableEq

namespace Property

def all : List Property :=
  [width, height, margin, bg, amount, size, fill, gap]

def key : Property → Bytes
  | width => .ascii "width"
  | height => .ascii "height"
  | margin => .ascii "margin"
  | bg => .ascii "bg"
  | amount => .ascii "amount"
  | size => .ascii "size"
  | fill => .ascii "fill"
  | gap => .ascii "gap"

/-- The property that is set under a key. -/
def ofKey? (key : Bytes) : Option Property :=
  all.find? fun p => p.key = key

def valueType : Property → ValueType
  | bg | fill => .colour
  | _ => .number

def mustBePositive : Property → Bool
  | width | height => true
  | _ => false

end Property

/-- The value of a property. -/
inductive PropertyValue where
  | number (value : Binary64)
  | colour (value : Colour)
deriving DecidableEq, Inhabited

namespace PropertyValue

/-- Equality of values, with numbers compared as numbers. -/
def same : PropertyValue → PropertyValue → Bool
  | number v, number w => v.same w
  | colour c, colour d => c == d
  | _, _ => false

/-- A value as a source has it: a number plainly, a colour as a string. -/
def text : PropertyValue → Bytes
  | number v => v.written
  | colour c => c.text.quoted

end PropertyValue

end SlideDeck
