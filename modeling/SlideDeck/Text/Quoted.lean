import SlideDeck.Text.Bytes

/-! # Quoted text

A string value is written between double quotes.  A quote, a backslash, a line
feed and a tab each have an escape of two bytes; every other byte stands for
itself.  A quote inside a text always follows a backslash, so a reader that undoes
`unescape` stops exactly at the closing quote. -/

namespace SlideDeck

namespace Bytes

/-- One byte of a text as it is written between quotes. -/
def escaped (b : UInt8) : Bytes :=
  -- The bytes are a quote, a backslash, a line feed and a tab.
  if b = 34 then [92, 34]
  else if b = 92 then [92, 92]
  else if b = 10 then [92, 110]
  else if b = 9 then [92, 116]
  else [b]

/-- The byte that a backslash followed by `b` stands for. -/
def unescape (b : UInt8) : Option UInt8 :=
  if b = 34 then some 34
  else if b = 92 then some 92
  else if b = 110 then some 10
  else if b = 116 then some 9
  else none

/-- A text between double quotes, with its quotes, backslashes, line feeds and tabs escaped. -/
def quoted (text : Bytes) : Bytes :=
  34 :: (text.flatMap escaped ++ [34])

end Bytes

end SlideDeck
