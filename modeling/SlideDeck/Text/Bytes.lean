/-! # Text as bytes

Every text of a deck — source, names, string values, messages — is a list of
bytes.  No encoding is assumed: positions count bytes, and bytes that are no
valid UTF-8 pass through unchanged.

* `Bytes` with `ascii`, the bytes of a text that the library itself writes.
* The byte classes of the source format: blanks, digits, identifier bytes.
* `joined`, `untilNul`, the two cuts and pastes that messages need. -/

namespace SlideDeck

/-- Text is a list of bytes. -/
abbrev Bytes := List UInt8

namespace Bytes

/-- The bytes of a text whose characters are all ASCII. -/
def ascii (s : String) : Bytes :=
  s.toList.map fun c => c.toNat.toUInt8

/-! ## Byte classes -/

/-- The line feed, which ends a line. -/
def newline : UInt8 := 10

/-- Space, tab, line feed, vertical tab, form feed and carriage return. -/
def isBlank (b : UInt8) : Bool :=
  b == 32 || (9 ≤ b && b ≤ 13)

def isDigit (b : UInt8) : Bool :=
  48 ≤ b && b ≤ 57

def isLetter (b : UInt8) : Bool :=
  (65 ≤ b && b ≤ 90) || (97 ≤ b && b ≤ 122)

/-- A byte that an identifier starts with: a letter or an underscore. -/
def startsIdentifier (b : UInt8) : Bool :=
  isLetter b || b == 95

/-- A byte inside an identifier: a letter, an underscore, a digit or a hyphen. -/
def continuesIdentifier (b : UInt8) : Bool :=
  startsIdentifier b || isDigit b || b == 45

/-- A byte that a message shows as itself: a space or a visible ASCII character. -/
def isPrintable (b : UInt8) : Bool :=
  32 ≤ b && b ≤ 126

/-- A byte that starts a code point in UTF-8, that is, no continuation byte `10xxxxxx`. -/
def startsCodePoint (b : UInt8) : Bool :=
  b.toNat / 64 != 2

/-! ## Cuts and pastes -/

/-- The texts in order, with the separator between any two neighbours. -/
def joined (separator : Bytes) : List Bytes → Bytes
  | [] => []
  | [text] => text
  | text :: rest => text ++ separator ++ joined separator rest

/-- The bytes before the first NUL. -/
def untilNul (text : Bytes) : Bytes :=
  text.takeWhile (· != 0)

/-- The text between two apostrophes. -/
def apostrophed (text : Bytes) : Bytes :=
  ascii "'" ++ text ++ ascii "'"

end Bytes

end SlideDeck
