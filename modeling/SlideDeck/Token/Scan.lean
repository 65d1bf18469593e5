import SlideDeck.Binary64.Written
import SlideDeck.CompileError
import SlideDeck.Text.Hexadecimal
import SlideDeck.Text.Quoted
import SlideDeck.Token.Basic

/-! # Scanning a source into tokens

* `gapLength` measures the blanks (and comments) before a lexeme.
* `Scanned.ofBytes` reads the lexeme that some bytes start with.  It knows
  bytes only: how many were read, and on a fault how many lie before the place
  to report.
* `Cursor` adds the position.  `Cursor.next` steps over a gap and a lexeme, and
  after a fault stands where the scan stopped, so that scanning can go on.
* `tokenize` runs a cursor to the end of the input.

Bytes and positions are kept apart: all line and column accounting is
`Position.after` of a stretch of the source, and the lexical grammar never sees a
position. -/

namespace SlideDeck

open Bytes

/-! ## Faults -/

/-- Why no lexeme can be read. -/
inductive LexFault where
  | unexpectedByte (b : UInt8)
  | unterminatedString
  | unknownEscape (b : UInt8)
  | missingFraction
  | unitAfterNumber (b : UInt8) (literal : Bytes)
  | numberOutOfRange (literal : Bytes)
deriving DecidableEq

def LexFault.reason : LexFault → Bytes
  | unexpectedByte b =>
      if isPrintable b then ascii "unexpected character " ++ apostrophed [b]
      else ascii "unexpected byte 0x" ++ hexPair b
  | unterminatedString => ascii "unterminated string literal"
  | unknownEscape b => ascii "unknown escape sequence " ++ apostrophed [92, b]
  | missingFraction => ascii "expected digits after decimal point"
  | unitAfterNumber b literal =>
      ascii "unexpected character " ++ apostrophed [b] ++ ascii " after number " ++ literal
  | numberOutOfRange literal => ascii "number literal out of range: " ++ literal

/-! ## One lexeme -/

/-- The outcome of reading one lexeme: the number of bytes read, and the lexeme or a fault with
the number of bytes before the place that it is reported at. -/
structure Scanned where
  length : Nat
  outcome : Except (Nat × LexFault) Lexeme

namespace Scanned

/-- A lexeme of the given length. -/
def lexeme (length : Nat) (l : Lexeme) : Scanned :=
  ⟨length, .ok l⟩

/-- A fault found after `length` bytes and reported after `place` bytes. -/
def fault (length place : Nat) (f : LexFault) : Scanned :=
  ⟨length, .error (place, f)⟩

/-- Read the inside of a string, `length` bytes after its lexeme's start, with the decoded bytes
so far in `reversed`. -/
def stringBody : Bytes → Nat → Bytes → Scanned
  | [], length, _ => fault length 0 .unterminatedString
  | b :: rest, length, reversed =>
      if b = 34 then lexeme (length + 1) (.string reversed.reverse)
      else if b = 92 then
        match rest with
        -- A backslash at the very end is read, and the string is still unterminated.
        | [] => fault (length + 1) 0 .unterminatedString
        | e :: rest =>
            match unescape e with
            | some decoded => stringBody rest (length + 2) (decoded :: reversed)
            | none => fault (length + 2) length (.unknownEscape e)
      else stringBody rest (length + 1) (b :: reversed)

def sign (source : Bytes) : Bytes :=
  source.take (if source.head? = some 45 then 1 else 0)

/-- Read the end of a number, after its sign and its digits. -/
def numberEnd (negative : Bool) (literal whole fraction rest : Bytes) : Scanned :=
  match rest.head?.filter startsIdentifier with
  | some b => fault literal.length literal.length (.unitAfterNumber b literal)
  | none =>
      match Binary64.ofDecimal? (Binary64.literal negative whole fraction) with
      | some v => lexeme literal.length (.number literal v)
      | none => fault literal.length 0 (.numberOutOfRange literal)

/-- Read a number: a sign, digits, and a point with digits where a point follows. -/
def number (source : Bytes) : Scanned :=
  let sign := sign source
  let unsigned := source.drop sign.length
  let whole := unsigned.takeWhile isDigit
  let rest := unsigned.dropWhile isDigit
  match rest with
  | 46 :: rest =>
      let fraction := rest.takeWhile isDigit
      let read := sign.length + whole.length
      if fraction = [] then fault read read .missingFraction
      else numberEnd (sign ≠ []) (sign ++ whole ++ 46 :: fraction) whole fraction
        (rest.dropWhile isDigit)
  | rest => numberEnd (sign ≠ []) (sign ++ whole) whole [] rest

/-- Read an identifier: all the identifier bytes that follow. -/
def identifier (source : Bytes) : Scanned :=
  let name := source.takeWhile continuesIdentifier
  lexeme name.length (.identifier name)

/-- Read a comment: all that follows its two slashes on the line. -/
def comment (source : Bytes) : Scanned :=
  let text := (source.drop 2).takeWhile (· != newline)
  lexeme (text.length + 2) (.comment text)

/-- The punctuation that is a single byte, the colon included. -/
def punctuation? (b : UInt8) : Option Lexeme :=
  if b = 91 then some .leftBracket
  else if b = 93 then some .rightBracket
  else if b = 123 then some .leftBrace
  else if b = 125 then some .rightBrace
  else if b = 40 then some .leftParen
  else if b = 41 then some .rightParen
  else if b = 44 then some .comma
  else if b = 58 then some .colon
  else none

def ofBytes : Bytes → Scanned
  | [] => lexeme 0 .endOfInput
  | b :: rest =>
      let following := rest.head?
      if b = 47 ∧ following = some 47 then comment (b :: rest)
      else if b = 34 then stringBody rest 1 []
      else if isDigit b ∨ (b = 45 ∧ following.any isDigit) then number (b :: rest)
      else if startsIdentifier b then identifier (b :: rest)
      else if b = 58 ∧ following = some 58 then lexeme 2 .definition
      else match punctuation? b with
        | some l => lexeme 1 l
        | none => fault 0 0 (.unexpectedByte b)

end Scanned

/-! ## Gaps -/

/-- The number of bytes before the next lexeme, added to `length`: blanks, and comments too unless
they are kept as lexemes.  `inComment` says that a comment has been entered and its line goes on. -/
def gapLength (keepComments inComment : Bool) : Bytes → Nat → Nat
  | [], length => length
  | b :: rest, length =>
      -- A comment's line feed is no longer part of it, but is a blank and so part of the gap.
      if inComment then gapLength keepComments (b != newline) rest (length + 1)
      else if isBlank b then gapLength keepComments false rest (length + 1)
      else if !keepComments ∧ b = 47 ∧ rest.head? = some 47 then
        gapLength keepComments true rest (length + 1)
      else length

/-! ## Positions -/

/-- A place in a source and the bytes from there on. -/
structure Cursor where
  position : Position
  rest : Bytes
deriving DecidableEq

namespace Cursor

def ofSource (source : Bytes) : Cursor :=
  ⟨.start, source⟩

/-- The cursor `count` bytes further on. -/
def skip (c : Cursor) (count : Nat) : Cursor :=
  ⟨c.position.after (c.rest.take count), c.rest.drop count⟩

/-- The next token, or why there is none, and the cursor where reading it stopped. -/
def next (keepComments : Bool) (c : Cursor) : Except CompileError Token × Cursor :=
  let c := c.skip (gapLength keepComments false c.rest 0)
  let scanned := Scanned.ofBytes c.rest
  let outcome := match scanned.outcome with
    | .ok l => .ok ⟨l, c.position⟩
    | .error (place, f) => .error ⟨(c.skip place).position, .lex f.reason⟩
  (outcome, c.skip scanned.length)

/-- The tokens from a cursor to the end of the input, after those in `reversed`; at most `limit`
more, of which there are fewer than bytes left. -/
def tokens (keepComments : Bool) : Nat → Cursor → List Token → Except CompileError (List Token)
  | 0, _, reversed => .ok reversed.reverse
  | limit + 1, c, reversed =>
      match c.next keepComments with
      | (.error e, _) => .error e
      | (.ok t, c) =>
          if t.lexeme = .endOfInput then .ok (t :: reversed).reverse
          else tokens keepComments limit c (t :: reversed)

end Cursor

/-- All tokens of a source in order; the last one is the end of the input. -/
def tokenize (keepComments : Bool) (source : Bytes) : Except CompileError (List Token) :=
  (Cursor.ofSource source).tokens keepComments (source.length + 1) []

end SlideDeck
