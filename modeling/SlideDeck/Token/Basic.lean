import SlideDeck.Binary64.Basic
import SlideDeck.Position

/-! # Tokens

A token is a lexeme and the position of its first byte.  A lexeme carries what
the source said, decoded: the name of an identifier, the text of a string or a
comment, the literal of a number beside the number itself. -/

namespace SlideDeck

/-- What a token stands for. -/
inductive Lexeme where
  | leftBracket
  | rightBracket
  | leftBrace
  | rightBrace
  | leftParen
  | rightParen
  | identifier (name : Bytes)
  | string (value : Bytes)
  | number (literal : Bytes) (value : Binary64)
  | colon
  | definition
  | comma
  | comment (text : Bytes)
  | endOfInput
deriving DecidableEq, Inhabited

namespace Lexeme

open Bytes

/-- The name of a lexeme's class; punctuation is its own name. -/
def className : Lexeme → Bytes
  | leftBracket => ascii "'['"
  | rightBracket => ascii "']'"
  | leftBrace => ascii "'\x7b'"
  | rightBrace => ascii "'\x7d'"
  | leftParen => ascii "'('"
  | rightParen => ascii "')'"
  | identifier _ => ascii "identifier"
  | string _ => ascii "string"
  | number .. => ascii "number"
  | colon => ascii "':'"
  | definition => ascii "'::'"
  | comma => ascii "','"
  | comment _ => ascii "comment"
  | endOfInput => ascii "end of input"

/-- The decoded text of a lexeme: a name, a string's value, a number's literal, the text of a
comment, or the punctuation itself. -/
def text : Lexeme → Bytes
  | leftBracket => ascii "["
  | rightBracket => ascii "]"
  | leftBrace => ascii "\x7b"
  | rightBrace => ascii "\x7d"
  | leftParen => ascii "("
  | rightParen => ascii ")"
  | identifier name => name
  | string value => value
  | number literal _ => literal
  | colon => ascii ":"
  | definition => ascii "::"
  | comma => ascii ","
  | comment text => text
  | endOfInput => []

/-- A lexeme as messages show it: its class, and the text of an identifier, string or number. -/
def described : Lexeme → Bytes
  | identifier name => ascii "identifier " ++ apostrophed name
  | string value => ascii "string \"" ++ value ++ ascii "\""
  | number literal _ => ascii "number " ++ literal
  | other => other.className

/-- Equality of lexemes, with numbers compared as numbers. -/
def same : Lexeme → Lexeme → Bool
  | number l v, number m w => l == m && v.same w
  | a, b => a == b

end Lexeme

/-- A lexeme and the position of its first byte. -/
structure Token where
  lexeme : Lexeme
  position : Position
deriving DecidableEq, Inhabited

/-- Equality of tokens, wherever they stand. -/
def Token.same (a b : Token) : Bool :=
  a.lexeme.same b.lexeme

end SlideDeck
