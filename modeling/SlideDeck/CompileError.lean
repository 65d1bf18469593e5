import SlideDeck.Position

/-! # Errors in a source

What can be wrong with a deck's source, where, and how that is worded.

* `CompileError.Cause` says what is wrong; `Cause.kind` is its class.
* `CompileError.message` is the wording, `CompileError.report` puts position
  and kind in front of it.  A report is zero-terminated text: it ends before
  the first NUL, although the message itself may go on. -/

namespace SlideDeck

/-- The classes of errors. -/
inductive ErrorKind where
  | lex
  | parse
  | unknownContentKind
  | invalidParameterValue
  | invalidColour
  | unresolvedStyleTarget
deriving DecidableEq

def ErrorKind.name : ErrorKind → Bytes
  | lex => .ascii "LexError"
  | parse => .ascii "ParseError"
  | unknownContentKind => .ascii "UnknownContentKind"
  | invalidParameterValue => .ascii "InvalidParameterValue"
  | invalidColour => .ascii "InvalidColour"
  | unresolvedStyleTarget => .ascii "UnresolvedStyleTarget"

namespace CompileError

/-- What is wrong with a source. -/
inductive Cause where
  /-- No lexeme can be read, for the reason given. -/
  | lex (reason : Bytes)
  /-- Something else was found than was expected; `note` replaces that wording where it is given. -/
  | parse (expected found note : Bytes)
  /-- A content expression starts with a word that is no content kind. -/
  | unknownContentKind (identifier : Bytes)
  /-- A property has a value that it cannot take. -/
  | invalidParameterValue (key reason : Bytes)
  | invalidColour (literal : Bytes)
  /-- A style block is for an element name that no element has. -/
  | unresolvedStyleTarget (target : Bytes)
deriving DecidableEq

open Bytes

def Cause.kind : Cause → ErrorKind
  | lex _ => .lex
  | parse .. => .parse
  | unknownContentKind _ => .unknownContentKind
  | invalidParameterValue .. => .invalidParameterValue
  | invalidColour _ => .invalidColour
  | unresolvedStyleTarget _ => .unresolvedStyleTarget

/-- What a parser expected and what it found, for the causes that a parser finds. -/
def Cause.expectation? : Cause → Option (Bytes × Bytes)
  | parse expected found _ => some (expected, found)
  | unknownContentKind identifier => some (ascii "a content kind", apostrophed identifier)
  | _ => none

def Cause.message : Cause → Bytes
  | lex reason => reason
  | parse expected found [] => ascii "expected " ++ expected ++ ascii ", found " ++ found
  | parse _ _ note => note
  | unknownContentKind identifier => ascii "unknown content kind " ++ apostrophed identifier
  | invalidParameterValue key reason =>
      ascii "invalid value for " ++ apostrophed key ++ ascii ": " ++ reason
  | invalidColour literal =>
      apostrophed literal ++ ascii " is not a #RRGGBB or #RRGGBBAA colour"
  | unresolvedStyleTarget target =>
      ascii "style block targets " ++ apostrophed target ++ ascii " but no element has that name"

end CompileError

/-- An error and the place that it is reported at. -/
structure CompileError where
  position : Position
  cause : CompileError.Cause
deriving DecidableEq

namespace CompileError

def kind (e : CompileError) : ErrorKind :=
  e.cause.kind

def message (e : CompileError) : Bytes :=
  e.cause.message

/-- Position, kind and message in one line: `3:14: ParseError: ...`. -/
def line (e : CompileError) : Bytes :=
  e.position.text ++ .ascii ": " ++ e.kind.name ++ .ascii ": " ++ e.message

/-- The line of an error up to its first NUL. -/
def report (e : CompileError) : Bytes :=
  e.line.untilNul

end CompileError

end SlideDeck
