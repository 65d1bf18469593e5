import SlideDeck.CompileError
import SlideDeck.Slide.Kind
import SlideDeck.Token.Basic

/-! # Faults of a token sequence

Every way in which a sequence of tokens fails to be a document, and the cause
that is reported for it. -/

namespace SlideDeck

open Bytes CompileError

/-- How deep content may be nested. -/
def nestingLimit : Nat := 256

/-- The keys of some properties as alternatives: `'size' or 'fill'`. -/
def alternatives : List Property → Bytes
  | [] => ascii "no parameters"
  | [p] => apostrophed p.key
  | [p, q] => apostrophed p.key ++ ascii " or " ++ apostrophed q.key
  | p :: rest => apostrophed p.key ++ ascii ", " ++ alternatives rest

/-- Why a sequence of tokens is no document. -/
inductive GrammarFault where
  /-- A token of another class was expected. -/
  | unexpected (expected : Bytes) (found : Lexeme)
  | tooDeep (found : Lexeme)
  /-- An element is named by a kind or by the word for the slide. -/
  | reservedName (name : Bytes)
  | repeatedName (name : Bytes)
  | unknownKind (word : Bytes)
  | unknownProperty (key : Bytes)
  /-- A property is not one that content of this kind sets for itself. -/
  | misplacedProperty (kind : Kind) (key : Bytes)
  | repeatedProperty (key : Bytes)
  | notNumber (key : Bytes) (found : Lexeme)
  | negativeNumber (key literal : Bytes)
  | zeroNumber (key : Bytes)
  /-- A property takes a colour and is given another value. -/
  | notColourText (key : Bytes) (found : Lexeme)
  | notColour (literal : Bytes)
  | repeatedBlock (target : Bytes)
  | secondContent (found : Lexeme)
  | emptySlide
deriving DecidableEq

namespace GrammarFault

def cause : GrammarFault → Cause
  | unexpected expected found => .parse expected found.described []
  | tooDeep found => .parse (ascii "shallower nesting") found.described
      (ascii "content nested deeper than " ++ decimal nestingLimit ++ ascii " levels")
  | reservedName name =>
      .parse (ascii "an element name") (ascii "reserved word " ++ apostrophed name) []
  | repeatedName name => .parse (ascii "a unique element name") (apostrophed name)
      (ascii "element name " ++ apostrophed name ++ ascii " is already used in this slide")
  | unknownKind word => .unknownContentKind word
  | unknownProperty key =>
      .parse (ascii "a property name") (ascii "unknown property " ++ apostrophed key) []
  | misplacedProperty kind key =>
      .parse (alternatives kind.inlineProperties) (ascii "property " ++ apostrophed key) []
  | repeatedProperty key => .parse (ascii "each property once per block")
      (ascii "repeated property " ++ apostrophed key) []
  | notNumber key found =>
      .invalidParameterValue key (ascii "expected a number, found " ++ found.described)
  | negativeNumber key literal => .invalidParameterValue key (literal ++ ascii " is negative")
  | zeroNumber key => .invalidParameterValue key (ascii "must be greater than zero")
  | notColourText key found =>
      .invalidParameterValue key (ascii "expected a colour string, found " ++ found.described)
  | notColour literal => .invalidColour literal
  | repeatedBlock target => .parse (ascii "one style block per target")
      (ascii "second " ++ apostrophed target ++ ascii " block")
      (ascii "duplicate style block for " ++ apostrophed target)
  | secondContent found => .parse (ascii "']' or a style block") found.described
      (ascii "multiple content roots")
  | emptySlide => .parse (ascii "a content expression") (ascii "an empty slide") []

def errorAt (f : GrammarFault) (p : Position) : CompileError :=
  ⟨p, f.cause⟩

end GrammarFault

end SlideDeck
