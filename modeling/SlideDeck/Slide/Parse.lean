import SlideDeck.Slide.Basic
import SlideDeck.Slide.Fault
import SlideDeck.Token.Scan

/-! # Reading documents

A document is read from its tokens by recursive descent with one token of
look-ahead.

* `Upcoming` is the state of a reader: the tokens still to come, and what the
  current slide has used up, namely numbers and names of elements.
* `element`, `properties`, `styleBlock`, `slide` each read one construct.
* `Document.ofTokens` and `Document.ofSource` read a whole document.

`element` recurses on the levels of nesting that are left, which the format
limits anyway.  A loop within one level takes at least one token each time round,
so the number of tokens to come bounds it. -/

namespace SlideDeck

open Bytes

/-! ## State -/

/-- The tokens to come, up to the end of the input, and where that end is; beside them the number
of the next element and the names that elements of the current slide have.  The number is exact: in
32 bits it would be zero again after `2 ^ 32` elements of one slide. -/
structure Upcoming where
  tokens : List Token
  stop : Position
  nextId : Nat := 0
  names : List Bytes := []

/-- The state before the first of some tokens.  Comments do not count, nothing after the first end
of input is read, and where there is none the input ends at the last token. -/
def Upcoming.ofTokens (tokens : List Token) : Upcoming :=
  let significant := tokens.filter fun t => !(t.lexeme matches .comment _)
  let stop := (significant.find? fun t => t.lexeme = .endOfInput).or significant.getLast?
  ⟨significant.takeWhile fun t => t.lexeme ≠ .endOfInput, (stop.map Token.position).getD {}, 0, []⟩

/-- A reader of some construct. -/
abbrev Reader := StateT Upcoming (Except CompileError)

namespace Reader

def current : Reader Token := do
  let s ← get
  return s.tokens.head?.getD ⟨.endOfInput, s.stop⟩

/-- The lexeme of the token after the next one. -/
def following : Reader Lexeme := do
  let s ← get
  return (s.tokens.drop 1).head?.elim .endOfInput Token.lexeme

def advance : Reader Unit :=
  modify fun s => { s with tokens := s.tokens.drop 1 }

/-- A bound on the number of tokens to come. -/
def limit : Reader Nat := do
  return (← get).tokens.length + 1

def failAt {α : Type} (p : Position) (f : GrammarFault) : Reader α :=
  throw (f.errorAt p)

/-- Report that something else was expected in place of the next token. -/
def unexpected {α : Type} (expected : Bytes) : Reader α := do
  let t ← current
  failAt t.position (.unexpected expected t.lexeme)

def isNext (l : Lexeme) : Reader Bool := do
  return (← current).lexeme = l

def skip (l : Lexeme) (expected : Bytes) : Reader Unit := do
  if ← isNext l then advance else unexpected expected

/-- Step over a comma that stands directly before a closing parenthesis. -/
def trailingComma : Reader Unit := do
  if ← isNext .comma then
    if (← following) = .rightParen then advance

/-! ## Properties -/

def propertyValue (property : Property) (key : Bytes) : Reader PropertyValue := do
  let t ← current
  match t.lexeme with
  | .number literal v =>
      if property.valueType = .colour then failAt t.position (.notColourText key t.lexeme)
      else if v.isNegative then failAt t.position (.negativeNumber key literal)
      else if property.mustBePositive ∧ v.isZero then failAt t.position (.zeroNumber key)
      else
        advance
        return .number v
  | .string text =>
      if property.valueType = .number then failAt t.position (.notNumber key t.lexeme)
      else match Colour.ofText? text with
        | none => failAt t.position (.notColour text)
        | some c =>
            advance
            return .colour c
  | _ => unexpected (ascii "a number or string value for " ++ apostrophed key)

/-- Read one property into a map; `inline` is the kind of content that the block is attached to. -/
def property (inline : Option Kind) (m : PropertyMap) : Reader PropertyMap := do
  let t ← current
  match t.lexeme with
  | .identifier key =>
      match Property.ofKey? key with
      | none => failAt t.position (.unknownProperty key)
      | some p =>
          -- Only a block attached to content is limited to that content's own properties.
          if let some kind := inline then
            if p ∉ kind.inlineProperties then failAt t.position (.misplacedProperty kind key)
          if m.contains key then failAt t.position (.repeatedProperty key)
          advance
          skip .colon (ascii "':' after " ++ apostrophed key)
          let v ← propertyValue p key
          if ← isNext .comma then advance
          return m.insert key v
  | _ => unexpected (ascii "a property name or '\x7d'")

/-- Read properties into a map up to the closing brace, at most `limit` of them. -/
def propertiesInto (inline : Option Kind) : Nat → PropertyMap → Reader PropertyMap
  | 0, m => return m
  | limit + 1, m => do
      if ← isNext .rightBrace then
        advance
        return m
      else
        propertiesInto inline limit (← property inline m)

def properties (inline : Option Kind) : Reader PropertyMap := do
  skip .leftBrace (ascii "'\x7b'")
  propertiesInto inline (← limit) ∅

/-! ## Content -/

/-- Take the number of the next element. -/
def freshId : Reader Nat := do
  let s ← get
  set { s with nextId := s.nextId + 1 }
  return s.nextId

/-- Read the name of an element with its double colon, if there is one. -/
def elementName : Reader (Option Bytes) := do
  let t ← current
  match t.lexeme with
  | .identifier name =>
      if (← following) = .definition then
        if isReserved name then failAt t.position (.reservedName name)
        if name ∈ (← get).names then failAt t.position (.repeatedName name)
        modify fun s => { s with names := name :: s.names }
        advance
        advance
        return some name
      else return none
  | _ => return none

def elementKind : Reader Kind := do
  let t ← current
  match t.lexeme with
  | .identifier word =>
      match Kind.ofName? word with
      | none => failAt t.position (.unknownKind word)
      | some kind =>
          advance
          skip .leftParen (ascii "'(' after " ++ apostrophed word)
          return kind
  | _ => unexpected (ascii "a content kind")

def onlyChild (element : Reader Element) : Reader Element := do
  if ← isNext .rightParen then unexpected (ascii "one content argument")
  let child ← element
  trailingComma
  return child

/-- Read children with commas between them, at most `limit` of them. -/
def childrenFrom (element : Reader Element) : Nat → Reader (List Element)
  | 0 => return []
  | limit + 1 => do
      let child ← element
      if ← isNext .comma then
        advance
        if ← isNext .rightParen then return [child]
        return child :: (← childrenFrom element limit)
      else return [child]

/-- Read the children of a row or a column, of which there is at least one. -/
def children (element : Reader Element) : Reader (List Element) := do
  if ← isNext .rightParen then unexpected (ascii "at least one content argument")
  childrenFrom element (← limit)

def textArgument : Reader Bytes := do
  match (← current).lexeme with
  | .string value =>
      advance
      trailingComma
      return value
  | _ => unexpected (ascii "a string argument to text")

/-- Read what stands between the parentheses of content; the result still lacks the attributes. -/
def arguments (element : Reader Element) : Kind → Reader (Attributes → Element)
  | .text => return (fun value a => .text a value) (← textArgument)
  | .centre => return (fun child a => .centre a child) (← onlyChild element)
  | .padding => return (fun child a => .padding a child) (← onlyChild element)
  | .row => return (fun children a => .stack a .horizontal children) (← children element)
  | .column => return (fun children a => .stack a .vertical children) (← children element)

/-- Read content that may be nested through `levels` levels. -/
def element : Nat → Reader Element
  | 0 => do
      let t ← current
      failAt t.position (.tooDeep t.lexeme)
  | levels + 1 => do
      let position := (← current).position
      -- The number is taken before the children are read, which makes numbering pre-order.
      let id ← freshId
      let name ← elementName
      let kind ← elementKind
      let withAttributes ← arguments (element levels) kind
      skip .rightParen (ascii "')'")
      let params ← if ← isNext .leftBrace then properties kind else pure ∅
      return withAttributes ⟨id, name, params, position⟩

/-! ## Slides -/

def styleBlock (target : Bytes) : Reader StyleBlock := do
  let position := (← current).position
  advance
  return ⟨target, ← properties none, position⟩

/-- Read one item of a slide, content or a style block, and add it to the slide. -/
def item (s : Slide) : Reader Slide := do
  let t ← current
  match t.lexeme with
  | .identifier word =>
      match ← following with
      | .leftBrace =>
          -- The block is read first: a fault inside it wins over its being the second one.
          let block ← styleBlock word
          if (s.findStyle? word).isSome then failAt block.position (.repeatedBlock word)
          return { s with styles := s.styles ++ [block] }
      | .leftParen | .definition =>
          if !s.content.isHole then failAt t.position (.secondContent t.lexeme)
          return { s with content := ← element nestingLimit }
      | _ =>
          advance
          unexpected (ascii "'(' or '\x7b'")
  | .endOfInput => unexpected (ascii "']' to close the slide")
  | _ => unexpected (ascii "a content expression or style block")

/-- Read items of a slide up to the closing bracket, at most `limit` of them. -/
def itemsInto : Nat → Slide → Reader Slide
  | 0, s => return s
  | limit + 1, s => do
      if ← isNext .rightBracket then return s
      else itemsInto limit (← item s)

/-- Read a slide whose opening bracket is the next token. -/
def slide : Reader Slide := do
  let position := (← current).position
  advance
  modify fun s => { s with nextId := 0, names := [] }
  let s ← itemsInto (← limit) { position }
  if s.content.isHole then failAt position .emptySlide
  advance
  return { s with nodeCount := (← get).nextId }

/-- Read slides up to the end of the input, at most `limit` of them, after those in `reversed`. -/
def slidesFrom : Nat → List Slide → Reader (List Slide)
  | 0, reversed => return reversed.reverse
  | limit + 1, reversed => do
      match (← current).lexeme with
      | .endOfInput => return reversed.reverse
      | .leftBracket => slidesFrom limit ((← slide) :: reversed)
      | _ => unexpected (ascii "'[' to open a slide")

end Reader

/-! ## Documents -/

def Document.ofTokens (tokens : List Token) : Except CompileError Document := do
  let (slides, _) ← (do Reader.slidesFrom (← Reader.limit) []).run (.ofTokens tokens)
  return ⟨slides⟩

def Document.ofSource (source : Bytes) : Except CompileError Document := do
  ofTokens (← tokenize false source)

end SlideDeck
