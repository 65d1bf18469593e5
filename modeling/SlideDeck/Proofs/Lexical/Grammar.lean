import SlideDeck.Proofs.Text.Bytes
import SlideDeck.Token.Scan

/-! # The lexical grammar

What the lexemes of a source are and what may stand between them, said without
a scanner.

* `Gap` is a run of blanks and comments before some following bytes.
* `Spelled` relates a lexeme to the bytes that it is written with.
* `Ends` is the rule of maximal munch: what cannot stand directly behind a
  lexeme, because it would have been part of it.
* `Divided` is a whole source, divided into lexemes with gaps between them.

A comment has no end of its own.  It runs up to a line feed or the end of the
input, so whether bytes are a gap depends on what follows them, and `Gap` carries
that as its second index. -/

namespace SlideDeck.Lexical

open Bytes

/-! ## Gaps -/

/-- The bytes end a line: there are none, or the first one is a line feed. -/
def EndsLine (rest : Bytes) : Prop :=
  ∀ b ∈ rest.head?, b = newline

/-- Blanks and comments before some following bytes. -/
inductive Gap : Bytes → Bytes → Prop
  | nil {after : Bytes} : Gap [] after
  | blank {b : UInt8} {rest after : Bytes} :
      isBlank b → Gap rest after → Gap (b :: rest) after
  | comment {text rest after : Bytes} :
      newline ∉ text → EndsLine (rest ++ after) → Gap rest after →
      Gap (47 :: 47 :: (text ++ rest)) after

/-- The bytes begin with neither a blank nor a comment. -/
def Begins (rest : Bytes) : Prop :=
  (∀ b ∈ rest.head?, ¬ isBlank b) ∧ ∀ more, rest ≠ 47 :: 47 :: more

/-! ## Spellings -/

/-- The byte behind a backslash and the byte that the two denote. -/
inductive Escape : UInt8 → UInt8 → Prop
  | quote : Escape 34 34
  | backslash : Escape 92 92
  | lineFeed : Escape 110 10
  | tab : Escape 116 9

/-- The value of a string and what stands between its quotes. -/
inductive StringBody : Bytes → Bytes → Prop
  | nil : StringBody [] []
  | plain {b : UInt8} {value body : Bytes} :
      b ≠ 34 → b ≠ 92 → StringBody value body → StringBody (b :: value) (b :: body)
  | escape {e b : UInt8} {value body : Bytes} :
      Escape e b → StringBody value body → StringBody (b :: value) (92 :: e :: body)

/-- A minus sign where a number is negative. -/
def minus (negative : Bool) : Bytes :=
  if negative then [45] else []

/-- A run of digits, of which there is at least one. -/
def Digits (text : Bytes) : Prop :=
  text ≠ [] ∧ ∀ b ∈ text, isDigit b

/-- The digits of a fraction and the fraction with its point; it may be absent. -/
inductive Fraction : Bytes → Bytes → Prop
  | absent : Fraction [] []
  | present {digits : Bytes} : Digits digits → Fraction digits (46 :: digits)

/-- An identifier: a letter or an underscore, and identifier bytes after it. -/
def IsIdentifier (name : Bytes) : Prop :=
  (∃ b ∈ name.head?, startsIdentifier b) ∧ ∀ b ∈ name, continuesIdentifier b

/-- A lexeme and the bytes that it is written with. -/
inductive Spelled : Lexeme → Bytes → Prop
  | leftBracket : Spelled .leftBracket [91]
  | rightBracket : Spelled .rightBracket [93]
  | leftBrace : Spelled .leftBrace [123]
  | rightBrace : Spelled .rightBrace [125]
  | leftParen : Spelled .leftParen [40]
  | rightParen : Spelled .rightParen [41]
  | comma : Spelled .comma [44]
  | colon : Spelled .colon [58]
  | definition : Spelled .definition [58, 58]
  | identifier {name : Bytes} : IsIdentifier name → Spelled (.identifier name) name
  | string {value body : Bytes} :
      StringBody value body → Spelled (.string value) (34 :: (body ++ [34]))
  | number {negative : Bool} {whole fraction tail : Bytes} {value : Binary64} :
      Digits whole → Fraction fraction tail →
      Binary64.ofDecimal? (Binary64.literal negative whole fraction) = some value →
      Spelled (.number (minus negative ++ whole ++ tail) value) (minus negative ++ whole ++ tail)

/-- What follows a lexeme does not go on with it. -/
def Ends : Lexeme → Bytes → Prop
  | .identifier _, rest => ∀ b ∈ rest.head?, ¬ continuesIdentifier b
  | .number .., rest => ∀ b ∈ rest.head?, ¬ isDigit b ∧ b ≠ 46 ∧ ¬ startsIdentifier b
  | .colon, rest => rest.head? ≠ some 58
  | _, _ => True

/-! ## Divided sources -/

/-- A lexeme as it stands in a source: the gap before it, and its spelling. -/
structure Piece where
  gap : Bytes
  spelling : Bytes
  lexeme : Lexeme

/-- The pieces of a source in order, the gap before the end of the input, and the source. -/
inductive Divided : List Piece → Bytes → Bytes → Prop
  | done {last : Bytes} : Gap last [] → Divided [] last last
  | piece {p : Piece} {ps : List Piece} {last rest : Bytes} :
      Gap p.gap (p.spelling ++ rest) → Spelled p.lexeme p.spelling → Ends p.lexeme rest →
      Divided ps last rest → Divided (p :: ps) last (p.gap ++ (p.spelling ++ rest))

/-- The tokens of some pieces that begin at a position, and the end of the input after them. -/
def tokensFrom : Position → List Piece → Bytes → List Token
  | place, [], last => [⟨.endOfInput, place.after last⟩]
  | place, p :: ps, last =>
      ⟨p.lexeme, place.after p.gap⟩
        :: tokensFrom ((place.after p.gap).after p.spelling) ps last

/-- The lexemes of some pieces that begin at an offset, each with the offset of its first byte. -/
def marked : Nat → List Piece → List (Lexeme × Nat)
  | _, [] => []
  | offset, p :: ps =>
      (p.lexeme, offset + p.gap.length)
        :: marked (offset + p.gap.length + p.spelling.length) ps

/-! ## How spellings begin -/

theorem escape_iff {e b : UInt8} : Escape e b ↔ unescape e = some b := by
  constructor
  · rintro (_ | _) <;> rfl
  · intro h
    rw [unescape] at h
    split at h
    · next equal => cases equal; cases h; exact .quote
    · split at h
      · next equal => cases equal; cases h; exact .backslash
      · split at h
        · next equal => cases equal; cases h; exact .lineFeed
        · split at h
          · next equal => cases equal; cases h; exact .tab
          · cases h

/-- A spelling has a first byte, which is neither a blank nor a slash nor a point. -/
theorem Spelled.head {l : Lexeme} {text : Bytes} (spelled : Spelled l text) :
    ∃ b more, text = b :: more ∧ ¬ isBlank b ∧ b ≠ 47 ∧ b ≠ 46 := by
  cases spelled with
  | leftBracket | rightBracket | leftBrace | rightBrace | leftParen | rightParen | comma | colon
  | definition | string => exact ⟨_, _, rfl, by decide, by decide, by decide⟩
  | identifier isIdentifier =>
    obtain ⟨b, first, starts⟩ := isIdentifier.1
    cases text with
    | nil => cases first
    | cons c more =>
      cases first
      refine ⟨b, more, rfl, startsIdentifier_not_blank b starts, ?_, ?_⟩ <;>
        (rintro rfl; exact absurd starts (by decide))
  | @number negative whole _ _ _ digits =>
    cases negative with
    | true => exact ⟨45, _, rfl, by decide, by decide, by decide⟩
    | false =>
      cases whole with
      | nil => exact absurd rfl digits.1
      | cons b more =>
        have digit := digits.2 b (List.mem_cons_self ..)
        refine ⟨b, _, rfl, isDigit_not_blank b digit, ?_, ?_⟩ <;>
          (rintro rfl; exact absurd digit (by decide))

theorem Spelled.begins {l : Lexeme} {text : Bytes} (spelled : Spelled l text) (rest : Bytes) :
    Begins (text ++ rest) := by
  obtain ⟨b, more, rfl, notBlank, notSlash, -⟩ := spelled.head
  constructor
  · rintro c ⟨⟩
    exact notBlank
  · rintro after equal
    injection equal with first
    exact notSlash first

theorem begins_nil : Begins [] :=
  ⟨nofun, nofun⟩

theorem Spelled.not_endOfInput {l : Lexeme} {text : Bytes} (spelled : Spelled l text) :
    l ≠ .endOfInput := by
  rintro rfl
  cases spelled

theorem Gap.head {gap after : Bytes} (h : Gap gap after) : gap.head? ≠ some 46 := by
  cases h with
  | nil => nofun
  | blank blank _ =>
    rintro ⟨⟩
    exact absurd blank (by decide)
  | comment => nofun

/-- No source that can be divided begins with a point. -/
theorem Divided.head {ps : List Piece} {last source : Bytes} (h : Divided ps last source) :
    source.head? ≠ some 46 := by
  cases h with
  | done isGap => exact isGap.head
  | @piece p _ _ rest isGap spelled _ _ =>
    obtain ⟨b, more, equal, -, -, notPoint⟩ := spelled.head
    -- The first byte is one of the gap, or of the spelling if the gap is empty.
    cases first : p.gap with
    | nil => simpa [equal] using notPoint
    | cons c gap => simpa [first] using isGap.head

end SlideDeck.Lexical
