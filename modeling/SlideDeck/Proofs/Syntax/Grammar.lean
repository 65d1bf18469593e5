import SlideDeck.Proofs.Property.Colour
import SlideDeck.Slide.Parse

/-! # The grammar of documents

Which lists of tokens are documents and which document each of them denotes,
said without a reader.

* `Entries`, `Block` and `Content` are the productions for properties, blocks
  of them, and content; `Items` is the inside of a slide.
* `SlideTokens` adds the rules that no production can state: there is one
  content, elements have distinct names of their own and are numbered in
  pre-order, targets are distinct, and nesting is bounded.
* `Denotes` is a whole document.

The productions number nothing and keep no names.  An element in them may carry
any number, and the rules of a slide say afterwards what the numbers and names of
its whole tree are. -/

namespace SlideDeck.Syntax

/-! ## Properties -/

/-- A property, the lexeme that it is given, and the value that this lexeme stands for. -/
inductive Value : Property → Lexeme → PropertyValue → Prop
  | number {p : Property} {literal : Bytes} {v : Binary64} :
      p.valueType = .number → ¬ v.isNegative → ¬ (p.mustBePositive ∧ v.isZero) →
      Value p (.number literal v) (.number v)
  | colour {p : Property} {text : Bytes} {c : Colour} :
      p.valueType = .colour → ColourText text c → Value p (.string text) (.colour c)

/-- A comma, or nothing. -/
inductive OptionalComma : List Token → Prop
  | absent : OptionalComma []
  | present {place : Position} : OptionalComma [⟨.comma, place⟩]

/-- `(key ':' value ','?)*`, and the properties in the order of the source. -/
inductive Entries : List Token → List (Property × PropertyValue) → Prop
  | nil : Entries [] []
  | cons {p : Property} {l : Lexeme} {v : PropertyValue} {comma rest : List Token}
      {entries : List (Property × PropertyValue)} {first second third : Position} :
      Value p l v → OptionalComma comma → Entries rest entries →
      Entries (⟨.identifier p.key, first⟩ :: ⟨.colon, second⟩ :: ⟨l, third⟩ :: (comma ++ rest))
        ((p, v) :: entries)

/-- The map of some properties with their values. -/
def mapOf (entries : List (Property × PropertyValue)) : PropertyMap :=
  .ofList (entries.map fun e => (e.1.key, e.2))

/-- `'{' (key ':' value ','?)* '}'`, with each property once; a block that is attached to content
has only properties that content of this kind sets for itself. -/
inductive Block (inline : Option Kind) : List Token → PropertyMap → Prop
  | mk {body : List Token} {entries : List (Property × PropertyValue)} {first last : Position} :
      Entries body entries → (entries.map Prod.fst).Nodup →
      (∀ kind ∈ inline, ∀ e ∈ entries, e.1 ∈ kind.inlineProperties) →
      Block inline (⟨.leftBrace, first⟩ :: (body ++ [⟨.rightBrace, last⟩])) (mapOf entries)

/-! ## Content -/

/-- `(identifier '::')? kind '('`, the name, and the place where it begins. -/
inductive Head (kind : Kind) : List Token → Option Bytes → Position → Prop
  | unnamed {first second : Position} :
      Head kind [⟨.identifier kind.name, first⟩, ⟨.leftParen, second⟩] none first
  | named {name : Bytes} {first second third fourth : Position} :
      Head kind
        [⟨.identifier name, first⟩, ⟨.definition, second⟩, ⟨.identifier kind.name, third⟩,
          ⟨.leftParen, fourth⟩]
        (some name) first

/-- `')' block?`, and the properties that are set. -/
inductive Tail (kind : Kind) : List Token → PropertyMap → Prop
  | bare {place : Position} : Tail kind [⟨.rightParen, place⟩] ∅
  | block {place : Position} {ts : List Token} {m : PropertyMap} :
      Block kind ts m → Tail kind (⟨.rightParen, place⟩ :: ts) m

mutual

/-- `(identifier '::')? kind '(' arguments ')' block?`, and an element with any number. -/
inductive Content : List Token → Element → Prop
  | text {a : Attributes} {value : Bytes} {head comma tail : List Token} {place : Position} :
      Head .text head a.name a.position → OptionalComma comma → Tail .text tail a.params →
      Content (head ++ ⟨.string value, place⟩ :: (comma ++ tail)) (.text a value)
  | centre {a : Attributes} {child : Element} {head body comma tail : List Token} :
      Head .centre head a.name a.position → Content body child → OptionalComma comma →
      Tail .centre tail a.params →
      Content (head ++ (body ++ (comma ++ tail))) (.centre a child)
  | padding {a : Attributes} {child : Element} {head body comma tail : List Token} :
      Head .padding head a.name a.position → Content body child → OptionalComma comma →
      Tail .padding tail a.params →
      Content (head ++ (body ++ (comma ++ tail))) (.padding a child)
  | stack {a : Attributes} {axis : Axis} {children : List Element}
      {head body tail : List Token} :
      Head axis.kind head a.name a.position → Contents body children →
      Tail axis.kind tail a.params →
      Content (head ++ (body ++ tail)) (.stack a axis children)

/-- `content (',' content)* ','?`. -/
inductive Contents : List Token → List Element → Prop
  | last {child : Element} {body comma : List Token} :
      Content body child → OptionalComma comma → Contents (body ++ comma) [child]
  | more {child : Element} {children : List Element} {body rest : List Token}
      {place : Position} :
      Content body child → Contents rest children →
      Contents (body ++ ⟨.comma, place⟩ :: rest) (child :: children)

end

/-! ## Slides -/

/-- `(content | identifier block)*`, the contents, and the style blocks. -/
inductive Items : List Token → List Element → List StyleBlock → Prop
  | nil : Items [] [] []
  | content {body rest : List Token} {e : Element} {es : List Element} {bs : List StyleBlock} :
      Content body e → Items rest es bs → Items (body ++ rest) (e :: es) bs
  | block {target : Bytes} {place : Position} {ts rest : List Token} {m : PropertyMap}
      {es : List Element} {bs : List StyleBlock} :
      Block none ts m → Items rest es bs →
      Items (⟨.identifier target, place⟩ :: (ts ++ rest)) es (⟨target, m, place⟩ :: bs)

/-- The names of some elements in order. -/
def namesOf (nodes : List Element) : List Bytes :=
  nodes.filterMap Element.name

mutual

/-- The number of levels in a tree of content. -/
def depth : Element → Nat
  | .hole => 0
  | .text .. => 1
  | .centre _ child => depth child + 1
  | .padding _ child => depth child + 1
  | .stack _ _ children => depthAll children + 1

/-- The number of levels in the deepest of some trees. -/
def depthAll : List Element → Nat
  | [] => 0
  | e :: rest => max (depth e) (depthAll rest)

end

/-- `'[' (content | identifier block)* ']'` with the rules for a slide as a whole. -/
inductive SlideTokens : List Token → Slide → Prop
  | mk {body : List Token} {content : Element} {styles : List StyleBlock}
      {first last : Position} :
      Items body [content] styles →
      (styles.map StyleBlock.target).Nodup →
      (namesOf content.flatten).Nodup →
      (∀ name ∈ namesOf content.flatten, name ≠ slideWord ∧ ∀ kind : Kind, name ≠ kind.name) →
      depth content ≤ 256 →
      content.flatten.map Element.id = List.range content.flatten.length →
      SlideTokens (⟨.leftBracket, first⟩ :: (body ++ [⟨.rightBracket, last⟩]))
        ⟨content, styles, first, content.flatten.length⟩

/-! ## Documents -/

/-- `slide*`. -/
inductive Slides : List Token → List Slide → Prop
  | nil : Slides [] []
  | cons {ts rest : List Token} {s : Slide} {slides : List Slide} :
      SlideTokens ts s → Slides rest slides → Slides (ts ++ rest) (s :: slides)

/-- The tokens before the end of the input, and the document that they denote. -/
def Denotes (ts : List Token) (d : Document) : Prop :=
  Slides ts d.slides

end SlideDeck.Syntax
