import SlideDeck.Slide.Basic

/-! # Canonical source text

The text of a document in its canonical form: one slide after another, the
content of a slide on one line, each style block on a line of its own, and
properties in ascending order of their keys.  Reading that text gives the
document back, positions apart. -/

namespace SlideDeck

open Bytes

namespace Element

/-- What an element's text begins with: its name, if it has one, and its kind. -/
def printedHead (e : Element) : Bytes :=
  match e.name with
  | some name => name ++ ascii " :: " ++ e.kind.name
  | none => e.kind.name

/-- What an element's text ends with: the block of its own properties, unless it is empty. -/
def printedParams (e : Element) : Bytes :=
  if e.attributes.params.entries = [] then [] else e.attributes.params.text

mutual

def printed : Element → Bytes
  | hole => []
  | text a value => (text a value).printedHead ++ ascii "(" ++ value.quoted ++ ascii ")"
      ++ (text a value).printedParams
  | centre a child => (centre a child).printedHead ++ ascii "(" ++ child.printed ++ ascii ")"
      ++ (centre a child).printedParams
  | padding a child => (padding a child).printedHead ++ ascii "(" ++ child.printed ++ ascii ")"
      ++ (padding a child).printedParams
  | stack a axis children => (stack a axis children).printedHead ++ ascii "("
      ++ joined (ascii ", ") (printedAll children) ++ ascii ")"
      ++ (stack a axis children).printedParams

def printedAll : List Element → List Bytes
  | [] => []
  | e :: rest => e.printed :: printedAll rest

end

end Element

def StyleBlock.printed (b : StyleBlock) : Bytes :=
  b.target ++ ascii " " ++ b.properties.text

namespace Slide

/-- A line of a slide's text, four spaces in. -/
def printedLine (text : Bytes) : Bytes :=
  ascii "    " ++ text ++ ascii "\n"

def printed (s : Slide) : Bytes :=
  ascii "[\n"
    ++ (if s.content.isHole then [] else printedLine s.content.printed)
    ++ s.styles.flatMap (fun b => printedLine b.printed)
    ++ ascii "]\n"

end Slide

def Document.printed (d : Document) : Bytes :=
  joined (ascii "\n") (d.slides.map Slide.printed)

end SlideDeck
