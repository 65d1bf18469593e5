import SlideDeck.Binary64.Written
import SlideDeck.Box.Basic
import SlideDeck.Text.Quoted

/-! # Texts of boxes

Two forms of a tree of boxes: `serialized`, compact and on one line, and
`tree`, with each box on a line of its own, two spaces in for each level. -/

namespace SlideDeck

open Bytes

namespace Frame

/-- What stands between the braces of a frame's compact form, before its children. -/
def serialized (f : Frame) : Bytes :=
  f.kind.name
    ++ (if f.name = [] then [] else ascii " name:" ++ f.name)
    ++ ascii " x:" ++ signed f.x
    ++ ascii " y:" ++ signed f.y
    ++ ascii " w:" ++ signed f.width
    ++ ascii " h:" ++ signed f.height
    ++ match f.text with
      | some t => ascii " " ++ t.value.quoted
      | none => []

/-- The line of a frame, without its indentation. -/
def line (f : Frame) : Bytes :=
  f.kind.name
    ++ (if f.name = [] then [] else ascii " " ++ apostrophed f.name)
    ++ ascii " @(" ++ signed f.x ++ ascii "," ++ signed f.y ++ ascii ") "
    ++ dimensions f.width f.height
    ++ match f.text with
      | some t => ascii " " ++ t.value.quoted ++ ascii " size=" ++ t.size.written
          ++ ascii " fill=" ++ t.fill.text
      | none => []

end Frame

namespace Box

mutual

def serialized : Box → Bytes
  | mk f cs => ascii "\x7b" ++ f.serialized ++ serializedAll cs ++ ascii "\x7d"

/-- The compact forms of some trees, one directly after the other. -/
def serializedAll : List Box → Bytes
  | [] => []
  | b :: rest => serialized b ++ serializedAll rest

end

mutual

/-- A tree with each box on a line, `indent` levels in. -/
def tree (indent : Nat) : Box → Bytes
  | mk f cs => List.replicate (2 * indent) 32 ++ f.line ++ ascii "\n" ++ treeAll (indent + 1) cs

/-- Some trees with each box on a line, `indent` levels in. -/
def treeAll (indent : Nat) : List Box → Bytes
  | [] => []
  | b :: rest => tree indent b ++ treeAll indent rest

end

end Box

end SlideDeck
