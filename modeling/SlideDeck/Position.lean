import SlideDeck.Text.Decimal

/-! # Positions in a source

A position is an offset in bytes together with the line and column that the
offset falls on, both counted from one.  A column counts bytes too.

No position is set by hand.  It is always `start.after consumed` for the bytes
consumed so far, so line and column follow from the bytes alone. -/

namespace SlideDeck

/-- A place in a source text. -/
structure Position where
  offset : Nat := 0
  line : Nat := 1
  column : Nat := 1
deriving DecidableEq, Inhabited

namespace Position

/-- The place of the first byte. -/
def start : Position := {}

/-- The place just after one more byte; a line feed starts the next line. -/
def step (p : Position) (b : UInt8) : Position :=
  if b = Bytes.newline then ⟨p.offset + 1, p.line + 1, 1⟩
  else ⟨p.offset + 1, p.line, p.column + 1⟩

/-- The place just after some more bytes. -/
def after (p : Position) (consumed : Bytes) : Position :=
  consumed.foldl step p

/-- Line and column as messages give them: `3:14`. -/
def text (p : Position) : Bytes :=
  Bytes.decimal p.line ++ Bytes.ascii ":" ++ Bytes.decimal p.column

/-! ## Consuming bytes -/

@[simp] theorem after_nil (p : Position) : p.after [] = p := rfl

@[simp] theorem after_append (p : Position) (first second : Bytes) :
    p.after (first ++ second) = (p.after first).after second :=
  List.foldl_append

@[simp] theorem offset_step (p : Position) (b : UInt8) : (p.step b).offset = p.offset + 1 := by
  unfold step; split <;> rfl

@[simp] theorem offset_after (p : Position) (consumed : Bytes) :
    (p.after consumed).offset = p.offset + consumed.length := by
  induction consumed generalizing p with
  | nil => rfl
  | cons b rest ih =>
    show ((p.step b).after rest).offset = _
    rw [ih, offset_step, List.length_cons]
    omega

end Position

end SlideDeck
