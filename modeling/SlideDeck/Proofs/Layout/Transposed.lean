import SlideDeck.Proofs.Layout.Absolute

/-! # Rows for columns

A layout does not know which way is down.  Where rows and columns are exchanged
in some content, and width and height in the measurer and in the constraint, the
layout is the one from before with its axes exchanged
(`Element.layOut_transposed`).

* `transposed` exchanges the axes of sizes, contexts, content, boxes and notes.
* `stacked_transposed`: the one function for rows and columns keeps to its axis.
* `arrange_transposed` and `absolute_transposed` are the two passes.

Both axes go through the same code.  What a row does along and across itself is
what a column does, so each use of an extent has to be that of the axis which is
meant, and a stack is transposed exactly if each of its uses is. -/

namespace SlideDeck

/-! ## Exchanging the axes -/

def Axis.transposed : Axis → Axis
  | horizontal => vertical
  | vertical => horizontal

def Kind.transposed : Kind → Kind
  | row => column
  | column => row
  | other => other

def Size.transposed (s : Size) : Size :=
  ⟨s.height, s.width⟩

mutual

/-- Content with columns for its rows and rows for its columns. -/
def Element.transposed : Element → Element
  | .hole => .hole
  | .text a value => .text a value
  | .centre a child => .centre a (transposed child)
  | .padding a child => .padding a (transposed child)
  | .stack a axis children => .stack a axis.transposed (transposedAll children)

def Element.transposedAll : List Element → List Element
  | [] => []
  | e :: rest => transposed e :: transposedAll rest

end

def Frame.transposed (f : Frame) : Frame :=
  { f with kind := f.kind.transposed, x := f.y, y := f.x, width := f.height, height := f.width }

mutual

def Box.transposed : Box → Box
  | mk f cs => mk f.transposed (transposedAll cs)

def Box.transposedAll : List Box → List Box
  | [] => []
  | b :: rest => transposed b :: transposedAll rest

end

def LayoutNote.transposed (n : LayoutNote) : LayoutNote :=
  { n with available := n.available.transposed, needed := n.needed.transposed }

def Arranged.transposed (r : Arranged) : Arranged :=
  ⟨r.box.transposed, r.notes.map LayoutNote.transposed⟩

/-- The installed measurer, or the approximate one, with its results transposed. -/
def transposedMeasurer (m : Option Measurer) : Measurer :=
  fun text size => ((m.getD approximateExtent) text size).transposed

def LayoutContext.transposed (c : LayoutContext) : LayoutContext :=
  { c with measurer := some (transposedMeasurer c.measurer) }

/-! ## Axes -/

namespace Axis

variable (axis : Axis)

@[simp] theorem main_transposed (s : Size) : axis.transposed.main s.transposed = axis.main s := by
  cases axis <;> rfl

@[simp] theorem cross_transposed (s : Size) :
    axis.transposed.cross s.transposed = axis.cross s := by
  cases axis <;> rfl

@[simp] theorem size_transposed (m c : Int) :
    axis.transposed.size m c = (axis.size m c).transposed := by
  cases axis <;> rfl

@[simp] theorem kind_transposed : axis.transposed.kind = axis.kind.transposed := by
  cases axis <;> rfl

end Axis

/-! ## Trees -/

namespace Element

theorem transposedAll_eq_map (es : List Element) : transposedAll es = es.map transposed := by
  induction es with
  | nil => rfl
  | cons e rest ih => rw [transposedAll, ih, List.map_cons]

@[simp] theorem id_transposed (e : Element) : e.transposed.id = e.id := by
  cases e <;> rfl

mutual

theorem flatten_transposed (e : Element) : e.transposed.flatten = e.flatten.map transposed := by
  cases e with
  | hole => rfl
  | text a value => rfl
  | centre a child =>
    rw [transposed, flatten, flatten_transposed child]
    rfl
  | padding a child =>
    rw [transposed, flatten, flatten_transposed child]
    rfl
  | stack a axis children =>
    rw [transposed, flatten, flattenAll_transposed children]
    rfl

theorem flattenAll_transposed (es : List Element) :
    flattenAll (transposedAll es) = (flattenAll es).map transposed := by
  cases es with
  | nil => rfl
  | cons e rest =>
    rw [transposedAll, flattenAll, flatten_transposed e, flattenAll_transposed rest, flattenAll,
      List.map_append]

end

end Element

namespace Box

@[simp] theorem transposed_mk (f : Frame) (cs : List Box) :
    (mk f cs).transposed = mk f.transposed (cs.map transposed) := by
  have all : transposedAll cs = cs.map transposed := by
    induction cs with
    | nil => rfl
    | cons b rest ih => rw [transposedAll, ih, List.map_cons]
  rw [transposed, all]

@[simp] theorem size_transposed (b : Box) : b.transposed.size = b.size.transposed := by
  cases b
  rfl

theorem moved_transposed (b : Box) (dx dy : Int) :
    b.transposed.moved dy dx = (b.moved dx dy).transposed := by
  cases b with
  | mk f cs =>
    rw [transposed_mk]
    simp [moved, frame, children, Frame.moved, Frame.transposed]

end Box

/-- Boxes are moved along an axis as their transposes are along the other one. -/
theorem Axis.move_transposed (axis : Axis) (b : Box) (distance : Int) :
    axis.transposed.move b.transposed distance = (axis.move b distance).transposed := by
  cases axis with
  | horizontal => exact b.moved_transposed distance 0
  | vertical => exact b.moved_transposed 0 distance

theorem ResolvedSlide.missing?_transposed (r : ResolvedSlide) (e : Element) :
    r.missing? e.transposed = r.missing? e := by
  simp only [missing?, Element.flatten_transposed, List.find?_map, Option.map_map,
    Function.comp_def, Element.id_transposed]

/-! ## The first pass -/

section

variable (c : LayoutContext) (a : Attributes) (most : Size)

theorem frame_transposed (kind : Kind) (size : Size) :
    a.frame kind.transposed size.transposed = (a.frame kind size).transposed := rfl

theorem arrangeText_transposed (value : Bytes) :
    arrangeText c.transposed a value most.transposed = (arrangeText c a value most).transposed := by
  have notes : (arrangeText c.transposed a value most.transposed).notes
      = (arrangeText c a value most).notes.map LayoutNote.transposed := by
    simp only [arrangeText, apply_ite (List.map LayoutNote.transposed)]
    -- The condition on the height is now the first one.
    exact if_congr and_comm rfl rfl
  exact congrArg (Arranged.mk _) notes

theorem centred_transposed (child : Arranged) :
    centred a most.transposed child.transposed = (centred a most child).transposed := by
  simp only [centred, Arranged.transposed, Box.size_transposed, Box.transposed_mk, List.map_cons,
    List.map_nil, ← Box.moved_transposed]
  rfl

theorem padded_transposed (amount : Int) (child : Arranged) :
    padded a amount most.transposed child.transposed
      = (padded a amount most child).transposed := by
  simp only [padded, Arranged.transposed, Box.size_transposed, Box.transposed_mk, List.map_cons,
    List.map_nil, ← Box.moved_transposed]
  rfl

theorem paddedMost_transposed (amount : Int) :
    paddedMost amount most.transposed = (paddedMost amount most).transposed := rfl

theorem stackedMost_transposed (axis : Axis) (gap : Int) (count : Nat) :
    stackedMost axis.transposed gap most.transposed count
      = (stackedMost axis gap most count).map Size.transposed := by
  simp [stackedMost, Function.comp_def]

theorem placeAlong_transposed (axis : Axis) (gap cursor : Int) (boxes : List Box) :
    placeAlong axis.transposed gap cursor (boxes.map Box.transposed)
      = ((placeAlong axis gap cursor boxes).1.map Box.transposed,
          (placeAlong axis gap cursor boxes).2) := by
  induction boxes generalizing cursor with
  | nil => rfl
  | cons b rest ih =>
    cases rest with
    | nil => simp [placeAlong, Axis.move_transposed]
    | cons b' rest =>
      rw [List.map_cons] at ih
      simp [placeAlong, ih, Axis.move_transposed]

theorem stacked_transposed (axis : Axis) (gap : Int) (children : List Arranged) :
    stacked a axis.transposed gap most.transposed (children.map Arranged.transposed)
      = (stacked a axis gap most children).transposed := by
  have boxes : (children.map Arranged.transposed).map Arranged.box
      = (children.map Arranged.box).map Box.transposed := by
    simp [Function.comp_def, Arranged.transposed]
  have notes : (children.map Arranged.transposed).flatMap Arranged.notes
      = (children.flatMap Arranged.notes).map LayoutNote.transposed := by
    simp [List.flatMap_map, List.map_flatMap, Arranged.transposed]
  have crosses : ((children.map Arranged.box).map Box.transposed).map
        (fun b => axis.transposed.cross b.size)
      = (children.map Arranged.box).map fun b => axis.cross b.size := by
    simp [Function.comp_def]
  simp only [stacked, boxes, notes, crosses, placeAlong_transposed, Arranged.transposed,
    Box.transposed_mk, Axis.main_transposed, Axis.cross_transposed, Axis.size_transposed,
    Axis.kind_transposed, frame_transposed]

end

mutual

theorem arrange_transposed (c : LayoutContext) (e : Element) (most : Size) :
    arrange c.transposed e.transposed most.transposed = (arrange c e most).transposed := by
  cases e with
  | hole => rfl
  | text a value => exact arrangeText_transposed c a most value
  | centre a child =>
    rw [Element.transposed, arrange, arrange_transposed c child, centred_transposed, arrange]
  | padding a child =>
    have amount : c.transposed.pixels a .amount = c.pixels a .amount := rfl
    rw [Element.transposed, arrange, arrange, ← padded_transposed, ← arrange_transposed c child]
    simp only [amount, paddedMost_transposed]
  | stack a axis children =>
    have gap : c.transposed.pixels a .gap = c.pixels a .gap := rfl
    have length : (Element.transposedAll children).length = children.length := by
      simp [Element.transposedAll_eq_map]
    rw [Element.transposed, arrange, arrange, ← stacked_transposed,
      ← arrangeAll_transposed c children]
    simp only [gap, length, stackedMost_transposed]

theorem arrangeAll_transposed (c : LayoutContext) (es : List Element) (mosts : List Size) :
    arrangeAll c.transposed (Element.transposedAll es) (mosts.map Size.transposed)
      = (arrangeAll c es mosts).map Arranged.transposed := by
  cases es with
  | nil => rfl
  | cons e rest =>
    cases mosts with
    | nil => rfl
    | cons most others =>
      rw [Element.transposedAll, List.map_cons, arrangeAll, arrangeAll, arrange_transposed c e,
        arrangeAll_transposed c rest, List.map_cons]

end

/-! ## The second pass -/

mutual

theorem absolute_transposed (x y : Int) (b : Box) :
    b.transposed.absolute y x = (b.absolute x y).transposed := by
  cases b with
  | mk f cs =>
    rw [Box.transposed, Box.absolute, Box.absolute, Box.transposed]
    exact congrArg _ (absoluteAll_transposed (f.x + x) (f.y + y) cs)

theorem absoluteAll_transposed (x y : Int) (cs : List Box) :
    Box.absoluteAll y x (Box.transposedAll cs) = Box.transposedAll (Box.absoluteAll x y cs) := by
  cases cs with
  | nil => rfl
  | cons b rest =>
    rw [Box.transposedAll, Box.absoluteAll, Box.absoluteAll, Box.transposedAll,
      absolute_transposed x y b, absoluteAll_transposed x y rest]

end

/-! ## Both passes -/

/-- **A layout is the same either way up.**  Content with properties for every element is laid out,
and where its rows and columns, the axes of its place and of its constraint, and those of what the
measurer says are exchanged, the boxes are those from before with their axes exchanged, and the
notes are about the same elements in the same order, with the axes of what they say exchanged. -/
theorem Element.layOut_transposed {c : LayoutContext} {e : Element} (covers : c.styles.Covers e)
    (x y : Int) (most : Size) :
    ∃ arranged, e.layOut c x y most = .ok arranged ∧
      e.transposed.layOut c.transposed y x most.transposed = .ok arranged.transposed := by
  have covers' : c.transposed.styles.Covers e.transposed := by
    rw [← ResolvedSlide.missing?_eq_none] at covers ⊢
    rw [ResolvedSlide.missing?_transposed]
    exact covers
  have first : arrange c.transposed e.transposed
        ⟨max 0 most.transposed.width, max 0 most.transposed.height⟩
      = (arrange c e ⟨max 0 most.width, max 0 most.height⟩).transposed :=
    arrange_transposed c e ⟨max 0 most.width, max 0 most.height⟩
  refine ⟨_, layOut_of_covers covers x y most, ?_⟩
  rw [layOut_of_covers covers', first]
  simp only [Arranged.transposed, absolute_transposed]

/-- A column and a padded text in a row. -/
def columnInRow : Element :=
  .stack {} .horizontal
    [.stack { id := 1 } .vertical
        [.text { id := 2 } (.ascii "a"), .centre { id := 3 } (.text { id := 4 } (.ascii "bcd"))],
      .padding { id := 5 } (.text { id := 6 } (.ascii "e"))]

/-- Gaps of three and of two pixels and a padding of four, and texts as wide as they are long. -/
def columnInRowContext : LayoutContext where
  styles := { nodeStyles :=
    [.ofList [(Property.gap.key, .number (.ofNat 3))],
      .ofList [(Property.gap.key, .number (.ofNat 2))], ∅, ∅, ∅,
      .ofList [(Property.amount.key, .number (.ofNat 4))], ∅] }
  measurer := some fun text _ => ⟨10 * text.length, 9⟩

theorem columnInRow_transposed :
    columnInRowContext.styles.Covers columnInRow ∧
      ∃ arranged, columnInRow.layOut columnInRowContext (-3) 4 ⟨48, 20⟩ = .ok arranged ∧
        arranged.notes = [⟨4, ⟨23, 9⟩, ⟨30, 9⟩⟩] ∧
        columnInRow.transposed.layOut columnInRowContext.transposed 4 (-3) ⟨20, 48⟩
          = .ok arranged.transposed := by
  have covers : columnInRowContext.styles.Covers columnInRow := by decide
  obtain ⟨arranged, laidOut, transposed⟩ :=
    Element.layOut_transposed covers (-3) 4 ⟨48, 20⟩
  have notes : (columnInRow.layOut columnInRowContext (-3) 4 ⟨48, 20⟩).map Arranged.notes
      = .ok [⟨4, ⟨23, 9⟩, ⟨30, 9⟩⟩] := by decide +kernel
  rw [laidOut] at notes
  exact ⟨covers, arranged, laidOut, Except.ok.inj notes, transposed⟩

end SlideDeck
