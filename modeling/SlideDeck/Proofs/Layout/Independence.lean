import SlideDeck.Proofs.Layout.Alike
import SlideDeck.Proofs.Layout.Transposed

/-! # Axes that do not meet

Where boxes are from left to right, and how wide they are, does not depend on
anything vertical: not on where the layout begins, not on how much height there
is, and not on what the measurer says of heights.  The same holds of the vertical
with the axes exchanged (`Element.layOut_independent`).

* `Frame.Abreast` and `Frame.Level` are what is the same of two frames.
* `arrange_abreast` is the horizontal half, for which each kind of content is
  looked at, and both directions that a stack may have.

Only the horizontal half is proved on its own.  A layout with its axes exchanged
is a layout again, and what is abreast there is level here. -/

namespace SlideDeck

/-! ## Frames -/

/-- Frames of one label with the same horizontal place and extent. -/
structure Frame.Abreast (f g : Frame) : Prop where
  label : f.label = g.label
  x : f.x = g.x
  width : f.width = g.width

/-- Frames of one label with the same vertical place and extent. -/
structure Frame.Level (f g : Frame) : Prop where
  label : f.label = g.label
  y : f.y = g.y
  height : f.height = g.height

/-- Frames stay abreast where they are moved by the same distance to the right. -/
theorem Frame.abreast_movable : Frame.Movable Frame.Abreast fun d e => d.width = e.width where
  moved frames distances := ⟨frames.label, congrArg₂ (· + ·) frames.x distances, frames.width⟩
  place frames := frames.x

@[simp] theorem Kind.transposed_transposed (k : Kind) : k.transposed.transposed = k := by
  cases k <;> rfl

theorem Frame.Abreast.level {f g : Frame} (h : f.transposed.Abreast g.transposed) : f.Level g := by
  have label : f.transposed.label.transposed = g.transposed.label.transposed :=
    congrArg Frame.transposed h.label
  simp only [Frame.label, Frame.transposed, Kind.transposed_transposed] at label
  exact ⟨label, h.x, h.width⟩

mutual

/-- What is the same of the transposes of two trees is the same of them with the axes exchanged. -/
theorem Box.Alike.level {b c : Box} (h : b.transposed.Alike Frame.Abreast c.transposed) :
    b.Alike Frame.Level c := by
  cases b with
  | mk f bs =>
    cases c with
    | mk g cs =>
      rw [Box.transposed, Box.transposed] at h
      cases h with
      | mk frames children => exact .mk frames.level (levelAll children)

theorem Box.Alike.levelAll {bs cs : List Box}
    (h : List.Forall₂ (Box.Alike Frame.Abreast) (Box.transposedAll bs) (Box.transposedAll cs)) :
    List.Forall₂ (Box.Alike Frame.Level) bs cs := by
  cases bs with
  | nil =>
    cases cs with
    | nil => exact .nil
    | cons => cases h
  | cons b bs =>
    cases cs with
    | nil => cases h
    | cons c cs =>
      rw [Box.transposedAll, Box.transposedAll] at h
      cases h with
      | cons first rest => exact .cons first.level (levelAll rest)

end

/-! ## Boxes of a stack -/

section

variable {bs cs : List Box} (h : List.Forall₂ (Box.Alike Frame.Abreast) bs cs)
include h

theorem map_width_eq : (bs.map fun b => b.size.width) = cs.map fun c => c.size.width := by
  induction h with
  | nil => rfl
  | cons first _ ih => exact congrArg₂ List.cons first.frame.width ih

theorem placeAlong_abreast (axis : Axis) (gap : Int) :
    List.Forall₂ (Box.Alike Frame.Abreast) (placeAlong axis gap 0 bs).1
      (placeAlong axis gap 0 cs).1 := by
  apply Box.Alike.placeAlong h Frame.abreast_movable
  intro i
  cases axis with
  | horizontal =>
    have mains : Axis.horizontal.mains bs = Axis.horizontal.mains cs := map_width_eq h
    rw [mains]
  | vertical => rfl

theorem placeAlong_end_eq (gap : Int) :
    (placeAlong .horizontal gap 0 bs).2 = (placeAlong .horizontal gap 0 cs).2 := by
  have mains : Axis.horizontal.mains bs = Axis.horizontal.mains cs := map_width_eq h
  cases h with
  | nil => rfl
  | cons first rest =>
    have length := congrArg List.length mains
    rw [Axis.length_mains, Axis.length_mains] at length
    rw [placeAlong_end _ _ _ (List.cons_ne_nil _ _), placeAlong_end _ _ _ (List.cons_ne_nil _ _),
      mains, length]

end

/-! ## Arrangements -/

section

variable {styles : ResolvedSlide} {m m' : Option Measurer} (a : Attributes) {most most' : Size}
  (width : most.width = most'.width)
include width

theorem stackedMost_width (axis : Axis) (gap : Int) (count : Nat) :
    List.Forall₂ (fun s t => s.width = t.width) (stackedMost axis gap most count)
      (stackedMost axis gap most' count) := by
  cases axis with
  | horizontal =>
    have same : stackedMost .horizontal gap most count
        = (slots most'.width gap count).map fun slot => ⟨slot, most.height⟩ := by rw [← width]; rfl
    rw [same, stackedMost, List.forall₂_map_left_iff, List.forall₂_map_right_iff]
    exact List.forall₂_same.2 fun _ _ => rfl
  | vertical =>
    rw [stackedMost, stackedMost, slots, slots, List.map_map, List.map_map,
      List.forall₂_map_left_iff, List.forall₂_map_right_iff, List.forall₂_same]
    exact fun _ _ => width

theorem arrangeText_abreast
    (agree : ∀ text size, (measured m text size).width = (measured m' text size).width)
    (value : Bytes) :
    (arrangeText ⟨styles, m⟩ a value most).box.Alike Frame.Abreast
      (arrangeText ⟨styles, m'⟩ a value most').box := by
  refine .mk ⟨rfl, rfl, ?_⟩ .nil
  show min (measured m value _).width most.width = min (measured m' value _).width most'.width
  rw [agree, width]
  rfl

theorem centred_abreast {r s : Arranged} (child : r.box.Alike Frame.Abreast s.box) :
    (centred a most r).box.Alike Frame.Abreast (centred a most' s).box := by
  have inner : r.box.size.width = s.box.size.width := child.frame.width
  refine .mk ⟨rfl, rfl, width⟩ (.cons (child.moved Frame.abreast_movable ?_) .nil)
  simp only [inner, width]

theorem padded_abreast {r s : Arranged} (child : r.box.Alike Frame.Abreast s.box) (amount : Int) :
    (padded a amount most r).box.Alike Frame.Abreast (padded a amount most' s).box := by
  have inner : r.box.size.width = s.box.size.width := child.frame.width
  refine .mk ⟨rfl, rfl, ?_⟩ (.cons (child.moved Frame.abreast_movable rfl) .nil)
  simp only [Attributes.frame, inner, width]

theorem stacked_abreast (axis : Axis) (gap : Int) {rs ss : List Arranged}
    (children : List.Forall₂ (Box.Alike Frame.Abreast) (rs.map Arranged.box)
      (ss.map Arranged.box)) :
    (stacked a axis gap most rs).box.Alike Frame.Abreast (stacked a axis gap most' ss).box := by
  refine .mk ⟨rfl, rfl, ?_⟩ (placeAlong_abreast children axis gap)
  cases axis with
  | horizontal =>
    -- Along the stack, the width is where its last box ends.
    simp only [Attributes.frame, Axis.size, Axis.main, placeAlong_end_eq children, width]
  | vertical =>
    -- Across the stack, the width is that of its widest box.
    simp only [Attributes.frame, Axis.size, Axis.cross, map_width_eq children, width]

end

mutual

theorem arrange_abreast {m m' : Option Measurer} (styles : ResolvedSlide)
    (agree : ∀ text size, (measured m text size).width = (measured m' text size).width)
    (e : Element) {most most' : Size} (width : most.width = most'.width) :
    (arrange ⟨styles, m⟩ e most).box.Alike Frame.Abreast (arrange ⟨styles, m'⟩ e most').box := by
  cases e with
  | hole => exact .mk ⟨rfl, rfl, rfl⟩ .nil
  | text a value => exact arrangeText_abreast a width agree value
  | centre a child =>
    rw [arrange, arrange]
    exact centred_abreast a width (arrange_abreast styles agree child width)
  | padding a child =>
    rw [arrange, arrange]
    refine padded_abreast a width (arrange_abreast styles agree child ?_) _
    exact congrArg (fun n => clampPixels (n - 2 * _)) width
  | stack a axis children =>
    rw [arrange, arrange]
    exact stacked_abreast a width axis _
      (arrangeAll_abreast styles agree children (stackedMost_width width axis _ children.length))

theorem arrangeAll_abreast {m m' : Option Measurer} (styles : ResolvedSlide)
    (agree : ∀ text size, (measured m text size).width = (measured m' text size).width)
    (es : List Element) {mosts mosts' : List Size}
    (widths : List.Forall₂ (fun s t => s.width = t.width) mosts mosts') :
    List.Forall₂ (Box.Alike Frame.Abreast) ((arrangeAll ⟨styles, m⟩ es mosts).map Arranged.box)
      ((arrangeAll ⟨styles, m'⟩ es mosts').map Arranged.box) := by
  cases es with
  | nil => exact .nil
  | cons e rest =>
    cases widths with
    | nil => exact .nil
    | cons first others =>
      rw [arrangeAll, arrangeAll]
      exact .cons (arrange_abreast styles agree e first)
        (arrangeAll_abreast styles agree rest others)

end

/-! ## Both passes -/

theorem absolute_abreast {m m' : Option Measurer} (styles : ResolvedSlide)
    (agree : ∀ text size, (measured m text size).width = (measured m' text size).width)
    (e : Element) (x y y' : Int) {most most' : Size} (width : most.width = most'.width) :
    ((arrange ⟨styles, m⟩ e most).box.absolute x y).Alike Frame.Abreast
      ((arrange ⟨styles, m'⟩ e most').box.absolute x y') :=
  (arrange_abreast styles agree e width).absolute Frame.abreast_movable rfl

/-- The vertical half is the horizontal half of the transposes. -/
theorem absolute_level {m m' : Option Measurer} (styles : ResolvedSlide)
    (agree : ∀ text size, (measured m text size).height = (measured m' text size).height)
    (e : Element) (x x' y : Int) {most most' : Size} (height : most.height = most'.height) :
    ((arrange ⟨styles, m⟩ e most).box.absolute x y).Alike Frame.Level
      ((arrange ⟨styles, m'⟩ e most').box.absolute x' y) := by
  have agree' : ∀ text size, (measured (some (transposedMeasurer m)) text size).width
      = (measured (some (transposedMeasurer m')) text size).width := agree
  have width : most.transposed.width = most'.transposed.width := height
  have transposed := absolute_abreast styles agree' e.transposed y x x' width
  have first : arrange ⟨styles, some (transposedMeasurer m)⟩ e.transposed most.transposed
      = (arrange ⟨styles, m⟩ e most).transposed := arrange_transposed ⟨styles, m⟩ e most
  have second : arrange ⟨styles, some (transposedMeasurer m')⟩ e.transposed most'.transposed
      = (arrange ⟨styles, m'⟩ e most').transposed := arrange_transposed ⟨styles, m'⟩ e most'
  rw [first, second] at transposed
  apply Box.Alike.level
  rw [← absolute_transposed, ← absolute_transposed]
  exact transposed

/-- **Neither axis depends on the other.**  Content with properties for every element is laid out
twice.  If the measurers agree on all widths, and the horizontal place and constraint are the same,
then the trees of boxes have one shape, and the boxes the same horizontal places and extents.  If
the measurers agree on all heights, and the vertical place and constraint are the same, then they
have the same vertical places and extents. -/
theorem Element.layOut_independent {styles : ResolvedSlide} {e : Element}
    (covers : styles.Covers e) (m m' : Option Measurer) :
    ((∀ text size, (measured m text size).width = (measured m' text size).width) →
      ∀ x y y' width height height', ∃ r s,
        e.layOut ⟨styles, m⟩ x y ⟨width, height⟩ = .ok r ∧
        e.layOut ⟨styles, m'⟩ x y' ⟨width, height'⟩ = .ok s ∧
        r.box.Alike Frame.Abreast s.box) ∧
    ((∀ text size, (measured m text size).height = (measured m' text size).height) →
      ∀ x x' y width width' height, ∃ r s,
        e.layOut ⟨styles, m⟩ x y ⟨width, height⟩ = .ok r ∧
        e.layOut ⟨styles, m'⟩ x' y ⟨width', height⟩ = .ok s ∧
        r.box.Alike Frame.Level s.box) := by
  constructor
  · intro agree x y y' width height height'
    exact ⟨_, _, layOut_of_covers covers x y _, layOut_of_covers covers x y' _,
      absolute_abreast styles agree e x y y' rfl⟩
  · intro agree x x' y width width' height
    exact ⟨_, _, layOut_of_covers covers x y _, layOut_of_covers covers x' y _,
      absolute_level styles agree e x x' y rfl⟩

/-- The texts of this measurer are as wide as those of `columnInRowContext`, and higher. -/
def tallMeasurer : Measurer :=
  fun text _ => ⟨10 * text.length, 25⟩

theorem columnInRow_independent :
    let styles := columnInRowContext.styles
    let m := columnInRowContext.measurer
    styles.Covers columnInRow ∧
      (∀ text size, (measured m text size).width = (measured (some tallMeasurer) text size).width) ∧
      (∃ r s, columnInRow.layOut ⟨styles, m⟩ (-3) 4 ⟨48, 20⟩ = .ok r ∧
        columnInRow.layOut ⟨styles, some tallMeasurer⟩ (-3) 70 ⟨48, 500⟩ = .ok s ∧
        r.box.Alike Frame.Abreast s.box) ∧
      ∃ r s, columnInRow.layOut ⟨styles, m⟩ (-3) 4 ⟨48, 20⟩ = .ok r ∧
        columnInRow.layOut ⟨styles, m⟩ 9 4 ⟨62, 20⟩ = .ok s ∧
        r.box.Alike Frame.Level s.box := by
  intro styles m
  have covers : styles.Covers columnInRow := by decide
  have agree : ∀ text size,
      (measured m text size).width = (measured (some tallMeasurer) text size).width :=
    fun _ _ => rfl
  obtain ⟨abreast, -⟩ := Element.layOut_independent covers m (some tallMeasurer)
  obtain ⟨-, level⟩ := Element.layOut_independent covers m m
  exact ⟨covers, agree, abreast agree (-3) 4 70 48 20 500,
    level (fun _ _ => rfl) (-3) 9 4 48 62 20⟩

end SlideDeck
