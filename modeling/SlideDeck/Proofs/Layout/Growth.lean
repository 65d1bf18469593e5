import SlideDeck.Proofs.Layout.Alike
import SlideDeck.Proofs.Layout.Transposed

/-! # More space

Content that is given more space has no smaller boxes and no further texts that
overflow (`Element.layOut_grows`).

* `slots_mono`: every share of an extent grows with it.
* `Arranged.Grows` compares two arrangements of the same content, and each of
  `arrangeText_grows` to `stacked_grows` is about one kind of content.

Whole pixels do not grow evenly.  When an extent grows by one pixel, the number
of shares that are one larger may fall to none, but only because all of them have
grown by that one. -/

namespace SlideDeck

open scoped List

/-- A constraint that allows no more than another one. -/
structure Size.AtMost (s t : Size) : Prop where
  width : s.width ≤ t.width
  height : s.height ≤ t.height

namespace Size.AtMost

variable {s t : Size}

theorem main (h : s.AtMost t) (axis : Axis) : axis.main s ≤ axis.main t := by
  cases axis with
  | horizontal => exact h.width
  | vertical => exact h.height

theorem cross (h : s.AtMost t) (axis : Axis) : axis.cross s ≤ axis.cross t := by
  cases axis with
  | horizontal => exact h.height
  | vertical => exact h.width

theorem of_axis {axis : Axis} {m c m' c' : Int} (main : m ≤ m') (cross : c ≤ c') :
    (axis.size m c).AtMost (axis.size m' c') := by
  cases axis with
  | horizontal => exact ⟨main, cross⟩
  | vertical => exact ⟨cross, main⟩

end Size.AtMost

/-! ## Constraints -/

theorem clampPixels_mono {m n : Int} (h : m ≤ n) : clampPixels m ≤ clampPixels n := by
  rw [clampPixels, clampPixels]
  omega

theorem paddedMost_mono {small large : Size} (h : small.AtMost large) (amount : Int) :
    (paddedMost amount small).AtMost (paddedMost amount large) := by
  have width := h.width
  have height := h.height
  exact ⟨clampPixels_mono (by omega), clampPixels_mono (by omega)⟩

/-- A share is no smaller if there is more to split. -/
theorem share_mono {m n count : Int} (h : m ≤ n) (positive : 0 < count) (i : Int) :
    (m / count + if i < m % count then 1 else 0)
      ≤ n / count + if i < n % count then 1 else 0 := by
  have quotients : m / count ≤ n / count := Int.ediv_le_ediv positive h
  rcases Int.lt_or_eq_of_le quotients with less | equal
  · -- All shares have grown, so it does not matter who has one of the pixels left over.
    split <;> split <;> omega
  · -- No share has grown, so there are at least as many pixels left over as before.
    have remainders : m % count ≤ n % count := by
      have before := Int.mul_ediv_add_emod m count
      have after := Int.mul_ediv_add_emod n count
      rw [equal] at before
      omega
    rw [equal]
    split <;> split <;> omega

theorem slots_mono {available available' : Int} (h : available ≤ available') (gap : Int)
    (count : Nat) :
    List.Forall₂ (· ≤ ·) (slots available gap count) (slots available' gap count) := by
  have splittable : clampPixels (available - gap * (count - 1))
      ≤ clampPixels (available' - gap * (count - 1)) := clampPixels_mono (by omega)
  rw [slots, slots, List.forall₂_map_left_iff, List.forall₂_map_right_iff, List.forall₂_same]
  intro i among
  have positive : (0 : Int) < count := by
    have := List.mem_range.1 among
    omega
  exact share_mono splittable positive i

theorem stackedMost_mono (axis : Axis) (gap : Int) {small large : Size} (h : small.AtMost large)
    (count : Nat) :
    List.Forall₂ Size.AtMost (stackedMost axis gap small count)
      (stackedMost axis gap large count) := by
  rw [stackedMost, stackedMost, List.forall₂_map_left_iff, List.forall₂_map_right_iff]
  exact (slots_mono (h.main axis) gap count).imp fun _ _ slots =>
    Size.AtMost.of_axis slots (h.cross axis)

/-! ## Boxes -/

/-- The same frame, except that it may be elsewhere and may be larger. -/
structure Frame.Grows (f g : Frame) : Prop where
  label : f.label = g.label
  width : f.width ≤ g.width
  height : f.height ≤ g.height

/-- It does not matter how far frames are moved. -/
theorem Frame.grows_movable : Frame.Movable Frame.Grows fun _ _ => True where
  moved frames _ := ⟨frames.label, frames.width, frames.height⟩
  place _ := trivial

theorem Box.Alike.size {b c : Box} (h : b.Alike Frame.Grows c) : b.size.AtMost c.size :=
  ⟨h.frame.width, h.frame.height⟩

section

variable {bs cs : List Box} (h : List.Forall₂ (Box.Alike Frame.Grows) bs cs)
include h

theorem placeAlong_end_mono (axis : Axis) (gap : Int) {cursor cursor' : Int}
    (later : cursor ≤ cursor') :
    (placeAlong axis gap cursor bs).2 ≤ (placeAlong axis gap cursor' cs).2 := by
  induction h generalizing cursor cursor' with
  | nil => exact later
  | @cons b c bs cs first rest ih =>
    have size := first.size.main axis
    cases rest with
    | nil => exact Int.add_le_add later size
    | cons _ _ =>
      have next : cursor + axis.main b.size + gap ≤ cursor' + axis.main c.size + gap := by omega
      exact ih next

theorem foldl_cross_mono (axis : Axis) {widest widest' : Int} (wider : widest ≤ widest') :
    (bs.map fun b => axis.cross b.size).foldl max widest
      ≤ (cs.map fun c => axis.cross c.size).foldl max widest' := by
  induction h generalizing widest widest' with
  | nil => exact wider
  | cons first _ ih =>
    exact ih (max_le_max wider (first.size.cross axis))

end

/-! ## Arrangements -/

/-- What a note is about, and how much space that needs. -/
def LayoutNote.demand (n : LayoutNote) : Nat × Size :=
  (n.node, n.needed)

/-- Boxes grow, and notes are some of those there were before. -/
structure Arranged.Grows (r s : Arranged) : Prop where
  box : r.box.Alike Frame.Grows s.box
  notes : s.notes.map LayoutNote.demand <+ r.notes.map LayoutNote.demand

theorem notes_sublist {rs ss : List Arranged} (h : List.Forall₂ Arranged.Grows rs ss) :
    (ss.flatMap Arranged.notes).map LayoutNote.demand
      <+ (rs.flatMap Arranged.notes).map LayoutNote.demand := by
  induction h with
  | nil => exact List.Sublist.refl _
  | cons first _ ih =>
    simp only [List.flatMap_cons, List.map_append]
    exact first.notes.append ih

theorem size_stacked (a : Attributes) (axis : Axis) (gap : Int) (most : Size)
    (children : List Arranged) :
    (stacked a axis gap most children).box.size
      = axis.size
          (clampPixels (min (placeAlong axis gap 0 (children.map Arranged.box)).2 (axis.main most)))
          (min (((children.map Arranged.box).map fun b => axis.cross b.size).foldl max 0)
            (axis.cross most)) := rfl

section

variable (c : LayoutContext) (a : Attributes) {small large : Size} (h : small.AtMost large)
include h

theorem arrangeText_grows (value : Bytes) :
    (arrangeText c a value small).Grows (arrangeText c a value large) := by
  have width := h.width
  have height := h.height
  constructor
  · have capped : ∀ needed n m : Int, n ≤ m → min needed n ≤ min needed m := by omega
    exact .mk ⟨rfl, capped _ _ _ width, capped _ _ _ height⟩ .nil
  · simp only [arrangeText]
    split
    · exact List.nil_sublist _
    · next overflows =>
      -- What is too large for the larger constraint is too large for the smaller one.
      rw [if_neg (by omega)]
      exact List.Sublist.refl _

theorem centred_grows {r s : Arranged} (child : r.Grows s) :
    (centred a small r).Grows (centred a large s) := by
  exact ⟨.mk ⟨rfl, h.width, h.height⟩ (.cons (child.box.moved Frame.grows_movable trivial) .nil),
    child.notes⟩

theorem padded_grows (amount : Int) {r s : Arranged} (child : r.Grows s) :
    (padded a amount small r).Grows (padded a amount large s) := by
  have width := h.width
  have height := h.height
  have inner := child.box.size
  have innerWidth := inner.width
  have innerHeight := inner.height
  refine ⟨.mk ⟨rfl, ?_, ?_⟩ (.cons (child.box.moved Frame.grows_movable trivial) .nil),
    child.notes⟩
  · exact clampPixels_mono (by omega)
  · exact clampPixels_mono (by omega)

theorem stacked_grows (axis : Axis) (gap : Int) {rs ss : List Arranged}
    (children : List.Forall₂ Arranged.Grows rs ss) :
    (stacked a axis gap small rs).Grows (stacked a axis gap large ss) := by
  have boxes : List.Forall₂ (Box.Alike Frame.Grows) (rs.map Arranged.box)
      (ss.map Arranged.box) := by
    rw [List.forall₂_map_left_iff, List.forall₂_map_right_iff]
    exact children.imp fun _ _ child => child.box
  have ends := placeAlong_end_mono boxes axis gap (Int.le_refl 0)
  have widest := foldl_cross_mono boxes axis (Int.le_refl 0)
  have main := h.main axis
  have cross := h.cross axis
  have size : (stacked a axis gap small rs).box.size.AtMost
      (stacked a axis gap large ss).box.size := by
    rw [size_stacked, size_stacked]
    exact Size.AtMost.of_axis (clampPixels_mono (by omega)) (by omega)
  refine ⟨.mk ⟨rfl, size.width, size.height⟩ ?_, notes_sublist children⟩
  exact Box.Alike.placeAlong boxes Frame.grows_movable fun _ => trivial

end

mutual

theorem arrange_grows (c : LayoutContext) (e : Element) {small large : Size}
    (h : small.AtMost large) : (arrange c e small).Grows (arrange c e large) := by
  cases e with
  | hole => exact ⟨.mk ⟨rfl, Int.le_refl _, Int.le_refl _⟩ .nil, List.Sublist.refl _⟩
  | text a value => exact arrangeText_grows c a h value
  | centre a child =>
    rw [arrange, arrange]
    exact centred_grows a h (arrange_grows c child h)
  | padding a child =>
    rw [arrange, arrange]
    exact padded_grows a h _ (arrange_grows c child (paddedMost_mono h _))
  | stack a axis children =>
    rw [arrange, arrange]
    exact stacked_grows a h axis _
      (arrangeAll_grows c children (stackedMost_mono axis _ h children.length))

/-- Elements of which each has more space. -/
theorem arrangeAll_grows (c : LayoutContext) (es : List Element) {smalls larges : List Size}
    (h : List.Forall₂ Size.AtMost smalls larges) :
    List.Forall₂ Arranged.Grows (arrangeAll c es smalls) (arrangeAll c es larges) := by
  cases es with
  | nil => exact .nil
  | cons e rest =>
    cases h with
    | nil => exact .nil
    | cons first others =>
      rw [arrangeAll, arrangeAll]
      exact .cons (arrange_grows c e first) (arrangeAll_grows c rest others)

end

/-- **More space is never worse.**  Content with properties for every element is laid out in any two
constraints of which the one allows no more than the other.  The trees of boxes have the same shape
and the same labels, no box is smaller in the larger constraint, and the notes there are some of
those in the smaller one: the same elements with the same needs, in the same order. -/
theorem Element.layOut_grows {c : LayoutContext} {e : Element} (covers : c.styles.Covers e)
    (x y : Int) {small large : Size} (width : small.width ≤ large.width)
    (height : small.height ≤ large.height) :
    ∃ r s, e.layOut c x y small = .ok r ∧ e.layOut c x y large = .ok s ∧
      r.box.Alike Frame.Grows s.box ∧
      s.notes.map LayoutNote.demand <+ r.notes.map LayoutNote.demand := by
  have larger : Size.AtMost ⟨max 0 small.width, max 0 small.height⟩
      ⟨max 0 large.width, max 0 large.height⟩ := by
    constructor <;> simp only <;> omega
  have grows := arrange_grows c e larger
  refine ⟨_, _, layOut_of_covers covers x y small, layOut_of_covers covers x y large, ?_,
    grows.notes⟩
  exact grows.box.absolute Frame.grows_movable trivial

/-- With fourteen pixels more in width the column gets seven of them, and its text fits. -/
theorem columnInRow_grows :
    columnInRowContext.styles.Covers columnInRow ∧
      ∃ r s, columnInRow.layOut columnInRowContext (-3) 4 ⟨48, 20⟩ = .ok r ∧
        columnInRow.layOut columnInRowContext (-3) 4 ⟨62, 20⟩ = .ok s ∧
        r.notes.map LayoutNote.demand = [(4, ⟨30, 9⟩)] ∧ s.notes = [] ∧
        r.box.Alike Frame.Grows s.box ∧
        s.notes.map LayoutNote.demand <+ r.notes.map LayoutNote.demand := by
  have covers : columnInRowContext.styles.Covers columnInRow := by decide
  obtain ⟨r, s, small, large, boxes, notes⟩ := Element.layOut_grows covers (-3) 4
    (show (⟨48, 20⟩ : Size).width ≤ (⟨62, 20⟩ : Size).width by decide) (Int.le_refl 20)
  have overflow : (columnInRow.layOut columnInRowContext (-3) 4 ⟨48, 20⟩).map
      (fun r => r.notes.map LayoutNote.demand) = .ok [(4, ⟨30, 9⟩)] := by decide +kernel
  have none : (columnInRow.layOut columnInRowContext (-3) 4 ⟨62, 20⟩).map Arranged.notes
      = .ok [] := by decide +kernel
  rw [small] at overflow
  rw [large] at none
  exact ⟨covers, r, s, small, large, Except.ok.inj overflow, Except.ok.inj none, boxes, notes⟩

end SlideDeck
