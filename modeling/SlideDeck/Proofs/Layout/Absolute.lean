import SlideDeck.Proofs.Layout.Stack
import SlideDeck.Proofs.Syntax.Grammar

/-! # Layout in absolute places

What a layout is, said of absolute places only.  Content is arranged in two
passes, the first of which places every box relative to its parent; `LaidOut`
says in one pass where each box is and how large it is.

* `absolute_centred`, `absolute_padded` and `absolute_stacked` say what the
  second pass makes of each kind of box.
* `laidOut_iff`: what the two passes make is laid out, and nothing else is.
* `layOut_laidOut`: laying out succeeds, and its box is the only one that is
  laid out.

A child may be measured wherever it is, because its size does not depend on its
place.  So `LaidOut` may say the offset of a child with the size that it has at
that very offset. -/

namespace SlideDeck

open Syntax

/-! ## Trees of content -/

theorem Box.flattenAll_eq_flatMap (boxes : List Box) :
    flattenAll boxes = boxes.flatMap flatten := by
  induction boxes with
  | nil => rfl
  | cons b rest ih => rw [flattenAll, ih, List.flatMap_cons]

theorem Element.flattenAll_eq_flatMap (es : List Element) :
    flattenAll es = es.flatMap flatten := by
  induction es with
  | nil => rfl
  | cons e rest ih => rw [flattenAll, ih, List.flatMap_cons]

/-- Nothing is missing in a tree: no child is, and every stack has some. -/
inductive Whole : Element → Prop
  | text {a : Attributes} {value : Bytes} : Whole (.text a value)
  | centre {a : Attributes} {child : Element} : Whole child → Whole (.centre a child)
  | padding {a : Attributes} {child : Element} : Whole child → Whole (.padding a child)
  | stack {a : Attributes} {axis : Axis} {children : List Element} :
      children ≠ [] → (∀ e ∈ children, Whole e) → Whole (.stack a axis children)

theorem Syntax.Contents.ne_nil {ts : List Token} {es : List Element} (h : Contents ts es) :
    es ≠ [] := by
  cases h <;> exact List.cons_ne_nil _ _

mutual

/-- Nothing is missing in content that a source has. -/
theorem Syntax.Content.whole {ts : List Token} {e : Element} (h : Content ts e) : Whole e := by
  cases h with
  | text => exact .text
  | centre _ child => exact .centre child.whole
  | padding _ child => exact .padding child.whole
  | stack _ children => exact .stack children.ne_nil children.whole

theorem Syntax.Contents.whole {ts : List Token} {es : List Element} (h : Contents ts es) :
    ∀ e ∈ es, Whole e := by
  cases h with
  | last child => simpa using child.whole
  | more child rest => simpa using ⟨child.whole, rest.whole⟩

end

theorem Syntax.Items.whole {body : List Token} {es : List Element} {bs : List StyleBlock}
    (h : Items body es bs) : ∀ e ∈ es, Whole e := by
  induction h with
  | nil => nofun
  | content isContent _ ih => exact List.forall_mem_cons.2 ⟨isContent.whole, ih⟩
  | block _ _ ih => exact ih

theorem Syntax.SlideTokens.whole {ts : List Token} {s : Slide} (h : SlideTokens ts s) :
    Whole s.content := by
  cases h with
  | mk isItems => exact isItems.whole _ (List.mem_singleton_self _)

/-- The styles have properties for every element of a tree. -/
def ResolvedSlide.Covers (r : ResolvedSlide) (e : Element) : Prop :=
  ∀ node ∈ e.flatten, node.id < r.nodeStyles.length

instance (r : ResolvedSlide) (e : Element) : Decidable (r.Covers e) :=
  inferInstanceAs (Decidable (∀ node ∈ e.flatten, node.id < r.nodeStyles.length))

theorem ResolvedSlide.missing?_eq_none {r : ResolvedSlide} {e : Element} :
    r.missing? e = none ↔ r.Covers e := by
  simp only [missing?, Covers, Option.map_eq_none_iff, List.find?_eq_none, decide_eq_true_eq,
    Nat.not_le]

/-! ## The equations -/

/-- The frame of an element at a place. -/
def Attributes.frameAt (a : Attributes) (kind : Kind) (x y : Int) (size : Size) : Frame :=
  { a.frame kind size with x, y }

def widths (boxes : List Box) : List Int :=
  boxes.map fun b => b.frame.width

def heights (boxes : List Box) : List Int :=
  boxes.map fun b => b.frame.height

/-- The box of an element at an absolute place, at most as large as a constraint. -/
inductive LaidOut (c : LayoutContext) : Element → Int → Int → Size → Box → Prop
  | text {a : Attributes} {value : Bytes} {x y : Int} {most extent : Size} :
      (c.measurer.getD approximateExtent) value (c.textSize a) = extent →
      LaidOut c (.text a value) x y most
        (.mk { a.frameAt .text x y ⟨min (max 0 extent.width) most.width,
            min (max 0 extent.height) most.height⟩ with
          text := some ⟨value, c.textSize a, c.textFill a⟩ } [])
  | centre {a : Attributes} {child : Element} {x y : Int} {most : Size} {b : Box} :
      LaidOut c child (x + (most.width - b.frame.width) / 2)
        (y + (most.height - b.frame.height) / 2) most b →
      LaidOut c (.centre a child) x y most (.mk (a.frameAt .centre x y most) [b])
  | padding {a : Attributes} {child : Element} {x y amount : Int} {most : Size} {b : Box} :
      c.pixels a .amount = amount →
      LaidOut c child (x + amount) (y + amount)
        ⟨max 0 (most.width - 2 * amount), max 0 (most.height - 2 * amount)⟩ b →
      LaidOut c (.padding a child) x y most
        (.mk (a.frameAt .padding x y ⟨min most.width (b.frame.width + 2 * amount),
          min most.height (b.frame.height + 2 * amount)⟩) [b])
  | row {a : Attributes} {children : List Element} {x y gap : Int} {most : Size}
      {boxes : List Box} :
      c.pixels a .gap = gap → boxes.length = children.length →
      (∀ i e b, children[i]? = some e → boxes[i]? = some b →
        LaidOut c e (x + min pixelCap (spaced gap ((widths boxes).take i))) y
          ⟨share most.width gap children.length i, most.height⟩ b) →
      LaidOut c (.stack a .horizontal children) x y most
        (.mk (a.frameAt .row x y
          ⟨min most.width ((widths boxes).sum + gap * (children.length - 1)),
            largest (heights boxes)⟩) boxes)
  | column {a : Attributes} {children : List Element} {x y gap : Int} {most : Size}
      {boxes : List Box} :
      c.pixels a .gap = gap → boxes.length = children.length →
      (∀ i e b, children[i]? = some e → boxes[i]? = some b →
        LaidOut c e x (y + min pixelCap (spaced gap ((heights boxes).take i)))
          ⟨most.width, share most.height gap children.length i⟩ b) →
      LaidOut c (.stack a .vertical children) x y most
        (.mk (a.frameAt .column x y
          ⟨largest (widths boxes),
            min most.height ((heights boxes).sum + gap * (children.length - 1))⟩) boxes)

theorem LaidOut.place {c : LayoutContext} {e : Element} {x y : Int} {most : Size} {b : Box}
    (h : LaidOut c e x y most b) : b.frame.x = x ∧ b.frame.y = y := by
  cases h <;> exact ⟨rfl, rfl⟩

/-! ## The absolute pass -/

section

variable (a : Attributes) (x y : Int) {most : Size} {child : Arranged}

theorem moved_frame (kind : Kind) (size : Size) :
    (a.frame kind size).moved x y = a.frameAt kind x y size := by
  simp [Frame.moved, Attributes.frame, Attributes.frameAt]

theorem absolute_moved (b : Box) (p q : Int) :
    (b.moved p q).absolute x y = b.absolute (x + p) (y + q) := by
  cases b with
  | mk f cs => simp [Box.moved, Box.absolute, Frame.moved, Box.frame, Box.children, Int.add_assoc,
      Int.add_comm p, Int.add_comm q]

@[simp] theorem size_absolute (b : Box) : (b.absolute x y).size = b.size := by
  cases b
  rfl

@[simp] theorem width_absolute (b : Box) : (b.absolute x y).frame.width = b.frame.width :=
  congrArg Size.width (size_absolute x y b)

@[simp] theorem height_absolute (b : Box) : (b.absolute x y).frame.height = b.frame.height :=
  congrArg Size.height (size_absolute x y b)

theorem absoluteAll_eq_map (cs : List Box) :
    Box.absoluteAll x y cs = cs.map (Box.absolute x y) := by
  induction cs with
  | nil => rfl
  | cons b rest ih => rw [Box.absoluteAll, ih, List.map_cons]

/-- A tree of which the root is not placed yet. -/
theorem absolute_mk (kind : Kind) (size : Size) (cs : List Box) :
    (Box.mk (a.frame kind size) cs).absolute x y
      = .mk (a.frameAt kind x y size) (cs.map (Box.absolute x y)) := by
  rw [Box.absolute, moved_frame, absoluteAll_eq_map]
  simp [Attributes.frame]

theorem absolute_text (c : LayoutContext) (value : Bytes) (most : Size) :
    (arrangeText c a value most).box.absolute x y
      = .mk { a.frameAt .text x y
            ⟨min (max 0 ((c.measurer.getD approximateExtent) value (c.textSize a)).width) most.width,
              min (max 0 ((c.measurer.getD approximateExtent) value (c.textSize a)).height)
                most.height⟩ with
          text := some ⟨value, c.textSize a, c.textFill a⟩ } [] := by
  simp [arrangeText, measured, Box.absolute, Box.absoluteAll, Frame.moved, Attributes.frame,
    Attributes.frameAt]

theorem absolute_centred (within : child.box.Within most) :
    (centred a most child).box.absolute x y
      = .mk (a.frameAt .centre x y most)
          [child.box.absolute (x + (most.width - child.box.frame.width) / 2)
            (y + (most.height - child.box.frame.height) / 2)] := by
  have dx : max 0 ((most.width - child.box.frame.width) / 2)
      = (most.width - child.box.frame.width) / 2 := by
    have := within.width_le
    omega
  have dy : max 0 ((most.height - child.box.frame.height) / 2)
      = (most.height - child.box.frame.height) / 2 := by
    have := within.height_le
    omega
  simp only [centred, absolute_mk, Box.size, List.map_cons, List.map_nil, absolute_moved, dx, dy]

theorem absolute_padded {amount : Int} (positive : 0 ≤ amount) (range : most.InRange)
    (width : 0 ≤ child.box.frame.width) (height : 0 ≤ child.box.frame.height) :
    (padded a amount most child).box.absolute x y
      = .mk (a.frameAt .padding x y ⟨min most.width (child.box.frame.width + 2 * amount),
            min most.height (child.box.frame.height + 2 * amount)⟩)
          [child.box.absolute (x + amount) (y + amount)] := by
  have inside : ∀ n m : Int, 0 ≤ m → m ≤ pixelCap → 0 ≤ n →
      clampPixels (min m (n + 2 * amount)) = min m (n + 2 * amount) := by
    intro n m _ _ _
    rw [clampPixels]
    omega
  simp only [padded, absolute_mk, Box.size, List.map_cons, List.map_nil, absolute_moved,
    inside _ _ range.width_nonneg range.width_le width,
    inside _ _ range.height_nonneg range.height_le height]

/-- The main extent of a stack is what its children and the gaps between them take. -/
theorem absolute_stacked (axis : Axis) {gap : Int} (positive : 0 ≤ gap) (range : most.InRange)
    {children : List Arranged} {boxes : List Box} (isBoxes : children.map Arranged.box = boxes)
    (notEmpty : boxes ≠ []) (mains : ∀ n ∈ axis.mains boxes, 0 ≤ n)
    (crosses : ∀ n ∈ axis.crosses boxes, n ≤ axis.cross most) :
    (stacked a axis gap most children).box.absolute x y
      = .mk (a.frameAt axis.kind x y
          (axis.size (min (axis.main most) ((axis.mains boxes).sum + gap * (boxes.length - 1)))
            (largest (axis.crosses boxes))))
          ((placeAlong axis gap 0 boxes).1.map (Box.absolute x y)) := by
  subst isBoxes
  have gaps : 0 ≤ gap * ((children.map Arranged.box).length - 1 : Int) := by
    have := List.length_pos_iff.2 notEmpty
    exact Int.mul_nonneg positive (by omega)
  have sum := List.sum_nonneg mains
  obtain ⟨nonneg, capped⟩ := range.main axis
  have main : clampPixels (min (placeAlong axis gap 0 (children.map Arranged.box)).2
      (axis.main most)) = min (axis.main most)
        ((axis.mains (children.map Arranged.box)).sum
          + gap * ((children.map Arranged.box).length - 1)) := by
    rw [placeAlong_end axis gap 0 notEmpty, clampPixels]
    omega
  -- No child is larger across the axis than the stack may be.
  have cross : min (largest (axis.crosses (children.map Arranged.box))) (axis.cross most)
      = largest (axis.crosses (children.map Arranged.box)) :=
    Int.min_eq_left (foldl_max_le (range.cross axis).1 crosses)
  rw [← main, ← cross, ← absolute_mk]
  rfl

end

/-! ## The children of a stack -/

theorem arrangeAll_eq_zipWith (c : LayoutContext) (es : List Element) (mosts : List Size) :
    arrangeAll c es mosts = List.zipWith (arrange c) es mosts := by
  induction es generalizing mosts with
  | nil => rfl
  | cons e rest ih =>
    cases mosts with
    | nil => rfl
    | cons most others => rw [arrangeAll, ih, List.zipWith_cons_cons]

/-- The constraint for child `i` of `count` in a stack. -/
def shareMost (axis : Axis) (gap : Int) (most : Size) (count i : Nat) : Size :=
  axis.size (share (axis.main most) gap count i) (axis.cross most)

theorem getElem?_stackedMost {axis : Axis} {gap : Int} (positive : 0 ≤ gap) {most : Size}
    (range : most.InRange) {count i : Nat} (h : i < count) :
    (stackedMost axis gap most count)[i]? = some (shareMost axis gap most count i) := by
  rw [stackedMost, List.getElem?_map, getElem?_slots (range.main axis).2 positive h]
  rfl

theorem shareMost_inRange (axis : Axis) {gap : Int} (positive : 0 ≤ gap) {most : Size}
    (range : most.InRange) {count i : Nat} (h : i < count) :
    (shareMost axis gap most count i).InRange := by
  obtain ⟨nonneg, capped⟩ := range.main axis
  obtain ⟨shareNonneg, shareLe⟩ := share_inRange nonneg capped positive h
  cases axis with
  | horizontal =>
    exact ⟨shareNonneg, Int.le_trans shareLe capped, range.height_nonneg, range.height_le⟩
  | vertical =>
    exact ⟨range.width_nonneg, range.width_le, shareNonneg, Int.le_trans shareLe capped⟩

/-- The boxes of the children of a stack before they are placed. -/
def childBoxes (c : LayoutContext) (axis : Axis) (gap : Int) (most : Size)
    (children : List Element) : List Box :=
  (arrangeAll c children (stackedMost axis gap most children.length)).map Arranged.box

theorem childBoxes_eq_mapIdx (c : LayoutContext) (axis : Axis) {gap : Int} (positive : 0 ≤ gap)
    {most : Size} (range : most.InRange) (children : List Element) :
    childBoxes c axis gap most children
      = children.mapIdx fun i e =>
          (arrange c e (shareMost axis gap most children.length i)).box := by
  refine List.ext_getElem? fun i => ?_
  rw [childBoxes, arrangeAll_eq_zipWith, List.getElem?_map, List.getElem?_zipWith,
    List.getElem?_mapIdx]
  cases there : children[i]? with
  | none => rfl
  | some e =>
    rw [getElem?_stackedMost positive range (List.getElem?_eq_some_iff.1 there).1]
    rfl

/-- How far a box is moved that stands behind others on an axis. -/
def offset (axis : Axis) (gap : Int) (before : List Int) : Size :=
  axis.size (min pixelCap (spaced gap before)) 0

/-- An offset is within the limit where a box still fits in behind it. -/
theorem offset_of_le (axis : Axis) {gap : Int} (positive : 0 ≤ gap) {boxes : List Box}
    (nonneg : ∀ n ∈ axis.mains boxes, 0 ≤ n)
    (total : (axis.mains boxes).sum + gap * (boxes.length - 1) ≤ pixelCap) {i : Nat} {b : Box}
    (there : boxes[i]? = some b) :
    offset axis gap ((axis.mains boxes).take i)
      = axis.size (spaced gap ((axis.mains boxes).take i)) 0 := by
  have extent : (axis.mains boxes)[i]? = some (axis.main b.size) := by
    rw [Axis.mains, List.getElem?_map, there]
    rfl
  have behind := spaced_take_add_le positive nonneg extent
  have size := nonneg _ (List.mem_of_getElem? extent)
  rw [Axis.length_mains] at behind
  rw [offset, Int.min_eq_right (by omega)]

theorem getElem?_placed (axis : Axis) {gap : Int} (positive : 0 ≤ gap) (x y : Int)
    {boxes : List Box} (mains : ∀ n ∈ axis.mains boxes, 0 ≤ n) (i : Nat) :
    ((placeAlong axis gap 0 boxes).1.map (Box.absolute x y))[i]?
      = boxes[i]?.map fun b =>
          b.absolute (x + (offset axis gap ((axis.mains boxes).take i)).width)
            (y + (offset axis gap ((axis.mains boxes).take i)).height) := by
  have nonneg := spaced_nonneg positive fun n (h : n ∈ (axis.mains boxes).take i) =>
    mains n (List.mem_of_mem_take h)
  have moved : clampPixels (0 + spaced gap ((axis.mains boxes).take i))
      = min pixelCap (spaced gap ((axis.mains boxes).take i)) := by
    rw [Int.zero_add, clampPixels_of_nonneg nonneg, Int.min_comm]
  rw [List.getElem?_map, getElem?_placeAlong, moved, Option.map_map]
  simp only [Function.comp_def, Axis.move_eq, absolute_moved, offset]

/-- The equations of rows and of columns are the same along and across an axis. -/
theorem laidOut_stack {c : LayoutContext} {a : Attributes} {axis : Axis}
    {children : List Element} {x y : Int} {most : Size} {b : Box} :
    LaidOut c (.stack a axis children) x y most b ↔
      ∃ boxes, boxes.length = children.length ∧
        (∀ i e b, children[i]? = some e → boxes[i]? = some b →
          LaidOut c e (x + (offset axis (c.pixels a .gap) ((axis.mains boxes).take i)).width)
            (y + (offset axis (c.pixels a .gap) ((axis.mains boxes).take i)).height)
            (shareMost axis (c.pixels a .gap) most children.length i) b) ∧
        b = .mk (a.frameAt axis.kind x y
          (axis.size
            (min (axis.main most)
              ((axis.mains boxes).sum + c.pixels a .gap * (children.length - 1)))
            (largest (axis.crosses boxes)))) boxes := by
  -- Nothing moves across the axis.
  have still : ∀ n : Int, n + 0 = n := Int.add_zero
  constructor
  · intro h
    cases h with
    | @row _ _ _ _ _ _ boxes isGap length each =>
      subst isGap
      refine ⟨boxes, length, fun i e b child box => ?_, rfl⟩
      have here := each i e b child box
      rw [← still y] at here
      exact here
    | @column _ _ _ _ _ _ boxes isGap length each =>
      subst isGap
      refine ⟨boxes, length, fun i e b child box => ?_, rfl⟩
      have here := each i e b child box
      rw [← still x] at here
      exact here
  · intro parts
    obtain ⟨boxes, length, each, rfl⟩ := parts
    cases axis with
    | horizontal =>
      refine .row rfl length fun i e b child box => ?_
      rw [← still y]
      exact each i e b child box
    | vertical =>
      refine .column rfl length fun i e b child box => ?_
      rw [← still x]
      exact each i e b child box

/-! ## Both passes -/

theorem pixels_nonneg (c : LayoutContext) (a : Attributes) (key : Property) :
    0 ≤ c.pixels a key := by
  rw [LayoutContext.pixels]
  cases (c.styles.styleFor a.id).number? key.key with
  | none => exact Int.le_refl 0
  | some v => exact clampPixels_nonneg _

theorem paddedMost_inRange (amount : Int) (most : Size) : (paddedMost amount most).InRange := by
  have capped : ∀ n : Int, clampPixels n ≤ pixelCap := fun n =>
    Int.max_le.2 ⟨pixelCap_nonneg, Int.min_le_right ..⟩
  exact ⟨clampPixels_nonneg _, capped _, clampPixels_nonneg _, capped _⟩

theorem paddedMost_eq {amount : Int} (positive : 0 ≤ amount) {most : Size}
    (range : most.InRange) :
    paddedMost amount most
      = ⟨max 0 (most.width - 2 * amount), max 0 (most.height - 2 * amount)⟩ := by
  have width := range.width_le
  have height := range.height_le
  rw [paddedMost, clampPixels_of_le (by omega), clampPixels_of_le (by omega)]

theorem eq_mapIdx_iff {α β : Type} {f : Nat → α → β} {as : List α} {bs : List β} :
    (bs.length = as.length ∧ ∀ i a b, as[i]? = some a → bs[i]? = some b → b = f i a) ↔
      bs = as.mapIdx f := by
  constructor
  · intro parts
    obtain ⟨length, each⟩ := parts
    refine List.ext_getElem? fun i => ?_
    rw [List.getElem?_mapIdx]
    cases there : as[i]? with
    | none =>
      rw [List.getElem?_eq_none_iff] at there
      rw [List.getElem?_eq_none (length ▸ there)]
      rfl
    | some a =>
      have before := length ▸ (List.getElem?_eq_some_iff.1 there).1
      have box := List.getElem?_eq_getElem before
      rw [box, each i a _ there box]
      rfl
  · intro equal
    subst equal
    refine ⟨List.length_mapIdx, fun i a b there box => ?_⟩
    rw [List.getElem?_mapIdx, there] at box
    exact (Option.some.inj box).symm

/-- The boxes of the children of a stack at the places that the extents before them give. -/
def childBoxesAt (c : LayoutContext) (axis : Axis) (gap : Int) (most : Size)
    (children : List Element) (x y : Int) (extents : List Int) : List Box :=
  children.mapIdx fun i e =>
    (arrange c e (shareMost axis gap most children.length i)).box.absolute
      (x + (offset axis gap (extents.take i)).width)
      (y + (offset axis gap (extents.take i)).height)

section

variable (c : LayoutContext) (axis : Axis) {gap : Int} (positive : 0 ≤ gap) {most : Size}
  (range : most.InRange) (children : List Element) (x y : Int)

include positive range

theorem childBoxes_within :
    ∀ b ∈ childBoxes c axis gap most children,
      ∃ i, i < children.length ∧ b.Within (shareMost axis gap most children.length i) := by
  intro b among
  obtain ⟨i, box⟩ := List.mem_iff_getElem?.1 among
  rw [childBoxes_eq_mapIdx c axis positive range, List.getElem?_mapIdx] at box
  obtain ⟨e, child, rfl⟩ := Option.map_eq_some_iff.1 box
  have before := (List.getElem?_eq_some_iff.1 child).1
  have inner := shareMost_inRange axis positive range before
  exact ⟨i, before, arrange_within c e inner.width_nonneg inner.height_nonneg⟩

theorem mains_childBoxes : ∀ n ∈ axis.mains (childBoxes c axis gap most children), 0 ≤ n := by
  intro n among
  obtain ⟨b, box, rfl⟩ := List.mem_map.1 among
  obtain ⟨i, -, within⟩ := childBoxes_within c axis positive range children b box
  exact (within.main axis).1

theorem crosses_childBoxes :
    ∀ n ∈ axis.crosses (childBoxes c axis gap most children), n ≤ axis.cross most := by
  intro n among
  obtain ⟨b, box, rfl⟩ := List.mem_map.1 among
  obtain ⟨i, -, within⟩ := childBoxes_within c axis positive range children b box
  rw [← Axis.cross_size axis (share (axis.main most) gap children.length i) (axis.cross most)]
  exact (within.cross axis).2

/-- The sizes of children do not depend on their places. -/
theorem map_size_childBoxesAt (extents : List Int) :
    (childBoxesAt c axis gap most children x y extents).map Box.size
      = (childBoxes c axis gap most children).map Box.size := by
  refine List.ext_getElem? fun i => ?_
  rw [childBoxes_eq_mapIdx c axis positive range, childBoxesAt]
  simp only [List.getElem?_map, List.getElem?_mapIdx, Option.map_map, Function.comp_def,
    size_absolute]

theorem placed_childBoxes :
    (placeAlong axis gap 0 (childBoxes c axis gap most children)).1.map (Box.absolute x y)
      = childBoxesAt c axis gap most children x y
          (axis.mains (childBoxes c axis gap most children)) := by
  refine List.ext_getElem? fun i => ?_
  have box : (childBoxes c axis gap most children)[i]? = children[i]?.map fun e =>
      (arrange c e (shareMost axis gap most children.length i)).box := by
    rw [childBoxes_eq_mapIdx c axis positive range, List.getElem?_mapIdx]
  rw [getElem?_placed axis positive x y (mains_childBoxes c axis positive range children), box,
    Option.map_map, childBoxesAt, List.getElem?_mapIdx]
  rfl

theorem map_size_placed :
    ((placeAlong axis gap 0 (childBoxes c axis gap most children)).1.map (Box.absolute x y)).map
        Box.size
      = (childBoxes c axis gap most children).map Box.size := by
  rw [placed_childBoxes c axis positive range, map_size_childBoxesAt c axis positive range]

end

/-- The children of a stack are laid out exactly where the cursor places them. -/
theorem placed_iff {c : LayoutContext} {axis : Axis} {gap x y : Int} {most : Size}
    {children : List Element} (positive : 0 ≤ gap) (range : most.InRange)
    (each : ∀ e ∈ children, ∀ {x y : Int} {most : Size}, most.InRange → ∀ {b : Box},
      LaidOut c e x y most b ↔ b = (arrange c e most).box.absolute x y) {boxes : List Box} :
    (boxes.length = children.length ∧
        ∀ i e b, children[i]? = some e → boxes[i]? = some b →
          LaidOut c e (x + (offset axis gap ((axis.mains boxes).take i)).width)
            (y + (offset axis gap ((axis.mains boxes).take i)).height)
            (shareMost axis gap most children.length i) b) ↔
      boxes = (placeAlong axis gap 0 (childBoxes c axis gap most children)).1.map
        (Box.absolute x y) := by
  have child : ∀ i e b, children[i]? = some e →
      (LaidOut c e (x + (offset axis gap ((axis.mains boxes).take i)).width)
          (y + (offset axis gap ((axis.mains boxes).take i)).height)
          (shareMost axis gap most children.length i) b ↔
        b = (arrange c e (shareMost axis gap most children.length i)).box.absolute
          (x + (offset axis gap ((axis.mains boxes).take i)).width)
          (y + (offset axis gap ((axis.mains boxes).take i)).height)) := fun i e b there =>
    each e (List.mem_of_getElem? there)
      (shareMost_inRange axis positive range (List.getElem?_eq_some_iff.1 there).1)
  rw [placed_childBoxes c axis positive range]
  constructor
  · intro parts
    obtain ⟨length, laid⟩ := parts
    have equal : boxes = childBoxesAt c axis gap most children x y (axis.mains boxes) :=
      eq_mapIdx_iff.1 ⟨length, fun i e b there box => (child i e b there).1 (laid i e b there box)⟩
    have mains : axis.mains boxes = axis.mains (childBoxes c axis gap most children) := by
      rw [Axis.mains_eq_map, Axis.mains_eq_map, equal, map_size_childBoxesAt c axis positive range]
    rw [← mains]
    exact equal
  · intro equal
    have mains : axis.mains boxes = axis.mains (childBoxes c axis gap most children) := by
      rw [Axis.mains_eq_map, Axis.mains_eq_map, equal, map_size_childBoxesAt c axis positive range]
    rw [← mains] at equal
    obtain ⟨length, at'⟩ := eq_mapIdx_iff.2 equal
    exact ⟨length, fun i e b there box => (child i e b there).2 (at' i e b there box)⟩

/-- Content is laid out exactly as the two passes lay it out. -/
theorem laidOut_iff {c : LayoutContext} {e : Element} (whole : Whole e) {x y : Int} {most : Size}
    (range : most.InRange) {b : Box} :
    LaidOut c e x y most b ↔ b = (arrange c e most).box.absolute x y := by
  induction whole generalizing x y most b with
  | @text a value =>
    rw [arrange, absolute_text]
    constructor
    · intro h
      cases h with
      | text isExtent => rw [isExtent]
    · intro equal
      rw [equal]
      exact .text rfl
  | @centre a child whole ih =>
    have within := arrange_within c child range.width_nonneg range.height_nonneg
    rw [arrange, absolute_centred a x y within]
    constructor
    · intro h
      cases h with
      | @centre _ _ _ _ _ b inner =>
        have equal := (ih range).1 inner
        -- The child has the size that it has at the origin, although it stands elsewhere.
        have width : b.frame.width = (arrange c child most).box.frame.width := by
          rw [equal, width_absolute]
        have height : b.frame.height = (arrange c child most).box.frame.height := by
          rw [equal, height_absolute]
        rw [equal, width, height]
    · intro equal
      rw [equal]
      apply LaidOut.centre
      rw [ih range, width_absolute, height_absolute]
  | @padding a child whole ih =>
    have positive := pixels_nonneg c a .amount
    have inner := paddedMost_inRange (c.pixels a .amount) most
    have within := arrange_within c child inner.width_nonneg inner.height_nonneg
    rw [arrange, absolute_padded a x y positive range within.width_nonneg within.height_nonneg]
    constructor
    · intro h
      cases h with
      | padding isAmount inside =>
        subst isAmount
        rw [← paddedMost_eq positive range, ih inner] at inside
        rw [inside, width_absolute, height_absolute]
    · intro equal
      rw [equal, ← width_absolute (x + c.pixels a .amount) (y + c.pixels a .amount),
        ← height_absolute (x + c.pixels a .amount) (y + c.pixels a .amount)]
      apply LaidOut.padding rfl
      rw [← paddedMost_eq positive range, ih inner]
  | @stack a axis children notEmpty wholes ih =>
    have positive := pixels_nonneg c a .gap
    have length : (childBoxes c axis (c.pixels a .gap) most children).length
        = children.length := by
      rw [childBoxes_eq_mapIdx c axis positive range, List.length_mapIdx]
    have nonempty : childBoxes c axis (c.pixels a .gap) most children ≠ [] := by
      rw [← List.length_pos_iff, length]
      exact List.length_pos_iff.2 notEmpty
    rw [arrange, laidOut_stack,
      absolute_stacked a x y axis positive range (rfl : _ = childBoxes c axis _ most children)
        nonempty (mains_childBoxes c axis positive range children)
        (crosses_childBoxes c axis positive range children), length]
    constructor
    · intro parts
      obtain ⟨boxes, length', laid, rfl⟩ := parts
      have equal := (placed_iff positive range ih).1 ⟨length', laid⟩
      have sizes := map_size_placed c axis positive range children x y
      rw [← equal] at sizes ⊢
      rw [Axis.mains_eq_map, Axis.crosses_eq_map, sizes, ← Axis.mains_eq_map,
        ← Axis.crosses_eq_map]
    · intro equal
      obtain ⟨length', laid⟩ := (placed_iff positive range ih).2 rfl
      refine ⟨_, length', laid, ?_⟩
      rw [Axis.mains_eq_map, Axis.crosses_eq_map, map_size_placed c axis positive range,
        ← Axis.mains_eq_map, ← Axis.crosses_eq_map]
      exact equal

/-- Less than nothing is nothing, and all else is up to the two passes. -/
theorem layOut_of_covers {c : LayoutContext} {e : Element} (covers : c.styles.Covers e) (x y : Int)
    (most : Size) :
    e.layOut c x y most
      = .ok { arrange c e ⟨max 0 most.width, max 0 most.height⟩ with
          box := (arrange c e ⟨max 0 most.width, max 0 most.height⟩).box.absolute x y } := by
  rw [Element.layOut, ResolvedSlide.missing?_eq_none.2 covers]

theorem layOut_eq_ok {c : LayoutContext} {e : Element} (covers : c.styles.Covers e) (x y : Int)
    {most : Size} (range : most.InRange) :
    e.layOut c x y most
      = .ok { arrange c e most with box := (arrange c e most).box.absolute x y } := by
  have unchanged : (⟨max 0 most.width, max 0 most.height⟩ : Size) = most := by
    rw [Int.max_eq_right range.width_nonneg, Int.max_eq_right range.height_nonneg]
  rw [layOut_of_covers covers, unchanged]

/-- **Layout in one pass.**  Whole content with properties for every element has a box at `(x, y)`,
and that is the only box which the equations allow there. -/
theorem Element.layOut_laidOut {c : LayoutContext} {e : Element} (whole : Whole e)
    (covers : c.styles.Covers e) (x y : Int) {most : Size} (range : most.InRange) :
    ∃ arranged, e.layOut c x y most = .ok arranged ∧
      arranged.box.frame.x = x ∧ arranged.box.frame.y = y ∧
      ∀ b, LaidOut c e x y most b ↔ b = arranged.box := by
  have laid : LaidOut c e x y most ((arrange c e most).box.absolute x y) :=
    (laidOut_iff whole range).2 rfl
  exact ⟨_, layOut_eq_ok covers x y range, laid.place.1, laid.place.2,
    fun b => laidOut_iff whole range⟩

/-- A text beside a padded one. -/
def paddedRow : Element :=
  .stack {} .horizontal
    [.text { id := 1 } (.ascii "a"), .padding { id := 2 } (.text { id := 3 } (.ascii "b"))]

/-- A gap and a padding of five and seven pixels, and texts that take what they can. -/
def paddedRowContext : LayoutContext where
  styles := { nodeStyles :=
    [.ofList [(Property.gap.key, .number (.ofNat 5))], ∅,
      .ofList [(Property.amount.key, .number (.ofNat 7))], ∅] }
  measurer := some fun _ _ => ⟨1000, -1⟩

theorem paddedRow_laidOut :
    Whole paddedRow ∧ paddedRowContext.styles.Covers paddedRow ∧ (⟨101, 40⟩ : Size).InRange ∧
      ∃ arranged, paddedRow.layOut paddedRowContext (-3) 4 ⟨101, 40⟩ = .ok arranged ∧
        arranged.box.frame.x = -3 ∧ arranged.box.frame.y = 4 ∧
        ∀ b, LaidOut paddedRowContext paddedRow (-3) 4 ⟨101, 40⟩ b ↔ b = arranged.box := by
  have whole : Whole paddedRow := by
    refine .stack (List.cons_ne_nil _ _) fun e among => ?_
    simp only [List.mem_cons, List.not_mem_nil, or_false] at among
    rcases among with rfl | rfl
    · exact .text
    · exact .padding .text
  have covers : paddedRowContext.styles.Covers paddedRow := by
    decide
  have range : (⟨101, 40⟩ : Size).InRange := ⟨by decide, by decide, by decide, by decide⟩
  exact ⟨whole, covers, range, Element.layOut_laidOut whole covers (-3) 4 range⟩

end SlideDeck
