import SlideDeck.Proofs.Layout.Bounds

/-! # Places far from the origin

How far from the origin the boxes of a slide are, and how many of their places
fit into 32 bits (`CompiledSlide.render_placed`).

* `Box.level` has the boxes of a tree that are a number of levels below its root.
* `LaidOut.ahead_root`: from a box to one of its children it is at most
  `pixelCap` each way, and never back.
* `Box.level_ahead` adds these distances up along every path.
* `Box.stored_absolute`: it does not matter whether sums wrap around on the way
  or at the end.

The limit on pixels is one on every single distance.  The margin and the seven
distances above a box on the eighth level are eight times the limit together, and
that is the first place that does not fit (`deepPaddings_overflow`), far from the
256 levels that a slide may have. -/

namespace SlideDeck

open Syntax

/-! ## Levels of a tree -/

namespace Box

/-- The boxes of a tree that are a number of levels below its root. -/
def level : Nat → Box → List Box
  | 0, b => [b]
  | d + 1, b => b.children.flatMap (level d)

theorem mem_level_succ {root b : Box} {d : Nat} :
    b ∈ root.level (d + 1) ↔ ∃ child ∈ root.children, b ∈ child.level d :=
  List.mem_flatMap

theorem mem_flatten_of_child {root child b : Box} (isChild : child ∈ root.children)
    (among : b ∈ child.flatten) : b ∈ root.flatten := by
  cases root with
  | mk f cs => exact List.mem_cons_of_mem _ (mem_flattenAll.2 ⟨child, isChild, among⟩)

theorem mem_flatten_of_level {root b : Box} {d : Nat} (h : b ∈ root.level d) :
    b ∈ root.flatten := by
  induction d generalizing root with
  | zero =>
    obtain rfl := List.mem_singleton.1 h
    cases b with
    | mk f cs => exact List.mem_cons_self ..
  | succ d ih =>
    obtain ⟨child, isChild, below⟩ := mem_level_succ.1 h
    exact mem_flatten_of_child isChild (ih below)

mutual

/-- Every box of a tree is on some level. -/
theorem exists_level {root b : Box} (h : b ∈ root.flatten) : ∃ d, b ∈ root.level d := by
  cases root with
  | mk f cs =>
    rcases List.mem_cons.1 h with rfl | below
    · exact ⟨0, List.mem_singleton_self _⟩
    · obtain ⟨child, isChild, d, there⟩ := exists_level_of_child below
      exact ⟨d + 1, mem_level_succ.2 ⟨child, isChild, there⟩⟩

theorem exists_level_of_child {cs : List Box} {b : Box} (h : b ∈ flattenAll cs) :
    ∃ child ∈ cs, ∃ d, b ∈ child.level d := by
  cases cs with
  | nil => cases h
  | cons first rest =>
    rcases List.mem_append.1 h with here | there
    · exact ⟨first, List.mem_cons_self .., exists_level here⟩
    · obtain ⟨child, isChild, below⟩ := exists_level_of_child there
      exact ⟨child, List.mem_cons_of_mem _ isChild, below⟩

end

end Box

/-! ## Distances -/

/-- A frame is not before another one, and behind it by at most a number of limits each way. -/
structure Frame.Ahead (limits : Nat) (f g : Frame) : Prop where
  x_ge : f.x ≤ g.x
  x_le : g.x ≤ f.x + limits * pixelCap
  y_ge : f.y ≤ g.y
  y_le : g.y ≤ f.y + limits * pixelCap

theorem Frame.Ahead.refl (f : Frame) : f.Ahead 0 f :=
  ⟨Int.le_refl _, by simp, Int.le_refl _, by simp⟩

theorem Frame.Ahead.trans {m n : Nat} {f g h : Frame} (first : f.Ahead m g)
    (second : g.Ahead n h) : f.Ahead (m + n) h := by
  obtain ⟨x, x', y, y'⟩ := first
  obtain ⟨z, z', w, w'⟩ := second
  simp only [pixelCap] at x' y' z' w'
  refine ⟨Int.le_trans x z, ?_, Int.le_trans y w, ?_⟩
  · simp only [pixelCap]
    omega
  · simp only [pixelCap]
    omega

/-- A frame is ahead where its distance to the right and below is within the limit. -/
theorem Frame.Ahead.of_distance {f g : Frame} {distance : Size} (range : distance.InRange)
    (right : g.x = f.x + distance.width) (below : g.y = f.y + distance.height) : f.Ahead 1 g := by
  obtain ⟨width, width', height, height'⟩ := range
  constructor <;> omega

/-- Along a path of so many steps, so many limits are possible. -/
theorem Box.level_ahead {root : Box}
    (steps : ∀ b ∈ root.flatten, ∀ child ∈ b.children, b.frame.Ahead 1 child.frame) {d : Nat}
    {b : Box} (h : b ∈ root.level d) : root.frame.Ahead d b.frame := by
  induction d generalizing root with
  | zero =>
    obtain rfl := List.mem_singleton.1 h
    exact .refl _
  | succ d ih =>
    obtain ⟨child, isChild, below⟩ := mem_level_succ.1 h
    have further : child.frame.Ahead d b.frame :=
      ih (fun inner among => steps inner (mem_flatten_of_child isChild among)) below
    have first : root.frame.Ahead 1 child.frame :=
      steps root (mem_flatten_of_level (d := 0) (List.mem_singleton_self _)) child isChild
    exact Nat.add_comm 1 d ▸ first.trans further

theorem pixels_le (c : LayoutContext) (a : Attributes) (key : Property) :
    c.pixels a key ≤ pixelCap := by
  rw [LayoutContext.pixels]
  cases (c.styles.styleFor a.id).number? key.key with
  | none => exact pixelCap_nonneg
  | some v => exact Int.max_le.2 ⟨pixelCap_nonneg, Int.min_le_right ..⟩

/-- What is moved to the middle of a constraint is not moved further than that reaches. -/
theorem centre_inRange {most : Size} (range : most.InRange) {b : Box} (within : b.Within most) :
    (⟨(most.width - b.frame.width) / 2, (most.height - b.frame.height) / 2⟩ : Size).InRange := by
  obtain ⟨width, width', height, height'⟩ := range
  obtain ⟨inner, inner', outer, outer'⟩ := within
  constructor <;> dsimp only <;> omega

theorem offset_inRange (axis : Axis) {gap : Int} (positive : 0 ≤ gap) {before : List Int}
    (nonneg : ∀ n ∈ before, 0 ≤ n) : (offset axis gap before).InRange := by
  have cap := pixelCap_nonneg
  have distance : 0 ≤ min pixelCap (spaced gap before) :=
    Int.le_min.2 ⟨cap, spaced_nonneg positive nonneg⟩
  have capped : min pixelCap (spaced gap before) ≤ pixelCap := Int.min_le_left ..
  cases axis with
  | horizontal => exact ⟨distance, capped, Int.le_refl 0, cap⟩
  | vertical => exact ⟨Int.le_refl 0, cap, distance, capped⟩

/-- A box is where its parent is, or further on by a distance within the limit. -/
theorem LaidOut.ahead_root {c : LayoutContext} {e : Element} (whole : Whole e) {x y : Int}
    {most : Size} {b : Box} (h : LaidOut c e x y most b) (range : most.InRange) :
    ∀ child ∈ b.children, b.frame.Ahead 1 child.frame := by
  cases whole with
  | text =>
    cases h with
    | text => nofun
  | @centre a child whole =>
    cases h with
    | centre inner =>
      obtain ⟨right, below⟩ := inner.place
      have distance := centre_inRange range (inner.within whole range)
      exact List.forall_mem_singleton.2 (.of_distance distance right below)
  | @padding a child whole =>
    cases h with
    | @padding _ _ _ _ amount _ b isAmount inner =>
      obtain ⟨right, below⟩ := inner.place
      have amounts : (⟨amount, amount⟩ : Size).InRange := by
        subst isAmount
        exact ⟨pixels_nonneg c a .amount, pixels_le c a .amount, pixels_nonneg c a .amount,
          pixels_le c a .amount⟩
      exact List.forall_mem_singleton.2 (.of_distance amounts right below)
  | @stack a axis children notEmpty wholes =>
    have positive := pixels_nonneg c a .gap
    obtain ⟨boxes, length, each, rfl⟩ := laidOut_stack.1 h
    have laid : ∀ b ∈ boxes, ∃ i, ∃ e ∈ children, i < children.length ∧
        LaidOut c e (x + (offset axis (c.pixels a .gap) ((axis.mains boxes).take i)).width)
          (y + (offset axis (c.pixels a .gap) ((axis.mains boxes).take i)).height)
          (shareMost axis (c.pixels a .gap) most children.length i) b := by
      intro b among
      obtain ⟨i, there⟩ := List.mem_iff_getElem?.1 among
      have before := length ▸ (List.getElem?_eq_some_iff.1 there).1
      have isChild := List.getElem?_eq_getElem before
      exact ⟨i, _, List.mem_of_getElem? isChild, before, each i _ b isChild there⟩
    have mains : ∀ n ∈ axis.mains boxes, 0 ≤ n := by
      intro n known
      obtain ⟨b, among, rfl⟩ := List.mem_map.1 known
      obtain ⟨i, e, isChild, before, inner⟩ := laid b among
      have share := shareMost_inRange axis positive range before
      exact ((inner.within (wholes e isChild) share).main axis).1
    intro b among
    obtain ⟨i, e, -, -, inner⟩ := laid b among
    have before : ∀ n ∈ (axis.mains boxes).take i, 0 ≤ n := fun n known =>
      mains n (List.mem_of_mem_take known)
    exact .of_distance (offset_inRange axis positive before) inner.place.1 inner.place.2

/-- So is every box of a tree. -/
theorem LaidOut.ahead {c : LayoutContext} {e : Element} (whole : Whole e) {x y : Int} {most : Size}
    {root : Box} (h : LaidOut c e x y most root) (range : most.InRange) :
    ∀ b ∈ root.flatten, ∀ child ∈ b.children, b.frame.Ahead 1 child.frame := by
  intro b among
  obtain ⟨p, -, whole, range, x, y, laid⟩ := h.received whole range b among
  exact laid.ahead_root whole range

theorem depth_lt_of_child {e child : Element} (h : child ∈ e.children) : depth child < depth e := by
  have least : ∀ es : List Element, child ∈ es → depth child ≤ depthAll es := by
    intro es
    induction es with
    | nil => nofun
    | cons e es ih =>
      intro among
      rcases List.mem_cons.1 among with rfl | among
      · exact Nat.le_max_left ..
      · exact Nat.le_trans (ih among) (Nat.le_max_right ..)
  cases e with
  | hole | text => cases h
  | centre a inner | padding a inner =>
    obtain rfl := List.mem_singleton.1 h
    exact Nat.lt_succ_self _
  | stack a axis children => exact Nat.lt_succ_of_le (least children h)

/-- The children of a box are those of children of its element. -/
theorem LaidOut.child {c : LayoutContext} {e : Element} {x y : Int} {most : Size} {b : Box}
    (h : LaidOut c e x y most b) {inner : Box} (isChild : inner ∈ b.children) :
    ∃ child ∈ e.children, ∃ x y most, LaidOut c child x y most inner := by
  cases h with
  | text => cases isChild
  | centre below | padding _ below =>
    obtain rfl := List.mem_singleton.1 isChild
    exact ⟨_, List.mem_singleton_self _, _, _, _, below⟩
  | row _ length each | column _ length each =>
    obtain ⟨i, there⟩ := List.mem_iff_getElem?.1 isChild
    have before := length ▸ (List.getElem?_eq_some_iff.1 there).1
    have among := List.getElem?_eq_getElem before
    exact ⟨_, List.mem_of_getElem? among, _, _, _, each i _ _ among there⟩

/-- There are no more levels of boxes than there are of elements. -/
theorem LaidOut.level_lt {c : LayoutContext} {e : Element} {x y : Int} {most : Size} {root : Box}
    (h : LaidOut c e x y most root) {d : Nat} {b : Box} (among : b ∈ root.level d) :
    d < depth e := by
  induction d generalizing e x y most root with
  | zero =>
    cases h <;> exact Nat.succ_pos _
  | succ d ih =>
    obtain ⟨inner, isChild, below⟩ := Box.mem_level_succ.1 among
    obtain ⟨child, isElement, _, _, _, laid⟩ := h.child isChild
    exact Nat.lt_of_le_of_lt (ih laid below) (depth_lt_of_child isElement)

theorem Syntax.SlideTokens.shallow {ts : List Token} {s : Slide} (h : SlideTokens ts s) :
    depth s.content ≤ 256 := by
  cases h
  assumption

/-! ## Places in 32 bits -/

theorem wrapped_add (p q : Int) : wrapped (wrapped p + q) = wrapped (p + q) :=
  Int.bmod_add_bmod

/-- What is neither negative nor too large is what it was. -/
theorem wrapped_of_fits {place : Int} (nonneg : 0 ≤ place) (fits : place < 2147483648) :
    wrapped place = place := by
  apply Int.bmod_eq_of_le <;> omega

theorem wrapped_add_congr {p p' : Int} (h : wrapped p = wrapped p') (q : Int) :
    wrapped (q + p) = wrapped (q + p') := by
  rw [Int.add_comm, ← wrapped_add, h, wrapped_add, Int.add_comm]

namespace Box

mutual

/-- It makes no difference whether the sums wrap around at the end or already on the way: the
places above a tree matter only as far as they are kept in 32 bits. -/
theorem stored_absolute {dx dx' dy dy' : Int} (right : wrapped dx = wrapped dx')
    (below : wrapped dy = wrapped dy') (b : Box) :
    (b.absolute dx dy).stored = (b.absolute dx' dy').stored := by
  cases b with
  | mk f cs =>
    have x := wrapped_add_congr right f.x
    have y := wrapped_add_congr below f.y
    rw [absolute, absolute, stored, stored, storedAll_absolute x y cs]
    simp only [Frame.stored, Frame.moved, x, y]

theorem storedAll_absolute {dx dx' dy dy' : Int} (right : wrapped dx = wrapped dx')
    (below : wrapped dy = wrapped dy') (cs : List Box) :
    storedAll (absoluteAll dx dy cs) = storedAll (absoluteAll dx' dy' cs) := by
  cases cs with
  | nil => rfl
  | cons first rest =>
    rw [absoluteAll, absoluteAll, storedAll, storedAll, stored_absolute right below first,
      storedAll_absolute right below rest]

end

theorem storedAll_eq_map (cs : List Box) : storedAll cs = cs.map stored := by
  induction cs with
  | nil => rfl
  | cons first rest ih => rw [storedAll, ih, List.map_cons]

theorem level_stored (b : Box) (d : Nat) : b.stored.level d = (b.level d).map stored := by
  induction d generalizing b with
  | zero => rfl
  | succ d ih =>
    cases b with
    | mk f cs =>
      simp only [level, stored, children, storedAll_eq_map, List.flatMap_map, List.map_flatMap, ih]

end Box

/-- A place to the right of the origin and below it that 32 bits with a sign can hold. -/
structure Frame.Fits (f : Frame) : Prop where
  x_nonneg : 0 ≤ f.x
  x_lt : f.x < 2147483648
  y_nonneg : 0 ≤ f.y
  y_lt : f.y < 2147483648

theorem Frame.Fits.stored {f : Frame} (h : f.Fits) : f.stored = f := by
  rw [Frame.stored, wrapped_of_fits h.x_nonneg h.x_lt, wrapped_of_fits h.y_nonneg h.y_lt]

theorem Box.frame_stored (b : Box) : b.stored.frame = b.frame.stored := by
  cases b
  rfl

/-- The margin is the first distance on every path through the boxes of a slide. -/
theorem LaidOut.placed {c : LayoutContext} {e : Element} (whole : Whole e) {margin : Int}
    {most : Size} {root : Box} (h : LaidOut c e (clampPixels margin) (clampPixels margin) most root)
    (range : most.InRange) {d : Nat} {b : Box} (among : b ∈ root.level d) :
    0 ≤ b.frame.x ∧ b.frame.x ≤ (d + 1) * pixelCap ∧
      0 ≤ b.frame.y ∧ b.frame.y ≤ (d + 1) * pixelCap := by
  obtain ⟨x, x', y, y'⟩ := Box.level_ahead (h.ahead whole range) among
  obtain ⟨left, top⟩ := h.place
  have nonneg := clampPixels_nonneg margin
  have capped : clampPixels margin ≤ pixelCap :=
    Int.max_le.2 ⟨pixelCap_nonneg, Int.min_le_right ..⟩
  simp only [pixelCap] at x' y' capped ⊢
  omega

/-- **Seven levels fit into 32 bits.**  Every slide of a compiled deck is laid out, in whatever
viewport it was resolved for and with whatever measurer, in a tree of at most 256 levels of boxes.
No place in it is negative, and a box `d` levels below the root is at most `d + 1` limits on pixels
from the origin.  So what is rendered, where sums wrap around in 32 bits, has the boxes of the first
seven levels exactly where they are. -/
theorem CompiledSlide.render_placed {source : Bytes} {o : CompileOptions} {deck : Deck}
    {c : CompiledSlide} (compiled : Deck.compile source o = .ok deck) (among : c ∈ deck.slides)
    (index : Nat) (g : Engine) :
    ∃ root picture, (g.layOutSlide c.slide c.style).1 = .ok root ∧
      c.render index g.measurer = .ok picture ∧ picture.root = root.stored ∧
      (∀ b, b ∈ root.flatten ↔ ∃ d < 256, b ∈ root.level d) ∧
      (∀ d, ∀ b ∈ root.level d,
        0 ≤ b.frame.x ∧ b.frame.x ≤ (d + 1) * pixelCap ∧
        0 ≤ b.frame.y ∧ b.frame.y ≤ (d + 1) * pixelCap) ∧
      ∀ d < 7, (picture.root.level d).map Box.frame = (root.level d).map Box.frame := by
  obtain ⟨doc, read, -, rfl⟩ := Deck.compile_eq_ok.1 compiled
  obtain ⟨s, there, rfl⟩ := List.mem_map.1 among
  obtain ⟨ts, isSlide⟩ := Document.slide_of_ofSource read s there
  have whole := isSlide.whole
  have covers := ResolvedSlide.missing?_eq_none.1 (isSlide.missing?_resolved o.viewport)
  have range : (s.resolved o.viewport).inner.InRange := paddedMost_inRange _ ⟨_, _⟩
  obtain ⟨arranged, laidOut, -, -, unique⟩ :=
    Element.layOut_laidOut (c := ⟨s.resolved o.viewport, g.measurer⟩) whole covers
      (clampPixels (s.resolved o.viewport).margin) (clampPixels (s.resolved o.viewport).margin)
      range
  have laid := (unique arranged.box).2 rfl
  have layOut : s.layOut ⟨s.resolved o.viewport, g.measurer⟩ = .ok arranged := laidOut
  have placed : ∀ d, ∀ b ∈ arranged.box.level d,
      0 ≤ b.frame.x ∧ b.frame.x ≤ (d + 1) * pixelCap ∧
        0 ≤ b.frame.y ∧ b.frame.y ≤ (d + 1) * pixelCap :=
    fun d b among => laid.placed whole range among
  refine ⟨arranged.box, _, ?_, by rw [render, Slide.compiled, layOut]; rfl, rfl, ?_, placed, ?_⟩
  · rw [Engine.layOutSlide_eq, Slide.compiled, layOut, Except.map]
  · intro b
    constructor
    · intro among
      obtain ⟨d, among⟩ := Box.exists_level among
      exact ⟨d, Nat.lt_of_lt_of_le (laid.level_lt among) isSlide.shallow, among⟩
    · rintro ⟨d, -, among⟩
      exact Box.mem_flatten_of_level among
  · intro d shallow
    rw [Box.level_stored, List.map_map]
    apply List.map_congr_left
    intro b among
    obtain ⟨x, x', y, y'⟩ := placed d b among
    simp only [pixelCap] at x' y'
    have fits : b.frame.Fits := by constructor <;> omega
    rw [Function.comp_apply, Box.frame_stored, fits.stored]

/-- A text in seven paddings, all of them and the margin as large as they may be. -/
def deepPaddings : Bytes :=
  .ascii "[slide \x7bmargin: 268435456\x7d padding \x7bamount: 268435456\x7d
    padding(padding(padding(padding(padding(padding(padding(text(\"\"))))))))]"

/-- The margin and seven paddings above it take the text eight times as far as each may be. -/
theorem deepPaddings_layOut :
    ∃ deck c root b, Deck.compile deepPaddings {} = .ok deck ∧ c ∈ deck.slides ∧
      (Engine.layOutSlide {} c.slide c.style).1 = .ok root ∧ root.level 7 = [b] ∧
      b.frame.x = 2147483648 := by
  have facts : ∃ deck ∈ (Deck.compile deepPaddings {}).toOption, ∃ c ∈ deck.slides,
      ∃ root ∈ (Engine.layOutSlide {} c.slide c.style).1.toOption,
      (root.level 7).map (fun b => b.frame.x) = [2147483648] := by
    decide +kernel
  obtain ⟨deck, compiled, c, among, root, laidOut, places⟩ := facts
  obtain ⟨b, level, place⟩ := List.map_eq_singleton_iff.1 places
  exact ⟨deck, c, root, b, eq_ok_of_mem compiled, among, eq_ok_of_mem laidOut, level, place⟩

/-- The text is just beyond what 32 bits can hold, and none of its paddings is. -/
theorem deepPaddings_placed :
    ∃ deck c root picture, Deck.compile deepPaddings {} = .ok deck ∧ c ∈ deck.slides ∧
      (Engine.layOutSlide {} c.slide c.style).1 = .ok root ∧ c.render 0 none = .ok picture ∧
      (∀ d < 7, (picture.root.level d).map Box.frame = (root.level d).map Box.frame) ∧
      (root.level 7).map (fun b => b.frame.x) = [2147483648] ∧
      (picture.root.level 7).map (fun b => b.frame.x) = [-2147483648] := by
  obtain ⟨deck, c, root, b, compiled, among, laidOut, level, place⟩ := deepPaddings_layOut
  obtain ⟨root', picture, laidOut', rendered, stored, -, -, kept⟩ :=
    CompiledSlide.render_placed compiled among 0 {}
  cases laidOut.symm.trans laidOut'
  have wraps : b.stored.frame.x = -2147483648 := by
    rw [Box.frame_stored, Frame.stored, place]
    rfl
  refine ⟨deck, c, root, picture, compiled, among, laidOut, rendered, kept, ?_, ?_⟩
  · rw [level, List.map_singleton, place]
  · rw [stored, Box.level_stored, level, List.map_singleton, List.map_singleton, wraps]

/-- Compiled for 1920 by 1080 pixels and laid out by an engine without a measurer, the text is one
pixel too far to the right for 32 bits. -/
theorem deepPaddings_overflow :
    ∃ deck c root b, Deck.compile deepPaddings { viewport := ⟨1920, 1080⟩ } = .ok deck ∧
      c ∈ deck.slides ∧ (Engine.layOutSlide {} c.slide c.style).1 = .ok root ∧
      b ∈ root.flatten ∧ b.frame.x = 2147483648 ∧ ¬ b.frame.Fits := by
  obtain ⟨deck, c, root, b, compiled, among, laidOut, level, place⟩ := deepPaddings_layOut
  have there : b ∈ root.flatten :=
    Box.mem_flatten_of_level (d := 7) (level ▸ List.mem_singleton_self b)
  refine ⟨deck, c, root, b, compiled, among, laidOut, there, place, fun fits => ?_⟩
  have below := fits.x_lt
  omega

end SlideDeck
