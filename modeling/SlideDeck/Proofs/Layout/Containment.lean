import SlideDeck.Proofs.Deck.Compile
import SlideDeck.Proofs.Layout.Absolute
import SlideDeck.Proofs.Layout.Margin

/-! # Boxes inside boxes

A slide whose margin, paddings and gaps leave room draws nothing outside itself
(`layOut_orderly`).

* `constrained` lists the elements of a tree with the constraints that they
  receive, and `LeavesRoom` is what is asked of each of them.
* `Orderly` is what holds of every box: its children are inside it, and those of
  a row or a column follow each other a gap apart.
* `Shared.orderly` goes from the one to the other for a row or a column, and
  `LaidOut.orderly` for a whole tree.

The extent of a stack is never cut off.  What its children take is at most their
shares, and with the gaps these are at most the constraint, so neither the extent
of the stack nor the offset of a child meets a limit. -/

namespace SlideDeck

open Syntax

/-! ## What elements receive -/

mutual

/-- The elements of a tree in pre-order, each with the constraint that it receives. -/
def constrained (c : LayoutContext) : Element → Size → List (Element × Size)
  | .hole, _ => []
  | .text a value, most => [(.text a value, most)]
  | .centre a child, most => (.centre a child, most) :: constrained c child most
  | .padding a child, most =>
      (.padding a child, most) :: constrained c child (paddedMost (c.pixels a .amount) most)
  | .stack a axis children, most =>
      (.stack a axis children, most)
        :: constrainedAll c children (stackedMost axis (c.pixels a .gap) most children.length)

/-- The elements of some trees, each tree in its own constraint. -/
def constrainedAll (c : LayoutContext) : List Element → List Size → List (Element × Size)
  | [], _ => []
  | _, [] => []
  | e :: rest, most :: others => constrained c e most ++ constrainedAll c rest others

end

theorem mem_constrainedAll {c : LayoutContext} {es : List Element} {mosts : List Size} {i : Nat}
    {e : Element} {most : Size} (there : es[i]? = some e) (given : mosts[i]? = some most)
    {p : Element × Size} (h : p ∈ constrained c e most) : p ∈ constrainedAll c es mosts := by
  induction es generalizing mosts i with
  | nil => cases there
  | cons e' rest ih =>
    cases mosts with
    | nil => cases given
    | cons most' others =>
      rw [constrainedAll]
      cases i with
      | zero =>
        cases there
        cases given
        exact List.mem_append_left _ h
      | succ i => exact List.mem_append_right _ (ih there given)

/-- An element takes no more of its constraint for itself than there is. -/
def LeavesRoom (c : LayoutContext) : Element → Size → Prop
  | .padding a _, most =>
      2 * c.pixels a .amount ≤ most.width ∧ 2 * c.pixels a .amount ≤ most.height
  | .stack a axis children, most =>
      c.pixels a .gap * (children.length - 1) ≤ axis.main most
  | _, _ => True

instance (c : LayoutContext) : ∀ (e : Element) (most : Size), Decidable (LeavesRoom c e most)
  | .hole, _ => inferInstanceAs (Decidable True)
  | .text .., _ => inferInstanceAs (Decidable True)
  | .centre .., _ => inferInstanceAs (Decidable True)
  | .padding .., _ => inferInstanceAs (Decidable (_ ∧ _))
  | .stack .., _ => inferInstanceAs (Decidable (_ ≤ _))

/-! ## Order -/

def Axis.place : Axis → Frame → Int
  | horizontal, f => f.x
  | vertical, f => f.y

/-- No part of a frame is outside another one. -/
structure Frame.Inside (f g : Frame) : Prop where
  left : g.x ≤ f.x
  top : g.y ≤ f.y
  right : f.x + f.width ≤ g.x + g.width
  bottom : f.y + f.height ≤ g.y + g.height

/-- The first box begins at a place, and every other one a gap after the end of the one before
it. -/
def Consecutive (axis : Axis) (gap : Int) : Int → List Box → Prop
  | _, [] => True
  | place, b :: rest =>
      axis.place b.frame = place ∧ Consecutive axis gap (place + axis.main b.size + gap) rest

/-- A box has an extent, its children are inside it, and if it is a row or a column they follow
each other from its beginning on, a gap apart and without overlap. -/
structure Orderly (c : LayoutContext) (b : Box) : Prop where
  width : 0 ≤ b.frame.width
  height : 0 ≤ b.frame.height
  inside : ∀ child ∈ b.children, child.frame.Inside b.frame
  consecutive : ∀ axis : Axis, b.frame.kind = axis.kind →
    Consecutive axis (c.pixels { id := b.frame.node } .gap) (axis.place b.frame) b.children
  apart : ∀ axis : Axis, b.frame.kind = axis.kind → b.children.Pairwise fun child next =>
    axis.place child.frame + axis.main child.size ≤ axis.place next.frame

theorem inside_of_offset (axis : Axis) {b child : Box} {distance : Int}
    (x : child.frame.x = b.frame.x + (axis.size distance 0).width)
    (y : child.frame.y = b.frame.y + (axis.size distance 0).height) (nonneg : 0 ≤ distance)
    (main : distance + axis.main child.size ≤ axis.main b.size)
    (cross : axis.cross child.size ≤ axis.cross b.size) : child.frame.Inside b.frame := by
  cases axis with
  | horizontal =>
    simp only [Axis.size, Axis.main, Axis.cross, Box.size] at x y main cross
    constructor <;> omega
  | vertical =>
    simp only [Axis.size, Axis.main, Axis.cross, Box.size] at x y main cross
    constructor <;> omega

theorem consecutive_of_place {axis : Axis} {gap start : Int} {boxes : List Box}
    (places : ∀ (i : Nat) (b : Box), boxes[i]? = some b →
      axis.place b.frame = start + spaced gap ((axis.mains boxes).take i)) :
    Consecutive axis gap start boxes := by
  induction boxes generalizing start with
  | nil => trivial
  | cons b rest ih =>
    refine ⟨by simpa using places 0 b rfl, ih fun i b' there => ?_⟩
    have place := places (i + 1) b' there
    rw [Axis.mains_cons, List.take_succ_cons, spaced_cons] at place
    omega

theorem Consecutive.le_place {axis : Axis} {gap start : Int} {boxes : List Box}
    (h : Consecutive axis gap start boxes) (positive : 0 ≤ gap)
    (nonneg : ∀ n ∈ axis.mains boxes, 0 ≤ n) : ∀ b ∈ boxes, start ≤ axis.place b.frame := by
  induction boxes generalizing start with
  | nil => nofun
  | cons b rest ih =>
    obtain ⟨place, others⟩ := h
    have extent : 0 ≤ axis.main b.size := nonneg _ (List.mem_cons_self ..)
    intro b' among
    cases among with
    | head => exact Int.le_of_eq place.symm
    | tail _ there =>
      have later := ih others (fun n h => nonneg n (List.mem_cons_of_mem _ h)) b' there
      omega

theorem Consecutive.apart {axis : Axis} {gap start : Int} {boxes : List Box}
    (h : Consecutive axis gap start boxes) (positive : 0 ≤ gap)
    (nonneg : ∀ n ∈ axis.mains boxes, 0 ≤ n) :
    boxes.Pairwise fun b next => axis.place b.frame + axis.main b.size ≤ axis.place next.frame := by
  induction boxes generalizing start with
  | nil => exact .nil
  | cons b rest ih =>
    obtain ⟨place, others⟩ := h
    have nonnegRest := fun n (h : n ∈ axis.mains rest) => nonneg n (List.mem_cons_of_mem _ h)
    refine List.pairwise_cons.2 ⟨fun next there => ?_, ih others nonnegRest⟩
    have later := others.le_place positive nonnegRest next there
    omega

/-! ## Stacks -/

theorem Axis.kind_injective {axis axis' : Axis} (h : axis.kind = axis'.kind) : axis = axis' := by
  cases axis <;> cases axis' <;> first | rfl | cases h

theorem place_of_offset {axis : Axis} {distance : Int} {f g : Frame}
    (left : f.x = g.x + (axis.size distance 0).width)
    (top : f.y = g.y + (axis.size distance 0).height) : axis.place f = axis.place g + distance := by
  cases axis with
  | horizontal => exact left
  | vertical => exact top

/-- The boxes keep to their shares of a constraint that has room for the gaps between them. -/
structure Shared (axis : Axis) (gap : Int) (most : Size) (boxes : List Box) : Prop where
  positive : 0 ≤ gap
  range : most.InRange
  notEmpty : 0 < boxes.length
  room : gap * (boxes.length - 1) ≤ axis.main most
  within : ∀ (i : Nat) (b : Box), boxes[i]? = some b →
    b.Within (shareMost axis gap most boxes.length i)

namespace Shared

variable {axis : Axis} {gap : Int} {most : Size} {boxes : List Box}

theorem nonneg (h : Shared axis gap most boxes) : ∀ n ∈ axis.mains boxes, 0 ≤ n := by
  intro n among
  obtain ⟨b, box, rfl⟩ := List.mem_map.1 among
  obtain ⟨i, there⟩ := List.mem_iff_getElem?.1 box
  exact ((h.within i b there).main axis).1

theorem gaps_nonneg (h : Shared axis gap most boxes) : 0 ≤ gap * (boxes.length - 1 : Int) := by
  have notEmpty := h.notEmpty
  exact Int.mul_nonneg h.positive (by omega)

/-- The boxes and gaps go no further than what the shares were made of. -/
theorem sum_le (h : Shared axis gap most boxes) :
    (axis.mains boxes).sum + gap * (boxes.length - 1) ≤ axis.main most := by
  have shares : (axis.mains boxes).sum ≤ (slots (axis.main most) gap boxes.length).sum := by
    refine List.Forall₂.sum_le_sum (List.forall₂_iff_get.2 ⟨by simp, fun i before _ => ?_⟩)
    have inside : i < boxes.length := by simpa using before
    have box := List.getElem?_eq_getElem inside
    have given := getElem?_slots (h.range.main axis).2 h.positive inside
    have main := ((h.within i _ box).main axis).2
    rw [shareMost, Axis.main_size] at main
    simpa [Axis.mains, (List.getElem?_eq_some_iff.1 given).2] using main
  have room := h.room
  rw [sum_slots h.notEmpty, clampPixels_of_nonneg (by omega)] at shares
  omega

theorem spaced_le (h : Shared axis gap most boxes) {i : Nat} {b : Box}
    (there : boxes[i]? = some b) :
    0 ≤ spaced gap ((axis.mains boxes).take i) ∧
      spaced gap ((axis.mains boxes).take i) + axis.main b.size
        ≤ (axis.mains boxes).sum + gap * (boxes.length - 1) := by
  have before := spaced_nonneg h.positive fun n (among : n ∈ (axis.mains boxes).take i) =>
    h.nonneg n (List.mem_of_mem_take among)
  have extent : (axis.mains boxes)[i]? = some (axis.main b.size) := by
    rw [Axis.mains, List.getElem?_map, there]
    rfl
  have after := spaced_take_add_le h.positive h.nonneg extent
  rw [Axis.length_mains] at after
  exact ⟨before, after⟩

/-- No offset meets the limit, since the box behind it still fits in. -/
theorem offset_eq (h : Shared axis gap most boxes) {i : Nat} {b : Box}
    (there : boxes[i]? = some b) :
    offset axis gap ((axis.mains boxes).take i)
      = axis.size (spaced gap ((axis.mains boxes).take i)) 0 :=
  offset_of_le axis h.positive h.nonneg (Int.le_trans h.sum_le (h.range.main axis).2) there

/-- Boxes that keep to their shares and stand at their offsets make an orderly stack. -/
theorem orderly {c : LayoutContext} {a : Attributes} (h : Shared axis (c.pixels a .gap) most boxes)
    {x y : Int}
    (places : ∀ (i : Nat) (b : Box), boxes[i]? = some b →
      b.frame.x = x + (offset axis (c.pixels a .gap) ((axis.mains boxes).take i)).width ∧
      b.frame.y = y + (offset axis (c.pixels a .gap) ((axis.mains boxes).take i)).height) :
    Orderly c (.mk (a.frameAt axis.kind x y
      (axis.size ((axis.mains boxes).sum + c.pixels a .gap * (boxes.length - 1))
        (largest (axis.crosses boxes)))) boxes) := by
  have along := Int.add_nonneg (List.sum_nonneg h.nonneg) h.gaps_nonneg
  have across := le_foldl_max (axis.crosses boxes) 0
  have moved : ∀ (i : Nat) (b : Box), boxes[i]? = some b →
      b.frame.x
        = x + (axis.size (spaced (c.pixels a .gap) ((axis.mains boxes).take i)) 0).width ∧
      b.frame.y
        = y + (axis.size (spaced (c.pixels a .gap) ((axis.mains boxes).take i)) 0).height := by
    intro i b there
    rw [← h.offset_eq there]
    exact places i b there
  have consecutive : Consecutive axis (c.pixels a .gap) (axis.place (a.frameAt axis.kind x y
      (axis.size ((axis.mains boxes).sum + c.pixels a .gap * (boxes.length - 1))
        (largest (axis.crosses boxes))))) boxes :=
    consecutive_of_place fun i b there => place_of_offset (moved i b there).1 (moved i b there).2
  refine ⟨?_, ?_, fun child among => ?_, fun axis' isKind => ?_, fun axis' isKind => ?_⟩
  · cases axis with
    | horizontal => exact along
    | vertical => exact across
  · cases axis with
    | horizontal => exact across
    | vertical => exact along
  · obtain ⟨i, there⟩ := List.mem_iff_getElem?.1 among
    obtain ⟨before, after⟩ := h.spaced_le there
    have widest : axis.cross child.size ≤ largest (axis.crosses boxes) :=
      le_foldl_max_of_mem (List.mem_map_of_mem among)
    refine inside_of_offset axis (moved i child there).1 (moved i child there).2 before ?_ ?_
    · show _ ≤ axis.main (axis.size _ _)
      rwa [Axis.main_size]
    · show _ ≤ axis.cross (axis.size _ _)
      rwa [Axis.cross_size]
  · cases Axis.kind_injective isKind
    exact consecutive
  · cases Axis.kind_injective isKind
    exact consecutive.apart h.positive h.nonneg

end Shared

/-! ## Trees -/

theorem LaidOut.within {c : LayoutContext} {e : Element} {x y : Int} {most : Size} {b : Box}
    (h : LaidOut c e x y most b) (whole : Whole e) (range : most.InRange) : b.Within most := by
  have within := arrange_within c e range.width_nonneg range.height_nonneg
  rw [(laidOut_iff whole range).1 h]
  constructor
  · rw [width_absolute]
    exact within.width_nonneg
  · rw [width_absolute]
    exact within.width_le
  · rw [height_absolute]
    exact within.height_nonneg
  · rw [height_absolute]
    exact within.height_le

theorem mem_flattenAll {b : Box} {boxes : List Box} :
    b ∈ Box.flattenAll boxes ↔ ∃ child ∈ boxes, b ∈ child.flatten := by
  rw [Box.flattenAll_eq_flatMap, List.mem_flatMap]

theorem forall_mem_flatten {p : Box → Prop} {f : Frame} {children : List Box} :
    (∀ b ∈ (Box.mk f children).flatten, p b) ↔
      p (.mk f children) ∧ ∀ child ∈ children, ∀ b ∈ child.flatten, p b := by
  rw [Box.flatten, List.forall_mem_cons]
  refine and_congr_right fun _ => ⟨fun all child among b there => ?_, fun all b there => ?_⟩
  · exact all b (mem_flattenAll.2 ⟨child, among, there⟩)
  · obtain ⟨child, among, inside⟩ := mem_flattenAll.1 there
    exact all child among b inside

/-- A box that is no stack is orderly if what is in it is inside. -/
theorem orderly_of_inside {c : LayoutContext} {f : Frame} {children : List Box}
    (noStack : ∀ axis : Axis, f.kind ≠ axis.kind) (width : 0 ≤ f.width) (height : 0 ≤ f.height)
    (inside : ∀ child ∈ children, child.frame.Inside f) : Orderly c (.mk f children) :=
  ⟨width, height, inside, fun axis isKind => absurd isKind (noStack axis),
    fun axis isKind => absurd isKind (noStack axis)⟩

/-- What is centred in all of a constraint is inside it. -/
theorem inside_centred (a : Attributes) {x y : Int} {most : Size} {b : Box}
    (within : b.Within most) (left : b.frame.x = x + (most.width - b.frame.width) / 2)
    (top : b.frame.y = y + (most.height - b.frame.height) / 2) :
    b.frame.Inside (a.frameAt .centre x y most) := by
  have width := within.width_le
  have height := within.height_le
  constructor <;> simp only [Attributes.frameAt, Attributes.frame] <;> omega

/-- What is padded where there is room for the padding is inside it. -/
theorem inside_padded (a : Attributes) {x y amount : Int} {most : Size} {b : Box}
    (positive : 0 ≤ amount) (range : most.InRange) (within : b.Within (paddedMost amount most))
    (room : 2 * amount ≤ most.width ∧ 2 * amount ≤ most.height)
    (left : b.frame.x = x + amount) (top : b.frame.y = y + amount) :
    b.frame.Inside (a.frameAt .padding x y
      ⟨min most.width (b.frame.width + 2 * amount),
        min most.height (b.frame.height + 2 * amount)⟩) := by
  -- Nothing is cut off: the child is at most as large as what the padding leaves.
  have size := And.intro within.width_le within.height_le
  simp only [paddedMost_eq positive range] at size
  constructor <;> simp only [Attributes.frameAt, Attributes.frame] <;> omega

/-- The boxes of the children of a stack keep to their shares. -/
theorem shared_of_laidOut {c : LayoutContext} {axis : Axis} {gap x y : Int} {most : Size}
    {children : List Element} {boxes : List Box} (positive : 0 ≤ gap) (range : most.InRange)
    (notEmpty : children ≠ []) (wholes : ∀ e ∈ children, Whole e)
    (room : gap * (children.length - 1) ≤ axis.main most)
    (length : boxes.length = children.length)
    (each : ∀ i e b, children[i]? = some e → boxes[i]? = some b →
      LaidOut c e (x + (offset axis gap ((axis.mains boxes).take i)).width)
        (y + (offset axis gap ((axis.mains boxes).take i)).height)
        (shareMost axis gap most children.length i) b) :
    Shared axis gap most boxes := by
  constructor
  case positive => exact positive
  case range => exact range
  case notEmpty => exact length ▸ List.length_pos_iff.2 notEmpty
  case room =>
    rw [length]
    exact room
  case within =>
    intro i b there
    have before := length ▸ (List.getElem?_eq_some_iff.1 there).1
    have child := List.getElem?_eq_getElem before
    rw [length]
    exact (each i _ b child there).within (wholes _ (List.mem_of_getElem? child))
      (shareMost_inRange axis positive range before)

/-- The box of an element that leaves room is orderly. -/
theorem LaidOut.orderly_root {c : LayoutContext} {e : Element} (whole : Whole e) {x y : Int}
    {most : Size} {b : Box} (h : LaidOut c e x y most b) (range : most.InRange)
    (room : LeavesRoom c e most) : Orderly c b := by
  have within := h.within whole range
  cases whole with
  | text =>
    cases h with
    | text isExtent =>
      exact orderly_of_inside (by rintro ⟨⟩ ⟨⟩) within.width_nonneg within.height_nonneg nofun
  | @centre a child whole =>
    cases h with
    | @centre _ _ _ _ _ b inner =>
      obtain ⟨left, top⟩ := inner.place
      have inside := inside_centred a (inner.within whole range) left top
      refine orderly_of_inside (by rintro ⟨⟩ ⟨⟩) range.width_nonneg range.height_nonneg ?_
      simpa using inside
  | @padding a child whole =>
    cases h with
    | @padding _ _ _ _ amount _ b isAmount inner =>
      subst isAmount
      have positive := pixels_nonneg c a .amount
      rw [← paddedMost_eq positive range] at inner
      have below := inner.within whole (paddedMost_inRange (c.pixels a .amount) most)
      obtain ⟨left, top⟩ := inner.place
      have inside := inside_padded a positive range below room left top
      refine orderly_of_inside (by rintro ⟨⟩ ⟨⟩) within.width_nonneg within.height_nonneg ?_
      simpa using inside
  | @stack a axis children notEmpty wholes =>
    have positive := pixels_nonneg c a .gap
    obtain ⟨boxes, length, each, rfl⟩ := laidOut_stack.1 h
    have shared := shared_of_laidOut positive range notEmpty wholes room length each
    rw [← length, Int.min_eq_right shared.sum_le]
    refine shared.orderly fun i b there => ?_
    have before := length ▸ (List.getElem?_eq_some_iff.1 there).1
    exact (each i _ b (List.getElem?_eq_getElem before) there).place

/-- Every box of a tree is that of an element in the constraint that the element receives. -/
theorem LaidOut.received {c : LayoutContext} {e : Element} (whole : Whole e) {x y : Int}
    {most : Size} {root : Box} (h : LaidOut c e x y most root) (range : most.InRange) :
    ∀ b ∈ root.flatten, ∃ p ∈ constrained c e most,
      Whole p.1 ∧ p.2.InRange ∧ ∃ x y, LaidOut c p.1 x y p.2 b := by
  induction whole generalizing x y most root with
  | text =>
    have here := h
    cases h with
    | text isExtent =>
      refine forall_mem_flatten.2 ⟨⟨_, List.mem_cons_self .., .text, range, x, y, here⟩, ?_⟩
      exact List.forall_mem_nil _
  | @centre a child whole ih =>
    have here := h
    cases h with
    | centre inner =>
      refine forall_mem_flatten.2 ⟨⟨_, List.mem_cons_self .., .centre whole, range, x, y, here⟩, ?_⟩
      rw [List.forall_mem_singleton]
      intro b among
      obtain ⟨p, given, laid⟩ := ih inner range b among
      exact ⟨p, List.mem_cons_of_mem _ given, laid⟩
  | @padding a child whole ih =>
    have here := h
    cases h with
    | padding isAmount inner =>
      refine forall_mem_flatten.2
        ⟨⟨_, List.mem_cons_self .., .padding whole, range, x, y, here⟩, ?_⟩
      subst isAmount
      rw [← paddedMost_eq (pixels_nonneg c a .amount) range] at inner
      rw [List.forall_mem_singleton]
      intro b among
      obtain ⟨p, given, laid⟩ := ih inner (paddedMost_inRange _ most) b among
      exact ⟨p, List.mem_cons_of_mem _ given, laid⟩
  | @stack a axis children notEmpty wholes ih =>
    have here := h
    obtain ⟨boxes, length, each, rfl⟩ := laidOut_stack.1 h
    refine forall_mem_flatten.2
      ⟨⟨_, List.mem_cons_self .., .stack notEmpty wholes, range, x, y, here⟩, ?_⟩
    intro child isBox b among
    obtain ⟨i, there⟩ := List.mem_iff_getElem?.1 isBox
    have before := length ▸ (List.getElem?_eq_some_iff.1 there).1
    have isChild := List.getElem?_eq_getElem before
    have positive := pixels_nonneg c a .gap
    obtain ⟨p, given, laid⟩ := ih _ (List.mem_of_getElem? isChild) (each i _ child isChild there)
      (shareMost_inRange axis positive range before) b among
    exact ⟨p, List.mem_cons_of_mem _
      (mem_constrainedAll isChild (getElem?_stackedMost positive range before) given), laid⟩

/-- Every box is orderly where all of a tree leaves room. -/
theorem LaidOut.orderly {c : LayoutContext} {e : Element} (whole : Whole e) {x y : Int}
    {most : Size} {root : Box} (h : LaidOut c e x y most root) (range : most.InRange)
    (room : ∀ p ∈ constrained c e most, LeavesRoom c p.1 p.2) :
    ∀ b ∈ root.flatten, Orderly c b := by
  intro b among
  obtain ⟨p, given, whole, range, x, y, laid⟩ := h.received whole range b among
  exact laid.orderly_root whole range (room p given)

/-! ## Slides -/

/-- **Nothing is drawn outside.**  A slide that was read, with room for its margin, its paddings
and its gaps, has a box inside the margin in which every box is orderly. -/
theorem Slide.layOut_orderly {source : Bytes} {d : Document} {s : Slide} {strict : Bool}
    {v : Viewport} {r : ResolvedSlide} (read : Document.ofSource source = .ok d)
    (among : s ∈ d.slides) (resolved : s.resolve strict v = .ok r) (m : Option Measurer)
    (width : 2 * r.margin ≤ r.width) (height : 2 * r.margin ≤ r.height)
    (room : ∀ p ∈ constrained ⟨r, m⟩ s.content r.inner, LeavesRoom ⟨r, m⟩ p.1 p.2) :
    ∃ arranged, s.layOut ⟨r, m⟩ = .ok arranged ∧
      r.margin ≤ arranged.box.frame.x ∧
      arranged.box.frame.x + arranged.box.frame.width ≤ r.width - r.margin ∧
      r.margin ≤ arranged.box.frame.y ∧
      arranged.box.frame.y + arranged.box.frame.height ≤ r.height - r.margin ∧
      ∀ b ∈ arranged.box.flatten, Orderly ⟨r, m⟩ b := by
  obtain ⟨-, rfl⟩ := Slide.resolve_eq_ok.1 resolved
  obtain ⟨ts, isSlide⟩ := Document.slide_of_ofSource read s among
  obtain ⟨nonneg, capped⟩ := isSlide.margin v
  have whole := isSlide.whole
  have margin : clampPixels (s.resolved v).margin = (s.resolved v).margin := by
    rw [clampPixels]
    omega
  have range : (s.resolved v).inner.InRange := paddedMost_inRange _ ⟨_, _⟩
  have covers := ResolvedSlide.missing?_eq_none.1 (isSlide.missing?_resolved v)
  have inner : (s.resolved v).inner.width ≤ (s.resolved v).width - 2 * (s.resolved v).margin ∧
      (s.resolved v).inner.height ≤ (s.resolved v).height - 2 * (s.resolved v).margin := by
    simp only [ResolvedSlide.inner, clampPixels]
    omega
  obtain ⟨arranged, laidOut, x, y, unique⟩ := Element.layOut_laidOut (c := ⟨s.resolved v, m⟩) whole
    covers (s.resolved v).margin (s.resolved v).margin range
  have laid := (unique arranged.box).2 rfl
  have within := laid.within whole range
  have size := And.intro within.width_le within.height_le
  refine ⟨arranged, ?_, by omega, by omega, by omega, by omega, laid.orderly whole range room⟩
  rw [Slide.layOut]
  simp only [margin]
  exact laidOut

/-- A text beside a padded one in a margin. -/
def roomySource : Bytes :=
  .ascii "[ slide \x7bmargin: 30\x7d
    row(text(\"a\"), padding(text(\"b\")) \x7bamount: 7\x7d) \x7bgap: 5\x7d ]"

theorem roomySource_orderly :
    ∃ d s r, Document.ofSource roomySource = .ok d ∧ s ∈ d.slides ∧
      s.resolve true ⟨200, 100⟩ = .ok r ∧ r.margin = 30 ∧ 2 * r.margin ≤ r.width ∧
      2 * r.margin ≤ r.height ∧
      (∀ p ∈ constrained ⟨r, none⟩ s.content r.inner, LeavesRoom ⟨r, none⟩ p.1 p.2) ∧
      ∃ arranged, s.layOut ⟨r, none⟩ = .ok arranged ∧
        r.margin ≤ arranged.box.frame.x ∧
        arranged.box.frame.x + arranged.box.frame.width ≤ r.width - r.margin ∧
        r.margin ≤ arranged.box.frame.y ∧
        arranged.box.frame.y + arranged.box.frame.height ≤ r.height - r.margin ∧
        ∀ b ∈ arranged.box.flatten, Orderly ⟨r, none⟩ b := by
  have fits : ∃ s ∈ ((Document.ofSource roomySource).toOption.getD ⟨[]⟩).slides,
      ∃ r ∈ (s.resolve true ⟨200, 100⟩).toOption, r.margin = 30 ∧ 2 * r.margin ≤ r.width ∧
        2 * r.margin ≤ r.height ∧
        ∀ p ∈ constrained ⟨r, none⟩ s.content r.inner, LeavesRoom ⟨r, none⟩ p.1 p.2 := by
    decide +kernel
  obtain ⟨s, among, r, resolved, margin, width, height, room⟩ := fits
  cases read : Document.ofSource roomySource with
  | error e =>
    rw [read] at among
    cases among
  | ok d =>
    rw [read] at among
    cases result : s.resolve true ⟨200, 100⟩ with
    | error e =>
      rw [result] at resolved
      cases resolved
    | ok r' =>
      rw [result] at resolved
      cases resolved
      exact ⟨d, s, r, rfl, among, result, margin, width, height, room,
        Slide.layOut_orderly read among result none width height room⟩

end SlideDeck
