import SlideDeck.Proofs.Binary64.Shortest
import SlideDeck.Proofs.Equality.Resolved
import SlideDeck.Proofs.Layout.Alike
import SlideDeck.Proofs.Layout.Bounds

/-! # Laying out slides that are equal

Equality without regard to positions is a congruence: what is made of a slide is
made alike of every slide that equals it, from its canonical text to its boxes
(`Slide.same_congruence`).

* `LayoutContext.Same` is what two layouts have to share: equal properties under
  each number, and one measurer that does not tell the two zeros apart.
* `Naught` numbers need no pixels, so the approximate extent is no exception.
* `arrange_same`: equal trees are arranged in equal boxes, with the same notes.

The boxes themselves are only equal.  A text keeps its font size in its box,
where the sign of a zero stays, and everything else that is computed from a
number is a number of pixels, where it is gone. -/

namespace SlideDeck

open Syntax

/-! ## Zeros in pixels -/

namespace Binary64

theorem zeroBlind_floorPixels : ZeroBlind floorPixels :=
  congrArg clampPixels zeroBlind_wholePixels

theorem ofUnits_zero (negative : Bool) {denominator : Nat} (positive : 0 < denominator) :
    ofUnits negative 0 denominator = signedZero negative := by
  have nothing : nearestRank 0 denominator = 0 := by
    simpa [unitsOfRank] using nearestRank_units (k := 0) positive
  simp only [ofUnits, nothing]
  rfl

theorem mul_finite (s t : Bool) (j k : Fin rankLimit) :
    (finite s j * finite t k : Binary64)
      = ofUnits (s != t) (unitsOfRank j * unitsOfRank k) unitsPerOne := by
  show mul _ _ = _
  rw [mul]

theorem mul_comm (v w : Binary64) : v * w = w * v := by
  show mul v w = mul w v
  cases v <;> cases w
  case finite.finite s j t k => simp only [mul, Nat.mul_comm, bne_comm]
  all_goals simp [mul, bne_comm]

/-- A zero, or what an infinite number times zero is. -/
inductive Naught : Binary64 → Prop
  | zero (negative : Bool) : Naught (signedZero negative)
  | nan : Naught .nan

/-- Products with what is naught are naught again. -/
theorem Naught.mul_left {w : Binary64} (h : Naught w) (v : Binary64) : Naught (v * w) := by
  cases h with
  | nan => cases v <;> exact .nan
  | zero t =>
    cases v with
    | nan => exact .nan
    | infinite s => exact .nan
    | finite s j =>
      have product : (finite s j * signedZero t : Binary64) = signedZero (s != t) := by
        rw [signedZero, mul_finite, unitsOfRank_zero, Nat.mul_zero, ofUnits_zero _ unitsPerOne_pos]
      rw [product]
      exact .zero _

theorem Naught.mul_right {v : Binary64} (h : Naught v) (w : Binary64) : Naught (v * w) :=
  mul_comm w v ▸ h.mul_left w

theorem Naught.ceilPixels {v : Binary64} (h : Naught v) : v.ceilPixels = 0 := by
  cases h with
  | nan => rfl
  | zero negative =>
    have pixels : (signedZero negative).ceilPixels
        = clampPixels ((signedZero negative).ceil?.getD 0) := rfl
    rw [pixels, ceil?, units?_signedZero, Option.map_some, Int.neg_zero, Int.zero_ediv]
    rfl

end Binary64

open Binary64

theorem zeroBlind_approximateExtent (text : Bytes) : ZeroBlind (approximateExtent text) := by
  have nothing (negative : Bool) (n : Nat) (ratio : Binary64) :
      (.ofNat n * signedZero negative * ratio : Binary64).ceilPixels = 0 :=
    (((Naught.zero negative).mul_left _).mul_right _).ceilPixels
  simp only [ZeroBlind, approximateExtent, nothing]

/-- A measurer, if there is one, that does not tell the two zeros apart. -/
def MeasurerBlind (m : Option Measurer) : Prop :=
  ∀ installed ∈ m, ∀ text, ZeroBlind (installed text)

theorem measured_of_same {m : Option Measurer} (blind : MeasurerBlind m) (text : Bytes)
    {v w : Binary64} (h : v.same w) : measured m text v = measured m text w := by
  have extents : ZeroBlind ((m.getD approximateExtent) text) := by
    cases m with
    | none => exact zeroBlind_approximateExtent text
    | some installed => exact blind installed rfl text
  rw [measured, measured, extents.eq_of_same h]

/-! ## Boxes -/

/-- A frame without its text. -/
def Frame.bare (f : Frame) : Frame :=
  { f with text := none }

theorem Frame.same_iff {f g : Frame} : f.same g ↔ f.bare = g.bare ∧ sameText f.text g.text := by
  simp [same, bare, and_assoc]

/-- Trees of one shape in which the frames at each place are equal. -/
abbrev Box.Equal : Box → Box → Prop :=
  Box.Alike fun f g => f.same g

mutual

theorem Box.Equal.same {b c : Box} (h : b.Equal c) : b.same c := by
  cases h with
  | mk frames children => simp [Box.same, frames, Box.Equal.sameAll children]
termination_by sizeOf b

theorem Box.Equal.sameAll {bs cs : List Box} (h : List.Forall₂ Box.Equal bs cs) :
    Box.sameAll bs cs := by
  cases h with
  | nil => rfl
  | cons first rest => simp [Box.sameAll, Box.Equal.same first, Box.Equal.sameAll rest]
termination_by sizeOf bs

end

theorem Box.Equal.size {b c : Box} (h : b.Equal c) : b.size = c.size := by
  obtain ⟨bare, -⟩ := Frame.same_iff.1 h.frame
  have width : b.frame.bare.width = c.frame.bare.width := by rw [bare]
  have height : b.frame.bare.height = c.frame.bare.height := by rw [bare]
  exact congrArg₂ Size.mk width height

/-- Equal frames stay equal where they are moved by the same distance. -/
theorem Frame.same_movable : Frame.Movable (fun f g => f.same g) Eq where
  moved {f g dx dy dx' dy'} frames distances := by
    obtain ⟨rfl, rfl⟩ := Size.mk.inj distances
    obtain ⟨bare, text⟩ := same_iff.1 frames
    exact same_iff.2 ⟨congrArg (Frame.moved · dx dy) bare, text⟩
  place {f g} frames := by
    obtain ⟨bare, -⟩ := same_iff.1 frames
    have x : f.bare.x = g.bare.x := by rw [bare]
    have y : f.bare.y = g.bare.y := by rw [bare]
    exact congrArg₂ Size.mk x y

section

variable {bs cs : List Box} (h : List.Forall₂ Box.Equal bs cs)
include h

theorem map_size_of_equal : bs.map Box.size = cs.map Box.size := by
  induction h with
  | nil => rfl
  | cons first _ ih => exact congrArg₂ List.cons first.size ih

theorem mains_of_equal (axis : Axis) : axis.mains bs = axis.mains cs := by
  rw [Axis.mains_eq_map, Axis.mains_eq_map, map_size_of_equal h]

theorem crosses_of_equal (axis : Axis) :
    (bs.map fun b => axis.cross b.size) = cs.map fun c => axis.cross c.size := by
  have sizes := congrArg (List.map axis.cross) (map_size_of_equal h)
  rwa [List.map_map, List.map_map] at sizes

theorem placeAlong_equal (axis : Axis) (gap : Int) :
    List.Forall₂ Box.Equal (placeAlong axis gap 0 bs).1 (placeAlong axis gap 0 cs).1 := by
  apply Box.Alike.placeAlong h Frame.same_movable
  intro i
  rw [mains_of_equal h]

theorem placeAlong_end_of_equal (axis : Axis) (gap : Int) :
    (placeAlong axis gap 0 bs).2 = (placeAlong axis gap 0 cs).2 := by
  have mains := mains_of_equal h axis
  have length := h.length_eq
  cases h with
  | nil => rfl
  | cons first rest =>
    rw [placeAlong_end _ _ _ (List.cons_ne_nil _ _), placeAlong_end _ _ _ (List.cons_ne_nil _ _),
      mains, length]

end

/-! ## Arrangements -/

/-- Arrangements in equal boxes, with the same notes. -/
structure Arranged.Same (r s : Arranged) : Prop where
  box : r.box.Equal s.box
  notes : r.notes = s.notes

/-- What layouts are made with: equal properties under each number, and the same measurer, which
does not tell the two zeros apart. -/
structure LayoutContext.Same (c c' : LayoutContext) : Prop where
  styles : SameMaps c.styles.nodeStyles c'.styles.nodeStyles
  measurer : c.measurer = c'.measurer
  blind : MeasurerBlind c.measurer

theorem forall₂_getElem? {α : Type} {R : α → α → Prop} {as bs : List α}
    (h : List.Forall₂ R as bs) (i : Nat) : Option.Rel R as[i]? bs[i]? := by
  induction h generalizing i with
  | nil => exact .none
  | cons first _ ih =>
    cases i with
    | zero => exact .some first
    | succ i => exact ih i

namespace LayoutContext.Same

variable {c c' : LayoutContext} (h : c.Same c')
include h

theorem styleFor (node : Nat) : (c.styles.styleFor node).same (c'.styles.styleFor node) := by
  have maps := forall₂_getElem? h.styles node
  rw [ResolvedSlide.styleFor, ResolvedSlide.styleFor]
  generalize c.styles.nodeStyles[node]? = m?, c'.styles.nodeStyles[node]? = n? at maps
  cases maps with
  | none => rfl
  | some maps => exact maps

variable {a b : Attributes} (ids : a.id = b.id)
include ids

theorem pixels_eq (key : Property) : c.pixels a key = c'.pixels b key := by
  rw [pixels, pixels, ids, PropertyMap.map_number?_of_same zeroBlind_floorPixels (h.styleFor b.id)]

theorem textSize : (c.textSize a).same (c'.textSize b) := by
  have sizes := PropertyMap.number?_same (h.styleFor b.id) Property.size.key
  rw [LayoutContext.textSize, LayoutContext.textSize, ids]
  generalize (c.styles.styleFor b.id).number? _ = v?, (c'.styles.styleFor b.id).number? _ = w?
    at sizes
  cases sizes with
  | none =>
    rw [Option.getD_none, defaultTextSize]
    exact Binary64.same_ofNat 16
  | some sizes => exact sizes

theorem textFill_eq : c.textFill a = c'.textFill b := by
  rw [textFill, textFill, ids, PropertyMap.colour?_of_same (h.styleFor b.id)]

end LayoutContext.Same

theorem flatMap_notes_of_same {rs ss : List Arranged} (h : List.Forall₂ Arranged.Same rs ss) :
    rs.flatMap Arranged.notes = ss.flatMap Arranged.notes := by
  induction h with
  | nil => rfl
  | cons first _ ih => rw [List.flatMap_cons, List.flatMap_cons, first.notes, ih]

section

variable {a b : Attributes} (h : Element.sameAttributes a b)
include h

theorem frame_same (kind : Kind) (size : Size) : (a.frame kind size).same (b.frame kind size) := by
  obtain ⟨ids, names, -⟩ := Element.sameAttributes_iff.1 h
  rw [Attributes.frame, Attributes.frame, ids, names]
  exact Frame.same_iff.2 ⟨rfl, rfl⟩

theorem arrangeText_same {c c' : LayoutContext} (contexts : c.Same c') (value : Bytes)
    (most : Size) : (arrangeText c a value most).Same (arrangeText c' b value most) := by
  obtain ⟨ids, names, -⟩ := Element.sameAttributes_iff.1 h
  have sizes := contexts.textSize ids
  have fills := contexts.textFill_eq ids
  have needed : measured c.measurer value (c.textSize a)
      = measured c'.measurer value (c'.textSize b) := by
    rw [measured_of_same contexts.blind value sizes, contexts.measurer]
  rw [arrangeText, arrangeText, needed, ids]
  refine ⟨.mk (Frame.same_iff.2 ⟨?_, ?_⟩) .nil, rfl⟩
  · simp only [Frame.bare, Attributes.frame, ids, names]
  · simp only [Frame.sameText, TextPayload.same, sizes, fills, BEq.rfl, Bool.and_true]

theorem centred_same (most : Size) {r s : Arranged} (child : r.Same s) :
    (centred a most r).Same (centred b most s) := by
  have inner := child.box.size
  refine ⟨.mk (frame_same h _ _) (.cons (child.box.moved Frame.same_movable ?_) .nil), child.notes⟩
  rw [inner]

theorem padded_same (amount : Int) (most : Size) {r s : Arranged} (child : r.Same s) :
    (padded a amount most r).Same (padded b amount most s) := by
  have inner := child.box.size
  refine ⟨.mk ?_ (.cons (child.box.moved Frame.same_movable rfl) .nil), child.notes⟩
  rw [inner]
  exact frame_same h _ _

theorem stacked_same (axis : Axis) (gap : Int) (most : Size) {rs ss : List Arranged}
    (children : List.Forall₂ Arranged.Same rs ss) :
    (stacked a axis gap most rs).Same (stacked b axis gap most ss) := by
  have boxes : List.Forall₂ Box.Equal (rs.map Arranged.box) (ss.map Arranged.box) := by
    rw [List.forall₂_map_left_iff, List.forall₂_map_right_iff]
    exact children.imp fun _ _ child => child.box
  simp only [stacked, placeAlong_end_of_equal boxes, crosses_of_equal boxes]
  exact ⟨.mk (frame_same h _ _) (placeAlong_equal boxes axis gap), flatMap_notes_of_same children⟩

end

mutual

theorem arrange_same {c c' : LayoutContext} (contexts : c.Same c') {e f : Element}
    (h : e.same f) (most : Size) : (arrange c e most).Same (arrange c' f most) := by
  cases e with
  | hole =>
    obtain rfl := Element.same_hole.1 h
    exact ⟨.mk (Frame.same_iff.2 ⟨rfl, rfl⟩) .nil, rfl⟩
  | text a value =>
    obtain ⟨b, rfl, attributes⟩ := Element.same_text.1 h
    exact arrangeText_same attributes contexts value most
  | centre a child =>
    obtain ⟨b, other, rfl, attributes, below⟩ := Element.same_centre.1 h
    rw [arrange, arrange]
    exact centred_same attributes most (arrange_same contexts below most)
  | padding a child =>
    obtain ⟨b, other, rfl, attributes, below⟩ := Element.same_padding.1 h
    have ids := (Element.sameAttributes_iff.1 attributes).1
    rw [arrange, arrange, contexts.pixels_eq ids]
    exact padded_same attributes _ most (arrange_same contexts below _)
  | stack a axis children =>
    obtain ⟨b, others, rfl, attributes, below⟩ := Element.same_stack.1 h
    have ids := (Element.sameAttributes_iff.1 attributes).1
    have counts := (Element.sameAll_iff.1 below).length_eq
    rw [arrange, arrange, contexts.pixels_eq ids, counts]
    exact stacked_same attributes axis _ most (arrangeAll_same contexts below _)

theorem arrangeAll_same {c c' : LayoutContext} (contexts : c.Same c') {es fs : List Element}
    (h : Element.sameAll es fs) (mosts : List Size) :
    List.Forall₂ Arranged.Same (arrangeAll c es mosts) (arrangeAll c' fs mosts) := by
  cases es <;> cases fs
  case nil.nil => exact .nil
  case cons.cons e es f fs =>
    simp only [Element.sameAll, Bool.and_eq_true] at h
    cases mosts with
    | nil => exact .nil
    | cons most others =>
      rw [arrangeAll, arrangeAll]
      exact .cons (arrange_same contexts h.1 most) (arrangeAll_same contexts h.2 others)
  all_goals cases h

end

/-! ## The congruence -/

/-- Slides that are equal are laid out in equal boxes, and the engine is then in one state. -/
theorem Engine.layOutSlide_same {a b : Slide} (h : a.same b) (v : Viewport) {g : Engine}
    (blind : MeasurerBlind g.measurer) :
    ∃ x y after, g.layOutSlide a (a.resolved v) = (.ok x, after) ∧
      g.layOutSlide b (b.resolved v) = (.ok y, after) ∧ x.same y := by
  have styles := Slide.resolved_same h v
  have contexts : LayoutContext.Same ⟨a.resolved v, g.measurer⟩ ⟨b.resolved v, g.measurer⟩ :=
    ⟨styles.nodeStyles, rfl, blind⟩
  have inner : (a.resolved v).inner = (b.resolved v).inner := by
    rw [ResolvedSlide.inner, ResolvedSlide.inner, styles.width, styles.height, styles.margin]
  have arranged := arrange_same contexts (Slide.same_iff.1 h).2.2 (b.resolved v).inner
  have first := g.layOutSlide_of_covers (a.covers_resolved v)
  have second := g.layOutSlide_of_covers (b.covers_resolved v)
  rw [inner, styles.margin, arranged.notes] at first
  exact ⟨_, _, _, first, second, Box.Equal.same (arranged.box.absolute Frame.same_movable rfl)⟩

/-- **Equality is a congruence that positions have no say in.**  Slides in which every number is
one equal themselves, equality is symmetric and transitive, and it is that of the slides without
their positions.  Slides that are equal have one canonical text.  For every viewport, and whether
targets are strict or not, they are resolved to the same size, background, margin and ignored
targets and to equal properties of their elements, or they are refused because of the same target.
An engine then lays them out in equal boxes, with the same notes, if its measurer does not tell the
two zeros apart. -/
theorem Slide.same_congruence :
    (∀ s : Slide, (∀ v ∈ slideNumbers s, v ≠ .nan) → s.same s) ∧
    (∀ a b : Slide, a.same b = b.same a) ∧
    (∀ a b c : Slide, a.same b → b.same c → a.same c) ∧
    (∀ a a' b b' : Slide, a.unplaced = a'.unplaced → b.unplaced = b'.unplaced →
      a.same b = a'.same b') ∧
    ∀ a b : Slide, a.same b → a.printed = b.printed ∧ ∀ (strict : Bool) (v : Viewport),
      (∃ r r', a.resolve strict v = .ok r ∧ b.resolve strict v = .ok r' ∧ r.Same r' ∧
        ∀ g : Engine, MeasurerBlind g.measurer →
          ∃ x y after, g.layOutSlide a r = (.ok x, after) ∧
            g.layOutSlide b r' = (.ok y, after) ∧ x.same y) ∨
      ∃ place place' target,
        a.resolve strict v = .error ⟨place, .unresolvedStyleTarget target⟩ ∧
        b.resolve strict v = .error ⟨place', .unresolvedStyleTarget target⟩ := by
  refine ⟨fun s numbers => same_self_of_numbers numbers, same_comm, fun a b c => same_trans,
    fun a a' b b' => same_of_unplaced, fun a b h => ⟨printed_of_same h, fun strict v => ?_⟩⟩
  rcases resolve_same h strict v with ⟨first, second⟩ | refused
  · exact .inl ⟨_, _, first, second, resolved_same h v, fun g blind =>
      Engine.layOutSlide_same h v blind⟩
  · exact .inr refused

/-- A text that is as large as one of the zeros, in a slide at some place. -/
def zeroText (negative : Bool) (place : Position) : Slide where
  content := .text
    { params := .ofList [(Property.size.key, .number (signedZero negative))], position := place }
    (.ascii "a")
  position := place
  nodeCount := 1

theorem zeroText_congruence :
    let a := zeroText false {}
    let b := zeroText true ⟨3, 4, 50⟩
    let g : Engine := { measurer := some fun text _ => ⟨10 * text.length, 20⟩ }
    (∀ v ∈ slideNumbers a, v ≠ .nan) ∧ MeasurerBlind g.measurer ∧ a.same a ∧ a.same b ∧ b.same a ∧
      b.same b ∧ (zeroText false ⟨7, 8, 9⟩).same b ∧ a.printed = b.printed ∧
      ∃ r r', a.resolve true {} = .ok r ∧ b.resolve true {} = .ok r' ∧ r.Same r' ∧
        ∃ x y after, g.layOutSlide a r = (.ok x, after) ∧ g.layOutSlide b r' = (.ok y, after) ∧
          x.same y := by
  intro a b g
  obtain ⟨itself, symmetric, transitive, unplaced, congruent⟩ := Slide.same_congruence
  have numbers : ∀ v ∈ slideNumbers a, v ≠ .nan := by decide +kernel
  have blind : MeasurerBlind g.measurer := by
    rintro _ ⟨⟩ text
    rfl
  have equal : a.same b := by decide +kernel
  have reverse : b.same a := symmetric a b ▸ equal
  have moved : (zeroText false ⟨7, 8, 9⟩).same b := (unplaced _ a b b rfl rfl).trans equal
  obtain ⟨printed, stages⟩ := congruent a b equal
  refine ⟨numbers, blind, itself a numbers, equal, reverse, transitive b a b reverse equal, moved,
    printed, ?_⟩
  rcases stages true {} with ⟨r, r', first, second, same, laidOut⟩ | ⟨_, _, _, refused, -⟩
  · exact ⟨r, r', first, second, same, laidOut g blind⟩
  · cases refused

end SlideDeck
