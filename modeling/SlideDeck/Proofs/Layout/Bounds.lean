import SlideDeck.Proofs.Layout.Visit

/-! # Bounds on sizes

No box of a layout is larger than the space that the whole layout has, or has a
negative size (`Engine.layOut_bounded`).

* `Box.Bounded` says so of every box of a tree, and no pass that moves boxes
  has a say in it.
* `paddedMost_inside` and `stackedMost_inside`: what a child receives is inside
  of what its parent received.
* `Slide.covers_resolved`: a resolved slide has properties for every element,
  however its elements are numbered.

Nothing has to make sense here: amounts and gaps may exceed all space,
constraints may exceed the limit on pixels and texts may report any extent.  So
each kind of content is compared with the constraint that it received and not
with what its children take. -/

namespace SlideDeck

/-! ## Constraints -/

/-- A constraint that allows no more than another one, and not less than nothing. -/
structure Size.Inside (s most : Size) : Prop where
  width_nonneg : 0 ≤ s.width
  width_le : s.width ≤ most.width
  height_nonneg : 0 ≤ s.height
  height_le : s.height ≤ most.height

theorem paddedMost_inside {amount : Int} (positive : 0 ≤ amount) {most : Size}
    (width : 0 ≤ most.width) (height : 0 ≤ most.height) :
    (paddedMost amount most).Inside most :=
  ⟨clampPixels_nonneg _, clampPixels_le width (by omega), clampPixels_nonneg _,
    clampPixels_le height (by omega)⟩

/-- A share is at most the whole extent, even of one beyond the limit. -/
theorem slots_le {available gap : Int} {count : Nat} (nonneg : 0 ≤ available)
    (positive : 0 ≤ gap) : ∀ slot ∈ slots available gap count, slot ≤ available := by
  intro slot among
  have length := List.length_pos_of_mem among
  rw [length_slots] at length
  have gaps : 0 ≤ gap * (count - 1 : Int) := Int.mul_nonneg positive (by omega)
  calc slot ≤ (slots available gap count).sum := List.single_le_sum slots_nonneg _ among
    _ = clampPixels (available - gap * (count - 1)) := sum_slots length
    _ ≤ available := clampPixels_le nonneg (by omega)

theorem stackedMost_inside (axis : Axis) {gap : Int} (positive : 0 ≤ gap) {most : Size}
    (width : 0 ≤ most.width) (height : 0 ≤ most.height) (count : Nat) :
    ∀ given ∈ stackedMost axis gap most count, given.Inside most := by
  intro given among
  obtain ⟨slot, share, rfl⟩ := List.mem_map.1 among
  have nonneg := slots_nonneg slot share
  cases axis with
  | horizontal => exact ⟨nonneg, slots_le width positive slot share, height, Int.le_refl _⟩
  | vertical => exact ⟨width, Int.le_refl _, nonneg, slots_le height positive slot share⟩

/-! ## Trees of boxes -/

/-- No box of the tree is larger than a constraint, and none has a negative size. -/
def Box.Bounded (b : Box) (most : Size) : Prop :=
  ∀ inner ∈ b.flatten, inner.Within most

namespace Box

variable {b : Box} {most : Size}

theorem bounded_mk {f : Frame} {cs : List Box} :
    (mk f cs).Bounded most ↔ (mk f cs).Within most ∧ ∀ child ∈ cs, child.Bounded most :=
  forall_mem_flatten

theorem Bounded.mono {given : Size} (h : b.Bounded given) (inside : given.Inside most) :
    b.Bounded most := by
  intro inner among
  have within := h inner among
  exact ⟨within.width_nonneg, Int.le_trans within.width_le inside.width_le,
    within.height_nonneg, Int.le_trans within.height_le inside.height_le⟩

theorem Bounded.moved (h : b.Bounded most) (dx dy : Int) : (b.moved dx dy).Bounded most := by
  cases b with
  | mk f cs =>
    obtain ⟨root, children⟩ := bounded_mk.1 h
    exact bounded_mk.2 ⟨⟨root.1, root.2, root.3, root.4⟩, children⟩

theorem Bounded.placeAlong {axis : Axis} {gap cursor : Int} {boxes : List Box}
    (h : ∀ b ∈ boxes, b.Bounded most) :
    ∀ b ∈ (placeAlong axis gap cursor boxes).1, b.Bounded most := by
  intro b among
  obtain ⟨i, there⟩ := List.mem_iff_getElem?.1 among
  rw [getElem?_placeAlong] at there
  obtain ⟨unplaced, box, rfl⟩ := Option.map_eq_some_iff.1 there
  rw [Axis.move_eq]
  exact (h unplaced (List.mem_of_getElem? box)).moved _ _

mutual

theorem Bounded.absolute {b : Box} (h : b.Bounded most) (x y : Int) :
    (b.absolute x y).Bounded most := by
  cases b with
  | mk f cs =>
    obtain ⟨root, children⟩ := bounded_mk.1 h
    exact bounded_mk.2 ⟨⟨root.1, root.2, root.3, root.4⟩, Bounded.absoluteAll children _ _⟩

theorem Bounded.absoluteAll {cs : List Box} (h : ∀ b ∈ cs, b.Bounded most) (x y : Int) :
    ∀ b ∈ absoluteAll x y cs, b.Bounded most := by
  cases cs with
  | nil => nofun
  | cons b rest =>
    obtain ⟨first, others⟩ := List.forall_mem_cons.1 h
    exact List.forall_mem_cons.2 ⟨first.absolute x y, Bounded.absoluteAll others x y⟩

end

end Box

/-! ## Arranging -/

mutual

theorem arrange_bounded (c : LayoutContext) (e : Element) {most : Size} (width : 0 ≤ most.width)
    (height : 0 ≤ most.height) : (arrange c e most).box.Bounded most := by
  have root := arrange_within c e width height
  cases e with
  | hole => exact Box.bounded_mk.2 ⟨root, nofun⟩
  | text a value => exact Box.bounded_mk.2 ⟨root, nofun⟩
  | centre a child =>
    have inner := arrange_bounded c child width height
    exact Box.bounded_mk.2 ⟨root, by simpa using inner.moved _ _⟩
  | padding a child =>
    have inside := paddedMost_inside (pixels_nonneg c a .amount) width height
    have inner := arrange_bounded c child inside.width_nonneg inside.height_nonneg
    exact Box.bounded_mk.2 ⟨root, by simpa using (inner.mono inside).moved _ _⟩
  | stack a axis children =>
    have inside := stackedMost_inside axis (pixels_nonneg c a .gap) width height children.length
    have inner := arrangeAll_bounded c children inside
    exact Box.bounded_mk.2 ⟨root, Box.Bounded.placeAlong (List.forall_mem_map.2 inner)⟩

/-- Each of some elements is bounded by a constraint that all of theirs are inside of. -/
theorem arrangeAll_bounded (c : LayoutContext) (es : List Element) {mosts : List Size}
    {most : Size} (inside : ∀ given ∈ mosts, given.Inside most) :
    ∀ arranged ∈ arrangeAll c es mosts, arranged.box.Bounded most := by
  cases es with
  | nil => nofun
  | cons e rest =>
    cases mosts with
    | nil => nofun
    | cons given others =>
      obtain ⟨first, insideOthers⟩ := List.forall_mem_cons.1 inside
      have inner := arrange_bounded c e first.width_nonneg first.height_nonneg
      exact List.forall_mem_cons.2 ⟨inner.mono first, arrangeAll_bounded c rest insideOthers⟩

end

/-! ## Properties for every element -/

theorem length_placed (styles : List PropertyMap) (index : Nat) (style : PropertyMap) :
    (placed styles index style).length = max styles.length (index + 1) := by
  rw [placed]
  split
  · rw [List.length_set]
    omega
  · simp only [List.length_append, List.length_replicate, List.length_singleton]
    omega

/-- There is a place for the properties of every element that some were placed for. -/
theorem length_foldl_placed (style : Element → PropertyMap) (nodes : List Element)
    (styles : List PropertyMap) :
    styles.length ≤ (nodes.foldl (fun styles e => placed styles e.id (style e)) styles).length ∧
      ∀ e ∈ nodes,
        e.id < (nodes.foldl (fun styles e => placed styles e.id (style e)) styles).length := by
  induction nodes generalizing styles with
  | nil => exact ⟨Nat.le_refl _, nofun⟩
  | cons e rest ih =>
    obtain ⟨grown, others⟩ := ih (placed styles e.id (style e))
    rw [length_placed] at grown
    rw [List.foldl_cons, List.forall_mem_cons]
    exact ⟨by omega, by omega, others⟩

/-- Resolving a slide gives properties to every element. -/
theorem Slide.covers_resolved (s : Slide) (v : Viewport) : (s.resolved v).Covers s.content := by
  rw [resolved]
  split
  · next missing =>
    intro e among
    cases content : s.content with
    | hole =>
      rw [content] at among
      cases among
    | _ =>
      rw [content] at missing
      cases missing
  · exact (length_foldl_placed _ _ _).2

/-! ## Layouts -/

theorem exists_bounded_layOut {c : LayoutContext} {e : Element} (covers : c.styles.Covers e)
    (x y : Int) (most : Size) :
    ∃ arranged, e.layOut c x y most = .ok arranged ∧
      arranged.box.Bounded ⟨max 0 most.width, max 0 most.height⟩ := by
  have inner : (arrange c e ⟨max 0 most.width, max 0 most.height⟩).box.Bounded _ :=
    arrange_bounded c e (Int.le_max_left ..) (Int.le_max_left ..)
  exact ⟨_, layOut_of_covers covers x y most, inner.absolute x y⟩

/-- **Sizes are bounded.**  Whatever content is laid out with properties for all of its elements, in
whatever constraint, with whatever measurer and after whatever other layouts, no box at any depth
has a negative size or exceeds the constraint, where less than nothing is nothing.  In a slide the
constraint is what the margin leaves, and a resolved slide has properties for all its elements. -/
theorem Engine.layOut_bounded (g : Engine) (styles : ResolvedSlide) :
    (∀ (e : Element) (x y : Int) (most : Size), styles.Covers e →
      ∃ root, (g.layOutElement e styles x y most).1 = .ok root ∧
        ∀ b ∈ root.flatten, b.Within ⟨max 0 most.width, max 0 most.height⟩) ∧
    (∀ s : Slide, styles.Covers s.content →
      ∃ root, (g.layOutSlide s styles).1 = .ok root ∧
        ∀ b ∈ root.flatten, b.Within
          ⟨max 0 (styles.width - 2 * clampPixels styles.margin),
            max 0 (styles.height - 2 * clampPixels styles.margin)⟩) ∧
    ∀ (s : Slide) (strict : Bool) (v : Viewport), s.resolve strict v = .ok styles →
      styles.Covers s.content := by
  refine ⟨fun e x y most covers => ?_, fun s covers => ?_, fun s strict v resolved => ?_⟩
  · obtain ⟨arranged, laidOut, bounded⟩ :=
      exists_bounded_layOut (c := ⟨styles, g.measurer⟩) covers x y most
    exact ⟨arranged.box, by rw [layOutElement_eq, laidOut, Except.map], bounded⟩
  · obtain ⟨arranged, laidOut, bounded⟩ :=
      exists_bounded_layOut (c := ⟨styles, g.measurer⟩) covers (clampPixels styles.margin)
        (clampPixels styles.margin) styles.inner
    refine ⟨arranged.box, ?_, bounded.mono ?_⟩
    · rw [layOutSlide_eq, Slide.layOut, laidOut, Except.map]
    -- The limit on pixels only makes the constraint smaller.
    · constructor <;> simp only [ResolvedSlide.inner, clampPixels] <;> omega
  · obtain ⟨-, rfl⟩ := Slide.resolve_eq_ok.1 resolved
    exact s.covers_resolved v

/-- A padded text, a column of nothing and a centred text in a row. -/
def cramped : Element :=
  .stack {} .horizontal
    [.padding { id := 1 } (.text { id := 2 } (.ascii "a")), .stack { id := 3 } .vertical [],
      .centre { id := 4 } (.text { id := 5 } (.ascii "b"))]

/-- A gap and a padding beyond all space, and a margin that leaves nothing of the height. -/
def crampedStyles : ResolvedSlide where
  width := 200
  height := 100
  margin := 60
  nodeStyles :=
    [.ofList [(Property.gap.key, .number (.ofNat 1000))],
      .ofList [(Property.amount.key, .number (.ofNat 5000))], ∅, ∅, ∅, ∅]

theorem cramped_bounded :
    let g : Engine := { measurer := some fun _ _ => ⟨-1, 300⟩ }
    crampedStyles.Covers cramped ∧
      (∃ root, (g.layOutElement cramped crampedStyles (-3) 4 ⟨101, -40⟩).1 = .ok root ∧
        ∀ b ∈ root.flatten, b.Within ⟨101, 0⟩) ∧
      (∃ root, (g.layOutSlide ⟨cramped, [], {}, 6⟩ crampedStyles).1 = .ok root ∧
        ∀ b ∈ root.flatten, b.Within ⟨80, 0⟩) ∧
      ∃ styles, Slide.resolve ⟨cramped, [], {}, 6⟩ true {} = .ok styles ∧
        styles.Covers cramped := by
  intro g
  have covers : crampedStyles.Covers cramped := by decide
  obtain ⟨element, slide, -⟩ := g.layOut_bounded crampedStyles
  have resolved : Slide.resolve ⟨cramped, [], {}, 6⟩ true {} = .ok _ := rfl
  exact ⟨covers, element cramped (-3) 4 ⟨101, -40⟩ covers, slide ⟨cramped, [], {}, 6⟩ covers, _,
    resolved, (g.layOut_bounded _).2.2 _ _ _ resolved⟩

end SlideDeck
