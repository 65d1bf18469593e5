import SlideDeck.Proofs.Layout.Containment

/-! # Rows and columns without loss

A row or a column hands all of its extent to its children, as evenly as whole
pixels allow, and where the children take what they are handed no pixel is left
over (`arrange_stack_tiles`).

* `slots_evenly`: the shares of an extent have the sum that gaps leave of it,
  do not ascend, and differ by a pixel at most.
* `Fills` says that an element takes all of its share, as centred content does.
* `Consecutive.ends`: where boxes one after the other end.

No clamp takes anything away.  An offset is clamped before its box is moved, and
the extent of the whole stack is clamped as well, but with the gaps the shares
come to the whole extent, which is within the limit on pixels already. -/

namespace SlideDeck

/-! ## Even shares -/

/-- Shares of an extent that are as even as they can be, the larger ones first. -/
structure EvenlyShared (total : Int) (shares : List Int) : Prop where
  sum : shares.sum = total
  descending : shares.Pairwise fun share next => next ≤ share
  close : ∀ share ∈ shares, ∀ other ∈ shares, share ≤ other + 1

/-- Gaps that take more than there is leave nothing. -/
theorem slots_evenly {available gap : Int} {count : Nat} (capped : available ≤ pixelCap)
    (positive : 0 ≤ gap) (notNone : 0 < count) :
    EvenlyShared (max 0 (available - gap * (count - 1))) (slots available gap count) := by
  have gaps : 0 ≤ gap * (count - 1 : Int) := Int.mul_nonneg positive (by omega)
  constructor
  case sum => rw [sum_slots notNone, clampPixels_of_le (by omega)]
  case descending =>
    rw [slots, List.pairwise_map]
    refine List.pairwise_lt_range.imp fun {i j} before => ?_
    split <;> split <;> omega
  case close =>
    intro share among other among'
    obtain ⟨i, -, rfl⟩ := List.mem_map.1 among
    obtain ⟨j, -, rfl⟩ := List.mem_map.1 among'
    split <;> split <;> omega

/-! ## Ends -/

/-- Boxes one after the other end where all of them and the gaps between them do. -/
theorem Consecutive.ends {axis : Axis} {gap start : Int} {boxes : List Box}
    (h : Consecutive axis gap start boxes) {last : Box} (isLast : boxes.getLast? = some last) :
    axis.place last.frame + axis.main last.size
      = start + ((axis.mains boxes).sum + gap * (boxes.length - 1)) := by
  have ends : axis.place last.frame + axis.main last.size
      = start + spaced gap (axis.mains boxes) - gap := by
    induction boxes generalizing start with
    | nil => cases isLast
    | cons b rest ih =>
      obtain ⟨place, others⟩ := h
      cases rest with
      | nil =>
        cases isLast
        simp [Axis.mains]
        omega
      | cons b' rest =>
        have further := ih others (by simpa using isLast)
        simp only [Axis.mains_cons, spaced_cons] at further ⊢
        omega
  rw [ends, spaced_eq_sum, Axis.length_mains, Int.mul_sub, Int.mul_one]
  omega

/-! ## Stacks -/

/-- An element takes all of a constraint along an axis. -/
def Fills (c : LayoutContext) (axis : Axis) (e : Element) (given : Size) : Prop :=
  axis.main (arrange c e given).box.size = axis.main given

theorem fills_centre (c : LayoutContext) (axis : Axis) (a : Attributes) (child : Element)
    (given : Size) : Fills c axis (.centre a child) given := rfl

/-- Children that take all of their constraints have the extents of these. -/
theorem mains_of_fills {c : LayoutContext} {axis : Axis} {es : List Element} {mosts : List Size}
    (fills : List.Forall₂ (Fills c axis) es mosts) :
    axis.mains ((arrangeAll c es mosts).map Arranged.box) = mosts.map axis.main := by
  induction fills with
  | nil => rfl
  | cons first _ ih => rw [arrangeAll, List.map_cons, Axis.mains_cons, first, ih, List.map_cons]

/-- A stack of some extent whose children follow one another from its beginning to its end. -/
structure Tiles (axis : Axis) (gap extent : Int) (root : Box) : Prop where
  reported : axis.main root.size = extent
  consecutive : Consecutive axis gap (axis.place root.frame) root.children
  ends : ∀ last, root.children.getLast? = some last →
    axis.place last.frame + axis.main last.size = axis.place root.frame + extent

/-- Moving boxes does not change their extents. -/
theorem mains_placed (axis : Axis) (gap x y : Int) (boxes : List Box) :
    axis.mains ((placeAlong axis gap 0 boxes).1.map (Box.absolute x y)) = axis.mains boxes := by
  refine List.ext_getElem? fun i => ?_
  simp only [Axis.mains, List.getElem?_map, getElem?_placeAlong, Option.map_map,
    Function.comp_def, Axis.move_eq, absolute_moved, size_absolute]

/-- A box that is not placed yet. -/
def Box.Unplaced (b : Box) : Prop :=
  b.frame.x = 0 ∧ b.frame.y = 0

theorem arrange_unplaced (c : LayoutContext) (e : Element) (most : Size) :
    (arrange c e most).box.Unplaced := by
  cases e <;> exact ⟨rfl, rfl⟩

theorem arrangeAll_unplaced (c : LayoutContext) (es : List Element) (mosts : List Size) :
    ∀ b ∈ (arrangeAll c es mosts).map Arranged.box, b.Unplaced := by
  rw [List.forall_mem_map, arrangeAll_eq_zipWith]
  intro arranged among
  obtain ⟨i, there⟩ := List.mem_iff_getElem?.1 among
  obtain ⟨e, most, -, -, rfl⟩ := List.getElem?_zipWith_eq_some.1 there
  exact arrange_unplaced c e most

theorem Box.Unplaced.absolute {b : Box} (h : b.Unplaced) (x y : Int) :
    (b.absolute x y).frame.x = x ∧ (b.absolute x y).frame.y = y := by
  cases b with
  | mk f cs =>
    exact ⟨(congrArg (· + x) h.1).trans (Int.zero_add x),
      (congrArg (· + y) h.2).trans (Int.zero_add y)⟩

section

variable {axis : Axis} {gap : Int} (positive : 0 ≤ gap) {most : Size}
  (capped : axis.main most ≤ pixelCap) {boxes : List Box} (unplaced : ∀ b ∈ boxes, b.Unplaced)
  (nonneg : ∀ n ∈ axis.mains boxes, 0 ≤ n)
  (whole : (axis.mains boxes).sum + gap * (boxes.length - 1) = axis.main most)
include positive capped unplaced nonneg whole

/-- No box is moved less far than the boxes before it and the gaps behind these go. -/
theorem place_placed {f : Frame} {i : Nat} {b : Box}
    (there : ((placeAlong axis gap 0 boxes).1.map (Box.absolute f.x f.y))[i]? = some b) :
    axis.place b.frame = axis.place f + spaced gap ((axis.mains boxes).take i) := by
  rw [getElem?_placed axis positive f.x f.y nonneg] at there
  obtain ⟨box, isBox, rfl⟩ := Option.map_eq_some_iff.1 there
  have unlimited := offset_of_le axis positive nonneg (whole ▸ capped) isBox
  rw [unlimited]
  obtain ⟨left, top⟩ := (unplaced box (List.mem_of_getElem? isBox)).absolute
    (f.x + (axis.size (spaced gap ((axis.mains boxes).take i)) 0).width)
    (f.y + (axis.size (spaced gap ((axis.mains boxes).take i)) 0).height)
  exact place_of_offset left top

/-- Boxes that come to the whole extent with the gaps between them tile it. -/
theorem stacked_tiles (a : Attributes) {children : List Arranged}
    (isBoxes : children.map Arranged.box = boxes) (notEmpty : boxes ≠ []) (x y : Int) :
    Tiles axis gap (axis.main most) ((stacked a axis gap most children).box.absolute x y) := by
  have gaps : 0 ≤ gap * (boxes.length - 1 : Int) := by
    have := List.length_pos_iff.2 notEmpty
    exact Int.mul_nonneg positive (by omega)
  have sum := List.sum_nonneg nonneg
  have main : clampPixels (min (placeAlong axis gap 0 boxes).2 (axis.main most))
      = axis.main most := by
    rw [placeAlong_end axis gap 0 notEmpty, Int.zero_add, whole, Int.min_self,
      clampPixels_of_nonneg (by omega), Int.min_eq_left capped]
  let f := a.frameAt axis.kind x y
    (axis.size (axis.main most) (min (largest (axis.crosses boxes)) (axis.cross most)))
  let placed := (placeAlong axis gap 0 boxes).1.map (Box.absolute x y)
  have root : (stacked a axis gap most children).box.absolute x y = .mk f placed := by
    show _ = Box.mk (a.frameAt ..) _
    rw [← main, ← absolute_mk, ← isBoxes]
    rfl
  have mains : axis.mains placed = axis.mains boxes := mains_placed axis gap x y boxes
  have length : placed.length = boxes.length := by
    rw [← Axis.length_mains axis, mains, Axis.length_mains]
  have consecutive : Consecutive axis gap (axis.place f) placed := by
    refine consecutive_of_place fun i b there => ?_
    rw [mains]
    exact place_placed positive capped unplaced nonneg whole there
  rw [root]
  constructor
  case reported => exact Axis.main_size ..
  case consecutive => exact consecutive
  case ends =>
    intro last isLast
    rw [consecutive.ends isLast, mains, length, whole]
    rfl

end

/-- **Nothing is lost between children.**  A row or a column hands constraints to its children that
come to what the gaps leave of its own constraint, and to nothing where the gaps leave nothing; they
do not ascend, and no two of them differ by more than a pixel.  Where the gaps leave something and
every child takes all that it is handed, as centred content does, the children and the gaps between
them tile the constraint, wherever the row or column is placed. -/
theorem arrange_stack_tiles (c : LayoutContext) (a : Attributes) (axis : Axis)
    {children : List Element} (notEmpty : children ≠ []) {most : Size}
    (capped : axis.main most ≤ pixelCap) :
    let gap := c.pixels a .gap
    let given := stackedMost axis gap most children.length
    let arranged := arrange c (.stack a axis children) most
    arranged = stacked a axis gap most (arrangeAll c children given) ∧
      given.length = children.length ∧
      EvenlyShared (max 0 (axis.main most - gap * (children.length - 1))) (given.map axis.main) ∧
      ((∀ e ∈ children, ∃ b inner, e = .centre b inner) →
        List.Forall₂ (Fills c axis) children given) ∧
      (gap * (children.length - 1) ≤ axis.main most → List.Forall₂ (Fills c axis) children given →
        ∀ x y, Tiles axis gap (axis.main most) (arranged.box.absolute x y)) := by
  intro gap given arranged
  have positive : 0 ≤ gap := pixels_nonneg c a .gap
  have notNone : 0 < children.length := List.length_pos_iff.2 notEmpty
  have isGiven : given.map axis.main = slots (axis.main most) gap children.length := by
    simp only [given, stackedMost, List.map_map, Function.comp_def, Axis.main_size, List.map_id']
  have even := slots_evenly capped positive notNone
  have length : given.length = children.length := by
    rw [← List.length_map axis.main, isGiven, length_slots]
  rw [isGiven]
  refine ⟨rfl, length, even, fun centred => ?_, fun room fills x y => ?_⟩
  · refine List.forall₂_iff_get.2 ⟨length.symm, fun i child _ => ?_⟩
    obtain ⟨b, inner, isCentre⟩ := centred _ (List.get_mem children ⟨i, child⟩)
    rw [isCentre]
    exact fills_centre ..
  · have mains := mains_of_fills fills
    rw [isGiven] at mains
    have count : ((arrangeAll c children given).map Arranged.box).length = children.length := by
      rw [← Axis.length_mains axis, mains, length_slots]
    refine stacked_tiles positive capped (arrangeAll_unplaced c children given) ?_ ?_ a rfl ?_ x y
    · rw [mains]
      exact slots_nonneg
    · rw [mains, count, even.sum]
      omega
    · rw [← List.length_pos_iff, count]
      exact notNone

/-- Three centred texts. -/
def thirds : List Element :=
  [1, 2, 3].map fun id => .centre { id } (.text { id := id + 3 } (.ascii "a"))

/-- A gap of five pixels, and texts that take what they can. -/
def thirdsContext : LayoutContext where
  styles := { nodeStyles := [.ofList [(Property.gap.key, .number (.ofNat 5))]] }
  measurer := some fun _ _ => ⟨1000, 1000⟩

/-- Of 113 pixels the gaps leave 103, which are shared as 35, 34 and 34. -/
theorem thirds_tile :
    thirds ≠ [] ∧ Axis.horizontal.main ⟨113, 40⟩ ≤ pixelCap ∧
      thirdsContext.pixels {} .gap * ((thirds.length : Int) - 1) ≤ 113 ∧
      (∀ e ∈ thirds, ∃ b inner, e = .centre b inner) ∧
      EvenlyShared 103
        ((stackedMost .horizontal (thirdsContext.pixels {} .gap) ⟨113, 40⟩ 3).map Size.width) ∧
      Tiles .horizontal (thirdsContext.pixels {} .gap) 113
        ((arrange thirdsContext (.stack {} .horizontal thirds) ⟨113, 40⟩).box.absolute (-3) 4) := by
  have notEmpty : thirds ≠ [] := List.cons_ne_nil _ _
  have capped : Axis.horizontal.main ⟨113, 40⟩ ≤ pixelCap := by decide
  have room : thirdsContext.pixels {} .gap * ((thirds.length : Int) - 1) ≤ 113 := by
    decide +kernel
  have centred : ∀ e ∈ thirds, ∃ b inner, e = .centre b inner :=
    List.forall_mem_map.2 fun _ _ => ⟨_, _, rfl⟩
  obtain ⟨-, -, even, fills, tiles⟩ :=
    arrange_stack_tiles thirdsContext {} .horizontal notEmpty capped
  have left : max 0 (Axis.horizontal.main ⟨113, 40⟩
      - thirdsContext.pixels {} .gap * ((thirds.length : Int) - 1)) = 103 := by
    decide +kernel
  rw [left] at even
  exact ⟨notEmpty, capped, room, centred, even, tiles room (fills centred) (-3) 4⟩

end SlideDeck
