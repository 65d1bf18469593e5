import Mathlib.Algebra.Order.BigOperators.Group.List
import Mathlib.Algebra.Order.Ring.Int
import SlideDeck.Box.Arrange

/-! # Sharing and placing along an axis

What the children of a row or a column get of it, and where they go.

* `getElem?_slots` and `sum_slots`: the shares of an extent, which together are
  what the gaps leave of it.
* `getElem?_placeAlong` and `placeAlong_end`: where each box is moved to, and
  where the last one ends.
* `arrange_within`: no box is larger than its constraint.

How far some extents take a cursor is `spaced`, a sum over the boxes before a
place, so what a loop with a cursor does to the box at that place is said without
the loop. -/

namespace SlideDeck

/-! ## Pixels -/

theorem pixelCap_nonneg : 0 ≤ pixelCap := by
  decide

theorem clampPixels_nonneg (n : Int) : 0 ≤ clampPixels n :=
  Int.le_max_left ..

theorem clampPixels_of_le {n : Int} (h : n ≤ pixelCap) : clampPixels n = max 0 n := by
  rw [clampPixels, Int.min_eq_left h]

theorem clampPixels_of_nonneg {n : Int} (h : 0 ≤ n) : clampPixels n = min n pixelCap := by
  have := pixelCap_nonneg
  rw [clampPixels]
  omega

/-- Clamping what is at most some extent gives at most that extent. -/
theorem clampPixels_le {n most : Int} (nonneg : 0 ≤ most) (h : n ≤ most) :
    clampPixels n ≤ most := by
  rw [clampPixels]
  omega

/-! ## Shares -/

/-- The first `r` of `n` equal shares are one larger. -/
theorem sum_shares (q r : Int) (nonneg : 0 ≤ r) (n : Nat) :
    ((List.range n).map fun (i : Nat) => q + if i < r then 1 else 0).sum = q * n + min (n : Int) r := by
  induction n with
  | zero => simpa using (Int.min_eq_left nonneg).symm
  | succ n ih =>
    rw [List.range_succ, List.map_append, List.sum_append, ih]
    have step : q * ((n + 1 : Nat) : Int) = q * n + q := by
      rw [Int.natCast_add, Int.mul_add, Int.natCast_one, Int.mul_one]
    rw [step]
    simp only [List.map_cons, List.map_nil, List.sum_cons, List.sum_nil]
    split <;> omega

@[simp] theorem length_slots (available gap : Int) (count : Nat) :
    (slots available gap count).length = count := by
  simp [slots]

/-- What child `i` of `count` may take of an extent. -/
def share (available gap : Int) (count i : Nat) : Int :=
  let left := max 0 (available - gap * (count - 1))
  left / count + if i < left % count then 1 else 0

theorem getElem?_slots {available gap : Int} {count i : Nat} (capped : available ≤ pixelCap)
    (positive : 0 ≤ gap) (h : i < count) :
    (slots available gap count)[i]? = some (share available gap count i) := by
  have gaps : 0 ≤ gap * (count - 1 : Int) := Int.mul_nonneg positive (by omega)
  simp [slots, share, h, clampPixels_of_le (show available - gap * (count - 1) ≤ pixelCap by omega)]

theorem slots_nonneg {available gap : Int} {count : Nat} :
    ∀ slot ∈ slots available gap count, 0 ≤ slot := by
  intro slot among
  obtain ⟨i, -, rfl⟩ := List.mem_map.1 among
  have quotient := Int.ediv_nonneg (clampPixels_nonneg (available - gap * (count - 1)))
    (Int.natCast_nonneg count)
  split <;> omega

/-- The shares are together what the gaps leave. -/
theorem sum_slots {available gap : Int} {count : Nat} (positive : 0 < count) :
    (slots available gap count).sum = clampPixels (available - gap * (count - 1)) := by
  have divisor : (0 : Int) < count := Int.natCast_pos.2 positive
  have remainder := Int.emod_lt_of_pos (clampPixels (available - gap * (count - 1))) divisor
  have nonneg := Int.emod_nonneg (clampPixels (available - gap * (count - 1)))
    (Int.ne_of_gt divisor)
  rw [slots]
  rw [sum_shares _ _ nonneg, Int.min_eq_right (Int.le_of_lt remainder), Int.mul_comm]
  exact Int.mul_ediv_add_emod ..

/-- A share is at most the whole extent. -/
theorem share_inRange {available gap : Int} {count i : Nat} (nonneg : 0 ≤ available)
    (capped : available ≤ pixelCap) (positive : 0 ≤ gap) (h : i < count) :
    0 ≤ share available gap count i ∧ share available gap count i ≤ available := by
  have among := List.mem_of_getElem? (getElem?_slots capped positive h)
  have gaps : 0 ≤ gap * (count - 1 : Int) := Int.mul_nonneg positive (by omega)
  refine ⟨slots_nonneg _ among, Int.le_trans (List.single_le_sum slots_nonneg _ among) ?_⟩
  rw [sum_slots (Nat.lt_of_le_of_lt (Nat.zero_le i) h)]
  exact clampPixels_le nonneg (by omega)

/-! ## Axes -/

namespace Axis

@[simp] theorem main_size (axis : Axis) (m c : Int) : axis.main (axis.size m c) = m := by
  cases axis <;> rfl

@[simp] theorem cross_size (axis : Axis) (m c : Int) : axis.cross (axis.size m c) = c := by
  cases axis <;> rfl

theorem move_eq (axis : Axis) (b : Box) (distance : Int) :
    axis.move b distance
      = b.moved (axis.size distance 0).width (axis.size distance 0).height := by
  cases axis <;> rfl

/-- The extents of some boxes along an axis. -/
def mains (axis : Axis) (boxes : List Box) : List Int :=
  boxes.map fun b => axis.main b.size

theorem mains_eq_map (axis : Axis) (boxes : List Box) :
    axis.mains boxes = (boxes.map Box.size).map axis.main := by
  rw [List.map_map]
  rfl

@[simp] theorem mains_cons (axis : Axis) (b : Box) (rest : List Box) :
    axis.mains (b :: rest) = axis.main b.size :: axis.mains rest := rfl

@[simp] theorem length_mains (axis : Axis) (boxes : List Box) :
    (axis.mains boxes).length = boxes.length :=
  List.length_map ..

/-- The extents of some boxes across an axis. -/
def crosses (axis : Axis) (boxes : List Box) : List Int :=
  boxes.map fun b => axis.cross b.size

theorem crosses_eq_map (axis : Axis) (boxes : List Box) :
    axis.crosses boxes = (boxes.map Box.size).map axis.cross := by
  rw [List.map_map]
  rfl

end Axis

/-! ## Places -/

/-- How far some extents go with a gap behind each of them. -/
def spaced (gap : Int) (extents : List Int) : Int :=
  (extents.map (· + gap)).sum

@[simp] theorem spaced_nil (gap : Int) : spaced gap [] = 0 := rfl

@[simp] theorem spaced_cons (gap n : Int) (rest : List Int) :
    spaced gap (n :: rest) = n + gap + spaced gap rest := rfl

theorem spaced_eq_sum (gap : Int) (extents : List Int) :
    spaced gap extents = extents.sum + gap * extents.length := by
  induction extents with
  | nil => simp
  | cons n rest ih =>
    rw [spaced_cons, ih, List.sum_cons, List.length_cons, Int.natCast_add, Int.mul_add]
    omega

theorem spaced_nonneg {gap : Int} (positive : 0 ≤ gap) {extents : List Int}
    (nonneg : ∀ n ∈ extents, 0 ≤ n) : 0 ≤ spaced gap extents := by
  rw [spaced_eq_sum]
  exact Int.add_nonneg (List.sum_nonneg nonneg) (Int.mul_nonneg positive (Int.natCast_nonneg _))

/-- An extent behind the ones before it does not go beyond all of them with the gaps between. -/
theorem spaced_take_add_le {gap : Int} (positive : 0 ≤ gap) {extents : List Int}
    (nonneg : ∀ n ∈ extents, 0 ≤ n) {i : Nat} {n : Int} (there : extents[i]? = some n) :
    spaced gap (extents.take i) + n ≤ extents.sum + gap * (extents.length - 1) := by
  have before := (List.getElem?_eq_some_iff.1 there).1
  have upTo := (List.take_sublist (i + 1) extents).sum_le_sum nonneg
  rw [List.take_add_one, there, List.sum_append] at upTo
  have gaps : gap * i ≤ gap * (extents.length - 1 : Int) :=
    Int.mul_le_mul_of_nonneg_left (by omega) positive
  rw [spaced_eq_sum, List.length_take_of_le (Nat.le_of_lt before)]
  simp only [Option.toList_some, List.sum_cons, List.sum_nil] at upTo
  omega

/-- A last box is placed as any other, since only the cursor behind it is different. -/
theorem placeAlong_cons (axis : Axis) (gap cursor : Int) (b : Box) (rest : List Box) :
    (placeAlong axis gap cursor (b :: rest)).1
      = axis.move b (clampPixels cursor)
        :: (placeAlong axis gap (cursor + axis.main b.size + gap) rest).1 := by
  cases rest <;> rfl

theorem getElem?_placeAlong (axis : Axis) (gap cursor : Int) (boxes : List Box) (i : Nat) :
    (placeAlong axis gap cursor boxes).1[i]?
      = boxes[i]?.map fun b =>
          axis.move b (clampPixels (cursor + spaced gap ((axis.mains boxes).take i))) := by
  induction boxes generalizing cursor i with
  | nil => rfl
  | cons b rest ih =>
    rw [placeAlong_cons]
    cases i with
    | zero => simp
    | succ i =>
      rw [List.getElem?_cons_succ, ih, List.getElem?_cons_succ]
      simp only [Axis.mains_cons, List.take_succ_cons, spaced_cons, Int.add_assoc]

/-- The cursor goes by all boxes and by the gaps between them. -/
theorem placeAlong_end (axis : Axis) (gap cursor : Int) {boxes : List Box}
    (notEmpty : boxes ≠ []) :
    (placeAlong axis gap cursor boxes).2
      = cursor + ((axis.mains boxes).sum + gap * (boxes.length - 1)) := by
  have ends : (placeAlong axis gap cursor boxes).2
      = cursor + spaced gap (axis.mains boxes) - gap := by
    induction boxes generalizing cursor with
    | nil => exact absurd rfl notEmpty
    | cons b rest ih =>
      cases rest with
      | nil =>
        simp [placeAlong, Axis.mains]
        omega
      | cons b' rest =>
        have further := ih (cursor + axis.main b.size + gap) (List.cons_ne_nil _ _)
        simp only [placeAlong, Axis.mains_cons, spaced_cons] at further ⊢
        omega
  rw [ends, spaced_eq_sum, Axis.length_mains, Int.mul_sub, Int.mul_one]
  omega

/-! ## Constraints -/

/-- A constraint as a whole tree of content may get it. -/
structure Size.InRange (s : Size) : Prop where
  width_nonneg : 0 ≤ s.width
  width_le : s.width ≤ pixelCap
  height_nonneg : 0 ≤ s.height
  height_le : s.height ≤ pixelCap

theorem Size.InRange.main {s : Size} (h : s.InRange) (axis : Axis) :
    0 ≤ axis.main s ∧ axis.main s ≤ pixelCap := by
  cases axis with
  | horizontal => exact ⟨h.width_nonneg, h.width_le⟩
  | vertical => exact ⟨h.height_nonneg, h.height_le⟩

theorem Size.InRange.cross {s : Size} (h : s.InRange) (axis : Axis) :
    0 ≤ axis.cross s ∧ axis.cross s ≤ pixelCap := by
  cases axis with
  | horizontal => exact ⟨h.height_nonneg, h.height_le⟩
  | vertical => exact ⟨h.width_nonneg, h.width_le⟩

/-- The box is not larger than a constraint. -/
structure Box.Within (b : Box) (most : Size) : Prop where
  width_nonneg : 0 ≤ b.frame.width
  width_le : b.frame.width ≤ most.width
  height_nonneg : 0 ≤ b.frame.height
  height_le : b.frame.height ≤ most.height

theorem Box.Within.main {b : Box} {most : Size} (h : b.Within most) (axis : Axis) :
    0 ≤ axis.main b.size ∧ axis.main b.size ≤ axis.main most := by
  cases axis with
  | horizontal => exact ⟨h.width_nonneg, h.width_le⟩
  | vertical => exact ⟨h.height_nonneg, h.height_le⟩

theorem Box.Within.cross {b : Box} {most : Size} (h : b.Within most) (axis : Axis) :
    0 ≤ axis.cross b.size ∧ axis.cross b.size ≤ axis.cross most := by
  cases axis with
  | horizontal => exact ⟨h.height_nonneg, h.height_le⟩
  | vertical => exact ⟨h.width_nonneg, h.width_le⟩

/-- The largest of some extents that are not negative. -/
def largest (extents : List Int) : Int :=
  extents.foldl max 0

theorem le_foldl_max (extents : List Int) (n : Int) : n ≤ extents.foldl max n := by
  induction extents generalizing n with
  | nil => exact Int.le_refl n
  | cons m rest ih => exact Int.le_trans (Int.le_max_left n m) (ih (max n m))

theorem le_foldl_max_of_mem {extents : List Int} {n m : Int} (h : m ∈ extents) :
    m ≤ extents.foldl max n := by
  induction extents generalizing n with
  | nil => cases h
  | cons k rest ih =>
    cases h with
    | head => exact Int.le_trans (Int.le_max_right n m) (le_foldl_max rest _)
    | tail _ there => exact ih there

theorem foldl_max_le {extents : List Int} {n most : Int} (first : n ≤ most)
    (others : ∀ m ∈ extents, m ≤ most) : extents.foldl max n ≤ most := by
  induction extents generalizing n with
  | nil => exact first
  | cons m rest ih =>
    exact ih (Int.max_le.2 ⟨first, others m (List.mem_cons_self ..)⟩)
      fun k h => others k (List.mem_cons_of_mem _ h)

/-- A box is not larger than its constraint, whatever the content is. -/
theorem arrange_within (c : LayoutContext) (e : Element) {most : Size} (width : 0 ≤ most.width)
    (height : 0 ≤ most.height) : (arrange c e most).box.Within most := by
  cases e with
  | hole => exact ⟨Int.le_refl 0, width, Int.le_refl 0, height⟩
  | text a value =>
    have needed : ∀ n m : Int, 0 ≤ m → 0 ≤ min (max 0 n) m ∧ min (max 0 n) m ≤ m := by omega
    exact ⟨(needed _ _ width).1, (needed _ _ width).2, (needed _ _ height).1,
      (needed _ _ height).2⟩
  | centre a child => exact ⟨width, Int.le_refl _, height, Int.le_refl _⟩
  | padding a child =>
    exact ⟨clampPixels_nonneg _, clampPixels_le width (Int.min_le_left ..), clampPixels_nonneg _,
      clampPixels_le height (Int.min_le_left ..)⟩
  | stack a axis children =>
    cases axis with
    | horizontal =>
      exact ⟨clampPixels_nonneg _, clampPixels_le width (Int.min_le_right ..),
        Int.le_min.2 ⟨le_foldl_max .., height⟩, Int.min_le_right ..⟩
    | vertical =>
      exact ⟨Int.le_min.2 ⟨le_foldl_max .., width⟩, Int.min_le_right ..,
        clampPixels_nonneg _, clampPixels_le height (Int.min_le_right ..)⟩

end SlideDeck
