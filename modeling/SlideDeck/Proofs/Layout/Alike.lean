import Mathlib.Data.List.Forall2
import SlideDeck.Proofs.Layout.Absolute

/-! # Layouts side by side

Two layouts of the same content are compared frame by frame.

* `Box.Alike` lifts a relation of frames to trees of one shape.
* `Box.Alike.absolute` and `Box.Alike.placeAlong`: trees stay alike where their
  boxes are moved, by the second pass and along a stack.

Whether frames stay related when they are moved depends on how far each of them
is, and in the second pass that is the place of a frame above.  A relation of
frames therefore comes with one of distances that the places of related frames
are in (`Frame.Movable`). -/

namespace SlideDeck

/-- A frame without its place and its size. -/
def Frame.label (f : Frame) : Frame :=
  { f with x := 0, y := 0, width := 0, height := 0 }

/-- Trees of one shape in which a relation holds of the frames at each place. -/
inductive Box.Alike (R : Frame → Frame → Prop) : Box → Box → Prop
  | mk {f g : Frame} {cs ds : List Box} :
      R f g → List.Forall₂ (Box.Alike R) cs ds → Box.Alike R (.mk f cs) (.mk g ds)

/-- Frames stay related when they are moved by related distances, and their places are such
distances. -/
structure Frame.Movable (R : Frame → Frame → Prop) (M : Size → Size → Prop) : Prop where
  moved {f g : Frame} {dx dy dx' dy' : Int} :
    R f g → M ⟨dx, dy⟩ ⟨dx', dy'⟩ → R (f.moved dx dy) (g.moved dx' dy')
  place {f g : Frame} : R f g → M ⟨f.x, f.y⟩ ⟨g.x, g.y⟩

namespace Box.Alike

variable {R : Frame → Frame → Prop} {M : Size → Size → Prop} {b c : Box} {dx dy dx' dy' : Int}

theorem frame (h : Alike R b c) : R b.frame c.frame := by
  cases h with
  | mk frames _ => exact frames

theorem moved (h : Alike R b c) (movable : Frame.Movable R M)
    (distances : M ⟨dx, dy⟩ ⟨dx', dy'⟩) : Alike R (b.moved dx dy) (c.moved dx' dy') := by
  cases h with
  | mk frames children => exact .mk (movable.moved frames distances) children

mutual

theorem absolute {b c : Box} {dx dy dx' dy' : Int} (h : Alike R b c)
    (movable : Frame.Movable R M) (distances : M ⟨dx, dy⟩ ⟨dx', dy'⟩) :
    Alike R (b.absolute dx dy) (c.absolute dx' dy') := by
  cases h with
  | mk frames children =>
    have moved := movable.moved frames distances
    exact .mk moved (absoluteAll children movable (movable.place moved))
termination_by sizeOf b

theorem absoluteAll {bs cs : List Box} {dx dy dx' dy' : Int} (h : List.Forall₂ (Alike R) bs cs)
    (movable : Frame.Movable R M) (distances : M ⟨dx, dy⟩ ⟨dx', dy'⟩) :
    List.Forall₂ (Alike R) (Box.absoluteAll dx dy bs) (Box.absoluteAll dx' dy' cs) := by
  cases h with
  | nil => exact .nil
  | cons first rest =>
    exact .cons (first.absolute movable distances) (absoluteAll rest movable distances)
termination_by sizeOf bs

end

/-- Boxes along an axis stay alike if each of them is moved by a distance related to that of the
other. -/
theorem placeAlong {axis : Axis} {gap cursor cursor' : Int} {bs cs : List Box}
    (h : List.Forall₂ (Alike R) bs cs) (movable : Frame.Movable R M)
    (places : ∀ i, M
      (axis.size (clampPixels (cursor + spaced gap ((axis.mains bs).take i))) 0)
      (axis.size (clampPixels (cursor' + spaced gap ((axis.mains cs).take i))) 0)) :
    List.Forall₂ (Alike R) (SlideDeck.placeAlong axis gap cursor bs).1
      (SlideDeck.placeAlong axis gap cursor' cs).1 := by
  induction h generalizing cursor cursor' with
  | nil => exact .nil
  | @cons b c bs cs first _ ih =>
    have here := places 0
    have others : ∀ i, M
        (axis.size (clampPixels (cursor + axis.main b.size + gap
          + spaced gap ((axis.mains bs).take i))) 0)
        (axis.size (clampPixels (cursor' + axis.main c.size + gap
          + spaced gap ((axis.mains cs).take i))) 0) := by
      intro i
      simpa [Int.add_assoc] using places (i + 1)
    simp only [List.take_zero, spaced_nil, Int.add_zero] at here
    rw [placeAlong_cons, placeAlong_cons, Axis.move_eq, Axis.move_eq]
    exact .cons (first.moved movable here) (ih others)

end Box.Alike

end SlideDeck
