import Mathlib.Data.List.Forall2
import SlideDeck.Proofs.Binary64.Rounding
import SlideDeck.Proofs.Relocation.Document
import SlideDeck.Proofs.RoundTrip.Numbers

/-! # Equality as an equivalence

Equality without regard to positions is symmetric and transitive, slides in
which every number is one equal themselves, and the positions have no say.

* `sameEntries_iff`, `StyleBlock.sameAll_iff` and `Element.sameAll_iff`: the
  comparisons of lists relate them place by place.
* `same_text`, `same_stack` and their like say what equals content of a kind,
  holes included.
* `Slide.same_of_unplaced`: slides without their positions decide.

Numbers are equal for one of two reasons: they are identical, or both are zero.
A function respects their equality as soon as it agrees on the two zeros
(`ZeroBlind.eq_of_same`). -/

namespace SlideDeck

/-- Lists that are related place by place to one list between them are so to each other. -/
theorem forall₂_trans {α : Type} {R : α → α → Prop}
    (trans : ∀ a b c, R a b → R b c → R a c) {as bs cs : List α} (h : List.Forall₂ R as bs)
    (h' : List.Forall₂ R bs cs) : List.Forall₂ R as cs := by
  induction h generalizing cs with
  | nil => exact h'
  | cons first _ ih =>
    cases h' with
    | cons first' rest' => exact .cons (trans _ _ _ first first') (ih rest')

/-! ## Numbers -/

namespace Binary64

theorem rankLimit_pos : 0 < rankLimit := by
  decide

/-- One of the two zeros. -/
def signedZero (negative : Bool) : Binary64 :=
  finite negative ⟨0, rankLimit_pos⟩

theorem units?_signedZero (negative : Bool) : (signedZero negative).units? = some 0 := by
  rw [signedZero, units?, unitsOfRank_zero]
  cases negative <;> rfl

/-- A function of numbers that does not tell the two zeros apart. -/
def ZeroBlind {α : Type} (f : Binary64 → α) : Prop :=
  f (signedZero true) = f (signedZero false)

theorem ZeroBlind.eq_of_same {α : Type} {f : Binary64 → α} (blind : ZeroBlind f)
    {v w : Binary64} (h : v.same w) : f v = f w := by
  cases v <;> cases w
  case finite.finite s j t k =>
    obtain ⟨rfl, rfl | zero⟩ := same_finite h
    · rfl
    · obtain rfl : j = ⟨0, rankLimit_pos⟩ := Fin.ext zero
      cases s <;> cases t
      case false.true => exact blind.symm
      case true.false => exact blind
      all_goals rfl
  case infinite.infinite s t =>
    have signs : s = t := by simpa [same] using h
    rw [signs]
  all_goals cases h

theorem same_symm {v w : Binary64} (h : v.same w) : w.same v := by
  cases v <;> cases w
  case finite.finite s j t k =>
    obtain ⟨rfl, signs⟩ := same_finite h
    simpa [same] using signs.imp_left Eq.symm
  case infinite.infinite s t =>
    have signs : s = t := by simpa [same] using h
    simp [same, signs]
  all_goals cases h

theorem same_comm (v w : Binary64) : v.same w = w.same v :=
  Bool.eq_iff_iff.2 ⟨same_symm, same_symm⟩

theorem same_trans {u v w : Binary64} (h : u.same v) (h' : v.same w) : u.same w := by
  have blind : ZeroBlind fun v => v.same w := by
    cases w <;> simp [ZeroBlind, signedZero, same]
  exact (blind.eq_of_same h).trans h'

/-- Only what is not a number does not equal itself. -/
theorem same_self_iff {v : Binary64} : v.same v ↔ v ≠ .nan := by
  cases v <;> simp [same]

end Binary64

/-! ## Properties -/

namespace PropertyValue

theorem same_comm (v w : PropertyValue) : v.same w = w.same v := by
  cases v <;> cases w
  case number.number v w => exact Binary64.same_comm v w
  case colour.colour c d => exact BEq.comm
  all_goals rfl

theorem same_trans {u v w : PropertyValue} (h : u.same v) (h' : v.same w) : u.same w := by
  cases u <;> cases v <;> cases w
  case number.number.number => exact Binary64.same_trans h h'
  case colour.colour.colour c d e =>
    have colours : c = d := by simpa [same] using h
    exact colours ▸ h'
  all_goals first | cases h | cases h'

end PropertyValue

namespace PropertyMap

/-- Entries under one key with values that are equal. -/
def SameEntry (e f : Bytes × PropertyValue) : Prop :=
  e.1 = f.1 ∧ e.2.same f.2

theorem sameEntries_iff {es fs : List (Bytes × PropertyValue)} :
    sameEntries es fs ↔ List.Forall₂ SameEntry es fs := by
  induction es generalizing fs with
  | nil => cases fs <;> simp [sameEntries]
  | cons e es ih =>
    cases fs with
    | nil => simp [sameEntries]
    | cons f fs => rw [sameEntries_cons, List.forall₂_cons, ih, SameEntry, and_assoc]

theorem sameEntries_comm (es fs : List (Bytes × PropertyValue)) :
    sameEntries es fs = sameEntries fs es := by
  induction es generalizing fs with
  | nil => cases fs <;> rfl
  | cons e es ih =>
    cases fs with
    | nil => rfl
    | cons f fs => rw [sameEntries, sameEntries, ih, PropertyValue.same_comm, BEq.comm (a := e.1)]

theorem same_comm (m n : PropertyMap) : m.same n = n.same m :=
  sameEntries_comm ..

theorem same_trans {l m n : PropertyMap} (h : l.same m) (h' : m.same n) : l.same n := by
  apply sameEntries_iff.2
  apply forall₂_trans _ (sameEntries_iff.1 h) (sameEntries_iff.1 h')
  intro d e f first second
  exact ⟨first.1.trans second.1, PropertyValue.same_trans first.2 second.2⟩

end PropertyMap

/-! ## Content -/

namespace Element

theorem sameAttributes_comm (a b : Attributes) : sameAttributes a b = sameAttributes b a := by
  rw [sameAttributes, sameAttributes, PropertyMap.same_comm, BEq.comm (a := a.id),
    BEq.comm (a := a.name)]

theorem sameAttributes_trans {a b c : Attributes} (h : sameAttributes a b)
    (h' : sameAttributes b c) : sameAttributes a c := by
  obtain ⟨ids, names, params⟩ := sameAttributes_iff.1 h
  obtain ⟨ids', names', params'⟩ := sameAttributes_iff.1 h'
  exact sameAttributes_iff.2
    ⟨ids.trans ids', names.trans names', PropertyMap.same_trans params params'⟩

/-! What equals an element has its constructor. -/

section

variable {a : Attributes} {e f : Element}

theorem same_hole : hole.same f ↔ f = hole := by
  cases f <;> simp [same]

theorem same_text {value : Bytes} :
    (text a value).same f ↔ ∃ b, f = text b value ∧ sameAttributes a b := by
  cases f
  case text b w =>
    simp only [same, Bool.and_eq_true, beq_iff_eq, text.injEq]
    constructor
    · rintro ⟨attributes, rfl⟩
      exact ⟨b, ⟨rfl, rfl⟩, attributes⟩
    · rintro ⟨b, ⟨rfl, rfl⟩, attributes⟩
      exact ⟨attributes, rfl⟩
  all_goals simp [same]

theorem same_centre :
    (centre a e).same f ↔ ∃ b g, f = centre b g ∧ sameAttributes a b ∧ e.same g := by
  cases f <;> simp [same]

theorem same_padding :
    (padding a e).same f ↔ ∃ b g, f = padding b g ∧ sameAttributes a b ∧ e.same g := by
  cases f <;> simp [same]

theorem same_stack {axis : Axis} {es : List Element} :
    (stack a axis es).same f ↔
      ∃ b fs, f = stack b axis fs ∧ sameAttributes a b ∧ sameAll es fs := by
  cases f
  case stack b other fs =>
    simp only [same, Bool.and_eq_true, beq_iff_eq, stack.injEq]
    constructor
    · rintro ⟨⟨attributes, rfl⟩, below⟩
      exact ⟨b, fs, ⟨rfl, rfl, rfl⟩, attributes, below⟩
    · rintro ⟨b, fs, ⟨rfl, rfl, rfl⟩, attributes, below⟩
      exact ⟨⟨attributes, rfl⟩, below⟩
  all_goals simp [same]

end

theorem sameAll_iff {es fs : List Element} :
    sameAll es fs ↔ List.Forall₂ (fun e f => e.same f) es fs := by
  induction es generalizing fs with
  | nil => cases fs <;> simp [sameAll]
  | cons e es ih => cases fs <;> simp [sameAll, ih]

mutual

theorem same_comm (e f : Element) : e.same f = f.same e := by
  cases e <;> cases f
  case text.text a v b w => rw [same, same, sameAttributes_comm, BEq.comm (a := v)]
  case centre.centre a c b d => rw [same, same, sameAttributes_comm, same_comm c d]
  case padding.padding a c b d => rw [same, same, sameAttributes_comm, same_comm c d]
  case stack.stack a x cs b y ds =>
    rw [same, same, sameAttributes_comm, BEq.comm (a := x), sameAll_comm cs ds]
  all_goals rfl

theorem sameAll_comm (es fs : List Element) : sameAll es fs = sameAll fs es := by
  cases es <;> cases fs
  case cons.cons c cs d ds => rw [sameAll, sameAll, same_comm c d, sameAll_comm cs ds]
  all_goals rfl

end

mutual

theorem same_trans {e f g : Element} (h : e.same f) (h' : f.same g) : e.same g := by
  cases e with
  | hole =>
    obtain rfl := same_hole.1 h
    exact h'
  | text a value =>
    obtain ⟨b, rfl, attributes⟩ := same_text.1 h
    obtain ⟨c, rfl, attributes'⟩ := same_text.1 h'
    exact same_text.2 ⟨c, rfl, sameAttributes_trans attributes attributes'⟩
  | centre a child =>
    obtain ⟨b, second, rfl, attributes, below⟩ := same_centre.1 h
    obtain ⟨c, third, rfl, attributes', below'⟩ := same_centre.1 h'
    exact same_centre.2
      ⟨c, third, rfl, sameAttributes_trans attributes attributes', same_trans below below'⟩
  | padding a child =>
    obtain ⟨b, second, rfl, attributes, below⟩ := same_padding.1 h
    obtain ⟨c, third, rfl, attributes', below'⟩ := same_padding.1 h'
    exact same_padding.2
      ⟨c, third, rfl, sameAttributes_trans attributes attributes', same_trans below below'⟩
  | stack a axis children =>
    obtain ⟨b, second, rfl, attributes, below⟩ := same_stack.1 h
    obtain ⟨c, third, rfl, attributes', below'⟩ := same_stack.1 h'
    exact same_stack.2
      ⟨c, third, rfl, sameAttributes_trans attributes attributes', sameAll_trans below below'⟩

theorem sameAll_trans {es fs gs : List Element} (h : sameAll es fs) (h' : sameAll fs gs) :
    sameAll es gs := by
  cases es with
  | nil =>
    cases fs with
    | nil => exact h'
    | cons => cases h
  | cons c cs =>
    cases fs with
    | nil => cases h
    | cons d ds =>
      cases gs with
      | nil => cases h'
      | cons e es =>
        simp only [sameAll, Bool.and_eq_true] at h h' ⊢
        exact ⟨same_trans h.1 h'.1, sameAll_trans h.2 h'.2⟩

end

end Element

/-! ## Slides -/

namespace StyleBlock

theorem same_comm (a b : StyleBlock) : a.same b = b.same a := by
  rw [same, same, BEq.comm (a := a.target), PropertyMap.same_comm]

theorem same_trans {a b c : StyleBlock} (h : a.same b) (h' : b.same c) : a.same c := by
  obtain ⟨targets, properties⟩ := same_iff.1 h
  obtain ⟨targets', properties'⟩ := same_iff.1 h'
  exact same_iff.2 ⟨targets.trans targets', PropertyMap.same_trans properties properties'⟩

theorem sameAll_iff {as bs : List StyleBlock} :
    sameAll as bs ↔ List.Forall₂ (fun a b => a.same b) as bs := by
  induction as generalizing bs with
  | nil => cases bs <;> simp [sameAll]
  | cons a as ih => cases bs <;> simp [sameAll, ih]

theorem sameAll_comm (as bs : List StyleBlock) : sameAll as bs = sameAll bs as := by
  induction as generalizing bs with
  | nil => cases bs <;> rfl
  | cons a as ih =>
    cases bs with
    | nil => rfl
    | cons b bs => rw [sameAll, sameAll, same_comm, ih]

theorem sameAll_trans {as bs cs : List StyleBlock} (h : sameAll as bs) (h' : sameAll bs cs) :
    sameAll as cs := by
  apply sameAll_iff.2
  apply forall₂_trans _ (sameAll_iff.1 h) (sameAll_iff.1 h')
  exact fun _ _ _ first second => same_trans first second

end StyleBlock

namespace Slide

open Syntax

theorem same_comm (a b : Slide) : a.same b = b.same a := by
  rw [same, same, BEq.comm (a := a.nodeCount), StyleBlock.sameAll_comm, Element.same_comm]

theorem same_trans {a b c : Slide} (h : a.same b) (h' : b.same c) : a.same c := by
  obtain ⟨counts, styles, content⟩ := same_iff.1 h
  obtain ⟨counts', styles', content'⟩ := same_iff.1 h'
  exact same_iff.2 ⟨counts.trans counts', StyleBlock.sameAll_trans styles styles',
    Element.same_trans content content'⟩

/-- A slide equals itself where each of its numbers is one. -/
theorem same_self_of_numbers {s : Slide} (numbers : ∀ v ∈ slideNumbers s, v ≠ .nan) : s.same s :=
  same_self fun v among => Binary64.same_self_iff.2 (numbers v among)

/-- A slide of which nothing is known about where it and its parts begin. -/
def unplaced (s : Slide) : Slide :=
  s.relocate fun _ => {}

/-- Equality of slides is that of what is left of them without their positions. -/
theorem same_of_unplaced {a b a' b' : Slide} (first : a.unplaced = a'.unplaced)
    (second : b.unplaced = b'.unplaced) : a.same b = a'.same b' :=
  calc a.same b = a.unplaced.same b.unplaced := (same_relocate a b).symm
    _ = a'.unplaced.same b'.unplaced := by rw [first, second]
    _ = a'.same b' := same_relocate a' b'

end Slide

end SlideDeck
