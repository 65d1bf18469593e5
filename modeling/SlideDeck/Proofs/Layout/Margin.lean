import SlideDeck.Cascade.Resolved
import SlideDeck.Proofs.RoundTrip.Properties
import SlideDeck.Proofs.Syntax.Document

/-! # Margins of slides

The margin of a slide that was read is not negative (`SlideTokens.margin`).

* `PropertyMap.NoNegative`: no number in a map is below zero.  This holds of the
  defaults, of every block of the grammar, and of what these are merged into.
* `PropertyMap.NoNegative.pixelsOr`: no key of such a map stands for fewer than
  no pixels.

The grammar has the negative zero, since that is not below zero, and it has to
stand for no pixels as the other zero does. -/

namespace SlideDeck

open Syntax

/-! ## Pixels -/

theorem Binary64.wholePixels_nonneg {v : Binary64} (h : ¬ v.isNegative) : 0 ≤ v.wholePixels := by
  cases v with
  | nan => decide
  | infinite negative =>
    cases negative with
    | false => decide
    | true => exact absurd rfl h
  | finite negative rank =>
    refine Int.le_min.2 ⟨Int.ediv_nonneg ?_ (Int.natCast_nonneg _), by decide⟩
    cases negative with
    | false => exact Int.natCast_nonneg _
    | true =>
      -- Of the numbers with a minus sign only zero is not below zero.
      have zero : rank.val = 0 := by simpa [isNegative] using h
      rw [zero]
      decide

theorem Binary64.wholePixels_le (v : Binary64) : v.wholePixels ≤ pixelCap := by
  unfold wholePixels
  split
  · exact Int.le_refl _
  · exact Int.min_le_right ..

/-! ## Property maps -/

namespace PropertyMap

/-- No number in the map is below zero. -/
def NoNegative (m : PropertyMap) : Prop :=
  ∀ e ∈ m.entries, ∀ v, e.2 = .number v → ¬ v.isNegative

theorem NoNegative.insertAll {m : PropertyMap} {entries : List (Bytes × PropertyValue)}
    (base : m.NoNegative) (added : ∀ e ∈ entries, ∀ v, e.2 = .number v → ¬ v.isNegative) :
    (m.insertAll entries).NoNegative := by
  intro e among
  rcases mem_insertAll among with there | there
  · exact base e there
  · exact added e there

/-- Where no number is below zero, no key stands for fewer than no pixels. -/
theorem NoNegative.pixelsOr {m : PropertyMap} (h : m.NoNegative) (key : Property) :
    0 ≤ m.pixelsOr key 0 ∧ m.pixelsOr key 0 ≤ pixelCap := by
  rw [PropertyMap.pixelsOr]
  cases value : m.number? key.key with
  | none => decide
  | some v =>
    rw [number?] at value
    split at value
    · next w there =>
      cases value
      exact ⟨Binary64.wholePixels_nonneg (h _ (mem_of_lookupEntry there) v rfl),
        Binary64.wholePixels_le v⟩
    · cases value

end PropertyMap

/-! ## Slides -/

theorem noNegative_defaults (v : Viewport) : (defaultProperties v).NoNegative := by
  have natural : ∀ n : Nat, ¬ (Binary64.ofNat n).isNegative := by
    intro n
    rw [Binary64.ofNat, Binary64.ofQuotient, Binary64.ofUnits]
    split <;> exact Bool.false_ne_true
  have zero : ¬ Binary64.zero.isNegative := by decide
  refine PropertyMap.NoNegative.insertAll nofun ?_
  simp [natural, zero, defaultTextSize]

/-- A block of the grammar sets nothing to a number below zero. -/
theorem noNegative_of_settable {inline : Option Kind} {m : PropertyMap}
    (settable : ∀ e ∈ m.entries, Settable inline e) : m.NoNegative := by
  intro e among v isNumber
  obtain ⟨p, l, -, value, -⟩ := settable e among
  rw [isNumber] at value
  cases value with
  | number _ notNegative _ => exact notNegative

/-- The slide's own properties are those of its blocks, over the defaults. -/
theorem Slide.noNegative_ownStyle {s : Slide} {defaults : PropertyMap}
    (base : defaults.NoNegative) (blocks : ∀ b ∈ s.styles, b.properties.NoNegative) :
    (s.ownStyle defaults).NoNegative := by
  have merged : (PropertyMap.merge ∅ defaults).NoNegative :=
    PropertyMap.NoNegative.insertAll nofun base
  rw [ownStyle, layer?]
  cases found : s.findStyle? slideWord with
  | none => exact merged
  | some b => exact merged.insertAll (blocks b (List.mem_of_find?_eq_some found))

/-- The margin of a slide that was read is a number of pixels. -/
theorem Syntax.SlideTokens.margin {ts : List Token} {s : Slide} (h : SlideTokens ts s)
    (v : Viewport) : 0 ≤ (s.resolved v).margin ∧ (s.resolved v).margin ≤ pixelCap := by
  have present := h.not_hole
  cases h with
  | @mk body content styles first last isItems distinct distinctNames free shallow numbered =>
    have own := Slide.noNegative_ownStyle (s := ⟨content, styles, first, content.flatten.length⟩)
      (noNegative_defaults v) fun b among => noNegative_of_settable (isItems.settable b among)
    simp only [Slide.resolved, present, Bool.false_eq_true, if_false]
    exact own.pixelsOr .margin

end SlideDeck
