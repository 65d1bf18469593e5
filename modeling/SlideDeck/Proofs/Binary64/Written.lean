import SlideDeck.Proofs.Binary64.Shortest
import SlideDeck.Proofs.Lexical.Grammar
import SlideDeck.Proofs.Text.Decimal

/-! # Written numbers

What the text of a number is, as a decimal and as bytes.

* `Decimal.text_parts`: a decimal's text is a spelling of that decimal.
* `toDecimal_of_isShort`: a number is written as a decimal that is read as it,
  if there is one of at most 62 places.
* `toDecimal_of_not_isShort`: any other number is written as zero.

How many places there can be is a matter of room.  A number below one has a
single digit before its point, so there is room for exactly 62 places behind it.
Above one there may be up to sixteen digits before it, but then sixteen places
are always enough, and a number too large for any digit behind its point is
whole. -/

namespace SlideDeck

open Bytes Lexical

/-! ## The layout of a decimal -/

namespace Decimal

/-- The text of a decimal is its whole part and a fraction that, read together, are the decimal. -/
theorem text_parts (d : Decimal) : ∃ fraction tail,
    d.text = minus d.negative ++ decimal (d.digits / d.denominator) ++ tail ∧
      Fraction fraction tail ∧
      Binary64.literal d.negative (decimal (d.digits / d.denominator)) fraction = d ∧
      tail.length = if d.places = 0 then 0 else d.places + 1 := by
  obtain ⟨negative, digits, places⟩ := d
  have sign : (if negative then ascii "-" else []) = minus negative := rfl
  by_cases whole : places = 0
  · subst whole
    refine ⟨[], [], ?_, .absent, ?_, rfl⟩
    · simp only [text, sign, if_true]
    · simp [Binary64.literal, denominator, value_decimal]
  · have positive := Nat.pos_of_ne_zero whole
    have fits : digits % Nat.pow 10 places < 10 ^ places :=
      Nat.mod_lt _ (Binary64.ten_pow_pos places)
    obtain ⟨length, digit, value⟩ := padded_decimal positive fits
    refine ⟨_, _, ?_, .present ⟨List.ne_nil_of_length_pos ?_, digit⟩, ?_, ?_⟩
    · simp only [text, sign, if_neg whole, List.append_assoc]
      rfl
    · rw [length]
      exact positive
    · rw [Binary64.literal, value_append, value_decimal, value, length]
      exact congrArg (Decimal.mk negative · places) (Nat.div_add_mod' digits (10 ^ places))
    · rw [List.length_cons, length, if_neg whole]

theorem length_text (d : Decimal) : d.text.length =
    (minus d.negative).length + (decimal (d.digits / d.denominator)).length
      + if d.places = 0 then 0 else d.places + 1 := by
  obtain ⟨fraction, tail, text, -, -, length⟩ := d.text_parts
  rw [text, List.length_append, List.length_append, length]

/-- The text of a decimal is a spelling of the number that the decimal is read as. -/
theorem spelled_text {d : Decimal} {w : Binary64} (read : Binary64.ofDecimal? d = some w) :
    Spelled (.number d.text w) d.text := by
  obtain ⟨fraction, tail, text, isFraction, literal, -⟩ := d.text_parts
  rw [text]
  exact .number ⟨decimal_ne_nil _, isDigit_decimal _⟩ isFraction (by rw [literal, read])

end Decimal

namespace Binary64

/-! ## The decimal of a number -/

/-- A decimal of at most 62 places is read as the rank. -/
def IsShort (rank : Nat) : Prop :=
  ∃ digits places, places ≤ 62 ∧ rankOf digits places = rank

variable {rank : Nat}

/-- Seventeen digits are always enough. -/
theorem fine_of_le (places : Nat) (large : unitsPerOne ≤ unitsOfRank rank * 10 ^ places) :
    2 ^ 53 * unitsPerOne < unitsOfRank rank * Nat.pow 10 (places + 16) := by
  have positive := unitsPerOne_pos
  have split : unitsOfRank rank * Nat.pow 10 (places + 16)
      = 10 ^ 16 * (unitsOfRank rank * 10 ^ places) := by
    rw [Nat.pow_eq, Nat.pow_add]
    ring
  rw [split]
  omega

theorem isShort_of_le (large : unitsPerOne ≤ unitsOfRank rank * 10 ^ 46) : IsShort rank := by
  obtain ⟨digits, reads⟩ := exists_rankOf_of_fine (fine_of_le 46 large)
  exact ⟨digits, 62, Nat.le_refl _, reads⟩

/-! ### Whole numbers -/

/-- A whole number is exact with any number of places. -/
theorem units_of_whole (whole : unitsOfRank rank % unitsPerOne = 0) (scale : Nat) :
    unitsOfRank rank / unitsPerOne * scale * unitsPerOne = unitsOfRank rank * scale := by
  rw [Nat.mul_right_comm, Nat.div_mul_cancel (Nat.dvd_of_mod_eq_zero whole)]

theorem rankOf_whole {places : Nat} (whole : unitsOfRank rank % unitsPerOne = 0) :
    rankOf (unitsOfRank rank / unitsPerOne * Nat.pow 10 places) places = rank := by
  rw [rankOf, units_of_whole whole, nearestRank_units (ten_pow_pos places)]

theorem toDecimal_whole (whole : unitsOfRank rank % unitsPerOne = 0) :
    ∃ places, toDecimal false rank
      = ⟨false, unitsOfRank rank / unitsPerOne * Nat.pow 10 places, places⟩ := by
  have six : sixPlaces false rank
      = ⟨false, unitsOfRank rank / unitsPerOne * Nat.pow 10 6, 6⟩ := by
    rw [sixPlaces, ← units_of_whole whole, roundHalfEven_mul _ unitsPerOne_pos]
  rw [toDecimal, whole?, if_pos whole]
  simp only [Option.some_or, Bool.false_and]
  split
  · exact ⟨0, by simp⟩
  · exact ⟨6, six⟩

/-! ### Fractions -/

/-- A number with a fraction has no more than 53 bits before it. -/
theorem lt_of_fraction (fraction : unitsOfRank rank % unitsPerOne ≠ 0) :
    unitsOfRank rank < 2 ^ 53 * unitsPerOne := by
  obtain ⟨one, isPower⟩ : ∃ one, unitsPerOne = 2 ^ one := ⟨1074, by decide +kernel⟩
  obtain ⟨shift, m, rfl, inside, fits⟩ := exists_fits rank
  rw [unitsOfRank_of_fits fits, isPower] at fraction ⊢
  have small : shift ≤ one := by
    by_contra large
    have divides : 2 ^ one ∣ m * 2 ^ shift :=
      Nat.dvd_mul_left_of_dvd (Nat.pow_dvd_pow 2 (Nat.le_of_not_le large)) m
    exact fraction (Nat.mod_eq_zero_of_dvd divides)
  calc m * 2 ^ shift < 2 ^ 53 * 2 ^ shift := Nat.mul_lt_mul_of_pos_right inside (Nat.two_pow_pos _)
    _ ≤ 2 ^ 53 * 2 ^ one := Nat.mul_le_mul_left _ (Nat.pow_le_pow_right (by decide) small)

/-- The part before the point of a number's neighbour is at most what bounds the number. -/
theorem whole_le {places digits bound : Nat} (below : unitsOfRank rank < bound * unitsPerOne)
    (found : neighbour? rank places = some digits) : digits / Nat.pow 10 places ≤ bound := by
  have nearby := (neighbour?_found found).2
  have scaled : digitsBelow rank places < Nat.pow 10 places * bound := by
    rw [digitsBelow, Nat.div_lt_iff_lt_mul unitsPerOne_pos]
    calc unitsOfRank rank * Nat.pow 10 places < bound * unitsPerOne * Nat.pow 10 places :=
          Nat.mul_lt_mul_of_pos_right below (ten_pow_pos places)
      _ = Nat.pow 10 places * bound * unitsPerOne := by ring
  exact Nat.div_le_of_le_mul (by omega)

/-- A decimal of a number with a fraction fits into a written number with its point, if its places
and the digits of a bound of the number do. -/
theorem length_text_le {bound : Nat} {d : Decimal} (size : Nat) (positive : 0 < size)
    (below : unitsOfRank rank < bound * unitsPerOne) (digits : bound < 10 ^ size)
    (found : shortest? false rank = some d) (room : size + d.places < longestWritten) :
    d.text.length ≤ longestWritten := by
  obtain ⟨sign, -, hit⟩ := shortest?_found found
  have whole : (decimal (d.digits / d.denominator)).length ≤ size :=
    (length_decimal_le_iff positive).2 (Nat.lt_of_le_of_lt (whole_le below hit) digits)
  rw [Decimal.length_text, sign]
  simp only [minus, Bool.false_eq_true, if_false, List.length_nil]
  split <;> omega

/-- A number with a fraction is written as its shortest decimal. -/
theorem shortest?_toDecimal (fraction : unitsOfRank rank % unitsPerOne ≠ 0)
    (short : IsShort rank) : shortest? false rank = some (toDecimal false rank) := by
  obtain ⟨d, found, fits⟩ : ∃ d, shortest? false rank = some d ∧
      d.text.length ≤ longestWritten := by
    rcases Nat.lt_or_ge (unitsOfRank rank) (1 * unitsPerOne) with small | large
    · -- Below one there is a single digit before the point.
      obtain ⟨digits, places, few, reads⟩ := short
      obtain ⟨d, found, fewer⟩ := exists_shortest? reads (by rw [longestWritten]; omega)
      exact ⟨d, found, length_text_le 1 (by decide) small (by decide) found
        (by rw [longestWritten]; omega)⟩
    · -- Above, there are no more than sixteen, and as many behind it are enough.
      have fine : 2 ^ 53 * unitsPerOne < unitsOfRank rank * Nat.pow 10 16 :=
        fine_of_le 0 (by omega)
      obtain ⟨digits, reads⟩ := exists_rankOf_of_fine fine
      obtain ⟨d, found, fewer⟩ := exists_shortest? reads (by decide)
      exact ⟨d, found, length_text_le 16 (by decide) (lt_of_fraction fraction)
        (by decide) found (by rw [longestWritten]; omega)⟩
  rw [found, toDecimal, whole?, if_neg fraction, found]
  simp only [Option.none_or, if_pos fits]

/-- The decimal that a number is written as reads back, if 62 places are enough for that. -/
theorem toDecimal_of_isShort (short : IsShort rank) :
    ∃ digits places, toDecimal false rank = ⟨false, digits, places⟩ ∧
      rankOf digits places = rank ∧ (rank = 0 → digits = 0) := by
  by_cases whole : unitsOfRank rank % unitsPerOne = 0
  · obtain ⟨places, equal⟩ := toDecimal_whole whole
    refine ⟨_, places, equal, rankOf_whole whole, ?_⟩
    rintro rfl
    rw [unitsOfRank_zero, Nat.zero_div, Nat.zero_mul]
  · obtain ⟨sign, -, hit⟩ := shortest?_found (shortest?_toDecimal whole short)
    generalize toDecimal false rank = d at sign hit ⊢
    obtain ⟨negative, digits, places⟩ := d
    cases sign
    refine ⟨digits, places, rfl, (neighbour?_found hit).1, ?_⟩
    rintro rfl
    rw [unitsOfRank_zero, Nat.zero_mod] at whole
    exact absurd rfl whole

/-- Where more than 62 places are needed, the six that are written instead are all zeros. -/
theorem toDecimal_of_not_isShort (long : ¬ IsShort rank) :
    toDecimal false rank = ⟨false, 0, 6⟩ := by
  have small : unitsOfRank rank * 10 ^ 46 < unitsPerOne := by
    by_contra large
    exact long (isShort_of_le (Nat.le_of_not_lt large))
  have six : sixPlaces false rank = ⟨false, 0, 6⟩ := by
    rw [sixPlaces, roundHalfEven_small (by omega)]
  have fraction : unitsOfRank rank % unitsPerOne ≠ 0 := by
    intro whole
    exact long ⟨_, 0, by decide, rankOf_whole whole⟩
  rw [toDecimal, whole?, if_neg fraction, six, Option.none_or]
  split
  · next d found =>
    obtain ⟨-, -, hit⟩ := shortest?_found found
    have many : ¬ d.places ≤ 62 := fun few => long ⟨_, _, few, (neighbour?_found hit).1⟩
    have nonempty := List.length_pos_iff.2 (decimal_ne_nil (d.digits / d.denominator))
    have tooLong : ¬ d.text.length ≤ longestWritten := by
      rw [Decimal.length_text, if_neg (by omega), longestWritten]
      omega
    exact if_neg tooLong
  · rfl

end Binary64

end SlideDeck
