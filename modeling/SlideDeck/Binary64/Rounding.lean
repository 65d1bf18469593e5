import SlideDeck.Binary64.Basic

/-! # Rounding to binary64

A nonnegative quotient of smallest units is rounded to the nearest rank, and
to the even one of two that are equally near.  Products and decimal literals
are exact quotients first and are rounded once.

`nearestRank` has no case for the end of a binade: a significand that rounds up
to `2 ^ 53` carries into the next binade by itself, and the carry out of the last
one reaches `rankLimit`, which stands for infinity. -/

namespace SlideDeck

/-- A quotient rounded to the nearest integer, a half to the even neighbour. -/
def roundHalfEven (numerator denominator : Nat) : Nat :=
  let floor := numerator / denominator
  let twice := 2 * (numerator % denominator)
  if twice < denominator then floor
  else if denominator < twice then floor + 1
  else floor + floor % 2

namespace Binary64

/-- The rank nearest to `numerator / denominator` smallest units. -/
def nearestRank (numerator denominator : Nat) : Nat :=
  -- The shift is zero up to the end of the second binade, where the unit is still the smallest one.
  let shift := (numerator / denominator).log2 - 52
  shift * binadeSize + roundHalfEven numerator (denominator * Nat.pow 2 shift)

/-- The number nearest to a signed quotient of smallest units; infinite beyond the last rank. -/
def ofUnits (negative : Bool) (numerator denominator : Nat) : Binary64 :=
  let rank := nearestRank numerator denominator
  if h : rank < rankLimit then finite negative ⟨rank, h⟩ else infinite negative

/-- The number nearest to the quotient of two natural numbers. -/
def ofQuotient (negative : Bool) (numerator denominator : Nat) : Binary64 :=
  ofUnits negative (numerator * unitsPerOne) denominator

/-- The number nearest to a natural number. -/
def ofNat (n : Nat) : Binary64 :=
  ofQuotient false n 1

/-- The product of two numbers, rounded once. -/
def mul : Binary64 → Binary64 → Binary64
  | finite s j, finite t k => ofUnits (s != t) (unitsOfRank j * unitsOfRank k) unitsPerOne
  | finite s j, infinite t => if j.val = 0 then nan else infinite (s != t)
  | infinite s, finite t k => if k.val = 0 then nan else infinite (s != t)
  | infinite s, infinite t => infinite (s != t)
  | _, _ => nan

instance : Mul Binary64 := ⟨mul⟩

end Binary64

end SlideDeck
