import SlideDeck.Binary64.Rounding
import SlideDeck.Text.Decimal

/-! # Written numbers

How a number is written in a source text, and which number a written one is.

* `ofDecimal?` reads digits with an optional fraction, rounds once, and refuses
  what rounds to infinity or, though not zero, to zero.
* `written` prints without an exponent: a whole number exactly, any other with
  the fewest decimal places that read back.  A text longer than
  `longestWritten` bytes is given up for one with six decimal places.

The search `shortest?` tests two decimals for each number of places.  Only the
two neighbours of the value on that decimal grid can be nearest to it, and both
are compared with it exactly, in natural numbers. -/

namespace SlideDeck

open Bytes

/-- A decimal: `digits / 10 ^ places`, after an optional minus sign. -/
structure Decimal where
  negative : Bool
  digits : Nat
  places : Nat
deriving DecidableEq

namespace Decimal

def denominator (d : Decimal) : Nat :=
  Nat.pow 10 d.places

/-- The text of a decimal: at least one digit before the point, exactly `places` after it. -/
def text (d : Decimal) : Bytes :=
  let whole := decimal (d.digits / d.denominator)
  let fraction := decimal (d.digits % d.denominator)
  let point := if d.places = 0 then []
    else ascii "." ++ List.replicate (d.places - fraction.length) 48 ++ fraction
  (if d.negative then ascii "-" else []) ++ whole ++ point

/-- The number nearest to a decimal. -/
def toBinary64 (d : Decimal) : Binary64 :=
  Binary64.ofQuotient d.negative d.digits d.denominator

end Decimal

namespace Binary64

/-! ## Reading -/

/-- The decimal with the given sign, digits before the point and digits after it. -/
def literal (negative : Bool) (whole fraction : Bytes) : Decimal :=
  ⟨negative, value (whole ++ fraction), fraction.length⟩

/-- The number nearest to a decimal with some digits, unless it is infinite, or zero although the
digits are not. -/
def inRange? (digits : Nat) : Binary64 → Option Binary64
  | finite negative rank =>
      if rank.val = 0 ∧ digits ≠ 0 then none else some (finite negative rank)
  | _ => none

/-- The number that a decimal denotes, unless it is too large or too small to be told from zero. -/
def ofDecimal? (d : Decimal) : Option Binary64 :=
  inRange? d.digits d.toBinary64

/-! ## Writing -/

/-- Of the two neighbours of a rank's magnitude with the given number of decimal places, the
nearer one that reads back as that rank; of two equally near, the even one. -/
def neighbour? (rank places : Nat) : Option Nat :=
  let scaled := unitsOfRank rank * Nat.pow 10 places
  let below := scaled / unitsPerOne
  let rest := scaled % unitsPerOne
  let readsBack (digits : Nat) : Bool :=
    nearestRank (digits * unitsPerOne) (Nat.pow 10 places) == rank
  -- A value halfway between its neighbours is as near to either: the even one goes first.
  let upper : Bool := unitsPerOne < 2 * rest ∨ (unitsPerOne = 2 * rest ∧ below % 2 = 1)
  let (nearer, farther) := if upper then (below + 1, below) else (below, below + 1)
  if readsBack nearer then some nearer
  else if readsBack farther then some farther
  else none

/-- The length in bytes beyond which a written number falls back to six places. -/
def longestWritten : Nat := 64

/-- The decimal of fewest places that reads back as a rank, if it has fewer than a written number
may have bytes. -/
def shortest? (negative : Bool) (rank : Nat) : Option Decimal :=
  (List.range longestWritten).findSome? fun places =>
    (neighbour? rank places).map fun digits => ⟨negative, digits, places⟩

/-- A rank's magnitude rounded to six decimal places. -/
def sixPlaces (negative : Bool) (rank : Nat) : Decimal :=
  ⟨negative, roundHalfEven (unitsOfRank rank * 1000000) unitsPerOne, 6⟩

/-- The whole number that a rank's magnitude is, if it is one. -/
def whole? (negative : Bool) (rank : Nat) : Option Decimal :=
  if unitsOfRank rank % unitsPerOne = 0 then
    some ⟨negative && rank != 0, unitsOfRank rank / unitsPerOne, 0⟩
  else none

/-- The decimal that a finite number is written as. -/
def toDecimal (negative : Bool) (rank : Nat) : Decimal :=
  match (whole? negative rank).or (shortest? negative rank) with
  | some d => if d.text.length ≤ longestWritten then d else sixPlaces negative rank
  | none => sixPlaces negative rank

def written : Binary64 → Bytes
  | finite negative rank => (toDecimal negative rank).text
  | infinite negative => ascii (if negative then "-inf" else "inf")
  | nan => ascii "nan"

end Binary64

end SlideDeck
