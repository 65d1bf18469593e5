/-! # Binary64 numbers

The numbers of the source format are IEEE binary64.  Here they are data: the
nonnegative finite ones are counted from zero upwards, and a number is its
sign and its place in that count, its *rank*.

Every finite number is a whole multiple of the smallest positive one, `2 ^
-1074`, so `unitsOfRank` measures all of them in natural numbers and no rational
arithmetic is needed.  The rank runs through a binade's `2 ^ 52` numbers and then
on into the next one, which makes it the lower 63 bits of the interchange format
as well. -/

namespace SlideDeck

/-- How many numbers there are in a binade, `2 ^ 52`. -/
def binadeSize : Nat := 4503599627370496

/-- How many nonnegative finite numbers there are: 2047 binades. -/
def rankLimit : Nat := 2047 * binadeSize

/-- A binary64 number: signed finite, signed infinite, or not a number. -/
inductive Binary64 where
  | finite (negative : Bool) (rank : Fin rankLimit)
  | infinite (negative : Bool)
  | nan
deriving DecidableEq

namespace Binary64

/-- The number of smallest units `2 ^ -1074` that make one. -/
def unitsPerOne : Nat := Nat.pow 2 1074

/-- The magnitude of a rank, in smallest units. -/
def unitsOfRank (rank : Nat) : Nat :=
  let binade := rank / binadeSize
  -- The first two binades share one unit; from then on it doubles with every binade.
  if binade = 0 then rank else (binadeSize + rank % binadeSize) * Nat.pow 2 (binade - 1)

/-- The signed magnitude of a finite number, in smallest units. -/
def units? : Binary64 → Option Int
  | finite negative rank =>
      let units : Int := unitsOfRank rank
      some (if negative then -units else units)
  | _ => none

def zero : Binary64 :=
  finite false ⟨0, by decide⟩

instance : Inhabited Binary64 := ⟨zero⟩

/-! ## Interchange format -/

/-- The weight of the sign bit, `2 ^ 63`. -/
def signWeight : Nat := 2048 * binadeSize

/-- The number with the given 64 bits. -/
def ofBits (bits : UInt64) : Binary64 :=
  let negative := signWeight ≤ bits.toNat
  let rank := bits.toNat % signWeight
  if h : rank < rankLimit then finite negative ⟨rank, h⟩
  else if rank = rankLimit then infinite negative
  else nan

/-- The 64 bits of a number; a not-a-number is the quiet one with an empty payload. -/
def toBits : Binary64 → UInt64
  | finite negative rank => (rank.val + if negative then signWeight else 0).toUInt64
  | infinite negative => (rankLimit + if negative then signWeight else 0).toUInt64
  | nan => (rankLimit + binadeSize / 2).toUInt64

/-! ## Comparison -/

/-- Numerical equality: the two zeros are equal, and nothing equals a not-a-number. -/
def same : Binary64 → Binary64 → Bool
  | finite s j, finite t k => j == k && (s == t || j.val == 0)
  | infinite s, infinite t => s == t
  | _, _ => false

/-- Strictly below zero. -/
def isNegative : Binary64 → Bool
  | finite negative rank => negative && rank.val != 0
  | infinite negative => negative
  | nan => false

def isZero : Binary64 → Bool
  | finite _ rank => rank.val == 0
  | _ => false

/-! ## Whole numbers around a number -/

/-- The largest integer that is at most the number. -/
def floor? (v : Binary64) : Option Int :=
  v.units?.map fun units => units / unitsPerOne

/-- The smallest integer that is at least the number. -/
def ceil? (v : Binary64) : Option Int :=
  v.units?.map fun units => -(-units / unitsPerOne)

end Binary64

end SlideDeck
