import SlideDeck.Text.Bytes

/-! # Decimal text of whole numbers

`decimal` and `signed` write whole numbers in base ten, without leading zeros;
`value` reads a run of digits back, leading zeros included. -/

namespace SlideDeck

namespace Bytes

/-- The digits of a natural number, most significant first; zero is one digit. -/
def decimal (n : Nat) : Bytes :=
  (Nat.toDigits 10 n).map fun c => c.toNat.toUInt8

/-- The digits of an integer, after a minus sign where it is negative. -/
def signed : Int → Bytes
  | .ofNat n => decimal n
  | .negSucc n => ascii "-" ++ decimal (n + 1)

def value (digits : Bytes) : Nat :=
  digits.foldl (fun total digit => 10 * total + (digit.toNat - 48)) 0

/-- A width and a height as a size is written: `1920x1080`. -/
def dimensions (width height : Int) : Bytes :=
  signed width ++ ascii "x" ++ signed height

end Bytes

end SlideDeck
