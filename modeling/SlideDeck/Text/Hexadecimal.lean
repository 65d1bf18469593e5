import SlideDeck.Text.Bytes

/-! # Bytes in hexadecimal

A byte is two hexadecimal digits, the high one first.  They are written in
upper case and read in either. -/

namespace SlideDeck

namespace Bytes

/-- The upper-case digit of a number below sixteen. -/
def hexDigit (n : Nat) : UInt8 :=
  if n < 10 then (48 + n).toUInt8 else (55 + n).toUInt8

/-- The number that a hexadecimal digit of either case denotes. -/
def hexValue? (b : UInt8) : Option Nat :=
  if isDigit b then some (b.toNat - 48)
  else if 97 ≤ b ∧ b ≤ 102 then some (b.toNat - 87)
  else if 65 ≤ b ∧ b ≤ 70 then some (b.toNat - 55)
  else none

def hexPair (b : UInt8) : Bytes :=
  [hexDigit (b.toNat / 16), hexDigit (b.toNat % 16)]

def hexByte? (high low : UInt8) : Option UInt8 := do
  return (16 * (← hexValue? high) + (← hexValue? low)).toUInt8

end Bytes

end SlideDeck
