import SlideDeck.Text.Hexadecimal

/-! # Colours

A colour is four bytes.  It is read from `#RRGGBB` or `#RRGGBBAA` in either
case and written in upper case, without the last pair where it is opaque. -/

namespace SlideDeck

/-- A colour; an `alpha` of 255 is opaque. -/
structure Colour where
  red : UInt8
  green : UInt8
  blue : UInt8
  alpha : UInt8 := 255
deriving DecidableEq, Inhabited

namespace Colour

open Bytes

def black : Colour := { red := 0, green := 0, blue := 0 }

/-- The colour that a text denotes: a hash sign and six or eight hexadecimal digits. -/
def ofText? : Bytes → Option Colour
  | [35, r, r', g, g', b, b'] => do
      return ⟨← hexByte? r r', ← hexByte? g g', ← hexByte? b b', 255⟩
  | [35, r, r', g, g', b, b', a, a'] => do
      return ⟨← hexByte? r r', ← hexByte? g g', ← hexByte? b b', ← hexByte? a a'⟩
  | _ => none

/-- The text of a colour; the alpha pair is left out where it is opaque. -/
def text (c : Colour) : Bytes :=
  35 :: (hexPair c.red ++ hexPair c.green ++ hexPair c.blue
    ++ if c.alpha = 255 then [] else hexPair c.alpha)

end Colour

end SlideDeck
