import SlideDeck.Proofs.Text.Bytes
import SlideDeck.Property.Colour

/-! # The texts of colours

Which texts stand for colours, said without a reader, and which of its texts a
colour is written as.

* `colourText_iff`: `Colour.ofText?` reads exactly the texts of colours.
* `ColourText.text_eq`: a colour that was read is written in canonical form.
* `colourText_codec` puts these together with the way back.

A colour has several texts, as digits may be in either case and an opaque colour
may leave out its alpha.  So `ColourText` is a relation, and only one of a
colour's texts is the one that is written. -/

namespace SlideDeck.Syntax

open Bytes

/-! ## Hexadecimal digits -/

/-- A hexadecimal digit of either case and the number that it stands for. -/
inductive HexDigit : UInt8 → Nat → Prop
  | decimal {b : UInt8} {n : Nat} : n < 10 → b.toNat = 48 + n → HexDigit b n
  | upper {b : UInt8} {n : Nat} : n < 6 → b.toNat = 65 + n → HexDigit b (10 + n)
  | lower {b : UInt8} {n : Nat} : n < 6 → b.toNat = 97 + n → HexDigit b (10 + n)

/-- Two hexadecimal digits and the byte that they stand for. -/
inductive HexPair : UInt8 → UInt8 → UInt8 → Prop
  | mk {high low b : UInt8} {m n : Nat} :
      HexDigit high m → HexDigit low n → b.toNat = 16 * m + n → HexPair high low b

theorem HexDigit.lt {b : UInt8} {n : Nat} (h : HexDigit b n) : n < 16 := by
  cases h <;> omega

theorem hexDigit_iff {b : UInt8} {n : Nat} : HexDigit b n ↔ hexValue? b = some n := by
  simp only [hexValue?, isDigit, UInt8.le_iff_toNat_le, Bool.and_eq_true, decide_eq_true_eq,
    UInt8.reduceToNat]
  constructor
  · intro h
    cases h with
    | decimal below byte =>
      rw [if_pos (by omega), byte, Nat.add_sub_cancel_left]
    | upper below byte =>
      rw [if_neg (by omega), if_neg (by omega), if_pos (by omega)]
      exact congrArg some (by omega)
    | lower below byte =>
      rw [if_neg (by omega), if_pos (by omega)]
      exact congrArg some (by omega)
  · intro h
    split at h
    · cases h
      exact .decimal (by omega) (by omega)
    split at h
    · obtain rfl : b.toNat - 87 = n := Option.some.inj h
      have letter : b.toNat - 87 = 10 + (b.toNat - 97) := by omega
      rw [letter]
      exact .lower (by omega) (by omega)
    split at h
    · obtain rfl : b.toNat - 55 = n := Option.some.inj h
      have letter : b.toNat - 55 = 10 + (b.toNat - 65) := by omega
      rw [letter]
      exact .upper (by omega) (by omega)
    · cases h

theorem hexPair_iff {high low b : UInt8} : HexPair high low b ↔ hexByte? high low = some b := by
  constructor
  · intro h
    cases h with
    | @mk m n first second byte =>
      have sum : (16 * m + n).toUInt8 = b := by
        rw [← byte]
        exact UInt8.ofNat_toNat
      simp only [hexByte?, hexDigit_iff.1 first, hexDigit_iff.1 second, bind, Option.bind, pure]
      rw [sum]
  · intro h
    simp only [hexByte?, Option.bind_eq_bind, Option.bind_eq_some_iff, pure, Option.some.injEq] at h
    obtain ⟨m, first, n, second, rfl⟩ := h
    have digit := hexDigit_iff.2 first
    have digit' := hexDigit_iff.2 second
    -- Two digits are below 256, so no carry is lost where the byte is made of them.
    have fits : 16 * m + n < 256 := by
      have high := digit.lt
      have low := digit'.lt
      omega
    apply HexPair.mk digit digit'
    rw [Nat.toUInt8, UInt8.toNat_ofNat']
    exact Nat.mod_eq_of_lt fits

/-! ## Colours -/

/-- `#RRGGBB` or `#RRGGBBAA`, and the colour that it stands for. -/
inductive ColourText : Bytes → Colour → Prop
  | withoutAlpha {r r' g g' b b' red green blue : UInt8} :
      HexPair r r' red → HexPair g g' green → HexPair b b' blue →
      ColourText [35, r, r', g, g', b, b'] ⟨red, green, blue, 255⟩
  | withAlpha {r r' g g' b b' a a' red green blue alpha : UInt8} :
      HexPair r r' red → HexPair g g' green → HexPair b b' blue → HexPair a a' alpha →
      ColourText [35, r, r', g, g', b, b', a, a'] ⟨red, green, blue, alpha⟩

/-- The texts that are read as colours are those of the grammar. -/
theorem colourText_iff {text : Bytes} {c : Colour} :
    ColourText text c ↔ Colour.ofText? text = some c := by
  constructor
  · intro h
    cases h with
    | withoutAlpha red green blue =>
      simp [Colour.ofText?, hexPair_iff.1 red, hexPair_iff.1 green, hexPair_iff.1 blue]
    | withAlpha red green blue alpha =>
      simp [Colour.ofText?, hexPair_iff.1 red, hexPair_iff.1 green, hexPair_iff.1 blue,
        hexPair_iff.1 alpha]
  · intro h
    rw [Colour.ofText?.eq_def] at h
    split at h
    · simp only [Option.bind_eq_bind, Option.bind_eq_some_iff, pure, Option.some.injEq] at h
      obtain ⟨red, isRed, green, isGreen, blue, isBlue, rfl⟩ := h
      exact .withoutAlpha (hexPair_iff.2 isRed) (hexPair_iff.2 isGreen) (hexPair_iff.2 isBlue)
    · simp only [Option.bind_eq_bind, Option.bind_eq_some_iff, pure, Option.some.injEq] at h
      obtain ⟨red, isRed, green, isGreen, blue, isBlue, alpha, isAlpha, rfl⟩ := h
      exact .withAlpha (hexPair_iff.2 isRed) (hexPair_iff.2 isGreen) (hexPair_iff.2 isBlue)
        (hexPair_iff.2 isAlpha)
    · cases h

theorem ofText?_text (c : Colour) : Colour.ofText? c.text = some c := by
  have pair := hexByte?_hexPair
  obtain ⟨red, green, blue, alpha⟩ := c
  -- Where the colour is opaque its alpha is not written.
  by_cases full : alpha = 255
  · simp [Colour.text, Colour.ofText?, hexPair, full, pair]
  · simp [Colour.text, Colour.ofText?, hexPair, full, pair]

/-! ## The written text -/

/-- A decimal digit, or one of the first six letters in either case. -/
def IsHexDigit (b : UInt8) : Prop :=
  isDigit b ∨ (97 ≤ b ∧ b ≤ 102) ∨ (65 ≤ b ∧ b ≤ 70)

instance (b : UInt8) : Decidable (IsHexDigit b) :=
  inferInstanceAs (Decidable (_ ∨ _))

/-- A hash sign, and six or eight hexadecimal digits. -/
def IsColourText (text : Bytes) : Prop :=
  ∃ digits, text = 35 :: digits ∧ (digits.length = 6 ∨ digits.length = 8) ∧
    ∀ b ∈ digits, IsHexDigit b

/-- A byte, in upper case if it is a lower-case letter. -/
def upperCase (b : UInt8) : UInt8 :=
  if 97 ≤ b ∧ b ≤ 122 then b - 32 else b

/-- The text of a colour in upper case, without its alpha pair if that is full. -/
def canonical (text : Bytes) : Bytes :=
  let upper := text.map upperCase
  if upper.drop 7 = ascii "FF" then upper.take 7 else upper

theorem isHexDigit_iff : ∀ b, IsHexDigit b ↔ (hexValue? b).isSome := by
  decide +kernel

theorem hexDigit_hexValue? : ∀ b, ∀ n ∈ hexValue? b, hexDigit n = upperCase b := by
  decide +kernel

theorem hexPair_full : ∀ b, hexPair b = ascii "FF" ↔ b = 255 := by
  decide +kernel

theorem HexDigit.isHexDigit {b : UInt8} {n : Nat} (h : HexDigit b n) : IsHexDigit b :=
  (isHexDigit_iff b).2 (Option.isSome_of_eq_some (hexDigit_iff.1 h))

theorem HexPair.digits {high low b : UInt8} (h : HexPair high low b) :
    IsHexDigit high ∧ IsHexDigit low := by
  cases h with
  | mk first second => exact ⟨first.isHexDigit, second.isHexDigit⟩

theorem exists_hexPair {high low : UInt8} (first : IsHexDigit high) (second : IsHexDigit low) :
    ∃ b, HexPair high low b := by
  obtain ⟨m, isFirst⟩ := Option.isSome_iff_exists.1 ((isHexDigit_iff high).1 first)
  obtain ⟨n, isSecond⟩ := Option.isSome_iff_exists.1 ((isHexDigit_iff low).1 second)
  exact ⟨_, hexPair_iff.2 (by rw [hexByte?, isFirst, isSecond]; rfl)⟩

/-- A byte is written as the pair that it was read from, in upper case. -/
theorem HexPair.hexPair_eq {high low b : UInt8} (h : HexPair high low b) :
    hexPair b = [upperCase high, upperCase low] := by
  cases h with
  | @mk m n first second byte =>
    have below := second.lt
    have quotient : b.toNat / 16 = m := by omega
    have remainder : b.toNat % 16 = n := by omega
    rw [hexPair, quotient, remainder, hexDigit_hexValue? high m (hexDigit_iff.1 first),
      hexDigit_hexValue? low n (hexDigit_iff.1 second)]

theorem exists_colourText {text : Bytes} : (∃ c, ColourText text c) ↔ IsColourText text := by
  constructor
  · rintro ⟨c, h⟩
    cases h with
    | withoutAlpha red green blue =>
      refine ⟨_, rfl, .inl rfl, ?_⟩
      simp [red.digits, green.digits, blue.digits]
    | withAlpha red green blue alpha =>
      refine ⟨_, rfl, .inr rfl, ?_⟩
      simp [red.digits, green.digits, blue.digits, alpha.digits]
  · rintro ⟨digits, rfl, six | eight, all⟩
    · match digits, six with
      | [r, r', g, g', b, b'], _ =>
        simp only [List.forall_mem_cons] at all
        obtain ⟨hr, hr', hg, hg', hb, hb', -⟩ := all
        obtain ⟨red, isRed⟩ := exists_hexPair hr hr'
        obtain ⟨green, isGreen⟩ := exists_hexPair hg hg'
        obtain ⟨blue, isBlue⟩ := exists_hexPair hb hb'
        exact ⟨_, .withoutAlpha isRed isGreen isBlue⟩
    · match digits, eight with
      | [r, r', g, g', b, b', a, a'], _ =>
        simp only [List.forall_mem_cons] at all
        obtain ⟨hr, hr', hg, hg', hb, hb', ha, ha', -⟩ := all
        obtain ⟨red, isRed⟩ := exists_hexPair hr hr'
        obtain ⟨green, isGreen⟩ := exists_hexPair hg hg'
        obtain ⟨blue, isBlue⟩ := exists_hexPair hb hb'
        obtain ⟨alpha, isAlpha⟩ := exists_hexPair ha ha'
        exact ⟨_, .withAlpha isRed isGreen isBlue isAlpha⟩

theorem ColourText.text_eq {text : Bytes} {c : Colour} (h : ColourText text c) :
    c.text = canonical text := by
  cases h with
  | withoutAlpha red green blue =>
    simp [Colour.text, canonical, red.hexPair_eq, green.hexPair_eq, blue.hexPair_eq, ascii,
      upperCase]
  | @withAlpha _ _ _ _ _ _ _ _ _ _ _ alpha red green blue pair =>
    -- Whether the last pair is left out shows on the byte as it does on the text.
    have full := hexPair_full alpha
    rw [pair.hexPair_eq] at full
    simp only [Colour.text, canonical, red.hexPair_eq, green.hexPair_eq, blue.hexPair_eq,
      pair.hexPair_eq, List.map_cons, List.map_nil, List.drop, full]
    split <;> simp [upperCase]

/-- **Texts of colours.**  A text is read as a colour exactly if it is a hash sign and six or eight
hexadecimal digits.  The colour is then written as that text in upper case, without its alpha pair
if that is full, and every colour is read from the text that it is written as. -/
theorem colourText_codec (text : Bytes) (c : Colour) :
    ((∃ read, Colour.ofText? text = some read) ↔ IsColourText text) ∧
      (∀ read, Colour.ofText? text = some read → read.text = canonical text) ∧
      Colour.ofText? c.text = some c := by
  refine ⟨?_, fun read denoted => (colourText_iff.2 denoted).text_eq, ofText?_text c⟩
  rw [← exists_colourText]
  exact exists_congr fun read => colourText_iff.symm

end SlideDeck.Syntax
