import SlideDeck.Proofs.Binary64.Written
import SlideDeck.Proofs.RoundTrip.Properties

/-! # Reading written numbers back

Which numbers are read as themselves from the text that they are written as.

* `tokenize_spelled`: a spelling alone is one token.
* `expressible_iff`: that a decimal of at most 62 places is read as a number
  is a fact about the number's rank alone.
* `spelled_written`: the text of a number that is not negative is a number,
  and which one.
* `readsBack_iff`, `tokenize_written`: the same said of a scan and of all
  tokens.

A text without enough places does not lose some of a number but all of it: it is
given up for one of six places only where 62 are not enough, and a number that
small has six zeros there. -/

namespace SlideDeck

open Bytes Lexical

/-! ## A source that is one lexeme -/

namespace Lexical

theorem gapLength_spelled (keepComments : Bool) {l : Lexeme} {text : Bytes}
    (spelled : Spelled l text) : gapLength keepComments false text 0 = 0 := by
  obtain ⟨b, more, rfl, notBlank, notSlash, -⟩ := spelled.head
  simp [gapLength, notBlank, notSlash]

/-- A spelling is its lexeme, whether comments are kept or not, and then the input ends. -/
theorem tokenize_spelled (keepComments : Bool) {l : Lexeme} {text : Bytes}
    (spelled : Spelled l text) (ends : Ends l []) :
    tokenize keepComments text
      = .ok [⟨l, .start⟩, ⟨.endOfInput, Position.start.after text⟩] := by
  have scanned := ofBytes_spelled spelled ends
  rw [List.append_nil] at scanned
  have first : Cursor.next keepComments (.ofSource text)
      = (.ok ⟨l, .start⟩, ⟨Position.start.after text, []⟩) := by
    simp only [Cursor.next, Cursor.ofSource, gapLength_spelled keepComments spelled, Cursor.skip,
      List.take_zero, List.drop_zero, Position.after_nil, scanned, Scanned.lexeme,
      List.take_length, List.drop_length]
  obtain ⟨b, more, nonempty, -⟩ := spelled.head
  have length : text.length + 1 = more.length + 1 + 1 := by rw [nonempty, List.length_cons]
  rw [tokenize, length, Cursor.tokens, first]
  simp only [spelled.not_endOfInput, if_false]
  rfl

end Lexical

namespace Binary64

/-! ## Decimals that are read as a number -/

/-- Some decimal of at most 62 places is read as the number. -/
def Expressible (v : Binary64) : Prop :=
  ∃ d : Decimal, d.places ≤ 62 ∧ ofDecimal? d = some v

variable {s : Bool} {k : Fin rankLimit}

theorem ofUnits_eq_finite_iff {negative : Bool} {numerator denominator : Nat} :
    ofUnits negative numerator denominator = finite s k ↔
      negative = s ∧ nearestRank numerator denominator = k := by
  rw [ofUnits]
  split
  · rw [finite.injEq, Fin.ext_iff]
  · next outside =>
    constructor
    · nofun
    · rintro ⟨-, same⟩
      exact absurd (same ▸ k.isLt) outside

theorem inRange?_eq_some_iff {digits : Nat} {v : Binary64} :
    inRange? digits v = some (finite s k) ↔ v = finite s k ∧ (k.val = 0 → digits = 0) := by
  cases v with
  | finite t j =>
    rw [inRange?]
    split
    · next lost =>
      constructor
      · nofun
      · rintro ⟨same, kept⟩
        cases same
        exact absurd (kept lost.1) lost.2
    · next kept =>
      rw [Option.some.injEq]
      refine ⟨fun same => ⟨same, fun zero => ?_⟩, And.left⟩
      cases same
      exact not_not.1 fun some => kept ⟨zero, some⟩
  | infinite | nan => simp [inRange?]

/-- A decimal is read as a number exactly if it is nearest to that one, and has no digits to lose
where that is zero. -/
theorem ofDecimal?_eq_some_iff {d : Decimal} :
    ofDecimal? d = some (finite s k) ↔
      (d.negative = s ∧ rankOf d.digits d.places = k) ∧ (k.val = 0 → d.digits = 0) := by
  rw [ofDecimal?, inRange?_eq_some_iff, Decimal.toBinary64, ofQuotient, ofUnits_eq_finite_iff,
    rankOf, Decimal.denominator]

theorem rankOf_zero (places : Nat) : rankOf 0 places = 0 := by
  have itself := nearestRank_units (k := 0) (ten_pow_pos places)
  rw [unitsOfRank_zero, Nat.zero_mul] at itself
  rw [rankOf, Nat.zero_mul, itself]

theorem expressible_iff : (finite s k).Expressible ↔ IsShort k := by
  constructor
  · intro parts
    obtain ⟨d, few, read⟩ := parts
    exact ⟨d.digits, d.places, few, (ofDecimal?_eq_some_iff.1 read).1.2⟩
  · intro parts
    by_cases zero : k.val = 0
    · exact ⟨⟨s, 0, 0⟩, Nat.zero_le _,
        ofDecimal?_eq_some_iff.2 ⟨⟨rfl, by rw [rankOf_zero, zero]⟩, fun _ => rfl⟩⟩
    · obtain ⟨digits, places, few, reads⟩ := parts
      exact ⟨⟨s, digits, places⟩, few,
        ofDecimal?_eq_some_iff.2 ⟨⟨rfl, reads⟩, fun isZero => absurd isZero zero⟩⟩

/-- Positive numbers below two thirds of the last of 62 places are not told from zero there. -/
theorem not_isShort_of_lt {rank : Nat} (positive : 0 < rank)
    (small : 3 * (unitsOfRank rank * 10 ^ 62) < 2 * unitsPerOne) : ¬ IsShort rank := by
  intro parts
  obtain ⟨digits, places, few, reads⟩ := parts
  have some : 0 < digits := by
    refine Nat.pos_of_ne_zero ?_
    rintro rfl
    rw [rankOf_zero] at reads
    omega
  -- What is read as the rank is at most halfway to the rank's successor.
  have middle := le_middle_of_lt (ten_pow_pos places) (Nat.lt_succ_of_le reads.le)
  have next := unitsOfRank_succ_le positive
  rw [show nearestRank _ _ = rank from reads] at middle
  have least : unitsPerOne ≤ digits * unitsPerOne := Nat.le_mul_of_pos_left _ some
  have scaled : unitsOfRank rank * Nat.pow 10 places ≤ unitsOfRank rank * 10 ^ 62 :=
    Nat.mul_le_mul_left _ (Nat.pow_le_pow_right (by decide) few)
  have far : (unitsOfRank rank + unitsOfRank (rank + 1)) * Nat.pow 10 places
      ≤ 3 * (unitsOfRank rank * Nat.pow 10 places) := by
    rw [← Nat.mul_assoc]
    exact Nat.mul_le_mul_right _ (by omega)
  rw [← Nat.succ_eq_add_one] at far
  omega

theorem written_of_not_negative (notNegative : (finite s k).isNegative = false) :
    (finite s k).written = (toDecimal false k).text := by
  cases s with
  | false => rfl
  | true =>
    have zero : k.val = 0 := by simpa [isNegative] using notNegative
    rw [written, zero, toDecimal_zero]

/-- The text of a number that is not negative spells that number if it is expressible, and zero
otherwise. -/
theorem spelled_written (notNegative : (finite s k).isNegative = false) :
    ∃ w, Spelled (.number (finite s k).written w) (finite s k).written ∧
      (w.same (finite s k) ↔ (finite s k).Expressible) ∧
      (¬ (finite s k).Expressible → (finite s k).written = ascii "0.000000" ∧ w = zero) := by
  rw [expressible_iff, written_of_not_negative notNegative]
  by_cases short : IsShort k
  · obtain ⟨digits, places, equal, reads, zero⟩ := toDecimal_of_isShort short
    have equals : (finite false k).same (finite s k) := by
      cases s with
      | false => simp [same]
      | true => simpa [same, isNegative] using notNegative
    rw [equal]
    refine ⟨finite false k, Decimal.spelled_text (ofDecimal?_eq_some_iff.2 ⟨⟨rfl, reads⟩, zero⟩),
      by simp only [equals, short], fun long => absurd short long⟩
  · rw [toDecimal_of_not_isShort short]
    have read : ofDecimal? ⟨false, 0, 6⟩ = some zero :=
      ofDecimal?_eq_some_iff.2 ⟨⟨rfl, rankOf_zero 6⟩, fun _ => rfl⟩
    refine ⟨zero, Decimal.spelled_text read,
      ⟨fun equals => ?_, fun isShort => absurd isShort short⟩, fun _ => ⟨by decide +kernel, rfl⟩⟩
    obtain ⟨rfl, -⟩ := same_finite equals
    exact absurd ⟨0, 0, Nat.zero_le _, rankOf_zero 0⟩ short

theorem readsBack_iff (notNegative : (finite s k).isNegative = false) :
    (finite s k).readsBack ↔ (finite s k).Expressible := by
  obtain ⟨w, spelled, same, -⟩ := spelled_written notNegative
  have ends : Ends (.number (finite s k).written w) [] := nofun
  have scanned := ofBytes_spelled spelled ends
  rw [List.append_nil] at scanned
  rw [readsBack, scanned, Scanned.lexeme, ← same]
  simp

/-- A number that is not negative is written as a single number token.  What that denotes is the
number itself exactly if the number is expressible in 62 decimal places; otherwise six places are
written and it denotes zero.  Every number from `10 ^ -46` on is expressible, and no positive one
below two thirds of `10 ^ -62` is. -/
theorem tokenize_written (keepComments : Bool)
    (notNegative : (finite s k).isNegative = false) :
    ∃ w, tokenize keepComments (finite s k).written
        = .ok [⟨.number (finite s k).written w, .start⟩,
            ⟨.endOfInput, Position.start.after (finite s k).written⟩] ∧
      (w.same (finite s k) ↔ (finite s k).Expressible) ∧
      (¬ (finite s k).Expressible → (finite s k).written = ascii "0.000000" ∧ w = zero) ∧
      (unitsPerOne ≤ unitsOfRank k * 10 ^ 46 → (finite s k).Expressible) ∧
      (0 < k.val → 3 * (unitsOfRank k * 10 ^ 62) < 2 * unitsPerOne →
        ¬ (finite s k).Expressible) := by
  obtain ⟨w, spelled, same, lost⟩ := spelled_written notNegative
  refine ⟨w, tokenize_spelled keepComments spelled nofun, same, lost, ?_, ?_⟩
  · exact fun large => expressible_iff.2 (isShort_of_le large)
  · exact fun positive small => mt expressible_iff.1 (not_isShort_of_lt positive small)

/-- The number `0.1` is written and read back. -/
theorem tenth_tokenized : (finite false ⟨4591870180066957722, by decide⟩).isNegative = false ∧
    ∃ w, tokenize false (ascii "0.1") = .ok [⟨.number (ascii "0.1") w, .start⟩,
        ⟨.endOfInput, Position.start.after (ascii "0.1")⟩] ∧
      w.same (finite false ⟨4591870180066957722, by decide⟩) := by
  refine ⟨rfl, ?_⟩
  obtain ⟨w, tokens, same, -, large, -⟩ :=
    tokenize_written false (s := false) (k := ⟨4591870180066957722, by decide⟩) rfl
  have text : (finite false ⟨4591870180066957722, by decide⟩).written = ascii "0.1" := by
    decide +kernel
  rw [text] at tokens
  exact ⟨w, tokens, same.2 (large (by decide +kernel))⟩

/-- The positive number nearest to `10 ^ -70` is written as a text that denotes zero. -/
theorem tiny_read_as_zero : ∃ v, ofDecimal? ⟨false, 1, 70⟩ = some v ∧ v.isZero = false ∧
    v.isNegative = false ∧
    tokenize false v.written = .ok [⟨.number (ascii "0.000000") zero, .start⟩,
      ⟨.endOfInput, Position.start.after v.written⟩] := by
  refine ⟨finite false ⟨3559556646450443677, by decide⟩, ?_, ?_, ?_, ?_⟩ <;> decide +kernel

end Binary64

end SlideDeck
