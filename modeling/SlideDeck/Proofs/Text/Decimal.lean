import Mathlib.Data.List.Induction
import Mathlib.Tactic.Ring
import SlideDeck.Proofs.Text.Bytes
import SlideDeck.Text.Decimal

/-! # Digits that read back

`decimal` writes a run of digits, `value` reads one, and the second undoes the
first (`value_decimal`).  Whole numbers with a sign can be told apart too, from
each other and from what stands behind them (`signed_append_inj`).

Digits behind others shift those by as many places (`value_append`), so that a
whole number, a fraction and the zeros that pad it are read each on its own. -/

namespace SlideDeck.Bytes

/-! ## Reading -/

theorem value_concat (digits : Bytes) (digit : UInt8) :
    value (digits ++ [digit]) = 10 * value digits + (digit.toNat - 48) := by
  simp [value]

theorem value_append (high low : Bytes) :
    value (high ++ low) = value high * 10 ^ low.length + value low := by
  induction low using List.reverseRecOn with
  | nil => simp [value]
  | append_singleton low digit ih =>
    rw [← List.append_assoc, value_concat, value_concat, ih, List.length_append, Nat.pow_add]
    simp only [List.length_singleton, Nat.pow_one]
    ring

theorem value_zeros (n : Nat) : value (List.replicate n 48) = 0 := by
  induction n with
  | zero => rfl
  | succ n ih =>
    rw [List.replicate_succ', value_concat, ih]
    rfl

/-! ## Writing -/

/-- The byte of a digit. -/
theorem digitChar_byte : ∀ n < 10, (Nat.digitChar n).toNat.toUInt8.toNat = 48 + n := by
  decide

theorem decimal_of_lt {n : Nat} (single : n < 10) :
    decimal n = [(Nat.digitChar n).toNat.toUInt8] := by
  simp [decimal, Nat.toDigits_of_lt_base single]

theorem decimal_of_le {n : Nat} (more : 10 ≤ n) :
    decimal n = decimal (n / 10) ++ [(Nat.digitChar (n % 10)).toNat.toUInt8] := by
  simp [decimal, Nat.toDigits_of_base_le (by decide) more]

theorem value_decimal (n : Nat) : value (decimal n) = n := by
  induction n using Nat.strongRecOn with
  | ind n ih =>
    rcases Nat.lt_or_ge n 10 with single | more
    · rw [decimal_of_lt single, ← List.nil_append [_], value_concat, digitChar_byte n single]
      simp [value]
    · have last := digitChar_byte (n % 10) (Nat.mod_lt _ (by decide))
      rw [decimal_of_le more, value_concat, ih (n / 10) (by omega), last]
      omega

theorem isDigit_decimal (n : Nat) : ∀ b ∈ decimal n, isDigit b := by
  intro b among
  obtain ⟨c, digit, rfl⟩ := List.mem_map.1 among
  have isDigit := Nat.isDigit_of_mem_toDigits (by decide) (by decide) digit
  obtain ⟨low, high⟩ : 48 ≤ c.toNat ∧ c.toNat ≤ 57 := by
    simpa [Char.isDigit, UInt32.le_iff_toNat_le] using isDigit
  simp [Bytes.isDigit, UInt8.le_iff_toNat_le]
  omega

theorem decimal_ne_nil (n : Nat) : decimal n ≠ [] := by
  simp [decimal]

theorem length_decimal_le_iff {n k : Nat} (positive : 0 < k) :
    (decimal n).length ≤ k ↔ n < 10 ^ k := by
  rw [decimal, List.length_map, Nat.length_toDigits_le_iff (by decide) positive]

theorem decimal_injective {m n : Nat} (h : decimal m = decimal n) : m = n := by
  rw [← value_decimal m, h, value_decimal]

/-- The digits of a number behind the zeros that bring them to some length. -/
theorem padded_decimal {n k : Nat} (positive : 0 < k) (fits : n < 10 ^ k) :
    (List.replicate (k - (decimal n).length) 48 ++ decimal n).length = k ∧
      (∀ b ∈ List.replicate (k - (decimal n).length) 48 ++ decimal n, isDigit b) ∧
      value (List.replicate (k - (decimal n).length) 48 ++ decimal n) = n := by
  have short := (length_decimal_le_iff positive).2 fits
  refine ⟨?_, ?_, ?_⟩
  · rw [List.length_append, List.length_replicate]
    omega
  · intro b among
    rcases List.mem_append.1 among with zero | digit
    · rw [List.eq_of_mem_replicate zero]
      decide
    · exact isDigit_decimal n b digit
  · rw [value_append, value_zeros, value_decimal, Nat.zero_mul, Nat.zero_add]

/-! ## Integers -/

/-- A byte that an integer is written with. -/
def isNumeral (b : UInt8) : Bool :=
  isDigit b || b == 45

theorem isNumeral_signed (i : Int) : ∀ b ∈ signed i, isNumeral b := by
  intro b among
  cases i with
  | ofNat n => simp [isNumeral, isDigit_decimal n b among]
  | negSucc n =>
    rcases List.mem_append.1 among with minus | digit
    · obtain rfl : b = 45 := by simpa [ascii] using minus
      decide
    · simp [isNumeral, isDigit_decimal _ b digit]

theorem decimal_ne_negative (m n : Nat) : decimal m ≠ ascii "-" ++ decimal n := by
  intro equal
  have digits := isDigit_decimal m
  rw [equal] at digits
  exact absurd (digits 45 (List.mem_append_left _ (by decide))) (by decide)

theorem signed_injective {i j : Int} (h : signed i = signed j) : i = j := by
  cases i with
  | ofNat m =>
    cases j with
    | ofNat n => exact congrArg _ (decimal_injective h)
    | negSucc n => exact absurd h (decimal_ne_negative m _)
  | negSucc m =>
    cases j with
    | ofNat n => exact absurd h.symm (decimal_ne_negative n _)
    | negSucc n =>
      have equal := decimal_injective (List.append_cancel_left h)
      rw [Nat.succ.inj equal]

/-- Integers are told apart from what stands behind them, unless that goes on with them. -/
theorem signed_append_inj {i j : Int} {r s : Bytes} (stops : ∀ b ∈ r.head?, ¬ isNumeral b)
    (stops' : ∀ b ∈ s.head?, ¬ isNumeral b) (h : signed i ++ r = signed j ++ s) :
    i = j ∧ r = s := by
  obtain ⟨numerals, rest⟩ :=
    run_append_inj (isNumeral_signed i) (isNumeral_signed j) stops stops' h
  exact ⟨signed_injective numerals, rest⟩

end SlideDeck.Bytes
