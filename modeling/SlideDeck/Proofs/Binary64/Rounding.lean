import Mathlib.Algebra.Order.Ring.Abs
import Mathlib.Order.Monotone.Basic
import Mathlib.Tactic.Linarith
import Mathlib.Tactic.Ring
import SlideDeck.Binary64.Rounding

/-! # The nearest number

A quotient is rounded to a number that none is nearer to.

* `unitsOfRank_strictMono`: a higher rank is a larger number.
* `abs_sub_nearestRank_le`: of all numbers, `nearestRank` finds a nearest one.
* `nearestRank_units`, `nearestRank_mono`: it finds a number itself, and a
  larger quotient never rounds to a smaller number.
* `nearestRank_of_close`: what differs from a number by less than one part in
  `2 ^ 54` rounds to it.

How the rounding is done is known to `abs_sub_nearestRank_le` only.  It compares
with the two neighbours, since all other numbers lie behind one of those, and
whatever is said of `nearestRank` after it follows from it. -/

namespace SlideDeck

/-! ## Rounding to an integer -/

section roundHalfEven

variable (numerator denominator : Nat)

theorem div_le_roundHalfEven : numerator / denominator ≤ roundHalfEven numerator denominator := by
  simp only [roundHalfEven]
  split
  · exact Nat.le_refl _
  · split <;> omega

theorem roundHalfEven_le : roundHalfEven numerator denominator ≤ numerator / denominator + 1 := by
  simp only [roundHalfEven]
  split
  · exact Nat.le_succ _
  · split <;> omega

end roundHalfEven

theorem roundHalfEven_mul (n : Nat) {d : Nat} (positive : 0 < d) : roundHalfEven (n * d) d = n := by
  simp [roundHalfEven, Nat.mul_div_cancel _ positive, positive]

theorem roundHalfEven_small {n d : Nat} (small : 2 * n < d) : roundHalfEven n d = 0 := by
  have below : n < d := by omega
  simp [roundHalfEven, Nat.div_eq_of_lt below, Nat.mod_eq_of_lt below, small]

/-- Twice the error of a rounded quotient is at most the denominator. -/
theorem roundHalfEven_near (numerator : Nat) {denominator : Nat} (positive : 0 < denominator) :
    2 * (roundHalfEven numerator denominator * denominator) ≤ 2 * numerator + denominator ∧
      2 * numerator ≤ 2 * (roundHalfEven numerator denominator * denominator) + denominator := by
  have split := Nat.div_add_mod' numerator denominator
  have below := Nat.mod_lt numerator positive
  have succ := Nat.add_one_mul (numerator / denominator) denominator
  simp only [roundHalfEven]
  split
  · omega
  · split
    · omega
    · -- Exactly half: either neighbour is as near.
      rcases Nat.mod_two_eq_zero_or_one (numerator / denominator) with even | odd
      · rw [even, Nat.add_zero]
        omega
      · rw [odd]
        omega

namespace Binary64

/-! ## Numbers as multiples of a power of two -/

/-- A significand that can stand with a shift: one with all its bits, unless there is no shift. -/
structure Fits (shift significand : Nat) : Prop where
  most : significand ≤ 2 * binadeSize
  least : shift = 0 ∨ binadeSize ≤ significand

theorem unitsOfRank_of_lt {rank : Nat} (first : rank < binadeSize) : unitsOfRank rank = rank := by
  rw [unitsOfRank, Nat.div_eq_of_lt first]
  rfl

theorem unitsOfRank_zero : unitsOfRank 0 = 0 :=
  unitsOfRank_of_lt (by decide)

theorem unitsOfRank_binade (binade : Nat) {rest : Nat} (inside : rest < binadeSize) :
    unitsOfRank ((binade + 1) * binadeSize + rest) = (binadeSize + rest) * 2 ^ binade := by
  have positive : 0 < binadeSize := by decide
  have quotient : ((binade + 1) * binadeSize + rest) / binadeSize = binade + 1 := by
    rw [Nat.add_comm, Nat.add_mul_div_right _ _ positive, Nat.div_eq_of_lt inside, Nat.zero_add]
  have remainder : ((binade + 1) * binadeSize + rest) % binadeSize = rest := by
    rw [Nat.add_comm, Nat.add_mul_mod_self_right, Nat.mod_eq_of_lt inside]
  simp only [unitsOfRank, quotient, remainder, Nat.succ_ne_zero, if_false, Nat.add_sub_cancel]
  rfl

theorem unitsOfRank_of_fits {shift m : Nat} (fits : Fits shift m) :
    unitsOfRank (shift * binadeSize + m) = m * 2 ^ shift := by
  obtain ⟨most, least⟩ := fits
  have positive : 0 < binadeSize := by decide
  rcases Nat.lt_or_ge m binadeSize with small | full
  · obtain rfl : shift = 0 := by omega
    rw [Nat.zero_mul, Nat.zero_add, unitsOfRank_of_lt small, Nat.pow_zero, Nat.mul_one]
  · obtain ⟨rest, rfl⟩ := Nat.exists_eq_add_of_le full
    rcases Nat.lt_or_ge rest binadeSize with inside | carries
    · rw [← unitsOfRank_binade shift inside, Nat.succ_mul, Nat.add_assoc]
    · -- The significand that carries is the first one of the next binade.
      obtain rfl : rest = binadeSize := by omega
      have same : shift * binadeSize + (binadeSize + binadeSize)
          = (shift + 1 + 1) * binadeSize + 0 := by
        ring
      rw [same, unitsOfRank_binade _ positive, Nat.pow_succ]
      ring

theorem exists_fits (rank : Nat) :
    ∃ shift m, rank = shift * binadeSize + m ∧ m < 2 * binadeSize ∧ Fits shift m := by
  have positive : 0 < binadeSize := by decide
  rcases Nat.lt_or_ge rank binadeSize with first | later
  · exact ⟨0, rank, by omega, by omega, by omega, .inl rfl⟩
  · have split := Nat.div_add_mod' rank binadeSize
    have below := Nat.mod_lt rank positive
    obtain ⟨shift, binade⟩ : ∃ shift, rank / binadeSize = shift + 1 :=
      ⟨rank / binadeSize - 1, by have := Nat.div_pos later positive; omega⟩
    rw [binade, Nat.succ_mul] at split
    exact ⟨shift, binadeSize + rank % binadeSize, by omega, by omega, by omega, .inr (by omega)⟩

/-! ## Neighbours -/

theorem Fits.units_succ {shift m : Nat} (fits : Fits shift m) (inside : m < 2 * binadeSize) :
    unitsOfRank (shift * binadeSize + m + 1)
      = unitsOfRank (shift * binadeSize + m) + 2 ^ shift := by
  have next : Fits shift (m + 1) := ⟨inside, fits.least.imp_right Nat.le_succ_of_le⟩
  rw [unitsOfRank_of_fits fits, Nat.add_assoc, unitsOfRank_of_fits next, Nat.succ_mul]

theorem unitsOfRank_strictMono : StrictMono unitsOfRank := by
  refine strictMono_nat_of_lt_succ fun rank => ?_
  obtain ⟨shift, m, rfl, inside, fits⟩ := exists_fits rank
  rw [fits.units_succ inside]
  exact Nat.lt_add_of_pos_right (Nat.two_pow_pos shift)

/-- Above a number the next one follows after its unit, or later. -/
theorem Fits.above {shift m rank : Nat} (fits : Fits shift m)
    (higher : shift * binadeSize + m < rank) :
    unitsOfRank (shift * binadeSize + m) + 2 ^ shift ≤ unitsOfRank rank := by
  refine Nat.le_trans ?_ (unitsOfRank_strictMono.monotone higher)
  rcases Nat.lt_or_eq_of_le fits.most with inside | rfl
  · exact (fits.units_succ inside).ge
  · -- From the end of its binade on the unit is that of the next one, which is twice as large.
    have next : Fits (shift + 1) binadeSize := ⟨by omega, .inr (Nat.le_refl _)⟩
    have same : shift * binadeSize + 2 * binadeSize = (shift + 1) * binadeSize + binadeSize := by
      ring
    rw [same, Nat.succ_eq_add_one, next.units_succ (by decide)]
    exact Nat.add_le_add_left (Nat.pow_le_pow_right (by decide) (Nat.le_succ _)) _

/-- Below a number inside its binade the one before precedes it by its unit, or more. -/
theorem Fits.below {shift m rank : Nat} (fits : Fits shift m)
    (inside : shift = 0 ∨ binadeSize < m) (lower : rank < shift * binadeSize + m) :
    unitsOfRank rank + 2 ^ shift ≤ unitsOfRank (shift * binadeSize + m) := by
  obtain ⟨m, rfl⟩ : ∃ before, m = before + 1 := by
    refine Nat.exists_eq_succ_of_ne_zero ?_
    rintro rfl
    rcases inside with rfl | full
    · simp at lower
    · exact absurd full (Nat.not_lt_zero _)
  have before : Fits shift m := ⟨Nat.le_of_succ_le fits.most, inside.imp_right Nat.le_of_lt_succ⟩
  rw [← Nat.add_assoc, before.units_succ fits.most]
  exact Nat.add_le_add_right (unitsOfRank_strictMono.monotone (Nat.le_of_lt_succ lower)) _

/-- A positive number's successor is at most twice as large. -/
theorem unitsOfRank_succ_le {rank : Nat} (positive : 0 < rank) :
    unitsOfRank (rank + 1) ≤ 2 * unitsOfRank rank := by
  obtain ⟨shift, m, rfl, inside, fits⟩ := exists_fits rank
  have full : 0 < binadeSize := by decide
  have some : 0 < m := by
    rcases fits.least with rfl | least <;> omega
  have unit := Nat.mul_le_mul_right (2 ^ shift) some
  rw [fits.units_succ inside, unitsOfRank_of_fits fits]
  omega

/-- Two different numbers lie apart by at least one part in `2 ^ 53` of either. -/
theorem unitsOfRank_gap {j k : Nat} (different : j ≠ k) :
    (unitsOfRank k : Int) ≤ 2 ^ 53 * |(unitsOfRank k : Int) - unitsOfRank j| := by
  have size : 2 * binadeSize = 2 ^ 53 := rfl
  -- The gap is at least one unit, and a number has at most `2 ^ 53` of them.
  suffices ∃ shift, unitsOfRank k ≤ 2 ^ 53 * 2 ^ shift ∧
      (unitsOfRank j + 2 ^ shift ≤ unitsOfRank k ∨ unitsOfRank k + 2 ^ shift ≤ unitsOfRank j) by
    obtain ⟨shift, bound, gap⟩ := this
    have above := le_abs_self ((unitsOfRank k : Int) - unitsOfRank j)
    have below := neg_le_abs ((unitsOfRank k : Int) - unitsOfRank j)
    zify at bound gap
    rcases gap with gap | gap <;> linarith
  obtain ⟨shift, m, rfl, inside, fits⟩ := exists_fits k
  have bound : unitsOfRank (shift * binadeSize + m) ≤ 2 ^ 53 * 2 ^ shift := by
    rw [unitsOfRank_of_fits fits]
    exact Nat.mul_le_mul_right _ (by omega)
  rcases Nat.lt_or_gt_of_ne different with lower | higher
  · by_cases inBinade : shift = 0 ∨ binadeSize < m
    · exact ⟨shift, bound, .inl (fits.below inBinade lower)⟩
    · -- A number at the start of its binade is the end of the one before, whose unit is half.
      obtain ⟨shifted, least⟩ := not_or.1 inBinade
      obtain ⟨shift, rfl⟩ := Nat.exists_eq_add_one_of_ne_zero shifted
      obtain rfl : m = binadeSize := Nat.le_antisymm (Nat.not_lt.1 least)
        (fits.least.resolve_left shifted)
      have last : Fits shift (2 * binadeSize) := ⟨Nat.le_refl _, .inr (by omega)⟩
      have same : (shift + 1) * binadeSize + binadeSize = shift * binadeSize + 2 * binadeSize := by
        ring
      rw [same] at lower ⊢
      refine ⟨shift, ?_, .inl (last.below (.inr (by decide)) lower)⟩
      rw [unitsOfRank_of_fits last, size]
  · exact ⟨shift, bound, .inr (fits.above higher)⟩

/-! ## The nearest number -/

/-- The nearest rank as a shift and a significand.  The significand is the quotient, rounded in
units of that shift; where there is one, the quotient itself already fills the significand. -/
theorem nearestRank_fits (numerator : Nat) {denominator : Nat} (positive : 0 < denominator) :
    ∃ shift m, nearestRank numerator denominator = shift * binadeSize + m ∧ Fits shift m ∧
      m = roundHalfEven numerator (denominator * 2 ^ shift) ∧
      (shift = 0 ∨ binadeSize * (denominator * 2 ^ shift) ≤ numerator) := by
  let shift := (numerator / denominator).log2 - 52
  have low : shift = 0 ∨ binadeSize * 2 ^ shift ≤ numerator / denominator := by
    by_cases unshifted : shift = 0
    · exact .inl unshifted
    · have log : (numerator / denominator).log2 = 52 + shift := by omega
      have nonzero : numerator / denominator ≠ 0 := by
        intro zero
        rw [zero, Nat.log2_zero] at log
        omega
      have least := Nat.log2_self_le nonzero
      rw [log, Nat.pow_add] at least
      exact .inr least
  have high : numerator / denominator < 2 ^ shift * (2 * binadeSize) := by
    have most : 2 ^ shift * (2 * binadeSize) = 2 ^ (shift + 53) := (Nat.pow_add 2 shift 53).symm
    rw [most]
    exact Nat.lt_of_lt_of_le Nat.lt_log2_self (Nat.pow_le_pow_right (by decide) (by omega))
  have step : 0 < 2 ^ shift := Nat.two_pow_pos shift
  refine ⟨shift, _, rfl, ⟨?_, ?_⟩, rfl, ?_⟩
  · have whole : numerator / (denominator * 2 ^ shift) < 2 * binadeSize := by
      rw [← Nat.div_div_eq_div_mul]
      exact Nat.div_lt_of_lt_mul high
    exact Nat.le_trans (roundHalfEven_le _ _) whole
  · refine low.imp_right fun least => Nat.le_trans ?_ (div_le_roundHalfEven _ _)
    show _ ≤ numerator / (denominator * 2 ^ shift)
    rw [← Nat.div_div_eq_div_mul]
    exact (Nat.le_div_iff_mul_le step).2 least
  · refine low.imp_right fun least => ?_
    calc binadeSize * (denominator * 2 ^ shift)
        = binadeSize * 2 ^ shift * denominator := by ring
      _ ≤ numerator := (Nat.le_div_iff_mul_le positive).1 least

/-- No number is nearer to a quotient of units than the one of the nearest rank. -/
theorem abs_sub_nearestRank_le (numerator : Nat) {denominator : Nat} (positive : 0 < denominator)
    (rank : Nat) :
    |(numerator : Int) - unitsOfRank (nearestRank numerator denominator) * denominator|
      ≤ |(numerator : Int) - unitsOfRank rank * denominator| := by
  obtain ⟨shift, m, nearest, fits, rounded, low⟩ := nearestRank_fits numerator positive
  obtain ⟨up, down⟩ := roundHalfEven_near numerator
    (Nat.mul_pos positive (Nat.two_pow_pos shift))
  have units : unitsOfRank (shift * binadeSize + m) * denominator
      = m * (denominator * 2 ^ shift) := by
    rw [unitsOfRank_of_fits fits]
    ring
  rw [← rounded, ← units] at up down
  rw [nearest]
  rcases Nat.lt_trichotomy rank (shift * binadeSize + m) with lower | rfl | higher
  · have toward := le_abs_self ((numerator : Int) - unitsOfRank rank * denominator)
    by_cases inBinade : shift = 0 ∨ binadeSize < m
    · have gap := Nat.mul_le_mul_right denominator (fits.below inBinade lower)
      rw [Nat.add_mul, Nat.mul_comm (2 ^ shift)] at gap
      zify at up down gap
      exact abs_le.2 ⟨by linarith, by linarith⟩
    · -- At the start of a binade nothing was rounded up, so the number is not above the quotient.
      obtain ⟨shifted, least⟩ := not_or.1 inBinade
      have notAbove : unitsOfRank (shift * binadeSize + m) * denominator ≤ numerator := by
        rw [units]
        exact Nat.le_trans (Nat.mul_le_mul_right _ (Nat.not_lt.1 least))
          (low.resolve_left shifted)
      have gap := Nat.mul_le_mul_right denominator
        (Nat.le_of_lt (unitsOfRank_strictMono lower))
      zify at notAbove gap
      exact abs_le.2 ⟨by linarith, by linarith⟩
  · exact le_refl _
  · have toward := neg_le_abs ((numerator : Int) - unitsOfRank rank * denominator)
    have gap := Nat.mul_le_mul_right denominator (fits.above higher)
    rw [Nat.add_mul, Nat.mul_comm (2 ^ shift)] at gap
    zify at up down gap
    exact abs_le.2 ⟨by linarith, by linarith⟩

variable {n d k : Nat}

/-- A number is nearest to itself. -/
theorem nearestRank_units (positive : 0 < d) : nearestRank (unitsOfRank k * d) d = k := by
  have nearest := abs_sub_nearestRank_le (unitsOfRank k * d) positive k
  rw [Nat.cast_mul, sub_self, abs_zero, abs_nonpos_iff, sub_eq_zero] at nearest
  have same := Nat.eq_of_mul_eq_mul_right positive (by exact_mod_cast nearest)
  exact (unitsOfRank_strictMono.injective same).symm

/-- What rounds to a number is at least halfway to it from any smaller one. -/
theorem middle_le_of_lt {j : Nat} (positive : 0 < d) (lower : j < nearestRank n d) :
    (unitsOfRank (nearestRank n d) + unitsOfRank j) * d ≤ 2 * n := by
  have nearest := abs_sub_nearestRank_le n positive j
  have less := Nat.mul_lt_mul_of_pos_right (unitsOfRank_strictMono lower) positive
  have away := neg_le_abs ((n : Int) - unitsOfRank (nearestRank n d) * d)
  zify at less ⊢
  rcases abs_choice ((n : Int) - unitsOfRank j * d) with above | below <;> linarith

/-- What rounds to a number is at most halfway from it to any larger one. -/
theorem le_middle_of_lt {j : Nat} (positive : 0 < d) (higher : nearestRank n d < j) :
    2 * n ≤ (unitsOfRank (nearestRank n d) + unitsOfRank j) * d := by
  have nearest := abs_sub_nearestRank_le n positive j
  have less := Nat.mul_lt_mul_of_pos_right (unitsOfRank_strictMono higher) positive
  have away := le_abs_self ((n : Int) - unitsOfRank (nearestRank n d) * d)
  zify at less ⊢
  rcases abs_choice ((n : Int) - unitsOfRank j * d) with above | below <;> linarith

/-- A larger quotient is not rounded to a smaller number. -/
theorem nearestRank_mono {m : Nat} (positive : 0 < d) (larger : m ≤ n) :
    nearestRank m d ≤ nearestRank n d := by
  by_contra smaller
  rw [Nat.not_le] at smaller
  have low := middle_le_of_lt positive smaller
  have high := le_middle_of_lt positive smaller
  rw [Nat.add_comm] at high
  -- Both quotients lie in the middle of the two numbers, so they are one quotient.
  obtain rfl : m = n := by omega
  exact Nat.lt_irrefl _ smaller

/-- A quotient rounds to a number from which it differs by less than one part in `2 ^ 54`. -/
theorem nearestRank_of_close (positive : 0 < d)
    (close : 2 ^ 54 * |(n : Int) - unitsOfRank k * d| < unitsOfRank k * d) :
    nearestRank n d = k := by
  by_contra different
  have nearest := abs_sub_nearestRank_le n positive k
  have gap := mul_le_mul_of_nonneg_right (unitsOfRank_gap different) (Int.natCast_nonneg d)
  have apart : |(unitsOfRank k : Int) - unitsOfRank (nearestRank n d)| * d
      ≤ 2 * |(n : Int) - unitsOfRank k * d| := by
    calc |(unitsOfRank k : Int) - unitsOfRank (nearestRank n d)| * d
        = |(unitsOfRank k * d : Int) - unitsOfRank (nearestRank n d) * d| := by
          rw [← sub_mul, abs_mul, Nat.abs_cast]
      _ ≤ |(unitsOfRank k * d : Int) - n| + |(n : Int) - unitsOfRank (nearestRank n d) * d| :=
          abs_sub_le _ _ _
      _ ≤ 2 * |(n : Int) - unitsOfRank k * d| := by
          rw [abs_sub_comm]
          linarith
  linarith

end Binary64

end SlideDeck
