import SlideDeck.Binary64.Written
import SlideDeck.Proofs.Binary64.Rounding

/-! # The shortest decimal

A decimal that is read as a number is found wherever there is one.

* `exists_neighbour?`: if any decimal of some number of places is read as a
  number, one of the two neighbours is.
* `exists_rankOf_of_fine`: with enough places there always is one.
* `exists_shortest?`: the search finds one that has no more places than need
  be.

A decimal farther away than a neighbour has the neighbour between itself and the
number.  Rounding is monotone, and so what lies between two quotients that round
to one number rounds to it as well. -/

namespace SlideDeck.Binary64

theorem unitsPerOne_pos : 0 < unitsPerOne := by
  decide +kernel

theorem ten_pow_pos (places : Nat) : 0 < Nat.pow 10 places :=
  Nat.pow_pos (by decide)

/-- The rank that some digits with some decimal places are read as. -/
def rankOf (digits places : Nat) : Nat :=
  nearestRank (digits * unitsPerOne) (Nat.pow 10 places)

/-- The digits of a rank's lower neighbour with some decimal places. -/
def digitsBelow (rank places : Nat) : Nat :=
  unitsOfRank rank * Nat.pow 10 places / unitsPerOne

variable {rank places digits : Nat}

/-! ## Neighbours -/

/-- The lower and the upper neighbour are tried, in the order in which they are near. -/
theorem neighbour?_eq (rank places : Nat) : ∃ nearer farther,
    (nearer = digitsBelow rank places ∧ farther = digitsBelow rank places + 1 ∨
      nearer = digitsBelow rank places + 1 ∧ farther = digitsBelow rank places) ∧
    neighbour? rank places =
      if rankOf nearer places = rank then some nearer
      else if rankOf farther places = rank then some farther
      else none := by
  delta neighbour? rankOf digitsBelow
  -- Unless the unit is an opaque one, it is counted down to zero here.
  generalize unitsPerOne = unit
  simp only [beq_iff_eq]
  split
  · exact ⟨_, _, .inr ⟨rfl, rfl⟩, rfl⟩
  · exact ⟨_, _, .inl ⟨rfl, rfl⟩, rfl⟩

theorem neighbour?_found (found : neighbour? rank places = some digits) :
    rankOf digits places = rank ∧ digits ≤ digitsBelow rank places + 1 := by
  obtain ⟨nearer, farther, order, equal⟩ := neighbour?_eq rank places
  rw [equal] at found
  split at found
  · next reads =>
    cases found
    exact ⟨reads, by omega⟩
  · split at found
    · next reads =>
      cases found
      exact ⟨reads, by omega⟩
    · cases found

/-- If some digits are read as the rank, those of a neighbour are. -/
theorem exists_neighbour? (reads : rankOf digits places = rank) :
    ∃ nearby, neighbour? rank places = some nearby := by
  have positive := ten_pow_pos places
  have itself := nearestRank_units (k := rank) positive
  have split := Nat.div_add_mod' (unitsOfRank rank * Nat.pow 10 places) unitsPerOne
  have rest := Nat.mod_lt (unitsOfRank rank * Nat.pow 10 places) unitsPerOne_pos
  -- The neighbour on the side of the digits lies between them and the rank itself.
  have either : rankOf (digitsBelow rank places) places = rank ∨
      rankOf (digitsBelow rank places + 1) places = rank := by
    rcases Nat.lt_or_ge (digitsBelow rank places) digits with above | below
    · have farther := nearestRank_mono positive (Nat.mul_le_mul_right unitsPerOne above)
      have nearer : unitsOfRank rank * Nat.pow 10 places
          ≤ (digitsBelow rank places + 1) * unitsPerOne := by
        rw [digitsBelow, Nat.add_one_mul]
        omega
      exact .inr (Nat.le_antisymm (farther.trans reads.le)
        (itself.ge.trans (nearestRank_mono positive nearer)))
    · have farther := nearestRank_mono positive (Nat.mul_le_mul_right unitsPerOne below)
      have nearer : digitsBelow rank places * unitsPerOne
          ≤ unitsOfRank rank * Nat.pow 10 places := by
        rw [digitsBelow]
        omega
      exact .inl (Nat.le_antisymm ((nearestRank_mono positive nearer).trans itself.le)
        (reads.ge.trans farther))
  obtain ⟨nearer, farther, order, equal⟩ := neighbour?_eq rank places
  rw [equal]
  split
  · exact ⟨_, rfl⟩
  · next miss =>
    have hit : rankOf farther places = rank := by
      rcases order with ⟨rfl, rfl⟩ | ⟨rfl, rfl⟩
      · exact either.resolve_left miss
      · exact either.resolve_right miss
    exact ⟨_, if_pos hit⟩

/-- With enough places the digits nearest to a number are read as it. -/
theorem exists_rankOf_of_fine
    (fine : 2 ^ 53 * unitsPerOne < unitsOfRank rank * Nat.pow 10 places) :
    ∃ digits, rankOf digits places = rank := by
  obtain ⟨nearest, up, down⟩ : ∃ nearest : Nat,
      2 * (nearest * unitsPerOne) ≤ 2 * (unitsOfRank rank * Nat.pow 10 places) + unitsPerOne ∧
        2 * (unitsOfRank rank * Nat.pow 10 places) ≤ 2 * (nearest * unitsPerOne) + unitsPerOne :=
    ⟨_, roundHalfEven_near _ unitsPerOne_pos⟩
  refine ⟨nearest, nearestRank_of_close (ten_pow_pos places) ?_⟩
  zify at up down fine
  push_cast
  have error : |(nearest * unitsPerOne : Int) - unitsOfRank rank * Nat.pow 10 places|
      ≤ unitsPerOne / 2 := abs_le.2 ⟨by omega, by omega⟩
  have half := Int.mul_ediv_self_le (x := (unitsPerOne : Int)) (k := 2) (by decide)
  linarith

/-! ## The search -/

variable {negative : Bool} {d : Decimal}

theorem shortest?_found (found : shortest? negative rank = some d) :
    d.negative = negative ∧ d.places < longestWritten ∧
      neighbour? rank d.places = some d.digits := by
  obtain ⟨places, among, here⟩ := List.exists_of_findSome?_eq_some found
  obtain ⟨digits, hit, rfl⟩ := Option.map_eq_some_iff.1 here
  exact ⟨rfl, List.mem_range.1 among, hit⟩

/-- The search finds a decimal with no more places than any other has. -/
theorem exists_shortest? (reads : rankOf digits places = rank) (few : places < longestWritten) :
    ∃ d, shortest? negative rank = some d ∧ d.places ≤ places := by
  have split : List.range longestWritten = List.range (places + 1)
      ++ (List.range (longestWritten - (places + 1))).map (places + 1 + ·) := by
    rw [← List.range_add]
    congr 1
    omega
  obtain ⟨nearby, hit⟩ := exists_neighbour? reads
  obtain ⟨d, found⟩ : ∃ d, (List.range (places + 1)).findSome? (fun places =>
      (neighbour? rank places).map fun digits => Decimal.mk negative digits places) = some d := by
    refine Option.isSome_iff_exists.1 (List.findSome?_isSome_iff.2 ⟨places, ?_, ?_⟩)
    · exact List.mem_range.2 (Nat.lt_succ_self places)
    · rw [hit]
      rfl
  refine ⟨d, by rw [shortest?, split, List.findSome?_append, found, Option.some_or], ?_⟩
  obtain ⟨earlier, among, here⟩ := List.exists_of_findSome?_eq_some found
  obtain ⟨digits, -, rfl⟩ := Option.map_eq_some_iff.1 here
  exact Nat.le_of_lt_succ (List.mem_range.1 among)

end SlideDeck.Binary64
