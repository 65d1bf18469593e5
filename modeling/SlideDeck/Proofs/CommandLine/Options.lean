import SlideDeck.CommandLine
import SlideDeck.Proofs.Deck.Compile
import SlideDeck.Proofs.Lexical.Lexeme

/-! # Options of a command line

Which arguments are options, and what they set.

* `Denotes` and `SizeOption` are the language of numbers and of sizes, said
  without a reader.
* `readSize_exact`: a size is read exactly from a size option, and any other
  text leaves the viewport as it was.
* `Invocation.withOptions_inv` and `Invocation.exists_withOptions`: exactly lists
  of options are accepted, and they change neither the command nor the path.

Numbers are read by `integer?`, which takes more than an option may give and less
than a whole text.  It admits a minus sign, and it stops at the first byte that
is no digit; so a text is refused by its sign, by what is behind its digits, or
by its range, and each of these is seen at another place. -/

namespace SlideDeck

open Bytes Lexical

/-- A run of digits, zeros in front included, that denotes a number which an option can give. -/
structure Denotes (text : Bytes) (n : Int) : Prop where
  digits : Digits text
  value : (value text : Int) = n
  positive : 1 ≤ n
  fits : n ≤ 2147483647

/-- A whole `--size` option and the size that it gives. -/
def SizeOption (argument : Bytes) (size : Viewport) : Prop :=
  ∃ width height : Bytes, argument = ascii "--size=" ++ (width ++ ascii "x" ++ height) ∧
    Denotes width size.width ∧ Denotes height size.height

/-! ## Numbers -/

theorem digits_ne_minus {text : Bytes} (digits : Digits text) : text.head? ≠ some 45 := by
  obtain ⟨b, first, digit⟩ := digits.head []
  rw [List.append_nil, Option.mem_def] at first
  rw [first]
  simpa using digit_ne_minus digit

theorem integer?_digits {text : Bytes} (digits : Digits text) (fits : value text ≤ optionLimit) :
    integer? text = some ((value text : Int), []) := by
  have whole := @takeWhile_run _ text [] digits.2 nofun
  rw [List.append_nil] at whole
  obtain ⟨taken, dropped⟩ := whole
  simp [integer?, digits_ne_minus digits, taken, dropped, digits.1, Nat.not_lt.2 fits]

/-- A positive integer has no sign, so the text begins with its digits. -/
theorem integer?_positive {text rest : Bytes} {n : Int} (h : integer? text = some (n, rest))
    (positive : 0 < n) :
    ∃ digits, text = digits ++ rest ∧ Digits digits ∧ (value digits : Int) = n ∧
      n ≤ optionLimit := by
  by_cases minus : text.head? = some 45
  · simp only [integer?, minus, if_true] at h
    split at h
    · cases h
    · cases h
      omega
  · simp only [integer?, minus, if_false] at h
    split at h
    · cases h
    · next readable =>
      cases h
      obtain ⟨some, fits⟩ := not_or.1 readable
      refine ⟨text.takeWhile isDigit, List.takeWhile_append_dropWhile.symm,
        ⟨some, List.all_eq_true.1 List.all_takeWhile⟩, rfl, ?_⟩
      omega

theorem positive?_eq_some_iff {text : Bytes} {n : Nat} :
    positive? text = some n ↔ Denotes text n := by
  constructor
  · intro h
    rw [positive?] at h
    split at h
    · next k read =>
      split at h
      · next positive =>
        cases h
        obtain ⟨digits, rfl, run, rfl, fits⟩ := integer?_positive read positive
        rw [List.append_nil]
        exact ⟨run, rfl, positive, fits⟩
      · cases h
    · cases h
  · intro h
    have same : value text = n := Int.ofNat.inj h.value
    have fits : value text ≤ optionLimit := by
      rw [same]
      exact Int.ofNat_le.1 h.fits
    have positive : (0 : Int) < value text := h.value ▸ h.positive
    rw [positive?, integer?_digits h.digits fits]
    show (if (0 : Int) < value text then _ else _) = _
    rw [if_pos positive, Int.toNat_natCast, same]

/-- A number that is denoted is a natural one. -/
theorem Denotes.exists_positive? {text : Bytes} {n : Int} (h : Denotes text n) :
    ∃ m : Nat, n = m ∧ positive? text = some m := by
  obtain ⟨m, rfl⟩ := Int.eq_ofNat_of_zero_le (Int.le_trans Int.one_nonneg h.positive)
  exact ⟨m, rfl, positive?_eq_some_iff.2 h⟩

/-! ## Sizes -/

theorem digit_ne_x : ∀ b, isDigit b → b ≠ 120 := by
  decide +kernel

theorem size?_eq_some_iff {text : Bytes} {size : Viewport} :
    size? text = some size ↔ ∃ width height : Bytes, text = width ++ 120 :: height ∧
      Denotes width size.width ∧ Denotes height size.height := by
  constructor
  · intro h
    rw [size?] at h
    split at h
    · next x height behind =>
      split at h
      · cases h
      · obtain ⟨wide, isWidth, h⟩ := Option.bind_eq_some_iff.1 h
        obtain ⟨high, isHeight, h⟩ := Option.bind_eq_some_iff.1 h
        cases h
        have stopped := List.head?_dropWhile_not (· != 120) text
        rw [behind] at stopped
        obtain rfl : x = 120 := by simpa using stopped
        refine ⟨text.takeWhile (· != 120), height, ?_, positive?_eq_some_iff.1 isWidth,
          positive?_eq_some_iff.1 isHeight⟩
        rw [← behind, List.takeWhile_append_dropWhile]
    · cases h
  · rintro ⟨width, height, rfl, isWidth, isHeight⟩
    have noX {digits : Bytes} (run : Digits digits) : ∀ b ∈ digits, (b != 120) = true :=
      fun b among => bne_iff_ne.2 (digit_ne_x b (run.2 b among))
    have one : 120 ∉ height := fun among => absurd (noX isHeight.digits 120 among) (by decide)
    obtain ⟨taken, dropped⟩ := @takeWhile_run _ width (120 :: height) (noX isWidth.digits) (by simp)
    obtain ⟨wide, isWide, readWidth⟩ := isWidth.exists_positive?
    obtain ⟨high, isHigh, readHeight⟩ := isHeight.exists_positive?
    rw [size?, taken, dropped]
    simp only [one, if_false, readWidth, readHeight]
    show some (Viewport.mk wide high) = some size
    rw [← isWide, ← isHigh]

/-- What is behind the beginning of a text that begins so. -/
theorem afterBeginning?_eq_some_iff {beginning text rest : Bytes} :
    afterBeginning? beginning text = some rest ↔ text = beginning ++ rest := by
  rw [afterBeginning?]
  constructor
  · intro h
    split at h
    · next begins =>
      obtain ⟨behind, rfl⟩ := List.isPrefixOf_iff_prefix.1 begins
      rw [List.drop_left] at h
      rw [Option.some.inj h]
    · cases h
  · rintro rfl
    rw [if_pos (List.isPrefixOf_iff_prefix.2 (List.prefix_append ..)), List.drop_left]

theorem sizeOption?_eq_some_iff {argument : Bytes} {size : Viewport} :
    sizeOption? argument = some size ↔ SizeOption argument size := by
  rw [sizeOption?, Option.bind_eq_some_iff]
  constructor
  · rintro ⟨text, behind, read⟩
    obtain ⟨width, height, rfl, isSize⟩ := size?_eq_some_iff.1 read
    refine ⟨width, height, ?_, isSize⟩
    rw [afterBeginning?_eq_some_iff.1 behind, List.append_assoc]
    rfl
  · rintro ⟨width, height, rfl, isSize⟩
    refine ⟨_, afterBeginning?_eq_some_iff.2 rfl, size?_eq_some_iff.2 ⟨width, height, ?_, isSize⟩⟩
    rw [List.append_assoc]
    rfl

/-- Whatever is not read is left as it was. -/
theorem readSize_eq (argument : Bytes) (v : Viewport) :
    readSize argument v = ((sizeOption? argument).isSome, (sizeOption? argument).getD v) := by
  rw [readSize]
  cases sizeOption? argument <;> rfl

/-- **Sizes are read exactly.**  An argument sets a viewport, whatever that was, exactly if it is a
size option, namely two runs of digits with an `x` between them, of which each denotes a number from
1 to the largest one; and then it sets the viewport to these numbers.  Reading any other argument
fails and leaves the viewport as it was. -/
theorem readSize_exact (argument : Bytes) (v : Viewport) :
    (∀ after, readSize argument v = (true, after) ↔ SizeOption argument after) ∧
      ∀ after, readSize argument v = (false, after) ↔
        after = v ∧ ∀ size, ¬ SizeOption argument size := by
  simp only [← sizeOption?_eq_some_iff, readSize_eq, Prod.mk.injEq]
  cases sizeOption? argument with
  | some size => simp
  | none => simp [eq_comm]

/-! ## Options -/

/-- An argument that is an option. -/
inductive IsOption : Bytes → Prop
  | size {argument : Bytes} {size : Viewport} : SizeOption argument size → IsOption argument
  | threads {count : Bytes} {n : Int} : Denotes count n → IsOption (ascii "--threads=" ++ count)
  | lenient : IsOption (ascii "--lenient")
  | verbose : IsOption (ascii "--verbose")

namespace Invocation

variable {i i' : Invocation} {argument : Bytes}

/-- What an option leaves as it was. -/
structure Kept (i i' : Invocation) (verbose : Prop) : Prop where
  command : i'.command = i.command
  path : i'.path = i.path
  quiet : ¬ verbose → i'.verbose = i.verbose

theorem withOption_inv (h : i.withOption argument = .ok i') :
    IsOption argument ∧ Kept i i' (argument = ascii "--verbose") := by
  rw [withOption] at h
  split at h
  · split at h
    · next size read =>
      cases h
      rw [readSize_eq, Prod.mk.injEq] at read
      obtain ⟨size', isSize⟩ := Option.isSome_iff_exists.1 read.1
      exact ⟨.size (sizeOption?_eq_some_iff.1 isSize), rfl, rfl, fun _ => rfl⟩
    · cases h
  · split at h
    · next count behind =>
      split at h
      · next n read =>
        cases h
        obtain rfl := afterBeginning?_eq_some_iff.1 behind
        exact ⟨.threads (positive?_eq_some_iff.1 read), rfl, rfl, fun _ => rfl⟩
      · cases h
    · split at h
      · next lenient =>
        cases h
        exact ⟨lenient ▸ .lenient, rfl, rfl, fun _ => rfl⟩
      · split at h
        · next verbose =>
          cases h
          exact ⟨verbose ▸ .verbose, rfl, rfl, fun quiet => absurd verbose quiet⟩
        · cases h

theorem exists_withOption (i : Invocation) (h : IsOption argument) :
    ∃ i', i.withOption argument = .ok i' := by
  cases h with
  | @size _ size isSize =>
    have begins : (ascii "--size").isPrefixOf argument := by
      obtain ⟨width, height, rfl, -⟩ := isSize
      rfl
    rw [withOption, if_pos begins, readSize_eq, sizeOption?_eq_some_iff.2 isSize]
    exact ⟨_, rfl⟩
  | @threads count n denotes =>
    obtain ⟨m, rfl, read⟩ := denotes.exists_positive?
    have other : ¬ (ascii "--size").isPrefixOf (ascii "--threads=" ++ count) := by
      nofun
    rw [withOption, if_neg other, afterBeginning?_eq_some_iff.2 rfl]
    simp only [read]
    exact ⟨_, rfl⟩
  | lenient => exact ⟨_, rfl⟩
  | verbose => exact ⟨_, rfl⟩

/-- Options, and nothing else, are accepted in turn, and they leave the command and the path as they
were. -/
theorem withOptions_inv {arguments : List Bytes} (h : i.withOptions arguments = .ok i') :
    (∀ a ∈ arguments, IsOption a) ∧ Kept i i' (ascii "--verbose" ∈ arguments) := by
  induction arguments generalizing i with
  | nil =>
    cases h
    exact ⟨List.forall_mem_nil _, rfl, rfl, fun _ => rfl⟩
  | cons argument arguments ih =>
    obtain ⟨next, first, h⟩ := except_bind_eq_ok.1 h
    obtain ⟨isOption, kept⟩ := withOption_inv first
    obtain ⟨areOptions, kept'⟩ := ih h
    refine ⟨List.forall_mem_cons.2 ⟨isOption, areOptions⟩, kept'.command.trans kept.command,
      kept'.path.trans kept.path, fun quiet => ?_⟩
    obtain ⟨here, further⟩ := List.ne_and_not_mem_of_not_mem_cons quiet
    exact (kept'.quiet further).trans (kept.quiet here.symm)

theorem exists_withOptions {arguments : List Bytes} (i : Invocation)
    (h : ∀ a ∈ arguments, IsOption a) : ∃ i', i.withOptions arguments = .ok i' := by
  induction arguments generalizing i with
  | nil => exact ⟨i, rfl⟩
  | cons argument arguments ih =>
    obtain ⟨isOption, areOptions⟩ := List.forall_mem_cons.1 h
    obtain ⟨next, first⟩ := i.exists_withOption isOption
    obtain ⟨i', rest⟩ := ih next areOptions
    exact ⟨i', except_bind_eq_ok.2 ⟨next, first, rest⟩⟩

end Invocation

end SlideDeck
