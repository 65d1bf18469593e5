import SlideDeck.Proofs.Lexical.Gap

/-! # Reading one lexeme

`Scanned.ofBytes` reads exactly what the lexical grammar spells: a spelling
with nothing behind it that goes on with it is read as its lexeme
(`ofBytes_spelled`), and what is read is such a spelling (`ofBytes_sound`).

A number with a fraction is read even where a second point follows it, so
soundness gives the rule of maximal munch only for what does not begin with a
point.  No lexeme begins with one, which is for the whole source to add. -/

namespace SlideDeck.Lexical

open Bytes Scanned

/-! ## Strings -/

theorem stringBody_quote (rest : Bytes) (n : Nat) (reversed : Bytes) :
    stringBody (34 :: rest) n reversed = lexeme (n + 1) (.string reversed.reverse) := by
  rw [stringBody.eq_def]
  rfl

theorem stringBody_plain {b : UInt8} (notQuote : b ≠ 34) (notBackslash : b ≠ 92) (rest : Bytes)
    (n : Nat) (reversed : Bytes) :
    stringBody (b :: rest) n reversed = stringBody rest (n + 1) (b :: reversed) := by
  rw [stringBody.eq_def]
  simp [notQuote, notBackslash]

theorem stringBody_escape {e b : UInt8} (escape : Escape e b) (rest : Bytes) (n : Nat)
    (reversed : Bytes) :
    stringBody (92 :: e :: rest) n reversed = stringBody rest (n + 2) (b :: reversed) := by
  rw [stringBody.eq_def]
  simp [escape_iff.1 escape]

theorem stringBody_append {value body : Bytes} (h : StringBody value body) (rest : Bytes) (n : Nat)
    (reversed : Bytes) :
    stringBody (body ++ 34 :: rest) n reversed
      = lexeme (n + body.length + 1) (.string (reversed.reverse ++ value)) := by
  induction h generalizing n reversed with
  | nil => simpa using stringBody_quote rest n reversed
  | @plain b value body notQuote notBackslash _ ih =>
    rw [List.cons_append, stringBody_plain notQuote notBackslash, ih]
    simp only [List.reverse_cons, List.append_assoc, List.singleton_append, List.length_cons]
    congr 1
    omega
  | @escape e b value body escape _ ih =>
    rw [List.cons_append, List.cons_append, stringBody_escape escape, ih]
    simp only [List.reverse_cons, List.append_assoc, List.singleton_append, List.length_cons]
    congr 1
    omega

theorem stringBody_sound {source : Bytes} {n m : Nat} {reversed : Bytes} {l : Lexeme}
    (h : stringBody source n reversed = lexeme m l) :
    ∃ value body rest, source = body ++ 34 :: rest ∧ StringBody value body ∧
      m = n + body.length + 1 ∧ l = .string (reversed.reverse ++ value) := by
  -- A round takes one byte of the body, or the two of an escape.
  fun_induction stringBody source n reversed with
  | case1 => cases h
  | case2 rest n reversed =>
    cases h
    exact ⟨[], [], rest, rfl, .nil, rfl, by simp⟩
  | case3 => cases h
  | case4 n reversed e rest decoded escape notQuote ih =>
    obtain ⟨value, body, rest, rfl, isBody, length, string⟩ := ih h
    refine ⟨decoded :: value, 92 :: e :: body, rest, rfl, .escape (escape_iff.2 escape) isBody,
      ?_, ?_⟩
    · simp only [length, List.length_cons]
      omega
    · simp [string]
  | case5 => cases h
  | case6 b rest n reversed notQuote notBackslash ih =>
    obtain ⟨value, body, rest, rfl, isBody, length, string⟩ := ih h
    refine ⟨b :: value, b :: body, rest, rfl, .plain notQuote notBackslash isBody, ?_, ?_⟩
    · simp only [length, List.length_cons]
      omega
    · simp [string]

/-! ## Numbers -/

/-- The place where a number begins: a digit, perhaps behind a minus sign. -/
def BeginsNumber (source : Bytes) : Prop :=
  ∃ (negative : Bool) (b : UInt8) (rest : Bytes),
    source = minus negative ++ b :: rest ∧ isDigit b

theorem digit_ne_minus {b : UInt8} (digit : isDigit b) : b ≠ 45 := by
  rintro rfl
  exact absurd digit (by decide)

theorem sign_append {negative : Bool} {rest : Bytes} (digit : ∃ b ∈ rest.head?, isDigit b) :
    sign (minus negative ++ rest) = minus negative := by
  obtain ⟨b, first, isDigit⟩ := digit
  cases negative with
  | true => simp [sign, minus]
  | false =>
    have noSign : rest.head? ≠ some 45 := by
      rw [Option.mem_def.1 first]
      simpa using digit_ne_minus isDigit
    simp [sign, minus, noSign]

theorem BeginsNumber.split {source : Bytes} (h : BeginsNumber source) :
    ∃ negative whole rest, source = minus negative ++ (whole ++ rest) ∧ Digits whole ∧
      ∀ b ∈ rest.head?, ¬ isDigit b := by
  obtain ⟨negative, b, rest, rfl, digit⟩ := h
  obtain ⟨run, after, rfl, all, stops⟩ := exists_run isDigit rest
  exact ⟨negative, b :: run, after, rfl, ⟨nofun, by simpa using ⟨digit, all⟩⟩, stops⟩

theorem Digits.head {whole : Bytes} (h : Digits whole) (rest : Bytes) :
    ∃ b ∈ (whole ++ rest).head?, isDigit b := by
  cases whole with
  | nil => exact absurd rfl h.1
  | cons b whole => exact ⟨b, rfl, h.2 b (List.mem_cons_self ..)⟩

theorem number_integer {negative : Bool} {whole rest : Bytes} (digits : Digits whole)
    (stops : ∀ b ∈ rest.head?, ¬ isDigit b) (noPoint : rest.head? ≠ some 46) :
    number (minus negative ++ (whole ++ rest))
      = numberEnd negative (minus negative ++ whole) whole [] rest := by
  obtain ⟨taken, dropped⟩ := takeWhile_run digits.2 stops
  have signed : (minus negative ≠ []) = negative := by cases negative <;> simp [minus]
  rw [number]
  simp only [sign_append (digits.head rest), List.drop_left, taken, dropped]
  split
  · next more => exact absurd rfl noPoint
  · simp [signed]

theorem number_point {negative : Bool} {whole fraction rest : Bytes} (digits : Digits whole)
    (all : ∀ b ∈ fraction, isDigit b) (stops : ∀ b ∈ rest.head?, ¬ isDigit b) :
    number (minus negative ++ (whole ++ 46 :: (fraction ++ rest)))
      = if fraction = [] then
          fault ((minus negative).length + whole.length) ((minus negative).length + whole.length)
            .missingFraction
        else
          numberEnd negative (minus negative ++ whole ++ 46 :: fraction) whole fraction rest := by
  have point : ∀ b ∈ (46 :: (fraction ++ rest)).head?, ¬ isDigit b := by
    rintro b ⟨⟩
    decide
  obtain ⟨taken, dropped⟩ := takeWhile_run digits.2 point
  obtain ⟨takenFraction, droppedFraction⟩ := takeWhile_run all stops
  have signed : (minus negative ≠ []) = negative := by cases negative <;> simp [minus]
  rw [number]
  simp only [sign_append (digits.head _), List.drop_left, taken, dropped, takenFraction,
    droppedFraction, signed, Bool.decide_eq_true]

/-- The end of a number is read unless a unit follows or the number is out of range. -/
theorem numberEnd_eq_lexeme {negative : Bool} {literal whole fraction rest : Bytes} {n : Nat}
    {l : Lexeme} :
    numberEnd negative literal whole fraction rest = lexeme n l ↔
      (∀ b ∈ rest.head?, ¬ startsIdentifier b) ∧ n = literal.length ∧
        ∃ v, Binary64.ofDecimal? (Binary64.literal negative whole fraction) = some v ∧
          l = .number literal v := by
  have noUnit : (∀ b ∈ rest.head?, ¬ startsIdentifier b)
      ↔ rest.head?.filter startsIdentifier = none := by
    simp [Option.filter_eq_none_iff]
  rw [noUnit]
  -- The value is rewritten as an opaque one: nothing here is to evaluate it.
  generalize value : Binary64.ofDecimal? (Binary64.literal negative whole fraction) = read
  rw [numberEnd]
  rw [value]
  constructor
  · intro h
    cases filtered : rest.head?.filter startsIdentifier with
    | some b =>
      rw [filtered] at h
      cases h
    | none =>
      rw [filtered] at h
      cases read with
      | none => cases h
      | some v =>
        cases h
        exact ⟨rfl, rfl, v, rfl, rfl⟩
  · intro parts
    obtain ⟨filtered, rfl, v, rfl, rfl⟩ := parts
    rw [filtered]

theorem number_append {negative : Bool} {whole fraction tail rest : Bytes} {v : Binary64}
    (digits : Digits whole) (isFraction : Fraction fraction tail)
    (value : Binary64.ofDecimal? (Binary64.literal negative whole fraction) = some v)
    (ends : Ends (.number (minus negative ++ whole ++ tail) v) rest) :
    number (minus negative ++ whole ++ tail ++ rest)
      = lexeme (minus negative ++ whole ++ tail).length
          (.number (minus negative ++ whole ++ tail) v) := by
  have noUnit : ∀ b ∈ rest.head?, ¬ startsIdentifier b := fun b first => (ends b first).2.2
  have stops : ∀ b ∈ rest.head?, ¬ isDigit b := fun b first => (ends b first).1
  cases isFraction with
  | absent =>
    have noPoint : rest.head? ≠ some 46 := fun point => (ends 46 point).2.1 rfl
    rw [List.append_nil, List.append_assoc, number_integer digits stops noPoint]
    exact numberEnd_eq_lexeme.2 ⟨noUnit, rfl, v, value, rfl⟩
  | present places =>
    rw [List.append_assoc, List.append_assoc, List.cons_append,
      number_point digits places.2 stops, if_neg places.1]
    exact numberEnd_eq_lexeme.2 ⟨noUnit, rfl, v, value, rfl⟩

/-- What is read where a number begins is a number, and no part of it is left behind; only a
second point is not yet seen. -/
theorem number_sound {source : Bytes} {n : Nat} {l : Lexeme} (begins : BeginsNumber source)
    (h : number source = lexeme n l) :
    ∃ text rest, source = text ++ rest ∧ n = text.length ∧ Spelled l text ∧
      (rest.head? ≠ some 46 → Ends l rest) := by
  obtain ⟨negative, whole, rest, rfl, digits, stops⟩ := begins.split
  -- A point behind the digits belongs to the number, whatever follows it.
  by_cases point : rest.head? = some 46
  · obtain ⟨more, rfl⟩ : ∃ more, rest = 46 :: more := by
      cases rest with
      | nil => cases point
      | cons b more => cases point; exact ⟨more, rfl⟩
    obtain ⟨fraction, rest, rfl, all, stops⟩ := exists_run isDigit more
    rw [number_point digits all stops] at h
    split at h
    · cases h
    · next some =>
      obtain ⟨noUnit, length, v, value, rfl⟩ := numberEnd_eq_lexeme.1 h
      refine ⟨_, rest, by simp, length, .number digits (.present ⟨some, all⟩) value, ?_⟩
      exact fun noPoint b first =>
        ⟨stops b first, fun equal => noPoint (equal ▸ first), noUnit b first⟩
  · rw [number_integer digits stops point] at h
    obtain ⟨noUnit, length, v, value, rfl⟩ := numberEnd_eq_lexeme.1 h
    have spelled := Spelled.number digits .absent value
    rw [List.append_nil] at spelled
    refine ⟨_, rest, by simp, length, spelled, ?_⟩
    exact fun noPoint b first =>
      ⟨stops b first, fun equal => noPoint (equal ▸ first), noUnit b first⟩

/-! ## Identifiers -/

theorem identifier_append {name rest : Bytes} (isIdentifier : IsIdentifier name)
    (ends : Ends (.identifier name) rest) :
    identifier (name ++ rest) = lexeme name.length (.identifier name) := by
  rw [identifier]
  simp only [(takeWhile_run isIdentifier.2 ends).1]

theorem identifier_sound {source : Bytes} {n : Nat} {l : Lexeme}
    (begins : ∃ b ∈ source.head?, startsIdentifier b) (h : identifier source = lexeme n l) :
    ∃ name rest, source = name ++ rest ∧ n = name.length ∧ l = .identifier name ∧
      IsIdentifier name ∧ Ends l rest := by
  obtain ⟨name, rest, rfl, all, stops⟩ := exists_run continuesIdentifier source
  rw [identifier] at h
  simp only [(takeWhile_run all stops).1] at h
  cases h
  refine ⟨name, rest, rfl, rfl, rfl, ⟨?_, all⟩, stops⟩
  -- The first byte also continues an identifier, so the run is not empty.
  obtain ⟨b, first, starts⟩ := begins
  cases name with
  | nil => exact absurd (by simp [continuesIdentifier, starts]) (stops b first)
  | cons c name =>
    cases first
    exact ⟨b, rfl, starts⟩

/-! ## Any lexeme -/

theorem ofBytes_identifier {b : UInt8} (starts : startsIdentifier b) (rest : Bytes) :
    ofBytes (b :: rest) = identifier (b :: rest) := by
  have notSlash : b ≠ 47 := by rintro rfl; exact absurd starts (by decide)
  have notQuote : b ≠ 34 := by rintro rfl; exact absurd starts (by decide)
  have notMinus : b ≠ 45 := by rintro rfl; exact absurd starts (by decide)
  have notDigit := startsIdentifier_not_digit b starts
  simp [ofBytes, notSlash, notQuote, notMinus, notDigit, starts]

theorem ofBytes_number {source : Bytes} (begins : BeginsNumber source) :
    ofBytes source = number source := by
  obtain ⟨negative, b, rest, rfl, digit⟩ := begins
  cases negative with
  | true =>
    simp [minus, ofBytes, digit]
  | false =>
    have notSlash : b ≠ 47 := by rintro rfl; exact absurd digit (by decide)
    have notQuote : b ≠ 34 := by rintro rfl; exact absurd digit (by decide)
    simp [minus, ofBytes, notSlash, notQuote, digit]

/-- A spelling that nothing goes on with is read as its lexeme. -/
theorem ofBytes_spelled {l : Lexeme} {text rest : Bytes} (spelled : Spelled l text)
    (ends : Ends l rest) : ofBytes (text ++ rest) = lexeme text.length l := by
  cases spelled with
  | leftBracket | rightBracket | leftBrace | rightBrace | leftParen | rightParen | comma =>
    simp [ofBytes, isDigit, startsIdentifier, isLetter, punctuation?]
  | colon =>
    have single : ¬ rest.head? = some 58 := ends
    simp [ofBytes, isDigit, startsIdentifier, isLetter, punctuation?, single]
  | definition => simp [ofBytes, isDigit, startsIdentifier, isLetter]
  | identifier isIdentifier =>
    obtain ⟨b, first, starts⟩ := isIdentifier.1
    cases text with
    | nil => cases first
    | cons c more =>
      cases first
      rw [List.cons_append, ofBytes_identifier starts, ← List.cons_append]
      exact identifier_append isIdentifier ends
  | @string value body isBody =>
    have length : (34 :: (body ++ [34])).length = 1 + body.length + 1 := by
      simp only [List.length_cons, List.length_append, List.length_nil]
      omega
    have closing := stringBody_append isBody rest 1 []
    rw [length]
    simpa [ofBytes] using closing
  | @number negative whole fraction tail value digits isFraction read =>
    -- With a sign or without one, the first digit is where a number begins.
    have begins : BeginsNumber (minus negative ++ whole ++ tail ++ rest) := by
      cases whole with
      | nil => exact absurd rfl digits.1
      | cons b more =>
        exact ⟨negative, b, more ++ tail ++ rest, by simp, digits.2 b (List.mem_cons_self ..)⟩
    rw [ofBytes_number begins]
    exact number_append digits isFraction read ends

theorem punctuation_sound {b : UInt8} {l : Lexeme} {rest : Bytes} (h : punctuation? b = some l)
    (single : ¬ (b = 58 ∧ rest.head? = some 58)) :
    Spelled l [b] ∧ (rest.head? ≠ some 46 → Ends l rest) := by
  rw [punctuation?] at h
  -- One byte after another is tried; of these lexemes only a colon can go on.
  split at h
  · next equal => cases equal; cases h; exact ⟨.leftBracket, fun _ => trivial⟩
  split at h
  · next equal => cases equal; cases h; exact ⟨.rightBracket, fun _ => trivial⟩
  split at h
  · next equal => cases equal; cases h; exact ⟨.leftBrace, fun _ => trivial⟩
  split at h
  · next equal => cases equal; cases h; exact ⟨.rightBrace, fun _ => trivial⟩
  split at h
  · next equal => cases equal; cases h; exact ⟨.leftParen, fun _ => trivial⟩
  split at h
  · next equal => cases equal; cases h; exact ⟨.rightParen, fun _ => trivial⟩
  split at h
  · next equal => cases equal; cases h; exact ⟨.comma, fun _ => trivial⟩
  split at h
  · next equal => cases equal; cases h; exact ⟨.colon, fun _ colon => single ⟨rfl, colon⟩⟩
  · cases h

/-- What is read is a spelling with nothing behind it that goes on with it; only a point behind a
number is not yet seen. -/
theorem ofBytes_sound {source : Bytes} {n : Nat} {l : Lexeme} (begins : Begins source)
    (h : ofBytes source = lexeme n l) :
    (source = [] ∧ n = 0 ∧ l = .endOfInput) ∨
      ∃ text rest, source = text ++ rest ∧ n = text.length ∧ Spelled l text ∧
        (rest.head? ≠ some 46 → Ends l rest) := by
  cases source with
  | nil =>
    cases h
    exact .inl ⟨rfl, rfl, rfl⟩
  | cons b rest =>
    apply Or.inr
    -- The cases are those of the scanner, in the order in which it tries them.
    have noComment : ¬ (b = 47 ∧ rest.head? = some 47) := by
      intro parts
      obtain ⟨rfl, slash⟩ := parts
      cases rest with
      | nil => cases slash
      | cons c more => cases slash; exact begins.2 more rfl
    by_cases quote : b = 34
    · simp only [ofBytes, quote, if_true] at h
      obtain ⟨value, body, after, rfl, isBody, length, string⟩ := stringBody_sound h
      subst quote string
      refine ⟨34 :: (body ++ [34]), after, by simp, ?_, .string isBody, fun _ => trivial⟩
      simp only [length, List.length_cons, List.length_append, List.length_nil]
      omega
    by_cases number : BeginsNumber (b :: rest)
    · rw [ofBytes_number number] at h
      exact number_sound number h
    by_cases starts : startsIdentifier b
    · rw [ofBytes_identifier starts] at h
      obtain ⟨name, after, split, length, rfl, isIdentifier, ends⟩ :=
        identifier_sound ⟨b, rfl, starts⟩ h
      exact ⟨name, after, split, length, .identifier isIdentifier, fun _ => ends⟩
    -- A minus sign with no digit behind it begins no lexeme.
    have noNumber : ¬ (isDigit b = true ∨ b = 45 ∧ rest.head?.any isDigit = true) := by
      rintro (digit | ⟨rfl, follows⟩)
      · exact number ⟨false, b, rest, rfl, digit⟩
      · cases rest with
        | nil => cases follows
        | cons c more => exact number ⟨true, c, more, rfl, follows⟩
    simp only [ofBytes, noComment, quote, noNumber, starts, if_false] at h
    by_cases double : b = 58 ∧ rest.head? = some 58
    · rw [if_pos double] at h
      obtain ⟨rfl, colon⟩ := double
      cases h
      cases rest with
      | nil => cases colon
      | cons c more =>
        cases colon
        exact ⟨[58, 58], more, rfl, rfl, .definition, fun _ => trivial⟩
    · rw [if_neg double] at h
      cases mark : punctuation? b with
      | none =>
        rw [mark] at h
        cases h
      | some l' =>
        rw [mark] at h
        cases h
        exact ⟨[b], rest, rfl, rfl, punctuation_sound mark double⟩

theorem no_lexeme_at_blank : ∀ b, isBlank b →
    b ≠ 47 ∧ b ≠ 34 ∧ ¬ isDigit b ∧ b ≠ 45 ∧ ¬ startsIdentifier b ∧ b ≠ 58 ∧
      punctuation? b = none := by
  decide +kernel

/-- A lexeme is read only where one begins, unless it is a comment. -/
theorem begins_of_lexeme {source : Bytes} {n : Nat} {l : Lexeme} (h : ofBytes source = lexeme n l)
    (noComment : ∀ more, source ≠ 47 :: 47 :: more) : Begins source := by
  refine ⟨fun b first blank => ?_, noComment⟩
  cases source with
  | nil => cases first
  | cons c rest =>
    cases first
    obtain ⟨notSlash, notQuote, notDigit, notMinus, notStart, notColon, noMark⟩ :=
      no_lexeme_at_blank b blank
    simp [ofBytes, notSlash, notQuote, notDigit, notMinus, notStart, notColon, noMark, fault,
      lexeme] at h

end SlideDeck.Lexical
