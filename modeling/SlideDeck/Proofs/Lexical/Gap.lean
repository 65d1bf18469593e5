import SlideDeck.Proofs.Lexical.Grammar

/-! # The gap before a lexeme

`gapLength` measures exactly the gap that the lexical grammar allows: what it
passes over is a `Gap`, what it stops at `Begins` no further one, and of any
gap before such a place it passes over all.

Soundness is one induction for both values of the flag that a comment has been
entered; inside a comment the statement has the rest of the comment's text in
front of the gap. -/

namespace SlideDeck.Lexical

open Bytes

/-! ## Beginnings -/

theorem endsLine_nil : EndsLine [] :=
  nofun

/-- Where a line ends, being inside a comment makes no difference. -/
theorem gapLength_of_endsLine {rest : Bytes} (ends : EndsLine rest) (n : Nat) :
    gapLength false true rest n = gapLength false false rest n := by
  cases rest with
  | nil => rfl
  | cons b rest =>
    have lineFeed : b = newline := ends b rfl
    simp [gapLength, lineFeed, isBlank_newline]

theorem gapLength_comment {text : Bytes} (oneLine : newline ∉ text) (rest : Bytes) (n : Nat) :
    gapLength false true (text ++ rest) n = gapLength false true rest (n + text.length) := by
  induction text generalizing n with
  | nil => rfl
  | cons b text ih =>
    obtain ⟨here, there⟩ := not_or.1 (mt List.mem_cons.2 oneLine)
    have inside : (b != newline) = true := by simpa using Ne.symm here
    simp only [List.cons_append, gapLength, if_true, inside, List.length_cons]
    rw [ih there]
    congr 1
    omega

/-! ## Passing over a gap -/

theorem gapLength_of_begins {rest : Bytes} (begins : Begins rest) (n : Nat) :
    gapLength false false rest n = n := by
  cases rest with
  | nil => rfl
  | cons b rest =>
    have blank : isBlank b = false := by simpa using begins.1 b rfl
    have comment : ¬ (b = 47 ∧ rest.head? = some 47) := by
      intro parts
      obtain ⟨rfl, slash⟩ := parts
      cases rest with
      | nil => cases slash
      | cons c more => cases slash; exact begins.2 more rfl
    simp [gapLength, blank, comment]

theorem gapLength_append {gap after : Bytes} (h : Gap gap after) (begins : Begins after) (n : Nat) :
    gapLength false false (gap ++ after) n = n + gap.length := by
  induction h generalizing n with
  | nil => exact gapLength_of_begins begins n
  | @blank b rest after blank _ ih =>
    simp only [List.cons_append, gapLength, blank, if_true, Bool.false_eq_true, if_false]
    rw [ih begins, List.length_cons]
    omega
  | @comment text rest after oneLine ends _ ih =>
    -- The two slashes enter the comment, which is left where its text ends.
    have entered : gapLength false false (47 :: 47 :: (text ++ rest ++ after)) n
        = gapLength false true (text ++ (rest ++ after)) (n + 2) := by
      simp [gapLength, isBlank, newline]
    simp only [List.cons_append]
    rw [entered, gapLength_comment oneLine, gapLength_of_endsLine ends, ih begins]
    simp only [List.length_cons, List.length_append]
    omega

/-! ## What is passed over -/

/-- What a scan passes over: inside a comment its text, and then a gap before a beginning. -/
theorem gapLength_split (inComment : Bool) (source : Bytes) (n : Nat) :
    ∃ text gap after, source = text ++ (gap ++ after) ∧ Gap gap after ∧ Begins after ∧
      gapLength false inComment source n = n + text.length + gap.length ∧
      (if inComment then newline ∉ text ∧ EndsLine (gap ++ after) else text = []) := by
  induction source generalizing inComment n with
  | nil =>
    refine ⟨[], [], [], rfl, .nil, begins_nil, rfl, ?_⟩
    split
    · exact ⟨List.not_mem_nil, endsLine_nil⟩
    · rfl
  | cons b rest ih =>
    cases inComment with
    | true =>
      by_cases lineFeed : b = newline
      · -- The line feed that ends the comment is the first blank of the gap after it.
        obtain ⟨text, gap, after, split, isGap, begins, length, noText⟩ := ih false (n + 1)
        cases noText
        refine ⟨[], b :: gap, after, by simp [split], .blank (lineFeed ▸ isBlank_newline) isGap,
          begins, ?_, List.not_mem_nil, ?_⟩
        · simp [gapLength, lineFeed, length]
          omega
        · rintro c ⟨⟩
          exact lineFeed
      · obtain ⟨text, gap, after, split, isGap, begins, length, oneLine, ends⟩ := ih true (n + 1)
        have inside : (b != newline) = true := by simpa using lineFeed
        refine ⟨b :: text, gap, after, by simp [split], isGap, begins, ?_, ?_, ends⟩
        · simp [gapLength, inside, length]
          omega
        · simp [Ne.symm lineFeed, oneLine]
    | false =>
      by_cases blank : isBlank b
      · obtain ⟨text, gap, after, split, isGap, begins, length, noText⟩ := ih false (n + 1)
        cases noText
        refine ⟨[], b :: gap, after, by simp [split], .blank blank isGap, begins, ?_, rfl⟩
        simp [gapLength, blank, length]
        omega
      · by_cases comment : b = 47 ∧ rest.head? = some 47
        · obtain ⟨slash, slashes⟩ := comment
          obtain ⟨text, gap, after, split, isGap, begins, length, oneLine, ends⟩ := ih true (n + 1)
          cases text with
          | nil =>
            -- The second slash is no line feed, so it is part of the comment's text.
            simp only [List.nil_append] at split
            cases ends 47 (split ▸ slashes)
          | cons c text =>
            have second : c = 47 := by simpa [split] using slashes
            subst slash second
            refine ⟨[], 47 :: 47 :: (text ++ gap), after, by simp [split],
              .comment (mt (List.mem_cons_of_mem _) oneLine) ends isGap, begins, ?_, rfl⟩
            simp [gapLength, blank, slashes, length]
            omega
        · -- Neither a blank nor a comment: nothing is passed over.
          refine ⟨[], [], b :: rest, rfl, .nil, ⟨?_, ?_⟩, ?_, rfl⟩
          · rintro c ⟨⟩
            exact blank
          · rintro more ⟨⟩
            exact comment ⟨rfl, rfl⟩
          · simp [gapLength, blank, comment]

end SlideDeck.Lexical
