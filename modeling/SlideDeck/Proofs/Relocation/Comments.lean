import SlideDeck.Proofs.Relocation.Reader
import SlideDeck.Proofs.Relocation.Scan

/-! # Comments that are kept

Keeping comments adds their tokens and changes nothing else: the other tokens are
the same at the same places, and so is the fault that a scan ends with
(`tokenize_keeping`).

* `next_keeping` compares one step of a cursor that keeps comments with one of a
  cursor that does not.
* `Scans.withoutComments` compares whole runs, by induction on the one that keeps
  them.

The two runs are not in step.  A cursor that keeps comments stops at each of
them, and the other passes over any number in one step.  What is left of that
step behind the first comment is a whole step from there, so the induction may
follow the cursor that stops more often. -/

namespace SlideDeck

open Bytes Lexical Scanned Syntax

/-! ## Blanks -/

/-- A cursor that keeps comments passes over blanks only, and one that does not passes over them
first. -/
theorem gapLength_blanks (source : Bytes) :
    ∃ blanks after, source = blanks ++ after ∧ (∀ b ∈ after.head?, ¬ isBlank b) ∧
      gapLength true false source 0 = blanks.length ∧
      gapLength false false source 0 = blanks.length + gapLength false false after 0 := by
  induction source with
  | nil => exact ⟨[], [], rfl, nofun, rfl, rfl⟩
  | cons b rest ih =>
    by_cases blank : isBlank b
    · obtain ⟨blanks, after, split, notBlank, kept, passed⟩ := ih
      have one (keep : Bool) :
          gapLength keep false (b :: rest) 0 = 1 + gapLength keep false rest 0 := by
        simp only [gapLength, blank, if_true, Bool.false_eq_true, if_false]
        exact gapLength_add false rest 1 0
      refine ⟨b :: blanks, after, congrArg (b :: ·) split, notBlank, ?_, ?_⟩
      · rw [one, kept, List.length_cons]
        omega
      · rw [one, passed, List.length_cons]
        omega
    · refine ⟨[], b :: rest, rfl, ?_, ?_, ?_⟩
      · rintro c ⟨⟩
        exact blank
      · simp [gapLength, blank]
      · simp

/-! ## One step -/

/-- A comment goes on to the end of its line. -/
theorem exists_comment (more : Bytes) :
    ∃ text rest, more = text ++ rest ∧ newline ∉ text ∧ EndsLine rest ∧
      ofBytes (47 :: 47 :: more) = lexeme (text.length + 2) (.comment text) := by
  obtain ⟨text, rest, rfl, inside, stops⟩ := exists_run (· != newline) more
  have taken := (takeWhile_run inside stops).1
  refine ⟨text, rest, rfl, fun among => ?_, fun b first => ?_, ?_⟩
  · simpa using inside newline among
  · simpa using stops b first
  · rw [← congrArg (fun t => lexeme (t.length + 2) (.comment t)) taken]
    rfl

/-- No token of a cursor that passes over comments is one. -/
theorem next_not_comment {c c' : Cursor} {t : Token} (step : c.next false = (.ok t, c'))
    (text : Bytes) : t.lexeme ≠ .comment text := by
  rcases next_sound step with ⟨-, final⟩ | ⟨p, -, -, spelled, same, -⟩
  · simp [final]
  · intro comment
    rw [same, comment] at spelled
    cases spelled

/-- A cursor that keeps comments stops at the one before it, and the other cursor goes on behind
it; where there is none, both take the same step. -/
theorem next_keeping (c : Cursor) :
    (∃ t c' text, c.next true = (.ok t, c') ∧ t.lexeme = .comment text ∧
      c.next false = c'.next false) ∨ c.next true = c.next false := by
  obtain ⟨place, source⟩ := c
  obtain ⟨blanks, after, rfl, notBlank, kept, passed⟩ := gapLength_blanks source
  have stands : (Cursor.mk place (blanks ++ after)).skip blanks.length
      = ⟨place.after blanks, after⟩ := by
    simp [Cursor.skip]
  by_cases comment : ∃ more, after = 47 :: 47 :: more
  · obtain ⟨more, rfl⟩ := comment
    obtain ⟨text, rest, rfl, oneLine, ends, scanned⟩ := exists_comment more
    have comment : (47 :: 47 :: text).length = text.length + 2 := rfl
    -- What is passed over reaches from the comment on as far as it does from behind it.
    have behind : gapLength false false (47 :: 47 :: (text ++ rest)) 0
        = (47 :: 47 :: text).length + gapLength false false rest 0 := by
      have entered : gapLength false false (47 :: 47 :: (text ++ rest)) 0
          = gapLength false true (text ++ rest) 2 := by
        simp [gapLength, isBlank, newline]
      rw [entered, gapLength_comment oneLine, gapLength_of_endsLine ends, Nat.add_comm 2]
      exact gapLength_add false rest (text.length + 2) 0
    have skipped : (Cursor.mk place (blanks ++ 47 :: 47 :: (text ++ rest))).skip
          (blanks.length + ((47 :: 47 :: text).length + gapLength false false rest 0))
        = (Cursor.mk ((place.after blanks).after (47 :: 47 :: text)) rest).skip
            (gapLength false false rest 0) := by
      rw [skip_append]
      exact skip_append (place.after blanks) (47 :: 47 :: text) rest _
    have left : (Cursor.mk (place.after blanks) (47 :: 47 :: (text ++ rest))).skip (text.length + 2)
        = ⟨(place.after blanks).after (47 :: 47 :: text), rest⟩ :=
      skip_append (place.after blanks) (47 :: 47 :: text) rest 0
    refine .inl ⟨⟨.comment text, place.after blanks⟩,
      ⟨(place.after blanks).after (47 :: 47 :: text), rest⟩, text, ?_, rfl, ?_⟩
    · simp only [Cursor.next, kept, stands, scanned, lexeme, left]
    · rw [Cursor.next, Cursor.next]
      simp only [passed, behind, skipped]
  · have begins : Begins after := ⟨notBlank, fun more equal => comment ⟨more, equal⟩⟩
    rw [gapLength_of_begins begins, Nat.add_zero] at passed
    apply Or.inr
    rw [Cursor.next, Cursor.next]
    simp only [kept, passed]

/-! ## Whole runs -/

theorem withoutComments_cons {t : Token} {ts : List Token} :
    (∀ text, t.lexeme = .comment text → withoutComments (t :: ts) = withoutComments ts) ∧
    ((∀ text, t.lexeme ≠ .comment text) →
      withoutComments (t :: ts) = t :: withoutComments ts) := by
  cases lexeme : t.lexeme <;> simp [withoutComments, lexeme]

/-- A run that keeps comments is one that does not, with their tokens in between. -/
theorem Scans.withoutComments {c : Cursor} {r : Except CompileError (List Token)}
    (h : Scans true c r) : Scans false c (r.map Syntax.withoutComments) := by
  induction h with
  | @done c c' t step final =>
    have alone : Syntax.withoutComments [t] = [t] :=
      withoutComments_cons.2 fun text => by simp [final]
    rcases next_keeping c with ⟨_, _, text, stops, comment, -⟩ | same
    · cases step.symm.trans stops
      simp [final] at comment
    · rw [Except.map, alone]
      exact .done (same ▸ step) final
  | @fault c c' e step =>
    rcases next_keeping c with ⟨_, _, text, stops, -, -⟩ | same
    · cases step.symm.trans stops
    · exact .fault (same ▸ step)
  | @more c c' t r step present _ ih =>
    rcases next_keeping c with ⟨_, _, text, stops, comment, onward⟩ | same
    · -- The other run is not there yet: it goes on behind the comment in the same step.
      cases step.symm.trans stops
      have further := ih.of_next onward
      cases r with
      | error e => exact further
      | ok ts => simpa [Except.map, withoutComments_cons.1 text comment] using further
    · have step' : c.next false = (.ok t, c') := same ▸ step
      have further := Scans.more step' present ih
      cases r with
      | error e => exact further
      | ok ts => simpa [Except.map, withoutComments_cons.2 (next_not_comment step')] using further

/-- A scan only fails where no lexeme can be read. -/
theorem Scans.cause {keep : Bool} {c : Cursor} {r : Except CompileError (List Token)}
    (h : Scans keep c r) {e : CompileError} (failed : r = .error e) :
    ∃ reason, e.cause = .lex reason := by
  induction h with
  | done => cases failed
  | @fault c c' e' step =>
    cases failed
    rw [Cursor.next] at step
    simp only [Prod.mk.injEq] at step
    split at step
    · cases step.1
    · next place f scanned =>
      obtain ⟨⟨⟩, -⟩ := step
      exact ⟨f.reason, rfl⟩
  | @more _ _ _ r _ _ _ ih =>
    cases r with
    | error e' =>
      cases failed
      exact ih rfl
    | ok ts => cases failed

theorem tokenize_withoutComments (source : Bytes) :
    tokenize false source = (tokenize true source).map withoutComments :=
  tokenize_of_scans (scans_tokenize true source).withoutComments

theorem withoutComments_withoutComments (ts : List Token) :
    withoutComments (withoutComments ts) = withoutComments ts := by
  simp [withoutComments, List.filter_filter]

/-- Tokens are read without their comments. -/
theorem ofTokens_withoutComments (ts : List Token) :
    Document.ofTokens (withoutComments ts) = Document.ofTokens ts := by
  have upcoming : ∀ us : List Token, Upcoming.ofTokens us =
      let kept := withoutComments us
      let stop := (kept.find? fun t => t.lexeme = .endOfInput).or kept.getLast?
      ⟨kept.takeWhile fun t => t.lexeme ≠ .endOfInput, (stop.map Token.position).getD {}, 0, []⟩ :=
    fun _ => rfl
  rw [Document.ofTokens, Document.ofTokens, upcoming, upcoming ts, withoutComments_withoutComments]

/-- **Keeping comments adds their tokens and nothing else.**  A source has tokens with its comments
kept exactly if it has tokens without them, and these are the same tokens at the same places but for
those of comments.  Else both scans fail with the same error at the same place.  With its
comments kept, it is read as the same document, or refused with the same error. -/
theorem tokenize_keeping (source : Bytes) :
    ((∃ ts, tokenize true source = .ok ts ∧ tokenize false source = .ok (withoutComments ts)) ∨
      ∃ e reason, tokenize true source = .error e ∧ tokenize false source = .error e ∧
        e.cause = .lex reason) ∧
    (do Document.ofTokens (← tokenize true source)) = Document.ofSource source := by
  have scanned := tokenize_withoutComments source
  rw [Document.ofSource, scanned]
  cases kept : tokenize true source with
  | ok ts => exact ⟨.inl ⟨ts, rfl, rfl⟩, (ofTokens_withoutComments ts).symm⟩
  | error e =>
    obtain ⟨reason, cause⟩ := (scans_tokenize true source).cause kept
    exact ⟨.inr ⟨e, reason, rfl, rfl, cause⟩, rfl⟩

end SlideDeck
