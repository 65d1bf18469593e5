import SlideDeck.Proofs.Relocation.Reader
import SlideDeck.Proofs.Relocation.Scan
import SlideDeck.Proofs.RoundTrip.Numbers

/-! # Documents behind one another

A document behind another one and a line feed is read after it, as it is read
alone, with all positions moved to where it stands (`Document.ofSource_behind`).

* `ReadsSlides` is a run of the loop over slides, without its bound and without
  the slides before it.
* `ReadsSlides.of_tokens`: such a run depends on the tokens to come and on the
  end of the input, and on nothing that a slide has used up.

A slide begins by forgetting.  Numbers and names of elements are those of the
current slide, so what was read before a slide leaves no trace but the tokens
that it has taken. -/

namespace SlideDeck

open Bytes Lexical

namespace Syntax

open Reader

variable {s s' : Upcoming} {r : Except CompileError (List Slide)}

/-! ## Runs -/

/-- The slides up to the end of the input, or the error that comes before it. -/
inductive ReadsSlides : Upcoming → Except CompileError (List Slide) → Prop
  | done {s : Upcoming} : nextLexeme s.tokens = .endOfInput → ReadsSlides s (.ok [])
  | other {s : Upcoming} :
      nextLexeme s.tokens ≠ .endOfInput → nextLexeme s.tokens ≠ .leftBracket →
      ReadsSlides s (.error ((GrammarFault.unexpected (ascii "'[' to open a slide")
        (nextToken s).lexeme).errorAt (nextToken s).position))
  | fault {s : Upcoming} {e : CompileError} :
      nextLexeme s.tokens = .leftBracket → slide s = .error e → ReadsSlides s (.error e)
  | more {s s' : Upcoming} {x : Slide} {r : Except CompileError (List Slide)} :
      nextLexeme s.tokens = .leftBracket → slide s = .ok (x, s') → ReadsSlides s' r →
      ReadsSlides s (r.map (x :: ·))

theorem slide_shorter {x : Slide} (opening : nextLexeme s.tokens = .leftBracket)
    (h : slide s = .ok (x, s')) : s'.tokens.length < s.tokens.length := by
  obtain ⟨ts, tokens, isSlide⟩ := slide_sound opening h
  cases isSlide
  simp only [tokens, List.length_append, List.length_cons]
  omega

theorem exists_readsSlides (s : Upcoming) : ∃ r, ReadsSlides s r := by
  -- The tokens left bound the number of slides to come.
  suffices bounded : ∀ n (s : Upcoming), s.tokens.length < n → ∃ r, ReadsSlides s r from
    bounded _ s (Nat.lt_succ_self _)
  intro n
  induction n with
  | zero => exact fun s enough => absurd enough (Nat.not_lt_zero _)
  | succ n ih =>
    intro s enough
    by_cases ended : nextLexeme s.tokens = .endOfInput
    · exact ⟨_, .done ended⟩
    by_cases opening : nextLexeme s.tokens = .leftBracket
    · cases read : slide s with
      | error e => exact ⟨_, .fault opening read⟩
      | ok p =>
        obtain ⟨x, s'⟩ := p
        have shorter := slide_shorter opening read
        obtain ⟨r, rest⟩ := ih s' (by omega)
        exact ⟨_, .more opening read rest⟩
    · exact ⟨_, .other ended opening⟩

theorem ReadsSlides.slidesFrom (h : ReadsSlides s r) {n : Nat} {reversed : List Slide}
    (enough : s.tokens.length < n) :
    (slidesFrom n reversed s).map Prod.fst = r.map (reversed.reverse ++ ·) := by
  induction h generalizing n reversed with
  | done ended =>
    obtain ⟨n, rfl⟩ := Nat.exists_eq_succ_of_ne_zero (Nat.ne_zero_of_lt enough)
    rw [Reader.slidesFrom, bind_current, nextToken_lexeme, ended]
    simp [Except.map]
  | @other s notEnded notOpening =>
    obtain ⟨n, rfl⟩ := Nat.exists_eq_succ_of_ne_zero (Nat.ne_zero_of_lt enough)
    rw [Reader.slidesFrom, bind_current, nextToken_lexeme]
    cases next : nextLexeme s.tokens
    case endOfInput => exact absurd next notEnded
    case leftBracket => exact absurd next notOpening
    all_goals
      simp only [run_unexpected, nextToken_lexeme, next]
      rfl
  | fault opening read =>
    obtain ⟨n, rfl⟩ := Nat.exists_eq_succ_of_ne_zero (Nat.ne_zero_of_lt enough)
    rw [Reader.slidesFrom, bind_current, nextToken_lexeme, opening]
    simp only
    rw [bind_of_error read]
    rfl
  | @more s s' x r opening read _ ih =>
    obtain ⟨n, rfl⟩ := Nat.exists_eq_succ_of_ne_zero (Nat.ne_zero_of_lt enough)
    have shorter := slide_shorter opening read
    rw [Reader.slidesFrom, bind_current, nextToken_lexeme, opening]
    simp only
    rw [bind_of_ok read, ih (by omega)]
    cases r with
    | error e => rfl
    | ok slides => simp [Except.map]

/-- What is read as slides depends on the tokens and on the end of the input. -/
theorem ReadsSlides.of_tokens (tokens : s'.tokens = s.tokens) (stop : s'.stop = s.stop)
    (h : ReadsSlides s r) : ReadsSlides s' r := by
  have next : nextToken s' = nextToken s := by rw [nextToken, nextToken, tokens, stop]
  have same : nextLexeme s.tokens = .leftBracket → slide s' = slide s := by
    intro opening
    obtain ⟨place, more, split⟩ := exists_next opening (by decide)
    rw [slide_eq split, slide_eq (tokens.trans split), started, started, stop]
  cases h with
  | done ended => exact .done (tokens ▸ ended)
  | other notEnded notOpening =>
    rw [← next]
    exact .other (tokens ▸ notEnded) (tokens ▸ notOpening)
  | fault opening read => exact .fault (tokens ▸ opening) ((same opening).trans read)
  | more opening read rest => exact .more (tokens ▸ opening) ((same opening).trans read) rest

/-- The slides of some tokens come before those that are read after them. -/
theorem Slides.reads_before {us rest : List Token} {slides : List Slide} (h : Slides us slides)
    (tokens : s.tokens = us ++ rest) (read : ReadsSlides (before s rest) r) :
    ReadsSlides s (r.map (slides ++ ·)) := by
  induction h generalizing s with
  | nil =>
    have here : ReadsSlides s r := .of_tokens (s := before s rest) tokens rfl read
    cases r <;> exact here
  | @cons ts us x slides isSlide _ ih =>
    rw [List.append_assoc] at tokens
    have opening : nextLexeme s.tokens = .leftBracket := by
      rw [tokens]
      cases isSlide
      rfl
    have first := slide_passed isSlide tokens
    have others := ih (s := passed (started s (us ++ rest)) x.content.flatten (us ++ rest)) rfl
      (.of_tokens (s := before s rest) rfl rfl read)
    have whole := ReadsSlides.more opening first others
    cases r <;> exact whole

/-! ## Tokens -/

theorem ofTokens_of_reads {ts : List Token} (h : ReadsSlides (.ofTokens ts) r) :
    Document.ofTokens ts = r.map Document.mk := by
  have unfolded : Document.ofTokens ts
      = ((Reader.slidesFrom ((Upcoming.ofTokens ts).tokens.length + 1) [] (.ofTokens ts)).map
          Prod.fst).map Document.mk := by
    rw [← bind_limit (s := .ofTokens ts) fun n => Reader.slidesFrom n []]
    unfold Document.ofTokens StateT.run
    generalize (limit >>= fun n => Reader.slidesFrom n [] : Reader (List Slide)) (.ofTokens ts)
      = outcome
    cases outcome <;> rfl
  rw [unfolded, h.slidesFrom (Nat.lt_succ_self _)]
  cases r <;> rfl

section

variable {us ts : List Token}
  (plain : ∀ t ∈ us, t.lexeme ≠ .endOfInput ∧ ∀ text, t.lexeme ≠ .comment text)
include plain

theorem withoutComments_append : withoutComments (us ++ ts) = us ++ withoutComments ts := by
  rw [withoutComments, List.filter_append]
  refine congrArg (· ++ withoutComments ts) (List.filter_eq_self.2 fun t among => ?_)
  have notComment := (plain t among).2
  split
  · exact absurd ‹_› (notComment _)
  · rfl

theorem upcoming_append (ended : ∃ t ∈ ts, t.lexeme = .endOfInput) :
    Upcoming.ofTokens (us ++ ts)
      = before (.ofTokens ts) (us ++ (Upcoming.ofTokens ts).tokens) := by
  obtain ⟨t, found⟩ := exists_end ended
  have none : us.find? (fun t => t.lexeme = .endOfInput) = none :=
    List.find?_eq_none.2 fun t among => by simpa using (plain t among).1
  have first : (withoutComments (us ++ ts)).find? (fun t => t.lexeme = .endOfInput) = some t := by
    rw [withoutComments_append plain, List.find?_append, none, found]
    rfl
  have counted : significant (us ++ ts) = us ++ significant ts := by
    show (withoutComments (us ++ ts)).takeWhile _ = _
    rw [withoutComments_append plain,
      List.takeWhile_append_of_pos fun t among => by simpa using (plain t among).1]
    rfl
  rw [upcoming_of_end found, upcoming_of_end first, counted]
  rfl

/-- Tokens that denote slides, before others that come to an end of the input. -/
theorem ofTokens_append {slides : List Slide} (isSlides : Slides us slides)
    (ended : ∃ t ∈ ts, t.lexeme = .endOfInput) :
    Document.ofTokens (us ++ ts)
      = (Document.ofTokens ts).map fun d => ⟨slides ++ d.slides⟩ := by
  obtain ⟨r, read⟩ := exists_readsSlides (.ofTokens ts)
  have whole : ReadsSlides (.ofTokens (us ++ ts)) (r.map (slides ++ ·)) := by
    rw [upcoming_append plain ended]
    exact isSlides.reads_before rfl read
  rw [ofTokens_of_reads whole, ofTokens_of_reads read]
  cases r <;> rfl

end

end Syntax

open Syntax

/-- A source behind another one is read after it, at the place where it stands. -/
theorem Document.ofSource_behind {first : Bytes} {d₁ : Document} (h : ofSource first = .ok d₁)
    (second : Bytes) :
    ofSource (first ++ newline :: second)
      = relocated (behind first) (fun d => ⟨d₁.slides ++ (d.relocate (behind first)).slides⟩)
          (ofSource second) := by
  obtain ⟨tokens, scanned, read⟩ := except_bind_eq_ok.1 h
  obtain ⟨ps, last, divided, rfl⟩ := divided_of_tokenize scanned
  obtain ⟨us, stop, split, -, spelled⟩ := tokensFrom_split divided .start
  rw [split] at read
  have isSlides : Slides us d₁.slides := by
    have denotes := ofTokens_eq_ok.1 read
    rwa [significant_append spelled.plain] at denotes
  have tokens := tokenize_behind divided second
  rw [split, List.dropLast_concat] at tokens
  rw [ofSource, ofSource, tokens]
  cases scanned₂ : tokenize false second with
  | error e => rfl
  | ok ts =>
    have ended := ended_of_tokenize scanned₂
    have ended' : ∃ t ∈ ts.map (Token.relocate (behind first)), t.lexeme = .endOfInput := by
      obtain ⟨t, among, isEnd⟩ := ended
      exact ⟨_, List.mem_map_of_mem among, isEnd⟩
    show ofTokens (us ++ ts.map (Token.relocate (behind first))) = relocated _ _ (ofTokens ts)
    rw [ofTokens_append spelled.plain isSlides ended', ofTokens_relocate ended]
    cases ofTokens ts <;> rfl

end SlideDeck
