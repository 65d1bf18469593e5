import SlideDeck.Proofs.Deck.Compile
import SlideDeck.Proofs.Lexical.Place
import SlideDeck.Proofs.Lexical.Tokenize
import SlideDeck.Proofs.Relocation.Reader

/-! # Where the parts of a document begin

Every position that a document carries, and every position that an error is
reported at, is a true position of the source; beyond the lexemes it is always
the position of some token (`Document.positions_true`).

No reader is asked which of its tokens it has taken a position from.  Instead,
everything is moved by a function that leaves the positions of the tokens where
they are and takes every other one to one of them.  The tokens are not moved by
it, so neither is what is read from them, and where nothing is moved everything
stands at a token. -/

namespace SlideDeck

open Syntax Lexical

/-! ## Tokens -/

/-- A function that fixes the tokens and takes every position to that of a token. -/
theorem exists_gathering {ts : List Token} (some : ts ≠ []) :
    ∃ f : Position → Position,
      ts.map (Token.relocate f) = ts ∧ ∀ p, ∃ t ∈ ts, t.position = f p := by
  cases ts with
  | nil => exact absurd rfl some
  | cons first rest =>
    refine ⟨fun p => if p ∈ (first :: rest).map Token.position then p else first.position, ?_, ?_⟩
    · refine (List.map_congr_left fun t among => ?_).trans (List.map_id _)
      have stays : t.position ∈ (first :: rest).map Token.position := List.mem_map_of_mem among
      rw [Token.relocate, if_pos stays]
      rfl
    · intro p
      dsimp only
      split
      · next among => exact List.mem_map.1 among
      · exact ⟨first, List.mem_cons_self .., rfl⟩

/-- What is read from tokens begins at tokens, and so does the error if they are refused. -/
theorem Syntax.ofTokens_positions {ts : List Token} (ended : ∃ t ∈ ts, t.lexeme = .endOfInput) :
    (∀ d, Document.ofTokens ts = .ok d → ∀ p ∈ d.positions, ∃ t ∈ ts, t.position = p) ∧
      ∀ e, Document.ofTokens ts = .error e → ∃ t ∈ ts, t.position = e.position := by
  have some : ts ≠ [] := by
    rintro rfl
    obtain ⟨t, among, -⟩ := ended
    cases among
  obtain ⟨f, fixed, gathered⟩ := exists_gathering some
  have moved := ofTokens_relocate (f := f) ended
  rw [fixed] at moved
  constructor
  · intro d read p among
    rw [read] at moved
    injection moved with moved
    rw [moved, Document.positions_relocate] at among
    obtain ⟨q, -, rfl⟩ := List.mem_map.1 among
    exact gathered q
  · intro e refused
    rw [refused] at moved
    injection moved with moved
    rw [moved]
    exact gathered e.position

/-! ## Resolving -/

theorem exists_of_mapM_error {α β ε : Type} {f : α → Except ε β} {xs : List α} {e : ε}
    (h : xs.mapM f = .error e) : ∃ x ∈ xs, f x = .error e := by
  induction xs with
  | nil => cases h
  | cons x xs ih =>
    rw [List.mapM_cons] at h
    rcases except_bind_eq_error.1 h with first | ⟨y, -, h⟩
    · exact ⟨x, List.mem_cons_self .., first⟩
    rcases except_bind_eq_error.1 h with rest | ⟨ys, -, ⟨⟩⟩
    obtain ⟨x', among, refused⟩ := ih rest
    exact ⟨x', List.mem_cons_of_mem _ among, refused⟩

theorem Slide.position_of_resolve_error {s : Slide} {strict : Bool} {v : Viewport}
    {e : CompileError} (h : s.resolve strict v = .error e) : e.position ∈ s.positions := by
  rw [resolve] at h
  split at h
  · next b rest _ unmatched =>
    cases h
    have among : b ∈ s.unmatchedBlocks := unmatched ▸ List.mem_cons_self ..
    refine List.mem_cons_of_mem _ (List.mem_append_right _ ?_)
    exact List.mem_map_of_mem (List.mem_filter.1 among).1
  · cases h

/-- A block that no element matches is reported where the block begins. -/
theorem Document.position_of_resolve_error {d : Document} {o : CompileOptions} {e : CompileError}
    (h : d.resolve o = .error e) : e.position ∈ d.positions := by
  rw [resolve] at h
  rcases except_bind_eq_error.1 h with refused | ⟨_, -, ⟨⟩⟩
  obtain ⟨s, among, refused⟩ := exists_of_mapM_error refused
  rcases except_bind_eq_error.1 refused with refused | ⟨_, -, ⟨⟩⟩
  exact List.mem_flatMap.2 ⟨s, among, s.position_of_resolve_error refused⟩

/-! ## Sources -/

/-- The place where some token of a source begins. -/
def TokenPosition (source : Bytes) (p : Position) : Prop :=
  ∃ ts, tokenize false source = .ok ts ∧ ∃ t ∈ ts, t.position = p

theorem TokenPosition.true {source : Bytes} {p : Position} (h : TokenPosition source p) :
    TruePosition source p := by
  obtain ⟨ts, read, t, among, rfl⟩ := h
  exact (tokenize_truePosition false source).1 ts read t among

theorem Document.tokenPosition {source : Bytes} {d : Document} (h : ofSource source = .ok d)
    {p : Position} (among : p ∈ d.positions) : TokenPosition source p := by
  obtain ⟨ts, scanned, read⟩ := except_bind_eq_ok.1 h
  exact ⟨ts, scanned, (ofTokens_positions (ended_of_tokenize scanned)).1 d read p among⟩

/-- An error in a document is one of its lexemes, or it is reported at a token. -/
theorem Document.error_position {source : Bytes} {e : CompileError}
    (h : ofSource source = .error e) :
    tokenize false source = .error e ∨ TokenPosition source e.position := by
  rcases except_bind_eq_error.1 h with refused | ⟨ts, scanned, refused⟩
  · exact .inl refused
  · exact .inr ⟨ts, scanned, (ofTokens_positions (ended_of_tokenize scanned)).2 e refused⟩

theorem Deck.error_position {source : Bytes} {o : CompileOptions} {e : CompileError}
    (h : compile source o = .error e) :
    tokenize false source = .error e ∨ TokenPosition source e.position := by
  rcases except_bind_eq_error.1 h with refused | ⟨d, read, refused⟩
  · exact Document.error_position refused
  · exact .inr (Document.tokenPosition read (Document.position_of_resolve_error refused))

/-- **Truth of positions.**  A scanner of a source stands at true positions whatever is asked of it,
and reports true positions; the tokens of a run begin one behind the other.  All that is tokenized,
read and compiled begins at true positions, and all errors are reported at true positions.  The
parts of a document, and the errors that are not about a lexeme, stand at tokens. -/
theorem Document.positions_true (source : Bytes) (keep : Bool) (o : CompileOptions) :
    (∀ c, Reached keep source c → TruePosition source c.position ∧
      TruePosition source (reported (c.next keep).1) ∧
      ∀ n, (outcomes keep n c).Pairwise fun first second =>
        ∀ t u, first = .ok t → second = .ok u →
          t.lexeme ≠ .endOfInput → t.position.offset < u.position.offset) ∧
    (∀ ts, tokenize keep source = .ok ts → ∀ t ∈ ts, TruePosition source t.position) ∧
    (∀ d, ofSource source = .ok d → ∀ p ∈ d.positions,
      TruePosition source p ∧ TokenPosition source p) ∧
    ∀ e, tokenize keep source = .error e ∨ ofSource source = .error e ∨
        Deck.compile source o = .error e →
      TruePosition source e.position ∧ (e.kind ≠ .lex → TokenPosition source e.position) := by
  refine ⟨fun c reached => ?_, (tokenize_truePosition keep source).1, fun d read p among => ?_,
    fun e refused => ?_⟩
  · have stands := reached.standsIn
    exact ⟨stands.truePosition, stands.next.2, fun n => outcomes_ordered keep n c⟩
  · have token := tokenPosition read among
    exact ⟨token.true, token⟩
  · have places : (∃ k, tokenize k source = .error e) ∨ TokenPosition source e.position := by
      rcases refused with refused | refused | refused
      · exact .inl ⟨keep, refused⟩
      · exact (error_position refused).imp_left fun scanned => ⟨false, scanned⟩
      · exact (Deck.error_position refused).imp_left fun scanned => ⟨false, scanned⟩
    rcases places with ⟨k, scanned⟩ | token
    · refine ⟨(tokenize_truePosition k source).2 e scanned, fun notLex => ?_⟩
      exact absurd (tokenize_error_kind scanned) notLex
    · exact ⟨token.true, fun _ => token⟩

end SlideDeck
