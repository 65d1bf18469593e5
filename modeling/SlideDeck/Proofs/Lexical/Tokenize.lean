import SlideDeck.Proofs.Lexical.Lexeme

/-! # The tokens of a source

`tokenize` returns exactly for the sources that the lexical grammar divides,
and its tokens are those of the division.

* `next_piece`, `next_done` and `next_sound` say what one step of a cursor
  does.
* `tokens_divided` and `tokens_sound` carry that over a whole run, by induction
  on the division and on the number of tokens that may still come.

Two divisions of a source are not compared byte by byte.  A cursor takes the same
step for both, so their first pieces have the same lengths, and the rest follows
by induction. -/

namespace SlideDeck.Lexical

open Bytes

/-! ## One step of a cursor -/

theorem next_piece {p : Piece} {rest : Bytes} (place : Position)
    (gap : Gap p.gap (p.spelling ++ rest)) (spelled : Spelled p.lexeme p.spelling)
    (ends : Ends p.lexeme rest) :
    Cursor.next false ⟨place, p.gap ++ (p.spelling ++ rest)⟩
      = (.ok ⟨p.lexeme, place.after p.gap⟩, ⟨(place.after p.gap).after p.spelling, rest⟩) := by
  have passed := gapLength_append gap (spelled.begins rest) 0
  rw [Nat.zero_add] at passed
  simp only [Cursor.next, passed, Cursor.skip, List.take_left, List.drop_left,
    ofBytes_spelled spelled ends, Scanned.lexeme]

theorem next_done {last : Bytes} (place : Position) (gap : Gap last []) :
    Cursor.next false ⟨place, last⟩
      = (.ok ⟨.endOfInput, place.after last⟩, ⟨place.after last, []⟩) := by
  have passed := gapLength_append gap begins_nil 0
  rw [List.append_nil, Nat.zero_add] at passed
  simp only [Cursor.next, passed, Cursor.skip, List.take_length, List.drop_length,
    Scanned.ofBytes, Scanned.lexeme, List.take_nil, List.drop_nil, Position.after_nil]

/-- A cursor that returns a token stands before the last gap, or before a gap and a lexeme. -/
theorem next_sound {c c' : Cursor} {t : Token} (h : c.next false = (.ok t, c')) :
    (Gap c.rest [] ∧ t.lexeme = .endOfInput) ∨
      ∃ p : Piece, c.rest = p.gap ++ (p.spelling ++ c'.rest) ∧
        Gap p.gap (p.spelling ++ c'.rest) ∧ Spelled p.lexeme p.spelling ∧ p.lexeme = t.lexeme ∧
        (c'.rest.head? ≠ some 46 → Ends p.lexeme c'.rest) := by
  obtain ⟨place, source⟩ := c
  obtain ⟨text, gap, after, split, isGap, begins, length, noText⟩ := gapLength_split false source 0
  cases noText
  simp only [List.nil_append, List.length_nil, Nat.zero_add] at split length
  subst split
  cases scanned : Scanned.ofBytes after with
  | mk n outcome =>
    simp only [Cursor.next, length, Cursor.skip, List.drop_left, scanned, Prod.mk.injEq] at h
    obtain ⟨outcomes, rfl⟩ := h
    cases outcome with
    | error fault => cases outcomes
    | ok l =>
      cases outcomes
      rcases ofBytes_sound begins scanned with ⟨rfl, rfl, rfl⟩ | ⟨text, rest, rfl, rfl, found⟩
      · refine .inl ⟨?_, rfl⟩
        simpa using isGap
      · refine .inr ⟨⟨gap, text, l⟩, ?_⟩
        rw [List.drop_left]
        exact ⟨rfl, isGap, found.1, rfl, found.2⟩

/-! ## A whole run -/

theorem tokens_divided {ps : List Piece} {last source : Bytes} (h : Divided ps last source)
    (place : Position) {limit : Nat} (enough : source.length < limit) (reversed : List Token) :
    Cursor.tokens false limit ⟨place, source⟩ reversed
      = .ok (reversed.reverse ++ tokensFrom place ps last) := by
  induction h generalizing place limit reversed with
  | @done last gap =>
    obtain ⟨limit, rfl⟩ := Nat.exists_eq_succ_of_ne_zero (Nat.ne_zero_of_lt enough)
    simp [Cursor.tokens, next_done place gap, tokensFrom]
  | @piece p ps last rest gap spelled ends _ ih =>
    obtain ⟨limit, rfl⟩ := Nat.exists_eq_succ_of_ne_zero (Nat.ne_zero_of_lt enough)
    obtain ⟨b, more, text, -⟩ := spelled.head
    -- No spelling is empty, so the source shrinks at least as fast as the bound.
    have shorter : rest.length < limit := by
      simp only [List.length_append, text, List.length_cons] at enough
      omega
    simp only [Cursor.tokens, next_piece place gap spelled ends, spelled.not_endOfInput, if_false]
    rw [ih _ shorter]
    simp [tokensFrom]

theorem tokens_sound {limit : Nat} {c : Cursor} {reversed ts : List Token}
    (enough : c.rest.length < limit) (h : c.tokens false limit reversed = .ok ts) :
    ∃ ps last, Divided ps last c.rest := by
  induction limit generalizing c reversed with
  | zero => cases enough
  | succ limit ih =>
    rw [Cursor.tokens] at h
    split at h
    · cases h
    · next t c' step =>
      rcases next_sound step with ⟨gap, final⟩ | ⟨p, split, gap, spelled, lexeme, ends⟩
      · exact ⟨[], c.rest, .done gap⟩
      · have notFinal : t.lexeme ≠ .endOfInput := lexeme ▸ spelled.not_endOfInput
        obtain ⟨b, more, text, -⟩ := spelled.head
        have shorter : c'.rest.length < limit := by
          simp only [split, List.length_append, text, List.length_cons] at enough
          omega
        rw [if_neg notFinal] at h
        obtain ⟨ps, last, divided⟩ := ih shorter h
        rw [split]
        -- What follows can be divided, so it begins with no point that a number could end at.
        exact ⟨p :: ps, last, .piece gap spelled (ends divided.head) divided⟩

/-- A source can be divided in one way only. -/
theorem Divided.unique {ps qs : List Piece} {last last' source : Bytes}
    (h : Divided ps last source) (h' : Divided qs last' source) : ps = qs ∧ last = last' := by
  induction h generalizing qs last' with
  | @done last gap =>
    cases h' with
    | done => exact ⟨rfl, rfl⟩
    | @piece q qs _ rest gap' spelled ends _ =>
      have steps := (next_done .start gap).symm.trans (next_piece .start gap' spelled ends)
      injection steps with outcomes
      injection outcomes with tokens
      injection tokens with lexemes
      exact absurd lexemes.symm spelled.not_endOfInput
  | @piece p ps last rest gap spelled ends _ ih =>
    -- The second division is of the same bytes, so the same cursor steps through it.
    generalize whole : p.gap ++ (p.spelling ++ rest) = source at h'
    cases h' with
    | done gap' =>
      have steps := (next_done .start gap').symm.trans
        (whole ▸ next_piece .start gap spelled ends)
      injection steps with outcomes
      injection outcomes with tokens
      injection tokens with lexemes
      exact absurd lexemes.symm spelled.not_endOfInput
    | @piece q qs _ rest' gap' spelled' ends' divided' =>
      have steps := (next_piece .start gap spelled ends).symm.trans
        (whole ▸ next_piece .start gap' spelled' ends')
      simp only [Prod.mk.injEq, Except.ok.injEq, Token.mk.injEq, Cursor.mk.injEq] at steps
      obtain ⟨⟨lexemes, places⟩, -, rfl⟩ := steps
      have gaps : p.gap.length = q.gap.length := by
        simpa using congrArg Position.offset places
      obtain ⟨gapsEqual, texts⟩ := List.append_inj whole gaps
      have spellings := List.append_cancel_right texts
      obtain ⟨rfl, rfl⟩ := ih divided'
      cases p
      cases q
      simp_all

/-! ## Offsets -/

theorem tokensFrom_marked {ps : List Piece} {last source : Bytes} (h : Divided ps last source)
    (place : Position) :
    (tokensFrom place ps last).map (fun t => (t.lexeme, t.position.offset))
      = marked place.offset ps ++ [(.endOfInput, place.offset + source.length)] := by
  induction h generalizing place with
  | done => simp [tokensFrom, marked]
  | piece _ _ _ _ ih =>
    simp only [tokensFrom, marked, List.map_cons, ih, Position.offset_after, List.cons_append,
      List.length_append, Nat.add_assoc]

theorem tokenize_divided {ps : List Piece} {last source : Bytes} (h : Divided ps last source) :
    tokenize false source = .ok (tokensFrom .start ps last) :=
  tokens_divided h .start (Nat.lt_succ_self _) []

theorem divided_of_tokenize {source : Bytes} {ts : List Token}
    (h : tokenize false source = .ok ts) :
    ∃ ps last, Divided ps last source ∧ ts = tokensFrom .start ps last := by
  obtain ⟨ps, last, divided⟩ : ∃ ps last, Divided ps last source :=
    tokens_sound (c := .ofSource source) (Nat.lt_succ_self _) h
  have tokens := tokenize_divided divided
  rw [h] at tokens
  injection tokens with tokens
  exact ⟨ps, last, divided, tokens⟩

theorem ended_tokensFrom (place : Position) (ps : List Piece) (last : Bytes) :
    ∃ t ∈ tokensFrom place ps last, t.lexeme = .endOfInput := by
  induction ps generalizing place with
  | nil => exact ⟨_, List.mem_singleton_self _, rfl⟩
  | cons p ps ih =>
    obtain ⟨t, among, isEnd⟩ := ih ((place.after p.gap).after p.spelling)
    exact ⟨t, List.mem_cons_of_mem _ among, isEnd⟩

theorem ended_of_tokenize {source : Bytes} {ts : List Token} (h : tokenize false source = .ok ts) :
    ∃ t ∈ ts, t.lexeme = .endOfInput := by
  obtain ⟨ps, last, -, rfl⟩ := divided_of_tokenize h
  exact ended_tokensFrom _ ps last

/-- A source has tokens exactly if the lexical grammar divides it.  The division is unique, and the
tokens are its lexemes in order, each at the offset of its first byte, and the end of the input. -/
theorem tokenize_iff_divided (source : Bytes) :
    ((∃ ts, tokenize false source = .ok ts) ↔ ∃ ps last, Divided ps last source) ∧
      (∀ ps last qs last', Divided ps last source → Divided qs last' source →
        ps = qs ∧ last = last') ∧
      ∀ ps last, Divided ps last source → ∃ ts, tokenize false source = .ok ts ∧
        ts.map (fun t => (t.lexeme, t.position.offset))
          = marked 0 ps ++ [(.endOfInput, source.length)] := by
  refine ⟨⟨?_, ?_⟩, fun _ _ _ _ first second => first.unique second, ?_⟩
  · intro parts
    obtain ⟨ts, returned⟩ := parts
    obtain ⟨ps, last, divided, -⟩ := divided_of_tokenize returned
    exact ⟨ps, last, divided⟩
  · intro parts
    obtain ⟨ps, last, divided⟩ := parts
    exact ⟨_, tokenize_divided divided⟩
  · intro ps last divided
    refine ⟨_, tokenize_divided divided, ?_⟩
    simpa [Position.start] using tokensFrom_marked divided .start

end SlideDeck.Lexical
