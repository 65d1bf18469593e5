import SlideDeck.Proofs.Relocation.Reader
import SlideDeck.Proofs.RoundTrip.Numbers

/-! # Blanks and comments between lexemes

Blanks and comments only separate: a source whose gaps are replaced by others
is read as the same document, or refused for the same reason
(`Document.ofSource_respaced`).

* `Filler` is what may be put between two lexemes, and `Respaced` is a source
  with such gaps in the place of its own.
* `ofTokens_same_lexemes`: what tokens are read as is decided by their lexemes.

To compare two sources, all tokens are moved to one place.  Tokens with the same
lexemes are then the same, so reading them gives the same up to positions, and
nothing has to be known about readers. -/

namespace SlideDeck

open Bytes Lexical Syntax

namespace Lexical

/-! ## Gaps -/

/-- Blanks, and comments with the line feed that ends them. -/
inductive Filler : Bytes → Prop
  | nil : Filler []
  | blank {b : UInt8} {rest : Bytes} : isBlank b → Filler rest → Filler (b :: rest)
  | comment {text rest : Bytes} :
      newline ∉ text → Filler rest → Filler (47 :: 47 :: (text ++ newline :: rest))

/-- The lexemes of some pieces in order, each behind a gap that is not empty, and a last gap. -/
inductive Spaced : List Piece → Bytes → Prop
  | done {last : Bytes} : Filler last → Spaced [] last
  | piece {p : Piece} {ps : List Piece} {gap rest : Bytes} :
      Filler gap → gap ≠ [] → Spaced ps rest → Spaced (p :: ps) (gap ++ (p.spelling ++ rest))

/-- The second source has the lexemes of the first one with gaps of its own before, between and
behind them.  Only those between two lexemes have to be there. -/
inductive Respaced : Bytes → Bytes → Prop
  | empty {source last : Bytes} : Divided [] source source → Filler last → Respaced source last
  | lexemes {p : Piece} {ps : List Piece} {last source gap rest : Bytes} :
      Divided (p :: ps) last source → Filler gap → Spaced ps rest →
      Respaced source (gap ++ (p.spelling ++ rest))

/-! ## Lexemes -/

theorem Filler.separated {gap : Bytes} (h : Filler gap) : Separated gap := by
  cases h with
  | nil => nofun
  | blank blank _ =>
    rintro c ⟨⟩
    exact .inl blank
  | comment =>
    rintro c ⟨⟩
    exact .inr rfl

theorem Filler.separated_append {gap rest : Bytes} (h : Filler gap) (some : gap ≠ []) :
    Separated (gap ++ rest) := by
  cases gap with
  | nil => exact absurd rfl some
  | cons b gap => exact h.separated

theorem Spaced.separated {ps : List Piece} {rest : Bytes} (h : Spaced ps rest) :
    Separated rest := by
  cases h with
  | done last => exact last.separated
  | piece gap some _ => exact gap.separated_append some

theorem Gap.line {text gap after : Bytes} (oneLine : newline ∉ text) (h : Gap gap after) :
    Gap (47 :: 47 :: (text ++ newline :: gap)) after := by
  refine .comment oneLine ?_ (.blank isBlank_newline h)
  rintro b ⟨⟩
  rfl

theorem Lexes.comment {text source : Bytes} {ls : List Lexeme} (h : Lexes source ls)
    (oneLine : newline ∉ text) : Lexes (47 :: 47 :: (text ++ newline :: source)) ls := by
  obtain ⟨ps, last, divided, rfl⟩ := h
  cases divided with
  | done gap => exact ⟨[], _, .done (gap.line oneLine), rfl⟩
  | @piece p ps _ rest gap spelled ends divided =>
    -- The comment joins the gap before the first lexeme.
    have joined := Divided.piece
      (p := ⟨47 :: 47 :: (text ++ newline :: p.gap), p.spelling, p.lexeme⟩)
      (gap.line oneLine) spelled ends divided
    rw [List.cons_append, List.cons_append, List.append_assoc] at joined
    exact ⟨_, last, joined, rfl⟩

theorem Filler.lexes {gap source : Bytes} {ls : List Lexeme} (h : Filler gap)
    (lexes : Lexes source ls) : Lexes (gap ++ source) ls := by
  induction h with
  | nil => exact lexes
  | blank blank _ ih => exact ih.blank blank
  | comment oneLine _ ih =>
    rw [List.cons_append, List.cons_append, List.append_assoc]
    exact ih.comment oneLine

theorem Spaced.lexes {ps : List Piece} {rest : Bytes} (h : Spaced ps rest)
    (spelled : ∀ p ∈ ps, Spelled p.lexeme p.spelling) : Lexes rest (ps.map Piece.lexeme) := by
  induction h with
  | @done last filler =>
    have lexes := filler.lexes lexes_nil
    rwa [List.append_nil] at lexes
  | piece filler _ spaced ih =>
    obtain ⟨here, there⟩ := List.forall_mem_cons.1 spelled
    exact filler.lexes ((ih there).lexeme here (ends_of_separated spaced.separated _))

theorem Divided.spelled {ps : List Piece} {last source : Bytes} (h : Divided ps last source) :
    ∀ p ∈ ps, Spelled p.lexeme p.spelling := by
  induction h with
  | done => nofun
  | piece _ spelled _ _ ih => exact List.forall_mem_cons.2 ⟨spelled, ih⟩

/-- A source with other gaps has the same lexemes. -/
theorem Respaced.lexes {source source' : Bytes} (h : Respaced source source') :
    ∃ ls, Lexes source ls ∧ Lexes source' ls := by
  cases h with
  | empty divided filler =>
    have lexes := filler.lexes lexes_nil
    rw [List.append_nil] at lexes
    exact ⟨[], ⟨[], _, divided, rfl⟩, lexes⟩
  | @lexemes p ps last _ gap rest divided filler spaced =>
    refine ⟨_, ⟨_, _, divided, rfl⟩, ?_⟩
    obtain ⟨here, there⟩ := List.forall_mem_cons.1 divided.spelled
    exact filler.lexes ((spaced.lexes there).lexeme here (ends_of_separated spaced.separated _))

end Lexical

/-! ## Reading -/

theorem Document.ofTokens_same_lexemes {ts us : List Token}
    (ended : ∃ t ∈ ts, t.lexeme = .endOfInput) (h : us.map Token.lexeme = ts.map Token.lexeme)
    (p : Position) :
    relocated (fun _ => p) (Document.relocate fun _ => p) (ofTokens us)
      = relocated (fun _ => p) (Document.relocate fun _ => p) (ofTokens ts) := by
  have placed : ∀ vs : List Token, vs.map (Token.relocate fun _ => p)
      = (vs.map Token.lexeme).map fun l => ⟨l, p⟩ := by
    intro vs
    rw [List.map_map]
    rfl
  have ended' : ∃ t ∈ us, t.lexeme = .endOfInput := by
    obtain ⟨t, among, isEnd⟩ := ended
    have there : Lexeme.endOfInput ∈ us.map Token.lexeme := by
      rw [h, ← isEnd]
      exact List.mem_map_of_mem among
    exact List.mem_map.1 there
  rw [← ofTokens_relocate ended, ← ofTokens_relocate ended', placed, placed, h]

theorem Lexical.Lexes.tokenize {source : Bytes} {ls : List Lexeme} (h : Lexes source ls) :
    ∃ ts, SlideDeck.tokenize false source = .ok ts ∧
      ts.map Token.lexeme = ls ++ [.endOfInput] := by
  obtain ⟨ps, last, divided, rfl⟩ := h
  obtain ⟨ts, stop, split, lexemes, -⟩ := tokensFrom_split divided .start
  refine ⟨_, tokenize_divided divided, ?_⟩
  rw [split, List.map_append, lexemes]
  rfl

/-- **Blanks and comments only separate.**  A source with other gaps between its lexemes, and any
gaps before and behind them, has the same lexemes.  It is read exactly if the first one is, as the
same document with the same canonical text, and else it is refused for the same reason. -/
theorem Document.ofSource_respaced {source source' : Bytes} (h : Respaced source source') :
    (∃ ts ts', tokenize false source = .ok ts ∧ tokenize false source' = .ok ts' ∧
      ts'.map Token.lexeme = ts.map Token.lexeme) ∧
    ((∃ d', ofSource source' = .ok d') ↔ ∃ d, ofSource source = .ok d) ∧
    (∀ d d', ofSource source = .ok d → ofSource source' = .ok d' →
      d'.same d ∧ d'.printed = d.printed) ∧
    ∀ e e', ofSource source = .error e → ofSource source' = .error e' →
      e'.kind = e.kind ∧ e'.message = e.message := by
  obtain ⟨ls, lexes, lexes'⟩ := h.lexes
  obtain ⟨ts, tokens, lexemes⟩ := lexes.tokenize
  obtain ⟨ts', tokens', lexemes'⟩ := lexes'.tokenize
  have same : ts'.map Token.lexeme = ts.map Token.lexeme := lexemes'.trans lexemes.symm
  have forgotten := ofTokens_same_lexemes (ended_of_tokenize tokens) same {}
  have read : ofSource source = ofTokens ts := by rw [ofSource, tokens]; rfl
  have read' : ofSource source' = ofTokens ts' := by rw [ofSource, tokens']; rfl
  rw [← read, ← read'] at forgotten
  refine ⟨⟨ts, ts', tokens, tokens', same⟩, ?_⟩
  rcases alike_of_relocated forgotten with ⟨d', d, second, first, moved⟩ | ⟨e', e, second, first,
    causes⟩
  · have equal : d'.same d := by
      rw [← same_relocate (f := fun _ => {}) (g := fun _ => {}), moved, same_relocate]
      exact same_self_of_ofSource first
    refine ⟨⟨fun _ => ⟨d, first⟩, fun _ => ⟨d', second⟩⟩, ?_, ?_⟩
    · intro d₁ d₂ read₁ read₂
      cases first.symm.trans read₁
      cases second.symm.trans read₂
      exact ⟨equal, printed_of_same equal⟩
    · intro e e' refused
      cases first.symm.trans refused
  · rw [first, second]
    refine ⟨⟨?_, ?_⟩, ?_, ?_⟩
    · rintro ⟨_, ⟨⟩⟩
    · rintro ⟨_, ⟨⟩⟩
    · rintro _ _ ⟨⟩
    · rintro _ _ ⟨⟩ ⟨⟩
      exact ⟨congrArg CompileError.Cause.kind causes,
        congrArg CompileError.Cause.message causes⟩

/-- A text in a slide without any gap, and with a comment before it and blanks between all lexemes.
The two sources are read as the same document. -/
theorem bare_respaced :
    Respaced (ascii "[text(\"\")]") (ascii "// a\n[ text ( \"\" ) ]") ∧
    ∃ d d', Document.ofSource (ascii "[text(\"\")]") = .ok d ∧
      Document.ofSource (ascii "// a\n[ text ( \"\" ) ]") = .ok d' ∧
      d'.same d ∧ d'.printed = d.printed := by
  have word : IsIdentifier (ascii "text") := name_identifier .text
  have ends (rest : Bytes) : Ends (.identifier (ascii "text")) (40 :: rest) :=
    ends_identifier (by decide) rest
  -- Both sources as their gaps and spellings, an empty gap being left out.
  have bare : ascii "[text(\"\")]"
      = [91] ++ (ascii "text" ++ ([40] ++ ([34, 34] ++ ([41] ++ ([93] ++ []))))) := by decide
  have spaced : ascii "// a\n[ text ( \"\" ) ]"
      = 47 :: 47 :: (ascii " a" ++ [newline]) ++ ([91] ++ ([32] ++ (ascii "text" ++ ([32] ++
          ([40] ++ ([32] ++ ([34, 34] ++ ([32] ++ ([41] ++ ([32] ++ ([93] ++ []))))))))))) := by
    decide
  have divided : Divided
      [⟨[], [91], .leftBracket⟩, ⟨[], ascii "text", .identifier (ascii "text")⟩,
        ⟨[], [40], .leftParen⟩, ⟨[], [34, 34], .string []⟩, ⟨[], [41], .rightParen⟩,
        ⟨[], [93], .rightBracket⟩]
      [] (ascii "[text(\"\")]") := by
    rw [bare]
    exact .piece .nil .leftBracket trivial <| .piece .nil (.identifier word) (ends _) <|
      .piece .nil .leftParen trivial <| .piece .nil (.string .nil) trivial <|
        .piece .nil .rightParen trivial <| .piece .nil .rightBracket trivial <| .done .nil
  have comment : Filler (47 :: 47 :: (ascii " a" ++ [newline])) := .comment (by decide) .nil
  have blank : Filler [32] := .blank (by decide) .nil
  have respaced : Respaced (ascii "[text(\"\")]") (ascii "// a\n[ text ( \"\" ) ]") := by
    rw [spaced]
    exact .lexemes divided comment <| .piece blank nofun <| .piece blank nofun <|
      .piece blank nofun <| .piece blank nofun <| .piece blank nofun <| .done .nil
  refine ⟨respaced, ?_⟩
  obtain ⟨-, read, same, -⟩ := Document.ofSource_respaced respaced
  obtain ⟨d, first⟩ : ∃ d, Document.ofSource (ascii "[text(\"\")]") = .ok d :=
    exists_ok (by decide +kernel)
  obtain ⟨d', second⟩ := read.2 ⟨d, first⟩
  exact ⟨d, d', first, second, same d d' first second⟩

end SlideDeck
