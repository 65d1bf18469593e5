import SlideDeck.Proofs.Lexical.Lexeme

/-! # True positions

Every position that a scanner stands at or reports is a true one: its line and
column are those that its offset has in the source.

* `TruePosition` says what the line and the column of an offset are.
* `Cursor.Reached` is a scanner that tokens are asked of, in any number and
  whether or not there was one, and that is taken back to the start at any time.
* `StandsIn.next` is the step of such a scanner and `reached_standsIn` its run.
* `outcomes_ordered`: the tokens of a run begin one behind the other.

`StandsIn` says that the source is what was read and what is left, and that the
position is `start.after` what was read.  It does not say where lexemes begin or
end, so it holds just as well where a fault has stopped the scanner in the middle
of one. -/

namespace SlideDeck.Lexical

open Bytes Scanned

/-! ## Lines and columns -/

/-- The offset just behind the last line feed of a text, or its start if there is none. -/
def lineStart (text : Bytes) : Nat :=
  (text.reverse.dropWhile (· != newline)).length

/-- An offset in a source, with the line and the column of it. -/
structure TruePosition (source : Bytes) (p : Position) : Prop where
  inside : p.offset ≤ source.length
  line : p.line = 1 + (source.take p.offset).count newline
  column : p.column + lineStart (source.take p.offset) = 1 + p.offset

theorem line_after (p : Position) (text : Bytes) :
    (p.after text).line = p.line + text.count newline := by
  induction text generalizing p with
  | nil => rfl
  | cons b text ih =>
    show ((p.step b).after text).line = _
    rw [ih, Position.step, List.count_cons]
    by_cases lineFeed : b = newline
    · simp [lineFeed]
      omega
    · simp [lineFeed]

theorem lineStart_concat (text : Bytes) (b : UInt8) :
    lineStart (text ++ [b]) = if b = newline then text.length + 1 else lineStart text := by
  rw [lineStart, List.reverse_append, List.reverse_singleton, List.singleton_append,
    List.dropWhile_cons]
  by_cases lineFeed : b = newline
  · simp [lineFeed]
  · simp [lineFeed, lineStart]

theorem column_after (text : Bytes) :
    (Position.start.after text).column + lineStart text = 1 + text.length := by
  -- The last byte decides, so the induction takes bytes off the end.
  suffices reversed : ∀ r : Bytes,
      (Position.start.after r.reverse).column + lineStart r.reverse = 1 + r.length by
    simpa using reversed text.reverse
  intro r
  induction r with
  | nil => rfl
  | cons b r ih =>
    rw [List.reverse_cons, Position.after_append, lineStart_concat, List.length_reverse]
    show ((Position.start.after r.reverse).step b).column + _ = 1 + (r.length + 1)
    by_cases lineFeed : b = newline
    · simp [Position.step, lineFeed]
    · simp only [Position.step, lineFeed, if_false]
      omega

theorem truePosition_after (text rest : Bytes) :
    TruePosition (text ++ rest) (Position.start.after text) := by
  have offset : (Position.start.after text).offset = text.length := by
    rw [Position.offset_after]
    exact Nat.zero_add _
  refine ⟨?_, ?_, ?_⟩
  · rw [offset, List.length_append]
    exact Nat.le_add_right ..
  · rw [offset, List.take_left]
    exact line_after .start text
  · rw [offset, List.take_left]
    exact column_after text

/-! ## Scanners in a source -/

/-- The cursor has some of a source behind it and the rest before it, and says so. -/
def StandsIn (source : Bytes) (c : Cursor) : Prop :=
  ∃ read, source = read ++ c.rest ∧ c.position = Position.start.after read

/-- The place that a step of a scanner reports: the start of a token, or that of an error. -/
def reported : Except CompileError Token → Position
  | .ok t => t.position
  | .error e => e.position

variable {source : Bytes} {c : Cursor} {keep : Bool}

theorem standsIn_ofSource (source : Bytes) : StandsIn source (.ofSource source) :=
  ⟨[], rfl, rfl⟩

theorem StandsIn.skip (stands : StandsIn source c) (n : Nat) : StandsIn source (c.skip n) := by
  obtain ⟨read, split, place⟩ := stands
  refine ⟨read ++ c.rest.take n, ?_, ?_⟩
  · rw [List.append_assoc]
    show source = read ++ (c.rest.take n ++ c.rest.drop n)
    rw [List.take_append_drop, split]
  · rw [Position.after_append, ← place]
    rfl

theorem StandsIn.truePosition (stands : StandsIn source c) : TruePosition source c.position := by
  obtain ⟨read, split, place⟩ := stands
  rw [split, place]
  exact truePosition_after read c.rest

/-- One step of a scanner: what it reports is true, and it goes on standing in the source. -/
theorem StandsIn.next (stands : StandsIn source c) :
    StandsIn source (c.next keep).2 ∧ TruePosition source (reported (c.next keep).1) := by
  have behindGap := stands.skip (gapLength keep false c.rest 0)
  refine ⟨behindGap.skip _, ?_⟩
  rw [Cursor.next]
  dsimp only
  split
  · exact behindGap.truePosition
  · exact (behindGap.skip _).truePosition

/-- The states of a scanner of a source: at the start, after being asked for a token, and after
being taken back to the start. -/
inductive Reached (keep : Bool) (source : Bytes) : Cursor → Prop
  | start : Reached keep source (.ofSource source)
  | next {c : Cursor} : Reached keep source c → Reached keep source (c.next keep).2
  | reset {c : Cursor} : Reached keep source c → Reached keep source (.ofSource source)

theorem Reached.standsIn (h : Reached keep source c) : StandsIn source c := by
  induction h with
  | start => exact standsIn_ofSource source
  | next _ ih => exact ih.next.1
  | reset _ _ => exact standsIn_ofSource source

/-! ## All tokens -/

/-- What holds of the outcome of every step that keeps an invariant holds of all that a run to the
end of the input returns, and of the error that it may end with. -/
theorem tokens_of_steps {I : Cursor → Prop} {P : Except CompileError Token → Prop}
    (step : ∀ c, I c → I (c.next keep).2 ∧ P (c.next keep).1) {limit : Nat} {reversed : List Token}
    (start : I c) :
    (∀ ts, c.tokens keep limit reversed = .ok ts → ∀ t ∈ ts, t ∈ reversed ∨ P (.ok t)) ∧
      ∀ e, c.tokens keep limit reversed = .error e → P (.error e) := by
  induction limit generalizing c reversed with
  | zero =>
    refine ⟨?_, nofun⟩
    rintro ts ⟨⟩ t among
    exact .inl (List.mem_reverse.1 among)
  | succ limit ih =>
    have kept := step c start
    rw [Cursor.tokens]
    split
    · next e c' outcome =>
      rw [outcome] at kept
      refine ⟨nofun, ?_⟩
      rintro e' ⟨⟩
      exact kept.2
    · next t c' outcome =>
      rw [outcome] at kept
      have here : ∀ u ∈ t :: reversed, u ∈ reversed ∨ P (.ok u) := by
        intro u among
        rcases List.mem_cons.1 among with rfl | before
        · exact .inr kept.2
        · exact .inl before
      split
      · refine ⟨?_, nofun⟩
        rintro ts ⟨⟩ u among
        exact here u (List.mem_reverse.1 among)
      · obtain ⟨returned, refused⟩ := @ih c' (t :: reversed) kept.1
        refine ⟨fun ts read u among => ?_, refused⟩
        rcases returned ts read u among with before | holds
        · exact here u before
        · exact .inr holds

/-- A source has true tokens, or the error that it has is true. -/
theorem tokenize_truePosition (keep : Bool) (source : Bytes) :
    (∀ ts, tokenize keep source = .ok ts → ∀ t ∈ ts, TruePosition source t.position) ∧
      ∀ e, tokenize keep source = .error e → TruePosition source e.position := by
  have run : (∀ ts, tokenize keep source = .ok ts →
        ∀ t ∈ ts, t ∈ [] ∨ TruePosition source t.position) ∧
      ∀ e, tokenize keep source = .error e → TruePosition source e.position :=
    tokens_of_steps (P := fun outcome => TruePosition source (reported outcome))
      (fun _ => StandsIn.next) (standsIn_ofSource source)
  refine ⟨fun ts read t among => ?_, run.2⟩
  exact (run.1 ts read t among).resolve_left List.not_mem_nil

theorem tokenize_error_kind {e : CompileError} (h : tokenize keep source = .error e) :
    e.kind = .lex := by
  have step : ∀ c : Cursor, ∀ e, (c.next keep).1 = .error e → e.kind = .lex := by
    intro c e outcome
    rw [Cursor.next] at outcome
    dsimp only at outcome
    split at outcome
    · cases outcome
    · cases outcome
      rfl
  exact (tokens_of_steps (I := fun _ => True)
    (P := fun outcome => ∀ e, outcome = .error e → e.kind = .lex)
    (fun c _ => ⟨trivial, step c⟩) trivial).2 e h e rfl

/-! ## The order of tokens -/

/-- No lexeme but the end of the input is empty. -/
theorem ofBytes_length_pos {text : Bytes} {n : Nat} {l : Lexeme} (h : ofBytes text = lexeme n l)
    (present : l ≠ .endOfInput) : 0 < n := by
  by_cases comment : ∃ more, text = 47 :: 47 :: more
  · obtain ⟨more, rfl⟩ := comment
    have read : ofBytes (47 :: 47 :: more) = Scanned.comment (47 :: 47 :: more) := by
      simp [ofBytes]
    rw [read] at h
    cases h
    exact Nat.zero_lt_succ _
  have begins := begins_of_lexeme h fun more equal => comment ⟨more, equal⟩
  rcases ofBytes_sound begins h with ⟨-, -, final⟩ | ⟨text, rest, -, rfl, spelled, -⟩
  · exact absurd final present
  · obtain ⟨b, more, rfl, -⟩ := spelled.head
    exact Nat.zero_lt_succ _

theorem offset_skip (c : Cursor) (n : Nat) :
    (c.skip n).position.offset = c.position.offset + min n c.rest.length := by
  rw [Cursor.skip, Position.offset_after, List.length_take]

theorem offset_le_next (keep : Bool) (c : Cursor) :
    c.position.offset ≤ (c.next keep).2.position.offset := by
  rw [Cursor.next]
  simp only [offset_skip]
  omega

/-- A token lies at its cursor or behind it, and the scanner goes on behind the token. -/
theorem token_offset {t : Token} (h : (c.next keep).1 = .ok t) :
    c.position.offset ≤ t.position.offset ∧
      (t.lexeme ≠ .endOfInput → t.position.offset < (c.next keep).2.position.offset) := by
  have behindGap := offset_skip c (gapLength keep false c.rest 0)
  rw [Cursor.next] at h ⊢
  dsimp only at h ⊢
  generalize c.skip (gapLength keep false c.rest 0) = c' at behindGap h ⊢
  cases scanned : ofBytes c'.rest with
  | mk n outcome =>
    rw [scanned] at h
    cases outcome with
    | error fault => cases h
    | ok l =>
      cases h
      have notBefore : c.position.offset ≤ c'.position.offset := by omega
      refine ⟨notBefore, fun present => ?_⟩
      have some : 0 < n := ofBytes_length_pos scanned present
      have left : 0 < c'.rest.length := by
        refine List.length_pos_iff.2 fun empty => present ?_
        rw [empty] at scanned
        cases scanned
        rfl
      show c'.position.offset < (c'.skip n).position.offset
      rw [offset_skip]
      omega

/-- What a scanner reports when it is asked so many times. -/
def outcomes (keep : Bool) : Nat → Cursor → List (Except CompileError Token)
  | 0, _ => []
  | n + 1, c => (c.next keep).1 :: outcomes keep n (c.next keep).2

theorem offset_le_outcomes {n : Nat} {t : Token} (among : .ok t ∈ outcomes keep n c) :
    c.position.offset ≤ t.position.offset := by
  induction n generalizing c with
  | zero => cases among
  | succ n ih =>
    rcases List.mem_cons.1 among with here | later
    · exact (token_offset here.symm).1
    · exact Nat.le_trans (offset_le_next keep c) (ih later)

/-- Of two tokens of a run, the later one begins behind the earlier one, unless that is the end of
the input already. -/
theorem outcomes_ordered (keep : Bool) (n : Nat) (c : Cursor) :
    (outcomes keep n c).Pairwise fun first second => ∀ t u, first = .ok t → second = .ok u →
      t.lexeme ≠ .endOfInput → t.position.offset < u.position.offset := by
  induction n generalizing c with
  | zero => exact .nil
  | succ n ih =>
    refine .cons ?_ (ih _)
    rintro _ later t u here rfl present
    exact Nat.lt_of_lt_of_le ((token_offset here).2 present) (offset_le_outcomes later)

end SlideDeck.Lexical
