import SlideDeck.Proofs.Lexical.Place
import SlideDeck.Proofs.Lexical.Tokenize
import SlideDeck.Proofs.Relocation.Document
import SlideDeck.Proofs.RoundTrip.Text

/-! # Scanning behind another source

A source behind another one and a line feed is scanned as it is alone, with all
positions moved to where it stands (`tokenize_behind`).

* `Scans` is a run of a cursor to the end of the input, without a bound and
  without the tokens before it.
* `Scans.relocate`: a run from another place is the same run moved, provided
  that moving respects steps over bytes.
* `next_seam`: at the end of the first source, a cursor steps over the line
  feed as if it had stood behind it.

The line feed ends a comment or a lexeme at the end of the first source, and
belongs to neither, so that no lexeme is scanned across the seam. -/

namespace SlideDeck

open Bytes Lexical

variable {f : Position → Position} {keep : Bool} {c : Cursor} {source : Bytes}

/-! ## Moving a cursor -/

def Cursor.relocate (f : Position → Position) (c : Cursor) : Cursor :=
  ⟨f c.position, c.rest⟩

/-- The function moves a step over a byte to a step over this byte. -/
def Steady (f : Position → Position) : Prop :=
  ∀ p b, (f p).step b = f (p.step b)

namespace Steady

variable (steady : Steady f)
include steady

theorem after (p : Position) (text : Bytes) : (f p).after text = f (p.after text) := by
  induction text generalizing p with
  | nil => rfl
  | cons b text ih =>
    show ((f p).step b).after text = f ((p.step b).after text)
    rw [steady, ih]

theorem skip (c : Cursor) (n : Nat) : (c.relocate f).skip n = (c.skip n).relocate f := by
  show Cursor.mk ((f c.position).after _) _ = Cursor.mk (f (c.position.after _)) _
  rw [steady.after]
  rfl

theorem next (c : Cursor) :
    (c.relocate f).next keep
      = (relocated f (Token.relocate f) (c.next keep).1, (c.next keep).2.relocate f) := by
  have gap : (c.relocate f).skip (gapLength keep false (c.relocate f).rest 0)
      = (c.skip (gapLength keep false c.rest 0)).relocate f := steady.skip c _
  rw [Cursor.next, Cursor.next, gap]
  generalize c.skip (gapLength keep false c.rest 0) = c'
  have scanned : Scanned.ofBytes (c'.relocate f).rest = Scanned.ofBytes c'.rest := rfl
  simp only [scanned, steady.skip]
  cases (Scanned.ofBytes c'.rest).outcome with
  | ok l => rfl
  | error fault => rfl

end Steady

/-! ## Runs -/

/-- The tokens from a cursor to the end of the input, or the error that comes before it. -/
inductive Scans (keep : Bool) : Cursor → Except CompileError (List Token) → Prop
  | done {c c' : Cursor} {t : Token} :
      c.next keep = (.ok t, c') → t.lexeme = .endOfInput → Scans keep c (.ok [t])
  | fault {c c' : Cursor} {e : CompileError} :
      c.next keep = (.error e, c') → Scans keep c (.error e)
  | more {c c' : Cursor} {t : Token} {r : Except CompileError (List Token)} :
      c.next keep = (.ok t, c') → t.lexeme ≠ .endOfInput → Scans keep c' r →
      Scans keep c (r.map (t :: ·))

theorem offset_add_rest (c : Cursor) (n : Nat) :
    (c.skip n).position.offset + (c.skip n).rest.length
      = c.position.offset + c.rest.length := by
  rw [offset_skip, Cursor.skip, List.length_drop]
  omega

theorem next_shorter {c' : Cursor} {t : Token} (step : c.next keep = (.ok t, c'))
    (present : t.lexeme ≠ .endOfInput) : c'.rest.length < c.rest.length := by
  obtain ⟨notBefore, behind⟩ := token_offset (congrArg Prod.fst step)
  obtain rfl : (c.next keep).2 = c' := congrArg Prod.snd step
  have total : (c.next keep).2.position.offset + (c.next keep).2.rest.length
      = c.position.offset + c.rest.length :=
    (offset_add_rest ..).trans (offset_add_rest ..)
  have further := behind present
  omega

theorem exists_scans (keep : Bool) (c : Cursor) : ∃ r, Scans keep c r := by
  -- The bytes left bound the number of tokens to come.
  suffices bounded : ∀ n (c : Cursor), c.rest.length < n → ∃ r, Scans keep c r from
    bounded _ c (Nat.lt_succ_self _)
  intro n
  induction n with
  | zero => exact fun c enough => absurd enough (Nat.not_lt_zero _)
  | succ n ih =>
    intro c enough
    obtain ⟨outcome, c', step⟩ : ∃ outcome c', c.next keep = (outcome, c') := ⟨_, _, rfl⟩
    cases outcome with
    | error e => exact ⟨_, .fault step⟩
    | ok t =>
      by_cases final : t.lexeme = .endOfInput
      · exact ⟨_, .done step final⟩
      · have shorter := next_shorter step final
        obtain ⟨r, rest⟩ := ih c' (by omega)
        exact ⟨_, .more step final rest⟩

theorem Scans.tokens {r : Except CompileError (List Token)} (h : Scans keep c r) {limit : Nat}
    {reversed : List Token} (enough : c.rest.length < limit) :
    c.tokens keep limit reversed = r.map (reversed.reverse ++ ·) := by
  induction h generalizing limit reversed with
  | done step final =>
    obtain ⟨limit, rfl⟩ := Nat.exists_eq_succ_of_ne_zero (Nat.ne_zero_of_lt enough)
    simp [Cursor.tokens, step, final, Except.map]
  | fault step =>
    obtain ⟨limit, rfl⟩ := Nat.exists_eq_succ_of_ne_zero (Nat.ne_zero_of_lt enough)
    simp [Cursor.tokens, step, Except.map]
  | @more c c' t r step present _ ih =>
    obtain ⟨limit, rfl⟩ := Nat.exists_eq_succ_of_ne_zero (Nat.ne_zero_of_lt enough)
    have shorter := next_shorter step present
    simp only [Cursor.tokens, step, present, if_false]
    rw [ih (by omega)]
    cases r with
    | error e => rfl
    | ok ts => simp [Except.map]

/-- The run of a cursor from the start of a source is its tokens. -/
theorem scans_tokenize (keep : Bool) (source : Bytes) :
    Scans keep (.ofSource source) (tokenize keep source) := by
  obtain ⟨r, h⟩ := exists_scans keep (.ofSource source)
  have all : tokenize keep source = r := by
    refine (h.tokens (Nat.lt_succ_self _)).trans ?_
    cases r <;> rfl
  rwa [all]

theorem tokenize_of_scans {r : Except CompileError (List Token)}
    (h : Scans keep (.ofSource source) r) : tokenize keep source = r := by
  refine (h.tokens (Nat.lt_succ_self _)).trans ?_
  cases r <;> rfl

theorem Scans.relocate {r : Except CompileError (List Token)} (steady : Steady f)
    (h : Scans keep c r) :
    Scans keep (c.relocate f) (relocated f (List.map (Token.relocate f)) r) := by
  induction h with
  | @done c c' t step final =>
    exact .done (t := t.relocate f) (by rw [steady.next, step]; rfl) final
  | @fault c c' e step =>
    exact .fault (e := e.relocate f) (by rw [steady.next, step]; rfl)
  | @more c c' t r step present _ ih =>
    have further : Scans keep (c.relocate f)
        ((relocated f (List.map (Token.relocate f)) r).map (t.relocate f :: ·)) :=
      .more (by rw [steady.next, step]; rfl) present ih
    cases r <;> exact further

/-- A run depends on a cursor only through the next step. -/
theorem Scans.of_next {c' : Cursor} {r : Except CompileError (List Token)}
    (same : c.next keep = c'.next keep) (h : Scans keep c' r) : Scans keep c r := by
  cases h with
  | done step final => exact .done (same.trans step) final
  | fault step => exact .fault (same.trans step)
  | more step present rest => exact .more (same.trans step) present rest

/-! ## The seam -/

theorem gapLength_add (inComment : Bool) (source : Bytes) (n m : Nat) :
    gapLength keep inComment source (n + m) = n + gapLength keep inComment source m := by
  induction source generalizing inComment m with
  | nil => rfl
  | cons b rest ih =>
    unfold gapLength
    split
    · exact ih _ (m + 1)
    split
    · exact ih _ (m + 1)
    split
    · exact ih _ (m + 1)
    · rfl

/-- A gap at the end of a source is passed over together with a line feed behind it. -/
theorem gapLength_seam {last after : Bytes} (h : Gap last after) (none : after = []) (n : Nat) :
    gapLength false false (last ++ newline :: source) n
      = gapLength false false source (n + (last.length + 1)) := by
  induction h generalizing n with
  | nil => simp [gapLength, isBlank_newline]
  | @blank b rest after blank _ ih =>
    simp only [List.cons_append, gapLength, blank, if_true, Bool.false_eq_true, if_false]
    rw [ih none, List.length_cons]
    congr 1
    omega
  | @comment text rest after oneLine ends _ ih =>
    have entered : gapLength false false (47 :: 47 :: (text ++ rest ++ newline :: source)) n
        = gapLength false true (text ++ (rest ++ newline :: source)) (n + 2) := by
      simp [gapLength, isBlank, newline]
    -- What is left of the gap ends the comment's line, and so does the line feed if nothing is.
    have endsLine : EndsLine (rest ++ newline :: source) := by
      subst none
      cases rest with
      | nil =>
        rintro b ⟨⟩
        rfl
      | cons b rest => exact ends
    simp only [List.cons_append]
    rw [entered, gapLength_comment oneLine, gapLength_of_endsLine endsLine, ih none]
    simp only [List.length_cons, List.length_append]
    congr 1
    omega

theorem skip_append (place : Position) (text rest : Bytes) (n : Nat) :
    (Cursor.mk place (text ++ rest)).skip (text.length + n)
      = (Cursor.mk (place.after text) rest).skip n := by
  simp [Cursor.skip, List.take_append, List.drop_append, List.take_of_length_le]

/-- At the end of a source, a cursor goes on behind a line feed. -/
theorem next_seam {last : Bytes} (gap : Gap last []) (place : Position) (source : Bytes) :
    (Cursor.mk place (last ++ newline :: source)).next false
      = (Cursor.mk (place.after (last ++ [newline])) source).next false := by
  have whole : last ++ newline :: source = (last ++ [newline]) ++ source := by simp
  have passed : gapLength false false (last ++ newline :: source) 0
      = (last ++ [newline]).length + gapLength false false source 0 := by
    rw [gapLength_seam gap rfl, Nat.zero_add, List.length_append, List.length_singleton]
    exact gapLength_add false source (last.length + 1) 0
  have behind : (Cursor.mk place (last ++ newline :: source)).skip
        (gapLength false false (last ++ newline :: source) 0)
      = (Cursor.mk (place.after (last ++ [newline])) source).skip
          (gapLength false false source 0) := by
    rw [passed, whole, skip_append]
  rw [Cursor.next, Cursor.next]
  simp only [behind]

/-! ## Two sources -/

theorem Lexical.Gap.before {gap after after' : Bytes} (h : Gap gap after)
    (heads : after.head? = after'.head?) : Gap gap after' := by
  induction h with
  | nil => exact .nil
  | blank blank _ ih => exact .blank blank (ih heads)
  | @comment text rest after oneLine ends _ ih =>
    refine .comment oneLine ?_ (ih heads)
    rw [EndsLine, List.head?_append, ← heads, ← List.head?_append]
    exact ends

theorem Lexical.ends_seam {l : Lexeme} {rest : Bytes} (ends : Ends l rest) :
    Ends l (rest ++ newline :: source) := by
  cases rest with
  | nil =>
    refine ends_of_separated ?_ l
    rintro b ⟨⟩
    exact .inl isBlank_newline
  | cons b rest => cases l <;> exact ends

/-- The tokens of a source come before those of another one behind it and a line feed. -/
theorem Lexical.Divided.scans {ps : List Piece} {last first : Bytes} (h : Divided ps last first)
    {place : Position} {r : Except CompileError (List Token)}
    (rest : Scans false ⟨place.after (first ++ [newline]), source⟩ r) :
    Scans false ⟨place, first ++ newline :: source⟩
      (r.map ((tokensFrom place ps last).dropLast ++ ·)) := by
  induction h generalizing place with
  | done gap =>
    have whole := rest.of_next (next_seam gap place source)
    cases r <;> exact whole
  | @piece p ps last first gap spelled ends divided ih =>
    obtain ⟨b, more, begins, -⟩ := spelled.head
    have gap' : Gap p.gap (p.spelling ++ (first ++ newline :: source)) :=
      gap.before (by rw [begins]; rfl)
    have step := next_piece place gap' spelled (ends_seam ends)
    have places : place.after (p.gap ++ (p.spelling ++ first) ++ [newline])
        = ((place.after p.gap).after p.spelling).after (first ++ [newline]) := by
      simp only [Position.after_append]
    rw [places] at rest
    have further := Scans.more step spelled.not_endOfInput (ih rest)
    have some : tokensFrom ((place.after p.gap).after p.spelling) ps last ≠ [] := by
      obtain ⟨t, among, -⟩ := ended_tokensFrom ((place.after p.gap).after p.spelling) ps last
      exact List.ne_nil_of_mem among
    rw [tokensFrom, List.dropLast_cons_of_ne_nil some, List.append_assoc, List.append_assoc]
    cases r <;> exact further

/-! ## The place behind a source -/

/-- The place that a position has behind a source and a line feed. -/
def behind (first : Bytes) (p : Position) : Position :=
  ⟨p.offset + (first.length + 1), p.line + (1 + first.count newline), p.column⟩

theorem steady_behind (first : Bytes) : Steady (behind first) := by
  intro p b
  rw [Position.step, Position.step]
  split
  · simp only [behind, Position.mk.injEq, and_true]
    omega
  · simp only [behind, Position.mk.injEq, and_true]
    omega

theorem start_after_seam (first : Bytes) :
    Position.start.after (first ++ [newline]) = behind first .start := by
  rw [Position.after_append]
  show (Position.start.after first).step newline = _
  rw [Position.step, if_pos rfl, Position.offset_after, line_after, behind]
  simp only [Position.mk.injEq]
  refine ⟨?_, ?_, rfl⟩
  · omega
  · omega

/-- A source behind another one is scanned as it is alone, at the place where it stands. -/
theorem tokenize_behind {ps : List Piece} {last first : Bytes} (h : Divided ps last first)
    (source : Bytes) :
    tokenize false (first ++ newline :: source)
      = relocated (behind first)
          (fun ts => (tokensFrom .start ps last).dropLast ++ ts.map (Token.relocate (behind first)))
          (tokenize false source) := by
  have moved := (scans_tokenize false source).relocate (steady_behind first)
  rw [Cursor.relocate, Cursor.ofSource] at moved
  rw [← start_after_seam] at moved
  have whole := tokenize_of_scans (h.scans moved)
  rw [whole]
  cases tokenize false source <;> rfl

end SlideDeck
