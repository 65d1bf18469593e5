import SlideDeck.Proofs.RoundTrip.Text

/-! # Quoted texts in a source

Wherever a quoted text stands in a source, and whatever stands behind it, a
cursor reads it back and stops right behind its closing quote
(`Cursor.next_quoted`).

* `notMem_quoted`: a quoted text stays on its line.
* `stringBody_cut`: the inside of a string, cut off anywhere, is unterminated.

A text may be cut between a backslash and the byte that it escapes, and then the
backslash is read before the end is found.  So the induction is on the pairs of
the body and not on its bytes. -/

namespace SlideDeck

open Bytes Lexical Scanned

/-! ## Bytes of a quoted text -/

theorem Bytes.notMem_escaped : ∀ b, newline ∉ escaped b ∧ 9 ∉ escaped b := by
  decide +kernel

/-- A quoted text has neither a line feed nor a tab. -/
theorem Bytes.notMem_quoted (value : Bytes) : newline ∉ value.quoted ∧ 9 ∉ value.quoted := by
  have apart {b : UInt8} (plain : b ≠ 34) (none : ∀ c, b ∉ escaped c) : b ∉ value.quoted := by
    simp [quoted, plain, none]
  exact ⟨apart (by decide) fun c => (notMem_escaped c).1, apart (by decide) fun c =>
    (notMem_escaped c).2⟩

/-- Bytes without a line feed are columns of one line. -/
theorem Position.after_oneLine (p : Position) {text : Bytes} (oneLine : newline ∉ text) :
    p.after text = ⟨p.offset + text.length, p.line, p.column + text.length⟩ := by
  induction text generalizing p with
  | nil => rfl
  | cons b text ih =>
    obtain ⟨here, there⟩ := not_or.1 (mt List.mem_cons.2 oneLine)
    show (p.step b).after text = _
    rw [ih _ there, step, if_neg (Ne.symm here), List.length_cons, Nat.add_right_comm,
      Nat.add_right_comm p.column, Nat.add_assoc, Nat.add_assoc]

/-! ## Strings that are cut off -/

/-- The inside of a string is unterminated wherever it is cut off. -/
theorem Lexical.stringBody_cut {value body : Bytes} (h : StringBody value body) {cut : Bytes}
    (begins : cut <+: body) (n : Nat) (reversed : Bytes) :
    stringBody cut n reversed = fault (n + cut.length) 0 .unterminatedString := by
  induction h generalizing cut n reversed with
  | nil =>
    rw [List.prefix_nil.1 begins]
    rfl
  | plain notQuote notBackslash _ ih =>
    rcases List.prefix_cons_iff.1 begins with rfl | ⟨cut, rfl, inner⟩
    · rfl
    · rw [stringBody_plain notQuote notBackslash, ih inner, List.length_cons]
      congr 1
      omega
  | escape escape _ ih =>
    rcases List.prefix_cons_iff.1 begins with rfl | ⟨escaped, rfl, behind⟩
    · rfl
    rcases List.prefix_cons_iff.1 behind with rfl | ⟨cut, rfl, inner⟩
    · rfl
    · rw [stringBody_escape escape, ih inner, List.length_cons, List.length_cons]
      congr 1
      omega

/-- A proper beginning of a string is read as an unterminated one. -/
theorem Lexical.ofBytes_cut {value text cut : Bytes} (spelled : Spelled (.string value) text)
    (begins : cut <+: text) (proper : cut ≠ text) (nonempty : cut ≠ []) :
    ofBytes cut = fault cut.length 0 .unterminatedString ∧ cut.head? = some 34 := by
  cases spelled with
  | @string _ body isBody =>
    rcases List.prefix_cons_iff.1 begins with rfl | ⟨inside, rfl, inner⟩
    · exact absurd rfl nonempty
    · -- The closing quote is missing, so what there is belongs to the body.
      have unclosed : inside <+: body := by
        rcases List.prefix_concat_iff.1 inner with whole | part
        · exact absurd (congrArg _ whole) proper
        · exact part
      have read := stringBody_cut isBody unclosed 1 []
      rw [Nat.add_comm] at read
      exact ⟨by simpa [ofBytes] using read, rfl⟩

/-! ## Cursors -/

section

variable {source : Bytes} (quote : source.head? = some 34) (keepComments : Bool) (place : Position)

include quote

/-- A quote is neither a blank nor the beginning of a comment. -/
theorem gapLength_quote : gapLength keepComments false source 0 = 0 := by
  cases source with
  | nil => cases quote
  | cons b rest =>
    cases quote
    simp [gapLength, isBlank]

theorem Cursor.next_of_lexeme {n : Nat} {l : Lexeme} (read : ofBytes source = lexeme n l) :
    Cursor.next keepComments ⟨place, source⟩
      = (.ok ⟨l, place⟩, ⟨place.after (source.take n), source.drop n⟩) := by
  simp only [Cursor.next, gapLength_quote quote, Cursor.skip, List.take_zero, List.drop_zero,
    Position.after_nil, read, lexeme]

theorem Cursor.next_of_fault {n : Nat} {f : LexFault} (read : ofBytes source = fault n 0 f) :
    Cursor.next keepComments ⟨place, source⟩
      = (.error ⟨place, .lex f.reason⟩, ⟨place.after (source.take n), source.drop n⟩) := by
  simp only [Cursor.next, gapLength_quote quote, Cursor.skip, List.take_zero, List.drop_zero,
    Position.after_nil, read, fault]

end

/-- **Quoting is undone by reading.**  Whatever the bytes of a text are and whatever stands behind
its quoted form, a cursor at the opening quote returns a string with exactly that text and stops
right behind the closing quote, further on in the same line.  A quoted text has neither a line feed
nor a tab, and no proper beginning of it is a string: reading one finds it unterminated. -/
theorem Cursor.next_quoted (keepComments : Bool) (place : Position) (value rest : Bytes) :
    let length := value.quoted.length
    Cursor.next keepComments ⟨place, value.quoted ++ rest⟩
        = (.ok ⟨.string value, place⟩,
            ⟨⟨place.offset + length, place.line, place.column + length⟩, rest⟩) ∧
      newline ∉ value.quoted ∧ 9 ∉ value.quoted ∧
      ∀ cut, cut <+: value.quoted → cut ≠ value.quoted →
        (∀ other, ¬ Spelled (.string other) cut) ∧
          (cut ≠ [] → Cursor.next keepComments ⟨place, cut⟩
            = (.error ⟨place, .lex LexFault.unterminatedString.reason⟩,
                ⟨place.after cut, []⟩)) := by
  intro length
  obtain ⟨oneLine, noTab⟩ := notMem_quoted value
  refine ⟨?_, oneLine, noTab, fun cut begins proper => ⟨fun other spelled => ?_, fun some => ?_⟩⟩
  · have read : ofBytes (value.quoted ++ rest) = lexeme length (.string value) :=
      ofBytes_spelled (quoted_spelled value) trivial
    rw [Cursor.next_of_lexeme rfl keepComments place read, List.take_left, List.drop_left,
      place.after_oneLine oneLine]
  · obtain ⟨b, more, text, -⟩ := spelled.head
    obtain ⟨unterminated, -⟩ :=
      ofBytes_cut (quoted_spelled value) begins proper (text ▸ List.cons_ne_nil b more)
    have read : ofBytes (cut ++ []) = lexeme cut.length (.string other) :=
      ofBytes_spelled spelled trivial
    rw [List.append_nil, unterminated] at read
    cases read
  · obtain ⟨unterminated, quote⟩ := ofBytes_cut (quoted_spelled value) begins proper some
    rw [Cursor.next_of_fault quote keepComments place unterminated, List.take_length,
      List.drop_length]

end SlideDeck
