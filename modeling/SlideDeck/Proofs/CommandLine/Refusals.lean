import SlideDeck.Proofs.CommandLine.Options
import SlideDeck.Proofs.Deck.Failure
import SlideDeck.Proofs.Relocation.Comments
import SlideDeck.Proofs.Syntax.Refusal
import SlideDeck.Proofs.Text.Decimal

/-! # Sources that a command line refuses

A source that is no document is reported in one line, whatever the command and
the options are, unless events are shown; and nothing else is written
(`CommandLine.run_refused`).

* `errorLine` is that line, with whatever stands in the place of the message.
* `CompileError.report_eq` and `untilNul_eq_self_iff`: a report is that line with
  its message up to the first NUL, so it is whole exactly if the message has none.

That line is made in two ways.  Two commands put it together from the parts of
the error, and the two that compile a deck take the report of the outcome, which
is zero-terminated.  A message with a NUL, as the literal of a colour may bring
one in, comes out whole from the first two and cut from the others. -/

namespace SlideDeck

open Bytes Syntax

/-- The line that reports an error in a file: path, position, kind, and a text for the message. -/
def errorLine (path : Bytes) (e : CompileError) (message : Bytes) : Bytes :=
  path ++ ascii ":" ++ decimal e.position.line ++ ascii ":" ++ decimal e.position.column
    ++ ascii ": " ++ e.kind.name ++ ascii ": " ++ message ++ ascii "\n"

/-! ## Reports -/

theorem untilNul_append {text : Bytes} (whole : 0 ∉ text) (rest : Bytes) :
    untilNul (text ++ rest) = text ++ untilNul rest := by
  rw [untilNul, List.takeWhile_append_of_pos]
  · rfl
  · intro b among
    exact bne_iff_ne.2 fun nul => whole (nul ▸ among)

theorem untilNul_eq_self_iff {text : Bytes} : text.untilNul = text ↔ 0 ∉ text := by
  constructor
  · intro whole among
    rw [← whole] at among
    exact absurd (List.all_eq_true.1 List.all_takeWhile 0 among) (by decide)
  · intro none
    rw [← List.append_nil text, untilNul_append none]
    rfl

theorem nul_notMem_decimal (n : Nat) : 0 ∉ decimal n :=
  fun among => absurd (isDigit_decimal n 0 among) (by decide)

theorem CompileError.report_eq (e : CompileError) :
    e.report = e.position.text ++ ascii ": " ++ e.kind.name ++ ascii ": " ++ e.message.untilNul := by
  have kinds : ∀ k : ErrorKind, 0 ∉ k.name := by
    intro k
    cases k <;> decide +kernel
  rw [report, line]
  refine untilNul_append ?_ _
  simp only [Position.text, List.mem_append, not_or]
  exact ⟨⟨⟨⟨⟨nul_notMem_decimal _, by decide⟩, nul_notMem_decimal _⟩, by decide⟩, kinds _⟩,
    by decide⟩

theorem errorLine_inj {path : Bytes} {e : CompileError} {message message' : Bytes} :
    errorLine path e message = errorLine path e message' ↔ message = message' := by
  rw [errorLine, errorLine, List.append_cancel_right_eq, List.append_cancel_left_eq]

/-! ## Commands -/

variable {source : Bytes} {e : CompileError}

theorem errorAnswer_eq (path : Bytes) (e : CompileError) :
    errorAnswer path e = failure (errorLine path e e.message) := by
  simp [errorAnswer, errorLine, CompileError.line, Position.text]

theorem Deck.compile_refused (refused : Document.ofSource source = .error e) (o : CompileOptions) :
    Deck.compile source o = .error e :=
  except_bind_eq_error.2 (.inl refused)

namespace Invocation

variable {i : Invocation}

/-- Without an observer, nothing is seen of a load that fails. -/
theorem compiled_refused (refused : Document.ofSource source = .error e)
    (quiet : i.verbose = false) (next : Session → Answer) :
    i.compiled source next = failure (errorLine i.path e e.message.untilNul) := by
  have session : i.session = Session.start i.options := by
    rw [Invocation.session, quiet]
    rfl
  have passive : (Session.start i.options).diagnostics.Passive := nofun
  have unseen : sightingsText ((Session.start i.options).report
      (·.emitError (errorArea e) e)) = [] := by
    rw [sightingsText, Session.report]
    dsimp only
    rw [Emitter.emitError, Emitter.emit_of_passive passive (Emitter.not_error_lt _)]
    rfl
  rw [compiled, session, Session.load, Deck.compile_refused refused]
  dsimp only
  rw [unseen, CompileError.report_eq]
  simp [errorLine, Position.text]

theorem tokens_refused (refused : Document.ofSource source = .error e) :
    if e.kind = .lex then i.tokens source = failure (errorLine i.path e e.message)
    else (i.tokens source).exit = 0 ∧ (i.tokens source).stderr = [] := by
  have scanned := tokenize_withoutComments source
  rcases Document.ofSource_eq_error refused with ⟨unscanned, lex⟩ | ⟨⟨ts, divided⟩, other⟩
  · rw [if_pos lex, Invocation.tokens, except_map_eq_error.1 (scanned.symm.trans unscanned)]
    exact errorAnswer_eq i.path e
  · obtain ⟨kept, scan, -⟩ := except_map_eq_ok.1 (scanned.symm.trans divided)
    rw [if_neg other, Invocation.tokens, scan]
    exact ⟨rfl, rfl⟩

end Invocation

namespace CommandLine

/-- What a command with options answers on a file that can be read. -/
theorem exists_answer {options : List Bytes} (valid : ∀ a ∈ options, IsOption a)
    (quiet : ascii "--verbose" ∉ options) {path : Bytes} {file : Bytes → Option Bytes}
    (readable : file path = some source) (command : Bytes) :
    ∃ i : Invocation, run (command :: path :: options) file = i.answer source ∧
      i.command = command ∧ i.path = path ∧ i.verbose = false := by
  obtain ⟨i, accepted⟩ := Invocation.exists_withOptions { command, path } valid
  obtain ⟨-, kept⟩ := Invocation.withOptions_inv accepted
  refine ⟨i, ?_, kept.command, kept.path, kept.quiet quiet⟩
  rw [run, accepted]
  simp only [readable]

/-- **A refused source is reported in one line.**  Where a file is no document, every command on
decks fails, whatever the options are, unless events are shown.  It writes nothing but one line, and
that to the standard error: `format` the whole line, `inspect` and `layout` the line with its message
up to the first NUL.  So these agree exactly if the message has no NUL.  `tokens` writes the whole
line too where the error is lexical; otherwise it succeeds and writes nothing to the standard
error. -/
theorem run_refused (refused : Document.ofSource source = .error e) {options : List Bytes}
    (valid : ∀ a ∈ options, IsOption a) (quiet : ascii "--verbose" ∉ options) {path : Bytes}
    {file : Bytes → Option Bytes} (readable : file path = some source) :
    let answer (command : String) := run (ascii command :: path :: options) file
    let whole := failure (errorLine path e e.message)
    let cut := failure (errorLine path e e.message.untilNul)
    answer "format" = whole ∧ answer "inspect" = cut ∧ answer "layout" = cut ∧
      (cut = whole ↔ 0 ∉ e.message) ∧
      if e.kind = .lex then answer "tokens" = whole
      else (answer "tokens").exit = 0 ∧ (answer "tokens").stderr = [] := by
  intro answer whole cut
  have answers (command : String) := exists_answer valid quiet readable (ascii command)
  refine ⟨?_, ?_, ?_, ?_, ?_⟩
  · obtain ⟨i, run, command, rfl, -⟩ := answers "format"
    show CommandLine.run _ _ = _
    rw [run, Invocation.answer, command, Invocation.format, refused]
    exact errorAnswer_eq i.path e
  · obtain ⟨i, run, command, rfl, silent⟩ := answers "inspect"
    show CommandLine.run _ _ = _
    rw [run, Invocation.answer, command]
    exact Invocation.compiled_refused refused silent _
  · obtain ⟨i, run, command, rfl, silent⟩ := answers "layout"
    show CommandLine.run _ _ = _
    rw [run, Invocation.answer, command]
    exact Invocation.compiled_refused refused silent _
  · rw [← untilNul_eq_self_iff, ← errorLine_inj]
    exact ⟨fun same => congrArg Answer.stderr same, congrArg failure⟩
  · obtain ⟨i, run, command, rfl, -⟩ := answers "tokens"
    have same : answer "tokens" = i.tokens source := by
      show CommandLine.run _ _ = _
      rw [run, Invocation.answer, command]
      rfl
    rw [same]
    exact Invocation.tokens_refused refused

end CommandLine

/-! ## A NUL in a message -/

/-- A text whose fill is given as a NUL. -/
def nulColourSource : Bytes :=
  ascii "[text(\"a\") \x7bfill: \"\x00\"\x7d]"

/-- What is wrong with it. -/
def nulColour : CompileError :=
  ⟨⟨18, 1, 19⟩, .invalidColour [0]⟩

theorem nulColourSource_refused : Document.ofSource nulColourSource = .error nulColour := by
  have fails : (Document.ofSource nulColourSource).map (fun _ => ()) = .error nulColour := by
    decide +kernel
  exact except_map_eq_error.1 fails

/-- A colour that is a NUL is reported in a line that ends before it, or in a whole one. -/
theorem nulColourSource_reported :
    Document.ofSource nulColourSource = .error nulColour ∧
      (∀ a ∈ [ascii "--size=064x48", ascii "--lenient"], IsOption a) ∧
      ascii "--verbose" ∉ [ascii "--size=064x48", ascii "--lenient"] ∧
      CommandLine.run [ascii "layout", ascii "f", ascii "--size=064x48", ascii "--lenient"]
          (fun _ => some nulColourSource)
        = failure (errorLine (ascii "f") nulColour (ascii "'")) ∧
      CommandLine.run [ascii "format", ascii "f", ascii "--size=064x48", ascii "--lenient"]
          (fun _ => some nulColourSource)
        = failure (errorLine (ascii "f") nulColour nulColour.message) := by
  have size : SizeOption (ascii "--size=064x48") ⟨64, 48⟩ := by
    refine ⟨ascii "064", ascii "48", by decide +kernel, ⟨⟨by decide, by decide +kernel⟩, ?_, ?_, ?_⟩,
      ⟨⟨by decide, by decide +kernel⟩, ?_, ?_, ?_⟩⟩ <;> decide +kernel
  have valid : ∀ a ∈ [ascii "--size=064x48", ascii "--lenient"], IsOption a := by
    rintro a (_ | ⟨_, _ | ⟨_, ⟨⟩⟩⟩)
    · exact .size size
    · exact .lenient
  have quiet : ascii "--verbose" ∉ [ascii "--size=064x48", ascii "--lenient"] := by decide +kernel
  have cut : nulColour.message.untilNul = ascii "'" := by decide +kernel
  obtain ⟨whole, -, layout, -⟩ := @CommandLine.run_refused _ _ nulColourSource_refused _ valid quiet
    (ascii "f") (fun _ => some nulColourSource) rfl
  rw [cut] at layout
  exact ⟨nulColourSource_refused, valid, quiet, layout, whole⟩

/-- Two commands do not report it in the same line. -/
theorem nulColourSource_differs :
    (∃ e, Document.ofSource nulColourSource = .error e) ∧
      CommandLine.run [ascii "inspect", ascii "f"] (fun _ => some nulColourSource)
        ≠ CommandLine.run [ascii "format", ascii "f"] (fun _ => some nulColourSource) :=
  ⟨⟨_, nulColourSource_refused⟩, by decide +kernel⟩

end SlideDeck
