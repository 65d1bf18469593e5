import SlideDeck.Proofs.Lexical.Tokenize

/-! # Texts that read as given tokens

`Reads text accepted` says that wherever a text stands in a source, the tokens
that it contributes are `accepted`.  Canonical text is built by appending, and
`Reads` is carried along with that: there is one lemma for each way in which a
longer text is made of shorter ones.

A text that `Reads` may be followed by anything, since a lexeme that could go on
is only ever read together with the byte that ends it. -/

namespace SlideDeck.Lexical

open Bytes

/-- A source can be divided into the given lexemes. -/
def Lexes (source : Bytes) (ls : List Lexeme) : Prop :=
  ∃ ps last, Divided ps last source ∧ ps.map Piece.lexeme = ls

theorem lexes_nil : Lexes [] [] :=
  ⟨[], [], .done .nil, rfl⟩

theorem Lexes.lexeme {l : Lexeme} {spelling rest : Bytes} {ls : List Lexeme} (h : Lexes rest ls)
    (spelled : Spelled l spelling) (ends : Ends l rest) : Lexes (spelling ++ rest) (l :: ls) := by
  obtain ⟨ps, last, divided, rfl⟩ := h
  exact ⟨⟨[], spelling, l⟩ :: ps, last, .piece .nil spelled ends divided, rfl⟩

theorem Lexes.blank {b : UInt8} {source : Bytes} {ls : List Lexeme} (h : Lexes source ls)
    (blank : isBlank b) : Lexes (b :: source) ls := by
  obtain ⟨ps, last, divided, rfl⟩ := h
  cases divided with
  | done gap => exact ⟨[], b :: source, .done (.blank blank gap), rfl⟩
  | @piece p ps _ rest gap spelled ends divided =>
    -- The blank joins the gap before the first lexeme.
    exact ⟨⟨b :: p.gap, p.spelling, p.lexeme⟩ :: ps, last,
      .piece (p := ⟨b :: p.gap, p.spelling, p.lexeme⟩) (.blank blank gap) spelled ends divided, rfl⟩

/-- Wherever a text stands in a source, the tokens that it contributes are accepted. -/
def Reads (text : Bytes) (accepted : List Token → Prop) : Prop :=
  ∃ ls, (∀ rest more, Lexes rest more → Lexes (text ++ rest) (ls ++ more)) ∧
    ∀ ts : List Token, ts.map Token.lexeme = ls → accepted ts

variable {text : Bytes} {accepted : List Token → Prop}

theorem reads_nil : Reads [] (· = []) :=
  ⟨[], fun _ _ h => h, fun _ none => List.map_eq_nil_iff.1 none⟩

theorem Reads.imp {weaker : List Token → Prop} (h : Reads text accepted)
    (weaken : ∀ ts, accepted ts → weaker ts) : Reads text weaker := by
  obtain ⟨ls, lexes, accepts⟩ := h
  exact ⟨ls, lexes, fun ts tokens => weaken ts (accepts ts tokens)⟩

theorem Reads.append {text' : Bytes} {accepted' : List Token → Prop} (h : Reads text accepted)
    (h' : Reads text' accepted') :
    Reads (text ++ text') fun ts => ∃ us vs, ts = us ++ vs ∧ accepted us ∧ accepted' vs := by
  obtain ⟨ls, lexes, accepts⟩ := h
  obtain ⟨ls', lexes', accepts'⟩ := h'
  refine ⟨ls ++ ls', fun rest more following => ?_, fun ts tokens => ?_⟩
  · rw [List.append_assoc, List.append_assoc]
    exact lexes _ _ (lexes' _ _ following)
  · -- The tokens split where the lexemes of the two texts meet.
    obtain ⟨us, vs, split, first, second⟩ := List.map_eq_append_iff.1 tokens
    exact ⟨us, vs, split, accepts us first, accepts' vs second⟩

theorem Reads.blank {b : UInt8} (h : Reads text accepted) (blank : isBlank b) :
    Reads (b :: text) accepted := by
  obtain ⟨ls, lexes, accepts⟩ := h
  exact ⟨ls, fun rest more following => (lexes rest more following).blank blank, accepts⟩

/-- A lexeme before a text that ends it. -/
theorem Reads.lexeme {l : Lexeme} {spelling : Bytes} (h : Reads text accepted)
    (spelled : Spelled l spelling) (ends : ∀ rest, Ends l (text ++ rest)) :
    Reads (spelling ++ text) fun ts => ∃ place us, ts = ⟨l, place⟩ :: us ∧ accepted us := by
  obtain ⟨ls, lexes, accepts⟩ := h
  refine ⟨l :: ls, fun rest more following => ?_, fun ts tokens => ?_⟩
  · rw [List.append_assoc]
    exact (lexes rest more following).lexeme spelled (ends rest)
  · cases ts with
    | nil => cases tokens
    | cons t us =>
      obtain ⟨place, rfl⟩ : ∃ place, t = ⟨l, place⟩ :=
        ⟨t.position, by rw [← (List.cons.inj tokens).1]⟩
      exact ⟨place, us, rfl, accepts us (List.cons.inj tokens).2⟩

/-! ## Ends of lexemes -/

theorem ends_identifier {name : Bytes} {b : UInt8} (stops : ¬ continuesIdentifier b)
    (rest : Bytes) : Ends (.identifier name) (b :: rest) := by
  rintro c ⟨⟩
  exact stops

theorem ends_number {literal : Bytes} {v : Binary64} {b : UInt8}
    (stops : ¬ continuesIdentifier b ∧ b ≠ 46) (rest : Bytes) :
    Ends (.number literal v) (b :: rest) := by
  rintro c ⟨⟩
  obtain ⟨stops, notPoint⟩ := stops
  refine ⟨fun digit => stops ?_, notPoint, fun starts => stops ?_⟩
  · simp [continuesIdentifier, digit]
  · simp [continuesIdentifier, starts]

/-- Whatever follows begins with a blank or a comment. -/
def Separated (rest : Bytes) : Prop :=
  ∀ b ∈ rest.head?, isBlank b ∨ b = 47

theorem separator_ends : ∀ b, isBlank b ∨ b = 47 → ¬ continuesIdentifier b ∧ b ≠ 46 ∧ b ≠ 58 := by
  decide +kernel

/-- No lexeme goes on with a gap. -/
theorem ends_of_separated {rest : Bytes} (separated : Separated rest) (l : Lexeme) :
    Ends l rest := by
  cases rest with
  | nil => cases l <;> first | trivial | nofun
  | cons b rest =>
    obtain ⟨noIdentifier, noPoint, noColon⟩ := separator_ends b (separated b rfl)
    cases l with
    | identifier name => exact ends_identifier noIdentifier rest
    | number literal v => exact ends_number ⟨noIdentifier, noPoint⟩ rest
    | colon => exact fun equal => noColon (Option.some.inj equal)
    | _ => trivial

/-! ## Spellings -/

theorem Spelled.literal_eq {literal : Bytes} {v : Binary64} (h : Spelled (.number literal v) text) :
    literal = text := by
  cases h
  rfl

theorem stringBody_escaped (value : Bytes) : StringBody value (value.flatMap escaped) := by
  induction value with
  | nil => exact .nil
  | cons b value ih =>
    rw [List.flatMap_cons]
    generalize value.flatMap escaped = body at ih ⊢
    -- Every byte is escaped on its own; the cases are those of `escaped`.
    rw [escaped]
    split
    · next quote => subst quote; exact .escape .quote ih
    split
    · next backslash => subst backslash; exact .escape .backslash ih
    split
    · next lineFeed => subst lineFeed; exact .escape .lineFeed ih
    split
    · next tab => subst tab; exact .escape .tab ih
    · next notQuote notBackslash _ _ => exact .plain notQuote notBackslash ih

theorem quoted_spelled (value : Bytes) : Spelled (.string value) value.quoted :=
  .string (stringBody_escaped value)

/-- Quoted texts are told apart from whatever stands behind them, as a string ends where its lexeme
does. -/
theorem quoted_append_inj {a b r s : Bytes} (h : a.quoted ++ r = b.quoted ++ s) :
    a = b ∧ r = s := by
  have read (value rest : Bytes) : Scanned.stringBody ((value.quoted ++ rest).drop 1) 0 []
      = Scanned.lexeme (0 + (value.flatMap escaped).length + 1) (.string value) := by
    have body := stringBody_append (stringBody_escaped value) rest 0 []
    rwa [quoted, List.cons_append, List.append_assoc]
  have same := (read a r).symm.trans (h ▸ read b s)
  injection same with _ outcome
  injection outcome with lexeme
  injection lexeme with values
  subst values
  exact ⟨rfl, List.append_cancel_left h⟩

end SlideDeck.Lexical
