import SlideDeck.Proofs.RoundTrip.Content
import SlideDeck.Proofs.Syntax.Document

/-! # Printing and reading again

Reading the canonical text of a document that was read gives the same document
again, and that document has the same canonical text
(`ofSource_printed`).

The rules of a slide are stated of the tree and not of the text.  The tree that
is read again has the numbers, names and levels of the first one, so the rules
need no second look at the source: its interleaving of content and blocks, its
blanks and its comments are gone. -/

namespace SlideDeck

open Bytes Lexical Syntax

namespace Syntax

variable {text : Bytes} {accepted : List Token → Prop}

/-! ## Slides -/

theorem line_reads (h : Reads text accepted) : Reads (Slide.printedLine text) accepted := by
  have whole : Slide.printedLine text = 32 :: 32 :: 32 :: 32 :: (text ++ [10]) := rfl
  have lineFeed := reads_nil.blank (b := 10) (by decide)
  rw [whole]
  refine (((((h.append lineFeed).blank ?_).blank ?_).blank ?_).blank ?_).imp ?_
  iterate 4 decide
  intro ts parts
  obtain ⟨us, vs, rfl, reads, rfl⟩ := parts
  rwa [List.append_nil]

theorem styleBlock_reads {b : StyleBlock} (identifier : IsIdentifier b.target)
    (settable : ∀ x ∈ b.properties.entries, Settable none x)
    (back : ∀ v ∈ b.properties.numbers, v.readsBack) :
    Reads b.printed fun ts => ∃ place us m,
      ts = ⟨.identifier b.target, place⟩ :: us ∧ Block none us m ∧ m.same b.properties := by
  have properties := (block_reads settable back).blank (b := 32) (by decide)
  have whole : b.printed = b.target ++ 32 :: b.properties.text := List.append_assoc ..
  rw [whole]
  refine (properties.lexeme (.identifier identifier) fun rest =>
    ends_identifier (by decide) _).imp ?_
  intro ts parts
  obtain ⟨place, us, rfl, m, isBlock, same⟩ := parts
  exact ⟨place, us, m, rfl, isBlock, same⟩

/-- A style block whose target and properties can be read. -/
def BlockPrintable (b : StyleBlock) : Prop :=
  IsIdentifier b.target ∧ ∀ x ∈ b.properties.entries, Settable none x

theorem styles_read {bs : List StyleBlock} (printable : ∀ b ∈ bs, BlockPrintable b)
    (back : ∀ b ∈ bs, ∀ v ∈ b.properties.numbers, v.readsBack) :
    Reads (bs.flatMap fun b => Slide.printedLine b.printed) fun ts =>
      ∃ cs, Items ts [] cs ∧ StyleBlock.sameAll cs bs := by
  induction bs with
  | nil =>
    apply reads_nil.imp
    rintro ts rfl
    exact ⟨[], .nil, rfl⟩
  | cons b bs ih =>
    obtain ⟨identifier, settable⟩ := printable b (List.mem_cons_self ..)
    have here := line_reads (styleBlock_reads identifier settable (back b (List.mem_cons_self ..)))
    have rest := ih (fun c h => printable c (List.mem_cons_of_mem _ h))
      fun c h => back c (List.mem_cons_of_mem _ h)
    apply (here.append rest).imp
    intro ts parts
    obtain ⟨us, vs, rfl, ⟨place, ws, m, rfl, isBlock, same⟩, cs, isItems, sames⟩ := parts
    exact ⟨⟨b.target, m, place⟩ :: cs, .block isBlock isItems,
      StyleBlock.sameAll_cons.2 ⟨StyleBlock.same_iff.2 ⟨rfl, same⟩, sames⟩⟩

theorem Items.contents {body : List Token} {es : List Element} {bs : List StyleBlock}
    (h : Items body es bs) (spelled : AllSpelled body) :
    ∀ e ∈ es, ∃ ts, Content ts e ∧ AllSpelled ts := by
  induction h with
  | nil => nofun
  | content isContent _ ih =>
    intro e member
    cases member with
    | head => exact ⟨_, isContent, spelled.left⟩
    | tail _ there => exact ih spelled.right e there
  | block _ _ ih =>
    exact ih fun t among => spelled t (List.mem_cons_of_mem _ (List.mem_append_right _ among))

theorem Items.blocks {body : List Token} {es : List Element} {bs : List StyleBlock}
    (h : Items body es bs) (spelled : AllSpelled body) : ∀ b ∈ bs, BlockPrintable b := by
  induction h with
  | nil => nofun
  | content _ _ ih => exact ih spelled.right
  | block isBlock _ ih =>
    intro b member
    cases member with
    | head => exact ⟨spelled.identifier (List.mem_cons_self ..), isBlock.settable⟩
    | tail _ there =>
      exact ih (fun t among => spelled t (List.mem_cons_of_mem _ (List.mem_append_right _ among)))
        b there

/-- The numbers that are set in a slide. -/
def slideNumbers (s : Slide) : List Binary64 :=
  numbersOf s.content.flatten ++ s.styles.flatMap fun b => b.properties.numbers

theorem SlideTokens.reads {ts : List Token} {s : Slide} (h : SlideTokens ts s)
    (spelled : AllSpelled ts) (back : ∀ v ∈ slideNumbers s, v.readsBack) :
    Reads s.printed fun us => ∃ s', SlideTokens us s' ∧ s'.same s := by
  cases h with
  | @mk body content styles first last isItems distinct distinctNames free shallow numbered =>
    obtain ⟨backContent, backStyles⟩ := List.forall_mem_append.1 back
    have spelledBody : AllSpelled body :=
      spelled.mono (List.subset_cons_of_subset _ (List.subset_append_left ..))
    obtain ⟨_, isContent, spelledContent⟩ :=
      isItems.contents spelledBody content (List.mem_singleton_self _)
    have readContent := line_reads (isContent.reads spelledContent backContent)
    have readStyles := styles_read (isItems.blocks spelledBody) fun b among v number =>
      backStyles v (List.mem_flatMap.2 ⟨b, among, number⟩)
    have closing := (reads_nil.blank (b := 10) (by decide)).lexeme .rightBracket fun _ => trivial
    have whole : Slide.printed ⟨content, styles, first, content.flatten.length⟩
        = [91] ++ 10 :: (Slide.printedLine content.printed ++
            ((styles.flatMap fun b => Slide.printedLine b.printed) ++ ([93] ++ [10]))) := by
      simp only [Slide.printed, isContent.not_hole, List.append_assoc]
      rfl
    rw [whole]
    have lines := (readContent.append (readStyles.append closing)).blank (b := 10) (by decide)
    have read := lines.lexeme .leftBracket fun _ => trivial
    apply read.imp
    intro us parts
    obtain ⟨first', _, rfl, _, _, rfl, ⟨content', isContent', same⟩, styled, _, rfl,
      ⟨styles', isItems', sames⟩, last', _, rfl, rfl⟩ := parts
    -- The rules of the slide hold because the content read again is alike.
    have alike := Element.alike_of_same same
    have names := Element.names_of_labels alike.labels
    have lengths : content'.flatten.length = content.flatten.length := by
      simpa using congrArg List.length alike.labels
    refine ⟨⟨content', styles', first', content'.flatten.length⟩, ?_,
      Slide.same_iff.2 ⟨lengths, sames, same⟩⟩
    have isSlide := @SlideTokens.mk _ content' styles' first' last' (.content isContent' isItems')
      (by rwa [StyleBlock.sameAll_targets sames]) (by rwa [names]) (by rwa [names])
      (by rwa [alike.depth]) (by rw [Element.ids_of_labels alike.labels, lengths, numbered])
    simpa using isSlide

/-! ## Documents -/

theorem Slides.reads {ts : List Token} {slides : List Slide} (h : Slides ts slides)
    (spelled : AllSpelled ts) (back : ∀ v ∈ slides.flatMap slideNumbers, v.readsBack) :
    Reads (joined (ascii "\n") (slides.map Slide.printed)) fun us =>
      ∃ slides', Slides us slides' ∧ Document.sameSlides slides' slides := by
  induction h with
  | nil =>
    apply reads_nil.imp
    rintro us rfl
    exact ⟨[], .nil, rfl⟩
  | @cons ts rest s slides isSlide isSlides ih =>
    obtain ⟨backHere, backRest⟩ := List.forall_mem_append.1 back
    have here := isSlide.reads spelled.left backHere
    have following := ih spelled.right backRest
    cases slides with
    | nil =>
      apply here.imp
      intro us parts
      obtain ⟨s', isSlide, same⟩ := parts
      have isSlides := Slides.cons isSlide .nil
      rw [List.append_nil] at isSlides
      exact ⟨[s'], isSlides, Document.sameSlides_cons.2 ⟨same, rfl⟩⟩
    | cons second others =>
      have whole : joined (ascii "\n") ((s :: second :: others).map Slide.printed)
          = s.printed ++ 10 :: joined (ascii "\n") ((second :: others).map Slide.printed) := by
        simp only [List.map_cons, joined, List.append_assoc]
        rfl
      rw [whole]
      apply (here.append (following.blank (b := 10) (by decide))).imp
      intro us parts
      obtain ⟨us, vs, rfl, ⟨s', isSlide, same⟩, slides', isSlides, sames⟩ := parts
      exact ⟨s' :: slides', .cons isSlide isSlides, Document.sameSlides_cons.2 ⟨same, sames⟩⟩

theorem tokensFrom_split {ps : List Piece} {last source : Bytes} (h : Divided ps last source)
    (place : Position) :
    ∃ ts stop, tokensFrom place ps last = ts ++ [⟨.endOfInput, stop⟩] ∧
      ts.map Token.lexeme = ps.map Piece.lexeme ∧ AllSpelled ts := by
  induction h generalizing place with
  | done => exact ⟨[], _, rfl, rfl, nofun⟩
  | @piece p ps last rest gap spelled ends divided ih =>
    obtain ⟨ts, stop, split, lexemes, spelledRest⟩ := ih ((place.after p.gap).after p.spelling)
    refine ⟨⟨p.lexeme, place.after p.gap⟩ :: ts, stop, ?_, ?_, ?_⟩
    · rw [tokensFrom, split]
      rfl
    · rw [List.map_cons, List.map_cons, lexemes]
    · intro t member
      cases member with
      | head => exact ⟨_, spelled⟩
      | tail _ among => exact spelledRest t among

/-- A token with a spelling is neither the end of the input nor a comment. -/
theorem AllSpelled.plain {ts : List Token} (spelled : AllSpelled ts) :
    ∀ t ∈ ts, t.lexeme ≠ .endOfInput ∧ ∀ text, t.lexeme ≠ .comment text := by
  intro t among
  obtain ⟨text, spelling⟩ := spelled t among
  refine ⟨spelling.not_endOfInput, fun comment isComment => ?_⟩
  rw [isComment] at spelling
  cases spelling

/-- A divided source has tokens that decide which documents it is read as. -/
theorem ofSource_divided {ps : List Piece} {last source : Bytes} (h : Divided ps last source) :
    ∃ ts, ts.map Token.lexeme = ps.map Piece.lexeme ∧ AllSpelled ts ∧
      ∀ d, Document.ofSource source = .ok d ↔ Denotes ts d := by
  obtain ⟨ts, stop, split, lexemes, spelled⟩ := tokensFrom_split h .start
  refine ⟨ts, lexemes, spelled, fun d => ?_⟩
  have tokens : Document.ofSource source = Document.ofTokens (ts ++ [⟨.endOfInput, stop⟩]) := by
    rw [Document.ofSource, tokenize_divided h, split]
    rfl
  rw [tokens, ofTokens_eq_ok, significant_append spelled.plain]

end Syntax

/-- The numbers that are set in a document. -/
def Document.numbers (d : Document) : List Binary64 :=
  d.slides.flatMap slideNumbers

/-- The canonical text of a document that was read is read as the same document, and that document
has the same canonical text. -/
theorem Document.ofSource_printed {source : Bytes} {d : Document}
    (read : Document.ofSource source = .ok d) (back : ∀ v ∈ d.numbers, v.readsBack) :
    ∃ d', Document.ofSource d.printed = .ok d' ∧ d'.same d ∧ d'.printed = d.printed := by
  obtain ⟨ts, tokens⟩ : ∃ ts, tokenize false source = .ok ts := by
    cases returned : tokenize false source with
    | ok ts => exact ⟨ts, rfl⟩
    | error e =>
      rw [Document.ofSource, returned] at read
      cases read
  -- The first reading: the slides are derived from tokens that have spellings.
  obtain ⟨ps, last, divided, -⟩ := divided_of_tokenize tokens
  obtain ⟨us, -, spelled, reads⟩ := ofSource_divided divided
  have isSlides : Slides us d.slides := (reads d).1 read
  -- The second one: the canonical text is divided, and its tokens derive the same slides.
  obtain ⟨ls, lexes, accepts⟩ := isSlides.reads spelled back
  obtain ⟨qs, rest, divided', lexemes⟩ := lexes [] [] lexes_nil
  rw [List.append_nil] at divided' lexemes
  obtain ⟨vs, spellings, -, reads'⟩ := ofSource_divided divided'
  obtain ⟨slides, isSlides', same⟩ := accepts vs (spellings.trans lexemes)
  exact ⟨⟨slides⟩, (reads' ⟨slides⟩).2 isSlides', same, printed_of_same same⟩

/-- A style block before the content, a comment, a trailing comma, an escape and a fraction. -/
def annotatedSource : Bytes :=
  ascii "[ slide \x7bwidth: 640, bg: \"#fff00080\"\x7d // first\n
    a :: text(\"x\\n\", ) \x7bsize: 1.50\x7d ]"

theorem annotatedSource_printed :
    ∃ d, Document.ofSource annotatedSource = .ok d ∧ d.numbers.length = 2 ∧
      ∃ d', Document.ofSource d.printed = .ok d' ∧ d'.same d ∧ d'.printed = d.printed := by
  have count : (Document.ofSource annotatedSource).toOption.map (fun d => d.numbers.length)
      = some 2 := by
    decide +kernel
  have back : ∀ v ∈ ((Document.ofSource annotatedSource).toOption.getD ⟨[]⟩).numbers,
      v.readsBack := by
    decide +kernel
  cases read : Document.ofSource annotatedSource with
  | error e =>
    rw [read] at count
    cases count
  | ok d =>
    rw [read] at count back
    exact ⟨d, rfl, Option.some.inj count, Document.ofSource_printed read back⟩

end SlideDeck
