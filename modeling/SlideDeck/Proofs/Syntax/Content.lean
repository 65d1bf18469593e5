import SlideDeck.Proofs.Syntax.ElementParts

/-! # Reading content

`Reader.element` reads exactly the content of the grammar whose elements carry
the numbers and names that the state allows (`element_reads`).

`ReadsContent` is the whole specification of a reader for content with a bounded
number of levels.  Children are read by such a reader, so everything about
children is proved for any reader that meets it, and the induction is on the
levels alone: neither direction needs an induction over trees or derivations. -/

namespace SlideDeck.Syntax

open Reader

variable {s s' : Upcoming} {r : Reader Element} {levels : Nat}

/-! ## Content begins with an identifier -/

theorem Head.first {kind : Kind} {head : List Token} {name : Option Bytes} {place : Position}
    (h : Head kind head name place) (behind : List Token) :
    ∃ word place' more, head ++ behind = ⟨.identifier word, place'⟩ :: more ∧
      (nextLexeme more = .leftParen ∨ nextLexeme more = .definition) := by
  cases h with
  | unnamed => exact ⟨_, _, _, rfl, .inl rfl⟩
  | named => exact ⟨_, _, _, rfl, .inr rfl⟩

theorem Content.first {ts : List Token} {e : Element} (h : Content ts e) :
    ∃ word place more, ts = ⟨.identifier word, place⟩ :: more ∧
      (nextLexeme more = .leftParen ∨ nextLexeme more = .definition) := by
  cases h with
  | text isHead | centre isHead | padding isHead | stack isHead => exact isHead.first _

theorem Contents.first {ts : List Token} {es : List Element} (h : Contents ts es) :
    ∃ word place more, ts = ⟨.identifier word, place⟩ :: more := by
  cases h with
  | last isContent _ | more isContent _ =>
    obtain ⟨word, place, more, rfl, -⟩ := isContent.first
    exact ⟨word, place, _, rfl⟩

theorem Content.length_pos {ts : List Token} {e : Element} (h : Content ts e) : 0 < ts.length := by
  obtain ⟨word, place, more, rfl, -⟩ := h.first
  exact Nat.zero_lt_succ _

/-! ## Readers for content -/

/-- A reader that reads exactly the content with so many levels that the state allows. -/
structure ReadsContent (r : Reader Element) (levels : Nat) : Prop where
  sound : ∀ {s s' : Upcoming} {e : Element}, r s = .ok (e, s') →
    ∃ ts rest, s.tokens = ts ++ rest ∧ Content ts e ∧ depth e ≤ levels ∧ Fresh s e.flatten ∧
      s' = passed s e.flatten rest
  complete : ∀ {s : Upcoming} {ts rest : List Token} {e : Element}, Content ts e →
    depth e ≤ levels → Fresh s e.flatten → s.tokens = ts ++ rest → nextLexeme rest ≠ .leftBrace →
    r s = .ok (e, passed s e.flatten rest)

/-! ## Children -/

theorem onlyChild_sound (reads : ReadsContent r levels) {e : Element}
    (h : onlyChild r s = .ok (e, s')) :
    ∃ body comma rest, s.tokens = body ++ (comma ++ rest) ∧ Content body e ∧
      OptionalComma comma ∧ depth e ≤ levels ∧ Fresh s e.flatten ∧
      s' = passed s e.flatten rest := by
  rw [onlyChild] at h
  rw [bind_isNext] at h
  by_cases closing : nextLexeme s.tokens = .rightParen
  · simp [closing] at h
  simp only [closing, decide_false, Bool.false_eq_true, if_false] at h
  obtain ⟨e', s₁, readChild, h⟩ := bind_eq_ok.1 h
  obtain ⟨_, s₂, readComma, h⟩ := bind_eq_ok.1 h
  cases h
  obtain ⟨body, more, tokens, isContent, shallow, fresh, rfl⟩ := reads.sound readChild
  obtain ⟨comma, rest, split, optional, rfl⟩ := trailingComma_sound readComma
  rw [passed_tokens] at split
  subst split
  exact ⟨body, comma, rest, tokens, isContent, optional, shallow, fresh, rfl⟩

theorem onlyChild_complete (reads : ReadsContent r levels) {e : Element}
    {body comma rest : List Token} (isContent : Content body e) (optional : OptionalComma comma)
    (shallow : depth e ≤ levels) (fresh : Fresh s e.flatten)
    (tokens : s.tokens = body ++ (comma ++ rest)) (closing : nextLexeme rest = .rightParen) :
    onlyChild r s = .ok (e, passed s e.flatten rest) := by
  obtain ⟨word, place, more, starts, -⟩ := isContent.first
  have notClosing : nextLexeme s.tokens ≠ .rightParen := by
    rw [tokens, starts]
    nofun
  -- What follows the child is a comma or the parenthesis, so it has no block left to read.
  have noBlock : nextLexeme (comma ++ rest) ≠ .leftBrace := by
    cases optional with
    | absent => rw [List.nil_append, closing]; nofun
    | present => nofun
  rw [onlyChild]
  rw [bind_isNext]
  simp only [notClosing, decide_false, Bool.false_eq_true, if_false]
  rw [bind_of_ok (reads.complete isContent shallow fresh tokens noBlock),
    bind_of_ok (trailingComma_complete optional rfl closing)]
  rfl

theorem childrenFrom_sound (reads : ReadsContent r levels) {n : Nat} {es : List Element}
    (enough : s.tokens.length < n) (h : childrenFrom r n s = .ok (es, s')) :
    ∃ body rest, s.tokens = body ++ rest ∧ Contents body es ∧ depthAll es ≤ levels ∧
      Fresh s (Element.flattenAll es) ∧ s' = passed s (Element.flattenAll es) rest := by
  -- Each round takes at least the first token of a child, so the bound does not run out.
  induction n generalizing s es with
  | zero => cases enough
  | succ n ih =>
    rw [childrenFrom] at h
    obtain ⟨e, s₁, readChild, h⟩ := bind_eq_ok.1 h
    obtain ⟨body, more, tokens, isContent, shallow, fresh, rfl⟩ := reads.sound readChild
    rw [bind_isNext, passed_tokens] at h
    by_cases comma : nextLexeme more = .comma
    · obtain ⟨place, more, rfl⟩ := exists_next comma nofun
      simp only [comma, decide_true, if_true, bind_advance, bind_isNext] at h
      simp only [passed_tokens, List.drop_one, List.tail_cons, before_passed] at h
      by_cases closing : nextLexeme more = .rightParen
      · -- The comma before the closing parenthesis is the trailing one.
        simp only [closing, decide_true, if_true] at h
        cases h
        refine ⟨body ++ [⟨.comma, place⟩], more, by simp [tokens], .last isContent .present, ?_⟩
        simpa [depthAll, Element.flattenAll] using ⟨shallow, fresh⟩
      · simp only [closing, decide_false, Bool.false_eq_true, if_false] at h
        obtain ⟨es', s₂, readRest, h⟩ := bind_eq_ok.1 h
        cases h
        have shorter : (passed s e.flatten more).tokens.length < n := by
          rw [passed_tokens]
          simp only [tokens, List.length_append, List.length_cons] at enough
          omega
        obtain ⟨body', rest, rfl, isContents, shallow', fresh', rfl⟩ := ih shorter readRest
        refine ⟨body ++ ⟨.comma, place⟩ :: body', rest, by simp [tokens],
          .more isContent isContents, ?_⟩
        refine ⟨Nat.max_le.2 ⟨shallow, shallow'⟩, fresh_append.2 ⟨fresh, fresh'⟩, ?_⟩
        simp [Element.flattenAll]
    · simp only [comma, decide_false, Bool.false_eq_true, if_false] at h
      cases h
      have isContents := Contents.last isContent .absent
      rw [List.append_nil] at isContents
      refine ⟨body, more, tokens, isContents, ?_⟩
      simpa [depthAll, Element.flattenAll] using ⟨shallow, fresh⟩

theorem childrenFrom_complete (reads : ReadsContent r levels) {es : List Element} :
    ∀ {s : Upcoming} {body rest : List Token} {n : Nat}, Contents body es →
      depthAll es ≤ levels → Fresh s (Element.flattenAll es) → s.tokens = body ++ rest →
      s.tokens.length < n → nextLexeme rest = .rightParen →
      childrenFrom r n s = .ok (es, passed s (Element.flattenAll es) rest) := by
  -- A derivation shrinks with the list of children, and each child is read by `reads` alone.
  induction es with
  | nil =>
    intro s body rest n isContents
    cases isContents
  | cons e es ih =>
    intro s body rest n isContents shallow fresh tokens enough closing
    obtain ⟨n, rfl⟩ := Nat.exists_eq_succ_of_ne_zero (Nat.ne_zero_of_lt enough)
    obtain ⟨shallowChild, shallowRest⟩ := Nat.max_le.1 shallow
    rw [childrenFrom]
    cases isContents with
    | @last _ body comma isContent optional =>
      have single : Element.flattenAll [e] = e.flatten := List.append_nil _
      rw [single] at fresh ⊢
      rw [List.append_assoc] at tokens
      cases optional with
      | absent =>
        rw [List.nil_append] at tokens
        have noBlock : nextLexeme rest ≠ .leftBrace := by rw [closing]; nofun
        rw [bind_of_ok (reads.complete isContent shallowChild fresh tokens noBlock)]
        simp [closing]
      | present =>
        rw [bind_of_ok (reads.complete isContent shallowChild fresh tokens nofun)]
        simp [closing]
    | @more _ _ body rest' place isContent isContents =>
      obtain ⟨freshChild, freshRest⟩ := fresh_append.1 fresh
      obtain ⟨word, place', more, starts⟩ := isContents.first
      rw [List.append_assoc, List.cons_append] at tokens
      -- The next child begins with an identifier, so the comma before it is not a trailing one.
      have notClosing : nextLexeme (rest' ++ rest) ≠ .rightParen := by
        rw [starts]
        nofun
      have shorter : (passed s e.flatten (rest' ++ rest)).tokens.length < n := by
        rw [passed_tokens]
        simp only [tokens, List.length_append, List.length_cons] at enough ⊢
        omega
      rw [bind_of_ok (reads.complete isContent shallowChild freshChild tokens nofun), bind_isNext]
      simp only [passed_tokens, nextLexeme_cons, decide_true, if_true, bind_advance, bind_isNext,
        List.drop_one, List.tail_cons, before_passed, notClosing, decide_false, Bool.false_eq_true,
        if_false]
      rw [bind_of_ok (ih isContents shallowRest freshRest rfl shorter closing)]
      simp [Element.flattenAll]

theorem children_sound (reads : ReadsContent r levels) {es : List Element}
    (h : children r s = .ok (es, s')) :
    ∃ body rest, s.tokens = body ++ rest ∧ Contents body es ∧ depthAll es ≤ levels ∧
      Fresh s (Element.flattenAll es) ∧ s' = passed s (Element.flattenAll es) rest := by
  rw [children] at h
  rw [bind_isNext] at h
  by_cases closing : nextLexeme s.tokens = .rightParen
  · simp [closing] at h
  simp only [closing, decide_false, Bool.false_eq_true, if_false] at h
  exact childrenFrom_sound reads (Nat.lt_succ_self _) h

theorem children_complete (reads : ReadsContent r levels) {es : List Element}
    {body rest : List Token} (isContents : Contents body es) (shallow : depthAll es ≤ levels)
    (fresh : Fresh s (Element.flattenAll es)) (tokens : s.tokens = body ++ rest)
    (closing : nextLexeme rest = .rightParen) :
    children r s = .ok (es, passed s (Element.flattenAll es) rest) := by
  obtain ⟨word, place, more, starts⟩ := isContents.first
  have notClosing : nextLexeme s.tokens ≠ .rightParen := by
    rw [tokens, starts]
    nofun
  rw [children]
  rw [bind_isNext]
  simp only [notClosing, decide_false, Bool.false_eq_true, if_false]
  exact childrenFrom_complete reads isContents shallow fresh tokens (Nat.lt_succ_self _) closing

/-! ## Arguments -/

/-- What stands between the parentheses of content of a kind: how the attributes complete it to an
element, and the children of that element. -/
inductive Arguments : Kind → List Token → (Attributes → Element) → List Element → Prop
  | text {value : Bytes} {comma : List Token} {place : Position} :
      OptionalComma comma →
      Arguments .text (⟨.string value, place⟩ :: comma) (fun a => .text a value) []
  | centre {child : Element} {body comma : List Token} :
      Content body child → OptionalComma comma →
      Arguments .centre (body ++ comma) (fun a => .centre a child) [child]
  | padding {child : Element} {body comma : List Token} :
      Content body child → OptionalComma comma →
      Arguments .padding (body ++ comma) (fun a => .padding a child) [child]
  | stack {axis : Axis} {children : List Element} {body : List Token} :
      Contents body children →
      Arguments axis.kind body (fun a => .stack a axis children) children

theorem Arguments.content {kind : Kind} {head args tail : List Token} {a : Attributes}
    {complete : Attributes → Element} {children : List Element}
    (isArguments : Arguments kind args complete children)
    (isHead : Head kind head a.name a.position) (isTail : Tail kind tail a.params) :
    Content (head ++ (args ++ tail)) (complete a) := by
  cases isArguments with
  | text optional => exact .text isHead optional isTail
  | centre isContent optional =>
    rw [List.append_assoc]
    exact .centre isHead isContent optional isTail
  | padding isContent optional =>
    rw [List.append_assoc]
    exact .padding isHead isContent optional isTail
  | stack isContents => exact .stack isHead isContents isTail

theorem Content.parts {ts : List Token} {e : Element} (h : Content ts e) :
    ∃ kind head args tail complete children a,
      ts = head ++ (args ++ tail) ∧ Head kind head a.name a.position ∧
      Arguments kind args complete children ∧ Tail kind tail a.params ∧ complete a = e := by
  cases h with
  | text isHead optional isTail =>
    exact ⟨_, _, _, _, _, _, _, rfl, isHead, .text optional, isTail, rfl⟩
  | @centre _ _ head body comma tail isHead isContent optional isTail =>
    exact ⟨_, head, body ++ comma, tail, _, _, _, by simp, isHead, .centre isContent optional,
      isTail, rfl⟩
  | @padding _ _ head body comma tail isHead isContent optional isTail =>
    exact ⟨_, head, body ++ comma, tail, _, _, _, by simp, isHead, .padding isContent optional,
      isTail, rfl⟩
  | stack isHead isContents isTail =>
    exact ⟨_, _, _, _, _, _, _, rfl, isHead, .stack isContents, isTail, rfl⟩

theorem Arguments.attributes {kind : Kind} {args : List Token} {complete : Attributes → Element}
    {children : List Element} (h : Arguments kind args complete children) (a : Attributes) :
    (complete a).attributes = a := by
  cases h <;> rfl

theorem Arguments.flatten {kind : Kind} {args : List Token} {complete : Attributes → Element}
    {children : List Element} (h : Arguments kind args complete children) (a : Attributes) :
    (complete a).flatten = complete a :: Element.flattenAll children := by
  cases h <;> simp [Element.flatten, Element.flattenAll]

theorem Arguments.depth {kind : Kind} {args : List Token} {complete : Attributes → Element}
    {children : List Element} (h : Arguments kind args complete children) (a : Attributes) :
    Syntax.depth (complete a) = depthAll children + 1 := by
  cases h <;> simp [Syntax.depth, depthAll]

theorem textArgument_sound {value : Bytes} (h : textArgument s = .ok (value, s')) :
    ∃ comma place rest, s.tokens = ⟨.string value, place⟩ :: (comma ++ rest) ∧
      OptionalComma comma ∧ s' = before s rest := by
  cases tokens : s.tokens with
  | nil => simp [textArgument, nextToken, tokens] at h
  | cons t more =>
    obtain ⟨l, place⟩ := t
    cases l with
    | string value' =>
      simp only [textArgument, bind_current, nextToken, tokens, List.head?_cons,
        Option.getD_some, bind_advance] at h
      obtain ⟨_, _, readComma, h⟩ := bind_eq_ok.1 h
      cases h
      obtain ⟨comma, rest, split, optional, rfl⟩ := trailingComma_sound readComma
      simp only [before_tokens, List.drop_one, List.tail_cons] at split
      subst split
      exact ⟨comma, place, rest, rfl, optional, rfl⟩
    | _ => simp [textArgument, nextToken, tokens] at h

theorem textArgument_complete {value : Bytes} {comma rest : List Token} {place : Position}
    (optional : OptionalComma comma)
    (tokens : s.tokens = ⟨.string value, place⟩ :: (comma ++ rest))
    (closing : nextLexeme rest = .rightParen) :
    textArgument s = .ok (value, before s rest) := by
  have read := trailingComma_complete (s := before s (comma ++ rest)) optional rfl closing
  simp only [textArgument, bind_current, nextToken, tokens, List.head?_cons, Option.getD_some,
    bind_advance, List.drop_one, List.tail_cons]
  rw [bind_of_ok read]
  rfl

theorem arguments_sound (reads : ReadsContent r levels) {kind : Kind}
    {complete : Attributes → Element} (h : arguments r kind s = .ok (complete, s')) :
    ∃ args children rest, s.tokens = args ++ rest ∧ Arguments kind args complete children ∧
      depthAll children ≤ levels ∧ Fresh s (Element.flattenAll children) ∧
      s' = passed s (Element.flattenAll children) rest := by
  cases kind <;> obtain ⟨x, s₁, read, h⟩ := bind_eq_ok.1 h <;> cases h
  case text =>
    obtain ⟨comma, place, rest, tokens, optional, rfl⟩ := textArgument_sound read
    exact ⟨⟨.string x, place⟩ :: comma, [], rest, tokens, .text optional, Nat.zero_le _,
      fresh_nil s, rfl⟩
  case centre =>
    obtain ⟨body, comma, rest, tokens, isContent, optional, shallow, fresh, rfl⟩ :=
      onlyChild_sound reads read
    refine ⟨body ++ comma, [x], rest, by simp [tokens], .centre isContent optional, ?_⟩
    simpa [depthAll, Element.flattenAll] using ⟨shallow, fresh⟩
  case padding =>
    obtain ⟨body, comma, rest, tokens, isContent, optional, shallow, fresh, rfl⟩ :=
      onlyChild_sound reads read
    refine ⟨body ++ comma, [x], rest, by simp [tokens], .padding isContent optional, ?_⟩
    simpa [depthAll, Element.flattenAll] using ⟨shallow, fresh⟩
  case row =>
    obtain ⟨body, rest, tokens, isContents, more⟩ := children_sound reads read
    exact ⟨body, x, rest, tokens, @Arguments.stack .horizontal _ _ isContents, more⟩
  case column =>
    obtain ⟨body, rest, tokens, isContents, more⟩ := children_sound reads read
    exact ⟨body, x, rest, tokens, @Arguments.stack .vertical _ _ isContents, more⟩

theorem arguments_complete (reads : ReadsContent r levels) {kind : Kind} {args rest : List Token}
    {complete : Attributes → Element} {children : List Element}
    (isArguments : Arguments kind args complete children) (shallow : depthAll children ≤ levels)
    (fresh : Fresh s (Element.flattenAll children)) (tokens : s.tokens = args ++ rest)
    (closing : nextLexeme rest = .rightParen) :
    arguments r kind s = .ok (complete, passed s (Element.flattenAll children) rest) := by
  cases isArguments with
  | text optional => exact bind_of_ok (textArgument_complete optional tokens closing)
  | @centre child body comma isContent optional =>
    simp only [depthAll, Element.flattenAll, List.append_nil, Nat.max_zero] at shallow fresh ⊢
    rw [List.append_assoc] at tokens
    exact bind_of_ok (onlyChild_complete reads isContent optional shallow fresh tokens closing)
  | @padding child body comma isContent optional =>
    simp only [depthAll, Element.flattenAll, List.append_nil, Nat.max_zero] at shallow fresh ⊢
    rw [List.append_assoc] at tokens
    exact bind_of_ok (onlyChild_complete reads isContent optional shallow fresh tokens closing)
  | @stack axis _ _ isContents =>
    have read := children_complete reads isContents shallow fresh tokens closing
    cases axis <;> exact bind_of_ok read

/-! ## Elements -/

theorem ite_bind {α β : Type} (c : Prop) [Decidable c] (r₁ r₂ : Reader α) (f : α → Reader β) :
    (if c then r₁ else r₂) >>= f = if c then r₁ >>= f else r₂ >>= f := by
  split <;> rfl

theorem element_succ (levels : Nat) (s : Upcoming) :
    element (levels + 1) s
      = (elementHead >>= fun head =>
          arguments (element levels) head.2.2 >>= fun complete =>
            elementTail head.2.2 >>= fun params =>
              pure (complete ⟨head.1, head.2.1, params, (nextToken s).position⟩)) s := by
  rw [element, bind_current]
  simp only [elementHead, elementTail, bind_assoc, pure_bind, ite_bind]

/-- A completed element is allowed together with its children if its number and name are, and the
children are after it. -/
theorem Arguments.fresh {kind : Kind} {args : List Token} {complete : Attributes → Element}
    {children : List Element} (h : Arguments kind args complete children) {a : Attributes}
    (rest : List Token) :
    Fresh s (complete a).flatten ↔
      (a.id = s.nextId ∧ ∀ name ∈ a.name, name ∉ s.names ∧ ¬ isReserved name) ∧
        Fresh (passed s [complete a] rest) (Element.flattenAll children) := by
  rw [h.flatten, ← List.singleton_append, @fresh_append s [complete a] _ rest, fresh_single,
    Element.id, Element.name, h.attributes]

theorem Arguments.passed {kind : Kind} {args : List Token} {complete : Attributes → Element}
    {children : List Element} (h : Arguments kind args complete children) (a : Attributes)
    (rest : List Token) :
    Syntax.passed s [complete a] rest
      = { s with tokens := rest, nextId := s.nextId + 1, names := a.name.toList ++ s.names } :=
  passed_single (by rw [Element.name, h.attributes]) rest

theorem Content.depth_pos {ts : List Token} {e : Element} (h : Content ts e) : 0 < depth e := by
  cases h <;> exact Nat.zero_lt_succ _

/-- Elements are read exactly where the grammar has content with as many levels at most. -/
theorem element_reads (levels : Nat) : ReadsContent (element levels) levels := by
  induction levels with
  | zero =>
    refine ⟨fun h => ?_, fun isContent shallow => ?_⟩
    · cases h
    · exact absurd shallow (Nat.not_le.2 isContent.depth_pos)
  | succ levels ih =>
    refine ⟨fun {s s' e} h => ?_, fun {s ts rest e} isContent shallow fresh tokens noBlock => ?_⟩
    -- Soundness: the state after the head is the one after the root alone, and the children go on
    -- from there.
    · rw [element_succ] at h
      obtain ⟨⟨id, name, kind⟩, s₁, readHead, h⟩ := bind_eq_ok.1 h
      obtain ⟨complete, s₂, readArguments, h⟩ := bind_eq_ok.1 h
      obtain ⟨params, s₃, readTail, h⟩ := bind_eq_ok.1 h
      cases h
      obtain ⟨head, more, tokens, isHead, free, rfl, rfl⟩ := elementHead_eq_ok.1 readHead
      obtain ⟨args, children, more', rfl, isArguments, shallow, fresh, rfl⟩ :=
        arguments_sound ih readArguments
      obtain ⟨tail, rest, split, isTail, rfl⟩ := elementTail_sound readTail
      rw [passed_tokens] at split
      subst split
      rw [← isArguments.passed ⟨s.nextId, name, params, (nextToken s).position⟩] at fresh ⊢
      refine ⟨head ++ (args ++ tail), rest, by simp [tokens],
        isArguments.content isHead isTail, ?_, (isArguments.fresh _).2 ⟨⟨rfl, free⟩, fresh⟩, ?_⟩
      · rw [isArguments.depth]
        exact Nat.succ_le_succ shallow
      · rw [isArguments.flatten, before_passed, passed_passed]
        rfl
    -- Completeness: the element is taken apart and its parts are read in turn.
    · obtain ⟨kind, head, args, tail, complete, children, ⟨id, name, params, place⟩, rfl, isHead,
        isArguments, isTail, rfl⟩ := isContent.parts
      obtain ⟨⟨rfl, free⟩, freshChildren⟩ :=
        (isArguments.fresh (args ++ (tail ++ rest))).1 fresh
      simp only [List.append_assoc] at tokens isHead isTail
      have starts : (nextToken s).position = place := by
        cases isHead <;> exact congrArg Token.position (nextToken_of tokens)
      rw [← starts] at isHead
      have closing : nextLexeme (tail ++ rest) = .rightParen := by
        cases isTail <;> rfl
      have shallowChildren : depthAll children ≤ levels := by
        rw [isArguments.depth] at shallow
        exact Nat.le_of_succ_le_succ shallow
      rw [element_succ, bind_of_ok (elementHead_eq_ok.2
          ⟨head, args ++ (tail ++ rest), tokens, isHead, free, rfl, rfl⟩),
        ← isArguments.passed ⟨s.nextId, name, params, place⟩,
        bind_of_ok (arguments_complete ih isArguments shallowChildren freshChildren rfl closing),
        bind_of_ok (elementTail_complete isTail rfl noBlock), isArguments.flatten, before_passed,
        passed_passed, starts]
      rfl

end SlideDeck.Syntax
