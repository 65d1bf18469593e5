import SlideDeck.Proofs.Deck.Compile
import SlideDeck.Proofs.Lexical.Place
import SlideDeck.Proofs.Syntax.Reader

/-! # What tokens are refused for

A sequence of tokens is only ever refused for a fault of the grammar
(`ofTokens_refusal`), so a source is refused for a lexical reason exactly if it
cannot be divided into tokens (`Document.ofSource_eq_error`).

`Grammatical` says of a reader that all its refusals are faults of the grammar.
Sequences of steps keep it, so each reader is taken apart as it is defined, and
the only inductions are on the bounds of the loops. -/

namespace SlideDeck.Syntax

open Reader

variable {α β : Type}

/-- Whatever a reader refuses is a fault of the grammar. -/
structure Grammatical (r : Reader α) : Prop where
  refusal : ∀ s e, r s = .error e →
    ∃ (fault : GrammarFault) (place : Position), e = fault.errorAt place

/-! ## Sequences of steps -/

variable {r r' : Reader α} {k : α → Reader β}

theorem grammatical_total {f : Upcoming → α × Upcoming} (h : ∀ s, r s = .ok (f s)) :
    Grammatical r := by
  refine ⟨fun s e refused => ?_⟩
  cases (h s).symm.trans refused

theorem grammatical_pure (x : α) : Grammatical (pure x) :=
  grammatical_total fun _ => rfl

theorem Grammatical.bind (h : Grammatical r) (rest : ∀ x, Grammatical (k x)) :
    Grammatical (r >>= k) := by
  refine ⟨fun s e refused => ?_⟩
  cases first : r s with
  | error e' =>
    rw [bind_of_error first] at refused
    cases refused
    exact h.refusal s e first
  | ok p =>
    obtain ⟨x, s'⟩ := p
    rw [bind_of_ok first] at refused
    exact (rest x).refusal s' e refused

theorem Grammatical.ite {c : Prop} [Decidable c] (yes : Grammatical r) (no : Grammatical r') :
    Grammatical (if c then r else r') := by
  split
  · exact yes
  · exact no

theorem grammatical_failAt (place : Position) (fault : GrammarFault) :
    Grammatical (failAt place fault : Reader α) := by
  refine ⟨fun s e refused => ?_⟩
  cases refused
  exact ⟨fault, place, rfl⟩

/-- A test that ends the reading, in front of a further reader; what stands behind the refusal is
not read. -/
theorem Grammatical.guard {c : Prop} [Decidable c] {place : Position} {fault : GrammarFault}
    {k : β → Reader α} (h : Grammatical r) :
    Grammatical (if c then failAt place fault >>= k else r) :=
  .ite ⟨fun s e refused => (grammatical_failAt place fault).refusal s e refused⟩ h

/-! ## Single steps -/

theorem grammatical_current : Grammatical current :=
  grammatical_total fun _ => rfl

theorem grammatical_following : Grammatical following :=
  grammatical_total fun _ => rfl

theorem grammatical_advance : Grammatical advance :=
  grammatical_total fun _ => rfl

theorem grammatical_limit : Grammatical limit :=
  grammatical_total fun _ => rfl

theorem grammatical_get : Grammatical get :=
  grammatical_total fun _ => rfl

theorem grammatical_modify (g : Upcoming → Upcoming) : Grammatical (modify g) :=
  grammatical_total fun _ => rfl

theorem grammatical_freshId : Grammatical freshId :=
  grammatical_total fun _ => rfl

theorem grammatical_isNext (l : Lexeme) : Grammatical (isNext l) :=
  grammatical_current.bind fun _ => grammatical_pure _

theorem grammatical_unexpected (expected : Bytes) :
    Grammatical (unexpected expected : Reader α) :=
  grammatical_current.bind fun t => grammatical_failAt t.position _

theorem grammatical_skip (l : Lexeme) (expected : Bytes) : Grammatical (skip l expected) :=
  (grammatical_isNext l).bind fun _ => .ite grammatical_advance (grammatical_unexpected expected)

theorem grammatical_trailingComma : Grammatical trailingComma :=
  (grammatical_isNext _).bind fun _ =>
    .ite (grammatical_following.bind fun _ => .ite grammatical_advance (grammatical_pure ()))
      (grammatical_pure ())

/-! ## Properties -/

theorem grammatical_propertyValue (p : Property) (key : Bytes) :
    Grammatical (propertyValue p key) := by
  refine grammatical_current.bind fun t => ?_
  cases t.lexeme with
  | number literal v =>
    refine .ite (grammatical_failAt ..) (.ite (grammatical_failAt ..) ?_)
    exact .ite (grammatical_failAt ..) (grammatical_advance.bind fun _ => grammatical_pure _)
  | string text =>
    refine .ite (grammatical_failAt ..) ?_
    cases Colour.ofText? text with
    | none => exact grammatical_failAt ..
    | some c => exact grammatical_advance.bind fun _ => grammatical_pure _
  | _ => exact grammatical_unexpected _

theorem grammatical_property (inline : Option Kind) (m : PropertyMap) :
    Grammatical (property inline m) := by
  refine grammatical_current.bind fun t => ?_
  cases t.lexeme with
  | identifier key =>
    dsimp -zeta only
    cases Property.ofKey? key with
    | none => exact grammatical_failAt ..
    | some p =>
      have value : Grammatical (do
          advance
          skip .colon (.ascii "':' after " ++ Bytes.apostrophed key)
          let v ← propertyValue p key
          if ← isNext .comma then advance
          return m.insert key v) := by
        refine grammatical_advance.bind fun _ => (grammatical_skip ..).bind fun _ => ?_
        refine (grammatical_propertyValue p key).bind fun v => (grammatical_isNext _).bind fun _ => ?_
        exact .ite (grammatical_advance.bind fun _ => grammatical_pure _) (grammatical_pure _)
      cases inline with
      | none => exact .guard value
      | some kind => exact .guard (.guard value)
  | _ => exact grammatical_unexpected _

theorem grammatical_propertiesInto (inline : Option Kind) (n : Nat) (m : PropertyMap) :
    Grammatical (propertiesInto inline n m) := by
  induction n generalizing m with
  | zero => exact grammatical_pure m
  | succ n ih =>
    refine (grammatical_isNext _).bind fun _ => ?_
    exact .ite (grammatical_advance.bind fun _ => grammatical_pure m)
      ((grammatical_property inline m).bind ih)

theorem grammatical_properties (inline : Option Kind) : Grammatical (properties inline) :=
  (grammatical_skip ..).bind fun _ => grammatical_limit.bind fun n =>
    grammatical_propertiesInto inline n ∅

/-! ## Content -/

theorem grammatical_elementName : Grammatical elementName := by
  refine grammatical_current.bind fun t => ?_
  cases t.lexeme with
  | identifier name =>
    refine grammatical_following.bind fun l => .ite (.guard ?_) (grammatical_pure none)
    refine grammatical_get.bind fun s => .guard ((grammatical_modify _).bind fun _ => ?_)
    exact grammatical_advance.bind fun _ => grammatical_advance.bind fun _ => grammatical_pure _
  | _ => exact grammatical_pure none

theorem grammatical_elementKind : Grammatical elementKind := by
  refine grammatical_current.bind fun t => ?_
  cases t.lexeme with
  | identifier word =>
    dsimp -zeta only
    cases Kind.ofName? word with
    | none => exact grammatical_failAt ..
    | some kind =>
      exact grammatical_advance.bind fun _ => (grammatical_skip ..).bind fun _ =>
        grammatical_pure kind
  | _ => exact grammatical_unexpected _

section

variable {child : Reader Element} (h : Grammatical child)
include h

theorem grammatical_onlyChild : Grammatical (onlyChild child) := by
  refine (grammatical_isNext _).bind fun _ => .ite ?_ ?_
  · exact (grammatical_unexpected _).bind fun _ => h.bind fun e =>
      grammatical_trailingComma.bind fun _ => grammatical_pure e
  · exact h.bind fun e => grammatical_trailingComma.bind fun _ => grammatical_pure e

theorem grammatical_childrenFrom (n : Nat) : Grammatical (childrenFrom child n) := by
  induction n with
  | zero => exact grammatical_pure []
  | succ n ih =>
    refine h.bind fun e => (grammatical_isNext _).bind fun _ => .ite ?_ (grammatical_pure [e])
    refine grammatical_advance.bind fun _ => (grammatical_isNext _).bind fun _ => ?_
    exact .ite (grammatical_pure [e]) (ih.bind fun es => grammatical_pure (e :: es))

theorem grammatical_children : Grammatical (children child) := by
  have loop : Grammatical (do childrenFrom child (← limit)) :=
    grammatical_limit.bind fun n => grammatical_childrenFrom h n
  exact (grammatical_isNext _).bind fun _ => .ite ((grammatical_unexpected _).bind fun _ => loop) loop

end

theorem grammatical_textArgument : Grammatical textArgument := by
  refine grammatical_current.bind fun t => ?_
  cases t.lexeme with
  | string value =>
    exact grammatical_advance.bind fun _ => grammatical_trailingComma.bind fun _ =>
      grammatical_pure value
  | _ => exact grammatical_unexpected _

theorem grammatical_arguments {child : Reader Element} (h : Grammatical child) (kind : Kind) :
    Grammatical (arguments child kind) := by
  cases kind with
  | text => exact grammatical_textArgument.bind fun _ => grammatical_pure _
  | centre | padding => exact (grammatical_onlyChild h).bind fun _ => grammatical_pure _
  | row | column => exact (grammatical_children h).bind fun _ => grammatical_pure _

theorem grammatical_element (levels : Nat) : Grammatical (element levels) := by
  induction levels with
  | zero => exact grammatical_current.bind fun t => grammatical_failAt t.position _
  | succ levels ih =>
    refine grammatical_current.bind fun t => grammatical_freshId.bind fun id => ?_
    refine grammatical_elementName.bind fun name => grammatical_elementKind.bind fun kind => ?_
    refine (grammatical_arguments ih kind).bind fun complete => (grammatical_skip ..).bind fun _ => ?_
    refine (grammatical_isNext _).bind fun _ => .ite ?_ (grammatical_pure _)
    exact (grammatical_properties _).bind fun _ => grammatical_pure _

/-! ## Slides -/

theorem grammatical_styleBlock (target : Bytes) : Grammatical (styleBlock target) :=
  grammatical_current.bind fun _ => grammatical_advance.bind fun _ =>
    (grammatical_properties none).bind fun _ => grammatical_pure _

theorem grammatical_item (x : Slide) : Grammatical (item x) := by
  refine grammatical_current.bind fun t => ?_
  cases t.lexeme with
  | identifier word =>
    refine grammatical_following.bind fun l => ?_
    cases l with
    | leftBrace =>
      exact (grammatical_styleBlock word).bind fun block => .guard (grammatical_pure _)
    | leftParen | definition =>
      exact .guard ((grammatical_element _).bind fun e => grammatical_pure { x with content := e })
    | _ => exact grammatical_advance.bind fun _ => grammatical_unexpected _
  | _ => exact grammatical_unexpected _

theorem grammatical_itemsInto (n : Nat) (x : Slide) : Grammatical (itemsInto n x) := by
  induction n generalizing x with
  | zero => exact grammatical_pure x
  | succ n ih =>
    exact (grammatical_isNext _).bind fun _ => .ite (grammatical_pure x)
      ((grammatical_item x).bind ih)

theorem grammatical_slide : Grammatical slide := by
  refine grammatical_current.bind fun t => grammatical_advance.bind fun _ => ?_
  refine (grammatical_modify _).bind fun _ => grammatical_limit.bind fun n => ?_
  refine (grammatical_itemsInto n _).bind fun x => .guard (grammatical_advance.bind fun _ => ?_)
  exact grammatical_get.bind fun s => grammatical_pure { x with nodeCount := s.nextId }

theorem grammatical_slidesFrom (n : Nat) (reversed : List Slide) :
    Grammatical (slidesFrom n reversed) := by
  induction n generalizing reversed with
  | zero => exact grammatical_pure _
  | succ n ih =>
    refine grammatical_current.bind fun t => ?_
    cases t.lexeme with
    | endOfInput => exact grammatical_pure _
    | leftBracket => exact grammatical_slide.bind fun x => ih (x :: reversed)
    | _ => exact grammatical_unexpected _

/-! ## Documents -/

/-- Tokens are only refused for a fault of the grammar. -/
theorem ofTokens_refusal {ts : List Token} {e : CompileError}
    (h : Document.ofTokens ts = .error e) :
    ∃ (fault : GrammarFault) (place : Position), e = fault.errorAt place := by
  have loop : Grammatical (do slidesFrom (← limit) []) :=
    grammatical_limit.bind fun n => grammatical_slidesFrom n []
  rcases except_bind_eq_error.1 h with refused | ⟨_, -, ⟨⟩⟩
  exact loop.refusal _ e refused

end SlideDeck.Syntax

namespace SlideDeck

open CompileError

/-- No fault of the grammar is reported as a lexical error, or as a block without an element. -/
theorem GrammarFault.kind_cause (f : GrammarFault) :
    f.cause.kind ≠ .lex ∧ f.cause.kind ≠ .unresolvedStyleTarget := by
  cases f <;> exact ⟨nofun, nofun⟩

/-- A source is refused for what cannot be divided into tokens, or else for a fault of the
grammar. -/
theorem Document.ofSource_eq_error {source : Bytes} {e : CompileError}
    (h : ofSource source = .error e) :
    tokenize false source = .error e ∧ e.kind = .lex ∨
      (∃ ts, tokenize false source = .ok ts) ∧ e.kind ≠ .lex := by
  rcases except_bind_eq_error.1 h with scanned | ⟨ts, scanned, refused⟩
  · exact .inl ⟨scanned, Lexical.tokenize_error_kind scanned⟩
  · obtain ⟨fault, place, rfl⟩ := Syntax.ofTokens_refusal refused
    exact .inr ⟨⟨ts, scanned⟩, fault.kind_cause.1⟩

end SlideDeck
