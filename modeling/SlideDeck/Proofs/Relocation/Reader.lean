import SlideDeck.Proofs.Relocation.Document
import SlideDeck.Proofs.Syntax.Document

/-! # Reading moved tokens

A document is read from moved tokens as it is from the tokens themselves, and
then moved; where the tokens are refused, the error is moved
(`ofTokens_relocate`).

`Follows` says this of any two readers and is kept by sequences of steps, so each
reader is taken apart as it is defined, and the only inductions are on the bounds
of the loops.  No reader asks where a token stands: it hands positions on, and
that is all. -/

namespace SlideDeck.Syntax

open Reader

variable {f : Position → Position} {α β γ δ : Type}

/-- The state with all that is to come moved. -/
def relocateState (f : Position → Position) (s : Upcoming) : Upcoming :=
  { s with tokens := s.tokens.map (Token.relocate f), stop := f s.stop }

/-- Of moved tokens the second reader makes what the first one makes of the tokens, changed. -/
structure Follows (f : Position → Position) (change : α → β) (r : Reader α) (r' : Reader β) :
    Prop where
  run : ∀ s, r' (relocateState f s) = relocated f (fun p => (change p.1, relocateState f p.2)) (r s)

/-! ## Sequences of steps -/

variable {change : α → β} {r : Reader α} {r' : Reader β}

theorem follows_pure (x : α) : Follows f change (pure x) (pure (change x)) :=
  ⟨fun _ => rfl⟩

theorem Follows.bind {change' : γ → δ} {k : α → Reader γ} {k' : β → Reader δ}
    (h : Follows f change r r') (rest : ∀ x, Follows f change' (k x) (k' (change x))) :
    Follows f change' (r >>= k) (r' >>= k') := by
  refine ⟨fun s => ?_⟩
  show (r' (relocateState f s) >>= fun p => k' p.1 p.2) = relocated f _ (r s >>= fun p => k p.1 p.2)
  rw [h.run s]
  cases r s with
  | error e => rfl
  | ok p => exact (rest p.1).run p.2

theorem Follows.ite {c : Prop} [Decidable c] {t : Reader α} {t' : Reader β}
    (yes : Follows f change r r') (no : Follows f change t t') :
    Follows f change (if c then r else t) (if c then r' else t') := by
  split
  · exact yes
  · exact no

theorem follows_failAt (p : Position) (fault : GrammarFault) :
    Follows f change (failAt p fault) (failAt (f p) fault) :=
  ⟨fun _ => rfl⟩

/-- A test that ends the reading, in front of a further reader. -/
theorem Follows.guard {c : Prop} [Decidable c] {p : Position} {fault : GrammarFault}
    {k : γ → Reader α} {k' : γ → Reader β} (h : Follows f change r r') :
    Follows f change (if c then failAt p fault >>= k else r)
      (if c then failAt (f p) fault >>= k' else r') :=
  .ite ⟨fun _ => rfl⟩ h

/-! ## Single steps -/

theorem nextToken_relocate (s : Upcoming) :
    nextToken (relocateState f s) = (nextToken s).relocate f := by
  rw [nextToken, nextToken, relocateState]
  cases s.tokens <;> rfl

theorem nextLexeme_relocate (ts : List Token) :
    nextLexeme (ts.map (Token.relocate f)) = nextLexeme ts := by
  cases ts <;> rfl

theorem follows_current : Follows f (Token.relocate f) current current := by
  refine ⟨fun s => ?_⟩
  show Except.ok (nextToken (relocateState f s), relocateState f s) = _
  rw [nextToken_relocate]
  rfl

theorem follows_following : Follows f id following following := by
  refine ⟨fun s => ?_⟩
  show Except.ok (nextLexeme ((s.tokens.map (Token.relocate f)).drop 1), relocateState f s) = _
  rw [← List.map_drop, nextLexeme_relocate]
  rfl

theorem follows_advance : Follows f id advance advance := by
  refine ⟨fun s => ?_⟩
  show Except.ok ((), before (relocateState f s) ((s.tokens.map (Token.relocate f)).drop 1)) = _
  rw [← List.map_drop]
  rfl

theorem follows_limit : Follows f id limit limit := by
  refine ⟨fun s => ?_⟩
  show Except.ok ((s.tokens.map (Token.relocate f)).length + 1, relocateState f s) = _
  rw [List.length_map]
  rfl

theorem follows_unexpected (expected : Bytes) :
    Follows f change (unexpected expected) (unexpected expected) :=
  follows_current.bind fun t => follows_failAt t.position _

/-- Nothing that stands behind a refusal is read. -/
theorem follows_refusal (expected : Bytes) {k : γ → Reader α} {k' : γ → Reader β} :
    Follows f change (unexpected expected >>= k) (unexpected expected >>= k') := by
  refine ⟨fun s => ?_⟩
  rw [bind_unexpected, bind_unexpected, nextToken_relocate]
  rfl

theorem follows_isNext (l : Lexeme) : Follows f id (isNext l) (isNext l) :=
  follows_current.bind fun _ => follows_pure _

theorem follows_skip (l : Lexeme) (expected : Bytes) :
    Follows f id (skip l expected) (skip l expected) :=
  (follows_isNext l).bind fun _ => .ite follows_advance (follows_unexpected expected)

theorem follows_trailingComma : Follows f id trailingComma trailingComma :=
  (follows_isNext _).bind fun _ =>
    .ite (follows_following.bind fun _ => .ite follows_advance (follows_pure ())) (follows_pure ())

/-! ## Properties -/

theorem follows_propertyValue (p : Property) (key : Bytes) :
    Follows f id (propertyValue p key) (propertyValue p key) := by
  refine follows_current.bind fun t => ?_
  obtain ⟨l, place⟩ := t
  cases l with
  | number literal v =>
    refine .ite (follows_failAt ..) (.ite (follows_failAt ..) (.ite (follows_failAt ..) ?_))
    exact follows_advance.bind fun _ => follows_pure _
  | string text =>
    refine .ite (follows_failAt ..) ?_
    cases Colour.ofText? text with
    | none => exact follows_failAt ..
    | some c => exact follows_advance.bind fun _ => follows_pure _
  | _ => exact follows_unexpected _

theorem follows_valueInto (p : Property) (m : PropertyMap) :
    Follows f id (valueInto p m) (valueInto p m) :=
  (follows_skip ..).bind fun _ => (follows_propertyValue ..).bind fun _ =>
    (follows_isNext _).bind fun _ => .ite (follows_advance.bind fun _ => follows_pure _)
      (follows_pure _)

theorem follows_property (inline : Option Kind) (m : PropertyMap) :
    Follows f id (property inline m) (property inline m) := by
  refine follows_current.bind fun t => ?_
  obtain ⟨l, place⟩ := t
  cases l with
  | identifier key =>
    dsimp -zeta only [Token.relocate]
    cases known : Property.ofKey? key with
    | none => exact follows_failAt ..
    | some p =>
      have isKey := key_of_ofKey? known
      subst isKey
      have rest : Follows f id (advance >>= fun _ => valueInto p m)
          (advance >>= fun _ => valueInto p m) :=
        follows_advance.bind fun _ => follows_valueInto p m
      cases inline with
      | none => exact .guard rest
      | some kind => exact .guard (.guard rest)
  | _ => exact follows_unexpected _

theorem follows_propertiesInto (inline : Option Kind) (n : Nat) (m : PropertyMap) :
    Follows f id (propertiesInto inline n m) (propertiesInto inline n m) := by
  induction n generalizing m with
  | zero => exact follows_pure _
  | succ n ih =>
    refine (follows_isNext _).bind fun _ => .ite (follows_advance.bind fun _ => follows_pure _) ?_
    exact (follows_property inline m).bind ih

theorem follows_properties (inline : Option Kind) :
    Follows f id (properties inline) (properties inline) :=
  (follows_skip ..).bind fun _ => follows_limit.bind fun _ => follows_propertiesInto ..

/-! ## Content -/

theorem follows_get : Follows f (relocateState f) get get :=
  ⟨fun _ => rfl⟩

theorem follows_modify {g : Upcoming → Upcoming}
    (moved : ∀ s, g (relocateState f s) = relocateState f (g s)) :
    Follows f id (modify g) (modify g) := by
  refine ⟨fun s => ?_⟩
  show Except.ok (PUnit.unit, g (relocateState f s)) = _
  rw [moved]
  rfl

theorem follows_freshId : Follows f id freshId freshId :=
  ⟨fun _ => rfl⟩

theorem follows_elementName : Follows f id elementName elementName := by
  refine follows_current.bind fun t => ?_
  obtain ⟨l, place⟩ := t
  cases l with
  | identifier name =>
    refine follows_following.bind fun l => .ite (.guard ?_) (follows_pure _)
    refine follows_get.bind fun s => .guard (c := name ∈ s.names) ?_
    have named : Follows f id (modify fun s => { s with names := name :: s.names })
        (modify fun s => { s with names := name :: s.names }) := follows_modify fun _ => rfl
    refine named.bind fun _ => ?_
    exact follows_advance.bind fun _ => follows_advance.bind fun _ => follows_pure _
  | _ => exact follows_pure _

theorem follows_elementKind : Follows f id elementKind elementKind := by
  refine follows_current.bind fun t => ?_
  obtain ⟨l, place⟩ := t
  cases l with
  | identifier word =>
    dsimp -zeta only [Token.relocate]
    cases Kind.ofName? word with
    | none => exact follows_failAt ..
    | some kind =>
      exact follows_advance.bind fun _ => (follows_skip ..).bind fun _ => follows_pure _
  | _ => exact follows_unexpected _

section

variable {r : Reader Element} (child : Follows f (Element.relocate f) r r)
include child

theorem follows_onlyChild : Follows f (Element.relocate f) (onlyChild r) (onlyChild r) := by
  refine (follows_isNext _).bind fun _ => .ite (follows_refusal _) ?_
  exact child.bind fun _ => follows_trailingComma.bind fun _ => follows_pure _

theorem follows_childrenFrom (n : Nat) :
    Follows f (Element.relocateAll f) (childrenFrom r n) (childrenFrom r n) := by
  induction n with
  | zero => exact follows_pure []
  | succ n ih =>
    refine child.bind fun e => (follows_isNext _).bind fun _ => .ite ?_ (follows_pure [e])
    refine follows_advance.bind fun _ => (follows_isNext _).bind fun _ => .ite (follows_pure [e]) ?_
    exact ih.bind fun es => follows_pure (e :: es)

theorem follows_children :
    Follows f (Element.relocateAll f) (children r) (children r) := by
  refine (follows_isNext _).bind fun _ => .ite (follows_refusal _) ?_
  exact follows_limit.bind fun n => follows_childrenFrom child n

end

theorem follows_textArgument : Follows f id textArgument textArgument := by
  refine follows_current.bind fun t => ?_
  obtain ⟨l, place⟩ := t
  cases l with
  | string value =>
    exact follows_advance.bind fun _ => follows_trailingComma.bind fun _ => follows_pure value
  | _ => exact follows_unexpected _

/-- The arguments of content are a function of its attributes, so what follows them is told how the
function for the moved tokens relates to the other one. -/
theorem Follows.arguments {r : Reader Element} (child : Follows f (Element.relocate f) r r)
    (kind : Kind) {k : (Attributes → Element) → Reader γ} {k' : (Attributes → Element) → Reader δ}
    {change : γ → δ}
    (rest : ∀ complete complete' : Attributes → Element,
      (∀ a, complete' (a.relocate f) = (complete a).relocate f) →
      Follows f change (k complete) (k' complete')) :
    Follows f change (Reader.arguments r kind >>= k) (Reader.arguments r kind >>= k') := by
  cases kind <;> simp only [Reader.arguments, bind_assoc, pure_bind]
  case text => exact follows_textArgument.bind fun _ => rest _ _ fun _ => rfl
  case centre | padding => exact (follows_onlyChild child).bind fun _ => rest _ _ fun _ => rfl
  case row | column => exact (follows_children child).bind fun _ => rest _ _ fun _ => rfl

theorem follows_element (levels : Nat) :
    Follows f (Element.relocate f) (element levels) (element levels) := by
  induction levels with
  | zero => exact follows_current.bind fun t => follows_failAt t.position _
  | succ levels ih =>
    refine follows_current.bind fun t => follows_freshId.bind fun id => ?_
    refine follows_elementName.bind fun name => follows_elementKind.bind fun kind => ?_
    refine .arguments ih kind fun complete complete' moved => (follows_skip ..).bind fun _ => ?_
    have last : ∀ params, Follows f (Element.relocate f)
        (pure (complete ⟨id, name, params, t.position⟩))
        (pure (complete' ⟨id, name, params, f t.position⟩)) := by
      intro params
      have whole := moved ⟨id, name, params, t.position⟩
      rw [Attributes.relocate] at whole
      rw [whole]
      exact follows_pure _
    refine (follows_isNext _).bind fun _ => .ite ?_ (last _)
    exact (follows_properties _).bind last

/-! ## Slides -/

theorem follows_styleBlock (target : Bytes) :
    Follows f (StyleBlock.relocate f) (styleBlock target) (styleBlock target) :=
  follows_current.bind fun _ => follows_advance.bind fun _ =>
    (follows_properties none).bind fun _ => follows_pure _

theorem findStyle?_relocate (x : Slide) (target : Bytes) :
    ((x.relocate f).findStyle? target).isSome = (x.findStyle? target).isSome := by
  rw [Slide.findStyle?, Slide.findStyle?, Slide.relocate, List.find?_map, Option.isSome_map]
  rfl

theorem follows_item (x : Slide) :
    Follows f (Slide.relocate f) (item x) (item (x.relocate f)) := by
  refine follows_current.bind fun t => ?_
  obtain ⟨l, place⟩ := t
  cases l with
  | identifier word =>
    refine follows_following.bind fun l => ?_
    have content : Follows f (Slide.relocate f)
        (do let e ← element nestingLimit; return { x with content := e })
        (do let e ← element nestingLimit; return { x.relocate f with content := e }) :=
      (follows_element _).bind fun e => follows_pure { x with content := e }
    cases l with
    | leftBrace =>
      refine (follows_styleBlock word).bind fun block => ?_
      rw [findStyle?_relocate]
      refine .guard ?_
      have added : Slide.relocate f { x with styles := x.styles ++ [block] }
          = { x.relocate f with styles := (x.relocate f).styles ++ [block.relocate f] } := by
        simp [Slide.relocate]
      rw [← added]
      exact follows_pure _
    | leftParen | definition =>
      dsimp -zeta only [id]
      rw [show (x.relocate f).content.isHole = _ from Element.isHole_relocate x.content]
      exact .guard content
    | _ => exact follows_advance.bind fun _ => follows_unexpected _
  | _ => exact follows_unexpected _

theorem follows_itemsInto (n : Nat) (x : Slide) :
    Follows f (Slide.relocate f) (itemsInto n x) (itemsInto n (x.relocate f)) := by
  induction n generalizing x with
  | zero => exact follows_pure x
  | succ n ih =>
    exact (follows_isNext _).bind fun _ => .ite (follows_pure x) ((follows_item x).bind ih)

theorem follows_slide : Follows f (Slide.relocate f) slide slide := by
  refine follows_current.bind fun t => follows_advance.bind fun _ => ?_
  have reset : Follows f id (modify fun s => { s with nextId := 0, names := [] })
      (modify fun s => { s with nextId := 0, names := [] }) := follows_modify fun _ => rfl
  refine reset.bind fun _ => follows_limit.bind fun n => (follows_itemsInto n _).bind fun x => ?_
  rw [show (x.relocate f).content.isHole = _ from Element.isHole_relocate x.content]
  refine .guard (follows_advance.bind fun _ => follows_get.bind fun s => ?_)
  exact follows_pure { x with nodeCount := s.nextId }

theorem follows_slidesFrom (n : Nat) (reversed : List Slide) :
    Follows f (List.map (Slide.relocate f)) (slidesFrom n reversed)
      (slidesFrom n (reversed.map (Slide.relocate f))) := by
  induction n generalizing reversed with
  | zero =>
    rw [slidesFrom, slidesFrom, ← List.map_reverse]
    exact follows_pure _
  | succ n ih =>
    refine follows_current.bind fun t => ?_
    obtain ⟨l, place⟩ := t
    cases l with
    | endOfInput =>
      rw [← List.map_reverse]
      exact follows_pure _
    | leftBracket => exact follows_slide.bind fun x => ih (x :: reversed)
    | _ => exact follows_unexpected _

/-! ## Documents -/

/-- The tokens that are no comments. -/
def withoutComments (ts : List Token) : List Token :=
  ts.filter fun t => !(t.lexeme matches .comment _)

theorem withoutComments_relocate (ts : List Token) :
    withoutComments (ts.map (Token.relocate f)) = (withoutComments ts).map (Token.relocate f) :=
  List.filter_map

theorem exists_end {ts : List Token} (ended : ∃ t ∈ ts, t.lexeme = .endOfInput) :
    ∃ t, (withoutComments ts).find? (fun t => t.lexeme = .endOfInput) = some t := by
  obtain ⟨t, among, isEnd⟩ := ended
  refine Option.isSome_iff_exists.1 (List.find?_isSome.2 ⟨t, List.mem_filter.2 ⟨among, ?_⟩, ?_⟩)
  · simp [isEnd]
  · exact decide_eq_true isEnd

/-- Where there is an end of the input, reading stops at the first one. -/
theorem upcoming_of_end {ts : List Token} {t : Token}
    (found : (withoutComments ts).find? (fun t => t.lexeme = .endOfInput) = some t) :
    Upcoming.ofTokens ts = { tokens := significant ts, stop := t.position } := by
  show Upcoming.mk (significant ts) (((Option.or ((withoutComments ts).find? _) _).map _).getD {})
    0 [] = _
  rw [found]
  rfl

theorem upcoming_relocate {ts : List Token} (ended : ∃ t ∈ ts, t.lexeme = .endOfInput) :
    Upcoming.ofTokens (ts.map (Token.relocate f)) = relocateState f (.ofTokens ts) := by
  obtain ⟨t, found⟩ := exists_end ended
  have moved : (withoutComments (ts.map (Token.relocate f))).find?
      (fun t => t.lexeme = .endOfInput) = some (t.relocate f) := by
    rw [withoutComments_relocate, List.find?_map]
    exact congrArg (Option.map _) found
  have counted : significant (ts.map (Token.relocate f))
      = (significant ts).map (Token.relocate f) := by
    show (withoutComments (ts.map (Token.relocate f))).takeWhile _ = _
    rw [withoutComments_relocate, List.takeWhile_map]
    rfl
  rw [upcoming_of_end found, upcoming_of_end moved, counted]
  rfl

/-- Moved tokens are read as the moved document, or refused at the moved place. -/
theorem ofTokens_relocate {ts : List Token} (ended : ∃ t ∈ ts, t.lexeme = .endOfInput) :
    Document.ofTokens (ts.map (Token.relocate f))
      = relocated f (Document.relocate f) (Document.ofTokens ts) := by
  have read : Follows f (List.map (Slide.relocate f)) (do slidesFrom (← limit) [])
      (do slidesFrom (← limit) []) :=
    follows_limit.bind fun n => follows_slidesFrom n []
  have run := read.run (.ofTokens ts)
  rw [← upcoming_relocate ended] at run
  unfold Document.ofTokens StateT.run
  rw [run]
  generalize (do slidesFrom (← limit) [] : Reader (List Slide)) (.ofTokens ts) = outcome
  cases outcome <;> rfl

end SlideDeck.Syntax
