import SlideDeck.Proofs.Syntax.Numbering

/-! # The parts of an element

What stands before and behind the arguments of an element: its name and its
kind, a trailing comma, the closing parenthesis, and the block attached to it.
Each of these parts is read exactly where the grammar has it. -/

namespace SlideDeck.Syntax

open Reader

variable {s s' : Upcoming}

/-! ## Heads -/

@[simp] theorem ofName?_name (kind : Kind) : Kind.ofName? kind.name = some kind := by
  cases kind <;> rfl

theorem name_of_ofName? {word : Bytes} {kind : Kind} (h : Kind.ofName? word = some kind) :
    kind.name = word := by
  simpa using List.find?_some h

/-- The state after an element's number is taken. -/
def numbered (s : Upcoming) : Upcoming :=
  { s with nextId := s.nextId + 1 }

@[simp] theorem numbered_tokens (s : Upcoming) : (numbered s).tokens = s.tokens := rfl

@[simp] theorem bind_freshId {β : Type} (f : Nat → Reader β) :
    (freshId >>= f) s = f s.nextId (numbered s) := rfl

theorem elementName_sound {name : Option Bytes} (h : elementName s = .ok (name, s')) :
    (name = none ∧ s' = s) ∨
      ∃ word first second rest,
        s.tokens = ⟨.identifier word, first⟩ :: ⟨.definition, second⟩ :: rest ∧
        name = some word ∧ word ∉ s.names ∧ ¬ isReserved word ∧
        s' = { s with tokens := rest, names := word :: s.names } := by
  cases tokens : s.tokens with
  | nil =>
    simp [elementName, nextToken, tokens] at h
    exact .inl ⟨h.1.symm, h.2.symm⟩
  | cons t more =>
    obtain ⟨l, first⟩ := t
    cases l with
    | identifier word =>
      -- Only the double colon behind it makes an identifier a name.
      by_cases follows : nextLexeme more = .definition
      · obtain ⟨second, rest, rfl⟩ := exists_next follows (by decide)
        by_cases reserved : isReserved word
        · simp [elementName, nextToken, tokens, reserved] at h
        by_cases used : word ∈ s.names
        · simp [elementName, nextToken, tokens, reserved, used] at h
        simp [elementName, nextToken, tokens, reserved, used, before] at h
        exact .inr ⟨word, first, second, rest, rfl, h.1.symm, used, reserved, h.2.symm⟩
      · simp [elementName, nextToken, tokens, follows] at h
        exact .inl ⟨h.1.symm, h.2.symm⟩
    | _ =>
      simp [elementName, nextToken, tokens] at h
      exact .inl ⟨h.1.symm, h.2.symm⟩

theorem elementName_named {word : Bytes} {first second : Position} {rest : List Token}
    (tokens : s.tokens = ⟨.identifier word, first⟩ :: ⟨.definition, second⟩ :: rest)
    (unused : word ∉ s.names) (free : ¬ isReserved word) :
    elementName s = .ok (some word, { s with tokens := rest, names := word :: s.names }) := by
  simp [elementName, nextToken, tokens, unused, free, before]

theorem elementName_unnamed {t : Token} {rest : List Token} (tokens : s.tokens = t :: rest)
    (unnamed : nextLexeme rest ≠ .definition) : elementName s = .ok (none, s) := by
  obtain ⟨l, place⟩ := t
  cases l <;> simp [elementName, nextToken, tokens, unnamed]

theorem elementKind_eq_ok {kind : Kind} :
    elementKind s = .ok (kind, s') ↔
      ∃ first second rest,
        s.tokens = ⟨.identifier kind.name, first⟩ :: ⟨.leftParen, second⟩ :: rest ∧
        s' = before s rest := by
  constructor
  · intro h
    cases tokens : s.tokens with
    | nil => simp [elementKind, nextToken, tokens] at h
    | cons t more =>
      obtain ⟨l, first⟩ := t
      cases l with
      | identifier word =>
        cases known : Kind.ofName? word with
        | none => simp [elementKind, nextToken, tokens, known] at h
        | some kind' =>
          simp only [elementKind, bind_current, nextToken, tokens, List.head?_cons,
            Option.getD_some, known, bind_advance] at h
          obtain ⟨_, _, opening, h⟩ := bind_eq_ok.1 h
          obtain ⟨next, rfl⟩ := skip_eq_ok.1 opening
          cases h
          obtain ⟨second, rest, tokens'⟩ := exists_next next (by decide)
          simp only [before_tokens, List.drop_one, List.tail_cons] at tokens'
          subst tokens'
          rw [name_of_ofName? known]
          exact ⟨first, second, rest, rfl, rfl⟩
      | _ => simp [elementKind, nextToken, tokens] at h
  · intro parts
    obtain ⟨first, second, rest, tokens, rfl⟩ := parts
    simp [elementKind, nextToken, tokens, skip]

/-- What stands before the arguments of an element: its number is taken, and its name and kind are
read. -/
def elementHead : Reader (Nat × Option Bytes × Kind) := do
  let id ← freshId
  let name ← elementName
  let kind ← elementKind
  return (id, name, kind)

/-- A head is read exactly where the grammar has one and its name, if any, is free. -/
theorem elementHead_eq_ok {id : Nat} {name : Option Bytes} {kind : Kind} :
    elementHead s = .ok ((id, name, kind), s') ↔
      ∃ head rest, s.tokens = head ++ rest ∧ Head kind head name (nextToken s).position ∧
        (∀ word ∈ name, word ∉ s.names ∧ ¬ isReserved word) ∧ id = s.nextId ∧
        s' = { s with
          tokens := rest, nextId := s.nextId + 1, names := name.toList ++ s.names } := by
  rw [elementHead]
  rw [bind_freshId]
  constructor
  · intro h
    obtain ⟨name', s₁, readName, h⟩ := bind_eq_ok.1 h
    obtain ⟨kind', s₂, readKind, h⟩ := bind_eq_ok.1 h
    cases h
    obtain ⟨first, second, rest, tokens, rfl⟩ := elementKind_eq_ok.1 readKind
    -- The tokens of the kind are behind those of the name, where there is a name.
    rcases elementName_sound readName with ⟨rfl, rfl⟩ | ⟨word, third, fourth, more, tokens', rfl,
      unused, free, rfl⟩
    · rw [numbered_tokens] at tokens
      have isHead : Head kind [⟨.identifier kind.name, first⟩, ⟨.leftParen, second⟩] none
          (nextToken s).position := by
        rw [nextToken_of tokens]
        exact .unnamed
      exact ⟨_, rest, tokens, isHead, nofun, rfl, rfl⟩
    · rw [numbered_tokens] at tokens'
      simp only at tokens
      subst tokens
      have isHead : Head kind [⟨.identifier word, third⟩, ⟨.definition, fourth⟩,
          ⟨.identifier kind.name, first⟩, ⟨.leftParen, second⟩] (some word)
          (nextToken s).position := by
        rw [nextToken_of tokens']
        exact .named
      refine ⟨_, rest, tokens', isHead, ?_, rfl, rfl⟩
      rintro _ ⟨⟩
      exact ⟨unused, free⟩
  · intro parts
    obtain ⟨head, rest, tokens, isHead, free, rfl, rfl⟩ := parts
    generalize placed : (nextToken s).position = place at isHead
    -- The two productions of a head are the two answers of `elementName`.
    cases isHead with
    | unnamed =>
      have unnamed : elementName (numbered s) = .ok (none, numbered s) :=
        elementName_unnamed (s := numbered s) tokens (by nofun)
      have read : elementKind (numbered s) = .ok (kind, before (numbered s) rest) :=
        elementKind_eq_ok.2 ⟨_, _, rest, tokens, rfl⟩
      rw [bind_of_ok unnamed, bind_of_ok read]
      rfl
    | @named word _ _ third fourth =>
      obtain ⟨unused, unreserved⟩ := free word rfl
      rw [bind_of_ok (elementName_named (s := numbered s) tokens unused unreserved),
        bind_of_ok (elementKind_eq_ok.2 ⟨third, fourth, rest, rfl, rfl⟩)]
      rfl

/-! ## Tails -/

/-- What stands behind the arguments of an element. -/
def elementTail (kind : Kind) : Reader PropertyMap := do
  skip .rightParen (.ascii "')'")
  if ← isNext .leftBrace then properties kind else pure ∅

theorem elementTail_sound {kind : Kind} {m : PropertyMap}
    (h : elementTail kind s = .ok (m, s')) :
    ∃ tail rest, s.tokens = tail ++ rest ∧ Tail kind tail m ∧ s' = before s rest := by
  obtain ⟨_, _, closing, h⟩ := bind_eq_ok.1 h
  obtain ⟨next, rfl⟩ := skip_eq_ok.1 closing
  obtain ⟨place, rest, tokens⟩ := exists_next next nofun
  simp only [bind_isNext, tokens, List.drop_one, List.tail_cons] at h
  split at h
  · obtain ⟨ts, rest, split, isBlock, rfl⟩ := properties_eq_ok.1 h
    simp only [before_tokens] at split
    subst split
    exact ⟨⟨.rightParen, place⟩ :: ts, rest, tokens, .block isBlock, rfl⟩
  · cases h
    exact ⟨[⟨.rightParen, place⟩], rest, tokens, .bare, rfl⟩

theorem elementTail_complete {kind : Kind} {m : PropertyMap} {tail rest : List Token}
    (isTail : Tail kind tail m) (tokens : s.tokens = tail ++ rest)
    (noBlock : nextLexeme rest ≠ .leftBrace) :
    elementTail kind s = .ok (m, before s rest) := by
  rw [elementTail]
  cases isTail with
  | bare =>
    have closing : nextLexeme s.tokens = .rightParen := by rw [tokens]; rfl
    rw [bind_of_ok (skip_eq_ok (u := ()).2 ⟨closing, rfl⟩), bind_isNext]
    simp [tokens, noBlock]
  | @block _ ts _ isBlock =>
    have closing : nextLexeme s.tokens = .rightParen := by rw [tokens]; rfl
    have opening : nextLexeme (ts ++ rest) = .leftBrace := by cases isBlock; rfl
    rw [bind_of_ok (skip_eq_ok (u := ()).2 ⟨closing, rfl⟩), bind_isNext]
    simp only [tokens, List.cons_append, List.drop_one, List.tail_cons, before_tokens, opening,
      decide_true, if_true]
    exact properties_eq_ok.2 ⟨ts, rest, rfl, isBlock, rfl⟩

/-! ## Trailing commas -/

theorem trailingComma_sound {u : Unit} (h : trailingComma s = .ok (u, s')) :
    ∃ comma rest, s.tokens = comma ++ rest ∧ OptionalComma comma ∧ s' = before s rest := by
  rw [trailingComma] at h
  rw [bind_isNext] at h
  by_cases next : nextLexeme s.tokens = .comma
  -- Only a comma that stands directly before the closing parenthesis is stepped over.
  · obtain ⟨place, rest, tokens⟩ := exists_next next nofun
    simp only [next, decide_true, if_true, bind_following] at h
    split at h
    · cases h
      exact ⟨[⟨.comma, place⟩], rest, tokens, .present, by simp [before, tokens]⟩
    · cases h
      exact ⟨[], s.tokens, rfl, .absent, rfl⟩
  · simp only [next, decide_false, Bool.false_eq_true, if_false] at h
    cases h
    exact ⟨[], s.tokens, rfl, .absent, rfl⟩

theorem trailingComma_complete {comma rest : List Token} (optional : OptionalComma comma)
    (tokens : s.tokens = comma ++ rest) (closing : nextLexeme rest = .rightParen) :
    trailingComma s = .ok ((), before s rest) := by
  rw [trailingComma]
  rw [bind_isNext]
  cases optional with
  | absent =>
    rw [List.nil_append] at tokens
    subst tokens
    simp [closing]
  | present =>
    simp [tokens, closing]

end SlideDeck.Syntax
