import SlideDeck.Proofs.Syntax.Grammar

/-! # Runs of readers

What it means for the steps that every reader is made of to succeed.  A reader
is a function from a state to a value and a state, or to an error, so a
successful run is an equation `r s = .ok (x, s')`; the lemmas here say what such
an equation comes to, one reader at a time, and later proofs open no monad.

A state is changed only by what is read, hence `Upcoming.before`: the same
state before other tokens. -/

namespace SlideDeck.Syntax

open Reader

variable {α β : Type} {s s' : Upcoming}

/-- The same state before other tokens. -/
def before (s : Upcoming) (tokens : List Token) : Upcoming :=
  { s with tokens }

@[simp] theorem before_tokens (s : Upcoming) (ts : List Token) : (before s ts).tokens = ts := rfl
@[simp] theorem before_before (s : Upcoming) (ts us : List Token) :
    before (before s ts) us = before s us := rfl
@[simp] theorem before_self (s : Upcoming) : before s s.tokens = s := rfl

/-- The lexeme of the next token, or the end of the input. -/
def nextLexeme (ts : List Token) : Lexeme :=
  ts.head?.elim .endOfInput Token.lexeme

@[simp] theorem nextLexeme_nil : nextLexeme [] = .endOfInput := rfl
@[simp] theorem nextLexeme_cons (t : Token) (ts : List Token) :
    nextLexeme (t :: ts) = t.lexeme := rfl

theorem exists_next {ts : List Token} {l : Lexeme} (h : nextLexeme ts = l)
    (some : l ≠ .endOfInput) :
    ∃ place rest, ts = ⟨l, place⟩ :: rest := by
  cases ts with
  | nil => exact absurd h.symm some
  | cons t rest =>
    subst h
    exact ⟨t.position, rest, rfl⟩

/-- The next token, or one that stands for the end of the input. -/
def nextToken (s : Upcoming) : Token :=
  s.tokens.head?.getD ⟨.endOfInput, s.stop⟩

@[simp] theorem nextToken_lexeme (s : Upcoming) : (nextToken s).lexeme = nextLexeme s.tokens := by
  rw [nextToken]
  cases s.tokens <;> rfl

theorem nextToken_of {t : Token} {rest : List Token} (tokens : s.tokens = t :: rest) :
    nextToken s = t := by
  rw [nextToken, tokens]
  rfl

/-! ## Sequences of steps -/

theorem bind_eq_ok {r : Reader α} {f : α → Reader β} {y : β} :
    (r >>= f) s = .ok (y, s') ↔ ∃ x s₁, r s = .ok (x, s₁) ∧ f x s₁ = .ok (y, s') := by
  show (r s >>= fun p => f p.1 p.2) = .ok (y, s') ↔ _
  cases r s with
  | error e => simp [bind, Except.bind]
  | ok p =>
    obtain ⟨x, s₁⟩ := p
    constructor
    · intro h
      exact ⟨x, s₁, rfl, h⟩
    · intro parts
      obtain ⟨_, _, equal, h⟩ := parts
      cases equal
      exact h

theorem bind_of_ok {r : Reader α} {f : α → Reader β} {x : α} {s₁ : Upcoming}
    (h : r s = .ok (x, s₁)) : (r >>= f) s = f x s₁ := by
  show (r s >>= fun p => f p.1 p.2) = _
  rw [h]
  rfl

theorem bind_of_error {r : Reader α} {f : α → Reader β} {e : CompileError}
    (h : r s = .error e) : (r >>= f) s = .error e := by
  show (r s >>= fun p => f p.1 p.2) = _
  rw [h]
  rfl

/-! ## Single steps

Each is a function of the state, so a sequence that begins with one is run by
rewriting. -/

@[simp] theorem run_pure (x : α) : (pure x : Reader α) s = .ok (x, s) := rfl

@[simp] theorem bind_get (f : Upcoming → Reader β) : (get >>= f) s = f s s := rfl

@[simp] theorem map_get (f : Upcoming → β) : (f <$> get : Reader β) s = .ok (f s, s) := rfl

@[simp] theorem bind_modify (g : Upcoming → Upcoming) (f : PUnit → Reader β) :
    (modify g >>= f) s = f ⟨⟩ (g s) := rfl

@[simp] theorem bind_current (f : Token → Reader β) : (current >>= f) s = f (nextToken s) s := rfl

@[simp] theorem bind_following (f : Lexeme → Reader β) :
    (following >>= f) s = f (nextLexeme (s.tokens.drop 1)) s := rfl

@[simp] theorem bind_limit (f : Nat → Reader β) : (limit >>= f) s = f (s.tokens.length + 1) s := rfl

@[simp] theorem run_advance : advance s = .ok ((), before s (s.tokens.drop 1)) := rfl

@[simp] theorem bind_advance (f : Unit → Reader β) :
    (advance >>= f) s = f () (before s (s.tokens.drop 1)) := rfl

@[simp] theorem map_advance (f : Unit → β) :
    (f <$> advance) s = .ok (f (), before s (s.tokens.drop 1)) := rfl

@[simp] theorem bind_isNext (l : Lexeme) (f : Bool → Reader β) :
    (isNext l >>= f) s = f (decide (nextLexeme s.tokens = l)) s := by
  rw [← nextToken_lexeme]
  rfl

@[simp] theorem run_failAt (p : Position) (f : GrammarFault) :
    (failAt p f : Reader α) s = .error (f.errorAt p) := rfl

@[simp] theorem bind_failAt (p : Position) (f : GrammarFault) (g : α → Reader β) :
    (failAt p f >>= g) s = .error (f.errorAt p) := rfl

@[simp] theorem run_unexpected (expected : Bytes) :
    (unexpected expected : Reader α) s
      = .error ((GrammarFault.unexpected expected (nextToken s).lexeme).errorAt
          (nextToken s).position) := rfl

@[simp] theorem bind_unexpected (expected : Bytes) (g : α → Reader β) :
    (unexpected expected >>= g) s
      = .error ((GrammarFault.unexpected expected (nextToken s).lexeme).errorAt
          (nextToken s).position) := rfl

theorem skip_eq_ok {l : Lexeme} {expected : Bytes} {u : Unit} :
    skip l expected s = .ok (u, s') ↔
      nextLexeme s.tokens = l ∧ before s (s.tokens.drop 1) = s' := by
  by_cases next : nextLexeme s.tokens = l <;> simp [skip, next]

end SlideDeck.Syntax
