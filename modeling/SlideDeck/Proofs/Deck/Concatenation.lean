import SlideDeck.Proofs.Relocation.Concatenation
import SlideDeck.Proofs.Relocation.Render

/-! # Decks behind one another

Documents compose: the slides of two sources with a line feed between them are
those of the first one and then those of the second one, and they are rendered
as they are alone (`Document.ofSource_concatenated`).

* `Deck.compile_behind`: the same for compiled decks.
* `renderFrom_append` and `renderFrom_shifted`: slides are rendered one by one,
  and their place in the deck is a number beside them.

Positions are all that differs.  They are no part of equality, of properties or
of boxes, so the second document only has to be moved, which neither resolving
nor laying out sees. -/

namespace SlideDeck

open Bytes Syntax

/-! ## Equality -/

section

variable {f : Position → Position}

namespace Document

theorem sameSlides_append {as bs cs ds : List Slide} (first : sameSlides as bs)
    (second : sameSlides cs ds) : sameSlides (as ++ cs) (bs ++ ds) := by
  induction as generalizing bs with
  | nil =>
    cases bs with
    | nil => exact second
    | cons => cases first
  | cons a as ih =>
    cases bs with
    | nil => cases first
    | cons b bs =>
      obtain ⟨here, there⟩ := sameSlides_cons.1 first
      exact sameSlides_cons.2 ⟨here, ih there⟩

/-- A moved document is the same. -/
theorem same_relocate_self {d : Document} (self : d.same d) : (d.relocate f).same d := by
  have moved := same_relocate (f := f) (g := fun p => p) d d
  rw [relocate_id] at moved
  rwa [moved]

end Document

end

/-! ## Compiling -/

/-- The deck of two sources has the slides of the second one moved behind those of the first one. -/
theorem Deck.compile_behind {first second : Bytes} {o : CompileOptions} {d₁ d₂ : Document}
    {deck₁ deck₂ : Deck} (read₁ : Document.ofSource first = .ok d₁)
    (read₂ : Document.ofSource second = .ok d₂) (h₁ : compile first o = .ok deck₁)
    (h₂ : compile second o = .ok deck₂) :
    deck₁.slides = d₁.slides.map (·.compiled o.viewport) ∧
      deck₂.slides = d₂.slides.map (·.compiled o.viewport) ∧
      ∃ deck, compile (first ++ newline :: second) o = .ok deck ∧
        deck.slides = d₁.slides.map (·.compiled o.viewport)
          ++ d₂.slides.map fun s => (s.relocate (behind first)).compiled o.viewport := by
  obtain ⟨_, read, resolvable₁, rfl⟩ := compile_eq_ok.1 h₁
  cases read₁.symm.trans read
  obtain ⟨_, read, resolvable₂, rfl⟩ := compile_eq_ok.1 h₂
  cases read₂.symm.trans read
  have whole := Document.ofSource_behind read₁ second
  rw [read₂] at whole
  refine ⟨rfl, rfl, _, compile_eq_ok.2 ⟨_, whole, ?_, rfl⟩, ?_⟩
  · refine List.forall_mem_append.2 ⟨resolvable₁, fun s among => ?_⟩
    obtain ⟨s, there, rfl⟩ := List.mem_map.1 among
    exact s.resolvable_relocate.2 (resolvable₂ s there)
  · simp [Document.relocate]

/-! ## Rendering -/

section

variable {m : Option Measurer}

theorem renderFrom_append {cs ds : List CompiledSlide} {i : Nat} {rs ts : List RenderedSlide}
    (first : renderFrom m i cs = .ok rs) (second : renderFrom m (i + cs.length) ds = .ok ts) :
    renderFrom m i (cs ++ ds) = .ok (rs ++ ts) := by
  induction cs generalizing i rs with
  | nil =>
    cases first
    exact second
  | cons c cs ih =>
    obtain ⟨r, here, first⟩ := except_bind_eq_ok.1 first
    obtain ⟨others, there, ⟨⟩⟩ := except_bind_eq_ok.1 first
    rw [List.length_cons, Nat.add_comm cs.length, ← Nat.add_assoc] at second
    refine except_bind_eq_ok.2 ⟨r, here, except_bind_eq_ok.2 ⟨_, ih there second, rfl⟩⟩

theorem CompiledSlide.render_shifted {c : CompiledSlide} {i : Nat} {r : RenderedSlide} (k : Nat)
    (h : c.render i m = .ok r) : c.render (i + k) m = .ok { r with index := r.index + k } := by
  obtain ⟨arranged, laidOut, ⟨⟩⟩ := except_bind_eq_ok.1 h
  exact except_bind_eq_ok.2 ⟨arranged, laidOut, rfl⟩

theorem renderFrom_shifted {cs : List CompiledSlide} {i : Nat} {rs : List RenderedSlide} (k : Nat)
    (h : renderFrom m i cs = .ok rs) :
    renderFrom m (i + k) cs = .ok (rs.map fun r => { r with index := r.index + k }) := by
  induction cs generalizing i rs with
  | nil =>
    cases h
    rfl
  | cons c cs ih =>
    obtain ⟨r, here, h⟩ := except_bind_eq_ok.1 h
    obtain ⟨others, there, ⟨⟩⟩ := except_bind_eq_ok.1 h
    have further := ih there
    rw [Nat.add_right_comm] at further
    exact except_bind_eq_ok.2 ⟨_, CompiledSlide.render_shifted k here,
      except_bind_eq_ok.2 ⟨_, further, rfl⟩⟩

/-- Slides that are compiled alike but for where they stand are rendered alike. -/
theorem renderFrom_relocate (f : Position → Position) (v : Viewport) (i : Nat)
    (slides : List Slide) :
    renderFrom m i (slides.map fun s => (s.relocate f).compiled v)
      = renderFrom m i (slides.map (·.compiled v)) := by
  induction slides generalizing i with
  | nil => rfl
  | cons s slides ih =>
    simp only [List.map_cons, renderFrom, CompiledSlide.render_relocate, ih]

theorem exists_renderFrom {cs : List CompiledSlide}
    (each : ∀ c ∈ cs, ∀ i, ∃ r, c.render i m = .ok r) (i : Nat) :
    ∃ rs, renderFrom m i cs = .ok rs := by
  induction cs generalizing i with
  | nil => exact ⟨[], rfl⟩
  | cons c cs ih =>
    obtain ⟨here, there⟩ := List.forall_mem_cons.1 each
    obtain ⟨r, first⟩ := here i
    obtain ⟨rs, others⟩ := ih there (i + 1)
    exact ⟨r :: rs, except_bind_eq_ok.2 ⟨r, first, except_bind_eq_ok.2 ⟨rs, others, rfl⟩⟩⟩

end

/-- A compiled deck can be rendered. -/
theorem Deck.exists_render {source : Bytes} {o : CompileOptions} {d : Deck}
    (h : compile source o = .ok d) (m : Option Measurer) : ∃ rs, d.render m = .ok rs :=
  exists_renderFrom (fun c among i => by
    obtain ⟨r, rendered, -⟩ := CompiledSlide.render_of_compiled h among i m
    exact ⟨r, rendered⟩) 0

/-! ## Documents -/

/-- **Composition of documents.**  Behind a source that is read and a line feed, another source is
read as further slides, or refused for the same reason at the place where it stands.  Where both
compile, so do the two together, and their slides are rendered as they are alone, those of the
second one with their index increased by the number of slides of the first one. -/
theorem Document.ofSource_concatenated {first : Bytes} {d₁ : Document}
    (h : ofSource first = .ok d₁) (second : Bytes) :
    (∀ d₂, ofSource second = .ok d₂ → ∃ d, ofSource (first ++ newline :: second) = .ok d ∧
      sameSlides d.slides (d₁.slides ++ d₂.slides)) ∧
    (∀ e, ofSource second = .error e → ∃ e',
      ofSource (first ++ newline :: second) = .error e' ∧ e'.kind = e.kind ∧
      e'.message = e.message ∧
      e'.position = ⟨e.position.offset + (first.length + 1),
        e.position.line + (1 + first.count newline), e.position.column⟩) ∧
    ∀ o m deck₁ deck₂, Deck.compile first o = .ok deck₁ → Deck.compile second o = .ok deck₂ →
      ∃ deck rs₁ rs₂, Deck.compile (first ++ newline :: second) o = .ok deck ∧
        deck₁.render m = .ok rs₁ ∧ deck₂.render m = .ok rs₂ ∧
        deck.render m
          = .ok (rs₁ ++ rs₂.map fun r => { r with index := r.index + d₁.slides.length }) := by
  have whole := ofSource_behind h second
  refine ⟨fun d₂ read => ?_, fun e refused => ?_, fun o m deck₁ deck₂ compiled₁ compiled₂ => ?_⟩
  · rw [read] at whole
    refine ⟨_, whole, sameSlides_append (same_self_of_ofSource h) ?_⟩
    exact same_relocate_self (same_self_of_ofSource read)
  · rw [refused] at whole
    exact ⟨_, whole, rfl, rfl, rfl⟩
  · obtain ⟨d₂, read, -⟩ := Deck.compile_eq_ok.1 compiled₂
    obtain ⟨slides₁, slides₂, deck, compiled, slides⟩ :=
      Deck.compile_behind h read compiled₁ compiled₂
    obtain ⟨rs₁, rendered₁⟩ := Deck.exists_render compiled₁ m
    obtain ⟨rs₂, rendered₂⟩ := Deck.exists_render compiled₂ m
    refine ⟨deck, rs₁, rs₂, compiled, rendered₁, rendered₂, ?_⟩
    rw [Deck.render, slides₁] at rendered₁
    rw [Deck.render, slides₂] at rendered₂
    rw [Deck.render, slides]
    refine renderFrom_append rendered₁ ?_
    rw [renderFrom_relocate, List.length_map]
    exact renderFrom_shifted _ rendered₂

/-- The first source ends in a comment, which goes on up to the line feed between the two. -/
theorem commented_concatenated :
    ∃ d₁ d₂ d, Document.ofSource (ascii "[text(\"a\")] // a") = .ok d₁ ∧
      Document.ofSource (ascii "[text(\"b\")]") = .ok d₂ ∧
      Document.ofSource (ascii "[text(\"a\")] // a" ++ newline :: ascii "[text(\"b\")]") = .ok d ∧
      Document.sameSlides d.slides (d₁.slides ++ d₂.slides) := by
  obtain ⟨d₁, read₁⟩ : ∃ d, Document.ofSource (ascii "[text(\"a\")] // a") = .ok d :=
    exists_ok (by decide +kernel)
  obtain ⟨d₂, read₂⟩ : ∃ d, Document.ofSource (ascii "[text(\"b\")]") = .ok d :=
    exists_ok (by decide +kernel)
  obtain ⟨composed, -⟩ := Document.ofSource_concatenated read₁ (ascii "[text(\"b\")]")
  obtain ⟨d, read, same⟩ := composed d₂ read₂
  exact ⟨d₁, d₂, d, read₁, read₂, read, same⟩

end SlideDeck
