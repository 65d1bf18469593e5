import SlideDeck.Deck.Basic
import SlideDeck.Proofs.Syntax.Document

/-! # Compiled decks

A deck is compiled exactly from a document whose slides are all resolvable
(`Deck.compile_eq_ok`), it is compiled again for another viewport by resizing
it (`Deck.compile_resized`), each slide of it has the properties of an element
at the element's number (`SlideTokens.nodeStyles_resolved`), and every slide can
be rendered (`CompiledSlide.render_of_compiled`).

Whether a slide is resolvable depends on the slide alone.  Resizing may therefore
skip the test that compiling makes, and strict compiling for the new viewport
would have succeeded as well. -/

namespace SlideDeck

open Syntax

theorem except_bind_eq_ok {α β ε : Type} {x : Except ε α} {f : α → Except ε β} {y : β} :
    (x >>= f) = .ok y ↔ ∃ a, x = .ok a ∧ f a = .ok y := by
  cases x with
  | error e => simp [bind, Except.bind]
  | ok a => simp [bind, Except.bind]

theorem except_bind_eq_error {α β ε : Type} {x : Except ε α} {f : α → Except ε β} {e : ε} :
    (x >>= f) = .error e ↔ x = .error e ∨ ∃ a, x = .ok a ∧ f a = .error e := by
  cases x with
  | error e' => simp [bind, Except.bind]
  | ok a => simp [bind, Except.bind]

theorem except_map_eq_ok {α β ε : Type} {x : Except ε α} {f : α → β} {y : β} :
    x.map f = .ok y ↔ ∃ a, x = .ok a ∧ f a = y := by
  cases x <;> simp [Except.map]

theorem except_map_eq_error {α β ε : Type} {x : Except ε α} {f : α → β} {e : ε} :
    x.map f = .error e ↔ x = .error e := by
  cases x <;> simp [Except.map]

theorem exists_ok {α ε : Type} {x : Except ε α} (h : x.toOption.isSome) : ∃ a, x = .ok a := by
  cases x with
  | error e => cases h
  | ok a => exact ⟨a, rfl⟩

theorem eq_ok_of_mem {α ε : Type} {x : Except ε α} {a : α} (h : a ∈ x.toOption) : x = .ok a := by
  cases x with
  | error e => cases h
  | ok b => exact congrArg _ (Option.some.inj h)

/-! ## Resolving -/

/-- No style block is refused: targets are not strict, or every named block matches an element. -/
def Slide.Resolvable (s : Slide) (strict : Bool) : Prop :=
  (strict && !s.content.isHole) = false ∨ s.unmatchedBlocks = []

/-- A slide with its properties decided for a viewport. -/
def Slide.compiled (s : Slide) (v : Viewport) : CompiledSlide :=
  ⟨s, s.resolved v⟩

theorem Slide.resolve_eq_ok {s : Slide} {strict : Bool} {v : Viewport} {r : ResolvedSlide} :
    s.resolve strict v = .ok r ↔ s.Resolvable strict ∧ r = s.resolved v := by
  rw [resolve, Resolvable]
  split
  · next b rest tests unmatched => simp [tests, unmatched]
  · next notBoth =>
    have resolvable : (strict && !s.content.isHole) = false ∨ s.unmatchedBlocks = [] := by
      cases tests : (strict && !s.content.isHole) with
      | false => exact .inl rfl
      | true =>
        cases unmatched : s.unmatchedBlocks with
        | nil => exact .inr rfl
        | cons b rest => exact absurd unmatched (notBoth b rest tests)
    simp only [Except.ok.injEq, resolvable, true_and]
    exact eq_comm

/-- A step that succeeds exactly under a condition, with a value that is then known, succeeds for
all elements of a list exactly if all of them meet the condition. -/
theorem mapM_eq_ok {α β ε : Type} {f : α → Except ε β} {p : α → Prop} {g : α → β}
    (step : ∀ x y, f x = .ok y ↔ p x ∧ y = g x) {xs : List α} {ys : List β} :
    xs.mapM f = .ok ys ↔ (∀ x ∈ xs, p x) ∧ ys = xs.map g := by
  induction xs generalizing ys with
  | nil => simp [pure, Except.pure, eq_comm]
  | cons x xs ih =>
    rw [List.mapM_cons, List.forall_mem_cons, List.map_cons]
    cases first : f x with
    | error e =>
      -- A step fails only where its condition does not hold.
      have fails : ¬ p x := fun holds => by
        rw [(step x (g x)).2 ⟨holds, rfl⟩] at first
        cases first
      simp [bind, Except.bind, fails]
    | ok y =>
      obtain ⟨holds, rfl⟩ := (step x y).1 first
      cases rest : xs.mapM f with
      | error e =>
        have fails : ¬ ∀ x ∈ xs, p x := fun all => by
          rw [ih.2 ⟨all, rfl⟩] at rest
          cases rest
        simp [bind, Except.bind, fails]
      | ok zs =>
        obtain ⟨all, rfl⟩ := ih.1 rest
        simp only [bind, Except.bind, pure, Except.pure, Except.ok.injEq]
        exact ⟨fun equal => ⟨⟨holds, all⟩, equal.symm⟩, fun h => h.2.symm⟩

theorem Document.resolve_eq_ok {d : Document} {o : CompileOptions} {deck : Deck} :
    d.resolve o = .ok deck ↔ (∀ s ∈ d.slides, s.Resolvable o.strict) ∧
      deck = ⟨d.slides.map (·.compiled o.viewport), o.viewport⟩ := by
  have step : ∀ (s : Slide) (c : CompiledSlide),
      (do return ⟨s, ← s.resolve o.strict o.viewport⟩ : Except CompileError CompiledSlide) = .ok c
        ↔ s.Resolvable o.strict ∧ c = s.compiled o.viewport := by
    intro s c
    rw [except_bind_eq_ok]
    constructor
    · intro parts
      obtain ⟨r, resolved, ⟨⟩⟩ := parts
      obtain ⟨resolvable, rfl⟩ := Slide.resolve_eq_ok.1 resolved
      exact ⟨resolvable, rfl⟩
    · intro parts
      obtain ⟨resolvable, rfl⟩ := parts
      exact ⟨_, Slide.resolve_eq_ok.2 ⟨resolvable, rfl⟩, rfl⟩
  rw [resolve]
  rw [except_bind_eq_ok]
  constructor
  · intro parts
    obtain ⟨slides, resolved, ⟨⟩⟩ := parts
    obtain ⟨resolvable, rfl⟩ := (mapM_eq_ok step).1 resolved
    exact ⟨resolvable, rfl⟩
  · intro parts
    obtain ⟨resolvable, rfl⟩ := parts
    exact ⟨_, (mapM_eq_ok step).2 ⟨resolvable, rfl⟩, rfl⟩

/-! ## Compiling -/

theorem Deck.compile_eq_ok {source : Bytes} {o : CompileOptions} {d : Deck} :
    Deck.compile source o = .ok d ↔ ∃ doc, Document.ofSource source = .ok doc ∧
      (∀ s ∈ doc.slides, s.Resolvable o.strict) ∧
      d = ⟨doc.slides.map (·.compiled o.viewport), o.viewport⟩ := by
  rw [compile]
  rw [except_bind_eq_ok]
  simp only [Document.resolve_eq_ok]

/-- Resizing a compiled deck is compiling its source for the other viewport. -/
theorem Deck.compile_resized {source : Bytes} {o : CompileOptions} {d : Deck}
    (h : Deck.compile source o = .ok d) (v : Viewport) :
    Deck.compile source { o with viewport := v } = .ok (d.resized v) := by
  obtain ⟨doc, read, resolvable, rfl⟩ := compile_eq_ok.1 h
  refine compile_eq_ok.2 ⟨doc, read, resolvable, ?_⟩
  simp [resized, Slide.compiled, Function.comp_def]

/-! ## Properties by number -/

/-- The number of an element is its place where the numbers are in order. -/
theorem id_eq_place {es : List Element} (inOrder : es.map Element.id = List.range es.length)
    {i : Nat} {e : Element} (there : es[i]? = some e) : e.id = i := by
  have number := congrArg (·[i]?) inOrder
  simp only [List.getElem?_map, there, Option.map_some,
    List.getElem?_range (List.getElem?_eq_some_iff.1 there).1] at number
  exact Option.some.inj number

/-- Properties that are placed in order, at one number after the other, are those of the elements
in order. -/
theorem foldl_placed (style : Element → PropertyMap) {nodes : List Element}
    {done : List PropertyMap}
    (numbered : nodes.map Element.id = List.range' done.length nodes.length) :
    nodes.foldl (fun styles e => placed styles e.id (style e))
        (done ++ List.replicate nodes.length ∅)
      = done ++ nodes.map style := by
  induction nodes generalizing done with
  | nil => simp
  | cons e nodes ih =>
    rw [List.map_cons, List.length_cons, List.range'_succ, List.cons.injEq] at numbered
    obtain ⟨here, others⟩ := numbered
    have next : placed (done ++ List.replicate (nodes.length + 1) ∅) e.id (style e)
        = (done ++ [style e]) ++ List.replicate nodes.length ∅ := by
      rw [placed, here]
      simp [List.replicate_succ]
    rw [List.foldl_cons, List.length_cons, next, ih (by simpa using others)]
    simp

/-- Where elements are numbered in pre-order, the properties at each number are those of its
element. -/
theorem Slide.nodeStyles_eq_map {s : Slide} (defaults : PropertyMap)
    (inOrder : s.content.flatten.map Element.id = List.range s.content.flatten.length) :
    s.nodeStyles defaults = s.content.flatten.map fun e => s.elementStyle e defaults := by
  have numbered : s.content.flatten.map Element.id
      = List.range' ([] : List PropertyMap).length s.content.flatten.length := by
    rw [inOrder, List.range_eq_range', List.length_nil]
  exact foldl_placed (fun e => s.elementStyle e defaults) numbered

/-! ## Rendering -/

theorem Syntax.Slides.each {ts : List Token} {slides : List Slide} (h : Slides ts slides) :
    ∀ s ∈ slides, ∃ us, us ⊆ ts ∧ SlideTokens us s := by
  induction h with
  | nil => nofun
  | cons isSlide _ ih =>
    intro s member
    cases member with
    | head => exact ⟨_, List.subset_append_left .., isSlide⟩
    | tail _ there =>
      obtain ⟨us, part, isSlide⟩ := ih s there
      exact ⟨us, fun t among => List.mem_append_right _ (part among), isSlide⟩

theorem Document.slide_of_ofSource {source : Bytes} {doc : Document}
    (read : Document.ofSource source = .ok doc) : ∀ s ∈ doc.slides, ∃ ts, SlideTokens ts s := by
  obtain ⟨tokens, -, read⟩ := except_bind_eq_ok.1 read
  intro s among
  obtain ⟨us, -, isSlide⟩ := (ofTokens_eq_ok.1 read : Slides _ _).each s among
  exact ⟨us, isSlide⟩

/-- A slide that was read has the properties of each element at its number. -/
theorem Syntax.SlideTokens.nodeStyles_resolved {ts : List Token} {s : Slide}
    (h : SlideTokens ts s) (v : Viewport) :
    (s.resolved v).nodeStyles
      = s.content.flatten.map fun e => s.elementStyle e (defaultProperties v) := by
  have present := h.not_hole
  cases h with
  | mk _ _ _ _ _ inOrder =>
    simp only [Slide.resolved, present, Bool.false_eq_true, if_false]
    exact Slide.nodeStyles_eq_map _ inOrder

/-- The properties of an element are at its number. -/
theorem Syntax.SlideTokens.style_resolved {ts : List Token} {s : Slide} (h : SlideTokens ts s)
    (v : Viewport) {e : Element} (among : e ∈ s.content.flatten) :
    (s.resolved v).nodeStyles[e.id]? = some (s.elementStyle e (defaultProperties v)) := by
  have styles := h.nodeStyles_resolved v
  obtain ⟨i, there⟩ := List.mem_iff_getElem?.1 among
  cases h with
  | mk _ _ _ _ _ inOrder =>
    rw [id_eq_place inOrder there, styles, List.getElem?_map, there, Option.map_some]

theorem Syntax.SlideTokens.missing?_resolved {ts : List Token} {s : Slide} (h : SlideTokens ts s)
    (v : Viewport) : (s.resolved v).missing? s.content = none := by
  have styles := h.nodeStyles_resolved v
  cases h with
  | mk _ _ _ _ _ inOrder =>
    rw [ResolvedSlide.missing?, Option.map_eq_none_iff, List.find?_eq_none]
    intro e among
    have numbered := List.mem_map_of_mem (f := Element.id) among
    rw [inOrder, List.mem_range] at numbered
    simpa [styles] using numbered

/-- A slide that was read can be rendered for every viewport. -/
theorem Syntax.SlideTokens.render_compiled {ts : List Token} {s : Slide} (h : SlideTokens ts s)
    (v : Viewport) (index : Nat) (m : Option Measurer) :
    ∃ r, (s.compiled v).render index m = .ok r ∧ r.index = index := by
  simp [CompiledSlide.render, Slide.layOut, Element.layOut, Slide.compiled, h.missing?_resolved,
    bind, Except.bind, pure, Except.pure]

/-- Every slide of a compiled deck can be rendered. -/
theorem CompiledSlide.render_of_compiled {source : Bytes} {o : CompileOptions} {d : Deck}
    (h : Deck.compile source o = .ok d) {c : CompiledSlide} (among : c ∈ d.slides) (index : Nat)
    (m : Option Measurer) : ∃ r, c.render index m = .ok r ∧ r.index = index := by
  obtain ⟨doc, read, -, rfl⟩ := Deck.compile_eq_ok.1 h
  obtain ⟨s, there, rfl⟩ := List.mem_map.1 among
  obtain ⟨ts, isSlide⟩ := Document.slide_of_ofSource read s there
  exact isSlide.render_compiled o.viewport index m

end SlideDeck
