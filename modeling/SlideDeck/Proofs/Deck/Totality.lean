import SlideDeck.Proofs.Deck.Concatenation
import SlideDeck.Proofs.Deck.Interleaved
import SlideDeck.Proofs.Layout.Identity

/-! # Layouts are total

A slide is laid out with the properties of any slide that has at least as many
elements.  With those of a smaller one the layout ends at the first element too
many, and a compiled deck is always rendered (`Engine.layOutSlide_total`).

* `SlideTokens.missing?_eq`: of a slide that was read, the first element without
  properties is the one whose number is how many properties there are.
* `renderFrom_each`: rendered slides stand in the order of the slides.

A layout goes through a tree from the root down and from the first child to the
last, which is the order that a reader numbered the elements in.  So the first
number that it misses is the smallest one. -/

namespace SlideDeck

open Bytes Syntax

/-! ## Borrowed properties -/

/-- The first number that is not below a bound is the bound. -/
theorem find?_range_le (bound count : Nat) :
    (List.range count).find? (fun k => decide (bound ≤ k))
      = if bound < count then some bound else none := by
  split
  · next inside =>
    refine List.find?_range_eq_some.2 ⟨decide_eq_true (Nat.le_refl bound), List.mem_range.2 inside,
      fun k below => ?_⟩
    simpa using below
  · next outside =>
    refine List.find?_eq_none.2 fun k among => ?_
    have below := List.mem_range.1 among
    simp only [decide_eq_true_eq]
    omega

namespace Syntax.SlideTokens

variable {ts : List Token} {s : Slide}

/-- A layout meets the elements in the order of their numbers, so of those without properties it
meets the one with the smallest number first. -/
theorem missing?_eq (h : SlideTokens ts s) (r : ResolvedSlide) :
    r.missing? s.content
      = if r.nodeStyles.length < s.nodeCount then some ⟨r.nodeStyles.length⟩ else none := by
  have byNumber : r.missing? s.content
      = ((s.content.flatten.map Element.id).find? fun k => decide (r.nodeStyles.length ≤ k)).map
          MissingStyle.mk := by
    rw [List.find?_map, Option.map_map]
    rfl
  cases h with
  | mk _ _ _ _ _ inOrder =>
    rw [byNumber, inOrder, find?_range_le]
    split <;> rfl

/-- A slide has as many properties as elements. -/
theorem length_nodeStyles (h : SlideTokens ts s) (v : Viewport) :
    (s.resolved v).nodeStyles.length = s.nodeCount := by
  have styles := h.nodeStyles_resolved v
  cases h with
  | mk => rw [styles, List.length_map]

/-- With fewer properties than elements, a layout ends at the first element that has none. -/
theorem layOut_eq_error (h : SlideTokens ts s) {r : ResolvedSlide} (m : Option Measurer)
    (fewer : r.nodeStyles.length < s.nodeCount) :
    s.layOut ⟨r, m⟩ = .error ⟨r.nodeStyles.length⟩ := by
  rw [Slide.layOut, Element.layOut, h.missing?_eq, if_pos fewer]

/-- With properties for every element, a slide is laid out, and it has a box for every element. -/
theorem exists_layOut (h : SlideTokens ts s) {r : ResolvedSlide} (m : Option Measurer)
    (enough : s.nodeCount ≤ r.nodeStyles.length) :
    ∃ arranged, s.layOut ⟨r, m⟩ = .ok arranged ∧ arranged.box.outlines = s.content.outlines := by
  have covers : r.Covers s.content := by
    rw [← ResolvedSlide.missing?_eq_none, h.missing?_eq, if_neg (Nat.not_lt.2 enough)]
  have range : r.inner.InRange := paddedMost_inRange _ ⟨_, _⟩
  have laid := (laidOut_iff (c := ⟨r, m⟩) (x := clampPixels r.margin) (y := clampPixels r.margin)
    h.whole range).2 rfl
  exact ⟨_, layOut_eq_ok covers _ _ range, laid.outlines⟩

end Syntax.SlideTokens

/-! ## Rendered decks -/

/-- The rendering of each slide stands at the slide's place. -/
theorem renderFrom_each {m : Option Measurer} {cs : List CompiledSlide} {i : Nat}
    {rs : List RenderedSlide} (h : renderFrom m i cs = .ok rs) :
    rs.length = cs.length ∧
      ∀ (k : Nat) (c : CompiledSlide), cs[k]? = some c →
        ∃ r, rs[k]? = some r ∧ c.render (i + k) m = .ok r := by
  induction cs generalizing i rs with
  | nil =>
    cases h
    exact ⟨rfl, nofun⟩
  | cons c cs ih =>
    obtain ⟨r, first, h⟩ := except_bind_eq_ok.1 h
    obtain ⟨others, rest, ⟨⟩⟩ := except_bind_eq_ok.1 h
    obtain ⟨length, each⟩ := ih rest
    refine ⟨congrArg Nat.succ length, fun k c' there => ?_⟩
    cases k with
    | zero =>
      cases there
      exact ⟨r, rfl, first⟩
    | succ k =>
      obtain ⟨r', place, rendered⟩ := each k c' there
      rw [Nat.add_right_comm, Nat.add_assoc] at rendered
      exact ⟨r', place, rendered⟩

/-! ## Totality -/

/-- **Layouts are total but for missing properties.**  Of two slides that were read, the first is
laid out with the properties of the second, for any viewport and by any engine, unless it has more
elements.  Then the layout ends, and the element that it names has the number of elements of the
second slide for its number.  Each slide of a compiled deck has as many properties as elements, so
the deck is rendered by every measurer, one rendering for each slide and in the order of the slides,
in whatever order they are laid out. -/
theorem Engine.layOutSlide_total :
    (∀ {source source' : Bytes} {d d' : Document} {s t : Slide} {strict : Bool} {v : Viewport}
        {r : ResolvedSlide}, Document.ofSource source = .ok d → s ∈ d.slides →
        Document.ofSource source' = .ok d' → t ∈ d'.slides → t.resolve strict v = .ok r →
      ∀ g : Engine,
        ((∃ missing, (g.layOutSlide s r).1 = .error missing) ↔ t.nodeCount < s.nodeCount) ∧
        (∀ missing, (g.layOutSlide s r).1 = .error missing → missing.node = t.nodeCount ∧
          missing.message = ascii "no resolved style for node " ++ decimal t.nodeCount) ∧
        (s.nodeCount ≤ t.nodeCount → ∃ root, (g.layOutSlide s r).1 = .ok root ∧
          root.outlines = s.content.outlines)) ∧
    ∀ {source : Bytes} {o : CompileOptions} {deck : Deck}, Deck.compile source o = .ok deck →
      ∀ m : Option Measurer, ∃ rs, deck.render m = .ok rs ∧ rs.length = deck.slides.length ∧
        (∀ (i : Nat) (c : CompiledSlide), deck.slides[i]? = some c →
          ∃ r, rs[i]? = some r ∧ r.index = i ∧ c.render i m = .ok r) ∧
        ∀ order : List Nat, order.Perm (List.range deck.slides.length) →
          deck.renderBy m order = .ok rs := by
  constructor
  case left =>
    intro source source' d d' s t strict v r read among read' among' resolved g
    obtain ⟨-, rfl⟩ := Slide.resolve_eq_ok.1 resolved
    obtain ⟨ts, isSlide⟩ := Document.slide_of_ofSource read s among
    obtain ⟨us, isSlide'⟩ := Document.slide_of_ofSource read' t among'
    have count := isSlide'.length_nodeStyles v
    rw [layOutSlide_eq]
    by_cases fewer : t.nodeCount < s.nodeCount
    · have ended := isSlide.layOut_eq_error g.measurer (count.symm ▸ fewer)
      rw [count] at ended
      rw [ended]
      refine ⟨iff_of_true ⟨_, rfl⟩ fewer, ?_, fun enough => absurd fewer (Nat.not_lt.2 enough)⟩
      rintro missing ⟨⟩
      exact ⟨rfl, rfl⟩
    · have enough := Nat.not_lt.1 fewer
      obtain ⟨arranged, laidOut, outlined⟩ := isSlide.exists_layOut g.measurer (count.symm ▸ enough)
      rw [laidOut]
      exact ⟨iff_of_false nofun fewer, nofun, fun _ => ⟨_, rfl, outlined⟩⟩
  case right =>
    intro source o deck compiled m
    obtain ⟨rs, rendered⟩ := Deck.exists_render compiled m
    obtain ⟨length, each⟩ := renderFrom_each rendered
    refine ⟨rs, rendered, length, fun i c there => ?_, fun order permuted => ?_⟩
    · obtain ⟨r, place, isRendered⟩ := each i c there
      rw [Nat.zero_add] at isRendered
      exact ⟨r, place, CompiledSlide.index_of_render isRendered, isRendered⟩
    · rw [Deck.renderBy_eq deck m permuted, rendered]

/-- The row has four elements and is laid out with the properties of the single text, which are
those of number zero only. -/
theorem namedRowSource_total :
    ∃ d s t r, Document.ofSource namedRowSource = .ok d ∧ s ∈ d.slides ∧ t ∈ d.slides ∧
      t.resolve true {} = .ok r ∧ s.nodeCount = 4 ∧ t.nodeCount = 1 ∧
      (∃ missing, (Engine.layOutSlide {} s r).1 = .error missing ∧ missing.node = 1 ∧
        missing.message = ascii "no resolved style for node 1") ∧
      (∃ root, (Engine.layOutSlide {} t r).1 = .ok root) ∧
      ∃ deck rs, Deck.compile namedRowSource {} = .ok deck ∧ deck.render none = .ok rs ∧
        rs.length = 2 ∧ deck.renderBy none [1, 0] = .ok rs := by
  have parsed : ∃ d ∈ (Document.ofSource namedRowSource).toOption, ∃ s ∈ d.slides, ∃ t ∈ d.slides,
      ∃ r ∈ (t.resolve true {}).toOption, s.nodeCount = 4 ∧ t.nodeCount = 1 := by
    decide +kernel
  have slides : ∃ deck ∈ (Deck.compile namedRowSource {}).toOption, deck.slides.length = 2 := by
    decide +kernel
  obtain ⟨d, isRead, s, among, t, among', r, isResolved, four, one⟩ := parsed
  obtain ⟨deck, isCompiled, two⟩ := slides
  have read := eq_ok_of_mem isRead
  have resolved := eq_ok_of_mem isResolved
  have compiled := eq_ok_of_mem isCompiled
  obtain ⟨total, rendered⟩ := Engine.layOutSlide_total
  obtain ⟨ends, names, -⟩ := total read among read among' resolved {}
  obtain ⟨-, -, laidOut⟩ := total read among' read among' resolved {}
  obtain ⟨missing, ended⟩ := ends.2 (by rw [one, four]; decide)
  obtain ⟨node, message⟩ := names missing ended
  obtain ⟨root, isRoot, -⟩ := laidOut (Nat.le_refl _)
  obtain ⟨rs, isRendered, length, -, anyOrder⟩ := rendered compiled none
  rw [one] at node message
  rw [two] at length anyOrder
  exact ⟨d, s, t, r, read, among, among', resolved, four, one, ⟨missing, ended, node, message⟩,
    ⟨root, isRoot⟩, deck, rs, compiled, isRendered, length, anyOrder _ (by decide)⟩

end SlideDeck
