import Mathlib.Data.List.Basic
import SlideDeck.Proofs.Deck.Compile

/-! # Blocks that no element matches

Strict and lenient resolution of a document differ in one thing only: what
becomes of a block for a name that no element has (`Document.resolve_modes`).

* `Slide.Unmatched` says which blocks these are, and `Slide.matched` is the
  slide without them.
* `Slide.resolved_matched`: deleting them changes nothing but that they are no
  longer listed.
* `mapM_eq_error_of_first`: of several failures the first one is reported.

Blocks are only ever looked up for the slide, for a kind, or for the name of an
element that is there.  None of these look-ups can meet an unmatched block, so
none of them notices that it is gone. -/

namespace SlideDeck

/-! ## Unmatched blocks -/

namespace Slide

/-- A block for a name that no element of the slide has. -/
structure Unmatched (s : Slide) (b : StyleBlock) : Prop where
  notSlide : b.target ≠ slideWord
  notKind : ∀ kind : Kind, b.target ≠ kind.name
  notName : ∀ e ∈ s.content.flatten, e.name ≠ some b.target

theorem unmatched_iff {s : Slide} {b : StyleBlock} :
    s.Unmatched b ↔ (b.targetsName && (s.content.findNamed? b.target).isNone) = true := by
  have kinds : b.targetKind?.isNone = true ↔ ∀ kind : Kind, b.target ≠ kind.name := by
    rw [Option.isNone_iff_eq_none, Option.eq_none_iff_forall_ne_some]
    refine ⟨fun unknown kind equal => ?_, fun other kind known => ?_⟩
    · exact unknown kind (by rw [StyleBlock.targetKind?, equal, Syntax.ofName?_name])
    · exact other kind (Syntax.name_of_ofName? known).symm
  have names : (s.content.findNamed? b.target).isNone = true ↔
      ∀ e ∈ s.content.flatten, e.name ≠ some b.target := by
    simp [Element.findNamed?]
  rw [Bool.and_eq_true, StyleBlock.targetsName, Bool.and_eq_true, kinds, names]
  simp only [StyleBlock.targetsSlide, Bool.not_eq_true', decide_eq_false_iff_not]
  exact ⟨fun h => ⟨⟨h.notSlide, h.notKind⟩, h.notName⟩, fun h => ⟨h.1.1, h.1.2, h.2⟩⟩

instance (s : Slide) (b : StyleBlock) : Decidable (s.Unmatched b) :=
  decidable_of_iff _ unmatched_iff.symm

theorem unmatchedBlocks_eq_filter (s : Slide) :
    s.unmatchedBlocks = s.styles.filter fun b => s.Unmatched b := by
  refine List.filter_congr fun b _ => ?_
  rw [Bool.eq_iff_iff, decide_eq_true_eq, unmatched_iff]

/-- The slide without the blocks that no element matches. -/
def matched (s : Slide) : Slide :=
  { s with styles := s.styles.filter fun b => ¬ s.Unmatched b }

theorem unmatchedBlocks_matched (s : Slide) : s.matched.unmatchedBlocks = [] := by
  rw [unmatchedBlocks_eq_filter, List.filter_eq_nil_iff]
  intro b kept
  -- Deleting blocks leaves the content alone, and with it which blocks are unmatched.
  have same : s.matched.Unmatched b ↔ s.Unmatched b := by rw [unmatched_iff, unmatched_iff]; rfl
  simpa [same] using (List.mem_filter.1 kept).2

/-! ## Looking up blocks -/

variable {s : Slide}

/-- A look-up that meets no unmatched block does not notice that they are gone. -/
theorem layer?_matched {target : Bytes}
    (heeded : ∀ b, b.target = target → ¬ s.Unmatched b) :
    s.matched.layer? target = s.layer? target := by
  have same : ∀ b : StyleBlock, (!decide (s.Unmatched b) && decide (b.target = target))
      = decide (b.target = target) := by
    intro b
    by_cases equal : b.target = target
    · simp [heeded b equal]
    · simp [equal]
  simp [layer?, findStyle?, matched, List.find?_filter, same]

theorem layer?_matched_slide : s.matched.layer? slideWord = s.layer? slideWord :=
  layer?_matched fun _ equal unmatched => unmatched.notSlide equal

theorem layer?_matched_kind (kind : Kind) : s.matched.layer? kind.name = s.layer? kind.name :=
  layer?_matched fun _ equal unmatched => unmatched.notKind kind equal

theorem layer?_matched_name {e : Element} (among : e ∈ s.content.flatten) {name : Bytes}
    (named : e.name = some name) : s.matched.layer? name = s.layer? name :=
  layer?_matched fun _ equal unmatched => unmatched.notName e among (by rw [named, equal])

theorem elementStyle_matched {e : Element} (among : e ∈ s.content.flatten)
    (defaults : PropertyMap) :
    s.matched.elementStyle e defaults = s.elementStyle e defaults := by
  have named : e.name.bind s.matched.layer? = e.name.bind s.layer? := by
    cases name : e.name with
    | none => rfl
    | some name => exact layer?_matched_name among name
  rw [elementStyle, elementStyle, layer?_matched_slide, layer?_matched_kind, named]

theorem nodeStyles_matched (defaults : PropertyMap) :
    s.matched.nodeStyles defaults = s.nodeStyles defaults := by
  rw [nodeStyles, nodeStyles]
  refine List.foldl_ext _ _ _ fun styles e among => ?_
  rw [elementStyle_matched (s := s) among]

/-- Without the blocks that no element matches, a slide has the same properties. -/
theorem resolved_matched (s : Slide) (v : Viewport) :
    s.matched.resolved v = { s.resolved v with ignoredTargets := [] } := by
  have own : s.matched.ownStyle (defaultProperties v) = s.ownStyle (defaultProperties v) := by
    rw [ownStyle, ownStyle, layer?_matched_slide]
  have hole : s.matched.content.isHole = s.content.isHole := rfl
  rw [resolved, resolved, hole]
  split
  · rfl
  · simp only [own, nodeStyles_matched, unmatchedBlocks_matched, List.map_nil]

theorem resolve_matched (s : Slide) (strict : Bool) (v : Viewport) :
    s.matched.resolve strict v = .ok { s.resolved v with ignoredTargets := [] } :=
  resolve_eq_ok.2 ⟨.inr s.unmatchedBlocks_matched, (s.resolved_matched v).symm⟩

theorem ignoredTargets_resolved (content : s.content.isHole = false) (v : Viewport) :
    (s.resolved v).ignoredTargets
      = (s.styles.filter fun b => s.Unmatched b).map StyleBlock.target := by
  simp only [resolved, content, Bool.false_eq_true, if_false, unmatchedBlocks_eq_filter]

/-- Where targets are strict, the first block that no element matches is refused. -/
theorem resolve_eq_error (content : s.content.isHole = false) {b : StyleBlock}
    (first : s.styles.find? (fun b => s.Unmatched b) = some b) (v : Viewport) :
    s.resolve true v = .error ⟨b.position, .unresolvedStyleTarget b.target⟩ := by
  rw [← List.head?_filter, ← unmatchedBlocks_eq_filter] at first
  obtain ⟨others, unmatched⟩ := List.head?_eq_some_iff.1 first
  simp only [resolve, content, unmatched, Bool.not_false, Bool.and_self]

end Slide

/-! ## Documents -/

/-- Of the failures of a step on the members of a list, the first one counts. -/
theorem mapM_eq_error_of_first {α β ε : Type} {f : α → Except ε β} {before after : List α} {x : α}
    {e : ε} (passed : ∀ y ∈ before, ∃ z, f y = .ok z) (fails : f x = .error e) :
    (before ++ x :: after).mapM f = .error e := by
  induction before with
  | nil => simp [fails, bind, Except.bind]
  | cons y before ih =>
    obtain ⟨⟨z, first⟩, others⟩ := List.forall_mem_cons.1 passed
    rw [List.cons_append, List.mapM_cons, first, ih others]
    rfl

theorem Document.content_of_ofSource {source : Bytes} {d : Document}
    (read : ofSource source = .ok d) : ∀ s ∈ d.slides, s.content.isHole = false := by
  intro s among
  obtain ⟨ts, isSlide⟩ := slide_of_ofSource read s among
  exact isSlide.not_hole

/-- Slides that resolve pass, and the first one with an unmatched block is refused. -/
theorem Document.resolve_eq_error {d : Document} {before after : List Slide} {s : Slide}
    {b : StyleBlock} (slides : d.slides = before ++ s :: after)
    (passed : ∀ t ∈ before, t.unmatchedBlocks = []) (content : s.content.isHole = false)
    (first : s.styles.find? (fun b => s.Unmatched b) = some b) (v : Viewport) :
    d.resolve ⟨v, true⟩ = .error ⟨b.position, .unresolvedStyleTarget b.target⟩ := by
  have refused := s.resolve_eq_error content first v
  rw [resolve, slides, mapM_eq_error_of_first]
  · rfl
  · intro t earlier
    have resolved : t.resolve true v = .ok (t.resolved v) :=
      Slide.resolve_eq_ok.2 ⟨.inr (passed t earlier), rfl⟩
    exact ⟨t.compiled v, by simp only [resolved, bind, Except.bind, pure, Except.pure]; rfl⟩
  · simp only [refused, bind, Except.bind]

/-- **Strict and lenient targets.**  Leniently, a document that was read always resolves; what is
ignored of each slide are its unmatched blocks, and all else is as if they were not there.  Strictly
it resolves exactly if nothing is ignored, and then to the same deck.  If something is ignored, then
the first ignored block of the first slide that has one is refused, at its place. -/
theorem Document.resolve_modes {source : Bytes} {d : Document} (read : ofSource source = .ok d)
    (v : Viewport) :
    ∃ lenient, d.resolve ⟨v, false⟩ = .ok lenient ∧ lenient.viewport = v ∧
      lenient.slides.map CompiledSlide.slide = d.slides ∧
      (∀ c ∈ lenient.slides,
        c.style.ignoredTargets
          = (c.slide.styles.filter fun b => c.slide.Unmatched b).map StyleBlock.target ∧
        ∀ strict, c.slide.matched.resolve strict v = .ok { c.style with ignoredTargets := [] }) ∧
      (∀ deck, d.resolve ⟨v, true⟩ = .ok deck ↔
        (∀ c ∈ lenient.slides, c.style.ignoredTargets = []) ∧ deck = lenient) ∧
      ∀ c, lenient.slides.find? (fun c => c.style.ignoredTargets ≠ []) = some c →
        ∃ b, c.slide.styles.find? (fun b => c.slide.Unmatched b) = some b ∧
          c.style.ignoredTargets.head? = some b.target ∧
          d.resolve ⟨v, true⟩ = .error ⟨b.position, .unresolvedStyleTarget b.target⟩ := by
  have content := content_of_ofSource read
  have ignored : ∀ s ∈ d.slides, (s.compiled v).style.ignoredTargets
      = s.unmatchedBlocks.map StyleBlock.target := by
    intro s among
    rw [Slide.unmatchedBlocks_eq_filter]
    exact Slide.ignoredTargets_resolved (content s among) v
  have nothing : ∀ s ∈ d.slides,
      (s.compiled v).style.ignoredTargets = [] ↔ s.unmatchedBlocks = [] := by
    intro s among
    rw [ignored s among, List.map_eq_nil_iff]
  refine ⟨⟨d.slides.map (·.compiled v), v⟩, resolve_eq_ok.2 ⟨fun _ _ => .inl rfl, rfl⟩, rfl, ?_,
    ?_, fun deck => ?_, fun c first => ?_⟩
  · rw [List.map_map]
    exact List.map_id _
  · refine List.forall_mem_map.2 fun s among => ⟨?_, fun strict => s.resolve_matched strict v⟩
    exact Slide.ignoredTargets_resolved (content s among) v
  · rw [resolve_eq_ok, List.forall_mem_map]
    refine and_congr_left fun _ => forall₂_congr fun s among => ?_
    rw [Slide.Resolvable, nothing s among, content s among]
    simp
  · obtain ⟨refused, mapped, after, slides, passed⟩ := List.find?_eq_some_iff_append.1 first
    obtain ⟨before, rest, split, rfl, others⟩ := List.map_eq_append_iff.1 slides
    obtain ⟨s, after, rfl, rfl, -⟩ := List.map_eq_cons_iff.1 others
    have among : s ∈ d.slides := split ▸ List.mem_append_right _ (List.mem_cons_self ..)
    have notEmpty : s.unmatchedBlocks ≠ [] := by
      rw [Ne, ← nothing s among]
      simpa using refused
    obtain ⟨b, blocks, unmatched⟩ := List.exists_cons_of_ne_nil notEmpty
    have found : s.styles.find? (fun b => s.Unmatched b) = some b := by
      rw [← List.head?_filter, ← Slide.unmatchedBlocks_eq_filter, unmatched, List.head?_cons]
    refine ⟨b, found, ?_, resolve_eq_error split (fun t earlier => ?_) (content s among) found v⟩
    · rw [ignored s among, unmatched, List.map_cons, List.head?_cons]
    · have there : t ∈ d.slides := split ▸ List.mem_append_left _ earlier
      rw [← nothing t there]
      simpa using passed _ (List.mem_map_of_mem earlier)

/-- A slide of which every block is matched, and one with two blocks that are not. -/
def hauntedSource : Bytes :=
  .ascii "[a :: text(\"x\") a \x7bsize: 3\x7d]
    [ghost \x7bsize: 4\x7d slide \x7bmargin: 5\x7d text(\"y\") a \x7bsize: 6\x7d]"

theorem hauntedSource_modes :
    ∃ d lenient, ∃ b : StyleBlock, Document.ofSource hauntedSource = .ok d ∧
      d.resolve ⟨{}, false⟩ = .ok lenient ∧
      lenient.slides.map (fun c => c.style.ignoredTargets) = [[], [.ascii "ghost", .ascii "a"]] ∧
      b.target = .ascii "ghost" ∧
      d.resolve ⟨{}, true⟩ = .error ⟨b.position, .unresolvedStyleTarget (.ascii "ghost")⟩ := by
  have ignored : ((Document.ofSource hauntedSource).toOption.getD ⟨[]⟩).slides.map
      (fun s => (s.resolved {}).ignoredTargets) = [[], [.ascii "ghost", .ascii "a"]] := by
    decide +kernel
  obtain ⟨d, read⟩ := exists_ok (x := Document.ofSource hauntedSource) (by decide +kernel)
  rw [read] at ignored
  obtain ⟨lenient, resolved, -, -, -, -, refuses⟩ := Document.resolve_modes read {}
  obtain ⟨-, rfl⟩ := Document.resolve_eq_ok.1 resolved
  have targets : (d.slides.map (·.compiled {})).map (fun c => c.style.ignoredTargets)
      = [[], [.ascii "ghost", .ascii "a"]] := by
    rw [List.map_map]
    exact ignored
  obtain ⟨c, others, slides, clean, rest⟩ := List.map_eq_cons_iff.1 targets
  obtain ⟨c', others', rfl, haunted, -⟩ := List.map_eq_cons_iff.1 rest
  have first : (d.slides.map (·.compiled {})).find? (fun c => c.style.ignoredTargets ≠ [])
      = some c' := by
    rw [slides]
    simp [clean, haunted]
  obtain ⟨b, -, target, refused⟩ := refuses c' first
  rw [haunted] at target
  have isGhost : b.target = .ascii "ghost" := (Option.some.inj target).symm
  rw [isGhost] at refused
  exact ⟨d, _, b, read, resolved, targets, isGhost, refused⟩

end SlideDeck
