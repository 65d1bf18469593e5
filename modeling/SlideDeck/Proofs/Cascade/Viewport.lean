import SlideDeck.Proofs.Cascade.Precedence
import SlideDeck.Proofs.Deck.Session
import SlideDeck.Proofs.RoundTrip.Properties

/-! # What the viewport decides

A viewport decides the widths and heights that no block sets, and nothing else
(`Slide.resolve_viewport`).

* `Slide.Sets` says that a slide has a block for a target with a key.
* `AgreeOnSet` is what two resolutions of one slide have in common.
* `Coherent.unaffected`: where a slide sets its own size, nothing but loading
  and installing a measurer changes what a session renders of it.

A slide meets the viewport twice: as a default below all blocks, and once more as
what the slide is as large as where its width or height is no number.  The latter
cannot happen to a slide that was read, since a block sets a width to nothing but
a number. -/

namespace SlideDeck

open Syntax

/-! ## Defaults -/

theorem get?_defaultProperties (v w : Viewport) {key : Bytes} (noWidth : key ≠ Property.width.key)
    (noHeight : key ≠ Property.height.key) :
    (defaultProperties w).get? key = (defaultProperties v).get? key := by
  simp only [defaultProperties, PropertyMap.ofList, PropertyMap.insertAll, List.foldl_cons,
    List.foldl_nil, PropertyMap.get?_insert, noWidth.symm, noHeight.symm, if_false]

/-! ## What blocks set -/

/-- A slide has a block for a target that sets a key. -/
def Slide.Sets (s : Slide) (target key : Bytes) : Prop :=
  ∃ b ∈ s.styles, b.target = target ∧ b.properties.contains key

instance (s : Slide) (target key : Bytes) : Decidable (s.Sets target key) :=
  inferInstanceAs (Decidable (∃ b ∈ s.styles, b.target = target ∧ b.properties.contains key))

theorem Syntax.SlideTokens.sets_iff {ts : List Token} {s : Slide} (h : SlideTokens ts s)
    {target key : Bytes} : s.Sets target key ↔ ∃ value, s.setBy target key = some value := by
  simp only [Slide.Sets, PropertyMap.contains, Option.isSome_iff_exists, h.setBy_eq_some]
  constructor
  · rintro ⟨b, among, target, value, there⟩
    exact ⟨value, b, among, target, there⟩
  · rintro ⟨value, b, among, target, there⟩
    exact ⟨b, among, target, value, there⟩

/-- A block sets a property that takes numbers to a number. -/
theorem Syntax.SlideTokens.number_of_setBy {ts : List Token} {s : Slide} (h : SlideTokens ts s)
    {target : Bytes} {p : Property} (takesNumbers : p.valueType = .number) {value : PropertyValue}
    (isSet : s.setBy target p.key = some value) : ∃ n, value = .number n := by
  obtain ⟨b, among, -, there⟩ := h.setBy_eq_some.1 isSet
  cases h with
  | mk isItems =>
    obtain ⟨q, l, key, typed, -⟩ :=
      isItems.settable b among _ (PropertyMap.mem_of_lookupEntry there)
    cases key_injective key
    cases typed with
    | number => exact ⟨_, rfl⟩
    | colour isColour => cases takesNumbers.symm.trans isColour

/-- A block for the slide, for the kind of an element or for its name sets a key. -/
def Slide.Reaches (s : Slide) (e : Element) (key : Bytes) : Prop :=
  s.Sets slideWord key ∨ s.Sets e.kind.name key ∨ ∃ name, e.name = some name ∧ s.Sets name key

/-! ## Agreement -/

attribute [ext] ResolvedSlide

/-- Two resolutions of a slide are the same in all that does not come from their viewports. -/
structure AgreeOnSet (s : Slide) (r r' : ResolvedSlide) : Prop where
  margin : r'.margin = r.margin
  background : r'.background = r.background
  ignoredTargets : r'.ignoredTargets = r.ignoredTargets
  length : r'.nodeStyles.length = r.nodeStyles.length
  others : ∀ node key, key ≠ Property.width.key → key ≠ Property.height.key →
    (r'.styleFor node).get? key = (r.styleFor node).get? key
  width : s.Sets slideWord Property.width.key → r'.width = r.width
  height : s.Sets slideWord Property.height.key → r'.height = r.height
  elements : ∀ e ∈ s.content.flatten, ∀ key, s.Reaches e key →
    (r'.styleFor e.id).get? key = (r.styleFor e.id).get? key

theorem get?_elementStyle_of_other (s : Slide) (e : Element) (v w : Viewport) {key : Bytes}
    (noWidth : key ≠ Property.width.key) (noHeight : key ≠ Property.height.key) :
    (s.elementStyle e (defaultProperties w)).get? key
      = (s.elementStyle e (defaultProperties v)).get? key := by
  rw [Slide.get?_elementStyle, Slide.get?_elementStyle, get?_defaultProperties v w noWidth noHeight]

section

variable {ts : List Token} {s : Slide} (h : SlideTokens ts s) (v w : Viewport)
include h

theorem get?_elementStyle_of_reaches {e : Element} {key : Bytes} (reached : s.Reaches e key) :
    (s.elementStyle e (defaultProperties w)).get? key
      = (s.elementStyle e (defaultProperties v)).get? key := by
  simp only [Slide.Reaches, h.sets_iff] at reached
  rw [Slide.get?_elementStyle, Slide.get?_elementStyle]
  rcases reached with ⟨value, slide⟩ | ⟨value, kind⟩ | ⟨name, named, value, isSet⟩
  · simp only [slide, Option.some_or]
  · simp only [kind, Option.some_or]
  · simp only [named, Option.bind_some, isSet, Option.some_or]

/-- A number that is set for the slide leaves nothing to the defaults or to a fallback. -/
theorem pixelsOr_of_sets {p : Property} (takesNumbers : p.valueType = .number)
    (isSet : s.Sets slideWord p.key) (fallback fallback' : Int) :
    (s.ownStyle (defaultProperties w)).pixelsOr p fallback'
      = (s.ownStyle (defaultProperties v)).pixelsOr p fallback := by
  obtain ⟨value, isSet⟩ := h.sets_iff.1 isSet
  obtain ⟨n, rfl⟩ := h.number_of_setBy takesNumbers isSet
  simp only [PropertyMap.pixelsOr, PropertyMap.number?, Slide.get?_ownStyle, isSet,
    Option.some_or]

theorem Syntax.SlideTokens.agreeOnSet : AgreeOnSet s (s.resolved v) (s.resolved w) := by
  obtain ⟨width, height, margin, background⟩ := Slide.resolved_own h.not_hole v
  obtain ⟨width', height', margin', background'⟩ := Slide.resolved_own h.not_hole w
  have ownMargin : (defaultProperties w).get? Property.margin.key
      = (defaultProperties v).get? Property.margin.key :=
    get?_defaultProperties v w (by decide) (by decide)
  have ownBackground : (defaultProperties w).get? Property.bg.key
      = (defaultProperties v).get? Property.bg.key :=
    get?_defaultProperties v w (by decide) (by decide)
  constructor
  case margin =>
    rw [margin, margin']
    simp only [PropertyMap.pixelsOr, PropertyMap.number?, Slide.get?_ownStyle, ownMargin]
  case background =>
    rw [background, background']
    simp only [PropertyMap.colour?, Slide.get?_ownStyle, ownBackground]
  case ignoredTargets =>
    simp only [Slide.resolved, h.not_hole, Bool.false_eq_true, if_false]
  case length =>
    rw [h.nodeStyles_resolved, h.nodeStyles_resolved, List.length_map, List.length_map]
  case others =>
    intro node key noWidth noHeight
    simp only [ResolvedSlide.styleFor, h.nodeStyles_resolved, List.getElem?_map]
    cases s.content.flatten[node]? with
    | none => rw [Option.map_none, Option.map_none]
    | some e => exact get?_elementStyle_of_other s e v w noWidth noHeight
  case width =>
    intro isSet
    rw [width, width']
    exact pixelsOr_of_sets h v w rfl isSet _ _
  case height =>
    intro isSet
    rw [height, height']
    exact pixelsOr_of_sets h v w rfl isSet _ _
  case elements =>
    intro e among key reached
    rw [ResolvedSlide.styleFor, ResolvedSlide.styleFor, h.style_resolved v among,
      h.style_resolved w among]
    exact get?_elementStyle_of_reaches h v w reached

/-- A slide that sets its own size resolves to the same for every viewport. -/
theorem Syntax.SlideTokens.resolved_eq (width : s.Sets slideWord Property.width.key)
    (height : s.Sets slideWord Property.height.key) : s.resolved w = s.resolved v := by
  have agree := h.agreeOnSet v w
  have styles : (s.resolved w).nodeStyles = (s.resolved v).nodeStyles := by
    rw [h.nodeStyles_resolved, h.nodeStyles_resolved]
    refine List.map_congr_left fun e among => PropertyMap.ext_get? fun key => ?_
    by_cases isWidth : key = Property.width.key
    · subst isWidth
      exact get?_elementStyle_of_reaches h v w (.inl width)
    · by_cases isHeight : key = Property.height.key
      · subst isHeight
        exact get?_elementStyle_of_reaches h v w (.inl height)
      · exact get?_elementStyle_of_other s e v w isWidth isHeight
  exact ResolvedSlide.ext (agree.width width) (agree.height height) agree.background agree.margin
    styles agree.ignoredTargets

end

/-! ## Sessions -/

/-- What slide a session has at an index, and what it would be for another viewport. -/
theorem Deck.compile_slide {source : Bytes} {o : CompileOptions} {d : Deck}
    (compiled : Deck.compile source o = .ok d) {i : Nat} {c : CompiledSlide}
    (there : d.slides[i]? = some c) :
    ∃ doc s ts, Document.ofSource source = .ok doc ∧ doc.slides[i]? = some s ∧ SlideTokens ts s ∧
      c = s.compiled o.viewport := by
  obtain ⟨doc, read, -, rfl⟩ := compile_eq_ok.1 compiled
  rw [List.getElem?_map, Option.map_eq_some_iff] at there
  obtain ⟨s, there, rfl⟩ := there
  obtain ⟨ts, isSlide⟩ := Document.slide_of_ofSource read s (List.mem_of_getElem? there)
  exact ⟨doc, s, ts, read, there, isSlide, rfl⟩

namespace Session

/-- A session that loads nothing further and installs no measurer renders a slide as before, if the
slide sets its own size. -/
theorem Coherent.unaffected {t : Session} {source? : Option Bytes} (h : Coherent t source?)
    {d : Deck} (deck : t.deck = some d) {i : Nat} {c : CompiledSlide}
    (there : d.slides[i]? = some c) (width : c.slide.Sets slideWord Property.width.key)
    (height : c.slide.Sets slideWord Property.height.key) {more : List Operation}
    (noLoad : t.lastLoaded? more = none) (noMeasurer : more.filterMap Operation.measurer? = []) :
    ∃ x y, (t.render i).1 = .ok x ∧ ((t.run more).render i).1 = .ok y ∧ y.slide = x.slide := by
  obtain ⟨coherent, -, measurer⟩ := run_coherent h more
  rw [noLoad, Option.none_or] at coherent
  rw [lastMeasurer, noMeasurer] at measurer
  cases source? with
  | none => cases deck.symm.trans h.holds
  | some source =>
    obtain ⟨d₀, deck₀, compiled⟩ := h.holds
    cases deck.symm.trans deck₀
    obtain ⟨d', deck', compiled'⟩ := coherent.holds
    obtain ⟨doc, s, ts, read, isSlide, tokens, rfl⟩ := Deck.compile_slide compiled there
    have there' : d'.slides[i]? = some (s.compiled (t.run more).options.viewport) := by
      obtain ⟨doc', read', -, rfl⟩ := Deck.compile_eq_ok.1 compiled'
      cases read.symm.trans read'
      rw [List.getElem?_map, isSlide, Option.map_some]
    have same : s.compiled (t.run more).options.viewport = s.compiled t.options.viewport :=
      congrArg (CompiledSlide.mk s) (tokens.resolved_eq _ _ width height)
    obtain ⟨x, answer, rendered⟩ := render_answers h deck there
    obtain ⟨y, answer', rendered'⟩ := render_answers coherent deck' there'
    rw [same, measurer] at rendered'
    exact ⟨x, y, answer, answer', Except.ok.inj (rendered'.symm.trans rendered)⟩

end Session

/-! ## Viewports -/

/-- **The viewport decides what no block sets.**  A slide that was read and that resolves for one
viewport resolves for every other one.  The margin, the background, the ignored targets and all
properties of elements but widths and heights are the same, and so is a width or a height that a
block sets.  If the slide sets both its width and its height, then all is the same, and so is its
rendering with any measurer.  Whatever is then done to a session but loading and installing a
measurer, resizing in particular, the session renders the slide as before. -/
theorem Slide.resolve_viewport :
    (∀ (source : Bytes) (d : Document) (s : Slide) (strict : Bool) (v : Viewport)
      (r : ResolvedSlide), Document.ofSource source = .ok d → s ∈ d.slides →
      s.resolve strict v = .ok r → ∀ w, ∃ r', s.resolve strict w = .ok r' ∧ AgreeOnSet s r r' ∧
        (s.Sets slideWord Property.width.key → s.Sets slideWord Property.height.key → r' = r ∧
          ∀ index m, ∃ picture, CompiledSlide.render ⟨s, r⟩ index m = .ok picture ∧
            CompiledSlide.render ⟨s, r'⟩ index m = .ok picture)) ∧
    ∀ (o : CompileOptions) (ops more : List Operation) (d : Deck) (i : Nat) (c : CompiledSlide),
      ((Session.start o).run ops).deck = some d → d.slides[i]? = some c →
      c.slide.Sets slideWord Property.width.key → c.slide.Sets slideWord Property.height.key →
      ((Session.start o).run ops).lastLoaded? more = none →
      more.filterMap Operation.measurer? = [] →
      ∃ x y, (((Session.start o).run ops).render i).1 = .ok x ∧
        ((((Session.start o).run ops).run more).render i).1 = .ok y ∧ y.slide = x.slide := by
  constructor
  · intro source d s strict v r read among resolved w
    obtain ⟨resolvable, rfl⟩ := resolve_eq_ok.1 resolved
    obtain ⟨ts, isSlide⟩ := Document.slide_of_ofSource read s among
    refine ⟨s.resolved w, resolve_eq_ok.2 ⟨resolvable, rfl⟩, isSlide.agreeOnSet v w, ?_⟩
    intro width height
    have same := isSlide.resolved_eq v w width height
    refine ⟨same, fun index m => ?_⟩
    obtain ⟨picture, rendered, -⟩ := isSlide.render_compiled v index m
    rw [same]
    exact ⟨picture, rendered, rendered⟩
  · intro o ops more d i c deck there width height noLoad noMeasurer
    obtain ⟨coherent, -, -⟩ := Session.run_coherent (Session.coherent_start o) ops
    exact coherent.unaffected deck there width height noLoad noMeasurer

/-- A slide that sets its own size, and one that sets only its width. -/
def ownSizeSource : Bytes :=
  .ascii "[slide \x7bwidth: 30, height: 20\x7d text(\"a\")]
    [slide \x7bwidth: 30\x7d text(\"b\")]"

/-- A session with these two slides. -/
def ownSizeSession : Session :=
  (Session.start {}).run [.load ownSizeSource]

/-- The first slide is the same for a larger viewport, the second one is higher there, and the
session renders the first one as before. -/
theorem ownSizeSource_viewport :
    (∃ d, Document.ofSource ownSizeSource = .ok d ∧
      (∃ s ∈ d.slides, ∃ r r', s.resolve true {} = .ok r ∧
        s.resolve true ⟨4000, 3000⟩ = .ok r' ∧ AgreeOnSet s r r' ∧ r' = r) ∧
      ∃ s ∈ d.slides, ∃ r r', s.resolve true {} = .ok r ∧
        s.resolve true ⟨4000, 3000⟩ = .ok r' ∧ AgreeOnSet s r r' ∧ r'.height = r.height + 1920) ∧
    ∃ x y, (ownSizeSession.render 0).1 = .ok x ∧
      ((ownSizeSession.run [.resize ⟨4000, 3000⟩]).render 0).1 = .ok y ∧ y.slide = x.slide := by
  obtain ⟨slides, sessions⟩ := Slide.resolve_viewport
  constructor
  · have parsed : ∃ d ∈ (Document.ofSource ownSizeSource).toOption,
        (∃ s ∈ d.slides, ∃ r ∈ (s.resolve true {}).toOption,
          s.Sets slideWord Property.width.key ∧ s.Sets slideWord Property.height.key) ∧
        ∃ s ∈ d.slides, ∃ r ∈ (s.resolve true {}).toOption,
          ∃ r' ∈ (s.resolve true ⟨4000, 3000⟩).toOption, r'.height = r.height + 1920 := by
      decide +kernel
    obtain ⟨d, isRead, ⟨s, among, r, isResolved, width, height⟩, t, among', q, isResolved', q',
      isResolved'', higher⟩ := parsed
    have read := eq_ok_of_mem isRead
    have resolved := eq_ok_of_mem isResolved
    have resolved' := eq_ok_of_mem isResolved'
    obtain ⟨r', again, agree, own⟩ := slides _ d s true {} r read among resolved ⟨4000, 3000⟩
    obtain ⟨_, again', agree', -⟩ := slides _ d t true {} q read among' resolved' ⟨4000, 3000⟩
    cases again'.symm.trans (eq_ok_of_mem isResolved'')
    exact ⟨d, read, ⟨s, among, r, r', resolved, again, agree, (own width height).1⟩, t, among', q,
      q', resolved', again', agree', higher⟩
  · have loaded : ∃ d ∈ ownSizeSession.deck, ∃ c ∈ d.slides[0]?,
        c.slide.Sets slideWord Property.width.key ∧
          c.slide.Sets slideWord Property.height.key := by
      decide +kernel
    obtain ⟨d, deck, c, there, width, height⟩ := loaded
    exact sessions {} [.load ownSizeSource] [.resize ⟨4000, 3000⟩] d 0 c deck there width height
      rfl rfl

end SlideDeck
