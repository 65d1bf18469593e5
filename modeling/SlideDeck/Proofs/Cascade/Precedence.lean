import Mathlib.Data.List.Induction
import Mathlib.Data.List.Nodup
import SlideDeck.Proofs.Deck.Compile

/-! # Precedence of layers

What a property is after a cascade, key by key (`Slide.resolve_precedence`).

* `get?_cascade`: the last layer with a key decides, and `DecidedBy` says so of
  the layers in order.
* `Slide.setBy` is what the blocks for a target set a key to.
* `get?_elementStyle` and `get?_ownStyle` are the precedence of layers for an
  element and for the slide itself.

The layers are merged one after the other, each over all that came before.  A
value under a key survives exactly if no later layer has the key, which makes a
cascade one search through the layers, from the last to the first. -/

namespace SlideDeck

open Syntax

/-! ## Cascades -/

/-- What a layer has under a key; a missing layer has nothing. -/
def layerValue? (key : Bytes) (layer : Option PropertyMap) : Option PropertyValue :=
  layer.bind fun m => m.get? key

theorem get?_cascade_append (layers : List (Option PropertyMap)) (layer : Option PropertyMap)
    (key : Bytes) :
    (cascade (layers ++ [layer])).get? key
      = (layerValue? key layer).or ((cascade layers).get? key) := by
  rw [cascade, List.foldl_append]
  cases layer with
  | none => rfl
  | some overrides => exact PropertyMap.get?_merge _ overrides key

/-- A cascade has under a key what a search through its layers from the last one ends with. -/
theorem get?_cascade (layers : List (Option PropertyMap)) (key : Bytes) :
    (cascade layers).get? key = layers.reverse.findSome? (layerValue? key) := by
  induction layers using List.reverseRecOn with
  | nil => rfl
  | append_singleton layers layer ih =>
    rw [get?_cascade_append, ih, List.reverse_append, List.reverse_singleton,
      List.singleton_append, List.findSome?_cons]
    cases layerValue? key layer <;> rfl

/-- The first layer of a cascade decides where no other one does. -/
theorem get?_cascade_cons (layer : Option PropertyMap) (layers : List (Option PropertyMap))
    (key : Bytes) :
    (cascade (layer :: layers)).get? key
      = ((cascade layers).get? key).or (layerValue? key layer) := by
  rw [get?_cascade, get?_cascade, List.reverse_cons, List.findSome?_append,
    List.findSome?_singleton]

/-- The last layer with a key has a value under it. -/
def DecidedBy (layers : List (Option PropertyMap)) (key : Bytes) (value : PropertyValue) : Prop :=
  ∃ before m after, layers = before ++ some m :: after ∧ m.get? key = some value ∧
    ∀ later, some later ∈ after → later.get? key = none

theorem get?_cascade_eq_some {layers : List (Option PropertyMap)} {key : Bytes}
    {value : PropertyValue} :
    (cascade layers).get? key = some value ↔ DecidedBy layers key value := by
  rw [get?_cascade, List.findSome?_eq_some_iff]
  constructor
  · rintro ⟨after, layer, before, reversed, decides, silent⟩
    cases layer with
    | none => cases decides
    | some m =>
      refine ⟨before.reverse, m, after.reverse, ?_, decides, fun later among => ?_⟩
      · simpa using congrArg List.reverse reversed
      · exact silent (some later) (List.mem_reverse.1 among)
  · rintro ⟨before, m, after, rfl, decides, silent⟩
    refine ⟨after.reverse, some m, before.reverse, by simp, decides, fun layer among => ?_⟩
    cases layer with
    | none => rfl
    | some later => exact silent later (List.mem_reverse.1 among)

theorem contains_cascade {layers : List (Option PropertyMap)} {key : Bytes} :
    (cascade layers).contains key ↔ ∃ m, some m ∈ layers ∧ m.contains key := by
  rw [PropertyMap.contains, get?_cascade, List.findSome?_isSome_iff]
  constructor
  · rintro ⟨layer, among, has⟩
    cases layer with
    | none => cases has
    | some m => exact ⟨m, List.mem_reverse.1 among, has⟩
  · rintro ⟨m, among, has⟩
    exact ⟨some m, List.mem_reverse.2 among, has⟩

/-! ## Blocks -/

namespace Slide

/-- What the block for a target sets a key to. -/
def setBy (s : Slide) (target key : Bytes) : Option PropertyValue :=
  layerValue? key (s.layer? target)

theorem get?_elementStyle (s : Slide) (e : Element) (defaults : PropertyMap) (key : Bytes) :
    (s.elementStyle e defaults).get? key
      = (e.attributes.params.get? key).or
          ((e.name.bind fun name => s.setBy name key).or
            ((s.setBy e.kind.name key).or ((s.setBy slideWord key).or (defaults.get? key)))) := by
  have nothing : (cascade []).get? key = none := rfl
  have named : (e.name.bind fun name => s.setBy name key)
      = layerValue? key (e.name.bind s.layer?) := by
    cases e.name <;> rfl
  simp only [elementStyle, get?_cascade_cons, nothing, Option.none_or, Option.or_assoc, named]
  rfl

theorem get?_ownStyle (s : Slide) (defaults : PropertyMap) (key : Bytes) :
    (s.ownStyle defaults).get? key = (s.setBy slideWord key).or (defaults.get? key) := by
  have nothing : (cascade []).get? key = none := rfl
  simp only [ownStyle, get?_cascade_cons, nothing, Option.none_or]
  rfl

end Slide

/-- Where no two blocks are for one target, every block is the one for its target. -/
theorem Slide.findStyle?_eq_some {s : Slide} (distinct : (s.styles.map StyleBlock.target).Nodup)
    {target : Bytes} {b : StyleBlock} :
    s.findStyle? target = some b ↔ b ∈ s.styles ∧ b.target = target := by
  constructor
  · intro found
    exact ⟨List.mem_of_find?_eq_some found, by simpa using List.find?_some found⟩
  · rintro ⟨among, rfl⟩
    cases found : s.findStyle? b.target with
    | none =>
      have different := List.find?_eq_none.1 found b among
      simp at different
    | some other =>
      have isTarget : other.target = b.target := by simpa using List.find?_some found
      rw [List.inj_on_of_nodup_map distinct (List.mem_of_find?_eq_some found) among isTarget]

theorem Syntax.SlideTokens.setBy_eq_some {ts : List Token} {s : Slide} (h : SlideTokens ts s)
    {target key : Bytes} {value : PropertyValue} :
    s.setBy target key = some value ↔
      ∃ b ∈ s.styles, b.target = target ∧ b.properties.get? key = some value := by
  have distinct : (s.styles.map StyleBlock.target).Nodup := by
    cases h with
    | mk _ distinct _ _ _ _ => exact distinct
  simp only [Slide.setBy, layerValue?, Slide.layer?, Option.bind_map, Option.bind_eq_some_iff,
    Slide.findStyle?_eq_some distinct, Function.comp_apply, and_assoc]

/-! ## Resolved slides -/

/-- A slide is resolved by the precedence of its layers. -/
structure ResolvedByPrecedence (s : Slide) (v : Viewport) (r : ResolvedSlide) : Prop where
  /-- No two blocks are for one target, so that only one can set a key. -/
  blocks : ∀ target key value, s.setBy target key = some value ↔
    ∃ b ∈ s.styles, b.target = target ∧ b.properties.get? key = some value
  /-- An element has the value that is set on itself, else that for its name, for its kind, for the
  slide, or else the default. -/
  elements : ∀ e ∈ s.content.flatten, ∃ style, r.nodeStyles[e.id]? = some style ∧
    ∀ key, style.get? key = (e.attributes.params.get? key).or
      ((e.name.bind fun name => s.setBy name key).or
        ((s.setBy e.kind.name key).or
          ((s.setBy slideWord key).or ((defaultProperties v).get? key))))
  /-- The slide itself has the value for the slide, or else the default. -/
  slide : ∃ own : PropertyMap,
    (∀ key, own.get? key = (s.setBy slideWord key).or ((defaultProperties v).get? key)) ∧
    r.width = own.pixelsOr .width v.width ∧ r.height = own.pixelsOr .height v.height ∧
    r.margin = own.pixelsOr .margin 0 ∧ r.background = own.colour? Property.bg.key
  /-- Whatever else is different of another slide, where the same is set for the slide, its size,
  margin and background are the same. -/
  alone : ∀ (s' : Slide) (strict : Bool) (r' : ResolvedSlide), s'.content.isHole = false →
    (∀ key, s'.setBy slideWord key = s.setBy slideWord key) → s'.resolve strict v = .ok r' →
    r'.width = r.width ∧ r'.height = r.height ∧ r'.margin = r.margin ∧
      r'.background = r.background

/-- The size, margin and background of a slide depend on its own properties only. -/
theorem Slide.resolved_own {s : Slide} (content : s.content.isHole = false) (v : Viewport) :
    (s.resolved v).width = (s.ownStyle (defaultProperties v)).pixelsOr .width v.width ∧
      (s.resolved v).height = (s.ownStyle (defaultProperties v)).pixelsOr .height v.height ∧
      (s.resolved v).margin = (s.ownStyle (defaultProperties v)).pixelsOr .margin 0 ∧
      (s.resolved v).background = (s.ownStyle (defaultProperties v)).colour? Property.bg.key := by
  simp only [resolved, content, Bool.false_eq_true, if_false, and_self]

/-- What is set for the slide decides its size, margin and background. -/
theorem Slide.resolved_alone {s s' : Slide} (content : s.content.isHole = false)
    (content' : s'.content.isHole = false)
    (same : ∀ key, s'.setBy slideWord key = s.setBy slideWord key) (v : Viewport) :
    (s'.resolved v).width = (s.resolved v).width ∧ (s'.resolved v).height = (s.resolved v).height ∧
      (s'.resolved v).margin = (s.resolved v).margin ∧
      (s'.resolved v).background = (s.resolved v).background := by
  obtain ⟨width, height, margin, background⟩ := resolved_own content v
  obtain ⟨width', height', margin', background'⟩ := resolved_own content' v
  rw [width, height, margin, background, width', height', margin', background']
  simp only [PropertyMap.pixelsOr, PropertyMap.number?, PropertyMap.colour?, get?_ownStyle, same,
    and_self]

theorem Syntax.SlideTokens.resolvedByPrecedence {ts : List Token} {s : Slide}
    (h : SlideTokens ts s) (v : Viewport) : ResolvedByPrecedence s v (s.resolved v) where
  blocks _ _ _ := h.setBy_eq_some
  elements e among :=
    ⟨_, h.style_resolved v among, fun key => s.get?_elementStyle e (defaultProperties v) key⟩
  slide := ⟨_, s.get?_ownStyle (defaultProperties v), Slide.resolved_own h.not_hole v⟩
  alone s' strict r' content' same resolved' := by
    obtain ⟨-, rfl⟩ := Slide.resolve_eq_ok.1 resolved'
    exact Slide.resolved_alone h.not_hole content' same v

/-- **Precedence.**  The last layer of a cascade with a key decides it, and a cascade has no other
keys than its layers.  In a slide that was read, every key of an element is therefore decided by the
properties set on the element, the block for its name, the block for its kind, the block for the
slide, or else the defaults, in this order; the slide's own size, margin and background are decided
by the block for the slide, or else the defaults, and by nothing else. -/
theorem Slide.resolve_precedence :
    (∀ layers key value, (cascade layers).get? key = some value ↔ DecidedBy layers key value) ∧
    (∀ layers key, (cascade layers).contains key ↔ ∃ m, some m ∈ layers ∧ m.contains key) ∧
    ∀ (source : Bytes) (d : Document) (s : Slide) (strict : Bool) (v : Viewport)
      (r : ResolvedSlide), Document.ofSource source = .ok d → s ∈ d.slides →
      s.resolve strict v = .ok r → ResolvedByPrecedence s v r := by
  refine ⟨fun _ _ _ => get?_cascade_eq_some, fun _ _ => contains_cascade, ?_⟩
  intro source d s strict v r read among resolved
  obtain ⟨-, rfl⟩ := resolve_eq_ok.1 resolved
  obtain ⟨ts, isSlide⟩ := Document.slide_of_ofSource read s among
  exact isSlide.resolvedByPrecedence v

/-- A size that is set everywhere, a width that is also set for a kind, and a margin that is set for
nothing but a name. -/
def contestedSource : Bytes :=
  .ascii "[slide \x7bsize: 1, width: 9\x7d text \x7bsize: 2, width: 5\x7d
    b \x7bsize: 3, margin: 7\x7d b :: text(\"x\") \x7bsize: 4\x7d]"

/-- The size of the text is set on itself, and the slide has the width that is set for it. -/
theorem contestedSource_precedence :
    ∃ d s r, Document.ofSource contestedSource = .ok d ∧ s ∈ d.slides ∧
      s.resolve true {} = .ok r ∧
      r.nodeStyles.map (fun m => m.get? Property.size.key) = [some (.number (.ofNat 4))] ∧
      r.width = 9 ∧ r.margin = 0 ∧ ResolvedByPrecedence s {} r := by
  have parsed : ∃ d ∈ (Document.ofSource contestedSource).toOption, ∃ s ∈ d.slides,
      ∃ r ∈ (s.resolve true {}).toOption,
        r.nodeStyles.map (fun m => m.get? Property.size.key) = [some (.number (.ofNat 4))] ∧
        r.width = 9 ∧ r.margin = 0 := by
    decide +kernel
  obtain ⟨d, isRead, s, among, r, isResolved, sizes, width, margin⟩ := parsed
  have read := eq_ok_of_mem isRead
  have resolved := eq_ok_of_mem isResolved
  exact ⟨d, s, r, read, among, resolved, sizes, width, margin,
    Slide.resolve_precedence.2.2 _ d s true {} r read among resolved⟩

end SlideDeck
