import SlideDeck.Proofs.Deck.Compile
import SlideDeck.Proofs.Relocation.Document

/-! # Rendering moved slides

Where a slide stands in its source decides nothing about it: moved, it is
resolved to the same properties, refused in the same cases, and laid out in the
same boxes with the same notes (`CompiledSlide.render_relocate`).

Resolving looks up names in a tree and lays its elements out by number, always
through the list of its elements, and moving a tree moves that list
(`Element.flatten_relocate`). -/

namespace SlideDeck

variable {f : Position → Position}

/-! ## Resolving -/

theorem Element.findNamed?_relocate (e : Element) (name : Bytes) :
    (e.relocate f).findNamed? name = (e.findNamed? name).map (relocate f) := by
  rw [findNamed?, findNamed?, flatten_relocate, List.find?_map]
  refine congrArg (Option.map _) (congrArg (List.find? · _) (funext fun e => ?_))
  rw [Function.comp_apply, name_relocate]

namespace Slide

variable (s : Slide)

theorem layer?_relocate (target : Bytes) : (s.relocate f).layer? target = s.layer? target := by
  rw [layer?, layer?, findStyle?, findStyle?, relocate, List.find?_map, Option.map_map]
  rfl

theorem ownStyle_relocate (defaults : PropertyMap) :
    (s.relocate f).ownStyle defaults = s.ownStyle defaults := by
  rw [ownStyle, ownStyle, layer?_relocate]

theorem elementStyle_relocate (e : Element) (defaults : PropertyMap) :
    (s.relocate f).elementStyle (e.relocate f) defaults = s.elementStyle e defaults := by
  have layers : (s.relocate f).layer? = s.layer? := funext (layer?_relocate s)
  simp only [elementStyle, layers, Element.kind_relocate, Element.name_relocate,
    Element.params_relocate]

theorem nodeStyles_relocate (defaults : PropertyMap) :
    (s.relocate f).nodeStyles defaults = s.nodeStyles defaults := by
  have nodes : (s.relocate f).content.flatten = s.content.flatten.map (Element.relocate f) :=
    Element.flatten_relocate s.content
  simp only [nodeStyles, nodes, List.foldl_map, List.length_map, Element.id_relocate,
    elementStyle_relocate]

theorem unmatchedBlocks_relocate :
    (s.relocate f).unmatchedBlocks = s.unmatchedBlocks.map (StyleBlock.relocate f) := by
  have unmatched : ∀ b : StyleBlock,
      ((s.content.relocate f).findNamed? (b.relocate f).target).isNone
        = (s.content.findNamed? b.target).isNone := by
    intro b
    rw [Element.findNamed?_relocate, Option.isNone_map]
    rfl
  rw [unmatchedBlocks, unmatchedBlocks, relocate, List.filter_map]
  refine congrArg (List.map _) (congrArg (List.filter · _) (funext fun b => ?_))
  rw [Function.comp_apply, unmatched]
  rfl

theorem resolved_relocate (v : Viewport) : (s.relocate f).resolved v = s.resolved v := by
  have hole : (s.relocate f).content.isHole = s.content.isHole := Element.isHole_relocate s.content
  have targets : (s.unmatchedBlocks.map (StyleBlock.relocate f)).map StyleBlock.target
      = s.unmatchedBlocks.map StyleBlock.target := by
    rw [List.map_map]
    rfl
  simp only [resolved, hole, ownStyle_relocate, nodeStyles_relocate, unmatchedBlocks_relocate,
    targets]

theorem resolvable_relocate {strict : Bool} :
    (s.relocate f).Resolvable strict ↔ s.Resolvable strict := by
  have hole : (s.relocate f).content.isHole = s.content.isHole := Element.isHole_relocate s.content
  rw [Resolvable, Resolvable, hole, unmatchedBlocks_relocate, List.map_eq_nil_iff]

end Slide

/-! ## Laying out -/

theorem Element.length_relocateAll (es : List Element) :
    (relocateAll f es).length = es.length := by
  induction es with
  | nil => rfl
  | cons e rest ih => rw [relocateAll, List.length_cons, List.length_cons, ih]

mutual

theorem arrange_relocate (c : LayoutContext) (e : Element) (most : Size) :
    arrange c (e.relocate f) most = arrange c e most := by
  cases e with
  | hole => rfl
  | text a value => rfl
  | centre a child => simp only [Element.relocate, arrange, arrange_relocate c child]; rfl
  | padding a child => simp only [Element.relocate, arrange, arrange_relocate c child]; rfl
  | stack a axis children =>
    simp only [Element.relocate, arrange, arrangeAll_relocate c children,
      Element.length_relocateAll]
    rfl

theorem arrangeAll_relocate (c : LayoutContext) (es : List Element) (mosts : List Size) :
    arrangeAll c (Element.relocateAll f es) mosts = arrangeAll c es mosts := by
  cases es with
  | nil => rfl
  | cons e rest =>
    cases mosts with
    | nil => rfl
    | cons most mosts =>
      simp only [Element.relocateAll, arrangeAll, arrange_relocate c e,
        arrangeAll_relocate c rest]

end

theorem ResolvedSlide.missing?_relocate (r : ResolvedSlide) (e : Element) :
    r.missing? (e.relocate f) = r.missing? e := by
  simp only [missing?, Element.flatten_relocate, List.find?_map, Option.map_map,
    Function.comp_def, Element.id_relocate]

theorem Slide.layOut_relocate (c : LayoutContext) (s : Slide) :
    (s.relocate f).layOut c = s.layOut c := by
  rw [layOut, layOut, Element.layOut, Element.layOut, relocate]
  simp only [ResolvedSlide.missing?_relocate, arrange_relocate]

/-- A slide is compiled and rendered alike wherever it stands. -/
theorem CompiledSlide.render_relocate (s : Slide) (v : Viewport) (index : Nat)
    (m : Option Measurer) :
    ((s.relocate f).compiled v).render index m = (s.compiled v).render index m := by
  simp only [render, Slide.compiled, Slide.resolved_relocate, Slide.layOut_relocate]

end SlideDeck
