import SlideDeck.Proofs.Layout.Visit
import SlideDeck.Proofs.RoundTrip.Numbers

/-! # Identity of elements

The content of a slide, its properties and its boxes speak of each element by
one number and one name (`Engine.layOutSlide_identified`).

* `LaidOut.outlines`: in pre-order the boxes have the numbers, kinds, names,
  texts and numbers of children of the elements.
* `Box.search_mk`: a search through the boxes goes to the root, and then into
  one child after the other.
* `findNamed?_outlined`: a search for a name ends at the same place of the
  content and of the boxes, or at none of either.

A box cannot say that it has no name, and has an empty one instead.  The names of
the two agree nevertheless, because no element of a slide that was read has an
empty name. -/

namespace SlideDeck

open Lexical Syntax

/-! ## Outlines -/

/-- What an element and its box have in common. -/
structure Outline where
  node : Nat
  kind : Kind
  name : Bytes
  text : Option Bytes
  children : Nat
deriving DecidableEq

namespace Element

/-- The text of an element that is one. -/
def value? : Element → Option Bytes
  | text _ value => some value
  | _ => none

def outline (e : Element) : Outline :=
  ⟨e.id, e.kind, e.name.getD [], e.value?, e.children.length⟩

/-- The outlines of the elements of a tree in pre-order. -/
def outlines (e : Element) : List Outline :=
  e.flatten.map outline

theorem map_outline_flattenAll (es : List Element) :
    (flattenAll es).map outline = es.flatMap outlines := by
  rw [flattenAll_eq_flatMap, List.map_flatMap]
  rfl

end Element

namespace Box

def outline (b : Box) : Outline :=
  ⟨b.frame.node, b.frame.kind, b.frame.name, b.frame.text.map TextPayload.value,
    b.children.length⟩

/-- The outlines of the boxes of a tree in pre-order. -/
def outlines (b : Box) : List Outline :=
  b.flatten.map outline

theorem outlines_mk (f : Frame) (cs : List Box) :
    (mk f cs).outlines = (mk f cs).outline :: cs.flatMap outlines := by
  rw [outlines, flatten, List.map_cons, flattenAll_eq_flatMap, List.map_flatMap]
  rfl

theorem outline_frameAt (a : Attributes) (kind : Kind) (x y : Int) (size : Size) (cs : List Box) :
    (mk (a.frameAt kind x y size) cs).outline
      = ⟨a.id, kind, a.name.getD [], none, cs.length⟩ := rfl

end Box

theorem flatMap_outlines {es : List Element} {boxes : List Box}
    (length : boxes.length = es.length)
    (each : ∀ (i : Nat) (e : Element) (b : Box), es[i]? = some e → boxes[i]? = some b →
      b.outlines = e.outlines) :
    boxes.flatMap Box.outlines = es.flatMap Element.outlines := by
  have same : boxes.map Box.outlines = es.map Element.outlines := by
    refine List.ext_getElem (by simpa using length) fun i box element => ?_
    rw [List.length_map] at box element
    rw [List.getElem_map, List.getElem_map]
    exact each i _ _ (List.getElem?_eq_getElem element) (List.getElem?_eq_getElem box)
  rw [List.flatMap_def, same, ← List.flatMap_def]

/-- The boxes of a tree have the outlines of its elements, in the same order. -/
theorem LaidOut.outlines {c : LayoutContext} {e : Element} {x y : Int} {most : Size} {b : Box}
    (h : LaidOut c e x y most b) : b.outlines = e.outlines := by
  induction h with
  | text => rfl
  | @centre a child _ _ _ b _ ih =>
    rw [Box.outlines_mk, Box.outline_frameAt, List.flatMap_singleton, ih]
    rfl
  | @padding a child _ _ _ _ b _ _ ih =>
    rw [Box.outlines_mk, Box.outline_frameAt, List.flatMap_singleton, ih]
    rfl
  | @row a children _ _ _ _ boxes _ length _ ih =>
    rw [Box.outlines_mk, Box.outline_frameAt, flatMap_outlines length ih, length,
      ← Element.map_outline_flattenAll]
    rfl
  | @column a children _ _ _ _ boxes _ length _ ih =>
    rw [Box.outlines_mk, Box.outline_frameAt, flatMap_outlines length ih, length,
      ← Element.map_outline_flattenAll]
    rfl

/-! ## Walking boxes -/

namespace Box

mutual

theorem count_eq_length (b : Box) : b.count = b.flatten.length := by
  cases b with
  | mk f cs => rw [count, flatten, List.length_cons, countAll_eq_length cs, Nat.add_comm]

theorem countAll_eq_length (cs : List Box) : countAll cs = (flattenAll cs).length := by
  cases cs with
  | nil => rfl
  | cons b rest =>
    rw [countAll, flattenAll, List.length_append, count_eq_length b, countAll_eq_length rest]

end

/-- A search in pre-order looks at the root, and then through one child after the other. -/
theorem search_mk (p : Box → Bool) (f : Frame) (cs : List Box) :
    (mk f cs).flatten.find? p
      = if p (mk f cs) then some (mk f cs) else cs.findSome? fun b => b.flatten.find? p := by
  rw [flatten, List.find?_cons, flattenAll_eq_flatMap, List.find?_flatMap]
  cases p (mk f cs) <;> rfl

end Box

/-! ## Searching -/

/-- The place of a number among the numbers in order. -/
theorem findIdx?_range (count i : Nat) :
    (List.range count).findIdx? (fun k => decide (k = i)) = if i < count then some i else none := by
  split
  · next inside =>
    refine List.findIdx?_eq_some_iff_getElem.2 ⟨by simpa using inside, by simp, fun j before => ?_⟩
    simpa using Nat.ne_of_lt before
  · next outside =>
    refine List.findIdx?_eq_none_iff.2 fun k among => ?_
    have inside := List.mem_range.1 among
    simp only [decide_eq_false_iff_not]
    omega

theorem Box.find?_eq (root : Box) (i : Nat) :
    root.find? i
      = ((root.outlines.map Outline.node).findIdx? fun k => decide (k = i)).bind
          (root.flatten[·]?) := by
  rw [find?, List.find?_eq_bind_findIdx?_getElem?, outlines, List.map_map, List.findIdx?_map]
  rfl

/-- Whether an outline has a name; an empty name is none. -/
def Outline.isNamed (name : Bytes) (o : Outline) : Bool :=
  o.name ≠ [] ∧ o.name = name

theorem Box.findNamed?_eq (root : Box) (name : Bytes) :
    root.findNamed? name
      = (root.outlines.findIdx? (Outline.isNamed name)).bind (root.flatten[·]?) := by
  rw [findNamed?, List.find?_eq_bind_findIdx?_getElem?, outlines, List.findIdx?_map]
  rfl

theorem Element.findNamed?_eq (e : Element) {name : Bytes} (proper : name ≠ []) :
    e.findNamed? name = (e.outlines.findIdx? (Outline.isNamed name)).bind (e.flatten[·]?) := by
  have isNamed : (fun node : Element => decide (node.name = some name))
      = Outline.isNamed name ∘ outline := by
    funext node
    cases named : node.name with
    | none => simp [Outline.isNamed, outline, named]
    | some word =>
      simp only [Outline.isNamed, outline, named, Function.comp_apply, Option.getD_some,
        Option.some.injEq, decide_eq_decide]
      exact ⟨fun equal => ⟨equal ▸ proper, equal⟩, And.right⟩
  rw [findNamed?, List.find?_eq_bind_findIdx?_getElem?, isNamed, outlines, List.findIdx?_map]

/-- Distinct names are at one place each. -/
theorem place_unique {es : List Element} (distinct : (namesOf es).Nodup) {name : Bytes} {i j : Nat}
    {e e' : Element} (here : es[i]? = some e) (there : es[j]? = some e')
    (named : e.name = some name) (named' : e'.name = some name) : i = j := by
  obtain ⟨first, rfl⟩ := List.getElem?_eq_some_iff.1 here
  obtain ⟨second, rfl⟩ := List.getElem?_eq_some_iff.1 there
  have apart := List.pairwise_iff_getElem.1 (List.pairwise_filterMap.1 distinct)
  rcases Nat.lt_trichotomy i j with before | equal | after
  · exact absurd rfl (apart i j first second before name named name named')
  · exact equal
  · exact absurd rfl (apart j i second first after name named' name named)

section

variable {e : Element} {root : Box} (outlined : root.outlines = e.outlines)

include outlined

theorem length_outlined : root.flatten.length = e.flatten.length := by
  have length := congrArg List.length outlined
  rwa [Box.outlines, Element.outlines, List.length_map, List.length_map] at length

/-- The box at the place of an element has its outline. -/
theorem outline_outlined {i : Nat} {b : Box} {node : Element} (box : root.flatten[i]? = some b)
    (element : e.flatten[i]? = some node) : b.outline = node.outline := by
  have here := congrArg (·[i]?) outlined
  simp only [Box.outlines, Element.outlines, List.getElem?_map, box, element] at here
  exact Option.some.inj here

/-- Both searches for a name end at the same place, or both find nothing. -/
theorem findNamed?_outlined {name : Bytes} (proper : name ≠ []) :
    (root.findNamed? name = none ∧ e.findNamed? name = none) ∨
      ∃ (i : Nat) (b : Box) (node : Element), root.flatten[i]? = some b ∧
        e.flatten[i]? = some node ∧ root.findNamed? name = some b ∧
        e.findNamed? name = some node := by
  rw [root.findNamed?_eq, e.findNamed?_eq proper, outlined]
  cases place : e.outlines.findIdx? (Outline.isNamed name) with
  | none => exact .inl ⟨rfl, rfl⟩
  | some i =>
    obtain ⟨inside, -⟩ := List.findIdx?_eq_some_iff_getElem.1 place
    rw [Element.outlines, List.length_map] at inside
    have box := List.getElem?_eq_getElem (length_outlined outlined ▸ inside)
    have element := List.getElem?_eq_getElem inside
    exact .inr ⟨i, _, _, box, element, box, element⟩

/-- Where elements are numbered in order, the box with a number is the one at that place. -/
theorem find?_outlined (inOrder : e.flatten.map Element.id = List.range e.flatten.length)
    (i : Nat) : root.find? i = root.flatten[i]? := by
  have numbers : root.outlines.map Outline.node = List.range root.flatten.length := by
    rw [outlined, length_outlined outlined, ← inOrder, Element.outlines, List.map_map]
    rfl
  rw [root.find?_eq, numbers, findIdx?_range]
  split
  · rfl
  · next outside => exact (List.getElem?_eq_none (Nat.le_of_not_lt outside)).symm

/-- Where elements are numbered in order and their names are distinct, the box with a name is the
one at the number of the only element with that name. -/
theorem named_outlined (inOrder : e.flatten.map Element.id = List.range e.flatten.length)
    (distinct : (namesOf e.flatten).Nodup) {name : Bytes} (proper : name ≠ []) {node : Element}
    (isFound : e.findNamed? name = some node) :
    (∀ (i : Nat) (other : Element), e.flatten[i]? = some other → other.name = some name →
        i = node.id) ∧
      ∃ b, root.flatten[node.id]? = some b ∧ root.findNamed? name = some b ∧
        b.outline = node.outline := by
  rcases findNamed?_outlined outlined proper with ⟨-, none⟩ | ⟨i, b, node', box, element, boxFound,
    elementFound⟩
  · cases none.symm.trans isFound
  · cases elementFound.symm.trans isFound
    have named : node.name = some name := by simpa using List.find?_some isFound
    cases id_eq_place inOrder element
    exact ⟨fun j other there named' => place_unique distinct there element named' named, b, box,
      boxFound, outline_outlined outlined box element⟩

end

/-! ## Slides that were read -/

theorem Syntax.Content.identifiers {ts : List Token} {e : Element} (h : Content ts e)
    (spelled : AllSpelled ts) : ∀ name ∈ namesOf e.flatten, IsIdentifier name := by
  intro name among
  obtain ⟨node, below, named⟩ := List.mem_filterMap.1 among
  obtain ⟨us, part, isNode⟩ := h.node below
  obtain ⟨kind, head, args, tail, complete, children, a, rfl, isHead, isArguments, -, rfl⟩ :=
    isNode.parts
  have isName : (complete a).name = a.name := congrArg Attributes.name (isArguments.attributes a)
  rw [isName] at named
  exact isHead.identifier (spelled.mono part).left name named

theorem Syntax.SlideTokens.identifiers {ts : List Token} {s : Slide} (h : SlideTokens ts s)
    (spelled : AllSpelled ts) : ∀ name ∈ namesOf s.content.flatten, IsIdentifier name := by
  cases h with
  | @mk body content styles first last isItems =>
    have spelledBody : AllSpelled body :=
      spelled.mono (List.subset_cons_of_subset _ (List.subset_append_left ..))
    obtain ⟨us, isContent, spelledContent⟩ :=
      isItems.contents spelledBody content (List.mem_singleton_self _)
    exact isContent.identifiers spelledContent

theorem Document.spelled_of_ofSource {source : Bytes} {d : Document}
    (read : ofSource source = .ok d) :
    ∀ s ∈ d.slides, ∃ ts, AllSpelled ts ∧ SlideTokens ts s := by
  obtain ⟨ts, spelled, isSlides⟩ := slides_of_ofSource read
  intro s among
  obtain ⟨us, part, isSlide⟩ := isSlides.each s among
  exact ⟨us, spelled.mono part, isSlide⟩

/-- What has a name has one that is not empty. -/
theorem findNamed?_nil {e : Element} (identifiers : ∀ name ∈ namesOf e.flatten, IsIdentifier name) :
    e.findNamed? [] = none := by
  refine List.find?_eq_none.2 fun node among => ?_
  simp only [decide_eq_true_eq]
  intro named
  obtain ⟨⟨b, first, -⟩, -⟩ := identifiers [] (List.mem_filterMap.2 ⟨node, among, named⟩)
  cases first

/-- A slide that was read is laid out. -/
theorem Syntax.SlideTokens.laidOut {ts : List Token} {s : Slide} (h : SlideTokens ts s)
    (v : Viewport) (m : Option Measurer) :
    ∃ arranged, s.layOut ⟨s.resolved v, m⟩ = .ok arranged ∧ ∃ x y most,
      LaidOut ⟨s.resolved v, m⟩ s.content x y most arranged.box := by
  have covers := ResolvedSlide.missing?_eq_none.1 (h.missing?_resolved v)
  have range : (s.resolved v).inner.InRange := paddedMost_inRange _ ⟨_, _⟩
  exact ⟨_, layOut_eq_ok covers _ _ range, _, _, _, (laidOut_iff h.whole range).2 rfl⟩

/-! ## Identity -/

/-- The content of a slide, its properties and its boxes speak of the same elements by the same
numbers and names. -/
structure Identified (s : Slide) (r : ResolvedSlide) (root : Box) : Prop where
  /-- The number of an element is its place in pre-order. -/
  numbered : ∀ (i : Nat) (e : Element), s.content.flatten[i]? = some e → e.id = i
  elements : s.content.flatten.length = s.nodeCount
  styles : r.nodeStyles.length = s.nodeCount
  boxes : root.count = s.nodeCount
  outlined : root.flatten.map Box.outline = s.content.flatten.map Element.outline
  found : ∀ i < s.nodeCount, ∃ b, root.flatten[i]? = some b ∧ root.find? i = some b
  missing : ∀ i, s.nodeCount ≤ i → root.find? i = none
  unnamed : ∀ name, root.findNamed? name = none ↔ s.content.findNamed? name = none
  /-- Only one element has a name, and the box with this name is the box of that element. -/
  named : ∀ name e, s.content.findNamed? name = some e →
    (∀ (i : Nat) (e' : Element), s.content.flatten[i]? = some e' → e'.name = some name → i = e.id) ∧
      ∃ b, root.flatten[e.id]? = some b ∧ root.findNamed? name = some b ∧ b.outline = e.outline

theorem Syntax.SlideTokens.identified {ts : List Token} {s : Slide} (h : SlideTokens ts s)
    (spelled : AllSpelled ts) (v : Viewport) {root : Box}
    (outlined : root.outlines = s.content.outlines) : Identified s (s.resolved v) root := by
  have empty := findNamed?_nil (h.identifiers spelled)
  have length := length_outlined outlined
  have styles := h.nodeStyles_resolved v
  cases h with
  | mk _ _ distinct _ _ inOrder =>
    constructor
    case numbered => exact fun i e there => id_eq_place inOrder there
    case elements => rfl
    case styles => rw [styles, List.length_map]
    case boxes => rw [Box.count_eq_length, length]
    case outlined => exact outlined
    case found =>
      intro i inside
      have box := List.getElem?_eq_getElem (length ▸ inside)
      exact ⟨_, box, (find?_outlined outlined inOrder i).trans box⟩
    case missing =>
      intro i outside
      rw [find?_outlined outlined inOrder, List.getElem?_eq_none (length ▸ outside)]
    case unnamed =>
      intro name
      by_cases proper : name = []
      · subst proper
        exact iff_of_true (by simp [Box.findNamed?]) empty
      · rcases findNamed?_outlined outlined proper with ⟨noBox, noElement⟩ | ⟨_, b, e, -, -, box,
          element⟩
        · exact iff_of_true noBox noElement
        · simp [box, element]
    case named =>
      intro name e isFound
      have proper : name ≠ [] := by
        rintro rfl
        cases empty.symm.trans isFound
      exact named_outlined outlined inOrder distinct proper isFound

/-- **Identity of elements.**  Each slide of a compiled deck has boxes, whatever the viewport, the
measurer and the earlier layouts are, and its content, its properties and these boxes speak of the
same elements by the same numbers and names. -/
theorem Engine.layOutSlide_identified {source : Bytes} {o : CompileOptions} {deck : Deck}
    (compiled : Deck.compile source o = .ok deck) {c : CompiledSlide} (among : c ∈ deck.slides)
    (g : Engine) :
    ∃ root, (g.layOutSlide c.slide c.style).1 = .ok root ∧ Identified c.slide c.style root := by
  obtain ⟨d, read, -, rfl⟩ := Deck.compile_eq_ok.1 compiled
  obtain ⟨s, there, rfl⟩ := List.mem_map.1 among
  obtain ⟨ts, spelled, isSlide⟩ := Document.spelled_of_ofSource read s there
  obtain ⟨arranged, laidOut, x, y, most, laid⟩ := isSlide.laidOut o.viewport g.measurer
  refine ⟨arranged.box, ?_, isSlide.identified spelled o.viewport laid.outlines⟩
  simp only [layOutSlide_eq, Slide.compiled, laidOut, Except.map]

/-- A slide of one text, and one with names and with texts beside each other. -/
def namedRowSource : Bytes :=
  .ascii "[text(\"a\")] [all :: row(inner :: padding(text(\"b\")), text(\"c\"))]"

theorem namedRowSource_identified :
    ∃ deck c root, Deck.compile namedRowSource {} = .ok deck ∧ deck.slides[1]? = some c ∧
      c.slide.nodeCount = 4 ∧ (Engine.layOutSlide {} c.slide c.style).1 = .ok root ∧
      Identified c.slide c.style root := by
  have second : ∃ c ∈ ((Deck.compile namedRowSource {}).toOption.getD default).slides[1]?,
      c.slide.nodeCount = 4 := by
    decide +kernel
  obtain ⟨c, among, count⟩ := second
  cases compiled : Deck.compile namedRowSource {} with
  | error e =>
    rw [compiled] at among
    cases among
  | ok deck =>
    rw [compiled] at among
    obtain ⟨root, laidOut, identified⟩ :=
      Engine.layOutSlide_identified compiled (List.mem_of_getElem? among) {}
    exact ⟨deck, c, root, rfl, among, count, laidOut, identified⟩

end SlideDeck
