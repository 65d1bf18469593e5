import SlideDeck.Box.Engine
import SlideDeck.Proofs.Layout.Containment

/-! # Visits

What an engine does on its way through a tree is what laying out the tree comes
to, and the notes that it has afterwards are those about the elements that it
came by (`Engine.layOutElement_eq`).

* `notesAbout` is what there is to note about one element in its constraint, and
  `notesUpTo` about some of them, up to the first one without properties.
* `Visit.ComesBy` is what a visit does to any notes; visits one after the other
  come by the elements of both (`ComesBy.bind`).

A visit that ends early ends somewhere inside a row or a padding.  That is always
at a place of the list of elements in pre-order, so a visit is compared with that
list and not with the tree. -/

namespace SlideDeck

/-! ## Notes -/

/-- The notes about an element in its constraint: none but those about texts. -/
def notesAbout (c : LayoutContext) : Element × Size → List LayoutNote
  | (.text a value, most) => (arrangeText c a value most).notes
  | _ => []

/-- There are properties for the element. -/
def LayoutContext.knows (c : LayoutContext) (p : Element × Size) : Bool :=
  p.1.id < c.styles.nodeStyles.length

/-- The notes about some elements, up to the first one without properties. -/
def notesUpTo (c : LayoutContext) (given : List (Element × Size)) : List LayoutNote :=
  (given.takeWhile c.knows).flatMap (notesAbout c)

theorem notesUpTo_single (c : LayoutContext) (p : Element × Size) :
    notesUpTo c [p] = if c.knows p then notesAbout c p else [] := by
  cases known : c.knows p <;> simp [notesUpTo, known]

theorem notesUpTo_append {c : LayoutContext} {given : List (Element × Size)}
    (known : ∀ p ∈ given, c.knows p) (rest : List (Element × Size)) :
    notesUpTo c (given ++ rest) = given.flatMap (notesAbout c) ++ notesUpTo c rest := by
  rw [notesUpTo, List.takeWhile_append_of_pos known, List.flatMap_append, notesUpTo]

theorem notesUpTo_of_known {c : LayoutContext} {given : List (Element × Size)}
    (known : ∀ p ∈ given, c.knows p) : notesUpTo c given = given.flatMap (notesAbout c) := by
  simpa [notesUpTo] using notesUpTo_append known []

/-- Nothing is noted behind an element without properties. -/
theorem notesUpTo_unknown {c : LayoutContext} {given : List (Element × Size)} {p : Element × Size}
    (known : ∀ q ∈ given, c.knows q) (unknown : ¬ c.knows p) (rest : List (Element × Size)) :
    notesUpTo c (given ++ p :: rest) = given.flatMap (notesAbout c) := by
  have nothing : notesUpTo c (p :: rest) = [] := by
    rw [notesUpTo, List.takeWhile_cons_of_neg unknown, List.flatMap_nil]
  rw [notesUpTo_append known, nothing, List.append_nil]

namespace Visit

variable {c : LayoutContext} {α β : Type}

/-! ## Coming by elements -/

/-- What a visit that comes by some elements ends with. -/
def outcome (c : LayoutContext) (given : List (Element × Size)) (result : α) :
    Except MissingStyle α :=
  match given.find? fun p => !c.knows p with
  | none => .ok result
  | some p => .error ⟨p.1.id⟩

theorem outcome_single (p : Element × Size) (result : α) :
    outcome c [p] result = if c.knows p then .ok result else .error ⟨p.1.id⟩ := by
  cases known : c.knows p <;> simp [outcome, known]

/-- A visit comes by some elements in order, adds the notes about them to any others until it is at
the first element without properties, and has a result if there is no such element. -/
def ComesBy (c : LayoutContext) (v : Visit α) (given : List (Element × Size)) (result : α) :
    Prop :=
  ∀ notes, v.run.run notes = (outcome c given result, notes ++ notesUpTo c given)

theorem comesBy_pure (c : LayoutContext) (result : α) : ComesBy c (pure result) [] result :=
  fun notes => congrArg (Prod.mk _) (List.append_nil notes).symm

theorem ComesBy.bind {v : Visit α} {f : α → Visit β} {given rest : List (Element × Size)} {a : α}
    {b : β} (first : ComesBy c v given a) (next : ComesBy c (f a) rest b) :
    ComesBy c (v >>= f) (given ++ rest) b := by
  intro notes
  rw [ExceptT.run_bind, StateT.run_bind, first notes]
  cases stops : given.find? fun p => !c.knows p with
  | none =>
    have known : ∀ p ∈ given, c.knows p := by simpa using stops
    have goesOn : outcome c given a = .ok a := by rw [outcome, stops]
    have result : outcome c (given ++ rest) b = outcome c rest b := by
      rw [outcome, List.find?_append, stops, Option.none_or, outcome]
    rw [goesOn, result, notesUpTo_append known, ← notesUpTo_of_known known, ← List.append_assoc]
    exact next _
  | some p =>
    obtain ⟨isUnknown, before, after, rfl, areKnown⟩ := List.find?_eq_some_iff_append.1 stops
    have known : ∀ q ∈ before, c.knows q := by simpa using areKnown
    have unknown : ¬ c.knows p := by simpa using isUnknown
    have ended : outcome c (before ++ p :: after) a = .error ⟨p.1.id⟩ := by rw [outcome, stops]
    have result : outcome c (before ++ p :: after ++ rest) b = .error ⟨p.1.id⟩ := by
      rw [outcome, List.find?_append, stops, Option.some_or]
    rw [ended, result, List.append_assoc, List.cons_append, notesUpTo_unknown known unknown,
      notesUpTo_unknown known unknown]
    rfl

theorem ComesBy.map {v : Visit α} {given : List (Element × Size)} {a : α}
    (first : ComesBy c v given a) (f : α → β) :
    ComesBy c (do let x ← v; return f x) given (f a) := by
  have both := first.bind (f := fun x => pure (f x)) (comesBy_pure c (f a))
  rwa [List.append_nil] at both

/-! ## Elements -/

theorem run_enter (c : LayoutContext) (e : Element) (most : Size) (notes : List LayoutNote) :
    (enter c e.attributes).run.run notes = (outcome c [(e, most)] (), notes) := by
  rw [enter, ResolvedSlide.styleFor?, outcome_single]
  cases style : c.styles.nodeStyles[e.attributes.id]? with
  | none =>
    have beyond : ¬ e.attributes.id < c.styles.nodeStyles.length := by simpa using style
    have unknown : c.knows (e, most) = false := decide_eq_false beyond
    rw [unknown]
    rfl
  | some m =>
    have known : c.knows (e, most) = true :=
      decide_eq_true (List.getElem?_eq_some_iff.1 style).1
    rw [known]
    rfl

/-- There is nothing to note about an element that is no text. -/
theorem comesBy_enter {e : Element} (most : Size) (silent : notesAbout c (e, most) = []) :
    ComesBy c (enter c e.attributes) [(e, most)] () := by
  intro notes
  rw [run_enter c e most, notesUpTo_single, silent, ite_self, List.append_nil]

theorem comesBy_text (a : Attributes) (value : Bytes) (most : Size) :
    ComesBy c (visit c (.text a value) most) [(.text a value, most)]
      (arrangeText c a value most).box := by
  intro notes
  have entered : (enter c a).run.run notes = (outcome c [(.text a value, most)] (), notes) :=
    run_enter c (.text a value) most notes
  rw [visit, ExceptT.run_bind, StateT.run_bind, entered, notesUpTo_single, outcome_single,
    outcome_single]
  cases c.knows (.text a value, most) with
  | false => exact congrArg (Prod.mk _) (List.append_nil notes).symm
  | true => rfl

/-- The box of a stack does not depend on notes. -/
theorem box_stacked_plain (a : Attributes) (axis : Axis) (gap : Int) (most : Size)
    (children : List Arranged) :
    (stacked a axis gap most ((children.map Arranged.box).map .plain)).box
      = (stacked a axis gap most children).box := by
  simp only [stacked, List.map_map, Function.comp_def, Arranged.plain]

end Visit

open Visit

mutual

/-- A visit to a tree comes by its elements in pre-order, each in its own constraint. -/
theorem visit_comesBy (c : LayoutContext) (e : Element) (most : Size) :
    ComesBy c (visit c e most) (constrained c e most) (arrange c e most).box := by
  cases e with
  | hole => exact comesBy_pure c _
  | text a value => exact comesBy_text a value most
  | centre a child =>
    have entered := comesBy_enter (c := c) (e := .centre a child) most rfl
    have inner := visit_comesBy c child most
    rw [visit, constrained, arrange]
    exact entered.bind (inner.map fun b => (centred a most (.plain b)).box)
  | padding a child =>
    have entered := comesBy_enter (c := c) (e := .padding a child) most rfl
    have inner := visit_comesBy c child (paddedMost (c.pixels a .amount) most)
    rw [visit, constrained, arrange]
    exact entered.bind (inner.map fun b => (padded a (c.pixels a .amount) most (.plain b)).box)
  | stack a axis children =>
    have entered := comesBy_enter (c := c) (e := .stack a axis children) most rfl
    have inner := visitAll_comesBy c children
      (stackedMost axis (c.pixels a .gap) most children.length)
    have boxes := inner.map fun bs => (stacked a axis (c.pixels a .gap) most (bs.map .plain)).box
    rw [box_stacked_plain] at boxes
    rw [visit, constrained, arrange]
    exact entered.bind boxes

theorem visitAll_comesBy (c : LayoutContext) (es : List Element) (mosts : List Size) :
    ComesBy c (visitAll c es mosts) (constrainedAll c es mosts)
      ((arrangeAll c es mosts).map Arranged.box) := by
  cases es with
  | nil => exact comesBy_pure c _
  | cons e rest =>
    cases mosts with
    | nil => exact comesBy_pure c _
    | cons most others =>
      have first := visit_comesBy c e most
      have boxes := visitAll_comesBy c rest others
      rw [visitAll, constrainedAll, arrangeAll]
      exact first.bind (boxes.map fun bs => (arrange c e most).box :: bs)

end

/-! ## What there is to come by -/

mutual

/-- Every element receives one constraint. -/
theorem constrained_elements (c : LayoutContext) (e : Element) (most : Size) :
    (constrained c e most).map Prod.fst = e.flatten := by
  cases e with
  | hole => rfl
  | text a value => rfl
  | centre a child =>
    rw [constrained, List.map_cons, constrained_elements c child, Element.flatten]
  | padding a child =>
    rw [constrained, List.map_cons, constrained_elements c child, Element.flatten]
  | stack a axis children =>
    have length : (stackedMost axis (c.pixels a .gap) most children.length).length
        = children.length := by
      rw [stackedMost, List.length_map, length_slots]
    rw [constrained, List.map_cons, constrainedAll_elements c children length, Element.flatten]

theorem constrainedAll_elements (c : LayoutContext) (es : List Element) {mosts : List Size}
    (length : mosts.length = es.length) :
    (constrainedAll c es mosts).map Prod.fst = Element.flattenAll es := by
  cases es with
  | nil => rfl
  | cons e rest =>
    cases mosts with
    | nil => cases length
    | cons most others =>
      rw [constrainedAll, List.map_append, constrained_elements c e,
        constrainedAll_elements c rest (Nat.succ.inj length), Element.flattenAll]

end

mutual

/-- The notes of an arrangement are those about its elements. -/
theorem arrange_notes (c : LayoutContext) (e : Element) (most : Size) :
    (arrange c e most).notes = (constrained c e most).flatMap (notesAbout c) := by
  cases e with
  | hole => rfl
  | text a value => exact (List.append_nil _).symm
  | centre a child => exact arrange_notes c child most
  | padding a child => exact arrange_notes c child _
  | stack a axis children => exact arrangeAll_notes c children _

theorem arrangeAll_notes (c : LayoutContext) (es : List Element) (mosts : List Size) :
    (arrangeAll c es mosts).flatMap Arranged.notes
      = (constrainedAll c es mosts).flatMap (notesAbout c) := by
  cases es with
  | nil => rfl
  | cons e rest =>
    cases mosts with
    | nil => rfl
    | cons most others =>
      rw [arrangeAll, constrainedAll, List.flatMap_cons, List.flatMap_append, arrange_notes c e,
        arrangeAll_notes c rest]

end

/-- The first element without properties is the one that laying out reports. -/
theorem outcome_constrained (c : LayoutContext) (e : Element) (most : Size) {α : Type}
    (result : α) :
    outcome c (constrained c e most) result
      = match c.styles.missing? e with
        | none => .ok result
        | some missing => .error missing := by
  have unknown : (fun node : Element => decide (c.styles.nodeStyles.length ≤ node.id)) ∘ Prod.fst
      = fun p : Element × Size => !c.knows p := by
    funext p
    simp only [Function.comp_apply, LayoutContext.knows, ← decide_not, Nat.not_lt]
  have missing : c.styles.missing? e
      = ((constrained c e most).find? fun p => !c.knows p).map fun p => ⟨p.1.id⟩ := by
    rw [ResolvedSlide.missing?, ← constrained_elements c e most, List.find?_map, unknown,
      Option.map_map]
    rfl
  rw [missing, outcome]
  cases (constrained c e most).find? fun p => !c.knows p <;> rfl

/-! ## Engines -/

namespace Engine

/-- An engine lays out a tree as any other engine with its measurer does, and it keeps the notes
about the elements up to the first one without properties, and no others. -/
theorem layOutElement_eq (g : Engine) (e : Element) (styles : ResolvedSlide) (x y : Int)
    (most : Size) :
    g.layOutElement e styles x y most
      = ((e.layOut ⟨styles, g.measurer⟩ x y most).map Arranged.box,
          ⟨g.measurer, notesUpTo ⟨styles, g.measurer⟩
            (constrained ⟨styles, g.measurer⟩ e ⟨max 0 most.width, max 0 most.height⟩)⟩) := by
  have visited := visit_comesBy ⟨styles, g.measurer⟩ e ⟨max 0 most.width, max 0 most.height⟩
    g.cleared.notes
  rw [outcome_constrained] at visited
  rw [layOutElement, Element.layOut]
  simp only [visited]
  cases styles.missing? e <;> rfl

theorem layOutSlide_eq (g : Engine) (s : Slide) (styles : ResolvedSlide) :
    g.layOutSlide s styles
      = ((s.layOut ⟨styles, g.measurer⟩).map Arranged.box,
          ⟨g.measurer, notesUpTo ⟨styles, g.measurer⟩
            (constrained ⟨styles, g.measurer⟩ s.content styles.inner)⟩) := by
  have nonneg : ∀ n, max 0 (clampPixels n) = clampPixels n := fun n =>
    Int.max_eq_right (clampPixels_nonneg n)
  rw [layOutSlide, layOutElement_eq, Slide.layOut]
  simp only [ResolvedSlide.inner, nonneg]

/-- With properties for every element, an engine keeps the notes of the arrangement. -/
theorem layOutSlide_of_covers (g : Engine) {s : Slide} {styles : ResolvedSlide}
    (covers : styles.Covers s.content) :
    g.layOutSlide s styles
      = (.ok ((arrange ⟨styles, g.measurer⟩ s.content styles.inner).box.absolute
            (clampPixels styles.margin) (clampPixels styles.margin)),
          ⟨g.measurer, (arrange ⟨styles, g.measurer⟩ s.content styles.inner).notes⟩) := by
  have range : styles.inner.InRange := paddedMost_inRange _ ⟨_, _⟩
  have known : ∀ p ∈ constrained ⟨styles, g.measurer⟩ s.content styles.inner,
      LayoutContext.knows ⟨styles, g.measurer⟩ p := by
    intro p received
    refine decide_eq_true (covers p.1 ?_)
    rw [← constrained_elements ⟨styles, g.measurer⟩ s.content styles.inner]
    exact List.mem_map_of_mem received
  rw [layOutSlide_eq, notesUpTo_of_known known, ← arrange_notes, Slide.layOut,
    layOut_eq_ok covers _ _ range, Except.map]

end Engine

end SlideDeck
