import Mathlib.Data.List.Nodup
import SlideDeck.Proofs.Layout.Visit

/-! # Overflow notes

After a slide is laid out, an engine has a note for every text that needs more
space than it received, and no other notes (`Engine.layOutSlide_noted`).

* `mem_notesAbout` and `node_of_mem_notesAbout`: what there is to note about one
  element.
* `LaidOut.text_box`: how large the box of a text is.
* `noted_of_laidOut` puts the two together for a tree with ascending numbers.

A note is compared with a box through the number of an element and nothing
else.  Numbers ascend in pre-order, so a number has one element, this element
has one constraint, and notes come in the order of their numbers because the
elements do. -/

namespace SlideDeck

open Bytes

/-! ## Texts -/

/-- The extent of a text by the measurer, where less than nothing is nothing. -/
def LayoutContext.needed (c : LayoutContext) (a : Attributes) (value : Bytes) : Size :=
  measured c.measurer value (c.textSize a)

/-- An extent is larger than a constraint along at least one axis. -/
def Size.Exceeds (needed most : Size) : Prop :=
  most.width < needed.width ∨ most.height < needed.height

instance (needed most : Size) : Decidable (needed.Exceeds most) :=
  inferInstanceAs (Decidable (_ ∨ _))

/-- What a constraint leaves of an extent is all of it where the extent does not exceed it. -/
theorem Size.min_eq_iff {needed most : Size} :
    (⟨min needed.width most.width, min needed.height most.height⟩ : Size) = needed ↔
      ¬ needed.Exceeds most := by
  cases needed
  simp only [Size.mk.injEq, Size.Exceeds]
  omega

section

variable {c : LayoutContext} {p : Element × Size} {n : LayoutNote}

/-- There is a note about a text that needs more than it has, and nothing else to note. -/
theorem mem_notesAbout :
    n ∈ notesAbout c p ↔ ∃ a value, p.1 = .text a value ∧ (c.needed a value).Exceeds p.2 ∧
      n = ⟨a.id, p.2, c.needed a value⟩ := by
  obtain ⟨e, most⟩ := p
  cases e with
  | text a value =>
    have fits : ¬ (c.needed a value).Exceeds most ↔
        (c.needed a value).width ≤ most.width ∧ (c.needed a value).height ≤ most.height := by
      rw [Size.Exceeds, not_or, Int.not_lt, Int.not_lt]
    have about : notesAbout c (.text a value, most)
        = if ¬ (c.needed a value).Exceeds most then [] else [⟨a.id, most, c.needed a value⟩] :=
      ite_congr (propext fits.symm) (fun _ => rfl) fun _ => rfl
    rw [about]
    simp
  | _ => simp [notesAbout]

theorem node_of_mem_notesAbout (among : n ∈ notesAbout c p) : n.node = p.1.id := by
  obtain ⟨a, value, isText, -, rfl⟩ := mem_notesAbout.1 among
  rw [isText]
  rfl

theorem pairwise_notesAbout (r : LayoutNote → LayoutNote → Prop) :
    (notesAbout c p).Pairwise r := by
  obtain ⟨e, most⟩ := p
  cases e with
  | text a value =>
    rw [notesAbout, arrangeText]
    dsimp only
    split
    · exact .nil
    · exact List.pairwise_singleton ..
  | _ => exact .nil

end

/-! ## Boxes -/

/-- The box of a text is what its constraint leaves of its extent. -/
theorem LaidOut.text_box {c : LayoutContext} {e : Element} {x y : Int} {most : Size} {b : Box}
    (h : LaidOut c e x y most b) (isText : b.frame.kind = .text) :
    ∃ a value, e = .text a value ∧ b.frame.node = a.id ∧
      b.frame.text = some ⟨value, c.textSize a, c.textFill a⟩ ∧
      b.size = ⟨min (c.needed a value).width most.width,
        min (c.needed a value).height most.height⟩ := by
  cases h with
  | @text a value _ _ _ _ isExtent =>
    subst isExtent
    exact ⟨a, value, rfl, rfl, rfl, rfl⟩
  | _ => cases isText

/-! ## Notes of a tree -/

/-- The notes about a tree of elements, of which each has received its constraint. -/
structure Noted (c : LayoutContext) (e : Element) (given : List (Element × Size)) (root : Box)
    (notes : List LayoutNote) : Prop where
  /-- Every element has received one constraint. -/
  received : given.map Prod.fst = e.flatten
  ascending : notes.Pairwise fun n next => n.node < next.node
  /-- There is a note about exactly the texts that exceed their constraints. -/
  exact : ∀ n, n ∈ notes ↔ ∃ a value most, (.text a value, most) ∈ given ∧
    (c.needed a value).Exceeds most ∧ n = ⟨a.id, most, c.needed a value⟩
  message : ∀ n ∈ notes, n.message
    = ascii "text overflows " ++ signed n.available.width ++ ascii "x" ++ signed n.available.height
      ++ ascii " (needs " ++ signed n.needed.width ++ ascii "x" ++ signed n.needed.height
      ++ ascii ")"
  /-- The box of a text is as large as the text needs if there is no note about it. -/
  boxes : ∀ b ∈ root.flatten, b.frame.kind = .text →
    ∃ a value most, (.text a value, most) ∈ given ∧ b.frame.node = a.id ∧
      b.frame.text = some ⟨value, c.textSize a, c.textFill a⟩ ∧
      (b.size = c.needed a value ↔ ∀ n ∈ notes, n.node ≠ b.frame.node)

/-- What is of one number is one element in one constraint. -/
theorem constrained_unique {c : LayoutContext} {e : Element} {most : Size}
    (distinct : (e.flatten.map Element.id).Nodup) {p q : Element × Size}
    (first : p ∈ constrained c e most) (second : q ∈ constrained c e most)
    (number : p.1.id = q.1.id) : p = q := by
  have nodup : ((constrained c e most).map fun p => p.1.id).Nodup := by
    rwa [← constrained_elements c e most, List.map_map] at distinct
  exact List.inj_on_of_nodup_map nodup first second number

/-- Where the numbers of elements ascend in pre-order, the notes about them are as they should
be. -/
theorem noted_of_laidOut {c : LayoutContext} {e : Element} {x y : Int} {most : Size} {root : Box}
    (whole : Whole e) (h : LaidOut c e x y most root) (range : most.InRange)
    (ascending : (e.flatten.map Element.id).Pairwise (· < ·)) :
    Noted c e (constrained c e most) root (arrange c e most).notes := by
  rw [arrange_notes]
  have distinct : (e.flatten.map Element.id).Nodup := ascending.imp Nat.ne_of_lt
  have exact : ∀ n, n ∈ (constrained c e most).flatMap (notesAbout c) ↔
      ∃ a value given, (.text a value, given) ∈ constrained c e most ∧
        (c.needed a value).Exceeds given ∧ n = ⟨a.id, given, c.needed a value⟩ := by
    intro n
    rw [List.mem_flatMap]
    constructor
    · rintro ⟨⟨e', given⟩, among, about⟩
      obtain ⟨a, value, rfl, exceeds, equal⟩ := mem_notesAbout.1 about
      exact ⟨a, value, given, among, exceeds, equal⟩
    · rintro ⟨a, value, given, among, exceeds, equal⟩
      exact ⟨_, among, mem_notesAbout.2 ⟨a, value, rfl, exceeds, equal⟩⟩
  constructor
  case received => exact constrained_elements c e most
  case ascending =>
    rw [← constrained_elements c e most, List.map_map, List.pairwise_map] at ascending
    refine List.pairwise_flatMap.2 ⟨fun p _ => pairwise_notesAbout _, ascending.imp ?_⟩
    intro p q before n about n' about'
    rw [node_of_mem_notesAbout about, node_of_mem_notesAbout about']
    exact before
  case exact => exact exact
  case message =>
    intro n _
    simp only [LayoutNote.message, dimensions, List.append_assoc]
  case boxes =>
    intro b among isText
    obtain ⟨⟨e', given⟩, received, -, -, x', y', laid⟩ := h.received whole range b among
    obtain ⟨a, value, rfl, number, text, size⟩ := laid.text_box isText
    refine ⟨a, value, given, received, number, text, ?_⟩
    rw [size, Size.min_eq_iff, number]
    constructor
    · intro fits n about same
      obtain ⟨a', value', given', received', exceeds, rfl⟩ := (exact n).1 about
      -- The note is about this very text.
      cases constrained_unique distinct received received' same.symm
      exact fits exceeds
    · intro silent exceeds
      exact silent _ ((exact _).2 ⟨a, value, given, received, exceeds, rfl⟩) rfl

/-! ## Notes of a slide -/

/-- **Notes are exact.**  A slide that was read is laid out by any engine, whatever this engine did
before and however that ended.  Afterwards the engine has the measurer that it had, and about each
text that exceeds the constraint which it received it has one note, with this constraint and with
the extent of the text, in the order of the numbers of elements; it has no other notes.  The box of
a text is as large as the text needs if and only if there is no note about the text. -/
theorem Engine.layOutSlide_noted {source : Bytes} {d : Document} {s : Slide} {strict : Bool}
    {v : Viewport} {r : ResolvedSlide} (read : Document.ofSource source = .ok d)
    (among : s ∈ d.slides) (resolved : s.resolve strict v = .ok r) (g : Engine) :
    ∃ root g', g.layOutSlide s r = (.ok root, g') ∧ g'.measurer = g.measurer ∧
      Noted ⟨r, g.measurer⟩ s.content (constrained ⟨r, g.measurer⟩ s.content r.inner) root
        g'.notes := by
  obtain ⟨-, rfl⟩ := Slide.resolve_eq_ok.1 resolved
  obtain ⟨ts, isSlide⟩ := Document.slide_of_ofSource read s among
  have whole := isSlide.whole
  have range : (s.resolved v).inner.InRange := paddedMost_inRange _ ⟨_, _⟩
  have covers := ResolvedSlide.missing?_eq_none.1 (isSlide.missing?_resolved v)
  have ascending : (s.content.flatten.map Element.id).Pairwise (· < ·) := by
    cases isSlide with
    | mk _ _ _ _ _ inOrder =>
      rw [inOrder]
      exact List.pairwise_lt_range
  have laid := (laidOut_iff (c := ⟨s.resolved v, g.measurer⟩)
    (x := clampPixels (s.resolved v).margin) (y := clampPixels (s.resolved v).margin)
    whole range).2 rfl
  exact ⟨_, _, g.layOutSlide_of_covers covers, rfl, noted_of_laidOut whole laid range ascending⟩

/-- A text that is too wide for its half of a slide beside one that is not. -/
def lopsidedSource : Bytes :=
  .ascii "[ slide \x7bmargin: 10\x7d row(text(\"a\"), text(\"broader\")) \x7bgap: 5\x7d ]"

/-- Two texts, and there are properties only for the first one. -/
def halfKnown : Element :=
  .stack {} .horizontal [.text { id := 1 } (.ascii "known"), .text { id := 9 } (.ascii "unknown")]

/-- An engine that was given up halfway through a row, with a note about the first text of it. -/
def abandonedEngine : Engine :=
  let g : Engine := { measurer := some fun text _ => ⟨10 * text.length, 12⟩ }
  (g.layOutElement halfKnown { nodeStyles := [∅, ∅] } 0 0 ⟨20, 20⟩).2

/-- The note left by the earlier layout is gone, and there is one about the second text. -/
theorem lopsidedSource_noted :
    abandonedEngine.notes = [⟨1, ⟨10, 20⟩, ⟨50, 12⟩⟩] ∧
      ∃ d s r, Document.ofSource lopsidedSource = .ok d ∧ s ∈ d.slides ∧
        s.resolve true ⟨100, 60⟩ = .ok r ∧
        ∃ root g', abandonedEngine.layOutSlide s r = (.ok root, g') ∧
          g'.notes.map LayoutNote.node = [2] ∧ g'.measurer = abandonedEngine.measurer ∧
          Noted ⟨r, abandonedEngine.measurer⟩ s.content
            (constrained ⟨r, abandonedEngine.measurer⟩ s.content r.inner) root g'.notes := by
  have parsed : ∃ d ∈ (Document.ofSource lopsidedSource).toOption, ∃ s ∈ d.slides,
      ∃ r ∈ (s.resolve true ⟨100, 60⟩).toOption,
        (abandonedEngine.layOutSlide s r).2.notes.map LayoutNote.node = [2] := by
    decide +kernel
  obtain ⟨d, isRead, s, among, r, isResolved, noted⟩ := parsed
  have read := eq_ok_of_mem isRead
  have resolved := eq_ok_of_mem isResolved
  obtain ⟨root, g', laidOut, kept, exact⟩ :=
    Engine.layOutSlide_noted read among resolved abandonedEngine
  rw [laidOut] at noted
  exact ⟨by decide +kernel, d, s, r, read, among, resolved, root, g', laidOut, noted, kept, exact⟩

end SlideDeck
