import SlideDeck.Proofs.Syntax.Grammar
import SlideDeck.Slide.Print

/-! # Equality up to positions

What documents that are the `same` have in common: their canonical text, and
all that the rules of a slide look at.

Equality compares numbers as numbers, so the two zeros are equal without being
identical.  They are written alike all the same, because a whole number is
written with the sign of its magnitude. -/

namespace SlideDeck

/-- Lists that are equal position by position, in whatever sense, have equal images under every
function that respects this sense. -/
theorem map_eq_of_same {α β : Type} {same : List α → List α → Bool} {f : α → β}
    (shorter : ∀ b bs, same [] (b :: bs) = false) (longer : ∀ a as, same (a :: as) [] = false)
    (step : ∀ {a b as bs}, same (a :: as) (b :: bs) → f a = f b ∧ same as bs) {as bs : List α}
    (h : same as bs) : as.map f = bs.map f := by
  induction as generalizing bs with
  | nil =>
    cases bs with
    | nil => rfl
    | cons b bs => exact absurd h (by simp [shorter])
  | cons a as ih =>
    cases bs with
    | nil => exact absurd h (by simp [longer])
    | cons b bs =>
      obtain ⟨first, rest⟩ := step h
      rw [List.map_cons, List.map_cons, first, ih rest]

/-! ## Numbers -/

namespace Binary64

theorem same_finite {s t : Bool} {j k : Fin rankLimit} (h : (finite s j).same (finite t k)) :
    j = k ∧ (s = t ∨ j.val = 0) := by
  simpa [same] using h

theorem isNegative_of_same {v w : Binary64} (h : v.same w) : v.isNegative = w.isNegative := by
  cases v <;> cases w
  case finite.finite s j t k =>
    obtain ⟨rfl, rfl | zero⟩ := same_finite h
    · rfl
    · simp [isNegative, zero]
  case infinite.infinite s t =>
    have signs : s = t := by simpa [same] using h
    rw [signs]
  all_goals cases h

theorem isZero_of_same {v w : Binary64} (h : v.same w) : v.isZero = w.isZero := by
  cases v <;> cases w
  case finite.finite s j t k =>
    obtain ⟨rfl, -⟩ := same_finite h
    rfl
  case infinite.infinite => rfl
  all_goals cases h

theorem toDecimal_zero (negative : Bool) : toDecimal negative 0 = toDecimal false 0 := by
  have whole : ∀ s, whole? s 0 = some ⟨false, 0, 0⟩ := by
    intro s
    simp [whole?, unitsOfRank, binadeSize]
  rw [toDecimal, toDecimal, whole, whole]
  rfl

theorem written_of_same {v w : Binary64} (h : v.same w) : v.written = w.written := by
  cases v <;> cases w
  case finite.finite s j t k =>
    obtain ⟨rfl, rfl | zero⟩ := same_finite h
    · rfl
    · -- The signs differ only where both are zero, and zero has one text.
      simp only [written, zero, toDecimal_zero s, toDecimal_zero t]
  case infinite.infinite s t =>
    have signs : s = t := by simpa [same] using h
    rw [signs]
  all_goals cases h

end Binary64

/-! ## Properties -/

theorem PropertyValue.text_of_same {v w : PropertyValue} (h : v.same w) : v.text = w.text := by
  cases v <;> cases w
  case number.number v w => exact Binary64.written_of_same h
  case colour.colour c d =>
    have colours : c = d := by simpa [same] using h
    rw [colours]
  all_goals cases h

namespace PropertyMap

/-- An entry as the text of a map has it. -/
def entryText (e : Bytes × PropertyValue) : Bytes :=
  e.1 ++ .ascii ": " ++ e.2.text

theorem sameEntries_cons {e f : Bytes × PropertyValue} {es fs : List (Bytes × PropertyValue)} :
    sameEntries (e :: es) (f :: fs) ↔ e.1 = f.1 ∧ e.2.same f.2 ∧ sameEntries es fs := by
  simp [sameEntries, and_assoc]

theorem sameEntries_keys {es fs : List (Bytes × PropertyValue)} (h : sameEntries es fs) :
    es.map Prod.fst = fs.map Prod.fst := by
  refine map_eq_of_same (fun _ _ => rfl) (fun _ _ => rfl) (fun h => ?_) h
  obtain ⟨key, -, rest⟩ := sameEntries_cons.1 h
  exact ⟨key, rest⟩

theorem sameEntries_texts {es fs : List (Bytes × PropertyValue)} (h : sameEntries es fs) :
    es.map entryText = fs.map entryText := by
  refine map_eq_of_same (fun _ _ => rfl) (fun _ _ => rfl) (fun h => ?_) h
  obtain ⟨key, value, rest⟩ := sameEntries_cons.1 h
  exact ⟨by rw [entryText, entryText, key, PropertyValue.text_of_same value], rest⟩

theorem text_of_same {m n : PropertyMap} (h : m.same n) : m.text = n.text := by
  have texts := sameEntries_texts h
  unfold text
  unfold entryText at texts
  rw [texts]

theorem entries_nil_of_same {m n : PropertyMap} (h : m.same n) :
    m.entries = [] ↔ n.entries = [] := by
  have lengths := congrArg List.length (sameEntries_keys h)
  simp only [List.length_map] at lengths
  rw [← List.length_eq_zero_iff, lengths, List.length_eq_zero_iff]

end PropertyMap

/-! ## Elements -/

namespace Element

open Syntax

theorem sameAttributes_iff {a b : Attributes} :
    sameAttributes a b ↔ a.id = b.id ∧ a.name = b.name ∧ a.params.same b.params := by
  simp [sameAttributes, and_assoc]

/-- The number and the name of an element. -/
def label (e : Element) : Nat × Option Bytes :=
  (e.id, e.name)

/-- What two trees that are the same have in common. -/
structure Alike (e f : Element) : Prop where
  isHole : e.isHole = f.isHole
  printed : e.printed = f.printed
  depth : depth e = depth f
  labels : e.flatten.map label = f.flatten.map label

/-- What two lists of trees that are the same have in common. -/
structure AllAlike (es fs : List Element) : Prop where
  printed : printedAll es = printedAll fs
  depth : depthAll es = depthAll fs
  labels : (flattenAll es).map label = (flattenAll fs).map label

theorem printed_frame {e f : Element} (kinds : e.kind = f.kind)
    (h : sameAttributes e.attributes f.attributes) :
    e.printedHead = f.printedHead ∧ e.printedParams = f.printedParams ∧ e.label = f.label := by
  obtain ⟨ids, names, params⟩ := sameAttributes_iff.1 h
  refine ⟨?_, ?_, ?_⟩
  · simp only [printedHead, name, names, kinds]
  · simp only [printedParams, PropertyMap.entries_nil_of_same params,
      PropertyMap.text_of_same params]
  · simp only [label, id, name, ids, names]

mutual

theorem alike_of_same {e f : Element} (h : e.same f) : e.Alike f := by
  cases e <;> cases f
  case hole.hole => exact ⟨rfl, rfl, rfl, rfl⟩
  case text.text a v b w =>
    simp only [same, Bool.and_eq_true, beq_iff_eq] at h
    obtain ⟨attributes, rfl⟩ := h
    obtain ⟨head, params, label⟩ := printed_frame (e := .text a v) (f := .text b v) rfl attributes
    exact ⟨rfl, by simp only [printed, head, params], rfl, by simp only [flatten, List.map, label]⟩
  case centre.centre a c b d =>
    simp only [same, Bool.and_eq_true] at h
    have child := alike_of_same h.2
    obtain ⟨head, params, label⟩ :=
      printed_frame (e := .centre a c) (f := .centre b d) rfl h.1
    exact ⟨rfl, by simp only [printed, head, params, child.printed],
      by simp only [Syntax.depth, child.depth],
      by simp only [flatten, List.map_cons, label, child.labels]⟩
  case padding.padding a c b d =>
    simp only [same, Bool.and_eq_true] at h
    have child := alike_of_same h.2
    obtain ⟨head, params, label⟩ :=
      printed_frame (e := .padding a c) (f := .padding b d) rfl h.1
    exact ⟨rfl, by simp only [printed, head, params, child.printed],
      by simp only [Syntax.depth, child.depth],
      by simp only [flatten, List.map_cons, label, child.labels]⟩
  case stack.stack a x cs b y ds =>
    simp only [same, Bool.and_eq_true, beq_iff_eq] at h
    obtain ⟨⟨attributes, rfl⟩, below⟩ := h
    have children := allAlike_of_same below
    obtain ⟨head, params, label⟩ :=
      printed_frame (e := .stack a x cs) (f := .stack b x ds) rfl attributes
    exact ⟨rfl, by simp only [printed, head, params, children.printed],
      by simp only [Syntax.depth, children.depth],
      by simp only [flatten, List.map_cons, label, children.labels]⟩
  -- Elements of different kinds are never the same.
  all_goals simp [same] at h

theorem allAlike_of_same {es fs : List Element} (h : sameAll es fs) : AllAlike es fs := by
  cases es <;> cases fs
  case nil.nil => exact ⟨rfl, rfl, rfl⟩
  case cons.cons c cs d ds =>
    simp only [sameAll, Bool.and_eq_true] at h
    have first := alike_of_same h.1
    have rest := allAlike_of_same h.2
    exact ⟨by simp only [printedAll, first.printed, rest.printed],
      by simp only [depthAll, first.depth, rest.depth],
      by simp only [flattenAll, List.map_append, first.labels, rest.labels]⟩
  all_goals simp [sameAll] at h

end

theorem ids_of_labels {es fs : List Element} (h : es.map label = fs.map label) :
    es.map id = fs.map id := by
  have firsts : ∀ nodes : List Element, nodes.map id = (nodes.map label).map Prod.fst := by
    intro nodes
    rw [List.map_map]
    rfl
  rw [firsts, firsts, h]

theorem names_of_labels {es fs : List Element} (h : es.map label = fs.map label) :
    namesOf es = namesOf fs := by
  have seconds : ∀ nodes : List Element, namesOf nodes = (nodes.map label).filterMap Prod.snd := by
    intro nodes
    rw [List.filterMap_map]
    rfl
  rw [seconds, seconds, h]

end Element

/-! ## Slides and documents -/

theorem StyleBlock.same_iff {a b : StyleBlock} :
    a.same b ↔ a.target = b.target ∧ a.properties.same b.properties := by
  simp [same]

theorem StyleBlock.sameAll_cons {a b : StyleBlock} {as bs : List StyleBlock} :
    sameAll (a :: as) (b :: bs) ↔ a.same b ∧ sameAll as bs := by
  simp [sameAll]

theorem StyleBlock.sameAll_targets {as bs : List StyleBlock} (h : sameAll as bs) :
    as.map target = bs.map target := by
  refine map_eq_of_same (fun _ _ => rfl) (fun _ _ => rfl) (fun h => ?_) h
  obtain ⟨first, rest⟩ := sameAll_cons.1 h
  exact ⟨(same_iff.1 first).1, rest⟩

theorem StyleBlock.sameAll_printed {as bs : List StyleBlock} (h : sameAll as bs) :
    as.map printed = bs.map printed := by
  refine map_eq_of_same (fun _ _ => rfl) (fun _ _ => rfl) (fun h => ?_) h
  obtain ⟨first, rest⟩ := sameAll_cons.1 h
  obtain ⟨targets, properties⟩ := same_iff.1 first
  exact ⟨by rw [printed, printed, targets, PropertyMap.text_of_same properties], rest⟩

theorem Slide.same_iff {a b : Slide} :
    a.same b ↔ a.nodeCount = b.nodeCount ∧ StyleBlock.sameAll a.styles b.styles ∧
      a.content.same b.content := by
  simp [same, and_assoc]

theorem Slide.printed_of_same {a b : Slide} (h : a.same b) : a.printed = b.printed := by
  obtain ⟨-, styles, content⟩ := same_iff.1 h
  have contents := Element.alike_of_same content
  have lines : ∀ blocks : List StyleBlock, blocks.flatMap (fun b => printedLine b.printed)
      = (blocks.map StyleBlock.printed).flatMap printedLine := by
    intro blocks
    rw [List.flatMap_map]
  rw [printed, printed, contents.isHole, contents.printed, lines, lines,
    StyleBlock.sameAll_printed styles]

theorem Document.sameSlides_cons {a b : Slide} {as bs : List Slide} :
    sameSlides (a :: as) (b :: bs) ↔ a.same b ∧ sameSlides as bs := by
  simp [sameSlides]

theorem Document.printed_of_same {d e : Document} (h : d.same e) : d.printed = e.printed := by
  have slides : d.slides.map Slide.printed = e.slides.map Slide.printed := by
    refine map_eq_of_same (fun _ _ => rfl) (fun _ _ => rfl) (fun h => ?_) h
    obtain ⟨first, rest⟩ := sameSlides_cons.1 h
    exact ⟨Slide.printed_of_same first, rest⟩
  rw [printed, printed, slides]

end SlideDeck
