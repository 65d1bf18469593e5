import SlideDeck.Proofs.Deck.Compile
import SlideDeck.Proofs.RoundTrip.Document

/-! # The numbers of a document

Every number in a document was written as a token, so it is finite
(`Document.finite_of_ofSource`), and a document that was read equals itself
(`Document.same_self_of_ofSource`).

* `Content.node`: each element of a tree is derived from some of its tokens.
* `Document.same_self`: only a number can keep a document from equalling itself.

Equality is not reflexive.  It compares numbers as numbers, and one of them
equals nothing, so what is needed of a document is where its numbers come
from. -/

namespace SlideDeck

open Lexical

/-! ## Equality with oneself -/

theorem Binary64.same_self {s : Bool} {k : Fin rankLimit} : (finite s k).same (finite s k) := by
  simp [same]

theorem Binary64.finite_of_inRange? {digits : Nat} {v w : Binary64}
    (h : inRange? digits v = some w) : ∃ s k, w = finite s k := by
  cases v with
  | finite s k =>
    rw [inRange?] at h
    split at h
    · cases h
    · exact ⟨s, k, (Option.some.inj h).symm⟩
  | infinite | nan => cases h

theorem PropertyMap.same_self {m : PropertyMap} (numbers : ∀ v ∈ m.numbers, v.same v) :
    m.same m := by
  have entries : ∀ es : List (Bytes × PropertyValue),
      (∀ e ∈ es, ∀ v, e.2 = .number v → v.same v) → sameEntries es es := by
    intro es
    induction es with
    | nil => exact fun _ => rfl
    | cons e es ih =>
      intro numbers
      obtain ⟨here, there⟩ := List.forall_mem_cons.1 numbers
      refine sameEntries_cons.2 ⟨rfl, ?_, ih there⟩
      cases value : e.2 with
      | number v => exact here v value
      | colour c => exact beq_self_eq_true c
  refine entries m.entries fun e among v value => numbers v ?_
  exact List.mem_filterMap.2 ⟨e, among, by rw [value]⟩

namespace Element

open Syntax

mutual

theorem same_self {e : Element} (numbers : ∀ v ∈ numbersOf e.flatten, v.same v) : e.same e := by
  cases e with
  | hole => rfl
  | text a value =>
    have params : a.params.same a.params :=
      PropertyMap.same_self (forall_numbersOf_cons.1 numbers).1
    simp [same, sameAttributes, params]
  | centre a child =>
    obtain ⟨here, below⟩ := forall_numbersOf_cons.1 numbers
    have params : a.params.same a.params := PropertyMap.same_self here
    simp [same, sameAttributes, params, same_self below]
  | padding a child =>
    obtain ⟨here, below⟩ := forall_numbersOf_cons.1 numbers
    have params : a.params.same a.params := PropertyMap.same_self here
    simp [same, sameAttributes, params, same_self below]
  | stack a axis children =>
    obtain ⟨here, below⟩ := forall_numbersOf_cons.1 numbers
    have params : a.params.same a.params := PropertyMap.same_self here
    simp [same, sameAttributes, params, sameAll_self below]

theorem sameAll_self {es : List Element} (numbers : ∀ v ∈ numbersOf (flattenAll es), v.same v) :
    sameAll es es := by
  cases es with
  | nil => rfl
  | cons e rest =>
    obtain ⟨here, there⟩ := forall_numbersOf_append.1 numbers
    simp [sameAll, same_self here, sameAll_self there]

end

end Element

open Syntax

theorem StyleBlock.sameAll_self {bs : List StyleBlock}
    (numbers : ∀ b ∈ bs, ∀ v ∈ b.properties.numbers, v.same v) : sameAll bs bs := by
  induction bs with
  | nil => rfl
  | cons b bs ih =>
    obtain ⟨here, there⟩ := List.forall_mem_cons.1 numbers
    exact sameAll_cons.2 ⟨same_iff.2 ⟨rfl, PropertyMap.same_self here⟩, ih there⟩

theorem Slide.same_self {s : Slide} (numbers : ∀ v ∈ slideNumbers s, v.same v) : s.same s := by
  obtain ⟨content, styles⟩ := List.forall_mem_append.1 numbers
  refine same_iff.2 ⟨rfl, StyleBlock.sameAll_self fun b among v number => ?_,
    Element.same_self content⟩
  exact styles v (List.mem_flatMap.2 ⟨b, among, number⟩)

theorem Document.sameSlides_self {slides : List Slide}
    (numbers : ∀ v ∈ slides.flatMap slideNumbers, v.same v) : sameSlides slides slides := by
  induction slides with
  | nil => rfl
  | cons s slides ih =>
    obtain ⟨here, there⟩ := List.forall_mem_append.1 numbers
    exact sameSlides_cons.2 ⟨Slide.same_self here, ih there⟩

/-! ## Numbers as tokens -/

namespace Syntax

/-- One of the tokens is a literal of the number. -/
def Writes (ts : List Token) (v : Binary64) : Prop :=
  ∃ t ∈ ts, ∃ literal, t.lexeme = .number literal v

theorem Writes.mono {ts us : List Token} {v : Binary64} (h : Writes us v) (part : us ⊆ ts) :
    Writes ts v := by
  obtain ⟨t, among, literal, isNumber⟩ := h
  exact ⟨t, part among, literal, isNumber⟩

theorem Entries.writes {body : List Token} {entries : List (Property × PropertyValue)}
    (h : Entries body entries) {p : Property} {v : Binary64} (among : (p, .number v) ∈ entries) :
    Writes body v := by
  induction h with
  | nil => cases among
  | cons value _ _ ih =>
    cases among with
    | head =>
      cases value with
      | number =>
        exact ⟨_, List.mem_cons_of_mem _ (List.mem_cons_of_mem _ (List.mem_cons_self ..)), _, rfl⟩
    | tail _ there =>
      refine (ih there).mono fun t among => ?_
      simp [among]

theorem Block.writes {inline : Option Kind} {ts : List Token} {m : PropertyMap}
    (h : Block inline ts m) : ∀ v ∈ m.numbers, Writes ts v := by
  obtain ⟨isEntries, -, -⟩ := h
  intro v number
  obtain ⟨e, among, isNumber⟩ := List.mem_filterMap.1 number
  rcases mem_insertAll among with none | among
  · cases none
  · obtain ⟨⟨p, value⟩, there, rfl⟩ := List.mem_map.1 among
    cases value with
    | colour c => cases isNumber
    | number w =>
      cases isNumber
      refine (isEntries.writes there).mono fun t among => ?_
      simp [among]

theorem Tail.writes {kind : Kind} {tail : List Token} {m : PropertyMap} (h : Tail kind tail m) :
    ∀ v ∈ m.numbers, Writes tail v := by
  cases h with
  | bare => nofun
  | block isBlock =>
    exact fun v number => (isBlock.writes v number).mono (List.subset_cons_self ..)

mutual

/-- Each element of a tree is content that is derived from some of its tokens. -/
theorem Content.node {ts : List Token} {e : Element} (h : Content ts e) {node : Element}
    (among : node ∈ e.flatten) : ∃ us, us ⊆ ts ∧ Content us node := by
  cases h with
  | text isHead optional isTail =>
    cases List.mem_singleton.1 among
    exact ⟨_, List.Subset.refl _, .text isHead optional isTail⟩
  | centre isHead isContent optional isTail =>
    rcases List.mem_cons.1 among with rfl | below
    · exact ⟨_, List.Subset.refl _, .centre isHead isContent optional isTail⟩
    · obtain ⟨us, part, isNode⟩ := isContent.node below
      refine ⟨us, fun t among => ?_, isNode⟩
      simp [part among]
  | padding isHead isContent optional isTail =>
    rcases List.mem_cons.1 among with rfl | below
    · exact ⟨_, List.Subset.refl _, .padding isHead isContent optional isTail⟩
    · obtain ⟨us, part, isNode⟩ := isContent.node below
      refine ⟨us, fun t among => ?_, isNode⟩
      simp [part among]
  | stack isHead isContents isTail =>
    rcases List.mem_cons.1 among with rfl | below
    · exact ⟨_, List.Subset.refl _, .stack isHead isContents isTail⟩
    · obtain ⟨us, part, isNode⟩ := isContents.node below
      refine ⟨us, fun t among => ?_, isNode⟩
      simp [part among]

theorem Contents.node {ts : List Token} {es : List Element} (h : Contents ts es) {node : Element}
    (among : node ∈ Element.flattenAll es) : ∃ us, us ⊆ ts ∧ Content us node := by
  cases h with
  | last isContent _ =>
    obtain ⟨us, part, isNode⟩ := isContent.node (by simpa [Element.flattenAll] using among)
    exact ⟨us, fun t among => List.mem_append_left _ (part among), isNode⟩
  | more isContent isContents =>
    rcases List.mem_append.1 among with here | there
    · obtain ⟨us, part, isNode⟩ := isContent.node here
      exact ⟨us, fun t among => List.mem_append_left _ (part among), isNode⟩
    · obtain ⟨us, part, isNode⟩ := isContents.node there
      refine ⟨us, fun t among => ?_, isNode⟩
      simp [part among]

end

theorem Content.writes {ts : List Token} {e : Element} (h : Content ts e) :
    ∀ v ∈ numbersOf e.flatten, Writes ts v := by
  intro v number
  obtain ⟨node, among, number⟩ := List.mem_flatMap.1 number
  obtain ⟨us, part, isNode⟩ := h.node among
  obtain ⟨kind, head, args, tail, complete, children, a, rfl, -, isArguments, isTail, rfl⟩ :=
    isNode.parts
  rw [isArguments.attributes] at number
  refine (isTail.writes v number).mono fun t among => part ?_
  simp [among]

theorem Items.writes {body : List Token} {es : List Element} {bs : List StyleBlock}
    (h : Items body es bs) :
    (∀ e ∈ es, ∀ v ∈ numbersOf e.flatten, Writes body v) ∧
      ∀ b ∈ bs, ∀ v ∈ b.properties.numbers, Writes body v := by
  induction h with
  | nil => exact ⟨nofun, nofun⟩
  | content isContent _ ih =>
    obtain ⟨contents, blocks⟩ := ih
    refine ⟨?_, fun b among v number => ?_⟩
    · intro e among v number
      rcases List.mem_cons.1 among with rfl | there
      · exact (isContent.writes v number).mono (List.subset_append_left ..)
      · exact (contents e there v number).mono (List.subset_append_right ..)
    · exact (blocks b among v number).mono (List.subset_append_right ..)
  | block isBlock _ ih =>
    obtain ⟨contents, blocks⟩ := ih
    refine ⟨fun e among v number => ?_, ?_⟩
    · refine (contents e among v number).mono fun t among => ?_
      simp [among]
    · intro b among v number
      rcases List.mem_cons.1 among with rfl | there
      · refine (isBlock.writes v number).mono fun t among => ?_
        simp [among]
      · refine (blocks b there v number).mono fun t among => ?_
        simp [among]

theorem SlideTokens.writes {ts : List Token} {s : Slide} (h : SlideTokens ts s) :
    ∀ v ∈ slideNumbers s, Writes ts v := by
  cases h with
  | mk isItems =>
    obtain ⟨contents, blocks⟩ := isItems.writes
    have inside : ∀ body : List Token, ∀ first last : Token,
        body ⊆ first :: (body ++ [last]) := by
      intro body first last t among
      simp [among]
    intro v number
    rcases List.mem_append.1 number with number | number
    · exact (contents _ (List.mem_singleton_self _) v number).mono (inside ..)
    · obtain ⟨b, among, number⟩ := List.mem_flatMap.1 number
      exact (blocks b among v number).mono (inside ..)

theorem Slides.writes {ts : List Token} {slides : List Slide} (h : Slides ts slides) :
    ∀ v ∈ slides.flatMap slideNumbers, Writes ts v := by
  induction h with
  | nil => nofun
  | cons isSlide _ ih =>
    intro v number
    rcases List.mem_append.1 number with number | number
    · exact (isSlide.writes v number).mono (List.subset_append_left ..)
    · exact (ih v number).mono (List.subset_append_right ..)

end Syntax

/-! ## Documents that were read -/

namespace Document

variable {source : Bytes} {d : Document}

/-- A document that was read is derived from tokens that have spellings. -/
theorem slides_of_ofSource (read : ofSource source = .ok d) :
    ∃ ts, AllSpelled ts ∧ Slides ts d.slides := by
  obtain ⟨tokens, scanned, -⟩ := except_bind_eq_ok.1 read
  obtain ⟨ps, last, divided, -⟩ := divided_of_tokenize scanned
  obtain ⟨ts, -, spelled, reads⟩ := ofSource_divided divided
  exact ⟨ts, spelled, (reads d).1 read⟩

theorem finite_of_ofSource (read : ofSource source = .ok d) :
    ∀ v ∈ d.numbers, ∃ s k, v = .finite s k := by
  obtain ⟨ts, spelled, isSlides⟩ := slides_of_ofSource read
  intro v number
  obtain ⟨t, among, literal, isNumber⟩ := isSlides.writes v number
  obtain ⟨text, spelling⟩ := spelled t among
  rw [isNumber] at spelling
  cases spelling with
  | number _ _ read => exact Binary64.finite_of_inRange? read

/-- A document that was read equals itself. -/
theorem same_self_of_ofSource (read : ofSource source = .ok d) : d.same d := by
  refine sameSlides_self fun v number => ?_
  obtain ⟨s, k, rfl⟩ := finite_of_ofSource read v number
  exact Binary64.same_self

end Document

end SlideDeck
