import SlideDeck.Proofs.RoundTrip.Properties

/-! # Reading printed content

The canonical text of content reads as content that is the same
(`Content.reads`), by induction on how the grammar derives it.

Every kind of content has the same text before and behind its arguments, so what
is particular to a kind is only that its arguments read (`frame_reads`). -/

namespace SlideDeck.Syntax

open Bytes Lexical

variable {e : Element} {text : Bytes} {accepted : List Token → Prop}

/-- Every token has a spelling. -/
def AllSpelled (ts : List Token) : Prop :=
  ∀ t ∈ ts, ∃ text, Spelled t.lexeme text

theorem AllSpelled.mono {ts us : List Token} (h : AllSpelled ts) (part : us ⊆ ts) :
    AllSpelled us :=
  fun t among => h t (part among)

theorem AllSpelled.left {ts us : List Token} (h : AllSpelled (ts ++ us)) : AllSpelled ts :=
  h.mono (List.subset_append_left ..)

theorem AllSpelled.right {ts us : List Token} (h : AllSpelled (ts ++ us)) : AllSpelled us :=
  h.mono (List.subset_append_right ..)

theorem AllSpelled.identifier {ts : List Token} (h : AllSpelled ts) {name : Bytes}
    {place : Position} (among : ⟨.identifier name, place⟩ ∈ ts) : IsIdentifier name := by
  obtain ⟨text, spelled⟩ := h _ among
  cases spelled with
  | identifier isIdentifier => exact isIdentifier

/-! ## Frames -/

/-- What the text before and behind the arguments of an element needs to read. -/
structure Printable (e : Element) : Prop where
  named : ∀ name ∈ e.name, IsIdentifier name
  settable : ∀ x ∈ e.attributes.params.entries, Settable e.kind x
  back : ∀ v ∈ e.attributes.params.numbers, v.readsBack

theorem name_identifier (kind : Kind) : IsIdentifier kind.name := by
  cases kind <;> exact ⟨⟨_, rfl, by decide⟩, by decide +kernel⟩

theorem head_reads (named : ∀ name ∈ e.name, IsIdentifier name) (h : Reads text accepted) :
    Reads (e.printedHead ++ 40 :: text) fun ts => ∃ head place us,
      ts = head ++ us ∧ Head e.kind head e.name place ∧ accepted us := by
  have opening := h.lexeme .leftParen fun _ => trivial
  have word := opening.lexeme (.identifier (name_identifier e.kind)) fun rest =>
    ends_identifier (by decide) _
  rw [Element.printedHead]
  cases isNamed : e.name with
  | none =>
    apply word.imp
    intro ts parts
    obtain ⟨first, us, rfl, second, us, rfl, rest⟩ := parts
    exact ⟨_, first, us, rfl, .unnamed, rest⟩
  | some name =>
    -- The blanks around the double colon end the name and come before the kind.
    have whole : name ++ ascii " :: " ++ e.kind.name ++ 40 :: text
        = name ++ 32 :: ([58, 58] ++ 32 :: (e.kind.name ++ 40 :: text)) := by
      rw [List.append_assoc, List.append_assoc]
      rfl
    have spaced := word.blank (b := 32) (by decide)
    have defined := (spaced.lexeme .definition fun _ => trivial).blank (b := 32) (by decide)
    simp only
    rw [whole]
    refine (defined.lexeme (.identifier (named name isNamed)) fun rest =>
      ends_identifier (by decide) _).imp ?_
    intro ts parts
    obtain ⟨first, us, rfl, second, us, rfl, third, us, rfl, fourth, us, rfl, rest⟩ := parts
    exact ⟨_, first, us, rfl, .named, rest⟩

theorem tail_reads (printable : Printable e) :
    Reads (41 :: e.printedParams) fun ts => ∃ m, Tail e.kind ts m ∧ m.same e.attributes.params := by
  rw [Element.printedParams]
  -- An element without properties of its own has no block.
  split
  · next none =>
    apply (reads_nil.lexeme .rightParen fun _ => trivial).imp
    intro ts parts
    obtain ⟨place, us, rfl, rfl⟩ := parts
    exact ⟨∅, .bare, by rw [PropertyMap.same, none]; rfl⟩
  · refine ((block_reads printable.settable printable.back).lexeme .rightParen
      fun _ => trivial).imp ?_
    intro ts parts
    obtain ⟨place, us, rfl, m, isBlock, same⟩ := parts
    exact ⟨m, .block isBlock, same⟩

/-- An element whose arguments read has a text that reads as a head, arguments and a tail. -/
theorem frame_reads (printable : Printable e) (h : Reads text accepted) :
    Reads (e.printedHead ++ ascii "(" ++ text ++ ascii ")" ++ e.printedParams) fun ts =>
      ∃ head us tail a, ts = head ++ (us ++ tail) ∧ Head e.kind head a.name a.position ∧
        accepted us ∧ Tail e.kind tail a.params ∧ Element.sameAttributes a e.attributes := by
  have whole : e.printedHead ++ ascii "(" ++ text ++ ascii ")" ++ e.printedParams
      = e.printedHead ++ 40 :: (text ++ 41 :: e.printedParams) := by
    simp only [List.append_assoc]
    rfl
  rw [whole]
  apply (head_reads printable.named (h.append (tail_reads printable))).imp
  intro ts parts
  obtain ⟨head, place, us, rfl, isHead, arguments, tail, rfl, isArguments, m, isTail, same⟩ := parts
  exact ⟨head, arguments, tail, ⟨e.id, e.name, m, place⟩, rfl, isHead, isArguments, isTail,
    Element.sameAttributes_iff.2 ⟨rfl, rfl, same⟩⟩

/-! ## Content -/

theorem Head.identifier {kind : Kind} {head : List Token} {name : Option Bytes} {place : Position}
    (h : Head kind head name place) (spelled : AllSpelled head) :
    ∀ word ∈ name, IsIdentifier word := by
  cases h with
  | unnamed => nofun
  | named =>
    rintro word ⟨⟩
    exact spelled.identifier (List.mem_cons_self ..)

theorem Tail.settable {kind : Kind} {tail : List Token} {m : PropertyMap} (h : Tail kind tail m) :
    ∀ x ∈ m.entries, Settable kind x := by
  cases h with
  | bare => nofun
  | block isBlock => exact isBlock.settable

/-- The numbers that are set on the elements of a tree. -/
def numbersOf (nodes : List Element) : List Binary64 :=
  nodes.flatMap fun e => e.attributes.params.numbers

theorem forall_numbersOf_cons {p : Binary64 → Prop} {e : Element} {rest : List Element} :
    (∀ v ∈ numbersOf (e :: rest), p v) ↔
      (∀ v ∈ e.attributes.params.numbers, p v) ∧ ∀ v ∈ numbersOf rest, p v := by
  simp only [numbersOf, List.flatMap_cons, List.forall_mem_append]

theorem forall_numbersOf_append {p : Binary64 → Prop} {es fs : List Element} :
    (∀ v ∈ numbersOf (es ++ fs), p v) ↔ (∀ v ∈ numbersOf es, p v) ∧ ∀ v ∈ numbersOf fs, p v := by
  simp only [numbersOf, List.flatMap_append, List.forall_mem_append]

mutual

/-- The text of content reads as content that is the same. -/
theorem Content.reads {ts : List Token} {e : Element} (h : Content ts e) (spelled : AllSpelled ts)
    (back : ∀ v ∈ numbersOf e.flatten, v.readsBack) :
    Reads e.printed fun us => ∃ f, Content us f ∧ f.same e := by
  cases h with
  | @text a value head comma tail place isHead optional isTail =>
    obtain ⟨here, -⟩ := forall_numbersOf_cons.1 back
    have printable : Printable (.text a value) :=
      ⟨isHead.identifier spelled.left, isTail.settable, here⟩
    have argument := reads_nil.lexeme (quoted_spelled value) fun _ => trivial
    rw [List.append_nil] at argument
    apply (frame_reads printable argument).imp
    intro ts parts
    obtain ⟨head, _, tail, b, rfl, isHead, ⟨place, _, rfl, rfl⟩, isTail, same⟩ := parts
    refine ⟨.text b value, .text isHead .absent isTail, ?_⟩
    simpa [Element.same, Element.attributes] using same
  | @centre a child head body comma tail isHead isContent optional isTail =>
    obtain ⟨here, below⟩ := forall_numbersOf_cons.1 back
    have printable : Printable (.centre a child) :=
      ⟨isHead.identifier spelled.left, isTail.settable, here⟩
    apply (frame_reads printable (isContent.reads spelled.right.left below)).imp
    intro ts parts
    obtain ⟨head, body, tail, b, rfl, isHead, ⟨child', isContent, sameChild⟩, isTail, same⟩ := parts
    refine ⟨.centre b child', .centre isHead isContent .absent isTail, ?_⟩
    simpa [Element.same, Element.attributes, sameChild] using same
  | @padding a child head body comma tail isHead isContent optional isTail =>
    obtain ⟨here, below⟩ := forall_numbersOf_cons.1 back
    have printable : Printable (.padding a child) :=
      ⟨isHead.identifier spelled.left, isTail.settable, here⟩
    apply (frame_reads printable (isContent.reads spelled.right.left below)).imp
    intro ts parts
    obtain ⟨head, body, tail, b, rfl, isHead, ⟨child', isContent, sameChild⟩, isTail, same⟩ := parts
    refine ⟨.padding b child', .padding isHead isContent .absent isTail, ?_⟩
    simpa [Element.same, Element.attributes, sameChild] using same
  | @stack a axis children head body tail isHead isContents isTail =>
    obtain ⟨here, below⟩ := forall_numbersOf_cons.1 back
    have printable : Printable (.stack a axis children) :=
      ⟨isHead.identifier spelled.left, isTail.settable, here⟩
    apply (frame_reads printable (isContents.reads spelled.right.left below)).imp
    intro ts parts
    obtain ⟨head, body, tail, b, rfl, isHead, ⟨children', isContents, sames⟩, isTail, same⟩ := parts
    refine ⟨.stack b axis children', .stack isHead isContents isTail, ?_⟩
    simpa [Element.same, Element.attributes, sames] using same

theorem Contents.reads {ts : List Token} {es : List Element} (h : Contents ts es)
    (spelled : AllSpelled ts) (back : ∀ v ∈ numbersOf (Element.flattenAll es), v.readsBack) :
    Reads (joined (ascii ", ") (Element.printedAll es)) fun us =>
      ∃ fs, Contents us fs ∧ Element.sameAll fs es := by
  cases h with
  | @last child body comma isContent optional =>
    obtain ⟨here, -⟩ := forall_numbersOf_append.1 back
    apply (isContent.reads spelled.left here).imp
    intro ts parts
    obtain ⟨child', isContent, same⟩ := parts
    have isContents := Contents.last isContent .absent
    rw [List.append_nil] at isContents
    exact ⟨[child'], isContents, by simp [Element.sameAll, same]⟩
  | @more child children body rest place isContent isContents =>
    obtain ⟨here, below⟩ := forall_numbersOf_append.1 back
    have spelledRest : AllSpelled rest := fun t among =>
      spelled.right t (List.mem_cons_of_mem _ among)
    -- No comma follows the last child, so the text of the others is known not to be empty.
    have following := (isContents.reads spelledRest below).blank (b := 32) (by decide)
    have whole : joined (ascii ", ") (Element.printedAll (child :: children))
        = child.printed ++ ([44] ++ 32 :: joined (ascii ", ") (Element.printedAll children)) := by
      obtain ⟨second, others, rfl⟩ : ∃ second others, children = second :: others := by
        cases isContents <;> exact ⟨_, _, rfl⟩
      simp only [Element.printedAll, joined, List.append_assoc]
      rfl
    rw [whole]
    refine ((isContent.reads spelled.left here).append
      (following.lexeme .comma fun _ => trivial)).imp ?_
    intro ts parts
    obtain ⟨us, vs, rfl, ⟨child', isContent, same⟩, place, ws, rfl, children', isContents,
      sames⟩ := parts
    exact ⟨child' :: children', .more isContent isContents, by simp [Element.sameAll, same, sames]⟩

end

end SlideDeck.Syntax
