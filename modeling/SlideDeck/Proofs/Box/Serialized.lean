import SlideDeck.Box.Print
import SlideDeck.Proofs.Layout.Alike
import SlideDeck.Proofs.Layout.Containment
import SlideDeck.Proofs.RoundTrip.Text
import SlideDeck.Proofs.Syntax.ElementParts
import SlideDeck.Proofs.Text.Decimal

/-! # Compact forms tell trees apart

Two trees of boxes have one compact form exactly if they agree, place by place,
on all that it shows (`Box.serialized_eq_iff`).

* `Frame.Agrees` is what the form of a frame shows: all but the number of the
  element and how its text is drawn.
* `Frame.serialized_append_inj` reads a frame off the front of a form, field by
  field, and `Box.serialized_append_inj` a whole tree.

A form is read from the left, so every statement is about a form with something
behind it, and gives back that the same stands behind the other one.  Fields are
delimited in three ways: a word or a number by the first byte that cannot go on
with it, a text by its closing quote, and a list of children by a brace that no
child begins with. -/

namespace SlideDeck

open Bytes Lexical

/-- Two frames agree on all that the compact form shows. -/
structure Frame.Agrees (f g : Frame) : Prop where
  kind : f.kind = g.kind
  name : f.name = g.name
  x : f.x = g.x
  y : f.y = g.y
  width : f.width = g.width
  height : f.height = g.height
  text : f.text.map TextPayload.value = g.text.map TextPayload.value

/-- A frame without a name, or with an identifier as its name. -/
def Frame.WellNamed (f : Frame) : Prop :=
  f.name = [] ∨ IsIdentifier f.name

/-! ## Fields -/

theorem Kind.name_injective {k l : Kind} (h : k.name = l.name) : k = l := by
  have known := Syntax.ofName?_name k
  rw [h, Syntax.ofName?_name] at known
  exact (Option.some.inj known).symm

theorem Kind.isLetter_name (k : Kind) : ∀ b ∈ k.name, isLetter b := by
  cases k <;> decide +kernel

/-- What stands between a kind and a place. -/
def nameField (name : Bytes) : Bytes :=
  if name = [] then [] else ascii " name:" ++ name

/-- What stands between an extent and the children. -/
def textField (value : Option Bytes) : Bytes :=
  match value with
  | some value => ascii " " ++ value.quoted
  | none => []

/-- A frame ends at a child or at the end of its box. -/
def Braced (rest : Bytes) : Prop :=
  ∃ b ∈ rest.head?, b = 123 ∨ b = 125

theorem nameField_ends (name rest : Bytes) :
    ∀ b ∈ (nameField name ++ (ascii " x:" ++ rest)).head?, ¬ isLetter b := by
  rw [nameField]
  split <;>
  · rintro b ⟨⟩
    decide

theorem nameField_append_inj {n m r s : Bytes} (left : n = [] ∨ IsIdentifier n)
    (right : m = [] ∨ IsIdentifier m)
    (h : nameField n ++ (ascii " x:" ++ r) = nameField m ++ (ascii " x:" ++ s)) :
    n = m ∧ r = s := by
  -- The field is there exactly if the byte behind the blank is not the `x` of the place.
  have apart (t u : Bytes) : ascii " x:" ++ t ≠ ascii " name:" ++ u := by
    intro equal
    cases equal
  have stops (t : Bytes) : ∀ b ∈ (ascii " x:" ++ t).head?, ¬ continuesIdentifier b := by
    rintro b ⟨⟩
    decide
  rw [nameField, nameField] at h
  split at h <;> split at h
  · next none none' => exact ⟨none.trans none'.symm, List.append_cancel_left h⟩
  · exact absurd (h.trans (List.append_assoc ..)) (apart _ _)
  · exact absurd (h.symm.trans (List.append_assoc ..)) (apart _ _)
  · next some some' =>
    rw [List.append_assoc, List.append_assoc] at h
    obtain ⟨names, rest⟩ := run_append_inj (left.resolve_left some).2 (right.resolve_left some').2
      (stops r) (stops s) (List.append_cancel_left h)
    exact ⟨names, List.append_cancel_left rest⟩

theorem textField_ends {rest : Bytes} (braced : Braced rest) (value : Option Bytes) :
    ∀ b ∈ (textField value ++ rest).head?, ¬ isNumeral b := by
  cases value with
  | none =>
    obtain ⟨brace, first, isBrace⟩ := braced
    intro b among
    obtain rfl : b = brace := Option.mem_unique among first
    rcases isBrace with rfl | rfl <;> decide
  | some value =>
    rintro b ⟨⟩
    decide

theorem textField_append_inj {t u : Option Bytes} {r s : Bytes} (left : Braced r)
    (right : Braced s) (h : textField t ++ r = textField u ++ s) : t = u ∧ r = s := by
  have apart {rest : Bytes} (braced : Braced rest) (more : Bytes) : rest ≠ ascii " " ++ more := by
    rintro rfl
    obtain ⟨b, ⟨⟩, isBrace⟩ := braced
    exact absurd isBrace (by decide)
  cases t with
  | none =>
    cases u with
    | none => exact ⟨rfl, h⟩
    | some u => exact absurd (h.trans (List.append_assoc ..)) (apart left _)
  | some t =>
    cases u with
    | none => exact absurd (h.symm.trans (List.append_assoc ..)) (apart right _)
    | some u =>
      rw [textField, textField, List.append_assoc, List.append_assoc] at h
      obtain ⟨values, rest⟩ := quoted_append_inj (List.append_cancel_left h)
      exact ⟨congrArg some values, rest⟩

/-! ## Frames -/

namespace Frame

variable {f g : Frame}

theorem serialized_append (f : Frame) (rest : Bytes) : f.serialized ++ rest
    = f.kind.name ++ (nameField f.name ++ (ascii " x:" ++ (signed f.x ++ (ascii " y:"
      ++ (signed f.y ++ (ascii " w:" ++ (signed f.width ++ (ascii " h:" ++ (signed f.height
      ++ (textField (f.text.map TextPayload.value) ++ rest)))))))))) := by
  simp only [serialized, nameField, List.append_assoc]
  cases f.text <;> rfl

theorem serialized_append_inj (hf : f.WellNamed) (hg : g.WellNamed) {r s : Bytes}
    (left : Braced r) (right : Braced s) (h : f.serialized ++ r = g.serialized ++ s) :
    f.Agrees g ∧ r = s := by
  have stops (label : String) (t : Bytes) (blank : (ascii label).head? = some 32) :
      ∀ b ∈ (ascii label ++ t).head?, ¬ isNumeral b := by
    intro b among
    rw [List.head?_append, blank] at among
    cases among
    decide
  rw [serialized_append, serialized_append] at h
  obtain ⟨kinds, h⟩ := run_append_inj f.kind.isLetter_name g.kind.isLetter_name
    (nameField_ends _ _) (nameField_ends _ _) h
  obtain ⟨names, h⟩ := nameField_append_inj hf hg h
  obtain ⟨xs, h⟩ := signed_append_inj (stops _ _ rfl) (stops _ _ rfl) h
  obtain ⟨ys, h⟩ := signed_append_inj (stops _ _ rfl) (stops _ _ rfl) (List.append_cancel_left h)
  obtain ⟨widths, h⟩ :=
    signed_append_inj (stops _ _ rfl) (stops _ _ rfl) (List.append_cancel_left h)
  obtain ⟨heights, h⟩ :=
    signed_append_inj (textField_ends left _) (textField_ends right _) (List.append_cancel_left h)
  obtain ⟨texts, h⟩ := textField_append_inj left right h
  exact ⟨⟨Kind.name_injective kinds, names, xs, ys, widths, heights, texts⟩, h⟩

theorem Agrees.serialized (h : f.Agrees g) : f.serialized = g.serialized := by
  rw [← List.append_nil f.serialized, ← List.append_nil g.serialized, serialized_append,
    serialized_append, h.kind, h.name, h.x, h.y, h.width, h.height, h.text]

end Frame

/-! ## Trees -/

namespace Box

/-- Trees of one shape whose frames agree at every place. -/
abbrev Agrees : Box → Box → Prop :=
  Alike Frame.Agrees

/-- A tree in which the name of every box is empty or an identifier. -/
def WellNamed (b : Box) : Prop :=
  ∀ inner ∈ b.flatten, inner.frame.WellNamed

theorem braced_serializedAll (bs : List Box) (rest : Bytes) :
    Braced (serializedAll bs ++ (ascii "\x7d" ++ rest)) := by
  cases bs with
  | nil => exact ⟨125, rfl, .inr rfl⟩
  | cons b bs =>
    cases b
    exact ⟨123, rfl, .inl rfl⟩

mutual

theorem serialized_append_inj {b c : Box} (hb : b.WellNamed) (hc : c.WellNamed) {r s : Bytes}
    (h : b.serialized ++ r = c.serialized ++ s) : b.Agrees c ∧ r = s := by
  match b, c with
  | mk f bs, mk g cs =>
    obtain ⟨frame, children⟩ := forall_mem_flatten.1 hb
    obtain ⟨frame', children'⟩ := forall_mem_flatten.1 hc
    simp only [serialized, List.append_assoc] at h
    obtain ⟨frames, rest⟩ := Frame.serialized_append_inj frame frame'
      (braced_serializedAll bs r) (braced_serializedAll cs s) (List.append_cancel_left h)
    obtain ⟨trees, rest⟩ := serializedAll_append_inj children children' rest
    exact ⟨.mk frames trees, rest⟩
termination_by sizeOf b

theorem serializedAll_append_inj {bs cs : List Box} (hb : ∀ b ∈ bs, b.WellNamed)
    (hc : ∀ c ∈ cs, c.WellNamed) {r s : Bytes}
    (h : serializedAll bs ++ (ascii "\x7d" ++ r) = serializedAll cs ++ (ascii "\x7d" ++ s)) :
    List.Forall₂ Agrees bs cs ∧ r = s := by
  match bs, cs with
  | [], [] => exact ⟨.nil, List.append_cancel_left h⟩
  -- One list ends where the other goes on: a closing brace would be an opening one.
  | [], mk _ _ :: _ => cases h
  | mk _ _ :: _, [] => cases h
  | b :: bs, c :: cs =>
    obtain ⟨first, others⟩ := List.forall_mem_cons.1 hb
    obtain ⟨first', others'⟩ := List.forall_mem_cons.1 hc
    simp only [serializedAll, List.append_assoc] at h
    obtain ⟨tree, rest⟩ := serialized_append_inj first first' h
    obtain ⟨trees, rest⟩ := serializedAll_append_inj others others' rest
    exact ⟨.cons tree trees, rest⟩
termination_by sizeOf bs

end

mutual

theorem Agrees.serialized {b c : Box} (h : b.Agrees c) : b.serialized = c.serialized := by
  cases h with
  | mk frames children =>
    rw [Box.serialized, Box.serialized, frames.serialized, Agrees.serializedAll children]
termination_by sizeOf b

theorem Agrees.serializedAll {bs cs : List Box} (h : List.Forall₂ Agrees bs cs) :
    Box.serializedAll bs = Box.serializedAll cs := by
  cases h with
  | nil => rfl
  | cons first rest =>
    rw [Box.serializedAll, Box.serializedAll, Agrees.serialized first, Agrees.serializedAll rest]
termination_by sizeOf bs

end

/-- **The compact form is faithful.**  Trees in which every name is empty or an identifier have one
compact form exactly if they have one shape and agree at every place on kind, name, place and
extent, and on whether there is a text and on its bytes. -/
theorem serialized_eq_iff {b c : Box} (hb : b.WellNamed) (hc : c.WellNamed) :
    b.serialized = c.serialized ↔ b.Agrees c := by
  constructor
  · intro same
    exact (serialized_append_inj hb hc (congrArg (· ++ []) same)).1
  · exact Agrees.serialized

/-- A named row over a text, with the numbers of both elements and the size of the text. -/
def labelledText (node : Nat) (size : Binary64) (value : Bytes) : Box :=
  .mk { node, kind := .row, name := ascii "a-1", x := -1 }
    [.mk { node := node + 1, kind := .text, text := some ⟨value, size, .black⟩ } []]

/-- A text that ends its own box and opens another one is still a text, and numbers and sizes do not
show. -/
theorem labelledText_serialized :
    let forged := ascii "\" x:0\x7d\x7btext"
    (labelledText 0 .zero forged).WellNamed ∧ (labelledText 7 defaultTextSize forged).WellNamed ∧
      (labelledText 0 .zero []).WellNamed ∧
      (labelledText 0 .zero forged).serialized
        = (labelledText 7 defaultTextSize forged).serialized ∧
      (labelledText 0 .zero forged).serialized ≠ (labelledText 0 .zero []).serialized := by
  have wellNamed (node : Nat) (size : Binary64) (value : Bytes) :
      (labelledText node size value).WellNamed := by
    have name : IsIdentifier (ascii "a-1") := ⟨⟨97, rfl, by decide⟩, by decide +kernel⟩
    refine forall_mem_flatten.2 ⟨.inr name, ?_⟩
    rw [List.forall_mem_singleton]
    exact forall_mem_flatten.2 ⟨.inl rfl, List.forall_mem_nil _⟩
  have agrees (node node' : Nat) (size size' : Binary64) (value : Bytes) :
      (labelledText node size value).Agrees (labelledText node' size' value) :=
    .mk ⟨rfl, rfl, rfl, rfl, rfl, rfl, rfl⟩
      (.cons (.mk ⟨rfl, rfl, rfl, rfl, rfl, rfl, rfl⟩ .nil) .nil)
  refine ⟨wellNamed _ _ _, wellNamed _ _ _, wellNamed _ _ _, ?_, ?_⟩
  · exact (serialized_eq_iff (wellNamed _ _ _) (wellNamed _ _ _)).2 (agrees _ _ _ _ _)
  · intro same
    cases (serialized_eq_iff (wellNamed _ _ _) (wellNamed _ _ _)).1 same with
    | mk _ children =>
      cases children with
      | cons first _ =>
        cases first with
        | mk frames _ => exact absurd (Option.some.inj frames.text) (by decide)

end Box

end SlideDeck
