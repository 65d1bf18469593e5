import SlideDeck.Proofs.Syntax.Properties

/-! # Numbers and names of elements

Which elements the state of a reader allows, and what they leave behind.

* `Fresh` says which elements a state allows: they are numbered from its next
  number on, and their names are new to it, distinct, and not reserved.
* `passed` is the state after them.

Both speak of a list of elements in pre-order and not of a tree.  Reading one
element, reading its children and reading the siblings after it then compose
by appending lists, and numbering in pre-order is what `Fresh` says of such a
list. -/

namespace SlideDeck.Syntax

open Reader

variable {s s' : Upcoming}

/-! ## What a state allows -/

@[simp] theorem namesOf_append (first second : List Element) :
    namesOf (first ++ second) = namesOf first ++ namesOf second :=
  List.filterMap_append

/-- The elements carry the numbers from the next one on, and names that are new to the state,
distinct, and not reserved. -/
structure Fresh (s : Upcoming) (nodes : List Element) : Prop where
  numbered : nodes.map Element.id = List.range' s.nextId nodes.length
  distinct : (namesOf nodes).Nodup
  unused : ∀ name ∈ namesOf nodes, name ∉ s.names
  unreserved : ∀ name ∈ namesOf nodes, ¬ isReserved name

/-- The state after some elements, before other tokens. -/
def passed (s : Upcoming) (nodes : List Element) (rest : List Token) : Upcoming :=
  { s with
    tokens := rest
    nextId := s.nextId + nodes.length
    names := (namesOf nodes).reverse ++ s.names }

@[simp] theorem passed_tokens (s : Upcoming) (nodes : List Element) (rest : List Token) :
    (passed s nodes rest).tokens = rest := rfl

@[simp] theorem passed_nil (s : Upcoming) (rest : List Token) :
    passed s [] rest = before s rest := rfl

@[simp] theorem before_passed (s : Upcoming) (nodes : List Element) (rest more : List Token) :
    before (passed s nodes rest) more = passed s nodes more := rfl

@[simp] theorem passed_before (s : Upcoming) (nodes : List Element) (rest more : List Token) :
    passed (before s rest) nodes more = passed s nodes more := rfl

@[simp] theorem passed_passed (s : Upcoming) (first second : List Element)
    (rest more : List Token) :
    passed (passed s first rest) second more = passed s (first ++ second) more := by
  simp [passed, Nat.add_assoc]

theorem fresh_nil (s : Upcoming) : Fresh s [] :=
  ⟨rfl, .nil, nofun, nofun⟩

@[simp] theorem fresh_before (s : Upcoming) (rest : List Token) (nodes : List Element) :
    Fresh (before s rest) nodes ↔ Fresh s nodes :=
  ⟨fun h => ⟨h.numbered, h.distinct, h.unused, h.unreserved⟩,
    fun h => ⟨h.numbered, h.distinct, h.unused, h.unreserved⟩⟩

/-- Elements are allowed if the first of them are, and the others are after these. -/
theorem fresh_append {first second : List Element} {rest : List Token} :
    Fresh s (first ++ second) ↔ Fresh s first ∧ Fresh (passed s first rest) second := by
  constructor
  · intro parts
    obtain ⟨numbered, distinct, unused, unreserved⟩ := parts
    simp only [namesOf_append, List.map_append, List.length_append,
      ← List.range'_append_1] at numbered distinct unused unreserved
    -- Both runs of numbers are as long as the elements they number, so they split alike.
    obtain ⟨firstIds, secondIds⟩ := List.append_inj numbered (by simp)
    obtain ⟨firstNames, secondNames, apart⟩ := List.nodup_append.1 distinct
    refine ⟨⟨firstIds, firstNames, fun name h => unused name (List.mem_append_left _ h),
      fun name h => unreserved name (List.mem_append_left _ h)⟩,
      secondIds, secondNames, fun name h => ?_,
      fun name h => unreserved name (List.mem_append_right _ h)⟩
    simp only [passed, List.mem_append, List.mem_reverse, not_or]
    exact ⟨fun h' => apart name h' name h rfl, unused name (List.mem_append_right _ h)⟩
  · intro parts
    obtain ⟨⟨firstIds, firstNames, firstUnused, firstFree⟩,
      ⟨secondIds, secondNames, secondUnused, secondFree⟩⟩ := parts
    simp only [passed, List.mem_append, List.mem_reverse, not_or] at secondIds secondUnused
    refine ⟨?_, ?_, ?_, ?_⟩
    · rw [List.map_append, firstIds, secondIds, List.length_append, List.range'_append_1]
    · rw [namesOf_append]
      -- A name of the first elements is used up where the second ones begin.
      refine List.nodup_append.2 ⟨firstNames, secondNames, fun name h name' h' equal => ?_⟩
      exact (secondUnused name' h').1 (equal ▸ h)
    · rw [namesOf_append]
      intro name h
      rcases List.mem_append.1 h with h | h
      · exact firstUnused name h
      · exact (secondUnused name h).2
    · rw [namesOf_append]
      intro name h
      rcases List.mem_append.1 h with h | h
      · exact firstFree name h
      · exact secondFree name h

/-- One element is allowed if it carries the next number and its name, if any, is free. -/
theorem fresh_single {e : Element} :
    Fresh s [e] ↔ e.id = s.nextId ∧ ∀ name ∈ e.name, name ∉ s.names ∧ ¬ isReserved name := by
  constructor
  · intro parts
    obtain ⟨numbered, -, unused, unreserved⟩ := parts
    refine ⟨by simpa [List.range'] using numbered, fun name h => ?_⟩
    have among : name ∈ namesOf [e] := by simp [namesOf, Option.mem_def.1 h]
    exact ⟨unused name among, unreserved name among⟩
  · intro parts
    obtain ⟨numbered, free⟩ := parts
    have among : ∀ name ∈ namesOf [e], name ∈ e.name := by
      intro name h
      simpa [namesOf] using h
    refine ⟨by simp [numbered], ?_, fun name h => (free name (among name h)).1,
      fun name h => (free name (among name h)).2⟩
    cases named : e.name <;> simp [namesOf, named]

theorem passed_single {e : Element} {name : Option Bytes} (named : e.name = name)
    (rest : List Token) :
    passed s [e] rest
      = { s with tokens := rest, nextId := s.nextId + 1, names := name.toList ++ s.names } := by
  cases name <;> simp [passed, namesOf, named]

end SlideDeck.Syntax
