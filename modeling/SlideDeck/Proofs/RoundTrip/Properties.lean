import SlideDeck.Proofs.RoundTrip.Equality
import SlideDeck.Proofs.RoundTrip.Text
import SlideDeck.Proofs.Syntax.Properties

/-! # Reading printed properties

The text of a property map that a block denotes reads as a block that denotes
the same map.

The source's own order of the properties is gone.  A map lists its entries in
ascending order of their keys, its text does too, and inserting entries in that
order builds the map that has just them. -/

namespace SlideDeck

open Bytes Lexical Syntax

/-! ## Numbers -/

/-- The text of a number reads as a number that is equal to it. -/
def Binary64.readsBack (v : Binary64) : Bool :=
  match Scanned.ofBytes v.written with
  | ⟨length, .ok (.number _ w)⟩ => length == v.written.length && w.same v
  | _ => false

/-- The numbers among the values of a map. -/
def PropertyMap.numbers (m : PropertyMap) : List Binary64 :=
  m.entries.filterMap fun e => match e.2 with
    | .number v => some v
    | .colour _ => none

/-- Only the beginning of a lexeme is read as a number. -/
theorem begins_of_number {source literal : Bytes} {v : Binary64} {n : Nat}
    (h : Scanned.ofBytes source = .lexeme n (.number literal v)) : Begins source := by
  refine begins_of_lexeme h fun more equal => ?_
  rw [equal] at h
  simp [Scanned.ofBytes, Scanned.comment, Scanned.lexeme] at h

theorem spelled_of_readsBack {v : Binary64} (h : v.readsBack) :
    ∃ w, Spelled (.number v.written w) v.written ∧ w.same v := by
  rw [Binary64.readsBack] at h
  split at h
  · next length literal w scanned =>
    simp only [Bool.and_eq_true, beq_iff_eq] at h
    obtain ⟨rfl, same⟩ := h
    rcases ofBytes_sound (begins_of_number scanned) scanned with ⟨-, -, ended⟩ |
      ⟨text, rest, split, length, spelled, -⟩
    · cases ended
    · -- The length is that of the whole text, so nothing is left behind the number.
      have whole : text = v.written := by
        rw [split, List.length_append] at length
        have none : rest = [] := List.length_eq_zero_iff.1 (by omega)
        rw [split, none, List.append_nil]
      subst whole
      rw [spelled.literal_eq] at spelled
      exact ⟨w, spelled, same⟩
  · cases h

namespace Syntax

/-! ## Values -/

theorem Value.reads {p : Property} {l : Lexeme} {v : PropertyValue} (value : Value p l v)
    (back : ∀ w, v = .number w → w.readsBack) {b : UInt8} {text : Bytes}
    {accepted : List Token → Prop} (stops : ¬ continuesIdentifier b ∧ b ≠ 46)
    (h : Reads (b :: text) accepted) :
    Reads (v.text ++ b :: text) fun ts => ∃ l' v' place us,
      ts = ⟨l', place⟩ :: us ∧ Value p l' v' ∧ v'.same v ∧ accepted us := by
  cases value with
  | @number literal v isNumber notNegative notZero =>
    obtain ⟨w, spelled, same⟩ := spelled_of_readsBack (back v rfl)
    apply (h.lexeme spelled fun rest => ends_number stops _).imp
    intro ts parts
    obtain ⟨place, us, rfl, rest⟩ := parts
    rw [← Binary64.isNegative_of_same same] at notNegative
    rw [← Binary64.isZero_of_same same] at notZero
    exact ⟨_, .number w, place, us, rfl, .number isNumber notNegative notZero, same, rest⟩
  | @colour text' c isColour denotes =>
    apply (h.lexeme (quoted_spelled c.text) fun _ => trivial).imp
    intro ts parts
    obtain ⟨place, us, rfl, rest⟩ := parts
    exact ⟨_, .colour c, place, us, rfl, .colour isColour (colourText_iff.2 (ofText?_text c)), by
      simp [PropertyValue.same], rest⟩

/-! ## Entries -/

/-- An entry of a map that a block of the grammar can set. -/
def Settable (inline : Option Kind) (e : Bytes × PropertyValue) : Prop :=
  ∃ p l, p.key = e.1 ∧ Value p l e.2 ∧ ∀ kind ∈ inline, p ∈ kind.inlineProperties

/-- A number in an entry reads back. -/
def EntryReadsBack (e : Bytes × PropertyValue) : Prop :=
  ∀ v, e.2 = .number v → v.readsBack

theorem key_identifier (p : Property) : IsIdentifier p.key := by
  cases p <;> exact ⟨⟨_, rfl, by decide⟩, by decide +kernel⟩

variable {inline : Option Kind}

theorem entry_reads {e : Bytes × PropertyValue} (settable : Settable inline e)
    (back : EntryReadsBack e) {b : UInt8} {text : Bytes} {accepted : List Token → Prop}
    (stops : ¬ continuesIdentifier b ∧ b ≠ 46) (h : Reads (b :: text) accepted) :
    Reads (PropertyMap.entryText e ++ b :: text) fun ts => ∃ p l v first second third us,
      ts = ⟨.identifier p.key, first⟩ :: ⟨.colon, second⟩ :: ⟨l, third⟩ :: us ∧ p.key = e.1 ∧
        Value p l v ∧ v.same e.2 ∧ (∀ kind ∈ inline, p ∈ kind.inlineProperties) ∧ accepted us := by
  obtain ⟨p, l, key, value, allowed⟩ := settable
  have read := ((value.reads back stops h).blank (b := 32) (by decide)).lexeme .colon
    (by intro rest; nofun)
  have whole : PropertyMap.entryText e ++ b :: text
      = p.key ++ ([58] ++ 32 :: (e.2.text ++ b :: text)) := by
    rw [PropertyMap.entryText, key, List.append_assoc, List.append_assoc]
    rfl
  rw [whole]
  refine (read.lexeme (.identifier (key_identifier p)) fun rest =>
    ends_identifier (by decide) _).imp ?_
  intro ts parts
  obtain ⟨first, us, rfl, second, us, rfl, l', v, third, us, rfl, value', same, rest⟩ := parts
  exact ⟨p, l', v, first, second, third, us, rfl, key, value', same, allowed, rest⟩

/-- Entries between commas and a closing brace read as entries with the same values. -/
theorem entries_read {es : List (Bytes × PropertyValue)} (settable : ∀ e ∈ es, Settable inline e)
    (back : ∀ e ∈ es, EntryReadsBack e) :
    Reads (joined (ascii ", ") (es.map PropertyMap.entryText) ++ [125]) fun ts =>
      ∃ body entries last, ts = body ++ [⟨.rightBrace, last⟩] ∧ Entries body entries ∧
        PropertyMap.sameEntries (entries.map fun e => (e.1.key, e.2)) es ∧
        ∀ kind ∈ inline, ∀ e ∈ entries, e.1 ∈ kind.inlineProperties := by
  have brace : Reads [125] fun ts => ∃ last, ts = [⟨.rightBrace, last⟩] := by
    apply (reads_nil.lexeme .rightBrace fun _ => trivial).imp
    intro ts parts
    obtain ⟨last, us, rfl, rfl⟩ := parts
    exact ⟨last, rfl⟩
  -- The closing brace is part of the statement because it ends the last value.
  induction es with
  | nil =>
    apply brace.imp
    intro ts parts
    obtain ⟨last, rfl⟩ := parts
    exact ⟨[], [], last, rfl, .nil, rfl, nofun⟩
  | cons e es ih =>
    have settableHere := settable e (List.mem_cons_self ..)
    have backHere := back e (List.mem_cons_self ..)
    cases es with
    | nil =>
      apply (entry_reads settableHere backHere (by decide) brace).imp
      intro ts parts
      obtain ⟨p, l, v, first, second, third, us, rfl, key, value, same, allowed, last, rfl⟩ := parts
      refine ⟨_, [(p, v)], last, rfl, @Entries.cons _ _ _ _ _ _ first second third value .absent
        .nil, PropertyMap.sameEntries_cons.2 ⟨key, same, rfl⟩, ?_⟩
      simpa using allowed
    | cons e' es =>
      have rest := ih (fun e h => settable e (List.mem_cons_of_mem _ h))
        fun e h => back e (List.mem_cons_of_mem _ h)
      -- A comma ends the value of every entry but the last.
      have comma := (rest.blank (b := 32) (by decide)).lexeme .comma fun _ => trivial
      have whole : joined (ascii ", ") ((e :: e' :: es).map PropertyMap.entryText) ++ [125]
          = PropertyMap.entryText e ++
            44 :: 32 :: (joined (ascii ", ") ((e' :: es).map PropertyMap.entryText) ++ [125]) := by
        simp only [List.map_cons, joined, List.append_assoc]
        rfl
      rw [whole]
      apply (entry_reads settableHere backHere (by decide) comma).imp
      intro ts parts
      obtain ⟨p, l, v, first, second, third, us, rfl, key, value, same, allowed, place, us, rfl,
        body, entries, last, rfl, isEntries, sames, inPlace⟩ := parts
      refine ⟨_, (p, v) :: entries, last, ?_, @Entries.cons _ _ _ _ _ _ first second third value
        (@OptionalComma.present place) isEntries,
        PropertyMap.sameEntries_cons.2 ⟨key, same, sames⟩, ?_⟩
      · rfl
      · intro kind isInline f member
        cases member with
        | head => exact allowed kind isInline
        | tail _ there => exact inPlace kind isInline f there

/-! ## Blocks -/

theorem insertEntry_last {key : Bytes} {v : PropertyValue} {es : List (Bytes × PropertyValue)}
    (above : ∀ e ∈ es, e.1 < key) : PropertyMap.insertEntry key v es = es ++ [(key, v)] := by
  induction es with
  | nil => rfl
  | cons e es ih =>
    have here := above e (List.mem_cons_self ..)
    have notBelow : ¬ key < e.1 := fun below => List.lt_irrefl _ (List.lt_trans below here)
    have different : key ≠ e.1 := fun equal => List.lt_irrefl key (equal ▸ here)
    obtain ⟨other, old⟩ := e
    simp only [PropertyMap.insertEntry, notBelow, different, if_false, List.cons_append]
    rw [ih fun e h => above e (List.mem_cons_of_mem _ h)]

/-- Entries in ascending order are inserted behind one another. -/
theorem insertAll_entries {es : List (Bytes × PropertyValue)} {m : PropertyMap}
    (ascending : Ascending (m.entries ++ es)) : (m.insertAll es).entries = m.entries ++ es := by
  induction es generalizing m with
  | nil => exact (List.append_nil _).symm
  | cons e es ih =>
    have above : ∀ f ∈ m.entries, f.1 < e.1 := fun f h =>
      (List.pairwise_append.1 ascending).2.2 f h e (List.mem_cons_self ..)
    have inserted : (m.insert e.1 e.2).entries = m.entries ++ [e] := insertEntry_last above
    show ((m.insert e.1 e.2).insertAll es).entries = _
    rw [ih, inserted, List.append_assoc]
    · rfl
    · rw [inserted, List.append_assoc]
      exact ascending

theorem mem_insertAll {es : List (Bytes × PropertyValue)} {m : PropertyMap}
    {e : Bytes × PropertyValue} (h : e ∈ (m.insertAll es).entries) : e ∈ m.entries ∨ e ∈ es := by
  induction es generalizing m with
  | nil => exact .inl h
  | cons f es ih =>
    rcases ih (m := m.insert f.1 f.2) h with h | h
    · rcases PropertyMap.mem_insertEntry h with rfl | h
      · exact .inr (List.mem_cons_self ..)
      · exact .inl h
    · exact .inr (List.mem_cons_of_mem _ h)

theorem Entries.value {body : List Token} {entries : List (Property × PropertyValue)}
    (h : Entries body entries) : ∀ e ∈ entries, ∃ l, Value e.1 l e.2 := by
  induction h with
  | nil => nofun
  | cons value _ _ ih =>
    intro e member
    cases member with
    | head => exact ⟨_, value⟩
    | tail _ there => exact ih e there

theorem Block.settable {ts : List Token} {m : PropertyMap} (h : Block inline ts m) :
    ∀ e ∈ m.entries, Settable inline e := by
  obtain ⟨isEntries, -, inPlace⟩ := h
  intro e among
  rcases mem_insertAll among with h | h
  · cases h
  · obtain ⟨⟨p, v⟩, there, rfl⟩ := List.mem_map.1 h
    obtain ⟨l, value⟩ := isEntries.value _ there
    exact ⟨p, l, rfl, value, fun kind isInline => inPlace kind isInline _ there⟩

theorem Items.settable {body : List Token} {es : List Element} {bs : List StyleBlock}
    (h : Items body es bs) : ∀ b ∈ bs, ∀ e ∈ b.properties.entries, Settable none e := by
  induction h with
  | nil => nofun
  | content _ _ ih => exact ih
  | block isBlock _ ih => exact List.forall_mem_cons.2 ⟨isBlock.settable, ih⟩

theorem entryReadsBack_of_mem {m : PropertyMap} (back : ∀ v ∈ m.numbers, v.readsBack) :
    ∀ e ∈ m.entries, EntryReadsBack e := by
  intro e among v isNumber
  exact back v (List.mem_filterMap.2 ⟨e, among, by rw [isNumber]⟩)

/-- The text of a map that a block can set reads as a block that sets the same. -/
theorem block_reads {m : PropertyMap} (settable : ∀ e ∈ m.entries, Settable inline e)
    (back : ∀ v ∈ m.numbers, v.readsBack) :
    Reads m.text fun ts => ∃ n, Block inline ts n ∧ n.same m := by
  have read := (entries_read settable (entryReadsBack_of_mem back)).lexeme .leftBrace
    fun _ => trivial
  have whole : m.text
      = [123] ++ (joined (ascii ", ") (m.entries.map PropertyMap.entryText) ++ [125]) :=
    List.append_assoc ..
  rw [whole]
  apply read.imp
  intro ts parts
  obtain ⟨first, us, rfl, body, entries, last, rfl, isEntries, same, inPlace⟩ := parts
  -- The keys are those of the map, so they ascend and are distinct.
  have keys := PropertyMap.sameEntries_keys same
  have ascending : Ascending (entries.map fun e => (e.1.key, e.2)) := by
    have sorted := List.pairwise_map.2 m.ascending
    rw [← keys] at sorted
    exact List.pairwise_map.1 sorted
  have distinct : (entries.map Prod.fst).Nodup := by
    refine List.pairwise_map.2 ((List.pairwise_map.1 ascending).imp ?_)
    intro e f below equal
    exact List.lt_irrefl _ (equal ▸ below)
  refine ⟨mapOf entries, .mk isEntries distinct inPlace, ?_⟩
  have built : (mapOf entries).entries = entries.map fun e => (e.1.key, e.2) :=
    insertAll_entries ascending
  rw [PropertyMap.same, built]
  exact same

end Syntax

end SlideDeck
