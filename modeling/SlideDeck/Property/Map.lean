import SlideDeck.Property.Basic

/-! # Property maps

A property map holds at most one value per key, in ascending order of keys.
Keys are arbitrary texts here; which of them a source may set is a matter of
its grammar.

The order is part of the type.  The entries are strictly ascending, so a map is
determined by its view `get?`, and merging maps is right-biased union under that
view. -/

namespace SlideDeck

/-- Entries in strictly ascending order of their keys. -/
def Ascending (entries : List (Bytes × PropertyValue)) : Prop :=
  entries.Pairwise fun a b => a.1 < b.1

/-- Values by key, in ascending order of keys. -/
structure PropertyMap where
  entries : List (Bytes × PropertyValue)
  ascending : Ascending entries := by exact .nil

namespace PropertyMap

/-! ## Entries -/

/-- The entries with one more, in its place; an entry under the same key gives way. -/
def insertEntry (key : Bytes) (value : PropertyValue) :
    List (Bytes × PropertyValue) → List (Bytes × PropertyValue)
  | [] => [(key, value)]
  | (other, old) :: rest =>
      if key < other then (key, value) :: (other, old) :: rest
      else if key = other then (key, value) :: rest
      else (other, old) :: insertEntry key value rest

/-- The value of the first entry under a key. -/
def lookupEntry (key : Bytes) : List (Bytes × PropertyValue) → Option PropertyValue
  | [] => none
  | (other, value) :: rest => if other = key then some value else lookupEntry key rest

theorem mem_insertEntry {key : Bytes} {value : PropertyValue} {e : Bytes × PropertyValue} :
    ∀ {entries : List (Bytes × PropertyValue)},
      e ∈ insertEntry key value entries → e = (key, value) ∨ e ∈ entries
  | [], h => by simpa [insertEntry] using h
  | (other, old) :: rest, h => by
    unfold insertEntry at h
    split at h
    · simpa using h
    · split at h
      · rcases List.mem_cons.1 h with h | h
        · exact .inl h
        · exact .inr (List.mem_cons_of_mem _ h)
      · rcases List.mem_cons.1 h with h | h
        · exact .inr (h ▸ List.mem_cons_self ..)
        · rcases mem_insertEntry h with h | h
          · exact .inl h
          · exact .inr (List.mem_cons_of_mem _ h)

/-- Two texts of which neither comes first are equal. -/
theorem eq_of_not_lt {a b : Bytes} (h : ¬ a < b) (h' : ¬ b < a) : a = b :=
  List.le_antisymm h' h

theorem ascending_insertEntry {key : Bytes} {value : PropertyValue} :
    ∀ {entries : List (Bytes × PropertyValue)},
      Ascending entries → Ascending (insertEntry key value entries)
  | [], _ => List.pairwise_singleton ..
  | (other, old) :: rest, h => by
    obtain ⟨above, tail⟩ := List.pairwise_cons.1 h
    unfold insertEntry
    split
    · rename_i before
      refine List.pairwise_cons.2 ⟨fun e he => ?_, h⟩
      rcases List.mem_cons.1 he with rfl | he
      · exact before
      · exact List.lt_trans before (above e he)
    · rename_i notBefore
      split
      · rename_i equal
        exact List.pairwise_cons.2 ⟨fun e he => equal ▸ above e he, tail⟩
      · rename_i different
        refine List.pairwise_cons.2 ⟨fun e he => ?_, ascending_insertEntry tail⟩
        rcases mem_insertEntry he with rfl | he
        · exact Decidable.byContradiction fun h => different (eq_of_not_lt notBefore h)
        · exact above e he

/-! ## Operations -/

/-- The map without entries. -/
def empty : PropertyMap := { entries := [] }

instance : EmptyCollection PropertyMap := ⟨empty⟩

instance : Inhabited PropertyMap := ⟨empty⟩

@[ext] theorem ext {m n : PropertyMap} (h : m.entries = n.entries) : m = n := by
  cases m; cases n; cases h; rfl

instance : DecidableEq PropertyMap := fun m n =>
  decidable_of_iff (m.entries = n.entries) ⟨ext, fun h => h ▸ rfl⟩

def get? (m : PropertyMap) (key : Bytes) : Option PropertyValue :=
  lookupEntry key m.entries

def contains (m : PropertyMap) (key : Bytes) : Bool :=
  (m.get? key).isSome

/-- The map with a value under a key, in the place of any earlier one. -/
def insert (m : PropertyMap) (key : Bytes) (value : PropertyValue) : PropertyMap :=
  ⟨insertEntry key value m.entries, ascending_insertEntry m.ascending⟩

def insertAll (m : PropertyMap) (entries : List (Bytes × PropertyValue)) : PropertyMap :=
  entries.foldl (fun m e => m.insert e.1 e.2) m

/-- The map of some entries, of which a later one replaces an earlier one under the same key. -/
def ofList (entries : List (Bytes × PropertyValue)) : PropertyMap :=
  empty.insertAll entries

/-- The union of two maps; the second decides where both have a value. -/
def merge (base overrides : PropertyMap) : PropertyMap :=
  base.insertAll overrides.entries

def number? (m : PropertyMap) (key : Bytes) : Option Binary64 :=
  match m.get? key with
  | some (.number v) => some v
  | _ => none

def colour? (m : PropertyMap) (key : Bytes) : Option Colour :=
  match m.get? key with
  | some (.colour c) => some c
  | _ => none

def sameEntries : List (Bytes × PropertyValue) → List (Bytes × PropertyValue) → Bool
  | [], [] => true
  | (k, v) :: rest, (l, w) :: rest' => k == l && v.same w && sameEntries rest rest'
  | _, _ => false

/-- Equality of maps, with numbers compared as numbers. -/
def same (m n : PropertyMap) : Bool :=
  sameEntries m.entries n.entries

/-- A map as a source has it, between braces. -/
def text (m : PropertyMap) : Bytes :=
  .ascii "\x7b"
    ++ Bytes.joined (.ascii ", ") (m.entries.map fun e => e.1 ++ .ascii ": " ++ e.2.text)
    ++ .ascii "\x7d"

/-! ## The view -/

theorem lookupEntry_insertEntry (key k : Bytes) (value : PropertyValue) :
    ∀ entries : List (Bytes × PropertyValue),
      lookupEntry k (insertEntry key value entries)
        = if key = k then some value else lookupEntry k entries
  | [] => by simp [insertEntry, lookupEntry]
  | (other, old) :: rest => by
    unfold insertEntry
    split
    · simp [lookupEntry]
    · split
      · rename_i equal
        by_cases h : key = k <;> simp [lookupEntry, h, ← equal]
      · rename_i different
        by_cases h : other = k
        · have : key ≠ k := fun e => different (e.trans h.symm)
          simp [lookupEntry, h, this]
        · simp [lookupEntry, h, lookupEntry_insertEntry key k value rest]

@[simp] theorem get?_insert (m : PropertyMap) (key k : Bytes) (value : PropertyValue) :
    (m.insert key value).get? k = if key = k then some value else m.get? k :=
  lookupEntry_insertEntry key k value m.entries

/-- A key before all those of some entries is not among them. -/
theorem lookupEntry_eq_none {key : Bytes} :
    ∀ {entries : List (Bytes × PropertyValue)}, (∀ e ∈ entries, key < e.1) →
      lookupEntry key entries = none
  | [], _ => rfl
  | (other, value) :: rest, h => by
    have different : other ≠ key := fun equal =>
      List.lt_irrefl key (equal ▸ h (other, value) (List.mem_cons_self ..))
    simp only [lookupEntry, different, if_false]
    exact lookupEntry_eq_none fun e he => h e (List.mem_cons_of_mem _ he)

theorem mem_of_lookupEntry {key : Bytes} {v : PropertyValue}
    {entries : List (Bytes × PropertyValue)} (h : lookupEntry key entries = some v) :
    (key, v) ∈ entries := by
  induction entries with
  | nil => cases h
  | cons e rest ih =>
    obtain ⟨other, value⟩ := e
    rw [lookupEntry] at h
    split at h
    · next equal =>
      cases h
      exact equal ▸ List.mem_cons_self ..
    · exact List.mem_cons_of_mem _ (ih h)

/-- Entries in order begin with their smallest key. -/
theorem not_lt_of_lookupEntry {key first : Bytes} {v w : PropertyValue}
    {rest : List (Bytes × PropertyValue)} (h : Ascending ((first, w) :: rest))
    (found : lookupEntry key ((first, w) :: rest) = some v) : ¬ key < first := by
  intro before
  have above := (List.pairwise_cons.1 h).1
  rw [lookupEntry_eq_none] at found
  · cases found
  · intro e among
    rcases List.mem_cons.1 among with rfl | among
    · exact before
    · exact List.lt_trans before (above e among)

/-- Entries in order are the only ones with their values. -/
theorem eq_of_lookupEntry :
    ∀ {entries others : List (Bytes × PropertyValue)}, Ascending entries → Ascending others →
      (∀ key, lookupEntry key entries = lookupEntry key others) → entries = others
  | [], [], _, _, _ => rfl
  | [], (key, value) :: others, _, _, same => by simpa [lookupEntry] using same key
  | (key, value) :: entries, [], _, _, same => by simpa [lookupEntry] using same key
  | (key, value) :: entries, (key', value') :: others, h, h', same => by
    obtain ⟨above, tail⟩ := List.pairwise_cons.1 h
    obtain ⟨above', tail'⟩ := List.pairwise_cons.1 h'
    have here : lookupEntry key ((key, value) :: entries) = some value := by simp [lookupEntry]
    have there : lookupEntry key' ((key', value') :: others) = some value' := by simp [lookupEntry]
    have equal : key = key' := eq_of_not_lt (not_lt_of_lookupEntry h' ((same key).symm.trans here))
      (not_lt_of_lookupEntry h ((same key').trans there))
    subst equal
    have value : value = value' := Option.some.inj (here.symm.trans ((same key).trans there))
    subst value
    rw [eq_of_lookupEntry tail tail' fun k => ?_]
    by_cases isFirst : key = k
    · subst isFirst
      rw [lookupEntry_eq_none above, lookupEntry_eq_none above']
    · simpa [lookupEntry, isFirst] using same k

/-- A map is determined by its view. -/
theorem ext_get? {m n : PropertyMap} (same : ∀ key, m.get? key = n.get? key) : m = n :=
  ext (eq_of_lookupEntry m.ascending n.ascending same)

theorem get?_insertAll (k : Bytes) :
    ∀ {entries : List (Bytes × PropertyValue)} (m : PropertyMap), Ascending entries →
      (m.insertAll entries).get? k = (lookupEntry k entries).or (m.get? k)
  | [], m, _ => rfl
  | (key, value) :: rest, m, h => by
    obtain ⟨above, tail⟩ := List.pairwise_cons.1 h
    show ((m.insert key value).insertAll rest).get? k = _
    rw [get?_insertAll k (m.insert key value) tail, get?_insert]
    by_cases equal : key = k
    · subst equal
      simp [lookupEntry, lookupEntry_eq_none above]
    · simp [lookupEntry, equal]

/-- The union of two maps has the value of the second one where there is one. -/
@[simp] theorem get?_merge (base overrides : PropertyMap) (k : Bytes) :
    (base.merge overrides).get? k = (overrides.get? k).or (base.get? k) :=
  get?_insertAll k base overrides.ascending

end PropertyMap

end SlideDeck
