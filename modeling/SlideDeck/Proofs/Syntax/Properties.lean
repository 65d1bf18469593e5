import SlideDeck.Proofs.Syntax.Reader

/-! # Reading blocks of properties

`Reader.properties` reads exactly the blocks of the grammar (`properties_eq_ok`).
A value is read where the grammar has one, a property where the grammar has an
entry for it, and a whole block by induction on the entries.

Where the bound on the number of properties runs out, the loop returns what it
has, which no rule of the grammar allows; it never does run out because every
property takes at least one token. -/

namespace SlideDeck.Syntax

open Reader

variable {s s' : Upcoming}

/-! ## Keys -/

@[simp] theorem ofKey?_key (p : Property) : Property.ofKey? p.key = some p := by
  cases p <;> rfl

theorem key_of_ofKey? {key : Bytes} {p : Property} (h : Property.ofKey? key = some p) :
    p.key = key := by
  simpa using List.find?_some h

theorem key_injective {p q : Property} (h : p.key = q.key) : p = q := by
  have denoted := ofKey?_key p
  rw [h, ofKey?_key] at denoted
  exact (Option.some.inj denoted).symm

@[simp] theorem contains_insert (m : PropertyMap) (key k : Bytes) (v : PropertyValue) :
    (m.insert key v).contains k = (decide (key = k) || m.contains k) := by
  by_cases equal : key = k <;> simp [PropertyMap.contains, equal]

/-! ## Values -/

theorem propertyValue_eq_ok {p : Property} {key : Bytes} {v : PropertyValue} :
    propertyValue p key s = .ok (v, s') ↔
      ∃ l place rest, s.tokens = ⟨l, place⟩ :: rest ∧ before s rest = s' ∧ Value p l v := by
  constructor
  · intro h
    cases tokens : s.tokens with
    | nil => simp [propertyValue, tokens, nextToken] at h
    | cons t rest =>
      obtain ⟨l, place⟩ := t
      refine ⟨l, place, rest, rfl, ?_⟩
      cases l with
      | number literal number =>
        simp only [propertyValue, bind_current, nextToken, tokens, List.head?_cons,
          Option.getD_some] at h
        -- The guards are the conditions of the production, in the order of the reader.
        split at h
        · cases h
        next notColour =>
        split at h
        · cases h
        next notNegative =>
        split at h
        · cases h
        next notZero =>
        rw [bind_advance, tokens] at h
        cases h
        have isNumber : p.valueType = .number := by
          cases type : p.valueType with
          | number => rfl
          | colour => exact absurd type notColour
        exact ⟨rfl, .number isNumber notNegative notZero⟩
      | string text =>
        simp only [propertyValue, bind_current, nextToken, tokens, List.head?_cons,
          Option.getD_some] at h
        split at h
        · cases h
        next notNumber =>
        have isColour : p.valueType = .colour := by
          cases type : p.valueType with
          | number => exact absurd type notNumber
          | colour => rfl
        cases colour : Colour.ofText? text with
        | none =>
          rw [colour] at h
          cases h
        | some c =>
          simp only [colour, bind_advance, tokens] at h
          cases h
          exact ⟨rfl, .colour isColour (colourText_iff.2 colour)⟩
      | _ => simp [propertyValue, tokens, nextToken] at h
  · intro parts
    obtain ⟨l, place, rest, tokens, rfl, value⟩ := parts
    cases value with
    | number isNumber notNegative notZero =>
      simp [propertyValue, nextToken, tokens, isNumber, notNegative, notZero]
    | colour isColour colour =>
      simp [propertyValue, nextToken, tokens, isColour, colourText_iff.1 colour]

/-! ## Entries -/

/-- What is read of a property after its key. -/
def valueInto (p : Property) (m : PropertyMap) : Reader PropertyMap := do
  skip .colon (.ascii "':' after " ++ Bytes.apostrophed p.key)
  let v ← propertyValue p p.key
  if ← isNext .comma then advance
  return m.insert p.key v

theorem property_key {inline : Option Kind} {p : Property} {m : PropertyMap} {first : Position}
    {more : List Token} (tokens : s.tokens = ⟨.identifier p.key, first⟩ :: more)
    (allowed : ∀ kind ∈ inline, p ∈ kind.inlineProperties) (new : m.contains p.key = false) :
    property inline m s = valueInto p m (before s more) := by
  cases inline with
  | none => simp [property, valueInto, nextToken, tokens, new]
  | some kind => simp [property, valueInto, nextToken, tokens, new, allowed kind rfl]

theorem property_sound_key {inline : Option Kind} {m m' : PropertyMap}
    (h : property inline m s = .ok (m', s')) :
    ∃ p first more, s.tokens = ⟨.identifier p.key, first⟩ :: more ∧
      (∀ kind ∈ inline, p ∈ kind.inlineProperties) ∧ m.contains p.key = false := by
  cases tokens : s.tokens with
  | nil => simp [property, tokens, nextToken] at h
  | cons t more =>
    obtain ⟨l, first⟩ := t
    cases l with
    | identifier key =>
      cases known : Property.ofKey? key with
      | none => simp [property, tokens, nextToken, known] at h
      | some p =>
        have isKey := key_of_ofKey? known
        subst isKey
        have allowed : ∀ kind ∈ inline, p ∈ kind.inlineProperties := by
          rintro kind rfl
          apply Decidable.byContradiction
          intro misplaced
          simp [property, tokens, nextToken, misplaced] at h
        refine ⟨p, first, more, rfl, allowed, ?_⟩
        cases repeated : m.contains p.key with
        | false => rfl
        | true =>
          cases inline with
          | none => simp [property, tokens, nextToken, repeated] at h
          | some kind => simp [property, tokens, nextToken, repeated, allowed kind rfl] at h
    | _ => simp [property, tokens, nextToken] at h

theorem valueInto_eq_ok {p : Property} {m m' : PropertyMap} :
    valueInto p m s = .ok (m', s') ↔
      ∃ l v second third comma rest,
        s.tokens = ⟨.colon, second⟩ :: ⟨l, third⟩ :: (comma ++ rest) ∧ Value p l v ∧
        OptionalComma comma ∧ (comma = [] → nextLexeme rest ≠ .comma) ∧
        m' = m.insert p.key v ∧ s' = before s rest := by
  rw [valueInto]
  constructor
  · intro h
    obtain ⟨_, s₁, colon, h⟩ := bind_eq_ok.1 h
    obtain ⟨next, rfl⟩ := skip_eq_ok.1 colon
    obtain ⟨second, more, tokens⟩ := exists_next next nofun
    obtain ⟨v, s₂, read, h⟩ := bind_eq_ok.1 h
    obtain ⟨l, third, rest, tokens', rfl, value⟩ := propertyValue_eq_ok.1 read
    simp only [before_tokens, tokens, List.drop_one, List.tail_cons] at tokens'
    subst tokens'
    rw [bind_isNext] at h
    -- A comma that follows is always taken, so an entry without one has none behind it.
    by_cases isComma : nextLexeme rest = .comma
    · obtain ⟨place, rest, rfl⟩ := exists_next isComma nofun
      simp at h
      obtain ⟨rfl, rfl⟩ := h
      exact ⟨l, v, second, third, [⟨.comma, place⟩], rest, tokens, value, .present, nofun, rfl,
        rfl⟩
    · simp [isComma] at h
      obtain ⟨rfl, rfl⟩ := h
      exact ⟨l, v, second, third, [], rest, tokens, value, .absent, fun _ => isComma, rfl, rfl⟩
  · intro parts
    obtain ⟨l, v, second, third, comma, rest, tokens, value, optional, noComma, rfl, rfl⟩ := parts
    have colon : nextLexeme s.tokens = .colon := by rw [tokens]; rfl
    rw [bind_of_ok (skip_eq_ok (u := ()).2 ⟨colon, rfl⟩),
      bind_of_ok (propertyValue_eq_ok.2
        ⟨l, third, comma ++ rest, by simp [tokens], rfl, value⟩)]
    cases optional with
    | absent => simp [noComma rfl]
    | present => simp

/-- A property that is read is an entry of the grammar, new to the map. -/
theorem property_sound {inline : Option Kind} {m m' : PropertyMap}
    (h : property inline m s = .ok (m', s')) :
    ∃ p l v first second third comma rest,
      s.tokens = ⟨.identifier p.key, first⟩ :: ⟨.colon, second⟩ :: ⟨l, third⟩ :: (comma ++ rest) ∧
        Value p l v ∧ OptionalComma comma ∧ (∀ kind ∈ inline, p ∈ kind.inlineProperties) ∧
        m.contains p.key = false ∧ m' = m.insert p.key v ∧ s' = before s rest := by
  obtain ⟨p, first, more, tokens, allowed, new⟩ := property_sound_key h
  rw [property_key tokens allowed new] at h
  obtain ⟨l, v, second, third, comma, rest, rfl, value, optional, -, rfl, rfl⟩ :=
    valueInto_eq_ok.1 h
  exact ⟨p, l, v, first, second, third, comma, rest, tokens, value, optional, allowed, new, rfl,
    rfl⟩

/-! ## Blocks -/

/-- The map with some properties inserted in turn. -/
def insertEntries (m : PropertyMap) (entries : List (Property × PropertyValue)) : PropertyMap :=
  m.insertAll (entries.map fun e => (e.1.key, e.2))

theorem Entries.next_not_comma {body rest : List Token} {last : Position}
    {entries : List (Property × PropertyValue)} (h : Entries body entries) :
    nextLexeme (body ++ ⟨.rightBrace, last⟩ :: rest) ≠ .comma := by
  cases h <;> nofun

theorem propertiesInto_sound {inline : Option Kind} {n : Nat} {m m' : PropertyMap}
    (enough : s.tokens.length < n) (h : propertiesInto inline n m s = .ok (m', s')) :
    ∃ body entries last rest, s.tokens = body ++ ⟨.rightBrace, last⟩ :: rest ∧
      Entries body entries ∧ (entries.map Prod.fst).Nodup ∧
      (∀ e ∈ entries, m.contains e.1.key = false) ∧
      (∀ kind ∈ inline, ∀ e ∈ entries, e.1 ∈ kind.inlineProperties) ∧
      m' = insertEntries m entries ∧ s' = before s rest := by
  -- The map so far is general: a property is new if none before it has its key.
  induction n generalizing s m with
  | zero => cases enough
  | succ n ih =>
    rw [propertiesInto] at h
    rw [bind_isNext] at h
    by_cases closing : nextLexeme s.tokens = .rightBrace
    · obtain ⟨last, rest, tokens⟩ := exists_next closing nofun
      simp only [closing, decide_true, if_true] at h
      rw [bind_advance, tokens] at h
      cases h
      exact ⟨[], [], last, rest, tokens, .nil, .nil, nofun, nofun, rfl, rfl⟩
    · simp only [closing, decide_false, Bool.false_eq_true, if_false] at h
      obtain ⟨m₁, s₁, read, h⟩ := bind_eq_ok.1 h
      obtain ⟨p, l, v, first, second, third, comma, rest, tokens, value, optional, allowed, new,
        rfl, rfl⟩ := property_sound read
      have shorter : (before s rest).tokens.length < n := by
        simp only [before_tokens]
        simp only [tokens, List.length_cons, List.length_append] at enough
        omega
      obtain ⟨body, entries, last, rest', tokens', isEntries, distinct, fresh, inPlace, rfl, rfl⟩ :=
        ih shorter h
      simp only [before_tokens] at tokens'
      subst tokens'
      have others : ∀ e ∈ entries, p.key ≠ e.1.key ∧ m.contains e.1.key = false := by
        intro e member
        simpa using fresh e member
      have isEntry := @Entries.cons _ _ _ _ _ _ first second third value optional isEntries
      refine ⟨_, (p, v) :: entries, last, rest', ?_, isEntry, ?_, ?_, ?_, rfl, rfl⟩
      · simp [tokens]
      · refine List.nodup_cons.2 ⟨fun member => ?_, distinct⟩
        obtain ⟨e, there, equal⟩ := List.mem_map.1 member
        exact (others e there).1 (congrArg Property.key equal.symm)
      · intro e member
        cases member with
        | head => exact new
        | tail _ there => exact (others e there).2
      · intro kind isInline e member
        cases member with
        | head => exact allowed kind isInline
        | tail _ there => exact inPlace kind isInline e there

theorem propertiesInto_complete {inline : Option Kind} {body : List Token}
    {entries : List (Property × PropertyValue)} (isEntries : Entries body entries) :
    ∀ {s : Upcoming} {n : Nat} {m : PropertyMap} {last : Position} {rest : List Token},
      s.tokens = body ++ ⟨.rightBrace, last⟩ :: rest → s.tokens.length < n →
      (entries.map Prod.fst).Nodup → (∀ e ∈ entries, m.contains e.1.key = false) →
      (∀ kind ∈ inline, ∀ e ∈ entries, e.1 ∈ kind.inlineProperties) →
      propertiesInto inline n m s = .ok (insertEntries m entries, before s rest) := by
  -- The state and the map change with every entry, so both are general.
  induction isEntries with
  | nil =>
    intro s n m last rest tokens enough _ _ _
    obtain ⟨n, rfl⟩ := Nat.exists_eq_succ_of_ne_zero (Nat.ne_zero_of_lt enough)
    rw [List.nil_append] at tokens
    simp [propertiesInto, tokens, insertEntries, PropertyMap.insertAll]
  | @cons p l v comma more entries first second third value optional isEntries ih =>
    intro s n m last rest tokens enough distinct fresh inPlace
    obtain ⟨n, rfl⟩ := Nat.exists_eq_succ_of_ne_zero (Nat.ne_zero_of_lt enough)
    obtain ⟨notAmong, distinct⟩ := List.nodup_cons.1 distinct
    have new : m.contains p.key = false := fresh (p, v) (List.mem_cons_self ..)
    have allowed : ∀ kind ∈ inline, p ∈ kind.inlineProperties :=
      fun kind isInline => inPlace kind isInline (p, v) (List.mem_cons_self ..)
    simp only [List.cons_append, List.append_assoc] at tokens
    have read : property inline m s
        = .ok (m.insert p.key v, before s (more ++ ⟨.rightBrace, last⟩ :: rest)) := by
      rw [property_key tokens allowed new]
      exact valueInto_eq_ok.2 ⟨l, v, second, third, comma, _, rfl, value, optional,
        fun _ => isEntries.next_not_comma, rfl, rfl⟩
    have notClosing : nextLexeme s.tokens ≠ .rightBrace := by
      rw [tokens]
      nofun
    rw [propertiesInto]
    rw [bind_isNext]
    simp only [notClosing, decide_false, Bool.false_eq_true, if_false]
    rw [bind_of_ok read, ih rfl ?_ distinct ?_ ?_]
    · rfl
    · simp only [tokens, List.length_cons, List.length_append] at enough
      simp only [before_tokens, List.length_append, List.length_cons]
      omega
    · intro e there
      -- Properties with different names have different keys.
      have different : p.key ≠ e.1.key := fun equal =>
        notAmong (List.mem_map.2 ⟨e, there, (key_injective equal).symm⟩)
      simpa [different] using fresh e (List.mem_cons_of_mem _ there)
    · exact fun kind isInline e there => inPlace kind isInline e (List.mem_cons_of_mem _ there)

/-- A block of properties is read exactly where the grammar has one. -/
theorem properties_eq_ok {inline : Option Kind} {m : PropertyMap} :
    properties inline s = .ok (m, s') ↔
      ∃ ts rest, s.tokens = ts ++ rest ∧ Block inline ts m ∧ s' = before s rest := by
  rw [properties]
  constructor
  · intro h
    obtain ⟨_, s₁, opening, h⟩ := bind_eq_ok.1 h
    obtain ⟨next, rfl⟩ := skip_eq_ok.1 opening
    obtain ⟨first, more, tokens⟩ := exists_next next nofun
    rw [bind_limit] at h
    obtain ⟨body, entries, last, rest, tokens', isEntries, distinct, -, inPlace, rfl, rfl⟩ :=
      propertiesInto_sound (Nat.lt_succ_self _) h
    simp only [before_tokens, tokens, List.drop_one, List.tail_cons] at tokens'
    subst tokens'
    exact ⟨⟨.leftBrace, first⟩ :: (body ++ [⟨.rightBrace, last⟩]), rest, by simp [tokens],
      .mk isEntries distinct inPlace, rfl⟩
  · intro parts
    obtain ⟨ts, rest, tokens, ⟨isEntries, distinct, inPlace⟩, rfl⟩ := parts
    simp only [List.cons_append, List.append_assoc, List.nil_append] at tokens
    have opening : nextLexeme s.tokens = .leftBrace := by rw [tokens]; rfl
    rw [bind_of_ok (skip_eq_ok (u := ()).2 ⟨opening, rfl⟩), bind_limit,
      propertiesInto_complete isEntries (by rw [tokens]; rfl) (Nat.lt_succ_self _) distinct
        (fun _ _ => rfl) inPlace]
    rfl

end SlideDeck.Syntax
