import SlideDeck.Cascade.Resolved
import SlideDeck.Proofs.Equality.Equivalence

/-! # Resolving slides that are equal

Slides that are equal up to positions are resolved to the same size, margin,
background and ignored targets and to equal properties of their elements, or
are refused because of the same target (`Slide.resolve_same`).

* `PropertyMap.merge_same`, `cascade_same` and `Slide.elementStyle_same`: each
  way of putting maps together respects equality.
* `Element.flatten_twins`: the elements of equal trees in pre-order are twins,
  that is, they agree on all that resolving looks at.
* `ResolvedSlide.Same` is what two resolved slides have in common then.

A later layer replaces the value of an earlier one, so it can put one zero in the
place of another.  Equality of the results needs no more than equality of the
layers, taken place by place. -/

namespace SlideDeck

open Syntax

/-! ## Property maps -/

theorem Binary64.zeroBlind_wholePixels : ZeroBlind wholePixels := by
  have whole (negative : Bool) :
      (signedZero negative).wholePixels = min ((signedZero negative).floor?.getD 0) pixelCap := rfl
  rw [ZeroBlind, whole, whole, floor?, floor?, units?_signedZero, units?_signedZero]

namespace PropertyMap

variable {m n : PropertyMap} {key : Bytes} {v w : PropertyValue}

theorem forall₂_insertEntry (values : v.same w) {es fs : List (Bytes × PropertyValue)}
    (h : List.Forall₂ SameEntry es fs) :
    List.Forall₂ SameEntry (insertEntry key v es) (insertEntry key w fs) := by
  induction h with
  | nil => exact .cons ⟨rfl, values⟩ .nil
  | @cons e f es fs first rest ih =>
    obtain ⟨other, old⟩ := e
    obtain ⟨other', old'⟩ := f
    obtain ⟨keys, olds⟩ := first
    obtain rfl : other = other' := keys
    rw [insertEntry, insertEntry]
    by_cases before : key < other
    · rw [if_pos before, if_pos before]
      exact .cons ⟨rfl, values⟩ (.cons ⟨rfl, olds⟩ rest)
    rw [if_neg before, if_neg before]
    by_cases here : key = other
    · rw [if_pos here, if_pos here]
      exact .cons ⟨rfl, values⟩ rest
    · rw [if_neg here, if_neg here]
      exact .cons ⟨rfl, olds⟩ ih

theorem insert_same (h : m.same n) (values : v.same w) :
    (m.insert key v).same (n.insert key w) :=
  sameEntries_iff.2 (forall₂_insertEntry values (sameEntries_iff.1 h))

theorem insertAll_same {es fs : List (Bytes × PropertyValue)} (h : m.same n)
    (entries : List.Forall₂ SameEntry es fs) : (m.insertAll es).same (n.insertAll fs) := by
  refine List.rel_foldl (P := fun m n : PropertyMap => m.same n) ?_ h entries
  rintro m n maps ⟨key, v⟩ ⟨key', w⟩ ⟨keys, values⟩
  obtain rfl : key = key' := keys
  exact insert_same maps values

theorem merge_same {m' n' : PropertyMap} (h : m.same n) (h' : m'.same n') :
    (m.merge m').same (n.merge n') :=
  insertAll_same h (sameEntries_iff.1 h')

theorem lookupEntry_same (key : Bytes) {es fs : List (Bytes × PropertyValue)}
    (h : List.Forall₂ SameEntry es fs) :
    Option.Rel (fun v w => v.same w) (lookupEntry key es) (lookupEntry key fs) := by
  induction h with
  | nil => exact .none
  | @cons e f es fs first rest ih =>
    obtain ⟨other, old⟩ := e
    obtain ⟨other', old'⟩ := f
    obtain ⟨keys, olds⟩ := first
    obtain rfl : other = other' := keys
    rw [lookupEntry, lookupEntry]
    by_cases here : other = key
    · rw [if_pos here, if_pos here]
      exact .some olds
    · rw [if_neg here, if_neg here]
      exact ih

theorem get?_same (h : m.same n) (key : Bytes) :
    Option.Rel (fun v w => v.same w) (m.get? key) (n.get? key) :=
  lookupEntry_same key (sameEntries_iff.1 h)

theorem number?_same (h : m.same n) (key : Bytes) :
    Option.Rel (fun v w => v.same w) (m.number? key) (n.number? key) := by
  have values := get?_same h key
  rw [number?, number?]
  generalize m.get? key = v?, n.get? key = w? at values
  cases values with
  | none => exact .none
  | @some v w values =>
    cases v <;> cases w
    case number.number => exact .some values
    case colour.colour => exact .none
    all_goals cases values

theorem colour?_of_same (h : m.same n) (key : Bytes) : m.colour? key = n.colour? key := by
  have values := get?_same h key
  rw [colour?, colour?]
  generalize m.get? key = v?, n.get? key = w? at values
  cases values with
  | none => rfl
  | @some v w values =>
    cases v <;> cases w
    case number.number => rfl
    case colour.colour c d =>
      have colours : c = d := by simpa [PropertyValue.same] using values
      rw [colours]
    all_goals cases values

/-- What is computed from the number under a key is the same if it does not depend on the sign of
a zero. -/
theorem map_number?_of_same {α : Type} {f : Binary64 → α} (blind : Binary64.ZeroBlind f)
    (h : m.same n) (key : Bytes) : (m.number? key).map f = (n.number? key).map f := by
  have numbers := number?_same h key
  generalize m.number? key = v?, n.number? key = w? at numbers
  cases numbers with
  | none => rfl
  | some numbers => exact congrArg some (blind.eq_of_same numbers)

theorem pixelsOr_of_same (h : m.same n) (key : Property) (fallback : Int) :
    m.pixelsOr key fallback = n.pixelsOr key fallback := by
  have whole : ∀ m : PropertyMap,
      m.pixelsOr key fallback = ((m.number? key.key).map Binary64.wholePixels).getD fallback := by
    intro m
    rw [pixelsOr]
    cases m.number? key.key <;> rfl
  rw [whole, whole, map_number?_of_same Binary64.zeroBlind_wholePixels h]

end PropertyMap

theorem cascade_same {layers layers' : List (Option PropertyMap)}
    (h : List.Forall₂ (Option.Rel fun m n => m.same n) layers layers') :
    (cascade layers).same (cascade layers') := by
  refine List.rel_foldl (P := fun m n : PropertyMap => m.same n) ?_ rfl h
  intro m n maps layer layer' overrides
  cases overrides with
  | none => exact maps
  | some overrides => exact PropertyMap.merge_same maps overrides

theorem Binary64.same_ofNat (n : Nat) : (ofNat n).same (ofNat n) := by
  rw [same_self_iff, ofNat, ofQuotient, ofUnits]
  split <;> nofun

/-- Every default is a colour or a number, so the defaults equal themselves. -/
theorem defaultProperties_same (v : Viewport) :
    (defaultProperties v).same (defaultProperties v) := by
  have number (n : Nat) : (PropertyValue.number (.ofNat n)).same (.number (.ofNat n)) :=
    Binary64.same_ofNat n
  apply PropertyMap.insertAll_same rfl
  exact .cons ⟨rfl, number _⟩ <| .cons ⟨rfl, number _⟩ <| .cons ⟨rfl, rfl⟩ <|
    .cons ⟨rfl, number _⟩ <| .cons ⟨rfl, rfl⟩ <| .cons ⟨rfl, number _⟩ <| .cons ⟨rfl, rfl⟩ .nil

/-! ## Elements -/

/-- Elements that agree on all that their properties depend on. -/
structure Element.Twin (e f : Element) : Prop where
  id : e.id = f.id
  name : e.name = f.name
  kind : e.kind = f.kind
  params : e.attributes.params.same f.attributes.params

namespace Element

theorem twin_of_same {e f : Element} (kinds : e.kind = f.kind)
    (h : sameAttributes e.attributes f.attributes) : e.Twin f := by
  obtain ⟨ids, names, params⟩ := sameAttributes_iff.1 h
  exact ⟨ids, names, kinds, params⟩

mutual

theorem flatten_twins {e f : Element} (h : e.same f) :
    List.Forall₂ Twin e.flatten f.flatten := by
  cases e with
  | hole =>
    obtain rfl := same_hole.1 h
    exact .nil
  | text a value =>
    obtain ⟨b, rfl, attributes⟩ := same_text.1 h
    exact .cons (twin_of_same rfl attributes) .nil
  | centre a child =>
    obtain ⟨b, other, rfl, attributes, below⟩ := same_centre.1 h
    exact .cons (twin_of_same rfl attributes) (flatten_twins below)
  | padding a child =>
    obtain ⟨b, other, rfl, attributes, below⟩ := same_padding.1 h
    exact .cons (twin_of_same rfl attributes) (flatten_twins below)
  | stack a axis children =>
    obtain ⟨b, others, rfl, attributes, below⟩ := same_stack.1 h
    exact .cons (twin_of_same rfl attributes) (flattenAll_twins below)

theorem flattenAll_twins {es fs : List Element} (h : sameAll es fs) :
    List.Forall₂ Twin (flattenAll es) (flattenAll fs) := by
  cases es <;> cases fs
  case nil.nil => exact .nil
  case cons.cons e es f fs =>
    simp only [sameAll, Bool.and_eq_true] at h
    exact List.rel_append (flatten_twins h.1) (flattenAll_twins h.2)
  all_goals cases h

end

theorem findNamed?_isNone (e : Element) (name : Bytes) :
    (e.findNamed? name).isNone ↔ name ∉ namesOf e.flatten := by
  simp [findNamed?, namesOf]

theorem findNamed?_isNone_of_same {e f : Element} (h : e.same f) (name : Bytes) :
    (e.findNamed? name).isNone = (f.findNamed? name).isNone := by
  rw [Bool.eq_iff_iff, findNamed?_isNone, findNamed?_isNone,
    names_of_labels (alike_of_same h).labels]

end Element

/-! ## Slides -/

theorem forall₂_set {α : Type} {R : α → α → Prop} {as bs : List α} {a b : α}
    (h : List.Forall₂ R as bs) (new : R a b) (i : Nat) :
    List.Forall₂ R (as.set i a) (bs.set i b) := by
  induction h generalizing i with
  | nil => exact .nil
  | cons first rest ih =>
    cases i with
    | zero => exact .cons new rest
    | succ i => exact .cons first (ih i)

/-- Lists of maps that are equal place by place. -/
abbrev SameMaps : List PropertyMap → List PropertyMap → Prop :=
  List.Forall₂ fun m n => m.same n

theorem sameMaps_replicate (n : Nat) :
    SameMaps (List.replicate n ∅) (List.replicate n ∅) := by
  apply List.forall₂_same.2
  intro m among
  rw [List.eq_of_mem_replicate among]
  rfl

theorem placed_same {styles styles' : List PropertyMap} {style style' : PropertyMap}
    (h : SameMaps styles styles') (new : style.same style') (index : Nat) :
    SameMaps (placed styles index style) (placed styles' index style') := by
  rw [placed, placed, h.length_eq]
  split
  · exact forall₂_set h new index
  · exact List.rel_append (List.rel_append h (sameMaps_replicate _)) (.cons new .nil)

namespace Slide

variable {a b : Slide} (h : a.same b)
include h

theorem layer?_same (target : Bytes) :
    Option.Rel (fun m n => m.same n) (a.layer? target) (b.layer? target) := by
  obtain ⟨-, blocks, -⟩ := same_iff.1 h
  rw [StyleBlock.sameAll_iff] at blocks
  rw [layer?, layer?, findStyle?, findStyle?]
  generalize a.styles = bs, b.styles = cs at blocks
  induction blocks with
  | nil => exact .none
  | @cons b c bs cs first rest ih =>
    obtain ⟨targets, properties⟩ := StyleBlock.same_iff.1 first
    rw [List.find?_cons, List.find?_cons, targets]
    cases decide (c.target = target) with
    | true => exact .some properties
    | false => exact ih

theorem ownStyle_same (v : Viewport) :
    (a.ownStyle (defaultProperties v)).same (b.ownStyle (defaultProperties v)) :=
  cascade_same (.cons (.some (defaultProperties_same v)) (.cons (layer?_same h _) .nil))

theorem elementStyle_same {e f : Element} (twins : e.Twin f) (v : Viewport) :
    (a.elementStyle e (defaultProperties v)).same (b.elementStyle f (defaultProperties v)) := by
  have named : Option.Rel (fun m n => m.same n) (e.name.bind a.layer?) (f.name.bind b.layer?) := by
    rw [twins.name]
    cases f.name with
    | none => exact .none
    | some name => exact layer?_same h name
  rw [elementStyle, elementStyle, twins.kind]
  apply cascade_same
  exact .cons (.some (defaultProperties_same v)) <| .cons (layer?_same h _) <|
    .cons (layer?_same h _) <| .cons named <| .cons (.some twins.params) .nil

theorem nodeStyles_same (v : Viewport) :
    SameMaps (a.nodeStyles (defaultProperties v)) (b.nodeStyles (defaultProperties v)) := by
  have twins := Element.flatten_twins (same_iff.1 h).2.2
  rw [nodeStyles, nodeStyles, twins.length_eq]
  refine List.rel_foldl (P := SameMaps) ?_ (sameMaps_replicate _) twins
  intro styles styles' maps e f twin
  simp only [twin.id]
  exact placed_same maps (elementStyle_same h twin v) _

theorem unmatchedBlocks_same : StyleBlock.sameAll a.unmatchedBlocks b.unmatchedBlocks := by
  obtain ⟨-, styles, content⟩ := same_iff.1 h
  apply StyleBlock.sameAll_iff.2
  refine List.rel_filter ?_ (StyleBlock.sameAll_iff.1 styles)
  intro c d blocks
  have targets := (StyleBlock.same_iff.1 blocks).1
  simp only [StyleBlock.targetsName, StyleBlock.targetsSlide, StyleBlock.targetKind?, targets,
    Element.findNamed?_isNone_of_same content]

end Slide

/-- Resolved slides with the same size, margin, background and ignored targets, and with equal
properties under each number. -/
structure ResolvedSlide.Same (r r' : ResolvedSlide) : Prop where
  width : r.width = r'.width
  height : r.height = r'.height
  background : r.background = r'.background
  margin : r.margin = r'.margin
  ignoredTargets : r.ignoredTargets = r'.ignoredTargets
  nodeStyles : SameMaps r.nodeStyles r'.nodeStyles

namespace Slide

variable {a b : Slide} (h : a.same b)
include h

theorem resolved_same (v : Viewport) : (a.resolved v).Same (b.resolved v) := by
  have holes := (Element.alike_of_same (same_iff.1 h).2.2).isHole
  have own := ownStyle_same h v
  rw [resolved, resolved, holes]
  split
  · exact ⟨rfl, rfl, rfl, rfl, rfl, .nil⟩
  · exact {
      width := PropertyMap.pixelsOr_of_same own .width _
      height := PropertyMap.pixelsOr_of_same own .height _
      background := PropertyMap.colour?_of_same own _
      margin := PropertyMap.pixelsOr_of_same own .margin _
      ignoredTargets := StyleBlock.sameAll_targets (unmatchedBlocks_same h)
      nodeStyles := nodeStyles_same h v }

/-- Slides that are equal are resolved alike, or are refused because of the same target. -/
theorem resolve_same (strict : Bool) (v : Viewport) :
    (a.resolve strict v = .ok (a.resolved v) ∧ b.resolve strict v = .ok (b.resolved v)) ∨
      ∃ place place' target,
        a.resolve strict v = .error ⟨place, .unresolvedStyleTarget target⟩ ∧
        b.resolve strict v = .error ⟨place', .unresolvedStyleTarget target⟩ := by
  have holes := (Element.alike_of_same (same_iff.1 h).2.2).isHole
  have blocks := StyleBlock.sameAll_iff.1 (unmatchedBlocks_same h)
  rw [resolve, resolve, holes]
  generalize a.unmatchedBlocks = bs, b.unmatchedBlocks = cs at blocks
  cases strict && !b.content.isHole with
  | false => exact .inl ⟨rfl, rfl⟩
  | true =>
    cases blocks with
    | nil => exact .inl ⟨rfl, rfl⟩
    | @cons c d cs ds first rest =>
      have targets := (StyleBlock.same_iff.1 first).1
      exact .inr ⟨c.position, d.position, d.target, by simp only [targets], rfl⟩

end Slide

end SlideDeck
