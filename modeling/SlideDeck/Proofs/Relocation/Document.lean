import SlideDeck.Proofs.RoundTrip.Equality

/-! # Documents moved to other places

Everything that carries a position can be moved by a function on positions:
tokens, errors, elements, blocks, slides and documents.

* `relocate` moves one of these and leaves all else as it is.
* `positions` lists where the parts of a document begin, and moving a document
  moves each of them (`Document.positions_relocate`).
* `Document.same_relocate`: equality does not see that a document was moved.

Nothing is asked of the function.  Moving everything to one place is to forget
all positions, and a function that fixes the places of some tokens says of what
is moved by it that it begins at one of them. -/

namespace SlideDeck

/-! ## Moving -/

section

variable (f : Position → Position)

def Token.relocate (t : Token) : Token :=
  { t with position := f t.position }

def CompileError.relocate (e : CompileError) : CompileError :=
  { e with position := f e.position }

def Attributes.relocate (a : Attributes) : Attributes :=
  { a with position := f a.position }

mutual

def Element.relocate : Element → Element
  | .hole => .hole
  | .text a value => .text (a.relocate f) value
  | .centre a child => .centre (a.relocate f) (relocate child)
  | .padding a child => .padding (a.relocate f) (relocate child)
  | .stack a axis children => .stack (a.relocate f) axis (relocateAll children)

def Element.relocateAll : List Element → List Element
  | [] => []
  | e :: rest => relocate e :: relocateAll rest

end

def StyleBlock.relocate (b : StyleBlock) : StyleBlock :=
  { b with position := f b.position }

def Slide.relocate (s : Slide) : Slide :=
  { s with
    content := s.content.relocate f
    styles := s.styles.map (StyleBlock.relocate f)
    position := f s.position }

def Document.relocate (d : Document) : Document :=
  ⟨d.slides.map (Slide.relocate f)⟩

/-- What became of a computation, with its value changed and the place of its error moved. -/
def relocated {α β : Type} (change : α → β) : Except CompileError α → Except CompileError β
  | .ok x => .ok (change x)
  | .error e => .error (e.relocate f)

end

variable {f g : Position → Position}

/-- What is the same when moved succeeds with results that are the same when moved, or fails for
the same reason. -/
theorem alike_of_relocated {α β : Type} {change : α → β} {x y : Except CompileError α}
    (same : relocated f change x = relocated f change y) :
    (∃ a b, x = .ok a ∧ y = .ok b ∧ change a = change b) ∨
      ∃ e e', x = .error e ∧ y = .error e' ∧ e.cause = e'.cause := by
  cases x with
  | ok a =>
    cases y with
    | ok b => exact .inl ⟨a, b, rfl, rfl, Except.ok.inj same⟩
    | error e => cases same
  | error e =>
    cases y with
    | ok b => cases same
    | error e' =>
      have moved : e.relocate f = e'.relocate f := Except.error.inj same
      have causes : (e.relocate f).cause = (e'.relocate f).cause := by rw [moved]
      exact .inr ⟨e, e', rfl, rfl, causes⟩

/-! ## Moving nothing -/

mutual

theorem Element.relocate_id (e : Element) : e.relocate (fun p => p) = e := by
  cases e with
  | hole => rfl
  | text => rfl
  | centre a child => rw [relocate, relocate_id child]; rfl
  | padding a child => rw [relocate, relocate_id child]; rfl
  | stack a axis children => rw [relocate, relocateAll_id children]; rfl

theorem Element.relocateAll_id (es : List Element) : relocateAll (fun p => p) es = es := by
  cases es with
  | nil => rfl
  | cons e rest => rw [relocateAll, relocate_id e, relocateAll_id rest]

end

theorem Slide.relocate_id (s : Slide) : s.relocate (fun p => p) = s := by
  have styles : s.styles.map (StyleBlock.relocate fun p => p) = s.styles := List.map_id _
  rw [relocate, Element.relocate_id, styles]

theorem Document.relocate_id (d : Document) : d.relocate (fun p => p) = d := by
  have slides : d.slides.map (Slide.relocate fun p => p) = d.slides :=
    (List.map_congr_left fun s _ => s.relocate_id).trans (List.map_id _)
  rw [relocate, slides]

/-! ## Elements -/

namespace Element

@[simp] theorem attributes_relocate {e : Element} (present : e.isHole = false) :
    (e.relocate f).attributes = e.attributes.relocate f := by
  cases e
  case hole => cases present
  all_goals rfl

@[simp] theorem id_relocate (e : Element) : (e.relocate f).id = e.id := by
  cases e <;> rfl

@[simp] theorem name_relocate (e : Element) : (e.relocate f).name = e.name := by
  cases e <;> rfl

@[simp] theorem kind_relocate (e : Element) : (e.relocate f).kind = e.kind := by
  cases e <;> rfl

@[simp] theorem isHole_relocate (e : Element) : (e.relocate f).isHole = e.isHole := by
  cases e <;> rfl

@[simp] theorem params_relocate (e : Element) :
    (e.relocate f).attributes.params = e.attributes.params := by
  cases e <;> rfl

mutual

theorem flatten_relocate (e : Element) : (e.relocate f).flatten = e.flatten.map (relocate f) := by
  cases e with
  | hole => rfl
  | text => rfl
  | centre a child => simp only [relocate, flatten, flatten_relocate child, List.map_cons]
  | padding a child => simp only [relocate, flatten, flatten_relocate child, List.map_cons]
  | stack a axis children =>
    simp only [relocate, flatten, flattenAll_relocate children, List.map_cons]

theorem flattenAll_relocate (es : List Element) :
    flattenAll (relocateAll f es) = (flattenAll es).map (relocate f) := by
  cases es with
  | nil => rfl
  | cons e rest =>
    simp only [relocateAll, flattenAll, flatten_relocate e, flattenAll_relocate rest,
      List.map_append]

end

mutual

/-- No hole is among the elements of a tree. -/
theorem present_of_mem_flatten {e node : Element} (h : node ∈ e.flatten) : node.isHole = false := by
  cases e with
  | hole => cases h
  | text =>
    cases List.mem_singleton.1 h
    rfl
  | centre a child | padding a child =>
    rcases List.mem_cons.1 h with rfl | below
    · rfl
    · exact present_of_mem_flatten below
  | stack a axis children =>
    rcases List.mem_cons.1 h with rfl | below
    · rfl
    · exact present_of_mem_flattenAll below

theorem present_of_mem_flattenAll {es : List Element} {node : Element} (h : node ∈ flattenAll es) :
    node.isHole = false := by
  cases es with
  | nil => cases h
  | cons e rest =>
    rcases List.mem_append.1 h with here | there
    · exact present_of_mem_flatten here
    · exact present_of_mem_flattenAll there

end

mutual

theorem same_relocate (e e' : Element) : (e.relocate f).same (e'.relocate g) = e.same e' := by
  cases e <;> cases e'
  case centre.centre a c b d => simp only [relocate, same, same_relocate c d]; rfl
  case padding.padding a c b d => simp only [relocate, same, same_relocate c d]; rfl
  case stack.stack a x cs b y ds => simp only [relocate, same, sameAll_relocate cs ds]; rfl
  all_goals rfl

theorem sameAll_relocate (es es' : List Element) :
    sameAll (relocateAll f es) (relocateAll g es') = sameAll es es' := by
  cases es <;> cases es'
  case cons.cons c cs d ds =>
    simp only [relocateAll, sameAll, same_relocate c d, sameAll_relocate cs ds]
  all_goals rfl

end

end Element

/-! ## Equality -/

theorem StyleBlock.sameAll_relocate (bs bs' : List StyleBlock) :
    sameAll (bs.map (relocate f)) (bs'.map (relocate g)) = sameAll bs bs' := by
  induction bs generalizing bs' with
  | nil => cases bs' <;> rfl
  | cons b bs ih =>
    cases bs' with
    | nil => rfl
    | cons b' bs' =>
      simp only [List.map_cons, sameAll, ih]
      rfl

theorem Slide.same_relocate (s s' : Slide) : (s.relocate f).same (s'.relocate g) = s.same s' := by
  simp only [relocate, same, StyleBlock.sameAll_relocate, Element.same_relocate]

theorem Document.sameSlides_relocate (slides slides' : List Slide) :
    sameSlides (slides.map (Slide.relocate f)) (slides'.map (Slide.relocate g))
      = sameSlides slides slides' := by
  induction slides generalizing slides' with
  | nil => cases slides' <;> rfl
  | cons s slides ih =>
    cases slides' with
    | nil => rfl
    | cons s' slides' => simp only [List.map_cons, sameSlides, ih, Slide.same_relocate]

theorem Document.same_relocate (d d' : Document) :
    (d.relocate f).same (d'.relocate g) = d.same d' :=
  sameSlides_relocate ..

/-! ## Positions -/

namespace Slide

/-- The places where a slide, its elements and its style blocks begin. -/
def positions (s : Slide) : List Position :=
  s.position :: (s.content.flatten.map (fun e => e.attributes.position)
    ++ s.styles.map StyleBlock.position)

theorem positions_relocate (s : Slide) : (s.relocate f).positions = s.positions.map f := by
  have elements : (s.content.relocate f).flatten.map (fun e => e.attributes.position)
      = (s.content.flatten.map (fun e => e.attributes.position)).map f := by
    rw [Element.flatten_relocate, List.map_map, List.map_map]
    refine List.map_congr_left fun e among => ?_
    simp only [Function.comp_apply]
    rw [Element.attributes_relocate (Element.present_of_mem_flatten among)]
    rfl
  simp only [positions, relocate, elements, List.map_cons, List.map_append, List.map_map]
  rfl

end Slide

/-- The places where the slides of a document and all their parts begin. -/
def Document.positions (d : Document) : List Position :=
  d.slides.flatMap Slide.positions

theorem Document.positions_relocate (d : Document) :
    (d.relocate f).positions = d.positions.map f := by
  simp only [positions, relocate, List.flatMap_map, Slide.positions_relocate, List.map_flatMap]

end SlideDeck
