import SlideDeck.Deck.Session
import SlideDeck.Proofs.Deck.Compile

/-! # Runs of sessions

Whatever is done to a session, its answers are those of the pure pipeline on
the source loaded last, for the viewport and the measurer that are set
(`run_answers`).

* `Operation` and `Session.run` are the operations and a run of them.
* `Coherent` is what every operation preserves; `obtain_answers` and
  `obtainFrom_answers` are what it gives for the answers.

A rendering in the cache is tied to what it was made from and not to when.  It is
the rendering of the current slide with the current measurer, so an operation
keeps the cache right if it changes neither or forgets everything. -/

namespace SlideDeck

/-! ## Operations -/

/-- What can be done to a session. -/
inductive Operation where
  | load (source : Bytes)
  | resize (viewport : Viewport)
  | setMeasurer (measurer : Option Measurer)
  | render (index : Nat)
  | renderAll

namespace Operation

def viewport? : Operation → Option Viewport
  | resize v => some v
  | _ => none

/-- The measurer that an operation installs, or that it installs none. -/
def measurer? : Operation → Option (Option Measurer)
  | setMeasurer m => some m
  | _ => none

end Operation

namespace Session

def perform (s : Session) : Operation → Session
  | .load source => (s.load source).2
  | .resize v => s.resize v
  | .setMeasurer m => s.setMeasurer m
  | .render index => (s.render index).2
  | .renderAll => s.renderAll.2

def run (s : Session) (ops : List Operation) : Session :=
  ops.foldl perform s

/-- The source that an operation loads, if it compiles. -/
def accepted? (s : Session) : Operation → Option Bytes
  | .load source => if (s.load source).1.ok then some source else none
  | _ => none

/-- The last source that some operations load and that compiles. -/
def lastLoaded? (s : Session) : List Operation → Option Bytes
  | [] => none
  | op :: ops => ((s.perform op).lastLoaded? ops).or (s.accepted? op)

end Session

/-- The viewport asked for last, or the one that there was before. -/
def lastViewport (before : Viewport) (ops : List Operation) : Viewport :=
  (ops.filterMap Operation.viewport?).getLast?.getD before

/-- The measurer installed last, or the one that there was before. -/
def lastMeasurer (before : Option Measurer) (ops : List Operation) : Option Measurer :=
  (ops.filterMap Operation.measurer?).getLast?.getD before

theorem lastViewport_cons (before : Viewport) (op : Operation) (ops : List Operation) :
    lastViewport before (op :: ops) = lastViewport (op.viewport?.getD before) ops := by
  unfold lastViewport
  cases asked : op.viewport? with
  | none => rw [List.filterMap_cons_none asked]; rfl
  | some v => simp [List.filterMap_cons_some asked, List.getLast?_cons]

theorem lastMeasurer_cons (before : Option Measurer) (op : Operation) (ops : List Operation) :
    lastMeasurer before (op :: ops) = lastMeasurer (op.measurer?.getD before) ops := by
  unfold lastMeasurer
  cases installed : op.measurer? with
  | none => rw [List.filterMap_cons_none installed]; rfl
  | some m => simp [List.filterMap_cons_some installed, List.getLast?_cons]

namespace Session

variable {s : Session} {source? : Option Bytes}

/-! ## The invariant -/

/-- The current deck is that of a source. -/
def Holds (s : Session) : Option Bytes → Prop
  | none => s.deck = none
  | some source => ∃ d, s.deck = some d ∧ Deck.compile source s.options = .ok d

/-- A rendering under a key is that of the current slide for the current viewport, with the current
measurer. -/
def Current (s : Session) (key : CacheKey) (r : Rendering) : Prop :=
  key.viewport = s.options.viewport ∧
    ∃ d c, s.deck = some d ∧ d.slides[key.index]? = some c ∧
      c.render key.index s.measurer = .ok r.slide

/-- The current deck is that of a source, and all that the cache has is current. -/
structure Coherent (s : Session) (source? : Option Bytes) : Prop where
  holds : s.Holds source?
  current : ∀ key r, s.cache.get? key = some r → s.Current key r

/-- Nothing that a slide is laid out for changes. -/
structure Unmoved (s t : Session) : Prop where
  options : t.options = s.options
  deck : t.deck = s.deck
  measurer : t.measurer = s.measurer

theorem Unmoved.refl (s : Session) : Unmoved s s :=
  ⟨rfl, rfl, rfl⟩

theorem Unmoved.trans {s t u : Session} (h : Unmoved s t) (h' : Unmoved t u) : Unmoved s u :=
  ⟨h'.options.trans h.options, h'.deck.trans h.deck, h'.measurer.trans h.measurer⟩

theorem Unmoved.holds {s t : Session} (h : Unmoved s t) (holds : s.Holds source?) :
    t.Holds source? := by
  cases source? with
  | none => exact h.deck.trans holds
  | some source =>
    rw [Holds]
    rw [h.deck, h.options]
    exact holds

theorem Unmoved.current {s t : Session} (h : Unmoved s t) {key : CacheKey} {r : Rendering}
    (current : s.Current key r) : t.Current key r := by
  rw [Current]
  rw [h.options, h.deck, h.measurer]
  exact current

theorem coherent_of_clear {t : Session} (holds : t.Holds source?) (clear : t.cache = {}) :
    Coherent t source? := by
  refine ⟨holds, fun key r found => ?_⟩
  rw [clear] at found
  cases found

theorem coherent_start (o : CompileOptions) : Coherent (start o) none :=
  coherent_of_clear rfl rfl

theorem Coherent.report (h : Coherent s source?) (f : Emitter → Emitter) :
    Coherent (s.report f) source? := by
  have unmoved : Unmoved s (s.report f) := ⟨rfl, rfl, rfl⟩
  exact ⟨unmoved.holds h.holds, fun key r found => unmoved.current (h.current key r found)⟩

/-! ## What rendering leaves alone -/

theorem obtain_unmoved (s : Session) (index : Nat) (c : CompiledSlide) :
    Unmoved s (s.obtain index c).2 := by
  rw [obtain]
  cases s.cache.find index s.options.viewport with
  | mk found cache =>
    cases found with
    | some r => exact ⟨rfl, rfl, rfl⟩
    | none =>
      cases rendered : c.render index s.measurer <;>
        (simp only [rendered]; exact ⟨rfl, rfl, rfl⟩)

theorem obtainFrom_unmoved (s : Session) (index : Nat) (rest : List CompiledSlide) :
    Unmoved s (s.obtainFrom index rest).2 := by
  induction rest generalizing s index with
  | nil => exact .refl s
  | cons c rest ih =>
    have first := obtain_unmoved s index c
    rw [obtainFrom]
    cases answer : s.obtain index c with
    | mk outcome t =>
      rw [answer] at first
      cases outcome with
      | error fault => exact first
      | ok r =>
        have others := first.trans (ih t (index + 1))
        cases answers : t.obtainFrom (index + 1) rest with
        | mk outcomes u =>
          rw [answers] at others
          cases outcomes <;> (simp only [answers]; exact others)

theorem render_unmoved (s : Session) (index : Nat) : Unmoved s (s.render index).2 := by
  rw [render]
  split
  · exact .refl s
  · next d _ =>
    split
    · exact .refl s
    · next c _ =>
      have unmoved := obtain_unmoved s index c
      split <;> next answer => rw [answer] at unmoved; exact ⟨unmoved.1, unmoved.2, unmoved.3⟩

theorem renderAll_unmoved (s : Session) : Unmoved s s.renderAll.2 := by
  rw [renderAll]
  split
  · exact .refl s
  · next d _ =>
    have unmoved := obtainFrom_unmoved s 0 d.slides
    split <;> next answers => rw [answers] at unmoved; exact ⟨unmoved.1, unmoved.2, unmoved.3⟩

/-! ## Answers -/

theorem Holds.compiled (h : s.Holds source?) {d : Deck} (deck : s.deck = some d) :
    ∃ source, Deck.compile source s.options = .ok d := by
  cases source? with
  | none => cases deck.symm.trans h
  | some source =>
    obtain ⟨d', deck', compiled⟩ := h
    obtain rfl : d = d' := Option.some.inj (deck.symm.trans deck')
    exact ⟨source, compiled⟩

theorem obtain_hit {index : Nat} {r : Rendering}
    (hit : s.cache.get? ⟨index, s.options.viewport⟩ = some r) (c : CompiledSlide) :
    s.obtain index c
      = (.ok (r, false), { s with cache := { s.cache with hits := s.cache.hits + 1 } }) := by
  have found : s.cache.find index s.options.viewport
      = (some r, { s.cache with hits := s.cache.hits + 1 }) := by
    rw [Cache.find, hit]
  rw [obtain, found]

theorem obtain_miss {index : Nat} {c : CompiledSlide} {slide : RenderedSlide}
    (miss : s.cache.get? ⟨index, s.options.viewport⟩ = none)
    (rendered : c.render index s.measurer = .ok slide) :
    s.obtain index c
      = (.ok (⟨s.nextSerial, slide⟩, true),
          { s with
            cache := Cache.store { s.cache with misses := s.cache.misses + 1 } s.options.viewport
              (some ⟨s.nextSerial, slide⟩)
            nextSerial := s.nextSerial + 1 }) := by
  have found : s.cache.find index s.options.viewport
      = (none, { s.cache with misses := s.cache.misses + 1 }) := by
    rw [Cache.find, miss]
  rw [obtain, found]
  simp only [rendered]

theorem obtain_answers (h : Coherent s source?) {d : Deck} (deck : s.deck = some d)
    {index : Nat} {c : CompiledSlide} (there : d.slides[index]? = some c) :
    ∃ r t, s.obtain index c = (.ok r, t) ∧ c.render index s.measurer = .ok r.1.slide ∧
      Unmoved s t ∧ Coherent t source? := by
  cases hit : s.cache.get? ⟨index, s.options.viewport⟩ with
  | some r =>
    -- What the cache has is the rendering of the very slide that is asked for.
    obtain ⟨-, d', c', deck', there', rendered⟩ := h.current _ r hit
    obtain rfl : d = d' := Option.some.inj (deck.symm.trans deck')
    obtain rfl : c = c' := Option.some.inj (there.symm.trans there')
    exact ⟨_, _, obtain_hit hit c, rendered, ⟨rfl, rfl, rfl⟩, h.holds, h.current⟩
  | none =>
    obtain ⟨source, compiled⟩ := h.holds.compiled deck
    obtain ⟨slide, rendered, atIndex⟩ := CompiledSlide.render_of_compiled compiled
      (List.mem_of_getElem? there) index s.measurer
    refine ⟨_, _, obtain_miss hit rendered, rendered, ⟨rfl, rfl, rfl⟩, h.holds,
      fun key r stored => ?_⟩
    simp only [Cache.get?_store, atIndex] at stored
    split at stored
    · next equal =>
      -- The rendering just made.
      cases equal
      cases stored
      exact ⟨rfl, d, c, deck, there, rendered⟩
    · exact h.current key r stored

theorem obtainFrom_answers {d : Deck} {rest : List CompiledSlide} (index : Nat)
    (h : Coherent s source?) (deck : s.deck = some d)
    (there : ∀ j, rest[j]? = d.slides[index + j]?) :
    ∃ rs t, s.obtainFrom index rest = (.ok rs, t) ∧
      renderFrom s.measurer index rest = .ok (rs.map fun r => r.1.slide) ∧
      Unmoved s t ∧ Coherent t source? := by
  induction rest generalizing s index with
  | nil => exact ⟨[], s, rfl, rfl, .refl s, h⟩
  | cons c rest ih =>
    have first : d.slides[index]? = some c := (there 0).symm
    obtain ⟨r, t, answer, rendered, unmoved, coherent⟩ := obtain_answers h deck first
    -- The rest goes on one slide later, in a session that has the same deck and measurer.
    have thereRest : ∀ j, rest[j]? = d.slides[index + 1 + j]? := by
      intro j
      rw [Nat.add_assoc, Nat.add_comm 1 j]
      exact there (j + 1)
    obtain ⟨rs, u, answers, renderedRest, unmovedRest, coherentRest⟩ :=
      ih (index + 1) coherent (unmoved.deck.trans deck) thereRest
    refine ⟨r :: rs, u, ?_, ?_, unmoved.trans unmovedRest, coherentRest⟩
    · simp only [obtainFrom, answer, answers]
    · rw [unmoved.measurer] at renderedRest
      simp [renderFrom, rendered, renderedRest, bind, Except.bind, pure, Except.pure]

theorem render_answers (h : Coherent s source?) {d : Deck} (deck : s.deck = some d) {index : Nat}
    {c : CompiledSlide} (there : d.slides[index]? = some c) :
    ∃ r, (s.render index).1 = .ok r ∧ c.render index s.measurer = .ok r.slide := by
  obtain ⟨r, t, answer, rendered, -⟩ := obtain_answers h deck there
  refine ⟨r.1, ?_, rendered⟩
  simp only [render, deck, there, answer]

theorem renderAll_answers (h : Coherent s source?) {d : Deck} (deck : s.deck = some d) :
    ∃ rs, s.renderAll.1 = .ok rs ∧ d.render s.measurer = .ok (rs.map Rendering.slide) := by
  obtain ⟨rs, t, answers, rendered, -⟩ :=
    obtainFrom_answers 0 h deck fun j => by rw [Nat.zero_add]
  refine ⟨rs.map Prod.fst, ?_, ?_⟩
  · simp only [renderAll, deck, answers]
  · rw [List.map_map]
    exact rendered

/-! ## One operation -/

/-- What an operation leaves of the source loaded last. -/
theorem perform_coherent (h : Coherent s source?) (op : Operation) :
    Coherent (s.perform op) ((s.accepted? op).or source?) := by
  cases op with
  | load source =>
    cases compiled : Deck.compile source s.options with
    | error e =>
      -- A load that fails leaves the deck and the cache alone.
      have refused : s.accepted? (.load source) = none := by
        simp [accepted?, load, compiled, Outcome.ok]
      rw [refused, perform, load, compiled]
      exact h.report _
    | ok d =>
      -- A load that succeeds puts its own deck before an empty cache.
      have taken : s.accepted? (.load source) = some source := by
        simp [accepted?, load, compiled, Outcome.ok]
      rw [taken, perform, load, compiled]
      exact coherent_of_clear ⟨d, rfl, compiled⟩ rfl
  | resize v =>
    show Coherent (s.resize v) source?
    rw [resize]
    split
    · exact h
    -- The cache is forgotten, so only the deck is to be compared with its source.
    · have holds := h.holds
      cases source? with
      | none =>
        have deck : s.deck = none := holds
        simp only [deck]
        exact coherent_of_clear rfl rfl
      | some source =>
        obtain ⟨d, deck, compiled⟩ := holds
        simp only [deck]
        refine (coherent_of_clear ?_ rfl).report _
        exact ⟨d.resized v, rfl, Deck.compile_resized compiled v⟩
  | setMeasurer m => exact coherent_of_clear h.holds rfl
  | render index =>
    show Coherent (s.render index).2 source?
    cases deck : s.deck with
    | none =>
      rw [render, deck]
      exact h
    | some d =>
      cases there : d.slides[index]? with
      | none =>
        simp only [render, deck, there]
        exact h
      | some c =>
        obtain ⟨r, t, answer, -, -, coherent⟩ := obtain_answers h deck there
        simp only [render, deck, there, answer]
        exact coherent.report _
  | renderAll =>
    show Coherent s.renderAll.2 source?
    cases deck : s.deck with
    | none =>
      rw [renderAll, deck]
      exact h
    | some d =>
      obtain ⟨rs, t, answers, -, -, coherent⟩ :=
        obtainFrom_answers 0 h deck fun j => by rw [Nat.zero_add]
      simp only [renderAll, deck, answers]
      exact coherent.report _

theorem perform_options (s : Session) (op : Operation) :
    (s.perform op).options
      = { s.options with viewport := op.viewport?.getD s.options.viewport } := by
  cases op with
  | load source =>
    show (s.load source).2.options = s.options
    rw [load]
    split <;> rfl
  | resize v =>
    show (s.resize v).options = { s.options with viewport := v }
    rw [resize]
    split
    · next equal => rw [equal]
    · cases s.deck <;> rfl
  | setMeasurer m => rfl
  | render index => exact (render_unmoved s index).options
  | renderAll => exact (renderAll_unmoved s).options

theorem perform_measurer (s : Session) (op : Operation) :
    (s.perform op).measurer = op.measurer?.getD s.measurer := by
  cases op with
  | load source =>
    show (s.load source).2.measurer = s.measurer
    rw [load]
    split <;> rfl
  | resize v =>
    show (s.resize v).measurer = s.measurer
    rw [resize]
    split
    · rfl
    · cases s.deck <;> rfl
  | setMeasurer m => rfl
  | render index => exact (render_unmoved s index).measurer
  | renderAll => exact (renderAll_unmoved s).measurer

/-! ## Runs -/

/-- What a run leaves: the source loaded last, and the viewport and the measurer set last. -/
theorem run_coherent (h : Coherent s source?) (ops : List Operation) :
    Coherent (s.run ops) ((s.lastLoaded? ops).or source?) ∧
      (s.run ops).options = { s.options with viewport := lastViewport s.options.viewport ops } ∧
      (s.run ops).measurer = lastMeasurer s.measurer ops := by
  induction ops generalizing s source? with
  | nil => exact ⟨h, rfl, rfl⟩
  | cons op ops ih =>
    obtain ⟨coherent, options, measurer⟩ := ih (perform_coherent h op)
    -- What the first operation loads counts only where no later one loads anything.
    rw [← Option.or_assoc] at coherent
    refine ⟨coherent, ?_, ?_⟩
    · rw [lastViewport_cons]
      show ((s.perform op).run ops).options = _
      rw [options, perform_options]
    · rw [lastMeasurer_cons]
      show ((s.perform op).run ops).measurer = _
      rw [measurer, perform_measurer]

/-- After any run a session has a deck exactly if some load of the run succeeded.  Its deck is that
of the source loaded last, compiled for the viewport set last, and it answers with the renderings
of that deck by the measurer set last. -/
theorem run_answers (o : CompileOptions) (ops : List Operation) :
    match (start o).lastLoaded? ops with
    | none => ((start o).run ops).loaded = false
    | some source =>
      ((start o).run ops).loaded = true ∧
      ∃ d, ((start o).run ops).currentDeck = .ok d ∧
        Deck.compile source ⟨lastViewport o.viewport ops, o.strict⟩ = .ok d ∧
        (∀ i : Fin d.slides.length, ∃ r, (((start o).run ops).render i).1 = .ok r ∧
          d.slides[i].render i (lastMeasurer none ops) = .ok r.slide) ∧
        ∃ rs, ((start o).run ops).renderAll.1 = .ok rs ∧
          d.render (lastMeasurer none ops) = .ok (rs.map Rendering.slide) := by
  obtain ⟨coherent, options, measurer⟩ := run_coherent (coherent_start o) ops
  rw [Option.or_none] at coherent
  cases last : (start o).lastLoaded? ops with
  | none =>
    rw [last] at coherent
    have deck : ((start o).run ops).deck = none := coherent.holds
    simp only [loaded, deck, Option.isSome_none]
  | some source =>
    rw [last] at coherent
    obtain ⟨d, deck, compiled⟩ := coherent.holds
    rw [options] at compiled
    have current : ((start o).run ops).measurer = lastMeasurer none ops := measurer
    refine ⟨?_, d, ?_, compiled, fun i => ?_, ?_⟩
    · simp only [loaded, deck, Option.isSome_some]
    · simp only [currentDeck, deck]
    · have there : d.slides[i.val]? = some d.slides[i] := List.getElem?_eq_getElem i.isLt
      rw [← current]
      exact render_answers coherent deck there
    · rw [← current]
      exact renderAll_answers coherent deck

end Session

end SlideDeck
