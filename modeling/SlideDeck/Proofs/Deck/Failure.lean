import SlideDeck.Proofs.Deck.Renderings
import SlideDeck.Proofs.Diagnostics.Emitter

/-! # Failures of a session

An operation that fails leaves a session as it was, and a source that does not
compile is reported exactly once (`Reached.failures`).

* `Reached` are the sessions that there can be, whatever else reports to their
  emitter, with whether a load succeeded.
* `perform_loaded`: only a load that succeeds gives a session a deck.
* `load_failed`: all that a failed load changes is the emitter.

Failures are known before anything is done: a source is compiled as a whole
before the deck, the cache or a scope is touched, and a slide is looked for in
the deck before it is in the cache. -/

namespace SlideDeck

/-- What is reported where the deck is kept elsewhere. -/
def Outcome.withoutDeck : Outcome → Outcome
  | compiled slides _ => compiled slides none
  | failed e => failed e

/-- An event reports an error in a source, while a slide is current. -/
structure Event.Reports (event : Event) (e : CompileError) (slide : Nat) : Prop where
  severity : event.severity = .error
  area : event.area = if e.kind = .unresolvedStyleTarget then .ascii "style" else .ascii "source"
  stage : event.stage = e.kind.name
  message : event.message = e.message
  position : event.position = some e.position
  slide : event.slide = slide

namespace Session

variable {s : Session}

/-! ## Sessions -/

/-- The sessions that can be reached from given options, and whether a load of theirs succeeded.
Between operations anything may be done to the emitter. -/
inductive Reached (o : CompileOptions) : Session → Bool → Prop
  | start : Reached o (start o) false
  | perform {s : Session} {loaded : Bool} (op : Operation) :
      Reached o s loaded → Reached o (s.perform op) (loaded || (s.accepted? op).isSome)
  | report {s : Session} {loaded : Bool} (f : Emitter → Emitter) :
      Reached o s loaded → Reached o (s.report f) loaded

theorem perform_loaded (s : Session) (op : Operation) :
    (s.perform op).loaded = (s.loaded || (s.accepted? op).isSome) := by
  cases op with
  | load source =>
    cases compiled : Deck.compile source s.options <;>
      simp [perform, accepted?, load, compiled, Outcome.ok, report, loaded]
  | resize v =>
    rw [perform, resize]
    split
    · simp [accepted?]
    · cases deck : s.deck <;> simp [accepted?, loaded, report, deck]
  | setMeasurer m => simp [perform, setMeasurer, accepted?, loaded]
  | render index => simp [perform, accepted?, loaded, (render_unmoved s index).deck]
  | renderAll => simp [perform, accepted?, loaded, (renderAll_unmoved s).deck]

theorem Reached.loaded_eq {o : CompileOptions} {loaded : Bool} (h : Reached o s loaded) :
    s.loaded = loaded := by
  induction h with
  | start => rfl
  | perform op _ ih => rw [perform_loaded, ih]
  | report f _ ih => exact ih

/-! ## Loads that fail -/

theorem load_outcome (s : Session) (source : Bytes) :
    (s.load source).1 = (Outcome.ofSource source s.options).withoutDeck := by
  rw [load, Outcome.ofSource]
  cases Deck.compile source s.options <;> rfl

theorem load_failed {source : Bytes} {e : CompileError} (h : (s.load source).1 = .failed e) :
    (s.load source).2 = s.report (·.emitError (errorArea e) e) := by
  rw [load] at h ⊢
  cases compiled : Deck.compile source s.options with
  | error e' =>
    rw [compiled] at h
    cases h
    rfl
  | ok d =>
    rw [compiled] at h
    cases h

theorem reports_tagged (g : Emitter) (e : CompileError) :
    (g.tagged (e.toReport (errorArea e))).Reports e g.slide :=
  ⟨rfl, rfl, rfl, rfl, rfl, rfl⟩

/-! ## Renderings that are not there -/

theorem render_beyond {index : Nat} (h : s.deckSize ≤ index) :
    s.render index = (.error (if s.loaded then .noSlide index else .noDeck), s) := by
  cases deck : s.deck with
  | none => simp [render, loaded, deck]
  | some d =>
    have beyond : d.slides[index]? = none := by
      simpa [deckSize, deck] using h
    simp [render, loaded, deck, beyond]

theorem not_loaded_fails (h : s.loaded = false) :
    s.currentDeck = .error .noDeck ∧ s.renderAll = (.error .noDeck, s) ∧
      ∀ index, s.render index = (.error .noDeck, s) := by
  have deck : s.deck = none := by simpa [loaded] using h
  simp [currentDeck, renderAll, render, deck]

/-- **Failures change nothing.**  In every session, a load answers with what compiling reports, and
if it fails then nothing changes but the emitter, which records the error; to observers that answer
nothing, that is all that happens to the emitter.  Asking for a slide that there is not, or for
anything before the first load that succeeds, fails and changes nothing at all. -/
theorem Reached.failures {o : CompileOptions} {loaded : Bool} (h : Reached o s loaded) :
    (∀ source, (s.load source).1 = (Outcome.ofSource source s.options).withoutDeck) ∧
    (∀ source e, (s.load source).1 = .failed e →
      ∃ event g, event.Reports e s.diagnostics.slide ∧
        (s.load source).2 = { s with diagnostics := g } ∧
        (s.diagnostics.record event).Grown g ∧
        (s.diagnostics.Passive →
          g = { s.diagnostics with
            events := s.diagnostics.events ++ [event]
            tally := s.diagnostics.tally.add .error
            sightings := s.diagnostics.sightings
              ++ s.diagnostics.observers.zipIdx.map fun o => ⟨o.2, event⟩ })) ∧
    (∀ index, s.deckSize ≤ index →
      s.render index = (.error (if loaded then .noSlide index else .noDeck), s)) ∧
    (loaded = false → s.currentDeck = .error .noDeck ∧ s.renderAll = (.error .noDeck, s) ∧
      ∀ index, s.render index = (.error .noDeck, s)) := by
  have loaded_eq := h.loaded_eq
  refine ⟨s.load_outcome, fun source e failed => ?_, fun index beyond => ?_,
    fun never => not_loaded_fails (loaded_eq.trans never)⟩
  · have serious := Emitter.not_error_lt s.diagnostics.minSeverity
    exact ⟨s.diagnostics.tagged (e.toReport (errorArea e)), s.diagnostics.emitError (errorArea e) e,
      reports_tagged s.diagnostics e, load_failed failed, Emitter.emit_grown serious,
      fun passive => Emitter.emit_of_passive passive serious⟩
  · rw [← loaded_eq]
    exact render_beyond beyond

/-- A session that records errors only and shows them to one observer. -/
def watched : Session :=
  (start {}).report fun g => { g with observers := [{}], minSeverity := .error }

theorem watched_failures :
    Reached {} watched false ∧ watched.diagnostics.Passive ∧
      (∃ e event, (watched.load (.ascii "[")).1 = .failed e ∧ event.Reports e 0 ∧
        (watched.load (.ascii "[")).2 = { watched with
          diagnostics := { watched.diagnostics with
            events := [event], tally := { error := 1 }, sightings := [⟨0, event⟩] } }) ∧
      watched.render 0 = (.error .noDeck, watched) ∧
      watched.renderAll = (.error .noDeck, watched) := by
  have reached : Reached {} watched false := Reached.start.report _
  have passive : watched.diagnostics.Passive := by
    intro o among e
    obtain rfl : o = {} := by simpa [watched, report] using among
    rfl
  obtain ⟨-, loads, beyond, never⟩ := reached.failures
  have fails : (watched.load (.ascii "[")).1.ok = false := by decide +kernel
  refine ⟨reached, passive, ?_, beyond 0 (Nat.le_refl 0), (never rfl).2.1⟩
  cases outcome : (watched.load (.ascii "[")).1 with
  | compiled slides deck =>
    rw [outcome] at fails
    cases fails
  | failed e =>
    obtain ⟨event, g, reports, state, -, exactly⟩ := loads _ e outcome
    refine ⟨e, event, rfl, reports, ?_⟩
    rw [state, exactly passive]
    rfl

end Session

end SlideDeck
