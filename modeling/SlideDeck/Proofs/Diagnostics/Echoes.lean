import Mathlib.Data.List.Perm.Basic
import SlideDeck.Proofs.Diagnostics.Emitter

/-! # Observers that echo

What a report comes to where each observer either answers nothing or echoes what
it sees: which events are recorded, and who sees which of them, in what order
(`Emitter.emit_echoed`).

* `Emitter.echoes`: what one observer adds to the record in answer to an event.
* `Emitter.reaction`: an observer sees an event, and then its echo is shown to
  all before anything else happens (`Emitter.react_eq`).

An echo is recorded and shown like any other event, by the same mutual recursion,
but no observer answers it.  So each reaction is finished by itself, and the
reactions to one event only append to each other. -/

namespace SlideDeck

open scoped List

/-- The report by which an observer with a stage echoes an event. -/
def Event.echo (e : Event) (stage : Bytes) : Report where
  area := echoArea
  stage := stage
  message := e.message
  position := e.position

/-- The observer that echoes under a stage, or answers nothing if it has none. -/
def Observer.ofStage : Option Bytes → Observer
  | some stage => .echo stage
  | none => {}

/-- No observer answers an echo. -/
theorem Observer.replies_of_echo (stage? : Option Bytes) {e : Event} (isEcho : e.area = echoArea) :
    (Observer.ofStage stage?).replies e = [] := by
  cases stage? with
  | none => rfl
  | some stage => exact if_pos isEcho

/-! ## What an observer has seen -/

/-- The events that an observer has seen, in order. -/
def seenBy (observer : Nat) (sightings : List Sighting) : List Event :=
  (sightings.filter fun s => s.observer = observer).map Sighting.event

theorem seenBy_cons (i : Nat) (s : Sighting) (rest : List Sighting) :
    seenBy i (s :: rest) = (if s.observer = i then [s.event] else []) ++ seenBy i rest := by
  by_cases here : s.observer = i <;> simp [seenBy, here]

theorem seenBy_append (i : Nat) (first second : List Sighting) :
    seenBy i (first ++ second) = seenBy i first ++ seenBy i second := by
  rw [seenBy, List.filter_append, List.map_append, seenBy, seenBy]

theorem seenBy_flatMap {α : Type} (i : Nat) (f : α → List Sighting) (as : List α) :
    seenBy i (as.flatMap f) = as.flatMap fun a => seenBy i (f a) := by
  rw [seenBy, List.filter_flatMap, List.map_flatMap]
  rfl

/-- Among the numbers below a bound, each is found once. -/
theorem flatMap_range_single {α : Type} (count i : Nat) (a : α) :
    ((List.range count).flatMap fun k => if k = i then [a] else [])
      = if i < count then [a] else [] := by
  induction count with
  | zero => rfl
  | succ count ih =>
    rw [List.range_succ, List.flatMap_append, ih, List.flatMap_singleton]
    by_cases last : count = i
    · simp [last]
    · have inside : i < count + 1 ↔ i < count := by omega
      simp [last, inside]

theorem flatMap_zipIdx_fst {α β : Type} (f : α → List β) (as : List α) :
    (as.zipIdx.flatMap fun o => f o.1) = as.flatMap f := by
  calc as.zipIdx.flatMap fun o => f o.1
    _ = (as.zipIdx.map Prod.fst).flatMap f := (List.flatMap_map ..).symm
    _ = as.flatMap f := by rw [List.zipIdx_map_fst]

theorem flatMap_zipIdx_snd {α β : Type} (f : Nat → List β) (as : List α) :
    (as.zipIdx.flatMap fun o => f o.2) = (List.range as.length).flatMap f := by
  calc as.zipIdx.flatMap fun o => f o.2
    _ = (as.zipIdx.map Prod.snd).flatMap f := (List.flatMap_map ..).symm
    _ = (List.range as.length).flatMap f := by rw [List.zipIdx_map_snd, List.range_eq_range']

namespace Emitter

variable {g : Emitter} {stages : List (Option Bytes)}

/-! ## Reactions -/

/-- The events that an observer adds to the record in answer to an event: its echo, if it has a
stage, the event is no echo itself, and information is recorded. -/
def echoes (g : Emitter) (e : Event) : Option Bytes → List Event
  | some stage =>
      if e.area = echoArea ∨ .info < g.minSeverity then [] else [g.tagged (e.echo stage)]
  | none => []

/-- An event seen by every observer, in the order of registration. -/
def shown (g : Emitter) (e : Event) : List Sighting :=
  (List.range g.observers.length).map fun i => ⟨i, e⟩

/-- An event seen by one observer, followed by its answer shown to all. -/
def reaction (g : Emitter) (e : Event) (observer : Option Bytes × Nat) : List Sighting :=
  ⟨observer.2, e⟩ :: (g.echoes e observer.1).flatMap g.shown

/-- The emitter with further events and sightings. -/
def extended (g : Emitter) (events : List Event) (sightings : List Sighting) : Emitter :=
  { g with
    events := g.events ++ events
    tally := events.foldl (fun t e => t.add e.severity) g.tally
    sightings := g.sightings ++ sightings }

theorem extended_extended (g : Emitter) (events events' : List Event)
    (sightings sightings' : List Sighting) :
    (g.extended events sightings).extended events' sightings'
      = g.extended (events ++ events') (sightings ++ sightings') := by
  simp [extended]

theorem record_eq_extended (g : Emitter) (e : Event) : g.record e = g.extended [e] [] := by
  simp [record, extended]

theorem see_eq_extended (g : Emitter) (i : Nat) (e : Event) :
    g.see i e = g.extended [] [⟨i, e⟩] := by
  simp [see, extended]

theorem map_zipIdx_eq_shown (g : Emitter) (e : Event) :
    (g.observers.zipIdx.map fun o => (⟨o.2, e⟩ : Sighting)) = g.shown e := by
  rw [shown, List.range_eq_range', ← List.zipIdx_map_snd 0 g.observers, List.map_map]
  rfl

/-- An echo is recorded and shown to all, and that is the end of it. -/
theorem emitWithin_echo (watched : g.observers = stages.map Observer.ofStage) {levels : Nat}
    {r : Report} (isEcho : r.area = echoArea) (serious : ¬ r.severity < g.minSeverity) :
    emitWithin (levels + 1) r g = g.extended [g.tagged r] (g.shown (g.tagged r)) := by
  have silent : ∀ o ∈ g.observers, o.replies (g.tagged r) = [] := by
    intro o among
    rw [watched] at among
    obtain ⟨stage?, -, rfl⟩ := List.mem_map.1 among
    exact Observer.replies_of_echo stage? isEcho
  rw [emitWithin_of_silent serious silent, map_zipIdx_eq_shown]
  rfl

/-- An observer sees an event, and if it has an answer, all observers see the answer at once. -/
theorem react_eq (watched : g.observers = stages.map Observer.ofStage) (levels : Nat) (e : Event)
    (observer : Option Bytes × Nat) :
    ((Observer.ofStage observer.1).replies e).foldl
        (fun g reply => emitWithin (levels + 1) reply g) (g.see observer.2 e)
      = g.extended (g.echoes e observer.1) (g.reaction e observer) := by
  obtain ⟨stage?, i⟩ := observer
  cases stage? with
  | none => exact see_eq_extended g i e
  | some stage =>
    by_cases isEcho : e.area = echoArea
    · rw [Observer.replies_of_echo _ isEcho, reaction, echoes, if_pos (.inl isEcho)]
      exact see_eq_extended g i e
    · have answers : (Observer.ofStage (some stage)).replies e = [e.echo stage] := if_neg isEcho
      rw [answers, List.foldl_cons, List.foldl_nil]
      by_cases minor : .info < g.minSeverity
      · rw [reaction, echoes, if_pos (.inr minor), emitWithin]
        rw [if_pos (show (e.echo stage).severity < (g.see i e).minSeverity from minor)]
        exact see_eq_extended g i e
      · rw [reaction, echoes, if_neg (not_or.2 ⟨isEcho, minor⟩)]
        rw [emitWithin_echo (g := g.see i e) watched rfl minor, see_eq_extended,
          extended_extended, List.flatMap_singleton]
        rfl

/-- The reactions of observers follow one another. -/
theorem foldl_react (watched : g.observers = stages.map Observer.ofStage) (levels : Nat) (e : Event)
    (observers : List (Option Bytes × Nat)) :
    observers.foldl (fun g o => ((Observer.ofStage o.1).replies e).foldl
        (fun g reply => emitWithin (levels + 1) reply g) (g.see o.2 e)) g
      = g.extended (observers.flatMap fun o => g.echoes e o.1)
          (observers.flatMap (g.reaction e)) := by
  induction observers generalizing g with
  | nil => simp [extended]
  | cons o observers ih =>
    rw [List.foldl_cons, react_eq watched, ih (g := g.extended _ _) watched, extended_extended]
    rfl

/-- A report that is serious enough is recorded, and then the observers react one by one. -/
theorem emit_eq_extended (watched : g.observers = stages.map Observer.ofStage) {r : Report}
    (serious : ¬ r.severity < g.minSeverity) :
    g.emit r = g.extended (g.tagged r :: stages.flatMap (g.echoes (g.tagged r)))
      (stages.zipIdx.flatMap (g.reaction (g.tagged r))) := by
  have numbered : g.observers.zipIdx = stages.zipIdx.map fun o => (Observer.ofStage o.1, o.2) := by
    rw [watched, List.zipIdx_map]
    rfl
  show emitWithin (62 + 1 + 1) r g = _
  rw [emitWithin, if_neg serious, numbered, List.foldl_map, ← flatMap_zipIdx_fst]
  rw [foldl_react (g := g.record (g.tagged r)) watched, record_eq_extended, extended_extended]
  rfl

/-! ## Growth -/

/-- Either no observer echoes an event, or every one that has a stage does. -/
theorem length_echoes (g : Emitter) (e : Event) (stages : List (Option Bytes)) :
    (stages.flatMap (g.echoes e)).length
      = if e.area = echoArea ∨ .info < g.minSeverity then 0 else stages.countP Option.isSome := by
  induction stages with
  | nil => simp
  | cons stage? stages ih =>
    rw [List.flatMap_cons, List.length_append, ih]
    cases stage? with
    | none => simp [echoes]
    | some stage =>
      rw [echoes]
      split <;> simp [Nat.add_comm]

/-! ## Once each -/

theorem seenBy_shown {i : Nat} (registered : i < g.observers.length) (e : Event) :
    seenBy i (g.shown e) = [e] := by
  have single : ∀ k : Nat, seenBy i [⟨k, e⟩] = if k = i then [e] else [] := by
    intro k
    rw [seenBy_cons]
    exact List.append_nil _
  rw [shown, List.map_eq_flatMap, seenBy_flatMap]
  simp only [single]
  rw [flatMap_range_single, if_pos registered]

/-- An observer sees every echo in a reaction, and the event if the reaction is its own. -/
theorem seenBy_reaction {i : Nat} (registered : i < g.observers.length) (e : Event)
    (observer : Option Bytes × Nat) :
    seenBy i (g.reaction e observer)
      = (if observer.2 = i then [e] else []) ++ g.echoes e observer.1 := by
  rw [reaction, seenBy_cons, seenBy_flatMap]
  simp only [seenBy_shown registered]
  rw [List.flatMap_singleton']

theorem seenBy_reactions {i : Nat} (registered : i < stages.length)
    (length : g.observers.length = stages.length) (e : Event) :
    seenBy i (stages.zipIdx.flatMap (g.reaction e)) ~ e :: stages.flatMap (g.echoes e) := by
  have own : (stages.zipIdx.flatMap fun o => if o.2 = i then [e] else []) = [e] := by
    rw [flatMap_zipIdx_snd fun k => if k = i then [e] else [], flatMap_range_single,
      if_pos registered]
  rw [seenBy_flatMap]
  simp only [seenBy_reaction (length ▸ registered)]
  calc stages.zipIdx.flatMap fun o => (if o.2 = i then [e] else []) ++ g.echoes e o.1
    _ ~ (stages.zipIdx.flatMap fun o => if o.2 = i then [e] else [])
          ++ stages.zipIdx.flatMap fun o => g.echoes e o.1 := (List.flatMap_append_perm ..).symm
    _ = e :: stages.flatMap (g.echoes e) := by rw [own, flatMap_zipIdx_fst]; rfl

/-! ## Reports -/

/-- What a report comes to that is serious enough to be recorded, with observers that echo or answer
nothing. -/
structure Echoed (g : Emitter) (stages : List (Option Bytes)) (r : Report) (h : Emitter) :
    Prop where
  /-- The report comes first, and then its echoes in the order of registration. -/
  events : h.events = g.events ++ g.tagged r :: stages.flatMap (g.echoes (g.tagged r))
  /-- Each observer in turn sees the event, and all see its echo before the next one does. -/
  sightings : h.sightings = g.sightings ++ stages.zipIdx.flatMap (g.reaction (g.tagged r))
  growth : h.events.length = g.events.length + 1
    + if r.area = echoArea ∨ .info < g.minSeverity then 0 else stages.countP Option.isSome
  /-- Every observer sees each of the new events once, as it is recorded. -/
  once : ∀ i < stages.length, ∃ seen, seenBy i h.sightings = seenBy i g.sightings ++ seen ∧
    seen ~ h.events.drop g.events.length
  observers : h.observers = g.observers
  slide : h.slide = g.slide
  minSeverity : h.minSeverity = g.minSeverity

/-- **Exactly once, in order.**  Where every observer either answers nothing or echoes what is no
echo, a report that is not serious enough changes nothing.  Any other report is recorded, and after
it its echoes in the order of the observers that make them.  Every observer in turn sees the event,
an echo is shown to all observers before the next observer sees the event, and so each observer sees
every event that is recorded meanwhile exactly once. -/
theorem emit_echoed {stages : List (Option Bytes)}
    (watched : g.observers = stages.map Observer.ofStage) (r : Report) :
    (r.severity < g.minSeverity → g.emit r = g) ∧
      (¬ r.severity < g.minSeverity → Echoed g stages r (g.emit r)) := by
  refine ⟨fun minor => ?_, fun serious => ?_⟩
  · show emitWithin (63 + 1) r g = g
    rw [emitWithin, if_pos minor]
  · have length : g.observers.length = stages.length := by rw [watched, List.length_map]
    rw [emit_eq_extended watched serious]
    constructor
    case events => rfl
    case sightings => rfl
    case growth =>
      have count := length_echoes g (g.tagged r) stages
      have area : (g.tagged r).area = r.area := rfl
      rw [area] at count
      simp only [extended, List.length_append, List.length_cons, count]
      omega
    case once =>
      intro i registered
      refine ⟨_, seenBy_append i .., ?_⟩
      rw [extended, List.drop_left]
      exact seenBy_reactions registered length _
    case observers => rfl
    case slide => rfl
    case minSeverity => rfl

/-- Two observers that echo, and one between them that answers nothing. -/
def echoingPair : Emitter where
  observers := [.echo (.ascii "o0"), {}, .echo (.ascii "o2")]
  slide := 4

/-- A warning at the end of a slide. -/
def lateWarning : Report where
  severity := .warning
  area := .ascii "layout"
  stage := .ascii "text"
  message := .ascii "too late"

/-- The last observer sees the first one's echo before it sees the event itself. -/
theorem echoingPair_echoed :
    echoingPair.observers
        = [some (.ascii "o0"), none, some (.ascii "o2")].map Observer.ofStage ∧
      ¬ lateWarning.severity < echoingPair.minSeverity ∧
      Echoed echoingPair [some (.ascii "o0"), none, some (.ascii "o2")] lateWarning
        (echoingPair.emit lateWarning) ∧
      (echoingPair.emit lateWarning).sightings.map (fun s => (s.observer, s.event.severity))
        = [(0, .warning), (0, .info), (1, .info), (2, .info), (1, .warning), (2, .warning),
            (0, .info), (1, .info), (2, .info)] := by
  have watched : echoingPair.observers
      = [some (.ascii "o0"), none, some (.ascii "o2")].map Observer.ofStage := rfl
  obtain ⟨-, echoed⟩ := emit_echoed watched lateWarning
  exact ⟨watched, by decide, echoed (by decide), by decide +kernel⟩

end Emitter

end SlideDeck
