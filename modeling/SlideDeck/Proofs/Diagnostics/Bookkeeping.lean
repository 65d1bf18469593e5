import Mathlib.Data.List.Induction
import SlideDeck.Diagnostics.Broadcast
import SlideDeck.Proofs.Diagnostics.Emitter

/-! # The books of an emitter

Whatever a program and its observers do to an emitter, its counts are those of
the events that it has recorded, and each of these events stems from a report
made in the circumstances that the event shows (`Broadcast.run?_consistent`).

* `Broadcast.Recorded`: all that one action can do to the record.
* `Broadcast.run?_growing`: what some actions do to it without clearing it.
* `Broadcast.run?_origin`: where an event comes from.
* `Broadcast.emit_reached`: what reporting comes to where the answers of the
  observers are known is one course that a broadcast may take.

Notifications in progress do not show.  An event is counted when it is recorded,
before anybody sees it, so the record and the counts agree between any two
actions, at any depth of answers to answers. -/

namespace SlideDeck

open scoped List

/-! ## Counts -/

/-- The queries about an emitter agree with what it has recorded. -/
structure Emitter.Consistent (g : Emitter) : Prop where
  counted : ∀ s, g.count s = g.events.countP fun e => e.severity = s
  total : g.count .info + g.count .warning + g.count .error = g.events.length
  errors : g.hasErrors = true ↔ ∃ e ∈ g.events, e.severity = .error
  ordered : ∀ s, g.ofSeverity s <+ g.events
  disjoint : ∀ s t, s ≠ t → (g.ofSeverity s).Disjoint (g.ofSeverity t)
  complete : g.ofSeverity .info ++ g.ofSeverity .warning ++ g.ofSeverity .error ~ g.events

namespace Emitter

variable {g : Emitter}

/-- Every event has one of the three severities. -/
theorem perm_ofSeverity (g : Emitter) :
    g.ofSeverity .info ++ g.ofSeverity .warning ++ g.ofSeverity .error ~ g.events := by
  simp only [ofSeverity]
  induction g.events with
  | nil => exact .refl _
  | cons e events ih =>
    cases severity : e.severity with
    | info => simpa [severity] using ih
    | warning =>
      rw [List.append_assoc] at ih
      simpa [severity] using List.perm_middle.trans (ih.cons e)
    | error => simpa [severity] using List.perm_middle.trans (ih.cons e)

theorem consistent_of_counted (counted : ∀ s, g.count s = g.events.countP fun e => e.severity = s) :
    g.Consistent where
  counted := counted
  total := by
    simp only [counted, List.countP_eq_length_filter]
    simpa [ofSeverity, Nat.add_assoc] using g.perm_ofSeverity.length_eq
  errors := by
    rw [hasErrors, decide_eq_true_iff, counted, List.countP_pos_iff]
    simp only [decide_eq_true_eq]
  ordered s := List.filter_sublist
  disjoint s t apart e first second := by
    rw [ofSeverity, List.mem_filter, decide_eq_true_eq] at first second
    exact apart (first.2.symm.trans second.2)
  complete := g.perm_ofSeverity

end Emitter

namespace Broadcast

variable {b b' : Broadcast} {action : Action}

/-! ## Actions -/

/-- All that an action can do to the record. -/
inductive Recorded (b : Broadcast) : Action → Broadcast → Prop
  | kept {action : Action} {b' : Broadcast} : action ≠ .clear →
      b'.emitter.events = b.emitter.events → b'.emitter.tally = b.emitter.tally →
      Recorded b action b'
  | added {action : Action} {r : Report} {b' : Broadcast} : action.report? = some r →
      ¬ r.severity < b.emitter.minSeverity →
      b'.emitter.events = b.emitter.events ++ [b.emitter.tagged r] →
      b'.emitter.tally = b.emitter.tally.add r.severity → Recorded b action b'
  | cleared {b' : Broadcast} : b'.emitter.events = [] → b'.emitter.tally = {} →
      Recorded b .clear b'

theorem recorded_report {r : Report} (isReport : action.report? = some r)
    (notClear : action ≠ .clear) : Recorded b action (b.report r) := by
  rw [report]
  split
  · exact .kept notClear rfl rfl
  · next serious => exact .added isReport serious rfl rfl

theorem recorded_of_step? (h : b.step? action = some b') : Recorded b action b' := by
  rw [step?] at h
  split at h
  · cases action with
    | emit r =>
      cases h
      exact recorded_report rfl nofun
    | emitError area e =>
      cases h
      exact recorded_report rfl nofun
    | setMinSeverity s | observe o | openScope slide =>
      cases h
      exact .kept nofun rfl rfl
    | closeScope place =>
      obtain ⟨scope, -, rfl⟩ := Option.map_eq_some_iff.1 h
      exact .kept nofun rfl rfl
    | clear =>
      cases h
      exact .cleared rfl rfl
    | notify =>
      rw [act?, notify?] at h
      split at h
      · cases h
      · split at h <;> (cases h; exact .kept nofun rfl rfl)
  · cases h

/-! ## Runs -/

theorem run?_nil : b.run? [] = some b' ↔ b = b' := by
  simp [run?]

theorem run?_cons {rest : List Action} :
    b.run? (action :: rest) = some b' ↔
      ∃ next, b.step? action = some next ∧ next.run? rest = some b' :=
  Option.bind_eq_some_iff

theorem run?_append {first second : List Action} :
    b.run? (first ++ second) = some b' ↔
      ∃ mid, b.run? first = some mid ∧ mid.run? second = some b' := by
  rw [run?, List.foldlM_append]
  exact Option.bind_eq_some_iff

theorem run?_snoc {actions : List Action} :
    b.run? (actions ++ [action]) = some b' ↔
      ∃ mid, b.run? actions = some mid ∧ mid.step? action = some b' := by
  simp [run?_append, run?_cons, run?_nil]

/-- The counts are those of the recorded events. -/
def Counted (b : Broadcast) : Prop :=
  ∀ s, b.emitter.count s = b.emitter.events.countP fun e => e.severity = s

theorem Recorded.counted (h : Recorded b action b') (counted : b.Counted) : b'.Counted := by
  intro s
  have before := counted s
  rw [Emitter.count] at before
  cases h with
  | kept _ events tally => rw [Emitter.count, events, tally, before]
  | @added _ r _ _ _ events tally =>
    have one : [b.emitter.tagged r].countP (fun e => e.severity = s)
        = if r.severity = s then 1 else 0 := by
      simp [Emitter.tagged]
    rw [Emitter.count, events, tally, Tally.count_add, before, List.countP_append, one]
  | cleared events tally =>
    rw [Emitter.count, events, tally]
    cases s <;> rfl

theorem run?_counted {actions : List Action} (run : b.run? actions = some b')
    (counted : b.Counted) : b'.Counted := by
  induction actions generalizing b with
  | nil => exact run?_nil.1 run ▸ counted
  | cons action rest ih =>
    obtain ⟨next, first, later⟩ := run?_cons.1 run
    exact ih later ((recorded_of_step? first).counted counted)

/-- Without clearing, events are only added behind those that there are. -/
theorem run?_growing {actions : List Action} (run : b.run? actions = some b')
    (uncleared : .clear ∉ actions) : b.emitter.events <+: b'.emitter.events := by
  induction actions generalizing b with
  | nil => exact run?_nil.1 run ▸ List.prefix_refl _
  | cons action rest ih =>
    obtain ⟨next, first, later⟩ := run?_cons.1 run
    obtain ⟨here, there⟩ := not_or.1 (mt List.mem_cons.2 uncleared)
    refine List.IsPrefix.trans ?_ (ih later there)
    cases recorded_of_step? first with
    | kept _ events _ => exact events ▸ List.prefix_refl _
    | added _ _ events _ => exact events ▸ List.prefix_append ..
    | cleared => exact absurd rfl here

/-! ## Origins -/

/-- An event at a place of the record was added there by an action, at a moment when the report that
this action makes was serious enough and the event's slide was current, and the record has not been
cleared since. -/
def Origin (start : Broadcast) (actions : List Action) (b : Broadcast) (place : Nat) (e : Event) :
    Prop :=
  ∃ before action after mid r, actions = before ++ action :: after ∧
    start.run? before = some mid ∧ action.report? = some r ∧ e.toReport = r ∧
    ¬ r.severity < mid.emitter.minSeverity ∧ e.slide = mid.emitter.slide ∧
    mid.emitter.events = b.emitter.events.take place ∧ .clear ∉ after

theorem run?_origin {start : Broadcast} (fresh : start.emitter.events = []) {actions : List Action}
    (run : start.run? actions = some b) {place : Nat} {e : Event}
    (there : b.emitter.events[place]? = some e) : Origin start actions b place e := by
  induction actions using List.reverseRecOn generalizing b with
  | nil =>
    rw [← run?_nil.1 run, fresh] at there
    cases there
  | append_singleton actions action ih =>
    obtain ⟨previous, earlier, last⟩ := run?_snoc.1 run
    -- What was there before the last action is still at its place.
    have older : previous.emitter.events[place]? = some e → action ≠ .clear →
        previous.emitter.events <+: b.emitter.events →
        Origin start (actions ++ [action]) b place e := by
      rintro known notClear ⟨more, grown⟩
      obtain ⟨before, cause, after, mid, r, rfl, reached, isReport, report, serious, slide, events,
        uncleared⟩ := ih earlier known
      have inside : place ≤ previous.emitter.events.length :=
        Nat.le_of_lt (List.getElem?_eq_some_iff.1 known).1
      refine ⟨before, cause, after ++ [action], mid, r, by simp, reached, isReport, report, serious,
        slide, ?_, ?_⟩
      · rw [events, ← grown, List.take_append_of_le_length inside]
      · simpa [uncleared] using notClear.symm
    cases recorded_of_step? last with
    | kept notClear events tally =>
      exact older (events ▸ there) notClear (events ▸ List.prefix_refl _)
    | @added _ r _ isReport serious events _ =>
      by_cases known : place < previous.emitter.events.length
      · rw [events, List.getElem?_append_left known] at there
        refine older there ?_ (events ▸ List.prefix_append ..)
        rintro rfl
        cases isReport
      · -- The event is the one that the last action added.
        have single := there
        rw [events, List.getElem?_append_right (Nat.le_of_not_lt known)] at single
        obtain ⟨last, rfl⟩ := List.getElem?_eq_some_iff.1 single
        obtain rfl : place = previous.emitter.events.length := by
          simp only [List.length_cons, List.length_nil] at last
          omega
        refine ⟨actions, action, [], previous, r, rfl, earlier, isReport, by simp [Emitter.tagged],
          serious, by simp [Emitter.tagged], ?_, List.not_mem_nil⟩
        rw [events, List.take_left]
    | cleared events tally =>
      rw [events] at there
      cases there

/-! ## Known answers -/

/-- An action by which observers answer an event, or by which a notification goes on. -/
def Action.IsReaction (action : Action) : Prop :=
  action = .notify ∨ ∃ r, action = .emit r

/-- One state of a broadcast leads to another by answers of observers. -/
def Reaches (b b' : Broadcast) : Prop :=
  ∃ actions, (∀ action ∈ actions, action.IsReaction) ∧ b.run? actions = some b'

theorem Reaches.refl (b : Broadcast) : Reaches b b :=
  ⟨[], nofun, rfl⟩

theorem Reaches.trans {b'' : Broadcast} (first : Reaches b b') (second : Reaches b' b'') :
    Reaches b b'' := by
  obtain ⟨actions, reactions, run⟩ := first
  obtain ⟨actions', reactions', run'⟩ := second
  exact ⟨actions ++ actions', List.forall_mem_append.2 ⟨reactions, reactions'⟩,
    run?_append.2 ⟨b', run, run'⟩⟩

theorem reaches_step (reaction : action.IsReaction) (h : b.step? action = some b') : Reaches b b' :=
  ⟨[action], List.forall_mem_singleton.2 reaction, run?_cons.2 ⟨b', h, rfl⟩⟩

/-- The broadcast with its emitter changed by some function. -/
def through (b : Broadcast) (f : Emitter → Emitter) : Broadcast :=
  { b with emitter := f b.emitter }

theorem reaches_foldl {α : Type} {step : Emitter → α → Emitter}
    (each : ∀ (b : Broadcast) (a : α), b.isOpen → Reaches b (b.through (step · a))) (as : List α)
    (isOpen : b.isOpen) : Reaches b (b.through (as.foldl step ·)) := by
  induction as generalizing b with
  | nil => exact .refl b
  | cons a as ih => exact (each b a isOpen).trans (ih (b := b.through (step · a)) isOpen)

/-- The observers see the innermost event one by one, and each answers with what it is known to
answer. -/
theorem reaches_observers {answer : Report → Emitter → Emitter}
    (answers : ∀ (b : Broadcast) (r : Report), b.isOpen → Reaches b (b.through (answer r)))
    (e : Event) (observers : List (Observer × Nat)) (g : Emitter) (current : Option Nat)
    (outer : List Notification) (scopes : List Emitter.Scope) :
    ∃ last, Reaches ⟨g, ⟨e, current, observers.map Prod.snd⟩ :: outer, scopes⟩
      ⟨observers.foldl (fun g (observer, i) =>
        (observer.replies e).foldl (fun g reply => answer reply g) (g.see i e)) g,
        ⟨e, last, []⟩ :: outer, scopes⟩ := by
  induction observers generalizing g current with
  | nil => exact ⟨current, .refl _⟩
  | cons o observers ih =>
    have sees : Reaches ⟨g, ⟨e, current, (o :: observers).map Prod.snd⟩ :: outer, scopes⟩
        ⟨g.see o.2 e, ⟨e, some o.2, observers.map Prod.snd⟩ :: outer, scopes⟩ :=
      reaches_step (.inl rfl) rfl
    have replies := reaches_foldl (fun b r => answers b r) (o.1.replies e)
      (b := ⟨g.see o.2 e, ⟨e, some o.2, observers.map Prod.snd⟩ :: outer, scopes⟩) rfl
    obtain ⟨last, others⟩ := ih _ (some o.2)
    exact ⟨last, (sees.trans replies).trans others⟩

theorem step?_emit (isOpen : b.isOpen) (r : Report) : b.step? (.emit r) = some (b.report r) :=
  if_pos isOpen

/-- A report followed by the answers of the observers, at any level of answers to answers. -/
theorem reaches_report {levels : Nat}
    (answers : ∀ (b : Broadcast) (r : Report), b.isOpen →
      Reaches b (b.through (Emitter.emitWithin levels r)))
    (b : Broadcast) (r : Report) :
    Reaches (b.report r) (b.through (Emitter.emitWithin (levels + 1) r)) := by
  by_cases minor : r.severity < b.emitter.minSeverity
  · have unchanged : b.through (Emitter.emitWithin (levels + 1) r) = b.report r := by
      rw [report, if_pos minor, through, Emitter.emitWithin, if_pos minor]
    exact unchanged ▸ .refl _
  · have numbers : List.range b.emitter.observers.length
        = b.emitter.observers.zipIdx.map Prod.snd := by
      rw [List.zipIdx_map_snd, List.range_eq_range']
    rw [report, if_neg minor, through, Emitter.emitWithin, if_neg minor, numbers]
    obtain ⟨last, seen⟩ := reaches_observers answers (b.emitter.tagged r) b.emitter.observers.zipIdx
      (b.emitter.record (b.emitter.tagged r)) none b.notifications b.scopes
    exact seen.trans (reaches_step (.inl rfl) rfl)

theorem reaches_emitWithin (levels : Nat) (b : Broadcast) (r : Report) (isOpen : b.isOpen) :
    Reaches b (b.through (Emitter.emitWithin levels r)) := by
  induction levels generalizing b r with
  | zero => exact .refl b
  | succ levels ih =>
    exact (reaches_step (.inr ⟨r, rfl⟩) (step?_emit isOpen r)).trans (reaches_report ih b r)

/-- Where the answers of observers are known, what a report comes to is a course of the broadcast
that begins with the report and goes on with answers. -/
theorem emit_reached (b : Broadcast) (r : Report) (isOpen : b.isOpen) :
    ∃ answers, (∀ action ∈ answers, action.IsReaction) ∧
      b.run? (.emit r :: answers) = some { b with emitter := b.emitter.emit r } := by
  obtain ⟨answers, reactions, run⟩ :=
    reaches_report (fun b r => reaches_emitWithin 63 b r) b r
  exact ⟨answers, reactions, run?_cons.2 ⟨_, step?_emit isOpen r, run⟩⟩

/-! ## The books -/

/-- **Consistent books.**  Whatever is done to an emitter, by a program and by observers in the
middle of notifications, at every moment its counts are those of the recorded events, its queries
divide these among the three severities in the order of the record, and each event stems from a
report that was serious enough while the slide that it shows was current.  Events are only ever
added behind those that there are, until the record and the counts are cleared together.  Reporting
to observers whose answers are known is among the things that may be done. -/
theorem run?_consistent {actions : List Action} (run : ({} : Broadcast).run? actions = some b) :
    b.emitter.Consistent ∧
      (∀ (place : Nat) (e : Event), b.emitter.events[place]? = some e →
        Origin {} actions b place e) ∧
      (∀ (before after : List Action) (mid : Broadcast), actions = before ++ after →
        ({} : Broadcast).run? before = some mid → .clear ∉ after →
        mid.emitter.events <+: b.emitter.events) ∧
      (∀ before : List Action, actions = before ++ [.clear] →
        b.emitter.events = [] ∧ ∀ s, b.emitter.count s = 0) ∧
      ∀ r : Report, b.isOpen → ∃ answers, (∀ action ∈ answers, action.IsReaction) ∧
        b.run? (.emit r :: answers) = some { b with emitter := b.emitter.emit r } := by
  have counted : ({} : Broadcast).Counted := fun s => by cases s <;> rfl
  refine ⟨Emitter.consistent_of_counted (run?_counted run counted),
    fun _ _ there => run?_origin rfl run there, ?_, ?_, fun r isOpen => emit_reached b r isOpen⟩
  · rintro before after mid rfl reached uncleared
    obtain ⟨mid', reached', rest⟩ := run?_append.1 run
    cases reached.symm.trans reached'
    exact run?_growing rest uncleared
  · rintro before rfl
    obtain ⟨mid, -, last⟩ := run?_snoc.1 run
    cases recorded_of_step? last with
    | kept notClear => exact absurd rfl notClear
    | added isReport => cases isReport
    | cleared events tally =>
      refine ⟨events, fun s => ?_⟩
      rw [Emitter.count, tally]
      cases s <;> rfl

/-- A report on a slide, in the middle of whose notification the first of two observers leaves the
slide, raises the minimum, and makes a report, to which it then answers in vain. -/
def interruption : List Action :=
  [.observe {}, .observe {}, .openScope 3,
    .emit { area := .ascii "layout", stage := .ascii "text", message := .ascii "narrow" }, .notify,
    .closeScope 0, .setMinSeverity .warning,
    .emit { severity := .error, area := [], stage := [], message := .ascii "stop" }, .notify,
    .emit { area := [], stage := [], message := .ascii "go on" }]

/-- In the middle of two notifications, there are an event on the slide and one on none. -/
theorem interruption_consistent :
    ∃ b, ({} : Broadcast).run? interruption = some b ∧ b.notifications.length = 2 ∧
      b.emitter.events.map Event.slide = [3, 0] ∧ b.emitter.Consistent ∧
      ∀ (place : Nat) (e : Event), b.emitter.events[place]? = some e →
        Origin {} interruption b place e := by
  have state : (({} : Broadcast).run? interruption).map
      (fun b => (b.notifications.length, b.emitter.events.map Event.slide))
      = some (2, [3, 0]) := by
    decide +kernel
  obtain ⟨b, run, known⟩ := Option.map_eq_some_iff.1 state
  obtain ⟨depth, slides⟩ := Prod.mk.inj known
  obtain ⟨consistent, origin, -⟩ := run?_consistent run
  exact ⟨b, run, depth, slides, consistent, origin⟩

end Broadcast

end SlideDeck
