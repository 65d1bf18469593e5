import SlideDeck.Deck.Session
import SlideDeck.Proofs.Diagnostics.Emitter

/-! # Warnings about layouts

What a report adds to the warnings about layouts that an emitter has recorded:
itself, if it is one (`warned_emit`), and nothing else.

* `Emitter.Attentive`: warnings are recorded, and no observer answers with one
  about a layout.
* `Emitter.Warned`: further events are recorded, with given warnings about
  layouts among them.

Attentive observers may answer with other reports.  These are recorded between
the warnings, and so what is said of them is only that they are no warnings about
layouts, at any level of answers to answers. -/

namespace SlideDeck

/-- A warning about a layout, as it is made of a note. -/
def Report.isOverflow (r : Report) : Bool :=
  r.severity = .warning ∧ r.area = .ascii "layout"

/-- The event that a report is recorded as while a slide is current. -/
def Report.on (r : Report) (slide : Nat) : Event :=
  { r with slide }

/-- The report on a slide, if it is a warning about a layout. -/
def Report.warnings (r : Report) (slide : Nat) : List Event :=
  if r.isOverflow then [r.on slide] else []

/-- The warnings about the notes of a slide. -/
def RenderedSlide.warnings (r : RenderedSlide) : List Event :=
  r.notes.map fun n => (noteReport n).on (r.index + 1)

theorem Report.warnings_of_quiet {r : Report} (quiet : r.isOverflow = false) (slide : Nat) :
    r.warnings slide = [] := by
  simp [warnings, quiet]

theorem flatMap_warnings_of_quiet {reports : List Report}
    (quiet : ∀ r ∈ reports, r.isOverflow = false) (slide : Nat) :
    reports.flatMap (·.warnings slide) = [] :=
  List.flatMap_eq_nil_iff.2 fun r among => r.warnings_of_quiet (quiet r among) slide

theorem warnings_noteReport (n : LayoutNote) (slide : Nat) :
    (noteReport n).warnings slide = [(noteReport n).on slide] :=
  if_pos rfl

theorem warnings_noteReports (r : RenderedSlide) :
    (r.notes.map noteReport).flatMap (·.warnings (r.index + 1)) = r.warnings := by
  simp only [List.flatMap_map, warnings_noteReport]
  exact List.map_eq_flatMap.symm

namespace Emitter

variable {g h : Emitter} {r : Report}

/-- The warnings about layouts among the recorded events. -/
def overflows (g : Emitter) : List Event :=
  g.events.filter (·.isOverflow)

/-- Warnings are recorded, and no observer answers with one about a layout. -/
structure Attentive (g : Emitter) : Prop where
  recorded : ¬ Severity.warning < g.minSeverity
  quiet : ∀ o ∈ g.observers, ∀ e, ∀ reply ∈ o.replies e, reply.isOverflow = false

theorem Attentive.of_grown (attentive : g.Attentive) (grown : Grown g h) : h.Attentive where
  recorded := grown.minSeverity ▸ attentive.recorded
  quiet := grown.observers ▸ attentive.quiet

/-- Further events are recorded, and these are the warnings about layouts among them. -/
structure Warned (g h : Emitter) (warnings : List Event) : Prop where
  events : g.events <+: h.events
  overflows : h.overflows = g.overflows ++ warnings
  attentive : g.Attentive → h.Attentive

theorem Warned.refl (g : Emitter) : Warned g g [] :=
  ⟨List.prefix_refl _, (List.append_nil _).symm, id⟩

theorem Warned.trans {i : Emitter} {first second : List Event} (before : Warned g h first)
    (after : Warned h i second) : Warned g i (first ++ second) where
  events := before.events.trans after.events
  overflows := by rw [after.overflows, before.overflows, List.append_assoc]
  attentive := after.attentive ∘ before.attentive

/-- What is recorded further, without any warnings about layouts. -/
theorem Warned.then_quiet {i : Emitter} {warnings : List Event} (before : Warned g h warnings)
    (after : Warned h i []) : Warned g i warnings :=
  List.append_nil warnings ▸ before.trans after

theorem warned_foldl {α : Type} {step : Emitter → α → Emitter} {warnings : α → List Event}
    {as : List α} (each : ∀ g : Emitter, g.Attentive → ∀ a ∈ as, Warned g (step g a) (warnings a))
    (attentive : g.Attentive) : Warned g (as.foldl step g) (as.flatMap warnings) := by
  induction as generalizing g with
  | nil => exact .refl g
  | cons a as ih =>
    have first := each g attentive a List.mem_cons_self
    have others := ih (fun g attentive a among => each g attentive a (List.mem_cons_of_mem _ among))
      (first.attentive attentive)
    exact first.trans others

theorem quiet_foldl {α : Type} {step : Emitter → α → Emitter} {as : List α}
    (each : ∀ g : Emitter, g.Attentive → ∀ a ∈ as, Warned g (step g a) [])
    (attentive : g.Attentive) : Warned g (as.foldl step g) [] := by
  have none : (as.flatMap fun _ => ([] : List Event)) = [] := by simp
  exact none ▸ warned_foldl each attentive

/-! ## Reports -/

theorem warned_record (g : Emitter) (r : Report) :
    Warned g (g.record (g.tagged r)) (r.warnings g.slide) where
  events := List.prefix_append ..
  overflows := by
    have same : (g.tagged r).isOverflow = r.isOverflow := rfl
    rw [overflows, record, List.filter_append, List.filter_cons, same]
    rfl
  attentive attentive := attentive.of_grown (grown_record g _)

theorem warned_see (g : Emitter) (observer : Nat) (e : Event) : Warned g (g.see observer e) [] where
  events := List.prefix_refl _
  overflows := (List.append_nil _).symm
  attentive attentive := attentive.of_grown (grown_see g observer e)

/-- Once a report is recorded, only answers follow. -/
theorem quiet_of_record {levels : Nat}
    (answers : ∀ (r : Report) (g : Emitter), g.Attentive → r.isOverflow = false →
      Warned g (emitWithin levels r g) [])
    (attentive : g.Attentive) (serious : ¬ r.severity < g.minSeverity) :
    Warned (g.record (g.tagged r)) (emitWithin (levels + 1) r g) [] := by
  rw [emitWithin, if_neg serious]
  refine quiet_foldl (fun h attentive' o among => ?_) (attentive.of_grown (grown_record g _))
  have quiet := attentive.quiet o.1 (List.fst_mem_of_mem_zipIdx among) (g.tagged r)
  have seen := warned_see h o.2 (g.tagged r)
  exact seen.then_quiet (quiet_foldl (fun h attentive reply there =>
    answers reply h attentive (quiet reply there)) (seen.attentive attentive'))

theorem quiet_emitWithin {levels : Nat} (attentive : g.Attentive) (quiet : r.isOverflow = false) :
    Warned g (emitWithin levels r g) [] := by
  induction levels generalizing r g with
  | zero => exact .refl g
  | succ levels ih =>
    by_cases minor : r.severity < g.minSeverity
    · rw [emitWithin, if_pos minor]
      exact .refl g
    · have recorded := warned_record g r
      rw [r.warnings_of_quiet quiet] at recorded
      exact recorded.then_quiet (quiet_of_record (fun _ _ => ih) attentive minor)

theorem quiet_emit (attentive : g.Attentive) (quiet : r.isOverflow = false) :
    Warned g (g.emit r) [] :=
  quiet_emitWithin attentive quiet

/-- A report is recorded as a warning about a layout if it is one. -/
theorem warned_emit (attentive : g.Attentive) (r : Report) :
    Warned g (g.emit r) (r.warnings g.slide) := by
  cases overflow : r.isOverflow with
  | false =>
    rw [r.warnings_of_quiet overflow]
    exact quiet_emit attentive overflow
  | true =>
    have warning : r.severity = .warning := (decide_eq_true_iff.1 overflow).1
    have serious : ¬ r.severity < g.minSeverity := warning ▸ attentive.recorded
    exact (warned_record g r).then_quiet
      (quiet_of_record (fun _ _ => quiet_emitWithin) attentive serious)

@[simp] theorem emit_slide (g : Emitter) (r : Report) : (g.emit r).slide = g.slide :=
  (grown_emitWithin _ r g).slide

/-! ## Scopes -/

theorem warned_emits (attentive : g.Attentive) (reports : List Report) :
    Warned g (reports.foldl emit g) (reports.flatMap (·.warnings g.slide)) := by
  induction reports generalizing g with
  | nil => exact .refl g
  | cons r reports ih =>
    have first := warned_emit attentive r
    have others := ih (first.attentive attentive)
    rw [emit_slide] at others
    exact first.trans others

theorem warned_emitOn (attentive : g.Attentive) (slide : Nat) (reports : List Report) :
    Warned g (g.emitOn slide reports) (reports.flatMap (·.warnings slide)) := by
  have inside : ({ g with slide } : Emitter).Attentive := ⟨attentive.recorded, attentive.quiet⟩
  have warned := warned_emits inside reports
  exact ⟨warned.events, warned.overflows, fun _ =>
    have after := warned.attentive inside
    ⟨after.recorded, after.quiet⟩⟩

@[simp] theorem emitOn_slide (g : Emitter) (slide : Nat) (reports : List Report) :
    (g.emitOn slide reports).slide = g.slide := rfl

end Emitter

end SlideDeck
