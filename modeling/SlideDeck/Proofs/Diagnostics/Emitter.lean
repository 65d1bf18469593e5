import SlideDeck.Diagnostics.Emitter

/-! # What a report does to an emitter

Reporting appends to the record and touches nothing that later reports depend
on (`emit_grown`).  Where no observer answers, it appends exactly one event,
counts it, and shows it to every observer once (`emit_of_passive`).

An observer may report from within a report, and others may answer that.  What
holds of one report is therefore proved for any bound on the levels of answers,
by induction on it. -/

namespace SlideDeck

/-- An emitter has further events after the ones that it had, and all that a report depends on is
as it was. -/
structure Emitter.Grown (g h : Emitter) : Prop where
  events : g.events <+: h.events
  observers : h.observers = g.observers
  slide : h.slide = g.slide
  minSeverity : h.minSeverity = g.minSeverity

namespace Emitter

variable {g h : Emitter}

theorem Grown.refl (g : Emitter) : Grown g g :=
  ⟨List.prefix_refl _, rfl, rfl, rfl⟩

theorem Grown.trans {i : Emitter} (first : Grown g h) (second : Grown h i) : Grown g i :=
  ⟨first.events.trans second.events, second.observers.trans first.observers,
    second.slide.trans first.slide, second.minSeverity.trans first.minSeverity⟩

theorem grown_foldl {α : Type} {step : Emitter → α → Emitter} (grown : ∀ g a, Grown g (step g a))
    (as : List α) (g : Emitter) : Grown g (as.foldl step g) := by
  induction as generalizing g with
  | nil => exact .refl g
  | cons a as ih => exact (grown g a).trans (ih (step g a))

theorem grown_record (g : Emitter) (e : Event) : Grown g (g.record e) :=
  ⟨List.prefix_append .., rfl, rfl, rfl⟩

theorem grown_see (g : Emitter) (observer : Nat) (e : Event) : Grown g (g.see observer e) :=
  ⟨List.prefix_refl _, rfl, rfl, rfl⟩

/-- A report that is recorded goes on from there; only observers follow. -/
theorem grown_of_record {levels : Nat}
    (answers : ∀ (r : Report) (g : Emitter), Grown g (emitWithin levels r g)) {r : Report}
    (serious : ¬ r.severity < g.minSeverity) :
    Grown (g.record (g.tagged r)) (emitWithin (levels + 1) r g) := by
  rw [emitWithin, if_neg serious]
  refine grown_foldl (fun g o => ?_) _ _
  exact (grown_see g o.2 _).trans (grown_foldl (fun g reply => answers reply g) _ _)

theorem grown_emitWithin (levels : Nat) (r : Report) (g : Emitter) :
    Grown g (emitWithin levels r g) := by
  induction levels generalizing r g with
  | zero => exact .refl g
  | succ levels ih =>
    by_cases minor : r.severity < g.minSeverity
    · rw [emitWithin, if_pos minor]
      exact .refl g
    · exact (grown_record g _).trans (grown_of_record ih minor)

/-- A report that is serious enough is recorded, and then only observers follow. -/
theorem emit_grown {r : Report} (serious : ¬ r.severity < g.minSeverity) :
    Grown (g.record (g.tagged r)) (g.emit r) :=
  grown_of_record (grown_emitWithin _) serious

/-! ## Observers that answer nothing -/

/-- No observer answers any event. -/
def Passive (g : Emitter) : Prop :=
  ∀ o ∈ g.observers, ∀ e, o.replies e = []

theorem foldl_see {e : Event} {levels : Nat} {observers : List (Observer × Nat)}
    (passive : ∀ o ∈ observers, o.1.replies e = []) (g : Emitter) :
    observers.foldl (fun g (observer, i) =>
        (observer.replies e).foldl (fun g reply => emitWithin levels reply g) (g.see i e)) g
      = { g with sightings := g.sightings ++ observers.map fun o => ⟨o.2, e⟩ } := by
  induction observers generalizing g with
  | nil => simp
  | cons o observers ih =>
    obtain ⟨silent, others⟩ := List.forall_mem_cons.1 passive
    rw [List.foldl_cons, ih others]
    simp [silent, see]

/-- A report that no observer answers is one event, counted once and seen by each observer once. -/
theorem emitWithin_of_silent {levels : Nat} {r : Report} (serious : ¬ r.severity < g.minSeverity)
    (silent : ∀ o ∈ g.observers, o.replies (g.tagged r) = []) :
    emitWithin (levels + 1) r g = { g with
      events := g.events ++ [g.tagged r]
      tally := g.tally.add r.severity
      sightings := g.sightings ++ g.observers.zipIdx.map fun o => ⟨o.2, g.tagged r⟩ } := by
  have none : ∀ o ∈ g.observers.zipIdx, o.1.replies (g.tagged r) = [] :=
    fun o among => silent o.1 (List.fst_mem_of_mem_zipIdx among)
  rw [emitWithin, if_neg serious]
  exact foldl_see none _

theorem emit_of_passive (passive : g.Passive) {r : Report}
    (serious : ¬ r.severity < g.minSeverity) :
    g.emit r = { g with
      events := g.events ++ [g.tagged r]
      tally := g.tally.add r.severity
      sightings := g.sightings ++ g.observers.zipIdx.map fun o => ⟨o.2, g.tagged r⟩ } :=
  emitWithin_of_silent serious fun o among => passive o among _

/-- No minimum is so high that an error is not recorded. -/
theorem not_error_lt (s : Severity) : ¬ Severity.error < s := by
  cases s <;> decide

end Emitter

end SlideDeck
