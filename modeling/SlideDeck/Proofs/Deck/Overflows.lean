import SlideDeck.Proofs.Deck.Failure
import SlideDeck.Proofs.Deck.Interleaved
import SlideDeck.Proofs.Diagnostics.Overflows

/-! # Warnings between two invalidations

Between two operations that make a session forget its renderings, a slide that is
rendered at all is warned about exactly once, however often and by whatever way it
is rendered (`Attained.overflows_once`).

* `Session.Asked`: asking for slides makes them known, and those of them that were
  not known before are warned about, each once.
* `Session.Epoch` is what happens to a session until it forgets its renderings.
* `asked_of_answers`: one slide, and all slides by any interleaving, are asked for
  in the same way.

A slide is reported just where it was not known before, so what is asked for in
two parts comes to the same as what is asked for at once (`Asked.trans`).  It
does not matter, then, that one way to render keeps a slide before its warnings
and the other way has kept all slides before the first of theirs. -/

namespace SlideDeck

open scoped List

variable {image : Nat → RenderedSlide}

/-! ## Lists of warnings -/

theorem flatMap_filter {α β : Type} (p : α → Bool) (f : α → List β) (as : List α) :
    (as.filter p).flatMap f = as.flatMap fun a => if p a then f a else [] := by
  induction as with
  | nil => rfl
  | cons a as ih => cases holds : p a <;> simp [holds, ih]

theorem RenderedSlide.filter_warnings (r : RenderedSlide) (slide : Nat) :
    r.warnings.filter (·.slide = slide) = if r.index + 1 = slide then r.warnings else [] := by
  split
  · next same => simp [warnings, Report.on, same]
  · next other => simp [warnings, Report.on, other]

/-- Of the warnings about different slides, those about one of them are all its own. -/
theorem filter_warnings {slides : List Nat} (nodup : slides.Nodup)
    (atIndex : ∀ i ∈ slides, (image i).index = i) (index : Nat) :
    (slides.flatMap fun i => (image i).warnings).filter (·.slide = index + 1)
      = if index ∈ slides then (image index).warnings else [] := by
  induction slides with
  | nil => rfl
  | cons i slides ih =>
    obtain ⟨first, others⟩ := List.forall_mem_cons.1 atIndex
    obtain ⟨fresh, nodup⟩ := List.nodup_cons.1 nodup
    rw [List.flatMap_cons, List.filter_append, ih nodup others, RenderedSlide.filter_warnings,
      first]
    by_cases same : i = index
    · subst same
      simp [fresh]
    · simp [same, Ne.symm same]

namespace Session

variable {s t u : Session} {source? : Option Bytes} {asked searched order : List Nat} {index : Nat}

/-! ## Asking for slides -/

/-- Laying out the slides of the current deck, if there is one, gives these images. -/
def Pictured (s : Session) (image : Nat → RenderedSlide) : Prop :=
  ∀ d, s.deck = some d → s.Draws d.slides image

/-- The slides that an operation asks for, of those that there are. -/
def requests (s : Session) : Operation → List Nat
  | .render index => if index < s.deckSize then [index] else []
  | .renderAll => List.range s.deckSize
  | _ => []

/-- Slides have been asked for.  They are known now, and those of them that were not known before
have been warned about, each once. -/
structure Asked (s : Session) (image : Nat → RenderedSlide) (asked : List Nat) (t : Session) : Prop
    extends Unmoved s t where
  unknown : ∀ i, t.known i = none ↔ s.known i = none ∧ i ∉ asked
  once : ∃ fresh : List Nat, fresh.Nodup ∧ (∀ i, i ∈ fresh ↔ s.known i = none ∧ i ∈ asked) ∧
    s.diagnostics.Warned t.diagnostics (fresh.flatMap fun i => (image i).warnings)

theorem Coherent.exists_pictured (h : Coherent s source?) : ∃ image, s.Pictured image := by
  cases deck : s.deck with
  | none => exact ⟨fun _ => default, fun d there => by cases deck.symm.trans there⟩
  | some d =>
    obtain ⟨image, draws⟩ := h.exists_draws deck
    exact ⟨image, fun d' there => Option.some.inj (deck.symm.trans there) ▸ draws⟩

theorem Unmoved.pictured (h : Unmoved s t) (pictured : s.Pictured image) : t.Pictured image := by
  intro d deck index c there
  rw [h.measurer]
  exact pictured d (h.deck ▸ deck) index c there

namespace Asked

theorem report {f : Emitter → Emitter} (quiet : s.diagnostics.Warned (f s.diagnostics) []) :
    Asked s image [] (s.report f) where
  toUnmoved := ⟨rfl, rfl, rfl⟩
  unknown i := by simp [known, Session.report]
  once := ⟨[], List.nodup_nil, by simp, quiet⟩

theorem refl (s : Session) : Asked s image [] s :=
  report (f := id) (.refl _)

theorem trans {more : List Nat} (first : Asked s image asked t) (second : Asked t image more u) :
    Asked s image (asked ++ more) u where
  toUnmoved := first.toUnmoved.trans second.toUnmoved
  unknown i := by rw [second.unknown, first.unknown, List.mem_append, not_or, and_assoc]
  once := by
    obtain ⟨before, nodup, mem, warned⟩ := first.once
    obtain ⟨after, nodup', mem', warned'⟩ := second.once
    refine ⟨before ++ after, ?_, fun i => ?_, ?_⟩
    · -- What was warned about before is known by then.
      refine nodup.append nodup' fun i old new => ?_
      have unknown := ((mem' i).1 new).1
      exact ((first.unknown i).1 unknown).2 ((mem i).1 old).2
    · rw [List.mem_append, List.mem_append, mem, mem', first.unknown]
      tauto
    · rw [List.flatMap_append]
      exact warned.trans warned'

theorem attentive (h : Asked s image asked t) (attentive : s.diagnostics.Attentive) :
    t.diagnostics.Attentive := by
  obtain ⟨_, _, _, warned⟩ := h.once
  exact warned.attentive attentive

/-- A slide that was asked for is there, and it is known by its image. -/
theorem rendered (h : Asked s image asked t) (coherent : Coherent t source?)
    (pictured : s.Pictured image) (among : index ∈ asked) :
    ∃ d c, s.deck = some d ∧ d.slides[index]? = some c ∧
      c.render index s.measurer = .ok (image index) := by
  have known : t.known index ≠ none := fun unknown => ((h.unknown index).1 unknown).2 among
  obtain ⟨r, found⟩ := Option.ne_none_iff_exists'.1 known
  obtain ⟨-, d, c, deck, there, -⟩ := coherent.current _ r found
  have before : s.deck = some d := h.deck ▸ deck
  exact ⟨d, c, before, there, pictured d before index c there⟩

/-- Where nothing was known before, every slide that was asked for is warned about, each once. -/
theorem warnings (h : Asked s image asked t) (coherent : Coherent t source?)
    (pictured : s.Pictured image) (clear : s.cache = {}) :
    ∃ new, t.diagnostics.events = s.diagnostics.events ++ new ∧
      ∀ i, new.filter (fun e => e.slide = i + 1 ∧ e.isOverflow)
        = if i ∈ asked then (image i).warnings else [] := by
  obtain ⟨fresh, nodup, mem, warned⟩ := h.once
  obtain ⟨new, events⟩ := warned.events
  have all : ∀ i, i ∈ fresh ↔ i ∈ asked := by
    intro i
    rw [mem, known, clear]
    exact and_iff_right rfl
  have atIndex : ∀ i ∈ fresh, (image i).index = i := by
    intro i among
    obtain ⟨d, c, -, -, rendered⟩ := h.rendered coherent pictured ((all i).1 among)
    exact CompiledSlide.index_of_render rendered
  have overflows : new.filter (·.isOverflow) = fresh.flatMap fun i => (image i).warnings := by
    have grown := warned.overflows
    rw [Emitter.overflows, ← events, List.filter_append] at grown
    exact List.append_cancel_left grown
  refine ⟨new, events.symm, fun i => ?_⟩
  have own := filter_warnings nodup atIndex i
  rw [← overflows, List.filter_filter] at own
  simpa [all] using own

end Asked

/-! ## Rendering -/

theorem warned_reportNotes {g : Emitter} (attentive : g.Attentive) (r : Rendering × Bool) :
    g.Warned (reportNotes g r) (if r.2 then r.1.slide.warnings else []) := by
  cases fresh : r.2 with
  | false =>
    rw [reportNotes, fresh]
    exact .refl g
  | true =>
    rw [reportNotes, fresh, if_pos rfl, if_pos rfl, ← warnings_noteReports]
    exact Emitter.warned_emitOn attentive _ _

theorem reportNotes_slide (g : Emitter) (r : Rendering × Bool) :
    (reportNotes g r).slide = g.slide := by
  rw [reportNotes]
  split <;> rfl

theorem foldl_reportNotes_slide (g : Emitter) (results : List (Rendering × Bool)) :
    (results.foldl reportNotes g).slide = g.slide := by
  induction results generalizing g with
  | nil => rfl
  | cons r results ih => rw [List.foldl_cons, ih, reportNotes_slide]

/-- What is answered with warnings is what was not known. -/
theorem warnings_answerAt (i : Nat) :
    (if (s.answerAt image order i).2 then (s.answerAt image order i).1.slide.warnings else [])
      = if (s.known i).isNone then (image i).warnings else [] := by
  cases known : s.known i <;> simp [answerAt, laidOut, known]

theorem known_after_eq_none {i : Nat} :
    (s.after image searched order).known i = none ↔ s.known i = none ∧ i ∉ order := by
  by_cases among : i ∈ order
  · refine iff_of_false (fun none => ?_) fun h => h.2 among
    refine Cache.get?_eq_none.1 none (⟨i, s.options.viewport⟩, s.laidOut image order i) ?_ rfl
    exact List.mem_append_left _ (List.mem_reverse.2 (List.mem_map_of_mem among))
  · rw [known_after among]
    exact (and_iff_left among).symm

/-- Some slides are looked for, those that are not known are laid out in any order, and then their
answers are reported; further reports warn of nothing. -/
theorem asked_of_answers (nodup : asked.Nodup)
    (laid : ∀ i, i ∈ order ↔ s.known i = none ∧ i ∈ asked) (attentive : s.diagnostics.Attentive)
    (reports : List Report) (quiet : ∀ r ∈ reports, r.isOverflow = false) :
    Asked s image asked ((s.after image searched order).report fun g =>
      reports.foldl Emitter.emit ((asked.map (s.answerAt image order)).foldl reportNotes g)) where
  toUnmoved := ⟨rfl, rfl, rfl⟩
  unknown i := by
    show (s.after image searched order).known i = none ↔ _
    rw [known_after_eq_none, laid]
    tauto
  once := by
    refine ⟨asked.filter fun i => (s.known i).isNone, nodup.filter _, fun i => ?_, ?_⟩
    · rw [List.mem_filter, Option.isNone_iff_eq_none, and_comm]
    · have notes : s.diagnostics.Warned
          ((asked.map (s.answerAt image order)).foldl reportNotes s.diagnostics)
          (asked.flatMap fun i => if (s.known i).isNone then (image i).warnings else []) := by
        rw [List.foldl_map]
        refine Emitter.warned_foldl (fun g attentive i _ => ?_) attentive
        exact warnings_answerAt i ▸ warned_reportNotes attentive _
      have others := Emitter.warned_emits (notes.attentive attentive) reports
      rw [flatMap_warnings_of_quiet quiet] at others
      rw [flatMap_filter]
      exact notes.then_quiet others

/-- One slide is looked for, and laid out if it is not known. -/
theorem obtain_after (pictured : s.Pictured image) {d : Deck} (deck : s.deck = some d)
    {c : CompiledSlide} (there : d.slides[index]? = some c) :
    ∃ order, (∀ i, i ∈ order ↔ s.known i = none ∧ i ∈ [index]) ∧
      s.obtain index c = (.ok (s.answerAt image order index), s.after image [index] order) := by
  cases known : s.known index with
  | some r =>
    refine ⟨[], fun i => ?_, ?_⟩
    · refine iff_of_false List.not_mem_nil fun ⟨unknown, same⟩ => ?_
      rw [List.mem_singleton.1 same, known] at unknown
      cases unknown
    · rw [obtain_hit known]
      simp [answerAt, after, known]
  | none =>
    have rendered := pictured d deck index c there
    refine ⟨[index], fun i => ?_, ?_⟩
    · refine (and_iff_right_of_imp fun same => ?_).symm
      rw [List.mem_singleton.1 same, known]
    · have answer : s.answerAt image [index] index = (⟨s.nextSerial, image index⟩, true) := by
        simp [answerAt, laidOut, known]
      have state : s.after image [index] [index] = { s with
          cache := {
            entries := (⟨index, s.options.viewport⟩, ⟨s.nextSerial, image index⟩)
              :: s.cache.entries
            hits := s.cache.hits
            misses := s.cache.misses + 1 }
          nextSerial := s.nextSerial + 1 } := by
        simp [after, laidOut, known]
      rw [obtain_miss known rendered, answer, state, ← entries_of_miss known rendered]
      rfl

/-- Rendering a slide asks for it, and no slide stays the current one for reports. -/
theorem render_asked (pictured : s.Pictured image) (attentive : s.diagnostics.Attentive)
    (index : Nat) :
    Asked s image (s.requests (.render index)) (s.render index).2 ∧
      (s.render index).2.diagnostics.slide = s.diagnostics.slide := by
  by_cases below : index < s.deckSize
  case neg =>
    rw [render_beyond (Nat.le_of_not_lt below), requests, if_neg below]
    exact ⟨.refl s, rfl⟩
  rw [requests, if_pos below]
  cases deck : s.deck with
  | none => simp [deckSize, deck] at below
  | some d =>
    have before : index < d.slides.length := by simpa [deckSize, deck] using below
    have there : d.slides[index]? = some d.slides[index] := List.getElem?_eq_getElem before
    obtain ⟨order, laid, answer⟩ := obtain_after pictured deck there
    simp only [render, deck, there, answer]
    refine ⟨?_, reportNotes_slide ..⟩
    exact asked_of_answers (List.nodup_singleton index) laid attentive [] (List.forall_mem_nil _)

/-- Rendering all slides asks for all of them, whatever order they are laid out in. -/
theorem renderAllBy_asked (pictured : s.Pictured image) (attentive : s.diagnostics.Attentive)
    {schedule : List Nat} {outcome : Except SessionFault (List Rendering) × Session}
    (h : s.renderAllBy schedule = some outcome) :
    Asked s image (List.range s.deckSize) outcome.2 ∧
      outcome.2.diagnostics.slide = s.diagnostics.slide := by
  cases deck : s.deck with
  | none =>
    simp only [renderAllBy, deck, Option.some.injEq] at h
    rw [deckSize, deck, ← h]
    exact ⟨.refl s, rfl⟩
  | some d =>
    simp only [renderAllBy, deck, Option.map_eq_some_iff] at h
    obtain ⟨results, run, rfl⟩ := h
    obtain ⟨order, perm, rfl⟩ := obtainBy_after (pictured d deck) run
    have laid : ∀ i, i ∈ order ↔ s.known i = none ∧ i ∈ List.range d.slides.length := by
      intro i
      rw [perm.mem_iff, missing, List.mem_filter, Option.isNone_iff_eq_none, and_comm]
    rw [deckSize, deck]
    refine ⟨asked_of_answers List.nodup_range laid attentive [renderedReport _ _] ?_, ?_⟩
    · exact List.forall_mem_singleton.2 rfl
    · exact (Emitter.emit_slide ..).trans (foldl_reportNotes_slide ..)

/-! ## Operations -/

theorem reportIgnored_quiet {g : Emitter} (attentive : g.Attentive) (slide : Nat)
    (rest : List CompiledSlide) : g.Warned (reportIgnored slide rest g) [] := by
  induction rest generalizing slide g with
  | nil => exact .refl g
  | cons c rest ih =>
    have quiet : ∀ r ∈ c.style.ignoredTargets.map ignoredReport, r.isOverflow = false :=
      List.forall_mem_map.2 fun target _ => rfl
    have first := Emitter.warned_emitOn attentive slide (c.style.ignoredTargets.map ignoredReport)
    rw [flatMap_warnings_of_quiet quiet] at first
    exact first.then_quiet (ih (first.attentive attentive) (slide + 1))

theorem reportIgnored_slide (g : Emitter) (slide : Nat) (rest : List CompiledSlide) :
    (reportIgnored slide rest g).slide = g.slide := by
  induction rest generalizing slide g with
  | nil => rfl
  | cons c rest ih => rw [reportIgnored, ih, Emitter.emitOn_slide]

/-- An operation that forgets warns of no layout, and any other one asks for its slides.  None leaves
another slide current for reports. -/
theorem perform_warned (coherent : Coherent s source?) (kept : Kept s)
    (pictured : s.Pictured image) (attentive : s.diagnostics.Attentive) (op : Operation) :
    (if s.forgets op then s.diagnostics.Warned (s.perform op).diagnostics []
      else Asked s image (s.requests op) (s.perform op)) ∧
      (s.perform op).diagnostics.slide = s.diagnostics.slide := by
  cases op with
  | load source =>
    cases compiled : Deck.compile source s.options with
    | error e =>
      have keeps : s.forgets (.load source) = false := by
        simp [forgets, load, compiled, Outcome.ok]
      rw [keeps, perform, load, compiled]
      exact ⟨.report (Emitter.quiet_emit attentive rfl), Emitter.emit_slide ..⟩
    | ok d =>
      have replaced : s.forgets (.load source) = true := by
        simp [forgets, load, compiled, Outcome.ok]
      have ignored := reportIgnored_quiet attentive 1 d.slides
      rw [replaced, perform, load, compiled]
      exact ⟨ignored.then_quiet (Emitter.quiet_emit (ignored.attentive attentive) rfl),
        (Emitter.emit_slide ..).trans (reportIgnored_slide ..)⟩
  | resize v =>
    by_cases same : v = s.options.viewport
    · have keeps : s.forgets (.resize v) = false := by simp [forgets, same]
      rw [keeps, perform, resize, if_pos same]
      exact ⟨.refl s, rfl⟩
    · have other : s.forgets (.resize v) = true := by simp [forgets, same]
      rw [other, perform, resize, if_neg same]
      cases s.deck with
      | none => exact ⟨.refl _, rfl⟩
      | some d => exact ⟨Emitter.quiet_emit attentive rfl, Emitter.emit_slide ..⟩
  | setMeasurer m => exact ⟨.refl _, rfl⟩
  | render index => exact render_asked pictured attentive index
  | renderAll =>
    -- Rendering one slide after the other is an interleaving.
    obtain ⟨schedule, sequential⟩ := (renderAllBy_reordered coherent kept).1
    exact renderAllBy_asked pictured attentive sequential

/-! ## Epochs -/

/-- What may happen to a session until it forgets its renderings, and the slides that are asked for
meanwhile.  Between operations anything may be done to the emitter that keeps its events, warns of
no layout, and leaves it attentive. -/
inductive Epoch (s : Session) : List Nat → Session → Prop
  | start : Epoch s [] s
  | perform {asked : List Nat} {t : Session} (op : Operation) :
      Epoch s asked t → t.forgets op = false → Epoch s (asked ++ t.requests op) (t.perform op)
  | renderAllBy {asked : List Nat} {t : Session} {schedule : List Nat}
      {outcome : Except SessionFault (List Rendering) × Session} :
      Epoch s asked t → t.renderAllBy schedule = some outcome →
      Epoch s (asked ++ List.range t.deckSize) outcome.2
  | report {asked : List Nat} {t : Session} {f : Emitter → Emitter} :
      Epoch s asked t → t.diagnostics.Warned (f t.diagnostics) [] → Epoch s asked (t.report f)

variable {o : CompileOptions}

theorem Epoch.attained (h : Epoch s asked t) (attained : Attained o s) : Attained o t := by
  induction h with
  | start => exact attained
  | perform op _ _ ih => exact ih.perform op
  | renderAllBy _ run ih => exact ih.renderAllBy run
  | report _ _ ih => exact ih.report _

theorem Epoch.asks (h : Epoch s asked t) (attained : Attained o s) (pictured : s.Pictured image)
    (attentive : s.diagnostics.Attentive) : Asked s image asked t := by
  induction h with
  | start => exact .refl s
  | perform op before keeps ih =>
    obtain ⟨source?, coherent, kept⟩ := (before.attained attained).sound
    obtain ⟨asks, -⟩ :=
      perform_warned coherent kept (ih.pictured pictured) (ih.attentive attentive) op
    rw [keeps] at asks
    exact ih.trans asks
  | renderAllBy _ run ih =>
    exact ih.trans (renderAllBy_asked (ih.pictured pictured) (ih.attentive attentive) run).1
  | report _ quiet ih =>
    have next := ih.trans (.report quiet)
    rwa [List.append_nil] at next

/-- **Every layout is warned about once.**  In every session whose emitter is attentive, an
operation that forgets the renderings warns of no layout.  From there on, until renderings are
forgotten again, the warnings about a slide's layout are those about its notes, each once and in
their order, if the slide is asked for at all, whatever slides are asked for, how often, and by
whatever way, and there are none if it is not asked for.  No operation leaves another slide current
for reports than there was. -/
theorem Attained.overflows_once (h : Attained o s) (attentive : s.diagnostics.Attentive) :
    (∀ op, s.forgets op = true →
      (s.perform op).cache = {} ∧ s.diagnostics.Warned (s.perform op).diagnostics []) ∧
    (s.cache = {} → ∀ asked t, Epoch s asked t → t.diagnostics.Attentive ∧
      ∃ new, t.diagnostics.events = s.diagnostics.events ++ new ∧
        ∀ i, (i ∈ asked → ∃ d c r, s.deck = some d ∧ d.slides[i]? = some c ∧
            c.render i s.measurer = .ok r ∧
            new.filter (fun e => e.slide = i + 1 ∧ e.isOverflow)
              = r.notes.map fun n => (noteReport n).on (i + 1)) ∧
          (i ∉ asked → new.filter (fun e => e.slide = i + 1 ∧ e.isOverflow) = [])) ∧
    (∀ op, (s.perform op).diagnostics.slide = s.diagnostics.slide) ∧
    ∀ schedule outcome, s.renderAllBy schedule = some outcome →
      outcome.2.diagnostics.slide = s.diagnostics.slide := by
  obtain ⟨source?, coherent, kept⟩ := h.sound
  obtain ⟨image, pictured⟩ := coherent.exists_pictured
  have performed := perform_warned coherent kept pictured attentive
  refine ⟨fun op forgets => ⟨(perform_forgets forgets).1, ?_⟩,
    fun clear asked t epoch => ?_, fun op => (performed op).2,
    fun schedule outcome run => (renderAllBy_asked pictured attentive run).2⟩
  · obtain ⟨quiet, -⟩ := performed op
    rwa [if_pos forgets] at quiet
  · have asks := epoch.asks h pictured attentive
    obtain ⟨source?', coherent', -⟩ := (epoch.attained h).sound
    obtain ⟨new, events, own⟩ := asks.warnings coherent' pictured clear
    refine ⟨asks.attentive attentive, new, events, fun i => ⟨fun among => ?_, fun absent => ?_⟩⟩
    · obtain ⟨d, c, deck, there, rendered⟩ := asks.rendered coherent' pictured among
      refine ⟨d, c, image i, deck, there, rendered, ?_⟩
      rw [own, if_pos among, RenderedSlide.warnings, CompiledSlide.index_of_render rendered]
    · rw [own, if_neg absent]

/-- Two slides, of which the first is too narrow for its text. -/
def narrowSlides : Session :=
  (start { viewport := { width := 60, height := 40 } }).perform
    (.load (.ascii "[text(\"wider than its slide\")] [text(\"y\")]"))

/-- The first slide is rendered alone and then with the second, and its one note is one warning. -/
theorem narrowSlides_overflows : narrowSlides.diagnostics.Attentive ∧ narrowSlides.cache = {} ∧
    Epoch narrowSlides [0, 0, 1] ((narrowSlides.perform (.render 0)).perform .renderAll) ∧
    ∃ new d c r,
      ((narrowSlides.perform (.render 0)).perform .renderAll).diagnostics.events
        = narrowSlides.diagnostics.events ++ new ∧
      narrowSlides.deck = some d ∧ d.slides[0]? = some c ∧
      c.render 0 narrowSlides.measurer = .ok r ∧ r.notes.length = 1 ∧
      new.filter (fun e => e.slide = 1 ∧ e.isOverflow)
        = r.notes.map fun n => (noteReport n).on 1 := by
  have started : Attained { viewport := { width := 60, height := 40 } } _ := Attained.start
  have silent : (start { viewport := { width := 60, height := 40 } }).diagnostics.Attentive :=
    ⟨by decide, nofun⟩
  obtain ⟨invalidated, -⟩ := started.overflows_once silent
  obtain ⟨clear, loaded⟩ : narrowSlides.cache = {} ∧
      (start _).diagnostics.Warned narrowSlides.diagnostics [] := invalidated _ (by decide +kernel)
  have reached : Attained _ narrowSlides := started.perform _
  have attentive : narrowSlides.diagnostics.Attentive := loaded.attentive silent
  obtain ⟨-, once, -⟩ := reached.overflows_once attentive
  have first : narrowSlides.requests (.render 0) = [0] := by decide +kernel
  have both : (narrowSlides.perform (.render 0)).requests .renderAll = [0, 1] := by decide +kernel
  have epoch : Epoch narrowSlides [0, 0, 1]
      ((narrowSlides.perform (.render 0)).perform .renderAll) := by
    have alone : Epoch narrowSlides _ _ := Epoch.start.perform (.render 0) rfl
    have ran := alone.perform .renderAll rfl
    rwa [first, both] at ran
  obtain ⟨-, new, events, own⟩ := once clear _ _ epoch
  obtain ⟨d, c, r, deck, there, rendered, warnings⟩ := (own 0).1 (by decide)
  refine ⟨attentive, clear, epoch, new, d, c, r, events, deck, there, rendered, ?_, warnings⟩
  have notes : ((narrowSlides.deck.bind (·.slides[0]?)).map fun c =>
      (c.render 0 narrowSlides.measurer).toOption.map (·.notes.length)) = some (some 1) := by
    decide +kernel
  rw [deck, Option.bind_some, there, Option.map_some, rendered] at notes
  exact Option.some.inj (Option.some.inj notes)

end Session

end SlideDeck
