import Mathlib.Logic.Equiv.Basic
import SlideDeck.Proofs.Deck.Crew
import SlideDeck.Proofs.Pool.Lifecycle

/-! # Rendering in any order

The order in which slides are laid out does not show (`Attained.renderAll_interleaved`).
Serial numbers follow it, and so they are what two interleavings may differ in.

* `Rendering.renumbered` and `Session.Renumbered`: the same up to serial numbers.
* `Session.Attained` are the sessions that there can be, where decks may be
  rendered by interleavings.
* `Deck.renderBy_eq`: a deck that is rendered in any order.

Two orders of the same slides give them the same numbers up to a permutation, and
that leaves the number of every rendering from before alone
(`exists_renumbering`). -/

namespace SlideDeck

open scoped List

/-! ## Serial numbers -/

def Rendering.renumbered (σ : Equiv.Perm Nat) (r : Rendering) : Rendering :=
  { r with serial := σ r.serial }

/-- What is numbered from `start` in one order has other numbers in another order, and these are
the only numbers that change. -/
theorem exists_renumbering {l m : List Nat} (h : l ~ m) (start : Nat) :
    ∃ σ : Equiv.Perm Nat, (∀ k, σ k ≠ k → start ≤ k ∧ k < start + l.length) ∧
      ∀ i ∈ l, σ (start + l.idxOf i) = start + m.idxOf i := by
  induction h generalizing start with
  | nil => exact ⟨Equiv.refl Nat, by simp, by simp⟩
  | @cons x l m _ ih =>
    obtain ⟨σ, moved, renumbers⟩ := ih (start + 1)
    refine ⟨σ, fun k other => ?_, fun i among => ?_⟩
    · have := moved k other
      simp only [List.length_cons]
      omega
    · by_cases equal : x = i
      · have fixed : σ start = start := by
          by_contra other
          have := moved start other
          omega
        simp [equal, fixed]
      · have there : i ∈ l := (List.mem_cons.1 among).resolve_left (Ne.symm equal)
        rw [List.idxOf_cons_ne _ equal, List.idxOf_cons_ne _ equal]
        have := renumbers i there
        simpa [Nat.add_assoc, Nat.add_comm 1] using this
  | swap x y l =>
    by_cases equal : x = y
    · subst equal
      exact ⟨Equiv.refl Nat, by simp, by simp⟩
    · -- The first two exchange their numbers, and those behind them keep theirs.
      refine ⟨Equiv.swap start (start + 1), fun k other => ?_, fun i _ => ?_⟩
      · have either : k = start ∨ k = start + 1 := by
          by_contra neither
          obtain ⟨first, second⟩ := not_or.1 neither
          exact other (Equiv.swap_apply_of_ne_of_ne first second)
        simp only [List.length_cons]
        omega
      · by_cases first : y = i
        · subst first
          simp [List.idxOf_cons_ne _ equal]
        by_cases second : x = i
        · subst second
          simp [List.idxOf_cons_ne _ first]
        rw [List.idxOf_cons_ne _ first, List.idxOf_cons_ne _ second, List.idxOf_cons_ne _ second,
          List.idxOf_cons_ne _ first]
        exact Equiv.swap_apply_of_ne_of_ne (by omega) (by omega)
  | @trans l m n lm _ ih ih' =>
    obtain ⟨σ, moved, renumbers⟩ := ih start
    obtain ⟨σ', moved', renumbers'⟩ := ih' start
    refine ⟨σ.trans σ', fun k other => ?_, fun i among => ?_⟩
    · by_cases fixed : σ k = k
      · have later : σ' k ≠ k := by simpa [fixed] using other
        rw [lm.length_eq]
        exact moved' k later
      · exact moved k fixed
    · rw [Equiv.trans_apply, renumbers i among, renumbers' i (lm.mem_iff.1 among)]

namespace Session

variable {s t : Session} {source? : Option Bytes} {σ : Equiv.Perm Nat}

/-- The same session but for the serial numbers, which are permuted. -/
structure Renumbered (σ : Equiv.Perm Nat) (s t : Session) : Prop extends Unmoved s t where
  diagnostics : t.diagnostics = s.diagnostics
  nextSerial : t.nextSerial = s.nextSerial
  hits : t.cache.hits = s.cache.hits
  misses : t.cache.misses = s.cache.misses
  entries : t.cache.entries ~ s.cache.entries.map fun e => (e.1, e.2.renumbered σ)

theorem Renumbered.refl (s : Session) : Renumbered (Equiv.refl Nat) s s where
  toUnmoved := .refl s
  diagnostics := rfl
  nextSerial := rfl
  hits := rfl
  misses := rfl
  entries := .of_eq (List.map_id _).symm

/-- What is known of the cache of a session does not depend on the serial numbers in it. -/
theorem Renumbered.kept (h : Renumbered σ s t) (moved : ∀ k, σ k ≠ k → k < s.nextSerial)
    (kept : Kept s) : Kept t := by
  have entry : ∀ e ∈ t.cache.entries, ∃ e' ∈ s.cache.entries, (e'.1, e'.2.renumbered σ) = e :=
    fun e among => List.mem_map.1 (h.entries.mem_iff.1 among)
  constructor
  · have keys : t.cache.entries.map Prod.fst ~ s.cache.entries.map Prod.fst := by
      simpa [Function.comp_def] using h.entries.map Prod.fst
    exact keys.nodup_iff.2 kept.nodup
  · intro e among
    obtain ⟨e', there, rfl⟩ := entry e among
    exact h.current (kept.current e' there)
  · rw [Cache.size, h.entries.length_eq, List.length_map, h.misses]
    exact kept.size
  · intro e among
    obtain ⟨e', there, rfl⟩ := entry e among
    show σ e'.2.serial < t.nextSerial
    rw [h.nextSerial]
    by_contra late
    -- A number that is yet to come is not moved, and so no other number is moved to it.
    have fixed : σ (σ e'.2.serial) = σ e'.2.serial := by
      by_contra other
      exact late (moved _ other)
    rw [σ.injective fixed] at late
    exact late (kept.earlier e' there)

theorem Renumbered.coherent (h : Renumbered σ s t) (moved : ∀ k, σ k ≠ k → k < s.nextSerial)
    (coherent : Coherent s source?) (kept : Kept s) : Coherent t source? :=
  ⟨h.toUnmoved.holds coherent.holds, fun _ _ found =>
    (h.kept moved kept).current _ (Cache.mem_of_get? found)⟩

/-! ## Two interleavings -/

variable {slides : List CompiledSlide} {image : Nat → RenderedSlide}
  {searched order order' : List Nat}

theorem laidOut_renumbered
    (renumbers : ∀ i ∈ order, σ (s.nextSerial + order.idxOf i) = s.nextSerial + order'.idxOf i)
    {i : Nat} (among : i ∈ order) :
    (s.laidOut image order i).renumbered σ = s.laidOut image order' i := by
  simp [laidOut, Rendering.renumbered, renumbers i among]

theorem renumbered_of_earlier (moved : ∀ k, σ k ≠ k → s.nextSerial ≤ k) {r : Rendering}
    (earlier : r.serial < s.nextSerial) : r.renumbered σ = r := by
  have fixed : σ r.serial = r.serial := by
    by_contra other
    exact Nat.not_le_of_lt earlier (moved _ other)
  simp [Rendering.renumbered, fixed]

theorem after_renumbered (kept : Kept s) (same : order ~ order')
    (moved : ∀ k, σ k ≠ k → s.nextSerial ≤ k)
    (renumbers : ∀ i ∈ order, σ (s.nextSerial + order.idxOf i) = s.nextSerial + order'.idxOf i) :
    Renumbered σ (s.after image searched order) (s.after image searched order') where
  toUnmoved := ⟨rfl, rfl, rfl⟩
  diagnostics := rfl
  nextSerial := by simp [after, same.length_eq]
  hits := rfl
  misses := rfl
  entries := by
    have old : s.cache.entries.map (fun e => (e.1, e.2.renumbered σ)) = s.cache.entries := by
      conv_rhs => rw [← List.map_id s.cache.entries]
      refine List.map_congr_left fun e among => ?_
      rw [renumbered_of_earlier moved (kept.earlier e among), id]
    have new : order.map (fun i => ((⟨i, s.options.viewport⟩ : CacheKey),
          (s.laidOut image order i).renumbered σ))
        = order.map fun i => (⟨i, s.options.viewport⟩, s.laidOut image order' i) :=
      List.map_congr_left fun i among => by rw [laidOut_renumbered renumbers among]
    have orders (f : Nat → CacheKey × Rendering) :
        (order'.map f).reverse ~ (order.map f).reverse :=
      (List.reverse_perm _).trans ((same.symm.map f).trans (List.reverse_perm _).symm)
    simpa [after, old, Function.comp_def, new] using (orders _).append_right s.cache.entries

theorem answerAt_renumbered (kept : Kept s) (moved : ∀ k, σ k ≠ k → s.nextSerial ≤ k)
    (renumbers : ∀ i ∈ order, σ (s.nextSerial + order.idxOf i) = s.nextSerial + order'.idxOf i)
    {i : Nat} (laid : s.known i = none → i ∈ order) :
    (s.answerAt image order i).map (Rendering.renumbered σ) id = s.answerAt image order' i := by
  cases known : s.known i with
  | some r =>
    have earlier := kept.earlier _ (Cache.mem_of_get? known)
    simp [answerAt, known, renumbered_of_earlier moved earlier]
  | none => simp [answerAt, known, laidOut_renumbered renumbers (laid known)]

/-- Two interleavings that end when all tasks are done come to the same but for the serial numbers
that they give. -/
theorem obtainBy_renumbered (draws : s.Draws slides image) (kept : Kept s)
    {schedule schedule' : List Nat}
    {outcome outcome' : Except SessionFault (List (Rendering × Bool)) × Session}
    (h : s.obtainBy slides schedule = some outcome)
    (h' : s.obtainBy slides schedule' = some outcome') :
    ∃ σ : Equiv.Perm Nat, (∀ k, σ k ≠ k → s.nextSerial ≤ k ∧ k < outcome.2.nextSerial) ∧
      outcome'.1 = outcome.1.map (List.map (Prod.map (Rendering.renumbered σ) id)) ∧
      Renumbered σ outcome.2 outcome'.2 := by
  obtain ⟨order, laid, rfl⟩ := obtainBy_after draws h
  obtain ⟨order', laid', rfl⟩ := obtainBy_after draws h'
  have same : order ~ order' := laid.trans laid'.symm
  obtain ⟨σ, moved, renumbers⟩ := exists_renumbering same s.nextSerial
  have recent : ∀ k, σ k ≠ k → s.nextSerial ≤ k := fun k other => (moved k other).1
  refine ⟨σ, moved, ?_, after_renumbered kept same recent renumbers⟩
  rw [Except.map, List.map_map]
  refine congrArg Except.ok (List.map_congr_left fun i among => ?_)
  refine (answerAt_renumbered kept recent renumbers fun miss => ?_).symm
  exact laid.mem_iff.2 (List.mem_filter.2 ⟨among, by simp [miss]⟩)

/-! ## Reports -/

theorem renderAll_eq (s : Session) :
    s.renderAll = match s.deck with
      | none => (.error .noDeck, s)
      | some d => conclude (s.obtainFrom 0 d.slides) := by
  rw [renderAll]
  cases s.deck with
  | none => rfl
  | some d =>
    cases outcome : s.obtainFrom 0 d.slides with
    | mk results t => cases results <;> simp [outcome, conclude]

theorem reportNotes_renumbered (g : Emitter) (results : List (Rendering × Bool)) :
    (results.map (Prod.map (Rendering.renumbered σ) id)).foldl reportNotes g
      = results.foldl reportNotes g := by
  rw [List.foldl_map]
  rfl

/-- Reports say nothing of serial numbers. -/
theorem conclude_renumbered
    {outcome outcome' : Except SessionFault (List (Rendering × Bool)) × Session}
    (answers : outcome'.1 = outcome.1.map (List.map (Prod.map (Rendering.renumbered σ) id)))
    (sessions : Renumbered σ outcome.2 outcome'.2) :
    (conclude outcome').1 = (conclude outcome).1.map (List.map (Rendering.renumbered σ)) ∧
      Renumbered σ (conclude outcome).2 (conclude outcome').2 ∧
      (conclude outcome).2.nextSerial = outcome.2.nextSerial := by
  obtain ⟨results, t⟩ := outcome
  obtain ⟨results', t'⟩ := outcome'
  cases answers
  cases results with
  | error fault => exact ⟨rfl, sessions, rfl⟩
  | ok results =>
    refine ⟨?_, ?_, rfl⟩
    · simp [conclude, Except.map, Function.comp_def]
    · refine ⟨⟨sessions.options, sessions.deck, sessions.measurer⟩, ?_, sessions.nextSerial,
        sessions.hits, sessions.misses, sessions.entries⟩
      have fresh : (results.map (Prod.map (Rendering.renumbered σ) id)).countP Prod.snd
          = results.countP Prod.snd := by
        rw [List.countP_map]
        rfl
      have before : t'.diagnostics = t.diagnostics := sessions.diagnostics
      simp only [conclude, report, fresh, reportNotes_renumbered, List.length_map, before]

/-! ## Sessions -/

/-- The sessions that can be reached from given options, where decks may be rendered by
interleavings.  Between operations anything may be done to the emitter. -/
inductive Attained (o : CompileOptions) : Session → Prop
  | start : Attained o (start o)
  | perform {s : Session} (op : Operation) : Attained o s → Attained o (s.perform op)
  | report {s : Session} (f : Emitter → Emitter) : Attained o s → Attained o (s.report f)
  | renderAllBy {s : Session} {schedule : List Nat}
      {outcome : Except SessionFault (List Rendering) × Session} :
      Attained o s → s.renderAllBy schedule = some outcome → Attained o outcome.2

theorem Coherent.exists_draws (h : Coherent s source?) {d : Deck} (deck : s.deck = some d) :
    ∃ image, s.Draws d.slides image := by
  obtain ⟨source, compiled⟩ := h.holds.compiled deck
  have each : ∀ index : Nat, ∃ slide, ∀ c, d.slides[index]? = some c →
      c.render index s.measurer = .ok slide := by
    intro index
    cases there : d.slides[index]? with
    | none => exact ⟨default, nofun⟩
    | some c =>
      obtain ⟨slide, rendered, -⟩ := CompiledSlide.render_of_compiled compiled
        (List.mem_of_getElem? there) index s.measurer
      exact ⟨slide, fun c' same => Option.some.inj same ▸ rendered⟩
  choose image drawn using each
  exact ⟨image, drawn⟩

/-- What an interleaving comes to is what rendering one slide after the other comes to, but for the
serial numbers that are given meanwhile: the list, the session, and what was laid out for it. -/
structure Reordered (s : Session) (schedule : List Nat)
    (outcome : Except SessionFault (List Rendering) × Session) (σ : Equiv.Perm Nat) : Prop where
  moved : ∀ k, σ k ≠ k → s.nextSerial ≤ k ∧ k < s.renderAll.2.nextSerial
  list : outcome.1 = s.renderAll.1.map (List.map (Rendering.renumbered σ))
  session : Renumbered σ s.renderAll.2 outcome.2
  fresh : ∀ d, s.deck = some d → (s.obtainBy d.slides schedule).map Prod.fst
    = some ((s.obtainFrom 0 d.slides).1.map (List.map (Prod.map (Rendering.renumbered σ) id)))

/-- Rendering one slide after the other is an interleaving, and every interleaving comes to the
same. -/
theorem renderAllBy_reordered (coherent : Coherent s source?) (kept : Kept s) :
    (∃ schedule, s.renderAllBy schedule = some s.renderAll) ∧
    ∀ schedule outcome, s.renderAllBy schedule = some outcome →
      ∃ σ, s.Reordered schedule outcome σ := by
  have rendered := s.renderAll_eq
  cases deck : s.deck with
  | none =>
    simp only [deck] at rendered
    refine ⟨⟨[], by simp [renderAllBy, deck, rendered]⟩, fun schedule outcome run => ?_⟩
    obtain rfl : (.error .noDeck, s) = outcome := by simpa [renderAllBy, deck] using run
    refine ⟨Equiv.refl Nat, fun k other => absurd rfl other, ?_, ?_, fun d there => ?_⟩
    · rw [rendered]
      rfl
    · rw [rendered]
      exact .refl s
    · cases deck.symm.trans there
  | some d =>
    obtain ⟨image, draws⟩ := coherent.exists_draws deck
    obtain ⟨rs, t, answers, -⟩ := obtainFrom_answers 0 coherent deck fun j => by rw [Nat.zero_add]
    obtain ⟨inOrder, sequential⟩ := obtainBy_obtainFrom answers
    simp only [deck, answers] at rendered
    refine ⟨⟨inOrder, by simp [renderAllBy, deck, sequential, rendered]⟩,
      fun schedule outcome run => ?_⟩
    simp only [renderAllBy, deck, Option.map_eq_some_iff] at run
    obtain ⟨results, interleaved, rfl⟩ := run
    obtain ⟨σ, moved, renumbered, sessions⟩ :=
      obtainBy_renumbered draws kept sequential interleaved
    obtain ⟨list, session, next⟩ := conclude_renumbered renumbered sessions
    rw [← rendered] at list session next
    refine ⟨σ, next ▸ moved, list, session, fun d' there => ?_⟩
    obtain rfl : d = d' := Option.some.inj (deck.symm.trans there)
    rw [interleaved, answers, Option.map_some, renumbered]

/-- Every session is coherent, whatever decks were rendered by. -/
theorem Attained.sound {o : CompileOptions} (h : Attained o s) :
    ∃ source?, Coherent s source? ∧ Kept s := by
  induction h with
  | start => exact ⟨none, coherent_start o, kept_of_clear rfl⟩
  | perform op _ ih =>
    obtain ⟨source?, coherent, kept⟩ := ih
    exact ⟨_, perform_coherent coherent op, perform_kept coherent kept op⟩
  | report f _ ih =>
    obtain ⟨source?, coherent, kept⟩ := ih
    exact ⟨source?, coherent.report f, kept.report f⟩
  | @renderAllBy s schedule outcome _ run ih =>
    obtain ⟨source?, coherent, kept⟩ := ih
    obtain ⟨σ, same⟩ := (renderAllBy_reordered coherent kept).2 schedule outcome run
    have recent : ∀ k, σ k ≠ k → k < s.renderAll.2.nextSerial :=
      fun k other => (same.moved k other).2
    have sequential := perform_coherent coherent .renderAll
    have keptAll := perform_kept coherent kept .renderAll
    exact ⟨_, same.session.coherent recent sequential keptAll, same.session.kept recent keptAll⟩

end Session

/-! ## Decks -/

theorem renderFrom_eq (m : Option Measurer) {slides rest : List CompiledSlide} {index : Nat}
    (there : ∀ j, rest[j]? = slides[index + j]?) :
    renderFrom m index rest
      = (List.range' index rest.length).mapM fun i => slides[i]!.render i m := by
  induction rest generalizing index with
  | nil => rfl
  | cons c rest ih =>
    have first : slides[index]! = c := by
      rw [List.getElem!_eq_getElem?_getD, ← Nat.add_zero index, ← there 0]
      rfl
    rw [renderFrom, List.length_cons, List.range'_succ, List.mapM_cons, first,
      ih (getElem?_rest there)]

/-- The order in which slides are laid out does not show in the rendered deck. -/
theorem Deck.renderBy_eq (d : Deck) (m : Option Measurer) {order : List Nat}
    (h : order ~ List.range d.slides.length) : d.renderBy m order = d.render m := by
  rw [renderBy, TaskPool.collect_of_perm h fun i => d.slides[i]!.render i m, render,
    renderFrom_eq m fun j => by rw [Nat.zero_add], List.range_eq_range']

namespace Session

/-- **Any order will do.**  In every session, rendering the deck one slide after the other is an
interleaving of the steps of its tasks, and every interleaving that ends comes to the same but for
the serial numbers that it gives: the same renderings in the order of the slides, the same of them
laid out, the same in the cache, the same counts, and the same events.  Whatever a pool does
between the submission of the slides of a deck and the last one's end, the deck is rendered as it
is without a pool. -/
theorem Attained.renderAll_interleaved {s : Session} {o : CompileOptions} (h : Attained o s) :
    (∃ schedule, s.renderAllBy schedule = some s.renderAll) ∧
    (∀ schedule outcome, s.renderAllBy schedule = some outcome →
      ∃ σ, s.Reordered schedule outcome σ) ∧
    ∀ (d : Deck) (m : Option Measurer) (workers : Nat) (moves : List (Move Nat)) (t : Shift Nat),
      (Shift.start workers).run? moves = some t →
      Shift.submissions moves = List.range d.slides.length → t.pool.idle = true →
      d.renderBy m t.pool.finished = d.render m := by
  obtain ⟨source?, coherent, kept⟩ := h.sound
  obtain ⟨sequential, same⟩ := renderAllBy_reordered coherent kept
  refine ⟨sequential, same, fun d m workers moves t run submitted idle => ?_⟩
  have sound := Shift.run?_sound run (Shift.start_sound workers)
  obtain ⟨accepted, -⟩ := Shift.run?_accepted run rfl
  have finished := (sound.done idle).2
  rw [accepted, Shift.start, List.nil_append, submitted] at finished
  exact d.renderBy_eq m finished

/-- Two slides, of which neither has been rendered. -/
def twoSlides : Session :=
  (start {}).perform (.load (.ascii "[a :: text(\"x\")] [b :: text(\"y\")]"))

/-- Both slides are searched for before the first is laid out, and the second is laid out first. -/
theorem twoSlides_interleaved : Attained {} twoSlides ∧
    (∃ outcome σ, twoSlides.renderAllBy [1, 0, 1, 0] = some outcome ∧
      outcome.1.toOption.map (List.map Rendering.serial) = some [1, 0] ∧
      twoSlides.Reordered [1, 0, 1, 0] outcome σ) ∧
    ∃ d, twoSlides.deck = some d ∧ d.renderBy none [1, 0] = d.render none := by
  have reached : Attained {} twoSlides := Attained.start.perform _
  obtain ⟨-, same, pooled⟩ := reached.renderAll_interleaved
  refine ⟨reached, ?_, ?_⟩
  · have serials : (twoSlides.renderAllBy [1, 0, 1, 0]).map
        (fun outcome => outcome.1.toOption.map (List.map Rendering.serial))
        = some (some [1, 0]) := by
      decide +kernel
    obtain ⟨outcome, run, laid⟩ := Option.map_eq_some_iff.1 serials
    obtain ⟨σ, reordered⟩ := same _ outcome run
    exact ⟨outcome, σ, run, laid, reordered⟩
  · have slides : twoSlides.deck.map (fun d => d.slides.length) = some 2 := by decide +kernel
    obtain ⟨d, deck, length⟩ := Option.map_eq_some_iff.1 slides
    have run : (Shift.start 2).run?
        [.submit 0, .turn .take, .submit 1, .turn .take, .turn (.finish 1), .turn (.finish 0)]
        = some { pool := { workers := 2, finished := [1, 0] }, accepted := [0, 1],
                 taken := [0, 1] } := rfl
    exact ⟨d, deck, pooled d none 2 _ _ run (by rw [length]; rfl) rfl⟩

end Session

end SlideDeck
