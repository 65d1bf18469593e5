import SlideDeck.Proofs.Deck.Session

/-! # What a session remembers

The cache of a session has one current rendering for each slide that was looked
up since everything was last forgotten, and two answers for a slide are the same
object exactly if nothing was forgotten between them (`run_renderings`).

* `Session.forgets`, `Session.lookups` and `Session.answers` are what an
  operation does to the cache, how much it asks of it, and what it answers.
* `Lookup` is all that a session does about one slide: it finds a rendering or
  makes one.  An operation that forgets nothing is a list of them
  (`perform_lookups`).
* `Kept` is what every operation preserves.

Serial numbers keep the times apart.  Whatever is remembered has a number below
the next one, and whatever is laid out after everything was forgotten has a
number that is not, so no later answer can be an earlier one. -/

namespace SlideDeck

namespace Cache

theorem get?_eq_none {c : Cache} {key : CacheKey} :
    c.get? key = none ↔ ∀ e ∈ c.entries, e.1 ≠ key := by
  simp [get?]

theorem mem_of_get? {c : Cache} {key : CacheKey} {r : Rendering} (h : c.get? key = some r) :
    (key, r) ∈ c.entries := by
  obtain ⟨e, found, rfl⟩ := Option.map_eq_some_iff.1 h
  have equal : e.1 = key := by simpa using List.find?_some found
  exact equal ▸ List.mem_of_find?_eq_some found

/-- A rendering under a key that has none is added to the others. -/
theorem entries_store {c : Cache} {v : Viewport} {r : Rendering}
    (miss : c.get? ⟨r.slide.index, v⟩ = none) :
    (c.store v (some r)).entries = (⟨r.slide.index, v⟩, r) :: c.entries := by
  have others := get?_eq_none.1 miss
  simpa [store] using others

end Cache

theorem CompiledSlide.index_of_render {c : CompiledSlide} {index : Nat} {m : Option Measurer}
    {slide : RenderedSlide} (h : c.render index m = .ok slide) : slide.index = index := by
  obtain ⟨arranged, -, ⟨⟩⟩ := except_bind_eq_ok.1 h
  rfl

namespace Session

variable {s t : Session} {source? : Option Bytes}

/-! ## Operations -/

/-- The number of slides in the current deck. -/
def deckSize (s : Session) : Nat :=
  match s.deck with
  | some d => d.slides.length
  | none => 0

/-- The operation makes the session forget all renderings: a load that succeeds, another viewport,
or any measurer. -/
def forgets (s : Session) : Operation → Bool
  | .load source => (s.load source).1.ok
  | .resize v => v ≠ s.options.viewport
  | .setMeasurer _ => true
  | .render _ | .renderAll => false

/-- One of some operations makes the session forget all renderings. -/
def forgetsIn (s : Session) : List Operation → Bool
  | [] => false
  | op :: ops => s.forgets op || (s.perform op).forgetsIn ops

/-- How many slides an operation asks for, of those that there are. -/
def lookups (s : Session) : Operation → Nat
  | .render index => if index < s.deckSize then 1 else 0
  | .renderAll => s.deckSize
  | _ => 0

/-- How many slides are asked for after the last operation that makes the session forget, counted
on from `count`. -/
def lookupsSince (s : Session) (count : Nat) : List Operation → Nat
  | [] => count
  | op :: ops =>
      (s.perform op).lookupsSince (if s.forgets op then 0 else count + s.lookups op) ops

/-- The renderings that an operation answers with, each with the index of its slide. -/
def answers (s : Session) : Operation → List (Rendering × Nat)
  | .render index =>
      match (s.render index).1 with
      | .ok r => [(r, index)]
      | .error _ => []
  | .renderAll =>
      match s.renderAll.1 with
      | .ok rs => rs.zipIdx
      | .error _ => []
  | _ => []

theorem forgets_of_answers {op : Operation} {a : Rendering × Nat} (h : a ∈ s.answers op) :
    s.forgets op = false := by
  cases op with
  | render | renderAll => rfl
  | _ => cases h

/-! ## Lookups -/

/-- A session finds the rendering of a slide, or lays the slide out and keeps the rendering. -/
inductive Lookup (s : Session) (index : Nat) : Rendering → Session → Prop
  | hit {r : Rendering} :
      s.cache.get? ⟨index, s.options.viewport⟩ = some r →
      Lookup s index r { s with cache := { s.cache with hits := s.cache.hits + 1 } }
  | miss {d : Deck} {c : CompiledSlide} {slide : RenderedSlide} :
      s.cache.get? ⟨index, s.options.viewport⟩ = none →
      s.deck = some d → d.slides[index]? = some c → c.render index s.measurer = .ok slide →
      Lookup s index ⟨s.nextSerial, slide⟩
        { s with
          cache := Cache.store { s.cache with misses := s.cache.misses + 1 } s.options.viewport
            (some ⟨s.nextSerial, slide⟩)
          nextSerial := s.nextSerial + 1 }

/-- Some lookups one after the other, with what they give, and then reports. -/
inductive Lookups : Session → List (Rendering × Nat) → Session → Prop
  | done {s : Session} (f : Emitter → Emitter) : Lookups s [] (s.report f)
  | more {s t u : Session} {index : Nat} {r : Rendering} {rest : List (Rendering × Nat)} :
      Lookup s index r t → Lookups t rest u → Lookups s ((r, index) :: rest) u

theorem Lookups.report {found : List (Rendering × Nat)} (h : Lookups s found t)
    (f : Emitter → Emitter) : Lookups s found (t.report f) := by
  induction h with
  | done g => exact .done (f ∘ g)
  | more first _ ih => exact .more first ih

theorem obtain_lookup (h : Coherent s source?) {d : Deck} (deck : s.deck = some d) {index : Nat}
    {c : CompiledSlide} (there : d.slides[index]? = some c) :
    ∃ r t, s.obtain index c = (.ok r, t) ∧ Lookup s index r.1 t ∧ Unmoved s t ∧
      Coherent t source? := by
  obtain ⟨r, t, answer, rendered, unmoved, coherent⟩ := obtain_answers h deck there
  refine ⟨r, t, answer, ?_, unmoved, coherent⟩
  cases hit : s.cache.get? ⟨index, s.options.viewport⟩ with
  | some r' =>
    rw [obtain_hit hit c] at answer
    cases answer
    exact .hit hit
  | none =>
    obtain ⟨slide, rendered⟩ : ∃ slide, c.render index s.measurer = .ok slide := ⟨_, rendered⟩
    rw [obtain_miss hit rendered] at answer
    cases answer
    exact .miss hit deck there rendered

theorem obtainFrom_lookups {d : Deck} {rest : List CompiledSlide} (index : Nat)
    (h : Coherent s source?) (deck : s.deck = some d)
    (there : ∀ j, rest[j]? = d.slides[index + j]?) :
    ∃ rs t, s.obtainFrom index rest = (.ok rs, t) ∧ rs.length = rest.length ∧
      Lookups s ((rs.map Prod.fst).zipIdx index) t := by
  induction rest generalizing s index with
  | nil => exact ⟨[], s, rfl, rfl, .done id⟩
  | cons c rest ih =>
    have first : d.slides[index]? = some c := (there 0).symm
    obtain ⟨r, t, answer, lookup, unmoved, coherent⟩ := obtain_lookup h deck first
    have thereRest : ∀ j, rest[j]? = d.slides[index + 1 + j]? := by
      intro j
      rw [Nat.add_assoc, Nat.add_comm 1 j]
      exact there (j + 1)
    obtain ⟨rs, u, answers, length, others⟩ :=
      ih (index + 1) coherent (unmoved.deck.trans deck) thereRest
    exact ⟨r :: rs, u, by simp only [obtainFrom, answer, answers], congrArg (· + 1) length,
      .more lookup others⟩

/-! ## One operation -/

theorem perform_forgets {op : Operation} (h : s.forgets op = true) :
    (s.perform op).cache = {} ∧ (s.perform op).nextSerial = s.nextSerial := by
  cases op with
  | load source =>
    rw [forgets, load] at h
    rw [perform, load]
    cases compiled : Deck.compile source s.options with
    | error e => simp [compiled, Outcome.ok] at h
    | ok d => exact ⟨rfl, rfl⟩
  | resize v =>
    have other : v ≠ s.options.viewport := by simpa [forgets] using h
    rw [perform, resize, if_neg other]
    cases s.deck <;> exact ⟨rfl, rfl⟩
  | setMeasurer m => exact ⟨rfl, rfl⟩
  | render | renderAll => cases h

/-- An operation that forgets nothing looks up what it answers, as many slides as it asks for. -/
theorem perform_lookups (h : Coherent s source?) {op : Operation} (keeps : s.forgets op = false) :
    Lookups s (s.answers op) (s.perform op) ∧ (s.answers op).length = s.lookups op := by
  cases op with
  | load source =>
    refine ⟨?_, rfl⟩
    rw [forgets, load] at keeps
    rw [perform, load]
    cases compiled : Deck.compile source s.options with
    | error e => exact .done _
    | ok d => simp [compiled, Outcome.ok] at keeps
  | resize v =>
    refine ⟨?_, rfl⟩
    have same : v = s.options.viewport := by simpa [forgets] using keeps
    rw [perform, resize, if_pos same]
    exact .done id
  | setMeasurer m => cases keeps
  | render index =>
    cases deck : s.deck with
    | none =>
      simp only [answers, perform, lookups, deckSize, render, deck]
      exact ⟨.done id, rfl⟩
    | some d =>
      cases there : d.slides[index]? with
      | none =>
        have beyond : ¬ index < d.slides.length := by simpa using there
        simp only [answers, perform, lookups, deckSize, render, deck, there, if_neg beyond]
        exact ⟨.done id, rfl⟩
      | some c =>
        have before := (List.getElem?_eq_some_iff.1 there).1
        obtain ⟨r, t, answer, lookup, -⟩ := obtain_lookup h deck there
        simp only [answers, perform, lookups, deckSize, render, deck, there, answer,
          if_pos before]
        exact ⟨.more lookup (.done _), rfl⟩
  | renderAll =>
    cases deck : s.deck with
    | none =>
      simp only [answers, perform, lookups, deckSize, renderAll, deck]
      exact ⟨.done id, rfl⟩
    | some d =>
      obtain ⟨rs, t, all, length, found⟩ :=
        obtainFrom_lookups 0 h deck fun j => by rw [Nat.zero_add]
      simp only [answers, perform, lookups, deckSize, renderAll, deck, all]
      exact ⟨found.report _, by simpa using length⟩

/-- A session answers with every slide that it is asked for, of those that there are. -/
theorem length_answers (h : Coherent s source?) (op : Operation) :
    (s.answers op).length = s.lookups op := by
  cases op with
  | render | renderAll => exact (perform_lookups h rfl).2
  | _ => rfl

/-! ## The invariant -/

/-- What the cache has: one rendering for each key, all of them current, one for each lookup that
found nothing, and none made later than now. -/
structure Kept (s : Session) : Prop where
  nodup : (s.cache.entries.map Prod.fst).Nodup
  current : ∀ e ∈ s.cache.entries, s.Current e.1 e.2
  size : s.cache.size = s.cache.misses
  earlier : ∀ e ∈ s.cache.entries, e.2.serial < s.nextSerial

theorem kept_of_clear (clear : s.cache = {}) : Kept s := by
  constructor <;> simp [clear, Cache.size]

theorem Kept.report (h : Kept s) (f : Emitter → Emitter) : Kept (s.report f) :=
  ⟨h.nodup, h.current, h.size, h.earlier⟩

/-- Only the current slides have renderings. -/
theorem Kept.size_le (h : Kept s) : s.cache.size ≤ s.deckSize := by
  have nodup : (s.cache.entries.map fun e => e.1.index).Nodup := by
    have distinct := List.pairwise_map.1 h.nodup
    refine List.pairwise_map.2 (distinct.imp_of_mem ?_)
    intro e f there there' different equal
    -- The viewports are both the current one, so the keys would be equal.
    have viewport := (h.current e there).1.trans (h.current f there').1.symm
    refine different ?_
    cases keyOf : e.1
    cases keyOf' : f.1
    simp_all
  have below : (s.cache.entries.map fun e => e.1.index) ⊆ List.range s.deckSize := by
    intro index among
    obtain ⟨e, there, rfl⟩ := List.mem_map.1 among
    obtain ⟨-, d, c, deck, slide, -⟩ := h.current e there
    rw [deckSize, deck]
    exact List.mem_range.2 (List.getElem?_eq_some_iff.1 slide).1
  simpa [Cache.size] using nodup.length_le_of_subset below

/-- The rendering of a slide that a lookup would find. -/
def Remembers (s : Session) (index : Nat) (r : Rendering) : Prop :=
  s.cache.get? ⟨index, s.options.viewport⟩ = some r

/-- Nothing that is remembered was laid out before a time, and that time is not to come. -/
structure Since (time : Nat) (s : Session) : Prop where
  next : time ≤ s.nextSerial
  later : ∀ e ∈ s.cache.entries, time ≤ e.2.serial

theorem entries_of_miss {index : Nat} {c : CompiledSlide} {slide : RenderedSlide}
    (miss : s.cache.get? ⟨index, s.options.viewport⟩ = none)
    (rendered : c.render index s.measurer = .ok slide) :
    (Cache.store { s.cache with misses := s.cache.misses + 1 } s.options.viewport
        (some ⟨s.nextSerial, slide⟩)).entries
      = (⟨index, s.options.viewport⟩, ⟨s.nextSerial, slide⟩) :: s.cache.entries := by
  have atIndex := CompiledSlide.index_of_render rendered
  rw [Cache.entries_store]
  · simp only [atIndex]
  · rw [atIndex]
    exact miss

namespace Lookup

variable {index : Nat} {r : Rendering}

theorem counted (h : Lookup s index r t) :
    t.cache.hits + t.cache.misses = s.cache.hits + s.cache.misses + 1 := by
  cases h with
  | hit => exact Nat.add_right_comm ..
  | miss => rfl

theorem kept (h : Lookup s index r t) (kept : Kept s) : Kept t := by
  cases h with
  | hit => exact ⟨kept.nodup, kept.current, kept.size, kept.earlier⟩
  | @miss d c slide miss deck there rendered =>
    have entries := entries_of_miss miss rendered
    constructor
    · simp only [entries, List.map_cons, List.nodup_cons]
      refine ⟨fun among => ?_, kept.nodup⟩
      obtain ⟨e, there, equal⟩ := List.mem_map.1 among
      exact Cache.get?_eq_none.1 miss e there equal
    · simp only [entries, List.forall_mem_cons]
      exact ⟨⟨rfl, d, c, deck, there, rendered⟩, kept.current⟩
    · simp only [Cache.size, entries, List.length_cons]
      exact congrArg (· + 1) kept.size
    · simp only [entries, List.forall_mem_cons]
      exact ⟨Nat.lt_succ_self _, fun e among => Nat.lt_succ_of_lt (kept.earlier e among)⟩

/-- What a lookup gives is found by the next one. -/
theorem remembers (h : Lookup s index r t) : t.Remembers index r := by
  cases h with
  | hit found => exact found
  | miss _ _ _ rendered =>
    have atIndex := CompiledSlide.index_of_render rendered
    simp [Remembers, atIndex]

theorem still_remembers (h : Lookup s index r t) {i : Nat} {before : Rendering}
    (remembered : s.Remembers i before) : t.Remembers i before := by
  cases h with
  | hit => exact remembered
  | miss miss _ _ rendered =>
    have atIndex := CompiledSlide.index_of_render rendered
    have other : index ≠ i := by
      rintro rfl
      cases miss.symm.trans remembered
    rw [Remembers, Cache.get?_store, if_neg (by simp [atIndex, other])]
    exact remembered

theorem next_le (h : Lookup s index r t) : s.nextSerial ≤ t.nextSerial := by
  cases h with
  | hit => exact Nat.le_refl _
  | miss => exact Nat.le_succ _

theorem since (h : Lookup s index r t) {time : Nat} (since : Since time s) : Since time t := by
  cases h with
  | hit => exact ⟨since.next, since.later⟩
  | miss miss _ _ rendered =>
    refine ⟨Nat.le_succ_of_le since.next, ?_⟩
    simp only [entries_of_miss miss rendered, List.forall_mem_cons]
    exact ⟨since.next, since.later⟩

end Lookup

namespace Lookups

variable {found : List (Rendering × Nat)}

theorem counted (h : Lookups s found t) :
    t.cache.hits + t.cache.misses = s.cache.hits + s.cache.misses + found.length := by
  induction h with
  | done => rfl
  | more first _ ih =>
    rw [ih, first.counted, List.length_cons]
    omega

theorem kept (h : Lookups s found t) (kept : Kept s) : Kept t := by
  induction h with
  | done f => exact kept.report f
  | more first _ ih => exact ih (first.kept kept)

theorem still_remembers (h : Lookups s found t) {i : Nat} {before : Rendering}
    (remembered : s.Remembers i before) : t.Remembers i before := by
  induction h with
  | done => exact remembered
  | more first _ ih => exact ih (first.still_remembers remembered)

theorem remembers (h : Lookups s found t) : ∀ a ∈ found, t.Remembers a.2 a.1 := by
  induction h with
  | done => nofun
  | more first rest ih =>
    intro a among
    cases among with
    | head => exact rest.still_remembers first.remembers
    | tail _ there => exact ih a there

theorem next_le (h : Lookups s found t) : s.nextSerial ≤ t.nextSerial := by
  induction h with
  | done => exact Nat.le_refl _
  | more first _ ih => exact Nat.le_trans first.next_le ih

theorem since (h : Lookups s found t) {time : Nat} (since : Since time s) : Since time t := by
  induction h with
  | done => exact ⟨since.next, since.later⟩
  | more first _ ih => exact ih (first.since since)

end Lookups

theorem Remembers.mem {index : Nat} {r : Rendering} (h : s.Remembers index r) :
    (⟨index, s.options.viewport⟩, r) ∈ s.cache.entries :=
  Cache.mem_of_get? h

/-! ## Runs -/

theorem perform_kept (h : Coherent s source?) (kept : Kept s) (op : Operation) :
    Kept (s.perform op) := by
  cases forgets : s.forgets op with
  | true => exact kept_of_clear (perform_forgets forgets).1
  | false => exact (perform_lookups h forgets).1.kept kept

theorem perform_since (h : Coherent s source?) {time : Nat} (since : Since time s)
    (op : Operation) : Since time (s.perform op) := by
  cases forgets : s.forgets op with
  | true =>
    obtain ⟨cache, next⟩ := perform_forgets forgets
    exact ⟨next ▸ since.next, by simp [cache]⟩
  | false => exact (perform_lookups h forgets).1.since since

theorem perform_counted (h : Coherent s source?) (op : Operation) :
    (s.perform op).cache.hits + (s.perform op).cache.misses
      = if s.forgets op then 0 else s.cache.hits + s.cache.misses + s.lookups op := by
  cases forgets : s.forgets op with
  | true => simp [(perform_forgets forgets).1]
  | false =>
    obtain ⟨found, length⟩ := perform_lookups h forgets
    rw [found.counted, length]
    simp

theorem run_kept (h : Coherent s source?) (kept : Kept s) (ops : List Operation) :
    Kept (s.run ops) := by
  induction ops generalizing s source? with
  | nil => exact kept
  | cons op ops ih => exact ih (perform_coherent h op) (perform_kept h kept op)

theorem run_since (h : Coherent s source?) {time : Nat} (since : Since time s)
    (ops : List Operation) : Since time (s.run ops) := by
  induction ops generalizing s source? with
  | nil => exact since
  | cons op ops ih => exact ih (perform_coherent h op) (perform_since h since op)

theorem run_counted (h : Coherent s source?) (ops : List Operation) :
    (s.run ops).cache.hits + (s.run ops).cache.misses
      = s.lookupsSince (s.cache.hits + s.cache.misses) ops := by
  induction ops generalizing s source? with
  | nil => rfl
  | cons op ops ih =>
    rw [lookupsSince, ← perform_counted h op]
    exact ih (perform_coherent h op)

theorem run_remembers (h : Coherent s source?) {index : Nat} {r : Rendering}
    (remembered : s.Remembers index r) {ops : List Operation} (keeps : s.forgetsIn ops = false) :
    (s.run ops).Remembers index r := by
  induction ops generalizing s source? with
  | nil => exact remembered
  | cons op ops ih =>
    obtain ⟨keepsFirst, keepsRest⟩ := Bool.or_eq_false_iff.1 keeps
    have first := (perform_lookups h keepsFirst).1.still_remembers remembered
    exact ih (perform_coherent h op) first keepsRest

/-- Once everything was forgotten, nothing is remembered from before. -/
theorem run_forgets (h : Coherent s source?) {time : Nat} (next : time ≤ s.nextSerial)
    {ops : List Operation} (forgets : s.forgetsIn ops = true) : Since time (s.run ops) := by
  induction ops generalizing s source? with
  | nil => cases forgets
  | cons op ops ih =>
    cases first : s.forgets op with
    | true =>
      obtain ⟨cache, same⟩ := perform_forgets first
      exact run_since (perform_coherent h op) ⟨same ▸ next, by simp [cache]⟩ ops
    | false =>
      have rest : (s.perform op).forgetsIn ops = true := by
        simpa [forgetsIn, first] using forgets
      have later := (perform_lookups h first).1.next_le
      exact ih (perform_coherent h op) (Nat.le_trans next later) rest

/-- Two answers for a slide are the same object exactly if nothing was forgotten between them. -/
theorem same_serial_iff (h : Coherent s source?) (kept : Kept s) {a b : Operation}
    {between : List Operation} {index : Nat} {r r' : Rendering} (first : (r, index) ∈ s.answers a)
    (second : (r', index) ∈ ((s.perform a).run between).answers b) :
    r.serial = r'.serial ↔ (s.perform a).forgetsIn between = false := by
  have coherent := perform_coherent h a
  have keptFirst := perform_kept h kept a
  have remembered : (s.perform a).Remembers index r :=
    (perform_lookups h (forgets_of_answers first)).1.remembers _ first
  have lookups := (perform_lookups (run_coherent coherent between).1 (forgets_of_answers second)).1
  have answered : (((s.perform a).run between).perform b).Remembers index r' :=
    lookups.remembers _ second
  cases forgets : (s.perform a).forgetsIn between with
  | false =>
    -- The first answer is still found, so the second one is the same.
    have still := lookups.still_remembers (run_remembers coherent remembered forgets)
    have same : r = r' := Option.some.inj (still.symm.trans answered)
    simp [same]
  | true =>
    -- The first answer was made before the session forgot, and the second one after that.
    have early := keptFirst.earlier _ remembered.mem
    have since := lookups.since (run_forgets coherent (Nat.le_refl _) forgets)
    have late := since.later _ answered.mem
    have different : r.serial ≠ r'.serial := Nat.ne_of_lt (Nat.lt_of_lt_of_le early late)
    simp [different]

/-- **What is remembered.**  After any run the cache has current renderings of slides of the
current deck, at most one for each of them and one for each lookup that found none.  It has counted
the lookups since everything was last forgotten.  Every slide that is asked for is answered, and an
answer is the same object as an earlier one for its slide exactly if nothing was forgotten between
them. -/
theorem run_renderings (o : CompileOptions) (ops : List Operation) :
    let s := (start o).run ops
    (∀ e ∈ s.cache.entries, s.Current e.1 e.2) ∧
      (s.cache.entries.map Prod.fst).Nodup ∧
      s.cache.size = s.cache.misses ∧ s.cache.misses ≤ s.deckSize ∧
      s.cache.hits + s.cache.misses = (start o).lookupsSince 0 ops ∧
      (∀ op, (s.answers op).length = s.lookups op) ∧
      ∀ a between b index r r', (r, index) ∈ s.answers a →
        (r', index) ∈ ((s.perform a).run between).answers b →
        (r.serial = r'.serial ↔ (s.perform a).forgetsIn between = false) := by
  intro s
  have coherent := (run_coherent (coherent_start o) ops).1
  have kept : Kept s := run_kept (coherent_start o) (kept_of_clear rfl) ops
  have counted := run_counted (coherent_start o) ops
  exact ⟨kept.current, kept.nodup, kept.size, kept.size ▸ kept.size_le, counted,
    length_answers coherent, fun a between b index r r' => same_serial_iff coherent kept⟩

end Session

end SlideDeck
