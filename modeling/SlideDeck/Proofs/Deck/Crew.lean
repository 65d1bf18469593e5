import Mathlib.Data.List.Nodup
import SlideDeck.Deck.Interleaved
import SlideDeck.Proofs.Deck.Renderings

/-! # Interleavings of tasks

An interleaving that ends when all tasks are done comes to the same whatever it
was, but for the order in which slides were laid out (`obtainBy_after`).

* `Session.after` and `Session.crewAt` are the session and the tasks when some
  slides have been searched for and some have been laid out.
* `Crew.step?_crewAt`: a step takes these to where one slide more has been.
* `obtainBy_obtainFrom`: rendering one slide after the other is an interleaving.

Tasks share the cache, but none of them looks at what another one puts there.  A
task searches for its own slide, and no other task keeps a rendering of that, so
it finds what the cache had before any task began. -/

namespace SlideDeck

open scoped List

variable {s : Session} {slides : List CompiledSlide} {image : Nat → RenderedSlide}
  {searched order : List Nat} {index : Nat}

/-- What stands in a list from some place on, one place later. -/
theorem getElem?_rest {α : Type} {c : α} {rest all : List α}
    (there : ∀ j, (c :: rest)[j]? = all[index + j]?) (j : Nat) :
    rest[j]? = all[index + 1 + j]? := by
  rw [Nat.add_assoc, Nat.add_comm 1 j]
  exact there (j + 1)

namespace Session

/-! ## What tasks come to -/

/-- The rendering of a slide that the cache has. -/
def known (s : Session) (index : Nat) : Option Rendering :=
  s.cache.get? ⟨index, s.options.viewport⟩

/-- Laying out the slides gives these images. -/
def Draws (s : Session) (slides : List CompiledSlide) (image : Nat → RenderedSlide) : Prop :=
  ∀ (index : Nat) (c : CompiledSlide), slides[index]? = some c →
    c.render index s.measurer = .ok (image index)

/-- The rendering of a slide that is laid out in its turn. -/
def laidOut (s : Session) (image : Nat → RenderedSlide) (order : List Nat) (index : Nat) :
    Rendering :=
  ⟨s.nextSerial + order.idxOf index, image index⟩

/-- What the task of a slide answers. -/
def answerAt (s : Session) (image : Nat → RenderedSlide) (order : List Nat) (index : Nat) :
    Rendering × Bool :=
  match s.known index with
  | some r => (r, false)
  | none => (s.laidOut image order index, true)

/-- The task of a slide, when some slides have been searched for and some have been laid out. -/
def taskAt (s : Session) (image : Nat → RenderedSlide) (searched order : List Nat) (index : Nat) :
    SlideTask :=
  if index ∉ searched then .waiting
  else if s.known index = none ∧ index ∉ order then .missed
  else .done (.ok (s.answerAt image order index))

/-- The session, when some slides have been searched for and some have been laid out. -/
def after (s : Session) (image : Nat → RenderedSlide) (searched order : List Nat) : Session :=
  { s with
    cache := {
      entries := (order.map fun i => (⟨i, s.options.viewport⟩, s.laidOut image order i)).reverse
        ++ s.cache.entries
      hits := s.cache.hits + searched.countP fun i => (s.known i).isSome
      misses := s.cache.misses + searched.countP fun i => (s.known i).isNone }
    nextSerial := s.nextSerial + order.length }

def crewAt (s : Session) (image : Nat → RenderedSlide) (count : Nat) (searched order : List Nat) :
    Crew :=
  ⟨s.after image searched order, (List.range count).map (s.taskAt image searched order)⟩

/-- Slides that may have been searched for, and slides that may have been laid out. -/
structure Progress (s : Session) (count : Nat) (searched order : List Nat) : Prop where
  once : searched.Nodup
  below : ∀ i ∈ searched, i < count
  laidOnce : order.Nodup
  missing : ∀ i ∈ order, i ∈ searched ∧ s.known i = none

/-! ## Steps -/

theorem laidOut_append {i : Nat} (h : i ∈ order) (more : List Nat) :
    s.laidOut image (order ++ more) i = s.laidOut image order i := by
  rw [laidOut, laidOut, List.idxOf_append_of_mem h]

theorem laidOut_last (h : index ∉ order) :
    s.laidOut image (order ++ [index]) index = ⟨s.nextSerial + order.length, image index⟩ := by
  simp [laidOut, List.idxOf_append_of_notMem h]

theorem known_after (h : index ∉ order) :
    (s.after image searched order).known index = s.known index := by
  -- No other task keeps a rendering of this slide.
  have others : (order.map fun i =>
        ((⟨i, s.options.viewport⟩ : CacheKey), s.laidOut image order i)).reverse.find?
      (fun e => e.1 = ⟨index, s.options.viewport⟩) = none := by
    refine List.find?_eq_none.2 fun e among => ?_
    obtain ⟨i, there, rfl⟩ := List.mem_map.1 (List.mem_reverse.1 among)
    have different : i ≠ index := fun equal => h (equal ▸ there)
    simp [different]
  simp [known, Cache.get?, after, List.find?_append, others]

theorem search_hit {r : Rendering} (hit : s.known index = some r) :
    s.search index
      = (.done (.ok (r, false)),
          { s with cache := { s.cache with hits := s.cache.hits + 1 } }) := by
  have found : s.cache.find index s.options.viewport
      = (some r, { s.cache with hits := s.cache.hits + 1 }) := by
    rw [known] at hit
    rw [Cache.find, hit]
  rw [search, found]

theorem search_miss (miss : s.known index = none) :
    s.search index
      = (.missed, { s with cache := { s.cache with misses := s.cache.misses + 1 } }) := by
  have found : s.cache.find index s.options.viewport
      = (none, { s.cache with misses := s.cache.misses + 1 }) := by
    rw [known] at miss
    rw [Cache.find, miss]
  rw [search, found]

theorem search_after (fresh : index ∉ order) :
    (s.after image searched order).search index
      = (s.taskAt image (searched ++ [index]) order index,
          s.after image (searched ++ [index]) order) := by
  have same : (s.after image searched order).known index = s.known index := known_after fresh
  cases known : s.known index with
  | some r =>
    rw [known] at same
    rw [search_hit same]
    simp [taskAt, known, answerAt, after, Nat.add_assoc]
  | none =>
    rw [known] at same
    rw [search_miss same]
    simp [taskAt, known, fresh, after, Nat.add_assoc]

theorem keep_miss {c : CompiledSlide} {slide : RenderedSlide} (miss : s.known index = none)
    (rendered : c.render index s.measurer = .ok slide) :
    s.keep index c
      = (.done (.ok (⟨s.nextSerial, slide⟩, true)),
          { s with
            cache := { s.cache with
              entries := (⟨index, s.options.viewport⟩, ⟨s.nextSerial, slide⟩) :: s.cache.entries }
            nextSerial := s.nextSerial + 1 }) := by
  have atIndex := CompiledSlide.index_of_render rendered
  have entries : (s.cache.store s.options.viewport (some ⟨s.nextSerial, slide⟩)).entries
      = (⟨index, s.options.viewport⟩, ⟨s.nextSerial, slide⟩) :: s.cache.entries := by
    rw [Cache.entries_store]
    · simp only [atIndex]
    · rw [atIndex]
      exact miss
  rw [keep, rendered, ← entries]
  rfl

theorem keep_after (draws : s.Draws slides image) {c : CompiledSlide}
    (there : slides[index]? = some c) (found : index ∈ searched) (miss : s.known index = none)
    (fresh : index ∉ order) :
    (s.after image searched order).keep index c
      = (s.taskAt image searched (order ++ [index]) index,
          s.after image searched (order ++ [index])) := by
  -- Those laid out before keep their serial numbers.
  have before : (order.map fun i =>
        ((⟨i, s.options.viewport⟩ : CacheKey), s.laidOut image (order ++ [index]) i))
      = order.map fun i => (⟨i, s.options.viewport⟩, s.laidOut image order i) :=
    List.map_congr_left fun i among => by rw [laidOut_append among]
  rw [keep_miss ((known_after fresh).trans miss) (draws index c there)]
  simp [taskAt, found, miss, answerAt, laidOut_last fresh, after, before, Nat.add_assoc]

theorem taskAt_searched {i : Nat} (other : i ≠ index) :
    s.taskAt image (searched ++ [index]) order i = s.taskAt image searched order i := by
  simp [taskAt, other]

theorem taskAt_laidOut {i : Nat} (other : i ≠ index) :
    s.taskAt image searched (order ++ [index]) i = s.taskAt image searched order i := by
  by_cases among : i ∈ order
  · simp [taskAt, among, answerAt, laidOut_append among]
  · cases known : s.known i <;> simp [taskAt, among, answerAt, known, other]

/-- Where one task goes on, the others stay as they are. -/
theorem set_tasks {count : Nat} {f g : Nat → SlideTask} (others : ∀ i, i ≠ index → g i = f i) :
    ((List.range count).map f).set index (g index) = (List.range count).map g := by
  refine List.ext_getElem (by simp) fun i below below' => ?_
  by_cases equal : index = i
  · simp [equal]
  · simp [equal, others i (Ne.symm equal)]

theorem Progress.search {count : Nat} (h : s.Progress count searched order) (below : index < count)
    (fresh : index ∉ searched) : s.Progress count (searched ++ [index]) order where
  once := by simpa using h.once.concat fresh
  below := by simpa [or_imp, forall_and, below] using h.below
  laidOnce := h.laidOnce
  missing i among := ⟨List.mem_append_left _ (h.missing i among).1, (h.missing i among).2⟩

theorem Progress.keep {count : Nat} (h : s.Progress count searched order)
    (found : index ∈ searched) (miss : s.known index = none) (fresh : index ∉ order) :
    s.Progress count searched (order ++ [index]) where
  once := h.once
  below := h.below
  laidOnce := by simpa using h.laidOnce.concat fresh
  missing i among := by
    rcases List.mem_append.1 among with before | last
    · exact h.missing i before
    · obtain rfl := List.mem_singleton.1 last
      exact ⟨found, miss⟩

end Session

namespace Crew

open Session

/-- A step searches for one slide more, or lays out one more. -/
theorem step?_crewAt (draws : s.Draws slides image)
    (h : s.Progress slides.length searched order) {w : Crew}
    (step : (s.crewAt image slides.length searched order).step? slides index = some w) :
    ∃ searched' order', s.Progress slides.length searched' order' ∧
      w = s.crewAt image slides.length searched' order' := by
  by_cases below : index < slides.length
  case neg => simp [step?, crewAt, below] at step
  have there : slides[index]? = some slides[index] := List.getElem?_eq_getElem below
  have task : (s.crewAt image slides.length searched order).tasks[index]?
      = some (s.taskAt image searched order index) := by
    simp [crewAt, below]
  by_cases found : index ∈ searched
  · by_cases missed : s.known index = none ∧ index ∉ order
    · -- The second step.
      obtain ⟨miss, fresh⟩ := missed
      have missed : s.taskAt image searched order index = .missed := by
        simp [taskAt, found, miss, fresh]
      refine ⟨searched, order ++ [index], h.keep found miss fresh, ?_⟩
      rw [step?, task, there, missed] at step
      simp only [crewAt, keep_after draws there found miss fresh,
        set_tasks fun i => taskAt_laidOut (s := s)] at step
      exact (Option.some.inj step).symm
    · -- A task that is done makes no step.
      have done : s.taskAt image searched order index
          = .done (.ok (s.answerAt image order index)) := by
        simp [taskAt, found, missed]
      simp [step?, task, there, done] at step
  · -- The first step.
    have waiting : s.taskAt image searched order index = .waiting := by
      simp [taskAt, found]
    have fresh : index ∉ order := fun among => found (h.missing index among).1
    refine ⟨searched ++ [index], order, h.search below found, ?_⟩
    rw [step?, task, there, waiting] at step
    simp only [crewAt, search_after fresh, set_tasks fun i => taskAt_searched (s := s)] at step
    exact (Option.some.inj step).symm

theorem run?_crewAt (draws : s.Draws slides image) {schedule : List Nat}
    (h : s.Progress slides.length searched order) {w : Crew}
    (run : (s.crewAt image slides.length searched order).run? slides schedule = some w) :
    ∃ searched' order', s.Progress slides.length searched' order' ∧
      w = s.crewAt image slides.length searched' order' := by
  induction schedule generalizing searched order with
  | nil =>
    cases run
    exact ⟨searched, order, h, rfl⟩
  | cons index rest ih =>
    obtain ⟨next, step, later⟩ := Option.bind_eq_some_iff.1 run
    obtain ⟨searched', order', progress, rfl⟩ := step?_crewAt draws h step
    exact ih progress later

end Crew

/-! ## Whole interleavings -/

theorem SlideTask.mapM_answer?_eq_some {tasks : List SlideTask}
    {answers : List (Except SessionFault (Rendering × Bool))} :
    tasks.mapM answer? = some answers ↔ tasks = answers.map .done := by
  induction tasks generalizing answers with
  | nil => cases answers <;> simp
  | cons task rest ih =>
    rw [List.mapM_cons]
    cases task with
    | waiting | missed => cases answers <;> simp [answer?]
    | done answer => cases answers <;> simp [answer?, ih, Option.bind_eq_some_iff, and_comm]

theorem answers_ok {ε α : Type} (answers : List α) :
    (answers.map (Except.ok : α → Except ε α)).mapM id = .ok answers := by
  rw [List.mapM_map]
  exact (List.mapM_pure).trans (congrArg _ (List.map_id answers))

namespace Session

/-- The slides that the cache does not have, in their order. -/
def missing (s : Session) (count : Nat) : List Nat :=
  (List.range count).filter fun i => (s.known i).isNone

theorem progress_nil (s : Session) (count : Nat) : s.Progress count [] [] :=
  ⟨List.nodup_nil, by simp, List.nodup_nil, by simp⟩

theorem crew_eq (s : Session) (slides : List CompiledSlide) (image : Nat → RenderedSlide) :
    s.crew slides = s.crewAt image slides.length [] [] := by
  have waiting : s.taskAt image [] [] = fun _ => .waiting := funext fun i => by simp [taskAt]
  simp [crew, crewAt, after, waiting]

theorem after_perm {searched' : List Nat} (h : searched ~ searched') :
    s.after image searched order = s.after image searched' order := by
  simp only [after, h.countP_eq]

theorem taskAt_eq_done {i : Nat} {answer : Except SessionFault (Rendering × Bool)}
    (h : s.taskAt image searched order i = .done answer) :
    i ∈ searched ∧ (s.known i = none → i ∈ order) ∧ answer = .ok (s.answerAt image order i) := by
  by_cases found : i ∈ searched
  case neg => simp [taskAt, found] at h
  by_cases missed : s.known i = none ∧ i ∉ order
  case pos => simp [taskAt, found, missed] at h
  refine ⟨found, fun miss => ?_, ?_⟩
  · by_contra fresh
    exact missed ⟨miss, fresh⟩
  · rw [taskAt, if_neg (not_not_intro found), if_neg missed] at h
    injection h with same
    exact same.symm

/-- When all tasks are done, each slide has been searched for, and each that the cache did not have
has been laid out. -/
theorem Progress.complete {count : Nat} (h : s.Progress count searched order)
    {answers : List (Except SessionFault (Rendering × Bool))}
    (done : (List.range count).map (s.taskAt image searched order) = answers.map .done) :
    searched ~ List.range count ∧ order ~ s.missing count ∧
      answers = ((List.range count).map (s.answerAt image order)).map .ok := by
  have each : ∀ i < count, ∃ answer, s.taskAt image searched order i = .done answer := by
    intro i below
    have among : s.taskAt image searched order i ∈ answers.map SlideTask.done := by
      rw [← done]
      exact List.mem_map_of_mem (List.mem_range.2 below)
    obtain ⟨answer, -, equal⟩ := List.mem_map.1 among
    exact ⟨answer, equal.symm⟩
  refine ⟨?_, ?_, ?_⟩
  · refine (List.perm_ext_iff_of_nodup h.once List.nodup_range).2 fun i => ?_
    rw [List.mem_range]
    refine ⟨h.below i, fun below => ?_⟩
    obtain ⟨answer, is⟩ := each i below
    exact (taskAt_eq_done is).1
  · refine (List.perm_ext_iff_of_nodup h.laidOnce (List.nodup_range.filter _)).2 fun i => ?_
    rw [List.mem_filter, List.mem_range, Option.isNone_iff_eq_none]
    constructor
    · intro among
      obtain ⟨found, miss⟩ := h.missing i among
      exact ⟨h.below i found, miss⟩
    · rintro ⟨below, miss⟩
      obtain ⟨answer, is⟩ := each i below
      exact (taskAt_eq_done is).2.1 miss
  · have injective : Function.Injective SlideTask.done := fun _ _ equal => by injection equal
    refine injective.list_map ?_
    rw [← done, List.map_map, List.map_map]
    refine List.map_congr_left fun i among => ?_
    obtain ⟨answer, is⟩ := each i (List.mem_range.1 among)
    rw [is, (taskAt_eq_done is).2.2]
    rfl

/-- An interleaving that ends when all tasks are done has searched for every slide and laid out
those that the cache did not have, in some order. -/
theorem obtainBy_after (draws : s.Draws slides image) {schedule : List Nat}
    {outcome : Except SessionFault (List (Rendering × Bool)) × Session}
    (h : s.obtainBy slides schedule = some outcome) :
    ∃ order, order ~ s.missing slides.length ∧
      outcome = (.ok ((List.range slides.length).map (s.answerAt image order)),
        s.after image (List.range slides.length) order) := by
  obtain ⟨w, run, rest⟩ := Option.bind_eq_some_iff.1 h
  obtain ⟨answers, done, ⟨⟩⟩ := Option.bind_eq_some_iff.1 rest
  rw [s.crew_eq slides image] at run
  obtain ⟨searched, order, progress, rfl⟩ := Crew.run?_crewAt draws (s.progress_nil _) run
  obtain ⟨all, laid, rfl⟩ := progress.complete (SlideTask.mapM_answer?_eq_some.1 done)
  refine ⟨order, laid, ?_⟩
  rw [crewAt, after_perm all, answers_ok]

/-! ## One slide after the other -/

theorem obtain_run {c : CompiledSlide} (there : slides[index]? = some c)
    {done more : List SlideTask} (place : done.length = index) {r : Rendering × Bool} {t : Session}
    (h : s.obtain index c = (.ok r, t)) :
    ∃ schedule, Crew.run? slides ⟨s, done ++ .waiting :: more⟩ schedule
      = some ⟨t, done ++ .done (.ok r) :: more⟩ := by
  have task (task : SlideTask) : (done ++ task :: more)[index]? = some task := by simp [← place]
  have set (before after : SlideTask) :
      (done ++ before :: more).set index after = done ++ after :: more := by simp [← place]
  cases known : s.known index with
  | some found =>
    obtain ⟨⟨⟩, rfl⟩ := Prod.mk.inj ((obtain_hit known c).symm.trans h)
    exact ⟨[index], by simp [Crew.run?, Crew.step?, task, there, search_hit known, set]⟩
  | none =>
    cases rendered : c.render index s.measurer with
    | error missing =>
      have empty : s.cache.get? ⟨index, s.options.viewport⟩ = none := known
      simp [obtain, Cache.find, empty, rendered] at h
    | ok slide =>
      obtain ⟨⟨⟩, rfl⟩ := Prod.mk.inj ((obtain_miss known rendered).symm.trans h)
      refine ⟨[index, index], ?_⟩
      simp [Crew.run?, Crew.step?, task, there, search_miss known, set, keep, rendered]

theorem obtainFrom_cons {c : CompiledSlide} {rest : List CompiledSlide}
    {rs : List (Rendering × Bool)} {t : Session}
    (h : s.obtainFrom index (c :: rest) = (.ok rs, t)) :
    ∃ r u more, s.obtain index c = (.ok r, u) ∧
      u.obtainFrom (index + 1) rest = (.ok more, t) ∧ rs = r :: more := by
  rw [obtainFrom] at h
  split at h
  · cases h
  · next r u answer =>
    split at h
    · cases h
    · next more v answers =>
      cases h
      exact ⟨r, u, more, answer, answers, rfl⟩

theorem obtainFrom_run {rest : List CompiledSlide} (there : ∀ j, rest[j]? = slides[index + j]?)
    {done : List SlideTask} (place : done.length = index) {rs : List (Rendering × Bool)}
    {t : Session} (h : s.obtainFrom index rest = (.ok rs, t)) :
    ∃ schedule, Crew.run? slides ⟨s, done ++ rest.map fun _ => .waiting⟩ schedule
      = some ⟨t, done ++ rs.map fun r => .done (.ok r)⟩ := by
  induction rest generalizing s index done rs with
  | nil =>
    cases h
    exact ⟨[], rfl⟩
  | cons c rest ih =>
    obtain ⟨r, u, more, answer, answers, rfl⟩ := obtainFrom_cons h
    have thereRest := getElem?_rest there
    have placeRest : (done ++ [SlideTask.done (.ok r)]).length = index + 1 := by simp [place]
    obtain ⟨first, run⟩ := obtain_run (there 0).symm place answer
    obtain ⟨later, runRest⟩ := ih thereRest placeRest answers
    refine ⟨first ++ later, ?_⟩
    rw [Crew.run?] at run runRest ⊢
    rw [List.append_assoc, List.append_assoc] at runRest
    rw [List.foldlM_append, List.map_cons, run]
    exact runRest

/-- Rendering one slide after the other is an interleaving. -/
theorem obtainBy_obtainFrom {rs : List (Rendering × Bool)} {t : Session}
    (h : s.obtainFrom 0 slides = (.ok rs, t)) :
    ∃ schedule, s.obtainBy slides schedule = some (.ok rs, t) := by
  have there : ∀ j, slides[j]? = slides[0 + j]? := fun j => by rw [Nat.zero_add]
  have place : ([] : List SlideTask).length = 0 := rfl
  obtain ⟨schedule, run⟩ := obtainFrom_run there place h
  refine ⟨schedule, ?_⟩
  have answers : (rs.map fun r => SlideTask.done (.ok r)) = (rs.map .ok).map .done := by simp
  rw [List.nil_append, List.nil_append, answers] at run
  have collected : ((rs.map .ok).map .done).mapM SlideTask.answer? = some (rs.map .ok) :=
    SlideTask.mapM_answer?_eq_some.2 rfl
  rw [obtainBy, crew, run]
  simp only [Option.bind_eq_bind, Option.bind_some, collected, answers_ok]
  rfl

end Session

end SlideDeck
