import Mathlib.Data.List.Nodup
import SlideDeck.Proofs.Pool.Lifecycle
import SlideDeck.TaskPool.Mapping

/-! # Indexed maps

Whatever workers and other clients do, and in whatever order, a map comes to what
its calls come to one after the other, and each of them has been run once by then
(`Mapping.run?_mapped`).

* `Mapped`: what a map answers, said without a pool.
* `Mapping.Step`: all that a step can do, with what allows it.
* `Mapping.Kept`: what every step preserves, for each stage of the client.

The client knows less than the pool.  Calls finish in any order, and the client
hears of them in that of their indices, so what it has gathered belongs to the
calls below the next index, however many others are finished. -/

namespace SlideDeck

open scoped List

variable {τ α : Type} {count : Nat} {call : Nat → Except PoolFault α}

/-! ## Answers -/

/-- What a map over the indices below a count answers: all values, in the order of the indices, or
the failure of the lowest index of which the call fails. -/
inductive Mapped (count : Nat) (call : Nat → Except PoolFault α) :
    Except PoolFault (List α) → Prop
  | values {vs : List α} :
      vs.length = count → (∀ i v, vs[i]? = some v → call i = .ok v) → Mapped count call (.ok vs)
  | failure {i : Nat} {fault : PoolFault} :
      i < count → call i = .error fault → (∀ j < i, ∃ v, call j = .ok v) →
      Mapped count call (.error fault)

theorem mapM_range_succ (call : Nat → Except PoolFault α) (n : Nat) :
    (List.range (n + 1)).mapM call = do
      let vs ← (List.range n).mapM call
      let v ← call n
      return vs ++ [v] := by
  simp [List.range_succ, List.mapM_append]

/-- Calls one after the other are a map. -/
theorem mapped_mapM (count : Nat) (call : Nat → Except PoolFault α) :
    Mapped count call ((List.range count).mapM call) := by
  induction count with
  | zero => exact .values rfl nofun
  | succ n ih =>
    rw [mapM_range_succ]
    generalize (List.range n).mapM call = told at ih
    cases ih with
    | @failure i fault below fails before => exact .failure (Nat.lt_succ_of_lt below) fails before
    | @values vs length each =>
      cases last : call n with
      | error fault =>
        apply Mapped.failure (Nat.lt_succ_self n) last
        intro j below
        have there : vs[j]? = some vs[j] := List.getElem?_eq_getElem (length ▸ below)
        exact ⟨_, each j _ there⟩
      | ok v =>
        apply Mapped.values
        · simp [length]
        · intro i w there
          rw [List.getElem?_append] at there
          split at there
          · exact each i w there
          · next beyond =>
            obtain ⟨place, rfl⟩ : i - vs.length = 0 ∧ v = w := by
              simpa [List.getElem?_singleton] using there
            obtain rfl : i = n := by omega
            exact last

/-- What a pool answers when it is asked for the whole map at once. -/
theorem TaskPool.mapIndexed_eq {p : TaskPool τ} (accepting : p.accepting = true) (count : Nat)
    (task : Nat → τ) (call : Nat → Except PoolFault α) :
    (p.mapIndexed count task call).1 = (List.range count).mapM call := by
  have accepted : ∀ (tasks : List τ) (p : TaskPool τ), p.accepting = true →
      p.submitAll tasks = .ok { p with queue := p.queue ++ tasks } := by
    intro tasks
    induction tasks with
    | nil => simp [submitAll]
    | cons task rest ih =>
      intro p accepting
      simp [submitAll, submit, accepting, bind, Except.bind, ih]
  rw [mapIndexed, accepted _ p accepting]
  exact collect_of_perm (.refl _) call

theorem TaskPool.mapIndexed_closed {p : TaskPool τ} (closed : p.accepting = false) (count : Nat)
    (task : Nat → τ) (call : Nat → Except PoolFault α) :
    (p.mapIndexed count task call).1 = if count = 0 then .ok [] else .error .shutDown := by
  cases count with
  | zero => rfl
  | succ n =>
    simp [mapIndexed, List.range_succ_eq_map, submitAll, submit, closed, bind, Except.bind]

/-! ## Jobs -/

/-- The indices that some jobs are the calls for. -/
def calls (jobs : List (Job τ)) : List Nat :=
  jobs.filterMap Job.index?

@[simp] theorem calls_append (first second : List (Job τ)) :
    calls (first ++ second) = calls first ++ calls second :=
  List.filterMap_append

@[simp] theorem calls_call (index : Nat) : calls [(.call index : Job τ)] = [index] := rfl

@[simp] theorem calls_other (task : τ) : calls [.other task] = [] := rfl

theorem any_index?_iff {jobs : List (Job τ)} {index : Nat} :
    (jobs.any fun job => job.index? = some index) = true ↔ index ∈ calls jobs := by
  simp [calls, List.mem_filterMap]

namespace Shift

variable {s t : Shift (Job τ)} {move : Move τ}

/-- What is finished stays so. -/
theorem Step.finished_prefix {σ : Type} {s t : Shift σ} {move : Move σ} (h : s.Step move t) :
    s.pool.finished <+: t.pool.finished := by
  cases h with
  | finished => exact List.prefix_append _ _
  | accepted | refused | waited | began | again | closed | took | leave =>
    exact List.prefix_refl _

/-- Nobody but the client of a map submits its calls. -/
theorem Step.calls_accepted (h : s.Step (move.map .other) t) :
    calls t.accepted = calls s.accepted := by
  cases move with
  | submit task =>
    cases h with
    | accepted => simp
    | refused => rfl
  | waited | shutdown | closed | leave => cases h <;> rfl
  | turn turn => cases turn <;> (cases h; rfl)

theorem byWorker_map (move : Move τ) : byWorker (move.map Job.other) = byWorker move := by
  cases move <;> rfl

/-- The moves of workers have no task, and so are the same whatever tasks are. -/
theorem exists_map_of_byWorker {move : Move (Job τ)} (own : byWorker move = true) :
    ∃ original : Move τ, byWorker original = true ∧ original.map .other = move := by
  cases move with
  | turn turn => exact ⟨.turn turn, rfl, rfl⟩
  | leave => exact ⟨.leave, rfl, rfl⟩
  | submit | waited | shutdown | closed => cases own

/-- Each call that was accepted is finished, is being run or waits, once. -/
theorem Sound.calls_split (h : s.Sound) :
    calls s.pool.finished ++ (calls s.pool.running ++ calls s.pool.queue) ~ calls s.accepted := by
  have drained : s.pool.finished ++ s.pool.running ++ s.pool.queue ~ s.accepted := h.drained
  have indices := drained.filterMap Job.index?
  simpa [calls] using indices

theorem Sound.calls_subset (h : s.Sound) : calls s.pool.finished ⊆ calls s.accepted := by
  intro i among
  exact h.calls_split.subset (List.mem_append_left _ among)

/-- Where the calls for all indices were accepted and are finished, each was finished once. -/
theorem Sound.calls_perm (h : s.Sound) (accepted : calls s.accepted = List.range count)
    (finished : ∀ i < count, i ∈ calls s.pool.finished) :
    calls s.pool.finished ~ List.range count := by
  have nodup := (accepted ▸ h.calls_split).symm.nodup List.nodup_range
  apply (List.perm_ext_iff_of_nodup nodup.of_append_left List.nodup_range).2
  intro i
  constructor
  · intro among
    exact accepted ▸ h.calls_subset among
  · intro below
    exact finished i (List.mem_range.1 below)

end Shift

namespace Mapping

variable {m n : Mapping τ α}

/-! ## Steps -/

/-- All that a step can do, with what allows it. -/
inductive Step (count : Nat) (call : Nat → Except PoolFault α) :
    Mapping τ α → Act τ → Mapping τ α → Prop
  | submitted {s t : Shift (Job τ)} {next : Nat} :
      next < count → s.pool.accepting = true → s.Step (.submit (.call next)) t →
      Step count call ⟨s, .submitting next⟩ .advance ⟨t, .submitting (next + 1)⟩
  | refused {s : Shift (Job τ)} {next : Nat} :
      next < count → s.pool.accepting = false →
      Step count call ⟨s, .submitting next⟩ .advance ⟨s, .ended (.error .shutDown)⟩
  | all {s : Shift (Job τ)} {next : Nat} :
      count ≤ next → Step count call ⟨s, .submitting next⟩ .advance ⟨s, .awaiting 0 [] none⟩
  | heard {s : Shift (Job τ)} {next : Nat} {results : List α} {failure : Option PoolFault} :
      next < count → next ∈ calls s.pool.finished →
      Step count call ⟨s, .awaiting next results failure⟩ .advance
        ⟨s, .awaiting (next + 1) (noted results failure (call next)).1
          (noted results failure (call next)).2⟩
  | answered {s : Shift (Job τ)} {next : Nat} {results : List α} {failure : Option PoolFault} :
      count ≤ next →
      Step count call ⟨s, .awaiting next results failure⟩ .advance
        ⟨s, .ended (told results failure)⟩
  | moved {s t : Shift (Job τ)} {stage : Stage α} {move : Move τ} :
      s.Step (move.map .other) t → Step count call ⟨s, stage⟩ (.move move) ⟨t, stage⟩

theorem Step.step?_eq {act : Act τ} (h : Step count call m act n) :
    m.step? count call act = some n := by
  cases h with
  | submitted below accepting step =>
    simp [step?, advance?, below, TaskPool.submit, accepting, step.step?_eq]
  | refused below closed => simp [step?, advance?, below, TaskPool.submit, closed]
  | all beyond => simp [step?, advance?, Nat.not_lt.2 beyond]
  | heard below finished => simp [step?, advance?, below, any_index?_iff.2 finished]
  | answered beyond => simp [step?, advance?, Nat.not_lt.2 beyond]
  | moved step => simp [step?, step.step?_eq]

theorem Step.unique {act : Act τ} {n' : Mapping τ α} (h : Step count call m act n')
    (made : m.step? count call act = some n) : Step count call m act n :=
  Option.some.inj (h.step?_eq.symm.trans made) ▸ h

theorem step_of_step? {act : Act τ} (h : m.step? count call act = some n) :
    Step count call m act n := by
  obtain ⟨s, stage⟩ := m
  cases act with
  | move move =>
    obtain ⟨t, step, rfl⟩ := Option.map_eq_some_iff.1 h
    exact .moved (Shift.step_of_step? step)
  | advance =>
    cases stage with
    | submitting next =>
      by_cases below : next < count
      · cases accepting : s.pool.accepting with
        | true => exact (Step.submitted below accepting (.accepted accepting)).unique h
        | false => exact (Step.refused below accepting).unique h
      · exact (Step.all (Nat.not_lt.1 below)).unique h
    | awaiting next results failure =>
      by_cases below : next < count
      · by_cases finished : next ∈ calls s.pool.finished
        · exact (Step.heard below finished).unique h
        · have waits := mt any_index?_iff.1 finished
          simp [step?, advance?, below, waits] at h
      · exact (Step.answered (Nat.not_lt.1 below)).unique h
    | ended answer => cases h

theorem run?_nil : m.run? count call [] = some n ↔ m = n := by
  simp [run?]

theorem run?_cons {act : Act τ} {rest : List (Act τ)} :
    m.run? count call (act :: rest) = some n ↔
      ∃ next, m.step? count call act = some next ∧ next.run? count call rest = some n :=
  Option.bind_eq_some_iff

theorem run?_append {first second : List (Act τ)} :
    m.run? count call (first ++ second) = some n ↔
      ∃ next, m.run? count call first = some next ∧ next.run? count call second = some n := by
  rw [run?, List.foldlM_append]
  exact Option.bind_eq_some_iff

/-! ## What every step preserves -/

/-- What holds of a pool while the client is at a stage. -/
inductive Kept (count : Nat) (call : Nat → Except PoolFault α) (s : Shift (Job τ)) :
    Stage α → Prop
  | submitting {next : Nat} :
      next ≤ count → calls s.accepted = List.range next → Kept count call s (.submitting next)
  | awaiting {next : Nat} {results : List α} {failure : Option PoolFault} :
      next ≤ count → calls s.accepted = List.range count →
      (∀ i < next, i ∈ calls s.pool.finished) →
      (List.range next).mapM call = told results failure →
      Kept count call s (.awaiting next results failure)
  | mapped {answer : Except PoolFault (List α)} :
      calls s.accepted = List.range count → (∀ i < count, i ∈ calls s.pool.finished) →
      (List.range count).mapM call = answer → Kept count call s (.ended answer)
  | refused {next : Nat} :
      next < count → calls s.accepted = List.range next → s.pool.accepting = false →
      Kept count call s (.ended (.error .shutDown))

theorem mapM_told {next : Nat} {results : List α} {failure : Option PoolFault}
    (h : (List.range next).mapM call = told results failure) :
    (List.range (next + 1)).mapM call
      = told (noted results failure (call next)).1 (noted results failure (call next)).2 := by
  rw [mapM_range_succ, h]
  cases failure <;> cases call next <;> rfl

theorem Kept.moved {s t : Shift (Job τ)} {stage : Stage α} (h : Kept count call s stage)
    {move : Move τ} (step : s.Step (move.map .other) t) : Kept count call t stage := by
  have same := step.calls_accepted
  have grown : ∀ i ∈ calls s.pool.finished, i ∈ calls t.pool.finished := by
    intro i among
    exact (step.finished_prefix.filterMap _).subset among
  cases h with
  | submitting bound accepted => exact .submitting bound (same.trans accepted)
  | awaiting bound accepted finished told =>
    exact .awaiting bound (same.trans accepted) (fun i below => grown i (finished i below)) told
  | mapped accepted finished told =>
    exact .mapped (same.trans accepted) (fun i below => grown i (finished i below)) told
  | refused bound accepted closed =>
    exact .refused bound (same.trans accepted) (step.closed_frozen closed).1

/-- A sound pool, and what holds of it while the client is where it is. -/
structure Sound (count : Nat) (call : Nat → Except PoolFault α) (m : Mapping τ α) : Prop where
  shift : m.shift.Sound
  kept : Kept count call m.shift m.stage

theorem start_sound (workers count : Nat) (call : Nat → Except PoolFault α) :
    Sound count call (start workers : Mapping τ α) where
  shift := Shift.start_sound workers
  kept := .submitting (Nat.zero_le _) rfl

theorem Step.sound {act : Act τ} (h : Step count call m act n) (sound : Sound count call m) :
    Sound count call n := by
  obtain ⟨shift, kept⟩ := sound
  cases h with
  | submitted below accepting step =>
    refine ⟨step.sound shift, ?_⟩
    cases kept with
    | submitting _ accepted =>
      cases step with
      | accepted =>
        apply Kept.submitting below
        simp [accepted, List.range_succ]
      | refused closed => simp [accepting] at closed
  | refused below closed =>
    cases kept with
    | submitting _ accepted => exact ⟨shift, .refused below accepted closed⟩
  | all beyond =>
    cases kept with
    | submitting bound accepted =>
      obtain rfl := Nat.le_antisymm bound beyond
      exact ⟨shift, .awaiting (Nat.zero_le _) accepted nofun rfl⟩
  | @heard _ next _ _ below finished =>
    cases kept with
    | awaiting _ accepted before told =>
      refine ⟨shift, .awaiting below accepted (fun i bound => ?_) (mapM_told told)⟩
      rcases Nat.lt_succ_iff_lt_or_eq.1 bound with earlier | rfl
      · exact before i earlier
      · exact finished
  | answered beyond =>
    cases kept with
    | awaiting bound accepted before told =>
      obtain rfl := Nat.le_antisymm bound beyond
      exact ⟨shift, .mapped accepted before told⟩
  | moved step => exact ⟨step.sound shift, kept.moved step⟩

/-- What every step preserves holds after a run, if it holds before. -/
theorem run?_induction {P : Mapping τ α → Prop}
    (step : ∀ {m n : Mapping τ α} {act : Act τ}, Step count call m act n → P m → P n)
    {acts : List (Act τ)} (h : m.run? count call acts = some n) (holds : P m) : P n := by
  induction acts generalizing m with
  | nil => exact run?_nil.1 h ▸ holds
  | cons act rest ih =>
    obtain ⟨next, first, later⟩ := run?_cons.1 h
    exact ih later (step (step_of_step? first) holds)

theorem run?_sound {acts : List (Act τ)} (h : m.run? count call acts = some n)
    (sound : Sound count call m) : Sound count call n :=
  run?_induction Step.sound h sound

/-! ## Pools that are shut down -/

theorem Step.accepting {act : Act τ} (h : Step count call m act n)
    (accepting : m.shift.pool.accepting = true) :
    n.shift.pool.accepting = true ∨ act = .move .shutdown := by
  cases h with
  | submitted _ _ step =>
    cases step with
    | accepted => exact .inl accepting
    | refused => exact .inl accepting
  | refused | all | heard | answered => exact .inl accepting
  | @moved _ _ _ move step =>
    cases move with
    | shutdown => exact .inr rfl
    | submit | waited | closed | leave => cases step <;> exact .inl accepting
    | turn turn => cases turn <;> (cases step; exact .inl accepting)

/-- A pool that takes no more tasks was shut down. -/
theorem run?_shutdown {acts : List (Act τ)} (h : m.run? count call acts = some n)
    (accepting : m.shift.pool.accepting = true) (closed : n.shift.pool.accepting = false) :
    .move .shutdown ∈ acts := by
  induction acts generalizing m with
  | nil =>
    obtain rfl := run?_nil.1 h
    simp [accepting] at closed
  | cons act rest ih =>
    obtain ⟨next, first, later⟩ := run?_cons.1 h
    rcases (step_of_step? first).accepting accepting with still | rfl
    · exact List.mem_cons_of_mem _ (ih later still)
    · exact List.mem_cons_self ..

theorem Step.closed_frozen {act : Act τ} (h : Step count call m act n)
    (closed : m.shift.pool.accepting = false) :
    n.shift.pool.accepting = false ∧ calls n.shift.accepted = calls m.shift.accepted := by
  cases h with
  | submitted _ accepting => simp [accepting] at closed
  | refused | all | heard | answered => exact ⟨closed, rfl⟩
  | moved step => exact ⟨(step.closed_frozen closed).1, step.calls_accepted⟩

theorem run?_closed {acts : List (Act τ)} (h : m.run? count call acts = some n)
    (closed : m.shift.pool.accepting = false) :
    n.shift.pool.accepting = false ∧ calls n.shift.accepted = calls m.shift.accepted := by
  apply run?_induction _ h ⟨closed, rfl⟩
  intro k l act step before
  obtain ⟨still, same⟩ := step.closed_frozen before.1
  exact ⟨still, same.trans before.2⟩

/-- Before its first step, the client has submitted nothing. -/
theorem run?_before {acts : List (Act τ)} (h : m.run? count call acts = some n)
    (waits : .advance ∉ acts) :
    n.stage = m.stage ∧ (.move .shutdown ∈ acts → n.shift.pool.accepting = false) := by
  induction acts generalizing m with
  | nil =>
    obtain rfl := run?_nil.1 h
    exact ⟨rfl, nofun⟩
  | cons act rest ih =>
    obtain ⟨here, there⟩ := not_or.1 (mt List.mem_cons.2 waits)
    obtain ⟨next, first, later⟩ := run?_cons.1 h
    obtain ⟨same, closed⟩ := ih later there
    cases step_of_step? first with
    | submitted | refused | all | heard | answered => exact absurd rfl here
    | @moved s t stage move step =>
      refine ⟨same, fun among => ?_⟩
      rcases List.mem_cons.1 among with equal | among
      · cases equal
        have shut : t.pool.accepting = false := by cases step <;> trivial
        exact (run?_closed later shut).1
      · exact closed among

/-! ## Progress -/

/-- The steps of the client and of the workers; all others are moves of other clients. -/
def byMap : Act τ → Bool
  | .advance => true
  | .move move => Shift.byWorker move

/-- How many steps the client can make, each submission counted with what workers make of it. -/
def Stage.steps (count : Nat) : Stage α → Nat
  | .submitting next => 3 * (count - next) + (count + 2)
  | .awaiting next _ _ => count - next + 1
  | .ended _ => 0

/-- How many steps the client and the workers can make. -/
def work (count : Nat) (m : Mapping τ α) : Nat :=
  m.shift.work + Stage.steps count m.stage

theorem Step.work_lt {act : Act τ} (h : Step count call m act n) (own : byMap act = true) :
    n.work count < m.work count := by
  cases h with
  | submitted below accepting step =>
    cases step with
    | accepted =>
      simp only [work, Stage.steps, Shift.work, List.length_append, List.length_singleton]
      omega
    | refused closed => simp [accepting] at closed
  | refused | all | heard | answered =>
    simp only [work, Stage.steps]
    omega
  | @moved _ _ _ move step =>
    have less := (step.work_lt ((Shift.byWorker_map move).trans own)).1
    simp only [work]
    omega

theorem run?_work {acts : List (Act τ)} (h : m.run? count call acts = some n)
    (own : ∀ act ∈ acts, byMap act = true) : acts.length + n.work count ≤ m.work count := by
  induction acts generalizing m with
  | nil =>
    obtain rfl := run?_nil.1 h
    simp
  | cons act rest ih =>
    obtain ⟨here, there⟩ := List.forall_mem_cons.1 own
    obtain ⟨next, first, later⟩ := run?_cons.1 h
    have less := (step_of_step? first).work_lt here
    have bound := ih later there
    simp only [List.length_cons]
    omega

theorem Step.not_stuck {act : Act τ} (h : Step count call m act n) :
    m.step? count call act ≠ none := by
  simp [h.step?_eq]

/-- Where neither the client nor a worker can go on, the map has ended. -/
theorem Sound.settled (h : Sound count call m)
    (stuck : ∀ act, byMap act = true → m.step? count call act = none) :
    ∃ answer, m.stage = .ended answer := by
  obtain ⟨s, stage⟩ := m
  obtain ⟨shift, kept⟩ := h
  have waits := stuck .advance rfl
  -- The workers are stuck too, and so they are done with all that was accepted.
  have idle : s.pool.idle = true := by
    have settled := shift.settled fun move own => by
      obtain ⟨original, owned, rfl⟩ := Shift.exists_map_of_byWorker own
      exact Option.map_eq_none_iff.1 (stuck (.move original) owned)
    cases Shift.step_of_step? settled.1 with
    | waited idle => exact idle
  cases stage with
  | ended answer => exact ⟨answer, rfl⟩
  | submitting next =>
    by_cases below : next < count
    · cases accepting : s.pool.accepting with
      | true => exact absurd waits (Step.submitted below accepting (.accepted accepting)).not_stuck
      | false => exact absurd waits (Step.refused below accepting).not_stuck
    · exact absurd waits (Step.all (Nat.not_lt.1 below)).not_stuck
  | awaiting next results failure =>
    by_cases below : next < count
    · cases kept with
      | awaiting _ accepted _ _ =>
        have finished : calls s.pool.finished ~ calls s.accepted :=
          (shift.done idle).2.filterMap _
        rw [accepted] at finished
        have there := finished.symm.subset (List.mem_range.2 below)
        exact absurd waits (Step.heard below there).not_stuck
    · exact absurd waits (Step.answered (Nat.not_lt.1 below)).not_stuck

/-! ## Whole maps -/

/-- **Indexed maps.**  A pool with any number of workers is used by a client that maps and by
others, all of which take their steps in any order.  When the map has ended, each call has been run
exactly once, and the answer is what the calls answer one after the other: all values in the order
of the indices, or the failure of the lowest index.  Only where the pool was shut down before all
calls were submitted is the map refused.  If that was before its first step, it runs no call, and
is refused unless there is none to run.  Left to themselves, the client and the workers come to
the end of the map. -/
theorem run?_mapped {workers : Nat} {acts : List (Act τ)} {m : Mapping τ α}
    (h : (start workers).run? count call acts = some m) :
    (∀ answer, m.stage = .ended answer →
      (calls m.shift.pool.finished ~ List.range count ∧ Mapped count call answer ∧
        ((TaskPool.start workers).mapIndexed count (Job.call (τ := τ)) call).1 = answer) ∨
      (.move .shutdown ∈ acts ∧ answer = .error .shutDown ∧
        ∃ next < count, calls m.shift.accepted = List.range next)) ∧
    (∀ before after, acts = before ++ after → .advance ∉ before → .move .shutdown ∈ before →
      calls m.shift.accepted = [] ∧ calls m.shift.pool.finished = [] ∧
      ∀ answer, m.stage = .ended answer →
        answer = (if count = 0 then .ok [] else .error .shutDown) ∧
        (m.shift.pool.mapIndexed count Job.call call).1 = answer) ∧
    (∀ own n, (∀ act ∈ own, byMap act = true) → m.run? count call own = some n →
      own.length ≤ m.work count ∧
      ((∀ act, byMap act = true → n.step? count call act = none) →
        ∃ answer, n.stage = .ended answer)) := by
  have sound := run?_sound h (start_sound workers count call)
  refine ⟨fun answer ended => ?_, fun before after split waits closed => ?_,
    fun own n theirs run => ?_⟩
  · have kept := sound.kept
    rw [ended] at kept
    cases kept with
    | mapped accepted finished told =>
      refine .inl ⟨sound.shift.calls_perm accepted finished, ?_, ?_⟩
      · exact told ▸ mapped_mapM count call
      · rw [TaskPool.mapIndexed_eq rfl, told]
    | refused below accepted shut => exact .inr ⟨run?_shutdown h rfl shut, rfl, _, below, accepted⟩
  · subst split
    obtain ⟨k, first, later⟩ := run?_append.1 h
    obtain ⟨stage, shut⟩ := run?_before first waits
    have unsent : calls k.shift.accepted = [] := by
      have kept := (run?_sound first (start_sound workers count call)).kept
      rw [stage] at kept
      cases kept with
      | submitting _ accepted => exact accepted
    obtain ⟨still, same⟩ := run?_closed later (shut closed)
    have nothing := same.trans unsent
    refine ⟨nothing, ?_, fun answer ended => ?_⟩
    · apply List.eq_nil_of_subset_nil
      exact nothing ▸ sound.shift.calls_subset
    · rw [TaskPool.mapIndexed_closed still, eq_comm, and_self]
      have kept := sound.kept
      rw [ended] at kept
      cases kept with
      | mapped accepted _ told =>
        obtain rfl : count = 0 := List.range_eq_nil.1 (accepted.symm.trans nothing)
        exact told
      | refused below => exact if_neg (Nat.ne_zero_of_lt below)
  · exact ⟨Nat.le_of_add_right_le (run?_work run theirs), (run?_sound run sound).settled⟩

/-- Only the call for index 0 answers with a value. -/
def flaky (i : Nat) : Except PoolFault Nat :=
  if i = 0 then .ok 7 else .error (.failed (.decimal i))

/-- Two workers run three calls and a task of another client.  The calls finish in the order
1, 2, 0, and the client hears of them while others go on. -/
def scrambled : List (Act Nat) :=
  [.advance, .advance, .move (.submit 40), .move (.turn .take), .move (.turn .take), .advance,
    .advance, .move (.turn (.finish 1)), .move (.turn .take), .move (.turn (.finish 1)),
    .move (.turn .take), .move (.turn (.finish 1)), .move (.turn (.finish 0)), .advance,
    .move (.submit 41), .advance, .advance, .advance]

theorem scrambled_mapped :
    (∃ m, (start 2).run? 3 flaky scrambled = some m ∧
      m.stage = .ended (.error (.failed (.decimal 1))) ∧
      calls m.shift.pool.finished ~ List.range 3 ∧
      Mapped 3 flaky (.error (.failed (.decimal 1)))) ∧
    ∃ m : Mapping Nat Nat, (start 0).run? 2 flaky [.move .shutdown, .advance] = some m ∧
      m.stage = .ended (.error .shutDown) ∧ calls m.shift.accepted = [] := by
  constructor
  · obtain ⟨m, run, ended⟩ : ∃ m, (start 2).run? 3 flaky scrambled = some m ∧
        m.stage = .ended (.error (.failed (.decimal 1))) := ⟨_, rfl, rfl⟩
    obtain ⟨answers, -⟩ := run?_mapped run
    rcases answers _ ended with ⟨once, mapped, -⟩ | ⟨shut, -⟩
    · exact ⟨m, run, ended, once, mapped⟩
    · exact absurd shut (by decide)
  · obtain ⟨m, run, ended⟩ : ∃ m : Mapping Nat Nat,
        (start 0).run? 2 flaky [.move .shutdown, .advance] = some m ∧
        m.stage = .ended (.error .shutDown) := ⟨_, rfl, rfl⟩
    obtain ⟨-, refused, -⟩ := run?_mapped run
    obtain ⟨nothing, -⟩ := refused [.move .shutdown] [.advance] rfl (by decide) (by decide)
    exact ⟨m, run, ended, nothing⟩

end Mapping

end SlideDeck
