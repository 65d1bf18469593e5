import SlideDeck.Proofs.Pool.Turns
import SlideDeck.TaskPool.Shift

/-! # The life of a task pool

Whatever its clients and workers do, and in whatever order, a pool runs each task
that it accepts exactly once, takes them in the order in which it accepted them,
and is done with all of them when it says so (`Shift.run_lifecycle`).

* `Shift.Step`: all that a move can do, with what allows it.
* `Shift.Sound`: what every move preserves.
* `Shift.run?_accepted` and `Shift.run?_work`: what clients ask for, and how long
  workers take for it.

A worker leaves when it finds the queue empty, and nothing that a client does may
fill the queue behind its back: tasks are not accepted from the moment at which
workers may leave (`Sound.leaving`). -/

namespace SlideDeck

open scoped List

variable {τ : Type}

namespace Shift

variable {s t : Shift τ}

/-! ## Moves -/

/-- All that a move can do, with what allows it. -/
inductive Step (s : Shift τ) : Move τ → Shift τ → Prop
  | accepted {task : τ} : s.pool.accepting = true →
      Step s (.submit task) { s with
        pool := { s.pool with queue := s.pool.queue ++ [task] }
        accepted := s.accepted ++ [task] }
  | refused {task : τ} : s.pool.accepting = false → Step s (.submit task) s
  | waited : s.pool.idle = true → Step s .waited s
  | began : s.pool.accepting = true →
      Step s .shutdown { s with pool := { s.pool with accepting := false } }
  | again : s.pool.accepting = false → Step s .shutdown s
  | closed : s.pool.accepting = false → s.left = s.pool.workers → Step s .closed s
  | took {task : τ} {rest : List τ} : s.pool.queue = task :: rest →
      s.pool.running.length + s.left < s.pool.workers →
      Step s (.turn .take) { s with
        pool := { s.pool with queue := rest, running := s.pool.running ++ [task] }
        taken := s.taken ++ [task] }
  | finished {place : Nat} {task : τ} : s.pool.running[place]? = some task →
      Step s (.turn (.finish place)) { s with pool := { s.pool with
        running := s.pool.running.eraseIdx place
        finished := s.pool.finished ++ [task] } }
  | leave : s.pool.accepting = false → s.pool.queue = [] →
      s.pool.running.length + s.left < s.pool.workers →
      Step s .leave { s with left := s.left + 1 }

theorem Step.step?_eq {m : Move τ} (h : s.Step m t) : s.step? m = some t := by
  cases h with
  | accepted accepting | refused accepting => simp [step?, TaskPool.submit, accepting]
  | waited idle => simp [step?, idle]
  | began accepting | again accepting => simp [step?, accepting]
  | closed accepting all => simp [step?, accepting, all]
  | took queue free =>
    simp [step?, hasFreeWorker, TaskPool.turn?, queue, free, Nat.lt_of_add_right_lt free]
  | finished there => simp [step?, TaskPool.turn?, there]
  | leave accepting queue free => simp [step?, hasFreeWorker, accepting, queue, free]

theorem Step.unique {m : Move τ} {t' : Shift τ} (h : s.Step m t') (made : s.step? m = some t) :
    s.Step m t :=
  Option.some.inj (h.step?_eq.symm.trans made) ▸ h

theorem step_of_step? {m : Move τ} (h : s.step? m = some t) : s.Step m t := by
  cases m with
  | submit task =>
    cases accepting : s.pool.accepting with
    | true => exact (Step.accepted accepting).unique h
    | false => exact (Step.refused accepting).unique h
  | waited =>
    obtain ⟨idle, rfl⟩ : s.pool.idle = true ∧ s = t := by simpa [step?] using h
    exact .waited idle
  | shutdown =>
    cases accepting : s.pool.accepting with
    | true => exact (Step.began accepting).unique h
    | false => exact (Step.again accepting).unique h
  | closed =>
    obtain ⟨⟨accepting, all⟩, rfl⟩ :
        (s.pool.accepting = false ∧ s.left = s.pool.workers) ∧ s = t := by simpa [step?] using h
    exact .closed accepting all
  | turn turn =>
    cases turn with
    | take =>
      obtain ⟨free, pool, taken, -⟩ : s.pool.running.length + s.left < s.pool.workers ∧
          ∃ pool, s.pool.turn? .take = some pool ∧ _ = t := by
        simpa [step?, hasFreeWorker] using h
      obtain ⟨task, rest, queue, -, -⟩ := TaskPool.turn?_take_eq_some.1 taken
      exact (Step.took queue free).unique h
    | finish place =>
      obtain ⟨pool, finished, -⟩ := Option.map_eq_some_iff.1 h
      obtain ⟨task, there, -⟩ := TaskPool.turn?_finish_eq_some.1 finished
      exact (Step.finished there).unique h
  | leave =>
    obtain ⟨⟨⟨accepting, queue⟩, free⟩, -⟩ : ((s.pool.accepting = false ∧ s.pool.queue = []) ∧
        s.pool.running.length + s.left < s.pool.workers) ∧ _ = t := by
      simpa [step?, hasFreeWorker] using h
    exact (Step.leave accepting queue free).unique h

theorem run?_nil : s.run? [] = some t ↔ s = t := by
  simp [run?]

theorem run?_cons {m : Move τ} {rest : List (Move τ)} :
    s.run? (m :: rest) = some t ↔ ∃ next, s.step? m = some next ∧ next.run? rest = some t :=
  Option.bind_eq_some_iff

/-- What every move preserves holds after a run, if it holds before. -/
theorem run?_induction {P : Shift τ → Prop}
    (step : ∀ {s t : Shift τ} {m : Move τ}, s.Step m t → P s → P t)
    {moves : List (Move τ)} (h : s.run? moves = some t) (holds : P s) : P t := by
  induction moves generalizing s with
  | nil => exact run?_nil.1 h ▸ holds
  | cons m rest ih =>
    obtain ⟨next, first, later⟩ := run?_cons.1 h
    exact ih later (step (step_of_step? first) holds)

/-! ## What every move preserves -/

/-- A shift that has lost no task, repeated none, and not changed their order. -/
structure Sound (s : Shift τ) : Prop where
  staffed : 1 ≤ s.pool.workers
  order : s.accepted = s.taken ++ s.pool.queue
  once : s.taken.Perm (s.pool.running ++ s.pool.finished)
  busy : s.pool.running.length + s.left ≤ s.pool.workers
  leaving : 0 < s.left → s.pool.accepting = false ∧ s.pool.queue = []

theorem start_sound (workers : Nat) : (start workers : Shift τ).Sound where
  staffed := Nat.le_max_left ..
  order := rfl
  once := .refl _
  busy := Nat.zero_le _
  leaving := fun some => absurd some (Nat.lt_irrefl 0)

theorem Step.sound {m : Move τ} (h : s.Step m t) (sound : s.Sound) : t.Sound := by
  cases h with
  | refused | waited | again | closed => exact sound
  | accepted accepting =>
    refine { sound with order := ?_, leaving := fun some => ?_ }
    · simp [sound.order]
    · -- No worker has left, so none will miss the task.
      exact absurd (sound.leaving some).1 (by simp [accepting])
  | began => exact { sound with leaving := fun some => ⟨rfl, (sound.leaving some).2⟩ }
  | @took task rest queue free =>
    refine { sound with order := ?_, once := ?_, busy := ?_, leaving := fun some => ?_ }
    · simp [sound.order, queue]
    · calc s.taken ++ [task]
        _ ~ (s.pool.running ++ s.pool.finished) ++ [task] := sound.once.append_right [task]
        _ ~ (s.pool.running ++ [task]) ++ s.pool.finished := by
          simpa using (List.perm_append_singleton task s.pool.finished).append_left s.pool.running
    · simp only [List.length_append, List.length_cons, List.length_nil]
      omega
    · exact absurd (sound.leaving some).2 (by simp [queue])
  | @finished place task there =>
    have split := TaskPool.perm_eraseIdx there
    refine { sound with once := ?_, busy := ?_ }
    · calc s.taken
        _ ~ s.pool.running ++ s.pool.finished := sound.once
        _ ~ task :: (s.pool.running.eraseIdx place ++ s.pool.finished) := split.append_right _
        _ ~ s.pool.running.eraseIdx place ++ (s.pool.finished ++ [task]) := by
          simpa using (List.perm_append_singleton task (_ ++ s.pool.finished)).symm
    · have one_less := split.length_eq
      have busy := sound.busy
      simp only [List.length_cons] at one_less ⊢
      omega
  | leave accepting queue free =>
    exact { sound with busy := free, leaving := fun _ => ⟨accepting, queue⟩ }

theorem run?_sound {moves : List (Move τ)} (h : s.run? moves = some t) (sound : s.Sound) :
    t.Sound :=
  run?_induction Step.sound h sound

theorem Sound.drained (h : s.Sound) : s.pool.drain.finished ~ s.accepted :=
  calc s.pool.finished ++ s.pool.running ++ s.pool.queue
    _ ~ s.pool.running ++ s.pool.finished ++ s.pool.queue := List.perm_append_comm.append_right _
    _ ~ s.taken ++ s.pool.queue := h.once.symm.append_right _
    _ = s.accepted := h.order.symm

/-- An idle pool is done with all that it has accepted. -/
theorem Sound.done (h : s.Sound) (idle : s.pool.idle = true) :
    s.pool.queue = [] ∧ s.pool.finished ~ s.accepted :=
  ⟨(TaskPool.idle_iff.1 idle).1, TaskPool.drain_finished_of_idle idle ▸ h.drained⟩

/-- When every worker has left, nothing waits and nothing is being run. -/
theorem Sound.idle_of_left (h : s.Sound) (all : s.left = s.pool.workers) : s.pool.idle = true := by
  have queue := (h.leaving (all ▸ h.staffed)).2
  have busy := h.busy
  have running : s.pool.running = [] := List.eq_nil_of_length_eq_zero (by omega)
  exact TaskPool.idle_iff.2 ⟨queue, running⟩

/-! ## What is accepted -/

/-- The tasks that are submitted before the first call to shut down. -/
def submissions : List (Move τ) → List τ
  | [] => []
  | .submit task :: rest => task :: submissions rest
  | .shutdown :: _ => []
  | _ :: rest => submissions rest

theorem Step.closed_frozen {m : Move τ} (h : s.Step m t) (closed : s.pool.accepting = false) :
    t.pool.accepting = false ∧ t.accepted = s.accepted := by
  cases h with
  | accepted accepting | began accepting => simp [accepting] at closed
  | refused | waited | again | closed | took | finished | leave => exact ⟨closed, rfl⟩

theorem run?_closed {moves : List (Move τ)} (h : s.run? moves = some t)
    (closed : s.pool.accepting = false) :
    t.pool.accepting = false ∧ t.accepted = s.accepted := by
  refine run?_induction (P := fun u => u.pool.accepting = false ∧ u.accepted = s.accepted)
    (fun step before => ?_) h ⟨closed, rfl⟩
  obtain ⟨still, same⟩ := step.closed_frozen before.1
  exact ⟨still, same.trans before.2⟩

/-- What a pool has accepted can be read off the calls of its clients. -/
theorem run?_accepted {moves : List (Move τ)} (h : s.run? moves = some t)
    (accepting : s.pool.accepting = true) :
    t.accepted = s.accepted ++ submissions moves ∧
      (t.pool.accepting = true ↔ .shutdown ∉ moves) := by
  induction moves generalizing s with
  | nil =>
    obtain rfl := run?_nil.1 h
    simp [submissions, accepting]
  | cons m rest ih =>
    obtain ⟨next, first, later⟩ := run?_cons.1 h
    cases step_of_step? first with
    | refused closed | again closed | closed closed | leave closed => simp [accepting] at closed
    | began =>
      obtain ⟨closed, accepted⟩ := run?_closed later rfl
      simp [submissions, closed, accepted]
    | accepted | waited | took | finished =>
      obtain ⟨accepted, still⟩ := ih later accepting
      simp [submissions, accepted, still]

/-! ## Progress -/

/-- The moves of workers; all others are moves of clients. -/
def byWorker : Move τ → Bool
  | .turn _ | .leave => true
  | .submit _ | .waited | .shutdown | .closed => false

/-- How many moves workers can make before it is a client's turn. -/
def work (s : Shift τ) : Nat :=
  2 * s.pool.queue.length + s.pool.running.length + (s.pool.workers - s.left)

theorem Step.work_lt {m : Move τ} (h : s.Step m t) (own : byWorker m = true) :
    t.work < s.work ∧ t.pool.accepting = s.pool.accepting := by
  cases h with
  | accepted | refused | waited | began | again | closed => cases own
  | took queue =>
    simp only [work, queue, List.length_append, List.length_cons, List.length_nil, and_true]
    omega
  | finished there =>
    have one_less := (TaskPool.perm_eraseIdx there).length_eq
    simp only [work, List.length_cons, and_true] at one_less ⊢
    omega
  | leave accepting queue free =>
    simp only [work, and_true]
    omega

theorem run?_work {moves : List (Move τ)} (h : s.run? moves = some t)
    (own : ∀ m ∈ moves, byWorker m = true) :
    moves.length + t.work ≤ s.work ∧ t.pool.accepting = s.pool.accepting := by
  induction moves generalizing s with
  | nil =>
    obtain rfl := run?_nil.1 h
    simp
  | cons m rest ih =>
    obtain ⟨next, first, later⟩ := run?_cons.1 h
    obtain ⟨less, same⟩ := (step_of_step? first).work_lt (own m (List.mem_cons_self ..))
    obtain ⟨bound, later_same⟩ := ih later fun m among => own m (List.mem_cons_of_mem _ among)
    refine ⟨?_, later_same.trans same⟩
    simp only [List.length_cons]
    omega

theorem Step.not_stuck {m : Move τ} (h : s.Step m t) : s.step? m ≠ none := by
  simp [h.step?_eq]

/-- Where no worker can move, nothing is left to do, and so no client has to wait any longer. -/
theorem Sound.settled (h : s.Sound) (stuck : ∀ m, byWorker m = true → s.step? m = none) :
    s.step? .waited = some s ∧ (s.pool.accepting = false → s.step? .closed = some s) := by
  have running : s.pool.running = [] := by
    cases running : s.pool.running with
    | nil => rfl
    | cons task rest =>
      have there : s.pool.running[0]? = some task := by simp [running]
      have step : s.Step (.turn (.finish 0)) _ := .finished there
      exact absurd (stuck _ rfl) step.not_stuck
  have queue : s.pool.queue = [] := by
    cases queue : s.pool.queue with
    | nil => rfl
    | cons task rest =>
      have none_left : s.left = 0 := by
        by_contra some
        simpa [queue] using (h.leaving (Nat.pos_of_ne_zero some)).2
      have free : s.pool.running.length + s.left < s.pool.workers := by
        simpa [running, none_left] using Nat.lt_of_succ_le h.staffed
      exact absurd (stuck _ rfl) (Step.took queue free).not_stuck
  refine ⟨(Step.waited (TaskPool.idle_iff.2 ⟨queue, running⟩)).step?_eq, fun closed => ?_⟩
  refine (Step.closed closed ?_).step?_eq
  by_contra some
  have free : s.pool.running.length + s.left < s.pool.workers := by
    have busy := h.busy
    rw [running, List.length_nil] at busy ⊢
    omega
  exact absurd (stuck _ rfl) (Step.leave closed queue free).not_stuck

theorem Step.workers_eq {m : Move τ} (h : s.Step m t) : t.pool.workers = s.pool.workers := by
  cases h <;> rfl

theorem run?_workers {moves : List (Move τ)} (h : s.run? moves = some t) :
    t.pool.workers = s.pool.workers :=
  run?_induction (fun step before => step.workers_eq.trans before) h rfl

/-! ## Whole shifts -/

/-- **The life of a pool.**  Whatever clients and workers have done, and in whatever order, what
the pool has accepted are the tasks submitted before the first call to shut down; they were taken
in that order, and each that was taken is being run or finished, once.  Who waits for all tasks,
or for the first call to shut down, goes on when all that was accepted is finished.  After that
call nothing is accepted, and a second call does nothing.  Left to themselves, the workers
come to a point where those who wait go on. -/
theorem run_lifecycle {workers : Nat} {moves : List (Move τ)} {s : Shift τ}
    (h : (start workers).run? moves = some s) :
    s.pool.workers = max 1 workers ∧ s.pool.running.length ≤ s.pool.workers ∧
    s.accepted = submissions moves ∧
    s.accepted = s.taken ++ s.pool.queue ∧ s.taken ~ s.pool.running ++ s.pool.finished ∧
    (∀ t, s.step? .waited = some t → t = s ∧ s.pool.queue = [] ∧ s.pool.finished ~ s.accepted) ∧
    (∀ t, s.step? .closed = some t → t = s ∧ s.pool.queue = [] ∧ s.pool.finished ~ s.accepted) ∧
    (s.pool.accepting = true ↔ .shutdown ∉ moves) ∧
    (s.pool.accepting = false → s.step? .shutdown = some s ∧
      ∀ task, s.pool.submit task = .error .shutDown ∧ s.step? (.submit task) = some s) ∧
    (∀ own t, (∀ m ∈ own, byWorker m = true) → s.run? own = some t → own.length ≤ s.work ∧
      ((∀ m, byWorker m = true → t.step? m = none) →
        t.step? .waited = some t ∧ (s.pool.accepting = false → t.step? .closed = some t))) := by
  have sound := run?_sound h (start_sound workers)
  obtain ⟨accepted, accepting⟩ := run?_accepted h rfl
  refine ⟨run?_workers h, Nat.le_of_add_right_le sound.busy, by simpa [start] using accepted,
    sound.order, sound.once, fun t waited => ?_, fun t closed => ?_, accepting,
    fun closed => ⟨(Step.again closed).step?_eq, fun task => ?_⟩, fun own t theirs run => ?_⟩
  · cases step_of_step? waited with
    | waited idle => exact ⟨rfl, sound.done idle⟩
  · cases step_of_step? closed with
    | closed _ all => exact ⟨rfl, sound.done (sound.idle_of_left all)⟩
  · exact ⟨by simp [TaskPool.submit, closed], (Step.refused closed).step?_eq⟩
  · obtain ⟨bound, same⟩ := run?_work run theirs
    exact ⟨Nat.le_of_add_right_le bound, same ▸ (run?_sound run sound).settled⟩

/-- A pool that is asked for no worker has one.  It is shut down while that runs one task and
another waits, and a third comes too late. -/
def rushed : List (Move Nat) :=
  [.submit 7, .submit 8, .turn .take, .shutdown, .submit 9, .turn (.finish 0), .turn .take,
    .turn (.finish 0), .leave]

theorem rushed_lifecycle : ∃ s, (start 0).run? rushed = some s ∧ s.pool.workers = 1 ∧
    s.accepted = [7, 8] ∧ s.step? .closed = some s ∧ s.pool.finished ~ [7, 8] ∧
    s.pool.submit 9 = .error .shutDown := by
  have run : (start 0).run? rushed = some
      { pool := { workers := 1, accepting := false, finished := [7, 8] }, left := 1,
        accepted := [7, 8], taken := [7, 8] } := rfl
  obtain ⟨workers, -, accepted, -, -, -, closed, -, refused, -⟩ := run_lifecycle run
  exact ⟨_, run, workers, accepted, rfl, (closed _ rfl).2.2, ((refused rfl).2 9).1⟩

end Shift

end SlideDeck
