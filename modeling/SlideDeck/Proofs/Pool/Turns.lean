import Mathlib.Data.List.Perm.Basic
import SlideDeck.TaskPool

/-! # Turns of workers

What a turn of a worker does to a pool, and why the order in which calls finish
does not show in what an indexed map answers (`collect_of_perm`). -/

namespace SlideDeck

open scoped List

variable {τ : Type}

namespace TaskPool

variable {p q : TaskPool τ}

/-! ## Turns -/

theorem turn?_take_eq_some : p.turn? .take = some q ↔
    ∃ task rest, p.queue = task :: rest ∧ p.running.length < p.workers ∧
      q = { p with queue := rest, running := p.running ++ [task] } := by
  cases queue : p.queue with
  | nil => simp [turn?, queue]
  | cons task rest =>
    simp only [turn?, queue, Option.ite_none_right_eq_some, Option.some.injEq, List.cons.injEq]
    constructor
    · rintro ⟨room, rfl⟩
      exact ⟨task, rest, ⟨rfl, rfl⟩, room, rfl⟩
    · rintro ⟨_, _, ⟨rfl, rfl⟩, room, rfl⟩
      exact ⟨room, rfl⟩

theorem turn?_finish_eq_some {place : Nat} : p.turn? (.finish place) = some q ↔
    ∃ task, p.running[place]? = some task ∧
      q = { p with running := p.running.eraseIdx place, finished := p.finished ++ [task] } := by
  simp [turn?, eq_comm (a := q)]

theorem perm_eraseIdx {tasks : List τ} {place : Nat} {task : τ} (h : tasks[place]? = some task) :
    tasks.Perm (task :: tasks.eraseIdx place) := by
  obtain ⟨below, rfl⟩ := List.getElem?_eq_some_iff.1 h
  exact (List.getElem_cons_eraseIdx_perm below).symm

theorem idle_iff : p.idle = true ↔ p.queue = [] ∧ p.running = [] := by
  simp [idle]

theorem drain_finished_of_idle (h : p.idle = true) : p.drain.finished = p.finished := by
  simp [drain, idle_iff.1 h]

/-! ## Indexed maps -/

theorem lookup_answers {α : Type} (call : Nat → α) {order : List Nat} {index : Nat}
    (h : index ∈ order) : (order.map fun i => (i, call i)).lookup index = some (call index) := by
  induction order with
  | nil => cases h
  | cons i rest ih =>
    rw [List.map_cons, List.lookup_cons]
    by_cases equal : index = i
    · simp [equal]
    · rw [beq_false_of_ne equal]
      exact ih ((List.mem_cons.1 h).resolve_left equal)

/-- The order in which calls finish does not show in what they answer. -/
theorem collect_of_perm {ε α : Type} {count : Nat} {order : List Nat}
    (h : order ~ List.range count) (call : Nat → Except ε α) :
    collect count (order.map fun i => (i, call i)) = (List.range count).mapM call := by
  have answers : (List.range count).filterMap (fun i => (order.map fun j => (j, call j)).lookup i)
      = (List.range count).map call := by
    calc (List.range count).filterMap fun i => (order.map fun j => (j, call j)).lookup i
      _ = (List.range count).filterMap (some ∘ call) :=
        List.filterMap_congr fun i among => lookup_answers call (h.mem_iff.2 among)
      _ = (List.range count).map call := by rw [List.filterMap_eq_map]
  rw [collect, answers, List.mapM_map]
  rfl

end TaskPool

end SlideDeck
