import SlideDeck.Text.Decimal

/-! # Task pools

A pool of workers that take tasks from one queue, first in, first out.

* `submit` accepts a task until the pool is shut down.
* A `Turn` is one step of a worker: it takes the task at the front of the
  queue, or finishes one that was taken.  Workers may take turns in any order.
* `drain` is what waiting and shutting down come to: every accepted task is
  finished, in the order in which a single worker would finish them.
* `mapIndexed` calls a function for each index below a count and waits for all
  calls.  Calls finish in any order; `collect` puts their answers into the
  order of the indices, and so the order in which they finished never shows. -/

namespace SlideDeck

/-- A pool of tasks: how many workers there are, whether tasks are accepted, and the tasks that
wait, that are being run, and that are finished, each in the order in which they became so. -/
structure TaskPool (τ : Type) where
  workers : Nat
  accepting : Bool := true
  queue : List τ := []
  running : List τ := []
  finished : List τ := []

/-- Why a pool does not answer with a result. -/
inductive PoolFault where
  | shutDown
  /-- A task failed. -/
  | failed (message : Bytes)
deriving DecidableEq

def PoolFault.message : PoolFault → Bytes
  | shutDown => .ascii "ThreadPool is shut down"
  | failed message => message.untilNul

/-- One step of a worker. -/
inductive Turn where
  /-- Take the task at the front of the queue. -/
  | take
  /-- Finish the task at a place among those that are being run. -/
  | finish (place : Nat)
deriving DecidableEq

namespace TaskPool

variable {τ : Type}

/-- A pool with a number of workers, of which there is at least one. -/
def start (workers : Nat) : TaskPool τ :=
  { workers := max 1 workers }

/-- The pool after a turn, if that turn can be taken. -/
def turn? (p : TaskPool τ) : Turn → Option (TaskPool τ)
  | .take =>
      match p.queue with
      | task :: rest =>
          if p.running.length < p.workers then
            some { p with queue := rest, running := p.running ++ [task] }
          else none
      | [] => none
  | .finish place =>
      p.running[place]?.map fun task =>
        { p with running := p.running.eraseIdx place, finished := p.finished ++ [task] }

def idle (p : TaskPool τ) : Bool :=
  p.queue.isEmpty && p.running.isEmpty

def submit (p : TaskPool τ) (task : τ) : Except PoolFault (TaskPool τ) :=
  if p.accepting then .ok { p with queue := p.queue ++ [task] } else .error .shutDown

def drain (p : TaskPool τ) : TaskPool τ :=
  { p with queue := [], running := [], finished := p.finished ++ p.running ++ p.queue }

/-- The pool when it takes no more tasks and all accepted ones are finished. -/
def shutdown (p : TaskPool τ) : TaskPool τ :=
  { p.drain with accepting := false }

def pending (p : TaskPool τ) : Nat :=
  p.queue.length

def submitAll (p : TaskPool τ) : List τ → Except PoolFault (TaskPool τ)
  | [] => .ok p
  | task :: rest => do (← p.submit task).submitAll rest

/-! ## Indexed maps -/

/-- What finished calls answer, each beside its index, in the order of the indices below `count`;
where calls failed, the failure of the lowest of their indices. -/
def collect {ε α : Type} (count : Nat) (answers : List (Nat × Except ε α)) :
    Except ε (List α) :=
  ((List.range count).filterMap fun i => answers.lookup i).mapM id

/-- Submit a task for each index below `count` and wait for all of them; what their calls answer,
and the pool afterwards. -/
def mapIndexed {α : Type} (p : TaskPool τ) (count : Nat) (task : Nat → τ)
    (call : Nat → Except PoolFault α) : Except PoolFault (List α) × TaskPool τ :=
  match p.submitAll ((List.range count).map task) with
  | .error fault => (.error fault, p)
  | .ok p => (collect count ((List.range count).map fun i => (i, call i)), p.drain)

end TaskPool

end SlideDeck
