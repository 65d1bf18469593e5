import SlideDeck.TaskPool

/-! # Shifts of a task pool

A shift is a pool in use, with clients and workers that take their steps in any
order.

* A `Move` is one step of a client or of a worker.  A call that has to wait is
  no step of its own; that it comes back is one.
* `step?` says which moves can be made, and `run?` makes some of them one after
  the other.

Shutting down waits for the workers and not for the tasks: a worker leaves when
it finds the queue empty, and the first call to shut down comes back when every
worker has left. -/

namespace SlideDeck

/-- A pool in use: how many of its workers have left, the tasks that it has accepted, and those
that workers have taken, each in the order in which it happened. -/
structure Shift (τ : Type) where
  pool : TaskPool τ
  left : Nat := 0
  accepted : List τ := []
  taken : List τ := []

/-- One step of a client or of a worker. -/
inductive Move (τ : Type) where
  /-- A client submits a task, with or without a use for its result. -/
  | submit (task : τ)
  /-- A client that waits for all tasks goes on. -/
  | waited
  /-- A client calls for the pool to shut down. -/
  | shutdown
  /-- The first call to shut down comes back. -/
  | closed
  | turn (turn : Turn)
  /-- A worker leaves for good. -/
  | leave
deriving DecidableEq

namespace Shift

variable {τ : Type}

def start (workers : Nat) : Shift τ :=
  { pool := .start workers }

/-- Some worker is there and runs no task. -/
def hasFreeWorker (s : Shift τ) : Bool :=
  s.pool.running.length + s.left < s.pool.workers

/-- The shift after a move, if that move can be made. -/
def step? (s : Shift τ) : Move τ → Option (Shift τ)
  | .submit task =>
      match s.pool.submit task with
      | .ok pool => some { s with pool, accepted := s.accepted ++ [task] }
      | .error _ => some s
  | .waited => if s.pool.idle then some s else none
  -- A call that is not the first one comes back at once.
  | .shutdown =>
      if s.pool.accepting then some { s with pool := { s.pool with accepting := false } }
      else some s
  | .closed => if !s.pool.accepting && s.left = s.pool.workers then some s else none
  | .turn .take =>
      if s.hasFreeWorker then
        (s.pool.turn? .take).map fun pool =>
          { s with pool, taken := s.taken ++ s.pool.queue.take 1 }
      else none
  | .turn (.finish place) => (s.pool.turn? (.finish place)).map fun pool => { s with pool }
  | .leave =>
      if !s.pool.accepting && s.pool.queue.isEmpty && s.hasFreeWorker then
        some { s with left := s.left + 1 }
      else none

/-- The shift after some moves, if each of them can be made. -/
def run? (s : Shift τ) (moves : List (Move τ)) : Option (Shift τ) :=
  moves.foldlM step? s

end Shift

end SlideDeck
