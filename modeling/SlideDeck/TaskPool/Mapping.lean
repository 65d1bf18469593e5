import SlideDeck.TaskPool.Shift

/-! # Indexed maps in progress

A client maps a call over the indices below a count, while workers run tasks and
other clients go on with theirs.

* A `Job` is a task of a pool that is used so: one call of the map, or a task of
  somebody else.
* `Mapping.advance?` is the next step of the client.  First it submits a call for
  each index, then it waits for one call after the other.
* `Mapping.run?` makes some steps of the client, of the workers and of all other
  clients, in any order.

The client asks for answers in the order of the indices, whatever the order is in
which calls finish, and it goes on asking after a failure, so that no call
outlives the map. -/

namespace SlideDeck

/-- A task of a pool that a map uses. -/
inductive Job (τ : Type) where
  /-- The call for an index. -/
  | call (index : Nat)
  /-- A task of somebody else. -/
  | other (task : τ)
deriving DecidableEq

/-- The index that a job is the call for. -/
def Job.index? {τ : Type} : Job τ → Option Nat
  | call index => some index
  | other _ => none

/-- How far the client of a map has come. -/
inductive Stage (α : Type) where
  /-- It is about to submit the call for an index. -/
  | submitting (next : Nat)
  /-- It waits for the call for an index, with the results before it and the first failure. -/
  | awaiting (next : Nat) (results : List α) (failure : Option PoolFault)
  | ended (answer : Except PoolFault (List α))

/-- A pool in use and the client of a map. -/
structure Mapping (τ α : Type) where
  shift : Shift (Job τ)
  stage : Stage α

/-- One step in a pool that a map uses. -/
inductive Act (τ : Type) where
  /-- The client of the map goes on. -/
  | advance
  /-- A worker or another client makes a move. -/
  | move (move : Move τ)
deriving DecidableEq

/-- The move with its task changed, if it submits one. -/
def Move.map {τ σ : Type} (change : τ → σ) : Move τ → Move σ
  | .submit task => .submit (change task)
  | .waited => .waited
  | .shutdown => .shutdown
  | .closed => .closed
  | .turn t => .turn t
  | .leave => .leave

namespace Mapping

variable {τ α : Type}

/-- A pool with a number of workers, and a client that has done nothing yet. -/
def start (workers : Nat) : Mapping τ α :=
  ⟨.start workers, .submitting 0⟩

/-- The results and the first failure when one call more has answered. -/
def noted (results : List α) (failure : Option PoolFault) :
    Except PoolFault α → List α × Option PoolFault
  | .ok value => (results ++ [value], failure)
  | .error fault => (results, failure.or (some fault))

/-- What the client answers when it has heard of all calls. -/
def told (results : List α) : Option PoolFault → Except PoolFault (List α)
  | some fault => .error fault
  | none => .ok results

/-- The next step of the client, if it does not have to wait. -/
def advance? (count : Nat) (call : Nat → Except PoolFault α) (m : Mapping τ α) :
    Option (Mapping τ α) :=
  match m.stage with
  | .submitting next =>
      if next < count then
        match m.shift.pool.submit (.call next) with
        | .ok _ => (m.shift.step? (.submit (.call next))).map (⟨·, .submitting (next + 1)⟩)
        | .error fault => some { m with stage := .ended (.error fault) }
      else some { m with stage := .awaiting 0 [] none }
  | .awaiting next results failure =>
      if next < count then
        if m.shift.pool.finished.any fun job => job.index? = some next then
          let (results, failure) := noted results failure (call next)
          some { m with stage := .awaiting (next + 1) results failure }
        else none
      else some { m with stage := .ended (told results failure) }
  | .ended _ => none

/-- The mapping after a step, if that step can be made. -/
def step? (count : Nat) (call : Nat → Except PoolFault α) (m : Mapping τ α) :
    Act τ → Option (Mapping τ α)
  | .advance => m.advance? count call
  | .move move => (m.shift.step? (move.map .other)).map fun shift => { m with shift }

/-- The mapping after some steps, if each of them can be made. -/
def run? (count : Nat) (call : Nat → Except PoolFault α) (m : Mapping τ α) (acts : List (Act τ)) :
    Option (Mapping τ α) :=
  acts.foldlM (step? count call) m

end Mapping

end SlideDeck
