import SlideDeck.Diagnostics.Emitter

/-! # Broadcasts

A broadcast is an emitter in use.  The program acts on it, and while a
notification is in progress the observer that sees the event acts on it.

* An `Action` is one thing done to the emitter, or a notification going on.
* `step?` says which actions can be taken, and `run?` takes some of them one
  after the other.

What an observer does when it sees an event may depend on all that it has seen
before, so here it is any sequence of actions, and not a function of the event.
An event that is reported meanwhile begins a notification of its own, inside the
one in progress. -/

namespace SlideDeck

/-- A recorded event on its way to the observers: the observer that sees it now, if one does yet,
and those that see it after that, by their numbers. -/
structure Notification where
  event : Event
  current : Option Nat := none
  waiting : List Nat
deriving DecidableEq

/-- An emitter in use: the notifications in progress, the innermost one first, and the open scopes,
the latest one first. -/
structure Broadcast where
  emitter : Emitter := {}
  notifications : List Notification := []
  scopes : List Emitter.Scope := []
deriving Inhabited

namespace Broadcast

/-- Something done to an emitter in use. -/
inductive Action where
  | emit (r : Report)
  | emitError (area : Bytes) (e : CompileError)
  | setMinSeverity (s : Severity)
  | observe (o : Observer)
  | openScope (slide : Nat)
  /-- Close the scope at a place among the open ones. -/
  | closeScope (place : Nat)
  | clear
  /-- The observer that sees the innermost event is done with it, if there is one, and the next
  observer sees it, if there is one. -/
  | notify

/-- The report that an action makes, if it makes one. -/
def Action.report? : Action → Option Report
  | emit r => some r
  | emitError area e => some (e.toReport area)
  | _ => none

/-- Somebody can act: the program while nothing is in progress, and otherwise the observer that sees
the innermost event. -/
def isOpen (b : Broadcast) : Bool :=
  b.notifications.head?.all fun n => n.current.isSome

/-- A report that is serious enough is recorded, and then the observers are to see it. -/
def report (b : Broadcast) (r : Report) : Broadcast :=
  if r.severity < b.emitter.minSeverity then b
  else
    let e := b.emitter.tagged r
    { b with
      emitter := b.emitter.record e
      notifications :=
        { event := e, waiting := List.range b.emitter.observers.length } :: b.notifications }

/-- The innermost notification goes on to its next observer, or is over if there is none. -/
def notify? (b : Broadcast) : Option Broadcast :=
  match b.notifications with
  | [] => none
  | n :: outer =>
      match n.waiting with
      | [] => some { b with notifications := outer }
      | observer :: rest =>
          some { b with
            emitter := b.emitter.see observer n.event
            notifications := { n with current := some observer, waiting := rest } :: outer }

/-- Whether an action can be taken.  None but a program with nothing in progress adds observers, as
they are not added while they are gone through. -/
def allows (b : Broadcast) : Action → Bool
  | .notify => true
  | .observe _ => b.notifications.isEmpty
  | _ => b.isOpen

/-- What an action does, where it can be taken. -/
def act? (b : Broadcast) : Action → Option Broadcast
  | .emit r => some (b.report r)
  | .emitError area e => some (b.report (e.toReport area))
  | .setMinSeverity s => some { b with emitter := { b.emitter with minSeverity := s } }
  | .observe o => some { b with emitter := b.emitter.observe o }
  | .openScope slide =>
      let (scope, emitter) := b.emitter.openScope slide
      some { b with emitter, scopes := scope :: b.scopes }
  | .closeScope place =>
      b.scopes[place]?.map fun scope =>
        { b with emitter := b.emitter.closeScope scope, scopes := b.scopes.eraseIdx place }
  | .clear => some { b with emitter := b.emitter.clear }
  | .notify => b.notify?

/-- The broadcast after an action, if the action can be taken. -/
def step? (b : Broadcast) (action : Action) : Option Broadcast :=
  if b.allows action then b.act? action else none

/-- The broadcast after some actions, if each of them can be taken. -/
def run? (b : Broadcast) (actions : List Action) : Option Broadcast :=
  actions.foldlM step? b

end Broadcast

end SlideDeck
