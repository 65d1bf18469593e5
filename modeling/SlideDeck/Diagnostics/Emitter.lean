import SlideDeck.Diagnostics.Event

/-! # Emitters

An emitter records the reports made to it, unless they are less serious than
its minimum, and shows each recorded event to its observers in turn.

An observer may answer an event with reports of its own on the same emitter, and
these are recorded and shown to all observers before the next observer sees the
first event.  `emitWithin` recurses on the levels of answers to answers that are
still followed.

A scope keeps only the slide that was current when it was opened, and closing it
makes that one current again. -/

namespace SlideDeck

/-- An observer is the reports that it answers each event with; most answer nothing. -/
structure Observer where
  replies : Event → List Report := fun _ => []
deriving Inhabited

/-- The area of the reports that an echoing observer makes. -/
def echoArea : Bytes :=
  .ascii "echo"

/-- An observer that repeats every event that is no echo itself, as information, under the given
stage. -/
def Observer.echo (stage : Bytes) : Observer where
  replies e :=
    if e.area = echoArea then []
    else [{ area := echoArea, stage, message := e.message, position := e.position }]

/-- One event seen by one observer; observers are numbered in order of registration. -/
structure Sighting where
  observer : Nat
  event : Event
deriving DecidableEq

/-- How many events of each severity there are. -/
structure Tally where
  info : Nat := 0
  warning : Nat := 0
  error : Nat := 0
deriving DecidableEq, Inhabited

namespace Tally

def count (t : Tally) : Severity → Nat
  | .info => t.info
  | .warning => t.warning
  | .error => t.error

def add (t : Tally) : Severity → Tally
  | .info => { t with info := t.info + 1 }
  | .warning => { t with warning := t.warning + 1 }
  | .error => { t with error := t.error + 1 }

@[simp] theorem count_add (t : Tally) (s r : Severity) :
    (t.add s).count r = t.count r + if s = r then 1 else 0 := by
  cases s <;> cases r <;> rfl

end Tally

/-- The recorded events with their tally, the observers, the current slide, the least severity
that is recorded, and everything that observers have seen. -/
structure Emitter where
  events : List Event := []
  tally : Tally := {}
  observers : List Observer := []
  slide : Nat := 0
  minSeverity : Severity := .info
  sightings : List Sighting := []
deriving Inhabited

namespace Emitter

/-! ## Recording -/

/-- The event that a report is recorded as. -/
def tagged (g : Emitter) (r : Report) : Event :=
  { r with slide := g.slide }

def record (g : Emitter) (e : Event) : Emitter :=
  { g with events := g.events ++ [e], tally := g.tally.add e.severity }

/-- The emitter after an observer has seen an event. -/
def see (g : Emitter) (observer : Nat) (e : Event) : Emitter :=
  { g with sightings := g.sightings ++ [⟨observer, e⟩] }

/-- The emitter after a report, following the replies of observers through `levels` levels. -/
def emitWithin : Nat → Report → Emitter → Emitter
  | 0, _, g => g
  | levels + 1, r, g =>
      if r.severity < g.minSeverity then g
      else
        -- The event is recorded before anyone sees it, so replies to it come later in the record.
        let e := g.tagged r
        g.observers.zipIdx.foldl
          (fun g (observer, i) =>
            (observer.replies e).foldl (fun g reply => emitWithin levels reply g) (g.see i e))
          (g.record e)

/-- The levels of replies that are followed; replies to echoes end after two. -/
def replyLevels : Nat := 64

def emit (g : Emitter) (r : Report) : Emitter :=
  emitWithin replyLevels r g

def emitError (g : Emitter) (area : Bytes) (e : CompileError) : Emitter :=
  g.emit (e.toReport area)

def observe (g : Emitter) (o : Observer) : Emitter :=
  { g with observers := g.observers ++ [o] }

/-- The emitter without events; all else stays. -/
def clear (g : Emitter) : Emitter :=
  { g with events := [], tally := {} }

/-! ## Scopes -/

/-- What closing a scope makes current: the slide that was current when the scope was opened. -/
structure Scope where
  previous : Nat
deriving DecidableEq

/-- Make a slide current until the scope is closed. -/
def openScope (g : Emitter) (slide : Nat) : Scope × Emitter :=
  (⟨g.slide⟩, { g with slide })

/-- Close a scope. -/
def closeScope (g : Emitter) (s : Scope) : Emitter :=
  { g with slide := s.previous }

/-- The emitter after some reports on a slide, in a scope of its own. -/
def emitOn (g : Emitter) (slide : Nat) (reports : List Report) : Emitter :=
  let (scope, g) := g.openScope slide
  (reports.foldl emit g).closeScope scope

/-! ## Queries -/

def count (g : Emitter) (s : Severity) : Nat :=
  g.tally.count s

def hasErrors (g : Emitter) : Bool :=
  0 < g.count .error

def ofSeverity (g : Emitter) (s : Severity) : List Event :=
  g.events.filter fun e => e.severity = s

def ofArea (g : Emitter) (area : Bytes) : List Event :=
  g.events.filter fun e => e.area = area

def ofSlide (g : Emitter) (slide : Nat) : List Event :=
  g.events.filter fun e => e.slide = slide

end Emitter

end SlideDeck
