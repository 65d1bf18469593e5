import SlideDeck.CompileError

/-! # Diagnostic events

An event is one thing that a stage of the work has to report, with the slide
and the place in the source that it concerns. -/

namespace SlideDeck

/-- How serious an event is. -/
inductive Severity where
  | info
  | warning
  | error
deriving DecidableEq, Inhabited

namespace Severity

def name : Severity → Bytes
  | info => .ascii "info"
  | warning => .ascii "warning"
  | error => .ascii "error"

/-- The rank of a severity, from the least serious upwards. -/
def rank : Severity → Nat
  | info => 0
  | warning => 1
  | error => 2

instance : LT Severity := ⟨fun a b => a.rank < b.rank⟩

instance (a b : Severity) : Decidable (a < b) :=
  inferInstanceAs (Decidable (a.rank < b.rank))

end Severity

/-- What is reported: an event before it is recorded. -/
structure Report where
  severity : Severity := .info
  area : Bytes
  stage : Bytes
  message : Bytes
  position : Option Position := none
deriving DecidableEq, Inhabited

/-- A recorded report, with the slide it concerns; slides count from one, and zero stands for the
whole deck. -/
structure Event extends Report where
  slide : Nat := 0
deriving DecidableEq, Inhabited

open Bytes

/-- An event in one line: `[warning] layout/text (slide 2) at 3:5: message`, without the parts
that it does not have. -/
def Event.line (e : Event) : Bytes :=
  ascii "[" ++ e.severity.name ++ ascii "]"
    ++ (if e.area = [] then [] else ascii " " ++ e.area)
    ++ (if e.stage = [] then [] else ascii "/" ++ e.stage)
    ++ (if e.slide = 0 then [] else ascii " (slide " ++ decimal e.slide ++ ascii ")")
    ++ (match e.position with
      | some p => ascii " at " ++ p.text
      | none => [])
    ++ ascii ": " ++ e.message

/-- The report of an error in a source; its stage is the kind of the error. -/
def CompileError.toReport (e : CompileError) (area : Bytes) : Report :=
  { severity := .error, area, stage := e.kind.name, message := e.message,
    position := some e.position }

end SlideDeck
