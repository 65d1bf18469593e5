import SlideDeck.Deck.Session
import SlideDeck.TaskPool

/-! # Rendering side by side

A pool renders the slides of a deck by tasks, one for each slide.

* `Deck.renderBy` lays slides out in any order; only the answers are brought into
  that of the slides.
* `SlideTask` is the task of one slide of a session.  It searches the cache and,
  if that has nothing, lays the slide out and keeps the rendering.  These are two
  steps, and other tasks may make theirs between them.
* `Crew.run?` is an interleaving of the steps of all tasks, and `renderAllBy` is
  `renderAll` by such an interleaving.

Reports are no part of a task.  They are made when all tasks are done, in the
order of the slides. -/

namespace SlideDeck

/-- The slides of a deck, laid out in a given order of their indices. -/
def Deck.renderBy (d : Deck) (m : Option Measurer) (order : List Nat) :
    Except MissingStyle (List RenderedSlide) :=
  TaskPool.collect d.slides.length
    (order.map fun index => (index, d.slides[index]!.render index m))

/-! ## Tasks -/

/-- How far the task of a slide has come. -/
inductive SlideTask where
  | waiting
  /-- The cache had nothing. -/
  | missed
  /-- With the rendering, whether it was laid out. -/
  | done (answer : Except SessionFault (Rendering × Bool))

def SlideTask.answer? : SlideTask → Option (Except SessionFault (Rendering × Bool))
  | done answer => some answer
  | waiting | missed => none

/-- A session and the tasks of its slides, in the order of the slides. -/
structure Crew where
  session : Session
  tasks : List SlideTask

namespace Session

/-- The first step of a task. -/
def search (s : Session) (index : Nat) : SlideTask × Session :=
  let (found, cache) := s.cache.find index s.options.viewport
  let s := { s with cache }
  match found with
  | some r => (.done (.ok (r, false)), s)
  | none => (.missed, s)

/-- The second step of a task, where the first one found nothing. -/
def keep (s : Session) (index : Nat) (c : CompiledSlide) : SlideTask × Session :=
  match c.render index s.measurer with
  | .error missing => (.done (.error (.missingStyle missing)), s)
  | .ok slide =>
      let r := ⟨s.nextSerial, slide⟩
      (.done (.ok (r, true)),
        { s with
          cache := s.cache.store s.options.viewport (some r)
          nextSerial := s.nextSerial + 1 })

/-- Tasks of which none has begun. -/
def crew (s : Session) (slides : List CompiledSlide) : Crew :=
  ⟨s, slides.map fun _ => .waiting⟩

end Session

namespace Crew

/-- The next step of the task with an index, if it has one. -/
def step? (slides : List CompiledSlide) (w : Crew) (index : Nat) : Option Crew :=
  match w.tasks[index]?, slides[index]? with
  | some .waiting, some _ =>
      let (task, session) := w.session.search index
      some ⟨session, w.tasks.set index task⟩
  | some .missed, some c =>
      let (task, session) := w.session.keep index c
      some ⟨session, w.tasks.set index task⟩
  | _, _ => none

/-- An interleaving of steps, each given by the index of its task. -/
def run? (slides : List CompiledSlide) (w : Crew) (schedule : List Nat) : Option Crew :=
  schedule.foldlM (step? slides) w

end Crew

/-! ## Whole decks -/

namespace Session

/-- The renderings of slides by an interleaving that ends when all tasks are done; where tasks
failed, the failure of the first slide among theirs. -/
def obtainBy (s : Session) (slides : List CompiledSlide) (schedule : List Nat) :
    Option (Except SessionFault (List (Rendering × Bool)) × Session) := do
  let w ← (s.crew slides).run? slides schedule
  let answers ← w.tasks.mapM SlideTask.answer?
  return (answers.mapM id, w.session)

/-- Report what was laid out, slide by slide, and then how much of it there is. -/
def conclude : Except SessionFault (List (Rendering × Bool)) × Session →
    Except SessionFault (List Rendering) × Session
  | (.error fault, s) => (.error fault, s)
  | (.ok results, s) =>
      let fresh := results.countP Prod.snd
      (.ok (results.map Prod.fst), s.report fun g =>
        (results.foldl reportNotes g).emit (renderedReport fresh results.length))

def renderAllBy (s : Session) (schedule : List Nat) :
    Option (Except SessionFault (List Rendering) × Session) :=
  match s.deck with
  | none => some (.error .noDeck, s)
  | some d => (s.obtainBy d.slides schedule).map conclude

end Session

end SlideDeck
