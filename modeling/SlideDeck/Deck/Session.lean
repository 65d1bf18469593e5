import SlideDeck.Deck.Cache
import SlideDeck.Diagnostics.Emitter

/-! # Sessions

A session keeps a compiled deck while the viewport and the measurer change,
remembers renderings, and reports what happens.

* `load` replaces the deck; a source that does not compile leaves it alone.
* `resize` and `setMeasurer` change what slides are laid out for, and forget
  all renderings made before.
* `render` and `renderAll` answer from the cache where they can.

Every operation is a function from a session to a session, so that a run is a
composition of them. -/

namespace SlideDeck

open Bytes

/-- The state of a session; `nextSerial` is the serial number of the next layout. -/
structure Session where
  options : CompileOptions := {}
  deck : Option Deck := none
  measurer : Option Measurer := none
  cache : Cache := {}
  diagnostics : Emitter := {}
  nextSerial : Nat := 0

/-- Why a session does not answer with a rendering. -/
inductive SessionFault where
  | noDeck
  | noSlide (index : Nat)
  /-- An element has no properties. -/
  | missingStyle (missing : MissingStyle)
deriving DecidableEq

def SessionFault.message : SessionFault → Bytes
  | noDeck => ascii "DeckCompiler: no deck loaded"
  | noSlide index => ascii "slide index " ++ decimal index ++ ascii " out of range"
  | missingStyle missing => missing.message

/-! ## Reports -/

/-- The area that an error belongs to: style for a block that no element matches, source for all
others. -/
def errorArea (e : CompileError) : Bytes :=
  if e.kind = .unresolvedStyleTarget then ascii "style" else ascii "source"

/-- The warning about a style block that is ignored. -/
def ignoredReport (target : Bytes) : Report where
  severity := .warning
  area := ascii "style"
  stage := ascii "resolve"
  message := ascii "ignoring style block for unknown element " ++ apostrophed target

def resolvedReport (d : Deck) (v : Viewport) : Report where
  area := ascii "style"
  stage := ascii "resolve"
  message := ascii "resolved " ++ decimal d.slides.length ++ ascii " slide(s) against "
    ++ dimensions v.width v.height

def resizedReport (v : Viewport) : Report where
  area := ascii "style"
  stage := ascii "resize"
  message := ascii "re-resolved for " ++ dimensions v.width v.height

def noteReport (n : LayoutNote) : Report where
  severity := .warning
  area := ascii "layout"
  stage := ascii "text"
  message := ascii "node " ++ decimal n.node ++ ascii ": " ++ n.message

/-- The information that a whole deck was rendered, and how much of it was laid out for that. -/
def renderedReport (fresh total : Nat) : Report where
  area := ascii "layout"
  stage := ascii "render"
  message := ascii "laid out " ++ decimal fresh ++ ascii " of " ++ decimal total
    ++ ascii " slide(s)"

namespace Session

def start (o : CompileOptions) : Session :=
  { options := o }

def loaded (s : Session) : Bool :=
  s.deck.isSome

def currentDeck (s : Session) : Except SessionFault Deck :=
  match s.deck with
  | some d => .ok d
  | none => .error .noDeck

def report (s : Session) (f : Emitter → Emitter) : Session :=
  { s with diagnostics := f s.diagnostics }

/-! ## What slides are laid out for -/

/-- Report the ignored blocks of slides, of which the first is on the slide with a number. -/
def reportIgnored : Nat → List CompiledSlide → Emitter → Emitter
  | _, [], g => g
  | slide, c :: rest, g =>
      reportIgnored (slide + 1) rest (g.emitOn slide (c.style.ignoredTargets.map ignoredReport))

/-- Compile a source and, if that succeeds, make it the current deck. -/
def load (s : Session) (source : Bytes) : Outcome × Session :=
  match Deck.compile source s.options with
  | .error e => (.failed e, s.report (·.emitError (errorArea e) e))
  | .ok d =>
      let s := s.report fun g =>
        (reportIgnored 1 d.slides g).emit (resolvedReport d s.options.viewport)
      (.compiled d.slides.length none, { s with deck := some d, cache := s.cache.clear })

/-- Resolve the current deck for another viewport. -/
def resize (s : Session) (v : Viewport) : Session :=
  if v = s.options.viewport then s
  else
    -- The viewport changes even where there is no deck yet to resolve for it.
    let s := { s with options := { s.options with viewport := v }, cache := s.cache.clear }
    match s.deck with
    | none => s
    | some d => { s with deck := some (d.resized v) }.report (·.emit (resizedReport v))

/-- Install a measurer, or none. -/
def setMeasurer (s : Session) (m : Option Measurer) : Session :=
  { s with measurer := m, cache := s.cache.clear }

/-! ## Rendering -/

/-- The rendering of a slide, from the cache or laid out and kept there; with it, whether it was
laid out. -/
def obtain (s : Session) (index : Nat) (c : CompiledSlide) :
    Except SessionFault (Rendering × Bool) × Session :=
  let (found, cache) := s.cache.find index s.options.viewport
  let s := { s with cache }
  match found with
  | some r => (.ok (r, false), s)
  | none =>
      match c.render index s.measurer with
      | .error missing => (.error (.missingStyle missing), s)
      | .ok slide =>
          let r := ⟨s.nextSerial, slide⟩
          (.ok (r, true),
            { s with
              cache := s.cache.store s.options.viewport (some r)
              nextSerial := s.nextSerial + 1 })

/-- The renderings of slides, of which the first has the given index. -/
def obtainFrom (s : Session) : Nat → List CompiledSlide →
    Except SessionFault (List (Rendering × Bool)) × Session
  | _, [] => (.ok [], s)
  | index, c :: rest =>
      match s.obtain index c with
      | (.error fault, s) => (.error fault, s)
      | (.ok r, s) =>
          match s.obtainFrom (index + 1) rest with
          | (.error fault, s) => (.error fault, s)
          | (.ok more, s) => (.ok (r :: more), s)

/-- Report the notes of a rendering, if it was laid out just now. -/
def reportNotes (g : Emitter) (r : Rendering × Bool) : Emitter :=
  if r.2 then g.emitOn (r.1.slide.index + 1) (r.1.slide.notes.map noteReport) else g

def render (s : Session) (index : Nat) : Except SessionFault Rendering × Session :=
  match s.deck with
  | none => (.error .noDeck, s)
  | some d =>
      match d.slides[index]? with
      | none => (.error (.noSlide index), s)
      | some c =>
          match s.obtain index c with
          | (.error fault, s) => (.error fault, s)
          | (.ok r, s) => (.ok r.1, s.report (reportNotes · r))

def renderAll (s : Session) : Except SessionFault (List Rendering) × Session :=
  match s.deck with
  | none => (.error .noDeck, s)
  | some d =>
      match s.obtainFrom 0 d.slides with
      | (.error fault, s) => (.error fault, s)
      | (.ok results, s) =>
          let fresh := results.countP Prod.snd
          (.ok (results.map Prod.fst), s.report fun g =>
            (results.foldl reportNotes g).emit (renderedReport fresh results.length))

end Session

end SlideDeck
