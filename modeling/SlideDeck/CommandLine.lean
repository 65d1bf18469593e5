import SlideDeck.Box.Print
import SlideDeck.Deck.Session
import SlideDeck.Slide.Print

/-! # The command line

What the program answers to its arguments, as a function of the files that it
can read: an exit code and the texts of both output streams.

* `Invocation.ofArguments` reads the command, the path and the options.
* `tokensText`, `inspectText` and `layoutText` are what the commands print.
* `CommandLine.run` decides between them and reports errors. -/

namespace SlideDeck

open Bytes

/-- How a run of the program ends. -/
structure Answer where
  exit : Nat
  stdout : Bytes := []
  stderr : Bytes := []
deriving DecidableEq, Inhabited

def versionText : Bytes :=
  ascii "lectern 0.1.0\n"

def usageText : Bytes :=
  ascii "usage: lectern <tokens|format|inspect|layout> <file> [--size=WIDTHxHEIGHT]"
    ++ ascii " [--threads=N] [--lenient] [--verbose]\n"

/-! ## Arguments -/

/-- The largest number that an option can give. -/
def optionLimit : Nat := 2147483647

/-- The integer that a text begins with, and the bytes behind it.  There is none where a text begins
with no digits, or where they come to more than an option can give. -/
def integer? (text : Bytes) : Option (Int × Bytes) :=
  let negative := text.head? = some 45
  let unsigned := if negative then text.drop 1 else text
  let digits := unsigned.takeWhile isDigit
  -- There is one negative number more than there are positive ones.
  if digits = [] ∨ (if negative then optionLimit + 1 else optionLimit) < value digits then none
  else some (if negative then -value digits else value digits, unsigned.dropWhile isDigit)

/-- The number that a text denotes, if it is an integer as a whole, and positive. -/
def positive? (text : Bytes) : Option Nat :=
  match integer? text with
  | some (n, []) => if 0 < n then some n.toNat else none
  | _ => none

/-- The size that a text gives: two positive numbers with an `x` between them, and no other. -/
def size? (text : Bytes) : Option Viewport :=
  match text.dropWhile (· != 120) with
  | _ :: height =>
      if 120 ∈ height then none
      else do
        return ⟨← positive? (text.takeWhile (· != 120)), ← positive? height⟩
  | [] => none

/-- The rest of a text after a beginning, if it begins so. -/
def afterBeginning? (beginning text : Bytes) : Option Bytes :=
  if beginning.isPrefixOf text then some (text.drop beginning.length) else none

/-- The size that a whole `--size` option gives. -/
def sizeOption? (argument : Bytes) : Option Viewport :=
  (afterBeginning? (ascii "--size=") argument).bind size?

/-- A viewport set to the size that an option gives, and whether it gives one.  Nothing is set before
the whole option is read. -/
def readSize (argument : Bytes) (v : Viewport) : Bool × Viewport :=
  match sizeOption? argument with
  | some size => (true, size)
  | none => (false, v)

/-- Why an argument is refused. -/
inductive ArgumentFault where
  | badSize (argument : Bytes)
  | badThreads (argument : Bytes)
  | unknown (argument : Bytes)
deriving DecidableEq

def ArgumentFault.text : ArgumentFault → Bytes
  | badSize argument => ascii "Invalid --size: " ++ apostrophed argument
      ++ ascii " (expected --size=WIDTHxHEIGHT with positive integers)\n"
  | badThreads argument => ascii "Invalid --threads: " ++ apostrophed argument ++ ascii "\n"
  | unknown argument => ascii "Unknown argument: " ++ apostrophed argument ++ ascii "\n" ++ usageText

/-- A command, the file it is for, and its options.  The number of threads says how the work is
shared out, and never shows in what is printed. -/
structure Invocation where
  command : Bytes
  path : Bytes
  options : CompileOptions := {}
  threads : Nat := 1
  verbose : Bool := false

namespace Invocation

def withOption (i : Invocation) (argument : Bytes) : Except ArgumentFault Invocation :=
  -- Whatever begins like the size option is taken for one, so a misspelt one is reported as such.
  if (ascii "--size").isPrefixOf argument then
    match readSize argument i.options.viewport with
    | (true, viewport) => .ok { i with options := { i.options with viewport } }
    | (false, _) => .error (.badSize argument)
  else match afterBeginning? (ascii "--threads=") argument with
    | some count =>
        match positive? count with
        | some threads => .ok { i with threads }
        | none => .error (.badThreads argument)
    | none =>
        if argument = ascii "--lenient" then
          .ok { i with options := { i.options with strict := false } }
        else if argument = ascii "--verbose" then .ok { i with verbose := true }
        else .error (.unknown argument)

/-- The invocation with some more options, in turn. -/
def withOptions (i : Invocation) (arguments : List Bytes) : Except ArgumentFault Invocation :=
  arguments.foldlM withOption i

end Invocation

/-! ## Printing -/

/-- A line for each token: its position, its class, and its text if that is not empty. -/
def tokensText (tokens : List Token) : Bytes :=
  tokens.flatMap fun t =>
    t.position.text ++ ascii "\t" ++ t.lexeme.className
      ++ (if t.lexeme.text = [] then [] else ascii "\t" ++ t.lexeme.text) ++ ascii "\n"

/-- A line for a compiled slide, and one for the properties of each of its elements. -/
def inspectSlideText (number : Nat) (c : CompiledSlide) : Bytes :=
  ascii "slide " ++ decimal number ++ ascii ": " ++ dimensions c.style.width c.style.height
    ++ ascii " bg=" ++ (c.style.background.elim (ascii "none") Colour.text)
    ++ ascii " nodes=" ++ decimal c.slide.nodeCount
    ++ ascii " style-blocks=" ++ decimal c.slide.styles.length ++ ascii "\n"
    ++ c.style.nodeStyles.zipIdx.flatMap fun (style, id) =>
      ascii "  node " ++ decimal id ++ ascii " " ++ style.text ++ ascii "\n"

/-- The number of slides of a deck, and what is resolved for each of them. -/
def inspectText (d : Deck) : Bytes :=
  decimal d.slides.length ++ ascii " slide(s)\n"
    ++ d.slides.zipIdx.flatMap fun (c, i) => inspectSlideText (i + 1) c

/-- A line for a rendered slide, and its boxes one level in. -/
def layoutSlideText (s : RenderedSlide) : Bytes :=
  ascii "slide " ++ decimal (s.index + 1) ++ ascii " " ++ dimensions s.width s.height
    ++ (s.background.elim [] fun c => ascii " bg=" ++ c.text) ++ ascii "\n" ++ s.root.tree 1

def layoutText (renderings : List Rendering) : Bytes :=
  renderings.flatMap fun r => layoutSlideText r.slide

/-- Everything that the observers of a session have seen, a line for each event. -/
def sightingsText (s : Session) : Bytes :=
  s.diagnostics.sightings.flatMap fun g => g.event.line ++ ascii "\n"

/-! ## Running -/

def failure (stderr : Bytes) : Answer :=
  { exit := 1, stderr }

def errorAnswer (path : Bytes) (e : CompileError) : Answer :=
  failure (path ++ ascii ":" ++ e.line ++ ascii "\n")

namespace Invocation

def tokens (i : Invocation) (source : Bytes) : Answer :=
  match tokenize true source with
  | .ok tokens => { exit := 0, stdout := tokensText tokens }
  | .error e => errorAnswer i.path e

def format (i : Invocation) (source : Bytes) : Answer :=
  match Document.ofSource source with
  | .ok d => { exit := 0, stdout := d.printed }
  | .error e => errorAnswer i.path e

/-- The session that the commands on decks work in; a verbose one has an observer. -/
def session (i : Invocation) : Session :=
  let s := Session.start i.options
  if i.verbose then s.report (·.observe {}) else s

/-- Compile a source and go on with the session if that succeeds. -/
def compiled (i : Invocation) (source : Bytes) (next : Session → Answer) : Answer :=
  match i.session.load source with
  | (.compiled .., s) => next s
  | (.failed e, s) =>
      failure (sightingsText s ++ i.path ++ ascii ":" ++ e.report ++ ascii "\n")

def inspect (s : Session) : Answer :=
  match s.currentDeck with
  | .ok d => { exit := 0, stdout := inspectText d, stderr := sightingsText s }
  | .error fault => failure fault.message

def layout (s : Session) : Answer :=
  match s.renderAll with
  | (.ok renderings, s) => { exit := 0, stdout := layoutText renderings, stderr := sightingsText s }
  | (.error fault, _) => failure fault.message

def answer (i : Invocation) (source : Bytes) : Answer :=
  if i.command = ascii "tokens" then i.tokens source
  else if i.command = ascii "format" then i.format source
  else if i.command = ascii "inspect" then i.compiled source inspect
  else if i.command = ascii "layout" then i.compiled source layout
  else failure (ascii "Unknown command: " ++ apostrophed i.command ++ ascii "\n" ++ usageText)

end Invocation

namespace CommandLine

/-- What the program answers to its arguments, where `file` gives the content of each readable
file. -/
def run (arguments : List Bytes) (file : Bytes → Option Bytes) : Answer :=
  match arguments with
  | command :: path :: rest =>
      match Invocation.withOptions { command, path } rest with
      | .error fault => failure fault.text
      | .ok i =>
          match file path with
          | some source => i.answer source
          | none => failure (ascii "Cannot read " ++ path ++ ascii "\n")
  | [argument] =>
      if argument = ascii "-h" ∨ argument = ascii "--help" then
        { exit := 0, stdout := usageText }
      else if argument = ascii "-V" ∨ argument = ascii "--version" then
        { exit := 0, stdout := versionText }
      else failure usageText
  | [] => failure usageText

end CommandLine

end SlideDeck
