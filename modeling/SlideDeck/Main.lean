import SlideDeck.CommandLine

/-! The program: it reads the file that its second argument names, and prints what
`CommandLine.run` answers. -/

open SlideDeck

/-- The content of a file, if it can be read. -/
def readContent? (path : String) : IO (Option Bytes) := do
  try
    return some (← IO.FS.readBinFile path).toList
  catch _ =>
    return none

def main (arguments : List String) : IO UInt32 := do
  let content ← match arguments with
    | _ :: path :: _ => readContent? path
    | _ => pure none
  let answer := CommandLine.run (arguments.map fun a => a.toUTF8.toList) fun _ => content
  (← IO.getStdout).write ⟨answer.stdout.toArray⟩
  (← IO.getStderr).write ⟨answer.stderr.toArray⟩
  return answer.exit.toUInt32
