import PlotLisp.CommandLine

/-!
# The program

Connects the command line to the files and channels of the process. What is read
and written is decided elsewhere.
-/

namespace PlotLisp.CommandLine

/-- How deep an evaluation may nest. -/
def depthLimit : Nat := 100000

/-- Shown when the arguments are not understood. -/
def usage : String :=
  "usage: plotlisp [FILE | -e PROGRAM] [--startup FILE]"

/-- Shown when an evaluation nests deeper than it may, or waits for nothing. -/
def noEnding : Ending :=
  .failure "Error: evaluation did not end"

/-- Writes to both channels of the process. -/
def write (written : Transcript) : IO Unit := do
  IO.print written.output
  (← IO.getStdout).flush
  IO.eprint written.errors

/-- The bytes of a file, if it can be opened. -/
def readBytes (name : String) : IO (Option ByteArray) := do
  try
    return some (← IO.FS.readBinFile name)
  catch _ =>
    return none

/-- The named files as they are now. -/
def openFiles (names : List String) : IO Files := do
  let contents ← names.mapM fun name => return (name, ← readBytes name)
  return fun name => (contents.find? fun (known, _) => known == name).bind Prod.snd

/-- The next line of standard input; `none` at its end and for a line that is no
text. -/
def readLine : IO (Option String) := do
  try
    let line ← (← IO.getStdin).getLine
    return if line.isEmpty then none else some line
  catch _ =>
    return none

/-- Converses with whoever writes the lines of standard input. -/
partial def converse (kernel : Kernel) : IO Ending := do
  write Prompt.invitation
  match ← readLine with
  | none => return ⟨true, .empty⟩
  | some line =>
      match Prompt.respond depthLimit kernel line with
      | none => return noEnding
      | some .leave => return ⟨true, .empty⟩
      | some (.next kernel written) =>
          write written
          converse kernel

/-- Runs the prompt, or the program that is asked for. -/
def perform (request : Request) : IO Ending := do
  let names := [request.file, request.definitions].filterMap id
  let files ← openFiles names
  if request.program.isNone && request.file.isNone then
    match request.definitions.mapM (readFile files) with
    | .error ending => return ending
    | .ok definitions =>
        match Prompt.launch depthLimit definitions with
        | none => return noEnding
        | some (kernel, written) =>
            write written
            converse kernel
  else return (run depthLimit request files .empty).getD noEnding

end PlotLisp.CommandLine

/-- The entry point: the exit code is zero for success. -/
def main (arguments : List String) : IO UInt32 := do
  match PlotLisp.CommandLine.Request.ofArguments arguments with
  | none =>
      IO.eprintln PlotLisp.CommandLine.usage
      return 2
  | some request =>
      let ending ← PlotLisp.CommandLine.perform request
      PlotLisp.CommandLine.write ending.written
      return UInt32.ofNat ending.code
