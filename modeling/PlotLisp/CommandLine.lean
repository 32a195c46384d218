import PlotLisp.Prompt

/-!
# The command line

A program comes from an argument or from a file and is evaluated once, after an
optional file of definitions; without a program there is the prompt. Files that
cannot be read as text, unreadable programs, and faults are failures.
-/

namespace PlotLisp.CommandLine

/-- What the arguments ask for. -/
structure Request where
  file : Option String
  program : Option String
  definitions : Option String
  deriving DecidableEq

namespace Request

/-- Nothing but the prompt. -/
def empty : Request :=
  ⟨none, none, none⟩

/-- Sets the program, which may be given once. -/
def withProgram (request : Request) (program : String) : Option Request :=
  if request.program.isSome then none else some { request with program := some program }

/-- Sets the file of definitions, which may be given once. -/
def withDefinitions (request : Request) (file : String) : Option Request :=
  if request.definitions.isSome then none
  else some { request with definitions := some file }

/-- Sets the file of the program, which may be given once. -/
def withFile (request : Request) (file : String) : Option Request :=
  if request.file.isSome then none else some { request with file := some file }

/-- The request with every remaining argument taken as a file. -/
def withFiles (request : Request) : List String → Option Request
  | [] => some request
  | file :: rest => (request.withFile file).bind (·.withFiles rest)

/-- What follows a text at the head of an argument, if it stands there. -/
def after? (start argument : String) : Option String :=
  if start.toList.isPrefixOf argument.toList then
    some (String.ofList (argument.toList.drop start.length))
  else none

/-- An option's value that is attached to its name. -/
inductive Attached where
  | program (value : String)
  | definitions (value : String)

/-- The option that an argument gives together with its value. A short name may be
followed by its value directly or after an equals sign. -/
def attached? (argument : String) : Option Attached :=
  if let some value := after? "--eval=" argument then some (.program value)
  else if let some value := after? "--startup=" argument then some (.definitions value)
  else if let some value := after? "-e=" argument then some (.program value)
  else if let some value := after? "-e" argument then some (.program value)
  else none

/-- Reads the arguments from left to right; `none` when they are not understood. -/
def read (request : Request) : List String → Option Request
  | [] => some request
  | "--" :: files => request.withFiles files
  | "-e" :: program :: rest | "--eval" :: program :: rest =>
      (request.withProgram program).bind (·.read rest)
  | "--startup" :: file :: rest => (request.withDefinitions file).bind (·.read rest)
  | argument :: rest =>
      match attached? argument with
      | some (.program program) => (request.withProgram program).bind (·.read rest)
      | some (.definitions file) => (request.withDefinitions file).bind (·.read rest)
      | none =>
          if argument.startsWith "-" && argument != "-" then none
          else (request.withFile argument).bind (·.read rest)

/-- The request that the arguments spell. A program is given in one way only. -/
def ofArguments (arguments : List String) : Option Request := do
  let request ← empty.read arguments
  if request.program.isSome && request.file.isSome then none else some request

end Request

/-- How the program ended and what it wrote. -/
structure Ending where
  succeeded : Bool
  written : Transcript
  deriving DecidableEq

namespace Ending

/-- A failure with a line of errors. -/
def failure (line : String) : Ending :=
  ⟨false, .errorLine line⟩

/-- The exit code: zero only for success. -/
def code (ending : Ending) : Nat :=
  if ending.succeeded then 0 else 1

end Ending

/-- The bytes of the file with a given name, if it can be opened. -/
abbrev Files := String → Option ByteArray

/-- The text of a file. A file that is not text cannot be read. -/
def readFile (files : Files) (name : String) : Except Ending String :=
  match (files name).bind String.fromUTF8? with
  | some text => .ok text
  | none => .error (.failure ("Error: Could not open file " ++ name ++ " for reading."))

/-- The session after the definitions were evaluated in it. -/
def define (depth : Nat) (files : Files) (definitions : Option String) :
    Option (Except Ending Session) :=
  match definitions with
  | none => some (.ok .fresh)
  | some name =>
      match readFile files name with
      | .error ending => some (.error ending)
      | .ok text => do
          match ← Session.fresh.run depth text with
          | (.error error, _) => return .error (.failure error.message)
          | (.ok _, session) => return .ok session

/-- Evaluates one program in a session and shows its value. -/
def evaluateOnce (depth : Nat) (session : Session) (program : String) : Option Ending := do
  let (envelope, _) ← session.answer depth program
  return ⟨!envelope.isError, Prompt.showEnvelope envelope⟩

/-- Evaluates one program after the definitions. -/
def runProgram (depth : Nat) (files : Files) (definitions : Option String)
    (program : String) : Option Ending := do
  match ← define depth files definitions with
  | .error ending => return ending
  | .ok session => evaluateOnce depth session program

/-- The code of the byte that ends a line. -/
def lineFeed : UInt8 := 10

/-- Cuts bytes into lines, the bytes read so far of the first one being in reverse
order. What follows the last line end is a line unless it is empty. -/
def cutLines (pending : List UInt8) : List UInt8 → List (List UInt8)
  | [] => if pending.isEmpty then [] else [pending.reverse]
  | byte :: rest =>
      if byte = lineFeed then pending.reverse :: cutLines [] rest
      else cutLines (byte :: pending) rest

/-- The lines of some bytes; a line that is not text is `none`. -/
def lines (bytes : ByteArray) : List (Option String) :=
  (cutLines [] bytes.toList).map fun line => String.fromUTF8? ⟨line.toArray⟩

/-- Runs the prompt on the whole standard input. -/
def runPrompt (depth : Nat) (files : Files) (definitions : Option String)
    (input : ByteArray) : Option Ending :=
  match definitions.mapM (readFile files) with
  | .error ending => some ending
  | .ok definitions => do
      let (kernel, written) ← Prompt.launch depth definitions
      return ⟨true, written ++ (← Prompt.converse depth kernel (lines input))⟩

/-- Does what a request asks for. There is no ending when an evaluation exceeds the
depth or a wait has no end. -/
def run (depth : Nat) (request : Request) (files : Files) (input : ByteArray) :
    Option Ending :=
  match request.program, request.file with
  | some program, _ => runProgram depth files request.definitions program
  | none, some name =>
      match readFile files name with
      | .error ending => some ending
      | .ok program => runProgram depth files request.definitions program
  | none, none => runPrompt depth files request.definitions input

end PlotLisp.CommandLine
