import PlotLisp.Kernel.Basic

/-!
# The prompt

The prompt reads lines and hands programs to a kernel, one at a time. It shows its
invitation before it reads each line, so also before the end of the input.
-/

namespace PlotLisp

/-- What a program has written to its two output channels. -/
structure Transcript where
  output : String
  errors : String
  deriving DecidableEq

namespace Transcript

/-- Nothing written. -/
def empty : Transcript :=
  ⟨"", ""⟩

/-- A line of output. -/
def outputLine (line : String) : Transcript :=
  ⟨line ++ "\n", ""⟩

/-- A line of errors. -/
def errorLine (line : String) : Transcript :=
  ⟨"", line ++ "\n"⟩

/-- What was written first, and then what was written after it. -/
protected def append (first second : Transcript) : Transcript :=
  ⟨first.output ++ second.output, first.errors ++ second.errors⟩

instance : Append Transcript :=
  ⟨Transcript.append⟩

end Transcript

namespace Prompt

/-- The invitation to enter a program. -/
def invitation : Transcript :=
  ⟨"\nplotscript> ", ""⟩

/-- Shown for a program that no worker can evaluate. -/
def notRunningMessage : String :=
  "Error: interpreter kernel not running"

/-- Shown for a program whose evaluation was interrupted. -/
def interruptedMessage : String :=
  "Error: interpreter kernel interrupted"

/-- The line that shows an envelope: a value as output, an error as an error. -/
def showEnvelope (envelope : Envelope) : Transcript :=
  if envelope.isError then .errorLine envelope.text else .outputLine envelope.text

/-- Hands a program to the kernel and waits for its envelope. There is no answer
when the evaluation exceeds the depth or the wait has no end. -/
def evaluate (depth : Nat) (kernel : Kernel) (program : String) :
    Option (Option Envelope × Kernel) := do
  match (← kernel.submit depth program).await false with
  | .received envelope kernel => return (some envelope, kernel)
  | .interrupted kernel => return (none, kernel)
  | .forever => none

/-- What a line leads to: the next line with what was written, or the end. -/
inductive Reply where
  | next (kernel : Kernel) (written : Transcript)
  | leave

/-- Obeys a command. -/
def obey (depth : Nat) (kernel : Kernel) : Command → Option Reply
  | .start => do return .next (← kernel.start depth) .empty
  | .stop => do return .next (← kernel.stop depth) .empty
  | .reset => do return .next (← kernel.reset depth) .empty
  | .exit => some .leave

/-- Responds to one line. Space around it does not matter, and an empty line is
passed over. -/
def respond (depth : Nat) (kernel : Kernel) (line : String) : Option Reply :=
  let line := Whitespace.trim line
  if line.isEmpty then some (.next kernel .empty)
  else
    match Command.ofText? line with
    | some command => obey depth kernel command
    | none =>
        if kernel.isRunning then do
          let (envelope, kernel) ← evaluate depth kernel line
          return .next kernel
            ((envelope.map showEnvelope).getD (.errorLine interruptedMessage))
        else some (.next kernel (.errorLine notRunningMessage))

/-- The kernel with which the prompt starts. The definitions that it is to know are
evaluated first, and only an error among them is shown. -/
def launch (depth : Nat) (definitions : Option String) : Option (Kernel × Transcript) := do
  let kernel ← Kernel.new.start depth
  match definitions with
  | none => return (kernel, .empty)
  | some program =>
      let (envelope, kernel) ← evaluate depth kernel program
      match envelope with
      | none => return (kernel, .errorLine interruptedMessage)
      | some envelope =>
          return (kernel, if envelope.isError then showEnvelope envelope else .empty)

/-- Responds to lines up to the end of the input, to a line that is no text, or to
the command to leave. -/
def converse (depth : Nat) (kernel : Kernel) : List (Option String) → Option Transcript
  | [] | none :: _ => some invitation
  | some line :: rest => do
      match ← respond depth kernel line with
      | .leave => return invitation
      | .next kernel written =>
          return invitation ++ written ++ (← converse depth kernel rest)

end Prompt

end PlotLisp
