import PlotLisp.Session
import PlotLisp.Whitespace

/-!
# Messages to and from a kernel

A message is a program text or one of the commands. Three of the commands are
sentinels: they end the worker that receives them. Every other message is answered
by one envelope.
-/

namespace PlotLisp

/-- A command to the front end or to a worker. -/
inductive Command where
  | start
  | stop
  | reset
  | exit
  deriving DecidableEq

namespace Command

/-- The text of a command. -/
def text : Command → String
  | start => "%start"
  | stop => "%stop"
  | reset => "%reset"
  | exit => "%exit"

/-- Every command. -/
def all : List Command :=
  [start, stop, reset, exit]

/-- The command that a text without surrounding space spells. -/
def ofText? (text : String) : Option Command :=
  all.find? fun command => command.text == text

/-- Whether the command ends a worker. -/
def endsWorker : Command → Bool
  | start => false
  | stop | reset | exit => true

end Command

/-- Whether a message ends the worker that receives it; space around it does not
matter. -/
def isSentinel (message : String) : Bool :=
  match Command.ofText? (Whitespace.trim message) with
  | some command => command.endsWorker
  | none => false

/-- The answer to a message: a value, or the text of an error. -/
inductive Envelope where
  | value (expression : Expression)
  | error (message : String)
  deriving DecidableEq

namespace Envelope

/-- Whether the envelope holds an error. -/
def isError : Envelope → Bool
  | value _ => false
  | error _ => true

/-- The text to show for the envelope. -/
def text : Envelope → String
  | value expression => expression.text
  | error message => message

/-- The outcome of an evaluation as an envelope. -/
def ofOutcome : Except Fault Expression → Envelope
  | .ok expression => value expression
  | .error fault => error fault.message

end Envelope

/-- The error shown for every text that cannot be read. -/
def unreadableMessage : String :=
  "Error: Invalid Expression. Could not parse."

/-- Evaluates a message in a session and puts the outcome into an envelope. -/
def Session.answer (depth : Nat) (session : Session) (message : String) :
    Option (Envelope × Session) :=
  match session.read message with
  | .error _ => some (.error unreadableMessage, session)
  | .ok session =>
      (session.evaluate depth).map fun (outcome, after) => (.ofOutcome outcome, after)

end PlotLisp
