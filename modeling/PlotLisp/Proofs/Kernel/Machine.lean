import PlotLisp.Proofs.Kernel.Sequential

/-!
# The kernel as a concurrent machine

A client and the threads of its workers take turns in any order. Queues and threads
are numbered. The client holds both ends of one inbound and one outbound queue; a
thread holds the receiving end of the inbound queue and the sending end of the outbound
queue that it was started with. When the client lets go of a queue, the threads that
are left with it can still drain what is in it, but what they send reaches nobody.
-/

namespace PlotLisp

/-- The item that leaves a mailbox was at its front. -/
theorem Mailbox.eq_of_pop? {α : Type} {mailbox rest : Mailbox α} {item : α}
    (oldest : mailbox.pop? = some (item, rest)) : mailbox = ⟨item :: rest.items⟩ := by
  obtain ⟨items⟩ := mailbox
  cases items with
  | nil => cases oldest
  | cons =>
      cases oldest
      rfl

/-- Queues by their numbers, and how many of them were made. -/
structure Queues (α : Type) where
  contents : Nat → Mailbox α
  made : Nat

namespace Queues

variable {α : Type}

/-- The queue with number zero, without any items. -/
def initial : Queues α :=
  ⟨fun _ => .empty, 1⟩

/-- Replaces what is in a queue. -/
def write (queues : Queues α) (number : Nat) (mailbox : Mailbox α) : Queues α :=
  { queues with
    contents := fun other => if other = number then mailbox else queues.contents other }

/-- One more queue, with these items; its number is the count of those before. -/
def make (queues : Queues α) (mailbox : Mailbox α) : Queues α :=
  { queues.write queues.made mailbox with made := queues.made + 1 }

/-- A queue that is written holds what was written. -/
@[simp] theorem contents_write_self (queues : Queues α) (number : Nat) (mailbox : Mailbox α) :
    (queues.write number mailbox).contents number = mailbox :=
  if_pos rfl

/-- A queue that is made holds what it was made with. -/
@[simp] theorem contents_make_self (queues : Queues α) (mailbox : Mailbox α) :
    (queues.make mailbox).contents queues.made = mailbox :=
  if_pos rfl

end Queues

/-- What the thread of a worker is doing. After its end it does nothing any more. -/
inductive Phase where
  | receiving (session : Session)
  | evaluating (session : Session) (message : String)
  | sending (message : String) (envelope : Envelope) (session : Session)
  | ended (session : Session)

/-- The thread of a worker with the numbers of its two queues. -/
structure Thread where
  input : Nat
  output : Nat
  phase : Phase

/-- Whether the client waits for a thread to end, and whether it starts a worker
afterwards. -/
inductive Client where
  | idle
  | joining (number : Nat) (restarts : Bool)
  deriving DecidableEq

/-- All queues and threads ever made, the numbers of the client's queues and of the
attached worker, and the client. -/
structure Machine where
  inputs : Queues String
  outputs : Queues Envelope
  threads : List Thread
  input : Nat
  output : Nat
  worker : Option Nat
  client : Client

namespace Machine

/-- Before the first call. -/
def new : Machine where
  inputs := .initial
  outputs := .initial
  threads := []
  input := 0
  output := 0
  worker := none
  client := .idle

/-- The messages that wait in the client's inbound queue. -/
def inbox (machine : Machine) : Mailbox String :=
  machine.inputs.contents machine.input

/-- The envelopes that wait in the client's outbound queue. -/
def outbox (machine : Machine) : Mailbox Envelope :=
  machine.outputs.contents machine.output

/-- Adds a message to the client's inbound queue. -/
def submit (machine : Machine) (message : String) : Machine :=
  { machine with inputs := machine.inputs.write machine.input (machine.inbox.push message) }

/-- Attaches a fresh thread, unless a worker is attached. The messages that wait move
to a new inbound queue, sentinels dropped. -/
def start (machine : Machine) : Machine :=
  match machine.worker with
  | some _ => machine
  | none =>
      { machine with
        inputs := (machine.inputs.write machine.input .empty).make
          (machine.inbox.filter fun message => !isSentinel message)
        threads := machine.threads ++ [⟨machine.inputs.made, machine.output, .receiving .fresh⟩]
        input := machine.inputs.made
        worker := some machine.threads.length }

/-- Detaches the worker, sends it a sentinel, and waits for its end before going on. -/
def halt (machine : Machine) (number : Nat) (restarts : Bool) : Machine :=
  { machine.submit Command.stop.text with worker := none, client := .joining number restarts }

/-- Lets go of the worker and of both queues and attaches a fresh thread. -/
def interrupt (machine : Machine) : Machine :=
  { machine with
    inputs := machine.inputs.make .empty
    outputs := machine.outputs.make .empty
    input := machine.inputs.made
    output := machine.outputs.made
    worker := none }.start

/-- What stopping or resetting does once there is no thread to wait for. -/
def resume (machine : Machine) (restarts : Bool) : Machine :=
  let machine := { machine with client := .idle }
  if restarts then machine.start else machine

/-- Stops or resets: with a worker attached the client has to wait. -/
def leave (machine : Machine) (restarts : Bool) : Machine :=
  match machine.worker with
  | none => machine.resume restarts
  | some number => machine.halt number restarts

/-- What a call does before it returns or has to wait. -/
def call (machine : Machine) : Call → Machine
  | .start => machine.start
  | .stop => machine.leave false
  | .reset => machine.leave true
  | .interrupt => machine.interrupt
  | .submit message => machine.submit message

/-- A thread goes on to another phase. -/
def advance (machine : Machine) (number : Nat) (thread : Thread) (phase : Phase) : Machine :=
  { machine with threads := machine.threads.set number { thread with phase } }

end Machine

/-- What can be told of a step. Steps of threads carry the number of the thread. -/
inductive Event where
  | called (call : Call)
  | returned
  | received (envelope : Envelope)
  | took (number : Nat) (message : String)
  | disconnected (number : Nat)
  | evaluated (number : Nat) (message : String)
  | sent (number : Nat) (message : String) (envelope : Envelope)
  | undelivered (number : Nat) (message : String) (envelope : Envelope)
  deriving DecidableEq

namespace Machine

/-- The steps of a machine whose evaluations are allowed a depth. A thread that
evaluates beyond it makes no further step. -/
inductive Step (depth : Nat) (machine : Machine) : Event → Machine → Prop where
  | called (idle : machine.client = .idle) (call : Call) :
      Step depth machine (.called call) (machine.call call)
  | returned {number restarts thread session}
      (joining : machine.client = .joining number restarts)
      (found : machine.threads[number]? = some thread)
      (atEnd : thread.phase = .ended session) :
      Step depth machine .returned (machine.resume restarts)
  | received {envelope rest} (idle : machine.client = .idle)
      (oldest : machine.outbox.pop? = some (envelope, rest)) :
      Step depth machine (.received envelope)
        { machine with outputs := machine.outputs.write machine.output rest }
  | took {number thread session message rest}
      (found : machine.threads[number]? = some thread)
      (receiving : thread.phase = .receiving session)
      (oldest : (machine.inputs.contents thread.input).pop? = some (message, rest)) :
      Step depth machine (.took number message)
        ({ machine with inputs := machine.inputs.write thread.input rest }.advance number thread
          (if isSentinel message then .ended session else .evaluating session message))
  | disconnected {number thread session}
      (found : machine.threads[number]? = some thread)
      (receiving : thread.phase = .receiving session)
      (drained : (machine.inputs.contents thread.input).isEmpty = true)
      (dropped : thread.input ≠ machine.input) :
      Step depth machine (.disconnected number)
        (machine.advance number thread (.ended session))
  | evaluated {number thread session message envelope after}
      (found : machine.threads[number]? = some thread)
      (evaluating : thread.phase = .evaluating session message)
      (answered : session.answer depth message = some (envelope, after)) :
      Step depth machine (.evaluated number message)
        (machine.advance number thread (.sending message envelope after))
  | sent {number thread message envelope session}
      (found : machine.threads[number]? = some thread)
      (sending : thread.phase = .sending message envelope session)
      (connected : thread.output = machine.output) :
      Step depth machine (.sent number message envelope)
        ({ machine with
          outputs := machine.outputs.write thread.output
            ((machine.outputs.contents thread.output).push envelope) }.advance number thread
          (.receiving session))
  | undelivered {number thread message envelope session}
      (found : machine.threads[number]? = some thread)
      (sending : thread.phase = .sending message envelope session)
      (dropped : thread.output ≠ machine.output) :
      Step depth machine (.undelivered number message envelope)
        (machine.advance number thread (.ended session))

/-- What has happened since the machine was new, the last event at the end. -/
inductive Run (depth : Nat) : List Event → Machine → Prop where
  | new : Run depth [] .new
  | step {history machine event after} (prior : Run depth history machine)
      (next : Step depth machine event after) : Run depth (history ++ [event]) after

end Machine

end PlotLisp
