import PlotLisp.Kernel.Mailbox
import PlotLisp.Kernel.Message

/-!
# The kernel

A kernel is a worker with a mailbox of messages before it and a mailbox of
envelopes behind it. In this model the worker answers everything that waits as soon
as it arrives, which is all that a client without interrupts can tell. A worker
that a sentinel has ended stays attached until it is detached, and messages behind
the sentinel wait for the next worker.
-/

namespace PlotLisp

/-- A worker with its session; an ended one reads no more messages. -/
structure Worker where
  session : Session
  ended : Bool

/-- The two mailboxes and the worker that is attached, if any. -/
structure Kernel where
  inbox : Mailbox String
  outbox : Mailbox Envelope
  worker : Option Worker

namespace Kernel

/-- No messages and no worker. -/
def new : Kernel :=
  ⟨.empty, .empty, none⟩

/-- Whether a worker is attached and has not ended. -/
def isRunning (kernel : Kernel) : Bool :=
  match kernel.worker with
  | some worker => !worker.ended
  | none => false

/-- Answers messages in order up to the first sentinel: the session afterwards, the
envelopes, the messages behind the sentinel, and whether there was one. -/
def answerAll (depth : Nat) (session : Session) :
    List String → Option (Worker × List Envelope × List String)
  | [] => some (⟨session, false⟩, [], [])
  | message :: rest =>
      if isSentinel message then some (⟨session, true⟩, [], rest)
      else do
        let (envelope, session) ← session.answer depth message
        let (worker, envelopes, waiting) ← answerAll depth session rest
        return (worker, envelope :: envelopes, waiting)

/-- Lets the worker answer everything that waits. -/
def settle (depth : Nat) (kernel : Kernel) : Option Kernel :=
  match kernel.worker with
  | some ⟨session, false⟩ => do
      let (worker, envelopes, waiting) ← answerAll depth session kernel.inbox.items
      return ⟨⟨waiting⟩, ⟨kernel.outbox.items ++ envelopes⟩, some worker⟩
  | _ => some kernel

/-- Puts a message into the inbox. -/
def submit (depth : Nat) (kernel : Kernel) (message : String) : Option Kernel :=
  { kernel with inbox := kernel.inbox.push message }.settle depth

/-- Attaches a worker with a fresh session, unless one is attached. Programs that
wait are kept for it and sentinels are dropped, so a sentinel meant for an earlier
worker never ends this one. -/
def start (depth : Nat) (kernel : Kernel) : Option Kernel :=
  match kernel.worker with
  | some _ => some kernel
  | none =>
      { kernel with
        inbox := kernel.inbox.filter fun message => !isSentinel message
        worker := some ⟨.fresh, false⟩ }.settle depth

/-- Ends the worker after everything that waits before the end, and detaches it. -/
def stop (depth : Nat) (kernel : Kernel) : Option Kernel :=
  match kernel.worker with
  | none => some kernel
  | some _ => do
      let kernel ← kernel.submit depth Command.stop.text
      return { kernel with worker := none }

/-- Ends the worker and attaches a fresh one. -/
def reset (depth : Nat) (kernel : Kernel) : Option Kernel := do
  (← kernel.stop depth).start depth

/-- Abandons the worker together with both mailboxes and attaches a fresh one. -/
def interrupt (_ : Kernel) : Kernel :=
  { new with worker := some ⟨.fresh, false⟩ }

/-- The oldest envelope, if there is one. -/
def receive? (kernel : Kernel) : Option (Envelope × Kernel) :=
  kernel.outbox.pop?.map fun (envelope, outbox) => (envelope, { kernel with outbox })

/-- What waiting for an envelope leads to. -/
inductive Awaited where
  | received (envelope : Envelope) (kernel : Kernel)
  | interrupted (kernel : Kernel)
  | forever

/-- Waits for an envelope. A request to interrupt is only seen when there is none;
without a request the wait has no end then. -/
def await (kernel : Kernel) (requested : Bool) : Awaited :=
  match kernel.receive? with
  | some (envelope, kernel) => .received envelope kernel
  | none => if requested then .interrupted kernel.interrupt else .forever

end Kernel

end PlotLisp
