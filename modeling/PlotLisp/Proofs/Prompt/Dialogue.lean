import PlotLisp.Proofs.Kernel.View
import PlotLisp.Proofs.Prompt.Conversation

/-!
# The prompt and the concurrent kernel

Here the prompt is a client of the machine. It makes one call at a time, waits where the
call does, and waits for an envelope after each program; in between, threads make their
steps whenever they like. Whatever turns are taken, a dialogue comes to an end or to a
wait.
-/

namespace PlotLisp

/-- The call that a command makes, unless it is the one to leave. -/
def Command.call? : Command → Option Call
  | start => some .start
  | stop => some .stop
  | reset => some .reset
  | exit => none

/-- No command of the prompt interrupts the kernel. -/
theorem Command.call?_ne_interrupt {command : Command} {call : Call}
    (asked : command.call? = some call) : call ≠ .interrupt := by
  rintro rfl
  cases command <;> cases asked

/-- What the prompt is about to do or waits for. -/
inductive Stage where
  | launching (definitions : Option String)
  | defining (definitions : String)
  | awaitingDefinitions
  | inviting
  | reading
  | obeying
  | awaiting
  | closing
  | closed
  deriving DecidableEq

/-- The machine, what its client does with it, the lines that are not read yet, and what
was written so far. -/
structure Dialogue where
  machine : Machine
  stage : Stage
  lines : List (Option String)
  written : Transcript

namespace Dialogue

/-- Before the prompt has done anything. -/
def initial (definitions : Option String) (lines : List (Option String)) : Dialogue :=
  ⟨.new, .launching definitions, lines, .empty⟩

/-- A step of the prompt, or one that the machine makes without it. -/
inductive Step (depth : Nat) (dialogue : Dialogue) : Dialogue → Prop where
  /-- A thread goes on, or the call to stop or to reset returns. -/
  | worked {event machine} (uncalled : event.calls = []) (unreceived : event.receptions = [])
      (next : Machine.Step depth dialogue.machine event machine) :
      Step depth dialogue { dialogue with machine }
  | launched {definitions machine} (stage : dialogue.stage = .launching definitions)
      (next : Machine.Step depth dialogue.machine (.called .start) machine) :
      Step depth dialogue
        { dialogue with
          machine
          stage :=
            match definitions with
            | none => .inviting
            | some text => .defining text }
  | defined {text machine} (stage : dialogue.stage = .defining text)
      (next : Machine.Step depth dialogue.machine (.called (.submit text)) machine) :
      Step depth dialogue { dialogue with machine, stage := .awaitingDefinitions }
  | informed {envelope machine} (stage : dialogue.stage = .awaitingDefinitions)
      (next : Machine.Step depth dialogue.machine (.received envelope) machine) :
      Step depth dialogue
        { dialogue with
          machine
          stage := .inviting
          written := dialogue.written ++
            if envelope.isError then Prompt.showEnvelope envelope else .empty }
  | invited (stage : dialogue.stage = .inviting) :
      Step depth dialogue
        { dialogue with stage := .reading, written := dialogue.written ++ Prompt.invitation }
  | passed {line lines} (stage : dialogue.stage = .reading)
      (read : dialogue.lines = some line :: lines) (wish : Wish.ofLine line = .nothing) :
      Step depth dialogue { dialogue with stage := .inviting, lines }
  | obeyed {line lines command call machine} (stage : dialogue.stage = .reading)
      (read : dialogue.lines = some line :: lines)
      (wish : Wish.ofLine line = .obedience command) (asked : command.call? = some call)
      (next : Machine.Step depth dialogue.machine (.called call) machine) :
      Step depth dialogue { dialogue with machine, stage := .obeying, lines }
  | resumed (stage : dialogue.stage = .obeying) (idle : dialogue.machine.client = .idle) :
      Step depth dialogue { dialogue with stage := .inviting }
  | submitted {line lines program machine} (stage : dialogue.stage = .reading)
      (read : dialogue.lines = some line :: lines) (wish : Wish.ofLine line = .answer program)
      (running : dialogue.machine.isRunning = true)
      (next : Machine.Step depth dialogue.machine (.called (.submit program)) machine) :
      Step depth dialogue { dialogue with machine, stage := .awaiting, lines }
  | refused {line lines program} (stage : dialogue.stage = .reading)
      (read : dialogue.lines = some line :: lines) (wish : Wish.ofLine line = .answer program)
      (stopped : dialogue.machine.isRunning = false) :
      Step depth dialogue
        { dialogue with
          stage := .inviting
          lines
          written := dialogue.written ++ .errorLine Prompt.notRunningMessage }
  | answered {envelope machine} (stage : dialogue.stage = .awaiting)
      (next : Machine.Step depth dialogue.machine (.received envelope) machine) :
      Step depth dialogue
        { dialogue with
          machine
          stage := .inviting
          written := dialogue.written ++ Prompt.showEnvelope envelope }
  | left {line lines command machine} (stage : dialogue.stage = .reading)
      (read : dialogue.lines = some line :: lines)
      (wish : Wish.ofLine line = .obedience command) (asked : command.call? = none)
      (next : Machine.Step depth dialogue.machine (.called .stop) machine) :
      Step depth dialogue { dialogue with machine, stage := .closing, lines }
  | ended {machine} (stage : dialogue.stage = .reading)
      (exhausted : ∀ line lines, dialogue.lines ≠ some line :: lines)
      (next : Machine.Step depth dialogue.machine (.called .stop) machine) :
      Step depth dialogue { dialogue with machine, stage := .closing }
  | closed (stage : dialogue.stage = .closing) (idle : dialogue.machine.client = .idle) :
      Step depth dialogue { dialogue with stage := .closed }

/-- What a dialogue can come to in a number of steps. -/
inductive Run (depth : Nat) (first : Dialogue) : Nat → Dialogue → Prop where
  | first : Run depth first 0 first
  | step {count dialogue after} (prior : Run depth first count dialogue)
      (next : Step depth dialogue after) : Run depth first (count + 1) after

variable {depth count : Nat} {first dialogue after : Dialogue}

/-! ## One thread at a time -/

/-- A step of the dialogue leaves the machine alone or is one of its steps, and never one
that interrupts. -/
theorem Step.machine (next : Step depth dialogue after) :
    after.machine = dialogue.machine ∨
      ∃ event, Machine.Step depth dialogue.machine event after.machine ∧
        event ≠ .called .interrupt := by
  cases next with
  | worked uncalled unreceived next =>
      refine .inr ⟨_, next, ?_⟩
      rintro rfl
      cases uncalled
  | obeyed stage read wish asked next =>
      exact .inr ⟨_, next, fun same => Command.call?_ne_interrupt asked (Event.called.inj same)⟩
  | launched stage next | defined stage next | informed stage next | answered stage next =>
      exact .inr ⟨_, next, by simp⟩
  | submitted stage read wish running next => exact .inr ⟨_, next, by simp⟩
  | left stage read wish asked next => exact .inr ⟨_, next, by simp⟩
  | ended stage exhausted next => exact .inr ⟨_, next, by simp⟩
  | invited | passed | resumed | refused | closed => exact .inl rfl

/-- Each step of a dialogue keeps at most one thread live. -/
theorem Step.exclusive (next : Step depth dialogue after)
    (exclusive : dialogue.machine.Exclusive) : after.machine.Exclusive := by
  rcases next.machine with same | ⟨event, step, undisturbed⟩
  · rw [same]
    exact exclusive
  · exact exclusive.step undisturbed step

/-! ## Effort -/

/-- More than the stage that follows, with the effort of the call that leads to it. -/
def stageEffort : Stage → Nat
  | .launching _ => 13
  | .defining _ => 12
  | .awaitingDefinitions | .awaiting | .obeying => 8
  | .inviting => 7
  | .reading => 6
  | .closing => 1
  | .closed => 0

/-- A bound on the steps that are left. -/
def effort (dialogue : Dialogue) : Nat :=
  -- A line and the stage of reading it pay for the stage that follows (8) and a call (4).
  7 * dialogue.lines.length + stageEffort dialogue.stage + dialogue.machine.view.effort

/-- Receiving costs no effort. -/
theorem effort_received {envelope : Envelope} {machine after : Machine}
    (next : Machine.Step depth machine (.received envelope) after) :
    after.view.effort = machine.view.effort := by
  obtain ⟨rest, -, same⟩ := Machine.view_received next
  rw [same]
  rfl

/-- Every step brings a dialogue closer to its end or to a wait. -/
theorem Step.effort_lt (next : Step depth dialogue after)
    (exclusive : dialogue.machine.Exclusive) : after.effort < dialogue.effort := by
  -- A worker's step lowers the effort of the view. A step of the client may raise that by a call,
  -- but then it lowers the effort of the stage and the lines by more.
  cases next with
  | worked uncalled unreceived next =>
      exact Nat.add_lt_add_left (Machine.view_step exclusive uncalled unreceived next).effort_lt _
  | @launched definitions machine stage next =>
      have started := Machine.view_called exclusive next (by simp)
      have least := dialogue.machine.view.effort_start_le
      simp only [effort, stage, started, View.call]
      cases definitions <;> simp only [stageEffort] <;> omega
  | @defined text machine stage next =>
      have submitted := Machine.view_called exclusive next (by simp)
      have least := dialogue.machine.view.effort_submit text
      simp only [effort, stage, stageEffort, submitted, View.call]
      omega
  | informed stage next | answered stage next =>
      simp only [effort, stage, stageEffort, effort_received next]
      omega
  | invited stage | resumed stage idle | closed stage idle =>
      simp only [effort, stage, stageEffort]
      omega
  | passed stage read wish | refused stage read wish stopped =>
      simp only [effort, stage, stageEffort, read, List.length_cons]
      omega
  | @obeyed line lines command call machine stage read wish asked next =>
      have called := Machine.view_called exclusive next (Command.call?_ne_interrupt asked)
      have least := dialogue.machine.view.effort_call_le call
      simp only [effort, stage, stageEffort, read, List.length_cons, called]
      omega
  | @submitted line lines program machine stage read wish running next =>
      have called := Machine.view_called exclusive next (by simp)
      have least := dialogue.machine.view.effort_call_le (.submit program)
      simp only [effort, stage, stageEffort, read, List.length_cons, called]
      omega
  | left stage read wish asked next =>
      have called := Machine.view_called exclusive next (by simp)
      have least := dialogue.machine.view.effort_call_le .stop
      simp only [effort, stage, stageEffort, read, List.length_cons, called]
      omega
  | ended stage exhausted next =>
      have called := Machine.view_called exclusive next (by simp)
      have least := dialogue.machine.view.effort_call_le .stop
      simp only [effort, stage, stageEffort, called]
      omega

/-- In every run of a dialogue at most one thread is live. -/
theorem Run.exclusive (run : Run depth first count dialogue)
    (exclusive : first.machine.Exclusive) : dialogue.machine.Exclusive := by
  induction run with
  | first => exact exclusive
  | step prior next inductionHypothesis => exact next.exclusive inductionHypothesis

/-- A dialogue makes no more steps than its effort. -/
theorem Run.count_le (run : Run depth first count dialogue)
    (exclusive : first.machine.Exclusive) : count + dialogue.effort ≤ first.effort := by
  induction run with
  | first => exact Nat.le_of_eq (Nat.zero_add _)
  | step prior next inductionHypothesis =>
      have less := next.effort_lt (prior.exclusive exclusive)
      omega

end Dialogue

end PlotLisp
