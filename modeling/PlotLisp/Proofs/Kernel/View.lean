import Mathlib.Tactic.Convert
import PlotLisp.Proofs.Kernel.Simulation

/-!
# What a client without interrupts deals with

Numbers of queues and of threads do not matter to a client that starts one thread after
the other. Its view of the machine is whether it waits for the end of a thread, what the
only live thread does, and what is in its own two queues. The steps of the view are those
of the machine, and each of them brings the thread closer to having nothing to do.
-/

namespace PlotLisp

/-- Whether the client waits for its thread to end, and whether it then starts another;
what the thread does; and what is in the two queues. -/
@[ext] structure View where
  waits : Option Bool
  phase : Option Phase
  inbox : List String
  outbox : List Envelope

namespace View

variable {depth : Nat}

/-- A fresh thread, unless there is one. -/
def start (view : View) : View :=
  match view.phase with
  | some _ => view
  | none =>
      { view with
        phase := some (.receiving .fresh)
        inbox := view.inbox.filter fun message => !isSentinel message }

/-- One more message. -/
def submit (view : View) (message : String) : View :=
  { view with inbox := view.inbox ++ [message] }

/-- What stopping or resetting does once there is no thread to wait for. -/
def resume (view : View) (restarts : Bool) : View :=
  if restarts then view.start else view

/-- Stops or resets: with a thread there is its end to wait for. -/
def leave (view : View) (restarts : Bool) : View :=
  match view.phase with
  | none => view.resume restarts
  | some _ => { view.submit Command.stop.text with waits := some restarts }

/-- What a call does before it returns or has to wait. -/
def call (view : View) : Call → View
  | .start => view.start
  | .stop => view.leave false
  | .reset => view.leave true
  | .interrupt => ⟨none, some (.receiving .fresh), [], []⟩
  | .submit message => view.submit message

/-- The thread has ended and the client goes on. -/
def release (view : View) (restarts : Bool) : View :=
  ({ view with waits := none, phase := none } : View).resume restarts

/-- What the thread does next, or the client that has waited for its end. -/
inductive Step (depth : Nat) (view : View) : View → Prop where
  | took {session message rest} (receiving : view.phase = some (.receiving session))
      (oldest : view.inbox = message :: rest) :
      Step depth view
        { view with
          phase := some (if isSentinel message then .ended session
            else .evaluating session message)
          inbox := rest }
  | evaluated {session message envelope after}
      (evaluating : view.phase = some (.evaluating session message))
      (answered : session.answer depth message = some (envelope, after)) :
      Step depth view { view with phase := some (.sending message envelope after) }
  | sent {message envelope session}
      (sending : view.phase = some (.sending message envelope session)) :
      Step depth view
        { view with phase := some (.receiving session), outbox := view.outbox ++ [envelope] }
  | returned {restarts session} (waits : view.waits = some restarts)
      (atEnd : view.phase = some (.ended session)) :
      Step depth view (view.release restarts)

variable {view after : View} {session : Session}

/-! What a step is, by the phase of the thread. -/

/-- A receiving thread takes the oldest message, and it either ends at a sentinel or has a
program in hand. -/
theorem Step.of_receiving (next : Step depth view after)
    (receiving : view.phase = some (.receiving session)) :
    ∃ message rest, view.inbox = message :: rest ∧
      after =
        { view with
          phase := some (if isSentinel message then .ended session
            else .evaluating session message)
          inbox := rest } := by
  cases next with
  | took other oldest =>
      rw [receiving] at other
      cases other
      exact ⟨_, _, oldest, rfl⟩
  | evaluated other | sent other | returned _ other =>
      rw [receiving] at other
      cases other

/-- An evaluating thread has an answer in hand next, if the session gives one at this depth. -/
theorem Step.of_evaluating {message : String} (next : Step depth view after)
    (evaluating : view.phase = some (.evaluating session message)) :
    ∃ envelope last, session.answer depth message = some (envelope, last) ∧
      after = { view with phase := some (.sending message envelope last) } := by
  cases next with
  | evaluated other answered =>
      rw [evaluating] at other
      cases other
      exact ⟨_, _, answered, rfl⟩
  | took other | sent other | returned _ other =>
      rw [evaluating] at other
      cases other

/-- A sending thread puts its envelope behind the others and receives again. -/
theorem Step.of_sending {message : String} {envelope : Envelope} (next : Step depth view after)
    (sending : view.phase = some (.sending message envelope session)) :
    after =
      { view with
        phase := some (.receiving session)
        outbox := view.outbox ++ [envelope] } := by
  cases next with
  | sent other =>
      rw [sending] at other
      cases other
      rfl
  | took other | evaluated other | returned _ other =>
      rw [sending] at other
      cases other

/-- An ended thread makes no step of its own: what follows is the client that has waited for it. -/
theorem Step.of_ended (next : Step depth view after)
    (atEnd : view.phase = some (.ended session)) :
    ∃ restarts, view.waits = some restarts ∧ after = view.release restarts := by
  cases next with
  | returned waits => exact ⟨_, waits, rfl⟩
  | took other | evaluated other | sent other =>
      rw [atEnd] at other
      cases other

/-- Without a thread nothing happens until the client calls. -/
theorem Step.phase_ne_none (next : Step depth view after) : view.phase ≠ none := by
  cases next with
  | took other | evaluated other | sent other | returned _ other => simp [other]

/-! ## Effort -/

/-- The steps that are left to a thread in this phase before it receives again. -/
def effortInHand : Option Phase → Nat
  | some (.evaluating _ _) => 2
  | some (.sending _ _ _) => 1
  | some (.receiving _) | some (.ended _) | none => 0

/-- A bound on the steps that can be made without the client. -/
def effort (view : View) : Nat :=
  view.waits.toList.length + 3 * view.inbox.length + effortInHand view.phase

/-- Starting a thread drops messages at most. -/
theorem effort_start_le (view : View) : view.start.effort ≤ view.effort := by
  have fewer := List.length_filter_le (fun message => !isSentinel message) view.inbox
  unfold start effort
  split
  · exact Nat.le_refl _
  · next none =>
      simp only [none, effortInHand]
      omega

/-- Resuming starts a thread or does nothing, so it takes no more effort than before. -/
theorem effort_resume_le (view : View) (restarts : Bool) :
    (view.resume restarts).effort ≤ view.effort := by
  cases restarts with
  | false => exact Nat.le_refl _
  | true => exact view.effort_start_le

/-- A message costs the thread three steps: taking, evaluating, and sending. -/
theorem effort_submit (view : View) (message : String) :
    (view.submit message).effort = view.effort + 3 := by
  simp only [effort, submit, List.length_append, List.length_singleton]
  omega

/-- Stopping and resetting cost the sentinel's steps and the client's return. -/
theorem effort_leave_le (view : View) (restarts : Bool) :
    (view.leave restarts).effort ≤ view.effort + 4 := by
  unfold leave
  split
  · exact Nat.le_trans (view.effort_resume_le restarts) (Nat.le_add_right _ _)
  · simp only [effort, submit, List.length_append, List.length_singleton, Option.toList_some]
    omega

/-- No call adds more than four steps, so an undisturbed machine comes to rest between calls. -/
theorem effort_call_le (view : View) (call : Call) :
    (view.call call).effort ≤ view.effort + 4 := by
  cases call with
  | start => exact Nat.le_trans view.effort_start_le (Nat.le_add_right _ _)
  | stop => exact view.effort_leave_le false
  | reset => exact view.effort_leave_le true
  | interrupt => simp [effort, View.call, effortInHand]
  | submit message =>
      have submitted := view.effort_submit message
      simp only [View.call]
      omega

/-- Nothing goes on for ever without the client. -/
theorem Step.effort_lt (next : Step depth view after) :
    after.effort < view.effort := by
  cases next with
  | @took session message rest receiving oldest =>
      have least : effortInHand (some (if isSentinel message then .ended session
          else .evaluating session message)) ≤ 2 := by
        split <;> simp [effortInHand]
      simp only [effort, receiving, oldest, List.length_cons]
      omega
  | evaluated evaluating => simp [effort, evaluating, effortInHand]
  | sent sending => simp [effort, sending, effortInHand]
  | @returned restarts session waits atEnd =>
      refine Nat.lt_of_le_of_lt (effort_resume_le _ restarts) ?_
      simp [effort, waits, atEnd, effortInHand]

end View

namespace Machine

variable {depth number : Nat} {machine after : Machine} {thread : Thread}

/-- What the client deals with. -/
def view (machine : Machine) : View where
  waits :=
    match machine.client with
    | .idle => none
    | .joining _ restarts => some restarts
  phase := machine.engagedPhase
  inbox := machine.inbox.items
  outbox := machine.outbox.items

/-- A client that is idle waits for no thread. -/
theorem waits_of_idle (idle : machine.client = .idle) : machine.view.waits = none := by
  simp only [view, idle]

/-- A client that waits for no thread is idle. -/
theorem idle_of_waits (waits : machine.view.waits = none) : machine.client = .idle := by
  cases client : machine.client with
  | idle => rfl
  | joining => simp [view, client] at waits

/-- A client that waits has detached a certain thread. -/
theorem joining_of_waits {restarts : Bool} (waits : machine.view.waits = some restarts) :
    ∃ number, machine.client = .joining number restarts := by
  cases client : machine.client with
  | idle => simp [view, client] at waits
  | joining number => exact ⟨number, by simpa [view, client] using waits⟩

namespace Exclusive

/-- The engaged thread is the one that is seen. -/
theorem exists_of_engagedPhase (exclusive : machine.Exclusive) {phase : Phase}
    (seen : machine.engagedPhase = some phase) :
    ∃ number thread, machine.engaged = some number ∧
      machine.threads[number]? = some thread ∧ thread.phase = phase := by
  cases engaged : machine.engaged with
  | none =>
      rw [engagedPhase_of_not_engaged engaged] at seen
      cases seen
  | some number =>
      obtain ⟨thread, found⟩ := exclusive.found number engaged
      rw [engagedPhase_of_engaged engaged found] at seen
      exact ⟨number, thread, rfl, found, Option.some.inj seen⟩

/-- A live thread that is seen works on the queues of the client. -/
theorem exists_live (exclusive : machine.Exclusive) {phase : Phase}
    (seen : machine.engagedPhase = some phase) (live : phase.isLive = true) :
    ∃ (number : Nat) (thread : Thread), machine.threads[number]? = some thread ∧
      thread.phase = phase ∧ thread.input = machine.input ∧ thread.output = machine.output := by
  obtain ⟨number, thread, -, found, rfl⟩ := exclusive.exists_of_engagedPhase seen
  exact ⟨number, thread, found, rfl, (exclusive.live number thread found live).2⟩

/-- The thread of the attached worker is seen by a client that does not wait. -/
theorem exists_attached (exclusive : machine.Exclusive) (idle : machine.client = .idle)
    (attached : machine.worker = some number) :
    ∃ thread, machine.threads[number]? = some thread ∧
      machine.view.phase = some thread.phase := by
  have engaged : machine.engaged = some number := by simp only [engaged, idle, attached]
  obtain ⟨thread, found⟩ := exclusive.found number engaged
  exact ⟨thread, found, engagedPhase_of_engaged engaged found⟩

end Exclusive

/-- Where no worker is attached to an idle client, no thread is seen. -/
theorem phase_of_detached (idle : machine.client = .idle) (detached : machine.worker = none) :
    machine.view.phase = none :=
  engagedPhase_of_not_engaged (by simp only [engaged, idle, detached])

/-! ## Calls -/

/-- Submitting is the same in the view: one more message in the inbox. -/
theorem view_submit (machine : Machine) (message : String) :
    (machine.submit message).view = machine.view.submit message := by
  have inbox : (machine.submit message).inbox = machine.inbox.push message :=
    Queues.contents_write_self _ _ _
  ext1
  case inbox => exact congrArg Mailbox.items inbox
  case waits | phase | outbox => rfl

/-- Starting is the same in the view, with a worker attached and without. -/
theorem view_start (exclusive : machine.Exclusive) (idle : machine.client = .idle) :
    machine.start.view = machine.view.start := by
  cases attached : machine.worker with
  | some number =>
      have unchanged : machine.start = machine := by simp only [start, attached]
      obtain ⟨thread, -, seen⟩ := exclusive.exists_attached idle attached
      rw [unchanged, View.start, seen]
  | none =>
      rw [View.start, phase_of_detached idle attached]
      ext1
      case waits => simp only [view, start, attached]
      case phase => exact engagedPhase_start idle attached
      case inbox => exact congrArg Mailbox.items (inbox_start attached)
      case outbox => simp only [view, outbox, start, attached]

/-- Going on after a thread's end is the same in the view. -/
theorem view_resume (exclusive : ({ machine with client := .idle } : Machine).Exclusive)
    (restarts : Bool) :
    (machine.resume restarts).view =
      ({ machine with client := .idle } : Machine).view.resume restarts := by
  cases restarts with
  | false => rfl
  | true => exact view_start exclusive rfl

/-- Stopping and resetting are the same in the view. -/
theorem view_leave (exclusive : machine.Exclusive) (idle : machine.client = .idle)
    (restarts : Bool) : (machine.leave restarts).view = machine.view.leave restarts := by
  have unchanged := machine.eq_of_idle idle
  cases attached : machine.worker with
  | none =>
      have left : machine.leave restarts = machine.resume restarts := by
        simp only [leave, attached]
      rw [left, view_resume (unchanged ▸ exclusive), unchanged, View.leave,
        phase_of_detached idle attached]
  | some number =>
      obtain ⟨thread, found, seen⟩ := exclusive.exists_attached idle attached
      have left : machine.leave restarts = machine.halt number restarts := by
        simp only [leave, attached]
      have submitted := machine.view_submit Command.stop.text
      rw [left, View.leave, seen, ← submitted]
      ext1
      case phase =>
        have halted : (machine.halt number restarts).engagedPhase = some thread.phase :=
          engagedPhase_of_engaged rfl found
        exact halted.trans seen.symm
      case waits | inbox | outbox => rfl

/-- Every call but an interrupt does to the view what it does to the machine. -/
theorem view_called {call : Call} (exclusive : machine.Exclusive)
    (next : Step depth machine (.called call) after) (undisturbed : call ≠ .interrupt) :
    after.view = machine.view.call call := by
  cases next with
  | called idle =>
      cases call with
      | start => exact view_start exclusive idle
      | stop => exact view_leave exclusive idle false
      | reset => exact view_leave exclusive idle true
      | interrupt => exact absurd rfl undisturbed
      | submit message => exact machine.view_submit message

/-- Whether a worker is attached whose thread has not ended. -/
def isRunning (machine : Machine) : Bool :=
  (machine.worker.bind fun number => machine.threads[number]?).any (·.phase.isLive)

/-- Whether the kernel is running shows in the phase that is seen. -/
theorem isRunning_eq (idle : machine.client = .idle) :
    machine.isRunning = machine.view.phase.any Phase.isLive := by
  simp only [isRunning, view, engagedPhase, engaged, idle]
  cases machine.worker with
  | none => rfl
  | some number => rw [Option.bind_some, Option.bind_some, Option.any_map]

/-! ## Steps -/

/-- Of the steps without the client, the view keeps what it takes to follow them. -/
theorem view_step {event : Event} (exclusive : machine.Exclusive)
    (uncalled : event.calls = []) (unreceived : event.receptions = [])
    (next : Step depth machine event after) : View.Step depth machine.view after.view := by
  -- A thread that still does something is the engaged one (`exclusive.live`), so its step is one of
  -- the view. Nothing that only abandoned threads do occurs here.
  cases next with
  | called => cases uncalled
  | received => cases unreceived
  | @took number thread session message rest found receiving oldest =>
      have live : thread.phase.isLive = true := receiving ▸ rfl
      obtain ⟨engaged, input, -⟩ := exclusive.live number thread found live
      have seen : machine.view.phase = some (.receiving session) :=
        receiving ▸ engagedPhase_of_engaged engaged found
      have waiting : machine.view.inbox = message :: rest.items := by
        rw [input] at oldest
        exact congrArg Mailbox.items (Mailbox.eq_of_pop? oldest)
      convert View.Step.took seen waiting using 1
      ext1
      case phase => exact exclusive.engagedPhase_advance found live _ _ _
      case inbox =>
        have written : (machine.inputs.write thread.input rest).contents machine.input = rest :=
          input ▸ Queues.contents_write_self _ _ _
        exact congrArg Mailbox.items written
      case waits | outbox => rfl
  | @evaluated number thread session message envelope following found evaluating answered =>
      have live : thread.phase.isLive = true := evaluating ▸ rfl
      obtain ⟨engaged, -⟩ := exclusive.live number thread found live
      have seen : machine.view.phase = some (.evaluating session message) :=
        evaluating ▸ engagedPhase_of_engaged engaged found
      convert View.Step.evaluated seen answered using 1
      ext1
      case phase =>
        exact exclusive.engagedPhase_advance found live _ machine.inputs machine.outputs
      case waits | inbox | outbox => rfl
  | @sent number thread message envelope session found sending connected =>
      have live : thread.phase.isLive = true := sending ▸ rfl
      obtain ⟨engaged, -⟩ := exclusive.live number thread found live
      have seen : machine.view.phase = some (.sending message envelope session) :=
        sending ▸ engagedPhase_of_engaged engaged found
      convert View.Step.sent seen using 1
      ext1
      case phase => exact exclusive.engagedPhase_advance found live _ _ _
      case outbox => simp [view, outbox, connected, advance, Mailbox.push]
      case waits | inbox => rfl
  | @returned number restarts thread session joining found atEnd =>
      have waits : machine.view.waits = some restarts := by simp only [view, joining]
      have engaged : machine.engaged = some number := by simp only [engaged, joining]
      have seen : machine.view.phase = some (.ended session) :=
        atEnd ▸ engagedPhase_of_engaged engaged found
      have nobody : ({ machine with client := .idle } : Machine).engaged = none :=
        exclusive.detached number restarts joining
      convert View.Step.returned waits seen using 1
      rw [view_resume (exclusive.release joining found atEnd) restarts]
      refine congrArg (View.resume · restarts) ?_
      ext1
      case phase => exact engagedPhase_of_not_engaged nobody
      case waits | inbox | outbox => rfl
  | disconnected found receiving drained dropped =>
      exact absurd (exclusive.live _ _ found (receiving ▸ rfl)).2.1 dropped
  | undelivered found sending dropped =>
      exact absurd (exclusive.live _ _ found (sending ▸ rfl)).2.2 dropped

/-- Where the view can make a step, the machine can. -/
theorem exists_step (exclusive : machine.Exclusive) {seen : View}
    (next : View.Step depth machine.view seen) :
    ∃ event after, event.calls = [] ∧ event.receptions = [] ∧
      Step depth machine event after := by
  cases next with
  | @took session message rest receiving oldest =>
      obtain ⟨number, thread, found, phase, input, -⟩ := exclusive.exists_live receiving rfl
      have items : machine.inbox.items = message :: rest := oldest
      have waiting : (machine.inputs.contents thread.input).pop? = some (message, ⟨rest⟩) := by
        rw [input, ← inbox, Mailbox.pop?, items]
      exact ⟨_, _, rfl, rfl, .took found phase waiting⟩
  | evaluated evaluating answered =>
      obtain ⟨number, thread, found, phase, -⟩ := exclusive.exists_live evaluating rfl
      exact ⟨_, _, rfl, rfl, .evaluated found phase answered⟩
  | sent sending =>
      obtain ⟨number, thread, found, phase, -, output⟩ := exclusive.exists_live sending rfl
      exact ⟨_, _, rfl, rfl, .sent found phase output⟩
  | @returned restarts session waits atEnd =>
      obtain ⟨number, joining⟩ := joining_of_waits waits
      obtain ⟨engaged, thread, same, found, phase⟩ := exclusive.exists_of_engagedPhase atEnd
      obtain rfl : number = engaged := by simpa [Machine.engaged, joining] using same
      exact ⟨_, _, rfl, rfl, .returned joining found phase⟩

/-- What is received was the oldest envelope. -/
theorem view_received {envelope : Envelope} (next : Step depth machine (.received envelope) after) :
    ∃ rest, machine.view.outbox = envelope :: rest ∧
      after.view = { machine.view with outbox := rest } := by
  cases next with
  | @received envelope rest idle oldest =>
      refine ⟨rest.items, congrArg Mailbox.items (Mailbox.eq_of_pop? oldest), ?_⟩
      ext1
      case outbox =>
        exact congrArg Mailbox.items
          (Queues.contents_write_self machine.outputs machine.output rest)
      case waits | phase | inbox => rfl

/-- An idle client can receive as soon as an envelope is there. -/
theorem exists_received (idle : machine.client = .idle) {envelope : Envelope}
    {rest : List Envelope} (oldest : machine.view.outbox = envelope :: rest) :
    ∃ after, Step depth machine (.received envelope) after := by
  have items : machine.outbox.items = envelope :: rest := oldest
  have waiting : machine.outbox.pop? = some (envelope, ⟨rest⟩) := by rw [Mailbox.pop?, items]
  exact ⟨_, .received idle waiting⟩

end Machine

end PlotLisp
