import PlotLisp.Proofs.Kernel.Exclusion

/-!
# The machine simulates the sequential kernel

What the live thread has in hand can be put back, so the sequential kernel can complete
the machine at every moment. Steps of threads leave that completion as it is, and calls
do to it what they do to the sequential kernel.
-/

namespace PlotLisp

/-- The sequential kernel that has all that a thread in this phase has in hand. -/
def Phase.pending (inbox : Mailbox String) (sent : List Envelope) : Phase → Kernel
  | receiving session => ⟨inbox, ⟨sent⟩, some ⟨session, false⟩⟩
  | evaluating session message => ⟨⟨message :: inbox.items⟩, ⟨sent⟩, some ⟨session, false⟩⟩
  | sending _ envelope session => ⟨inbox, ⟨sent ++ [envelope]⟩, some ⟨session, false⟩⟩
  | ended session => ⟨inbox, ⟨sent⟩, some ⟨session, true⟩⟩

/-- A message that comes in waits behind all that is in hand. -/
theorem Phase.pending_push (inbox : Mailbox String) (sent : List Envelope) (phase : Phase)
    (message : String) :
    phase.pending (inbox.push message) sent = (phase.pending inbox sent).queue message := by
  cases phase <;> rfl

namespace Machine

variable {depth number : Nat} {machine after : Machine} {thread : Thread}
  {sent : List Envelope}

/-- What the engaged thread is doing. -/
def engagedPhase (machine : Machine) : Option Phase :=
  machine.engaged.bind fun number => machine.threads[number]?.map Thread.phase

/-- The phase that counts is that of the engaged thread. -/
theorem engagedPhase_of_engaged (engaged : machine.engaged = some number)
    (found : machine.threads[number]? = some thread) :
    machine.engagedPhase = some thread.phase := by
  simp only [engagedPhase, engaged, Option.bind_some, found, Option.map_some]

/-- Without an engaged thread there is no phase that counts. -/
theorem engagedPhase_of_not_engaged (nobody : machine.engaged = none) :
    machine.engagedPhase = none := by
  simp only [engagedPhase, nobody, Option.bind_none]

/-- The sequential kernel that has all that is in hand. -/
def pending (machine : Machine) (sent : List Envelope) : Kernel :=
  match machine.engagedPhase with
  | none => ⟨machine.inbox, ⟨sent⟩, none⟩
  | some phase => phase.pending machine.inbox sent

/-- The sequential kernel after the answers that are due and the call that waits. -/
def completed (depth : Nat) (machine : Machine) (sent : List Envelope) : Kernel :=
  let kernel := (machine.pending sent).proceed depth
  match machine.client with
  | .idle => kernel
  | .joining _ restarts => kernel.detach.resume depth restarts

/-! ## Steps of threads -/

/-- What the engaged thread has in hand decides which sequential kernel the machine stands for. -/
theorem pending_of_engaged (engaged : machine.engaged = some number)
    (found : machine.threads[number]? = some thread) (sent : List Envelope) :
    machine.pending sent = thread.phase.pending machine.inbox sent := by
  simp only [pending, engagedPhase_of_engaged engaged found]

/-- Without an engaged thread the machine stands for a kernel without a worker. -/
theorem pending_of_not_engaged (nobody : machine.engaged = none) (sent : List Envelope) :
    machine.pending sent = ⟨machine.inbox, ⟨sent⟩, none⟩ := by
  simp only [pending, engagedPhase_of_not_engaged nobody]

/-- A live thread is the engaged one, also after it has gone on. -/
theorem Exclusive.engagedPhase_advance (exclusive : machine.Exclusive)
    (found : machine.threads[number]? = some thread) (live : thread.phase.isLive = true)
    (phase : Phase) (inputs : Queues String) (outputs : Queues Envelope) :
    (({ machine with inputs, outputs } : Machine).advance number thread phase).engagedPhase =
      some phase := by
  have engaged := (exclusive.live number thread found live).1
  have advanced : (machine.threads.set number { thread with phase })[number]? =
      some { thread with phase } :=
    List.getElem?_set_self (List.getElem?_eq_some_iff.mp found).1
  exact @engagedPhase_of_engaged number
    (({ machine with inputs, outputs } : Machine).advance number thread phase)
    { thread with phase } engaged advanced

/-- A live thread decides what is pending, also after it has gone on. -/
theorem Exclusive.pending_advance (exclusive : machine.Exclusive)
    (found : machine.threads[number]? = some thread) (live : thread.phase.isLive = true)
    (phase : Phase) (inputs : Queues String) (outputs : Queues Envelope)
    (sent : List Envelope) :
    (({ machine with inputs, outputs } : Machine).advance number thread phase).pending sent =
      phase.pending (inputs.contents machine.input) sent := by
  simp only [pending, exclusive.engagedPhase_advance found live]
  rfl

/-- Steps that change neither the client nor what it can expect of the sequential kernel
keep the completion. -/
theorem completed_congr {sent' : List Envelope} (clients : after.client = machine.client)
    (same : (after.pending sent').proceed depth = (machine.pending sent).proceed depth) :
    after.completed depth sent' = machine.completed depth sent := by
  simp only [completed, clients, same]

/-- A thread that takes a message has it in hand, unless it is a sentinel. -/
theorem completed_took {session : Session} {message : String} {rest : Mailbox String}
    (exclusive : machine.Exclusive) (found : machine.threads[number]? = some thread)
    (receiving : thread.phase = .receiving session)
    (oldest : (machine.inputs.contents thread.input).pop? = some (message, rest)) :
    (({ machine with inputs := machine.inputs.write thread.input rest } : Machine).advance number
      thread (if isSentinel message then .ended session else .evaluating session message)).completed
        depth sent = machine.completed depth sent := by
  have live : thread.phase.isLive = true := receiving ▸ rfl
  obtain ⟨engaged, input, -⟩ := exclusive.live number thread found live
  have waiting : machine.inbox = ⟨message :: rest.items⟩ := by
    rw [input] at oldest
    exact Mailbox.eq_of_pop? oldest
  refine completed_congr rfl ?_
  rw [exclusive.pending_advance found live, pending_of_engaged engaged found, receiving, waiting,
    input, Queues.contents_write_self]
  cases sentinel : isSentinel message with
  | true => exact (Kernel.proceed_of_sentinel sentinel).symm
  | false => rfl

/-- A thread that has evaluated a message is about to send the answer to it. -/
theorem completed_evaluated {session next : Session} {message : String} {envelope : Envelope}
    (exclusive : machine.Exclusive) (found : machine.threads[number]? = some thread)
    (evaluating : thread.phase = .evaluating session message)
    (ordinary : isSentinel message = false)
    (answered : session.answer depth message = some (envelope, next)) :
    (machine.advance number thread (.sending message envelope next)).completed depth sent =
      machine.completed depth sent := by
  have live : thread.phase.isLive = true := evaluating ▸ rfl
  obtain ⟨engaged, -⟩ := exclusive.live number thread found live
  refine completed_congr rfl ?_
  have advanced := exclusive.pending_advance found live (.sending message envelope next)
    machine.inputs machine.outputs sent
  rw [pending_of_engaged engaged found, evaluating]
  refine (congrArg (Kernel.proceed depth) advanced).trans ?_
  exact (Kernel.proceed_of_answer ordinary answered).symm

/-- A thread that has sent an envelope is done with the message. -/
theorem completed_sent {session : Session} {message : String} {envelope : Envelope}
    (exclusive : machine.Exclusive) (found : machine.threads[number]? = some thread)
    (sending : thread.phase = .sending message envelope session) (outputs : Queues Envelope) :
    (({ machine with outputs } : Machine).advance number thread (.receiving session)).completed
      depth (sent ++ [envelope]) = machine.completed depth sent := by
  have live : thread.phase.isLive = true := sending ▸ rfl
  obtain ⟨engaged, -⟩ := exclusive.live number thread found live
  refine completed_congr rfl ?_
  rw [exclusive.pending_advance found live, pending_of_engaged engaged found, sending]
  rfl

/-! ## Calls -/

/-- A message that comes in is one more for the sequential kernel. -/
theorem pending_submit (machine : Machine) (message : String) (sent : List Envelope) :
    (machine.submit message).pending sent = (machine.pending sent).queue message := by
  have inbox : (machine.submit message).inbox = machine.inbox.push message :=
    Queues.contents_write_self _ _ _
  have phase : (machine.submit message).engagedPhase = machine.engagedPhase := rfl
  unfold pending
  rw [phase, inbox]
  cases machine.engagedPhase with
  | none => rfl
  | some phase => exact phase.pending_push _ _ _

/-- An engaged thread is a worker of the sequential kernel. -/
theorem Exclusive.worker_pending (exclusive : machine.Exclusive)
    (engaged : machine.engaged = some number) (sent : List Envelope) :
    (machine.pending sent).worker ≠ none := by
  obtain ⟨thread, found⟩ := exclusive.found number engaged
  rw [pending_of_engaged engaged found]
  cases thread.phase <;> simp [Phase.pending]

/-- For an idle client only the answers are due. -/
theorem completed_of_idle (idle : machine.client = .idle) (sent : List Envelope) :
    machine.completed depth sent = (machine.pending sent).proceed depth := by
  simp only [completed, idle]

/-- Submitting queues the message in the completion, and the worker answers it there at once. -/
theorem completed_submit (idle : machine.client = .idle) (message : String) :
    (machine.submit message).completed depth sent =
      ((machine.completed depth sent).queue message).proceed depth := by
  have stillIdle : (machine.submit message).client = .idle := idle
  rw [completed_of_idle stillIdle, completed_of_idle idle, pending_submit,
    Kernel.proceed_queue_proceed]

/-- A fresh thread finds the messages that wait without their sentinels. -/
theorem inbox_start (detached : machine.worker = none) :
    machine.start.inbox = machine.inbox.filter fun message => !isSentinel message := by
  simp only [start, detached]
  exact Queues.contents_make_self (machine.inputs.write machine.input .empty) _

/-- A fresh thread is ready to receive in a fresh session. -/
theorem engagedPhase_start (idle : machine.client = .idle) (detached : machine.worker = none) :
    machine.start.engagedPhase = some (.receiving .fresh) := by
  have engaged : machine.start.engaged = some machine.threads.length := by
    simp only [engaged, start, detached, idle]
  have found : machine.start.threads[machine.threads.length]? =
      some ⟨machine.inputs.made, machine.output, .receiving .fresh⟩ := by
    simp only [start, detached, List.getElem?_concat_length]
  exact engagedPhase_of_engaged engaged found

/-- A fresh thread stands for a kernel that has just recruited its worker. -/
theorem pending_start (idle : machine.client = .idle) (detached : machine.worker = none) :
    machine.start.pending sent = Kernel.recruit ⟨machine.inbox, ⟨sent⟩, none⟩ := by
  simp only [pending, engagedPhase_start idle detached, inbox_start detached]
  rfl

/-- Starting a worker does what attaching one does. -/
theorem completed_start (exclusive : machine.Exclusive) (idle : machine.client = .idle) :
    machine.start.completed depth sent = (machine.completed depth sent).attach depth := by
  cases attached : machine.worker with
  | some number =>
      have unchanged : machine.start = machine := by simp only [start, attached]
      have engaged : machine.engaged = some number := by simp only [engaged, idle, attached]
      rw [unchanged, completed_of_idle idle]
      exact (Kernel.attach_of_worker (Kernel.worker_proceed_ne_none
        (exclusive.worker_pending engaged sent))).symm
  | none =>
      have nobody : machine.engaged = none := by simp only [engaged, idle, attached]
      have started : machine.start.client = .idle := by simp only [start, attached, idle]
      rw [completed_of_idle started, completed_of_idle idle, pending_of_not_engaged nobody,
        pending_start idle attached]
      rfl

/-- What the client does before it waits leaves only the end of the thread to come. -/
theorem pending_halt (idle : machine.client = .idle) (attached : machine.worker = some number)
    (restarts : Bool) :
    (machine.halt number restarts).pending sent =
      (machine.pending sent).queue Command.stop.text := by
  rw [← pending_submit]
  have engaged : (machine.submit Command.stop.text).engaged = some number := by
    simp only [engaged, submit, idle, attached]
  have phase : (machine.halt number restarts).engagedPhase =
      (machine.submit Command.stop.text).engagedPhase := by
    unfold engagedPhase
    rw [engaged]
    rfl
  unfold pending
  rw [phase]
  rfl

/-- Without a worker there is nothing to halt. -/
theorem halt_completed (idle : machine.client = .idle) (detached : machine.worker = none) :
    (machine.completed depth sent).halt depth = machine.completed depth sent := by
  have nobody : machine.engaged = none := by simp only [engaged, idle, detached]
  rw [completed_of_idle idle, pending_of_not_engaged nobody]
  rfl

/-- Going on after a thread's end does the same to the completion. -/
theorem completed_resume (restarts : Bool)
    (exclusive : ({ machine with client := .idle } : Machine).Exclusive) :
    (machine.resume restarts).completed depth sent =
      (({ machine with client := .idle } : Machine).completed depth sent).resume depth
        restarts := by
  cases restarts with
  | false => rfl
  | true => exact completed_start exclusive rfl

/-- The worker counts as halted at once, also while the client waits for its end. -/
theorem completed_leave (exclusive : machine.Exclusive) (idle : machine.client = .idle)
    (restarts : Bool) :
    (machine.leave restarts).completed depth sent =
      ((machine.completed depth sent).halt depth).resume depth restarts := by
  cases attached : machine.worker with
  | none =>
      have unchanged := machine.eq_of_idle idle
      have left : machine.leave restarts = machine.resume restarts := by
        simp only [leave, attached]
      rw [halt_completed idle attached, left, completed_resume restarts (unchanged ▸ exclusive),
        unchanged]
  | some number =>
      have engaged : machine.engaged = some number := by simp only [engaged, idle, attached]
      have left : machine.leave restarts = machine.halt number restarts := by
        simp only [leave, attached]
      rw [completed_of_idle idle, Kernel.halt_proceed (exclusive.worker_pending engaged sent),
        left, ← pending_halt idle attached restarts]
      rfl

/-- A call has its effect on the completion at once. -/
theorem completed_call {call : Call} (exclusive : machine.Exclusive)
    (idle : machine.client = .idle) (undisturbed : call ≠ .interrupt) :
    (machine.call call).completed depth sent =
      (machine.completed depth sent).perform depth call := by
  cases call with
  | start => exact completed_start exclusive idle
  | stop => exact completed_leave exclusive idle false
  | reset => exact completed_leave exclusive idle true
  | interrupt => exact absurd rfl undisturbed
  | submit message => exact completed_submit idle message

/-- A client that goes on finds what its call was to have led to. -/
theorem completed_returned {restarts : Bool} {session : Session} (exclusive : machine.Exclusive)
    (joining : machine.client = .joining number restarts)
    (found : machine.threads[number]? = some thread) (atEnd : thread.phase = .ended session) :
    (machine.resume restarts).completed depth sent = machine.completed depth sent := by
  have engaged : machine.engaged = some number := by simp only [engaged, joining]
  have nobody : ({ machine with client := .idle } : Machine).engaged = none :=
    exclusive.detached number restarts joining
  rw [completed_resume restarts (exclusive.release joining found atEnd), completed_of_idle rfl,
    pending_of_not_engaged nobody]
  simp only [completed, joining, pending_of_engaged engaged found, atEnd]
  rfl

/-! ## Runs -/

end Machine

namespace Event

/-- The calls made in a step. -/
def calls : Event → List Call
  | called call => [call]
  | _ => []

/-- The messages submitted in a step. -/
def submissions : Event → List String
  | called (.submit message) => [message]
  | _ => []

/-- The messages whose answer is sent in a step. -/
def answers : Event → List String
  | sent _ message _ => [message]
  | _ => []

/-- The envelopes sent in a step. -/
def deliveries : Event → List Envelope
  | sent _ _ envelope => [envelope]
  | _ => []

/-- The envelopes received in a step. -/
def receptions : Event → List Envelope
  | received envelope => [envelope]
  | _ => []

end Event

namespace Machine

/-- A step of a thread keeps the completion, and a call does to it what it does to the
sequential kernel. -/
theorem completed_step {event : Event} (exclusive : machine.Exclusive)
    (programs : machine.HandlesPrograms) (undisturbed : event ≠ .called .interrupt)
    (next : Step depth machine event after) :
    after.completed depth (sent ++ event.deliveries) =
      event.calls.foldl (Kernel.perform depth) (machine.completed depth sent) := by
  -- A step of a thread is one that completing the work would have taken anyway, so only the calls
  -- of the client change what it comes to.
  cases next with
  | called idle call =>
      simp only [Event.deliveries, List.append_nil]
      exact completed_call exclusive idle fun same => undisturbed (same ▸ rfl)
  | returned joining found atEnd =>
      simp only [Event.deliveries, List.append_nil]
      exact completed_returned exclusive joining found atEnd
  | received =>
      simp only [Event.deliveries, List.append_nil]
      rfl
  | took found receiving oldest =>
      simp only [Event.deliveries, List.append_nil]
      exact completed_took exclusive found receiving oldest
  | evaluated found evaluating answered =>
      simp only [Event.deliveries, List.append_nil]
      have ordinary := programs _ (List.mem_of_getElem? found)
      rw [evaluating] at ordinary
      exact completed_evaluated exclusive found evaluating
        (ordinary _ (List.mem_singleton_self _)) answered
  | sent found sending => exact completed_sent exclusive found sending _
  | disconnected found receiving drained dropped =>
      exact absurd (exclusive.live _ _ found (receiving ▸ rfl)).2.1 dropped
  | undelivered found sending dropped =>
      exact absurd (exclusive.live _ _ found (sending ▸ rfl)).2.2 dropped

/-- Along every run without interrupts, the completion is what the calls make of the
sequential kernel. -/
theorem completed_run {history : List Event} (run : Run depth history machine)
    (undisturbed : .called .interrupt ∉ history) :
    machine.Exclusive ∧ machine.HandlesPrograms ∧
      machine.completed depth (history.flatMap Event.deliveries) =
        Kernel.after depth (history.flatMap Event.calls) := by
  induction run with
  | new => exact ⟨.new, nofun, rfl⟩
  | @step history machine event after prior next inductionHypothesis =>
      rw [List.mem_append, List.mem_singleton, not_or] at undisturbed
      obtain ⟨exclusive, programs, same⟩ := inductionHypothesis undisturbed.1
      have other : event ≠ .called .interrupt := Ne.symm undisturbed.2
      refine ⟨exclusive.step other next, programs.step next, ?_⟩
      rw [List.flatMap_append, List.flatMap_singleton, List.flatMap_append,
        List.flatMap_singleton, completed_step exclusive programs other next, same, Kernel.after,
        Kernel.after, List.foldl_append]

end Machine

end PlotLisp
