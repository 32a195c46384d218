import PlotLisp.Proofs.Kernel.Simulation

/-!
# Every message is answered once and in order

The messages that the client submits and that are no sentinels are at any time the
answered ones, then those that a thread has in hand, then those that wait. With the
simulation this makes the machine equivalent to the sequential kernel.
-/

namespace PlotLisp

/-- Whether a message is to be answered. -/
def isProgram (message : String) : Bool :=
  !isSentinel message

namespace Machine

variable {depth number : Nat} {machine after : Machine} {thread : Thread}
  {sent : List Envelope}

/-! ## Messages -/

/-- The messages that threads have taken and not answered yet. -/
def inHand (machine : Machine) : List String :=
  machine.threads.flatMap fun thread => thread.phase.inHand

/-- Where only one item counts, it is all that counts. -/
theorem flatMap_eq_of_only {α β : Type} {count : α → List β} {items : List α} {index : Nat}
    {item : α} (found : items[index]? = some item)
    (others : ∀ other known, items[other]? = some known → other ≠ index → count known = []) :
    items.flatMap count = count item := by
  induction items generalizing index with
  | nil => cases found
  | cons first rest inductionHypothesis =>
      rw [List.flatMap_cons]
      cases index with
      | zero =>
          obtain rfl : first = item := Option.some.inj found
          have none : rest.flatMap count = [] := by
            refine List.flatMap_eq_nil_iff.mpr fun known member => ?_
            obtain ⟨other, knownFound⟩ := List.getElem?_of_mem member
            exact others (other + 1) known knownFound (Nat.succ_ne_zero other)
          rw [none, List.append_nil]
      | succ index =>
          rw [others 0 first rfl (Nat.succ_ne_zero index).symm, List.nil_append]
          refine inductionHypothesis found fun other known knownFound different => ?_
          exact others (other + 1) known knownFound (fun same => different (Nat.succ.inj same))

/-- Only a live thread has anything in hand, and there is no other one. -/
theorem Exclusive.inHand_of_other (exclusive : machine.Exclusive)
    (found : machine.threads[number]? = some thread) (live : thread.phase.isLive = true)
    {other : Nat} {known : Thread} (knownFound : machine.threads[other]? = some known)
    (different : other ≠ number) : known.phase.inHand = [] := by
  cases doing : known.phase with
  | ended | receiving => rfl
  | evaluating | sending =>
      have engaged := (exclusive.live number thread found live).1
      have alsoEngaged := (exclusive.live other known knownFound (doing ▸ rfl)).1
      exact absurd (Option.some.inj (alsoEngaged.symm.trans engaged)) different

/-- The messages in hand are those of the live thread, because no other thread is live. -/
theorem Exclusive.inHand_of_live (exclusive : machine.Exclusive)
    (found : machine.threads[number]? = some thread) (live : thread.phase.isLive = true) :
    machine.inHand = thread.phase.inHand :=
  flatMap_eq_of_only found fun _ _ knownFound different =>
    exclusive.inHand_of_other found live knownFound different

/-- When the live thread goes on, what is in hand is what its new phase holds. -/
theorem Exclusive.inHand_advance (exclusive : machine.Exclusive)
    (found : machine.threads[number]? = some thread) (live : thread.phase.isLive = true)
    (phase : Phase) (inputs : Queues String) (outputs : Queues Envelope) :
    (({ machine with inputs, outputs } : Machine).advance number thread phase).inHand =
      phase.inHand := by
  have bounded := (List.getElem?_eq_some_iff.mp found).1
  refine (flatMap_eq_of_only (List.getElem?_set_self bounded) ?_).trans rfl
  intro other known knownFound different
  rw [List.getElem?_set_ne different.symm] at knownFound
  exact exclusive.inHand_of_other found live knownFound different

/-- The messages that wait and are to be answered. -/
def programs (machine : Machine) : List String :=
  machine.inbox.items.filter isProgram

/-- A thread that goes on changes the waiting programs only through its queue. -/
theorem programs_advance (machine : Machine) (phase : Phase) (inputs : Queues String)
    (outputs : Queues Envelope) :
    (({ machine with inputs, outputs } : Machine).advance number thread phase).programs =
      (inputs.contents machine.input).items.filter isProgram :=
  rfl

/-- A submitted message waits to be answered unless it is a sentinel. -/
theorem programs_submit (machine : Machine) (message : String) :
    (machine.submit message).programs = machine.programs ++ [message].filter isProgram := by
  have inbox : (machine.submit message).inbox = machine.inbox.push message :=
    Queues.contents_write_self _ _ _
  rw [programs, inbox, Mailbox.push, List.filter_append]
  rfl

/-- Nothing that is to be answered or received has moved. -/
structure Keeps (machine after : Machine) : Prop where
  inHand : after.inHand = machine.inHand
  programs : after.programs = machine.programs
  outbox : after.outbox = machine.outbox

/-- Starting a worker drops no message that is to be answered. -/
theorem keeps_start (machine : Machine) : machine.Keeps machine.start := by
  cases attached : machine.worker with
  | some =>
      have unchanged : machine.start = machine := by simp only [start, attached]
      rw [unchanged]
      exact ⟨rfl, rfl, rfl⟩
  | none =>
      have inbox : machine.start.inbox = machine.inbox.filter isProgram := inbox_start attached
      constructor
      · simp [start, attached, inHand, Phase.inHand]
      · simp only [programs, inbox, Mailbox.filter, List.filter_filter, Bool.and_self]
      · simp only [start, attached, outbox]

/-- Going on after a thread's end moves nothing that is to be answered. -/
theorem keeps_resume (machine : Machine) (restarts : Bool) :
    machine.Keeps (machine.resume restarts) := by
  cases restarts with
  | false => exact ⟨rfl, rfl, rfl⟩
  | true =>
      obtain ⟨hands, queued, envelopes⟩ := keeps_start { machine with client := .idle }
      exact ⟨hands, queued, envelopes⟩

/-- The sentinel that ends a worker is not to be answered. -/
theorem keeps_leave (machine : Machine) (restarts : Bool) :
    machine.Keeps (machine.leave restarts) := by
  unfold leave
  split
  case h_1 => exact machine.keeps_resume restarts
  case h_2 number _ =>
    have sentinel : [Command.stop.text].filter isProgram = [] := by decide
    refine ⟨rfl, ?_, rfl⟩
    refine (programs_submit machine Command.stop.text).trans ?_
    rw [sentinel, List.append_nil]

/-- A call adds the message that it submits and moves nothing else. -/
theorem call_effect (machine : Machine) (call : Call) (undisturbed : call ≠ .interrupt) :
    (machine.call call).inHand = machine.inHand ∧
      (machine.call call).programs =
        machine.programs ++ (Event.called call).submissions.filter isProgram ∧
      (machine.call call).outbox = machine.outbox := by
  have unsubmitted : ∀ {after : Machine}, machine.Keeps after →
      after.inHand = machine.inHand ∧ after.programs = machine.programs ++ [].filter isProgram ∧
        after.outbox = machine.outbox := by
    intro after keeps
    rw [List.filter_nil, List.append_nil]
    exact ⟨keeps.inHand, keeps.programs, keeps.outbox⟩
  cases call with
  | start => exact unsubmitted machine.keeps_start
  | stop => exact unsubmitted (machine.keeps_leave false)
  | reset => exact unsubmitted (machine.keeps_leave true)
  | interrupt => exact absurd rfl undisturbed
  | submit message => exact ⟨rfl, machine.programs_submit message, rfl⟩

/-- A step moves messages along and loses none that is to be answered. -/
theorem programs_step {event : Event} (exclusive : machine.Exclusive)
    (undisturbed : event ≠ .called .interrupt) (next : Step depth machine event after) :
    event.answers ++ after.inHand ++ after.programs =
      machine.inHand ++ machine.programs ++ event.submissions.filter isProgram := by
  -- One thread at most is alive. Taking a message moves it from the queue into this thread's hands,
  -- and sending moves it on to the answers; the order stays.
  cases next with
  | called idle call =>
      obtain ⟨hands, queued, -⟩ := machine.call_effect call fun same => undisturbed (same ▸ rfl)
      simp only [Event.answers, hands, queued, List.nil_append, List.append_assoc]
  | @returned number restarts =>
      have keeps := machine.keeps_resume restarts
      simp [Event.answers, Event.submissions, keeps.inHand, keeps.programs]
  | received =>
      simp only [Event.answers, Event.submissions, List.nil_append, List.filter_nil,
        List.append_nil]
      rfl
  | @took number thread session message rest found receiving oldest =>
      have live : thread.phase.isLive = true := receiving ▸ rfl
      obtain ⟨-, input, -⟩ := exclusive.live number thread found live
      rw [input] at oldest
      have waiting : machine.programs =
          [message].filter isProgram ++ rest.items.filter isProgram := by
        rw [← List.filter_append, programs, inbox, Mailbox.eq_of_pop? oldest]
        rfl
      have hands : (if isSentinel message then Phase.ended session
          else .evaluating session message).inHand = [message].filter isProgram := by
        cases sentinel : isSentinel message <;> simp [isProgram, sentinel, Phase.inHand]
      rw [exclusive.inHand_of_live found live, receiving, waiting,
        exclusive.inHand_advance found live, programs_advance, hands, input,
        Queues.contents_write_self]
      simp [Event.answers, Event.submissions, Phase.inHand]
  | @evaluated number thread session message envelope following found evaluating =>
      have live : thread.phase.isLive = true := evaluating ▸ rfl
      have advanced := exclusive.inHand_advance found live (.sending message envelope following)
        machine.inputs machine.outputs
      rw [exclusive.inHand_of_live found live, evaluating]
      refine (congrArg (fun hands => [] ++ hands ++ machine.programs) advanced).trans ?_
      simp [Event.submissions, Phase.inHand]
  | @sent number thread message envelope session found sending =>
      have live : thread.phase.isLive = true := sending ▸ rfl
      rw [exclusive.inHand_of_live found live, sending, exclusive.inHand_advance found live,
        programs_advance]
      simp [Event.answers, Event.submissions, Phase.inHand, programs, inbox]
  | disconnected found receiving drained dropped =>
      exact absurd (exclusive.live _ _ found (receiving ▸ rfl)).2.1 dropped
  | undelivered found sending dropped =>
      exact absurd (exclusive.live _ _ found (sending ▸ rfl)).2.2 dropped

/-- The submitted programs are the answered ones, then those in hand, then those that
wait. -/
theorem programs_run {history : List Event} (run : Run depth history machine)
    (undisturbed : .called .interrupt ∉ history) :
    (history.flatMap Event.submissions).filter isProgram =
      history.flatMap Event.answers ++ machine.inHand ++ machine.programs := by
  induction run with
  | new => rfl
  | @step history machine event after prior next inductionHypothesis =>
      rw [List.mem_append, List.mem_singleton, not_or] at undisturbed
      obtain ⟨exclusive, -⟩ := completed_run prior undisturbed.1
      have moved := programs_step exclusive (Ne.symm undisturbed.2) next
      rw [List.flatMap_append, List.flatMap_singleton, List.filter_append,
        inductionHypothesis undisturbed.1, List.append_assoc, List.append_assoc,
        ← List.append_assoc machine.inHand, ← moved, List.flatMap_append,
        List.flatMap_singleton]
      simp only [List.append_assoc]

/-! ## Envelopes -/

/-- What is sent waits in the outbound queue until it is received. -/
theorem outbox_step {event : Event} (undisturbed : event ≠ .called .interrupt)
    (next : Step depth machine event after) :
    machine.outbox.items ++ event.deliveries = event.receptions ++ after.outbox.items := by
  cases next with
  | called idle call =>
      obtain ⟨-, -, envelopes⟩ := machine.call_effect call fun same => undisturbed (same ▸ rfl)
      simp [Event.deliveries, Event.receptions, envelopes]
  | @returned number restarts =>
      have keeps := machine.keeps_resume restarts
      simp [Event.deliveries, Event.receptions, keeps.outbox]
  | received idle oldest =>
      rw [Mailbox.eq_of_pop? oldest]
      simp [Event.deliveries, Event.receptions, outbox]
  | sent found sending connected =>
      simp [Event.deliveries, Event.receptions, outbox, connected, advance, Mailbox.push]
  | took | disconnected | evaluated | undelivered =>
      simp [Event.deliveries, Event.receptions, outbox, advance]

/-- The client has received the envelopes that were sent, except for those that wait. -/
theorem outbox_run {history : List Event} (run : Run depth history machine)
    (undisturbed : .called .interrupt ∉ history) :
    history.flatMap Event.deliveries =
      history.flatMap Event.receptions ++ machine.outbox.items := by
  induction run with
  | new => rfl
  | @step history machine event after prior next inductionHypothesis =>
      rw [List.mem_append, List.mem_singleton, not_or] at undisturbed
      have moved := outbox_step (Ne.symm undisturbed.2) next
      rw [List.flatMap_append, List.flatMap_singleton, inductionHypothesis undisturbed.1,
        List.append_assoc, moved, List.flatMap_append, List.flatMap_singleton,
        List.append_assoc]

/-- The engaged thread has nothing left to do, and no other one is to follow it. -/
structure IsDone (machine : Machine) : Prop where
  last : ∀ number, machine.client ≠ .joining number true
  drained : ∀ number thread, machine.engaged = some number →
    machine.threads[number]? = some thread →
    (∃ session, thread.phase = .ended session) ∨
      ∃ session, thread.phase = .receiving session ∧
        (machine.inputs.contents thread.input).isEmpty = true

/-- The sequential kernel has sent what the machine has. -/
theorem sent_le_completed (machine : Machine) (sent : List Envelope) :
    sent <+: (machine.completed depth sent).outbox.items := by
  have pending : sent <+: (machine.pending sent).outbox.items := by
    unfold Machine.pending
    cases machine.engagedPhase with
    | none => exact List.prefix_rfl
    | some phase =>
        cases phase with
        | receiving | evaluating | ended => exact List.prefix_rfl
        | sending => exact List.prefix_append _ _
  have proceeded := pending.trans (@Kernel.outbox_proceed depth (machine.pending sent))
  unfold completed
  split
  · exact proceeded
  · exact proceeded.trans (Kernel.outbox_resume (Kernel.detach _) _)

/-- A kernel without anything left to do for its worker sends nothing more. -/
theorem IsDone.outbox_proceed (done : machine.IsDone) (exclusive : machine.Exclusive)
    (sent : List Envelope) : ((machine.pending sent).proceed depth).outbox.items = sent := by
  cases engaged : machine.engaged with
  | none =>
      rw [pending_of_not_engaged engaged]
      rfl
  | some number =>
      obtain ⟨thread, found⟩ := exclusive.found number engaged
      rw [pending_of_engaged engaged found]
      rcases done.drained number thread engaged found with
        ⟨session, atEnd⟩ | ⟨session, receiving, drained⟩
      · rw [atEnd]
        rfl
      · obtain ⟨-, input, -⟩ := exclusive.live number thread found (receiving ▸ rfl)
        have empty : machine.inbox.items = [] := by
          rw [input] at drained
          exact List.isEmpty_iff.mp drained
        simp only [receiving, Phase.pending, Kernel.proceed, empty, Kernel.answerReady,
          List.append_nil]

/-- Once nothing is left to do, the sequential kernel has sent no more than the machine. -/
theorem IsDone.outbox_completed (done : machine.IsDone) (exclusive : machine.Exclusive)
    (sent : List Envelope) : (machine.completed depth sent).outbox.items = sent := by
  have proceeded := @IsDone.outbox_proceed depth machine done exclusive sent
  unfold completed
  split
  · exact proceeded
  · next number restarts joining =>
      cases restarts with
      | false => exact proceeded
      | true => exact absurd joining (done.last number)

end Machine

/-- Without interrupts the machine is equivalent to the sequential kernel, whatever turns
the client and the threads take. The envelopes that were sent are a prefix of those that
the sequential kernel sends for the same calls, and all of them once nothing is left to
do; those that the client has not received wait in its outbound queue. Of the messages
that are no sentinels, each is answered once and in order, in hand, or still waiting.
Where no answer of the sequential kernel is missing, it is the one that settles. -/
theorem machine_is_sequential_without_interrupts {depth : Nat} {history : List Event}
    {machine : Machine} (run : Machine.Run depth history machine)
    (undisturbed : .called .interrupt ∉ history) :
    history.flatMap Event.deliveries <+:
        (Kernel.after depth (history.flatMap Event.calls)).outbox.items ∧
      (machine.IsDone → history.flatMap Event.deliveries =
        (Kernel.after depth (history.flatMap Event.calls)).outbox.items) ∧
      history.flatMap Event.deliveries =
        history.flatMap Event.receptions ++ machine.outbox.items ∧
      (history.flatMap Event.submissions).filter isProgram =
        history.flatMap Event.answers ++ machine.inHand ++ machine.programs ∧
      ∀ settled, (history.flatMap Event.calls).foldlM (Kernel.call depth) .new = some settled →
        Kernel.after depth (history.flatMap Event.calls) = settled := by
  obtain ⟨exclusive, -, same⟩ := Machine.completed_run run undisturbed
  refine ⟨?initial, ?done, ?received, ?programs, ?settled⟩
  case initial =>
    rw [← same]
    exact machine.sent_le_completed _
  case done =>
    intro done
    rw [← same, done.outbox_completed exclusive]
  case received => exact Machine.outbox_run run undisturbed
  case programs => exact Machine.programs_run run undisturbed
  case settled =>
    intro settled ended
    exact Kernel.foldl_perform_of_foldlM_call ended

/-- A sentinel that was submitted ends the first thread, and the message behind it is
answered by the next. -/
def carriedOver : List Event :=
  [.called .start, .called (.submit "%stop"), .called (.submit "a"), .took 0 "%stop",
    .called .reset, .returned, .took 1 "a", .evaluated 1 "a",
    .sent 1 "a" (.error unreadableMessage)]

/-- The message that was carried over is answered as by the sequential kernel, and
nothing is left. -/
theorem machine_is_sequential_when_carried_over :
    ∃ machine, Machine.Run 0 carriedOver machine ∧
      [.error unreadableMessage] =
        (Kernel.after 0 (carriedOver.flatMap Event.calls)).outbox.items ∧
      ["a"] = carriedOver.flatMap Event.answers ++ machine.inHand ++ machine.programs := by
  have started := Machine.Run.step (@Machine.Run.new 0) (.called rfl .start)
  have first := started.step (.called rfl (.submit "%stop"))
  have second := first.step (.called rfl (.submit "a"))
  have ended := second.step (@Machine.Step.took 0 _ 0 _ _ _ _ rfl rfl rfl)
  have resetting := ended.step (.called rfl .reset)
  have reset := resetting.step (.returned rfl rfl rfl)
  have taken := reset.step (@Machine.Step.took 0 _ 1 _ _ _ _ rfl rfl rfl)
  have evaluated := taken.step
    (@Machine.Step.evaluated 0 _ 1 _ _ "a" (.error unreadableMessage) .fresh rfl rfl rfl)
  have run := evaluated.step
    (@Machine.Step.sent 0 _ 1 _ "a" (.error unreadableMessage) .fresh rfl rfl rfl)
  obtain ⟨-, done, -, programs, -⟩ := machine_is_sequential_without_interrupts run (by decide)
  refine ⟨_, run, done ⟨nofun, fun number thread engaged found => .inr ?_⟩, programs⟩
  obtain rfl : 1 = number := Option.some.inj engaged
  obtain rfl := Option.some.inj found
  exact ⟨_, rfl, rfl⟩

end PlotLisp
