import PlotLisp.Proofs.Kernel.Thread

/-!
# An interrupt isolates the worker that it abandons

An abandoned thread can still drain the queue that it was started with, but what it sends
reaches nobody, so the first envelope that it cannot deliver ends it. The threads that
follow start from a fresh session and take their messages from queues that the client
made at the interrupt or later. So whatever the client receives afterwards was asked for
and computed afterwards.
-/

namespace PlotLisp

namespace Machine

variable {depth number : Nat} {machine after origin : Machine} {thread : Thread}
  {history events : List Event}

/-! ## All threads -/

/-- Every thread has the session that it came to by evaluating messages, and numbers
without a thread have evaluated nothing. -/
theorem Run.reached (run : Run depth history machine) :
    (∀ (number : Nat) (thread : Thread), machine.threads[number]? = some thread →
      thread.phase.Reached depth (history.flatMap (Event.evaluations number))) ∧
    ∀ number, machine.threads.length ≤ number →
      history.flatMap (Event.evaluations number) = [] := by
  induction run with
  | new => exact ⟨fun _ _ found => by simp [Machine.new] at found, fun _ _ => rfl⟩
  | @step history machine event after prior next inductionHypothesis =>
      obtain ⟨reached, unborn⟩ := inductionHypothesis
      have owned := Owned.run prior
      have none : ∀ number, machine.threads.length ≤ number →
          (history ++ [event]).flatMap (Event.evaluations number) = [] := by
        intro number beyond
        rw [List.flatMap_append, List.flatMap_singleton, unborn number beyond, List.nil_append]
        exact next.evaluations_eq_nil beyond
      refine ⟨fun number thread found => ?_, fun number beyond => none number ?_⟩
      · rcases next.known_or_started owned found with known | ⟨last, started⟩
        · obtain ⟨before, foundBefore⟩ := known
          obtain ⟨following, foundAfter, step⟩ := next.phase owned foundBefore
          obtain rfl := Option.some.inj (found.symm.trans foundAfter)
          rw [List.flatMap_append, List.flatMap_singleton]
          exact step.reached (reached number before foundBefore)
        · rw [none number (Nat.le_of_eq last), started]
          rfl
      · exact Nat.le_trans (next.length_le owned) beyond

/-- Ownership holds along every continuation. -/
theorem Owned.continues (owned : origin.Owned) (continued : Continues depth origin events machine) :
    machine.Owned := by
  induction continued with
  | refl => exact owned
  | step _ next inductionHypothesis => exact inductionHypothesis.step next

/-- The client never goes back to queues that it had before. -/
theorem Owned.ends_mono (owned : origin.Owned)
    (continued : Continues depth origin events machine) :
    origin.input ≤ machine.input ∧ origin.output ≤ machine.output := by
  induction continued with
  | refl => exact ⟨Nat.le_refl _, Nat.le_refl _⟩
  | step prior next inductionHypothesis =>
      have stepped := next.ends_mono (owned.continues prior)
      exact ⟨Nat.le_trans inductionHypothesis.1 stepped.1,
        Nat.le_trans inductionHypothesis.2 stepped.2⟩

/-! ## Threads that were abandoned -/

/-- A thread with queues that the client has moved on from takes only what waited in its
queue at that time, evaluates at most one message, and then only finds that the answer
reaches nobody. -/
theorem Continues.abandoned (owned : origin.Owned)
    (continued : Continues depth origin events machine)
    (found : origin.threads[number]? = some thread) (input : thread.input < origin.input)
    (output : thread.output < origin.output) :
    ∃ phase, machine.threads[number]? = some { thread with phase } ∧
      events.flatMap (Event.taken number) ++ (machine.inputs.contents thread.input).items =
        (origin.inputs.contents thread.input).items ∧
      (events.flatMap (Event.evaluations number) = [] ∨
        (events.flatMap (Event.evaluations number)).length = 1 ∧ phase.isLeaving = true) := by
  induction continued with
  | refl => exact ⟨thread.phase, found, rfl, .inl rfl⟩
  | @step events machine event after prior next inductionHypothesis =>
      obtain ⟨phase, foundBefore, backlog, spent⟩ := inductionHypothesis
      have ownedBefore := owned.continues prior
      obtain ⟨inputLe, outputLe⟩ := owned.ends_mono prior
      obtain ⟨following, foundAfter, step⟩ := next.phase ownedBefore foundBefore
      have unconnected : (thread.output = machine.output) = False := eq_false (by omega)
      rw [unconnected] at step
      refine ⟨following, foundAfter, ?_, ?_⟩
      · have kept := next.backlog ownedBefore foundBefore (Nat.lt_of_lt_of_le input inputLe)
        rw [List.flatMap_append, List.flatMap_singleton, List.append_assoc, ← backlog]
        exact congrArg _ kept
      · rw [List.flatMap_append, List.flatMap_singleton]
        exact step.spent spent

/-! ## Threads that were started afterwards -/

/-- What waits for the client and what later threads have evaluated, have in hand, and
have before them was submitted in these events. -/
structure Provided (first : Nat) (events : List Event) (machine : Machine) : Prop where
  inbox : (machine.programsIn machine.input).Sublist (events.flatMap Event.submissions)
  threads : ∀ number thread, first ≤ number → machine.threads[number]? = some thread →
    (events.flatMap (Event.evaluations number) ++ thread.phase.unevaluated ++
      machine.programsIn thread.input).Sublist (events.flatMap Event.submissions)
  unborn : ∀ number, machine.threads.length ≤ number →
    events.flatMap (Event.evaluations number) = []

/-- Each step keeps what was provided since: programs move from the client's queue to a thread and
from there to what has been evaluated, without being doubled or reordered. -/
theorem Provided.step {first : Nat} {event : Event} (provided : Provided first events machine)
    (owned : machine.Owned) (next : Step depth machine event after) :
    Provided first (events ++ [event]) after := by
  have unborn : ∀ number, machine.threads.length ≤ number →
      (events ++ [event]).flatMap (Event.evaluations number) = [] := by
    intro number beyond
    rw [List.flatMap_append, List.flatMap_singleton, provided.unborn number beyond,
      List.nil_append]
    exact next.evaluations_eq_nil beyond
  have inbox : (after.programsIn after.input).Sublist
      ((events ++ [event]).flatMap Event.submissions) := by
    rw [List.flatMap_append, List.flatMap_singleton]
    exact (next.inbox owned).trans (provided.inbox.append_right _)
  refine ⟨inbox, fun number thread later found => ?_, fun number beyond =>
    unborn number (Nat.le_trans (next.length_le owned) beyond)⟩
  -- A thread that was there before moves on with what it has; a new one starts on the whole queue.
  rcases next.known_or_started owned found with ⟨before, foundBefore⟩ | ⟨last, rfl⟩
  · obtain ⟨following, foundAfter, step⟩ := next.phase owned foundBefore
    obtain rfl := Option.some.inj (found.symm.trans foundAfter)
    have moved := (next.programs owned foundBefore).append_left
      (events.flatMap (Event.evaluations number) ++ before.phase.unevaluated)
    have allowed := (provided.threads number before later foundBefore).append_right
      event.submissions
    rw [List.append_assoc] at allowed
    rw [List.flatMap_append, List.flatMap_singleton, List.flatMap_append,
      List.flatMap_singleton, List.append_assoc (events.flatMap _), step.flow]
    simpa only [List.append_assoc] using moved.trans allowed
  · rw [unborn number (Nat.le_of_eq last)]
    exact inbox

/-- What holds where a continuation starts holds at its end, by induction on its steps. -/
theorem Continues.provided {first : Nat} (owned : origin.Owned)
    (provided : Provided first [] origin) (continued : Continues depth origin events machine) :
    Provided first events machine := by
  induction continued with
  | refl => exact provided
  | step prior next inductionHypothesis =>
      exact inductionHypothesis.step (owned.continues prior) next

/-- Right after an interrupt nothing waits for the client and the thread that is new. -/
theorem Provided.interrupt (owned : machine.Owned)
    (interrupted : Step depth machine (.called .interrupt) after) :
    Provided machine.threads.length [] after := by
  have inbox : after.programsIn after.input = [] := by
    cases interrupted
    exact owned.programsIn_interrupt
  refine ⟨inbox ▸ List.nil_sublist _, fun number thread later found => ?_, fun _ _ => rfl⟩
  rcases interrupted.known_or_started owned found with ⟨before, foundBefore⟩ | ⟨-, rfl⟩
  · have bounded := (List.getElem?_eq_some_iff.mp foundBefore).1
    omega
  · exact inbox ▸ List.nil_sublist _

/-! ## Envelopes -/

/-- Each envelope that the client receives was sent before, each at most once and in
order; an interrupt only drops envelopes. -/
theorem Continues.received (empty : origin.outbox.items = [])
    (continued : Continues depth origin events machine) :
    (events.flatMap Event.receptions ++ machine.outbox.items).Sublist
      (events.flatMap Event.deliveries) := by
  induction continued with
  | refl => exact empty ▸ List.nil_sublist _
  | @step events machine event after prior next inductionHypothesis =>
      simp only [List.flatMap_append, List.flatMap_singleton]
      by_cases interrupted : event = .called .interrupt
      · subst interrupted
        have dropped : after.outbox.items = [] := by
          cases next
          exact congrArg Mailbox.items machine.outbox_interrupt
        rw [dropped]
        simpa [Event.receptions, Event.deliveries] using
          (List.sublist_append_left _ _).trans inductionHypothesis
      · have moved := outbox_step interrupted next
        rw [List.append_assoc, ← moved, ← List.append_assoc]
        exact inductionHypothesis.append_right _

/-- A session that was fresh and had answered only the messages before this one gave the
envelope as the answer to it. These messages, this one included, are the first of the
evaluated ones, and they were submitted in this order. -/
def FreshAnswer (depth : Nat) (evaluated submitted : List String) (message : String)
    (envelope : Envelope) : Prop :=
  ∃ earlier session next, (earlier ++ [message]) <+: evaluated ∧
    (earlier ++ [message]).Sublist submitted ∧
    Session.fresh.answering depth earlier = some session ∧
    session.answer depth message = some (envelope, next)

/-- A fresh answer stays one as further messages are evaluated and submitted. -/
theorem FreshAnswer.mono {evaluated evaluated' submitted submitted' : List String}
    {message : String} {envelope : Envelope}
    (answer : FreshAnswer depth evaluated submitted message envelope)
    (further : evaluated <+: evaluated') (more : submitted.Sublist submitted') :
    FreshAnswer depth evaluated' submitted' message envelope :=
  have ⟨earlier, session, next, first, provided, before, answered⟩ := answer
  ⟨earlier, session, next, first.trans further, provided.trans more, before, answered⟩

/-- What a thread has evaluated only grows as events are added. -/
theorem evaluations_prefix (before : List Event) (first : Event) (events : List Event)
    (event : Event) (number : Nat) :
    (before ++ first :: events).flatMap (Event.evaluations number) <+:
      (before ++ first :: (events ++ [event])).flatMap (Event.evaluations number) := by
  have same : before ++ first :: (events ++ [event]) = (before ++ first :: events) ++ [event] := by
    rw [List.append_assoc, List.cons_append]
  exact same ▸ ⟨_, List.flatMap_append.symm⟩

/-- An interrupt keeps every thread and moves the client on from the queues of all of
them. -/
theorem Step.left_behind (owned : machine.Owned)
    (interrupted : Step depth machine (.called .interrupt) after)
    (found : machine.threads[number]? = some thread) :
    after.threads[number]? = some thread ∧ thread.input < after.input ∧
      thread.output < after.output := by
  obtain ⟨input, output⟩ := owned.ends_le found
  obtain ⟨inputLt, outputLt⟩ := owned.interrupt_lt
  cases interrupted
  exact ⟨owned.shift_interrupt.found found, Nat.lt_of_le_of_lt input inputLt,
    Nat.lt_of_le_of_lt output outputLt⟩

/-- After an interrupt, only threads that were started since reach the client. -/
theorem Continues.connected_later (owned : machine.Owned)
    (interrupted : Step depth machine (.called .interrupt) origin)
    (continued : Continues depth origin events after)
    (found : after.threads[number]? = some thread) (connected : thread.output = after.output) :
    machine.threads.length ≤ number := by
  refine Nat.le_of_not_lt fun known => ?_
  -- A thread from before the interrupt has an outbound queue that the client left.
  obtain ⟨foundBefore, input, output⟩ :=
    interrupted.left_behind owned (List.getElem?_eq_getElem known)
  have ownedAfter := owned.step interrupted
  obtain ⟨phase, same, -⟩ := continued.abandoned ownedAfter foundBefore input output
  obtain rfl := Option.some.inj (found.symm.trans same)
  have moved := (ownedAfter.ends_mono continued).2
  exact absurd connected (Nat.ne_of_lt (Nat.lt_of_lt_of_le output moved))

/-- After an interrupt, only threads that were started since send envelopes, and each is
the answer of a fresh session to a message that was submitted since. -/
theorem Continues.sent (run : Run depth history machine)
    (interrupted : Step depth machine (.called .interrupt) origin)
    (continued : Continues depth origin events after) :
    ∀ number message envelope, .sent number message envelope ∈ events →
      machine.threads.length ≤ number ∧
        FreshAnswer depth ((history ++ .called .interrupt :: events).flatMap
          (Event.evaluations number)) (events.flatMap Event.submissions) message envelope := by
  have ownedBefore := Owned.run run
  have owned := ownedBefore.step interrupted
  induction continued with
  | refl => exact fun _ _ _ member => nomatch member
  | @step events current event after prior next inductionHypothesis =>
      intro number message envelope member
      rcases List.mem_append.mp member with old | last
      · obtain ⟨later, answer⟩ := inductionHypothesis number message envelope old
        refine ⟨later, answer.mono ?_ ?_⟩
        · exact evaluations_prefix history _ events event number
        · rw [List.flatMap_append]
          exact List.sublist_append_left _ _
      · -- Whoever sends now was started after the interrupt, so all that it evaluated came in
        -- since.
        obtain rfl := List.mem_singleton.mp last
        cases next with
        | @sent number thread message envelope next found sending connected =>
            have later := prior.connected_later ownedBefore interrupted found connected
            have whole : Run depth (history ++ .called .interrupt :: events) current := by
              have both := (Run.step run interrupted).append prior
              rwa [List.append_assoc] at both
            have provided := prior.provided owned (.interrupt ownedBefore interrupted)
            have reached := whole.reached.1 number thread found
            rw [sending] at reached
            obtain ⟨earlier, session, evaluated, before, answered⟩ := reached
            have since : events.flatMap (Event.evaluations number) = earlier ++ [message] := by
              rw [← evaluated, List.flatMap_append, run.reached.2 number later, List.nil_append]
              rfl
            have submitted := provided.threads number thread later found
            rw [since, List.append_assoc] at submitted
            refine ⟨later, earlier, session, next, ?_, ?_, before, answered⟩
            · exact evaluated ▸ evaluations_prefix history _ events _ number
            · rw [List.flatMap_append]
              exact ((List.sublist_append_left _ _).trans submitted).trans
                (List.sublist_append_left _ _)

/-- A thread with a queue that the client left never waits: it has ended, or evaluates a
message, or has a step to make. -/
theorem never_waits (found : machine.threads[number]? = some thread)
    (input : thread.input ≠ machine.input) (output : thread.output ≠ machine.output) :
    (∃ session, thread.phase = .ended session) ∨
      (∃ session message, thread.phase = .evaluating session message) ∨
      ∃ event after, event.thread? = some number ∧ Step depth machine event after := by
  cases doing : thread.phase with
  | ended session => exact .inl ⟨session, rfl⟩
  | evaluating session message => exact .inr (.inl ⟨session, message, rfl⟩)
  | sending message envelope session =>
      exact .inr (.inr ⟨.undelivered number message envelope, _, rfl,
        .undelivered found doing output⟩)
  | receiving session =>
      cases oldest : (machine.inputs.contents thread.input).pop? with
      | some waiting =>
          obtain ⟨message, rest⟩ := waiting
          exact .inr (.inr ⟨.took number message, _, rfl, .took found doing oldest⟩)
      | none =>
          have drained : (machine.inputs.contents thread.input).isEmpty = true := by
            unfold Mailbox.pop? at oldest
            split at oldest
            · next empty => simp [Mailbox.isEmpty, empty]
            · cases oldest
          exact .inr (.inr ⟨.disconnected number, _, rfl,
            .disconnected found doing drained input⟩)

end Machine

/-- An interrupt isolates the threads that were there before it. Every envelope that the
client receives afterwards is sent afterwards, by a thread that was started since and
whose fresh session has answered only messages that were submitted since. An abandoned
thread takes only what waited in its queue at the interrupt and sends nothing; it
evaluates at most one more message, after which it has only to end, and it never waits
for anything but an evaluation. -/
theorem interrupt_isolates_abandoned_threads {depth : Nat} {former later : List Event}
    {final : Machine} (run : Machine.Run depth (former ++ .called .interrupt :: later) final) :
    ∃ machine, Machine.Run depth former machine ∧
      (later.flatMap Event.receptions).Sublist (later.flatMap Event.deliveries) ∧
      (∀ number message envelope, .sent number message envelope ∈ later →
        machine.threads.length ≤ number ∧
          Machine.FreshAnswer depth ((former ++ .called .interrupt :: later).flatMap
            (Event.evaluations number)) (later.flatMap Event.submissions) message envelope) ∧
      ∀ number thread, machine.threads[number]? = some thread →
        later.flatMap (Event.taken number) <+: (machine.inputs.contents thread.input).items ∧
        (later.flatMap (Event.evaluations number)).length ≤ 1 ∧
        ∃ phase, final.threads[number]? = some { thread with phase } ∧
          (later.flatMap (Event.evaluations number) ≠ [] → phase.isLeaving = true) ∧
          ((∃ session, phase = .ended session) ∨
            (∃ session message, phase = .evaluating session message) ∨
            ∃ event next, event.thread? = some number ∧ Machine.Step depth final event next) := by
  have cut : former ++ .called .interrupt :: later = former ++ [.called .interrupt] ++ later := by
    rw [List.append_assoc, List.singleton_append]
  obtain ⟨origin, upTo, continued⟩ := (cut ▸ run).split
  obtain ⟨machine, before, interrupted⟩ := upTo.last
  have ownedBefore := Machine.Owned.run before
  have owned := Machine.Owned.run upTo
  refine ⟨machine, before, ?received, continued.sent before interrupted, ?abandoned⟩
  case received =>
    have nothing : origin.outbox.items = [] := by
      cases interrupted
      exact congrArg Mailbox.items machine.outbox_interrupt
    exact (List.sublist_append_left _ _).trans (continued.received nothing)
  case abandoned =>
    intro number thread found
    -- The interrupt leaves these threads with the ends of queues that the kernel no longer uses.
    obtain ⟨foundAfter, input, output⟩ := interrupted.left_behind ownedBefore found
    obtain ⟨phase, foundFinally, backlog, spent⟩ :=
      continued.abandoned owned foundAfter input output
    obtain ⟨inputLe, outputLe⟩ := owned.ends_mono continued
    have untouched : origin.inputs.contents thread.input =
        machine.inputs.contents thread.input := by
      cases interrupted
      exact ownedBefore.contents_interrupt (ownedBefore.ends_le found).1
    refine ⟨⟨_, backlog.trans (congrArg Mailbox.items untouched)⟩, ?_, phase, foundFinally, ?_,
      Machine.never_waits foundFinally ?_ ?_⟩
    · rcases spent with none | ⟨once, -⟩
      · rw [none]
        exact Nat.zero_le 1
      · exact Nat.le_of_eq once
    · intro some
      rcases spent with none | ⟨-, leaving⟩
      · exact absurd none some
      · exact leaving
    · exact Nat.ne_of_lt (Nat.lt_of_lt_of_le input inputLe)
    · exact Nat.ne_of_lt (Nat.lt_of_lt_of_le output outputLe)

/-- A program is in hand when the client interrupts. -/
def beforeInterrupt : List Event :=
  [.called .start, .called (.submit "a"), .called (.submit "b"), .took 0 "a"]

/-- The abandoned thread answers the program in hand to nobody, while the thread that
followed answers one that was submitted since. -/
def afterInterrupt : List Event :=
  [.called (.submit "c"), .evaluated 0 "a", .took 1 "c", .evaluated 1 "c",
    .undelivered 0 "a" (.error unreadableMessage), .sent 1 "c" (.error unreadableMessage),
    .received (.error unreadableMessage)]

/-- The envelope that the client receives was sent since, by a thread that is not the
abandoned one and that has evaluated nothing but the program submitted since. -/
theorem interrupt_isolates_while_evaluating :
    ∃ machine final, Machine.Run 0 beforeInterrupt machine ∧
      Machine.Run 0 (beforeInterrupt ++ .called .interrupt :: afterInterrupt) final ∧
      [.error unreadableMessage].Sublist (afterInterrupt.flatMap Event.deliveries) ∧
      machine.threads.length ≤ 1 ∧
      Machine.FreshAnswer 0 ["c"] ["c"] "c" (.error unreadableMessage) := by
  have started := Machine.Run.step (@Machine.Run.new 0) (.called rfl .start)
  have first := started.step (.called rfl (.submit "a"))
  have second := first.step (.called rfl (.submit "b"))
  have inHand := second.step (@Machine.Step.took 0 _ 0 _ _ _ _ rfl rfl rfl)
  have interrupted := inHand.step (.called rfl .interrupt)
  have third := interrupted.step (.called rfl (.submit "c"))
  have abandoned := third.step
    (@Machine.Step.evaluated 0 _ 0 _ _ "a" (.error unreadableMessage) .fresh rfl rfl rfl)
  have taken := abandoned.step (@Machine.Step.took 0 _ 1 _ _ _ _ rfl rfl rfl)
  have evaluated := taken.step
    (@Machine.Step.evaluated 0 _ 1 _ _ "c" (.error unreadableMessage) .fresh rfl rfl rfl)
  have undelivered := evaluated.step
    (@Machine.Step.undelivered 0 _ 0 _ "a" (.error unreadableMessage) .fresh rfl rfl (by decide))
  have sent := undelivered.step
    (@Machine.Step.sent 0 _ 1 _ "c" (.error unreadableMessage) .fresh rfl rfl rfl)
  have run := sent.step (@Machine.Step.received 0 _ (.error unreadableMessage) _ rfl rfl)
  obtain ⟨machine, before, received, answers, -⟩ :=
    @interrupt_isolates_abandoned_threads 0 beforeInterrupt afterInterrupt _ run
  obtain ⟨later, answer⟩ := answers 1 "c" (.error unreadableMessage) (by decide)
  exact ⟨machine, _, before, run, received, later, answer⟩

end PlotLisp
