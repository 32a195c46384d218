import PlotLisp.Proofs.Kernel.Ownership

/-!
# One thread among many

`Phase.Step` says what a step of the machine can be for a single thread: which messages
the thread takes, which it evaluates, and how its phase changes. What holds of one thread
along a run follows from these few cases, whatever the other threads and the client do.
-/

namespace PlotLisp

namespace Event

/-- The number of the thread that makes a step, unless the client makes it. -/
def thread? : Event → Option Nat
  | took number _ | disconnected number | evaluated number _ | sent number _ _
  | undelivered number _ _ => some number
  | called _ | returned | received _ => none

/-- The messages that the thread with a number takes in a step. -/
def taken (number : Nat) : Event → List String
  | took other message => if other = number then [message] else []
  | _ => []

/-- The messages that the thread with a number evaluates in a step. -/
def evaluations (number : Nat) : Event → List String
  | evaluated other message => if other = number then [message] else []
  | _ => []

end Event

/-- The session after it has answered messages in order, if all of them have an answer. -/
def Session.answering (depth : Nat) (session : Session) (messages : List String) :
    Option Session :=
  messages.foldlM (fun session message => (session.answer depth message).map Prod.snd) session

/-- Answering one more message leads from the session before to the one after it. -/
theorem Session.answering_concat {depth : Nat} {session middle next : Session}
    {messages : List String} {message : String} {envelope : Envelope}
    (before : session.answering depth messages = some middle)
    (answered : middle.answer depth message = some (envelope, next)) :
    session.answering depth (messages ++ [message]) = some next := by
  rw [answering, List.foldlM_append, ← answering, before]
  simp [answered]

namespace Phase

/-- The message that a thread in this phase has taken and not evaluated yet. -/
def unevaluated : Phase → List String
  | evaluating _ message => [message]
  | receiving _ | sending _ _ _ | ended _ => []

/-- Whether a thread in this phase has nothing left but to deliver an envelope. -/
def isLeaving : Phase → Bool
  | sending _ _ _ | ended _ => true
  | receiving _ | evaluating _ _ => false

/-- The session of a thread in this phase has come from a fresh one by answering these
messages and no others; an envelope at hand is the answer to the last of them. -/
def Reached (depth : Nat) (evaluated : List String) : Phase → Prop
  | receiving session | evaluating session _ | ended session =>
      Session.fresh.answering depth evaluated = some session
  | sending message envelope next => ∃ earlier session, evaluated = earlier ++ [message] ∧
      Session.fresh.answering depth earlier = some session ∧
      session.answer depth message = some (envelope, next)

/-- What a step of the machine can be for one thread, whose envelopes reach the client or
not: the phase before and after, the messages taken, and the messages evaluated. -/
inductive Step (depth : Nat) (connected : Prop) :
    Phase → Phase → List String → List String → Prop where
  | rests (phase : Phase) : Step depth connected phase phase [] []
  | took (session : Session) (message : String) :
      Step depth connected (receiving session)
        (if isSentinel message then ended session else evaluating session message) [message] []
  | disconnected (session : Session) :
      Step depth connected (receiving session) (ended session) [] []
  | evaluated {session next : Session} {message : String} {envelope : Envelope}
      (answered : session.answer depth message = some (envelope, next)) :
      Step depth connected (evaluating session message) (sending message envelope next) []
        [message]
  | sent (reaches : connected) (message : String) (envelope : Envelope) (session : Session) :
      Step depth connected (sending message envelope session) (receiving session) [] []
  | undelivered (message : String) (envelope : Envelope) (session : Session) :
      Step depth connected (sending message envelope session) (ended session) [] []

variable {depth : Nat} {connected : Prop} {phase after : Phase}
  {taken evaluations evaluated : List String}

/-- A thread evaluates the programs that it takes, one at a time and in order. -/
theorem Step.flow (step : Step depth connected phase after taken evaluations) :
    evaluations ++ after.unevaluated = phase.unevaluated ++ taken.filter isProgram := by
  cases step with
  | took session message =>
      cases sentinel : isSentinel message <;> simp [isProgram, sentinel, unevaluated]
  | rests | disconnected | evaluated | sent | undelivered => simp [unevaluated]

/-- The session of a thread changes only by the messages that the thread evaluates. -/
theorem Step.reached (step : Step depth connected phase after taken evaluations)
    (reached : phase.Reached depth evaluated) :
    after.Reached depth (evaluated ++ evaluations) := by
  cases step with
  | rests => rwa [List.append_nil]
  | took session message =>
      rw [List.append_nil]
      split <;> exact reached
  | disconnected => rwa [List.append_nil]
  | evaluated answered => exact ⟨evaluated, _, rfl, reached, answered⟩
  | sent _ message envelope session | undelivered message envelope session =>
      obtain ⟨earlier, former, rfl, before, answered⟩ := reached
      rw [List.append_nil]
      exact Session.answering_concat before answered

/-- A thread that reaches nobody evaluates one message at most: the answer to it is the
last thing that the thread does. -/
theorem Step.spent (step : Step depth False phase after taken evaluations)
    (spent : evaluated = [] ∨ evaluated.length = 1 ∧ phase.isLeaving = true) :
    evaluated ++ evaluations = [] ∨
      (evaluated ++ evaluations).length = 1 ∧ after.isLeaving = true := by
  rcases spent with rfl | ⟨once, leaving⟩
  · cases step with
    | evaluated => exact .inr ⟨rfl, rfl⟩
    | rests | took | disconnected | sent | undelivered => exact .inl rfl
  · rw [List.length_append]
    cases step with
    | rests => exact .inr ⟨once, leaving⟩
    | took | disconnected | evaluated => cases leaving
    | sent reaches => exact reaches.elim
    | undelivered => exact .inr ⟨once, rfl⟩

end Phase

namespace Machine

variable {depth number : Nat} {machine after : Machine} {thread : Thread} {event : Event}

/-! ## One step of the machine, seen from one thread -/

/-- A thread that there is keeps its place when calls start further ones. -/
theorem Shift.found {submitted : List String} (shift : machine.Shift after submitted)
    (found : machine.threads[number]? = some thread) : after.threads[number]? = some thread := by
  rcases shift.threads with same | started
  · rw [same, found]
  · rw [started, List.getElem?_append_left (List.getElem?_eq_some_iff.mp found).1, found]

/-- The thread that makes a step goes on as it does, and every other one rests. -/
theorem advance_phase (machine : Machine) {stepping : Nat} {stepped : Thread} {phase : Phase}
    {taken evaluations : List String}
    (steppedFound : machine.threads[stepping]? = some stepped)
    (found : machine.threads[number]? = some thread)
    (step : stepping = number → Phase.Step depth (thread.output = machine.output) stepped.phase
      phase taken evaluations)
    (rests : stepping ≠ number → taken = [] ∧ evaluations = []) :
    ∃ following,
      (machine.advance stepping stepped phase).threads[number]? =
        some { thread with phase := following } ∧
      Phase.Step depth (thread.output = machine.output) thread.phase following taken
        evaluations := by
  by_cases same : stepping = number
  · subst same
    obtain rfl := Option.some.inj (found.symm.trans steppedFound)
    exact ⟨phase, threads_advance_self found phase, step rfl⟩
  · obtain ⟨rfl, rfl⟩ := rests same
    exact ⟨thread.phase, (threads_advance_of_ne same phase).trans found, .rests _⟩

/-- What a step of the machine is for a thread. -/
theorem Step.phase (owned : machine.Owned) (next : Step depth machine event after)
    (found : machine.threads[number]? = some thread) :
    ∃ following, after.threads[number]? = some { thread with phase := following } ∧
      Phase.Step depth (thread.output = machine.output) thread.phase following
        (event.taken number) (event.evaluations number) := by
  -- A step moves at most one thread, so each case asks whether the thread that moves is this one.
  cases next with
  | called idle call =>
      exact ⟨thread.phase, (owned.shift_call call).found found, .rests _⟩
  | returned => exact ⟨thread.phase, (owned.shift_resume _).found found, .rests _⟩
  | received => exact ⟨thread.phase, found, .rests _⟩
  | @took stepping stepped session message rest steppedFound receiving =>
      refine advance_phase { machine with
        inputs := machine.inputs.write stepped.input rest } steppedFound found ?_ ?_
      · rintro rfl
        rw [receiving, Event.taken, if_pos rfl]
        exact .took session message
      · exact fun different => ⟨if_neg different, rfl⟩
  | disconnected steppedFound receiving =>
      refine advance_phase machine steppedFound found ?_ fun _ => ⟨rfl, rfl⟩
      rintro rfl
      rw [receiving]
      exact .disconnected _
  | evaluated steppedFound evaluating answered =>
      refine advance_phase machine steppedFound found ?_ fun different => ⟨rfl, if_neg different⟩
      rintro rfl
      rw [evaluating, Event.evaluations, if_pos rfl]
      exact .evaluated answered
  | @sent stepping stepped message envelope session steppedFound sending connected =>
      refine advance_phase { machine with
        outputs := machine.outputs.write stepped.output
          ((machine.outputs.contents stepped.output).push envelope) } steppedFound found ?_
        fun _ => ⟨rfl, rfl⟩
      rintro rfl
      obtain rfl := Option.some.inj (found.symm.trans steppedFound)
      rw [sending]
      exact .sent connected _ _ _
  | undelivered steppedFound sending =>
      refine advance_phase machine steppedFound found ?_ fun _ => ⟨rfl, rfl⟩
      rintro rfl
      rw [sending]
      exact .undelivered _ _ _

/-- Threads stay, and at most one is started in a step. -/
theorem Step.threads (owned : machine.Owned) (next : Step depth machine event after) :
    after.threads.length = machine.threads.length ∨
      after.threads = machine.threads ++ [⟨after.input, after.output, .receiving .fresh⟩] := by
  cases next with
  | called idle call => exact (owned.shift_call call).threads.imp_left (congrArg List.length)
  | returned => exact (owned.shift_resume _).threads.imp_left (congrArg List.length)
  | received => exact .inl rfl
  | took | disconnected | evaluated | sent | undelivered => exact .inl List.length_set

/-- Threads are never taken away: numbers stay valid. -/
theorem Step.length_le (owned : machine.Owned) (next : Step depth machine event after) :
    machine.threads.length ≤ after.threads.length := by
  rcases next.threads owned with same | started
  · exact Nat.le_of_eq same.symm
  · rw [started, List.length_append]
    exact Nat.le_add_right _ _

/-- A thread that there is after a step was there before or has just been started. -/
theorem Step.known_or_started (owned : machine.Owned) (next : Step depth machine event after)
    (found : after.threads[number]? = some thread) :
    (∃ before, machine.threads[number]? = some before) ∨
      machine.threads.length = number ∧
        thread = ⟨after.input, after.output, .receiving .fresh⟩ := by
  have bounded := (List.getElem?_eq_some_iff.mp found).1
  by_cases old : number < machine.threads.length
  · exact .inl ⟨_, List.getElem?_eq_getElem old⟩
  · rcases next.threads owned with same | started
    · omega
    · rw [started, List.length_append, List.length_singleton] at bounded
      obtain rfl : machine.threads.length = number := by omega
      rw [started, List.getElem?_concat_length] at found
      exact .inr ⟨rfl, (Option.some.inj found).symm⟩

/-- A number without a thread evaluates nothing. -/
theorem Step.evaluations_eq_nil (next : Step depth machine event after)
    (beyond : machine.threads.length ≤ number) : event.evaluations number = [] := by
  cases next with
  | evaluated found =>
      have bounded := (List.getElem?_eq_some_iff.mp found).1
      exact if_neg (Nat.ne_of_lt (Nat.lt_of_lt_of_le bounded beyond))
  | called | returned | received | took | disconnected | sent | undelivered => rfl

/-- The client never goes back to queues that it had before. -/
theorem Step.ends_mono (owned : machine.Owned) (next : Step depth machine event after) :
    machine.input ≤ after.input ∧ machine.output ≤ after.output := by
  cases next with
  | called idle call =>
      have shift := owned.shift_call call
      exact ⟨shift.input, shift.output⟩
  | @returned number restarts =>
      have shift := owned.shift_resume restarts
      exact ⟨shift.input, shift.output⟩
  | received | took | disconnected | evaluated | sent | undelivered =>
      exact ⟨Nat.le_refl _, Nat.le_refl _⟩

/-- Taking a message removes it from the queue of the thread that takes it. -/
theorem Owned.items_took (owned : machine.Owned) {stepping : Nat} {stepped : Thread}
    {message : String} {rest : Mailbox String}
    (steppedFound : machine.threads[stepping]? = some stepped)
    (oldest : (machine.inputs.contents stepped.input).pop? = some (message, rest))
    (found : machine.threads[number]? = some thread) :
    (Event.took stepping message).taken number ++
        ((machine.inputs.write stepped.input rest).contents thread.input).items =
      (machine.inputs.contents thread.input).items := by
  by_cases same : stepping = number
  · subst same
    obtain rfl := Option.some.inj (found.symm.trans steppedFound)
    rw [Queues.contents_write_self, Event.taken, if_pos rfl, Mailbox.eq_of_pop? oldest]
    rfl
  · have elsewhere : thread.input ≠ stepped.input := fun shared =>
      same (owned.eq_of_input_eq steppedFound found shared.symm)
    rw [Event.taken, if_neg same, List.nil_append]
    exact congrArg Mailbox.items (if_neg elsewhere)

/-- Nothing is added to a queue that the client has moved on from, and what goes is taken
by the thread that reads from it. -/
theorem Step.backlog (owned : machine.Owned) (next : Step depth machine event after)
    (found : machine.threads[number]? = some thread) (older : thread.input < machine.input) :
    event.taken number ++ (after.inputs.contents thread.input).items =
      (machine.inputs.contents thread.input).items := by
  cases next with
  | called idle call => exact congrArg Mailbox.items ((owned.shift_call call).older _ older)
  | returned => exact congrArg Mailbox.items ((owned.shift_resume _).older _ older)
  | took steppedFound _ oldest => exact owned.items_took steppedFound oldest found
  | received | disconnected | evaluated | sent | undelivered => rfl

/-- The programs that a thread takes and those that wait for it are at most the ones that
waited for it before and those that were submitted. -/
theorem Step.programs (owned : machine.Owned) (next : Step depth machine event after)
    (found : machine.threads[number]? = some thread) :
    ((event.taken number).filter isProgram ++ after.programsIn thread.input).Sublist
      (machine.programsIn thread.input ++ event.submissions) := by
  have shifted : ∀ submitted : List String, machine.Shift after (submitted.filter isProgram) →
      (after.programsIn thread.input).Sublist (machine.programsIn thread.input ++ submitted) := by
    intro submitted shift
    rcases Nat.lt_or_eq_of_le (owned.ends_le found).1 with older | own
    · rw [programsIn, shift.older _ older]
      exact List.sublist_append_left _ _
    · rw [own]
      exact shift.own.trans (List.filter_sublist.append_left _)
  cases next with
  | called idle call => exact shifted _ (owned.shift_call call)
  | returned => exact shifted [] (owned.shift_resume _)
  | took steppedFound _ oldest =>
      have items := owned.items_took steppedFound oldest found
      have same := congrArg (List.filter isProgram) items
      rw [List.filter_append] at same
      exact (List.append_nil _).symm ▸ same ▸ List.Sublist.refl _
  | received | disconnected | evaluated | sent | undelivered =>
      exact List.sublist_append_left _ _

/-- The programs that wait in the client's queue are at most the ones that waited there
before and those that were submitted. -/
theorem Step.inbox (owned : machine.Owned) (next : Step depth machine event after) :
    (after.programsIn after.input).Sublist
      (machine.programsIn machine.input ++ event.submissions) := by
  cases next with
  | called idle call =>
      exact (owned.shift_call call).inbox.trans (List.filter_sublist.append_left _)
  | returned => exact (owned.shift_resume _).inbox
  | @took stepping stepped session message rest steppedFound receiving oldest =>
      refine List.Sublist.trans ?_ (List.sublist_append_left _ _)
      refine List.Sublist.filter _ ?_
      show ((machine.inputs.write stepped.input rest).contents machine.input).items.Sublist _
      by_cases own : machine.input = stepped.input
      · rw [own, Queues.contents_write_self, Mailbox.eq_of_pop? oldest]
        exact List.sublist_cons_self _ _
      · have kept : (machine.inputs.write stepped.input rest).contents machine.input =
            machine.inputs.contents machine.input := if_neg own
        exact kept ▸ List.Sublist.refl _
  | received | disconnected | evaluated | sent | undelivered =>
      exact List.sublist_append_left _ _

end Machine

end PlotLisp
