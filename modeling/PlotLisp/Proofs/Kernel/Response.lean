import PlotLisp.Proofs.Kernel.View

/-!
# What a client without interrupts waits for

A client that finds nothing but a session in its view and makes one call, or submits one
program, needs to do no more: the thread takes the view to the next one that holds a
session, with the answer to the program if there was one. Only after a sentinel that the
client submits itself is there nothing to wait for.
-/

namespace PlotLisp

/-- The command to stop ends a worker. -/
theorem isSentinel_stop : isSentinel Command.stop.text = true := by
  decide

namespace View

variable {depth : Nat} {view after : View} {session : Option Session}

/-- Nothing waits, and the thread has this session, if there is one. -/
def holding (session : Option Session) : View :=
  ⟨none, session.map .receiving, [], []⟩

/-- A thread without messages waits for the client. -/
theorem not_step_holding : ¬ Step depth (holding session) after := by
  intro next
  cases session with
  | none => exact next.phase_ne_none rfl
  | some session =>
      obtain ⟨message, rest, waiting, -⟩ := next.of_receiving rfl
      cases waiting

/-! ## Calls that settle -/

/-- What is held once a thread that was told to end has ended. -/
def successor (restarts : Bool) : Option Session :=
  if restarts then some .fresh else none

/-- The view leads by itself to one that holds a session. -/
inductive Settles : Option Session → View → Prop where
  | settled (session : Option Session) : Settles session (holding session)
  | told (session : Session) (restarts : Bool) :
      Settles (successor restarts)
        ⟨some restarts, some (.receiving session), [Command.stop.text], []⟩
  | ended (session : Session) (restarts : Bool) :
      Settles (successor restarts) ⟨some restarts, some (.ended session), [], []⟩

/-- Starting settles at once: a thread that is there stays, and a new one is fresh. -/
theorem settles_start (session : Option Session) :
    Settles (some (session.getD .fresh)) (holding session).start := by
  cases session <;> exact .settled _

/-- Stopping and resetting settle by themselves, with no session and with a fresh one. -/
theorem settles_leave (session : Option Session) (restarts : Bool) :
    Settles (successor restarts) ((holding session).leave restarts) := by
  cases session with
  | none => cases restarts <;> exact .settled _
  | some session => exact .told session restarts

/-- Each step on the way leads on to the same session. -/
theorem Settles.step (settles : Settles session view) (next : Step depth view after) :
    Settles session after := by
  cases settles with
  | settled => exact absurd next not_step_holding
  | told told restarts =>
      obtain ⟨message, rest, waiting, rfl⟩ := next.of_receiving rfl
      cases waiting
      rw [if_pos isSentinel_stop]
      exact .ended told restarts
  | ended ended restarts =>
      obtain ⟨wish, waits, rfl⟩ := next.of_ended rfl
      obtain rfl : restarts = wish := Option.some.inj waits
      cases restarts <;> exact .settled _

/-- A view that has not settled yet goes on. -/
theorem Settles.cases (settles : Settles session view) :
    view = holding session ∨ view.waits ≠ none ∧ ∃ after, Step depth view after := by
  cases settles with
  | settled => exact .inl rfl
  | told => exact .inr ⟨by simp, _, .took rfl rfl⟩
  | ended => exact .inr ⟨by simp, _, .returned rfl rfl⟩

/-! ## Programs that are answered -/

/-- The view leads by itself to one envelope, the answer to a program, and the session
after it. -/
inductive Answers (depth : Nat) (envelope : Envelope) (after : Session) : View → Prop where
  | submitted {session message} (ordinary : isSentinel message = false)
      (answered : session.answer depth message = some (envelope, after)) :
      Answers depth envelope after ⟨none, some (.receiving session), [message], []⟩
  | taken {session message} (ordinary : isSentinel message = false)
      (answered : session.answer depth message = some (envelope, after)) :
      Answers depth envelope after ⟨none, some (.evaluating session message), [], []⟩
  | evaluated (message : String) :
      Answers depth envelope after ⟨none, some (.sending message envelope after), [], []⟩
  | sent : Answers depth envelope after ⟨none, some (.receiving after), [], [envelope]⟩

section Answers

variable {envelope : Envelope} {last : Session} (answers : Answers depth envelope last view)

include answers

/-- Each step on the way leads on to the same answer. -/
theorem Answers.step (next : Step depth view after) : Answers depth envelope last after := by
  cases answers with
  | submitted ordinary answered =>
      obtain ⟨message, rest, waiting, rfl⟩ := next.of_receiving rfl
      cases waiting
      rw [if_neg (by simp [ordinary])]
      exact .taken ordinary answered
  | taken ordinary answered =>
      obtain ⟨other, session, again, rfl⟩ := next.of_evaluating rfl
      obtain ⟨rfl, rfl⟩ := Prod.mk.inj (Option.some.inj (answered.symm.trans again))
      exact .evaluated _
  | evaluated =>
      obtain rfl := next.of_sending rfl
      exact .sent
  | sent =>
      obtain ⟨message, rest, waiting, -⟩ := next.of_receiving rfl
      cases waiting

/-- Where the answer has not come yet, the thread is at work on it. -/
theorem Answers.cases :
    view = { holding (some last) with outbox := [envelope] } ∨
      view.outbox = [] ∧ ∃ after, Step depth view after := by
  cases answers with
  | submitted => exact .inr ⟨rfl, _, .took rfl rfl⟩
  | taken ordinary answered => exact .inr ⟨rfl, _, .evaluated rfl answered⟩
  | evaluated => exact .inr ⟨rfl, _, .sent rfl⟩
  | sent => exact .inl rfl

/-- While a program is answered the client waits for no thread. -/
theorem Answers.waits : view.waits = none := by
  cases answers <;> rfl

/-- What is received is the answer, and then nothing but the session is held. -/
theorem Answers.received {other : Envelope} {rest : List Envelope}
    (oldest : view.outbox = other :: rest) :
    other = envelope ∧ ({ view with outbox := rest } : View) = holding (some last) := by
  rcases answers.cases with rfl | ⟨empty, -⟩
  · cases oldest
    exact ⟨rfl, rfl⟩
  · rw [empty] at oldest
    cases oldest

end Answers

/-! ## Sentinels that are submitted -/

/-- A sentinel that was submitted ends the thread, which answers nothing. -/
inductive Swallows (text : String) : View → Prop where
  | waiting : Swallows text ⟨none, some (.receiving .fresh), [text], []⟩
  | swallowed : Swallows text ⟨none, some (.ended .fresh), [], []⟩

/-- Each step on the way leads on to the end of the thread. -/
theorem Swallows.step {text : String} (swallows : Swallows text view)
    (sentinel : isSentinel text = true) (next : Step depth view after) : Swallows text after := by
  cases swallows with
  | waiting =>
      obtain ⟨message, rest, waiting, rfl⟩ := next.of_receiving rfl
      cases waiting
      rw [if_pos sentinel]
      exact .swallowed
  | swallowed =>
      obtain ⟨restarts, waits, -⟩ := next.of_ended rfl
      cases waits

/-- A sentinel leaves no envelope behind. -/
theorem Swallows.outbox {text : String} (swallows : Swallows text view) : view.outbox = [] := by
  cases swallows <;> rfl

end View

namespace Machine

variable {depth : Nat} {machine : Machine}

/-- A machine that holds a session, and nothing else, answers for as long as there is one. -/
theorem isRunning_of_holding {session : Option Session}
    (held : machine.view = .holding session) : machine.isRunning = session.isSome := by
  rw [isRunning_eq (idle_of_waits (congrArg View.waits held)), held]
  cases session <;> rfl

/-- A program that is submitted where nothing but a session is held is answered. -/
theorem answers_of_submitted {after : Machine} {session last : Session} {program : String}
    {envelope : Envelope} (exclusive : machine.Exclusive)
    (held : machine.view = .holding (some session))
    (next : Step depth machine (.called (.submit program)) after)
    (ordinary : isSentinel program = false)
    (answered : session.answer depth program = some (envelope, last)) :
    after.view.Answers depth envelope last := by
  rw [view_called exclusive next (by simp), held]
  exact .submitted ordinary answered

/-- Where nothing but a session is held, the call to stop settles without any. -/
theorem settles_of_stopped {after : Machine} {session : Option Session}
    (exclusive : machine.Exclusive) (held : machine.view = .holding session)
    (next : Step depth machine (.called .stop) after) : after.view.Settles none := by
  rw [view_called exclusive next (by simp), held]
  exact View.settles_leave session false

/-- The sequential kernel that has all that is in hand comes to the answer. -/
theorem proceed_pending_of_answers {envelope : Envelope} {last : Session}
    (answers : machine.view.Answers depth envelope last) :
    (machine.pending machine.outbox.items).proceed depth =
      ⟨.empty, ⟨[envelope]⟩, some ⟨last, false⟩⟩ := by
  generalize same : machine.view = view at answers
  have seen {phase} (current : view.phase = some phase) :
      machine.pending machine.outbox.items = phase.pending ⟨view.inbox⟩ view.outbox := by
    subst same
    have engaged : machine.engagedPhase = some phase := current
    simp only [pending, engaged]
    rfl
  cases answers with
  | submitted ordinary answered | taken ordinary answered =>
      rw [seen rfl]
      exact Kernel.proceed_of_answer ordinary answered
  | evaluated | sent =>
      rw [seen rfl]
      rfl

end Machine

end PlotLisp
