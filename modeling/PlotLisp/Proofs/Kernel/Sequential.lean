import PlotLisp.Kernel.Basic

/-!
# The sequential kernel without a limit

`Kernel.settle` gives up when one of the answers does not come. Here the kernel stops
in front of such a message instead, with everything before it answered, so that every
call leads somewhere. Where the kernel settles, the two agree.
-/

namespace PlotLisp

/-- What a client asks of a kernel. -/
inductive Call where
  | start
  | stop
  | reset
  | interrupt
  | submit (message : String)
  deriving DecidableEq

namespace Kernel

variable {depth : Nat}

/-- Answers messages in order up to the first sentinel or the first message without an
answer: the worker afterwards, the envelopes, and the messages that remain. -/
def answerReady (depth : Nat) (session : Session) :
    List String → Worker × List Envelope × List String
  | [] => (⟨session, false⟩, [], [])
  | message :: rest =>
      if isSentinel message then (⟨session, true⟩, [], rest)
      else
        match session.answer depth message with
        | none => (⟨session, false⟩, [], message :: rest)
        | some (envelope, session) =>
            let (worker, envelopes, waiting) := answerReady depth session rest
            (worker, envelope :: envelopes, waiting)

/-- Lets the worker answer what it can. -/
def proceed (depth : Nat) (kernel : Kernel) : Kernel :=
  match kernel.worker with
  | some ⟨session, false⟩ =>
      let (worker, envelopes, waiting) := answerReady depth session kernel.inbox.items
      ⟨⟨waiting⟩, ⟨kernel.outbox.items ++ envelopes⟩, some worker⟩
  | _ => kernel

/-- The kernel with one more message in its inbox. -/
def queue (kernel : Kernel) (message : String) : Kernel :=
  { kernel with inbox := kernel.inbox.push message }

/-- The kernel without its worker. -/
def detach (kernel : Kernel) : Kernel :=
  { kernel with worker := none }

/-- The kernel with a fresh worker and without the sentinels that wait. -/
def recruit (kernel : Kernel) : Kernel :=
  { kernel with
    inbox := kernel.inbox.filter fun message => !isSentinel message
    worker := some ⟨.fresh, false⟩ }

/-- Attaches a fresh worker, which answers what it can. A worker that is attached
already stays. -/
def attach (depth : Nat) (kernel : Kernel) : Kernel :=
  match kernel.worker with
  | some _ => kernel
  | none => kernel.recruit.proceed depth

/-- Ends the worker after all it can answer, and detaches it. -/
def halt (depth : Nat) (kernel : Kernel) : Kernel :=
  match kernel.worker with
  | none => kernel
  | some _ => ((kernel.queue Command.stop.text).proceed depth).detach

/-- Attaches a worker after the end of the one before, if that is asked for. -/
def resume (depth : Nat) (kernel : Kernel) (restarts : Bool) : Kernel :=
  if restarts then kernel.attach depth else kernel

/-- What a call makes of the kernel. -/
def perform (depth : Nat) (kernel : Kernel) : Call → Kernel
  | .start => kernel.attach depth
  | .stop => (kernel.halt depth).resume depth false
  | .reset => (kernel.halt depth).resume depth true
  | .interrupt => kernel.interrupt
  | .submit message => (kernel.queue message).proceed depth

/-- What a sequence of calls makes of a new kernel. -/
def after (depth : Nat) (calls : List Call) : Kernel :=
  calls.foldl (perform depth) .new

/-- What a call makes of the kernel, if every answer comes. -/
def call (depth : Nat) (kernel : Kernel) : Call → Option Kernel
  | .start => kernel.start depth
  | .stop => kernel.stop depth
  | .reset => kernel.reset depth
  | .interrupt => some kernel.interrupt
  | .submit message => kernel.submit depth message

/-! ## Agreement with the kernel that settles -/

/-- Where all messages are answered, answering what is ready answers all of them. -/
theorem answerReady_of_answerAll {session : Session} {messages : List String}
    {result : Worker × List Envelope × List String}
    (answered : answerAll depth session messages = some result) :
    answerReady depth session messages = result := by
  induction messages generalizing session result with
  | nil =>
      cases answered
      rfl
  | cons message rest inductionHypothesis =>
      unfold answerAll at answered
      unfold answerReady
      split at answered
      case isTrue sentinel =>
        cases answered
        rw [if_pos sentinel]
      case isFalse ordinary =>
        rw [if_neg ordinary]
        simp only [Option.bind_eq_bind, Option.bind_eq_some_iff] at answered
        obtain ⟨⟨envelope, next⟩, first, ⟨worker, envelopes, waiting⟩, others, same⟩ := answered
        cases same
        rw [first]
        simp only [inductionHypothesis others]

/-- A kernel that settles proceeds to the same state. -/
theorem proceed_of_settle {kernel settled : Kernel}
    (ended : kernel.settle depth = some settled) : kernel.proceed depth = settled := by
  obtain ⟨inbox, outbox, _ | ⟨session, _ | _⟩⟩ := kernel
  case none => exact Option.some.inj ended
  case some.true => exact Option.some.inj ended
  case some.false =>
    obtain ⟨result, answered, same⟩ := Option.bind_eq_some_iff.mp ended
    cases same
    simp only [proceed, answerReady_of_answerAll answered]

/-- A start that settles attaches the same worker. -/
theorem attach_of_start {kernel started : Kernel}
    (ended : kernel.start depth = some started) : kernel.attach depth = started := by
  obtain ⟨inbox, outbox, _ | worker⟩ := kernel
  case none =>
    have settled : (recruit ⟨inbox, outbox, none⟩).settle depth = some started := ended
    exact proceed_of_settle settled
  case some => exact Option.some.inj ended

/-- A stop that settles halts in the same state. -/
theorem halt_of_stop {kernel stopped : Kernel}
    (ended : kernel.stop depth = some stopped) : kernel.halt depth = stopped := by
  obtain ⟨inbox, outbox, _ | worker⟩ := kernel
  case none => exact Option.some.inj ended
  case some =>
    obtain ⟨settled, submitted, same⟩ := Option.bind_eq_some_iff.mp ended
    cases same
    exact congrArg detach (proceed_of_settle submitted)

/-- A call that ends does what `perform` says. -/
theorem perform_of_call {kernel called : Kernel} {request : Call}
    (ended : kernel.call depth request = some called) :
    kernel.perform depth request = called := by
  cases request with
  | start => exact attach_of_start ended
  | stop => exact halt_of_stop ended
  | reset =>
      obtain ⟨stopped, first, second⟩ := Option.bind_eq_some_iff.mp ended
      rw [perform, halt_of_stop first]
      exact attach_of_start second
  | interrupt => exact Option.some.inj ended
  | submit message => exact proceed_of_settle ended

/-- So do calls one after the other. -/
theorem foldl_perform_of_foldlM_call {calls : List Call} {kernel final : Kernel}
    (ended : calls.foldlM (call depth) kernel = some final) :
    calls.foldl (perform depth) kernel = final := by
  induction calls generalizing kernel with
  | nil => exact Option.some.inj ended
  | cons request rest inductionHypothesis =>
      rw [List.foldlM_cons] at ended
      obtain ⟨next, first, others⟩ := Option.bind_eq_some_iff.mp ended
      rw [List.foldl_cons, perform_of_call first]
      exact inductionHypothesis others

/-! ## Answering in several turns -/

/-- A sentinel ends the worker and leaves everything behind it unread. -/
theorem answerReady_cons_of_sentinel {session : Session} {message : String}
    (sentinel : isSentinel message = true) (rest : List String) :
    answerReady depth session (message :: rest) = (⟨session, true⟩, [], rest) := by
  rw [answerReady, if_pos sentinel]

/-- A message with an answer contributes its envelope, and the rest is answered in the
session after it. -/
theorem answerReady_cons_of_answer {session next : Session} {message : String}
    {envelope : Envelope} (ordinary : isSentinel message = false)
    (answered : session.answer depth message = some (envelope, next)) (rest : List String) :
    answerReady depth session (message :: rest) =
      ((answerReady depth next rest).1, envelope :: (answerReady depth next rest).2.1,
        (answerReady depth next rest).2.2) := by
  rw [answerReady, if_neg (by simp [ordinary])]
  simp only [answered]

/-- A message without an answer stays where it is, with everything behind it. -/
theorem answerReady_cons_of_stuck {session : Session} {message : String}
    (ordinary : isSentinel message = false) (stuck : session.answer depth message = none)
    (rest : List String) :
    answerReady depth session (message :: rest) = (⟨session, false⟩, [], message :: rest) := by
  rw [answerReady, if_neg (by simp [ordinary])]
  simp only [stuck]

/-- Messages that come later are answered where the worker is then. -/
theorem answerReady_append (session : Session) (messages more : List String) :
    answerReady depth session (messages ++ more) =
      let (worker, envelopes, waiting) := answerReady depth session messages
      if worker.ended then (worker, envelopes, waiting ++ more)
      else
        let (last, others, remaining) := answerReady depth worker.session (waiting ++ more)
        (last, envelopes ++ others, remaining) := by
  induction messages generalizing session with
  | nil => rfl
  | cons message rest inductionHypothesis =>
      rw [List.cons_append]
      -- A sentinel ends the worker and a stuck message holds it up; either way the added messages
      -- wait.
      cases sentinel : isSentinel message with
      | true =>
          rw [answerReady_cons_of_sentinel sentinel, answerReady_cons_of_sentinel sentinel]
          rfl
      | false =>
          cases answered : session.answer depth message with
          | none =>
              rw [answerReady_cons_of_stuck sentinel answered,
                answerReady_cons_of_stuck sentinel answered]
              simp only [List.cons_append, answerReady_cons_of_stuck sentinel answered]
              rfl
          | some answer =>
              obtain ⟨envelope, next⟩ := answer
              rw [answerReady_cons_of_answer sentinel answered,
                answerReady_cons_of_answer sentinel answered, inductionHypothesis next]
              simp only
              split <;> rfl

/-- A kernel that has proceeded takes a message like one that has yet to. -/
theorem proceed_queue_proceed (kernel : Kernel) (message : String) :
    ((kernel.proceed depth).queue message).proceed depth =
      (kernel.queue message).proceed depth := by
  obtain ⟨inbox, outbox, _ | ⟨session, _ | _⟩⟩ := kernel
  case none => rfl
  case some.true => rfl
  case some.false =>
    have appended := @answerReady_append depth session inbox.items [message]
    simp only [proceed, queue, Mailbox.push, appended]
    obtain ⟨⟨reached, ended⟩, envelopes, waiting⟩ := answerReady depth session inbox.items
    cases ended with
    | true => rfl
    | false => simp

/-- Answering messages attaches no worker and detaches none. -/
theorem worker_proceed_ne_none {kernel : Kernel} (attached : kernel.worker ≠ none) :
    (kernel.proceed depth).worker ≠ none := by
  obtain ⟨inbox, outbox, _ | ⟨session, _ | _⟩⟩ := kernel
  case none => exact absurd rfl attached
  case some.true => exact attached
  case some.false => exact nofun

/-- A worker that is attached already stays. -/
theorem attach_of_worker {kernel : Kernel} (attached : kernel.worker ≠ none) :
    kernel.attach depth = kernel := by
  obtain ⟨inbox, outbox, _ | worker⟩ := kernel
  case none => exact absurd rfl attached
  case some => rfl

/-- Ending a worker that has proceeded ends it like one that has yet to. -/
theorem halt_proceed {kernel : Kernel} (attached : kernel.worker ≠ none) :
    (kernel.proceed depth).halt depth =
      ((kernel.queue Command.stop.text).proceed depth).detach := by
  rw [← proceed_queue_proceed]
  have remains : (kernel.proceed depth).worker ≠ none := worker_proceed_ne_none attached
  unfold halt
  split
  case h_1 detached => exact absurd detached remains
  case h_2 => rfl

/-- A sentinel that waits ends the worker. -/
theorem proceed_of_sentinel {session : Session} {message : String} {rest : List String}
    {outbox : Mailbox Envelope} (sentinel : isSentinel message = true) :
    (Kernel.mk ⟨message :: rest⟩ outbox (some ⟨session, false⟩)).proceed depth =
      ⟨⟨rest⟩, outbox, some ⟨session, true⟩⟩ := by
  simp only [proceed, answerReady_cons_of_sentinel sentinel, List.append_nil]

/-- A message that has an answer is answered. -/
theorem proceed_of_answer {session next : Session} {message : String} {rest : List String}
    {outbox : Mailbox Envelope} {envelope : Envelope} (ordinary : isSentinel message = false)
    (answered : session.answer depth message = some (envelope, next)) :
    (Kernel.mk ⟨message :: rest⟩ outbox (some ⟨session, false⟩)).proceed depth =
      (Kernel.mk ⟨rest⟩ (outbox.push envelope) (some ⟨next, false⟩)).proceed depth := by
  simp only [proceed, answerReady_cons_of_answer ordinary answered, Mailbox.push,
    List.append_assoc, List.singleton_append]

/-- Answering only adds envelopes. -/
theorem outbox_proceed (kernel : Kernel) :
    kernel.outbox.items <+: (kernel.proceed depth).outbox.items := by
  obtain ⟨inbox, outbox, _ | ⟨session, _ | _⟩⟩ := kernel
  case none => exact List.prefix_rfl
  case some.true => exact List.prefix_rfl
  case some.false => exact List.prefix_append _ _

/-- Attaching a worker only adds envelopes. -/
theorem outbox_attach (kernel : Kernel) :
    kernel.outbox.items <+: (kernel.attach depth).outbox.items := by
  obtain ⟨inbox, outbox, _ | worker⟩ := kernel
  case none => exact outbox_proceed (recruit ⟨inbox, outbox, none⟩)
  case some => exact List.prefix_rfl

/-- Going on after a worker's end only adds envelopes. -/
theorem outbox_resume (kernel : Kernel) (restarts : Bool) :
    kernel.outbox.items <+: (kernel.resume depth restarts).outbox.items := by
  cases restarts with
  | false => exact List.prefix_rfl
  | true => exact kernel.outbox_attach

end Kernel

end PlotLisp
