import PlotLisp.CommandLine
import PlotLisp.Proofs.Whitespace

/-!
# The conversation that a prompt holds

Here the prompt keeps a session, or none, and no kernel: the lines decide what becomes of
the session, and each program is answered in it at once. The prompt on top of a kernel
writes the same. Between two lines its kernel holds nothing but the session, so no message
and no envelope is left over for a later line.
-/

namespace PlotLisp

namespace Transcript

/-- Nothing written behind a transcript leaves it as it is. -/
@[simp] theorem append_empty (written : Transcript) : written ++ empty = written := by
  obtain ⟨output, errors⟩ := written
  exact congrArg₂ mk String.append_empty String.append_empty

/-- Nothing written before a transcript leaves it as it is. -/
@[simp] theorem empty_append (written : Transcript) : empty ++ written = written := by
  obtain ⟨output, errors⟩ := written
  exact congrArg₂ mk String.empty_append String.empty_append

/-- What is written in three parts does not depend on how they are grouped. -/
theorem append_assoc (first second third : Transcript) :
    first ++ second ++ third = first ++ (second ++ third) :=
  congrArg₂ mk String.append_assoc String.append_assoc

end Transcript

/-! ## What a line asks for -/

/-- A text spells a command if and only if it is the text of the command. -/
theorem Command.ofText?_eq_some_iff {text : String} {command : Command} :
    Command.ofText? text = some command ↔ command.text = text := by
  constructor
  · intro found
    simpa using List.find?_some found
  · rintro rfl
    cases command <;> rfl

/-- What a line asks of the prompt. -/
inductive Wish where
  | nothing
  | obedience (command : Command)
  | answer (program : String)
  deriving DecidableEq

namespace Wish

/-- A line is empty, a command or a program, whatever space is around it. -/
def ofLine (line : String) : Wish :=
  let line := Whitespace.trim line
  if line.isEmpty then nothing
  else
    match Command.ofText? line with
    | some command => obedience command
    | none => answer line

/-- A program that a line asks to be answered ends no worker. -/
theorem not_sentinel_of_answer {line program : String} (wish : ofLine line = answer program) :
    isSentinel program = false := by
  simp only [ofLine] at wish
  split at wish
  case isTrue => cases wish
  case isFalse =>
    split at wish
    case h_1 => cases wish
    case h_2 unknown =>
      obtain rfl := Wish.answer.inj wish
      rw [isSentinel, Whitespace.trim_trim, unknown]

/-- A line asks for nothing if and only if all of it is white space. -/
theorem ofLine_eq_nothing_iff {line : String} :
    ofLine line = nothing ↔ Whitespace.IsTrimmed line.toList [] := by
  rw [← String.toList_empty, ← Whitespace.trim_eq_iff, ofLine]
  split
  case isTrue empty => simpa using String.isEmpty_iff.mp empty
  case isFalse nonempty =>
    refine iff_of_false ?_ fun trimmed => nonempty (String.isEmpty_iff.mpr trimmed)
    split <;> simp

/-- A line asks for obedience to a command if and only if it is the text of the command with
white space around it. -/
theorem ofLine_eq_obedience_iff {line : String} {command : Command} :
    ofLine line = obedience command ↔ Whitespace.IsTrimmed line.toList command.text.toList := by
  rw [← Whitespace.trim_eq_iff, eq_comm (b := command.text), ← Command.ofText?_eq_some_iff, ofLine]
  split
  case isTrue empty =>
    rw [String.isEmpty_iff.mp empty]
    exact iff_of_false (by simp) (by cases command <;> decide)
  case isFalse nonempty =>
    split
    case h_1 known => simp [known]
    case h_2 unknown => simp [unknown]

end Wish

/-! ## One session and no kernel -/

namespace Conversation

/-- What a line leads to: the session that is kept after it and what was written, or the
end. -/
inductive Reply where
  | next (session : Option Session) (written : Transcript)
  | leave

/-- Obeys a command. Only a session that does not exist is started. -/
def obey (session : Option Session) : Command → Reply
  | .start => .next (some (session.getD .fresh)) .empty
  | .stop => .next none .empty
  | .reset => .next (some .fresh) .empty
  | .exit => .leave

/-- Responds to one line. There is no reply when the answer to its program does not come. -/
def respond (depth : Nat) (session : Option Session) (line : String) : Option Reply :=
  match Wish.ofLine line with
  | .nothing => some (.next session .empty)
  | .obedience command => some (obey session command)
  | .answer program =>
      match session with
      | none => some (.next none (.errorLine Prompt.notRunningMessage))
      | some session =>
          (session.answer depth program).map fun (envelope, after) =>
            .next (some after) (Prompt.showEnvelope envelope)

/-- The replies to lines, each with the invitation that follows it. The conversation ends
after the last line, in front of the first one that is no text, or with the command to
leave, which no invitation follows. -/
def replies (depth : Nat) (session : Option Session) : List (Option String) → Option Transcript
  | [] | none :: _ => some .empty
  | some line :: rest => do
      match ← respond depth session line with
      | .leave => return .empty
      | .next session written =>
          return written ++ (Prompt.invitation ++ (← replies depth session rest))

/-- The fresh session in which the definitions were evaluated, and what is shown of them:
an error only. -/
def opening (depth : Nat) : Option String → Option (Session × Transcript)
  | none => some (.fresh, .empty)
  | some definitions =>
      (Session.fresh.answer depth definitions).map fun (envelope, after) =>
        (after, if envelope.isError then Prompt.showEnvelope envelope else .empty)

/-- All that is written. -/
def transcript (depth : Nat) (definitions : Option String) (lines : List (Option String)) :
    Option Transcript := do
  let (session, written) ← opening depth definitions
  return written ++ (Prompt.invitation ++ (← replies depth (some session) lines))

variable {depth : Nat} {session : Option Session}

/-- The replies to the lines behind one that was responded to. -/
theorem replies_cons {line : String} {rest : List (Option String)} {written : Transcript}
    (replied : replies depth session (some line :: rest) = some written) :
    (respond depth session line = some .leave ∧ written = .empty) ∨
      ∃ after shown others, respond depth session line = some (.next after shown) ∧
        replies depth after rest = some others ∧
        written = shown ++ (Prompt.invitation ++ others) := by
  rw [replies] at replied
  cases responded : respond depth session line with
  | none =>
      rw [responded] at replied
      cases replied
  | some reply =>
      rw [responded] at replied
      cases reply with
      | leave =>
          have nothing : some Transcript.empty = some written := replied
          exact .inl ⟨rfl, (Option.some.inj nothing).symm⟩
      | next after shown =>
          rw [Option.bind_eq_bind, Option.bind_some] at replied
          obtain ⟨others, rested, same⟩ := Option.bind_eq_some_iff.mp replied
          cases same
          exact .inr ⟨after, shown, others, rfl, rested, rfl⟩

section Inversion

/-! What was written in reply to lines, by what the first of them asks for. -/

variable {line : String} {rest : List (Option String)} {written : Transcript}

/-- An empty line is only followed by the invitation. -/
theorem replies_of_nothing (wish : Wish.ofLine line = .nothing)
    (replied : replies depth session (some line :: rest) = some written) :
    ∃ others, replies depth session rest = some others ∧ written = Prompt.invitation ++ others := by
  rcases replies_cons replied with ⟨responded, -⟩ | ⟨kept, shown, others, responded, rested, rfl⟩
  all_goals
    rw [respond, wish] at responded
    cases responded
  exact ⟨others, rested, Transcript.empty_append _⟩

/-- A command to start, stop or reset writes nothing by itself, and the conversation goes on with
the session that is kept. -/
theorem replies_of_obedience {command : Command} {kept : Option Session}
    (wish : Wish.ofLine line = .obedience command)
    (obeyed : obey session command = .next kept .empty)
    (replied : replies depth session (some line :: rest) = some written) :
    ∃ others, replies depth kept rest = some others ∧ written = Prompt.invitation ++ others := by
  rcases replies_cons replied with ⟨responded, -⟩ | ⟨other, shown, others, responded, rested, rfl⟩
  all_goals
    simp only [respond, wish, obeyed] at responded
    cases responded
  exact ⟨others, rested, Transcript.empty_append _⟩

/-- Nothing is written after the command to leave, and the lines behind it are not read. -/
theorem replies_of_leave {command : Command} (wish : Wish.ofLine line = .obedience command)
    (leaves : obey session command = .leave)
    (replied : replies depth session (some line :: rest) = some written) : written = .empty := by
  rcases replies_cons replied with ⟨-, same⟩ | ⟨other, shown, others, responded, -⟩
  · exact same
  · simp only [respond, wish, leaves] at responded
    cases responded

/-- A program is answered in the session that is kept, and later lines find the
session after it. -/
theorem replies_of_answer {program : String} {session : Session}
    (wish : Wish.ofLine line = .answer program)
    (replied : replies depth (some session) (some line :: rest) = some written) :
    ∃ envelope last others, session.answer depth program = some (envelope, last) ∧
      replies depth (some last) rest = some others ∧
      written = Prompt.showEnvelope envelope ++ (Prompt.invitation ++ others) := by
  rcases replies_cons replied with ⟨responded, -⟩ | ⟨kept, shown, others, responded, rested, rfl⟩
  all_goals
    rw [respond, wish] at responded
    obtain ⟨⟨envelope, last⟩, answered, same⟩ := Option.map_eq_some_iff.mp responded
    cases same
  exact ⟨envelope, last, others, answered, rested, rfl⟩

/-- Without a session a program is refused, and it changes nothing for later lines. -/
theorem replies_of_refusal {program : String} (wish : Wish.ofLine line = .answer program)
    (replied : replies depth none (some line :: rest) = some written) :
    ∃ others, replies depth none rest = some others ∧
      written = .errorLine Prompt.notRunningMessage ++ (Prompt.invitation ++ others) := by
  rcases replies_cons replied with ⟨responded, -⟩ | ⟨kept, shown, others, responded, rested, rfl⟩
  all_goals
    rw [respond, wish] at responded
    cases responded
  exact ⟨others, rested, rfl⟩

end Inversion

/-- Nothing is written in reply to lines that there are not. -/
theorem replies_of_exhausted {lines : List (Option String)} {written : Transcript}
    (exhausted : ∀ line rest, lines ≠ some line :: rest)
    (replied : replies depth session lines = some written) : written = .empty := by
  match lines with
  | [] | none :: _ =>
      rw [replies] at replied
      exact (Option.some.inj replied).symm
  | some line :: rest => exact absurd rfl (exhausted line rest)

/-- Without definitions only the replies follow. -/
theorem transcript_none {lines : List (Option String)} {total : Transcript}
    (written : transcript depth none lines = some total) :
    ∃ rest, replies depth (some .fresh) lines = some rest ∧
      total = Prompt.invitation ++ rest := by
  obtain ⟨rest, replied, same⟩ := Option.bind_eq_some_iff.mp written
  cases same
  exact ⟨rest, replied, Transcript.empty_append _⟩

/-- What follows the definitions. -/
theorem transcript_some {text : String} {lines : List (Option String)} {total : Transcript}
    (written : transcript depth (some text) lines = some total) :
    ∃ envelope after rest, Session.fresh.answer depth text = some (envelope, after) ∧
      replies depth (some after) lines = some rest ∧
      total = (if envelope.isError then Prompt.showEnvelope envelope else .empty) ++
        (Prompt.invitation ++ rest) := by
  obtain ⟨⟨after, shown⟩, opened, rested⟩ := Option.bind_eq_some_iff.mp written
  obtain ⟨rest, replied, same⟩ := Option.bind_eq_some_iff.mp rested
  obtain ⟨⟨envelope, session⟩, answered, opening⟩ := Option.map_eq_some_iff.mp opened
  cases same
  cases opening
  exact ⟨envelope, _, rest, answered, replied, rfl⟩

end Conversation

/-! ## A kernel that holds nothing but a session -/

namespace Kernel

variable {depth : Nat}

/-- Nothing waits on either side of the worker, which has this session. -/
def holding (session : Option Session) : Kernel :=
  ⟨.empty, .empty, session.map (⟨·, false⟩)⟩

/-- A kernel that holds a session is running, and one without is not. -/
@[simp] theorem isRunning_holding (session : Option Session) :
    (holding session).isRunning = session.isSome := by
  cases session <;> rfl

/-- Starting leaves a session alone and makes a fresh one where there is none. -/
theorem start_holding (session : Option Session) :
    (holding session).start depth = some (holding (some (session.getD .fresh))) := by
  cases session <;> rfl

/-- A new kernel that is started holds a fresh session. -/
theorem start_new : new.start depth = some (holding (some .fresh)) :=
  start_holding none

/-- The worker has nothing to answer before its end. -/
theorem stop_holding (session : Option Session) :
    (holding session).stop depth = some (holding none) := by
  cases session <;> rfl

/-- Resetting makes the session a fresh one, whether there was one or not. -/
theorem reset_holding (session : Option Session) :
    (holding session).reset depth = some (holding (some .fresh)) := by
  rw [reset, stop_holding, Option.bind_eq_bind, Option.bind_some]
  exact start_holding none

/-- The worker takes a message at once. -/
theorem submit_holding (session : Session) (message : String) :
    (holding (some session)).submit depth message =
      (answerAll depth session [message]).bind fun (worker, envelopes, waiting) =>
        some ⟨⟨waiting⟩, ⟨envelopes⟩, some worker⟩ :=
  rfl

/-- A program is answered by one envelope, and nothing is left in the inbox. -/
theorem submit_holding_of_program {message : String} (ordinary : isSentinel message = false)
    (session : Session) :
    (holding (some session)).submit depth message =
      (session.answer depth message).map fun (envelope, after) =>
        ⟨.empty, ⟨[envelope]⟩, some ⟨after, false⟩⟩ := by
  have answered : answerAll depth session [message] =
      (session.answer depth message).map fun (envelope, after) =>
        (⟨after, false⟩, [envelope], []) := by
    rw [answerAll, if_neg (by simp [ordinary])]
    cases session.answer depth message <;> rfl
  rw [submit_holding, answered]
  cases session.answer depth message <;> rfl

/-- A sentinel ends the worker and is not answered. -/
theorem submit_holding_of_sentinel {message : String} (sentinel : isSentinel message = true)
    (session : Session) :
    (holding (some session)).submit depth message =
      some ⟨.empty, .empty, some ⟨session, true⟩⟩ := by
  have answered : answerAll depth session [message] = some (⟨session, true⟩, [], []) := by
    rw [answerAll, if_pos sentinel]
  rw [submit_holding, answered]
  rfl

end Kernel

/-! ## The prompt on top of a kernel -/

namespace Prompt

variable {depth : Nat}

/-- The envelope that the wait ends with is the answer to the program. -/
theorem evaluate_holding {program : String} (ordinary : isSentinel program = false)
    (session : Session) :
    evaluate depth (.holding (some session)) program =
      (session.answer depth program).map fun (envelope, after) =>
        (some envelope, .holding (some after)) := by
  rw [evaluate, Kernel.submit_holding_of_program ordinary]
  cases session.answer depth program <;> rfl

/-- The wait for the answer to a sentinel has no end. -/
theorem evaluate_holding_of_sentinel {program : String} (sentinel : isSentinel program = true)
    (session : Session) : evaluate depth (.holding (some session)) program = none := by
  rw [evaluate, Kernel.submit_holding_of_sentinel sentinel]
  rfl

/-- The prompt's reply where the kernel holds what the conversation keeps. -/
def Reply.ofConversation : Conversation.Reply → Reply
  | .next session written => .next (.holding session) written
  | .leave => .leave

/-- Obeying on top of a kernel that holds nothing but a session is obeying in the conversation. -/
theorem obey_holding (session : Option Session) (command : Command) :
    obey depth (.holding session) command =
      some (.ofConversation (Conversation.obey session command)) := by
  cases command with
  | start => rw [obey, Kernel.start_holding]; rfl
  | stop => rw [obey, Kernel.stop_holding]; rfl
  | reset => rw [obey, Kernel.reset_holding]; rfl
  | exit => rfl

/-- The prompt does what the line asks for. -/
theorem respond_eq (kernel : Kernel) (line : String) :
    respond depth kernel line =
      match Wish.ofLine line with
      | .nothing => some (.next kernel .empty)
      | .obedience command => obey depth kernel command
      | .answer program =>
          if kernel.isRunning then do
            let (envelope, kernel) ← evaluate depth kernel program
            return .next kernel
              ((envelope.map showEnvelope).getD (.errorLine interruptedMessage))
          else some (.next kernel (.errorLine notRunningMessage)) := by
  simp only [respond, Wish.ofLine]
  split
  case isTrue => rfl
  case isFalse => cases Command.ofText? (Whitespace.trim line) <;> rfl

/-- Responding on top of a kernel that holds nothing but a session is responding in the
conversation. -/
theorem respond_holding (session : Option Session) (line : String) :
    respond depth (.holding session) line =
      (Conversation.respond depth session line).map .ofConversation := by
  rw [respond_eq, Conversation.respond]
  cases wish : Wish.ofLine line with
  | nothing => rfl
  | obedience command => exact obey_holding session command
  | answer program =>
      cases session with
      | none => rfl
      | some session =>
          simp only [Kernel.isRunning_holding, Option.isSome_some, if_true,
            evaluate_holding (Wish.not_sentinel_of_answer wish)]
          cases session.answer depth program <;> rfl

/-- Line by line, the kernel holds what the conversation keeps. -/
theorem converse_holding (session : Option Session) (lines : List (Option String)) :
    converse depth (.holding session) lines =
      (Conversation.replies depth session lines).map (invitation ++ ·) := by
  induction lines generalizing session with
  | nil => simp [converse, Conversation.replies]
  | cons first rest inductionHypothesis =>
      cases first with
      | none => simp [converse, Conversation.replies]
      | some line =>
          rw [converse, Conversation.replies, respond_holding]
          cases Conversation.respond depth session line with
          | none => rfl
          | some reply =>
              cases reply with
              | leave => simp [Reply.ofConversation]
              | next after written =>
                  simp only [Option.map_some, Reply.ofConversation, Option.bind_eq_bind,
                    Option.bind_some, inductionHypothesis after]
                  cases Conversation.replies depth after rest with
                  | none => rfl
                  | some others => simp [Transcript.append_assoc]

/-- The kernel that the prompt starts with holds the session with the definitions. -/
theorem launch_eq {definitions : Option String}
    (ordinary : ∀ text, definitions = some text → isSentinel text = false) :
    launch depth definitions =
      (Conversation.opening depth definitions).map fun (session, written) =>
        (.holding (some session), written) := by
  rw [launch, Kernel.start_new]
  cases definitions with
  | none => rfl
  | some text =>
      simp only [Option.bind_eq_bind, Option.bind_some, Conversation.opening,
        evaluate_holding (ordinary text rfl)]
      cases Session.fresh.answer depth text <;> rfl

/-- With a sentinel in place of definitions the prompt never comes to its first
invitation. -/
theorem launch_of_sentinel {text : String} (sentinel : isSentinel text = true) :
    launch depth (some text) = none := by
  rw [launch, Kernel.start_new]
  simp only [Option.bind_eq_bind, Option.bind_some, evaluate_holding_of_sentinel sentinel,
    Option.bind_none]

end Prompt

/-- The prompt writes what the conversation does. -/
theorem CommandLine.runPrompt_eq {depth : Nat} {files : Files} {file definitions : Option String}
    (input : ByteArray) (read : file.mapM (readFile files) = .ok definitions)
    (ordinary : ∀ text, definitions = some text → isSentinel text = false) :
    runPrompt depth files file input =
      (Conversation.transcript depth definitions (lines input)).map (.mk true) := by
  rw [runPrompt, read, Conversation.transcript]
  simp only [Prompt.launch_eq ordinary, Option.bind_eq_bind]
  cases Conversation.opening depth definitions with
  | none => rfl
  | some opened =>
      obtain ⟨session, written⟩ := opened
      simp only [Option.map_some, Option.bind_some, Prompt.converse_holding]
      cases Conversation.replies depth (some session) (lines input) <;> rfl

end PlotLisp
