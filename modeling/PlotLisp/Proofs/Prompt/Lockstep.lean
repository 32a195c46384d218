import PlotLisp.Proofs.Kernel.Response
import PlotLisp.Proofs.Prompt.Dialogue

/-!
# Question and answer in step

At every moment of a dialogue it is known what is still to be written: the rest of the
conversation that keeps a session and no kernel. Before each line the machine holds that
session and nothing else; after a call it comes back to such a state by itself, and after
a program it comes to the one envelope that answers it.
-/

namespace PlotLisp

/-- A command other than to leave makes a call that settles as the command says. -/
theorem View.Settles.of_command {command : Command} {call : Call}
    (asked : command.call? = some call) (session : Option Session) :
    ∃ next, Conversation.obey session command = .next next .empty ∧
      Settles next ((holding session).call call) := by
  cases command with
  | start =>
      cases asked
      exact ⟨_, rfl, settles_start session⟩
  | stop =>
      cases asked
      exact ⟨_, rfl, settles_leave session false⟩
  | reset =>
      cases asked
      exact ⟨_, rfl, settles_leave session true⟩
  | exit => cases asked

namespace Dialogue

variable {depth count : Nat} {first dialogue after : Dialogue}
  {remaining total : Transcript}

/-- What is still to be written, by the stage, the view of the machine and the lines that
are not read yet. -/
def Expects (depth : Nat) (view : View) (lines : List (Option String))
    (remaining : Transcript) : Stage → Prop
  | .launching definitions =>
      (∀ text, definitions = some text → isSentinel text = false) ∧ view = .holding none ∧
        Conversation.transcript depth definitions lines = some remaining
  | .defining text =>
      isSentinel text = false ∧ view = .holding (some .fresh) ∧
        Conversation.transcript depth (some text) lines = some remaining
  | .awaitingDefinitions =>
      ∃ envelope session rest, view.Answers depth envelope session ∧
        Conversation.replies depth (some session) lines = some rest ∧
        remaining = (if envelope.isError then Prompt.showEnvelope envelope else .empty) ++
          (Prompt.invitation ++ rest)
  | .inviting =>
      ∃ session rest, view = .holding session ∧
        Conversation.replies depth session lines = some rest ∧
        remaining = Prompt.invitation ++ rest
  | .reading =>
      ∃ session, view = .holding session ∧
        Conversation.replies depth session lines = some remaining
  | .obeying =>
      ∃ session rest, view.Settles session ∧
        Conversation.replies depth session lines = some rest ∧
        remaining = Prompt.invitation ++ rest
  | .awaiting =>
      ∃ envelope session rest, view.Answers depth envelope session ∧
        Conversation.replies depth (some session) lines = some rest ∧
        remaining = Prompt.showEnvelope envelope ++ (Prompt.invitation ++ rest)
  | .closing => (∃ session, view.Settles session) ∧ remaining = .empty
  | .closed => remaining = .empty

/-- Steps of the machine alone write nothing and change nothing that is expected. -/
theorem Expects.worked {view later : View} {lines : List (Option String)} {stage : Stage}
    (expects : Expects depth view lines remaining stage) (next : View.Step depth view later) :
    Expects depth later lines remaining stage := by
  cases stage with
  | launching | defining =>
      obtain ⟨-, rfl, -⟩ := expects
      exact absurd next View.not_step_holding
  | inviting =>
      obtain ⟨session, rest, rfl, -⟩ := expects
      exact absurd next View.not_step_holding
  | reading =>
      obtain ⟨session, rfl, -⟩ := expects
      exact absurd next View.not_step_holding
  | awaitingDefinitions | awaiting =>
      obtain ⟨envelope, session, rest, answers, others⟩ := expects
      exact ⟨envelope, session, rest, answers.step next, others⟩
  | obeying =>
      obtain ⟨session, rest, settles, others⟩ := expects
      exact ⟨session, rest, settles.step next, others⟩
  | closing =>
      obtain ⟨⟨session, settles⟩, nothing⟩ := expects
      exact ⟨⟨session, settles.step next⟩, nothing⟩
  | closed => exact expects

/-- What a step writes is taken from what is still to be written. -/
theorem Step.expected (next : Step depth dialogue after)
    (exclusive : dialogue.machine.Exclusive)
    (expects : Expects depth dialogue.machine.view dialogue.lines remaining dialogue.stage) :
    ∃ left, after.written ++ left = dialogue.written ++ remaining ∧
      Expects depth after.machine.view after.lines left after.stage := by
  -- Steps that write nothing leave `remaining` as it is and only move to another stage; the
  -- others cut off its first part, which is what they write.
  cases next with
  | worked uncalled unreceived next =>
      exact ⟨remaining, rfl,
        expects.worked (Machine.view_step exclusive uncalled unreceived next)⟩
  | @launched definitions machine stage next =>
      rw [stage] at expects
      obtain ⟨ordinary, held, written⟩ := expects
      have started : machine.view = .holding (some .fresh) := by
        rw [Machine.view_called exclusive next (by simp), held]
        rfl
      refine ⟨remaining, rfl, ?_⟩
      cases definitions with
      | none =>
          obtain ⟨rest, replied, same⟩ := Conversation.transcript_none written
          exact ⟨some .fresh, rest, started, replied, same⟩
      | some text => exact ⟨ordinary text rfl, started, written⟩
  | @defined text machine stage next =>
      rw [stage] at expects
      obtain ⟨ordinary, held, written⟩ := expects
      obtain ⟨envelope, session, rest, answered, replied, same⟩ :=
        Conversation.transcript_some written
      have answers := Machine.answers_of_submitted exclusive held next ordinary answered
      exact ⟨remaining, rfl, envelope, session, rest, answers, replied, same⟩
  | informed stage next | answered stage next =>
      rw [stage] at expects
      obtain ⟨envelope, session, rest, answers, replied, rfl⟩ := expects
      obtain ⟨others, oldest, same⟩ := Machine.view_received next
      obtain ⟨rfl, held⟩ := answers.received oldest
      exact ⟨Prompt.invitation ++ rest, Transcript.append_assoc _ _ _, some session, rest,
        same.trans held, replied, rfl⟩
  | invited stage =>
      rw [stage] at expects
      obtain ⟨session, rest, held, replied, rfl⟩ := expects
      exact ⟨rest, Transcript.append_assoc _ _ _, session, held, replied⟩
  | passed stage read wish =>
      rw [stage, read] at expects
      obtain ⟨session, held, replied⟩ := expects
      obtain ⟨others, rested, same⟩ := Conversation.replies_of_nothing wish replied
      exact ⟨remaining, rfl, session, others, held, rested, same⟩
  | @obeyed line lines command call machine stage read wish asked next =>
      rw [stage, read] at expects
      obtain ⟨session, held, replied⟩ := expects
      obtain ⟨kept, obeyed, settles⟩ := View.Settles.of_command asked session
      rw [← held, ← Machine.view_called exclusive next (Command.call?_ne_interrupt asked)]
        at settles
      obtain ⟨others, rested, same⟩ := Conversation.replies_of_obedience wish obeyed replied
      exact ⟨remaining, rfl, kept, others, settles, rested, same⟩
  | resumed stage idle =>
      rw [stage] at expects
      obtain ⟨session, rest, settles, replied, same⟩ := expects
      rcases @View.Settles.cases depth _ _ settles with held | ⟨waits, -⟩
      · exact ⟨remaining, rfl, session, rest, held, replied, same⟩
      · exact absurd (Machine.waits_of_idle idle) waits
  | submitted stage read wish running next =>
      rw [stage, read] at expects
      obtain ⟨session, held, replied⟩ := expects
      rw [Machine.isRunning_of_holding held] at running
      obtain ⟨session, rfl⟩ := Option.isSome_iff_exists.mp running
      obtain ⟨envelope, last, others, answered, rested, same⟩ :=
        Conversation.replies_of_answer wish replied
      have answers := Machine.answers_of_submitted exclusive held next
        (Wish.not_sentinel_of_answer wish) answered
      exact ⟨remaining, rfl, envelope, last, others, answers, rested, same⟩
  | refused stage read wish stopped =>
      rw [stage, read] at expects
      obtain ⟨session, held, replied⟩ := expects
      rw [Machine.isRunning_of_holding held] at stopped
      obtain rfl : session = none := by simpa using stopped
      obtain ⟨others, rested, rfl⟩ := Conversation.replies_of_refusal wish replied
      exact ⟨Prompt.invitation ++ others, Transcript.append_assoc _ _ _, none, others, held,
        rested, rfl⟩
  | @left line lines command machine stage read wish asked next =>
      rw [stage, read] at expects
      obtain ⟨session, held, replied⟩ := expects
      have leaves : Conversation.obey session command = .leave := by
        cases command <;> first | rfl | cases asked
      exact ⟨remaining, rfl, ⟨none, Machine.settles_of_stopped exclusive held next⟩,
        Conversation.replies_of_leave wish leaves replied⟩
  | ended stage exhausted next =>
      rw [stage] at expects
      obtain ⟨session, held, replied⟩ := expects
      exact ⟨remaining, rfl, ⟨none, Machine.settles_of_stopped exclusive held next⟩,
        Conversation.replies_of_exhausted exhausted replied⟩
  | closed stage idle =>
      rw [stage] at expects
      exact ⟨remaining, rfl, expects.2⟩

/-- Whatever the lines are, the prompt goes on from reading them. -/
theorem exists_step_of_reading (idle : dialogue.machine.client = .idle)
    (stage : dialogue.stage = .reading) : ∃ after, Step depth dialogue after := by
  have called (call : Call) := @Machine.Step.called depth dialogue.machine idle call
  match lines : dialogue.lines with
  | [] | none :: _ => exact ⟨_, .ended stage (by simp [lines]) (called .stop)⟩
  | some line :: rest =>
      cases wish : Wish.ofLine line with
      | nothing => exact ⟨_, .passed stage lines wish⟩
      | obedience command =>
          cases asked : command.call? with
          | none => exact ⟨_, .left stage lines wish asked (called .stop)⟩
          | some call => exact ⟨_, .obeyed stage lines wish asked (called call)⟩
      | answer program =>
          cases running : dialogue.machine.isRunning with
          | true => exact ⟨_, .submitted stage lines wish running (called (.submit program))⟩
          | false => exact ⟨_, .refused stage lines wish running⟩

/-- A dialogue that is not closed can go on: it waits only for threads that are at work. -/
theorem exists_step (exclusive : dialogue.machine.Exclusive)
    (expects : Expects depth dialogue.machine.view dialogue.lines remaining dialogue.stage)
    (unfinished : dialogue.stage ≠ .closed) : ∃ after, Step depth dialogue after := by
  have idle {session} (held : dialogue.machine.view = .holding session) :
      dialogue.machine.client = .idle :=
    Machine.idle_of_waits (congrArg View.waits held)
  have works {later} (next : View.Step depth dialogue.machine.view later) :
      ∃ after, Step depth dialogue after := by
    obtain ⟨event, machine, uncalled, unreceived, step⟩ := Machine.exists_step exclusive next
    exact ⟨_, .worked uncalled unreceived step⟩
  have answers {envelope session}
      (answers : dialogue.machine.view.Answers depth envelope session) :
      (∃ machine, Machine.Step depth dialogue.machine (.received envelope) machine) ∨
        ∃ after, Step depth dialogue after := by
    rcases answers.cases with held | ⟨-, later, next⟩
    · exact .inl (Machine.exists_received (Machine.idle_of_waits answers.waits)
        (congrArg View.outbox held))
    · exact .inr (works next)
  -- Where the client waits for an answer, the answer is there or some thread still works on it.
  cases stage : dialogue.stage with
  | launching definitions =>
      rw [stage] at expects
      exact ⟨_, .launched stage (.called (idle expects.2.1) _)⟩
  | defining text =>
      rw [stage] at expects
      exact ⟨_, .defined stage (.called (idle expects.2.1) _)⟩
  | awaitingDefinitions =>
      rw [stage] at expects
      obtain ⟨envelope, session, rest, due, -⟩ := expects
      rcases answers due with ⟨machine, received⟩ | goesOn
      · exact ⟨_, .informed stage received⟩
      · exact goesOn
  | inviting => exact ⟨_, .invited stage⟩
  | reading =>
      rw [stage] at expects
      obtain ⟨session, held, -⟩ := expects
      exact exists_step_of_reading (idle held) stage
  | obeying =>
      rw [stage] at expects
      obtain ⟨session, rest, settles, -⟩ := expects
      rcases settles.cases with held | ⟨-, later, next⟩
      · exact ⟨_, .resumed stage (idle held)⟩
      · exact works next
  | awaiting =>
      rw [stage] at expects
      obtain ⟨envelope, session, rest, due, -⟩ := expects
      rcases answers due with ⟨machine, received⟩ | goesOn
      · exact ⟨_, .answered stage received⟩
      · exact goesOn
  | closing =>
      rw [stage] at expects
      obtain ⟨⟨session, settles⟩, -⟩ := expects
      rcases settles.cases with held | ⟨-, later, next⟩
      · exact ⟨_, .closed stage (idle held)⟩
      · exact works next
  | closed => exact absurd stage unfinished

/-- At every moment of a dialogue, what was written and what is still to be written make
up the whole conversation. -/
theorem Run.expected {definitions : Option String} {lines : List (Option String)}
    (run : Run depth (.initial definitions lines) count dialogue)
    (ordinary : ∀ text, definitions = some text → isSentinel text = false)
    (written : Conversation.transcript depth definitions lines = some total) :
    ∃ remaining, dialogue.written ++ remaining = total ∧
      Expects depth dialogue.machine.view dialogue.lines remaining dialogue.stage := by
  -- One live thread at a time is what lets the view stand for the machine in every step.
  induction run with
  | first => exact ⟨total, Transcript.empty_append total, ordinary, rfl, written⟩
  | step prior next inductionHypothesis =>
      obtain ⟨remaining, together, expects⟩ := inductionHypothesis
      obtain ⟨left, kept, expected⟩ := next.expected (prior.exclusive .new) expects
      exact ⟨left, kept.trans together, expected⟩

/-- Where the prompt waits for an answer, the sequential kernel that has all that is in
hand comes to exactly one envelope. -/
theorem Run.one_answer_is_due {definitions : Option String} {lines : List (Option String)}
    (run : Run depth (.initial definitions lines) count dialogue)
    (ordinary : ∀ text, definitions = some text → isSentinel text = false)
    (written : Conversation.transcript depth definitions lines = some total)
    (waits : dialogue.stage = .awaitingDefinitions ∨ dialogue.stage = .awaiting) :
    ∃ envelope session,
      (dialogue.machine.pending dialogue.machine.outbox.items).proceed depth =
        ⟨.empty, ⟨[envelope]⟩, some ⟨session, false⟩⟩ := by
  obtain ⟨remaining, -, expects⟩ := run.expected ordinary written
  have due : ∃ envelope session, dialogue.machine.view.Answers depth envelope session := by
    rcases waits with stage | stage
    all_goals
      rw [stage] at expects
      obtain ⟨envelope, session, -, answers, -⟩ := expects
      exact ⟨envelope, session, answers⟩
  obtain ⟨envelope, session, answers⟩ := due
  exact ⟨envelope, session, Machine.proceed_pending_of_answers answers⟩

/-! ## A sentinel in place of definitions -/

/-- What becomes of a sentinel in place of definitions, up to the wait for the answer. -/
def Unanswered (text : String) (view : View) : Stage → Prop
  | .launching definitions => definitions = some text ∧ view = .holding none
  | .defining definitions => definitions = text ∧ view = .holding (some .fresh)
  | .awaitingDefinitions => view.Swallows text
  | _ => False

/-- No step leads on from the wait for the answer to a sentinel. -/
theorem Step.unanswered {text : String} (next : Step depth dialogue after)
    (sentinel : isSentinel text = true) (exclusive : dialogue.machine.Exclusive)
    (unanswered : Unanswered text dialogue.machine.view dialogue.stage) :
    Unanswered text after.machine.view after.stage ∧ after.lines = dialogue.lines ∧
      after.written = dialogue.written := by
  cases next with
  | worked uncalled unreceived next =>
      have seen := Machine.view_step exclusive uncalled unreceived next
      refine ⟨?_, rfl, rfl⟩
      cases stage : dialogue.stage with
      | launching | defining =>
          rw [stage] at unanswered
          rw [unanswered.2] at seen
          exact absurd seen View.not_step_holding
      | awaitingDefinitions =>
          rw [stage] at unanswered
          exact View.Swallows.step unanswered sentinel seen
      | inviting | reading | obeying | awaiting | closing | closed =>
          rw [stage] at unanswered
          exact unanswered.elim
  | launched stage next =>
      rw [stage] at unanswered
      obtain ⟨rfl, held⟩ := unanswered
      refine ⟨⟨rfl, ?_⟩, rfl, rfl⟩
      rw [Machine.view_called exclusive next (by simp), held]
      rfl
  | defined stage next =>
      rw [stage] at unanswered
      obtain ⟨rfl, held⟩ := unanswered
      refine ⟨?_, rfl, rfl⟩
      rw [Machine.view_called exclusive next (by simp), held]
      exact .waiting
  | informed stage next =>
      rw [stage] at unanswered
      obtain ⟨rest, oldest, -⟩ := Machine.view_received next
      rw [View.Swallows.outbox unanswered] at oldest
      cases oldest
  | invited stage | resumed stage | closed stage | passed stage | refused stage
  | obeyed stage | submitted stage | left stage | ended stage | answered stage =>
      rw [stage] at unanswered
      exact unanswered.elim

/-- With a sentinel in place of definitions no run writes anything or reads a line: the
worker ends without an answer, and the prompt waits for it. -/
theorem Run.unanswered {text : String} {lines : List (Option String)}
    (run : Run depth (.initial (some text) lines) count dialogue)
    (sentinel : isSentinel text = true) :
    Unanswered text dialogue.machine.view dialogue.stage ∧ dialogue.lines = lines ∧
      dialogue.written = .empty := by
  induction run with
  | first => exact ⟨⟨rfl, rfl⟩, rfl, rfl⟩
  | step prior next inductionHypothesis =>
      obtain ⟨unanswered, unread, nothing⟩ := inductionHypothesis
      obtain ⟨still, same, silent⟩ := next.unanswered sentinel (prior.exclusive .new) unanswered
      exact ⟨still, same.trans unread, silent.trans nothing⟩

end Dialogue

/-- Without interrupts the prompt writes what the conversation writes that keeps one
session and no kernel. So does every dialogue with the concurrent kernel, whatever turns
are taken: it makes a bounded number of steps, has written a beginning of the conversation
at every moment and all of it at its end, and can go on until then. When it reads a line,
no message and no envelope is left from the lines before. -/
theorem prompt_answers_like_one_session {depth : Nat} {files : CommandLine.Files}
    {file definitions : Option String} {input : ByteArray}
    (read : file.mapM (CommandLine.readFile files) = .ok definitions)
    (ordinary : ∀ text, definitions = some text → isSentinel text = false) :
    CommandLine.runPrompt depth files file input =
        (Conversation.transcript depth definitions (CommandLine.lines input)).map (.mk true) ∧
      ∀ total, Conversation.transcript depth definitions (CommandLine.lines input) = some total →
        ∀ count dialogue,
          Dialogue.Run depth (.initial definitions (CommandLine.lines input)) count dialogue →
            count ≤ 7 * (CommandLine.lines input).length + 13 ∧
              (∃ remaining, dialogue.written ++ remaining = total) ∧
              (dialogue.stage = .reading →
                dialogue.machine.inbox.items = [] ∧ dialogue.machine.outbox.items = []) ∧
              (dialogue.stage = .closed → dialogue.written = total) ∧
              (dialogue.stage ≠ .closed → ∃ after, Dialogue.Step depth dialogue after) := by
  constructor
  case left => exact CommandLine.runPrompt_eq input read ordinary
  case right =>
    intro total written count dialogue run
    have exclusive := run.exclusive .new
    obtain ⟨remaining, together, expects⟩ := run.expected ordinary written
    refine ⟨?bounded, ⟨remaining, together⟩, fun stage => ?clean, fun stage => ?complete,
      Dialogue.exists_step exclusive expects⟩
    case bounded =>
      have bounded := run.count_le .new
      have initial : (Dialogue.initial definitions (CommandLine.lines input)).effort =
          7 * (CommandLine.lines input).length + 13 := rfl
      omega
    case clean =>
      rw [stage] at expects
      obtain ⟨session, held, -⟩ := expects
      exact ⟨congrArg View.inbox held, congrArg View.outbox held⟩
    case complete =>
      rw [stage] at expects
      obtain rfl : remaining = .empty := expects
      rw [← together, Transcript.append_empty]

/-- Definitions of one word. -/
def wordFile : CommandLine.Files :=
  fun _ => some "(define word \"yes\")".toUTF8

/-- The word is asked for where it is known, where it was forgotten, and where there is
nobody to ask. -/
def wordInput : ByteArray :=
  "(word)\n%reset\n (word) \n%stop\n(word)\n%exit\n(word)\n".toUTF8

/-- What is written to the two channels when the word is asked for. -/
def wordTranscript : Transcript where
  output := "\nplotscript> (\"yes\")\n" ++ String.join (List.replicate 5 "\nplotscript> ")
  errors := "Error during evaluation: unknown symbol 'word'.\n" ++
    "Error: interpreter kernel not running\n"

/-- Each answer belongs to its line, and no dialogue ends with anything else written. -/
theorem prompt_answers_when_asked_for_word :
    CommandLine.runPrompt 10 wordFile (some "file") wordInput = some ⟨true, wordTranscript⟩ ∧
      ∀ count dialogue,
        Dialogue.Run 10 (.initial (some "(define word \"yes\")") (CommandLine.lines wordInput))
          count dialogue →
        dialogue.stage = .closed → dialogue.written = wordTranscript := by
  have read : (some "file").mapM (CommandLine.readFile wordFile) =
      .ok (some "(define word \"yes\")") := by
    decide +kernel
  have ordinary : ∀ text, some "(define word \"yes\")" = some text → isSentinel text = false := by
    rintro text ⟨⟩
    decide
  have written : Conversation.transcript 10 (some "(define word \"yes\")")
      (CommandLine.lines wordInput) = some wordTranscript := by
    decide +kernel
  obtain ⟨same, dialogues⟩ :=
    @prompt_answers_like_one_session 10 wordFile (some "file") _ wordInput read ordinary
  refine ⟨same.trans (by rw [written]; rfl), fun count dialogue run => ?_⟩
  exact (dialogues wordTranscript written count dialogue run).2.2.2.1

end PlotLisp
