import PlotLisp.Proofs.Kernel.Equivalence

/-!
# Which queues a thread keeps

Queues and threads are numbered in the order in which they are made, and a thread keeps
the queue ends that it was started with. So no two threads read from one inbound queue,
and once the client has moved on to queues with higher numbers, it never touches the
lower ones again. This holds with interrupts as well, when several threads are live.
-/

namespace PlotLisp

namespace Machine

variable {depth number : Nat} {machine after : Machine} {thread : Thread}

/-- The inbound queues that the threads read from, in the order of the threads. -/
def sources (machine : Machine) : List Nat :=
  machine.threads.map Thread.input

/-- The outbound queues that the threads send to, in the order of the threads. -/
def sinks (machine : Machine) : List Nat :=
  machine.threads.map Thread.output

/-- The programs in the inbound queue with a number, sentinels left out. -/
def programsIn (machine : Machine) (queue : Nat) : List String :=
  (machine.inputs.contents queue).items.filter isProgram

/-- The client has the last queue of each kind, every thread has its own inbound queue,
and no thread has a queue that is newer than those of the client. -/
structure Owned (machine : Machine) : Prop where
  input : machine.inputs.made = machine.input + 1
  output : machine.outputs.made = machine.output + 1
  ascending : machine.sources.Pairwise (· < ·)
  sourceBound : ∀ queue ∈ machine.sources, queue ≤ machine.input
  sinkBound : ∀ queue ∈ machine.sinks, queue ≤ machine.output

/-- What a call or the return from one does to threads and inbound queues, where it adds
at most these messages: it starts at most one thread, and of the queues that were there
it touches only the client's own. -/
structure Shift (machine after : Machine) (submitted : List String) : Prop where
  threads : after.threads = machine.threads ∨
    after.threads = machine.threads ++ [⟨after.input, after.output, .receiving .fresh⟩]
  input : machine.input ≤ after.input
  output : machine.output ≤ after.output
  older : ∀ queue, queue < machine.input →
    after.inputs.contents queue = machine.inputs.contents queue
  own : (after.programsIn machine.input).Sublist (machine.programsIn machine.input ++ submitted)
  inbox : (after.programsIn after.input).Sublist (machine.programsIn machine.input ++ submitted)
  owned : after.Owned

/-! ## Calls -/

/-- The machine starts out with one queue of each kind, held by the client, and no threads. -/
theorem Owned.new : Machine.new.Owned :=
  ⟨rfl, rfl, .nil, nofun, nofun⟩

/-- Neither the client nor the attached worker matters for the queues. -/
theorem Shift.withClient {submitted : List String} (shift : machine.Shift after submitted)
    (worker : Option Nat) (client : Client) :
    machine.Shift { after with worker, client } submitted :=
  ⟨shift.threads, shift.input, shift.output, shift.older, shift.own, shift.inbox,
    ⟨shift.owned.input, shift.owned.output, shift.owned.ascending, shift.owned.sourceBound,
      shift.owned.sinkBound⟩⟩

/-- Nothing is shifted where nothing happens. -/
theorem Shift.refl (owned : machine.Owned) : machine.Shift machine [] :=
  ⟨.inl rfl, Nat.le_refl _, Nat.le_refl _, fun _ _ => rfl, List.sublist_append_left _ _,
    List.sublist_append_left _ _, owned⟩

/-- Submitting makes no queue and no thread. -/
theorem Owned.submit (owned : machine.Owned) (message : String) :
    (machine.submit message).Owned :=
  ⟨owned.input, owned.output, owned.ascending, owned.sourceBound, owned.sinkBound⟩

/-- A message that is submitted goes to the client's queue and to no other one. -/
theorem Owned.shift_submit (owned : machine.Owned) (message : String) :
    machine.Shift (machine.submit message) ([message].filter isProgram) := by
  have own : ((machine.submit message).programsIn machine.input).Sublist
      (machine.programsIn machine.input ++ [message].filter isProgram) := by
    have same : (machine.submit message).programsIn machine.input = _ :=
      machine.programs_submit message
    exact same ▸ List.Sublist.refl _
  exact ⟨.inl rfl, Nat.le_refl _, Nat.le_refl _, fun _ older => if_neg (Nat.ne_of_lt older),
    own, own, owned.submit message⟩

/-- One more thread, with a new inbound queue and the outbound queue of the client. -/
theorem Owned.recruit (owned : machine.Owned) (inputs : Queues String)
    (made : inputs.made = machine.inputs.made + 1) (worker : Option Nat) :
    ({ machine with
        inputs
        threads := machine.threads ++ [⟨machine.inputs.made, machine.output, .receiving .fresh⟩]
        input := machine.inputs.made
        worker } : Machine).Owned := by
  let started : Thread := ⟨machine.inputs.made, machine.output, .receiving .fresh⟩
  have sources : (machine.threads ++ [started]).map Thread.input =
      machine.sources ++ [machine.inputs.made] := List.map_append
  have sinks : (machine.threads ++ [started]).map Thread.output =
      machine.sinks ++ [machine.output] := List.map_append
  have last := owned.input
  refine ⟨made, owned.output, ?ascending, fun queue member => ?source, fun queue member => ?sink⟩
  case ascending =>
    show ((machine.threads ++ [started]).map Thread.input).Pairwise (· < ·)
    rw [sources]
    refine List.pairwise_append.mpr ⟨owned.ascending, List.pairwise_singleton _ _, ?_⟩
    intro queue member other added
    obtain rfl := List.mem_singleton.mp added
    have bounded := owned.sourceBound queue member
    omega
  case source =>
    have listed : queue ∈ machine.sources ++ [machine.inputs.made] := sources ▸ member
    show queue ≤ machine.inputs.made
    rcases List.mem_append.mp listed with old | added
    · have bounded := owned.sourceBound queue old
      omega
    · exact Nat.le_of_eq (List.mem_singleton.mp added)
  case sink =>
    have listed : queue ∈ machine.sinks ++ [machine.output] := sinks ▸ member
    rcases List.mem_append.mp listed with old | added
    · exact owned.sinkBound queue old
    · exact Nat.le_of_eq (List.mem_singleton.mp added)

/-- Starting a worker moves the programs that wait to the queue of the new thread. -/
theorem Owned.shift_start (owned : machine.Owned) : machine.Shift machine.start [] := by
  unfold start
  split
  case h_1 => exact .refl owned
  case h_2 =>
    have made : machine.input < machine.inputs.made := by
      have := owned.input
      omega
    let inputs := (machine.inputs.write machine.input .empty).make
      (machine.inbox.filter fun message => !isSentinel message)
    refine ⟨.inr rfl, Nat.le_of_lt made, Nat.le_refl _, fun queue older => ?older, ?own, ?inbox,
      owned.recruit inputs rfl _⟩
    case older =>
      exact (if_neg (Nat.ne_of_lt (Nat.lt_trans older made))).trans (if_neg (Nat.ne_of_lt older))
    case own =>
      have emptied : inputs.contents machine.input = .empty :=
        (if_neg (Nat.ne_of_lt made)).trans (if_pos rfl)
      show ((inputs.contents machine.input).items.filter isProgram).Sublist _
      rw [emptied]
      exact List.nil_sublist _
    case inbox =>
      have moved : inputs.contents machine.inputs.made = machine.inbox.filter isProgram :=
        Queues.contents_make_self (machine.inputs.write machine.input .empty) _
      show ((inputs.contents machine.inputs.made).items.filter isProgram).Sublist _
      rw [moved, Mailbox.filter, List.filter_filter, List.append_nil]
      simp only [Bool.and_self]
      exact List.Sublist.refl _

/-- Letting go of both queues is moving on to new ones without any items. -/
theorem Owned.renew (owned : machine.Owned) :
    ({ machine with
        inputs := machine.inputs.make .empty
        outputs := machine.outputs.make .empty
        input := machine.inputs.made
        output := machine.outputs.made
        worker := none } : Machine).Owned := by
  refine ⟨rfl, rfl, owned.ascending, fun queue member => ?_, fun queue member => ?_⟩
  · have bounded := owned.sourceBound queue member
    have made := owned.input
    show queue ≤ machine.inputs.made
    omega
  · have bounded := owned.sinkBound queue member
    have made := owned.output
    show queue ≤ machine.outputs.made
    omega

/-- Nothing waits for the thread that an interrupt starts. -/
theorem Owned.programsIn_interrupt (owned : machine.Owned) :
    machine.interrupt.programsIn machine.interrupt.input = [] := by
  have empty : (machine.inputs.make .empty).contents machine.inputs.made = .empty :=
    Queues.contents_make_self _ _
  have waiting : (machine.interrupt.programsIn machine.interrupt.input).Sublist
      (((machine.inputs.make .empty).contents machine.inputs.made).items.filter isProgram ++ []) :=
    owned.renew.shift_start.inbox
  rw [empty] at waiting
  exact List.sublist_nil.mp waiting

/-- Nothing waits in the outbound queue that an interrupt makes. -/
theorem outbox_interrupt (machine : Machine) : machine.interrupt.outbox = .empty :=
  (keeps_start _).outbox.trans (Queues.contents_make_self machine.outputs .empty)

/-- An interrupt leaves all queues as they are. -/
theorem Owned.contents_interrupt (owned : machine.Owned) {queue : Nat}
    (held : queue ≤ machine.input) :
    machine.interrupt.inputs.contents queue = machine.inputs.contents queue := by
  have made := owned.input
  have below : queue < machine.inputs.made := by omega
  exact (owned.renew.shift_start.older queue below).trans (if_neg (Nat.ne_of_lt below))

/-- An interrupt adds new queues without any items. -/
theorem Owned.shift_interrupt (owned : machine.Owned) :
    machine.Shift machine.interrupt [] := by
  have started := owned.renew.shift_start
  have made := owned.input
  have madeOutput := owned.output
  have input : machine.inputs.made ≤ machine.interrupt.input := started.input
  have output : machine.outputs.made ≤ machine.interrupt.output := started.output
  refine ⟨started.threads, by omega, by omega,
    fun queue older => owned.contents_interrupt (Nat.le_of_lt older), ?own, ?inbox, started.owned⟩
  case own =>
    rw [programsIn, owned.contents_interrupt (Nat.le_refl _)]
    exact List.sublist_append_left _ _
  case inbox =>
    rw [owned.programsIn_interrupt]
    exact List.nil_sublist _

/-- The sentinel that ends a worker is no program. -/
theorem Owned.shift_halt (owned : machine.Owned) (number : Nat) (restarts : Bool) :
    machine.Shift (machine.halt number restarts) [] := by
  have sentinel : [Command.stop.text].filter isProgram = [] := by decide
  have submitted := owned.shift_submit Command.stop.text
  rw [sentinel] at submitted
  exact submitted.withClient none (.joining number restarts)

/-- Going on after a thread's end shifts no more than the start of a worker does. -/
theorem Owned.shift_resume (owned : machine.Owned) (restarts : Bool) :
    machine.Shift (machine.resume restarts) [] := by
  have idle : ({ machine with client := .idle } : Machine).Owned :=
    ⟨owned.input, owned.output, owned.ascending, owned.sourceBound, owned.sinkBound⟩
  cases restarts with
  | false => exact (Shift.refl owned).withClient machine.worker .idle
  | true =>
      have started := idle.shift_start
      exact ⟨started.threads, started.input, started.output, started.older, started.own,
        started.inbox, started.owned⟩

/-- Stopping and resetting submit no program of their own. -/
theorem Owned.shift_leave (owned : machine.Owned) (restarts : Bool) :
    machine.Shift (machine.leave restarts) [] := by
  unfold leave
  split
  · exact owned.shift_resume restarts
  · exact owned.shift_halt _ restarts

/-- Every call adds the message that it submits and shifts nothing else. -/
theorem Owned.shift_call (owned : machine.Owned) (call : Call) :
    machine.Shift (machine.call call) ((Event.called call).submissions.filter isProgram) := by
  cases call with
  | start => exact owned.shift_start
  | stop => exact owned.shift_leave false
  | reset => exact owned.shift_leave true
  | interrupt => exact owned.shift_interrupt
  | submit message => exact owned.shift_submit message

/-- An interrupt moves the client on to queues that no thread had before. -/
theorem Owned.interrupt_lt (owned : machine.Owned) :
    machine.input < machine.interrupt.input ∧ machine.output < machine.interrupt.output := by
  have started := owned.renew.shift_start
  have input : machine.inputs.made ≤ machine.interrupt.input := started.input
  have output : machine.outputs.made ≤ machine.interrupt.output := started.output
  have made := owned.input
  have madeOutput := owned.output
  omega

/-! ## Steps of threads -/

/-- The thread that goes on is in its new phase. -/
theorem threads_advance_self (found : machine.threads[number]? = some thread) (phase : Phase) :
    (machine.advance number thread phase).threads[number]? = some { thread with phase } :=
  List.getElem?_set_self (List.getElem?_eq_some_iff.mp found).1

/-- The other threads stay as they were. -/
theorem threads_advance_of_ne {other : Nat} (different : number ≠ other) (phase : Phase) :
    (machine.advance number thread phase).threads[other]? = machine.threads[other]? :=
  List.getElem?_set_ne different

/-- A thread that goes on keeps its queue ends. -/
theorem map_advance {ends : Thread → Nat} (found : machine.threads[number]? = some thread)
    (phase : Phase) (same : ends { thread with phase } = ends thread) :
    (machine.advance number thread phase).threads.map ends = machine.threads.map ends := by
  obtain ⟨bounded, rfl⟩ := List.getElem?_eq_some_iff.mp found
  have within : number < (machine.threads.map ends).length := by simpa using bounded
  rw [advance, List.map_set, same, ← List.getElem_map ends (h := within), List.set_getElem_self]

/-- A thread that goes on makes no queues and keeps its ends, so ownership stays. -/
theorem Owned.advance (owned : machine.Owned)
    (found : machine.threads[number]? = some thread) (phase : Phase) (inputs : Queues String)
    (outputs : Queues Envelope) (madeInput : inputs.made = machine.inputs.made)
    (madeOutput : outputs.made = machine.outputs.made) :
    (({ machine with inputs, outputs } : Machine).advance number thread phase).Owned := by
  have sources : (({ machine with inputs, outputs } : Machine).advance number thread
      phase).sources = machine.sources := map_advance found phase rfl
  have sinks : (({ machine with inputs, outputs } : Machine).advance number thread
      phase).sinks = machine.sinks := map_advance found phase rfl
  exact ⟨madeInput.trans owned.input, madeOutput.trans owned.output,
    sources ▸ owned.ascending, fun queue member => owned.sourceBound queue (sources ▸ member),
    fun queue member => owned.sinkBound queue (sinks ▸ member)⟩

/-- Every step leaves each thread with its own queue. -/
theorem Owned.step {event : Event} (owned : machine.Owned)
    (next : Step depth machine event after) : after.Owned := by
  cases next with
  | called idle call => exact (owned.shift_call call).owned
  | returned => exact (owned.shift_resume _).owned
  | received =>
      exact ⟨owned.input, owned.output, owned.ascending, owned.sourceBound, owned.sinkBound⟩
  | took found => exact owned.advance found _ _ _ rfl rfl
  | disconnected found => exact owned.advance found _ _ _ rfl rfl
  | evaluated found => exact owned.advance found _ _ _ rfl rfl
  | sent found => exact owned.advance found _ _ _ rfl rfl
  | undelivered found => exact owned.advance found _ _ _ rfl rfl

/-- In every run the threads keep to their own queues, interrupts included. -/
theorem Owned.run {history : List Event} (run : Run depth history machine) : machine.Owned := by
  induction run with
  | new => exact .new
  | step _ next inductionHypothesis => exact inductionHypothesis.step next

/-- Threads that read from the same queue are the same thread. -/
theorem Owned.eq_of_input_eq (owned : machine.Owned) {other : Nat} {second : Thread}
    (found : machine.threads[number]? = some thread)
    (foundOther : machine.threads[other]? = some second)
    (same : thread.input = second.input) : number = other := by
  have distinct : machine.sources.Nodup := owned.ascending.imp fun smaller => Nat.ne_of_lt smaller
  have first : machine.sources[number]? = some thread.input := by
    rw [Machine.sources, List.getElem?_map, found, Option.map_some]
  have last : machine.sources[other]? = some second.input := by
    rw [Machine.sources, List.getElem?_map, foundOther, Option.map_some]
  have bounded := (List.getElem?_eq_some_iff.mp first).1
  exact (List.getElem?_inj bounded distinct).mp (first.trans (same ▸ last.symm))

/-- No thread is connected to queues newer than those of the client. -/
theorem Owned.ends_le (owned : machine.Owned) (found : machine.threads[number]? = some thread) :
    thread.input ≤ machine.input ∧ thread.output ≤ machine.output :=
  have member := List.mem_of_getElem? found
  ⟨owned.sourceBound _ (List.mem_map_of_mem member), owned.sinkBound _ (List.mem_map_of_mem member)⟩

/-! ## Continuations of a run -/

/-- What may follow when the machine is in a certain state, the last event at the end. -/
inductive Continues (depth : Nat) (origin : Machine) : List Event → Machine → Prop where
  | refl : Continues depth origin [] origin
  | step {events machine event after} (prior : Continues depth origin events machine)
      (next : Step depth machine event after) :
      Continues depth origin (events ++ [event]) after

/-- A run may be cut between any two events. -/
theorem Run.split {former later : List Event} (run : Run depth (former ++ later) machine) :
    ∃ origin, Run depth former origin ∧ Continues depth origin later machine := by
  generalize whole : former ++ later = history at run
  induction run generalizing later with
  | new =>
      obtain ⟨rfl, rfl⟩ := List.append_eq_nil_iff.mp whole
      exact ⟨_, .new, .refl⟩
  | @step history machine event after prior next inductionHypothesis =>
      rcases List.eq_nil_or_concat later with rfl | ⟨later, last, rfl⟩
      · rw [List.append_nil] at whole
        exact ⟨_, whole ▸ .step prior next, .refl⟩
      · rw [List.concat_eq_append, ← List.append_assoc] at whole
        obtain ⟨same, lastSame⟩ := List.append_inj' whole rfl
        obtain rfl := List.singleton_inj.mp lastSame
        obtain ⟨origin, initial, continued⟩ := inductionHypothesis same
        rw [List.concat_eq_append]
        exact ⟨origin, initial, .step continued next⟩

/-- A run may be continued by what follows its last state. -/
theorem Run.append {former later : List Event} {origin : Machine} (run : Run depth former origin)
    (continued : Continues depth origin later machine) : Run depth (former ++ later) machine := by
  induction continued with
  | refl => exact (List.append_nil former).symm ▸ run
  | step _ next inductionHypothesis =>
      rw [← List.append_assoc]
      exact .step inductionHypothesis next

/-- The last event of a run is a step from where the rest of it leads. -/
theorem Run.last {history : List Event} {event : Event}
    (run : Run depth (history ++ [event]) after) :
    ∃ machine, Run depth history machine ∧ Step depth machine event after := by
  generalize whole : history ++ [event] = events at run
  cases run with
  | new => exact absurd whole (by simp)
  | step prior next =>
      obtain ⟨rfl, same⟩ := List.append_inj' whole rfl
      obtain rfl := List.singleton_inj.mp same
      exact ⟨_, prior, next⟩

end Machine

end PlotLisp
