import PlotLisp.Proofs.Kernel.Machine

/-!
# One thread at a time

Without interrupts a client waits for the end of each thread before it starts another.
At most one thread is live at any time, and it works on the queues of the client.
-/

namespace PlotLisp

/-- Whether a thread in this phase may still make a step. -/
def Phase.isLive : Phase → Bool
  | ended _ => false
  | receiving _ | evaluating _ _ | sending _ _ _ => true

/-- The message that a thread in this phase has taken and not answered yet. -/
def Phase.inHand : Phase → List String
  | evaluating _ message | sending message _ _ => [message]
  | receiving _ | ended _ => []

namespace Machine

variable {depth : Nat} {machine after : Machine}

/-- The thread of the attached worker, or the one whose end the client waits for. -/
def engaged (machine : Machine) : Option Nat :=
  match machine.client with
  | .idle => machine.worker
  | .joining number _ => some number

/-- An idle client is not changed by making it idle. -/
theorem eq_of_idle (machine : Machine) (idle : machine.client = .idle) :
    { machine with client := .idle } = machine := by
  cases machine
  cases idle
  rfl

/-- No thread but the engaged one is live, and that one works on the queues of the
client, which has no worker attached while it waits. -/
structure Exclusive (machine : Machine) : Prop where
  found : ∀ number, machine.engaged = some number →
    ∃ thread, machine.threads[number]? = some thread
  live : ∀ number thread, machine.threads[number]? = some thread → thread.phase.isLive = true →
    machine.engaged = some number ∧ thread.input = machine.input ∧
      thread.output = machine.output
  detached : ∀ number restarts, machine.client = .joining number restarts →
    machine.worker = none

namespace Exclusive

variable {number : Nat} {thread : Thread}

/-- At first there is no thread at all. -/
theorem new : Machine.new.Exclusive where
  found _ engaged := nomatch engaged
  live _ _ found := nomatch found
  detached _ _ joining := nomatch joining

/-- What is in the queues does not matter. -/
theorem withQueues (exclusive : machine.Exclusive) (inputs : Queues String)
    (outputs : Queues Envelope) : ({ machine with inputs, outputs } : Machine).Exclusive :=
  ⟨exclusive.found, exclusive.live, exclusive.detached⟩

/-- A live thread may go on to any phase. -/
theorem advance (exclusive : machine.Exclusive) (found : machine.threads[number]? = some thread)
    (live : thread.phase.isLive = true) (phase : Phase) :
    (machine.advance number thread phase).Exclusive where
  found other engaged := by
    obtain ⟨known, knownFound⟩ := exclusive.found other engaged
    have bounded : other < (machine.advance number thread phase).threads.length := by
      simpa [Machine.advance] using (List.getElem?_eq_some_iff.mp knownFound).1
    exact ⟨_, List.getElem?_eq_getElem bounded⟩
  live other known knownFound knownLive := by
    by_cases same : number = other
    · subst same
      have bounded : number < machine.threads.length := (List.getElem?_eq_some_iff.mp found).1
      have advanced : known = { thread with phase } := by
        rw [Machine.advance, List.getElem?_set_self bounded] at knownFound
        exact (Option.some.inj knownFound).symm
      subst advanced
      exact exclusive.live number thread found live
    · rw [Machine.advance, List.getElem?_set_ne same] at knownFound
      exact exclusive.live other known knownFound knownLive
  detached := exclusive.detached

/-- Nothing is live without an engaged thread. -/
theorem not_live (exclusive : machine.Exclusive) (nobody : machine.engaged = none)
    (found : machine.threads[number]? = some thread) : thread.phase.isLive = false := by
  cases live : thread.phase.isLive with
  | false => rfl
  | true =>
      have engaged := (exclusive.live number thread found live).1
      rw [nobody] at engaged
      cases engaged

/-- Without interrupts a worker is started only where none is engaged, so the new thread
alone is live. -/
theorem start (exclusive : machine.Exclusive) (idle : machine.client = .idle) :
    machine.start.Exclusive := by
  unfold Machine.start
  split
  case h_1 => exact exclusive
  case h_2 none =>
    have nobody : machine.engaged = .none := by simp [engaged, idle, none]
    refine ⟨fun other engaged => ?found, fun other known found live => ?live,
      fun other restarts joining => ?detached⟩
    case found =>
      simp only [Machine.engaged, idle, Option.some.injEq] at engaged
      subst engaged
      exact ⟨_, List.getElem?_concat_length⟩
    case live =>
      have position := (List.getElem?_eq_some_iff.mp found).1
      rw [List.length_append, List.length_singleton] at position
      by_cases last : other = machine.threads.length
      · subst last
        rw [List.getElem?_concat_length, Option.some.injEq] at found
        subst found
        exact ⟨by simp [Machine.engaged, idle], rfl, rfl⟩
      · rw [List.getElem?_append_left (by omega)] at found
        rw [exclusive.not_live nobody found] at live
        cases live
    case detached =>
      rw [idle] at joining
      cases joining

/-- A halted worker stays engaged until its end, since the client waits for that. -/
theorem halt (exclusive : machine.Exclusive) (idle : machine.client = .idle)
    (attached : machine.worker = some number) (restarts : Bool) :
    (machine.halt number restarts).Exclusive := by
  have engaged : machine.engaged = some number := by simp [Machine.engaged, idle, attached]
  exact ⟨fun other same => exclusive.found other (engaged.trans same),
    fun other known found live =>
      have ⟨same, ends⟩ := exclusive.live other known found live
      ⟨engaged.symm.trans same, ends⟩,
    fun _ _ _ => rfl⟩

/-- A client that has nothing to wait for may start a worker. -/
theorem resume (exclusive : ({ machine with client := .idle } : Machine).Exclusive)
    (restarts : Bool) : (machine.resume restarts).Exclusive := by
  cases restarts with
  | false => exact exclusive
  | true => exact exclusive.start rfl

/-- Stopping and resetting leave at most one thread live. -/
theorem leave (exclusive : machine.Exclusive) (idle : machine.client = .idle)
    (restarts : Bool) : (machine.leave restarts).Exclusive := by
  unfold Machine.leave
  split
  case h_1 =>
    refine resume ?_ restarts
    rw [machine.eq_of_idle idle]
    exact exclusive
  case h_2 number attached => exact exclusive.halt idle attached restarts

/-- A client whose thread has ended goes on without any live thread. -/
theorem release {restarts : Bool} {session : Session} (exclusive : machine.Exclusive)
    (joining : machine.client = .joining number restarts)
    (found : machine.threads[number]? = some thread) (atEnd : thread.phase = .ended session) :
    ({ machine with client := .idle } : Machine).Exclusive := by
  have detached := exclusive.detached number restarts joining
  refine ⟨fun other engaged => ?found, fun other known knownFound live => ?live,
    fun other restarts joining => nomatch joining⟩
  case found =>
    rw [show machine.worker = some other from engaged] at detached
    cases detached
  case live =>
    have engaged := (exclusive.live other known knownFound live).1
    have same : number = other := by simpa [Machine.engaged, joining] using engaged
    subst same
    obtain rfl : thread = known := Option.some.inj (found.symm.trans knownFound)
    rw [atEnd] at live
    cases live

end Exclusive

/-- Without interrupts, every step leaves at most one thread live. -/
theorem Exclusive.step {event : Event} (exclusive : machine.Exclusive)
    (undisturbed : event ≠ .called .interrupt) (next : Step depth machine event after) :
    after.Exclusive := by
  cases next with
  | called idle call =>
      cases call with
      | start => exact exclusive.start idle
      | stop => exact exclusive.leave idle false
      | reset => exact exclusive.leave idle true
      | interrupt => exact absurd rfl undisturbed
      | submit message => exact exclusive.withQueues _ _
  | returned joining found atEnd => exact (exclusive.release joining found atEnd).resume _
  | received => exact exclusive.withQueues _ _
  | took found receiving =>
      exact (exclusive.advance found (receiving ▸ rfl) _).withQueues _ _
  | disconnected found receiving => exact exclusive.advance found (receiving ▸ rfl) _
  | evaluated found evaluating => exact exclusive.advance found (evaluating ▸ rfl) _
  | sent found sending =>
      exact (exclusive.advance found (sending ▸ rfl) _).withQueues _ _
  | undelivered found sending => exact exclusive.advance found (sending ▸ rfl) _

/-- No thread has a sentinel in hand. -/
def HandlesPrograms (machine : Machine) : Prop :=
  ∀ thread ∈ machine.threads, ∀ message ∈ thread.phase.inHand, isSentinel message = false

namespace HandlesPrograms

/-- A thread that goes on may have programs in hand. -/
theorem advance {number : Nat} {thread : Thread} {phase : Phase}
    (programs : machine.HandlesPrograms)
    (ordinary : ∀ message ∈ phase.inHand, isSentinel message = false) :
    (machine.advance number thread phase).HandlesPrograms := by
  intro other member
  rcases List.mem_or_eq_of_mem_set member with old | rfl
  · exact programs other old
  · exact ordinary

/-- A fresh thread has nothing in hand. -/
theorem start (programs : machine.HandlesPrograms) : machine.start.HandlesPrograms := by
  unfold Machine.start
  split
  case h_1 => exact programs
  case h_2 =>
    intro other member
    rcases List.mem_append.mp member with old | fresh
    · exact programs other old
    · obtain rfl := List.mem_singleton.mp fresh
      exact nofun

/-- Going on after a thread's end puts nothing in any hand. -/
theorem resume (programs : machine.HandlesPrograms) (restarts : Bool) :
    (machine.resume restarts).HandlesPrograms := by
  cases restarts with
  | false => exact programs
  | true => exact start programs

/-- Stopping and resetting put nothing in any hand; their sentinel only waits. -/
theorem leave (programs : machine.HandlesPrograms) (restarts : Bool) :
    (machine.leave restarts).HandlesPrograms := by
  unfold Machine.leave
  split
  case h_1 => exact programs.resume restarts
  case h_2 => exact programs

/-- A thread that takes a sentinel ends at once, whatever the client does. -/
theorem step {event : Event} (programs : machine.HandlesPrograms)
    (next : Step depth machine event after) : after.HandlesPrograms := by
  cases next with
  | called idle call =>
      cases call with
      | start => exact start programs
      | stop => exact programs.leave false
      | reset => exact programs.leave true
      | interrupt => exact start programs
      | submit => exact programs
  | returned => exact programs.resume _
  | received => exact programs
  | @took number thread session message =>
      refine advance programs ?_
      split
      · exact nofun
      · next ordinary => simpa [Phase.inHand] using ordinary
  | disconnected => exact advance programs nofun
  | evaluated found evaluating =>
      have ordinary := programs _ (List.mem_of_getElem? found)
      rw [evaluating] at ordinary
      exact advance programs ordinary
  | sent => exact advance programs nofun
  | undelivered => exact advance programs nofun

end HandlesPrograms

end Machine

end PlotLisp
