import Mathlib.Data.List.Nodup
import Mathlib.Tactic.Ring
import Nodogsplash.Foundation.Execution

/-! # The loop of the control thread

`thread_ndsctl` waits with `epoll_wait` for connections and requests. The kernel
reports the listening socket once for all connections that have arrived since
it last did so. -/

namespace Nodogsplash

/-- `MAX_EVENT_SIZE`. -/
def maxEventSize : Nat := 30

structure PollEvent where
  fd : Nat
  error : Bool
  hangup : Bool
  readable : Bool
  deriving DecidableEq

def PollEvent.broken (event : PollEvent) : Bool :=
  event.error || event.hangup || !event.readable

/-- The loop and what it waits for: the connections nobody has accepted yet, the
edge of the listening socket, the accepted connections that are open,
`current_fd_count`, and the events that `epoll_wait` has returned and the loop
has not visited. -/
structure ControlThread where
  backlog : Nat
  edge : Bool
  descriptors : List Nat
  currentFdCount : Int
  events : List PollEvent
  running : Bool
  deriving DecidableEq

/-- What happens next. `accepted` is what `accept` would return, `stopped` what
`ndsctl_handler` would. -/
inductive ControlEvent
  | connect
  | epollWait (events : List PollEvent)
  | visit (accepted : Option Nat) (stopped : Bool)

namespace ControlThread

def start : ControlThread where
  backlog := 0
  edge := false
  descriptors := []
  currentFdCount := 1
  events := []
  running := true

/-- `epoll_wait` returns. -/
def epollWait (sock : Nat) (thread : ControlThread) (events : List PollEvent) : ControlThread :=
  { thread with
    edge := thread.edge && events.all fun event => decide (event.fd ≠ sock)
    events }

/-- The body of the loop over the events. -/
def visit (sock : Nat) (thread : ControlThread) (event : PollEvent) (accepted : Option Nat)
    (stopped : Bool) : ControlThread :=
  if event.broken then { thread with descriptors := thread.descriptors.erase event.fd }
  else if event.fd = sock then
    match accepted with
    | none => { thread with running := false }
    | some fd =>
        { thread with
          backlog := thread.backlog - 1
          descriptors := fd :: thread.descriptors
          currentFdCount := thread.currentFdCount + 1 }
  else if stopped then
    { thread with descriptors := thread.descriptors.erase event.fd, running := false }
  else
    { thread with
      descriptors := thread.descriptors.erase event.fd
      currentFdCount := thread.currentFdCount - 1 }

/-- Connections arrive at any time. The thread waits when it has visited all
events. -/
def take (sock : Nat) (thread : ControlThread) : ControlEvent → ControlThread
  | .connect => { thread with backlog := thread.backlog + 1, edge := true }
  | .epollWait events =>
      if thread.running ∧ thread.events = [] then thread.epollWait sock events else thread
  | .visit accepted stopped =>
      if thread.running then
        match thread.events with
        | [] => thread
        | event :: rest => { thread with events := rest }.visit sock event accepted stopped
      else thread

/-- What the kernel reports: each open descriptor at most once, the listening
socket when it has an edge, and never more than the thread asks for. The number
of a new connection is not in use. -/
def Allows (sock : Nat) (thread : ControlThread) : ControlEvent → Prop
  | .connect => True
  | .epollWait events =>
      (events.map PollEvent.fd).Nodup ∧ events.length ≤ thread.currentFdCount ∧
        ∀ event ∈ events,
          event.fd ∈ thread.descriptors ∨
            event.fd = sock ∧ event.broken = false ∧ thread.edge = true
  | .visit accepted _ => ∀ fd ∈ accepted, fd ≠ sock ∧ fd ∉ thread.descriptors

instance (sock : Nat) (thread : ControlThread) (event : ControlEvent) :
    Decidable (thread.Allows sock event) :=
  match event with
  | .connect => inferInstanceAs (Decidable True)
  | .epollWait _ => inferInstanceAs (Decidable (_ ∧ _ ∧ _))
  | .visit _ _ => inferInstanceAs (Decidable (∀ _ ∈ _, _))

/-- Runs of the loop. -/
abbrev ControlRun (sock : Nat) : ControlThread → List ControlEvent → ControlThread → Prop :=
  Execution.Run (Execution.Guarded (Execution.ofFunction (take sock)) (Allows sock))

/-- The thread is blocked in `epoll_wait`. -/
def Waits (thread : ControlThread) : Prop :=
  thread.running = true ∧ thread.events = []

instance (thread : ControlThread) : Decidable thread.Waits :=
  inferInstanceAs (Decidable (_ ∧ _))

/-! ## Descriptors -/

/-- The events that are left belong to different open descriptors, and that of
the listening socket is ready. -/
structure Tracks (sock : Nat) (thread : ControlThread) : Prop where
  distinct : thread.descriptors.Nodup
  listening : sock ∉ thread.descriptors
  once : (thread.events.map PollEvent.fd).Nodup
  known : ∀ event ∈ thread.events,
    event.fd ∈ thread.descriptors ∨ event.fd = sock ∧ event.broken = false

theorem tracks_start (sock : Nat) : start.Tracks sock where
  distinct := List.nodup_nil
  listening := List.not_mem_nil
  once := List.nodup_nil
  known := nofun

section

variable {sock : Nat} {thread : ControlThread}

theorem Tracks.visit {event : PollEvent} {rest : List PollEvent} (tracks : thread.Tracks sock)
    (next : thread.events = event :: rest) {accepted : Option Nat} (stopped : Bool)
    (fresh : ∀ fd ∈ accepted, fd ≠ sock ∧ fd ∉ thread.descriptors) :
    ({ thread with events := rest }.visit sock event accepted stopped).Tracks sock := by
  have once := tracks.once
  rw [next, List.map_cons, List.nodup_cons] at once
  have known : ∀ other ∈ rest,
      other.fd ∈ thread.descriptors ∨ other.fd = sock ∧ other.broken = false :=
    fun other member => tracks.known other (next ▸ List.mem_cons_of_mem _ member)
  have closed : ∀ other ∈ rest,
      other.fd ∈ thread.descriptors.erase event.fd ∨ other.fd = sock ∧ other.broken = false := by
    intro other member
    rcases known other member with opened | listens
    · have different : other.fd ≠ event.fd :=
        fun equal => once.1 (equal ▸ List.mem_map_of_mem member)
      exact .inl ((List.mem_erase_of_ne different).mpr opened)
    · exact .inr listens
  have erased : (thread.descriptors.erase event.fd).Nodup := tracks.distinct.erase _
  have others : sock ∉ thread.descriptors.erase event.fd :=
    fun member => tracks.listening (List.mem_of_mem_erase member)
  simp only [ControlThread.visit]
  split
  · exact ⟨erased, others, once.2, closed⟩
  · split
    · cases accepted with
      | none => exact ⟨tracks.distinct, tracks.listening, once.2, known⟩
      | some fd =>
          rcases fresh fd rfl with ⟨notSock, unused⟩
          refine ⟨List.nodup_cons.mpr ⟨unused, tracks.distinct⟩, ?_, once.2, ?_⟩
          · intro member
            rcases List.mem_cons.mp member with equal | old
            · exact notSock equal.symm
            · exact tracks.listening old
          · intro other member
            rcases known other member with opened | listens
            · exact .inl (List.mem_cons_of_mem _ opened)
            · exact .inr listens
    · split <;> exact ⟨erased, others, once.2, closed⟩

theorem Tracks.take (tracks : thread.Tracks sock) {event : ControlEvent}
    (allows : thread.Allows sock event) : (thread.take sock event).Tracks sock := by
  cases event with
  | connect => exact ⟨tracks.distinct, tracks.listening, tracks.once, tracks.known⟩
  | epollWait events =>
      rw [ControlThread.take]
      split
      · refine ⟨tracks.distinct, tracks.listening, allows.1, ?_⟩
        intro event member
        rcases allows.2.2 event member with opened | ⟨listens, ready, _⟩
        · exact .inl opened
        · exact .inr ⟨listens, ready⟩
      · exact tracks
  | visit accepted stopped =>
      simp only [ControlThread.take]
      split
      · split
        · exact tracks
        · next event rest next => exact tracks.visit next stopped allows
      · exact tracks

theorem running_of_take {event : ControlEvent} (runs : (thread.take sock event).running = true) :
    thread.running = true := by
  by_contra stopped
  have stays : (thread.take sock event).running = thread.running := by
    cases event with
    | connect => rfl
    | epollWait events => simp only [take, stopped, false_and, if_false]
    | visit accepted stops => simp only [take, stopped, if_false]
  exact stopped (stays ▸ runs)

end

/-! ## Connections -/

/-- The connections that the loop is going to accept: one for each report of the
listening socket, and one more if there is an edge. -/
def expected (sock : Nat) (thread : ControlThread) : Nat :=
  (thread.events.map PollEvent.fd).count sock + thread.edge.toNat

/-- A connection arrives when the arrival of the one before has been reported. -/
def SeesArrival (thread : ControlThread) : ControlEvent → Prop
  | .connect => thread.edge = false
  | _ => True

section

variable {sock : Nat} {thread : ControlThread}

/-- The connections that no report stands for only become more, by one for each
arrival that does not make an edge. -/
theorem backlog_take (tracks : thread.Tracks sock) {event : ControlEvent}
    (allows : thread.Allows sock event) (runs : (thread.take sock event).running = true)
    {missed : Nat} (backlog : thread.backlog = thread.expected sock + missed) :
    ∃ more, (thread.take sock event).backlog =
        (thread.take sock event).expected sock + (missed + more) ∧
      (more = 0 ↔ thread.SeesArrival event) := by
  have running := running_of_take runs
  cases event with
  | connect =>
      cases edge : thread.edge with
      | false =>
          refine ⟨0, ?_, by simp [SeesArrival, edge]⟩
          simp only [expected, edge, Bool.toNat_false, take, Bool.toNat_true] at backlog ⊢
          omega
      | true =>
          refine ⟨1, ?_, by simp [SeesArrival, edge]⟩
          simp only [expected, edge, Bool.toNat_true, take] at backlog ⊢
          omega
  | epollWait events =>
      refine ⟨0, ?_, by simp [SeesArrival]⟩
      rw [take]
      split
      · next waits =>
          simp only [expected, waits.2, List.map_nil, List.count_nil] at backlog
          by_cases reported : sock ∈ events.map PollEvent.fd
          · rcases List.mem_map.mp reported with ⟨event, member, fd⟩
            have edge : thread.edge = true := by
              rcases allows.2.2 event member with opened | ⟨_, _, edge⟩
              · exact absurd (fd ▸ opened) tracks.listening
              · exact edge
            have once := List.count_eq_one_of_mem allows.1 reported
            have clears : (events.all fun event => decide (event.fd ≠ sock)) = false := by
              rw [List.all_eq_false]
              exact ⟨event, member, by simp [fd]⟩
            simp only [epollWait, expected, once, clears, edge, Bool.and_false,
              Bool.toNat_false, Bool.toNat_true] at backlog ⊢
            omega
          · have never := List.count_eq_zero_of_not_mem reported
            have keeps : (events.all fun event => decide (event.fd ≠ sock)) = true := by
              rw [List.all_eq_true]
              intro event member
              refine decide_eq_true fun fd => reported ?_
              exact List.mem_map.mpr ⟨event, member, fd⟩
            simp only [epollWait, expected, never, keeps, Bool.and_true] at backlog ⊢
            omega
      · exact backlog
  | visit accepted stopped =>
      refine ⟨0, ?_, by simp [SeesArrival]⟩
      simp only [take, running, if_true] at runs ⊢
      split
      · exact backlog
      · next event rest next =>
          simp only [next] at runs
          have visited : (thread.events.map PollEvent.fd).count sock =
              (rest.map PollEvent.fd).count sock + if event.fd = sock then 1 else 0 := by
            rw [next, List.map_cons, List.count_cons]
            simp
          simp only [expected, visited] at backlog ⊢
          simp only [visit] at runs ⊢
          split
          · next broken =>
              have other : event.fd ≠ sock := by
                rcases tracks.known event (next ▸ List.mem_cons_self) with opened | ⟨_, ready⟩
                · exact fun equal => tracks.listening (equal ▸ opened)
                · rw [ready] at broken
                  cases broken
              rw [if_neg other] at backlog
              omega
          · split
            · next listens =>
                rw [if_pos listens] at backlog
                cases accepted with
                | none => simp [*] at runs
                | some fd =>
                    simp only
                    omega
            · next other =>
                rw [if_neg other] at backlog
                split
                · simp only
                  omega
                · simp only
                  omega

theorem deterministic (sock : Nat) (current : ControlThread) (event : ControlEvent)
    (next other : ControlThread)
    (first : Execution.Guarded (Execution.ofFunction (take sock)) (Allows sock) current event next)
    (second : Execution.Guarded (Execution.ofFunction (take sock)) (Allows sock) current event
      other) : next = other :=
  first.2.trans second.2.symm

theorem tracks_step (sock : Nat) (current : ControlThread) (event : ControlEvent)
    (next : ControlThread) (tracks : current.Tracks sock)
    (step : Execution.Guarded (Execution.ofFunction (take sock)) (Allows sock) current event
      next) : next.Tracks sock := by
  rw [step.2]
  exact tracks.take step.1

/-- In every run, a thread that is blocked without an edge has accepted all
connections exactly if each of them has arrived after the arrival of the one
before had been reported. -/
theorem no_connection_stranded_iff {final : ControlThread} {events : List ControlEvent}
    (run : ControlRun sock start events final) (waits : final.Waits)
    (quiet : final.edge = false) :
    final.backlog = 0 ↔
      Execution.Run (Execution.Guarded
        (Execution.Guarded (Execution.ofFunction (take sock)) (Allows sock)) SeesArrival)
        start events final := by
  let Missed (thread : ControlThread) (missed : Nat) : Prop :=
    thread.running = true → thread.backlog = thread.expected sock + missed
  have counts (current : ControlThread) (event : ControlEvent) (next : ControlThread)
      (missed : Nat) (tracks : current.Tracks sock)
      (step : Execution.Guarded (Execution.ofFunction (take sock)) (Allows sock) current event
        next) (counted : Missed current missed) :
      ∃ more, Missed next (missed + more) ∧ (more = 0 ↔ current.SeesArrival event) := by
    rcases step with ⟨allows, rfl⟩
    by_cases runs : (current.take sock event).running = true
    · rcases backlog_take tracks allows runs (counted (running_of_take runs)) with
        ⟨more, backlog, sees⟩
      exact ⟨more, fun _ => backlog, sees⟩
    · by_cases sees : current.SeesArrival event
      · exact ⟨0, fun running => absurd running runs, by simp [sees]⟩
      · exact ⟨1, fun running => absurd running runs, by simp [sees]⟩
  have begins : Missed start 0 := fun _ => rfl
  rcases run.tally (fun thread => thread.Tracks sock) (deterministic sock) (tracks_step sock)
    counts (tracks_start sock) begins with ⟨missed, backlog, sees⟩
  have owed := backlog waits.1
  simp only [expected, waits.2, quiet, List.map_nil, List.count_nil, Bool.toNat_false] at owed
  rw [← sees]
  omega

/-- Two connections before the thread looks: one of them is never accepted. -/
theorem connection_stranded :
    ∃ final, ControlRun 3 start
        [.connect, .connect, .epollWait [⟨3, false, false, true⟩], .visit (some 5) false] final ∧
      final.Waits ∧ final.edge = false ∧ final.backlog ≠ 0 := by
  refine ⟨_, .cons ⟨trivial, rfl⟩ (.cons ⟨trivial, rfl⟩ (.cons ⟨?_, rfl⟩ (.cons ⟨?_, rfl⟩
    (.nil _)))), ?_⟩
  · decide
  · decide
  · decide

/-- A second connection arrives after the first has been reported. -/
theorem no_connection_stranded_iff_reported :
    let events : List ControlEvent :=
      [.connect, .epollWait [⟨3, false, false, true⟩], .connect, .visit (some 5) false,
        .epollWait [⟨3, false, false, true⟩], .visit (some 6) false]
    (events.foldl (take 3) start).backlog = 0 ↔
      Execution.Run (Execution.Guarded
        (Execution.Guarded (Execution.ofFunction (take 3)) (Allows 3)) SeesArrival)
        start events (events.foldl (take 3) start) := by
  refine no_connection_stranded_iff ?_ (by decide) (by decide)
  refine .cons ⟨trivial, rfl⟩ (.cons ⟨?_, rfl⟩ (.cons ⟨trivial, rfl⟩ (.cons ⟨?_, rfl⟩
    (.cons ⟨?_, rfl⟩ (.cons ⟨?_, rfl⟩ (.nil _))))))
  · decide
  · decide
  · decide
  · decide

/-! ## The count of descriptors -/

/-- The event that is visited reports no error and no hang-up. -/
def ClosesCleanly (thread : ControlThread) : ControlEvent → Prop
  | .visit _ _ => ∀ event ∈ thread.events.head?, event.broken = false
  | _ => True

/-- What `current_fd_count` is too large by only becomes more, by one for each
descriptor that is closed because it is broken. -/
theorem currentFdCount_take (tracks : thread.Tracks sock) {event : ControlEvent}
    (runs : (thread.take sock event).running = true) {stale : Nat}
    (counted : thread.currentFdCount = 1 + thread.descriptors.length + stale) :
    ∃ more : Nat, (thread.take sock event).currentFdCount =
        1 + (thread.take sock event).descriptors.length + (stale + more : Nat) ∧
      (more = 0 ↔ thread.ClosesCleanly event) := by
  have running := running_of_take runs
  cases event with
  | connect => exact ⟨0, counted, by simp [ClosesCleanly]⟩
  | epollWait events =>
      refine ⟨0, ?_, by simp [ClosesCleanly]⟩
      rw [take]
      split
      · exact counted
      · exact counted
  | visit accepted stopped =>
      simp only [take, running, if_true, ClosesCleanly] at runs ⊢
      split
      · next nothing => exact ⟨0, counted, by simp [nothing]⟩
      · next event rest next =>
          simp only [next] at runs
          have opened (other : event.fd ≠ sock) :
              (thread.descriptors.erase event.fd).length + 1 = thread.descriptors.length := by
            rcases tracks.known event (next ▸ List.mem_cons_self) with member | ⟨listens, _⟩
            · rw [List.length_erase_of_mem member]
              have positive := List.length_pos_of_mem member
              omega
            · exact absurd listens other
          simp only [visit] at runs ⊢
          split
          · next broken =>
              have other : event.fd ≠ sock := by
                rcases tracks.known event (next ▸ List.mem_cons_self) with member | ⟨_, ready⟩
                · exact fun equal => tracks.listening (equal ▸ member)
                · rw [ready] at broken
                  cases broken
              have closed := opened other
              refine ⟨1, ?_, by simp [next, broken]⟩
              simp only
              omega
          · next ready =>
              refine ⟨0, ?_, by simpa [next] using ready⟩
              split
              · cases accepted with
                | none => simp [*] at runs
                | some fd =>
                    simp only [List.length_cons]
                    omega
              · next other =>
                  have closed := opened other
                  split
                  · simp [*] at runs
                  · simp only
                    omega

/-- In every run, the count is exact and bounded when the thread waits exactly if
no descriptor has been closed because it was broken and the connections that are
open leave room for the listening socket. -/
theorem descriptor_count_exact_iff {final : ControlThread} {events : List ControlEvent}
    (run : ControlRun sock start events final) (waits : final.Waits) :
    (final.currentFdCount = 1 + final.descriptors.length ∧
        final.currentFdCount ≤ maxEventSize) ↔
      Execution.Run (Execution.Guarded
        (Execution.Guarded (Execution.ofFunction (take sock)) (Allows sock)) ClosesCleanly)
        start events final ∧ final.descriptors.length < maxEventSize := by
  let Stale (thread : ControlThread) (stale : Nat) : Prop :=
    thread.running = true → thread.currentFdCount = 1 + thread.descriptors.length + stale
  have counts (current : ControlThread) (event : ControlEvent) (next : ControlThread)
      (stale : Nat) (tracks : current.Tracks sock)
      (step : Execution.Guarded (Execution.ofFunction (take sock)) (Allows sock) current event
        next) (counted : Stale current stale) :
      ∃ more, Stale next (stale + more) ∧ (more = 0 ↔ current.ClosesCleanly event) := by
    rcases step with ⟨_, rfl⟩
    by_cases runs : (current.take sock event).running = true
    · rcases currentFdCount_take tracks runs (counted (running_of_take runs)) with
        ⟨more, exact, clean⟩
      exact ⟨more, fun _ => exact, clean⟩
    · by_cases clean : current.ClosesCleanly event
      · exact ⟨0, fun running => absurd running runs, by simp [clean]⟩
      · exact ⟨1, fun running => absurd running runs, by simp [clean]⟩
  have begins : Stale start 0 := fun _ => rfl
  rcases run.tally (fun thread => thread.Tracks sock) (deterministic sock) (tracks_step sock)
    counts (tracks_start sock) begins with ⟨stale, counted, clean⟩
  have count := counted waits.1
  rw [← clean]
  constructor
  · rintro ⟨equal, bounded⟩
    constructor
    · omega
    · omega
  · rintro ⟨none, room⟩
    constructor
    · omega
    · omega

/-- A connection that hangs up before it sends a request is counted for ever. -/
theorem descriptor_count_drifts :
    ∃ final, ControlRun 3 start
        [.connect, .epollWait [⟨3, false, false, true⟩], .visit (some 5) false,
          .epollWait [⟨5, false, true, true⟩], .visit none false] final ∧
      final.Waits ∧ final.currentFdCount ≠ 1 + final.descriptors.length := by
  refine ⟨_, .cons ⟨trivial, rfl⟩ (.cons ⟨?_, rfl⟩ (.cons ⟨?_, rfl⟩ (.cons ⟨?_, rfl⟩
    (.cons ⟨?_, rfl⟩ (.nil _))))), ?_⟩
  · decide
  · decide
  · decide
  · decide
  · decide

theorem descriptor_count_exact_iff_served :
    let events : List ControlEvent :=
      [.connect, .epollWait [⟨3, false, false, true⟩], .visit (some 5) false,
        .epollWait [⟨5, false, false, true⟩], .visit none false]
    let final := events.foldl (take 3) start
    (final.currentFdCount = 1 + final.descriptors.length ∧
        final.currentFdCount ≤ maxEventSize) ↔
      Execution.Run (Execution.Guarded
        (Execution.Guarded (Execution.ofFunction (take 3)) (Allows 3)) ClosesCleanly)
        start events final ∧ final.descriptors.length < maxEventSize := by
  refine descriptor_count_exact_iff ?_ (by decide)
  refine .cons ⟨trivial, rfl⟩ (.cons ⟨?_, rfl⟩ (.cons ⟨?_, rfl⟩ (.cons ⟨?_, rfl⟩
    (.cons ⟨?_, rfl⟩ (.nil _)))))
  · decide
  · decide
  · decide
  · decide

end

end ControlThread

end Nodogsplash
