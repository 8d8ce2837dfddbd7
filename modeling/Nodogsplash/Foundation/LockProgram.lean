import Nodogsplash.Foundation.Execution
import Mathlib.Order.BooleanAlgebra.Set
import Mathlib.Logic.Function.Basic

/-! # Threads, locks and a server

Threads run programs that take and release locks. A program may also call a
server and wait for its reply; the server handles one request after the other,
each by a program of its own. Threads, locks and requests are arbitrary. -/

namespace Nodogsplash.LockProgram

variable {Thread Lock Request : Type*}

inductive Instruction (Lock Request : Type*)
  | acquire (lock : Lock)
  | release (lock : Lock)
  | work
  | call (request : Request)

abbrev Program (Lock Request : Type*) := List (Instruction Lock Request)

inductive Agent (Thread : Type*)
  | thread (name : Thread)
  | server
  deriving DecidableEq

/-- The rest of a program; `waiting` is set while a reply is awaited. -/
structure Task (Lock Request : Type*) where
  program : Program Lock Request
  waiting : Bool

structure State (Thread Lock Request : Type*) where
  owner : Lock → Option (Agent Thread)
  task : Agent Thread → Task Lock Request
  serving : Option (Option (Agent Thread))
  queue : List (Option (Agent Thread) × Request)

structure System (Thread Lock Request : Type*) where
  thread : Thread → Set (Program Lock Request)
  request : Request → Set (Program Lock Request)

inductive Event (Thread Request : Type*)
  | begin (name : Thread)
  | post (request : Request)
  | advance (agent : Agent Thread)

def State.idle : State Thread Lock Request where
  owner _ := none
  task _ := ⟨[], false⟩
  serving := none
  queue := []

def State.held (state : State Thread Lock Request) (agent : Agent Thread) : Set Lock :=
  {lock | state.owner lock = some agent}

section

variable [DecidableEq Thread] [DecidableEq Lock]

def State.setTask (state : State Thread Lock Request) (agent : Agent Thread)
    (task : Task Lock Request) : State Thread Lock Request :=
  { state with task := Function.update state.task agent task }

def State.setOwner (state : State Thread Lock Request) (lock : Lock)
    (owner : Option (Agent Thread)) : State Thread Lock Request :=
  { state with owner := Function.update state.owner lock owner }

def State.wake (state : State Thread Lock Request) : Option (Agent Thread) →
    State Thread Lock Request
  | some agent => state.setTask agent ⟨(state.task agent).program, false⟩
  | none => state

/-- One step: threads begin programs, requests come from outside, and agents
advance. -/
inductive Step (system : System Thread Lock Request) :
    State Thread Lock Request → Event Thread Request → State Thread Lock Request → Prop
  | begin {state name program} :
      state.task (.thread name) = ⟨[], false⟩ → program ∈ system.thread name →
      Step system state (.begin name) (state.setTask (.thread name) ⟨program, false⟩)
  | post {state} (request) :
      Step system state (.post request) { state with queue := state.queue ++ [(none, request)] }
  | acquire {state agent lock rest} :
      state.task agent = ⟨.acquire lock :: rest, false⟩ → state.owner lock = none →
      Step system state (.advance agent)
        ((state.setOwner lock (some agent)).setTask agent ⟨rest, false⟩)
  | release {state agent lock rest} :
      state.task agent = ⟨.release lock :: rest, false⟩ →
      Step system state (.advance agent)
        ((state.setOwner lock none).setTask agent ⟨rest, false⟩)
  | work {state agent rest} :
      state.task agent = ⟨.work :: rest, false⟩ →
      Step system state (.advance agent) (state.setTask agent ⟨rest, false⟩)
  | call {state agent request rest} :
      state.task agent = ⟨.call request :: rest, false⟩ →
      Step system state (.advance agent)
        { state.setTask agent ⟨rest, true⟩ with queue := state.queue ++ [(some agent, request)] }
  | accept {state caller request rest program} :
      state.task .server = ⟨[], false⟩ → state.serving = none →
      state.queue = (caller, request) :: rest → program ∈ system.request request →
      Step system state (.advance .server)
        { state.setTask .server ⟨program, false⟩ with serving := some caller, queue := rest }
  | reply {state caller} :
      state.task .server = ⟨[], false⟩ → state.serving = some caller →
      Step system state (.advance .server) { state.wake caller with serving := none }

def State.Pending (state : State Thread Lock Request) : Prop :=
  (∃ agent, (state.task agent).program ≠ [] ∨ (state.task agent).waiting = true) ∨
    state.serving ≠ none ∨ state.queue ≠ []

/-- Something is pending and no agent can advance. -/
def Stuck (system : System Thread Lock Request) (state : State Thread Lock Request) : Prop :=
  state.Pending ∧ ∀ agent next, ¬ Step system state (.advance agent) next

end

/-! ## Disciplined programs

Locks are taken in the order of descending ranks, all are released at the end,
and calls are made without locks. -/

section

variable (rank : Lock → Nat)

/-- The program is in order for an agent that holds the locks. -/
def Disciplined (held : Set Lock) : Program Lock Request → Prop
  | [] => held = ∅
  | .acquire lock :: rest =>
      (∀ other ∈ held, rank lock < rank other) ∧ Disciplined (insert lock held) rest
  | .release lock :: rest => lock ∈ held ∧ Disciplined (held \ {lock}) rest
  | .work :: rest => Disciplined held rest
  | .call _ :: rest => held = ∅ ∧ Disciplined held rest

def Balanced (held : Set Lock) (part : Program Lock Request) : Prop :=
  ∀ rest, Disciplined rank held rest → Disciplined rank held (part ++ rest)

def Silent (program : Program Lock Request) : Prop :=
  ∀ request, .call request ∉ program

variable {rank}

namespace Balanced

variable {held : Set Lock}

theorem nil : Balanced rank held ([] : Program Lock Request) := fun _ disciplined => disciplined

theorem append {first second : Program Lock Request} (left : Balanced rank held first)
    (right : Balanced rank held second) : Balanced rank held (first ++ second) := by
  intro rest disciplined
  rw [List.append_assoc]
  exact left _ (right _ disciplined)

theorem work : Balanced rank held ([.work] : Program Lock Request) :=
  fun _ disciplined => disciplined

theorem flatten {parts : List (Program Lock Request)}
    (balanced : ∀ part ∈ parts, Balanced rank held part) : Balanced rank held parts.flatten := by
  induction parts with
  | nil => exact nil
  | cons part parts induction =>
      rw [List.flatten_cons]
      exact (balanced part List.mem_cons_self).append
        (induction fun other member => balanced other (List.mem_cons_of_mem _ member))

theorem calls (requests : List Request) :
    Balanced rank (∅ : Set Lock) (requests.map .call) := by
  induction requests with
  | nil => exact nil
  | cons request requests induction =>
      intro rest disciplined
      exact ⟨rfl, induction rest disciplined⟩

theorem between {lock : Lock} {body : Program Lock Request}
    (above : ∀ other ∈ held, rank lock < rank other)
    (balanced : Balanced rank (insert lock held) body) :
    Balanced rank held (.acquire lock :: body ++ [.release lock]) := by
  intro rest disciplined
  have fresh : lock ∉ held := fun member => absurd (above lock member) (lt_irrefl _)
  rw [List.cons_append, List.cons_append, List.append_assoc]
  refine ⟨above, balanced _ ⟨Set.mem_insert _ _, ?_⟩⟩
  rwa [Set.insert_sdiff_self_of_notMem fresh]

theorem disciplined {program : Program Lock Request} (balanced : Balanced rank ∅ program) :
    Disciplined rank ∅ program := by
  have whole := balanced [] rfl
  rwa [List.append_nil] at whole

end Balanced

end

/-! ## Progress -/

section

variable (rank : Lock → Nat)

structure System.Orderly (system : System Thread Lock Request) : Prop where
  thread : ∀ name, ∀ program ∈ system.thread name, Disciplined rank ∅ program
  request : ∀ request, ∀ program ∈ system.request request, Disciplined rank ∅ program
  silent : ∀ request, ∀ program ∈ system.request request, Silent program
  served : ∀ request, (system.request request).Nonempty

structure State.Orderly (state : State Thread Lock Request) : Prop where
  disciplined : ∀ agent, Disciplined rank (state.held agent) (state.task agent).program
  unencumbered : ∀ agent, (state.task agent).waiting = true → state.held agent = ∅
  awaited : ∀ agent, (state.task agent).waiting = true →
    state.serving = some (some agent) ∨ some agent ∈ state.queue.map Prod.fst
  active : (state.task .server).waiting = false
  silent : Silent (state.task .server).program
  resting : state.serving = none → (state.task .server).program = []

theorem State.orderly_idle : (State.idle : State Thread Lock Request).Orderly rank := by
  constructor
  · intro agent
    exact Set.eq_empty_of_forall_notMem fun _ => nofun
  all_goals simp [State.idle, Silent]

variable {rank} {state next : State Thread Lock Request}

theorem Silent.append {first second : Program Lock Request} (left : Silent first)
    (right : Silent second) : Silent (first ++ second) :=
  fun request member => (List.mem_append.mp member).elim (left request) (right request)

theorem Silent.tail {instruction : Instruction Lock Request} {rest : Program Lock Request}
    (silent : Silent (instruction :: rest)) : Silent rest :=
  fun request member => silent request (List.mem_cons_of_mem _ member)

variable [DecidableEq Thread]

theorem task_setTask_self (agent : Agent Thread) (task : Task Lock Request) :
    (state.setTask agent task).task agent = task :=
  Function.update_self _ _ _

theorem task_setTask_of_ne {agent other : Agent Thread} (different : other ≠ agent)
    (task : Task Lock Request) : (state.setTask agent task).task other = state.task other :=
  Function.update_of_ne different _ _

theorem State.Orderly.run (orderly : state.Orderly rank) {agent : Agent Thread}
    {instruction : Instruction Lock Request} {rest : Program Lock Request}
    (task : state.task agent = ⟨instruction :: rest, false⟩)
    (tasks : next.task = Function.update state.task agent ⟨rest, false⟩)
    (serving : next.serving = state.serving) (queue : next.queue = state.queue)
    (others : ∀ other, other ≠ agent → next.held other = state.held other)
    (disciplined : Disciplined rank (next.held agent) rest) : next.Orderly rank := by
  have own : next.task agent = ⟨rest, false⟩ := by rw [tasks, Function.update_self]
  have foreign {other : Agent Thread} (different : other ≠ agent) :
      next.task other = state.task other := by rw [tasks, Function.update_of_ne different]
  have waits {other : Agent Thread} (waiting : (next.task other).waiting = true) :
      other ≠ agent := by
    rintro rfl
    rw [own] at waiting
    cases waiting
  constructor
  · intro other
    by_cases same : other = agent
    · rw [same, own]
      exact disciplined
    · rw [foreign same, others other same]
      exact orderly.disciplined other
  · intro other waiting
    rw [foreign (waits waiting)] at waiting
    rw [others other fun same => by rw [same, task] at waiting; cases waiting]
    exact orderly.unencumbered other waiting
  · intro other waiting
    rw [foreign (waits waiting)] at waiting
    rw [serving, queue]
    exact orderly.awaited other waiting
  · by_cases same : .server = agent
    · rw [same, own]
    · rw [foreign same]
      exact orderly.active
  · by_cases same : .server = agent
    · have silent := orderly.silent
      rw [same, task] at silent
      rw [same, own]
      exact silent.tail
    · rw [foreign same]
      exact orderly.silent
  · intro free
    rw [serving] at free
    by_cases same : .server = agent
    · have resting := orderly.resting free
      rw [same, task] at resting
      cases resting
    · rw [foreign same]
      exact orderly.resting free

theorem State.Orderly.load (orderly : state.Orderly rank) {agent : Agent Thread}
    {program : Program Lock Request} (task : state.task agent = ⟨[], false⟩)
    (tasks : next.task = Function.update state.task agent ⟨program, false⟩)
    (owner : next.owner = state.owner) (disciplined : Disciplined rank ∅ program)
    (awaited : ∀ caller, state.serving = some (some caller) ∨
        some caller ∈ state.queue.map Prod.fst →
      next.serving = some (some caller) ∨ some caller ∈ next.queue.map Prod.fst)
    (silent : agent = .server → Silent program)
    (resting : next.serving = none → agent ≠ .server ∧ state.serving = none) :
    next.Orderly rank := by
  have own : next.task agent = ⟨program, false⟩ := by rw [tasks, Function.update_self]
  have foreign {other : Agent Thread} (different : other ≠ agent) :
      next.task other = state.task other := by rw [tasks, Function.update_of_ne different]
  have held (other : Agent Thread) : next.held other = state.held other := by
    rw [State.held, owner, State.held]
  have waits {other : Agent Thread} (waiting : (next.task other).waiting = true) :
      other ≠ agent := by
    rintro rfl
    rw [own] at waiting
    cases waiting
  constructor
  · intro other
    rw [held]
    by_cases same : other = agent
    · have empty := orderly.disciplined agent
      rw [task] at empty
      rw [same, own, empty]
      exact disciplined
    · rw [foreign same]
      exact orderly.disciplined other
  · intro other waiting
    rw [foreign (waits waiting)] at waiting
    rw [held]
    exact orderly.unencumbered other waiting
  · intro other waiting
    rw [foreign (waits waiting)] at waiting
    exact awaited other (orderly.awaited other waiting)
  · by_cases same : .server = agent
    · rw [same, own]
    · rw [foreign same]
      exact orderly.active
  · by_cases same : .server = agent
    · rw [same, own]
      exact silent same.symm
    · rw [foreign same]
      exact orderly.silent
  · intro free
    rw [foreign (resting free).1.symm]
    exact orderly.resting (resting free).2

theorem State.Orderly.reply (orderly : state.Orderly rank) {caller : Option (Agent Thread)}
    (task : state.task .server = ⟨[], false⟩) (serving : state.serving = some caller) :
    State.Orderly rank { state.wake caller with serving := none } := by
  have program (other : Agent Thread) :
      ((state.wake caller).task other).program = (state.task other).program := by
    cases caller with
    | none => rfl
    | some agent =>
        by_cases same : other = agent
        · rw [same, State.wake, task_setTask_self]
        · rw [State.wake, task_setTask_of_ne same]
  have waiting (other : Agent Thread) (waits : ((state.wake caller).task other).waiting = true) :
      (state.task other).waiting = true ∧ caller ≠ some other := by
    cases caller with
    | none => exact ⟨waits, nofun⟩
    | some agent =>
        by_cases same : other = agent
        · rw [same, State.wake, task_setTask_self] at waits
          cases waits
        · rw [State.wake, task_setTask_of_ne same] at waits
          exact ⟨waits, fun equal => same (Option.some.inj equal).symm⟩
  have held (other : Agent Thread) : (state.wake caller).held other = state.held other := by
    cases caller <;> rfl
  have queue : (state.wake caller).queue = state.queue := by cases caller <;> rfl
  constructor
  · intro other
    change Disciplined rank ((state.wake caller).held other)
      ((state.wake caller).task other).program
    rw [held, program]
    exact orderly.disciplined other
  · intro other waits
    change (state.wake caller).held other = ∅
    rw [held]
    exact orderly.unencumbered other (waiting other waits).1
  · intro other waits
    right
    change some other ∈ (state.wake caller).queue.map Prod.fst
    rw [queue]
    refine (orderly.awaited other (waiting other waits).1).resolve_left ?_
    rw [serving]
    exact fun equal => (waiting other waits).2 (Option.some.inj equal)
  · exact Bool.eq_false_iff.mpr fun waits =>
      Bool.eq_false_iff.mp orderly.active (waiting .server waits).1
  · change Silent ((state.wake caller).task .server).program
    rw [program]
    exact orderly.silent
  · intro _
    change ((state.wake caller).task .server).program = []
    rw [program, task]

theorem State.Orderly.call (orderly : state.Orderly rank) {agent : Agent Thread}
    {request : Request} {rest : Program Lock Request}
    (task : state.task agent = ⟨.call request :: rest, false⟩) :
    State.Orderly rank
      { state.setTask agent ⟨rest, true⟩ with
        queue := state.queue ++ [(some agent, request)] } := by
  have disciplined := orderly.disciplined agent
  rw [task] at disciplined
  have client : .server ≠ agent := by
    rintro rfl
    have silent := orderly.silent
    rw [task] at silent
    exact silent request List.mem_cons_self
  have server : (state.setTask agent ⟨rest, true⟩).task .server = state.task .server :=
    task_setTask_of_ne client _
  constructor
  · intro other
    change Disciplined rank (state.held other)
      ((state.setTask agent ⟨rest, true⟩).task other).program
    by_cases same : other = agent
    · rw [same, task_setTask_self]
      exact disciplined.2
    · rw [task_setTask_of_ne same]
      exact orderly.disciplined other
  · intro other waiting
    change state.held other = ∅
    by_cases same : other = agent
    · rw [same]
      exact disciplined.1
    · rw [task_setTask_of_ne same] at waiting
      exact orderly.unencumbered other waiting
  · intro other waiting
    by_cases same : other = agent
    · exact .inr (by simp [same])
    · rw [task_setTask_of_ne same] at waiting
      exact (orderly.awaited other waiting).imp id (by simp +contextual)
  · exact (congrArg Task.waiting server).trans orderly.active
  · change Silent ((state.setTask agent ⟨rest, true⟩).task .server).program
    rw [server]
    exact orderly.silent
  · intro free
    change ((state.setTask agent ⟨rest, true⟩).task .server).program = []
    rw [server]
    exact orderly.resting free

variable [DecidableEq Lock] {system : System Thread Lock Request}

theorem held_setOwner (lock : Lock) (owner : Option (Agent Thread)) (agent : Agent Thread) :
    (state.setOwner lock owner).held agent =
      if owner = some agent then insert lock (state.held agent)
      else state.held agent \ {lock} := by
  ext other
  by_cases same : other = lock
  · subst same
    split <;> simp_all [State.held, State.setOwner]
  · split <;> simp [State.held, State.setOwner, same]

theorem held_setOwner_of_ne {lock : Lock} {owner : Option (Agent Thread)}
    {agent other : Agent Thread} (mine : ∀ holder, state.owner lock = some holder → holder = agent)
    (given : owner = none ∨ owner = some agent) (different : other ≠ agent) :
    (state.setOwner lock owner).held other = state.held other := by
  have notMember : lock ∉ state.held other := fun member => different (mine other member)
  have notGiven : owner ≠ some other := by
    rcases given with rfl | rfl
    · exact nofun
    · exact fun equal => different (Option.some.inj equal).symm
  rw [held_setOwner, if_neg notGiven, Set.sdiff_singleton_eq_self notMember]

theorem State.Orderly.step (orderly : state.Orderly rank) (inOrder : system.Orderly rank)
    {event : Event Thread Request} (step : Step system state event next) :
    next.Orderly rank := by
  cases step with
  | @begin name program task member =>
      exact orderly.load task rfl rfl (inOrder.thread name program member)
        (fun _ awaited => awaited) nofun fun free => ⟨nofun, free⟩
  | post request =>
      exact { orderly with
        awaited := fun agent waiting =>
          (orderly.awaited agent waiting).imp id (by simp +contextual) }
  | @acquire agent lock rest task free =>
      have disciplined := orderly.disciplined agent
      rw [task] at disciplined
      refine orderly.run task rfl rfl rfl ?_ ?_
      · intro other different
        exact held_setOwner_of_ne (by simp [free]) (.inr rfl) different
      · change Disciplined rank ((state.setOwner lock (some agent)).held agent) rest
        rw [held_setOwner, if_pos rfl]
        exact disciplined.2
  | @release agent lock rest task =>
      have disciplined := orderly.disciplined agent
      rw [task] at disciplined
      refine orderly.run task rfl rfl rfl ?_ ?_
      · intro other different
        refine held_setOwner_of_ne ?_ (.inl rfl) different
        intro holder held
        exact Option.some.inj (held.symm.trans disciplined.1)
      · change Disciplined rank ((state.setOwner lock none).held agent) rest
        rw [held_setOwner, if_neg nofun]
        exact disciplined.2
  | @work agent rest task =>
      have disciplined := orderly.disciplined agent
      rw [task] at disciplined
      exact orderly.run task rfl rfl rfl (fun _ _ => rfl) disciplined
  | call task => exact orderly.call task
  | @accept caller request rest program task free queue member =>
      refine orderly.load task rfl rfl (inOrder.request request program member) ?_
        (fun _ => inOrder.silent request program member) nofun
      intro other awaited
      rw [free, queue] at awaited
      rcases List.mem_cons.mp (awaited.resolve_left nofun) with equal | member
      · exact .inl (congrArg some equal.symm)
      · exact .inr member
  | reply task serving => exact orderly.reply task serving

theorem State.Orderly.of_run (inOrder : system.Orderly rank) {events : List (Event Thread Request)}
    (run : Execution.Run (Step system) State.idle events state) : state.Orderly rank :=
  run.invariant (State.Orderly rank) (fun _ _ _ orderly step => orderly.step inOrder step)
    (State.orderly_idle rank)

theorem State.Orderly.holder_advances (orderly : state.Orderly rank) {lock : Lock}
    {holder : Agent Thread} (held : state.owner lock = some holder) :
    ∃ agent next, Step system state (.advance agent) next := by
  induction low : rank lock using Nat.strongRecOn generalizing lock holder with
  | ind value induction =>
      have member : lock ∈ state.held holder := held
      have disciplined := orderly.disciplined holder
      have active : (state.task holder).waiting = false :=
        Bool.eq_false_iff.mpr fun waiting =>
          Set.notMem_empty lock (orderly.unencumbered holder waiting ▸ member)
      cases task : state.task holder with
      | mk program waiting =>
          rw [task] at disciplined active
          cases active
          cases program with
          | nil => exact absurd (disciplined ▸ member) (Set.notMem_empty lock)
          | cons instruction rest =>
              cases instruction with
              | acquire wanted =>
                  cases free : state.owner wanted with
                  | none => exact ⟨holder, _, .acquire task free⟩
                  | some other =>
                      exact induction (rank wanted) (low ▸ disciplined.1 lock member) free rfl
              | release other => exact ⟨holder, _, .release task⟩
              | work => exact ⟨holder, _, .work task⟩
              | call request => exact absurd (disciplined.1 ▸ member) (Set.notMem_empty lock)

theorem advances_of_free {agent : Agent Thread} {program : Program Lock Request}
    (free : ∀ lock, state.owner lock = none) (task : state.task agent = ⟨program, false⟩)
    (nonempty : program ≠ []) : ∃ next, Step system state (.advance agent) next := by
  cases program with
  | nil => exact absurd rfl nonempty
  | cons instruction rest =>
      cases instruction with
      | acquire lock => exact ⟨_, .acquire task (free lock)⟩
      | release lock => exact ⟨_, .release task⟩
      | work => exact ⟨_, .work task⟩
      | call request => exact ⟨_, .call task⟩

theorem State.Orderly.not_stuck (orderly : state.Orderly rank) (inOrder : system.Orderly rank) :
    ¬ Stuck system state := by
  rintro ⟨pending, blocked⟩
  have free (lock : Lock) : state.owner lock = none := by
    cases held : state.owner lock with
    | none => rfl
    | some holder =>
        rcases orderly.holder_advances held with ⟨agent, next, step⟩
        exact absurd step (blocked agent next)
  have resting {agent : Agent Thread} (active : (state.task agent).waiting = false) :
      state.task agent = ⟨[], false⟩ := by
    cases task : state.task agent with
    | mk program waiting =>
        rw [task] at active
        cases active
        by_cases nonempty : program = []
        · rw [nonempty]
        · rcases advances_of_free free task nonempty with ⟨next, step⟩
          exact absurd step (blocked agent next)
  have server := resting orderly.active
  have unserved : state.serving = none := by
    cases serving : state.serving with
    | none => rfl
    | some caller => exact absurd (.reply server serving) (blocked .server _)
  have empty : state.queue = [] := by
    cases queue : state.queue with
    | nil => rfl
    | cons entry rest =>
        rcases inOrder.served entry.2 with ⟨program, member⟩
        exact absurd (.accept server unserved queue member) (blocked .server _)
  rcases pending with ⟨agent, unfinished⟩ | serving | queue
  · have active : (state.task agent).waiting = false := by
      rw [Bool.eq_false_iff]
      intro waiting
      rcases orderly.awaited agent waiting with serving | queued
      · rw [unserved] at serving
        cases serving
      · rw [empty] at queued
        cases queued
    rw [resting active] at unfinished
    simp at unfinished
  · exact serving unserved
  · exact queue empty

end

end Nodogsplash.LockProgram
