import PlexPaper.Server
import PlexPaper.TaskPool

/-! The running proxy: every task that touches the server's life cycle, together
with the processes it spawned and the clock. `start` is called for a joining
client, by the probe and on boot; `monitor` is one iteration of
`monitor_server`; `interrupt` is one iteration of `signal::service`; the command
task is only ever entered through `spawn_server_task`. -/
namespace PlexPaper
open Tasks

/-- `monitor::poll_server`, given what fetching the status and pinging answer. -/
def pollServer (fetched : Except Unit ServerStatus) (pinged : Except Unit Unit) :
    ServerM (Except Unit (Option ServerStatus)) := do
  if let .ok status := fetched then
    return .ok (some status)
  if (← perform .loadState) = .started then
    if let .error err := pinged then
      return .error err
  return .error ()

/-- The loop body of `monitor::monitor_server`. -/
def monitorIteration (config : Config) (fetched : Except Unit ServerStatus)
    (pinged : Except Unit Unit) : ServerM Unit := do
  match ← pollServer fetched pinged with
  | .ok (some status) => Server.updateStatus config (some status)
  | .error _ => Server.updateStatus config none
  | .ok none => pure ()
  if ← Server.shouldSleep config then
    let _ ← Server.stop config
  if ← Server.shouldKill then
    let _ ← Server.forceKill

/-- The loop body of `service::signal::service`, after Ctrl+C. -/
def interruptIteration (config : Config) : ServerM Unit := do
  if (← perform .loadState) = .stopped then
    perform .quit
  let stopping ← Server.stop config
  if !stopping then
    perform .quit

/-- The entry points of the tasks. -/
inductive Entry where
  | start
  | stop
  | updateStatus (status : Option ServerStatus)
  | monitor (fetched : Except Unit ServerStatus) (pinged : Except Unit Unit)
  | interrupt
  | invokeServerCmd
  deriving DecidableEq

def Entry.body (config : Config) : Entry → ServerM Unit
  | .start => discard (Server.start config)
  | .stop => discard (Server.stop config)
  | .updateStatus status => Server.updateStatus config status
  | .monitor fetched pinged => monitorIteration config fetched pinged
  | .interrupt => interruptIteration config
  | .invokeServerCmd => discard (PlexPaper.invokeServerCmd config)

/-- The server record and what surrounds it: the exit status of every process
spawned so far, by process id, with `none` for one still alive; the clock; and
whether the proxy itself has exited. -/
structure World where
  server : Server := {}
  children : List (Option ExitStatus) := []
  clock : Instant := 0
  exited : Bool := false

namespace World

def Alive (world : World) (pid : Pid) : Prop := world.children[pid]? = some none

instance (world : World) (pid : Pid) : Decidable (world.Alive pid) :=
  match h : world.children[pid]? with
  | some none => isTrue h
  | some (some _) => isFalse (by simp [Alive, h])
  | none => isFalse (by simp [Alive, h])

/-- One operation, given whether the system around lets it succeed. -/
def perform (world : World) : (op : Op) → Bool → Option (op.Reply × World)
  | .loadState, _ => some (world.server.state, world)
  | .swapState new, _ =>
    some (world.server.state, { world with server := { world.server with state := new } })
  | .compareExchange current new, _ =>
    if world.server.state = current then
      some (.ok current, { world with server := { world.server with state := new } })
    else
      some (.error world.server.state, world)
  | .sendState new, _ =>
    some ((), { world with server :=
      { world.server with published := new, version := world.server.version + 1 } })
  | .read cell, _ => some (world.server.get cell, world)
  | .write cell value, _ => some ((), { world with server := world.server.set cell value })
  | .now, _ => some (world.clock, world)
  | .sleepUntil deadline, _ => if deadline ≤ world.clock then some ((), world) else none
  | .spawnServerTask, _ => some ((), world)
  | .spawnChild, true =>
    some (.ok world.children.length, { world with children := world.children ++ [none] })
  | .spawnChild, false => some (.error (), world)
  | .waitChild pid, true =>
    match world.children[pid]? with
    | some (some status) => some (.ok status, world)
    | _ => none
  | .waitChild _, false => some (.error (), world)
  | .sendSignal _ _, delivered => some (delivered, world)
  | .acquireRcon, _ =>
    if 0 < world.server.rconPermits then
      some ((), { world with server :=
        { world.server with rconPermits := world.server.rconPermits - 1 } })
    else
      none
  | .releaseRcon, _ =>
    some ((), { world with server :=
      { world.server with rconPermits := world.server.rconPermits + 1 } })
  | .rconConnect, connected => some (connected, world)
  | .rconCommand, acknowledged => some (acknowledged, world)
  | .rconClose, _ => some ((), world)
  | .quit, _ => some ((), { world with exited := true })

/-- Nothing runs after the proxy has exited. -/
def execute (world : World) (op : Op) (succeeds : Bool) : Option (op.Reply × World) :=
  if world.exited then none else world.perform op succeeds

end World

/-- What happens outside the proxy: a process ends, for whatever reason, or time
passes. -/
inductive Event where
  | childExits (pid : Pid) (status : ExitStatus)
  | elapse (duration : Duration)

def World.outside (world : World) : Event → Option World
  | .childExits pid status =>
    if world.Alive pid then
      some { world with children := world.children.set pid (some status) }
    else
      none
  | .elapse duration => some { world with clock := world.clock + duration }

/-! ## What one operation can do -/

/-- The state an operation leaves. -/
def Op.newState : Op → State → State
  | .swapState new, _ => new
  | .compareExchange current new, state => if state = current then new else state
  | _, state => state

/-- The server record an operation leaves. -/
def Op.newServer : Op → Server → Server
  | .swapState new, server => { server with state := new }
  | .compareExchange current new, server =>
    if server.state = current then { server with state := new } else server
  | .sendState new, server => { server with published := new, version := server.version + 1 }
  | .write cell value, server => server.set cell value
  | .acquireRcon, server => { server with rconPermits := server.rconPermits - 1 }
  | .releaseRcon, server => { server with rconPermits := server.rconPermits + 1 }
  | _, server => server

/-- The state a reply shows the operation to have moved to, from another. -/
def Op.moved : (op : Op) → op.Reply → Option State
  | .swapState new, old => if old = new then none else some new
  | .compareExchange _ new, .ok old => if old = new then none else some new
  | _, _ => none

/-- The processes an operation leaves. -/
def Op.newChildren : Op → Bool → List (Option ExitStatus) → List (Option ExitStatus)
  | .spawnChild, true, children => children ++ [none]
  | _, _, children => children

/-- What is known of a process stays known through every operation. -/
theorem Op.newChildren_getElem? (op : Op) {succeeds : Bool} {children : List (Option ExitStatus)}
    {pid : Pid} {child : Option ExitStatus} (known : children[pid]? = some child) :
    (op.newChildren succeeds children)[pid]? = some child := by
  have bound := (List.getElem?_eq_some_iff.mp known).1
  cases op with
  | spawnChild => cases succeeds <;> simp [newChildren, List.getElem?_append_left bound, known]
  | _ => exact known

theorem Op.newChildren_of_ne {op : Op} (other : op ≠ .spawnChild) (succeeds : Bool)
    (children : List (Option ExitStatus)) : op.newChildren succeeds children = children := by
  cases op <;> first | rfl | exact absurd rfl other

namespace World

variable {world after : World} {op : Op} {succeeds : Bool} {reply : op.Reply}

theorem perform_of_execute (executed : world.execute op succeeds = some (reply, after)) :
    world.perform op succeeds = some (reply, after) := by
  unfold execute at executed
  split at executed
  · cases executed
  · exact executed

/-- All that one operation does to the state, the processes, the clock and what
is behind the locks. -/
structure Effect (world : World) (op : Op) (succeeds : Bool) (reply : op.Reply) (after : World) :
    Prop where
  state : after.server.state = op.newState world.server.state
  moved : op.moved reply =
    if op.newState world.server.state = world.server.state then none
    else some (op.newState world.server.state)
  children : after.children = op.newChildren succeeds world.children
  clock : after.clock = world.clock
  get : ∀ cell, (∀ value, op ≠ .write cell value) → after.server.get cell = world.server.get cell

/-- An operation that leaves the record, the processes and the clock alone. -/
theorem Effect.quiet (server : after.server = world.server) (children : after.children = world.children)
    (clock : after.clock = world.clock)
    (state : op.newState world.server.state = world.server.state) (moved : op.moved reply = none)
    (spawned : op.newChildren succeeds world.children = world.children) :
    Effect world op succeeds reply after where
  state := by rw [server, state]
  moved := by rw [if_pos state, moved]
  children := by rw [children, spawned]
  clock := clock
  get cell _ := by rw [server]

theorem execute_effect (executed : world.execute op succeeds = some (reply, after)) :
    Effect world op succeeds reply after := by
  have performed := perform_of_execute executed
  cases op with
  | swapState new =>
    cases performed
    refine ⟨rfl, ?_, rfl, rfl, fun cell _ => by cases cell <;> rfl⟩
    by_cases same : world.server.state = new
    · simp [Op.moved, Op.newState, same]
    · simp [Op.moved, Op.newState, same, Ne.symm same]
  | compareExchange current new =>
    simp only [World.perform] at performed
    by_cases same : world.server.state = current
    · rw [if_pos same] at performed
      cases performed
      refine ⟨?_, ?_, rfl, rfl, fun cell _ => by cases cell <;> rfl⟩
      · simp [Op.newState, same]
      · simp [Op.moved, Op.newState, same, eq_comm]
    · rw [if_neg same] at performed
      cases performed
      refine .quiet rfl rfl rfl ?_ rfl rfl
      simp [Op.newState, same]
  | write cell value =>
    cases performed
    refine ⟨Server.set_state .., (if_pos rfl).symm, rfl, rfl, fun other distinct => ?_⟩
    cases cell <;> cases other <;> first
      | rfl
      | exact absurd rfl (distinct value)
  | spawnChild =>
    cases succeeds with
    | true =>
      cases performed
      exact ⟨rfl, (if_pos rfl).symm, rfl, rfl, fun _ _ => rfl⟩
    | false =>
      cases performed
      exact .quiet rfl rfl rfl rfl rfl rfl
  | waitChild pid =>
    cases succeeds with
    | true =>
      simp only [World.perform] at performed
      split at performed
      · cases performed
        exact .quiet rfl rfl rfl rfl rfl rfl
      · cases performed
    | false =>
      cases performed
      exact .quiet rfl rfl rfl rfl rfl rfl
  | sleepUntil deadline =>
    simp only [World.perform] at performed
    split at performed
    · cases performed
      exact .quiet rfl rfl rfl rfl rfl rfl
    · cases performed
  | acquireRcon =>
    simp only [World.perform] at performed
    split at performed
    · cases performed
      exact ⟨rfl, (if_pos rfl).symm, rfl, rfl, fun cell _ => by cases cell <;> rfl⟩
    · cases performed
  | sendState | releaseRcon =>
    cases performed
    exact ⟨rfl, (if_pos rfl).symm, rfl, rfl, fun cell _ => by cases cell <;> rfl⟩
  | _ =>
    cases performed
    exact .quiet rfl rfl rfl rfl rfl rfl

/-- Only a swap and a compare-exchange that succeeds change the state. -/
theorem execute_state (executed : world.execute op succeeds = some (reply, after)) :
    after.server.state = op.newState world.server.state := (execute_effect executed).state

/-- A reply shows a move exactly where the state changes. -/
theorem execute_moved (executed : world.execute op succeeds = some (reply, after)) :
    op.moved reply =
      if op.newState world.server.state = world.server.state then none
      else some (op.newState world.server.state) := (execute_effect executed).moved

/-- An operation leaves the server record as it says, whatever it is answered. -/
theorem execute_newServer (executed : world.execute op succeeds = some (reply, after)) :
    after.server = op.newServer world.server := by
  have performed := perform_of_execute executed
  cases op with
  | spawnChild => cases succeeds <;> (cases performed; rfl)
  | waitChild pid =>
    cases succeeds with
    | true =>
      simp only [World.perform] at performed
      split at performed
      · cases performed; rfl
      · cases performed
    | false => cases performed; rfl
  | compareExchange current new =>
    simp only [World.perform] at performed
    split at performed
    · rename_i same
      cases performed
      exact (if_pos same).symm
    · rename_i other
      cases performed
      exact (if_neg other).symm
  | sleepUntil | acquireRcon =>
    simp only [World.perform] at performed
    split at performed
    · cases performed; rfl
    · cases performed
  | _ => cases performed; rfl

/-- Only a send changes the watch channel. -/
theorem execute_channel (executed : world.execute op succeeds = some (reply, after))
    (other : ∀ new, op ≠ .sendState new) : after.server.published = world.server.published ∧
      after.server.version = world.server.version := by
  rw [execute_newServer executed]
  cases op with
  | sendState new => exact absurd rfl (other new)
  | write cell value => cases cell <;> exact ⟨rfl, rfl⟩
  | compareExchange current new =>
    rw [Op.newServer]
    split <;> exact ⟨rfl, rfl⟩
  | _ => exact ⟨rfl, rfl⟩

/-- Only a write changes what is behind a lock, and only behind its own. -/
theorem execute_get (executed : world.execute op succeeds = some (reply, after)) (cell : Cell)
    (other : ∀ value, op ≠ .write cell value) : after.server.get cell = world.server.get cell :=
  (execute_effect executed).get cell other

/-- A read answers with what is behind the lock. -/
theorem read_reply {cell : Cell} {value : cell.Value}
    (executed : world.execute (.read cell) succeeds = some (value, after)) :
    value = world.server.get cell := by
  have performed := perform_of_execute executed
  exact (Prod.mk.inj (Option.some.inj performed)).1.symm

/-- A load answers with the state. -/
theorem load_reply {state : State} (executed : world.execute .loadState succeeds = some (state, after)) :
    state = world.server.state := by
  have performed := perform_of_execute executed
  exact (Prod.mk.inj (Option.some.inj performed)).1.symm

theorem now_reply {reading : Instant}
    (executed : world.execute .now succeeds = some (reading, after)) : reading = world.clock := by
  have performed := perform_of_execute executed
  exact (Prod.mk.inj (Option.some.inj performed)).1.symm

/-- No operation takes time. -/
theorem execute_clock (executed : world.execute op succeeds = some (reply, after)) :
    after.clock = world.clock := (execute_effect executed).clock

/-- Only a spawn that succeeds changes the list of processes. -/
theorem execute_children (executed : world.execute op succeeds = some (reply, after)) :
    after.children = op.newChildren succeeds world.children := (execute_effect executed).children

/-- The outside never touches the server record. -/
theorem outside_server {event : Event} (acted : world.outside event = some after) :
    after.server = world.server := by
  cases event with
  | childExits pid status =>
    simp only [outside] at acted
    split at acted
    · cases acted; rfl
    · cases acted
  | elapse duration => cases acted; rfl

/-- Time does not run backwards. -/
theorem outside_clock {event : Event} (acted : world.outside event = some after) :
    world.clock ≤ after.clock := by
  cases event with
  | childExits pid status =>
    simp only [outside] at acted
    split at acted
    · cases acted; exact Nat.le_refl _
    · cases acted
  | elapse duration => cases acted; exact Nat.le_add_right ..

/-- A process that exits is the only one whose life changes. -/
theorem childExits_alive {ended : Pid} {status : ExitStatus}
    (acted : world.outside (.childExits ended status) = some after) (pid : Pid) :
    after.Alive pid ↔ world.Alive pid ∧ pid ≠ ended := by
  simp only [outside] at acted
  split at acted
  · cases acted
    by_cases same : ended = pid
    · subst same
      simp [Alive, List.getElem?_set]
    · simp [Alive, List.getElem?_set_ne same, Ne.symm same]
  · cases acted

/-- The outside brings no process to life. -/
theorem outside_alive {event : Event} (acted : world.outside event = some after) {pid : Pid}
    (alive : after.Alive pid) : world.Alive pid := by
  cases event with
  | childExits ended status => exact ((childExits_alive acted pid).mp alive).1
  | elapse duration => cases acted; exact alive

/-- Nor does it change how one has ended. -/
theorem outside_exited {event : Event} (acted : world.outside event = some after) {pid : Pid}
    {status : ExitStatus} (exited : world.children[pid]? = some (some status)) :
    after.children[pid]? = some (some status) := by
  cases event with
  | childExits ended how =>
    simp only [outside] at acted
    split at acted
    · rename_i alive
      cases acted
      simp only [Alive] at alive
      simp only [List.getElem?_set]
      grind
    · cases acted
  | elapse duration => cases acted; exact exited

/-- The outside spawns nothing. -/
theorem outside_length {event : Event} (acted : world.outside event = some after) :
    after.children.length = world.children.length := by
  cases event with
  | childExits pid status =>
    simp only [outside] at acted
    split at acted
    · cases acted; simp
    · cases acted
  | elapse duration => cases acted; rfl

end World

/-- The proxy as a system of tasks. -/
def lifecycle (config : Config) : System Op Op.Reply World Bool Entry Event where
  body := Entry.body config
  callable
    | .invokeServerCmd => false
    | _ => true
  execute := World.execute
  spawns
    | .spawnServerTask => [.invokeServerCmd]
    | _ => []
  outside := World.outside

abbrev Proxy := Pool Op Op.Reply World Entry
abbrev ProxyMove := Move Bool Entry Event

/-- One operation: the task that performs it, and whether the system around
lets it succeed. -/
structure Turn where
  task : Task Op Op.Reply Entry
  op : Op
  succeeds : Bool

/-- The operation that a move would perform. -/
def Proxy.turn? (proxy : Proxy) : ProxyMove → Option Turn
  | .run index succeeds => do
    let task ← proxy.tasks[index]?
    let op ← task.next?
    return { task, op, succeeds }
  | _ => none

theorem Proxy.turn?_run {proxy : Proxy} {index : Nat} {succeeds : Bool}
    {task : Task Op Op.Reply Entry} {op : Op} (found : proxy.tasks[index]? = some task)
    (waiting : task.next? = some op) :
    proxy.turn? (.run index succeeds) = some { task, op, succeeds } := by
  simp [turn?, found, waiting]

theorem Proxy.run_of_turn {proxy : Proxy} {move : ProxyMove} {turn : Turn}
    (turned : turn ∈ proxy.turn? move) :
    ∃ index, move = .run index turn.succeeds ∧ proxy.tasks[index]? = some turn.task ∧
      turn.task.next? = some turn.op := by
  cases move with
  | call | outside => cases turned
  | run index succeeds =>
    simp only [turn?, Option.mem_def, Option.bind_eq_bind, Option.bind_eq_some_iff] at turned
    obtain ⟨task, found, op, waiting, ⟨⟩⟩ := turned
    exact ⟨index, rfl, found, waiting⟩

/-- A step that changes the state is an operation that does. -/
theorem Proxy.step_state {config : Config} {before after : Proxy} {move : ProxyMove}
    (stepped : (lifecycle config).step before move = some after) :
    after.world.server.state = before.world.server.state ∨
      ∃ turn ∈ before.turn? move,
        after.world.server.state = turn.op.newState before.world.server.state := by
  cases move with
  | call entry =>
    simp only [System.step] at stepped
    split at stepped
    · cases stepped
      exact .inl rfl
    · cases stepped
  | outside event =>
    obtain ⟨world, acted, rfl⟩ := Option.map_eq_some_iff.mp stepped
    exact .inl (congrArg Server.state (World.outside_server acted))
  | run index succeeds =>
    obtain ⟨task, op, next, reply, world, found, waiting, executed, rfl⟩ := System.step_run stepped
    have waits : task.next? = some op := by simp [Task.next?, waiting, Program.next?]
    exact .inr ⟨_, turn?_run found waits, World.execute_state executed⟩

/-- The proxy at boot: sleeping, with no task and no process. -/
def Proxy.boot : Proxy := System.initial {}

/-- The status of an idle server, as in the tests of `server.rs`. -/
def dummyStatus : ServerStatus :=
  { version := { name := "1.20.4", protocol := 765 }
    players := { online := 0, max := 20 }
    description := ""
    favicon := none }

/-- Moves of one task, with every system call succeeding. -/
def goes (task count : Nat) : List ProxyMove := List.replicate count (.run task true)

end PlexPaper
