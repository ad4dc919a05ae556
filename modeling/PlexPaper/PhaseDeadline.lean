import PlexPaper.SoloRuns
import PlexPaper.LifecyclePrograms

/-! The kill deadline of a server whose life cycle is driven by one operation at a time.
The command task is taken in two: what it does before it waits for its process, and what it
does after. Beside the server is kept when its state last really changed, and the deadline
is that moment and the timeout of the state. -/
namespace PlexPaper
open Tasks Server

/-- The operation waits: for a lock, a timer, the process or a connection. Only there does
time pass. What the code does from one wait to the next, it does at one moment. -/
def Op.awaits : Op → Bool
  | .read _ | .write _ _ | .sleepUntil _ | .waitChild _ | .acquireRcon | .rconConnect | .rconCommand
  | .rconClose => true
  | .loadState | .swapState _ | .compareExchange _ _ | .sendState _ | .now | .spawnServerTask
  | .spawnChild | .sendSignal _ _ | .releaseRcon | .quit => false

/-- The surroundings of the proxy, and when the state last changed. -/
structure Phase where
  world : World := {}
  changedAt : Option Instant := none

/-- The surroundings after a wait. -/
def Phase.waited (phase : Phase) (op : Op) (duration : Duration) : World :=
  if op.awaits then { phase.world with clock := phase.world.clock + duration } else phase.world

/-- One operation, given how long it has to wait and whether it succeeds. -/
def Phase.execute (phase : Phase) (op : Op) (answer : Duration × Bool) : Option (op.Reply × Phase) :=
  ((phase.waited op answer.1).execute op answer.2).map fun (reply, after) =>
    (reply,
      { world := after
        changedAt := if after.server.state = phase.world.server.state then phase.changedAt
          else some after.clock })

/-- `invoke_server_cmd` up to its wait for the process. -/
def launch : ServerM (Except Unit Pid) := do
  match ← perform .spawnChild with
  | .error err => return .error err
  | .ok pid =>
    perform (.write .pid (some pid))
    return .ok pid

/-- `invoke_server_cmd` from there on. -/
def cleanUp (config : Config) (ended : Except Unit ExitStatus) : ServerM (Except Unit Unit) := do
  let crashed ← match ended with
    | .ok status =>
      if status.success then
        pure false
      else if (status.code.map fun code => ALLOWED_EXIT_CODES.contains code).getD false then
        pure false
      else
        pure (decide ((← perform .loadState) = .started))
    | .error _ => pure false
  perform (.write .pid none)
  Server.sleep SERVER_QUIT_COOLDOWN
  let _ ← Server.updateState config .stopped
  if crashed && config.server.wakeOnCrash then
    let _ ← Server.start config
  return .ok ()

theorem invokeServerCmd_eq (config : Config) : invokeServerCmd config = (do
    match ← launch with
    | .error err => return .error err
    | .ok pid => cleanUp config (← perform (.waitChild pid))) := by
  refine congrArg (Program.request _) (funext fun spawned => ?_)
  cases spawned with
  | error _ => rfl
  | ok pid =>
    refine congrArg (Program.request _) (funext fun _ => congrArg (Program.request _) (funext fun ended => ?_))
    cases ended with
    | error _ => rfl
    | ok status => rfl

/-- What runs from its beginning to its end before the next one begins. -/
inductive Routine where
  | entry (task : Entry)
  | launch
  | cleanUp (ended : Except Unit ExitStatus)

def Routine.body (config : Config) : Routine → ServerM Unit
  | .entry task => task.body config
  | .launch => discard PlexPaper.launch
  | .cleanUp ended => discard (PlexPaper.cleanUp config ended)

/-- The runs of the proxy, from boot, in which no two routines overlap. -/
inductive InTurn (config : Config) : Phase → Prop where
  | boot : InTurn config {}
  | routine {before after : Phase} {answers left : List (Duration × Bool)} (reached : InTurn config before)
      (routine : Routine)
      (ran : (routine.body config).run Phase.execute answers before = some ((), after, left)) :
      InTurn config after
  | outside {before : Phase} {world : World} (reached : InTurn config before) (event : Event)
      (acted : before.world.outside event = some world) : InTurn config { before with world }

/-- How long the server may stay in a state, where that is limited. -/
def phaseTimeout (config : Config) : State → Option Duration
  | .starting =>
    if config.server.startTimeout > 0 then some (.fromSecs config.server.startTimeout.toNat) else none
  | .stopping =>
    if config.server.stopTimeout > 0 then some (.fromSecs config.server.stopTimeout.toNat) else none
  | .stopped | .started => none

/-- The server is in a state of limited duration, and has been since the limit or longer. -/
def Due (config : Config) (phase : Phase) : Prop :=
  ∃ timeout ∈ phaseTimeout config phase.world.server.state, ∃ since ∈ phase.changedAt,
    since + timeout ≤ phase.world.clock
  deriving Decidable

/-- The deadline of a state since a moment. -/
def deadlineSince (config : Config) (state : State) (since : Option Instant) : Option Instant :=
  (phaseTimeout config state).bind fun timeout => since.map (· + timeout)

/-- An update is in flight, with the state it has moved to and the reading of the clock that
its deadline is computed from. -/
def measuring (config : Config) : Discipline Op Op.Reply where
  Stage := Option (State × Option Instant)
  advance
    | _, .write .killAt _, _ => none
    | stage, .now, reading => stage.map fun (new, _) => (new, some reading)
    | stage, op, reply => ((op.moved reply).map (·, none)).or stage
  permits
    | none, .write .killAt _ => False
    | none, _ => True
    | some _, .sendState _ | some _, .now => True
    | some (new, reading), .write .killAt value =>
      ((phaseTimeout config new).isSome → reading.isSome) ∧ value = deadlineSince config new reading
    | some _, _ => False

/-- With no update in flight the deadline is that of the state since its last change. In
flight, the clock has not moved on since. -/
def Measured (config : Config) (phase : Phase) : Option (State × Option Instant) → Prop
  | none => phase.world.server.killAt =
      deadlineSince config phase.world.server.state phase.changedAt
  | some (new, reading) => phase.world.server.state = new ∧
      phase.changedAt = some phase.world.clock ∧ ∀ now ∈ reading, now = phase.world.clock

section

variable {config : Config}

private theorem measuring_quiet (op : Op) (other : ¬ op.Updating) : (measuring config).QuietAt none op := by
  cases op with
  | swapState | compareExchange => exact absurd trivial other
  | write cell value => cases cell <;> first
    | exact absurd trivial other
    | exact ⟨trivial, fun _ => rfl⟩
  | _ => exact ⟨trivial, fun _ => rfl⟩

private theorem measuring_background : Unbothered (measuring config) none :=
  fun op member _ => measuring_quiet op member.not_updating

private theorem measuring_bookkept : Bookkept (measuring config) none :=
  fun op member => measuring_quiet op member.not_updating

/-- The value of the deadline is that of the state since the clock was read, if it had to be. -/
private theorem killDeadline_measures (new : State) :
    (killDeadline config new).Follows (measuring config) (some (new, none)) fun value ended =>
      ∃ reading, ended = some (new, reading) ∧ ((phaseTimeout config new).isSome → reading.isSome) ∧
        value = deadlineSince config new reading := by
  have limited (timeout : UInt32) (same : phaseTimeout config new =
      if timeout > 0 then some (.fromSecs timeout.toNat) else none) :
      (deadline timeout).Follows (measuring config) (some (new, none)) fun value ended =>
        ∃ reading, ended = some (new, reading) ∧ ((phaseTimeout config new).isSome → reading.isSome) ∧
          value = deadlineSince config new reading := by
    unfold deadline
    split
    · rename_i positive
      rw [if_pos positive] at same
      exact ⟨trivial, fun now => ⟨some now, rfl, fun _ => rfl, by rw [deadlineSince, same]; rfl⟩⟩
    · rename_i zero
      rw [if_neg zero] at same
      exact ⟨none, rfl, by simp [same], by rw [deadlineSince, same]; rfl⟩
  cases new with
  | starting => exact limited config.server.startTimeout rfl
  | stopping => exact limited config.server.stopTimeout rfl
  | stopped | started => exact ⟨none, rfl, by simp [phaseTimeout], rfl⟩

private theorem settle_measures (new : State) :
    (settle config new).Follows (measuring config) (some (new, none)) fun _ ended => ended = none := by
  refine Program.follows_bind.mpr ⟨trivial, fun _ => ?_⟩
  refine Program.follows_bind.mpr ((killDeadline_measures new).mono ?_)
  rintro value ended ⟨reading, rfl, read, rfl⟩
  refine Program.follows_bind.mpr ⟨⟨read, rfl⟩, fun _ => ?_⟩
  change Program.Keeps (measuring config) none _
  apply Program.Keeps.ite
  · intro _
    exact .bind (updateLastActive_keeps measuring_background measuring_bookkept) fun _ =>
      keepOnlineFor_keeps measuring_background measuring_bookkept _
  · exact fun _ => .pure

/-- An update is over with its write, or never left. -/
private theorem update_measures (current : Option State) (new : State) :
    UpdateKeeps (measuring config) none config current new := by
  apply UpdateKeeps.of_lands fun new => some (new, none)
  · intro op updates
    cases op with
    | swapState | compareExchange => trivial
    | _ => exact updates.elim
  · intro op reply updates
    cases op with
    | swapState | compareExchange =>
      change ((Op.moved _ reply).map (·, none)).or none = _
      cases Op.moved _ reply <;> rfl
    | _ => exact updates.elim
  · exact settle_measures new

/-- Whatever runs to its end leaves no update in flight. -/
theorem Routine.keeps (config : Config) (routine : Routine) :
    (routine.body config).Keeps (measuring config) none := by
  have entries (task : Entry) : (task.body config).Keeps (measuring config) none :=
    body_keeps (fun op other _ _ => measuring_quiet op other) (fun update _ _ => update_measures update.1 update.2)
      task fun _ => ⟨measuring_bookkept, update_measures none .started⟩
  cases routine with
  | entry task => exact entries task
  | launch =>
    refine ⟨trivial, fun spawned => ?_⟩
    cases spawned with
    | error _ => rfl
    | ok pid => exact ⟨trivial, fun _ => rfl⟩
  | cleanUp ended =>
    have command := entries .invokeServerCmd
    rw [Entry.body, invokeServerCmd_eq] at command
    exact ((command.2 (.ok 0)).2 ()).2 ended

theorem Phase.waited_server (phase : Phase) (op : Op) (duration : Duration) :
    (phase.waited op duration).server = phase.world.server := by
  unfold Phase.waited
  split <;> rfl

/-- What an operation leaves, by what it leaves of the surroundings after its wait. -/
theorem Phase.of_execute {phase after : Phase} {op : Op} {answer : Duration × Bool} {reply : op.Reply}
    (executed : phase.execute op answer = some (reply, after)) : ∃ world,
    (phase.waited op answer.1).execute op answer.2 = some (reply, world) ∧
      after.world = world ∧ world.server.state = op.newState phase.world.server.state ∧
        after.changedAt = if op.newState phase.world.server.state = phase.world.server.state then
          phase.changedAt else some world.clock := by
  obtain ⟨⟨reply, world⟩, moved, same⟩ := Option.map_eq_some_iff.mp executed
  cases same
  have state := World.execute_state moved
  rw [Phase.waited_server] at state
  refine ⟨world, moved, rfl, state, ?_⟩
  rw [state]

private theorem advance_landed {op : Op} (permitted : (measuring config).permits none op)
    (reply : op.Reply) :
    (measuring config).advance none op reply = (op.moved reply).map (·, none) := by
  cases op with
  | write cell value => cases cell <;> first
    | exact permitted.elim
    | rfl
  | now => rfl
  | swapState | compareExchange => exact Option.or_none
  | _ => rfl

/-- With no update in flight the deadline stays that of the state, or an update takes off at
this moment. -/
private theorem measured_landed {phase after : Phase} {op : Op} {answer : Duration × Bool}
    {reply : op.Reply} (measured : Measured config phase none)
    (permitted : (measuring config).permits none op)
    (executed : phase.execute op answer = some (reply, after)) :
    Measured config after ((measuring config).advance none op reply) := by
  obtain ⟨world, performed, rfl, state, changedAt⟩ := Phase.of_execute executed
  have moved := World.execute_moved performed
  rw [Phase.waited_server] at moved
  rw [advance_landed permitted, moved]
  split
  · rename_i same
    rw [if_pos same] at changedAt
    have kept : after.world.server.killAt = phase.world.server.killAt := by
      have got := World.execute_get performed .killAt fun value writes => by
        subst writes
        exact permitted
      rw [Phase.waited_server] at got
      exact got
    change after.world.server.killAt = deadlineSince config after.world.server.state after.changedAt
    rw [kept, state, same, changedAt]
    exact measured
  · rename_i differ
    rw [if_neg differ] at changedAt
    exact ⟨state, changedAt, by rintro now ⟨⟩⟩

/-- A reading at the moment of the change gives the deadline from there, and none is needed
where there is no limit. -/
private theorem deadlineSince_reading {new : State} {reading : Option Instant} {moment : Instant}
    (needed : (phaseTimeout config new).isSome → reading.isSome) (read : ∀ now ∈ reading, now = moment) :
    deadlineSince config new reading = deadlineSince config new (some moment) := by
  unfold deadlineSince
  cases limit : phaseTimeout config new with
  | none => rfl
  | some timeout =>
    obtain ⟨now, rfl⟩ := Option.isSome_iff_exists.mp (needed (by rw [limit]; rfl))
    rw [read now rfl]

/-- In flight the state and its moment stay, until the deadline computed from them is written. -/
private theorem measured_flying {phase after : Phase} {op : Op} {answer : Duration × Bool}
    {reply : op.Reply} {new : State} {reading : Option Instant}
    (measured : Measured config phase (some (new, reading)))
    (permitted : (measuring config).permits (some (new, reading)) op)
    (executed : phase.execute op answer = some (reply, after)) :
    Measured config after ((measuring config).advance (some (new, reading)) op reply) := by
  obtain ⟨world, performed, rfl, state, changedAt⟩ := Phase.of_execute executed
  obtain ⟨own, changed, read⟩ := measured
  have clock := World.execute_clock performed
  have unchanged (same : op.newState phase.world.server.state = phase.world.server.state) :
      after.world.server.state = new ∧ after.changedAt = some phase.world.clock := by
    rw [if_pos same, changed] at changedAt
    exact ⟨state.trans (same.trans own), changedAt⟩
  cases op with
  | sendState sent =>
    have still : after.world.clock = phase.world.clock := clock
    obtain ⟨settled, moment⟩ := unchanged rfl
    rw [← still] at moment read
    exact ⟨settled, moment, read⟩
  | now =>
    have still : after.world.clock = phase.world.clock := clock
    have answered : reply = phase.world.clock := World.now_reply performed
    obtain ⟨settled, moment⟩ := unchanged rfl
    rw [← still] at moment answered
    exact ⟨settled, moment, by rintro now ⟨⟩; exact answered⟩
  | write cell value =>
    cases cell with
    | killAt =>
      obtain ⟨needed, rfl⟩ := permitted
      obtain ⟨settled, moment⟩ := unchanged rfl
      have written : after.world.server.killAt = deadlineSince config new reading := by
        rw [World.execute_newServer performed]
        rfl
      change after.world.server.killAt = deadlineSince config after.world.server.state after.changedAt
      rw [written, settled, moment, deadlineSince_reading needed read]
    | _ => exact permitted.elim
  | _ => exact permitted.elim

/-- What every run of non-overlapping routines keeps. -/
theorem InTurn.measured {phase : Phase} (reached : InTurn config phase) : Measured config phase none := by
  induction reached with
  | boot => rfl
  | @routine before _ _ _ _ routine ran ih =>
    have lands : (routine.body config).Ensures Phase.execute before fun _ after =>
        ∃ stage, Measured config after stage ∧ stage = none := by
      apply (routine.keeps config).ensures (Measured config) _ ih
      intro phase stage op answer reply after measured permitted executed
      cases stage with
      | none => exact measured_landed measured permitted executed
      | some flight => exact measured_flying measured permitted executed
    obtain ⟨stage, measured, rfl⟩ := lands.of_run ran
    exact measured
  | @outside before world _ event acted ih =>
    change world.server.killAt = deadlineSince config world.server.state before.changedAt
    rw [World.outside_server acted]
    exact ih

/-- After every run of non-overlapping routines `should_kill` says yes exactly if the server
is in a state of limited duration and has been for as long as the limit. -/
theorem should_kill_iff_due {phase : Phase} (reached : InTurn config phase)
    (running : phase.world.exited = false) :
    shouldKill.run World.execute [] phase.world = some (decide (Due config phase), phase.world, []) := by
  have deadline : phase.world.server.killAt =
      deadlineSince config phase.world.server.state phase.changedAt := reached.measured
  have decided : shouldKill.run World.execute [] phase.world =
      some (decide (∃ killAt ∈ phase.world.server.killAt, killAt ≤ phase.world.clock), phase.world, []) := by
    cases armed : phase.world.server.killAt with
    | none => simp [shouldKill, Program.run, World.execute, World.perform, running, Server.get, armed]
    | some killAt =>
      simp [shouldKill, Program.run, Program.run_map, Program.run_perform, World.execute, World.perform,
        running, Server.get, armed]
  rw [decided, deadline]
  have same : (∃ killAt ∈ deadlineSince config phase.world.server.state phase.changedAt,
      killAt ≤ phase.world.clock) ↔ Due config phase := by
    unfold deadlineSince Due
    simp only [Option.mem_def, Option.bind_eq_some_iff, Option.map_eq_some_iff]
    constructor
    · rintro ⟨killAt, ⟨timeout, limit, since, changed, rfl⟩, past⟩
      exact ⟨timeout, limit, since, changed, past⟩
    · rintro ⟨timeout, limit, since, changed, past⟩
      exact ⟨since + timeout, ⟨timeout, limit, since, changed, rfl⟩, past⟩
  simp only [same]

end

/-- A server that was started a number of seconds ago and has not come online. -/
theorem should_kill_iff_due_starting : ∃ early late : Phase,
    InTurn {} early ∧ InTurn {} late ∧
      shouldKill.run World.execute [] early.world = some (false, early.world, []) ∧
      shouldKill.run World.execute [] late.world = some (true, late.world, []) := by
  have booted : InTurn {} { world := { clock := Duration.fromSecs 10 } } :=
    .outside .boot (.elapse (.fromSecs 10)) rfl
  have started : InTurn {}
      { world :=
          { server :=
              { state := .starting
                published := .starting
                version := 1
                killAt := some (Duration.fromSecs 130) }
            clock := Duration.fromSecs 10 }
        changedAt := some (Duration.fromSecs 10) } :=
    @InTurn.routine _ _ _ [] [] booted (.entry .start) rfl
  have early := InTurn.outside started (.elapse (.fromSecs 119)) rfl
  have late := InTurn.outside started (.elapse (.fromSecs 120)) rfl
  refine ⟨_, _, early, late, ?_, ?_⟩
  · rw [should_kill_iff_due early rfl, decide_eq_false (by decide)]
  · rw [should_kill_iff_due late rfl, decide_eq_true (by decide)]

end PlexPaper
