import PlexPaper.LifecyclePrograms

/-! When an idle server is put to sleep. The monitor takes in one poll after the
other, each in one piece; starts, stops and processes move in any order between
them. What the server keeps account of is exactly what the history of the run
says, so `should_sleep` is justified by history. -/
namespace PlexPaper
open Tasks Server

/-- What happened so far: when the server last came online, the last status
received, and when one with players online was last received. -/
structure History where
  startedAt : Option Instant := none
  lastStatus : Option ServerStatus := none
  playersAt : Option Instant := none

/-- The surroundings of the proxy with the history kept beside them. -/
structure Recorded where
  world : World := {}
  history : History := {}

/-- The world has moved on, possibly with a status received. -/
def Recorded.observe (recorded : Recorded) (after : World) (received : Option ServerStatus) :
    Recorded where
  world := after
  history :=
    { startedAt :=
        if recorded.world.server.state ≠ .started ∧ after.server.state = .started then
          some after.clock
        else
          recorded.history.startedAt
      lastStatus := received.or recorded.history.lastStatus
      playersAt :=
        if received.any (·.players.online > 0) then some after.clock
        else recorded.history.playersAt }

/-- What comes from outside the tasks: a poll of the monitor, whose result is
taken in at once, or anything the life cycle has outside. -/
inductive SleepEvent where
  | poll (status : Option ServerStatus)
  | event (event : Event)

/-- The life cycle as the monitor drives it. Only it takes in polls. -/
def monitored (config : Config) : System Op Op.Reply Recorded Bool Entry SleepEvent where
  body := Entry.body config
  callable entry := (lifecycle config).callable entry && !entry.polls
  execute recorded op succeeds := (recorded.world.execute op succeeds).map fun (reply, after) =>
    (reply, recorded.observe after none)
  spawns := (lifecycle config).spawns
  outside recorded
    | .poll status => ((updateStatus config status).run World.execute [] recorded.world).map
        fun ((), after, _) => recorded.observe after status
    | .event event => (recorded.world.outside event).map fun after => recorded.observe after none

/-- The later of two moments, where either may not have come. -/
def later : Option Instant → Option Instant → Option Instant
  | some first, some second => some (max first second)
  | some first, none => some first
  | none, second => second

/-- By its history, the server may sleep: it is online, the last status shows no
players, it has been online for more than the minimum time, and idle for the time
to sleep after. -/
def Justified (config : Config) (recorded : Recorded) : Prop :=
  recorded.world.server.state = .started ∧
    (∃ status ∈ recorded.history.lastStatus, status.players.online = 0) ∧
    (config.time.minOnlineTime > 0 → ∃ startedAt ∈ recorded.history.startedAt,
      startedAt + Duration.fromSecs config.time.minOnlineTime.toNat < recorded.world.clock) ∧
    ∃ idleSince ∈ later recorded.history.startedAt recorded.history.playersAt,
      idleSince + Duration.fromSecs config.time.sleepAfter.toNat ≤ recorded.world.clock
  deriving Decidable

/-- The accounts of the server are what the history says. -/
structure Tracked (config : Config) (recorded : Recorded) : Prop where
  status : recorded.world.server.status = recorded.history.lastStatus
  lastActive : recorded.world.server.lastActive =
    later recorded.history.startedAt recorded.history.playersAt
  keepOnlineUntil : recorded.world.server.keepOnlineUntil =
    if config.time.minOnlineTime > 0 then
      recorded.history.startedAt.map (· + Duration.fromSecs config.time.minOnlineTime.toNat)
    else none
  past : ∀ moment, recorded.history.startedAt = some moment ∨
    recorded.history.playersAt = some moment → moment ≤ recorded.world.clock
  online : recorded.world.server.state = .started →
    recorded.history.startedAt.isSome ∧ recorded.history.lastStatus.isSome

/-! ## What a poll does -/

/-- The server comes online. -/
def Server.online (config : Config) (server : Server) (clock : Instant) : Server :=
  { server with
    state := .started
    published := .started
    version := server.version + 1
    killAt := none
    lastActive := some clock
    keepOnlineUntil :=
      if config.time.minOnlineTime > 0 then
        some (clock + Duration.fromSecs config.time.minOnlineTime.toNat)
      else none }

/-- The server no longer answers. -/
def Server.offline (server : Server) : Server :=
  { server with
    state := .stopped
    published := .stopped
    version := server.version + 1
    killAt := none }

/-- The record a poll leaves behind. -/
def Server.receive (config : Config) (server : Server) (status : Option ServerStatus)
    (clock : Instant) : Server :=
  let moved := match server.state, status with
    | .stopped, some _ | .starting, some _ => server.online config clock
    | .started, none => server.offline
    | _, _ => server
  match status with
  | none => moved
  | some status =>
    { moved with
      lastActive := if status.players.online > 0 then some clock else moved.lastActive
      status := some status }

section

variable {config : Config} {world : World}

private theorem updateLastActive_run (running : world.exited = false) :
    updateLastActive.run World.execute [] world =
      some ((), { world with server := { world.server with lastActive := some world.clock } }, []) := by
  simp [updateLastActive, Program.run, Program.run_perform, World.execute, World.perform, running,
    Server.set]

private theorem keepOnlineFor_run (running : world.exited = false) (duration : UInt32) :
    (keepOnlineFor (some duration)).run World.execute [] world =
      some ((), { world with server := { world.server with
        keepOnlineUntil := if duration > 0 then some (world.clock + Duration.fromSecs duration.toNat)
          else none } }, []) := by
  by_cases positive : duration > 0 <;>
    simp [keepOnlineFor, positive, Program.run, Program.run_perform, World.execute, World.perform,
      running, Option.filter, Server.set]

/-- Coming online writes down the moment, and how long to stay. -/
private theorem online_run (running : world.exited = false) (other : world.server.state ≠ .started) :
    (updateState config .started).run World.execute [] world =
      some (true, { world with server := world.server.online config world.clock }, []) := by
  simp [updateState, updateStateFrom_none, settle, killDeadline, Program.run_bind, Program.run_map,
    Program.run, World.execute, World.perform, running, other, updateLastActive_run, keepOnlineFor_run,
    Server.set, Server.online]

private theorem offline_run (running : world.exited = false) (other : world.server.state ≠ .stopped) :
    (updateState config .stopped).run World.execute [] world =
      some (true, { world with server := world.server.offline }, []) := by
  simp [updateState, updateStateFrom_none, settle, killDeadline, Program.run_map, Program.run_perform,
    Program.run, World.execute, World.perform, running, other, Server.set, Server.offline]

/-- What `update_status` does with a status once the state is updated. -/
private theorem received_run (running : world.exited = false) (status : ServerStatus) :
    (do
      if status.players.online > 0 then
        updateLastActive
      perform (.write .status (some status)) : ServerM Unit).run World.execute [] world =
      some ((), { world with server := { world.server with
        lastActive := if status.players.online > 0 then some world.clock else world.server.lastActive
        status := some status } }, []) := by
  by_cases players : status.players.online > 0 <;>
    simp [players, Program.run_bind, Program.run_perform, updateLastActive_run, World.execute,
      World.perform, running, Server.set]

/-- A poll is taken in as `receive` says. -/
theorem updateStatus_run (running : world.exited = false) (status : Option ServerStatus) :
    (updateStatus config status).run World.execute [] world =
      some ((), { world with server := world.server.receive config status world.clock }, []) := by
  have loaded (rest : State → ServerM Unit) :
      (Program.request .loadState rest).run World.execute [] world =
        (rest world.server.state).run World.execute [] world := by
    simp [Program.run, World.execute, World.perform, running]
  simp only [updateStatus, Program.perform_bind, loaded]
  cases status with
  | none =>
    cases state : world.server.state with
    | started =>
      simp [Program.run_map, offline_run running (by simp [state]), Server.receive, state]
    | stopped | starting | stopping => simp [Server.receive, state]
  | some status =>
    cases state : world.server.state with
    | stopped | starting =>
      simp [Program.run_bind, online_run running (by simp [state]), received_run, Server.receive,
        running, state]
    | started | stopping => simp [received_run running, Server.receive, state]

/-- `should_sleep` decides by the accounts of the server alone. -/
theorem shouldSleep_run (running : world.exited = false) :
    (shouldSleep config).run World.execute [] world =
      some (decide (world.server.state = .started ∧
        world.server.status.all (·.players.online = 0) ∧
        world.server.keepOnlineUntil.all (· < world.clock) ∧
        world.server.lastActive.any
          (world.clock - · ≥ Duration.fromSecs config.time.sleepAfter.toNat)), world, []) := by
  obtain ⟨server, children, clock, exited⟩ := world
  obtain ⟨state, published, version, pid, status, lastActive, keepOnlineUntil, killAt⟩ := server
  cases running
  unfold shouldSleep
  generalize Duration.fromSecs config.time.sleepAfter.toNat = sleepAfter
  cases state with
  | started =>
    by_cases players : status.all (·.players.online = 0)
    · have idle : (status.map fun status => decide (status.players.online > 0)).getD false = false := by
        cases status with
        | none => rfl
        | some status => simpa using players
      cases keepOnlineUntil with
      | none =>
        cases lastActive <;>
          simp [Program.run, Program.run_map, Program.run_perform, World.execute, World.perform,
            Server.get, idle, players]
      | some until_ =>
        by_cases kept : clock ≤ until_
        · have after : ¬ until_ < clock := Nat.not_lt.mpr kept
          simp [Program.run, World.execute, World.perform, Server.get, idle, kept, after]
        · have after : until_ < clock := Nat.lt_of_not_le kept
          cases lastActive <;>
            simp [Program.run, Program.run_map, Program.run_perform, World.execute, World.perform,
              Server.get, idle, players, kept, after]
    · have busy : (status.map fun status => decide (status.players.online > 0)).getD false = true := by
        cases status with
        | none => simp at players
        | some status => simpa [UInt32.pos_iff_ne_zero] using players
      simp [Program.run, World.execute, World.perform, Server.get, busy, players]
  | _ => simp [Program.run, World.execute, World.perform]

end

/-! ## The accounts along a run -/

/-- The protocol of the tasks beside the monitor: they never move the server to
`Started` and keep no account. -/
def bystanders : Protocol Op Op.Reply Entry where
  Stage := Unit
  advance _ _ _ := ()
  permits _ op := ¬ op.Bookkeeping ∧ ∀ state, op.newState state = .started → state = .started
  enter _ := ()

private theorem bystander_quiet (op : Op) (other : ¬ op.Updating) (silent : ¬ op.Bookkeeping) :
    bystanders.QuietAt () op :=
  ⟨⟨silent, fun state => by rw [Op.newState_of_not_updating other]; exact id⟩, fun _ => rfl⟩

private theorem bystander_update {config : Config} (current : Option State) (new : State)
    (other : new ≠ .started) : UpdateKeeps bystanders.toDiscipline () config current new := by
  have background : Unbothered bystanders.toDiscipline () :=
    fun op member _ => bystander_quiet op member.not_updating member.not_bookkeeping
  have sending : bystanders.QuietAt () (.sendState new) := bystander_quiet _ id id
  have arming (value : Option Instant) : bystanders.QuietAt () (.write .killAt value) :=
    ⟨⟨id, fun _ => id⟩, fun _ => rfl⟩
  cases current with
  | none =>
    refine updateStateFrom_none_keeps background sending arming (fun same => absurd same other) ?_
    exact ⟨⟨id, fun _ started => absurd started other⟩, fun _ => rfl⟩
  | some current =>
    refine updateStateFrom_some_keeps background sending arming (fun same => absurd same other) ?_
    refine ⟨⟨id, fun state started => ?_⟩, fun _ => rfl⟩
    simp only [Op.newState] at started
    split at started
    · exact absurd started other
    · exact started

theorem monitored_bystanders (config : Config) : (monitored config).Obeys bystanders := by
  intro entry entered
  have silent : entry.polls = false := by
    rcases entered with callable | ⟨op, spawned⟩
    · simp only [monitored, Bool.and_eq_true, Bool.not_eq_true'] at callable
      exact callable.2
    · cases op with
      | spawnServerTask => rw [List.mem_singleton.mp spawned]; rfl
      | _ => cases spawned
  have keeps : (entry.body config).Keeps bystanders.toDiscipline (bystanders.enter entry) :=
    body_keeps (fun op other _ silent => bystander_quiet op other silent)
      (fun update _ other => bystander_update update.1 update.2 other) entry
      (fun polls => by rw [silent] at polls; cases polls)
  exact keeps.follows fun _ => trivial

/-- What happens now is later than anything past. -/
private theorem later_now {clock : Instant} {moment : Option Instant}
    (past : ∀ earlier, moment = some earlier → earlier ≤ clock) :
    later (some clock) moment = some clock ∧ later moment (some clock) = some clock := by
  cases moment with
  | none => exact ⟨rfl, rfl⟩
  | some earlier =>
    have before := past earlier rfl
    constructor
    · exact congrArg some (Nat.max_eq_left before)
    · exact congrArg some (Nat.max_eq_right before)

namespace Tracked

variable {config : Config} {recorded : Recorded}

/-- The accounts stay true while nothing is received and the server does not come
online. -/
theorem calm (tracked : Tracked config recorded) {after : World}
    (same : after.server.status = recorded.world.server.status ∧
      after.server.lastActive = recorded.world.server.lastActive ∧
      after.server.keepOnlineUntil = recorded.world.server.keepOnlineUntil)
    (clock : recorded.world.clock ≤ after.clock)
    (started : after.server.state = .started → recorded.world.server.state = .started) :
    Tracked config (recorded.observe after none) := by
  obtain ⟨status, lastActive, keepOnlineUntil⟩ := same
  have unchanged : recorded.observe after none = { world := after, history := recorded.history } := by
    have stays : ¬ (recorded.world.server.state ≠ .started ∧ after.server.state = .started) :=
      fun ⟨other, now⟩ => other (started now)
    simp [Recorded.observe, if_neg stays]
  rw [unchanged]
  exact { status := status.trans tracked.status
          lastActive := lastActive.trans tracked.lastActive
          keepOnlineUntil := keepOnlineUntil.trans tracked.keepOnlineUntil
          past := fun moment happened => Nat.le_trans (tracked.past moment happened) clock
          online := fun now => tracked.online (started now) }

/-- A status counts as the last one, and as activity where players are online. -/
private theorem received (tracked : Tracked config recorded) (status : ServerStatus) :
    Tracked config (recorded.observe { recorded.world with server := { recorded.world.server with
      lastActive := if status.players.online > 0 then some recorded.world.clock
        else recorded.world.server.lastActive
      status := some status } } (some status)) where
  status := by simp [Recorded.observe]
  lastActive := by
    have latest := (later_now fun moment happened => tracked.past moment (.inl happened)).2
    by_cases players : 0 < status.players.online
    · simp [Recorded.observe, players, latest]
    · simp [Recorded.observe, players, tracked.lastActive]
  keepOnlineUntil := by simp [Recorded.observe, tracked.keepOnlineUntil]
  past moment happened := by
    by_cases players : 0 < status.players.online
    · simp [Recorded.observe, players] at happened
      rcases happened with started | rfl
      · exact tracked.past moment (.inl started)
      · exact Nat.le_refl _
    · simp [Recorded.observe, players] at happened
      exact tracked.past moment happened
  online started := by
    have same : recorded.world.server.state = .started := started
    simpa [Recorded.observe, same] using (tracked.online same).1

/-- Coming online counts as activity, and sets the minimum time online. -/
private theorem online_received (tracked : Tracked config recorded) (status : ServerStatus)
    (other : recorded.world.server.state ≠ .started) :
    Tracked config (recorded.observe { recorded.world with server :=
      { recorded.world.server.online config recorded.world.clock with
        lastActive := if status.players.online > 0 then some recorded.world.clock
          else (recorded.world.server.online config recorded.world.clock).lastActive
        status := some status } } (some status)) where
  status := by simp [Recorded.observe]
  lastActive := by
    have latest := (later_now fun moment happened => tracked.past moment (.inr happened)).1
    by_cases players : 0 < status.players.online
    · simp [Recorded.observe, Server.online, other, players, later]
    · simp [Recorded.observe, Server.online, other, players, latest]
  keepOnlineUntil := by simp [Recorded.observe, Server.online, other]
  past moment happened := by
    by_cases players : 0 < status.players.online
    · simp [Recorded.observe, Server.online, other, players] at happened
      exact Nat.le_of_eq happened.symm
    · simp [Recorded.observe, Server.online, other, players] at happened
      rcases happened with rfl | before
      · exact Nat.le_refl _
      · exact tracked.past moment (.inr before)
  online _ := by simp [Recorded.observe, Server.online, other]

/-- A poll keeps the accounts true. -/
theorem polled (tracked : Tracked config recorded) (status : Option ServerStatus) :
    Tracked config (recorded.observe { recorded.world with
      server := recorded.world.server.receive config status recorded.world.clock } status) := by
  cases status with
  | none =>
    apply tracked.calm
    · cases state : recorded.world.server.state <;> simp [Server.receive, Server.offline, state]
    · exact Nat.le_refl _
    · cases state : recorded.world.server.state <;> simp [Server.receive, Server.offline, state]
  | some status =>
    cases state : recorded.world.server.state with
    | stopped | starting =>
      have other : recorded.world.server.state ≠ .started := by simp [state]
      simpa [Server.receive, state] using tracked.online_received status other
    | started | stopping => simpa [Server.receive, state] using tracked.received status

end Tracked

/-- An operation of a task beside the monitor keeps the accounts true. -/
private theorem Tracked.performed {config : Config} {recorded : Recorded} {after : World} {op : Op}
    {reply : op.Reply} {succeeds : Bool} (tracked : Tracked config recorded)
    (permitted : bystanders.permits () op)
    (executed : recorded.world.execute op succeeds = some (reply, after)) :
    Tracked config (recorded.observe after none) := by
  obtain ⟨silent, offline⟩ := permitted
  have kept (cell : Cell) (account : ∀ value, (Op.write cell value).Bookkeeping) :
      after.server.get cell = recorded.world.server.get cell := by
    apply World.execute_get executed
    rintro value rfl
    exact silent (account value)
  apply tracked.calm
  · exact ⟨kept .status fun _ => trivial, kept .lastActive fun _ => trivial,
      kept .keepOnlineUntil fun _ => trivial⟩
  · exact Nat.le_of_eq (World.execute_clock executed).symm
  · intro started
    rw [World.execute_state executed] at started
    exact offline _ started

/-- In every run the accounts are what the history says. -/
theorem tracked_of_reached {config : Config} {proxy : Pool Op Op.Reply Recorded Entry}
    (reached : (monitored config).Reaches (fun _ _ => True) (System.initial {}) proxy) :
    Tracked config proxy.world := by
  refine bystanders.invariant (monitored_bystanders config) (fun recorded _ => Tracked config recorded)
    ?_ ?_ ?_ ?_ reached
  · constructor
    · rfl
    · rfl
    · simp
    · rintro moment (happened | happened) <;> cases happened
    · intro started
      cases started
  · exact fun _ _ _ _ tracked => tracked
  · intro recorded _ happening after acted tracked
    cases happening with
    | poll status =>
      obtain ⟨⟨_, world, _⟩, taken, rfl⟩ := Option.map_eq_some_iff.mp acted
      cases running : recorded.world.exited with
      | true => simp [updateStatus, Program.run, World.execute, running] at taken
      | false =>
        rw [updateStatus_run running] at taken
        cases taken
        exact tracked.polled status
    | event event =>
      obtain ⟨world, moved, rfl⟩ := Option.map_eq_some_iff.mp acted
      have same := World.outside_server moved
      apply tracked.calm
      · simp [same]
      · exact World.outside_clock moved
      · simp [same]
  · intro proxy index succeeds task op reply after _ _ _ _ _ permitted executed _ tracked
    obtain ⟨⟨reply, world⟩, done, same⟩ := Option.map_eq_some_iff.mp executed
    cases same
    exact tracked.performed permitted done

/-- The later of two past moments is past. -/
private theorem Tracked.past_later {config : Config} {recorded : Recorded}
    (tracked : Tracked config recorded) {moment : Instant}
    (latest : later recorded.history.startedAt recorded.history.playersAt = some moment) :
    moment ≤ recorded.world.clock := by
  have past := tracked.past
  cases started : recorded.history.startedAt with
  | none => exact past moment (.inr (by simpa [started, later] using latest))
  | some startedAt =>
    cases players : recorded.history.playersAt with
    | none => exact past moment (.inl (by simpa [started, players, later] using latest))
    | some playersAt =>
      rw [started, players] at latest
      cases latest
      exact Nat.max_le.mpr ⟨past startedAt (.inl started), past playersAt (.inr players)⟩

/-- Where the accounts are true, deciding by them is deciding by the history. -/
theorem Tracked.justified_iff {config : Config} {recorded : Recorded}
    (tracked : Tracked config recorded) :
    (recorded.world.server.state = .started ∧
      recorded.world.server.status.all (·.players.online = 0) ∧
      recorded.world.server.keepOnlineUntil.all (· < recorded.world.clock) ∧
      recorded.world.server.lastActive.any (recorded.world.clock - · ≥
        Duration.fromSecs config.time.sleepAfter.toNat)) ↔ Justified config recorded := by
  unfold Justified
  refine and_congr_right fun started => ?_
  obtain ⟨online, polled⟩ := tracked.online started
  obtain ⟨startedAt, online⟩ := Option.isSome_iff_exists.mp online
  obtain ⟨status, polled⟩ := Option.isSome_iff_exists.mp polled
  refine and_congr ?_ (and_congr ?_ ?_)
  · simp [tracked.status, polled]
  · by_cases limited : 0 < config.time.minOnlineTime
    · simp [tracked.keepOnlineUntil, online, limited]
    · simp [tracked.keepOnlineUntil, limited]
  · rw [tracked.lastActive]
    cases latest : later recorded.history.startedAt recorded.history.playersAt with
    | none => simp
    | some idleSince =>
      have before := tracked.past_later latest
      simp only [Option.any_some, ge_iff_le, decide_eq_true_eq, Option.mem_def, Option.some.injEq,
        exists_eq_left']
      exact Nat.le_sub_iff_add_le' before

/-- `should_sleep` says yes exactly if the history justifies it, after any run
of polls with anything going on between them, and at any later time. -/
theorem should_sleep_iff_justified {config : Config} {proxy : Pool Op Op.Reply Recorded Entry}
    (reached : (monitored config).Reaches (fun _ _ => True) (System.initial {}) proxy)
    (running : proxy.world.world.exited = false) :
    (shouldSleep config).run World.execute [] proxy.world.world =
      some (decide (Justified config proxy.world), proxy.world.world, []) := by
  rw [shouldSleep_run running]
  have justified := (tracked_of_reached reached).justified_iff
  simp only [justified]

/-- A server that was found running, had a player and stopped answering, was
started, came online, and was left alone for a number of seconds. -/
private def onlineTwice (seconds : Nat) : List (Move Bool Entry SleepEvent) :=
  [.outside (.poll (some dummyStatus)), .outside (.event (.elapse (.fromSecs 100))),
    .outside (.poll (some { dummyStatus with players := { online := 1, max := 20 } })),
    .outside (.poll none), .call .start] ++ List.replicate 5 (.run 0 true) ++
  [.outside (.event (.elapse (.fromSecs 400))), .outside (.poll (some dummyStatus)),
    .outside (.event (.elapse (.fromSecs seconds)))]

/-- It is let be until the time to sleep after is over. -/
theorem should_sleep_iff_justified_online_twice : ∃ early late,
    (monitored {}).play (fun _ _ => True) (System.initial {}) (onlineTwice 299) = some early ∧
    (monitored {}).play (fun _ _ => True) (System.initial {}) (onlineTwice 300) = some late ∧
    (shouldSleep {}).run World.execute [] early.world.world = some (false, early.world.world, []) ∧
    (shouldSleep {}).run World.execute [] late.world.world = some (true, late.world.world, []) := by
  have before : ((monitored {}).play (fun _ _ => True) (System.initial {}) (onlineTwice 299)).map
      (fun proxy => decide (¬ Justified {} proxy.world ∧ proxy.world.world.exited = false)) =
      some true := by decide
  have after : ((monitored {}).play (fun _ _ => True) (System.initial {}) (onlineTwice 300)).map
      (fun proxy => decide (Justified {} proxy.world ∧ proxy.world.world.exited = false)) =
      some true := by decide
  obtain ⟨early, playedEarly, factsEarly⟩ := Option.map_eq_some_iff.mp before
  obtain ⟨late, playedLate, factsLate⟩ := Option.map_eq_some_iff.mp after
  obtain ⟨unjustified, runningEarly⟩ := of_decide_eq_true factsEarly
  obtain ⟨justified, runningLate⟩ := of_decide_eq_true factsLate
  refine ⟨early, late, playedEarly, playedLate, ?_, ?_⟩
  · rw [should_sleep_iff_justified (System.play_reaches playedEarly) runningEarly,
      decide_eq_false unjustified]
  · rw [should_sleep_iff_justified (System.play_reaches playedLate) runningLate,
      decide_eq_true justified]

end PlexPaper
