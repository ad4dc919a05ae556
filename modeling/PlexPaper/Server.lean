import PlexPaper.Config
import PlexPaper.TaskProgram

/-! `server.rs`: the shared server record and the functions that change it, each
as the program of the atomic operations and awaits it performs, in their order.
Log lines are left out. The build is the unix one with the default features, so
every `cfg(unix)` and `cfg(feature = "rcon")` branch is present. -/
namespace PlexPaper
open Tasks

/-- A reading of the monotonic clock, in nanoseconds. -/
abbrev Instant := Nat
abbrev Duration := Nat
abbrev Pid := Nat

def Duration.fromSecs (secs : Nat) : Duration := 1000000000 * secs
def Duration.fromMillis (millis : Nat) : Duration := 1000000 * millis

def SERVER_QUIT_COOLDOWN : Duration := .fromMillis 2500
def RCON_COOLDOWN : Duration := .fromSecs 15
def QUIRK_RCON_GRACE_TIME : Duration := .fromMillis 200
def ALLOWED_EXIT_CODES : List Int := [130, 143]

/-- `server::State`. The atomic holds `to_u8` of it, which `from_u8` inverts. -/
inductive State where
  | stopped
  | starting
  | started
  | stopping
  deriving DecidableEq, Repr

structure OnlinePlayers where
  online : UInt32
  max : UInt32
  deriving DecidableEq

structure ServerVersion where
  name : String
  protocol : UInt32
  deriving DecidableEq

/-- The status a server answers a poll with. -/
structure ServerStatus where
  version : ServerVersion
  players : OnlinePlayers
  description : String
  favicon : Option String
  deriving DecidableEq

/-- How a child process ended: with an exit code, or by a signal. -/
inductive ExitStatus where
  | exited (code : Int)
  | signaled (signal : Nat)
  deriving DecidableEq

def ExitStatus.code : ExitStatus → Option Int
  | .exited code => some code
  | .signaled _ => none

def ExitStatus.success (status : ExitStatus) : Bool := status.code = some 0

inductive Signal where
  | sigkill
  | sigterm
  | sigstop
  | sigcont
  deriving DecidableEq

/-- The fields of `Server` behind a lock of their own. Each is locked for one
read or one write at a time. -/
inductive Cell where
  | pid
  | status
  | lastActive
  | keepOnlineUntil
  | killAt
  | rconLastStop
  deriving DecidableEq

@[reducible] def Cell.Value : Cell → Type
  | .pid => Option Pid
  | .status => Option ServerStatus
  | .lastActive | .keepOnlineUntil | .killAt | .rconLastStop => Option Instant

/-- `server::Server`, as far as its life cycle goes. The watch channel is its
value and the number of values sent. -/
structure Server where
  state : State := .stopped
  published : State := .stopped
  version : Nat := 0
  pid : Option Pid := none
  status : Option ServerStatus := none
  lastActive : Option Instant := none
  keepOnlineUntil : Option Instant := none
  killAt : Option Instant := none
  rconPermits : Nat := 1
  rconLastStop : Option Instant := none

namespace Server

def get (server : Server) : (cell : Cell) → cell.Value
  | .pid => server.pid
  | .status => server.status
  | .lastActive => server.lastActive
  | .keepOnlineUntil => server.keepOnlineUntil
  | .killAt => server.killAt
  | .rconLastStop => server.rconLastStop

def set (server : Server) : (cell : Cell) → cell.Value → Server
  | .pid, value => { server with pid := value }
  | .status, value => { server with status := value }
  | .lastActive, value => { server with lastActive := value }
  | .keepOnlineUntil, value => { server with keepOnlineUntil := value }
  | .killAt, value => { server with killAt := value }
  | .rconLastStop, value => { server with rconLastStop := value }

/-- The lifecycle state is behind no lock. -/
@[simp] theorem set_state (server : Server) (cell : Cell) (value : cell.Value) :
    (server.set cell value).state = server.state := by
  cases cell <;> rfl

theorem get_set (server : Server) (cell : Cell) (value : cell.Value) :
    (server.set cell value).get cell = value := by
  cases cell <;> rfl

end Server

/-- What a task may do to the shared state and to the system around it. An
operation is one step: nothing else happens during it. -/
inductive Op where
  | loadState
  | swapState (new : State)
  | compareExchange (current new : State)
  | sendState (new : State)
  | read (cell : Cell)
  | write (cell : Cell) (value : cell.Value)
  | now
  | sleepUntil (deadline : Instant)
  | spawnServerTask
  | spawnChild
  | waitChild (pid : Pid)
  | sendSignal (pid : Pid) (signal : Signal)
  | acquireRcon
  | releaseRcon
  | rconConnect
  | rconCommand
  | rconClose
  | quit

@[reducible] def Op.Reply : Op → Type
  | .loadState => State
  | .swapState _ => State
  | .compareExchange _ _ => Except State State
  | .read cell => cell.Value
  | .now => Instant
  | .spawnChild => Except Unit Pid
  | .waitChild _ => Except Unit ExitStatus
  | .sendSignal _ _ => Bool
  | .rconConnect => Bool
  | .rconCommand => Bool
  | .sendState _ | .write _ _ | .sleepUntil _ | .spawnServerTask | .acquireRcon | .releaseRcon
  | .rconClose | .quit => Unit

/-- An `async fn` over the shared server. -/
abbrev ServerM := Program Op Op.Reply

abbrev perform (op : Op) : ServerM op.Reply := Program.perform op

namespace Server

/-- `Instant::now() + timeout` when the timeout is positive. -/
def deadline (timeout : UInt32) : ServerM (Option Instant) := do
  if timeout > 0 then
    return some ((← perform .now) + Duration.fromSecs timeout.toNat)
  else
    return none

/-- The value `update_state_from` writes to `kill_at`. -/
def killDeadline (config : Config) : State → ServerM (Option Instant)
  | .starting => deadline config.server.startTimeout
  | .stopping => deadline config.server.stopTimeout
  | _ => pure none

def sleep (duration : Duration) : ServerM Unit := do
  perform (.sleepUntil ((← perform .now) + duration))

def updateLastActive : ServerM Unit := do
  perform (.write .lastActive (some (← perform .now)))

def keepOnlineFor (duration : Option UInt32) : ServerM Unit := do
  match duration.filter (· > 0) with
  | some duration =>
    perform (.write .keepOnlineUntil (some ((← perform .now) + Duration.fromSecs duration.toNat)))
  | none => perform (.write .keepOnlineUntil none)

def updateStateFrom (config : Config) (current : Option State) (new : State) : ServerM Bool := do
  let changed ← match current with
    | some current => perform (.compareExchange current new)
    | none => Except.ok <$> perform (.swapState new)
  match changed with
  | .error _ => return false
  | .ok old =>
    if old = new then
      return false
    perform (.sendState new)
    -- The deadline is computed before the lock on `kill_at` is taken.
    perform (.write .killAt (← killDeadline config new))
    if new = .started then
      updateLastActive
      keepOnlineFor (some config.time.minOnlineTime)
    return true

def updateState (config : Config) (state : State) : ServerM Bool :=
  updateStateFrom config none state

def updateStatus (config : Config) (status : Option ServerStatus) : ServerM Unit := do
  match ← perform .loadState, status with
  | .stopped, some _ | .starting, some _ => let _ ← updateState config .started
  | .started, none => let _ ← updateState config .stopped
  | _, _ => pure ()
  match status with
  | some status =>
    if status.players.online > 0 then
      updateLastActive
    perform (.write .status (some status))
  | none => pure ()

def freezeServerSignal (config : Config) : ServerM Bool := do
  match ← perform (.read .pid) with
  | none => return false
  | some pid =>
    let _frozen ← perform (.sendSignal pid .sigstop)
    let _ ← updateStateFrom config (some .starting) .stopped
    let _ ← updateStateFrom config (some .started) .stopped
    return true

def unfreezeServerSignal (config : Config) : ServerM Bool := do
  match ← perform (.read .pid) with
  | none => return false
  | some pid =>
    let _resumed ← perform (.sendSignal pid .sigcont)
    let _ ← updateStateFrom config (some .stopping) .starting
    let _ ← updateStateFrom config (some .stopped) .starting
    return true

def stopServerSignal (config : Config) : ServerM Bool := do
  match ← perform (.read .pid) with
  | none => return false
  | some pid =>
    if !(← perform (.sendSignal pid .sigterm)) then
      return false
    let _ ← updateStateFrom config (some .starting) .stopping
    let _ ← updateStateFrom config (some .started) .stopping
    return true

/-- The permit is held by a guard, so every return gives it back. An open
connection is closed when it is dropped, before the permit. -/
def stopServerRcon (config : Config) : ServerM Bool := do
  if !config.rcon.enabled then
    return false
  perform .acquireRcon
  let cooledDown ← match ← perform (.read .rconLastStop) with
    | some last => pure (decide ((← perform .now) - last ≥ RCON_COOLDOWN))
    | none => pure true
  if !cooledDown then
    perform .releaseRcon
    return false
  if !(← perform .rconConnect) then
    perform .releaseRcon
    return false
  sleep QUIRK_RCON_GRACE_TIME
  if !(← perform .rconCommand) then
    perform .rconClose
    perform .releaseRcon
    return false
  perform (.write .rconLastStop (some (← perform .now)))
  let _ ← updateState config .stopping
  sleep QUIRK_RCON_GRACE_TIME
  perform .rconClose
  perform .releaseRcon
  return true

def start (config : Config) : ServerM Bool := do
  if !(← updateStateFrom config (some .stopped) .starting) then
    return false
  if config.server.freezeProcess then
    if ← unfreezeServerSignal config then
      return true
  perform .spawnServerTask
  return true

def stop (config : Config) : ServerM Bool := do
  if config.server.freezeProcess then
    if ← freezeServerSignal config then
      return true
  if (← perform .loadState) = .started then
    if ← stopServerRcon config then
      return true
  if ← stopServerSignal config then
    return true
  return false

def forceKill : ServerM Bool := do
  match ← perform (.read .pid) with
  | some pid => perform (.sendSignal pid .sigkill)
  | none => return false

def shouldSleep (config : Config) : ServerM Bool := do
  if (← perform .loadState) ≠ .started then
    return false
  let playersOnline := ((← perform (.read .status)).map fun status =>
    decide (status.players.online > 0)).getD false
  if playersOnline then
    return false
  let keepOnline ← match ← perform (.read .keepOnlineUntil) with
    | some until_ => pure (decide (until_ ≥ (← perform .now)))
    | none => pure false
  if keepOnline then
    return false
  match ← perform (.read .lastActive) with
  | some lastIdle =>
    return decide ((← perform .now) - lastIdle ≥ Duration.fromSecs config.time.sleepAfter.toNat)
  | none => return false

def shouldKill : ServerM Bool := do
  match ← perform (.read .killAt) with
  | some killAt => return decide (killAt ≤ (← perform .now))
  | none => return false

end Server

/-- `invoke_server_cmd`. Splitting the configured command is part of
`spawnChild`; `Result` is kept although the spawned task drops it. -/
def invokeServerCmd (config : Config) : ServerM (Except Unit Unit) := do
  match ← perform .spawnChild with
  | .error err => return .error err
  | .ok pid =>
    perform (.write .pid (some pid))
    let crashed ← match ← perform (.waitChild pid) with
      | .ok status =>
        if status.success then
          pure false
        else if (status.code.map fun code => ALLOWED_EXIT_CODES.contains code).getD false then
          pure false
        else
          pure (decide ((← perform .loadState) = .started))
      | .error _ => pure false
    perform (.write .pid none)
    Server.sleep SERVER_QUIT_COOLDOWN
    let _ ← Server.updateState config .stopped
    if crashed && config.server.wakeOnCrash then
      let _ ← Server.start config
    return .ok ()

end PlexPaper
