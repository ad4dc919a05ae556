import PlexPaper.Forge
import PlexPaper.Server
import PlexPaper.TaskPool

/-! `probe.rs`, and the lobby's use of what it stores: the probe logs in at the
real server, records the login plugin requests it gets on the way, and keeps
them and the game data for lobby clients, behind two locks. Every await is one
operation, and a timer may have run out before any of them. What `Server::start`
and the rest of the proxy do behind other locks is left out. -/
namespace PlexPaper.Probe
open Tasks Outcome

def PROBE_USER : String := "_plexpaper_probe"

/-- The three deadlines of a probe. -/
inductive Timer where
  | online
  | connect
  | joinGame
  deriving DecidableEq

/-- What a probe or a lobby client waits for. `receive` is `read_packet`; what it
returns is in the bytes of the connection. `loginStart` is the lobby getting as
far as the login of its client. -/
inductive Op (JoinGame : Type) where
  | start
  | stateChanged
  | elapsed (timer : Timer)
  | connect
  | send (bytes : List UInt8)
  | receive
  | shutdown
  | storeJoinGame (joinGame : JoinGame)
  | storePayload (payload : List (List UInt8))
  | readJoinGame
  | readPayload
  | loginStart
  | deliver (frame : List UInt8)

@[reducible] def Op.Reply {JoinGame : Type} : Op JoinGame → Type
  | .start | .elapsed _ | .connect | .send _ | .shutdown | .loginStart | .deliver _ => Bool
  | .stateChanged => State
  | .receive | .storeJoinGame _ | .storePayload _ => Unit
  | .readJoinGame => Option JoinGame
  | .readPayload => List (List UInt8)

abbrev ProbeM (JoinGame : Type) := Program (Op JoinGame) Op.Reply

abbrev perform {JoinGame : Type} (op : Op JoinGame) : ProbeM JoinGame op.Reply := Program.perform op

/-- The real server as one probe meets it: the address the probe connects from,
if known, every byte it will be sent, and how many state updates it will see
before its first deadline. -/
structure Backend where
  address : Option SocketAddr
  reads : List Read
  updates : Nat

/-- What one packet of the login makes the probe do. -/
inductive LoginStep where
  | setCompression (threshold : Int32)
  | respond (record : Bool) (bytes : List UInt8)
  | success
  | unhandled

section Programs

variable {ModList JoinGame : Type} (wire : Wire ModList JoinGame) (config : Config)

/-- `time::timeout`. -/
def timeout {α : Type} (timer : Timer) (task : ProbeM JoinGame α) : ProbeM JoinGame (Option α) :=
  task.timeout (.elapsed timer) id

/-- A deadline that turns into an error, as `timeout(..).await.map_err(..)?`. -/
def timeoutErr {α : Type} (timer : Timer) (task : ProbeM JoinGame (Outcome α)) :
    ProbeM JoinGame (Outcome α) := do
  match ← timeout timer task with
  | some result => return result
  | none => return .error .err

/-- The task that `wait_until_online` runs. When no further update comes its
deadline passes. -/
def taskWait : (updates : Nat) → ProbeM JoinGame Bool
  | 0 => pure false
  | updates + 1 => do
    match ← perform .stateChanged with
    | .starting => taskWait updates
    | .started => return true
    | .stopping => return false
    | .stopped => return false

def waitUntilOnline (updates : Nat) : ProbeM JoinGame Bool := do
  match ← timeout .online (taskWait updates) with
  | some online => return online
  | none => return false

/-- `packet::write_packet`, with the write. -/
def sendPacket (packet : Outgoing) (client : Client) : ProbeM JoinGame (Outcome Unit) := do
  match writePacket wire.toCodecs packet client with
  | .error fault => return .error fault
  | .ok bytes => if ← perform (.send bytes) then return .ok () else return .error .err

/-- The branches of the login loop, up to the writing of a response. -/
def loginStep (client : Client) (packet : RawPacket) : Outcome LoginStep :=
  if client.state = .login ∧ packet.id = wire.clientSetCompression then do
    let threshold ← question (wire.decodeSetCompression packet.data)
    return .setCompression threshold
  else if client.state = .login ∧ packet.id = wire.clientLoginPluginRequest then do
    let pluginRequest ← question (wire.decodeLoginPluginRequest packet.data)
    if config.server.forge then
      return .respond true (← respondLoginPluginRequest wire client pluginRequest)
    else
      return .respond false (← writePacket wire.toCodecs (wire.loginPluginResponse
        { messageId := pluginRequest.messageId, successful := false, data := [] }) client)
  else if client.state = .login ∧ packet.id = wire.clientLoginSuccess then return .success
  else return .unhandled

/-- The loop of `wait_for_server_join_game_no_timeout`. -/
def waitForServerJoinGameNoTimeout (client : Client) (clientInfo : ClientInfo) :
    (limit : Nat) → Conn → ProbeM JoinGame (Outcome JoinGame)
  | 0, _ => pure (.error .err)
  | limit + 1, conn => do
    perform .receive
    match readPacket wire.toCodecs client conn with
    | (.ok (some (packet, _)), conn) =>
      if isJoinGame wire clientInfo packet.id then
        return question (joinGameFromPacket wire clientInfo packet)
      waitForServerJoinGameNoTimeout client clientInfo limit conn
    | (.error .panic, _) => return .error .panic
    | (.ok none, _) | (.error .err, _) =>
      let _ ← perform .shutdown
      return .error .err

def waitForServerJoinGame (client : Client) (clientInfo : ClientInfo) (limit : Nat) (conn : Conn) :
    ProbeM JoinGame (Outcome JoinGame) :=
  timeoutErr .joinGame (waitForServerJoinGameNoTimeout wire client clientInfo limit conn)

/-- The loop of `connect_to_server_no_timeout`. -/
def loginLoop (clientInfo : ClientInfo) :
    (limit : Nat) → Client → Conn → (forgePayload : List (List UInt8)) →
      ProbeM JoinGame (Outcome (List (List UInt8)))
  | 0, _, _, _ => pure (.error .err)
  | limit + 1, client, conn, forgePayload => do
    perform .receive
    match readPacket wire.toCodecs client conn with
    | (.ok (some (packet, raw)), conn) =>
      match loginStep wire config client packet with
      | .error fault => return .error fault
      | .ok (.setCompression threshold) =>
        loginLoop clientInfo limit (client.setCompression threshold) conn forgePayload
      | .ok (.respond record bytes) =>
        if ← perform (.send bytes) then
          loginLoop clientInfo limit client conn
            (if record then forgePayload ++ [raw] else forgePayload)
        else
          return .error .err
      | .ok .success =>
        match ← waitForServerJoinGame wire (client.setState .play) clientInfo limit conn with
        | .error fault => return .error fault
        | .ok joinGame =>
          perform (.storeJoinGame joinGame)
          let _ ← perform .shutdown
          return .ok forgePayload
      | .ok .unhandled => loginLoop clientInfo limit client conn forgePayload
    | (.error .panic, _) => return .error .panic
    | (.ok none, _) | (.error .err, _) =>
      let _ ← perform .shutdown
      return .error .err

/-- The client a probe logs in as. -/
def tmpClient (backend : Backend) : Client :=
  ((backend.address.map Client.new).getD .dummy).setState .login

def tmpClientInfo : ClientInfo :=
  { ClientInfo.empty with protocol := some config.publicConfig.protocol }

/-- No call of `read_packet` returns a packet without using up a byte, so this many
iterations are enough. -/
def Backend.limit (backend : Backend) : Nat := (Conn.mk [] backend.reads).size + 1

def connectToServerNoTimeout (backend : Backend) :
    ProbeM JoinGame (Outcome (List (List UInt8))) := do
  let client := tmpClient backend
  let ip := wire.showIp config.server.address.ip
  if ← perform .connect then
    match ← sendPacket wire (wire.handshake
      { protocolVersion := config.publicConfig.protocol.toInt32
        serverAddr := if config.server.forge then ip ++ STATUS_MAGIC else ip
        serverPort := config.server.address.port
        nextState := ClientState.login.toId }) client with
    | .error fault => return .error fault
    | .ok () =>
      match ← sendPacket wire (wire.loginStart PROBE_USER) client with
      | .error fault => return .error fault
      | .ok () =>
        loginLoop wire config (tmpClientInfo config) backend.limit client ⟨[], backend.reads⟩ []
  else
    return .error .err

def connectToServer (backend : Backend) : ProbeM JoinGame (Outcome (List (List UInt8))) :=
  timeoutErr .connect (connectToServerNoTimeout wire config backend)

/-- `probe::probe`. -/
def probe (backend : Backend) : ProbeM JoinGame (Outcome Unit) := do
  let _ ← perform .start
  if ← waitUntilOnline backend.updates then
    match ← connectToServer wire config backend with
    | .error fault => return .error fault
    | .ok forgePayload =>
      perform (.storePayload forgePayload)
      return .ok ()
  else
    return .error .err

/-- `join::lobby::must_still_probe`. -/
def mustStillProbe : ProbeM JoinGame Bool := do
  if config.server.forge then return (← perform .readJoinGame).isNone else return false

/-- `forge::replay_login_payload`, up to the draining of the client's answers. -/
def replayLoginPayload : ProbeM JoinGame Unit := do
  deliverAll (← perform .readPayload)
where
  deliverAll : List (List UInt8) → ProbeM JoinGame Unit
    | [] => pure ()
    | frame :: frames => do
      if ← perform (.deliver frame) then deliverAll frames

/-- `join::lobby::occupy`, as far as the replay of `lobby::serve`. -/
def occupy : ProbeM JoinGame Unit := do
  if ← mustStillProbe config then return ()
  else if ← perform .loginStart then
    if config.server.forge then replayLoginPayload

/-- The frames that the login loop records on its way to the game data. -/
def recordedFrames : (limit : Nat) → Client → Conn → List (List UInt8)
  | 0, _, _ => []
  | limit + 1, client, conn =>
    match readPacket wire.toCodecs client conn with
    | (.ok (some (packet, raw)), conn) =>
      match loginStep wire config client packet with
      | .ok (.setCompression threshold) =>
        recordedFrames limit (client.setCompression threshold) conn
      | .ok (.respond record _) => (if record then [raw] else []) ++ recordedFrames limit client conn
      | .ok .unhandled => recordedFrames limit client conn
      | .ok .success | .error _ => []
    | _ => []

def Backend.recorded (backend : Backend) : List (List UInt8) :=
  recordedFrames wire config backend.limit (tmpClient backend) ⟨[], backend.reads⟩

/-- More iterations than there are bytes change nothing. -/
theorem waitForServerJoinGameNoTimeout_enough {client : Client} {clientInfo : ClientInfo}
    {limit : Nat} {conn : Conn} (enough : conn.size < limit) :
    waitForServerJoinGameNoTimeout wire client clientInfo (limit + 1) conn =
      waitForServerJoinGameNoTimeout wire client clientInfo limit conn := by
  induction limit generalizing conn with
  | zero => omega
  | succ limit ih =>
    rw [waitForServerJoinGameNoTimeout, waitForServerJoinGameNoTimeout]
    rcases read : readPacket wire.toCodecs client conn with ⟨(_ | _) | (_ | sent), after⟩
    · rfl
    · rfl
    · rfl
    · have fewer : after.size < limit := by
        have := readPacket_shrinks read
        omega
      simp only [ih fewer]

theorem waitForServerJoinGame_enough {client : Client} {clientInfo : ClientInfo} {limit : Nat}
    {conn : Conn} (enough : conn.size < limit) :
    waitForServerJoinGame wire client clientInfo (limit + 1) conn =
      waitForServerJoinGame wire client clientInfo limit conn := by
  rw [waitForServerJoinGame, waitForServerJoinGameNoTimeout_enough wire enough]
  rfl

theorem loginLoop_enough {clientInfo : ClientInfo} {limit : Nat} {client : Client} {conn : Conn}
    {forgePayload : List (List UInt8)} (enough : conn.size < limit) :
    loginLoop wire config clientInfo (limit + 1) client conn forgePayload =
      loginLoop wire config clientInfo limit client conn forgePayload := by
  induction limit generalizing client conn forgePayload with
  | zero => omega
  | succ limit ih =>
    rw [loginLoop, loginLoop]
    rcases read : readPacket wire.toCodecs client conn with ⟨(_ | _) | (_ | sent), after⟩
    · rfl
    · rfl
    · rfl
    · have fewer : after.size < limit := by
        have := readPacket_shrinks read
        omega
      simp only [ih fewer, waitForServerJoinGame_enough wire fewer]

end Programs

/-- The two fields of `Server` that the probe fills, each behind its own lock. -/
structure World (JoinGame : Type) where
  probedJoinGame : Option JoinGame := none
  forgePayload : List (List UInt8) := []

/-- What the outside decides: whether something succeeds, whether a deadline has
passed, and what state the server is in. -/
structure Answer where
  succeeds : Bool := true
  elapsed : Bool := false
  state : State := .started

def World.execute {JoinGame : Type} (world : World JoinGame) :
    (op : Op JoinGame) → Answer → Option (op.Reply × World JoinGame)
  | .start, answer | .connect, answer | .send _, answer | .shutdown, answer
  | .loginStart, answer | .deliver _, answer => some (answer.succeeds, world)
  | .elapsed _, answer => some (answer.elapsed, world)
  | .stateChanged, answer => some (answer.state, world)
  | .receive, _ => some ((), world)
  | .storeJoinGame joinGame, _ => some ((), { world with probedJoinGame := some joinGame })
  | .storePayload forgePayload, _ => some ((), { world with forgePayload })
  | .readJoinGame, _ => some (world.probedJoinGame, world)
  | .readPayload, _ => some (world.forgePayload, world)

/-- The proxy runs one probe; any number of clients join. -/
inductive Entry where
  | probe
  | lobby
  deriving DecidableEq

/-- The probe and the lobby clients as a system of tasks. More than one probe of
the same server is allowed for. -/
def probing {ModList JoinGame : Type} (wire : Wire ModList JoinGame) (config : Config)
    (backend : Backend) :
    System (Op JoinGame) Op.Reply (World JoinGame) Answer Entry Empty where
  body
    | .probe => discard (probe wire config backend)
    | .lobby => occupy config
  callable _ := true
  execute := World.execute
  spawns _ := []
  outside _ event := nomatch event

end PlexPaper.Probe
