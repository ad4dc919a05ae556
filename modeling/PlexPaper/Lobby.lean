import PlexPaper.LobbyPackets

/-! `lobby.rs`, with the replay of `forge.rs`: the program that serves one lobby
client until it is handed over. The client sees a world of its own while the server
starts; then the proxy logs in at the server in its place, drops what the client has
sent in the meantime, and relays between the two. Every loop is cut after `rounds`
iterations. -/
namespace PlexPaper.Lobby
open Tasks Outcome

/-- The real server as one lobby client meets it: the address it is connected from,
if known, and every byte it will send. -/
structure Backend where
  localAddr : Option SocketAddr
  reads : List Read

section Programs

variable {ModList JoinGame : Type} (wire : LobbyWire ModList JoinGame) (config : Config)

/-! ## Reading -/

/-- The reads that one `read_packet` makes. -/
def awaitReads (peer : Peer) : (count : Nat) → LobbyM JoinGame Unit
  | 0 => pure ()
  | count + 1 => do
    perform (.read peer)
    awaitReads peer count

/-- `packet::read_packet`. -/
def receive (peer : Peer) (client : Client) (conn : Conn) :
    LobbyM JoinGame (Outcome (Option (RawPacket × List UInt8)) × Conn) := do
  let (result, after) := readPacket wire.toCodecs client conn
  awaitReads peer (conn.reads.length - after.reads.length)
  return (result, after)

/-- The reads that one `read_packet` makes before a deadline, and how many it does
not come to. -/
def awaitReadsInTime (timer : Timer) : (count : Nat) → LobbyM JoinGame Nat
  | 0 => pure 0
  | count + 1 => do
    if ← perform (.elapsed timer) then return count + 1
    else
      perform (.read .client)
      awaitReadsInTime timer count

/-- `time::timeout` around `read_packet`. What was read in time stays buffered. -/
def receiveInTime (timer : Timer) (client : Client) (conn : Conn) :
    LobbyM JoinGame (Option (Outcome (Option (RawPacket × List UInt8))) × Conn) := do
  let (result, after) := readPacket wire.toCodecs client conn
  let missed ← awaitReadsInTime timer (conn.reads.length - after.reads.length)
  if missed = 0 then return (some result, after)
  else
    let made := conn.reads.length - after.reads.length - missed
    return (none, ⟨conn.buf ++ Read.bytes (conn.reads.take made), conn.reads.drop made⟩)

/-- A deadline that turns into an error, as `timeout(..).await.map_err(..)?`. -/
def timeoutErr {α : Type} (timer : Timer) (task : LobbyM JoinGame α) : LobbyM JoinGame α :=
  ExceptT.mk do
    match ← task.run.timeout (.elapsed timer) id with
    | some result => return result
    | none => return .error .err

/-- `drain_stream`: everything that has arrived is read and dropped. The end of the
stream and an error end it like a read that would block. -/
def drainStream : List Read → LobbyM JoinGame (List Read)
  | .data chunk :: rest => do
    if ← perform .tryRead then
      if chunk = [] then return .data chunk :: rest else drainStream rest
    else return .data chunk :: rest
  | ended => do
    let _ ← perform .tryRead
    return ended

/-! ## The Forge login -/

/-- `forge::drain_forge_responses`. -/
def drainForgeResponses (client : Client) : (rounds count : Nat) → Conn → LobbyM JoinGame Conn
  | _, 0, conn => pure conn
  | 0, _, _ => throw .err
  | rounds + 1, count + 1, conn => do
    match ← receiveInTime wire .drainForge client conn with
    | (none, conn) => return conn
    | (some (.ok (some (packet, _))), conn) =>
      if client.state = .login ∧ packet.id = wire.serverLoginPluginResponse then
        drainForgeResponses client rounds count conn
      else drainForgeResponses client rounds (count + 1) conn
    | (some (.error .panic), _) => throw .panic
    | (some (.ok none), _) | (some (.error .err), _) => throw .err

/-- `forge::replay_login_payload`. -/
def replayLoginPayload (rounds : Nat) (client : Client) (conn : Conn) : LobbyM JoinGame Conn := do
  deliverAll (← perform .readPayload)
  let count := (← perform .readPayload).length
  drainForgeResponses wire client rounds count conn
where
  deliverAll : List (List UInt8) → LobbyM JoinGame Unit
    | [] => pure ()
    | frame :: frames => do
      writeAll .client frame
      deliverAll frames

/-! ## Waiting for the server -/

def respondSetCompression (client : Client) (threshold : Int32) : LobbyM JoinGame Unit :=
  sendPacket wire .client (wire.setCompression threshold) client

def respondLoginSuccess (client : Client) (name : String) : LobbyM JoinGame Unit :=
  sendPacket wire .client (wire.loginSuccess (offlinePlayerUuid wire name) name) client

def sendLobbyPlayPackets (client : Client) (clientInfo : ClientInfo) : LobbyM JoinGame Unit := do
  joinGameLobbySend wire client clientInfo
  serverBrandSend wire client clientInfo
  playerPosSend wire client clientInfo
  timeUpdateSend wire client clientInfo

/-- Waiting for the server ends before the loop has gone around more often than that. -/
def keepAliveLoop (client : Client) (clientInfo : ClientInfo) : (rounds : Nat) → LobbyM JoinGame Unit
  | 0 => throw .err
  | rounds + 1 => do
    perform .tick
    keepAliveSend wire client clientInfo
    titleSend wire client clientInfo config.join.lobby.message
    keepAliveLoop client clientInfo rounds

/-- The `select!` drops the loop where it stands once `wait_for_server` is done. -/
def stageWait (rounds : Nat) (client : Client) (clientInfo : ClientInfo) : LobbyM JoinGame Unit :=
  ExceptT.mk do
    match ← (keepAliveLoop wire config client clientInfo rounds).run.race .ready id with
    | .inl result => return result
    | .inr (.ok ()) => return .ok ()
    | .inr (.error ()) => return .error .err

def playLobbyReadySound (client : Client) (clientInfo : ClientInfo) : LobbyM JoinGame Unit :=
  match config.join.lobby.readySound with
  | none => pure ()
  | some soundName =>
    if (trim soundName).isEmpty then pure ()
    else do
      playerPosSend wire client clientInfo
      soundSend wire client clientInfo soundName

/-! ## The server connection -/

/-- What one packet of the login makes the lobby do. -/
inductive LoginStep where
  | setCompression (threshold : Int32)
  | respond (bytes : List UInt8)
  | success
  | refused
  | unhandled

/-- The branches of the login loop, up to the writing of a response. -/
def loginStep (client : Client) (packet : RawPacket) : Outcome LoginStep :=
  if client.state = .login ∧ packet.id = wire.clientSetCompression then do
    let threshold ← question (wire.decodeSetCompression packet.data)
    return .setCompression threshold
  else if client.state = .login ∧ packet.id = wire.clientEncryptionRequest then return .refused
  else if client.state = .login ∧ packet.id = wire.clientLoginPluginRequest then do
    let pluginRequest ← question (wire.decodeLoginPluginRequest packet.data)
    if config.server.forge then
      return .respond (← respondLoginPluginRequest wire.toWire client pluginRequest)
    else
      return .respond (← writePacket wire.toCodecs (wire.loginPluginResponse
        { messageId := pluginRequest.messageId, successful := false, data := [] }) client)
  else if client.state = .login ∧ packet.id = wire.clientLoginSuccess then return .success
  else if client.state = .login ∧ packet.id = wire.clientDisconnect then return .refused
  else return .unhandled

/-- Both loops over the packets of the server end with an error. -/
def closeServer {α : Type} : LobbyM JoinGame α := do
  let _ ← perform (.shutdown .server)
  throw .err

/-- The loop of `connect_to_server_no_timeout`. -/
def loginLoop : (rounds : Nat) → Client → Conn → LobbyM JoinGame (Client × Conn)
  | 0, _, _ => throw .err
  | rounds + 1, client, conn => do
    match ← receive wire .server client conn with
    | (.ok (some (packet, _)), conn) =>
      match ← ofOutcome (loginStep wire config client packet) with
      | .setCompression threshold => loginLoop rounds (client.setCompression threshold) conn
      | .respond bytes =>
        writeAll .server bytes
        loginLoop rounds client conn
      | .success => return (client.setState .play, conn)
      | .refused => closeServer
      | .unhandled => loginLoop rounds client conn
    | (.error .panic, _) => throw .panic
    | (.ok none, _) | (.error .err, _) => closeServer

def sendServerProxyHeader (inbound : TcpStream) : LobbyM JoinGame Unit :=
  if config.server.sendProxyV2 then do
    writeAll .server (← ofOutcome (streamProxyHeader wire.proxyHeader inbound))
  else pure ()

def connectToServerNoTimeout (rounds : Nat) (clientInfo : ClientInfo) (inbound : TcpStream)
    (backend : Backend) : LobbyM JoinGame (Client × Conn) := do
  if ← perform .connect then
    sendServerProxyHeader wire config inbound
    let tmpClient := ((backend.localAddr.map Client.new).getD .dummy).setState .login
    let handshake ← ofOutcome (unwrap clientInfo.handshake)
    -- `assert_eq!`
    if handshake.nextState ≠ ClientState.login.toId then throw .panic
    else
      sendPacket wire .server (wire.handshake handshake) tmpClient
      sendPacket wire .server
        (wire.loginStart (← ofOutcome (question clientInfo.username))) tmpClient
      loginLoop wire config rounds tmpClient ⟨[], backend.reads⟩
  else throw .err

def connectToServer (rounds : Nat) (clientInfo : ClientInfo) (inbound : TcpStream)
    (backend : Backend) : LobbyM JoinGame (Client × Conn) :=
  timeoutErr .connect (connectToServerNoTimeout wire config rounds clientInfo inbound backend)

def waitForServerJoinGameNoTimeout (client : Client) (clientInfo : ClientInfo) :
    (rounds : Nat) → Conn → LobbyM JoinGame (JoinGame × Conn)
  | 0, _ => throw .err
  | rounds + 1, conn => do
    match ← receive wire .server client conn with
    | (.ok (some (packet, _)), conn) =>
      if isJoinGame wire.toWire clientInfo packet.id then
        return (← ofOutcome (question (joinGameFromPacket wire.toWire clientInfo packet)), conn)
      else waitForServerJoinGameNoTimeout client clientInfo rounds conn
    | (.error .panic, _) => throw .panic
    | (.ok none, _) | (.error .err, _) => closeServer

def waitForServerJoinGame (rounds : Nat) (client : Client) (clientInfo : ClientInfo) (conn : Conn) :
    LobbyM JoinGame (JoinGame × Conn) :=
  timeoutErr .joinGame (waitForServerJoinGameNoTimeout wire client clientInfo rounds conn)

/-! ## Serving a client -/

variable (rounds : Nat) (clientInfo : ClientInfo) (inbound : TcpStream) (backend : Backend)

/-- The Forge login of `serve`, where it is configured. -/
def serveForge (client : Client) (conn : Conn) : LobbyM JoinGame Conn :=
  if config.server.forge then replayLoginPayload wire rounds client conn else pure conn

/-- `serve` from the login start until the server is there, with the client as it
is then. -/
def serveWorld (client : Client) (name : String) : LobbyM JoinGame Client := do
  -- The threshold is not negative, so compression is always switched on.
  respondSetCompression wire client COMPRESSION_THRESHOLD
  let client := client.setCompression COMPRESSION_THRESHOLD
  respondLoginSuccess wire client name
  let client := client.setState .play
  sendLobbyPlayPackets wire client clientInfo
  stageWait wire config rounds client clientInfo
  return client

/-- `serve` from there on, with what the client is still to send. -/
def handOver (client : Client) (reads : List Read) : LobbyM JoinGame Unit := do
  let (serverClient, serverConn) ← connectToServer wire config rounds clientInfo inbound backend
  let (joinGameData, serverConn) ← waitForServerJoinGame wire rounds serverClient clientInfo serverConn
  titleSend wire client clientInfo ""
  playLobbyReadySound wire config client clientInfo
  perform (.sleep SERVER_WARMUP)
  respawnLobbySend wire client clientInfo joinGameData
  let reads ← drainStream reads
  perform (.relay reads serverConn.reads serverConn.buf)

/-- The login start branch of `serve`. What is left in the buffer is dropped with it. -/
def serveLogin (client : Client) (conn : Conn) (name : String) : LobbyM JoinGame Unit := do
  let conn ← serveForge wire config rounds client conn
  let client ← serveWorld wire config rounds clientInfo client name
  handOver wire config rounds clientInfo inbound backend client conn.reads

/-- The loop of `serve`. -/
def serveLoop (client : Client) : (rounds : Nat) → Conn → LobbyM JoinGame Unit
  | 0, _ => throw .err
  | left + 1, conn => do
    match ← receive wire .client client conn with
    | (.ok (some (packet, _)), conn) =>
      if client.state = .login ∧ packet.id = wire.serverLoginStart then
        serveLogin wire config rounds clientInfo inbound backend client conn
          (← ofOutcome (question (wire.decodeLoginStart packet.data)))
      else serveLoop client left conn
    | (.error .panic, _) => throw .panic
    | (.ok none, _) | (.error .err, _) =>
      if ← perform (.shutdown .client) then return () else throw .err

/-- `lobby::serve`. -/
def serve (client : Client) (queue : List UInt8) : LobbyM JoinGame Unit :=
  if client.state ≠ .login then throw .err
  else if clientInfo.username = none then throw .err
  else serveLoop wire config rounds clientInfo inbound backend client rounds ⟨queue, inbound.reads⟩

end Programs
end PlexPaper.Lobby
