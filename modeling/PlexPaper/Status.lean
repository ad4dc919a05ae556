import PlexPaper.Access
import PlexPaper.Forge
import PlexPaper.Server

/-! `status::serve`: the loop that serves a client until it is handed to a join
method, with `action::kick` and the status it answers. One iteration reads one
packet; what the server holds when the iteration asks is its `Moment`. -/
namespace PlexPaper
open Outcome

def BAN_MESSAGE_PREFIX : String := "Your IP address is banned from this server.\nReason: "
def DEFAULT_BAN_REASON : String := "Banned by an operator."
def WHITELIST_MESSAGE : String := "You are not white-listed on this server!"
def FAVICON_PROTOCOL_VERSION : UInt32 := 4

/-- The packet formats of `minecraft_protocol` that serving a client uses. -/
structure StatusWire extends Codecs where
  serverHandshake : UInt8
  serverStatus : UInt8
  serverPing : UInt8
  serverLoginStart : UInt8
  decodeHandshake : List UInt8 → Option Handshake
  decodeLoginStart : List UInt8 → Option String
  encodeStatusResponse : ServerStatus → Option (List UInt8)
  loginDisconnect : (reason : String) → Outgoing
  gameDisconnect : (reason : String) → Outgoing
  parseExpiry : ExpiryFormat

/-- What one iteration finds when it asks: the record of the server, the clock,
the icon file, and whether its write goes through. -/
structure Moment where
  status : Option ServerStatus := none
  state : State := .stopped
  bannedIps : BannedIps := {}
  whitelist : Option Whitelist := none
  now : Utc := 0
  favicon : String := ""
  writes : Bool := true

/-- A connection while it is served, with the bytes written to it so far. -/
structure Session where
  client : Client
  conn : Conn
  inboundHistory : List UInt8 := []
  clientInfo : ClientInfo := .empty
  sent : List UInt8 := []

def Session.new (client : Client) (reads : List Read) : Session := { client, conn := ⟨[], reads⟩ }

/-- What `join::occupy` is called with, after `Server::start`. The connection has
no bytes buffered any more. -/
structure Handover where
  client : Client
  clientInfo : ClientInfo
  reads : List Read
  inboundHistory : List UInt8
  loginQueue : List UInt8

inductive Ending where
  | closed
  | failed (fault : Fault)
  | occupied (handover : Handover)

section Serve

variable (wire : StatusWire) (config : Config)

def supportsFavicon (clientInfo : ClientInfo) : Bool :=
  (clientInfo.protocol.map fun protocol => decide (protocol ≥ FAVICON_PROTOCOL_VERSION)).getD true

def serverStatus (moment : Moment) (clientInfo : ClientInfo) : ServerStatus :=
  match moment.state, moment.status with
  | .started, some status => status
  | _, _ =>
    let (version, max) := match moment.status with
      | some status => (status.version, status.players.max)
      | none => (⟨config.publicConfig.version, config.publicConfig.protocol⟩, 0)
    let ofState := match moment.state with
      | .stopped | .started => config.motd.sleeping
      | .starting => config.motd.starting
      | .stopping => config.motd.stopping
    let description := match moment.status with
      | some status => if config.motd.fromServer then status.description else ofState
      | none => ofState
    let favicon := if supportsFavicon clientInfo then
        let known := if config.motd.fromServer then moment.status.bind (·.favicon) else none
        some (known.getD moment.favicon)
      else none
    { version, description, players := { online := 0, max }, favicon }

/-- `write_all`, of bytes that may have failed to be made. -/
def Session.write (moment : Moment) (session : Session) :
    Outcome (List UInt8) → Session × Option Ending
  | .error fault => (session, some (.failed fault))
  | .ok bytes =>
    if moment.writes then ({ session with sent := session.sent ++ bytes }, none)
    else (session, some (.failed .err))

/-- `action::kick`, up to its write. -/
def kick (client : Client) (msg : String) : Outcome (List UInt8) :=
  match client.state with
  | .login => writePacket wire.toCodecs (wire.loginDisconnect msg) client
  | .play => writePacket wire.toCodecs (wire.gameDisconnect msg) client
  | _ => .error .err

/-- `action::kick(..).await?; break`. -/
def kickAndBreak (moment : Moment) (session : Session) (msg : String) : Session × Option Ending :=
  match session.write moment (kick wire session.client msg) with
  | (session, none) => (session, some .closed)
  | failed => failed

def serveHandshake (session : Session) (packet : RawPacket) (raw : List UInt8) :
    Session × Option Ending :=
  match wire.decodeHandshake packet.data with
  | none => (session, some .closed)
  | some handshake =>
    match ClientState.fromId handshake.nextState with
    | none => (session, some .closed)
    | some newState =>
      ({ session with
          clientInfo := { session.clientInfo with
            protocol := some handshake.protocolVersion.toUInt32, handshake := some handshake }
          client := session.client.setState newState
          inboundHistory :=
            if newState = .login then session.inboundHistory ++ raw else session.inboundHistory },
        none)

def serveStatusRequest (moment : Moment) (session : Session) : Session × Option Ending :=
  session.write moment do
    let data ← question (wire.encodeStatusResponse (serverStatus config moment session.clientInfo))
    RawPacket.encodeWithLen wire.toCodecs ⟨0, data⟩ session.client

/-- The login start branch, with its three checks. -/
def serveLoginStart (moment : Moment) (session : Session) (packet : RawPacket)
    (raw : List UInt8) : Session × Option Ending :=
  let username := wire.decodeLoginStart packet.data
  let session := { session with clientInfo := { session.clientInfo with username } }
  if config.lockout.enabled then kickAndBreak wire moment session config.lockout.message
  else
    match (moment.bannedIps.get session.client.peer.ip).filter
      (·.isBanned wire.parseExpiry moment.now) with
    | some ban =>
      kickAndBreak wire moment session (BAN_MESSAGE_PREFIX ++ ban.reason.getD DEFAULT_BAN_REASON)
    | none =>
      -- Only a name that decoded is looked up.
      if username.any fun name => !isWhitelisted moment.whitelist name then
        kickAndBreak wire moment session WHITELIST_MESSAGE
      else
        (session, some (.occupied
          { client := session.client
            clientInfo := session.clientInfo
            reads := session.conn.reads
            inboundHistory := session.inboundHistory ++ raw ++ session.conn.buf
            loginQueue := raw ++ session.conn.buf }))

/-- One iteration of the loop. -/
def serveStep (moment : Moment) (session : Session) : Session × Option Ending :=
  match readPacket wire.toCodecs session.client session.conn with
  | (.ok none, conn) | (.error .err, conn) => ({ session with conn }, some .closed)
  | (.error .panic, conn) => ({ session with conn }, some (.failed .panic))
  | (.ok (some (packet, raw)), conn) =>
    let session := { session with conn }
    if session.client.state = .handshake ∧ packet.id = wire.serverHandshake then
      serveHandshake wire session packet raw
    else if session.client.state = .status ∧ packet.id = wire.serverStatus then
      serveStatusRequest wire config moment session
    else if session.client.state = .status ∧ packet.id = wire.serverPing then
      session.write moment (.ok raw)
    else if session.client.state = .login ∧ packet.id = wire.serverLoginStart then
      serveLoginStart wire config moment session packet raw
    else (session, none)

/-- How a connection ended, and the iteration it ended in. -/
structure Final where
  before : Session
  moment : Moment
  after : Session
  ending : Ending

/-- The loop, given what each iteration finds. -/
def serve : List Moment → Session → Option Final
  | [], _ => none
  | moment :: moments, before =>
    match serveStep wire config moment before with
    | (next, none) => serve moments next
    | (after, some ending) => some { before, moment, after, ending }

end Serve
end PlexPaper
