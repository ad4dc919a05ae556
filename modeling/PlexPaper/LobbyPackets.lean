import PlexPaper.Access
import PlexPaper.Proxy
import PlexPaper.Forge
import PlexPaper.Server

/-! What the lobby does to its sockets, and the packets of `packets::play` that it
sends. A socket takes part of a frame at a time: every poll of `write_all` is an
operation of its own, and so is every read. The formats of the packets, before 1.17
and since, are third-party. -/
namespace PlexPaper.Lobby
open Tasks Outcome

def COMPRESSION_THRESHOLD : Int32 := 256
def TICKS_PER_SECOND : Nat := 20
def KEEP_ALIVE_INTERVAL_SECS : Nat := 10
def DISPLAY_TIME : Int32 := Int32.ofNat (KEEP_ALIVE_INTERVAL_SECS * TICKS_PER_SECOND * 2)
def SERVER_WARMUP : Duration := .fromSecs 1
def CHANNEL : String := "minecraft:brand"
def SERVER_BRAND : List UInt8 := "plexpaper".toUTF8.data.toList
def OFFLINE_PLAYER_NAMESPACE : String := "OfflinePlayer:"

/-- The packet formats that the lobby adds to those of a login. The first argument
of a play packet is whether the client is from before 1.17. -/
structure LobbyWire (ModList JoinGame : Type) extends Wire ModList JoinGame where
  serverLoginStart : UInt8
  serverLoginPluginResponse : UInt8
  clientEncryptionRequest : UInt8
  clientDisconnect : UInt8
  decodeLoginStart : List UInt8 → Option String
  setCompression : (threshold : Int32) → Outgoing
  loginSuccess : (uuid : List UInt8) → (username : String) → Outgoing
  lobbyJoinGame : Bool → Option ServerStatus → Option JoinGame → Outgoing
  pluginMessage : Bool → (channel : String) → (data : List UInt8) → Outgoing
  playerPositionAndLook : Bool → Outgoing
  timeUpdate : Bool → Outgoing
  keepAlive : Bool → (id : UInt64) → Outgoing
  titleText : Bool → (text : String) → Outgoing
  titleSubtitle : Bool → (text : String) → Outgoing
  titleTimes : Bool → (fadeIn stay fadeOut : Int32) → Outgoing
  namedSoundEffect : Bool → (soundName : String) → Outgoing
  respawn : Bool → JoinGame → Outgoing
  md5 : List UInt8 → List UInt8
  proxyHeader : ProxyFormat

/-- The two ends that the lobby talks to. -/
inductive Peer where
  | client
  | server
  deriving DecidableEq

/-- The deadlines of `lobby.rs` and of the Forge drain. -/
inductive Timer where
  | drainForge
  | connect
  | joinGame
  deriving DecidableEq

/-- What the lobby waits for. `read` is a `read_buf` of `read_packet`, `write` a poll
of `write_all` from an offset of its frame. `ready` asks whether `wait_for_server`
has come to its result, and `relay` is `route_proxy`. -/
inductive Op (JoinGame : Type) where
  | read (peer : Peer)
  | tryRead
  | write (peer : Peer) (frame : List UInt8) (offset : Nat)
  | elapsed (timer : Timer)
  | tick
  | ready
  | nextKeepAliveId
  | readStatus
  | readJoinGame
  | readPayload
  | connect
  | sleep (duration : Duration)
  | shutdown (peer : Peer)
  | relay (inbound outbound : List Read) (inboundQueue : List UInt8)

/-- A write replies how many bytes the socket took. `tryRead` replies whether
anything has arrived. -/
@[reducible] def Op.Reply {JoinGame : Type} : Op JoinGame → Type
  | .read _ | .tick | .sleep _ | .relay _ _ _ => Unit
  | .tryRead | .elapsed _ | .connect | .shutdown _ => Bool
  | .write _ _ _ => Option Nat
  | .ready => Option (Except Unit Unit)
  | .nextKeepAliveId => UInt64
  | .readStatus => Option ServerStatus
  | .readJoinGame => Option JoinGame
  | .readPayload => List (List UInt8)

abbrev LobbyM (JoinGame : Type) := ExceptT Fault (Program (Op JoinGame) Op.Reply)

section

variable {JoinGame : Type}

abbrev perform (op : Op JoinGame) : LobbyM JoinGame op.Reply := ExceptT.lift (Program.perform op)

/-- The `?` operator, and a panic where there is one. -/
def ofOutcome {α : Type} (outcome : Outcome α) : LobbyM JoinGame α := ExceptT.mk (pure outcome)

/-- The loop of `write_all`. A socket that takes nothing is an error. -/
def writeFrom (peer : Peer) (frame : List UInt8) : (polls offset : Nat) → LobbyM JoinGame Unit
  | 0, _ => pure ()
  | polls + 1, offset =>
    if frame.length ≤ offset then pure ()
    else do
      match ← perform (.write peer frame offset) with
      | some (taken + 1) => writeFrom peer frame polls (offset + (taken + 1))
      | some 0 => throw .err
      | none => throw .err

def writeAll (peer : Peer) (frame : List UInt8) : LobbyM JoinGame Unit :=
  writeFrom peer frame frame.length 0

end

/-- The lines of a text, as `str::lines` gives them: a line end is `\n` or `\r\n`,
and nothing behind the last one is no line. -/
def linesFrom (line : List Char) : List Char → List (List Char)
  | [] => if line = [] then [] else [line.reverse]
  | '\n' :: rest =>
    (match line with
      | '\r' :: line => line.reverse
      | line => line.reverse) :: linesFrom [] rest
  | c :: rest => linesFrom (c :: line) rest

def lines (text : String) : List String := (linesFrom [] text.toList).map String.ofList

section Packets

variable {ModList JoinGame : Type} (wire : LobbyWire ModList JoinGame)

/-- `packet::write_packet`. -/
def sendPacket (peer : Peer) (packet : Outgoing) (client : Client) : LobbyM JoinGame Unit := do
  writeAll peer (← ofOutcome (writePacket wire.toCodecs packet client))

/-- `uuid::offline_player_uuid`. -/
def offlinePlayerUuid (username : String) : List UInt8 :=
  let md5 := wire.md5 (OFFLINE_PLAYER_NAMESPACE ++ username).toUTF8.data.toList
  (md5.modify 6 fun b => b &&& 0x0F ||| 0x30).modify 8 fun b => b &&& 0x3F ||| 0x80

variable (client : Client) (clientInfo : ClientInfo)

def joinGameLobbySend : LobbyM JoinGame Unit := do
  let status ← perform .readStatus
  let joinGame ← perform .readJoinGame
  sendPacket wire .client (wire.lobbyJoinGame (beforeV117 wire.toWire clientInfo) status joinGame) client

def serverBrandSend : LobbyM JoinGame Unit :=
  sendPacket wire .client
    (wire.pluginMessage (beforeV117 wire.toWire clientInfo) CHANNEL SERVER_BRAND) client

def playerPosSend : LobbyM JoinGame Unit :=
  sendPacket wire .client (wire.playerPositionAndLook (beforeV117 wire.toWire clientInfo)) client

def timeUpdateSend : LobbyM JoinGame Unit :=
  sendPacket wire .client (wire.timeUpdate (beforeV117 wire.toWire clientInfo)) client

def keepAliveSend : LobbyM JoinGame Unit := do
  let id ← perform .nextKeepAliveId
  sendPacket wire .client (wire.keepAlive (beforeV117 wire.toWire clientInfo) id) client

def titleSend (text : String) : LobbyM JoinGame Unit := do
  let title := (lines text).head?.getD ""
  let subtitle := "\n".intercalate (lines text).tail
  let before117 := beforeV117 wire.toWire clientInfo
  sendPacket wire .client (wire.titleText before117 title) client
  sendPacket wire .client (wire.titleSubtitle before117 subtitle) client
  sendPacket wire .client
    (if title.isEmpty && subtitle.isEmpty then wire.titleTimes before117 10 70 20
      else wire.titleTimes before117 0 DISPLAY_TIME 0) client

def soundSend (soundName : String) : LobbyM JoinGame Unit :=
  sendPacket wire .client (wire.namedSoundEffect (beforeV117 wire.toWire clientInfo) soundName) client

def respawnLobbySend (data : JoinGame) : LobbyM JoinGame Unit :=
  sendPacket wire .client (wire.respawn (beforeV117 wire.toWire clientInfo) data) client

end Packets
end PlexPaper.Lobby
