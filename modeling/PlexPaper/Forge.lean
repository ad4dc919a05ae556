import PlexPaper.Framing

/-! `packet::write_packet` and the answers of `forge.rs`: the bytes each of them
hands to the socket. The packet formats are third-party, kept as parameters, as
are the ids of the packets. -/
namespace PlexPaper

def STATUS_MAGIC : String := "\x00FML2\x00"
def CHANNEL_LOGIN_WRAPPER : String := "fml:loginwrapper"
def CHANNEL_HANDSHAKE : String := "fml:handshake"

/-- A packet as `write_packet` gets it: its id, and what its encoder makes of it. -/
structure Outgoing where
  id : UInt8
  data : Option (List UInt8)

structure LoginPluginRequest where
  messageId : Int32
  channel : String
  data : List UInt8

structure LoginPluginResponse where
  messageId : Int32
  successful : Bool
  data : List UInt8

structure LoginWrapper where
  channel : String
  packet : List UInt8

/-- The packet formats of `minecraft_protocol` that a login uses. A decoder
answers `none` for its error. -/
structure Wire (ModList JoinGame : Type) extends Codecs where
  clientLoginSuccess : UInt8
  clientSetCompression : UInt8
  clientLoginPluginRequest : UInt8
  modList : UInt8
  handshake : Handshake → Outgoing
  loginStart : (name : String) → Outgoing
  loginPluginResponse : LoginPluginResponse → Outgoing
  acknowledgement : Outgoing
  modListReply : ModList → Outgoing
  encodeLoginWrapper : LoginWrapper → Option (List UInt8)
  decodeLoginWrapper : List UInt8 → Option LoginWrapper
  decodeSetCompression : List UInt8 → Option Int32
  decodeLoginPluginRequest : List UInt8 → Option LoginPluginRequest
  decodeModList : List UInt8 → Option ModList
  protocol117 : UInt32
  joinGame116 : UInt8
  joinGame117 : UInt8
  decodeJoinGame116 : List UInt8 → Option JoinGame
  decodeJoinGame117 : List UInt8 → Option JoinGame
  showIp : IpAddr → String

open Outcome

def writePacket (lib : Codecs) (packet : Outgoing) (client : Client) : Outcome (List UInt8) := do
  let data ← question packet.data
  RawPacket.encodeWithLen lib ⟨packet.id, data⟩ client

section Forge

variable {ModList JoinGame : Type} (wire : Wire ModList JoinGame)

def respondForgeLoginPacket (client : Client) (messageId : Int32) (forgeChannel : String)
    (forgePacket : Outgoing) : Outcome (List UInt8) := do
  let forgeData ← question forgePacket.data
  let forgePayload ←
    RawPacket.encodeWithoutLen wire.toCodecs ⟨forgePacket.id, forgeData⟩ client
  let payload ← question (wire.encodeLoginWrapper { channel := forgeChannel, packet := forgePayload })
  writePacket wire.toCodecs
    (wire.loginPluginResponse { messageId, successful := true, data := payload }) client

def decodeForgeLoginPacket (client : Client) (pluginRequest : LoginPluginRequest) :
    Outcome (Int32 × LoginWrapper × RawPacket) := do
  -- `assert_eq!`
  if pluginRequest.channel ≠ CHANNEL_LOGIN_WRAPPER then
    throw .panic
  let loginWrapper ← question (wire.decodeLoginWrapper pluginRequest.data)
  let packet ← RawPacket.decodeWithoutLen wire.toCodecs client loginWrapper.packet
  return (pluginRequest.messageId, loginWrapper, packet)

def respondLoginPluginRequest (client : Client) (packet : LoginPluginRequest) :
    Outcome (List UInt8) := do
  let (messageId, loginWrapper, packet) ← decodeForgeLoginPacket wire client packet
  let isUnknownHeader : Bool := loginWrapper.channel ≠ CHANNEL_HANDSHAKE
  let isModList : Bool := !isUnknownHeader && packet.id = wire.modList
  if !isModList then
    respondForgeLoginPacket wire client messageId loginWrapper.channel wire.acknowledgement
  else
    let modList ← question (wire.decodeModList packet.data)
    respondForgeLoginPacket wire client messageId loginWrapper.channel (wire.modListReply modList)

/-- Does a client of this protocol get its game data in the form before 1.17? -/
def beforeV117 (clientInfo : ClientInfo) : Bool :=
  clientInfo.protocolVersion.any (· < wire.protocol117)

/-- `join_game::is_packet`. -/
def isJoinGame (clientInfo : ClientInfo) (packetId : UInt8) : Bool :=
  packetId = if beforeV117 wire clientInfo then wire.joinGame116 else wire.joinGame117

/-- `JoinGameData::from_packet`. -/
def joinGameFromPacket (clientInfo : ClientInfo) (packet : RawPacket) : Option JoinGame :=
  if beforeV117 wire clientInfo then wire.decodeJoinGame116 packet.data
  else wire.decodeJoinGame117 packet.data

end Forge
end PlexPaper
