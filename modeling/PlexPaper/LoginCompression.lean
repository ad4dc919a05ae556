import PlexPaper.LobbyHandover

/-! Compression switched on in the middle of a login. A frame belongs to the mode that the
packets before it have set, and the bytes behind a `SetCompression` may be buffered before
it is looked at. Both login loops are compared with loops over the packets themselves. -/
namespace PlexPaper
open Tasks Outcome

/-- What stands behind the length of a frame. Compressed frames say how long the packet
is, or zero where it is sent as it is. -/
inductive BodyOf (lib : Codecs) (packet : RawPacket) : (compressed : Bool) → List UInt8 → Prop where
  | plain : BodyOf lib packet false packet.payload
  | small : BodyOf lib packet true (varInt 0 ++ packet.payload)
  | large {packed : List UInt8} (unpacks : lib.zlibDecompress packed = some packet.payload) :
      BodyOf lib packet true (varInt (asI32 packet.payload.length) ++ packed)

/-- A frame of a packet under a threshold, with lengths that its `i32` can hold. Which
packets are worth compressing is the sender's business. -/
structure FrameUnder (lib : Codecs) (threshold : Int32) (packet : RawPacket) (frame : List UInt8) :
    Prop where
  short : packet.payload.length < 2 ^ 31
  framed : ∃ body, BodyOf lib packet (decide (0 ≤ threshold)) body ∧ body.length < 2 ^ 31 ∧
    frame = varInt (asI32 body.length) ++ body

section

variable {ModList JoinGame : Type} (wire : Wire ModList JoinGame)

/-- The threshold in force behind a packet. -/
def thresholdAfter (threshold : Int32) (packet : RawPacket) : Int32 :=
  if packet.id = wire.clientSetCompression then
    (wire.decodeSetCompression packet.data).getD threshold
  else threshold

/-- A packet as a loop takes it, with its frame, and with the connection behind it. -/
structure Taken where
  packet : RawPacket
  raw : List UInt8
  conn : Conn

/-- Reading in the mode of each packet takes these off the connection. -/
inductive Takes : Int32 → Conn → List Taken → Prop where
  | nil {threshold : Int32} {conn : Conn} : Takes threshold conn []
  | cons {threshold : Int32} {conn : Conn} {taken : Taken} {rest : List Taken}
      (first : ∀ client : Client, client.compressed = threshold →
        readPacket wire.toCodecs client conn = (.ok (some (taken.packet, taken.raw)), taken.conn))
      (others : Takes (thresholdAfter wire threshold taken.packet) taken.conn rest) :
      Takes threshold conn (taken :: rest)

end

section

variable {lib : Codecs} {threshold : Int32} {packet : RawPacket} {frame : List UInt8}

theorem BodyOf.decodes {client : Client} {body : List UInt8} (standard : lib.Standard)
    (shaped : BodyOf lib packet client.isCompressed body) (short : packet.payload.length < 2 ^ 31) :
    RawPacket.decodeWithoutLen lib client body = .ok packet := by
  generalize mode : client.isCompressed = compressed at shaped
  cases shaped with
  | plain => exact RawPacket.decodeWithoutLen_uncompressed standard mode
  | small => exact RawPacket.decodeWithoutLen_small standard mode
  | large unpacks => exact RawPacket.decodeWithoutLen_large standard mode short unpacks

theorem BodyOf.length_pos {compressed : Bool} {body : List UInt8}
    (shaped : BodyOf lib packet compressed body) : 0 < body.length := by
  have whole := packet.payload_length_pos
  cases shaped with
  | plain => exact whole
  | small =>
    rw [List.length_append]
    omega
  | large =>
    have front := varInt_length_pos (asI32 packet.payload.length)
    rw [List.length_append]
    omega

/-- Such a frame is one for every client in its mode. -/
theorem FrameUnder.isFrame (standard : lib.Standard) (framed : FrameUnder lib threshold packet frame)
    (client : Client) (mode : client.compressed = threshold) :
    ∃ body, IsFrame lib client packet body frame := by
  obtain ⟨short, body, shaped, fits, rfl⟩ := framed
  have same : client.isCompressed = decide (0 ≤ threshold) := by rw [Client.isCompressed, mode]
  refine ⟨body, rfl, shaped.length_pos, fits, ?_⟩
  rw [RawPacket.decodeWithLen_frame standard fits]
  exact BodyOf.decodes standard (same ▸ shaped) short

end

section

variable {ModList JoinGame : Type} {wire : Wire ModList JoinGame} {threshold : Int32}
  {packets : List RawPacket} {frames chunks : List (List UInt8)} {later : List UInt8}

end

/-! ## The loop of the probe -/

namespace Probe

section

variable {ModList JoinGame : Type} (wire : Wire ModList JoinGame) (config : Config)

/-- The login of the probe as a loop over packets that it has been given. Where there are
none left it reads on. -/
def loginOver (clientInfo : ClientInfo) : List Taken → (limit : Nat) → Client → Conn →
    (forgePayload : List (List UInt8)) → ProbeM JoinGame (Outcome (List (List UInt8)))
  | [], limit, client, conn, forgePayload =>
    loginLoop wire config clientInfo limit client conn forgePayload
  | taken :: rest, limit, client, _, forgePayload => do
    perform .receive
    match loginStep wire config client taken.packet with
    | .error fault => return .error fault
    | .ok (.setCompression threshold) =>
      loginOver clientInfo rest (limit - 1) (client.setCompression threshold) taken.conn forgePayload
    | .ok (.respond record bytes) =>
      if ← perform (.send bytes) then
        loginOver clientInfo rest (limit - 1) client taken.conn
          (if record then forgePayload ++ [taken.raw] else forgePayload)
      else
        return .error .err
    | .ok .success =>
      match ← waitForServerJoinGame wire (client.setState .play) clientInfo (limit - 1) taken.conn with
      | .error fault => return .error fault
      | .ok joinGame =>
        perform (.storeJoinGame joinGame)
        let _ ← perform .shutdown
        return .ok forgePayload
    | .ok .unhandled =>
      loginOver clientInfo rest (limit - 1) client taken.conn forgePayload

variable {wire config}

end

end Probe

/-! ## The loop of the lobby -/

namespace Lobby

section

variable {ModList JoinGame : Type} (wire : LobbyWire ModList JoinGame) (config : Config)

/-- The login of the lobby as a loop over packets that it has been given, with the reads
that each of them takes. -/
def loginOver : List Taken → (rounds : Nat) → Client → Conn → LobbyM JoinGame (Client × Conn)
  | [], rounds, client, conn => loginLoop wire config rounds client conn
  | taken :: rest, rounds, client, conn => do
    awaitReads .server (conn.reads.length - taken.conn.reads.length)
    match ← ofOutcome (loginStep wire config client taken.packet) with
    | .setCompression threshold =>
      loginOver rest (rounds - 1) (client.setCompression threshold) taken.conn
    | .respond bytes =>
      writeAll .server bytes
      loginOver rest (rounds - 1) client taken.conn
    | .success => return (client.setState .play, taken.conn)
    | .refused => closeServer
    | .unhandled => loginOver rest (rounds - 1) client taken.conn

variable {wire config}

end

end Lobby

/-- Every packet that is taken uses up bytes. -/
theorem Takes.length_le {ModList JoinGame : Type} {wire : Wire ModList JoinGame} {threshold : Int32}
    {conn : Conn} {taken : List Taken} (takes : Takes wire threshold conn taken) :
    taken.length ≤ conn.size := by
  induction takes with
  | nil => exact Nat.zero_le _
  | @cons threshold conn one rest first others ih =>
    have fewer := readPacket_shrinks (first { Client.dummy with compression := threshold } rfl)
    rw [List.length_cons]
    omega

end PlexPaper
