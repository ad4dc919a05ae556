import PlexPaper.PacketSafety
import PlexPaper.LobbyHandover

/-! The Forge login as the probe records it and as the lobby replays it. The frames are
kept raw, in the mode in which the probe has received them, and written to a client that
has not been told of any compression. -/
namespace PlexPaper
open Tasks Outcome

namespace RawPacket

variable {lib : Codecs} {client plain : Client} {packet : RawPacket} {body raw : List UInt8}

/-- A compressed packet whose data are its own compressed form, behind a data length that
ends in its id. -/
def SelfPacked (lib : Codecs) (packet : RawPacket) (body : List UInt8) : Prop :=
  ∃ consumed dataLen, readVarInt lib body = some (consumed, dataLen) ∧ dataLen ≠ 0 ∧
    dataLen.toUInt32.toUInt8 = packet.id ∧ body.drop consumed = packet.data

/-- The same of a whole frame. -/
def SelfPackedFrame (lib : Codecs) (packet : RawPacket) (raw : List UInt8) : Prop :=
  ∃ consumed len, readVarInt lib raw = some (consumed, len) ∧
    packet.SelfPacked lib (frameBody raw consumed len)

/-- A packet that was decoded in the compressed mode is the same in the other one only if
it is packed in itself. -/
theorem decode_plain_iff (compressed : client.isCompressed = true)
    (mode : plain.isCompressed = false) (decodes : decodeWithoutLen lib client body = .ok packet) :
    decodeWithoutLen lib plain body = .ok packet ↔ packet.SelfPacked lib body := by
  simp only [decodeWithoutLen, compressed, Bool.not_true, Bool.false_eq_true, ↓reduceIte] at decodes
  obtain ⟨⟨consumed, dataLen⟩, read, rest⟩ := bind_ok.mp decodes
  obtain ⟨behind, sliced, rest⟩ := bind_ok.mp rest
  have read := question_ok.mp read
  cases (sliceFrom_readVarInt read).symm.trans sliced
  have misread : decodeWithoutLen lib plain body =
      .ok ⟨dataLen.toUInt32.toUInt8, body.drop consumed⟩ := by
    simp [decodeWithoutLen, mode, readPacketIdData, read, sliced, bind, Except.bind, pure, Except.pure]
  rw [misread]
  constructor
  · intro same
    cases same
    refine ⟨consumed, dataLen, read, ?_, rfl, rfl⟩
    rintro rfl
    -- An uncompressed packet is shorter than what it is made of.
    rw [if_pos rfl] at rest
    obtain ⟨⟨width, id⟩, front, rest⟩ := bind_ok.mp rest
    obtain ⟨data, sliced, same⟩ := bind_ok.mp rest
    have front := question_ok.mp front
    cases (sliceFrom_readVarInt front).symm.trans sliced
    have shorter := congrArg (List.length ∘ RawPacket.data) (Except.ok.inj same)
    obtain ⟨positive, -, inside⟩ := readVarInt_bounds front
    simp only [Function.comp_apply, List.length_drop] at shorter inside
    omega
  · rintro ⟨_, _, again, -, id, data⟩
    cases read.symm.trans again
    rw [id, data]

/-- What a frame was decoded as, a client without compression decodes it as exactly if it
was received without, or holds a packet that is packed in itself. -/
theorem decode_frame_plain_iff (mode : plain.isCompressed = false)
    (decodes : decodeWithLen lib client raw = .ok packet) :
    decodeWithLen lib plain raw = .ok packet ↔
      client.isCompressed = false ∨ packet.SelfPackedFrame lib raw := by
  obtain ⟨consumed, len, read, inner, others⟩ := decodeWithLen_ok decodes
  have framed : packet.SelfPackedFrame lib raw ↔
      packet.SelfPacked lib (frameBody raw consumed len) := by
    constructor
    · rintro ⟨_, _, again, packed⟩
      cases read.symm.trans again
      exact packed
    · exact fun packed => ⟨consumed, len, read, packed⟩
  rw [others plain, framed]
  cases compressed : client.isCompressed with
  | false =>
    refine iff_of_true ?_ (.inl rfl)
    rw [← inner]
    simp only [decodeWithoutLen, mode, compressed]
  | true => simpa using decode_plain_iff compressed mode inner

end RawPacket

namespace Probe
open Program

/-- A frame that the probe has kept, with the client it was received as and the packet it
was. -/
structure Recording where
  client : Client
  packet : RawPacket
  raw : List UInt8

section

variable {ModList JoinGame : Type} (wire : Wire ModList JoinGame) (config : Config)

/-- What the login loop records on its way to the game data. -/
def recordings : (limit : Nat) → Client → Conn → List Recording
  | 0, _, _ => []
  | limit + 1, client, conn =>
    match readPacket wire.toCodecs client conn with
    | (.ok (some (packet, raw)), conn) =>
      match loginStep wire config client packet with
      | .ok (.setCompression threshold) => recordings limit (client.setCompression threshold) conn
      | .ok (.respond record _) =>
        (if record then [⟨client, packet, raw⟩] else []) ++ recordings limit client conn
      | .ok .unhandled => recordings limit client conn
      | .ok .success | .error _ => []
    | _ => []

def Backend.recordings (backend : Backend) : List Recording :=
  Probe.recordings wire config backend.limit (tmpClient backend) ⟨[], backend.reads⟩

variable {wire config}

/-- The payload of the probe is their frames. -/
theorem recordings_raw (limit : Nat) (client : Client) (conn : Conn) :
    (recordings wire config limit client conn).map Recording.raw =
      recordedFrames wire config limit client conn := by
  induction limit generalizing client conn with
  | zero => rfl
  | succ limit ih =>
    rw [recordings, recordedFrames]
    rcases readPacket wire.toCodecs client conn with ⟨(_ | _) | (_ | ⟨packet, raw⟩), after⟩
    · rfl
    · rfl
    · rfl
    · dsimp only
      rcases loginStep wire config client packet with _ | (_ | ⟨record, bytes⟩ | _ | _)
      · rfl
      · exact ih ..
      · dsimp only
        rw [List.map_append, ih]
        cases record <;> rfl
      · rfl
      · exact ih ..

/-- Each was decoded as the packet it is kept with. -/
theorem recordings_decode {limit : Nat} {client : Client} {conn : Conn} :
    ∀ recording ∈ recordings wire config limit client conn,
      RawPacket.decodeWithLen wire.toCodecs recording.client recording.raw = .ok recording.packet := by
  induction limit generalizing client conn with
  | zero => nofun
  | succ limit ih =>
    intro recording member
    rw [recordings] at member
    rcases read : readPacket wire.toCodecs client conn with ⟨(_ | _) | (_ | ⟨packet, raw⟩), after⟩
    · simp [read] at member
    · simp [read] at member
    · simp [read] at member
    · simp only [read] at member
      rcases stepped : loginStep wire config client packet with _ | (_ | ⟨record, bytes⟩ | _ | _)
      · simp [stepped] at member
      · simp only [stepped] at member
        exact ih recording member
      · simp only [stepped] at member
        rcases List.mem_append.mp member with now | later
        · have same : recording = ⟨client, packet, raw⟩ := by cases record <;> simp_all
          rw [same]
          exact (readPacket_stream read).2.decodes
        · exact ih recording later
      · simp [stepped] at member
      · simp only [stepped] at member
        exact ih recording member

/-- A probe that completes its login returns their frames. -/
theorem payload_recorded {backend : Backend} {log : List ((op : Op JoinGame) × op.Reply)}
    {payload : List (List UInt8)}
    (completes : (connectToServer wire config backend).Performs log (.pure (.ok payload))) :
    payload = (backend.recordings wire config).map Recording.raw := by
  have stored : Follows (order JoinGame []) (.pure (.ok payload)) _ (OnOk _) :=
    (connectToServer_follows wire config backend).performs completes
  rw [(onOk_ok.mp stored).2]
  exact (recordings_raw ..).symm

end

end Probe

/-! ## What the lobby writes -/

namespace Lobby
open Program

section

variable {ModList JoinGame : Type}

/-- The frames that have been begun for the client, in order. -/
def begun (log : List ((op : Op JoinGame) × op.Reply)) : List (List UInt8) :=
  log.filterMap fun
    | ⟨.write .client frame 0, _⟩ => some frame
    | _ => none

/-- Whenever the payload is read, it is this one. -/
def Finds (payload : List (List UInt8)) (log : List ((op : Op JoinGame) × op.Reply)) : Prop :=
  ∀ reply, ⟨.readPayload, reply⟩ ∈ log → reply = payload

/-- The frames of the payload are begun one after the other, and nothing else is. The
stage is what is left of them, once the payload has been read. -/
abbrev replaying : Discipline (Op JoinGame) Op.Reply where
  Stage := Option (List (List UInt8))
  advance
    | none, .readPayload, payload => some (payload.filter (· ≠ []))
    | some left, .write .client _ 0, _ => some left.tail
    | stage, _, _ => stage
  permits
    | none, .write .client _ 0 => False
    | some left, .write .client frame 0 => left.head? = some frame
    | _, _ => True

variable {α : Type} {program rest : Program (Op JoinGame) Op.Reply α}
  {log : List ((op : Op JoinGame) × op.Reply)}

/-- With what is left, the frames begun are all that was left. -/
theorem begun_of_left {left : List (List UInt8)} {post : α → Option (List (List UInt8)) → Prop}
    (follows : program.Follows replaying (some left) post) (performs : program.Performs log rest) :
    begun log <+: left := by
  induction performs generalizing left with
  | start => exact List.nil_prefix
  | @request op next reply log rest performs ih =>
    obtain ⟨permitted, further⟩ := follows
    cases op with
    | write peer frame offset =>
      match peer, offset with
      | .client, 0 =>
        obtain ⟨behind, rfl⟩ := List.head?_eq_some_iff.mp permitted
        exact (List.prefix_cons_inj frame).mpr (ih (further reply))
      | .client, offset + 1 => exact ih (further reply)
      | .server, offset => exact ih (further reply)
    | _ => exact ih (further reply)

/-- What is begun is the front of the payload as it was read. -/
theorem begun_of_unread {payload : List (List UInt8)}
    {post : α → Option (List (List UInt8)) → Prop}
    (follows : program.Follows replaying none post) (performs : program.Performs log rest)
    (finds : Finds payload log) : begun log <+: payload.filter (· ≠ []) := by
  induction performs with
  | start => exact List.nil_prefix
  | @request op next reply log rest performs ih =>
    obtain ⟨permitted, further⟩ := follows
    have later : Finds payload log := fun other member => finds other (List.mem_cons_of_mem _ member)
    cases op with
    | readPayload =>
      cases finds reply List.mem_cons_self
      have front := begun_of_left (further _) performs
      exact front
    | write peer frame offset =>
      match peer, offset with
      | .client, 0 => exact permitted.elim
      | .client, offset + 1 => exact ih (further reply) later
      | .server, offset => exact ih (further reply) later
    | _ => exact ih (further reply) later

variable {wire : LobbyWire ModList JoinGame} {config : Config}

/-- A frame is begun once, whatever the socket takes of it at a time. -/
theorem writeAll_replaying {frame : List UInt8} {left : List (List UInt8)} (nonempty : frame ≠ []) :
    Yields replaying (some (frame :: left)) (writeAll .client frame : LobbyM JoinGame Unit)
      fun _ ended => ended = some left := by
  have goes_on (polls offset : Nat) :
      Yields replaying (some left) (writeFrom .client frame polls (offset + 1) : LobbyM JoinGame Unit)
        fun _ ended => ended = some left := by
    induction polls generalizing offset with
    | zero => exact .pure rfl
    | succ polls ih =>
      rw [writeFrom]
      split
      · exact .pure rfl
      · have polled : Yields replaying (some left)
            (perform (.write .client frame (offset + 1)) : LobbyM JoinGame (Option Nat))
            fun _ ended => ended = some left := .perform trivial fun _ => rfl
        refine .bind polled ?_
        rintro taken _ rfl
        rcases taken with _ | _ | taken
        · exact .throw
        · exact .throw
        · exact ih (offset + 1 + taken)
  obtain ⟨byte, bytes, rfl⟩ := List.exists_cons_of_ne_nil nonempty
  rw [writeAll, List.length_cons, writeFrom, if_neg (by simp)]
  have polled : Yields replaying (some ((byte :: bytes) :: left))
      (perform (.write .client (byte :: bytes) 0) : LobbyM JoinGame (Option Nat))
      fun _ ended => ended = some left := .perform rfl fun _ => rfl
  refine .bind polled ?_
  rintro taken _ rfl
  rcases taken with _ | _ | taken
  · exact .throw
  · exact .throw
  · have further := goes_on bytes.length taken
    rwa [← Nat.zero_add (taken + 1)] at further

theorem deliverAll_replaying (payload : List (List UInt8)) :
    Yields replaying (some (payload.filter (· ≠ [])))
      (replayLoginPayload.deliverAll payload : LobbyM JoinGame Unit) fun _ _ => True := by
  induction payload with
  | nil => exact .pure trivial
  | cons frame payload ih =>
    by_cases empty : frame = []
    · subst empty
      rw [List.filter_cons_of_neg (by simp)]
      exact ih
    · rw [List.filter_cons_of_pos (by simpa using empty)]
      exact .bind (writeAll_replaying empty) fun _ _ same => same ▸ ih

/-- The lobby keeps to that. -/
theorem serveForge_replaying (rounds : Nat) (client : Client) (conn : Conn) :
    Yields replaying none (serveForge wire config rounds client conn) fun _ _ => True := by
  unfold serveForge
  split
  · have found : Yields replaying none (perform .readPayload : LobbyM JoinGame (List (List UInt8)))
        fun payload ended => ended = some (payload.filter (· ≠ [])) := .perform trivial fun _ => rfl
    have counts (stage : Option (List (List UInt8))) :
        Yields replaying stage (perform .readPayload : LobbyM JoinGame (List (List UInt8)))
          fun _ _ => True := by
      cases stage <;> exact .perform trivial fun _ => trivial
    have drains (count : Nat) : Settles replaying (fun _ => True)
        (drainForgeResponses wire client rounds count conn) := by
      refine drainForgeResponses_settles (fun timer stage => ?_) (fun stage _ => ?_) client rounds
        count conn
      · cases stage <;> exact ⟨trivial, fun _ => rfl⟩
      · cases stage <;> exact ⟨trivial, fun _ => trivial⟩
    refine .bind found ?_
    rintro payload _ rfl
    refine .bind (deliverAll_replaying payload) fun _ stage _ => ?_
    exact .bind (counts stage) fun counted stage _ => drains counted.length stage trivial
  · exact .pure trivial

/-- The writes to a client that takes a frame at a time. -/
def wholeWrites (frames : List (List UInt8)) : List ((op : Op JoinGame) × op.Reply) :=
  frames.map fun frame => ⟨.write .client frame 0, some frame.length⟩

theorem begun_wholeWrites (frames : List (List UInt8)) :
    begun (wholeWrites frames : List ((op : Op JoinGame) × op.Reply)) = frames := by
  induction frames with
  | nil => rfl
  | cons frame frames ih => exact congrArg (frame :: ·) ih

theorem writeAll_performs {β : Type} {frame : List UInt8} (nonempty : frame ≠ [])
    {next : LobbyM JoinGame β} {log : List ((op : Op JoinGame) × op.Reply)}
    {rest : Program (Op JoinGame) Op.Reply (Outcome β)} (performs : next.run.Performs log rest) :
    (writeAll .client frame >>= fun _ => next).run.Performs
      (⟨.write .client frame 0, some frame.length⟩ :: log) rest := by
  obtain ⟨byte, bytes, rfl⟩ := List.exists_cons_of_ne_nil nonempty
  have ended : (writeFrom .client (byte :: bytes) bytes.length (0 + (bytes.length + 1)) :
      LobbyM JoinGame Unit) = Pure.pure () := by
    cases bytes with
    | nil => rfl
    | cons second bytes => exact if_pos (by simp)
  rw [writeAll, List.length_cons, writeFrom, if_neg (by simp)]
  refine .request ?_
  change (writeFrom .client (byte :: bytes) bytes.length (0 + (bytes.length + 1)) >>=
    fun _ => next).run.Performs log rest
  rwa [ended]

theorem deliverAll_performs {β : Type} {frames : List (List UInt8)}
    (nonempty : ∀ frame ∈ frames, frame ≠ []) (next : LobbyM JoinGame β) :
    (replayLoginPayload.deliverAll frames >>= fun _ => next).run.Performs (wholeWrites frames)
      next.run := by
  induction frames with
  | nil => exact .start
  | cons frame frames ih =>
    rw [replayLoginPayload.deliverAll, LawfulMonad.bind_assoc]
    exact writeAll_performs (nonempty frame List.mem_cons_self)
      (ih fun other member => nonempty other (List.mem_cons_of_mem _ member))

/-- A client that takes everything gets the whole payload. -/
theorem serveForge_performs (wire : LobbyWire ModList JoinGame) (forge : config.server.forge = true)
    (payload : List (List UInt8)) (nonempty : ∀ frame ∈ payload, frame ≠ []) (rounds : Nat)
    (client : Client) (conn : Conn) :
    ∃ log rest, (serveForge wire config rounds client conn).run.Performs log rest ∧
      Finds payload log ∧ begun log = payload := by
  rw [serveForge, if_pos forge, replayLoginPayload]
  refine ⟨⟨.readPayload, payload⟩ :: wholeWrites payload, _,
    .request (deliverAll_performs nonempty _), ?_, begun_wholeWrites payload⟩
  intro reply member
  rcases List.mem_cons.mp member with same | later
  · cases same
    rfl
  · simp [wholeWrites] at later

/-- What is begun for the client is what was recorded, in the same order, and it means
the same to the client as it did to the probe. -/
def MeansSame (lib : Codecs) (client : Client) (recordings : List Probe.Recording)
    (frames : List (List UInt8)) : Prop :=
  ∀ (place : Nat) (frame : List UInt8), frames[place]? = some frame → ∃ recording : Probe.Recording,
    recordings[place]? = some recording ∧ recording.raw = frame ∧
      RawPacket.decodeWithLen lib client frame = .ok recording.packet

/-- Whatever the replay writes means the same exactly if every frame was received without
compression, or happens to be packed in itself. -/
theorem meansSame_iff (forge : config.server.forge = true) {recordings : List Probe.Recording}
    (decoded : ∀ recording ∈ recordings,
      RawPacket.decodeWithLen wire.toCodecs recording.client recording.raw = .ok recording.packet)
    {client : Client} (mode : client.isCompressed = false) :
    (∀ rounds conn log rest, (serveForge wire config rounds client conn).run.Performs log rest →
      Finds (recordings.map Probe.Recording.raw) log →
      MeansSame wire.toCodecs client recordings (begun log)) ↔
    ∀ recording ∈ recordings, recording.client.isCompressed = false ∨
      recording.packet.SelfPackedFrame wire.toCodecs recording.raw := by
  have nonempty : ∀ frame ∈ recordings.map Probe.Recording.raw, frame ≠ [] := by
    intro frame member
    obtain ⟨recording, recorded, rfl⟩ := List.mem_map.mp member
    intro empty
    have decodes := decoded recording recorded
    rw [empty, decodeWithLen_nil] at decodes
    cases decodes
  constructor
  · intro same recording member
    obtain ⟨place, placed⟩ := List.getElem?_of_mem member
    obtain ⟨log, rest, performs, finds, all⟩ :=
      serveForge_performs wire forge _ nonempty 0 client ⟨[], []⟩
    have there : (begun log)[place]? = some recording.raw := by simp [all, placed]
    obtain ⟨other, also, -, decodes⟩ := same 0 ⟨[], []⟩ log rest performs finds place _ there
    cases placed.symm.trans also
    exact (RawPacket.decode_frame_plain_iff mode (decoded recording member)).mp decodes
  · intro plain rounds conn log rest performs finds place frame there
    have front := begun_of_unread (serveForge_replaying rounds client conn) performs finds
    rw [List.filter_eq_self.mpr (by simpa using nonempty)] at front
    obtain ⟨bound, rfl⟩ := List.getElem?_eq_some_iff.mp there
    have recorded := front.getElem bound
    have inside : place < recordings.length := by
      have shorter := front.length_le
      rw [List.length_map] at shorter
      omega
    rw [List.getElem_map] at recorded
    refine ⟨recordings[place], List.getElem?_eq_getElem inside, recorded.symm, ?_⟩
    have member := List.getElem_mem inside
    rw [recorded]
    exact (RawPacket.decode_frame_plain_iff mode (decoded _ member)).mpr (plain _ member)

/-- The probe has completed its login, and the lobby replays what that has recorded for a
client that has got as far as its own login: each frame means the same to the client as it
did to the probe exactly if all of them were received before the server switched
compression on, or happen to be packed in themselves. -/
theorem replay_means_same_iff (wire : LobbyWire ModList JoinGame) (config : Config)
    (forge : config.server.forge = true) (server : Probe.Backend)
    {probed : List ((op : Probe.Op JoinGame) × op.Reply)} {payload : List (List UInt8)}
    (completes : (Probe.connectToServer wire.toWire config server).Performs probed
      (.pure (.ok payload))) (peer : SocketAddr) :
    let client := (Client.new peer).setState .login
    let recordings := server.recordings wire.toWire config
    (∀ rounds conn log rest, (serveForge wire config rounds client conn).run.Performs log rest →
      Finds payload log → MeansSame wire.toCodecs client recordings (begun log)) ↔
    ∀ recording ∈ recordings, recording.client.isCompressed = false ∨
      recording.packet.SelfPackedFrame wire.toCodecs recording.raw := by
  rw [Probe.payload_recorded completes]
  exact meansSame_iff forge Probe.recordings_decode rfl

end

/-- Every deadline of the probe is met, and everything else goes well. -/
def willing : (op : Probe.Op Unit) → op.Reply
  | .start | .connect | .send _ | .shutdown | .loginStart | .deliver _ => true
  | .elapsed _ => false
  | .stateChanged => .started
  | .receive | .storeJoinGame _ | .storePayload _ => ()
  | .readJoinGame => none
  | .readPayload => []

/-- Where the server uses no compression, the whole payload is replayed and means the same. -/
theorem replay_means_same_plain : ∃ log rest,
    (serveForge plainLobbyWire { server := { forge := true } } 0 (Client.dummy.setState .login)
      ⟨[], []⟩).run.Performs log rest ∧
    begun log = [Probe.pluginRequestFrame] ∧
    MeansSame plainCodecs (Client.dummy.setState .login)
      (Probe.forgeServer.recordings Probe.plainWire { server := { forge := true } }) (begun log) := by
  let config : Config := { server := { forge := true } }
  have returned : ((Probe.connectToServer Probe.plainWire config Probe.forgeServer).answered
      (.replicate 20 willing)).2.value? = some (.ok [Probe.pluginRequestFrame]) := by
    decide +kernel
  have plain : (Probe.forgeServer.recordings Probe.plainWire config).map
      (fun recording => recording.client.isCompressed) = [false] := by decide +kernel
  have forge : config.server.forge = true := rfl
  obtain ⟨log, rest, performs, finds, all⟩ := serveForge_performs plainLobbyWire forge
    [Probe.pluginRequestFrame] (by decide) 0 (Client.dummy.setState .login) ⟨[], []⟩
  refine ⟨log, rest, performs, all, ?_⟩
  refine (replay_means_same_iff plainLobbyWire config rfl Probe.forgeServer
    (performs_returns returned) Client.dummy.peer).mpr (fun recording member => .inl ?_)
    0 ⟨[], []⟩ log rest performs finds
  have mode : recording.client.isCompressed ∈
      (Probe.forgeServer.recordings Probe.plainWire config).map
        (fun recording => recording.client.isCompressed) := List.mem_map_of_mem member
  rw [plain] at mode
  exact List.mem_singleton.mp mode

/-- The request in the compressed mode, with its wrapped packet in the same. -/
def compressedRequestFrame : List UInt8 :=
  [38, 0, 4, 1, 16, 102, 109, 108, 58, 108, 111, 103, 105, 110, 119, 114, 97, 112, 112, 101, 114,
    13, 102, 109, 108, 58, 104, 97, 110, 100, 115, 104, 97, 107, 101, 3, 0, 3, 0]

/-- A Forge server that switches compression on before it sends its request. -/
def compressingServer : Probe.Backend where
  address := none
  reads := [.data [3, 3, 128, 2], .data compressedRequestFrame, .data [2, 0, 2], .data [2, 0, 0x26]]
  updates := 1

/-- The request is replayed as it came, and means another packet to the client. -/
theorem compressed_request_misread :
    ¬ ∀ (wire : LobbyWire Unit Unit) (config : Config) (server : Probe.Backend)
        (probed : List ((op : Probe.Op Unit) × op.Reply)) (payload : List (List UInt8))
        (peer : SocketAddr), config.server.forge = true →
      (Probe.connectToServer wire.toWire config server).Performs probed (.pure (.ok payload)) →
      ∀ rounds conn log rest, (serveForge wire config rounds ((Client.new peer).setState .login)
          conn).run.Performs log rest → Finds payload log →
        MeansSame wire.toCodecs ((Client.new peer).setState .login)
          (server.recordings wire.toWire config) (begun log) := by
  intro every
  let config : Config := { server := { forge := true } }
  let client : Client := Client.dummy.setState .login
  have returned : ((Probe.connectToServer Probe.plainWire config compressingServer).answered
      (.replicate 22 willing)).2.value? = some (.ok [compressedRequestFrame]) := by decide +kernel
  have request : (compressingServer.recordings Probe.plainWire config).map (·.packet.id) = [4] := by
    decide +kernel
  have misread : (RawPacket.decodeWithLen plainCodecs client compressedRequestFrame).map
      RawPacket.id = .ok 0 := by decide +kernel
  have forge : config.server.forge = true := rfl
  obtain ⟨log, rest, performs, finds, all⟩ := serveForge_performs plainLobbyWire forge
    [compressedRequestFrame] (by decide) 0 client ⟨[], []⟩
  have same := every plainLobbyWire config compressingServer _ _ Client.dummy.peer rfl
    (performs_returns returned) 0 ⟨[], []⟩ log rest performs finds
  obtain ⟨recording, placed, -, decodes⟩ := same 0 compressedRequestFrame (by rw [all]; rfl)
  have id : recording.packet.id = 4 := by
    have found := congrArg (·[0]?) request
    simpa [List.getElem?_map, show
      (compressingServer.recordings Probe.plainWire config)[0]? = some recording from placed] using found
  rw [show RawPacket.decodeWithLen plainCodecs client compressedRequestFrame = .ok recording.packet
    from decodes] at misread
  have zero : recording.packet.id = 0 := Except.ok.inj misread
  rw [id] at zero
  cases zero

end Lobby

end PlexPaper
