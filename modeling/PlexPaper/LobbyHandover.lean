import PlexPaper.LobbyPrograms
import PlexPaper.ProbePublication
import PlexPaper.RelayDelivery

/-! What the lobby hands over. The bytes of the server go through two loops with one
buffer, and what that buffer holds in the end is queued for the client. -/
namespace PlexPaper.Lobby
open Tasks Outcome Program

section

variable {ModList JoinGame : Type} (wire : LobbyWire ModList JoinGame) (clientInfo : ClientInfo)
  (backend : Backend)

/-- The server is handed over behind its game data. Nothing else is regulated. -/
abbrev behindGameData : Discipline (Op JoinGame) Op.Reply where
  Stage := Unit
  advance _ _ _ := ()
  permits
    | _, .relay _ outbound queue => ∃ frames conn, JoinedGame wire clientInfo backend frames conn ∧
        outbound = conn.reads ∧ queue = conn.buf
    | _, _ => True

/-- The lobby keeps to that. -/
theorem handsOver_behindGameData :
    HandsOver wire clientInfo backend (behindGameData wire clientInfo backend) fun _ => True where
  background op quiet _ _ := by
    refine ⟨?_, fun _ => trivial⟩
    cases op with
    | relay => exact quiet.elim
    | _ => trivial
  elapsed _ _ := ⟨trivial, fun _ => rfl⟩
  writes _ _ := writeAll_settles fun _ _ _ => ⟨trivial, fun _ => trivial⟩
  races program stage settles held :=
    Follows.mono (Follows.race (fun _ _ => True) (fun _ => True) (fun _ _ _ _ _ => trivial)
      (fun _ _ => trivial) (fun _ _ _ _ => rfl) (fun _ _ _ _ _ => trivial) trivial
      (settles stage held)) fun _ _ _ _ => trivial
  reads _ _ := ⟨trivial, fun _ => trivial⟩
  drains _ _ := ⟨trivial, fun _ => trivial⟩
  delivers :=
    .bind (.perform fun _ _ => ⟨trivial, fun _ => trivial⟩) fun _ =>
      .bind (deliverAll_settles fun _ _ => writeAll_settles fun _ _ _ => ⟨trivial, fun _ => trivial⟩)
        fun _ => .bind (.perform fun _ _ => ⟨trivial, fun _ => trivial⟩) fun _ => .pure
  relays _ frames conn joined _ _ := ⟨⟨frames, conn, joined, rfl, rfl⟩, fun _ => trivial⟩

end

section

variable {ModList JoinGame : Type}

/-- Whatever a client is handed over with, the bytes of the server behind the frame of
the game data, as far as they were read already and as they come, are what is relayed
to it: always the front of them, all once the server has closed, and in the end all. -/
theorem server_bytes_relayed {wire : LobbyWire ModList JoinGame} {config : Config}
    {clientInfo : ClientInfo} {inbound : TcpStream} {backend : Backend} {rounds : Nat} {client : Client}
    {queue : List UInt8} {log : List ((op : Op JoinGame) × op.Reply)}
    {rest : Program (Op JoinGame) Op.Reply (Outcome Unit)} {reads outbound : List Read}
    {serverBuf : List UInt8}
    (performed : (serve wire config rounds clientInfo inbound backend client queue).run.Performs log rest)
    (handed : ⟨.relay reads outbound serverBuf, ()⟩ ∈ log) :
    ∃ frames conn, JoinedGame wire clientInfo backend frames conn ∧
      Read.bytes backend.reads = (frames.map (·.2)).flatten ++ conn.stream ∧
      (∀ relaying, (proxyInboundOutboundWithQueue reads outbound serverBuf []).Reaches relaying →
        relaying.toClient.sent <+: conn.stream ∧
          (relaying.toClient.shutdown = true → relaying.toClient.sent = conn.stream)) ∧
      (proxyInboundOutboundWithQueue reads outbound serverBuf []).Delivers .toClient conn.stream := by
  have follows : (serve wire config rounds clientInfo inbound backend client queue).run.Follows
      (behindGameData wire clientInfo backend) () _ :=
    (handsOver_behindGameData wire clientInfo backend).serve_settles rounds inbound client queue ()
      trivial
  obtain ⟨frames, conn, joined, rfl, rfl⟩ :=
    follows.permits_of_mem (fun _ _ _ => rfl) performed handed
  refine ⟨frames, conn, joined, joined.1.stream, fun relaying reached => ?_, ?_⟩
  · exact Relaying.relays .toClient rfl rfl reached
  · exact Relaying.delivers .toClient rfl rfl

end

/-! A run, for a client of 1.17 whose login is as short as can be. -/

/-- The packet formats, as far as the runs below go. -/
def plainLobbyWire : LobbyWire Unit Unit where
  toWire := Probe.plainWire
  serverLoginStart := 0x00
  serverLoginPluginResponse := 0x02
  clientEncryptionRequest := 0x01
  clientDisconnect := 0x00
  decodeLoginStart data := some (String.ofList (data.tail.map fun byte => Char.ofNat byte.toNat))
  setCompression threshold := ⟨0x03, some (varInt threshold)⟩
  loginSuccess uuid name :=
    ⟨0x02, some (uuid ++ varInt (asI32 name.utf8ByteSize) ++ name.toUTF8.toList)⟩
  lobbyJoinGame _ _ _ := ⟨0x26, some []⟩
  pluginMessage _ _ data := ⟨0x18, some data⟩
  playerPositionAndLook _ := ⟨0x38, some []⟩
  timeUpdate _ := ⟨0x58, some []⟩
  keepAlive _ id :=
    ⟨0x21, some ((List.range 8).map fun place => (id >>> (56 - 8 * place.toUInt64)).toUInt8)⟩
  titleText _ _ := ⟨0x59, some []⟩
  titleSubtitle _ _ := ⟨0x57, some []⟩
  titleTimes _ _ _ _ := ⟨0x5A, some []⟩
  namedSoundEffect _ _ := ⟨0x19, some []⟩
  respawn _ _ := ⟨0x3D, some []⟩
  md5 _ := List.replicate 16 0
  proxyHeader _ := none

/-- Everything goes well at once, and the client sends nothing more. -/
def cooperate : (op : Op Unit) → op.Reply
  | .read _ | .tick | .sleep _ | .relay _ _ _ => ()
  | .tryRead | .elapsed _ => false
  | .connect | .shutdown _ => true
  | .write _ frame offset => some (frame.length - offset)
  | .ready => some (.ok ())
  | .nextKeepAliveId => 1
  | .readStatus | .readJoinGame => none
  | .readPayload => []

def player : ClientInfo where
  protocol := some 755
  handshake := some ⟨755, "localhost", 25565, 2⟩
  username := some "a"

/-- The player sends the login start, and then confirms its teleport in two parts. -/
def playerSocket : TcpStream where
  peerAddr := ⟨.v4 0x7F000001, 40000⟩
  localAddr := ⟨.v4 0x7F000001, PUBLIC_PORT_DEFAULT⟩
  reads := [[3, 0, 1, 97], [3], [0, 0, 0]].map .data

/-- The server sends the success of the login, the game data and the beginning of
another packet before its rest. -/
def quickServer : Backend where
  localAddr := none
  reads := [.data [1, 2, 1], .data [0x26, 1], .data [0x40]]

/-- The lobby serves the player. -/
def servePlayer : LobbyM Unit Unit :=
  serve plainLobbyWire { join := { lobby := { readySound := none } } } 9 player playerSocket quickServer
    { peer := playerSocket.peerAddr, state := .login } []

/-- What has been handed over with an operation. -/
def Op.handed {JoinGame : Type} : Op JoinGame → Option (List Read × List Read × List UInt8)
  | .relay inbound outbound queue => some (inbound, outbound, queue)
  | _ => none

/-- A relay that is found in the log. -/
theorem handed_only {JoinGame : Type} {reads outbound : List Read} {serverBuf : List UInt8}
    (other : (op : Op JoinGame) × op.Reply)
    (handed : other.1.handed = some (reads, outbound, serverBuf)) :
    other = ⟨.relay reads outbound serverBuf, ()⟩ := by
  obtain ⟨op, reply⟩ := other
  cases op with
  | relay => cases handed; rfl
  | _ => cases handed

private theorem servePlayer_handed :
    ((servePlayer.run.answered (.replicate 27 cooperate)).1[26]?.bind fun done => done.1.handed) =
      some ([.data [3], .data [0, 0, 0]], [.data [0x40]], [1]) := by
  decide +kernel

/-- The relay as it was handed over, and moves that take it to its end. -/
private def handedRelay : Relaying :=
  proxyInboundOutboundWithQueue [.data [3], .data [0, 0, 0]] [.data [0x40]] [1] []

private def relayEvents : List RelayEvent :=
  [.accept .toClient 1, .copy .toServer, .copy .toServer, .accept .toServer 4, .copy .toClient,
    .accept .toClient 1, .finish .toClient, .finish .toServer]

/-- The beginning of the third packet is buffered, and its rest comes from the socket. The
client gets both. -/
theorem server_bytes_relayed_split :
    ∃ frames conn, JoinedGame plainLobbyWire player quickServer frames conn ∧
      Read.bytes quickServer.reads = (frames.map (·.2)).flatten ++ conn.stream ∧ conn.stream = [1, 0x40] ∧
      ∃ run : Nat → Relaying, run 0 = handedRelay ∧ (∀ n < 8, (run n).Moves (run (n + 1))) ∧
        (∀ next, ¬ (run 8).Moves next) ∧ (run 8).toClient.sent = conn.stream := by
  obtain ⟨frames, conn, joined, bytes, -, delivers⟩ :=
    server_bytes_relayed (performs_found handed_only servePlayer_handed)
      (List.mem_append_right _ List.mem_cons_self)
  have moved := @Relaying.moves_along handedRelay relayEvents (by decide)
  have stuck := @Relaying.stuck_of_left (handedRelay.along relayEvents 8) (by decide)
  have orderly : handedRelay.BothEndInOrder :=
    Relaying.bothEndInOrder (@endsInOrder_chunks [[3], [0, 0, 0]] (by decide))
      (@endsInOrder_chunks [[0x40]] (by decide))
  obtain ⟨-, sent⟩ := (delivers _ 8 rfl moved).2 orderly stuck
  exact ⟨frames, conn, joined, bytes, sent.symm.trans (by decide), _, rfl, moved, stuck, sent⟩

/-! ## What the client has sent by then -/

section

variable {JoinGame : Type}

/-- A read of what the client sends, with something in it. -/
def Op.arrives : (op : Op JoinGame) → op.Reply → Bool
  | .read .client, _ => true
  | .tryRead, arrived => arrived
  | _, _ => false

/-- How many chunks of the client have been read. -/
def arrived (log : List ((op : Op JoinGame) × op.Reply)) : Nat :=
  log.countP fun done => done.1.arrives done.2

/-- A client is handed over with what it has not sent yet: all but the chunks that
were read. -/
abbrev arrivals (reads : List Read) : Discipline (Op JoinGame) Op.Reply where
  Stage := Nat
  advance count op reply := if op.arrives reply then count + 1 else count
  permits
    | count, .relay inbound _ _ => inbound = reads.drop count
    | _, _ => True

theorem arrivals_after (reads : List Read) (count : Nat) (log : List ((op : Op JoinGame) × op.Reply)) :
    (arrivals reads).after count log = count + arrived log := by
  induction log generalizing count with
  | nil => rfl
  | cons done log ih =>
    have step : (arrivals reads).after count (done :: log) =
        (arrivals reads).after ((arrivals reads).advance count done.1 done.2) log := rfl
    rw [step, ih, arrived, arrived, List.countP_cons]
    cases counts : done.1.arrives done.2 with
    | true => simp [counts, Nat.add_assoc, Nat.add_comm 1]
    | false => simp [counts]

/-- All of the lobby that does not read from the client leaves the count alone. -/
theorem serves_arrivals (lib : Codecs) (reads : List Read) (count : Nat) :
    Serves lib (arrivals reads : Discipline (Op JoinGame) Op.Reply).quietly (· = count) where
  background op quiet stage held := by
    have still (reply : op.Reply) : op.arrives reply = false := by
      cases op with
      | read peer => cases peer with
        | client => exact quiet.elim
        | server => rfl
      | tryRead => exact quiet.elim
      | _ => rfl
    have permitted : (arrivals reads).permits stage op := by
      cases op with
      | relay => exact quiet.elim
      | _ => trivial
    have same (reply : op.Reply) : (arrivals reads).advance stage op reply = stage := by
      exact if_neg (by rw [still reply]; exact Bool.false_ne_true)
    exact ⟨⟨permitted, same⟩, fun reply => (same reply).trans held⟩
  elapsed _ _ := ⟨⟨trivial, fun _ => rfl⟩, fun _ => rfl⟩
  writes _ _ := writeAll_settles fun _ _ held => ⟨⟨trivial, fun _ => rfl⟩, fun _ => held⟩
  races program stage settles held :=
    Follows.mono (Follows.race (fun (_ : Except Unit Unit) (ended : Nat) => ended = count) (· = count)
      (fun _ _ reply permitted same => (permitted.2 reply).trans same)
      (fun _ _ => ⟨trivial, fun _ => rfl⟩) (fun _ _ _ _ => rfl) (fun _ _ _ same _ => same) held
      (settles stage held)) fun result ended calms won => by
        rcases won with rfl | rfl
        · exact calms () rfl
        · exact calms

end

section

variable {ModList JoinGame : Type} {wire : LobbyWire ModList JoinGame} {config : Config}
  {reads : List Read} {count : Nat}

/-- A part that does not read from the client leaves the count alone. -/
private theorem still_bind {α β : Type} {program : LobbyM JoinGame α} {rest : α → LobbyM JoinGame β}
    {post : β → Nat → Prop} (settles : Settles (arrivals reads).quietly (· = count) program)
    (then_ : ∀ value, Yields (arrivals reads) count (rest value) post) :
    Yields (arrivals reads) count (program >>= rest) post := by
  have still : Yields (arrivals reads) count program fun _ (ended : Nat) => ended = count :=
    Follows.of_quietly (settles count rfl)
  exact still.bind fun value _ same => same ▸ then_ value

private theorem awaitReads_yields (more : Nat) :
    Yields (arrivals reads) count (awaitReads .client more : LobbyM JoinGame Unit)
      fun _ (ended : Nat) => ended = count + more := by
  induction more generalizing count with
  | zero => exact .pure rfl
  | succ more ih =>
    have first : Yields (arrivals reads) count (perform (.read .client) : LobbyM JoinGame Unit)
        fun _ (ended : Nat) => ended = count + 1 := .perform trivial fun _ => rfl
    refine first.bind ?_
    rintro _ _ rfl
    exact ih.mono fun _ (ended : Nat) same => by omega

/-- What is left to read is what the number of reads says. -/
private theorem left_of_suffix {remaining after : List Read} (left : remaining = reads.drop count)
    (suffix : after <:+ remaining) :
    after = reads.drop (count + (remaining.length - after.length)) := by
  calc after = remaining.drop (remaining.length - after.length) := List.suffix_iff_eq_drop.mp suffix
    _ = reads.drop (count + (remaining.length - after.length)) := by
      conv_lhs => rw [left, List.drop_drop]
      rw [left]

private theorem receive_yields {client : Client} {conn : Conn} (left : conn.reads = reads.drop count) :
    Yields (arrivals reads) count (receive wire .client client conn)
      fun result (ended : Nat) => result.2.reads = reads.drop ended := by
  refine (awaitReads_yields _).bind ?_
  rintro _ _ rfl
  exact .pure (left_of_suffix left (readPacket_suffix ..))

/-- A deadline stops the reads somewhere. -/
private theorem awaitReadsInTime_yields (timer : Timer) (more : Nat) :
    Yields (arrivals reads) count (awaitReadsInTime timer more : LobbyM JoinGame Nat)
      fun missed (ended : Nat) => missed ≤ more ∧ ended = count + (more - missed) := by
  induction more generalizing count with
  | zero => exact .pure ⟨Nat.le_refl _, rfl⟩
  | succ more ih =>
    have asked : Yields (arrivals reads) count (perform (.elapsed timer) : LobbyM JoinGame Bool)
        fun _ (ended : Nat) => ended = count := .perform trivial fun _ => rfl
    refine asked.bind ?_
    rintro passed count rfl
    cases passed with
    | true => exact .pure ⟨Nat.le_refl _, by simp⟩
    | false =>
      have first : Yields (arrivals reads) count (perform (.read .client) : LobbyM JoinGame Unit)
          fun _ (ended : Nat) => ended = count + 1 := .perform trivial fun _ => rfl
      refine first.bind ?_
      rintro _ _ rfl
      refine ih.mono fun missed (ended : Nat) facts => ?_
      obtain ⟨few, same⟩ := facts
      exact ⟨by omega, by omega⟩

private theorem receiveInTime_yields {timer : Timer} {client : Client} {conn : Conn}
    (left : conn.reads = reads.drop count) :
    Yields (arrivals reads) count (receiveInTime wire timer client conn)
      fun result (ended : Nat) => result.2.reads = reads.drop ended := by
  have suffix := left_of_suffix left (readPacket_suffix wire.toCodecs client conn)
  unfold receiveInTime
  generalize readPacket wire.toCodecs client conn = read at suffix ⊢
  obtain ⟨result, after⟩ := read
  refine (awaitReadsInTime_yields timer _).bind ?_
  rintro missed _ ⟨few, rfl⟩
  dsimp only
  split
  · rename_i all_made
    subst all_made
    exact .pure suffix
  · exact .pure (by rw [left, List.drop_drop])

private theorem drainForgeResponses_yields (client : Client) (rounds responses : Nat) {conn : Conn}
    (left : conn.reads = reads.drop count) :
    Yields (arrivals reads) count (drainForgeResponses wire client rounds responses conn)
      fun conn (ended : Nat) => conn.reads = reads.drop ended := by
  induction rounds generalizing responses conn count with
  | zero => cases responses with
    | zero => exact .pure left
    | succ responses => exact .throw
  | succ rounds ih => cases responses with
    | zero => exact .pure left
    | succ responses =>
      refine (receiveInTime_yields left).bind fun received ended left => ?_
      match received with
      | (none, conn) => exact .pure left
      | (some (.ok (some (packet, raw))), conn) =>
        dsimp only
        split
        · exact ih _ left
        · exact ih _ left
      | (some (.error .panic), _) => exact .throw
      | (some (.ok none), _) => exact .throw
      | (some (.error .err), _) => exact .throw

/-- Draining reads as many chunks as it finds. -/
private theorem drainStream_yields {remaining : List Read} (left : remaining = reads.drop count)
    (chunks : ∀ read ∈ reads, ∃ chunk, chunk ≠ [] ∧ read = .data chunk) :
    Yields (arrivals reads) count (drainStream remaining : LobbyM JoinGame (List Read))
      fun later (ended : Nat) => later = reads.drop ended := by
  induction remaining generalizing count with
  | nil =>
    have asked : Yields (arrivals reads) count (perform .tryRead : LobbyM JoinGame Bool)
        fun _ (ended : Nat) => count ≤ ended := by
      refine .perform trivial fun arrived => ?_
      cases arrived
      · exact Nat.le_refl _
      · exact Nat.le_succ _
    refine asked.bind fun _ (ended : Nat) later => ?_
    have past : reads.length ≤ count := by simpa using left.symm
    exact .pure (List.drop_of_length_le (Nat.le_trans past later)).symm
  | cons read remaining ih =>
    have member : read ∈ reads := List.mem_of_mem_drop (left ▸ List.mem_cons_self)
    obtain ⟨chunk, nonempty, rfl⟩ := chunks read member
    have further : remaining = reads.drop (count + 1) := by
      rw [← List.tail_drop, ← left, List.tail_cons]
    have asked : Yields (arrivals reads) count (perform .tryRead : LobbyM JoinGame Bool)
        fun arrived (ended : Nat) => ended = if arrived then count + 1 else count :=
      .perform trivial fun _ => rfl
    refine asked.bind ?_
    rintro arrived _ rfl
    cases arrived with
    | true =>
      simp only [if_true, if_neg nonempty]
      exact ih further
    | false => exact .pure left

variable {clientInfo : ClientInfo} {backend : Backend}

private theorem handOver_yields {remaining : List Read} (rounds : Nat) (inbound : TcpStream)
    (client : Client) (left : remaining = reads.drop count)
    (chunks : ∀ read ∈ reads, ∃ chunk, chunk ≠ [] ∧ read = .data chunk) :
    Yields (arrivals reads) count
      (handOver wire config rounds clientInfo inbound backend client remaining) fun _ _ => True := by
  have serves : Serves wire.toCodecs (arrivals reads : Discipline (Op JoinGame) Op.Reply).quietly
      (· = count) := serves_arrivals ..
  refine still_bind (serves.connectToServer_settles rounds clientInfo inbound backend) fun connected => ?_
  obtain ⟨serverClient, conn⟩ := connected
  refine still_bind (serves.waitForServerJoinGame_settles rounds serverClient clientInfo conn)
    fun joined => ?_
  obtain ⟨joinGameData, conn⟩ := joined
  refine still_bind (serves.titleSend_settles client clientInfo "") fun _ => ?_
  refine still_bind (serves.playLobbyReadySound_settles client clientInfo) fun _ => ?_
  refine still_bind (serves.perform_settles trivial) fun _ => ?_
  refine still_bind (serves.sendPacket_settles _ _ _) fun _ => ?_
  refine (drainStream_yields left chunks).bind fun later ended same => ?_
  exact .perform same fun _ => trivial

private theorem serveForge_yields (rounds : Nat) (client : Client) {conn : Conn}
    (left : conn.reads = reads.drop count) :
    Yields (arrivals reads) count (serveForge wire config rounds client conn)
      fun conn (ended : Nat) => conn.reads = reads.drop ended := by
  unfold serveForge
  split
  · have asks : Settles (arrivals reads).quietly (· = count)
        (perform .readPayload : LobbyM JoinGame (List (List UInt8))) :=
      .perform fun _ held => ⟨⟨trivial, fun _ => rfl⟩, fun _ => held⟩
    have delivers (payload : List (List UInt8)) : Settles (arrivals reads).quietly (· = count)
        (replayLoginPayload.deliverAll payload : LobbyM JoinGame Unit) :=
      deliverAll_settles fun _ _ => writeAll_settles fun _ _ held =>
        ⟨⟨trivial, fun _ => rfl⟩, fun _ => held⟩
    refine still_bind asks fun payload => still_bind (delivers payload) fun _ => ?_
    refine still_bind asks fun payload => ?_
    exact drainForgeResponses_yields client rounds _ left
  · exact .pure left

theorem serve_arrivals (rounds : Nat) (inbound : TcpStream) (client : Client) (queue : List UInt8)
    (chunks : ∀ read ∈ inbound.reads, ∃ chunk, chunk ≠ [] ∧ read = .data chunk) :
    Yields (arrivals inbound.reads) (0 : Nat)
      (serve wire config rounds clientInfo inbound backend client queue) fun _ _ => True := by
  unfold serve
  split
  · exact .throw
  split
  · exact .throw
  suffices ∀ left (count : Nat) conn, conn.reads = inbound.reads.drop count →
      Yields (arrivals inbound.reads) count
        (serveLoop wire config rounds clientInfo inbound backend client left conn) fun _ _ => True from
    this _ _ _ rfl
  intro left
  induction left with
  | zero => exact fun _ _ _ => .throw
  | succ left ih =>
    intro count conn behind
    have closes (count : Nat) : Yields (arrivals inbound.reads) count (do
        if ← perform (.shutdown .client) then return () else throw .err : LobbyM JoinGame Unit)
        fun _ _ => True := by
      have closed : Yields (arrivals inbound.reads) count
          (perform (.shutdown .client) : LobbyM JoinGame Bool) fun _ _ => True :=
        .perform trivial fun _ => trivial
      refine closed.bind fun closed _ _ => ?_
      split
      · exact .pure trivial
      · exact .throw
    refine (receive_yields behind).bind fun received (count : Nat) behind => ?_
    match received with
    | (.ok (some (packet, raw)), conn) =>
      dsimp only
      split
      · have named : Settles (arrivals inbound.reads).quietly (· = count)
            (ofOutcome (question (wire.decodeLoginStart packet.data)) : LobbyM JoinGame String) := .known
        refine still_bind named fun name => ?_
        refine (serveForge_yields rounds client behind).bind fun conn (count : Nat) behind => ?_
        have serves : Serves wire.toCodecs
            (arrivals inbound.reads : Discipline (Op JoinGame) Op.Reply).quietly (· = count) :=
          serves_arrivals ..
        refine still_bind (serves.serveWorld_settles rounds client clientInfo name) fun client => ?_
        exact handOver_yields rounds inbound client behind chunks
      · exact ih count conn behind
    | (.error .panic, _) => exact .throw
    | (.ok none, _) => exact closes count
    | (.error .err, _) => exact closes count

end

section

variable {ModList JoinGame : Type}

/-- However the frames of a client are cut into chunks and whenever these arrive, what
is relayed to the server is what had not arrived when the drain found nothing more.
That begins with a frame exactly if none was underway. -/
theorem handover_aligned_iff {wire : LobbyWire ModList JoinGame} {config : Config}
    {clientInfo : ClientInfo} {inbound : TcpStream} {backend : Backend} {rounds : Nat} {client : Client}
    {queue : List UInt8} {chunks frames : List (List UInt8)}
    {early late : List ((op : Op JoinGame) × op.Reply)}
    {rest : Program (Op JoinGame) Op.Reply (Outcome Unit)} {reads outbound : List Read}
    {serverBuf : List UInt8} (chunked : inbound.reads = chunks.map .data)
    (nonempty : ∀ chunk ∈ chunks, chunk ≠ []) (stream : queue ++ chunks.flatten = frames.flatten)
    (performed : (serve wire config rounds clientInfo inbound backend client queue).run.Performs
      (early ++ ⟨.relay reads outbound serverBuf, ()⟩ :: late) rest) :
    (∀ relaying, (proxyInboundOutboundWithQueue reads outbound serverBuf []).Reaches relaying →
      relaying.toServer.sent <+: Read.bytes reads ∧
        (relaying.toServer.shutdown = true → relaying.toServer.sent = Read.bytes reads)) ∧
    ((∃ done later, frames = done ++ later ∧ Read.bytes reads = later.flatten) ↔
      ¬ Underway frames (queue ++ (chunks.take (arrived early)).flatten).length) := by
  have datas : ∀ read ∈ inbound.reads, ∃ chunk, chunk ≠ [] ∧ read = .data chunk := by
    intro read member
    rw [chunked] at member
    obtain ⟨chunk, sent, rfl⟩ := List.mem_map.mp member
    exact ⟨chunk, nonempty chunk sent, rfl⟩
  have follows : (serve wire config rounds clientInfo inbound backend client queue).run.Follows
      (arrivals inbound.reads) (0 : Nat) _ := serve_arrivals rounds inbound client queue datas
  have handed : reads = inbound.reads.drop ((arrivals inbound.reads).after (0 : Nat) early) :=
    follows.permits_of_performs performed
  rw [arrivals_after, Nat.zero_add, chunked, ← List.map_drop] at handed
  have later : Read.bytes reads = (chunks.drop (arrived early)).flatten := by
    rw [handed, Read.bytes_chunks fun chunk member => nonempty chunk (List.mem_of_mem_drop member)]
  refine ⟨fun relaying reached => ?_, whole_iff_not_underway ?_⟩
  · exact Relaying.relays .toServer rfl rfl reached
  · rw [later, List.append_assoc, ← List.flatten_append, List.take_append_drop, stream]

end

/-- The same, but the first byte of the confirmation is there when the drain looks. -/
def hurried : List ((op : Op Unit) → op.Reply) :=
  .replicate 25 cooperate ++
    (fun op => match op with
      | .tryRead => true
      | op => cooperate op) :: .replicate 2 cooperate

private theorem hurried_handed :
    ((servePlayer.run.answered hurried).1[27]?.bind fun done => done.1.handed) =
      some ([.data [0, 0, 0]], [.data [0x40]], [1]) := by
  decide +kernel

/-- Its first byte is dropped then, and the server gets its rest. -/
theorem handover_within_frame :
    ¬ ∀ (ModList JoinGame : Type) (wire : LobbyWire ModList JoinGame) (config : Config)
        (clientInfo : ClientInfo) (inbound : TcpStream) (backend : Backend) (rounds : Nat)
        (client : Client) (queue : List UInt8) (chunks frames : List (List UInt8))
        (log : List ((op : Op JoinGame) × op.Reply))
        (rest : Program (Op JoinGame) Op.Reply (Outcome Unit)) (reads outbound : List Read)
        (serverBuf : List UInt8), inbound.reads = chunks.map .data →
      (∀ chunk ∈ chunks, chunk ≠ []) →
      (∀ frame ∈ frames, ∃ packet client, FrameOf wire.toCodecs client packet frame) →
      queue ++ chunks.flatten = frames.flatten →
      (serve wire config rounds clientInfo inbound backend client queue).run.Performs log rest →
      ⟨.relay reads outbound serverBuf, ()⟩ ∈ log →
      ∃ done later, frames = done ++ later ∧ Read.bytes reads = later.flatten := by
  intro aligned
  have whole : ∀ frame ∈ [[3, 0, 1, 97], [3, 0, 0, 0]], ∃ packet client,
      FrameOf plainLobbyWire.toCodecs client packet frame := by
    intro frame member
    rcases List.mem_pair.mp member with rfl | rfl
    · exact ⟨⟨0, [1, 97]⟩, .dummy, ⟨1, 3, by decide, by decide⟩, by decide⟩
    · exact ⟨⟨0, [0]⟩, Client.dummy.setCompression COMPRESSION_THRESHOLD, ⟨1, 3, by decide, by decide⟩,
        by decide⟩
  obtain ⟨done, later, frames, same⟩ := aligned Unit Unit plainLobbyWire _ player playerSocket quickServer
    _ _ _ [[3, 0, 1, 97], [3], [0, 0, 0]] _ _ _ _ _ _ rfl (by decide) whole rfl
    (performs_found handed_only hurried_handed) (List.mem_append_right _ List.mem_cons_self)
  -- The server gets three bytes, and every frame has four.
  rcases done with _ | ⟨login, _ | ⟨confirm, _ | ⟨other, done⟩⟩⟩
  · obtain rfl : [[3, 0, 1, 97], [3, 0, 0, 0]] = later := frames
    exact absurd same (by decide)
  · obtain ⟨-, rfl⟩ := List.cons.inj frames
    exact absurd same (by decide)
  · obtain ⟨-, frames⟩ := List.cons.inj frames
    obtain ⟨-, rfl⟩ := List.cons.inj frames
    exact absurd same (by decide)
  · obtain ⟨-, frames⟩ := List.cons.inj frames
    obtain ⟨-, ⟨⟩⟩ := List.cons.inj frames

/-- A drain that finds nothing leaves the confirmation to the server whole, and none
of its frames is underway. -/
theorem handover_aligned_iff_quiet :
    (∀ relaying, (proxyInboundOutboundWithQueue (([[3], [0, 0, 0]] : List (List UInt8)).map .data)
        [.data [0x40]] [1] []).Reaches relaying →
      relaying.toServer.sent <+: [3, 0, 0, 0] ∧
        (relaying.toServer.shutdown = true → relaying.toServer.sent = [3, 0, 0, 0])) ∧
    ∃ done later, ([[3, 0, 1, 97], [3, 0, 0, 0]] : List (List UInt8)) = done ++ later ∧
      [3, 0, 0, 0] = later.flatten := by
  have chunked : playerSocket.reads = [[3, 0, 1, 97], [3], [0, 0, 0]].map .data := rfl
  have stream : [] ++ [[3, 0, 1, 97], [3], [0, 0, 0]].flatten =
      ([[3, 0, 1, 97], [3, 0, 0, 0]] : List (List UInt8)).flatten := rfl
  have once : arrived ((servePlayer.run.answered (.replicate 27 cooperate)).1.take 26) = 1 := by
    decide +kernel
  have aligned := handover_aligned_iff chunked (by decide) stream
    (performs_found handed_only servePlayer_handed)
  rw [servePlayer] at once
  rw [once] at aligned
  have first : ¬ Underway ([[3, 0, 1, 97]] ++ [[3, 0, 0, 0]]) [[3, 0, 1, 97]].flatten.length := not_underway_of_cut
  exact ⟨aligned.1, aligned.2.mpr first⟩

end PlexPaper.Lobby
