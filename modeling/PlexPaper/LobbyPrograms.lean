import PlexPaper.Lobby

/-! The rule of each function of the lobby, once for every order of operations. An
order that takes whole frames for the client, and that most operations do not concern,
is kept by all of `serve` but the parts that read from the client and the relay. -/
namespace PlexPaper.Lobby
open Tasks Outcome Program

/-- The bytes are the frame of some packet. -/
def EncodedFrame (lib : Codecs) (frame : List UInt8) : Prop :=
  ∃ packet client, RawPacket.encodeWithLen lib packet client = .ok frame

/-- The operation has to do neither with what the client sends and gets, nor with
the timers, nor with handing it over. -/
def Op.Background {JoinGame : Type} : Op JoinGame → Prop
  | .read .client | .tryRead | .write .client _ _ | .elapsed _ | .ready | .readPayload
  | .relay _ _ _ => False
  | _ => True

/-- What an order has to allow a lobby that serves its client. -/
structure Serves {JoinGame : Type} (lib : Codecs) (d : Discipline (Op JoinGame) Op.Reply)
    (calm : d.Stage → Prop) : Prop where
  background : ∀ op : Op JoinGame, op.Background → ∀ stage, calm stage →
    d.permits stage op ∧ ∀ reply, calm (d.advance stage op reply)
  elapsed : ∀ timer stage, d.QuietAt stage (.elapsed timer)
  writes : ∀ frame, EncodedFrame lib frame →
    Settles d calm (writeAll .client frame : LobbyM JoinGame Unit)
  races : ∀ (program : LobbyM JoinGame Unit) stage, Settles d calm program → calm stage →
    (program.run.race .ready id).Follows d stage fun result ended =>
      result = .inl (.ok ()) ∨ result = .inr (.ok ()) → calm ended

variable {ModList JoinGame : Type} {wire : LobbyWire ModList JoinGame} {config : Config}
  {d : Discipline (Op JoinGame) Op.Reply} {calm : d.Stage → Prop}

/-- Frames come out of the encoder. -/
theorem encodedFrame_writePacket {packet : Outgoing} {client : Client} {frame : List UInt8}
    (encoded : writePacket wire.toCodecs packet client = .ok frame) :
    EncodedFrame wire.toCodecs frame := by
  unfold writePacket at encoded
  cases data : packet.data with
  | none =>
    rw [data] at encoded
    cases encoded
  | some bytes =>
    rw [data] at encoded
    exact ⟨⟨packet.id, bytes⟩, client, encoded⟩

/-- Writing is calm where each of its polls is. -/
theorem writeAll_settles {peer : Peer} {frame : List UInt8}
    (quiet : ∀ offset stage, calm stage → d.permits stage (.write peer frame offset) ∧
      ∀ reply, calm (d.advance stage (.write peer frame offset) reply)) :
    Settles d calm (writeAll peer frame : LobbyM JoinGame Unit) := by
  suffices ∀ polls offset, Settles d calm (writeFrom peer frame polls offset : LobbyM JoinGame Unit)
    from this _ _
  intro polls
  induction polls with
  | zero => exact fun _ => .pure
  | succ polls ih =>
    intro offset
    rw [writeFrom]
    split
    · exact .pure
    · refine .bind (.perform (quiet offset)) fun taken => ?_
      match taken with
      | some (taken + 1) => exact ih _
      | some 0 => exact .throw
      | none => exact .throw

/-- Replaying is calm where writing each of the frames is. -/
theorem deliverAll_settles {payload : List (List UInt8)}
    (writes : ∀ frame ∈ payload, Settles d calm (writeAll .client frame : LobbyM JoinGame Unit)) :
    Settles d calm (replayLoginPayload.deliverAll payload : LobbyM JoinGame Unit) := by
  induction payload with
  | nil => exact .pure
  | cons frame payload ih =>
    exact .bind (writes frame List.mem_cons_self) fun _ =>
      ih fun other member => writes other (List.mem_cons_of_mem _ member)

/-- Reading a packet is calm where each of its reads is. -/
theorem receive_settles {peer : Peer} (client : Client) (conn : Conn)
    (quiet : ∀ stage, calm stage →
      d.permits stage (.read peer) ∧ ∀ reply, calm (d.advance stage (.read peer) reply)) :
    Settles d calm (receive wire peer client conn) := by
  refine .bind ?_ fun _ => .pure
  suffices ∀ count, Settles d calm (awaitReads peer count : LobbyM JoinGame Unit) from this _
  intro count
  induction count with
  | zero => exact .pure
  | succ count ih => exact .bind (.perform quiet) fun _ => ih

/-- Of that, what a part of the lobby needs that does not talk to its client. -/
structure Aside {JoinGame : Type} (d : Discipline (Op JoinGame) Op.Reply) (calm : d.Stage → Prop) :
    Prop where
  background : ∀ op : Op JoinGame, op.Background → ∀ stage, calm stage →
    d.permits stage op ∧ ∀ reply, calm (d.advance stage op reply)
  elapsed : ∀ timer stage, d.QuietAt stage (.elapsed timer)

namespace Aside

variable (aside : Aside d calm)

include aside

theorem perform_settles {op : Op JoinGame} (quiet : op.Background) : Settles d calm (perform op) :=
  .perform (aside.background op quiet)

theorem writeAll_server_settles (frame : List UInt8) :
    Settles d calm (writeAll .server frame : LobbyM JoinGame Unit) :=
  writeAll_settles fun _ => aside.background _ trivial

theorem sendPacket_server_settles (packet : Outgoing) (client : Client) :
    Settles d calm (sendPacket wire .server packet client) :=
  .bind .known fun frame => aside.writeAll_server_settles frame

theorem receive_server_settles (client : Client) (conn : Conn) :
    Settles d calm (receive wire .server client conn) :=
  receive_settles client conn (aside.background _ trivial)

theorem timeoutErr_settles {α : Type} (timer : Timer) {task : LobbyM JoinGame α}
    (settles : Settles d calm task) : Settles d calm (timeoutErr timer task) := by
  intro stage held
  have timed : (task.run.timeout (.elapsed timer) id).Follows d stage _ :=
    (settles stage held).timeout (aside.elapsed timer)
  refine follows_bind.mpr (timed.mono fun result ended calms => ?_)
  match result with
  | some result => exact fun value same => calms result rfl value same
  | none => exact nofun

theorem closeServer_settles {α : Type} : Settles d calm (closeServer : LobbyM JoinGame α) :=
  .bind (aside.perform_settles trivial) fun _ => .throw

theorem loginLoop_settles (rounds : Nat) (client : Client) (conn : Conn) :
    Settles d calm (loginLoop wire config rounds client conn) := by
  induction rounds generalizing client conn with
  | zero => exact .throw
  | succ rounds ih =>
    refine .bind (aside.receive_server_settles client conn) fun received => ?_
    match received with
    | (.ok (some (packet, raw)), conn) =>
      refine .bind .known fun step => ?_
      cases step with
      | setCompression threshold => exact ih _ _
      | respond bytes => exact .bind (aside.writeAll_server_settles bytes) fun _ => ih _ _
      | success => exact .pure
      | refused => exact aside.closeServer_settles
      | unhandled => exact ih _ _
    | (.error .panic, _) => exact .throw
    | (.ok none, _) => exact aside.closeServer_settles
    | (.error .err, _) => exact aside.closeServer_settles

theorem connectToServer_settles (rounds : Nat) (clientInfo : ClientInfo) (inbound : TcpStream)
    (backend : Backend) :
    Settles d calm (connectToServer wire config rounds clientInfo inbound backend) := by
  refine aside.timeoutErr_settles .connect (.bind (aside.perform_settles trivial) fun connected => ?_)
  cases connected with
  | false => exact .throw
  | true =>
    refine .bind ?_ fun _ => .bind .known fun handshake => ?_
    · unfold sendServerProxyHeader
      split
      · exact .bind .known fun header => aside.writeAll_server_settles header
      · exact .pure
    · split
      · exact .throw
      · exact .bind (aside.sendPacket_server_settles _ _) fun _ => .bind .known fun _ =>
          .bind (aside.sendPacket_server_settles _ _) fun _ => aside.loginLoop_settles rounds _ _

theorem waitForServerJoinGame_settles (rounds : Nat) (client : Client) (clientInfo : ClientInfo)
    (conn : Conn) : Settles d calm (waitForServerJoinGame wire rounds client clientInfo conn) := by
  refine aside.timeoutErr_settles .joinGame ?_
  induction rounds generalizing conn with
  | zero => exact .throw
  | succ rounds ih =>
    refine .bind (aside.receive_server_settles client conn) fun received => ?_
    match received with
    | (.ok (some (packet, raw)), conn) =>
      dsimp only
      split
      · exact .bind .known fun _ => .pure
      · exact ih conn
    | (.error .panic, _) => exact .throw
    | (.ok none, _) => exact aside.closeServer_settles
    | (.error .err, _) => exact aside.closeServer_settles

end Aside

namespace Serves

variable (serves : Serves wire.toCodecs d calm)

include serves

theorem aside : Aside d calm := ⟨serves.background, serves.elapsed⟩

theorem perform_settles {op : Op JoinGame} (quiet : op.Background) : Settles d calm (perform op) :=
  serves.aside.perform_settles quiet

theorem sendPacket_settles (peer : Peer) (packet : Outgoing) (client : Client) :
    Settles d calm (sendPacket wire peer packet client) := by
  intro stage held
  refine follows_except_bind.mpr ?_
  cases encoded : writePacket wire.toCodecs packet client with
  | error fault => exact nofun
  | ok frame =>
    cases peer with
    | client => exact serves.writes frame (encodedFrame_writePacket encoded) stage held
    | server => exact serves.aside.writeAll_server_settles frame stage held

theorem joinGameLobbySend_settles (client : Client) (clientInfo : ClientInfo) :
    Settles d calm (joinGameLobbySend wire client clientInfo) :=
  .bind (serves.perform_settles trivial) fun _ => .bind (serves.perform_settles trivial) fun _ =>
    serves.sendPacket_settles _ _ _

theorem sendLobbyPlayPackets_settles (client : Client) (clientInfo : ClientInfo) :
    Settles d calm (sendLobbyPlayPackets wire client clientInfo) :=
  .bind (serves.joinGameLobbySend_settles client clientInfo) fun _ =>
    .bind (serves.sendPacket_settles _ _ _) fun _ => .bind (serves.sendPacket_settles _ _ _) fun _ =>
      serves.sendPacket_settles _ _ _

theorem titleSend_settles (client : Client) (clientInfo : ClientInfo) (text : String) :
    Settles d calm (titleSend wire client clientInfo text) :=
  .bind (serves.sendPacket_settles _ _ _) fun _ => .bind (serves.sendPacket_settles _ _ _) fun _ =>
    serves.sendPacket_settles _ _ _

theorem keepAliveLoop_settles (client : Client) (clientInfo : ClientInfo) (rounds : Nat) :
    Settles d calm (keepAliveLoop wire config client clientInfo rounds) := by
  induction rounds with
  | zero => exact .throw
  | succ rounds ih =>
    refine .bind (serves.perform_settles trivial) fun _ => .bind ?_ fun _ => ?_
    · exact .bind (serves.perform_settles trivial) fun _ => serves.sendPacket_settles _ _ _
    · exact .bind (serves.titleSend_settles client clientInfo _) fun _ => ih

/-- Whatever the keep-alive loop is at when the server is ready, the order is kept. -/
theorem stageWait_settles (rounds : Nat) (client : Client) (clientInfo : ClientInfo) :
    Settles d calm (stageWait wire config rounds client clientInfo) := by
  intro stage held
  refine follows_bind.mpr ((serves.races _ stage (serves.keepAliveLoop_settles client clientInfo rounds)
    held).mono fun result ended calms => ?_)
  match result with
  | .inl (.ok ()) => exact fun _ _ => calms (.inl rfl)
  | .inl (.error fault) => exact nofun
  | .inr (.ok ()) => exact fun _ _ => calms (.inr rfl)
  | .inr (.error ()) => exact nofun

theorem serveWorld_settles (rounds : Nat) (client : Client) (clientInfo : ClientInfo) (name : String) :
    Settles d calm (serveWorld wire config rounds clientInfo client name) :=
  .bind (serves.sendPacket_settles _ _ _) fun _ => .bind (serves.sendPacket_settles _ _ _) fun _ =>
    .bind (serves.sendLobbyPlayPackets_settles _ clientInfo) fun _ =>
      .bind (serves.stageWait_settles rounds _ clientInfo) fun _ => .pure

theorem playLobbyReadySound_settles (client : Client) (clientInfo : ClientInfo) :
    Settles d calm (playLobbyReadySound wire config client clientInfo) := by
  unfold playLobbyReadySound
  split
  · exact .pure
  · split
    · exact .pure
    · exact .bind (serves.sendPacket_settles _ _ _) fun _ => serves.sendPacket_settles _ _ _

theorem connectToServer_settles (rounds : Nat) (clientInfo : ClientInfo) (inbound : TcpStream)
    (backend : Backend) :
    Settles d calm (connectToServer wire config rounds clientInfo inbound backend) :=
  serves.aside.connectToServer_settles rounds clientInfo inbound backend

theorem waitForServerJoinGame_settles (rounds : Nat) (client : Client) (clientInfo : ClientInfo)
    (conn : Conn) : Settles d calm (waitForServerJoinGame wire rounds client clientInfo conn) :=
  serves.aside.waitForServerJoinGame_settles rounds client clientInfo conn

end Serves

/-! ## What the login leaves of the server's bytes -/

section

variable (wire config)

/-- The login has read up to the success of the login. -/
def LoggedIn (backend : Backend) (conn : Conn) : Prop :=
  ∃ login success, ReadsFrames wire.toCodecs ⟨[], backend.reads⟩ (login ++ [success]) conn ∧
    success.1.id = wire.clientLoginSuccess

/-- These are the frames up to the first one behind the login that has the game
data, and they have been read. -/
def JoinedGame (clientInfo : ClientInfo) (backend : Backend)
    (frames : List (RawPacket × List UInt8)) (conn : Conn) : Prop :=
  ReadsFrames wire.toCodecs ⟨[], backend.reads⟩ frames conn ∧ ∃ login success waiting joinGame,
    frames = login ++ [success] ++ waiting ++ [joinGame] ∧
    success.1.id = wire.clientLoginSuccess ∧
    (∀ frame ∈ waiting, isJoinGame wire.toWire clientInfo frame.1.id = false) ∧
    isJoinGame wire.toWire clientInfo joinGame.1.id = true

theorem receive_returns (peer : Peer) (client : Client) (conn : Conn) :
    (receive wire peer client conn).run.Returns fun result =>
      result = .ok (readPacket wire.toCodecs client conn) := by
  refine returns_except_bind.mpr ?_
  suffices ∀ count, (awaitReads peer count : LobbyM JoinGame Unit).run.Returns (· = .ok ()) from
    (this _).mono fun result same => by subst same; rfl
  intro count
  induction count with
  | zero => rfl
  | succ count ih => exact fun _ => ih

/-- A deadline adds nothing to the results. -/
theorem timeoutErr_returns {α : Type} {timer : Timer} {task : LobbyM JoinGame α} {known : α → Prop}
    (returns : task.run.Returns fun result => ∀ value, result = .ok value → known value) :
    (timeoutErr timer task).run.Returns fun result => ∀ value, result = .ok value → known value := by
  have timed : (task.run.timeout (.elapsed timer) id).Returns _ := returns.timeout
  refine returns_bind.mpr (timed.mono fun result facts => ?_)
  match result with
  | some result => exact facts result rfl
  | none => exact nofun

theorem closeServer_returns {α : Type} {known : α → Prop} :
    (closeServer : LobbyM JoinGame α).run.Returns fun result =>
      ∀ value, result = .ok value → known value :=
  fun _ => nofun

variable {wire config}

/-- What a program goes on to do with a packet, it does behind the frame. -/
private theorem receive_bind_returns {α : Type} {peer : Peer} {client : Client} {conn : Conn}
    {rest : Outcome (Option (RawPacket × List UInt8)) × Conn → LobbyM JoinGame α}
    {post : Outcome α → Prop}
    (then_ : (rest (readPacket wire.toCodecs client conn)).run.Returns post) :
    (receive wire peer client conn >>= rest).run.Returns post :=
  returns_except_bind.mpr ((receive_returns wire peer client conn).mono fun result same => by
    subst same; exact then_)

/-- A sequence that succeeds ends with what its last part gives. -/
private theorem ok_of_bind {α β : Type} {first : Outcome α} {rest : α → Outcome β} {result : β}
    (succeeds : (do rest (← first)) = .ok result) : ∃ value, rest value = .ok result := by
  cases first with
  | error fault => cases succeeds
  | ok value => exact ⟨value, succeeds⟩

/-- Only the packet of that id ends the login. -/
theorem loginStep_success {client : Client} {packet : RawPacket}
    (stepped : loginStep wire config client packet = .ok .success) :
    packet.id = wire.clientLoginSuccess := by
  unfold loginStep at stepped
  split at stepped
  · obtain ⟨threshold, ⟨⟩⟩ := ok_of_bind stepped
  split at stepped
  · cases stepped
  split at stepped
  · obtain ⟨request, stepped⟩ := ok_of_bind stepped
    split at stepped
    · obtain ⟨answer, ⟨⟩⟩ := ok_of_bind stepped
    · obtain ⟨answer, ⟨⟩⟩ := ok_of_bind stepped
  split at stepped
  · rename_i success
    exact success.2
  · split at stepped <;> cases stepped

theorem loginLoop_returns (rounds : Nat) (client : Client) (conn : Conn) :
    (loginLoop wire config rounds client conn).run.Returns fun result => ∀ value, result = .ok value →
      ∃ login success, ReadsFrames wire.toCodecs conn (login ++ [success]) value.2 ∧
        success.1.id = wire.clientLoginSuccess := by
  induction rounds generalizing client conn with
  | zero => exact nofun
  | succ rounds ih =>
    refine receive_bind_returns ?_
    rcases read : readPacket wire.toCodecs client conn with ⟨(_ | _) | (_ | ⟨packet, raw⟩), mid⟩
    · exact closeServer_returns
    · exact nofun
    · exact closeServer_returns
    · -- What the rest of the loop reads comes behind this frame.
      have later (client : Client) : (loginLoop wire config rounds client mid).run.Returns
          fun result => ∀ value, result = .ok value →
            ∃ login success, ReadsFrames wire.toCodecs conn (login ++ [success]) value.2 ∧
              success.1.id = wire.clientLoginSuccess := by
        refine (ih client mid).mono fun result facts value same => ?_
        obtain ⟨login, success, reads, id⟩ := facts value same
        exact ⟨(packet, raw) :: login, success, .next read reads, id⟩
      refine returns_except_bind.mpr ?_
      cases stepped : loginStep wire config client packet with
      | error fault => exact nofun
      | ok step =>
        cases step with
        | setCompression threshold => exact later _
        | respond bytes =>
          refine returns_except_bind.mpr (returns_of_forall fun result => ?_)
          cases result with
          | ok _ => exact later _
          | error fault => exact nofun
        | success =>
          rintro value ⟨⟩
          exact ⟨[], (packet, raw), .one read, loginStep_success stepped⟩
        | refused => exact closeServer_returns
        | unhandled => exact later _

theorem connectToServer_returns (rounds : Nat) (clientInfo : ClientInfo) (inbound : TcpStream)
    (backend : Backend) :
    (connectToServer wire config rounds clientInfo inbound backend).run.Returns fun result =>
      ∀ value, result = .ok value → LoggedIn wire backend value.2 := by
  refine timeoutErr_returns (returns_except_bind.mpr fun connected => ?_)
  cases connected with
  | false => exact nofun
  | true =>
    refine returns_except_bind.mpr (returns_of_forall fun header => ?_)
    cases header with
    | error fault => exact nofun
    | ok _ =>
      refine returns_except_bind.mpr (returns_of_forall fun handshake => ?_)
      cases handshake with
      | error fault => exact nofun
      | ok handshake =>
        dsimp only
        split
        · exact nofun
        · refine returns_except_bind.mpr (returns_of_forall fun sent => ?_)
          cases sent with
          | error fault => exact nofun
          | ok _ =>
            refine returns_except_bind.mpr (returns_of_forall fun name => ?_)
            cases name with
            | error fault => exact nofun
            | ok name =>
              refine returns_except_bind.mpr (returns_of_forall fun sent => ?_)
              cases sent with
              | error fault => exact nofun
              | ok _ => exact loginLoop_returns rounds _ _

theorem waitForServerJoinGame_returns (rounds : Nat) (client : Client) {clientInfo : ClientInfo}
    {backend : Backend} {conn : Conn} (loggedIn : LoggedIn wire backend conn) :
    (waitForServerJoinGame wire rounds client clientInfo conn).run.Returns fun result =>
      ∀ value, result = .ok value → ∃ frames, JoinedGame wire clientInfo backend frames value.2 ∧
        ∃ last, frames.getLast? = some last ∧
          joinGameFromPacket wire.toWire clientInfo last.1 = some value.1 := by
  obtain ⟨login, success, reads, id⟩ := loggedIn
  refine timeoutErr_returns ?_
  -- `waiting` are the frames read so far, none of them the game data.
  suffices ∀ waiting conn, (∀ frame ∈ waiting, isJoinGame wire.toWire clientInfo frame.1.id = false) →
      ReadsFrames wire.toCodecs ⟨[], backend.reads⟩ (login ++ [success] ++ waiting) conn →
      (waitForServerJoinGameNoTimeout wire client clientInfo rounds conn).run.Returns fun result =>
        ∀ value, result = .ok value → ∃ frames, JoinedGame wire clientInfo backend frames value.2 ∧
          ∃ last, frames.getLast? = some last ∧
            joinGameFromPacket wire.toWire clientInfo last.1 = some value.1 from
    this [] conn (by simp) (by simpa using reads)
  clear reads conn
  induction rounds with
  | zero => exact fun _ _ _ _ => nofun
  | succ rounds ih =>
    intro waiting conn others reads
    refine receive_bind_returns ?_
    rcases read : readPacket wire.toCodecs client conn with ⟨(_ | _) | (_ | ⟨packet, raw⟩), mid⟩
    · exact closeServer_returns
    · exact nofun
    · exact closeServer_returns
    · have further := reads.append (.one read)
      dsimp only
      split
      · rename_i found
        refine returns_except_bind.mpr ?_
        cases decoded : joinGameFromPacket wire.toWire clientInfo packet with
        | none => exact nofun
        | some joinGame =>
          rintro value ⟨⟩
          exact ⟨_, ⟨further, login, success, waiting, (packet, raw), rfl, id, others, found⟩,
            (packet, raw), List.getLast?_concat, decoded⟩
      · rename_i other
        refine ih (waiting ++ [(packet, raw)]) mid (fun frame member => ?_) ?_
        · rcases List.mem_append.mp member with earlier | last
          · exact others frame earlier
          · rw [List.mem_singleton.mp last]
            simpa using other
        · simpa [List.append_assoc] using further

end

/-! ## The whole of `serve` -/

/-- What an order has to allow besides: reading from the client, replaying the Forge
login, and handing over a server that is behind its game data. -/
structure HandsOver (wire : LobbyWire ModList JoinGame) (clientInfo : ClientInfo) (backend : Backend)
    (d : Discipline (Op JoinGame) Op.Reply) (calm : d.Stage → Prop) : Prop extends
    Serves wire.toCodecs d calm where
  reads : ∀ stage, calm stage →
    d.permits stage (.read .client) ∧ ∀ reply, calm (d.advance stage (.read .client) reply)
  drains : ∀ stage, calm stage → d.permits stage .tryRead ∧ ∀ reply, calm (d.advance stage .tryRead reply)
  delivers : Settles d calm do
    replayLoginPayload.deliverAll (← perform .readPayload)
    return (← perform .readPayload).length
  relays : ∀ inbound frames serverConn, JoinedGame wire clientInfo backend frames serverConn →
    ∀ stage, calm stage → d.permits stage (.relay inbound serverConn.reads serverConn.buf) ∧
      ∀ reply, calm (d.advance stage (.relay inbound serverConn.reads serverConn.buf) reply)

/-- Draining is calm where reading from the client is. -/
theorem drainForgeResponses_settles (elapsed : ∀ timer stage, d.QuietAt stage (.elapsed timer))
    (reads : ∀ stage, calm stage →
      d.permits stage (.read .client) ∧ ∀ reply, calm (d.advance stage (.read .client) reply))
    (client : Client) (rounds count : Nat) (conn : Conn) :
    Settles d calm (drainForgeResponses wire client rounds count conn) := by
  have awaits (made : Nat) : Settles d calm (awaitReadsInTime .drainForge made : LobbyM JoinGame Nat) := by
    induction made with
    | zero => exact .pure
    | succ made ih =>
      refine .bind (.perform fun stage held => ⟨(elapsed _ stage).1, fun reply => ?_⟩)
        fun passed => ?_
      · rw [(elapsed _ stage).2]
        exact held
      · split
        · exact .pure
        · exact .bind (.perform reads) fun _ => ih
  have receives (conn : Conn) : Settles d calm (receiveInTime wire .drainForge client conn) := by
    refine .bind (awaits _) fun missed => ?_
    split
    · exact .pure
    · exact .pure
  induction rounds generalizing count conn with
  | zero => cases count with
    | zero => exact .pure
    | succ count => exact .throw
  | succ rounds ih => cases count with
    | zero => exact .pure
    | succ count =>
      refine .bind (receives conn) fun received => ?_
      match received with
      | (none, conn) => exact .pure
      | (some (.ok (some (packet, raw))), conn) =>
        dsimp only
        split
        · exact ih _ _
        · exact ih _ _
      | (some (.error .panic), _) => exact .throw
      | (some (.ok none), _) => exact .throw
      | (some (.error .err), _) => exact .throw

/-- So is draining the stream, where trying to read is. -/
theorem drainStream_settles (drains : ∀ stage, calm stage →
      d.permits stage .tryRead ∧ ∀ reply, calm (d.advance stage .tryRead reply)) (reads : List Read) :
    Settles d calm (drainStream reads : LobbyM JoinGame (List Read)) := by
  induction reads with
  | nil => exact .bind (.perform drains) fun _ => .pure
  | cons read reads ih =>
    cases read with
    | data chunk =>
      refine .bind (.perform drains) fun arrived => ?_
      split
      · split
        · exact .pure
        · exact ih
      · exact .pure
    | reset | error => exact .bind (.perform drains) fun _ => .pure

namespace HandsOver

variable {clientInfo : ClientInfo} {backend : Backend}
  (hands : HandsOver wire clientInfo backend d calm)

include hands

theorem serveForge_settles (rounds : Nat) (client : Client) (conn : Conn) :
    Settles d calm (serveForge wire config rounds client conn) := by
  unfold serveForge
  split
  · have replays : replayLoginPayload wire rounds client conn = (do
        let count ← (do
          replayLoginPayload.deliverAll (← perform .readPayload)
          return (← perform .readPayload).length)
        drainForgeResponses wire client rounds count conn) := by
      simp [replayLoginPayload]
    rw [replays]
    exact .bind hands.delivers fun count =>
      drainForgeResponses_settles hands.elapsed hands.reads client rounds count conn
  · exact .pure

theorem handOver_settles (rounds : Nat) (inbound : TcpStream) (client : Client) (reads : List Read) :
    Settles d calm (handOver wire config rounds clientInfo inbound backend client reads) := by
  intro stage held
  refine ((hands.connectToServer_settles rounds clientInfo inbound backend stage held).and_returns
    (connectToServer_returns rounds clientInfo inbound backend)).bind
      fun (serverClient, conn) ended facts => ?_
  obtain ⟨calms, loggedIn⟩ := facts
  refine ((hands.waitForServerJoinGame_settles rounds serverClient clientInfo conn ended calms).and_returns
    (waitForServerJoinGame_returns rounds serverClient loggedIn)).bind
      fun (joinGameData, conn) ended facts => ?_
  obtain ⟨calms, frames, joined, -⟩ := facts
  have rest : Settles d calm (do
      titleSend wire client clientInfo ""
      playLobbyReadySound wire config client clientInfo
      perform (.sleep SERVER_WARMUP)
      respawnLobbySend wire client clientInfo joinGameData
      let reads ← drainStream reads
      perform (.relay reads conn.reads conn.buf)) :=
    .bind (hands.titleSend_settles client clientInfo "") fun _ =>
      .bind (hands.playLobbyReadySound_settles client clientInfo) fun _ =>
        .bind (hands.perform_settles trivial) fun _ =>
          .bind (hands.sendPacket_settles _ _ _) fun _ =>
            .bind (drainStream_settles hands.drains reads) fun reads =>
              .perform (hands.relays reads frames conn joined)
  exact rest ended calms

theorem serve_settles (rounds : Nat) (inbound : TcpStream) (client : Client) (queue : List UInt8) :
    Settles d calm (serve wire config rounds clientInfo inbound backend client queue) := by
  unfold serve
  split
  · exact .throw
  split
  · exact .throw
  suffices ∀ left conn, Settles d calm
      (serveLoop wire config rounds clientInfo inbound backend client left conn) from this _ _
  intro left
  induction left with
  | zero => exact fun _ => .throw
  | succ left ih =>
    intro conn
    have closes : Settles d calm (do
        if ← perform (.shutdown .client) then return () else throw .err : LobbyM JoinGame Unit) := by
      refine .bind (hands.perform_settles trivial) fun closed => ?_
      split
      · exact .pure
      · exact .throw
    refine .bind (receive_settles client conn hands.reads) fun received => ?_
    match received with
    | (.ok (some (packet, raw)), conn) =>
      dsimp only
      split
      · exact .bind .known fun name => .bind (hands.serveForge_settles rounds client conn) fun conn =>
          .bind (hands.serveWorld_settles rounds client clientInfo name) fun client =>
            hands.handOver_settles rounds inbound client conn.reads
      · exact ih conn
    | (.error .panic, _) => exact .throw
    | (.ok none, _) => exact closes
    | (.error .err, _) => exact closes

end HandsOver
end PlexPaper.Lobby
