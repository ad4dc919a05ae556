import PlexPaper.Join
import PlexPaper.LobbyHandover
import PlexPaper.WakeGate

/-! A client that is held or forwarded. What `status::serve` has read of it is kept as
its history, the join methods pass the history on, and the relay sends it before what
is still to come: the target gets the bytes of the client from the first one. -/
namespace PlexPaper
open Outcome

section

variable (wire : StatusWire) (config : Config) (moment : Moment) (session : Session)
  {packet : RawPacket} {frame rest : List UInt8} {handover : Handover}

/-- With a frame in front of the stream, an iteration is about that frame or ends the
connection without handing it over. -/
theorem serveStep_front (whole : FrameOf wire.toCodecs session.client packet frame)
    (stream : session.conn.stream = frame ++ rest) :
    (∃ ending, (serveStep wire config moment session).2 = some ending ∧
      ∀ handover, ending ≠ .occupied handover) ∨
    ∃ conn, conn.stream = rest ∧
      readPacket wire.toCodecs session.client session.conn = (.ok (some (packet, frame)), conn) := by
  unfold serveStep
  rcases read : readPacket wire.toCodecs session.client session.conn with
    ⟨(_ | _) | (_ | ⟨other, raw⟩), conn⟩
  · exact .inl ⟨.closed, rfl, fun _ => by simp⟩
  · exact .inl ⟨.failed .panic, rfl, fun _ => by simp⟩
  · exact .inl ⟨.closed, rfl, fun _ => by simp⟩
  · obtain ⟨rfl, rfl, left⟩ := readPacket_front whole stream read
    exact .inr ⟨conn, left, rfl⟩

/-- A handshake that asks for the login goes to the history. -/
theorem serveStep_handshake_front {asked : Handshake} (state : session.client.state = .handshake)
    (whole : FrameOf wire.toCodecs session.client packet frame)
    (stream : session.conn.stream = frame ++ rest) (isHandshake : packet.id = wire.serverHandshake)
    (decodes : wire.decodeHandshake packet.data = some asked)
    (login : asked.nextState = ClientState.login.toId) :
    (∃ ending, (serveStep wire config moment session).2 = some ending ∧
      ∀ handover, ending ≠ .occupied handover) ∨
    ∃ next, serveStep wire config moment session = (next, none) ∧
      next.client = session.client.setState .login ∧
      next.inboundHistory = session.inboundHistory ++ frame ∧ next.conn.stream = rest := by
  refine (serveStep_front wire config moment session whole stream).imp_right ?_
  rintro ⟨conn, left, read⟩
  have named : ClientState.fromId asked.nextState = some .login :=
    (ClientState.fromId_toId ..).mpr ⟨nofun, login⟩
  unfold serveStep
  rw [read]
  dsimp only
  rw [if_pos ⟨state, isHandshake⟩, serveHandshake, decodes]
  dsimp only
  rw [named]
  exact ⟨_, rfl, rfl, rfl, left⟩

/-- Only a client that is kicked is not handed over, and what is handed over has the
frame behind the history, and what is buffered behind the frame. -/
theorem serveLoginStart_cases (packet : RawPacket) (raw : List UInt8) :
    (∃ ending, (serveLoginStart wire config moment session packet raw).2 = some ending ∧
      ∀ handover, ending ≠ .occupied handover) ∨
    ∃ handover, (serveLoginStart wire config moment session packet raw).2 = some (.occupied handover) ∧
      handover.client = session.client ∧ handover.reads = session.conn.reads ∧
      handover.inboundHistory = session.inboundHistory ++ raw ++ session.conn.buf := by
  have kicked (session : Session) (msg : String) :
      ∃ ending, (kickAndBreak wire moment session msg).2 = some ending ∧
        ∀ handover, ending ≠ .occupied handover := by
    have stays := (kickAndBreak_stays wire moment session msg).2
    unfold kickAndBreak at stays ⊢
    rcases wrote : session.write moment (kick wire session.client msg) with ⟨next, _ | ending⟩
    · exact ⟨.closed, rfl, fun _ => by simp⟩
    · rw [wrote] at stays
      exact ⟨ending, rfl, fun handover same => stays handover (congrArg some same)⟩
  unfold serveLoginStart
  dsimp only
  split
  · exact .inl (kicked ..)
  · split
    · exact .inl (kicked ..)
    · split
      · exact .inl (kicked ..)
      · exact .inr ⟨_, rfl, rfl, rfl, rfl⟩

/-- A login start that is in front is the last frame, and the bytes that a client is
handed over with are the history, the frame and the rest. -/
theorem serveStep_loginStart_front (state : session.client.state = .login)
    (whole : FrameOf wire.toCodecs session.client packet frame)
    (stream : session.conn.stream = frame ++ rest) (isLoginStart : packet.id = wire.serverLoginStart) :
    (∃ ending, (serveStep wire config moment session).2 = some ending ∧
      ∀ handover, ending ≠ .occupied handover) ∨
    ∃ handover, (serveStep wire config moment session).2 = some (.occupied handover) ∧
      handover.client = session.client ∧
      handover.inboundHistory ++ Read.bytes handover.reads = session.inboundHistory ++ (frame ++ rest) := by
  rcases serveStep_front wire config moment session whole stream with ended | ⟨conn, left, read⟩
  · exact .inl ended
  have step : serveStep wire config moment session =
      serveLoginStart wire config moment { session with conn } packet frame := by
    unfold serveStep
    rw [read]
    dsimp only
    simp [state, isLoginStart]
  rw [step]
  refine (serveLoginStart_cases wire config moment { session with conn } packet frame).imp_right ?_
  rintro ⟨handover, occupied, client, reads, history⟩
  refine ⟨handover, occupied, client, ?_⟩
  rw [history, reads, ← left, Conn.stream]
  simp only [List.append_assoc]

/-- However the bytes of a login come in, a client is handed over with its history and
its socket, and together these are all of its bytes. -/
theorem handover_bytes {moments : List Moment} {peer : SocketAddr} {reads : List Read}
    {handshake loginStart : RawPacket} {asked : Handshake} {first second more : List UInt8} {final : Final}
    (firstWhole : FrameOf wire.toCodecs (.new peer) handshake first)
    (isHandshake : handshake.id = wire.serverHandshake)
    (decodes : wire.decodeHandshake handshake.data = some asked)
    (login : asked.nextState = ClientState.login.toId)
    (secondWhole : FrameOf wire.toCodecs ((Client.new peer).setState .login) loginStart second)
    (isLoginStart : loginStart.id = wire.serverLoginStart)
    (stream : Read.bytes reads = first ++ (second ++ more))
    (served : serve wire config moments (.new (.new peer) reads) = some final)
    (occupied : final.ending = .occupied handover) :
    handover.client = (Client.new peer).setState .login ∧
      handover.inboundHistory ++ Read.bytes handover.reads = Read.bytes reads := by
  -- Whatever ends an iteration is what the connection ends with.
  have ends {moment : Moment} {moments : List Moment} {session : Session} {ending : Ending}
      (ended : (serveStep wire config moment session).2 = some ending)
      (served : serve wire config (moment :: moments) session = some final) :
      ending = .occupied handover := by
    rw [serve] at served
    rcases step : serveStep wire config moment session with ⟨next, _ | reached⟩
    · rw [step] at ended
      cases ended
    · rw [step] at ended served
      cases ended
      cases served
      exact occupied
  cases moments with
  | nil => cases served
  | cons moment moments =>
    rcases serveStep_handshake_front wire config moment (.new (.new peer) reads) rfl firstWhole stream
      isHandshake decodes login with
      ⟨ending, ended, never⟩ | ⟨next, step, client, history, left⟩
    · exact absurd (ends ended served) (never handover)
    rw [serve, step] at served
    cases moments with
    | nil => cases served
    | cons moment moments =>
      rcases serveStep_loginStart_front wire config moment next (by rw [client]; rfl)
        (client ▸ secondWhole) left isLoginStart with ⟨ending, ended, never⟩ | ⟨last, ended, same, bytes⟩
      · exact absurd (ends ended served) (never handover)
      · cases ends ended served
        refine ⟨same.trans client, ?_⟩
        rw [bytes, history, stream]
        rfl

end
namespace Join
open Tasks Program

section

variable {JoinGame : Type} (inbound : TcpStream) (inboundHistory : List UInt8)

/-- A client is relayed with its socket and its history, and nothing comes after that. -/
abbrev verbatim : Discipline (Op JoinGame) Op.Reply where
  Stage := Bool
  advance
    | _, .relay _ _ _ _, _ => true
    | relayed, _, _ => relayed
  permits
    | relayed, .relay stream _ _ queue => relayed = false ∧ stream = inbound ∧ queue = inboundHistory
    | relayed, _ => relayed = false

end

section

variable {ModList JoinGame : Type} {wire : JoinWire ModList JoinGame} {config : Config} {rounds : Nat}
  {backend : PlexPaper.Lobby.Backend} {client : Client} {clientInfo : ClientInfo}
  {inbound : TcpStream} {inboundHistory loginQueue : List UInt8}

/-- A method that continues has relayed nothing, and gives the socket back. -/
def GivesBack (inbound : TcpStream) (result : MethodResult) (relayed : Bool) : Prop :=
  ∀ stream, result = .continue_ stream → relayed = false ∧ stream = inbound

private theorem closeTcpStream_yields :
    Yields (verbatim inbound inboundHistory) false (closeTcpStream : JoinM JoinGame Unit)
      fun _ _ => True := by
  have closed : Yields (verbatim inbound inboundHistory) false (perform .close : JoinM JoinGame Bool)
      fun _ _ => True := .perform rfl fun _ => trivial
  refine closed.bind fun closed _ _ => ?_
  split
  · exact .pure trivial
  · exact .throw

private theorem relay_yields (proxyHeader : ProxyHeader) (address : SocketAddr) :
    Yields (verbatim inbound inboundHistory) false (do
      perform (.relay inbound proxyHeader address inboundHistory)
      return .consumed : JoinM JoinGame MethodResult) (GivesBack inbound) := by
  have relayed : Yields (verbatim inbound inboundHistory) false
      (perform (.relay inbound proxyHeader address inboundHistory) : JoinM JoinGame Unit)
      fun _ _ => True := .perform ⟨rfl, rfl, rfl⟩ fun _ => trivial
  exact relayed.bind fun _ _ _ => .pure nofun

private theorem kick_yields :
    Yields (verbatim inbound inboundHistory) false
      (Kick.occupy wire config client : JoinM JoinGame MethodResult) (GivesBack inbound) := by
  have loads : Yields (verbatim inbound inboundHistory) false
      (perform (.wait (.server .loadState)) : JoinM JoinGame State) fun _ relayed => relayed = false :=
    .perform rfl fun _ => rfl
  have writes (bytes : List UInt8) : Yields (verbatim inbound inboundHistory) false
      (perform (.write bytes) : JoinM JoinGame Bool) fun _ relayed => relayed = false :=
    .perform rfl fun _ => rfl
  refine loads.bind ?_
  rintro state _ rfl
  have encodes (outcome : Outcome (List UInt8)) : Yields (verbatim inbound inboundHistory) false
      (ExceptT.mk (Pure.pure outcome) : JoinM JoinGame (List UInt8)) fun _ relayed => relayed = false :=
    fun _ _ => rfl
  refine (encodes _).bind ?_
  rintro bytes _ rfl
  refine (writes bytes).bind ?_
  rintro written _ rfl
  split
  · exact closeTcpStream_yields.bind fun _ _ _ => .pure nofun
  · exact .throw

private theorem hold_yields :
    Yields (verbatim inbound inboundHistory) false
      (Hold.occupy config rounds inbound inboundHistory : JoinM JoinGame MethodResult)
      (GivesBack inbound) := by
  have waits : Yields (verbatim inbound inboundHistory) false
      (ExceptT.lift ((Waiting.holdOccupy rounds).embed Op.wait fun _ => id) :
        JoinM JoinGame Waiting.MethodResult) fun _ relayed => relayed = false :=
    .lift (Keeps.embed (fun _ => ⟨rfl, fun _ => rfl⟩) _)
  refine waits.bind ?_
  rintro result _ rfl
  cases result with
  | consumed => exact relay_yields _ _
  | continue_ =>
    refine .pure ?_
    rintro _ ⟨⟩
    exact ⟨rfl, rfl⟩

private theorem lobby_yields :
    Yields (verbatim inbound inboundHistory) false
      (Lobby.occupy wire config rounds backend client clientInfo inbound loginQueue :
        JoinM JoinGame MethodResult) (GivesBack inbound) := by
  have probes : Yields (verbatim inbound inboundHistory) false
      (Lobby.mustStillProbe config : JoinM JoinGame Bool) fun _ relayed => relayed = false := by
    unfold Lobby.mustStillProbe
    split
    · have asks : Yields (verbatim inbound inboundHistory) false
          (perform (.lobby .readJoinGame) : JoinM JoinGame (Option JoinGame))
          fun _ relayed => relayed = false := .perform rfl fun _ => rfl
      refine asks.bind ?_
      rintro joinGame _ rfl
      exact .pure rfl
    · exact .pure rfl
  refine probes.bind ?_
  rintro mustProbe _ rfl
  split
  · refine .pure ?_
    rintro _ ⟨⟩
    exact ⟨rfl, rfl⟩
  · have serves : Yields (verbatim inbound inboundHistory) false
        (ExceptT.mk ((PlexPaper.Lobby.serve wire.toLobbyWire config rounds clientInfo inbound backend
          client loginQueue).run.embed Op.lobby fun _ => id) : JoinM JoinGame Unit)
        fun _ _ => True :=
      Follows.mono (Keeps.embed (fun _ => ⟨rfl, fun _ => rfl⟩) _) fun _ _ _ _ _ => trivial
    exact serves.bind fun _ _ _ => .pure nofun

theorem occupy_verbatim :
    Yields (verbatim inbound inboundHistory) false
      (occupy wire config rounds backend client clientInfo inboundHistory loginQueue inbound)
      fun _ _ => True := by
  unfold occupy
  split
  · exact .throw
  induction config.join.methods with
  | nil => exact closeTcpStream_yields
  | cons method methods ih =>
    have occupies : Yields (verbatim inbound inboundHistory) false
        (occupyMethod wire config rounds backend client clientInfo inboundHistory loginQueue inbound method)
        (GivesBack inbound) := by
      cases method with
      | kick => exact kick_yields
      | hold => exact hold_yields
      | forward => exact relay_yields _ _
      | lobby => exact lobby_yields
    refine occupies.bind fun result relayed back => ?_
    cases result with
    | consumed => exact .pure trivial
    | continue_ stream =>
      obtain ⟨rfl, rfl⟩ := back stream rfl
      exact ih

/-- Whichever methods have passed a client on before, the one that relays it sends its
target what it has sent from the first byte on, behind the proxy header if there is one:
always the front of that, all once the client has closed, and in the end all. -/
theorem client_bytes_relayed {moments : List Moment} {peer localAddr : SocketAddr}
    {reads outbound : List Read} {handshake loginStart : RawPacket} {asked : Handshake}
    {first second more queue : List UInt8} {final : Final} {handover : Handover} {early late : List ((op : Op JoinGame) × op.Reply)}
    {rest : Program (Op JoinGame) Op.Reply (Outcome Unit)} {stream : TcpStream}
    {proxyHeader : ProxyHeader} {address : SocketAddr} {start : Relaying}
    (firstWhole : FrameOf wire.toCodecs (.new peer) handshake first)
    (isHandshake : handshake.id = wire.serverHandshake)
    (decodes : wire.decodeHandshake handshake.data = some asked)
    (login : asked.nextState = ClientState.login.toId)
    (secondWhole : FrameOf wire.toCodecs ((Client.new peer).setState .login) loginStart second)
    (isLoginStart : loginStart.id = wire.serverLoginStart)
    (sent : Read.bytes reads = first ++ (second ++ more))
    (served : serve wire.toStatusWire config moments (.new (.new peer) reads) = some final)
    (occupied : final.ending = .occupied handover)
    (performed : (occupy wire config rounds backend handover.client handover.clientInfo
      handover.inboundHistory handover.loginQueue ⟨peer, localAddr, handover.reads⟩).run.Performs
        (early ++ ⟨.relay stream proxyHeader address queue, ()⟩ :: late) rest)
    (begun : proxyWithQueue wire.proxyHeader stream proxyHeader outbound queue = .ok start) :
    late = [] ∧ ∃ header, proxyHeaderBytes wire.proxyHeader stream proxyHeader = .ok header ∧
      (∀ relaying, start.Reaches relaying →
        relaying.toServer.sent <+: header ++ Read.bytes reads ∧
          (relaying.toServer.shutdown = true → relaying.toServer.sent = header ++ Read.bytes reads)) ∧
      start.Delivers .toServer (header ++ Read.bytes reads) := by
  obtain ⟨-, bytes⟩ := handover_bytes wire.toStatusWire config firstWhole isHandshake decodes login
    secondWhole isLoginStart sent served occupied
  have follows : (occupy wire config rounds backend handover.client handover.clientInfo
      handover.inboundHistory handover.loginQueue ⟨peer, localAddr, handover.reads⟩).run.Follows
      (verbatim ⟨peer, localAddr, handover.reads⟩ handover.inboundHistory) false _ := occupy_verbatim
  obtain ⟨-, rfl, rfl⟩ := follows.permits_of_performs performed
  constructor
  · cases late with
    | nil => rfl
    | cons done late =>
      rw [List.append_cons] at performed
      have permitted := follows.permits_of_performs performed
      rw [Discipline.after, List.foldl_concat] at permitted
      obtain ⟨op, reply⟩ := done
      cases op with
      | relay => cases permitted.1
      | _ => cases permitted
  · cases written : proxyHeaderBytes wire.proxyHeader ⟨peer, localAddr, handover.reads⟩ proxyHeader with
    | error fault =>
      rw [proxyWithQueue, written] at begun
      cases begun
    | ok header =>
      rw [proxyWithQueue, written] at begun
      cases begun
      have whole : header ++ handover.inboundHistory ++ Read.bytes handover.reads = header ++ Read.bytes reads := by
        rw [List.append_assoc, bytes]
      refine ⟨header, rfl, fun relaying reached => ?_, ?_⟩
      · exact Relaying.relays .toServer rfl whole reached
      · exact Relaying.delivers .toServer rfl whole

end

/-- The packet formats, as far as a login comes to. -/
def plainJoinWire : JoinWire Unit Unit :=
  { plainStatusWire, PlexPaper.Lobby.plainLobbyWire with }

deriving instance DecidableEq for Handover

/-- What a connection has ended with, if it was handed over. -/
def handedOver (final : Final) : Option Handover :=
  match final.ending with
  | .occupied handover => some handover
  | _ => none

/-- A handshake and a login start with three bytes behind them, in three chunks. -/
private def forwardedClient : List Read :=
  [.data [7, 0, 47, 1, 120, 99, 221, 2, 3, 0], .data [1, 97, 9], .data [8, 7]]

private def holdOrForward : Config := { join := { methods := [.hold, .forward] } }

private theorem forwardedClient_occupied :
    ∃ final, serve plainJoinWire.toStatusWire holdOrForward [{}, {}] (.new .dummy forwardedClient) =
      some final ∧ final.ending = .occupied
        { client := Client.dummy.setState .login
          clientInfo := ⟨some 47, some ⟨47, "x", 25565, 2⟩, some "a"⟩
          reads := [.data [8, 7]]
          inboundHistory := [7, 0, 47, 1, 120, 99, 221, 2, 3, 0, 1, 97, 9]
          loginQueue := [3, 0, 1, 97, 9] } := by
  have ends : (serve plainJoinWire.toStatusWire holdOrForward [{}, {}]
      (.new .dummy forwardedClient)).bind handedOver = some
        { client := Client.dummy.setState .login
          clientInfo := ⟨some 47, some ⟨47, "x", 25565, 2⟩, some "a"⟩
          reads := [.data [8, 7]]
          inboundHistory := [7, 0, 47, 1, 120, 99, 221, 2, 3, 0, 1, 97, 9]
          loginQueue := [3, 0, 1, 97, 9] } := by
    decide +kernel
  obtain ⟨final, served, handed⟩ := Option.bind_eq_some_iff.mp ends
  refine ⟨final, served, ?_⟩
  unfold handedOver at handed
  split at handed
  · cases handed
    assumption
  · cases handed

/-- The relay that this client is forwarded with, and moves that take it to its end. -/
private def forwardedRelay : Relaying :=
  proxyInboundOutboundWithQueue [.data [8, 7]] [] [] [7, 0, 47, 1, 120, 99, 221, 2, 3, 0, 1, 97, 9]

private def forwardEvents : List RelayEvent :=
  [.accept .toServer 13, .copy .toServer, .accept .toServer 2, .finish .toClient, .finish .toServer]

/-- A client is not held, for the server has stopped again by then, and is forwarded.
One byte behind its login start is buffered, and two are still to come. -/
theorem client_bytes_relayed_forward :
    ∃ run : Nat → Relaying, run 0 = forwardedRelay ∧ (∀ n < 5, (run n).Moves (run (n + 1))) ∧
      (∀ next, ¬ (run 5).Moves next) ∧ (run 5).toServer.sent = Read.bytes forwardedClient := by
  have firstWhole : FrameOf plainCodecs .dummy ⟨0, [47, 1, 120, 99, 221, 2]⟩
      [7, 0, 47, 1, 120, 99, 221, 2] := ⟨⟨1, 7, by decide, by decide⟩, by decide⟩
  have secondWhole : FrameOf plainCodecs (Client.dummy.setState .login) ⟨0, [1, 97]⟩
      [3, 0, 1, 97] := ⟨⟨1, 3, by decide, by decide⟩, by decide⟩
  have sent : Read.bytes forwardedClient =
      [7, 0, 47, 1, 120, 99, 221, 2] ++ ([3, 0, 1, 97] ++ [9, 8, 7]) := rfl
  have decodes : plainJoinWire.decodeHandshake [47, 1, 120, 99, 221, 2] = some ⟨47, "x", 25565, 2⟩ := by
    decide +kernel
  have performed : (occupy plainJoinWire holdOrForward 0 ⟨none, []⟩ (Client.dummy.setState .login)
      ⟨some 47, some ⟨47, "x", 25565, 2⟩, some "a"⟩ [7, 0, 47, 1, 120, 99, 221, 2, 3, 0, 1, 97, 9]
      [3, 0, 1, 97, 9] ⟨⟨.v4 0, 0⟩, INTERNAL_ADDRESS, [.data [8, 7]]⟩).run.Performs
      ([⟨.wait (.server .loadState), State.stopped⟩] ++
        ⟨.relay ⟨⟨.v4 0, 0⟩, INTERNAL_ADDRESS, [.data [8, 7]]⟩ .none FORWARD_ADDRESS
          [7, 0, 47, 1, 120, 99, 221, 2, 3, 0, 1, 97, 9], ()⟩ :: []) (.pure (.ok ())) := by
    change (Program.request _ _).Performs _ _
    refine .request ?_
    change (Program.request _ _).Performs _ _
    exact .request .start
  obtain ⟨final, served, occupied⟩ := forwardedClient_occupied
  obtain ⟨-, header, written, -, delivers⟩ := client_bytes_relayed firstWhole rfl decodes rfl secondWhole rfl sent
    served occupied performed rfl
  cases (written : .ok [] = Except.ok header)
  have moved := @Relaying.moves_along forwardedRelay forwardEvents (by decide)
  have stuck := @Relaying.stuck_of_left (forwardedRelay.along forwardEvents 5) (by decide)
  have orderly : forwardedRelay.BothEndInOrder :=
    Relaying.bothEndInOrder (@endsInOrder_chunks [[8, 7]] (by decide)) nofun
  exact ⟨_, rfl, moved, stuck, ((delivers _ 5 rfl moved).2 orderly stuck).2⟩

end Join
end PlexPaper
