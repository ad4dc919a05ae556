import PlexPaper.StatusAnswers
import PlexPaper.VerbatimRelay

/-! What `join::occupy` may rely on. The loop of `status::serve` keeps the state of the
client, its handshake, its version and its history apart, and a handshake may ask for
`Handshake` again any number of times. Only a handshake that asks for the login leaves
it with a history, and nothing is a handshake after that. -/
namespace PlexPaper
open Outcome

section Serve

variable (wire : StatusWire) (config : Config)

/-- An iteration of the loop that another one follows. -/
def Turns (before after : Session) : Prop :=
  ∃ moment, serveStep wire config moment before = (after, none)

/-- The loop comes from the head of one iteration to the head of another. -/
def Iterates : Session → Session → Prop := Relation.ReflTransGen (Turns wire config)

/-- The frame that an iteration reads is this handshake, at a time for one. -/
def ReadsHandshake (session : Session) (handshake : Handshake) (raw : List UInt8) : Prop :=
  session.client.state = .handshake ∧ ∃ packet conn,
    readPacket wire.toCodecs session.client session.conn = (.ok (some (packet, raw)), conn) ∧
    packet.id = wire.serverHandshake ∧ wire.decodeHandshake packet.data = some handshake

/-- What the session holds of a handshake for the login. -/
structure GreetedBy (session : Session) (given : Handshake) (raw : List UInt8) : Prop where
  handshake : session.clientInfo.handshake = some given
  nextState : given.nextState = ClientState.login.toId
  protocol : session.clientInfo.protocol = some given.protocolVersion.toUInt32
  history : session.inboundHistory = raw

/-- What holds at the head of every iteration that comes after `start`. -/
structure LoginInvariant (start session : Session) : Prop where
  before : session.client.state = .handshake ∨ session.client.state = .status →
    session.inboundHistory = []
  reached : session.client.state ≠ .play
  login : session.client.state = .login → ∃ earlier handshake raw,
    Iterates wire config start earlier ∧ ReadsHandshake wire earlier handshake raw ∧
      GreetedBy session handshake raw

variable {wire config} {moment : Moment} {start session next : Session}

theorem write_kept {bytes : Outcome (List UInt8)} (writes : session.write moment bytes = (next, none)) :
    next.client = session.client ∧ next.clientInfo = session.clientInfo ∧
      next.inboundHistory = session.inboundHistory := by
  unfold Session.write at writes
  cases bytes with
  | error fault => cases writes
  | ok bytes =>
    dsimp only at writes
    split at writes
    · cases writes
      exact ⟨rfl, rfl, rfl⟩
    · cases writes

/-- An iteration that another one follows has accepted a handshake, or has left what it
knows of the client as it was. -/
theorem serveStep_turns (turns : serveStep wire config moment session = (next, none)) :
    (∃ handshake newState raw, ReadsHandshake wire session handshake raw ∧
      ClientState.fromId handshake.nextState = some newState ∧
      next.client = session.client.setState newState ∧
      next.clientInfo = { session.clientInfo with
        protocol := some handshake.protocolVersion.toUInt32, handshake := some handshake } ∧
      next.inboundHistory =
        if newState = .login then session.inboundHistory ++ raw else session.inboundHistory) ∨
    (next.client = session.client ∧ next.clientInfo = session.clientInfo ∧
      next.inboundHistory = session.inboundHistory) := by
  unfold serveStep at turns
  rcases read : readPacket wire.toCodecs session.client session.conn with
    ⟨(_ | _) | (_ | ⟨packet, raw⟩), conn⟩
  · rw [read] at turns
    cases turns
  · rw [read] at turns
    cases turns
  · rw [read] at turns
    cases turns
  · rw [read] at turns
    dsimp only at turns
    split at turns
    · rename_i greets
      left
      unfold serveHandshake at turns
      split at turns
      · cases turns
      · rename_i handshake decodes
        split at turns
        · cases turns
        · rename_i newState asked
          cases turns
          exact ⟨handshake, newState, raw, ⟨greets.1, packet, conn, read, greets.2, decodes⟩, asked,
            rfl, rfl, rfl⟩
    · right
      split at turns
      · have kept := write_kept turns
        exact kept
      · split at turns
        · have kept := write_kept turns
          exact kept
        · split at turns
          · rcases serveLoginStart_cases wire config moment { session with conn } packet raw with
              ⟨_, ended, -⟩ | ⟨_, ended, -⟩
            · rw [turns] at ended
              cases ended
            · rw [turns] at ended
              cases ended
          · cases turns
            exact ⟨rfl, rfl, rfl⟩

/-- What one iteration preserves. -/
theorem LoginInvariant.turns (holds : LoginInvariant wire config start session)
    (iterates : Iterates wire config start session) (turns : Turns wire config session next) :
    LoginInvariant wire config start next := by
  obtain ⟨moment, turns⟩ := turns
  rcases serveStep_turns turns with
    ⟨handshake, newState, raw, reads, asked, client, info, history⟩ | ⟨client, info, history⟩
  · obtain ⟨notPlay, named⟩ := (ClientState.fromId_toId _ _).mp asked
    have state : next.client.state = newState := by rw [client]; rfl
    have empty := holds.before (.inl reads.1)
    refine ⟨fun outside => ?_, by rwa [state], fun login => ?_⟩
    · have noLogin : newState ≠ .login := by
        rw [← state]
        rcases outside with same | same <;> simp [same]
      rw [history, if_neg noLogin, empty]
    · rw [state] at login
      subst login
      refine ⟨session, handshake, raw, iterates, reads, ?_⟩
      rw [if_pos rfl, empty, List.nil_append] at history
      exact ⟨by rw [info], named, by rw [info], history⟩
  · refine ⟨fun outside => ?_, by rw [client]; exact holds.reached, fun login => ?_⟩
    · rw [history]
      exact holds.before (by rwa [client] at outside)
    · obtain ⟨earlier, handshake, raw, passed, reads, greeted⟩ := holds.login (by rwa [client] at login)
      refine ⟨earlier, handshake, raw, passed, reads, ?_⟩
      exact ⟨by rw [info, greeted.handshake], greeted.nextState, by rw [info, greeted.protocol],
        by rw [history, greeted.history]⟩

/-- What every run of the loop preserves, from a new connection on. -/
theorem login_invariant {client : Client} {reads : List Read} (fresh : client.state = .handshake)
    (iterates : Iterates wire config (.new client reads) session) :
    LoginInvariant wire config (.new client reads) session := by
  induction iterates with
  | refl => exact ⟨fun _ => rfl, by simp [Session.new, fresh], by simp [Session.new, fresh]⟩
  | tail iterates turns ih => exact ih.turns iterates turns

/-- The loop ends in an iteration that it has come to. -/
theorem serve_iterates {moments : List Moment} {final : Final}
    (served : serve wire config moments session = some final) :
    Iterates wire config session final.before ∧
      serveStep wire config final.moment final.before = (final.after, some final.ending) := by
  induction moments generalizing session with
  | nil => cases served
  | cons moment moments ih =>
    rw [serve] at served
    rcases step : serveStep wire config moment session with ⟨next, _ | ending⟩
    · rw [step] at served
      obtain ⟨iterates, last⟩ := ih served
      exact ⟨.head ⟨moment, step⟩ iterates, last⟩
    · rw [step] at served
      cases served
      exact ⟨.refl, step⟩

/-- Whoever is handed over is a client in `Login`, with the handshake it came with. -/
theorem serveStep_occupied {handover : Handover}
    (occupied : (serveStep wire config moment session).2 = some (.occupied handover)) :
    session.client.state = .login ∧ handover.client = session.client ∧
      handover.clientInfo.handshake = session.clientInfo.handshake := by
  have state : session.client.state = .login := by
    by_contra outside
    exact serveStep_unoccupied config wire moment outside handover occupied
  rcases serveStep_cases wire config moment session with
    ⟨-, stays⟩ | ⟨packet, raw, conn, -, same⟩
  · exact absurd occupied (stays.2 handover)
  · have kicked (session : Session) (msg : String) :
        (kickAndBreak wire moment session msg).2 ≠ some (.occupied handover) :=
      (kickAndBreak_stays wire moment session msg).2 handover
    rw [same, serveLoginStart] at occupied
    dsimp only at occupied
    split at occupied
    · exact (kicked _ _ occupied).elim
    · split at occupied
      · exact (kicked _ _ occupied).elim
      · split at occupied
        · exact (kicked _ _ occupied).elim
        · cases occupied
          exact ⟨state, rfl, rfl⟩

end Serve

/-! ## The assertions -/

section Assertions

variable {ModList JoinGame : Type}

/-- `connect_to_server_no_timeout` without its assertion, for this handshake. -/
def Lobby.connectGreeted (wire : Lobby.LobbyWire ModList JoinGame) (config : Config) (rounds : Nat)
    (handshake : Handshake) (clientInfo : ClientInfo) (inbound : TcpStream) (backend : Lobby.Backend) :
    Lobby.LobbyM JoinGame (Client × Conn) := do
  if ← Lobby.perform .connect then
    Lobby.sendServerProxyHeader wire config inbound
    let tmpClient := ((backend.localAddr.map Client.new).getD .dummy).setState .login
    Lobby.sendPacket wire .server (wire.handshake handshake) tmpClient
    Lobby.sendPacket wire .server
      (wire.loginStart (← Lobby.ofOutcome (question clientInfo.username))) tmpClient
    Lobby.loginLoop wire config rounds tmpClient ⟨[], backend.reads⟩
  else throw .err

/-- Nothing that `join::occupy` and the lobby assert of this client fails: both go on as
if they asserted nothing, whatever else they are given. -/
structure AssertionsHold (wire : Join.JoinWire ModList JoinGame) (config : Config) (client : Client)
    (clientInfo : ClientInfo) : Prop where
  state : client.state = .login
  occupies : ∀ rounds backend inboundHistory loginQueue inbound,
    Join.occupy wire config rounds backend client clientInfo inboundHistory loginQueue inbound =
      Join.occupyLoop wire config rounds backend client clientInfo inboundHistory loginQueue
        config.join.methods inbound
  handshake : ∃ handshake, clientInfo.handshake = some handshake ∧
    handshake.nextState = ClientState.login.toId ∧ ∀ rounds inbound backend,
      Lobby.connectToServerNoTimeout wire.toLobbyWire config rounds clientInfo inbound backend =
        Lobby.connectGreeted wire.toLobbyWire config rounds handshake clientInfo inbound backend

theorem assertionsHold (wire : Join.JoinWire ModList JoinGame) (config : Config) {client : Client}
    {clientInfo : ClientInfo} {handshake : Handshake} (state : client.state = .login)
    (given : clientInfo.handshake = some handshake)
    (asked : handshake.nextState = ClientState.login.toId) :
    AssertionsHold wire config client clientInfo := by
  refine ⟨state, fun _ _ _ _ _ => ?_, handshake, given, asked, fun rounds inbound backend => ?_⟩
  · rw [Join.occupy, if_neg (not_not.mpr state)]
  · unfold Lobby.connectToServerNoTimeout Lobby.connectGreeted
    rw [given]
    have known {α : Type} (rest : Handshake → Lobby.LobbyM JoinGame α) :
        (Lobby.ofOutcome (.ok handshake) >>= rest) = rest handshake := rfl
    simp only [unwrap_some, known, ne_eq, asked, not_true_eq_false, if_false]

/-- At the head of every iteration a client in `Login` has the handshake that it has come
to `Login` with, and no assertion fails for a client that is handed over. -/
theorem login_has_handshake (wire : Join.JoinWire ModList JoinGame) (config : Config)
    (peer : SocketAddr) (reads : List Read) :
    (∀ session, Iterates wire.toStatusWire config (.new (.new peer) reads) session →
      session.client.state = .login → ∃ earlier handshake raw,
        Iterates wire.toStatusWire config (.new (.new peer) reads) earlier ∧
        ReadsHandshake wire.toStatusWire earlier handshake raw ∧ GreetedBy session handshake raw) ∧
    ∀ moments final handover,
      serve wire.toStatusWire config moments (.new (.new peer) reads) = some final →
      final.ending = .occupied handover →
      AssertionsHold wire config handover.client handover.clientInfo := by
  refine ⟨fun session iterates => (login_invariant rfl iterates).login, ?_⟩
  intro moments final handover served occupied
  obtain ⟨iterates, last⟩ := serve_iterates served
  have handed : (serveStep wire.toStatusWire config final.moment final.before).2 =
      some (.occupied handover) := by rw [last, occupied]
  obtain ⟨state, client, info⟩ := serveStep_occupied handed
  obtain ⟨_, handshake, _, -, -, greeted⟩ := (login_invariant rfl iterates).login state
  exact assertionsHold wire config (client ▸ state) (info.trans greeted.handshake) greeted.nextState

end Assertions

/-- A handshake that asks for `Handshake` again, with one for the login behind it. -/
theorem login_has_handshake_repeated :
    let reads := [Read.data [7, 0, 47, 1, 120, 99, 221, 0, 7, 0, 47, 1, 121, 99, 221, 2]]
    ∃ session, Iterates Join.plainJoinWire.toStatusWire {} (.new .dummy reads) session ∧
      session.client.state = .login ∧ ∃ earlier handshake raw,
        ReadsHandshake Join.plainJoinWire.toStatusWire earlier handshake raw ∧
          GreetedBy session handshake raw := by
  intro reads
  have turns {session : Session} {moment : Moment}
      (more : (serveStep Join.plainJoinWire.toStatusWire {} moment session).2.isNone = true) :
      Turns Join.plainJoinWire.toStatusWire {} session
        (serveStep Join.plainJoinWire.toStatusWire {} moment session).1 :=
    ⟨moment, Prod.ext rfl (Option.isNone_iff_eq_none.mp more)⟩
  let greeted := (serveStep Join.plainJoinWire.toStatusWire {} {} (.new .dummy reads)).1
  let session := (serveStep Join.plainJoinWire.toStatusWire {} {} greeted).1
  have iterates : Iterates Join.plainJoinWire.toStatusWire {} (.new .dummy reads) session :=
    .head (turns (by decide +kernel)) (.single (turns (by decide +kernel)))
  have state : session.client.state = .login := by decide +kernel
  obtain ⟨earlier, handshake, raw, -, read, greetedBy⟩ :=
    (login_has_handshake Join.plainJoinWire {} _ reads).1 session iterates state
  exact ⟨session, iterates, state, earlier, handshake, raw, read, greetedBy⟩

end PlexPaper
