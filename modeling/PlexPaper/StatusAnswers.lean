import PlexPaper.WakeGate

/-! What a client gets that only asks for the status. The client state moves with
the handshakes that are accepted, and from `Status` it never moves on, so once a
client is there every status request and every ping is answered, and nothing
else is ever written. -/
namespace PlexPaper
open Outcome

/-- A frame that an iteration of the loop has read, with the state its client was
in and what the iteration found. -/
structure Frame where
  state : ClientState
  moment : Moment
  packet : RawPacket
  raw : List UInt8

section

variable (wire : StatusWire) (config : Config)

/-- The frame that an iteration reads, and the connection behind it. -/
def readFrame (moment : Moment) (session : Session) : Option (Frame × Conn) :=
  match readPacket wire.toCodecs session.client session.conn with
  | (.ok (some (packet, raw)), conn) => some (⟨session.client.state, moment, packet, raw⟩, conn)
  | _ => none

/-- The loop after these iterations, or after the one it ended in. -/
def serveAfter : List Moment → Session → Session × Option Ending
  | [], session => (session, none)
  | moment :: moments, session =>
    match serveStep wire config moment session with
    | (next, none) => serveAfter moments next
    | ended => ended

/-- The frames that these iterations read. -/
def processed : List Moment → Session → List Frame
  | [], _ => []
  | moment :: moments, session =>
    match readFrame wire moment session with
    | none => []
    | some (frame, _) =>
      frame :: match serveStep wire config moment session with
        | (next, none) => processed moments next
        | _ => []

/-- A connection that has ended is one that `serve` returns. -/
theorem serve_iff_serveAfter {moments : List Moment} {session after : Session} {ending : Ending} :
    (∃ final, serve wire config moments session = some final ∧ final.after = after ∧
      final.ending = ending) ↔ serveAfter wire config moments session = (after, some ending) := by
  induction moments generalizing session with
  | nil => simp [serve, serveAfter]
  | cons moment moments ih =>
    rw [serve, serveAfter]
    rcases serveStep wire config moment session with ⟨next, _ | reached⟩
    · exact ih
    · simp

/-- The handshake that a frame is accepted as, with the state it asks for. -/
def Frame.accepted (frame : Frame) : Option (Handshake × ClientState) := do
  if frame.state = .handshake ∧ frame.packet.id = wire.serverHandshake then
    let handshake ← wire.decodeHandshake frame.packet.data
    let newState ← ClientState.fromId handshake.nextState
    return (handshake, newState)
  else none

/-- What is written for a frame in `Status`: the encoded status for a request, the
frame itself for a ping, and nothing otherwise. -/
def Frame.answer (client : Client) (clientInfo : ClientInfo) (frame : Frame) : Outcome (List UInt8) :=
  if frame.packet.id = wire.serverStatus then do
    let data ← question (wire.encodeStatusResponse (serverStatus config frame.moment clientInfo))
    RawPacket.encodeWithLen wire.toCodecs ⟨0, data⟩ client
  else if frame.packet.id = wire.serverPing then .ok frame.raw
  else .ok []

/-- The bytes are the answers, one after the other. An answer that cannot be made
ends the connection. -/
inductive Answers (ending : Option Ending) : List (Outcome (List UInt8)) → List UInt8 → Prop where
  | none : Answers ending [] []
  | written {bytes sent : List UInt8} {answers : List (Outcome (List UInt8))}
      (rest : Answers ending answers sent) : Answers ending (.ok bytes :: answers) (bytes ++ sent)
  | failed {fault : Fault} (ended : ending = some (.failed fault)) : Answers ending [.error fault] []

variable {wire} {moment : Moment} {session : Session}

theorem serveStep_of_no_frame (unread : readFrame wire moment session = none) :
    ∃ conn ending, serveStep wire config moment session = ({ session with conn }, some ending) ∧
      ∀ handover, ending ≠ .occupied handover := by
  revert unread
  unfold readFrame serveStep
  rcases readPacket wire.toCodecs session.client session.conn with
    ⟨(_ | _) | (_ | ⟨packet, raw⟩), conn⟩
  · exact fun _ => ⟨conn, .closed, rfl, fun _ => by simp⟩
  · exact fun _ => ⟨conn, .failed .panic, rfl, fun _ => by simp⟩
  · exact fun _ => ⟨conn, .closed, rfl, fun _ => by simp⟩
  · exact nofun

/-- In `Status` an iteration writes the answer of its frame, if it is for a
request or a ping. -/
theorem serveStep_status (asking : session.client.state = .status) {frame : Frame} {conn : Conn}
    (read : readFrame wire moment session = some (frame, conn)) :
    frame.state = .status ∧ serveStep wire config moment session =
      if frame.packet.id = wire.serverStatus ∨ frame.packet.id = wire.serverPing then
        Session.write moment { session with conn }
          (frame.answer wire config session.client session.clientInfo)
      else ({ session with conn }, none) := by
  revert read
  unfold readFrame serveStep
  rcases readPacket wire.toCodecs session.client session.conn with
    ⟨(_ | _) | (_ | ⟨packet, raw⟩), after⟩
  · exact nofun
  · exact nofun
  · exact nofun
  · rintro ⟨⟩
    refine ⟨asking, ?_⟩
    simp only [asking, reduceCtorEq, false_and, true_and, if_false, Frame.answer, serveStatusRequest]
    by_cases request : packet.id = wire.serverStatus
    · have answered : packet.id = wire.serverStatus ∨ packet.id = wire.serverPing := .inl request
      simp only [if_pos request, if_pos answered]
    · by_cases ping : packet.id = wire.serverPing
      · have answered : packet.id = wire.serverStatus ∨ packet.id = wire.serverPing := .inr ping
        simp only [if_neg request, if_pos ping, if_pos answered]
      · have silent : ¬ (packet.id = wire.serverStatus ∨ packet.id = wire.serverPing) :=
          not_or.mpr ⟨request, ping⟩
        simp only [if_neg request, if_neg ping, if_neg silent]

/-- Where its write goes through, the answer of every frame is what is sent. -/
theorem serveStep_status_sent (asking : session.client.state = .status) (writes : moment.writes = true)
    {frame : Frame} {conn : Conn} (read : readFrame wire moment session = some (frame, conn)) :
    serveStep wire config moment session =
      match frame.answer wire config session.client session.clientInfo with
      | .ok bytes => ({ session with conn, sent := session.sent ++ bytes }, none)
      | .error fault => ({ session with conn }, some (.failed fault)) := by
  rw [(serveStep_status config asking read).2]
  split
  · cases frame.answer wire config session.client session.clientInfo with
    | error fault => rfl
    | ok bytes => exact if_pos writes
  · rename_i other
    obtain ⟨request, ping⟩ := not_or.mp other
    simp [Frame.answer, request, ping]

/-- In `Handshake` an iteration accepts its frame, or drops it. -/
theorem serveStep_handshake (greeting : session.client.state = .handshake) {frame : Frame}
    {conn : Conn} (read : readFrame wire moment session = some (frame, conn)) :
    frame.state = .handshake ∧ match frame.accepted wire with
      | some (handshake, newState) => ∃ next, serveStep wire config moment session = (next, none) ∧
          next.client = session.client.setState newState ∧
          next.clientInfo = { session.clientInfo with
            protocol := some handshake.protocolVersion.toUInt32, handshake := some handshake } ∧
          next.sent = session.sent
      | none => ∃ ending, serveStep wire config moment session = ({ session with conn }, ending) ∧
          ∀ handover, ending ≠ some (.occupied handover) := by
  revert read
  unfold readFrame serveStep
  rcases readPacket wire.toCodecs session.client session.conn with
    ⟨(_ | _) | (_ | ⟨packet, raw⟩), after⟩
  · exact nofun
  · exact nofun
  · exact nofun
  · rintro ⟨⟩
    refine ⟨greeting, ?_⟩
    simp only [greeting, reduceCtorEq, false_and, true_and, if_false, Frame.accepted, serveHandshake]
    by_cases greets : packet.id = wire.serverHandshake
    · simp only [if_pos greets]
      cases wire.decodeHandshake packet.data with
      | none => exact ⟨_, rfl, fun _ => by simp⟩
      | some handshake =>
        cases state : ClientState.fromId handshake.nextState with
        | none => simp [state]
        | some newState =>
          simp only [Option.bind_eq_bind, Option.bind_some, Option.pure_def, state]
          exact ⟨_, rfl, rfl, rfl, rfl⟩
    · simp only [if_neg greets]
      exact ⟨_, rfl, fun _ => by simp⟩

/-- Outside `Login` no iteration hands the client over. -/
theorem serveStep_unoccupied (wire : StatusWire) (moment : Moment) (state : session.client.state ≠ .login)
    (handover : Handover) : (serveStep wire config moment session).2 ≠ some (.occupied handover) := by
  intro occupied
  obtain ⟨packet, found, -⟩ := (serveStep_wakes_iff wire config moment session).mp ⟨handover, occupied⟩
  unfold loginStartPacket at found
  split at found
  · rw [if_neg fun gate => state gate.1] at found
    cases found
  · cases found

theorem write_client (bytes : Outcome (List UInt8)) :
    (session.write moment bytes).1.client = session.client := by
  cases bytes with
  | error fault => rfl
  | ok bytes =>
    simp only [Session.write]
    split <;> rfl

/-- From `Status` the client state never moves on. -/
theorem serveStep_status_client (wire : StatusWire) (moment : Moment)
    (asking : session.client.state = .status) :
    (serveStep wire config moment session).1.client = session.client := by
  cases read : readFrame wire moment session with
  | none =>
    obtain ⟨conn, ending, closed, -⟩ := serveStep_of_no_frame config read
    rw [closed]
  | some found =>
    obtain ⟨frame, conn⟩ := found
    rw [(serveStep_status config asking read).2]
    split
    · exact write_client _
    · rfl

/-- No handshake asks for `Play`. -/
theorem Frame.accepted_ne_play {frame : Frame} {handshake : Handshake} {newState : ClientState}
    (named : frame.accepted wire = some (handshake, newState)) : newState ≠ .play := by
  unfold accepted at named
  split at named
  · simp only [Option.bind_eq_bind, Option.bind_eq_some_iff, Option.pure_def, Option.some.injEq,
      Prod.mk.injEq] at named
    obtain ⟨_, -, _, asked, -, rfl⟩ := named
    exact ((ClientState.fromId_toId _ _).mp asked).1
  · cases named

/-- A handshake for no login leads to `Handshake` or `Status`. -/
theorem serveStep_handshake_client (greeting : session.client.state = .handshake) {frame : Frame}
    {conn : Conn} (read : readFrame wire moment session = some (frame, conn))
    (noLogin : ∀ handshake, frame.accepted wire ≠ some (handshake, .login)) {next : Session}
    (stepped : serveStep wire config moment session = (next, none)) :
    next.client.state = .handshake ∨ next.client.state = .status := by
  obtain ⟨-, accepts⟩ := serveStep_handshake config greeting read
  cases accepted : frame.accepted wire with
  | none =>
    rw [accepted] at accepts
    obtain ⟨ending, same, -⟩ := accepts
    cases stepped.symm.trans same
    exact .inl greeting
  | some found =>
    obtain ⟨handshake, newState⟩ := found
    rw [accepted] at accepts
    obtain ⟨_, same, client, -⟩ := accepts
    cases stepped.symm.trans same
    cases newState with
    | handshake => exact .inl (congrArg Client.state client)
    | status => exact .inr (congrArg Client.state client)
    | login => exact absurd accepted (noLogin handshake)
    | play => exact absurd rfl (Frame.accepted_ne_play accepted)

theorem processed_cons_of_frame {frame : Frame} {conn : Conn} (moments : List Moment)
    (read : readFrame wire moment session = some (frame, conn)) :
    processed wire config (moment :: moments) session =
      frame :: match serveStep wire config moment session with
        | (next, none) => processed wire config moments next
        | _ => [] := by
  rw [processed, read]

/-- In `Handshake` or `Status` a client that asks for no login is never handed over. -/
theorem serveAfter_unoccupied {moments : List Moment}
    (state : session.client.state = .handshake ∨ session.client.state = .status)
    (noLogin : ∀ frame ∈ processed wire config moments session, ∀ handshake,
      frame.accepted wire ≠ some (handshake, .login)) (handover : Handover) :
    (serveAfter wire config moments session).2 ≠ some (.occupied handover) := by
  induction moments generalizing session with
  | nil => simp [serveAfter]
  | cons moment moments ih =>
    have outside : session.client.state ≠ .login := by rcases state with same | same <;> simp [same]
    have unoccupied := serveStep_unoccupied config wire moment outside
    rw [serveAfter]
    cases read : readFrame wire moment session with
    | none =>
      obtain ⟨conn, ending, closed, other⟩ := serveStep_of_no_frame config read
      rw [closed]
      exact fun same => other handover (Option.some.inj same)
    | some found =>
      obtain ⟨frame, conn⟩ := found
      rw [processed_cons_of_frame config moments read] at noLogin
      have stays : ∀ next, serveStep wire config moment session = (next, none) →
          next.client.state = .handshake ∨ next.client.state = .status := by
        intro next stepped
        rcases state with greeting | asking
        · exact serveStep_handshake_client config greeting read (noLogin frame List.mem_cons_self) stepped
        · have client := serveStep_status_client config wire moment asking
          rw [stepped] at client
          exact .inr (client ▸ asking)
      rcases stepped : serveStep wire config moment session with ⟨next, _ | ending⟩
      · rw [stepped] at noLogin
        exact ih (stays next stepped) fun frame member => noLogin frame (List.mem_cons_of_mem _ member)
      · have other := unoccupied handover
        rwa [stepped] at other

/-- In `Status` the frames are answered as they come. -/
theorem answers_status (session : Session) {moments : List Moment}
    (asking : session.client.state = .status)
    (writes : ∀ moment ∈ moments, moment.writes = true) :
    (∀ frame ∈ processed wire config moments session, frame.state = .status) ∧
      (serveAfter wire config moments session).1.clientInfo = session.clientInfo ∧
      ∃ sent, (serveAfter wire config moments session).1.sent = session.sent ++ sent ∧
        Answers (serveAfter wire config moments session).2
          ((processed wire config moments session).map
            (·.answer wire config session.client session.clientInfo)) sent := by
  induction moments generalizing session with
  | nil => exact ⟨by simp [processed], rfl, [], by simp [serveAfter], .none⟩
  | cons moment moments ih =>
    have goesOn : moment.writes = true := writes moment List.mem_cons_self
    rw [serveAfter]
    cases read : readFrame wire moment session with
    | none =>
      obtain ⟨conn, ending, closed, -⟩ := serveStep_of_no_frame config read
      rw [processed, read, closed]
      exact ⟨by simp, rfl, [], by simp, .none⟩
    | some found =>
      obtain ⟨frame, conn⟩ := found
      rw [processed_cons_of_frame config moments read]
      have state : frame.state = .status := (serveStep_status config asking read).1
      have stepped := serveStep_status_sent config asking goesOn read
      cases answer : frame.answer wire config session.client session.clientInfo with
      | error fault =>
        rw [answer] at stepped
        rw [stepped]
        refine ⟨by simp [state], rfl, [], by simp, ?_⟩
        rw [List.map_singleton, answer]
        exact .failed rfl
      | ok bytes =>
        rw [answer] at stepped
        rw [stepped]
        obtain ⟨states, info, sent, same, answers⟩ := ih { session with conn, sent := session.sent ++ bytes }
          asking fun moment member => writes moment (List.mem_cons_of_mem _ member)
        refine ⟨?_, info, bytes ++ sent, ?_, ?_⟩
        · simpa [state] using states
        · rw [same, List.append_assoc]
        · rw [List.map_cons, answer]
          exact .written answers

/-- What a client is sent that asks for no login: nothing before a handshake has
taken it to `Status`, and from there the answers of its frames. -/
def AnsweredFrom (wire : StatusWire) (config : Config) (session : Session) (frames : List Frame)
    (result : Session × Option Ending) : Prop :=
  ∃ greeting asked sent, frames = greeting ++ asked ∧ (∀ frame ∈ greeting, frame.state = .handshake) ∧
    (∀ frame ∈ asked, frame.state = .status) ∧
    (asked ≠ [] → ∃ earlier entering handshake, greeting = earlier ++ [entering] ∧
      entering.accepted wire = some (handshake, .status) ∧
      result.1.clientInfo = { session.clientInfo with
        protocol := some handshake.protocolVersion.toUInt32, handshake := some handshake }) ∧
    result.1.sent = session.sent ++ sent ∧
    Answers result.2 (asked.map
      (·.answer wire config (session.client.setState .status) result.1.clientInfo)) sent

/-- A connection that ends with a frame of its greeting is sent nothing. -/
private theorem AnsweredFrom.ended {frames : List Frame} {result : Session × Option Ending}
    (state : ∀ frame ∈ frames, frame.state = .handshake) (sent : result.1.sent = session.sent) :
    AnsweredFrom wire config session frames result :=
  ⟨frames, [], [], by simp, state, by simp, fun some => absurd rfl some, by simp [sent], .none⟩

/-- A greeting that stays in `Handshake` changes nothing of what follows. -/
private theorem AnsweredFrom.greets {next : Session} {frame : Frame} {frames : List Frame}
    {result : Session × Option Ending} (answered : AnsweredFrom wire config next frames result)
    (state : frame.state = .handshake) (sent : next.sent = session.sent)
    (username : next.clientInfo.username = session.clientInfo.username)
    (client : next.client.setState .status = session.client.setState .status) :
    AnsweredFrom wire config session (frame :: frames) result := by
  obtain ⟨greeting, asked, bytes, rfl, greets, asks, entered, same, answers⟩ := answered
  refine ⟨frame :: greeting, asked, bytes, rfl, ?_, asks, fun some => ?_, by rw [same, sent], ?_⟩
  · simpa [state] using greets
  · obtain ⟨earlier, entering, handshake, rfl, accepted, info⟩ := entered some
    refine ⟨frame :: earlier, entering, handshake, rfl, accepted, ?_⟩
    simp only [info, username]
  · rw [← client]
    exact answers

/-- From `Handshake`, a client that asks for no login gets the answers of what it
asks in `Status`. -/
theorem answers_handshake (session : Session) {moments : List Moment}
    (greeting : session.client.state = .handshake)
    (writes : ∀ moment ∈ moments, moment.writes = true)
    (noLogin : ∀ frame ∈ processed wire config moments session, ∀ handshake,
      frame.accepted wire ≠ some (handshake, .login)) :
    AnsweredFrom wire config session (processed wire config moments session)
      (serveAfter wire config moments session) := by
  induction moments generalizing session with
  | nil => exact .ended config (by simp [processed]) rfl
  | cons moment moments ih =>
    have goOn : ∀ moment ∈ moments, moment.writes = true :=
      fun moment member => writes moment (List.mem_cons_of_mem _ member)
    rw [serveAfter]
    cases read : readFrame wire moment session with
    | none =>
      obtain ⟨conn, ending, closed, -⟩ := serveStep_of_no_frame config read
      rw [processed, read, closed]
      exact .ended config (by simp) rfl
    | some found =>
      obtain ⟨frame, conn⟩ := found
      obtain ⟨state, accepts⟩ := serveStep_handshake config greeting read
      rw [processed_cons_of_frame config moments read] at noLogin ⊢
      cases accepted : frame.accepted wire with
      | none =>
        rw [accepted] at accepts
        obtain ⟨ending, stepped, -⟩ := accepts
        rw [stepped] at noLogin ⊢
        cases ending with
        | some ending => exact .ended config (by simp [state]) rfl
        | none =>
          have rest := ih { session with conn } greeting goOn
            fun frame member => noLogin frame (List.mem_cons_of_mem _ member)
          exact rest.greets config state rfl rfl rfl
      | some found =>
        obtain ⟨handshake, newState⟩ := found
        rw [accepted] at accepts
        obtain ⟨next, stepped, client, info, sent⟩ := accepts
        rw [stepped] at noLogin ⊢
        cases newState with
        | login => exact absurd accepted (noLogin frame List.mem_cons_self handshake)
        | play => exact absurd rfl (Frame.accepted_ne_play accepted)
        | handshake =>
          have rest := ih next (congrArg Client.state client) goOn
            fun frame member => noLogin frame (List.mem_cons_of_mem _ member)
          exact rest.greets config state sent (by rw [info])
            (congrArg (·.setState .status) client)
        | status =>
          obtain ⟨states, kept, bytes, same, answers⟩ :=
            answers_status config next (congrArg Client.state client) goOn
          refine ⟨[frame], _, bytes, rfl, by simp [state], states, fun _ => ?_, same.trans (sent ▸ rfl), ?_⟩
          · exact ⟨[], frame, handshake, rfl, accepted, kept.trans info⟩
          · rw [kept, ← client]
            exact answers

end

/-- A client whose accepted handshakes ask for no login is never handed over, and
as long as its writes go through it is sent the answers to the requests and pings
that it makes in `Status`, in their order, and nothing else. -/
theorem status_client_only_answered (wire : StatusWire) (config : Config) (peer : SocketAddr)
    (reads : List Read) (moments : List Moment)
    (noLogin : ∀ frame ∈ processed wire config moments (.new (.new peer) reads), ∀ handshake,
      frame.accepted wire ≠ some (handshake, .login)) :
    (∀ handover, (serveAfter wire config moments (.new (.new peer) reads)).2 ≠
        some (.occupied handover)) ∧
      ((∀ moment ∈ moments, moment.writes = true) →
        AnsweredFrom wire config (.new (.new peer) reads)
          (processed wire config moments (.new (.new peer) reads))
          (serveAfter wire config moments (.new (.new peer) reads))) :=
  ⟨serveAfter_unoccupied config (.inl rfl) noLogin, fun writes => answers_handshake config _ rfl writes noLogin⟩

/-- A handshake for the status, a request and a ping, in two chunks. -/
private def statusClient : List Read :=
  [.data [7, 0, 47, 1, 120, 99, 221, 1, 1], .data (0 :: RawPacket.frame ⟨1, encodeTime 1700000000⟩)]

theorem status_client_only_answered_pings :
    let session : Session := .new .dummy statusClient
    let moments : List Moment := .replicate 4 { favicon := "data:image/png;base64,iVBORw0KGgo=" }
    (∀ handover, (serveAfter plainStatusWire {} moments session).2 ≠ some (.occupied handover)) ∧
      AnsweredFrom plainStatusWire {} session (processed plainStatusWire {} moments session)
        (serveAfter plainStatusWire {} moments session) ∧
      (serveAfter plainStatusWire {} moments session).1.sent =
        RawPacket.frame ⟨0, encodeStatus
          { version := ⟨PROTO_DEFAULT_VERSION, PROTO_DEFAULT_PROTOCOL⟩, players := ⟨0, 0⟩
            description := ({} : Config).motd.sleeping, favicon := "data:image/png;base64,iVBORw0KGgo=" }⟩ ++
        RawPacket.frame ⟨1, encodeTime 1700000000⟩ := by
  intro session moments
  have requested : (processed plainStatusWire {} moments session).map (·.accepted plainStatusWire) =
      [some (⟨47, "x", 25565, 1⟩, .status), none, none] := by decide +kernel
  have noLogin : ∀ frame ∈ processed plainStatusWire {} moments session, ∀ handshake,
      frame.accepted plainStatusWire ≠ some (handshake, .login) := by
    intro frame member handshake login
    have named : some (handshake, ClientState.login) ∈ (processed plainStatusWire {} moments session).map
        (·.accepted plainStatusWire) := login ▸ List.mem_map_of_mem member
    rw [requested] at named
    simp at named
  obtain ⟨unoccupied, answered⟩ :=
    status_client_only_answered plainStatusWire {} ⟨.v4 0, 0⟩ statusClient moments noLogin
  exact ⟨unoccupied, answered (by simp [moments]), by decide +kernel⟩

end PlexPaper
