import PlexPaper.Status
import PlexPaper.StatusFormat

/-! Who wakes the server. The gate asks for the lockout, then for a ban, and then
looks the username up in the whitelist, but only where the login packet gave one:
a packet that does not decode passes a loaded whitelist. -/
namespace PlexPaper

section Gate

variable (wire : StatusWire) (config : Config)

/-- The login packet that this iteration reads, if it reads one. -/
def loginStartPacket (session : Session) : Option RawPacket :=
  match readPacket wire.toCodecs session.client session.conn with
  | (.ok (some (packet, _)), _) =>
    if session.client.state = .login ∧ packet.id = wire.serverLoginStart then some packet else none
  | _ => none

/-- The first two checks let the peer through. -/
def OpenTo (peer : IpAddr) (moment : Moment) : Prop :=
  config.lockout.enabled = false ∧ ¬ moment.bannedIps.Active wire.parseExpiry moment.now peer

/-- The rule for waking the server: no lockout, no ban in force, and a name from
the lists where a whitelist is loaded. -/
def Authorized (peer : IpAddr) (final : Final) : Prop :=
  OpenTo wire config peer final.moment ∧
    ∀ list, final.moment.whitelist = some list → ∃ packet username,
      loginStartPacket wire final.before = some packet ∧
      wire.decodeLoginStart packet.data = some username ∧
      (username ∈ list.whitelist ∨ username ∈ list.ops)

/-- A login packet that does not decode comes to the last check with a whitelist
loaded. -/
def Unnamed (peer : IpAddr) (final : Final) : Prop :=
  OpenTo wire config peer final.moment ∧ final.moment.whitelist ≠ none ∧
    ∃ packet, loginStartPacket wire final.before = some packet ∧
      wire.decodeLoginStart packet.data = none

/-- The step neither hands the client over nor takes it for another. -/
def Stays (session : Session) (step : Session × Option Ending) : Prop :=
  step.1.client.peer = session.client.peer ∧ ∀ handover, step.2 ≠ some (.occupied handover)

theorem Stays.again {session next : Session} (peer : next.client.peer = session.client.peer) :
    Stays session (next, none) := ⟨peer, nofun⟩

theorem Stays.closed {session next : Session} (peer : next.client.peer = session.client.peer) :
    Stays session (next, some .closed) := ⟨peer, nofun⟩

theorem Stays.failed {session next : Session} (peer : next.client.peer = session.client.peer)
    (fault : Fault) : Stays session (next, some (.failed fault)) := ⟨peer, nofun⟩

variable (moment : Moment) (session : Session)

theorem write_stays (bytes : Outcome (List UInt8)) : Stays session (session.write moment bytes) := by
  cases bytes with
  | error fault => exact .failed rfl fault
  | ok bytes =>
    simp only [Session.write]
    split
    · exact .again rfl
    · exact .failed rfl .err

theorem kickAndBreak_stays (msg : String) :
    Stays session (kickAndBreak wire moment session msg) := by
  have writing := write_stays moment session (kick wire session.client msg)
  unfold kickAndBreak
  rcases wrote : session.write moment (kick wire session.client msg) with ⟨next, _ | ending⟩
  · rw [wrote] at writing
    exact .closed writing.1
  · rw [wrote] at writing
    exact writing

theorem serveHandshake_stays (packet : RawPacket) (raw : List UInt8) :
    Stays session (serveHandshake wire session packet raw) := by
  unfold serveHandshake
  split
  · exact .closed rfl
  · split
    · exact .closed rfl
    · exact .again rfl

/-- The gate lets a client through that is not locked out, not banned, and whose
name is listed if it has one. -/
theorem serveLoginStart_wakes_iff (packet : RawPacket) (raw : List UInt8) :
    (∃ handover, (serveLoginStart wire config moment session packet raw).2 =
        some (.occupied handover)) ↔
      OpenTo wire config session.client.peer.ip moment ∧
        ∀ username, wire.decodeLoginStart packet.data = some username →
          isWhitelisted moment.whitelist username = true := by
  have kicked (session : Session) (msg : String) :
      ¬ ∃ handover, (kickAndBreak wire moment session msg).2 = some (.occupied handover) :=
    fun ⟨handover, occupied⟩ => (kickAndBreak_stays wire moment session msg).2 handover occupied
  unfold serveLoginStart OpenTo
  by_cases lockout : config.lockout.enabled = true
  · simp [lockout, kicked]
  · have notBanned := moment.bannedIps.get_filter_eq_none_iff wire.parseExpiry moment.now
      session.client.peer.ip
    simp only [lockout, Bool.false_eq_true, if_false]
    cases entry : (moment.bannedIps.get session.client.peer.ip).filter
      (·.isBanned wire.parseExpiry moment.now) with
    | some ban =>
      rw [entry] at notBanned
      simp only [kicked, ← notBanned]
      simp
    | none =>
      rw [entry] at notBanned
      have opened : config.lockout.enabled = false ∧
          ¬ moment.bannedIps.Active wire.parseExpiry moment.now session.client.peer.ip :=
        ⟨by simpa using lockout, notBanned.mp rfl⟩
      simp only [opened, true_and]
      cases name : wire.decodeLoginStart packet.data with
      | none => simp
      | some username =>
        cases listed : isWhitelisted moment.whitelist username with
        | true => simp [listed]
        | false => simp [listed, kicked]

theorem serveLoginStart_peer (packet : RawPacket) (raw : List UInt8) :
    (serveLoginStart wire config moment session packet raw).1.client.peer = session.client.peer := by
  unfold serveLoginStart
  simp only
  split
  · exact (kickAndBreak_stays wire moment _ _).1
  · split
    · exact (kickAndBreak_stays wire moment _ _).1
    · split
      · exact (kickAndBreak_stays wire moment _ _).1
      · rfl

/-- An iteration comes to the gate, or leaves the client where it is. -/
theorem serveStep_cases :
    (loginStartPacket wire session = none ∧ Stays session (serveStep wire config moment session)) ∨
      ∃ packet raw conn, loginStartPacket wire session = some packet ∧
        serveStep wire config moment session =
          serveLoginStart wire config moment { session with conn } packet raw := by
  unfold serveStep loginStartPacket
  rcases readPacket wire.toCodecs session.client session.conn with
    ⟨(_ | _) | (_ | ⟨packet, raw⟩), conn⟩
  · exact .inl ⟨rfl, .closed rfl⟩
  · exact .inl ⟨rfl, .failed rfl .panic⟩
  · exact .inl ⟨rfl, .closed rfl⟩
  · dsimp only
    by_cases gate : session.client.state = .login ∧ packet.id = wire.serverLoginStart
    · refine .inr ⟨packet, raw, conn, if_pos gate, ?_⟩
      simp [gate.1, gate.2]
    · refine .inl ⟨if_neg gate, ?_⟩
      split
      · exact serveHandshake_stays wire { session with conn } packet raw
      · split
        · exact write_stays moment { session with conn } _
        · split
          · exact write_stays moment { session with conn } _
          · exact .again rfl

theorem serveStep_wakes_iff :
    (∃ handover, (serveStep wire config moment session).2 = some (.occupied handover)) ↔
      ∃ packet, loginStartPacket wire session = some packet ∧
        OpenTo wire config session.client.peer.ip moment ∧
        ∀ username, wire.decodeLoginStart packet.data = some username →
          isWhitelisted moment.whitelist username = true := by
  rcases serveStep_cases wire config moment session with
    ⟨none, stays⟩ | ⟨packet, raw, conn, found, same⟩
  · constructor
    · rintro ⟨handover, occupied⟩
      exact absurd occupied (stays.2 handover)
    · rintro ⟨packet, found, -⟩
      cases none.symm.trans found
  · rw [same, serveLoginStart_wakes_iff]
    simp [found]

theorem serveStep_peer :
    (serveStep wire config moment session).1.client.peer = session.client.peer := by
  rcases serveStep_cases wire config moment session with
    ⟨-, stays⟩ | ⟨packet, raw, conn, -, same⟩
  · exact stays.1
  · rw [same, serveLoginStart_peer]

/-- A connection ends with an iteration of its own, for the same peer. -/
theorem serve_final {session : Session} {moments : List Moment} {final : Final}
    (served : serve wire config moments session = some final) :
    serveStep wire config final.moment final.before = (final.after, some final.ending) ∧
      final.before.client.peer = session.client.peer := by
  induction moments generalizing session with
  | nil => cases served
  | cons moment moments ih =>
    rw [serve] at served
    rcases step : serveStep wire config moment session with ⟨next, _ | ending⟩
    · rw [step] at served
      obtain ⟨last, same⟩ := ih served
      have peer := serveStep_peer wire config moment session
      rw [step] at peer
      exact ⟨last, same.trans peer⟩
    · rw [step] at served
      cases served
      exact ⟨step, rfl⟩

end Gate

/-- Whoever is handed over was authorized to wake the server, in every run of the
loop, exactly when no login packet without a readable name comes to a loaded
whitelist. -/
theorem wake_authorized_iff (wire : StatusWire) (config : Config) (client : Client)
    (reads : List Read) (moments : List Moment) :
    (∀ final handover, serve wire config moments (.new client reads) = some final →
        final.ending = .occupied handover → Authorized wire config client.peer.ip final) ↔
      ∀ final, serve wire config moments (.new client reads) = some final →
        ¬ Unnamed wire config client.peer.ip final := by
  constructor
  · rintro authorized final served ⟨opened, loaded, packet, found, unread⟩
    obtain ⟨last, peer⟩ := serve_final wire config served
    have wakes : ∃ handover, (serveStep wire config final.moment final.before).2 =
        some (.occupied handover) := by
      refine (serveStep_wakes_iff wire config _ _).mpr ⟨packet, found, peer ▸ opened, ?_⟩
      intro username read
      cases unread.symm.trans read
    obtain ⟨handover, occupied⟩ := wakes
    rw [last] at occupied
    obtain ⟨-, listed⟩ := authorized final handover served (Option.some.inj occupied)
    obtain ⟨list, some⟩ := Option.ne_none_iff_exists'.mp loaded
    obtain ⟨named, username, same, read, -⟩ := listed list some
    cases found.symm.trans same
    cases unread.symm.trans read
  · intro named final handover served occupied
    obtain ⟨last, peer⟩ := serve_final wire config served
    obtain ⟨packet, found, opened, listed⟩ := (serveStep_wakes_iff wire config _ _).mp
      ⟨handover, by rw [last, occupied]⟩
    rw [peer] at opened
    refine ⟨opened, fun list loaded => ?_⟩
    cases read : wire.decodeLoginStart packet.data with
    | none => exact absurd ⟨opened, by simp [loaded], packet, found, read⟩ (named final served)
    | some username =>
      refine ⟨packet, username, found, read, ?_⟩
      exact (isWhitelisted_iff _ username).mp (listed username read) list loaded

/-- The packet formats of `minecraft_protocol`. No date is read. -/
def plainStatusWire : StatusWire where
  toCodecs := plainCodecs
  serverHandshake := 0
  serverStatus := 0
  serverPing := 1
  serverLoginStart := 0
  decodeHandshake data := do
    let (read, protocolVersion) ← readVarInt plainCodecs data
    let (serverAddr, rest) ← readText plainCodecs (data.drop read)
    let high ← rest.head?
    let low ← rest.tail.head?
    let (_, nextState) ← readVarInt plainCodecs (rest.drop 2)
    return { protocolVersion, serverAddr, nextState
             serverPort := high.toUInt16 * 256 + low.toUInt16 }
  decodeLoginStart data := (readText plainCodecs data).map (·.1)
  encodeStatusResponse status := some (encodeStatus status)
  loginDisconnect reason := ⟨0, some (encodeMessage reason)⟩
  gameDisconnect reason := ⟨0x1A, some (encodeMessage reason)⟩
  parseExpiry _ := none

/-- A handshake for a login, and a login packet that ends before the name. -/
def namelessLogin : List Read := [.data [7, 0, 47, 1, 120, 99, 221, 2], .data [1, 0]]

/-- With an empty whitelist loaded, that client wakes the server. -/
theorem nameless_login_wakes :
    ¬ ∀ (wire : StatusWire) (config : Config) (client : Client) (reads : List Read)
        (moments : List Moment) (final : Final) (handover : Handover),
      serve wire config moments (.new client reads) = some final →
        final.ending = .occupied handover → Authorized wire config client.peer.ip final := by
  intro authorized
  obtain ⟨final, handover, served, occupied, loaded⟩ : ∃ final handover,
      serve plainStatusWire {} [{}, { whitelist := some {} }] (.new .dummy namelessLogin) =
        some final ∧ final.ending = .occupied handover ∧ final.moment.whitelist = some {} :=
    ⟨_, _, rfl, rfl, rfl⟩
  obtain ⟨-, listed⟩ := authorized _ _ _ _ _ final handover served occupied
  obtain ⟨packet, username, -, -, none⟩ := listed {} loaded
  simp at none

end PlexPaper
