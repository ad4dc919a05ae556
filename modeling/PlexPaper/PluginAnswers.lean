import PlexPaper.PacketSafety
import PlexPaper.LobbyHandover

/-! The answers to login plugin requests. Each request is answered once and in its turn,
and what is left to ask is where a login loop panics: at a channel that is not the one
asserted, and at a negative data length in a frame or in a wrapped packet. -/
namespace PlexPaper
open Tasks Outcome

section

variable {ModList JoinGame : Type} (wire : Wire ModList JoinGame) (config : Config)

/-- The states of a loop that reads packets: its client and its connection at each call of
`read_packet`. -/
def visits (lib : Codecs) (goesOn : Client → RawPacket → Option Client) :
    (rounds : Nat) → Client → Conn → List (Client × Conn)
  | 0, _, _ => []
  | rounds + 1, client, conn => (client, conn) ::
    match readPacket lib client conn with
    | (.ok (some (packet, _)), after) =>
      match goesOn client packet with
      | some next => visits lib goesOn rounds next after
      | none => []
    | _ => []

/-- The request in a packet that the login takes for one. Other ids are looked at first. -/
def pluginRequest? (earlier : List UInt8) (client : Client) (packet : RawPacket) :
    Option LoginPluginRequest :=
  if client.state = .login ∧ packet.id ∉ earlier ∧ packet.id = wire.clientLoginPluginRequest then
    wire.decodeLoginPluginRequest packet.data
  else none

/-- The request that is read in such a state. -/
def requestAt (earlier : List UInt8) (visit : Client × Conn) : Option (Client × LoginPluginRequest) :=
  match readPacket wire.toCodecs visit.1 visit.2 with
  | (.ok (some (packet, _)), _) => (pluginRequest? wire earlier visit.1 packet).map (visit.1, ·)
  | _ => none

/-- The bytes are a `LoginPluginResponse` to this request. -/
def Responds (asked : Client × LoginPluginRequest) (bytes : List UInt8) : Prop :=
  ∃ successful data, writePacket wire.toCodecs (wire.loginPluginResponse
    { messageId := asked.2.messageId, successful, data }) asked.1 = .ok bytes

/-- The request is one that the Forge answer panics at. -/
def Traps (asked : Client × LoginPluginRequest) : Prop :=
  config.server.forge = true ∧ (asked.2.channel ≠ CHANNEL_LOGIN_WRAPPER ∨
    ∃ wrapper, wire.decodeLoginWrapper asked.2.data = some wrapper ∧
      NegativeLength wire.toCodecs asked.1 wrapper.packet)

/-- How either loop answers a request. -/
def pluginAnswer (asked : Client × LoginPluginRequest) : Outcome (List UInt8) :=
  if config.server.forge then respondLoginPluginRequest wire asked.1 asked.2
  else writePacket wire.toCodecs (wire.loginPluginResponse
    { messageId := asked.2.messageId, successful := false, data := [] }) asked.1

/-- Neither the frame in front nor a request in it makes the loop panic. -/
def SafeAt (earlier : List UInt8) (visit : Client × Conn) : Prop :=
  ¬ NegativeFront wire.toCodecs visit.1 visit.2 ∧
    ∀ asked ∈ requestAt wire earlier visit, ¬ Traps wire config asked

/-- A loop has answered what it came to: it returns with nothing left to answer or ends
with `Err`. -/
def Answered {α Stage : Type} (nothing : Stage) (result : Outcome α) (left : Stage) : Prop :=
  result ≠ .error .panic ∧ ∀ value, result = .ok value → left = nothing

/-! ## One answer -/

variable {wire config} {lib : Codecs}

@[simp] theorem answered_error {α Stage : Type} {fault : Fault} {nothing left : Stage} :
    Answered nothing (.error fault : Outcome α) left ↔ fault ≠ .panic := by
  simp [Answered]

@[simp] theorem answered_ok {α Stage : Type} {value : α} {nothing left : Stage} :
    Answered nothing (.ok value) left ↔ left = nothing := by
  simp [Answered]

theorem answered_err {α Stage : Type} {nothing left : Stage} :
    Answered nothing (.error .err : Outcome α) left := by
  simp

theorem encodeWithoutLen_returns (standard : lib.Standard) (packet : RawPacket) (client : Client) :
    packet.encodeWithoutLen lib client ≠ .error .panic := by
  unfold RawPacket.encodeWithoutLen
  dsimp only
  split
  · rename_i compressed
    by_cases large : asI32 packet.payload.length > client.compressed
    · rcases packs : lib.zlibCompress packet.payload with _ | packed
      · rw [RawPacket.payload] at large packs
        simp only [RawPacket.encodeCompressed, standard.encodeVarInt, bind, Except.bind,
          if_pos large, packs, question]
        intro same
        cases same
      · simp [RawPacket.encodeCompressed_large standard large packs]
    · simp [RawPacket.encodeCompressed_small standard large]
  · simp [RawPacket.encodeUncompressed_eq standard]

/-- The `unwrap` of the encoder never fails. -/
theorem writePacket_returns (standard : lib.Standard) (packet : Outgoing) (client : Client) :
    writePacket lib packet client ≠ .error .panic := by
  intro panics
  rcases bind_error.mp panics with failed | ⟨data, -, panics⟩
  · exact question_ne_panic _ failed
  rcases bind_error.mp panics with failed | ⟨payload, -, panics⟩
  · exact encodeWithoutLen_returns standard _ _ failed
  rcases bind_error.mp panics with failed | ⟨front, -, panics⟩
  · exact question_ne_panic _ failed
  · cases panics

theorem writePacket_nonempty (standard : lib.Standard) {packet : Outgoing} {client : Client}
    {bytes : List UInt8} (written : writePacket lib packet client = .ok bytes) : bytes ≠ [] := by
  obtain ⟨data, -, encoded⟩ := bind_ok.mp written
  obtain ⟨payload, encodes, -⟩ := bind_ok.mp encoded
  rw [RawPacket.encodeWithLen_eq standard encodes] at encoded
  cases encoded
  have front := varInt_length_pos (asI32 payload.length)
  intro empty
  rw [(List.append_eq_nil_iff.mp empty).1] at front
  exact Nat.lt_irrefl _ front

/-- What answers a Forge packet is a response to the message. -/
theorem respondForgeLoginPacket_answers {client : Client} {request : LoginPluginRequest}
    {channel : String} {packet : Outgoing} {bytes : List UInt8}
    (responds : respondForgeLoginPacket wire client request.messageId channel packet = .ok bytes) :
    Responds wire (client, request) bytes := by
  obtain ⟨data, -, rest⟩ := bind_ok.mp responds
  obtain ⟨payload, -, rest⟩ := bind_ok.mp rest
  obtain ⟨wrapped, -, written⟩ := bind_ok.mp rest
  exact ⟨true, wrapped, written⟩

theorem respondForgeLoginPacket_returns (standard : wire.toCodecs.Standard) (client : Client)
    (messageId : Int32) (channel : String) (packet : Outgoing) :
    respondForgeLoginPacket wire client messageId channel packet ≠ .error .panic := by
  intro panics
  rcases bind_error.mp panics with failed | ⟨data, -, panics⟩
  · exact question_ne_panic _ failed
  rcases bind_error.mp panics with failed | ⟨payload, -, panics⟩
  · exact encodeWithoutLen_returns standard _ _ failed
  rcases bind_error.mp panics with failed | ⟨wrapped, -, panics⟩
  · exact question_ne_panic _ failed
  · exact writePacket_returns standard _ _ panics

/-- The wrapped packet is taken out of a request, which is where the answer may panic. -/
theorem decodeForgeLoginPacket_ok {client : Client} {request : LoginPluginRequest}
    {decoded : Int32 × LoginWrapper × RawPacket}
    (decodes : decodeForgeLoginPacket wire client request = .ok decoded) :
    decoded.1 = request.messageId := by
  unfold decodeForgeLoginPacket at decodes
  split at decodes
  · cases decodes
  · obtain ⟨wrapper, -, rest⟩ := bind_ok.mp decodes
    obtain ⟨packet, -, ⟨⟩⟩ := bind_ok.mp rest
    rfl

theorem decodeForgeLoginPacket_panics_iff (client : Client) (request : LoginPluginRequest) :
    decodeForgeLoginPacket wire client request = .error .panic ↔
      request.channel ≠ CHANNEL_LOGIN_WRAPPER ∨
        ∃ wrapper, wire.decodeLoginWrapper request.data = some wrapper ∧
          NegativeLength wire.toCodecs client wrapper.packet := by
  unfold decodeForgeLoginPacket
  by_cases other : request.channel ≠ CHANNEL_LOGIN_WRAPPER
  · rw [if_pos other]
    exact iff_of_true rfl (.inl other)
  · rw [if_neg other]
    simp only [other, false_or]
    constructor
    · intro panics
      rcases bind_error.mp panics with failed | ⟨wrapper, decoded, panics⟩
      · exact absurd failed (question_ne_panic _)
      · rcases bind_error.mp panics with failed | ⟨packet, -, panics⟩
        · exact ⟨wrapper, question_ok.mp decoded,
            (RawPacket.decodeWithoutLen_panics_iff ..).mp failed⟩
        · cases panics
    · rintro ⟨wrapper, decoded, negative⟩
      refine bind_error.mpr (.inr ⟨wrapper, question_ok.mpr decoded, ?_⟩)
      exact bind_error.mpr (.inl ((RawPacket.decodeWithoutLen_panics_iff ..).mpr negative))

/-- What answers a Forge request is a response to it. -/
theorem respondLoginPluginRequest_answers {client : Client} {request : LoginPluginRequest}
    {bytes : List UInt8} (responds : respondLoginPluginRequest wire client request = .ok bytes) :
    Responds wire (client, request) bytes := by
  obtain ⟨⟨messageId, wrapper, packet⟩, decodes, rest⟩ := bind_ok.mp responds
  cases decodeForgeLoginPacket_ok decodes
  dsimp only at rest
  split at rest
  · exact respondForgeLoginPacket_answers rest
  · obtain ⟨modList, -, rest⟩ := bind_ok.mp rest
    exact respondForgeLoginPacket_answers rest

theorem respondLoginPluginRequest_panics_iff (standard : wire.toCodecs.Standard) (client : Client)
    (request : LoginPluginRequest) :
    respondLoginPluginRequest wire client request = .error .panic ↔
      request.channel ≠ CHANNEL_LOGIN_WRAPPER ∨
        ∃ wrapper, wire.decodeLoginWrapper request.data = some wrapper ∧
          NegativeLength wire.toCodecs client wrapper.packet := by
  rw [← decodeForgeLoginPacket_panics_iff]
  constructor
  · intro panics
    rcases bind_error.mp panics with failed | ⟨⟨messageId, wrapper, packet⟩, -, panics⟩
    · exact failed
    · dsimp only at panics
      split at panics
      · exact (respondForgeLoginPacket_returns standard _ _ _ _ panics).elim
      · rcases bind_error.mp panics with failed | ⟨modList, -, panics⟩
        · exact absurd failed (question_ne_panic _)
        · exact (respondForgeLoginPacket_returns standard _ _ _ _ panics).elim
  · exact fun panics => bind_error.mpr (.inl panics)

theorem pluginAnswer_answers {asked : Client × LoginPluginRequest} {bytes : List UInt8}
    (answered : pluginAnswer wire config asked = .ok bytes) : Responds wire asked bytes := by
  unfold pluginAnswer at answered
  split at answered
  · exact respondLoginPluginRequest_answers answered
  · exact ⟨false, [], answered⟩

theorem pluginAnswer_nonempty (standard : wire.toCodecs.Standard) {asked : Client × LoginPluginRequest}
    {bytes : List UInt8} (answered : pluginAnswer wire config asked = .ok bytes) : bytes ≠ [] := by
  obtain ⟨successful, data, written⟩ := pluginAnswer_answers answered
  exact writePacket_nonempty standard written

variable (config) in
theorem pluginAnswer_panics_iff (standard : wire.toCodecs.Standard)
    (asked : Client × LoginPluginRequest) :
    pluginAnswer wire config asked = .error .panic ↔ Traps wire config asked := by
  unfold pluginAnswer Traps
  by_cases forge : config.server.forge = true
  · rw [if_pos forge, respondLoginPluginRequest_panics_iff standard]
    exact (and_iff_right forge).symm
  · rw [if_neg forge]
    exact iff_of_false (writePacket_returns standard _ _) fun trap => forge trap.1

/-- Safe is where neither reading nor answering panics. -/
theorem safeAt_iff (standard : wire.toCodecs.Standard) {earlier : List UInt8} {visit : Client × Conn} :
    SafeAt wire config earlier visit ↔ (readPacket wire.toCodecs visit.1 visit.2).1 ≠ .error .panic ∧
      ∀ asked ∈ requestAt wire earlier visit, pluginAnswer wire config asked ≠ .error .panic := by
  simp only [SafeAt, ← readPacket_panics_iff, ← pluginAnswer_panics_iff config standard, ne_eq]

/-- A state in which no packet is read is safe unless reading panics. -/
theorem safeAt_unread {earlier : List UInt8} {client : Client} {conn after : Conn}
    {result : Outcome (Option (RawPacket × List UInt8))}
    (read : readPacket wire.toCodecs client conn = (result, after))
    (no : ∀ sent, result ≠ .ok (some sent)) :
    SafeAt wire config earlier (client, conn) ↔ result ≠ .error .panic := by
  have front := readPacket_panics_iff wire.toCodecs client conn
  rw [read] at front
  have silent : requestAt wire earlier (client, conn) = none := by
    unfold requestAt
    rw [read]
    rcases result with _ | (_ | sent)
    · rfl
    · rfl
    · exact absurd rfl (no sent)
  simp [SafeAt, silent, ← front]

/-- One in which a packet is read is safe unless its request is a trap. -/
theorem safeAt_read {earlier : List UInt8} {client : Client} {conn after : Conn}
    {packet : RawPacket} {raw : List UInt8}
    (read : readPacket wire.toCodecs client conn = (.ok (some (packet, raw)), after)) :
    SafeAt wire config earlier (client, conn) ↔
      ∀ request ∈ pluginRequest? wire earlier client packet, ¬ Traps wire config (client, request) := by
  have front := readPacket_panics_iff wire.toCodecs client conn
  rw [read] at front
  simp [SafeAt, requestAt, read, ← front]

/-- What is asked in front of the connection is asked in the packet that is read. -/
theorem requestAt_eq {earlier : List UInt8} {client : Client} {conn after : Conn}
    {packet : RawPacket} {raw : List UInt8}
    (read : readPacket wire.toCodecs client conn = (.ok (some (packet, raw)), after)) :
    requestAt wire earlier (client, conn) =
      (pluginRequest? wire earlier client packet).map (client, ·) := by
  simp only [requestAt, read]

end

/-! ## The probe -/

namespace Probe
open Program

section

variable {ModList JoinGame : Type} (wire : Wire ModList JoinGame) (config : Config)

/-- How the probe goes on from a packet, first in the login and then in the wait for the
game data. -/
def goesOn (clientInfo : ClientInfo) (client : Client) (packet : RawPacket) : Option Client :=
  if client.state = .login then
    match loginStep wire config client packet with
    | .ok (.setCompression threshold) => some (client.setCompression threshold)
    | .ok (.respond _ _) | .ok .unhandled => some client
    | .ok .success => some (client.setState .play)
    | .error _ => none
  else if isJoinGame wire clientInfo packet.id then none
  else some client

/-- The ids that the probe looks at before it looks for a request. -/
def earlierIds : List UInt8 := [wire.clientSetCompression]

/-- Every send is the answer to the first request that is left. -/
abbrev answering : Discipline (Op JoinGame) Op.Reply where
  Stage := List (Client × LoginPluginRequest)
  advance
    | left, .send _, _ => left.tail
    | left, _, _ => left
  permits
    | left, .send bytes => ∃ asked ∈ left.head?, Responds wire asked bytes
    | _, _ => True

/-- All requests that the login of the probe comes to are answered in turn, unless it ends
with `Err`, and it never panics. -/
def AnswersRequests (clientInfo : ClientInfo) (limit : Nat) (client : Client) (conn : Conn)
    (forgePayload : List (List UInt8)) : Prop :=
  (loginLoop wire config clientInfo limit client conn forgePayload).Follows (answering wire)
    ((visits wire.toCodecs (goesOn wire config clientInfo) limit client conn).filterMap
      (requestAt wire (earlierIds wire)))
    (Answered [])

variable {wire config} {clientInfo : ClientInfo} {client : Client} {packet : RawPacket}

/-- A packet with a request is answered. -/
theorem loginStep_request {request : LoginPluginRequest}
    (asks : pluginRequest? wire (earlierIds wire) client packet = some request) :
    loginStep wire config client packet =
      LoginStep.respond config.server.forge <$> pluginAnswer wire config (client, request) := by
  unfold pluginRequest? at asks
  split at asks
  · rename_i facts
    obtain ⟨login, others, request⟩ := facts
    have other : packet.id ≠ wire.clientSetCompression := by simpa [earlierIds] using others
    simp only [loginStep, login, request, true_and, if_neg (request ▸ other), asks, question_some,
      if_pos, pluginAnswer]
    change (if config.server.forge = true then _ else _) = _
    split
    · rename_i forge
      simp [forge]
    · rename_i plain
      simp [plain]
  · cases asks

variable (config) in
/-- Any other packet neither is answered nor makes the probe panic. -/
theorem loginStep_other (login : client.state = .login)
    (silent : pluginRequest? wire (earlierIds wire) client packet = none) :
    loginStep wire config client packet ≠ .error .panic ∧
      ∀ record bytes, loginStep wire config client packet ≠ .ok (.respond record bytes) := by
  unfold loginStep
  simp only [login, true_and]
  by_cases compression : packet.id = wire.clientSetCompression
  · rw [if_pos compression]
    cases wire.decodeSetCompression packet.data <;> exact ⟨nofun, nofun⟩
  · rw [if_neg compression]
    by_cases request : packet.id = wire.clientLoginPluginRequest
    · have none : wire.decodeLoginPluginRequest packet.data = none := by
        rw [← silent, pluginRequest?, if_pos ⟨login, by simpa [earlierIds] using compression, request⟩]
      rw [if_pos request, none]
      exact ⟨nofun, nofun⟩
    · rw [if_neg request]
      split <;> exact ⟨nofun, nofun⟩

variable {limit : Nat} {conn : Conn}

/-- Behind the login nothing is asked. -/
theorem requestAt_play (play : client.state = .play) :
    requestAt wire (earlierIds wire) (client, conn) = none := by
  unfold requestAt
  rcases readPacket wire.toCodecs client conn with ⟨_ | (_ | ⟨packet, raw⟩), after⟩
  · rfl
  · rfl
  · simp [pluginRequest?, play]

/-- There the probe only looks for the game data. -/
theorem goesOn_play (play : client.state = .play) :
    goesOn wire config clientInfo client packet =
      if isJoinGame wire clientInfo packet.id then none else some client := by
  rw [goesOn, if_neg (by simp [play])]

theorem requests_play (play : client.state = .play) :
    (visits wire.toCodecs (goesOn wire config clientInfo) limit client conn).filterMap
      (requestAt wire (earlierIds wire)) = [] := by
  induction limit generalizing conn with
  | zero => rfl
  | succ limit ih =>
    rw [visits, List.filterMap_cons, requestAt_play play]
    rcases readPacket wire.toCodecs client conn with ⟨_ | (_ | ⟨packet, raw⟩), after⟩
    · rfl
    · rfl
    · dsimp only [Option.map_none]
      rw [goesOn_play play]
      by_cases joins : isJoinGame wire clientInfo packet.id = true
      · rw [if_pos joins]
        rfl
      · rw [if_neg joins]
        exact ih

/-- Waiting for the game data sends nothing, and panics exactly at such a frame. -/
theorem waitForServerJoinGameNoTimeout_answering (play : client.state = .play) :
    (waitForServerJoinGameNoTimeout wire client clientInfo limit conn).Follows (answering wire) []
        (Answered []) ↔
      ∀ visit ∈ visits wire.toCodecs (goesOn wire config clientInfo) limit client conn,
        SafeAt wire config (earlierIds wire) visit := by
  induction limit generalizing conn with
  | zero => simp [waitForServerJoinGameNoTimeout, visits]
  | succ limit ih =>
    rw [waitForServerJoinGameNoTimeout, visits, List.forall_mem_cons]
    rcases read : readPacket wire.toCodecs client conn with ⟨(_ | _) | (_ | ⟨packet, raw⟩), after⟩
    · rw [safeAt_unread read (by simp)]
      exact iff_of_true ⟨trivial, fun _ => ⟨trivial, fun _ => answered_err⟩⟩ ⟨by simp, by simp⟩
    · rw [safeAt_unread read (by simp)]
      exact iff_of_false (fun follows => (follows.2 ()).1 rfl) (by simp)
    · rw [safeAt_unread read (by simp)]
      exact iff_of_true ⟨trivial, fun _ => ⟨trivial, fun _ => answered_err⟩⟩ ⟨by simp, by simp⟩
    · have silent : pluginRequest? wire (earlierIds wire) client packet = none := by
        simp [pluginRequest?, play]
      rw [safeAt_read read, silent]
      refine Iff.trans ⟨fun follows => follows.2 (), fun follows => ⟨trivial, fun _ => follows⟩⟩ ?_
      refine Iff.trans ?_ (and_iff_right (by simp)).symm
      dsimp only
      rw [goesOn_play play]
      by_cases joins : isJoinGame wire clientInfo packet.id = true
      · rw [if_pos joins, if_pos joins]
        exact iff_of_true ⟨question_ne_panic _, fun _ _ => rfl⟩ (by simp)
      · rw [if_neg joins, if_neg joins]
        exact ih

/-- Its deadline can only make it end with `Err`. -/
theorem waitForServerJoinGame_answering (play : client.state = .play) :
    (waitForServerJoinGame wire client clientInfo limit conn).Follows (answering wire) []
        (Answered []) ↔
      ∀ visit ∈ visits wire.toCodecs (goesOn wire config clientInfo) limit client conn,
        SafeAt wire config (earlierIds wire) visit := by
  have quiet (stage) : (answering wire).QuietAt stage (.elapsed .joinGame) := ⟨trivial, fun _ => rfl⟩
  rw [← waitForServerJoinGameNoTimeout_answering play, waitForServerJoinGame, timeoutErr, follows_bind]
  constructor
  · intro follows
    have running : id false = false := rfl
    refine Follows.of_timeout running quiet
      (Follows.mono follows fun result left holds => ?_)
    rintro value rfl
    exact holds
  · intro follows
    refine (Follows.timeout quiet follows).mono fun result left holds => ?_
    cases result with
    | none => exact answered_err
    | some value => exact holds value rfl

/-- The login of the probe answers every request in turn exactly if it comes neither to a
frame nor to a request that makes it panic. -/
theorem answersRequests_iff (standard : wire.toCodecs.Standard) (login : client.state = .login)
    (forgePayload : List (List UInt8)) :
    AnswersRequests wire config clientInfo limit client conn forgePayload ↔
      ∀ visit ∈ visits wire.toCodecs (goesOn wire config clientInfo) limit client conn,
        SafeAt wire config (earlierIds wire) visit := by
  unfold AnswersRequests
  induction limit generalizing client conn forgePayload with
  | zero => simp [loginLoop, visits]
  | succ limit ih =>
    rw [loginLoop, visits, List.forall_mem_cons]
    rcases read : readPacket wire.toCodecs client conn with ⟨(_ | _) | (_ | ⟨packet, raw⟩), after⟩
    · rw [safeAt_unread read (by simp)]
      exact iff_of_true ⟨trivial, fun _ => ⟨trivial, fun _ => answered_err⟩⟩ ⟨by simp, by simp⟩
    · rw [safeAt_unread read (by simp)]
      exact iff_of_false (fun follows => (follows.2 ()).1 rfl) (by simp)
    · rw [safeAt_unread read (by simp)]
      exact iff_of_true ⟨trivial, fun _ => ⟨trivial, fun _ => answered_err⟩⟩ ⟨by simp, by simp⟩
    · rw [safeAt_read read, List.filterMap_cons, requestAt_eq read]
      refine Iff.trans ⟨fun follows => follows.2 (), fun follows => ⟨trivial, fun _ => follows⟩⟩ ?_
      dsimp only
      cases asks : pluginRequest? wire (earlierIds wire) client packet with
      | some request =>
        have traps := pluginAnswer_panics_iff config standard (client, request)
        rw [loginStep_request asks, goesOn, if_pos login, loginStep_request asks]
        cases answered : pluginAnswer wire config (client, request) with
        | error fault =>
          cases fault with
          | err =>
            refine iff_of_true answered_err ⟨?_, by simp⟩
            rintro _ ⟨⟩ trap
            cases answered.symm.trans (traps.mpr trap)
          | panic =>
            exact iff_of_false (fun follows => follows.1 rfl) fun safe =>
              safe.1 request rfl (traps.mp answered)
        | ok bytes =>
          have safe : ∀ other ∈ some request, ¬ Traps wire config (client, other) := by
            rintro _ ⟨⟩ trap
            cases answered.symm.trans (traps.mpr trap)
          refine Iff.trans ?_ (and_iff_right safe).symm
          refine Iff.trans ?_ (ih login (if config.server.forge then forgePayload ++ [raw]
            else forgePayload))
          refine ⟨fun follows => follows.2 true, fun rest =>
            ⟨⟨_, rfl, pluginAnswer_answers answered⟩, fun sent => ?_⟩⟩
          cases sent with
          | true => exact rest
          | false => exact answered_err
      | none =>
        obtain ⟨returns, silent⟩ := loginStep_other config login asks
        refine Iff.trans ?_ (and_iff_right (by simp)).symm
        rw [goesOn, if_pos login]
        rcases stepped : loginStep wire config client packet with
          (_ | _) | (threshold | ⟨record, bytes⟩ | _ | _)
        · exact iff_of_true answered_err (by simp)
        · exact absurd stepped returns
        · have mode : (client.setCompression threshold).state = .login := login
          exact ih mode forgePayload
        · exact absurd stepped (silent record bytes)
        · have play : (client.setState .play).state = .play := rfl
          refine Iff.trans ?_ (waitForServerJoinGame_answering play)
          dsimp only [Option.map_none]
          rw [requests_play play]
          change Follows _ (waitForServerJoinGame wire (client.setState .play) clientInfo limit after >>=
            _) _ _ ↔ _
          rw [follows_bind]
          constructor
          · refine fun follows => follows.mono fun result left holds => ?_
            cases result with
            | error fault => exact answered_error.mpr (answered_error.mp holds)
            | ok joinGame => exact answered_ok.mpr (answered_ok.mp ((holds.2 ()).2 true))
          · refine fun follows => follows.mono fun result left holds => ?_
            cases result with
            | error fault => exact answered_error.mpr (answered_error.mp holds)
            | ok joinGame =>
              exact ⟨trivial, fun _ => ⟨trivial, fun _ => answered_ok.mpr (answered_ok.mp holds)⟩⟩
        · exact ih login forgePayload

end

end Probe

/-! ## The lobby -/

namespace Lobby
open Program

section

variable {ModList JoinGame : Type} (wire : LobbyWire ModList JoinGame) (config : Config)

/-- How the lobby goes on from a packet. -/
def goesOn (client : Client) (packet : RawPacket) : Option Client :=
  match loginStep wire config client packet with
  | .ok (.setCompression threshold) => some (client.setCompression threshold)
  | .ok (.respond _) | .ok .unhandled => some client
  | .ok .success | .ok .refused | .error _ => none

/-- The ids that the lobby looks at before it looks for a request. -/
def earlierIds : List UInt8 := [wire.clientSetCompression, wire.clientEncryptionRequest]

/-- What is written to the server is the answer to the first request that is left, from its
first byte to its last. -/
abbrev answering : Discipline (Op JoinGame) Op.Reply where
  Stage := List (Client × LoginPluginRequest) × List UInt8
  advance
    | (left, unsent), .write .server frame offset, some (taken + 1) =>
      (if unsent = [] then left.tail else left, frame.drop (offset + (taken + 1)))
    | stage, _, _ => stage
  permits
    | (left, unsent), .write .server frame offset =>
      if unsent = [] then offset = 0 ∧ ∃ asked ∈ left.head?, Responds wire.toWire asked frame
      else frame.drop offset = unsent
    | _, _ => True

/-- All requests that the login of the lobby comes to are answered in turn, unless it ends
with `Err`, and it never panics. -/
def AnswersRequests (rounds : Nat) (client : Client) (conn : Conn) : Prop :=
  (loginLoop wire config rounds client conn).run.Follows (answering wire)
    ((visits wire.toCodecs (goesOn wire config) rounds client conn).filterMap
      (requestAt wire.toWire (earlierIds wire)), [])
    (Answered ([], []))

variable {wire config} {client : Client} {packet : RawPacket}

/-- A packet with a request is answered. -/
theorem loginStep_request {request : LoginPluginRequest}
    (asks : pluginRequest? wire.toWire (earlierIds wire) client packet = some request) :
    loginStep wire config client packet =
      LoginStep.respond <$> pluginAnswer wire.toWire config (client, request) := by
  unfold pluginRequest? at asks
  split at asks
  · rename_i facts
    obtain ⟨login, others, request⟩ := facts
    obtain ⟨compression, encryption⟩ :
        packet.id ≠ wire.clientSetCompression ∧ packet.id ≠ wire.clientEncryptionRequest := by
      simpa [earlierIds] using others
    simp only [loginStep, login, request, true_and, if_neg (request ▸ compression),
      if_neg (request ▸ encryption), asks, question_some, if_pos, pluginAnswer]
    change (if config.server.forge = true then _ else _) = _
    split
    · rfl
    · rfl
  · cases asks

variable (config) in
/-- Any other packet neither is answered nor makes the lobby panic. -/
theorem loginStep_other (silent : pluginRequest? wire.toWire (earlierIds wire) client packet = none) :
    loginStep wire config client packet ≠ .error .panic ∧
      ∀ bytes, loginStep wire config client packet ≠ .ok (.respond bytes) := by
  unfold loginStep
  by_cases compression : client.state = .login ∧ packet.id = wire.clientSetCompression
  · rw [if_pos compression]
    cases wire.decodeSetCompression packet.data <;> exact ⟨nofun, nofun⟩
  rw [if_neg compression]
  by_cases encryption : client.state = .login ∧ packet.id = wire.clientEncryptionRequest
  · rw [if_pos encryption]
    exact ⟨nofun, nofun⟩
  rw [if_neg encryption]
  by_cases request : client.state = .login ∧ packet.id = wire.clientLoginPluginRequest
  · have none : wire.decodeLoginPluginRequest packet.data = none := by
      have later : packet.id ∉ earlierIds wire := by
        simp only [earlierIds, List.mem_cons, List.not_mem_nil, or_false, not_or]
        exact ⟨fun same => compression ⟨request.1, same⟩, fun same => encryption ⟨request.1, same⟩⟩
      rw [← silent, pluginRequest?, if_pos ⟨request.1, later, request.2⟩]
    rw [if_pos request, none]
    exact ⟨nofun, nofun⟩
  · rw [if_neg request]
    split
    · exact ⟨nofun, nofun⟩
    · split <;> exact ⟨nofun, nofun⟩

section

variable {α : Type} {post : Outcome α → (answering wire).Stage → Prop}
  {stage : (answering wire).Stage}

/-- Reading from the server answers nothing. -/
theorem receive_then {conn : Conn}
    {rest : Outcome (Option (RawPacket × List UInt8)) × Conn → LobbyM JoinGame α} :
    (receive wire .server client conn >>= rest).run.Follows (answering wire) stage post ↔
      (rest (readPacket wire.toCodecs client conn)).run.Follows (answering wire) stage post := by
  have awaits (count : Nat) {post : Outcome Unit → (answering wire).Stage → Prop} :
      (awaitReads .server count : LobbyM JoinGame Unit).run.Follows (answering wire) stage post ↔
        post (.ok ()) stage := by
    induction count with
    | zero => exact Iff.rfl
    | succ count ih =>
      exact ⟨fun follows => ih.mp (follows.2 ()), fun holds => ⟨trivial, fun _ => ih.mpr holds⟩⟩
  rw [follows_except_bind]
  change (awaitReads .server _ >>= _).run.Follows _ _ _ ↔ _
  rw [follows_except_bind, awaits]
  exact Iff.rfl

/-- Closing the connection answers nothing. -/
theorem closeServer_follows (ends : post (.error .err) stage) :
    (closeServer : LobbyM JoinGame α).run.Follows (answering wire) stage post :=
  ⟨trivial, fun _ => ends⟩

/-- A frame that answers the first request is written whole, or the loop ends with `Err`. -/
theorem writeAll_then {asked : Client × LoginPluginRequest}
    {left : List (Client × LoginPluginRequest)} {frame : List UInt8} (nonempty : frame ≠ [])
    (answers : Responds wire.toWire asked frame) {rest : Unit → LobbyM JoinGame α}
    (ends : ∀ stage, post (.error .err) stage) :
    (writeAll .server frame >>= rest).run.Follows (answering wire) (asked :: left, []) post ↔
      (rest ()).run.Follows (answering wire) (left, []) post := by
  suffices ∀ polls offset (stage : (answering wire).Stage), frame.length ≤ polls + offset →
      (offset < frame.length → (answering wire).permits stage (.write .server frame offset) ∧
        ∀ taken : Nat, (answering wire).advance stage (.write .server frame offset)
          (some (taken + 1)) = (left, frame.drop (offset + (taken + 1)))) →
      (frame.length ≤ offset → stage = (left, [])) →
      ((writeFrom .server frame polls offset >>= rest).run.Follows (answering wire) stage post ↔
        (rest ()).run.Follows (answering wire) (left, []) post) from
    this _ 0 _ (Nat.le_refl _) (fun _ => ⟨⟨rfl, asked, rfl, answers⟩, fun _ => rfl⟩)
      (fun empty => absurd (List.eq_nil_of_length_eq_zero (Nat.le_zero.mp empty)) nonempty)
  intro polls
  induction polls with
  | zero =>
    intro offset stage enough _ complete
    rw [complete (by omega)]
    exact Iff.rfl
  | succ polls ih =>
    intro offset stage enough incomplete complete
    rw [writeFrom]
    by_cases done : frame.length ≤ offset
    · rw [if_pos done, complete done]
      exact Iff.rfl
    · rw [if_neg done]
      obtain ⟨permitted, advanced⟩ := incomplete (by omega)
      have goesOn (taken : Nat) :
          (writeFrom .server frame polls (offset + (taken + 1)) >>= rest).run.Follows (answering wire)
            (left, frame.drop (offset + (taken + 1))) post ↔
          (rest ()).run.Follows (answering wire) (left, []) post := by
        refine ih _ _ (by omega) (fun inside => ?_) fun complete => ?_
        · have unsent : frame.drop (offset + (taken + 1)) ≠ [] := by
            simpa [List.drop_eq_nil_iff] using inside
          exact ⟨by simp [unsent], fun _ => by simp [unsent]⟩
        · rw [List.drop_eq_nil_iff.mpr complete]
      constructor
      · intro follows
        have after := follows.2 (some (frame.length - 1 + 1))
        rw [advanced] at after
        exact (goesOn _).mp after
      · refine fun holds => ⟨permitted, fun reply => ?_⟩
        rcases reply with _ | _ | taken
        · exact ends _
        · exact ends _
        · rw [advanced]
          exact (goesOn taken).mpr holds

end

/-- The login of the lobby answers every request in turn exactly if it comes neither to a
frame nor to a request that makes it panic. -/
theorem answersRequests_iff (standard : wire.toCodecs.Standard) {rounds : Nat} {conn : Conn} :
    AnswersRequests wire config rounds client conn ↔
      ∀ visit ∈ visits wire.toCodecs (goesOn wire config) rounds client conn,
        SafeAt wire.toWire config (earlierIds wire) visit := by
  unfold AnswersRequests
  have ends (stage : (answering wire).Stage) :
      Answered ([], []) (.error .err : Outcome (Client × Conn)) stage := answered_err
  induction rounds generalizing client conn with
  | zero => exact iff_of_true (ends _) (by simp [visits])
  | succ rounds ih =>
    rw [loginLoop, visits, List.forall_mem_cons, receive_then]
    rcases read : readPacket wire.toCodecs client conn with ⟨(_ | _) | (_ | ⟨packet, raw⟩), after⟩
    · rw [safeAt_unread read (by simp)]
      exact iff_of_true (closeServer_follows (ends _)) ⟨by simp, by simp⟩
    · rw [safeAt_unread read (by simp)]
      exact iff_of_false (fun follows => follows.1 rfl) (by simp)
    · rw [safeAt_unread read (by simp)]
      exact iff_of_true (closeServer_follows (ends _)) ⟨by simp, by simp⟩
    · rw [safeAt_read read, List.filterMap_cons, requestAt_eq read]
      dsimp only
      cases asks : pluginRequest? wire.toWire (earlierIds wire) client packet with
      | some request =>
        have traps := pluginAnswer_panics_iff config standard (client, request)
        rw [loginStep_request asks, goesOn, loginStep_request asks]
        cases answered : pluginAnswer wire.toWire config (client, request) with
        | error fault =>
          cases fault with
          | err =>
            refine iff_of_true (ends _) ⟨?_, by simp⟩
            rintro _ ⟨⟩ trap
            cases answered.symm.trans (traps.mpr trap)
          | panic =>
            exact iff_of_false (fun follows => follows.1 rfl) fun safe =>
              safe.1 request rfl (traps.mp answered)
        | ok bytes =>
          have safe : ∀ other ∈ some request, ¬ Traps wire.toWire config (client, other) := by
            rintro _ ⟨⟩ trap
            cases answered.symm.trans (traps.mpr trap)
          refine Iff.trans ?_ (and_iff_right safe).symm
          refine Iff.trans ?_ ih
          exact writeAll_then (pluginAnswer_nonempty standard answered) (pluginAnswer_answers answered)
            ends
      | none =>
        obtain ⟨returns, silent⟩ := loginStep_other config asks
        refine Iff.trans ?_ (and_iff_right (by simp)).symm
        rw [goesOn]
        rcases stepped : loginStep wire config client packet with
          (_ | _) | (threshold | ⟨bytes⟩ | _ | _ | _)
        · exact iff_of_true (ends _) (by simp)
        · exact absurd stepped returns
        · exact ih
        · exact absurd stepped (silent bytes)
        · exact iff_of_true (answered_ok.mpr rfl) (by simp)
        · exact iff_of_true (closeServer_follows (ends _)) (by simp)
        · exact ih

end

end Lobby

/-! ## Both loops -/

/-- The two login loops answer every login plugin request in turn, or end with `Err`,
exactly if they come neither to a negative data length nor, for a Forge server, to a
request on another channel or around such a length. -/
theorem plugin_requests_answered_iff {ModList JoinGame : Type}
    (wire : Lobby.LobbyWire ModList JoinGame) (standard : wire.toCodecs.Standard) (config : Config) :
    (∀ backend : Probe.Backend,
      Probe.AnswersRequests wire.toWire config (Probe.tmpClientInfo config) backend.limit
          (Probe.tmpClient backend) ⟨[], backend.reads⟩ [] ↔
        ∀ visit ∈ visits wire.toCodecs
            (Probe.goesOn wire.toWire config (Probe.tmpClientInfo config)) backend.limit
            (Probe.tmpClient backend) ⟨[], backend.reads⟩,
          SafeAt wire.toWire config (Probe.earlierIds wire.toWire) visit) ∧
    ∀ (backend : Lobby.Backend) rounds,
      let tmpClient := ((backend.localAddr.map Client.new).getD .dummy).setState .login
      Lobby.AnswersRequests wire config rounds tmpClient ⟨[], backend.reads⟩ ↔
        ∀ visit ∈ visits wire.toCodecs (Lobby.goesOn wire config) rounds tmpClient
            ⟨[], backend.reads⟩,
          SafeAt wire.toWire config (Lobby.earlierIds wire) visit :=
  ⟨fun _ => Probe.answersRequests_iff standard rfl [], fun _ _ => Lobby.answersRequests_iff standard⟩

/-- A Forge server that asks on the right channel has its request answered by both. -/
theorem plugin_requests_answered_forge :
    let config : Config := { server := { forge := true } }
    Probe.AnswersRequests Probe.plainWire config (Probe.tmpClientInfo config) Probe.forgeServer.limit
      (Probe.tmpClient Probe.forgeServer) ⟨[], Probe.forgeServer.reads⟩ [] ∧
    Lobby.AnswersRequests Lobby.plainLobbyWire config 9 (Client.dummy.setState .login)
      ⟨[], Probe.forgeServer.reads⟩ := by
  have both := plugin_requests_answered_iff Lobby.plainLobbyWire plainCodecs_standard
    { server := { forge := true } }
  refine ⟨(both.1 Probe.forgeServer).mpr fun visit visited => ?_,
    (both.2 ⟨none, Probe.forgeServer.reads⟩ 9).mpr fun visit visited => ?_⟩
  · apply (safeAt_iff plainCodecs_standard).mpr
    revert visit
    decide +kernel
  · apply (safeAt_iff plainCodecs_standard).mpr
    revert visit
    decide +kernel

/-- The packet formats with short texts in requests. -/
def shortTextWire : Lobby.LobbyWire Unit Unit :=
  { Lobby.plainLobbyWire with
    decodeLoginPluginRequest := fun
      | messageId :: length :: rest => some
        ⟨.ofNat messageId.toNat,
          .ofList ((rest.take length.toNat).map fun byte => .ofNat byte.toNat),
          rest.drop length.toNat⟩
      | _ => none }

/-- A server that asks on the channel `a:b`. -/
def pluginServer : Probe.Backend where
  address := none
  reads := [.data [6, 4, 1, 3, 97, 58, 98], .data [1, 2], .data [1, 0x26]]
  updates := 1

/-- With Forge switched on, both loops panic at a request on another channel. -/
theorem foreign_channel_panics :
    let config : Config := { server := { forge := true } }
    ¬ Probe.AnswersRequests shortTextWire.toWire config (Probe.tmpClientInfo config)
      pluginServer.limit (Probe.tmpClient pluginServer) ⟨[], pluginServer.reads⟩ [] ∧
    ¬ Lobby.AnswersRequests shortTextWire config 9 (Client.dummy.setState .login)
      ⟨[], pluginServer.reads⟩ := by
  constructor
  · exact fun follows => (follows.2 ()).1 rfl
  · exact fun follows => (follows.2 ()).1 rfl

end PlexPaper
