import PlexPaper.BackendPolls
import PlexPaper.Proxy
import PlexPaper.StatusAnswers

/-! `fetch_status` and `do_ping` of `monitor.rs`: what a poll writes, and what it makes of the
answer. The proxy speaks both ends of this protocol, for it answers the polls of others while
its own server sleeps, so the two ends can be put together: what a poll of it brings back is
what `status::serve` has served, however the bytes were cut on their way. -/
namespace PlexPaper
open Outcome

/-- The packet formats of `minecraft_protocol` that a poll writes. -/
structure MonitorWire extends PollWire where
  handshake : Handshake → Outgoing
  statusRequest : Outgoing
  pingRequest : (time : UInt64) → Outgoing
  showIp : IpAddr → String
  proxyHeader : ProxyFormat

/-- A connection to the server: how many writes go through, and what reading will give. -/
structure Link where
  writes : Nat
  reads : List Read

/-- Writes one after the other, each of bytes that may fail to be made. -/
def writeAll : List (Outcome (List UInt8)) → (writes : Nat) → List UInt8 × Outcome Unit
  | [], _ => ([], .ok ())
  | .error fault :: _, _ => ([], .error fault)
  | .ok _ :: _, 0 => ([], .error .err)
  | .ok bytes :: rest, writes + 1 => ((writeAll rest writes).map (bytes ++ ·) id)

section

variable (wire : MonitorWire) (config : Config) (addr : SocketAddr)

/-- The handshake of a poll. -/
def pollHandshake : Handshake where
  protocolVersion := config.publicConfig.protocol.toInt32
  serverAddr := wire.showIp addr.ip
  serverPort := addr.port
  nextState := ClientState.status.toId

def sendHandshake (client : Client) : Outcome (List UInt8) :=
  writePacket wire.toCodecs (wire.handshake (pollHandshake wire config addr)) client

def requestStatus (client : Client) : Outcome (List UInt8) :=
  writePacket wire.toCodecs wire.statusRequest client

/-- `send_ping`, of the token that it draws. -/
def sendPing (client : Client) (token : UInt64) : Outcome (List UInt8) :=
  writePacket wire.toCodecs (wire.pingRequest token) client

/-- A poll: what it writes, and its result. A reader that is still going when its time is up
is cut off. -/
def poll {α : Type} (request : Outcome (List UInt8)) (wait : Conn → Option (Outcome α)) :
    Option Link → List UInt8 × Outcome α
  | none => ([], .error .err)
  | some link =>
    let header := if config.server.sendProxyV2 then [localProxyHeader wire.proxyHeader] else []
    match writeAll (header ++ [sendHandshake wire config addr .dummy, request]) link.writes with
    | (sent, .error fault) => (sent, .error fault)
    | (sent, .ok ()) => (sent, (wait ⟨[], link.reads⟩).getD (.error .err))

/-- `fetch_status`, with the rounds of its reader that fit into `STATUS_TIMEOUT`. -/
def fetchStatus (rounds : Nat) : Option Link → List UInt8 × Outcome ServerStatus :=
  poll wire config addr (requestStatus wire .dummy) (waitForStatus wire.toPollWire .dummy rounds)

/-- `do_ping`, with the rounds of its reader that fit into `PING_TIMEOUT`. -/
def doPing (token : UInt64) (rounds : Nat) : Option Link → List UInt8 × Outcome Unit :=
  poll wire config addr (sendPing wire .dummy token) (waitForPing wire.toPollWire .dummy token rounds)

end

/-! ## Frames without compression -/

section

variable {lib : Codecs} {client : Client} {packet : RawPacket}

theorem encodeWithLen_plain (standard : lib.Standard) (plain : ¬ client.compressed ≥ 0) :
    packet.encodeWithLen lib client = .ok packet.frame := by
  refine RawPacket.encodeWithLen_eq standard ?_
  rw [RawPacket.encodeWithoutLen, if_neg plain]
  exact RawPacket.encodeUncompressed_eq standard packet

theorem isFrame_plain (standard : lib.Standard) (plain : client.isCompressed = false)
    (fits : packet.payload.length < 2 ^ 31) : IsFrame lib client packet packet.payload packet.frame where
  shape := rfl
  nonempty := packet.payload_length_pos
  fits
  decodes := by
    rw [RawPacket.frame, RawPacket.decodeWithLen_frame standard fits,
      RawPacket.decodeWithoutLen_uncompressed standard plain]

end

theorem IsFrame.frameOf {lib : Codecs} {client : Client} {packet : RawPacket} {body frame : List UInt8}
    (whole : IsFrame lib client packet body frame) (standard : lib.Standard) :
    FrameOf lib client packet frame where
  length := by
    have read := whole.readVarInt standard []
    rw [List.append_nil] at read
    refine ⟨_, _, read, ?_⟩
    have width := varInt_length_le (asI32 body.length)
    have fits := whole.fits
    rw [asUsize_asI32 fits, whole.shape, List.length_append]
    omega
  decodes := whole.decodes

/-! ## The reading end -/

section

variable {α : Type} {lib : Codecs} {packet : RawPacket} {replies : List (List UInt8)}
  {answer : RawPacket → Option (Outcome α)} {value : α}

theorem splitsPrefix_one (standard : lib.Standard) (fits : packet.payload.length < 2 ^ 31) :
    SplitsPrefix lib replies [packet.frame] ↔ ∃ before after, replies = before ++ after ∧
      2 ≤ before.flatten.length ∧
      before.flatten.length < (varInt (asI32 packet.payload.length)).length := by
  have whole : IsFrame lib .dummy packet packet.payload packet.frame :=
    isFrame_plain standard (by decide) fits
  have read := whole.readVarInt standard []
  rw [List.append_nil] at read
  constructor
  · rintro ⟨done, frame, rest, before, after, consumed, len, shape, cut, found, low, high⟩
    cases done with
    | nil =>
      obtain ⟨rfl, rfl⟩ := List.cons.inj shape
      rw [read] at found
      cases found
      simp only [List.flatten_nil, List.length_nil, Nat.zero_add] at low high
      exact ⟨before, after, cut, low, high⟩
    | cons head done => simp at shape
  · rintro ⟨before, after, cut, low, high⟩
    exact ⟨[], packet.frame, [], before, after, _, _, rfl, cut, read, by simpa using low, by simpa using high⟩

/-- A reader of a poll that gets one frame returns what it makes of it exactly when no chunk
ends inside its length. Otherwise it goes on until it is cut off. -/
theorem wait_frame_iff (standard : lib.Standard) (fits : packet.payload.length < 2 ^ 31)
    (nonempty : ∀ chunk ∈ replies, chunk ≠ []) (stream : replies.flatten = packet.frame)
    (answered : answer packet = some (.ok value)) {rounds : Nat} (begins : 0 < rounds) :
    (Rounds.run (pollRound lib .dummy answer) rounds ⟨[], replies.map .data⟩).getD (.error .err) =
        .ok value ↔
      ¬ SplitsPrefix lib replies [packet.frame] := by
  have whole : IsFrame lib .dummy packet packet.payload packet.frame :=
    isFrame_plain standard (by decide) fits
  rw [splitsPrefix_one standard fits]
  rcases readPacket_frame standard whole nonempty
    (show [] ++ replies.flatten = packet.frame ++ [] by rw [stream, List.append_nil, List.nil_append]) with
    ⟨before, after, cut, low, high, -⟩ | ⟨before, after, cut, -, uncut, -, returned⟩
  · simp only [List.length_nil, Nat.zero_add] at low high
    have split : ∃ before after, replies = before ++ after ∧ 2 ≤ before.flatten.length ∧
        before.flatten.length < (varInt (asI32 packet.payload.length)).length :=
      ⟨before, after, cut, low, high⟩
    refine iff_of_false (fun returns => ?_) (not_not_intro split)
    have read := whole.readVarInt standard []
    rw [List.append_nil, ← stream] at read
    have stalls : StallsAt lib replies 0 := ⟨by rw [stream]; have := whole.length_ge; omega, .inr (.inr
      ⟨before, after, _, _, cut, by rw [List.drop_zero]; exact read, by omega, by omega⟩)⟩
    have never := @not_ends_of_stallsAt _ _ answer _ _ _ (at_first replies) nonempty stalls
    cases ran : Rounds.run (pollRound lib .dummy answer) rounds ⟨[], replies.map .data⟩ with
    | none =>
      rw [ran] at returns
      cases returns
    | some result => exact never ⟨rounds, result, ran⟩
  · have ended : pollRound lib .dummy answer ⟨[], replies.map .data⟩ = .inl (.ok value) := by
      simp only [pollRound, returned, answered]
    obtain ⟨count, rfl⟩ := Nat.exists_eq_succ_of_ne_zero (Nat.pos_iff_ne_zero.mp begins)
    rw [Nat.succ_eq_add_one, Rounds.run_inl count ended]
    refine iff_of_true rfl ?_
    rintro ⟨shorter, later, parts, low, high⟩
    have arrived := uncut shorter later parts (by simpa using low)
    simp only [List.length_nil, Nat.zero_add] at arrived
    omega

/-- A reader that gets nothing has no answer. -/
theorem wait_nothing (answer : RawPacket → Option (Outcome α)) (rounds : Nat) (value : α) :
    (Rounds.run (pollRound lib .dummy answer) rounds ⟨[], []⟩).getD (.error .err) ≠ .ok value := by
  cases rounds with
  | zero => exact nofun
  | succ count =>
    rw [Rounds.run_inl count (show pollRound lib .dummy answer ⟨[], []⟩ = .inl (.error .err) from rfl)]
    exact nofun

end

/-! ## The serving end -/

section

variable {lib : Codecs} {client : Client} {first second : RawPacket} {requests : List (List UInt8)}

/-- Two frames that arrive in chunks are read one after the other, exactly when no chunk ends
inside a length; otherwise one of the calls returns no packet. -/
theorem reads_two (standard : lib.Standard) (plain : client.isCompressed = false)
    (firstFits : first.payload.length < 2 ^ 31) (secondFits : second.payload.length < 2 ^ 31)
    (nonempty : ∀ chunk ∈ requests, chunk ≠ []) (stream : requests.flatten = first.frame ++ second.frame) :
    (¬ SplitsPrefix lib requests [first.frame, second.frame] ∧ ∃ mid,
      readPacket lib client ⟨[], requests.map .data⟩ = (.ok (some (first, first.frame)), mid) ∧
      readPacket lib client mid = (.ok (some (second, second.frame)), ⟨[], []⟩)) ∨
    SplitsPrefix lib requests [first.frame, second.frame] ∧
      ((∀ found, (readPacket lib client ⟨[], requests.map .data⟩).1 ≠ .ok (some found)) ∨
      ∃ mid, readPacket lib client ⟨[], requests.map .data⟩ = (.ok (some (first, first.frame)), mid) ∧
        ∀ found, (readPacket lib client mid).1 ≠ .ok (some found)) := by
  have firstWhole := isFrame_plain standard plain firstFits
  have secondWhole := isFrame_plain standard plain secondFits
  have split : readPackets lib client 3 ⟨[], requests.map .data⟩ =
        framesRead [first, second] [first.frame, second.frame] ↔
      ¬ SplitsPrefix lib requests [first.frame, second.frame] :=
    readPackets_iff_from standard (.cons ⟨_, firstWhole⟩ (.cons ⟨_, secondWhole⟩ .nil)) nonempty
      (by simpa using stream)
  have bytes : Conn.stream ⟨[], requests.map .data⟩ = first.frame ++ second.frame := by
    rw [Conn.stream, List.nil_append, Read.bytes_chunks nonempty, stream]
  have suffix := readPacket_suffix lib client ⟨[], requests.map .data⟩
  rcases one : readPacket lib client ⟨[], requests.map .data⟩ with ⟨result, mid⟩
  rw [one] at suffix
  simp only [readPackets, one, framesRead_cons] at split
  by_cases got : ∃ found, result = .ok (some found)
  · obtain ⟨⟨packet, raw⟩, rfl⟩ := got
    obtain ⟨rfl, rfl, left⟩ := readPacket_front (firstWhole.frameOf standard) bytes one
    have suffix' := (readPacket_suffix lib client mid).trans suffix
    rcases two : readPacket lib client mid with ⟨result, after⟩
    rw [two] at suffix'
    simp only [two] at split
    by_cases got : ∃ found, result = .ok (some found)
    · obtain ⟨⟨packet, raw⟩, rfl⟩ := got
      obtain ⟨rfl, rfl, emptied⟩ := readPacket_front (secondWhole.frameOf standard)
        (left.trans (List.append_nil _).symm) two
      have ended : after = ⟨[], []⟩ := by
        obtain ⟨buf, reads⟩ := after
        obtain ⟨rfl, unread⟩ := List.append_eq_nil_iff.mp emptied
        cases reads with
        | nil => rfl
        | cons read reads =>
          obtain ⟨chunk, member, rfl⟩ := List.mem_map.mp (suffix'.subset List.mem_cons_self)
          rw [Read.bytes, if_neg (nonempty chunk member)] at unread
          exact absurd (List.append_eq_nil_iff.mp unread).1 (nonempty chunk member)
      subst ended
      exact .inl ⟨split.mp (by simp [framesRead, readPacket_end]), mid, rfl, two⟩
    · refine .inr ⟨not_not.mp fun clear => got ?_, .inr ⟨mid, rfl, fun found same => got ⟨found, ?_⟩⟩⟩
      · exact ⟨_, (List.cons.inj (List.cons.inj (split.mpr clear)).2).1⟩
      · rw [two] at same
        exact same
  · refine .inr ⟨not_not.mp fun clear => got ⟨_, (List.cons.inj (split.mpr clear)).1⟩, .inl fun found same =>
      got ⟨found, same⟩⟩

theorem readFrame_of_no_packet {wire : StatusWire} {moment : Moment} {session : Session}
    (unread : ∀ found, (readPacket wire.toCodecs session.client session.conn).1 ≠ .ok (some found)) :
    readFrame wire moment session = none := by
  unfold readFrame
  split
  · rename_i packet raw conn read
    exact absurd (by rw [read]) (unread (packet, raw))
  · rfl

/-- Without another packet an iteration ends the connection and writes nothing. -/
theorem serveAfter_no_packet {wire : StatusWire} {config : Config} {session : Session} (moments : List Moment)
    (unread : ∀ found, (readPacket wire.toCodecs session.client session.conn).1 ≠ .ok (some found)) :
    (serveAfter wire config moments session).1.sent = session.sent := by
  cases moments with
  | nil => rfl
  | cons moment moments =>
    obtain ⟨conn, ending, ended, -⟩ := serveStep_of_no_frame config (readFrame_of_no_packet unread)
    rw [serveAfter, ended]

variable {wire : StatusWire} {config : Config} {peer : SocketAddr} {asked : Handshake}
  {greets asks : Moment}

/-- A client that greets for the status and asks once gets the answer of its frame, where both
frames are read, and nothing else. -/
theorem served_poll (standard : wire.toCodecs.Standard) (firstFits : first.payload.length < 2 ^ 31)
    (secondFits : second.payload.length < 2 ^ 31) (nonempty : ∀ chunk ∈ requests, chunk ≠ [])
    (stream : requests.flatten = first.frame ++ second.frame) (isHandshake : first.id = wire.serverHandshake)
    (decodes : wire.decodeHandshake first.data = some asked) (status : asked.nextState = ClientState.status.toId)
    (writes : asks.writes = true) (later : List Moment) {bytes : List UInt8}
    (answered : Frame.answer wire config ((Client.new peer).setState .status)
      { protocol := some asked.protocolVersion.toUInt32, handshake := some asked }
      ⟨.status, asks, second, second.frame⟩ = .ok bytes) :
    (¬ SplitsPrefix wire.toCodecs requests [first.frame, second.frame] ∧
      (serveAfter wire config (greets :: asks :: later) (.new (.new peer) (requests.map .data))).1.sent = bytes) ∨
    SplitsPrefix wire.toCodecs requests [first.frame, second.frame] ∧
      (serveAfter wire config (greets :: asks :: later) (.new (.new peer) (requests.map .data))).1.sent = [] := by
  have greeted {mid : Conn}
      (read : readPacket wire.toCodecs (.new peer) ⟨[], requests.map .data⟩ =
        (.ok (some (first, first.frame)), mid)) :
      serveStep wire config greets (.new (.new peer) (requests.map .data)) =
        ({ client := (Client.new peer).setState .status, conn := mid
           clientInfo := { protocol := some asked.protocolVersion.toUInt32, handshake := some asked } }, none) := by
    have named : ClientState.fromId asked.nextState = some .status :=
      (ClientState.fromId_toId ..).mpr ⟨by decide, status⟩
    unfold serveStep Session.new
    rw [read]
    simp only [Client.new, isHandshake, and_self, ↓reduceIte, serveHandshake, decodes, named]
    rfl
  have plain : (Client.new peer).isCompressed = false := (by decide : decide ((-1 : Int32) ≥ 0) = false)
  rcases reads_two standard plain firstFits secondFits nonempty stream with
    ⟨whole, mid, one, two⟩ | ⟨split, none_ | ⟨mid, one, none_⟩⟩
  · refine .inl ⟨whole, ?_⟩
    rw [serveAfter, greeted one]
    generalize same : Session.mk ((Client.new peer).setState .status) mid [] _ [] = asking
    have read : readFrame wire asks asking = some (⟨.status, asks, second, second.frame⟩, ⟨[], []⟩) := by
      subst same
      unfold readFrame
      rw [show readPacket wire.toCodecs ((Client.new peer).setState .status) mid = _ from two]
      rfl
    have step := serveStep_status_sent config (by rw [← same]; rfl) writes read
    rw [← same] at step
    simp only [answered] at step
    simp only [serveAfter, ← same, step]
    exact serveAfter_no_packet later fun found same => by cases same
  · exact .inr ⟨split, serveAfter_no_packet _ none_⟩
  · refine .inr ⟨split, ?_⟩
    rw [serveAfter, greeted one]
    exact serveAfter_no_packet _ none_

end

/-! ## Both ends together -/

/-- The two ends agree on the handshake of a poll. -/
structure Meet (server : StatusWire) (wire : MonitorWire) (handshake : Handshake) (greeting : RawPacket) :
    Prop where
  codecs : server.toCodecs = wire.toCodecs
  standard : wire.toCodecs.Standard
  writes : wire.handshake handshake = ⟨greeting.id, some greeting.data⟩
  id : greeting.id = server.serverHandshake
  reads : server.decodeHandshake greeting.data = some handshake
  fits : greeting.payload.length < 2 ^ 31

section

variable {server : StatusWire} {wire : MonitorWire} {polling serving : Config} {addr peer : SocketAddr}
  {greeting request response : RawPacket} {greets asks : Moment} {later : List Moment}
  {requests replies : List (List UInt8)} {rounds : Nat}

theorem writePacket_plain (standard : wire.toCodecs.Standard) {packet : Outgoing}
    (made : packet = ⟨request.id, some request.data⟩) :
    writePacket wire.toCodecs packet .dummy = .ok request.frame := by
  subst made
  exact encodeWithLen_plain standard (by decide)

/-- A poll writes its handshake and its request, and then reads. -/
theorem poll_eq {α : Type} (meet : Meet server wire (pollHandshake wire polling addr) greeting)
    (plain : polling.server.sendProxyV2 = false) (request : RawPacket) (wait : Conn → Option (Outcome α))
    (reads : List Read) : poll wire polling addr (.ok request.frame) wait (some ⟨2, reads⟩) =
      (greeting.frame ++ request.frame, (wait ⟨[], reads⟩).getD (.error .err)) := by
  have greets : sendHandshake wire polling addr .dummy = .ok greeting.frame :=
    writePacket_plain meet.standard meet.writes
  simp [poll, plain, greets, writeAll]

/-- What the poller makes of the answer is what the server has answered, exactly when neither
direction is cut inside a length. -/
theorem polled_iff {α : Type} {answer : RawPacket → Option (Outcome α)} {value : α}
    (meet : Meet server wire (pollHandshake wire polling addr) greeting)
    (requestFits : request.payload.length < 2 ^ 31) (responseFits : response.payload.length < 2 ^ 31)
    (answered : Frame.answer server serving ((Client.new peer).setState .status)
      { protocol := some polling.publicConfig.protocol, handshake := some (pollHandshake wire polling addr) }
      ⟨.status, asks, request, request.frame⟩ = .ok response.frame)
    (understood : answer response = some (.ok value)) (begins : 0 < rounds) (writes : asks.writes = true)
    (requestsNonempty : ∀ chunk ∈ requests, chunk ≠ []) (repliesNonempty : ∀ chunk ∈ replies, chunk ≠ [])
    (sent : requests.flatten = greeting.frame ++ request.frame)
    (replied : replies.flatten =
      (serveAfter server serving (greets :: asks :: later) (.new (.new peer) (requests.map .data))).1.sent) :
    (Rounds.run (pollRound wire.toCodecs .dummy answer) rounds ⟨[], replies.map .data⟩).getD (.error .err) =
        .ok value ↔
      ¬ SplitsPrefix wire.toCodecs requests [greeting.frame, request.frame] ∧
        ¬ SplitsPrefix wire.toCodecs replies [response.frame] := by
  have version : (pollHandshake wire polling addr).protocolVersion.toUInt32 = polling.publicConfig.protocol :=
    UInt32.toUInt32_toInt32 _
  rw [← version] at answered
  rcases served_poll (meet.codecs ▸ meet.standard) meet.fits requestFits requestsNonempty sent meet.id meet.reads
    rfl writes later answered with ⟨whole, all⟩ | ⟨split, nothing⟩
  · rw [meet.codecs] at whole
    rw [wait_frame_iff meet.standard responseFits repliesNonempty (replied.trans all) understood begins,
      and_iff_right whole]
  · rw [meet.codecs] at split
    have silent : replies = [] := List.eq_nil_iff_forall_not_mem.mpr fun chunk member =>
      repliesNonempty chunk member (List.flatten_eq_nil_iff.mp (replied.trans nothing) chunk member)
    subst silent
    exact iff_of_false (wait_nothing answer rounds value) fun clear => clear.1 split

/-- What a poll of a proxy fetches, where it sends no header of the proxy protocol first, is the
status that is served, exactly when neither the requests nor the reply are cut inside the length of
a packet, behind its second byte. Then the server closes the connection, or the poll waits until
its time is up. -/
theorem fetched_status_iff (meet : Meet server wire (pollHandshake wire polling addr) greeting)
    (plain : polling.server.sendProxyV2 = false)
    (requestWritten : wire.statusRequest = ⟨request.id, some request.data⟩)
    (requestFits : request.payload.length < 2 ^ 31) (isRequest : request.id = server.serverStatus)
    (responseWritten : server.encodeStatusResponse
      (serverStatus serving asks { protocol := some polling.publicConfig.protocol }) = some response.data)
    (responseFits : response.payload.length < 2 ^ 31) (isResponse : response.id = 0)
    (awaited : wire.clientStatus = 0)
    (responseRead : wire.decodeStatusResponse response.data =
      some (serverStatus serving asks { protocol := some polling.publicConfig.protocol }))
    (begins : 0 < rounds) (writes : asks.writes = true)
    (requestsNonempty : ∀ chunk ∈ requests, chunk ≠ []) (repliesNonempty : ∀ chunk ∈ replies, chunk ≠ [])
    (sent : requests.flatten = (fetchStatus wire polling addr rounds (some ⟨2, replies.map .data⟩)).1)
    (replied : replies.flatten =
      (serveAfter server serving (greets :: asks :: later) (.new (.new peer) (requests.map .data))).1.sent) :
    (fetchStatus wire polling addr rounds (some ⟨2, replies.map .data⟩)).2 =
        .ok (serverStatus serving asks { protocol := some polling.publicConfig.protocol }) ↔
      ¬ SplitsPrefix wire.toCodecs requests [greeting.frame, request.frame] ∧
        ¬ SplitsPrefix wire.toCodecs replies [response.frame] := by
  have requested : requestStatus wire .dummy = .ok request.frame :=
    writePacket_plain meet.standard requestWritten
  have polled := poll_eq meet plain request (waitForStatus wire.toPollWire .dummy rounds) (replies.map .data)
  rw [fetchStatus, requested, polled] at sent ⊢
  refine polled_iff meet requestFits responseFits ?_ ?_ begins writes requestsNonempty repliesNonempty
    sent replied
  · have framed : RawPacket.encodeWithLen server.toCodecs ⟨0, response.data⟩ ((Client.new peer).setState .status) =
        .ok response.frame := by
      rw [← isResponse]
      exact encodeWithLen_plain (meet.codecs ▸ meet.standard) (by decide : ¬ (-1 : Int32) ≥ 0)
    rw [Frame.answer, if_pos isRequest]
    have same : server.encodeStatusResponse (serverStatus serving asks
        { protocol := some polling.publicConfig.protocol, handshake := some (pollHandshake wire polling addr) }) =
          some response.data := responseWritten
    simp only [same, question, bind, Except.bind, framed]
  · rw [statusAnswer, if_pos (isResponse.trans awaited.symm), responseRead]
    rfl

/-- The ping of a poll is answered with its own token, under the same condition. -/
theorem pinged_iff {token : UInt64} (meet : Meet server wire (pollHandshake wire polling addr) greeting)
    (plain : polling.server.sendProxyV2 = false)
    (requestWritten : wire.pingRequest token = ⟨request.id, some request.data⟩)
    (requestFits : request.payload.length < 2 ^ 31) (isPing : request.id = server.serverPing)
    (other : server.serverPing ≠ server.serverStatus) (awaited : wire.clientPing = server.serverPing)
    (responseRead : wire.decodePingResponse request.data = some token)
    (begins : 0 < rounds) (writes : asks.writes = true)
    (requestsNonempty : ∀ chunk ∈ requests, chunk ≠ []) (repliesNonempty : ∀ chunk ∈ replies, chunk ≠ [])
    (sent : requests.flatten = (doPing wire polling addr token rounds (some ⟨2, replies.map .data⟩)).1)
    (replied : replies.flatten =
      (serveAfter server serving (greets :: asks :: later) (.new (.new peer) (requests.map .data))).1.sent) :
    (doPing wire polling addr token rounds (some ⟨2, replies.map .data⟩)).2 = .ok () ↔
      ¬ SplitsPrefix wire.toCodecs requests [greeting.frame, request.frame] ∧
        ¬ SplitsPrefix wire.toCodecs replies [request.frame] := by
  have requested : sendPing wire .dummy token = .ok request.frame :=
    writePacket_plain meet.standard requestWritten
  have polled := poll_eq meet plain request (waitForPing wire.toPollWire .dummy token rounds) (replies.map .data)
  rw [doPing, requested, polled] at sent ⊢
  refine polled_iff meet requestFits requestFits ?_ ?_ begins writes requestsNonempty repliesNonempty
    sent replied
  · rw [Frame.answer, if_neg (isPing ▸ other), if_pos isPing]
  · rw [pingAnswer, if_pos (isPing.trans awaited.symm), responseRead]
    exact if_pos rfl

end

/-- An address as it is shown; of IPv6 all eight groups. -/
private def shownIp : IpAddr → String
  | .v4 address =>
    ".".intercalate ((List.range 4).map fun place => Nat.repr (address.toNat / 256 ^ (3 - place) % 256))
  | .v6 address =>
    ":".intercalate ((List.range 8).map fun group =>
      String.ofList (Nat.toDigits 16 (address.toNat / 65536 ^ (7 - group) % 65536)))

/-- The packet formats of `minecraft_protocol`. No header is written for the server. -/
def plainMonitorWire : MonitorWire where
  toPollWire := plainPollWire
  handshake given := ⟨0, some (varInt given.protocolVersion ++ writeText given.serverAddr ++
    [(given.serverPort / 256).toUInt8, given.serverPort.toUInt8] ++ varInt given.nextState)⟩
  statusRequest := ⟨0, some []⟩
  pingRequest time := ⟨1, some (encodeTime time)⟩
  showIp := shownIp
  proxyHeader _ := none

/-- `127.0.0.1:25566`, for the status. -/
private def plainGreeting : RawPacket :=
  ⟨0, [129, 6, 9, 49, 50, 55, 46, 48, 46, 48, 46, 49, 99, 222, 1]⟩

private theorem plain_meet :
    Meet plainStatusWire plainMonitorWire (pollHandshake plainMonitorWire {} INTERNAL_ADDRESS) plainGreeting where
  codecs := rfl
  standard := plainCodecs_standard
  writes := congrArg (Outgoing.mk 0) (show some (varInt _ ++ writeText _ ++ [_, _] ++ varInt _) =
    some plainGreeting.data by decide +kernel)
  id := rfl
  reads := by decide +kernel
  fits := by decide

/-- A length of at most two bytes is not cut. -/
private theorem unsplit_of_short {frames chunks : List (List UInt8)}
    (short : ∀ frame ∈ frames, ∃ consumed ≤ 2, ∃ len, readVarInt plainCodecs frame = some (consumed, len)) :
    ¬ SplitsPrefix plainCodecs chunks frames := by
  rintro ⟨done, frame, rest, before, after, consumed, len, rfl, -, found, low, high⟩
  obtain ⟨consumed', least, len', read⟩ := short frame (by simp)
  rw [read] at found
  cases found
  omega

/-- The chunks of a stream that is cut in two. -/
private def cutAt (place : Nat) (stream : List UInt8) : List (List UInt8) := [stream.take place, stream.drop place]

private def asleep : Config := { motd := { sleeping := "The server \"sleeps\".\nJoin to wake it." } }

private def withIcon : Moment := { favicon := "data:image/png;base64,iVBORw0KGgo=" }

/-- What the sleeping proxy answers. -/
private def asleepStatus : ServerStatus :=
  serverStatus asleep withIcon { protocol := some PROTO_DEFAULT_PROTOCOL }

private def asleepResponse : RawPacket := ⟨0, encodeStatus asleepStatus⟩

/-- A sleeping proxy is asked for its status. Its answer comes in two chunks, cut inside the length. -/
theorem fetched_status_sleeping :
    (fetchStatus plainMonitorWire {} INTERNAL_ADDRESS 1
        (some ⟨2, (cutAt 1 asleepResponse.frame).map .data⟩)).2 = .ok asleepStatus := by
  have greets : readVarInt plainCodecs plainGreeting.frame = some (1, 16) := by decide +kernel
  have requests : readVarInt plainCodecs (RawPacket.frame ⟨0, []⟩) = some (1, 1) := by decide +kernel
  have replies : readVarInt plainCodecs asleepResponse.frame = some (2, 194) := by decide +kernel
  have written : plainStatusWire.encodeStatusResponse asleepStatus = some asleepResponse.data := by
    simp only [plainStatusWire, asleepResponse]
  refine (@fetched_status_iff plainStatusWire plainMonitorWire {} asleep INTERNAL_ADDRESS INTERNAL_ADDRESS
    plainGreeting ⟨0, []⟩ asleepResponse {} withIcon []
    (cutAt 18 (plainGreeting.frame ++ RawPacket.frame ⟨0, []⟩)) _ _ plain_meet rfl rfl (by decide) rfl written
    (by decide +kernel) rfl rfl ?_ (by decide) rfl (by decide +kernel) (by decide +kernel) ?_ ?_).mpr
    ⟨unsplit_of_short ?_, unsplit_of_short ?_⟩
  · exact decodeStatus_encodeStatus plainCodecs_standard (by decide +kernel)
  · decide +kernel
  · decide +kernel
  · exact List.forall_mem_cons.mpr ⟨⟨1, by decide, 16, greets⟩,
      List.forall_mem_singleton.mpr ⟨1, by decide, 1, requests⟩⟩
  · exact List.forall_mem_singleton.mpr ⟨2, by decide, 194, replies⟩

/-- The ping of a poll, whose token has eight bytes. -/
theorem pinged_token :
    (doPing plainMonitorWire {} INTERNAL_ADDRESS 0x0102030405060708 1
        (some ⟨2, (cutAt 5 (RawPacket.frame ⟨1, encodeTime 0x0102030405060708⟩)).map .data⟩)).2 = .ok () := by
  have greets : readVarInt plainCodecs plainGreeting.frame = some (1, 16) := by decide +kernel
  have pings : readVarInt plainCodecs (RawPacket.frame ⟨1, encodeTime 0x0102030405060708⟩) = some (1, 9) := by
    decide +kernel
  refine (@pinged_iff plainStatusWire plainMonitorWire {} {} INTERNAL_ADDRESS INTERNAL_ADDRESS plainGreeting
    ⟨1, encodeTime 0x0102030405060708⟩ {} withIcon []
    (cutAt 12 (plainGreeting.frame ++ RawPacket.frame ⟨1, encodeTime 0x0102030405060708⟩)) _ _ 0x0102030405060708
    plain_meet rfl rfl (by decide +kernel) rfl (by decide) rfl ?_ (by decide) rfl (by decide +kernel)
    (by decide +kernel) ?_ ?_).mpr ⟨unsplit_of_short ?_, unsplit_of_short ?_⟩
  · exact decodeTime_encodeTime _
  · decide +kernel
  · decide +kernel
  · exact List.forall_mem_cons.mpr ⟨⟨1, by decide, 16, greets⟩,
      List.forall_mem_singleton.mpr ⟨1, by decide, 9, pings⟩⟩
  · exact List.forall_mem_singleton.mpr ⟨1, by decide, 9, pings⟩

end PlexPaper
