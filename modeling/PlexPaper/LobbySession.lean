import PlexPaper.LobbyOutput

/-! The session that a lobby client is given. What `lobby::serve` writes to it is a script:
the stored Forge login, the switch to compression, the success of the login, the world, rounds
of a keep-alive and a title until the server is ready, and then the way over to the server's
own world. -/
namespace PlexPaper.Lobby
open Tasks Outcome Program

/-- What is sent to the client: a frame as it was stored, or a packet. -/
inductive Sending where
  | stored (frame : List UInt8)
  | packet (client : Client) (outgoing : Outgoing)

/-- The frame is how that is written. -/
def Sending.Frame (lib : Codecs) : Sending → List UInt8 → Prop
  | .stored held, frame => frame = held
  | .packet client outgoing, frame => writePacket lib outgoing client = .ok frame

def Encodes (lib : Codecs) : List Sending → List (List UInt8) → Prop := List.Forall₂ (Sending.Frame lib)

/-- One client of the lobby, with all that serving it depends on. -/
structure Visit (ModList JoinGame : Type) where
  wire : LobbyWire ModList JoinGame
  config : Config
  rounds : Nat
  clientInfo : ClientInfo
  inbound : TcpStream
  backend : Backend
  client : Client
  queue : List UInt8

/-- What a lobby client has got: the frames that were written to it to their end, since the wait
for the server was over, if it is, and before. The payload is the one that was stored when the
Forge login began. -/
structure Seen where
  stored : Option (List (List UInt8)) := none
  waited : Option (List (List UInt8)) := none
  frames : List (List UInt8) := []

def Seen.got (seen : Seen) (frame : List UInt8) : Seen := { seen with frames := seen.frames ++ [frame] }

/-- Nothing is written of an empty frame. -/
def replayed (stored : Option (List (List UInt8))) : List Sending :=
  ((stored.getD []).filter (· ≠ [])).map .stored

namespace Visit

/-! ## The script -/

section

variable {ModList JoinGame : Type} (visit : Visit ModList JoinGame)

def serve : LobbyM JoinGame Unit :=
  Lobby.serve visit.wire visit.config visit.rounds visit.clientInfo visit.inbound visit.backend
    visit.client visit.queue

def before117 : Bool := beforeV117 visit.wire.toWire visit.clientInfo

/-- The client once it is sent compressed packets, and once it plays. -/
def compressing : Client := visit.client.setCompression COMPRESSION_THRESHOLD

def playing : Client := visit.compressing.setState .play

def title (text : String) : List Sending :=
  let title := (lines text).head?.getD ""
  let subtitle := "\n".intercalate (lines text).tail
  [.packet visit.playing (visit.wire.titleText visit.before117 title),
    .packet visit.playing (visit.wire.titleSubtitle visit.before117 subtitle),
    .packet visit.playing (if title.isEmpty && subtitle.isEmpty then visit.wire.titleTimes visit.before117 10 70 20
      else visit.wire.titleTimes visit.before117 0 DISPLAY_TIME 0)]

def world (status : Option ServerStatus) (joinGame : Option JoinGame) : List Sending :=
  [.packet visit.playing (visit.wire.lobbyJoinGame visit.before117 status joinGame),
    .packet visit.playing (visit.wire.pluginMessage visit.before117 CHANNEL SERVER_BRAND),
    .packet visit.playing (visit.wire.playerPositionAndLook visit.before117),
    .packet visit.playing (visit.wire.timeUpdate visit.before117)]

/-- From the login start into the world of the lobby. -/
def entrance (name : String) (status : Option ServerStatus) (joinGame : Option JoinGame) : List Sending :=
  .packet visit.client (visit.wire.setCompression COMPRESSION_THRESHOLD) ::
    .packet visit.compressing (visit.wire.loginSuccess (offlinePlayerUuid visit.wire name) name) ::
      visit.world status joinGame

/-- The rounds of the keep-alive loop. -/
def keepAlives (ids : List UInt64) : List Sending :=
  ids.flatMap fun id => .packet visit.playing (visit.wire.keepAlive visit.before117 id) ::
    visit.title visit.config.join.lobby.message

def readySound : List Sending :=
  match visit.config.join.lobby.readySound with
  | none => []
  | some soundName =>
    if (trim soundName).isEmpty then []
    else [.packet visit.playing (visit.wire.playerPositionAndLook visit.before117),
      .packet visit.playing (visit.wire.namedSoundEffect visit.before117 soundName)]

/-- Out of the world of the lobby, and into the one that the server has told of. -/
def farewell (data : JoinGame) : List Sending :=
  visit.title "" ++ (visit.readySound ++ [.packet visit.playing (visit.wire.respawn visit.before117 data)])

/-- The name is the one in the first login start that the client sends. -/
def LoginName (name : String) : Prop :=
  ∃ frames loginStart conn,
    ReadsFrames visit.wire.toCodecs ⟨visit.queue, visit.inbound.reads⟩ (frames ++ [loginStart]) conn ∧
    (∀ frame ∈ frames, frame.1.id ≠ visit.wire.serverLoginStart) ∧
    loginStart.1.id = visit.wire.serverLoginStart ∧
    visit.wire.decodeLoginStart loginStart.1.data = some name

/-- The game data is that of the first such packet that the server sends behind its login. -/
def ServedGame (data : JoinGame) : Prop :=
  ∃ frames conn, JoinedGame visit.wire visit.clientInfo visit.backend frames conn ∧
    ∃ last, frames.getLast? = some last ∧
      joinGameFromPacket visit.wire.toWire visit.clientInfo last.1 = some data

/-- As far as the script goes up to the wait for the server. -/
def Opens (stored : Option (List (List UInt8))) (script : List Sending) : Prop :=
  ∃ name status joinGame ids, visit.LoginName name ∧
    script <+: replayed stored ++ (visit.entrance name status joinGame ++ visit.keepAlives ids)

/-- As far as it goes from there on. -/
def Closes (script : List Sending) : Prop := ∃ data, visit.ServedGame data ∧ script <+: visit.farewell data

def Allows (stored waited : Option (List (List UInt8))) (script : List Sending) : Prop :=
  stored.isSome = visit.config.server.forge ∧
    (waited = none → visit.Opens stored script) ∧ (waited ≠ none → visit.Closes script)

/-- The client is past the entrance. -/
def Entered (seen : Seen) : Prop :=
  seen.waited = none ∧ seen.stored.isSome = visit.config.server.forge ∧
    (replayed seen.stored).length + 6 ≤ seen.frames.length

/-- Only the next frame of the script is written. A program that does not ask whether the server
is ready does not come to the end of the wait. -/
abbrev session (asks : Prop) : Discipline (Op JoinGame) Op.Reply where
  Stage := Seen
  advance
    | seen, .write .client frame offset, some (taken + 1) =>
      if frame.length ≤ offset + (taken + 1) then seen.got frame else seen
    | seen, .ready, some _ => { seen with waited := some seen.frames, frames := [] }
    | seen, .readPayload, payload => { seen with stored := some (seen.stored.getD payload) }
    | seen, _, _ => seen
  permits
    | seen, .write .client frame _ => ∃ script,
        Encodes visit.wire.toCodecs script (seen.frames ++ [frame]) ∧
        visit.Allows seen.stored seen.waited script
    | seen, .ready => asks ∧ visit.Entered seen
    | seen, .readPayload => visit.config.server.forge = true ∧
        (seen.stored = none → seen.frames = [] ∧ seen.waited = none)
    | seen, .relay _ _ _ => seen.waited ≠ none ∧ ∃ data, visit.ServedGame data ∧
        Encodes visit.wire.toCodecs (visit.farewell data) seen.frames
    | _, _ => True

/-- The client has got this much of its part of the script. -/
def At (stored waited : Option (List (List UInt8))) (script : List Sending) (seen : Seen) : Prop :=
  seen.stored = stored ∧ seen.waited = waited ∧ Encodes visit.wire.toCodecs script seen.frames

/-- What it has got is as far as the script goes, and it was past the entrance when the wait for
the server was over. -/
def Scripted (seen : Seen) : Prop :=
  (seen.frames ≠ [] → ∃ script, Encodes visit.wire.toCodecs script seen.frames ∧
    visit.Allows seen.stored seen.waited script) ∧
  ∀ frames, seen.waited = some frames → (replayed seen.stored).length + 6 ≤ frames.length ∧
    ∃ script, Encodes visit.wire.toCodecs script frames ∧ visit.Allows seen.stored none script

/-- The program writes this part of the script, wherever it is the next one. -/
def Sends {α : Type} (asks : Prop) (stored waited : Option (List (List UInt8)))
    (program : LobbyM JoinGame α) (script : List Sending) : Prop :=
  ∀ sofar seen, visit.At stored waited sofar seen → visit.Allows stored waited (sofar ++ script) →
    Yields (visit.session asks) seen program fun _ ended => visit.At stored waited (sofar ++ script) ended

end

section

variable {ModList JoinGame : Type} {visit : Visit ModList JoinGame} {asks : Prop}
  {stored waited : Option (List (List UInt8))} {script more : List Sending} {seen : Seen}

theorem Allows.front (allows : visit.Allows stored waited (script ++ more)) :
    visit.Allows stored waited script := by
  obtain ⟨forged, opens, closes⟩ := allows
  refine ⟨forged, fun waits => ?_, fun waited => ?_⟩
  · obtain ⟨name, status, joinGame, ids, named, front⟩ := opens waits
    exact ⟨name, status, joinGame, ids, named, (List.prefix_append ..).trans front⟩
  · obtain ⟨data, served, front⟩ := closes waited
    exact ⟨data, served, (List.prefix_append ..).trans front⟩

/-! ## Writing what is next -/

theorem writeFrom_done {peer : Peer} {frame : List UInt8} {polls offset : Nat}
    (done : frame.length ≤ offset) :
    (writeFrom peer frame polls offset : LobbyM JoinGame Unit) = Pure.pure () := by
  cases polls with
  | zero => rfl
  | succ polls => exact if_pos done

/-- A frame is written to its end if it is the next one. -/
theorem writeAll_got {frame : List UInt8} (nonempty : frame ≠ [])
    (next : ∃ script, Encodes visit.wire.toCodecs script (seen.frames ++ [frame]) ∧
      visit.Allows seen.stored seen.waited script) :
    Yields (visit.session asks) seen (writeAll .client frame : LobbyM JoinGame Unit)
      fun _ (ended : Seen) => ended = seen.got frame := by
  suffices ∀ polls offset, frame.length ≤ polls + offset → offset < frame.length →
      Yields (visit.session asks) seen (writeFrom .client frame polls offset : LobbyM JoinGame Unit)
        fun _ (ended : Seen) => ended = seen.got frame from
    this _ 0 (Nat.le_refl _) (List.length_pos_of_ne_nil nonempty)
  intro polls
  induction polls with
  | zero => exact fun offset enough inside => absurd enough (by omega)
  | succ polls ih =>
    intro offset enough inside
    rw [writeFrom, if_neg (by omega)]
    have polled : Yields (visit.session asks) seen
        (perform (.write .client frame offset) : LobbyM JoinGame (Option Nat))
        fun reply (ended : Seen) => ∀ taken, reply = some (taken + 1) →
          ended = if frame.length ≤ offset + (taken + 1) then seen.got frame else seen := by
      refine .perform next fun reply taken took => ?_
      subst took
      rfl
    refine polled.bind fun reply ended written => ?_
    rcases reply with _ | _ | taken
    · exact .throw
    · exact .throw
    · obtain rfl := written taken rfl
      dsimp only
      by_cases complete : frame.length ≤ offset + (taken + 1)
      · rw [if_pos complete, writeFrom_done complete]
        exact .pure rfl
      · rw [if_neg complete]
        exact ih _ (by omega) (by omega)

theorem at_got {frame : List UInt8} {sending : Sending} (stands : visit.At stored waited script seen)
    (encoded : sending.Frame visit.wire.toCodecs frame) :
    visit.At stored waited (script ++ [sending]) (seen.got frame) := by
  obtain ⟨payload, wait, frames⟩ := stands
  exact ⟨payload, wait, List.rel_append frames (.cons encoded .nil)⟩

/-- A sending that is next in the script is written to its end. -/
theorem writeAll_at {frame : List UInt8} {sending : Sending} (nonempty : frame ≠ [])
    (stands : visit.At stored waited script seen) (encoded : sending.Frame visit.wire.toCodecs frame)
    (allows : visit.Allows stored waited (script ++ [sending])) :
    Yields (visit.session asks) seen (writeAll .client frame : LobbyM JoinGame Unit)
      fun _ ended => visit.At stored waited (script ++ [sending]) ended := by
  have after := at_got stands encoded
  have next : ∃ script, Encodes visit.wire.toCodecs script (seen.frames ++ [frame]) ∧
      visit.Allows seen.stored seen.waited script :=
    ⟨_, after.2.2, stands.1 ▸ stands.2.1 ▸ allows⟩
  refine (writeAll_got nonempty next).mono ?_
  rintro _ _ rfl
  exact after

namespace Sends

variable {α β : Type} {program : LobbyM JoinGame α} {rest : α → LobbyM JoinGame β}

theorem pure {value : α} : visit.Sends asks stored waited (Pure.pure value : LobbyM JoinGame α) [] :=
  fun sofar _ stands _ => .pure (by rwa [List.append_nil])

theorem bind (first : visit.Sends asks stored waited program script)
    (then_ : ∀ value, visit.Sends asks stored waited (rest value) more) :
    visit.Sends asks stored waited (program >>= rest) (script ++ more) := by
  intro sofar seen stands allows
  rw [← List.append_assoc] at allows ⊢
  exact (first sofar seen stands allows.front).bind fun value ended stands =>
    then_ value _ ended stands allows

/-- What leaves the client alone. -/
theorem of_settles (settles : ∀ seen, Settles (visit.session asks) (· = seen) program) :
    visit.Sends asks stored waited program [] := by
  intro sofar seen stands _
  refine (settles seen seen rfl).mono ?_
  rintro _ _ rfl
  rwa [List.append_nil]

end Sends

theorem aside (asks : Prop) (seen : Seen) : Aside (visit.session asks) (· = seen) where
  background op quiet stage same := by
    subst same
    cases op with
    | write peer => cases peer with
      | client => exact quiet.elim
      | server => exact ⟨trivial, fun _ => rfl⟩
    | read | tryRead | elapsed | ready | readPayload | relay => first
      | exact quiet.elim
      | exact ⟨trivial, fun _ => rfl⟩
    | _ => exact ⟨trivial, fun _ => rfl⟩
  elapsed _ _ := ⟨trivial, fun _ => rfl⟩

theorem background_keeps (op : Op JoinGame) (quiet : op.Background) :
    Yields (visit.session asks) seen (perform op) fun _ (ended : Seen) => ended = seen :=
  (aside asks seen).perform_settles quiet seen rfl

theorem sends_background (op : Op JoinGame) (quiet : op.Background) :
    visit.Sends asks stored waited (perform op) [] :=
  .of_settles fun seen => (aside asks seen).perform_settles quiet

theorem allows_opening {name : String} (named : visit.LoginName name)
    (forged : stored.isSome = visit.config.server.forge) (status : Option ServerStatus)
    (joinGame : Option JoinGame) (ids : List UInt64) :
    visit.Allows stored none
      (replayed stored ++ (visit.entrance name status joinGame ++ visit.keepAlives ids)) :=
  ⟨forged, fun _ => ⟨name, status, joinGame, ids, named, List.prefix_rfl⟩, absurd rfl⟩

/-- The stored frames are replayed in order. -/
theorem deliverAll_at {name : String} (named : visit.LoginName name) (forge : visit.config.server.forge = true)
    (done todo : List (List UInt8)) (stands : visit.At (some (done ++ todo)) none (replayed (some done)) seen) :
    Yields (visit.session asks) seen (replayLoginPayload.deliverAll todo : LobbyM JoinGame Unit)
      fun _ ended => visit.At (some (done ++ todo)) none (replayed (some (done ++ todo))) ended := by
  induction todo generalizing done seen with
  | nil => exact .pure (by simpa using stands)
  | cons frame todo ih =>
    rw [List.append_cons] at stands ⊢
    rw [replayLoginPayload.deliverAll]
    by_cases empty : frame = []
    · subst empty
      have same : replayed (some (done ++ [[]])) = replayed (some done) := by simp [replayed]
      refine (Yields.pure rfl : Yields (visit.session asks) seen (writeAll .client [] : LobbyM JoinGame Unit)
        fun _ (ended : Seen) => ended = seen).bind ?_
      rintro _ _ rfl
      exact ih _ (same ▸ stands)
    · have next : replayed (some (done ++ [frame])) = replayed (some done) ++ [.stored frame] := by
        simp [replayed, empty]
      have forged : (some (done ++ [frame] ++ todo)).isSome = visit.config.server.forge := forge.symm
      have whole := (allows_opening named forged none none []).front
      have split_ : replayed (some (done ++ [frame] ++ todo)) =
          replayed (some done) ++ [.stored frame] ++ replayed (some todo) := by
        simp [replayed, empty]
      rw [split_] at whole
      have written : Sending.Frame visit.wire.toCodecs (.stored frame) frame := rfl
      exact (writeAll_at empty stands written whole.front).bind fun _ _ stands => ih _ (next ▸ stands)

theorem serveForge_at {name : String} (rounds : Nat) (named : visit.LoginName name) (conn : Conn) :
    Yields (visit.session True) {} (serveForge visit.wire visit.config rounds visit.client conn)
      fun _ ended => ∃ stored, stored.isSome = visit.config.server.forge ∧
        visit.At stored none (replayed stored) ended := by
  unfold serveForge
  split
  · rename_i forge
    have asks : Yields (visit.session True) {} (perform .readPayload : LobbyM JoinGame (List (List UInt8)))
        fun payload ended => visit.At (some payload) none (replayed (some [])) ended :=
      .perform ⟨forge, fun _ => ⟨rfl, rfl⟩⟩ fun payload => ⟨rfl, rfl, .nil⟩
    refine asks.bind fun payload ended stands => ?_
    refine (deliverAll_at named forge [] payload stands).bind fun _ ended stands => ?_
    have again : Yields (visit.session True) ended (perform .readPayload : LobbyM JoinGame (List (List UInt8)))
        fun _ ended => visit.At (some payload) none (replayed (some payload)) ended := by
      refine .perform ⟨forge, fun none_stored => ?_⟩ fun _ => ⟨?_, stands.2⟩
      · cases stands.1.symm.trans none_stored
      · dsimp only
        rw [stands.1]
        rfl
    refine again.bind fun again ended stands => ?_
    have drains : Settles (visit.session True) (fun seen : Seen => seen = ended)
        (drainForgeResponses visit.wire visit.client rounds again.length conn) :=
      drainForgeResponses_settles (fun _ _ => ⟨trivial, fun _ => rfl⟩)
        (fun _ held => ⟨trivial, fun _ => held⟩) visit.client rounds again.length conn
    refine (drains ended rfl).mono ?_
    rintro _ _ rfl
    exact ⟨some payload, forge.symm, stands⟩
  · rename_i plain
    exact .pure ⟨none, by simpa using plain, rfl, rfl, .nil⟩

/-- What the loop may do leaves the client behind the entrance. -/
theorem entered_advance (op : Op JoinGame) (reply : op.Reply) (permitted : (visit.session False).permits seen op)
    (entered : visit.Entered seen) (held : seen.stored = stored) :
    let after : Seen := (visit.session False).advance seen op reply
    visit.Entered after ∧ after.stored = stored := by
  cases op with
  | write peer frame offset =>
    cases peer with
    | server => exact ⟨entered, held⟩
    | client =>
      match reply with
      | some (taken + 1) =>
        dsimp only
        split
        · obtain ⟨waits, forged, many⟩ := entered
          refine ⟨⟨waits, forged, ?_⟩, held⟩
          simp only [Seen.got, List.length_append]
          omega
        · exact ⟨entered, held⟩
      | some 0 => exact ⟨entered, held⟩
      | none => exact ⟨entered, held⟩
  | ready => exact permitted.1.elim
  | readPayload =>
    obtain ⟨-, fresh⟩ := permitted
    cases was : seen.stored with
    | none =>
      have many := entered.2.2
      rw [(fresh was).1, List.length_nil] at many
      omega
    | some payload =>
      have same : (visit.session False).advance seen .readPayload reply = seen := by
        dsimp only
        rw [was, Option.getD_some, ← was]
      exact same.symm ▸ ⟨entered, held⟩
  | _ => exact ⟨entered, held⟩

theorem scripted_advance (op : Op JoinGame) (reply : op.Reply)
    (permitted : (visit.session True).permits seen op) (scripted : visit.Scripted seen) :
    visit.Scripted ((visit.session True).advance seen op reply) := by
  cases op with
  | write peer frame offset =>
    cases peer with
    | server => exact scripted
    | client =>
      match reply with
      | some (taken + 1) =>
        dsimp only
        split
        · exact ⟨fun _ => permitted, scripted.2⟩
        · exact scripted
      | some 0 => exact scripted
      | none => exact scripted
  | ready =>
    match reply with
    | none => exact scripted
    | some result =>
      obtain ⟨-, waits, forged, many⟩ := permitted
      have nonempty : seen.frames ≠ [] := List.ne_nil_of_length_pos (by omega)
      obtain ⟨script, encodes, allows⟩ := scripted.1 nonempty
      refine ⟨absurd rfl, ?_⟩
      rintro _ ⟨⟩
      exact ⟨many, script, encodes, waits ▸ allows⟩
  | readPayload =>
    obtain ⟨-, fresh⟩ := permitted
    cases was : seen.stored with
    | none =>
      obtain ⟨none_got, waits⟩ := fresh was
      exact ⟨fun got => absurd none_got got, fun frames waited => by cases waits.symm.trans waited⟩
    | some payload =>
      have same : (visit.session True).advance seen .readPayload reply = seen := by
        dsimp only
        rw [was, Option.getD_some, ← was]
      exact same.symm ▸ scripted
  | _ => exact scripted

variable (standard : visit.wire.toCodecs.Standard)

include standard

theorem frame_ne_nil {packet : Outgoing} {client : Client} {frame : List UInt8}
    (encoded : writePacket visit.wire.toCodecs packet client = .ok frame) : frame ≠ [] := by
  obtain ⟨content, client', encoded⟩ := encodedFrame_writePacket encoded
  cases payload : content.encodeWithoutLen visit.wire.toCodecs client' with
  | error fault =>
    rw [RawPacket.encodeWithLen, payload] at encoded
    cases encoded
  | ok bytes =>
    rw [RawPacket.encodeWithLen_eq standard payload] at encoded
    cases encoded
    exact List.append_ne_nil_of_left_ne_nil (List.ne_nil_of_length_pos (varInt_length_pos _)) _

theorem sends_packet (packet : Outgoing) (client : Client) :
    visit.Sends asks stored waited (sendPacket visit.wire .client packet client) [.packet client packet] := by
  intro sofar seen stands allows
  refine follows_except_bind.mpr ?_
  cases encoded : writePacket visit.wire.toCodecs packet client with
  | error fault => exact nofun
  | ok frame => exact writeAll_at (frame_ne_nil standard encoded) stands encoded allows

theorem sends_title (text : String) :
    visit.Sends asks stored waited (titleSend visit.wire visit.playing visit.clientInfo text)
      (visit.title text) :=
  .bind (sends_packet standard _ _) fun _ => .bind (sends_packet standard _ _) fun _ =>
    sends_packet standard _ _

theorem sends_readySound :
    visit.Sends asks stored waited
      (playLobbyReadySound visit.wire visit.config visit.playing visit.clientInfo) visit.readySound := by
  unfold playLobbyReadySound readySound
  cases visit.config.join.lobby.readySound with
  | none => exact .pure
  | some soundName =>
    dsimp only
    split
    · exact .pure
    · exact .bind (sends_packet standard _ _) fun _ => sends_packet standard _ _

theorem sends_farewell (data : JoinGame) (reads : List Read) :
    visit.Sends asks stored waited (do
      titleSend visit.wire visit.playing visit.clientInfo ""
      playLobbyReadySound visit.wire visit.config visit.playing visit.clientInfo
      perform (.sleep SERVER_WARMUP)
      respawnLobbySend visit.wire visit.playing visit.clientInfo data
      drainStream reads) (visit.farewell data) :=
  .bind (sends_title standard _) fun _ => .bind (sends_readySound standard) fun _ =>
    .bind (sends_background (.sleep SERVER_WARMUP) trivial) fun _ =>
      .bind (sends_packet standard _ _) fun _ => .of_settles fun _ =>
        drainStream_settles (fun _ held => ⟨trivial, fun _ => held⟩) reads

/-- What the client is told of the server is whatever the lobby finds of it. -/
theorem sendLobbyPlayPackets_at (stands : visit.At stored waited script seen)
    (allows : ∀ status joinGame, visit.Allows stored waited (script ++ visit.world status joinGame)) :
    Yields (visit.session asks) seen (sendLobbyPlayPackets visit.wire visit.playing visit.clientInfo)
      fun _ ended => ∃ status joinGame,
        visit.At stored waited (script ++ visit.world status joinGame) ended := by
  have rest (status : Option ServerStatus) (joinGame : Option JoinGame) :
      visit.Sends asks stored waited (do
        serverBrandSend visit.wire visit.playing visit.clientInfo
        playerPosSend visit.wire visit.playing visit.clientInfo
        timeUpdateSend visit.wire visit.playing visit.clientInfo) (visit.world status joinGame).tail :=
    .bind (sends_packet standard _ _) fun _ => .bind (sends_packet standard _ _) fun _ =>
      sends_packet standard _ _
  have joins : Yields (visit.session asks) seen
      (joinGameLobbySend visit.wire visit.playing visit.clientInfo) fun _ ended =>
        ∃ status joinGame, visit.At stored waited (script ++
          [.packet visit.playing (visit.wire.lobbyJoinGame visit.before117 status joinGame)]) ended := by
    refine (background_keeps .readStatus trivial).bind ?_
    rintro status _ rfl
    refine (background_keeps .readJoinGame trivial).bind ?_
    rintro joinGame _ rfl
    have whole := allows status joinGame
    rw [world, List.append_cons] at whole
    exact (sends_packet standard _ _ _ _ stands whole.front).mono fun _ _ stands =>
      ⟨status, joinGame, stands⟩
  refine joins.bind ?_
  rintro _ ended ⟨status, joinGame, stands⟩
  have whole := allows status joinGame
  rw [world, List.append_cons] at whole
  refine (rest status joinGame _ _ stands whole).mono fun _ _ stands => ⟨status, joinGame, ?_⟩
  rw [world, List.append_cons]
  exact stands

/-- The loop only ends by failing, or when it is dropped. -/
theorem keepAliveLoop_at (rounds : Nat) (stands : visit.At stored waited script seen)
    (allows : ∀ ids, visit.Allows stored waited (script ++ visit.keepAlives ids)) :
    Yields (visit.session asks) seen
      (keepAliveLoop visit.wire visit.config visit.playing visit.clientInfo rounds) fun _ _ => False := by
  induction rounds generalizing script seen with
  | zero => exact .throw
  | succ rounds ih =>
    have round (id : UInt64) : visit.Sends asks stored waited (do
        sendPacket visit.wire .client (visit.wire.keepAlive visit.before117 id) visit.playing
        titleSend visit.wire visit.playing visit.clientInfo visit.config.join.lobby.message)
        (visit.keepAlives [id]) := by
      rw [keepAlives, List.flatMap_singleton]
      exact .bind (sends_packet standard _ _) fun _ => sends_title standard _
    have turns : keepAliveLoop visit.wire visit.config visit.playing visit.clientInfo (rounds + 1) = (do
        perform .tick
        let id ← perform .nextKeepAliveId
        (do sendPacket visit.wire .client (visit.wire.keepAlive visit.before117 id) visit.playing
            titleSend visit.wire visit.playing visit.clientInfo visit.config.join.lobby.message)
        keepAliveLoop visit.wire visit.config visit.playing visit.clientInfo rounds) := by
      simp [keepAliveLoop, keepAliveSend, before117]
    rw [turns]
    refine (background_keeps .tick trivial).bind ?_
    rintro _ _ rfl
    refine (background_keeps .nextKeepAliveId trivial).bind ?_
    rintro id _ rfl
    refine (round id _ _ stands (allows [id])).bind fun _ _ stands => ih stands fun ids => ?_
    have further := allows (id :: ids)
    rwa [keepAlives, List.flatMap_cons, ← List.append_assoc] at further

/-- When the wait is over, the next part of the script begins. -/
theorem stageWait_at (rounds : Nat) (stands : visit.At stored none script seen)
    (entered : visit.Entered seen)
    (allows : ∀ ids, visit.Allows stored none (script ++ visit.keepAlives ids)) :
    Yields (visit.session True) seen
      (stageWait visit.wire visit.config rounds visit.playing visit.clientInfo)
      fun _ ended => ∃ frames, visit.At stored (some frames) [] ended := by
  have loops : Yields (visit.session False) seen
      (keepAliveLoop visit.wire visit.config visit.playing visit.clientInfo rounds) fun _ _ => False :=
    keepAliveLoop_at standard rounds stands allows
  have raced : ((keepAliveLoop visit.wire visit.config visit.playing visit.clientInfo rounds).run.race
      .ready id).Follows (visit.session True) seen _ :=
    Follows.race_stricter (fun _ ended => ∃ frames, visit.At stored (some frames) [] ended)
      (fun seen => visit.Entered seen ∧ seen.stored = stored)
      (fun _ op reply permitted holds => entered_advance op reply permitted holds.1 holds.2)
      (fun _ op permitted => by
        cases op with
        | ready => exact permitted.1.elim
        | write peer => cases peer <;> exact permitted
        | _ => exact permitted)
      (fun _ holds => ⟨trivial, holds.1⟩)
      (fun _ reply waiting => by
        obtain rfl : reply = none := waiting
        rfl)
      (fun seen reply _ holds won => by
        obtain rfl : reply = some _ := won
        exact ⟨seen.frames, holds.2, rfl, .nil⟩)
      ⟨entered, stands.1⟩ loops
  refine follows_bind.mpr (raced.mono fun result ended calms => ?_)
  match result with
  | .inl (.ok ()) => exact (calms () rfl).elim
  | .inl (.error fault) => exact fun _ failed => by cases failed
  | .inr (.ok ()) => exact fun _ _ => calms
  | .inr (.error ()) => exact fun _ failed => by cases failed

/-! ## Serving a client -/

theorem serveWorld_at {name : String} (rounds : Nat) (named : visit.LoginName name)
    (forged : stored.isSome = visit.config.server.forge)
    (stands : visit.At stored none (replayed stored) seen) :
    Yields (visit.session True) seen
      (serveWorld visit.wire visit.config rounds visit.clientInfo visit.client name)
      fun client ended => client = visit.playing ∧ ∃ frames, visit.At stored (some frames) [] ended := by
  have allows (status : Option ServerStatus) (joinGame : Option JoinGame) (ids : List UInt64) :
      visit.Allows stored none (replayed stored ++
        [.packet visit.client (visit.wire.setCompression COMPRESSION_THRESHOLD)] ++
        [.packet visit.compressing (visit.wire.loginSuccess (offlinePlayerUuid visit.wire name) name)] ++
        visit.world status joinGame ++ visit.keepAlives ids) := by
    have whole := allows_opening named forged status joinGame ids
    simpa [entrance] using whole
  refine (sends_packet standard _ _ _ _ stands (allows none none []).front.front.front).bind
    fun _ _ stands => ?_
  refine (sends_packet standard _ _ _ _ stands (allows none none []).front.front).bind
    fun _ _ stands => ?_
  refine (sendLobbyPlayPackets_at standard stands fun status joinGame =>
    (allows status joinGame []).front).bind ?_
  rintro _ ended ⟨status, joinGame, stands⟩
  have entered : visit.Entered ended := by
    refine ⟨stands.2.1, stands.1 ▸ forged, ?_⟩
    have count := stands.2.2.length_eq
    simp only [List.length_append, world, List.length_cons, List.length_nil] at count
    rw [stands.1]
    omega
  refine (stageWait_at standard rounds stands entered (allows status joinGame)).bind fun _ _ waited => ?_
  exact .pure ⟨rfl, waited⟩

theorem handOver_at (rounds : Nat) {held : List (List UInt8)} (reads : List Read)
    (forged : stored.isSome = visit.config.server.forge)
    (stands : visit.At stored (some held) [] seen) :
    Yields (visit.session True) seen
      (handOver visit.wire visit.config rounds visit.clientInfo visit.inbound visit.backend visit.playing reads)
      fun _ _ => True := by
  have aside : Aside (visit.session True) fun other : Seen => other = seen := aside True seen
  refine ((aside.connectToServer_settles rounds visit.clientInfo visit.inbound visit.backend seen rfl).and_returns
    (connectToServer_returns rounds visit.clientInfo visit.inbound visit.backend)).bind ?_
  rintro ⟨serverClient, conn⟩ _ ⟨rfl, loggedIn⟩
  refine ((aside.waitForServerJoinGame_settles rounds serverClient visit.clientInfo conn _ rfl).and_returns
    (waitForServerJoinGame_returns rounds serverClient loggedIn)).bind ?_
  rintro ⟨joinGameData, conn⟩ _ ⟨rfl, frames, joined, last, found, decoded⟩
  have served : visit.ServedGame joinGameData := ⟨frames, conn, joined, last, found, decoded⟩
  have parts : (do
      titleSend visit.wire visit.playing visit.clientInfo ""
      playLobbyReadySound visit.wire visit.config visit.playing visit.clientInfo
      perform (.sleep SERVER_WARMUP)
      respawnLobbySend visit.wire visit.playing visit.clientInfo joinGameData
      let reads ← drainStream reads
      perform (.relay reads conn.reads conn.buf) : LobbyM JoinGame Unit) = (do
      let reads ← (do
        titleSend visit.wire visit.playing visit.clientInfo ""
        playLobbyReadySound visit.wire visit.config visit.playing visit.clientInfo
        perform (.sleep SERVER_WARMUP)
        respawnLobbySend visit.wire visit.playing visit.clientInfo joinGameData
        drainStream reads)
      perform (.relay reads conn.reads conn.buf)) := by
    simp
  dsimp only
  rw [parts]
  have allows : visit.Allows stored (some held) ([] ++ visit.farewell joinGameData) :=
    ⟨forged, fun none_waited => absurd none_waited (Option.some_ne_none _), fun _ =>
      ⟨joinGameData, served, List.prefix_rfl⟩⟩
  refine (sends_farewell standard joinGameData reads [] _ stands allows).bind fun reads ended stands => ?_
  refine .perform ⟨?_, joinGameData, served, stands.2.2⟩ fun _ => trivial
  rw [stands.2.1]
  exact Option.some_ne_none _

/-- The lobby keeps to the script. -/
theorem serve_session : Yields (visit.session True) {} visit.serve fun _ _ => True := by
  unfold serve Lobby.serve
  split
  · exact .throw
  rename_i login
  have login : visit.client.state = .login := not_ne_iff.mp login
  split
  · exact .throw
  suffices ∀ left frames conn,
      ReadsFrames visit.wire.toCodecs ⟨visit.queue, visit.inbound.reads⟩ frames conn →
      (∀ frame ∈ frames, frame.1.id ≠ visit.wire.serverLoginStart) →
      Yields (visit.session True) {} (serveLoop visit.wire visit.config visit.rounds visit.clientInfo
        visit.inbound visit.backend visit.client left conn) fun _ _ => True from
    this _ [] _ .none (by simp)
  intro left
  induction left with
  | zero => exact fun _ _ _ _ => .throw
  | succ left ih =>
    intro frames conn reads others
    have closes : Yields (visit.session True) {} (do
        if ← perform (.shutdown .client) then return () else throw .err : LobbyM JoinGame Unit)
        fun _ _ => True := by
      refine (background_keeps (.shutdown .client) trivial).bind fun closed _ _ => ?_
      split
      · exact .pure trivial
      · exact .throw
    have still : Settles (visit.session True) (fun seen : Seen => seen = {})
        (receive visit.wire .client visit.client conn) :=
      receive_settles visit.client conn fun _ held => ⟨trivial, fun _ => held⟩
    have returns : (receive visit.wire .client visit.client conn).run.Returns fun result =>
        ∀ value, result = .ok value → value = readPacket visit.wire.toCodecs visit.client conn :=
      (receive_returns ..).mono fun _ same _ found => (Except.ok.inj (same.symm.trans found)).symm
    refine ((still {} rfl).and_returns returns).bind ?_
    rintro _ _ ⟨rfl, rfl⟩
    rcases read : readPacket visit.wire.toCodecs visit.client conn with ⟨(_ | _) | (_ | ⟨packet, raw⟩), mid⟩
    · exact closes
    · exact .throw
    · exact closes
    · have further := reads.append (.one read)
      dsimp only
      split
      · rename_i starts
        cases decoded : visit.wire.decodeLoginStart packet.data with
        | none => exact .throw
        | some name =>
          have named : visit.LoginName name := ⟨frames, (packet, raw), mid, further, others, starts.2, decoded⟩
          refine (serveForge_at visit.rounds named mid).bind ?_
          rintro conn ended ⟨stored, forged, stands⟩
          refine (serveWorld_at standard visit.rounds named forged stands).bind ?_
          rintro _ ended ⟨rfl, held, stands⟩
          exact handOver_at standard visit.rounds conn.reads forged stands
      · rename_i other
        refine ih _ mid further fun frame member => ?_
        rcases List.mem_append.mp member with earlier | last
        · exact others frame earlier
        · rw [List.mem_singleton.mp last]
          exact fun id => other ⟨login, id⟩

/-- Whatever the socket and the server do, what a lobby client has got to its end is the script as
far as it has come: the Forge login as it was stored, the entrance under the name of its first
login start, rounds of the keep-alive, the last of them cut off where the wait for the server was
over, and the farewell with the game data of the server, all of which it has got when it is handed
over. -/
theorem lobby_session {log : List ((op : Op JoinGame) × op.Reply)}
    {rest : Program (Op JoinGame) Op.Reply (Outcome Unit)} (performed : visit.serve.run.Performs log rest) :
    let after (log : List ((op : Op JoinGame) × op.Reply)) : Seen := (visit.session True).after ({} : Seen) log
    ((after log).waited = none → (after log).frames ≠ [] →
      (after log).stored.isSome = visit.config.server.forge ∧
      ∃ script, Encodes visit.wire.toCodecs script (after log).frames ∧
        visit.Opens (after log).stored script) ∧
    (∀ frames, (after log).waited = some frames →
      (after log).stored.isSome = visit.config.server.forge ∧
      (∃ name status joinGame ids rounds, visit.LoginName name ∧ rounds <+: visit.keepAlives ids ∧
        Encodes visit.wire.toCodecs
          (replayed (after log).stored ++ (visit.entrance name status joinGame ++ rounds)) frames) ∧
      ((after log).frames ≠ [] → ∃ script, Encodes visit.wire.toCodecs script (after log).frames ∧
        visit.Closes script)) ∧
    ∀ early reads outbound queue late, log = early ++ ⟨.relay reads outbound queue, ()⟩ :: late →
      (after early).waited ≠ none ∧ ∃ data, visit.ServedGame data ∧
        Encodes visit.wire.toCodecs (visit.farewell data) (after early).frames := by
  intro after
  have follows : visit.serve.run.Follows (visit.session True) ({} : Seen) _ := serve_session standard
  have scripted : visit.Scripted (after log) :=
    follows.invariant visit.Scripted (fun _ op reply permitted held => scripted_advance op reply permitted held)
      ⟨absurd rfl, fun _ waited => by cases waited⟩ performed
  refine ⟨fun waits got => ?_, fun frames waited => ?_, ?_⟩
  · obtain ⟨script, encodes, forged, opens, -⟩ := scripted.1 got
    exact ⟨forged, script, encodes, opens waits⟩
  · obtain ⟨many, script, encodes, forged, opens, -⟩ := scripted.2 frames waited
    refine ⟨forged, ?_, fun got => ?_⟩
    · obtain ⟨name, status, joinGame, ids, named, front⟩ := opens rfl
      rw [← List.append_assoc] at front
      have count : (replayed (after log).stored ++ visit.entrance name status joinGame).length ≤ script.length := by
        rw [encodes.length_eq]
        simpa [entrance, world] using many
      obtain ⟨rounds, rfl⟩ := List.prefix_of_prefix_length_le (List.prefix_append ..) front count
      refine ⟨name, status, joinGame, ids, rounds, named, (List.prefix_append_right_inj _).mp front, ?_⟩
      rwa [← List.append_assoc]
    · obtain ⟨script, encodes, -, -, closes⟩ := scripted.1 got
      exact ⟨script, encodes, closes (waited ▸ Option.some_ne_none _)⟩
  · rintro early reads outbound queue late rfl
    exact follows.permits_of_performs performed

end

/-- The player of the run above, to whom a quick server is ready at once. -/
def ofPlayer : Visit Unit Unit where
  wire := plainLobbyWire
  config := { join := { lobby := { readySound := none } } }
  rounds := 9
  clientInfo := player
  inbound := playerSocket
  backend := quickServer
  client := { peer := playerSocket.peerAddr, state := .login }
  queue := []

private theorem ofPlayer_handed :
    ((ofPlayer.serve.run.answered (.replicate 27 cooperate)).1[26]?.bind fun done => done.1.handed) =
      some ([.data [3], .data [0, 0, 0]], [.data [0x40]], [1]) := by
  decide +kernel

/-- By the time the player is handed over it has got the three packets of the empty title and the
respawn. -/
theorem lobby_session_player :
    let early := (ofPlayer.serve.run.answered (.replicate 27 cooperate)).1.take 26
    let seen : Seen := (ofPlayer.session True).after ({} : Seen) early
    seen.waited ≠ none ∧ ∃ data, ofPlayer.ServedGame data ∧
      Encodes ofPlayer.wire.toCodecs (ofPlayer.farewell data) seen.frames :=
  (lobby_session plainCodecs_standard (performs_found handed_only ofPlayer_handed)).2.2 _ _ _ _ _ rfl

end Visit
end PlexPaper.Lobby
