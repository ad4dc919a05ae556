import PlexPaper.Probe

/-! How the results of a probe become visible. The lobby judges readiness by the
game data. The probe stores that first, while it is still connected, and the
login plugin requests later: after the connection is closed, behind another
lock, and not at all when its deadline passes in between. -/
namespace PlexPaper.Probe
open Tasks Outcome Program

/-- How far a task has come: a probe with its two stores, a lobby client with its
check. -/
inductive Stage where
  | probing
  | joined
  | stored
  | waiting
  | admitted
  | turnedAway
  deriving DecidableEq

section Order

variable {ModList JoinGame : Type}

def Stage.advance : Stage → (op : Op JoinGame) → op.Reply → Stage
  | .probing, .storeJoinGame _, _ => .joined
  | .joined, .storePayload _, _ => .stored
  | .waiting, .readJoinGame, some _ => .admitted
  | .waiting, .readJoinGame, none => .turnedAway
  | stage, _, _ => stage

/-- The game data is stored before the payload, the payload is the complete one,
and only an admitted client reads it. -/
def Stage.permits (recorded : List (List UInt8)) : Stage → Op JoinGame → Prop
  | stage, .storeJoinGame _ => stage = .probing
  | stage, .storePayload payload => stage = .joined ∧ payload = recorded
  | stage, .readJoinGame => stage = .waiting
  | stage, .readPayload => stage = .admitted
  | _, _ => True

abbrev publication (JoinGame : Type) (recorded : List (List UInt8)) :
    Protocol (Op JoinGame) Op.Reply Entry where
  Stage := Stage
  advance := Stage.advance
  permits := Stage.permits recorded
  enter
    | .probe => .probing
    | .lobby => .waiting

variable (wire : Wire ModList JoinGame) (config : Config) {recorded : List (List UInt8)}

/-- The order of operations, with the list a probe must store. -/
abbrev order (JoinGame : Type) (recorded : List (List UInt8)) : Discipline (Op JoinGame) Op.Reply :=
  (publication JoinGame recorded).toDiscipline

/-- What is known of a result that is not an error. -/
def OnOk {α : Type} (post : α → Stage → Prop) (result : Outcome α) (stage : Stage) : Prop :=
  ∀ value, result = .ok value → post value stage

@[simp] theorem onOk_error {α : Type} {post : α → Stage → Prop} {fault : Fault} {stage : Stage} :
    OnOk post (.error fault) stage := nofun

@[simp] theorem onOk_ok {α : Type} {post : α → Stage → Prop} {value : α} {stage : Stage} :
    OnOk post (.ok value) stage ↔ post value stage :=
  ⟨fun holds => holds value rfl, by rintro holds _ ⟨⟩; exact holds⟩

/-- Does the operation touch neither of the two locks? -/
def Op.neutral : Op JoinGame → Bool
  | .storeJoinGame _ | .storePayload _ | .readJoinGame | .readPayload => false
  | _ => true

theorem neutral_quiet {op : Op JoinGame} (neutral : op.neutral = true) (stage : Stage) :
    (order JoinGame recorded).QuietAt stage op := by
  cases op with
  | storeJoinGame | storePayload | readJoinGame | readPayload => cases neutral
  | _ => exact ⟨trivial, fun _ => by cases stage <;> rfl⟩

theorem timeoutErr_follows {α : Type} {timer : Timer} {task : ProbeM JoinGame (Outcome α)}
    {stage : Stage} {post : α → Stage → Prop}
    (follows : task.Follows (order JoinGame recorded) stage (OnOk post)) :
    (timeoutErr timer task).Follows (order JoinGame recorded) stage (OnOk post) := by
  rw [timeoutErr, follows_bind]
  apply (follows.timeout (neutral_quiet rfl)).mono
  intro result ended holds
  cases result with
  | some result => exact holds result rfl
  | none => exact onOk_error

theorem taskWait_keeps (updates : Nat) (stage : Stage) :
    (taskWait updates).Keeps (order JoinGame recorded) stage := by
  induction updates with
  | zero => exact .pure
  | succ updates ih =>
    apply Keeps.bind (.perform (neutral_quiet rfl stage))
    intro state
    cases state with
    | starting => exact ih
    | started | stopping | stopped => exact .pure

theorem sendPacket_keeps (packet : Outgoing) (client : Client) (stage : Stage) :
    (sendPacket wire packet client).Keeps (order JoinGame recorded) stage := by
  unfold sendPacket
  cases writePacket wire.toCodecs packet client with
  | error fault => exact .pure
  | ok bytes =>
    apply Keeps.bind (.perform (neutral_quiet rfl stage))
    intro sent
    exact .ite (fun _ => .pure) (fun _ => .pure)

theorem waitForServerJoinGameNoTimeout_keeps (client : Client) (clientInfo : ClientInfo)
    (limit : Nat) (conn : Conn) (stage : Stage) :
    (waitForServerJoinGameNoTimeout wire client clientInfo limit conn).Keeps
      (order JoinGame recorded) stage := by
  induction limit generalizing conn with
  | zero => exact .pure
  | succ limit ih =>
    apply Keeps.bind (.perform (neutral_quiet rfl stage))
    intro _
    rcases readPacket wire.toCodecs client conn with ⟨(_ | _) | (_ | sent), after⟩
    · exact .bind (.perform (neutral_quiet rfl stage)) fun _ => .pure
    · exact .pure
    · exact .bind (.perform (neutral_quiet rfl stage)) fun _ => .pure
    · exact .ite (fun _ => .pure) (fun _ => ih after)

/-- The login loop stores the game data at its very end, and returns the frames
recorded so far and from there on. -/
theorem loginLoop_follows (clientInfo : ClientInfo) (limit : Nat) (client : Client) (conn : Conn)
    (forgePayload : List (List UInt8)) :
    (loginLoop wire config clientInfo limit client conn forgePayload).Follows
      (order JoinGame recorded) .probing (OnOk fun frames stage =>
        stage = .joined ∧ frames = forgePayload ++ recordedFrames wire config limit client conn) := by
  induction limit generalizing client conn forgePayload with
  | zero => exact onOk_error
  | succ limit ih =>
    apply Follows.request trivial
    intro _
    rcases read : readPacket wire.toCodecs client conn with ⟨(_ | _) | (_ | ⟨packet, raw⟩), after⟩
    · exact ⟨trivial, fun _ => onOk_error⟩
    · exact onOk_error
    · exact ⟨trivial, fun _ => onOk_error⟩
    · rcases decided : loginStep wire config client packet with fault | step
      · simp only [decided]
        exact onOk_error
      · simp only [decided, recordedFrames, read]
        cases step with
        | setCompression threshold => exact ih _ after forgePayload
        | respond record bytes =>
          apply Follows.request trivial
          intro sent
          cases sent with
          | false => exact onOk_error
          | true =>
            apply (ih client after _).mono
            intro result ended holds frames ok
            obtain ⟨joined, rfl⟩ := holds frames ok
            exact ⟨joined, by cases record <;> simp⟩
        | success =>
          change Follows _
            (waitForServerJoinGame wire (client.setState .play) clientInfo limit after >>= _) _ _
          rw [follows_bind]
          have found : (waitForServerJoinGame wire (client.setState .play) clientInfo limit
              after).Follows (order JoinGame recorded) .probing
              (OnOk fun _ stage => stage = .probing) :=
            timeoutErr_follows ((waitForServerJoinGameNoTimeout_keeps wire _ _ _ _ _).follows
              fun _ _ _ => rfl)
          apply found.mono
          intro result ended holds
          cases result with
          | error fault => exact onOk_error
          | ok joinGame =>
            cases holds joinGame rfl
            exact ⟨rfl, fun _ => ⟨trivial, fun _ => onOk_ok.mpr ⟨rfl, by simp⟩⟩⟩
        | unhandled => exact ih client after forgePayload

/-- Cut off by its deadline or not, a connection that returns has stored the game
data and returns everything it recorded. -/
theorem connectToServer_follows (backend : Backend) :
    (connectToServer wire config backend).Follows (order JoinGame recorded) .probing
      (OnOk fun frames stage => stage = .joined ∧ frames = backend.recorded wire config) := by
  apply timeoutErr_follows
  rw [connectToServerNoTimeout, perform_bind]
  apply Follows.request trivial
  intro connected
  cases connected with
  | false => exact onOk_error
  | true =>
    apply follows_bind.mpr
    apply (sendPacket_keeps wire _ _ Stage.probing).follows
    intro sent
    cases sent with
    | error fault => exact onOk_error
    | ok _ =>
      apply follows_bind.mpr
      apply (sendPacket_keeps wire _ _ Stage.probing).follows
      intro sent
      cases sent with
      | error fault => exact onOk_error
      | ok _ => exact loginLoop_follows wire config _ _ _ _ []

theorem probe_follows (backend : Backend) :
    (probe wire config backend).Follows (order JoinGame (backend.recorded wire config)) .probing
      fun _ _ => True := by
  rw [probe, perform_bind]
  refine ⟨trivial, fun _ => follows_bind.mpr ?_⟩
  have waits : (waitUntilOnline backend.updates).Follows
      (order JoinGame (backend.recorded wire config)) .probing fun online stage =>
        online = true → Stage.probing = stage := by
    refine follows_bind.mpr ((((taskWait_keeps backend.updates Stage.probing).follows
      fun _ => rfl).timeout (neutral_quiet rfl)).mono ?_)
    intro online stage holds
    cases online with
    | some online => exact fun _ => holds online rfl
    | none => nofun
  apply waits.mono
  intro online stage holds
  cases online with
  | false => trivial
  | true =>
    cases holds rfl
    apply follows_bind.mpr
    apply (connectToServer_follows wire config backend).mono
    intro result ended stores
    cases result with
    | error fault => trivial
    | ok frames => exact ⟨stores frames rfl, fun _ => trivial⟩

theorem replayLoginPayload_follows :
    (replayLoginPayload : ProbeM JoinGame Unit).Follows (order JoinGame recorded) .admitted
      fun _ _ => True := by
  apply Follows.request rfl
  intro frames
  have delivers : (replayLoginPayload.deliverAll frames : ProbeM JoinGame Unit).Keeps
      (order JoinGame recorded) .admitted := by
    induction frames with
    | nil => exact .pure
    | cons frame frames ih =>
      apply Keeps.bind (.perform (neutral_quiet rfl _))
      intro delivered
      cases delivered with
      | true => exact ih
      | false => exact .pure
  exact delivers.follows fun _ => trivial

theorem occupy_follows :
    (occupy config : ProbeM JoinGame Unit).Follows (order JoinGame recorded) .waiting
      fun _ _ => True := by
  unfold occupy mustStillProbe
  by_cases forge : config.server.forge = true
  · simp only [forge, if_true]
    apply Follows.request rfl
    intro joinGame
    cases joinGame with
    | none => trivial
    | some joinGame =>
      apply Follows.request trivial
      intro started
      cases started with
      | true => exact replayLoginPayload_follows
      | false => trivial
  · simp only [forge]
    apply Follows.request trivial
    intro started
    cases started <;> trivial

theorem probing_obeys (backend : Backend) :
    (probing wire config backend).Obeys (publication JoinGame (backend.recorded wire config)) := by
  intro entry _
  cases entry with
  | probe => exact follows_bind.mpr ((probe_follows wire config backend).mono fun _ _ _ => trivial)
  | lobby => exact occupy_follows config

end Order

section Runs

variable {ModList JoinGame : Type} {wire : Wire ModList JoinGame} {config : Config}
  {backend : Backend} {recorded : List (List UInt8)}

abbrev Proxy (JoinGame : Type) := Pool (Op JoinGame) Op.Reply (World JoinGame) Entry

/-- Nothing probed and nobody joined. -/
def Proxy.boot : Proxy JoinGame := System.initial {}

/-- How far each task has come. -/
def Proxy.stages (proxy : Proxy JoinGame) : List Stage := (publication JoinGame []).stages proxy

/-- The game data is stored and the payload is not: the probe is closing its
connection, or was cut off doing so. -/
def Unfinished (proxy : Proxy JoinGame) : Prop :=
  .joined ∈ proxy.stages ∧ .stored ∉ proxy.stages

/-- The move is a check of `must_still_probe` that answers that the lobby is ready. -/
def Admits (proxy : Proxy JoinGame) : Move Answer Entry Empty → Prop
  | .run index _ => proxy.tasks[index]?.bind Task.next? = some .readJoinGame ∧
      proxy.world.probedJoinGame ≠ none
  | _ => False

/-- Every client found the lobby ready only with this payload in place, and will
have it replayed. -/
def Complete (recorded : List (List UInt8)) (proxy : Proxy JoinGame) : Prop :=
  .admitted ∈ proxy.stages → proxy.world.forgePayload = recorded

/-- What the locks hold, by how far the probes have come. -/
structure Published (recorded : List (List UInt8)) (world : World JoinGame) (stages : List Stage) :
    Prop where
  joined : world.probedJoinGame ≠ none → .joined ∈ stages ∨ .stored ∈ stages
  payload : world.forgePayload = if .stored ∈ stages then recorded else []

/-- One operation either stores or checks, or changes nothing. -/
theorem execute_cases {world after : World JoinGame} {op : Op JoinGame} {answer : Answer}
    {reply : op.Reply} {stage : Stage} (permitted : stage.permits recorded op)
    (executed : world.execute op answer = some (reply, after)) :
    (stage = .probing ∧ stage.advance op reply = .joined ∧ op ≠ .readJoinGame ∧
        after.forgePayload = world.forgePayload) ∨
      (stage = .joined ∧ stage.advance op reply = .stored ∧ op ≠ .readJoinGame ∧
        after.forgePayload = recorded) ∨
      (stage = .waiting ∧ op = .readJoinGame ∧ after = world ∧
        stage.advance op reply =
          if world.probedJoinGame.isSome then .admitted else .turnedAway) ∨
      (stage.advance op reply = stage ∧ op ≠ .readJoinGame ∧ after = world) := by
  cases op with
  | storeJoinGame joinGame =>
    cases executed
    cases (show stage = .probing from permitted)
    exact .inl ⟨rfl, rfl, nofun, rfl⟩
  | storePayload payload =>
    cases executed
    obtain ⟨rfl, rfl⟩ := permitted
    exact .inr (.inl ⟨rfl, rfl, nofun, rfl⟩)
  | readJoinGame =>
    cases executed
    cases (show stage = .waiting from permitted)
    refine .inr (.inr (.inl ⟨rfl, rfl, rfl, ?_⟩))
    cases world.probedJoinGame <;> rfl
  | _ =>
    cases executed
    exact .inr (.inr (.inr ⟨by cases stage <;> rfl, nofun, rfl⟩))

theorem Published.proceed {world after : World JoinGame} {op : Op JoinGame} {answer : Answer}
    {reply : op.Reply} {stage : Stage} {left right : List Stage}
    (held : Published recorded world (left ++ stage :: right))
    (permitted : stage.permits recorded op)
    (executed : world.execute op answer = some (reply, after)) :
    Published recorded after (left ++ stage.advance op reply :: right) := by
  obtain ⟨joined, payload⟩ := held
  rcases execute_cases permitted executed with ⟨rfl, moved, -, same⟩ | ⟨rfl, moved, -, stored⟩ |
    ⟨rfl, -, rfl, moved⟩ | ⟨moved, -, rfl⟩
  · rw [moved]
    refine ⟨fun _ => .inl (by simp), ?_⟩
    rw [same, payload]
    simp
  · rw [moved]
    refine ⟨fun _ => .inr (by simp), ?_⟩
    rw [stored]
    simp
  · rw [moved]
    split
    · exact ⟨by simpa using joined, by simpa using payload⟩
    · exact ⟨by simpa using joined, by simpa using payload⟩
  · rw [moved]
    exact ⟨joined, payload⟩

theorem published {condition : Proxy JoinGame → Move Answer Entry Empty → Prop}
    {proxy : Proxy JoinGame}
    (reached : (probing wire config backend).Reaches condition Proxy.boot proxy) :
    Published (backend.recorded wire config) proxy.world proxy.stages := by
  refine Protocol.invariant (probing_obeys wire config backend)
    (Published (backend.recorded wire config)) ⟨fun stored => absurd rfl stored, rfl⟩ ?_ ?_ ?_
    reached
  · intro world stages entry _ held
    refine ⟨fun stored => ?_, ?_⟩
    · have := held.joined stored
      simp only [List.mem_append]
      exact this.imp .inl .inl
    · rw [held.payload]
      cases entry <;> simp
  · intro world stages event
    cases event
  · intro pool index answer task op reply after left right _ _ _ permitted executed _ held
    simpa [probing] using held.proceed permitted executed

theorem step_stages {before after : Proxy JoinGame} {index : Nat} {answer : Answer}
    (reached : (probing wire config backend).Reaches (fun _ _ => True) Proxy.boot before)
    (stepped : (probing wire config backend).step before (.run index answer) = some after) :
    ∃ (op : Op JoinGame) (reply : op.Reply) (stage : Stage) (left right : List Stage),
      before.tasks[index]?.bind Task.next? = some op ∧
      stage.permits (backend.recorded wire config) op ∧
      before.world.execute op answer = some (reply, after.world) ∧
      before.stages = left ++ stage :: right ∧
      after.stages = left ++ stage.advance op reply :: right := by
  obtain ⟨task, op, reply, left, right, found, waiting, permitted, executed, around, becomes⟩ :=
    Protocol.step_run (probing_obeys wire config backend) reached stepped
  refine ⟨op, reply, _, left, right, by simp [found, waiting], permitted, executed, around, ?_⟩
  have none : (probing wire config backend).spawns op = [] := rfl
  rw [none, List.map_nil, List.append_nil] at becomes
  exact becomes

/-- One move keeps every admitted client's payload complete exactly when it does
not admit one too early. -/
theorem complete_step {before after : Proxy JoinGame} {move : Move Answer Entry Empty}
    (reached : (probing wire config backend).Reaches (fun _ _ => True) Proxy.boot before)
    (held : Complete (backend.recorded wire config) before)
    (stepped : (probing wire config backend).step before move = some after) :
    Complete (backend.recorded wire config) after ↔
      (Admits before move → Unfinished before → backend.recorded wire config = []) := by
  cases move with
  | call entry =>
    simp only [System.step] at stepped
    split at stepped
    · cases stepped
      refine ⟨fun _ admits => admits.elim, fun _ admitted => held ?_⟩
      cases entry <;> simpa [Proxy.stages, Protocol.stages] using admitted
    · cases stepped
  | outside event => cases event
  | run index answer =>
    obtain ⟨op, reply, stage, left, right, waiting, permitted, executed, was, now⟩ :=
      step_stages reached stepped
    obtain ⟨joined, payload⟩ := published reached
    have admits : Admits before (.run index answer) ↔
        op = .readJoinGame ∧ before.world.probedJoinGame ≠ none := by
      simp [Admits, waiting]
    unfold Complete Unfinished at *
    rw [was] at held joined payload ⊢
    rw [now]
    rcases execute_cases permitted executed with ⟨rfl, moved, other, same⟩ |
      ⟨rfl, moved, other, stored⟩ | ⟨rfl, check, same, moved⟩ | ⟨moved, other, same⟩
    · simp only [admits, other, false_and, false_implies, iff_true, moved, same]
      simpa using held
    · simp only [admits, other, false_and, false_implies, stored, implies_true]
    · rw [moved, same]
      cases found : before.world.probedJoinGame with
      | none =>
        simp only [admits, found, ne_eq, not_true_eq_false, and_false, false_implies, iff_true]
        simpa using held
      | some joinGame =>
        have either := joined (by simp [found])
        have admitted : Stage.admitted ∈ left ++ (if (some joinGame).isSome then .admitted
            else .turnedAway) :: right := by simp
        have asks : Admits before (.run index answer) :=
          admits.mpr ⟨check, by simp [found]⟩
        simp only [admitted, asks, true_implies]
        by_cases stored : Stage.stored ∈ left ++ .waiting :: right
        · rw [payload, if_pos stored]
          exact ⟨fun _ unfinished => absurd stored unfinished.2, fun _ => rfl⟩
        · rw [payload, if_neg stored]
          exact ⟨fun empty _ => empty.symm, fun none => (none ⟨either.resolve_right stored, stored⟩).symm⟩
    · simp only [admits, other, false_and, false_implies, iff_true, moved, same]
      exact held

theorem complete_boot : Complete recorded (Proxy.boot : Proxy JoinGame) := by
  intro admitted
  simp [Proxy.stages, Protocol.stages, Proxy.boot, System.initial] at admitted

/-- A client only ever finds the lobby ready with the complete payload in place,
in every state of a run, exactly when no client asks while the probe has stored
the game data and not yet the payload, unless there was nothing to record. -/
theorem admitted_payload_complete_iff (wire : Wire ModList JoinGame) (config : Config)
    (backend : Backend) (moves : List (Move Answer Entry Empty)) :
    (probing wire config backend).Every
        (fun _ _ after => Complete (backend.recorded wire config) after) Proxy.boot moves ↔
      (probing wire config backend).Every
        (fun before move _ => Admits before move → Unfinished before →
          backend.recorded wire config = []) Proxy.boot moves :=
  System.every_invariant_iff complete_boot
    (fun _ _ _ reached held stepped => complete_step reached held stepped) moves

/-- What a replay then reads is what the probe recorded. -/
theorem replay_reads_complete {before after : Proxy JoinGame} {index : Nat} {answer : Answer}
    (reached : (probing wire config backend).Reaches (fun _ _ => True) Proxy.boot before)
    (held : Complete (backend.recorded wire config) before)
    (waiting : before.tasks[index]?.bind Task.next? = some .readPayload)
    (stepped : (probing wire config backend).step before (.run index answer) = some after) :
    before.world.forgePayload = backend.recorded wire config := by
  obtain ⟨op, reply, stage, left, right, next, permitted, -, was, -⟩ := step_stages reached stepped
  cases waiting.symm.trans next
  cases (show stage = .admitted from permitted)
  exact held (by simp [was])

end Runs

/-- The packet formats, as far as the two frames below go. -/
def plainWire : Wire Unit Unit where
  toCodecs := plainCodecs
  clientLoginSuccess := 2
  clientSetCompression := 3
  clientLoginPluginRequest := 4
  modList := 1
  handshake _ := ⟨0, some []⟩
  loginStart name := ⟨0, some (varInt (asI32 name.utf8ByteSize) ++ name.toUTF8.toList)⟩
  loginPluginResponse response := ⟨2, some (varInt response.messageId ++ 1 :: response.data)⟩
  acknowledgement := ⟨99, some []⟩
  modListReply _ := ⟨2, some []⟩
  encodeLoginWrapper wrapper := some wrapper.packet
  decodeLoginWrapper data := some ⟨CHANNEL_HANDSHAKE, data.drop 15⟩
  decodeSetCompression data := (readVarInt plainCodecs data).map (·.2)
  decodeLoginPluginRequest data := some ⟨1, CHANNEL_LOGIN_WRAPPER, data.drop 18⟩
  decodeModList _ := none
  protocol117 := 755
  joinGame116 := 0x24
  joinGame117 := 0x26
  decodeJoinGame116 _ := some ()
  decodeJoinGame117 _ := some ()
  showIp _ := "127.0.0.1"

/-- A login plugin request: message 1, for `fml:loginwrapper`, wrapping the packet
`[3, 0]` for `fml:handshake`. -/
def pluginRequestFrame : List UInt8 :=
  [36, 4, 1, 16, 102, 109, 108, 58, 108, 111, 103, 105, 110, 119, 114, 97, 112, 112, 101, 114,
    13, 102, 109, 108, 58, 104, 97, 110, 100, 115, 104, 97, 107, 101, 2, 3, 0]

/-- A Forge server that sends one such request before it lets the probe in. -/
def forgeServer : Backend where
  address := none
  reads := [.data pluginRequestFrame, .data [1, 2], .data [1, 0x26]]
  updates := 1

/-- The probe up to its storing of the game data, and a client that joins then. -/
def joinBeforePayload : List (Move Answer Entry Empty) :=
  .call .probe :: List.replicate 21 (.run 0 {}) ++ [.call .lobby, .run 1 {}]

/-- That client is admitted with nothing to replay. -/
theorem admitted_without_payload :
    ¬ ∀ (ModList JoinGame : Type) (wire : Wire ModList JoinGame) (config : Config)
        (backend : Backend) (moves : List (Move Answer Entry Empty)), config.server.forge = true →
      (probing wire config backend).Every
        (fun _ _ after => Complete (backend.recorded wire config) after) Proxy.boot moves := by
  intro every
  let config : Config := { server := { forge := true } }
  have early : ((probing plainWire config forgeServer).play (fun _ _ => True) Proxy.boot
      joinBeforePayload).map (fun (proxy : Proxy Unit) => decide (.admitted ∈ proxy.stages ∧
        proxy.world.forgePayload ≠ forgeServer.recorded plainWire config)) = some true := by
    decide
  obtain ⟨proxy, played, facts⟩ := Option.map_eq_some_iff.mp early
  obtain ⟨admitted, incomplete⟩ := of_decide_eq_true facts
  exact incomplete (System.every_played _ complete_boot
    (every Unit Unit plainWire config forgeServer joinBeforePayload rfl) played admitted)

end PlexPaper.Probe
