import PlexPaper.Join

/-! What becomes of a client that is handed to `join::occupy`: the methods are asked in their
order, the first that does not decline takes the socket for good, and one that declines has not
touched it. -/
namespace PlexPaper.Join
open Tasks Outcome Program

section

variable {ModList JoinGame : Type} (wire : JoinWire ModList JoinGame) (config : Config) (rounds : Nat)
  (backend : PlexPaper.Lobby.Backend) (client : Client) (clientInfo : ClientInfo)
  (inbound : TcpStream) (inboundHistory loginQueue : List UInt8)

/-- `hold::occupy` has waited, and this came of it. -/
def Held (result : Waiting.MethodResult) (log : List ((op : Op JoinGame) × op.Reply)) : Prop :=
  ∃ waits : List ((op : Waiting.Op) × op.Reply),
    (Waiting.holdOccupy rounds).Performs waits (.pure result) ∧
      log = waits.map fun done => ⟨.wait done.1, done.2⟩

/-- These methods decline the client, one after the other: a hold that is not needed or in vain,
and a lobby that has not probed the server yet. -/
inductive Declined : List Method → List ((op : Op JoinGame) × op.Reply) → Prop
  | nil : Declined [] []
  | hold {methods : List Method} {log rest : List ((op : Op JoinGame) × op.Reply)}
      (held : Held rounds .continue_ log) (others : Declined methods rest) :
      Declined (.hold :: methods) (log ++ rest)
  | lobby {methods : List Method} {rest : List ((op : Op JoinGame) × op.Reply)}
      (forge : Lobby.mustProbe config = true) (others : Declined methods rest) :
      Declined (.lobby :: methods) (⟨.lobby .readJoinGame, none⟩ :: rest)

/-- What a kicked client is told. -/
def kickMessage : State → String
  | .starting | .stopped | .started => config.join.kick.starting
  | .stopping => config.join.kick.stopping

/-- The method has taken the client, and this is all that it does with the socket. -/
inductive Took : Method → List ((op : Op JoinGame) × op.Reply) → Prop
  | kick {state : State} {bytes : List UInt8}
      (message : kick wire.toStatusWire client (kickMessage config state) = .ok bytes) :
      Took .kick [⟨.wait (.server .loadState), state⟩, ⟨.write bytes, true⟩, ⟨.close, true⟩]
  | hold {log : List ((op : Op JoinGame) × op.Reply)} (held : Held rounds .consumed log) :
      Took .hold (log ++ [⟨.relay inbound (ProxyHeader.proxy.notNone config.server.sendProxyV2)
        config.server.address inboundHistory, ()⟩])
  | forward : Took .forward [⟨.relay inbound (ProxyHeader.proxy.notNone config.join.forward.sendProxyV2)
      config.join.forward.address inboundHistory, ()⟩]
  | lobby {probed : List ((op : Op JoinGame) × op.Reply)}
      {served : List ((op : PlexPaper.Lobby.Op JoinGame) × op.Reply)}
      (ready : if Lobby.mustProbe config then
          ∃ joinGame, probed = [⟨.lobby .readJoinGame, some joinGame⟩] else probed = [])
      (serves : Completes (PlexPaper.Lobby.serve wire.toLobbyWire config rounds clientInfo inbound backend
        client loginQueue) served ()) :
      Took .lobby (probed ++ served.map fun done => ⟨.lobby done.1, done.2⟩)

/-- All methods decline the client and its connection is closed, or one takes it. -/
def Disposes (methods : List Method) (log : List ((op : Op JoinGame) × op.Reply)) : Prop :=
  (∃ declined, Declined config rounds methods declined ∧ log = declined ++ [⟨.close, true⟩]) ∨
  ∃ earlier method later declined took, methods = earlier ++ method :: later ∧
    Declined config rounds earlier declined ∧
    Took wire config rounds backend client clientInfo inbound inboundHistory loginQueue method took ∧
    log = declined ++ took

end

section

variable {ModList JoinGame : Type} {wire : JoinWire ModList JoinGame} {config : Config} {rounds : Nat}
  {backend : PlexPaper.Lobby.Backend} {client : Client} {clientInfo : ClientInfo}
  {inbound : TcpStream} {inboundHistory loginQueue : List UInt8}
  {log : List ((op : Op JoinGame) × op.Reply)} {result : MethodResult}

theorem closeTcpStream_completes :
    Completes (closeTcpStream : JoinM JoinGame Unit) log () ↔ log = [⟨.close, true⟩] := by
  unfold closeTcpStream
  rw [completes_bind]
  constructor
  · rintro ⟨closed, early, late, first, second, rfl⟩
    obtain rfl := completes_perform.mp first
    cases closed with
    | true =>
      obtain ⟨rfl, -⟩ := completes_pure.mp second
      rfl
    | false => exact (completes_throw second).elim
  · rintro rfl
    exact ⟨true, _, [], completes_perform.mpr rfl, completes_pure.mpr ⟨rfl, rfl⟩, rfl⟩

/-- What `kick::occupy` does once it knows the message. -/
theorem kick_completes_told {message : String} :
    Completes (do
      let bytes ← ExceptT.mk (Pure.pure (kick wire.toStatusWire client message))
      if ← perform (.write bytes) then
        closeTcpStream
        return .consumed
      else throw .err : JoinM JoinGame MethodResult) log result ↔
    result = .consumed ∧ ∃ bytes, kick wire.toStatusWire client message = .ok bytes ∧
      log = [⟨.write bytes, true⟩, ⟨.close, true⟩] := by
  rw [completes_bind]
  constructor
  · rintro ⟨bytes, _, late, first, second, rfl⟩
    obtain ⟨rfl, encoded⟩ := completes_known.mp first
    obtain ⟨written, _, rest, writes, third, rfl⟩ := completes_bind.mp second
    obtain rfl := completes_perform.mp writes
    cases written with
    | true =>
      obtain ⟨_, _, last, closes, returns, rfl⟩ := completes_bind.mp third
      obtain rfl := closeTcpStream_completes.mp closes
      obtain ⟨rfl, rfl⟩ := completes_pure.mp returns
      exact ⟨rfl, bytes, encoded, rfl⟩
    | false => exact (completes_throw third).elim
  · rintro ⟨rfl, bytes, encoded, rfl⟩
    have closes : Completes (do closeTcpStream; return .consumed : JoinM JoinGame MethodResult)
        [⟨.close, true⟩] .consumed :=
      completes_bind.mpr ⟨(), _, [], closeTcpStream_completes.mpr rfl, completes_pure.mpr ⟨rfl, rfl⟩, rfl⟩
    exact ⟨bytes, [], _, completes_known.mpr ⟨rfl, encoded⟩,
      completes_bind.mpr ⟨true, _, _, completes_perform.mpr rfl, closes, rfl⟩, rfl⟩

theorem kick_completes :
    Completes (Kick.occupy wire config client : JoinM JoinGame MethodResult) log result ↔
      result = .consumed ∧ Took wire config rounds backend client clientInfo inbound inboundHistory
        loginQueue .kick log := by
  have tells : (Kick.occupy wire config client : JoinM JoinGame MethodResult) = (do
      let state ← perform (.wait (.server .loadState))
      let bytes ← ExceptT.mk (Pure.pure (kick wire.toStatusWire client (kickMessage config state)))
      if ← perform (.write bytes) then
        closeTcpStream
        return .consumed
      else throw .err) := by
    unfold Kick.occupy
    congr
    funext state
    cases state <;> rfl
  rw [tells, completes_bind]
  constructor
  · rintro ⟨state, early, late, loads, second, rfl⟩
    obtain rfl := completes_perform.mp loads
    obtain ⟨rfl, bytes, message, rfl⟩ := kick_completes_told.mp second
    exact ⟨rfl, .kick message⟩
  · rintro ⟨rfl, took⟩
    cases took with
    | @kick state bytes message =>
      exact ⟨state, [_], _, completes_perform.mpr rfl, kick_completes_told.mpr ⟨rfl, bytes, message, rfl⟩,
        rfl⟩

theorem forward_completes :
    Completes (Forward.occupy config inbound inboundHistory : JoinM JoinGame MethodResult) log result ↔
      result = .consumed ∧ Took wire config rounds backend client clientInfo inbound inboundHistory
        loginQueue .forward log := by
  unfold Forward.occupy
  rw [completes_bind]
  constructor
  · rintro ⟨_, early, late, first, second, rfl⟩
    obtain rfl := completes_perform.mp first
    obtain ⟨rfl, rfl⟩ := completes_pure.mp second
    exact ⟨rfl, .forward⟩
  · rintro ⟨rfl, took⟩
    cases took
    exact ⟨(), _, [], completes_perform.mpr rfl, completes_pure.mpr ⟨rfl, rfl⟩, rfl⟩

theorem hold_completes :
    Completes (Hold.occupy config rounds inbound inboundHistory : JoinM JoinGame MethodResult) log result ↔
      (result = .continue_ inbound ∧ Held rounds .continue_ log) ∨
      (result = .consumed ∧ Took wire config rounds backend client clientInfo inbound inboundHistory
        loginQueue .hold log) := by
  have waits (came : Waiting.MethodResult) (log : List ((op : Op JoinGame) × op.Reply)) :
      Completes (ExceptT.lift ((Waiting.holdOccupy rounds).embed Op.wait fun _ => id) :
        JoinM JoinGame Waiting.MethodResult) log came ↔ Held rounds came log := by
    refine completes_lift.trans (performs_embed_iff.trans ?_)
    simp only [id, Held, List.map_id']
  unfold Hold.occupy
  rw [completes_bind]
  constructor
  · rintro ⟨came, early, late, first, second, rfl⟩
    have held := (waits came early).mp first
    cases came with
    | consumed =>
      obtain ⟨_, relays, none_left, relayed, last, rfl⟩ := completes_bind.mp second
      obtain rfl := completes_perform.mp relayed
      obtain ⟨rfl, rfl⟩ := completes_pure.mp last
      exact .inr ⟨rfl, .hold held⟩
    | continue_ =>
      obtain ⟨rfl, rfl⟩ := completes_pure.mp second
      rw [List.append_nil]
      exact .inl ⟨rfl, held⟩
  · rintro (⟨rfl, held⟩ | ⟨rfl, took⟩)
    · exact ⟨.continue_, log, [], (waits _ _).mpr held, completes_pure.mpr ⟨rfl, rfl⟩, by simp⟩
    · cases took with
      | hold held =>
        exact ⟨.consumed, _, _, (waits _ _).mpr held, completes_bind.mpr
          ⟨(), _, [], completes_perform.mpr rfl, completes_pure.mpr ⟨rfl, rfl⟩, rfl⟩, rfl⟩

theorem mustStillProbe_completes {must : Bool} :
    Completes (Lobby.mustStillProbe config : JoinM JoinGame Bool) log must ↔
      if Lobby.mustProbe config then
        ∃ joinGame, log = [⟨.lobby .readJoinGame, joinGame⟩] ∧ must = joinGame.isNone
      else log = [] ∧ must = false := by
  unfold Lobby.mustStillProbe
  split
  · rw [completes_bind]
    constructor
    · rintro ⟨joinGame, early, late, first, second, rfl⟩
      obtain rfl := completes_perform.mp first
      obtain ⟨rfl, rfl⟩ := completes_pure.mp second
      exact ⟨joinGame, rfl, rfl⟩
    · rintro ⟨joinGame, rfl, rfl⟩
      exact ⟨joinGame, _, [], completes_perform.mpr rfl, completes_pure.mpr ⟨rfl, rfl⟩, rfl⟩
  · rw [completes_pure]
    exact and_congr_right fun _ => eq_comm

theorem lobby_completes :
    Completes (Lobby.occupy wire config rounds backend client clientInfo inbound loginQueue :
        JoinM JoinGame MethodResult) log result ↔
      (result = .continue_ inbound ∧ Lobby.mustProbe config = true ∧
        log = [⟨.lobby .readJoinGame, none⟩]) ∨
      (result = .consumed ∧ Took wire config rounds backend client clientInfo inbound inboundHistory
        loginQueue .lobby log) := by
  have serves (log : List ((op : Op JoinGame) × op.Reply)) :
      Completes (do
        ExceptT.mk ((PlexPaper.Lobby.serve wire.toLobbyWire config rounds clientInfo inbound backend client
          loginQueue).run.embed Op.lobby fun _ => id)
        return .consumed : JoinM JoinGame MethodResult) log result ↔
      result = .consumed ∧ ∃ served : List ((op : PlexPaper.Lobby.Op JoinGame) × op.Reply),
        Completes (PlexPaper.Lobby.serve wire.toLobbyWire config rounds clientInfo inbound backend client
          loginQueue) served () ∧ log = served.map fun done => ⟨.lobby done.1, done.2⟩ := by
    rw [completes_bind]
    constructor
    · rintro ⟨_, early, late, embedded, returns, rfl⟩
      obtain ⟨served, alone, rfl⟩ := performs_embed_iff.mp embedded
      obtain ⟨rfl, rfl⟩ := completes_pure.mp returns
      exact ⟨rfl, served, by simpa [Completes] using alone, by simp⟩
    · rintro ⟨rfl, served, alone, rfl⟩
      exact ⟨(), _, [], performs_embed_iff.mpr ⟨served, by simpa [Completes] using alone, rfl⟩,
        completes_pure.mpr ⟨rfl, rfl⟩, by simp⟩
  unfold Lobby.occupy
  rw [completes_bind]
  constructor
  · rintro ⟨must, early, late, probes, rest, rfl⟩
    have probed := mustStillProbe_completes.mp probes
    cases must with
    | true =>
      obtain ⟨rfl, rfl⟩ := completes_pure.mp rest
      split at probed
      · rename_i forge
        obtain ⟨joinGame, rfl, none_probed⟩ := probed
        obtain rfl := Option.isNone_iff_eq_none.mp none_probed.symm
        exact .inl ⟨rfl, forge, by simp⟩
      · cases probed.2
    | false =>
      obtain ⟨rfl, served, alone, rfl⟩ := (serves late).mp rest
      refine .inr ⟨rfl, .lobby ?_ alone⟩
      split at probed
      · rename_i forge
        obtain ⟨joinGame, rfl, some_probed⟩ := probed
        rw [if_pos forge]
        obtain ⟨data, rfl⟩ := Option.isSome_iff_exists.mp (by simpa using some_probed.symm)
        exact ⟨data, rfl⟩
      · rename_i plain
        rw [if_neg plain]
        exact probed.1
  · rintro (⟨rfl, forge, rfl⟩ | ⟨rfl, took⟩)
    · have probes : Completes (Lobby.mustStillProbe config : JoinM JoinGame Bool)
          [⟨.lobby .readJoinGame, none⟩] true :=
        mustStillProbe_completes.mpr (by rw [if_pos forge]; exact ⟨none, rfl, rfl⟩)
      exact ⟨true, _, [], probes, completes_pure.mpr ⟨rfl, rfl⟩, rfl⟩
    · cases took with
      | @lobby probed served ready alone =>
        have probes : Completes (Lobby.mustStillProbe config : JoinM JoinGame Bool) probed false := by
          refine mustStillProbe_completes.mpr ?_
          split at ready
          · rename_i forge
            obtain ⟨joinGame, rfl⟩ := ready
            rw [if_pos forge]
            exact ⟨some joinGame, rfl, rfl⟩
          · rename_i plain
            rw [if_neg plain]
            exact ⟨ready, rfl⟩
        exact ⟨false, _, _, probes, (serves _).mpr ⟨rfl, served, alone, rfl⟩, rfl⟩

/-- A method takes the client or declines it. -/
theorem occupyMethod_completes (method : Method) :
    Completes (occupyMethod wire config rounds backend client clientInfo inboundHistory loginQueue inbound
        method : JoinM JoinGame MethodResult) log result ↔
      (result = .continue_ inbound ∧ Declined config rounds [method] log) ∨
      (result = .consumed ∧ Took wire config rounds backend client clientInfo inbound inboundHistory
        loginQueue method log) := by
  cases method with
  | kick =>
    refine kick_completes.trans ⟨.inr, ?_⟩
    rintro (⟨-, declined⟩ | took)
    · cases declined
    · exact took
  | forward =>
    refine forward_completes.trans ⟨.inr, ?_⟩
    rintro (⟨-, declined⟩ | took)
    · cases declined
    · exact took
  | hold =>
    refine hold_completes.trans (or_congr_left (and_congr_right fun _ => ⟨fun held => ?_, fun declined => ?_⟩))
    · exact log.append_nil ▸ .hold held .nil
    · cases declined with
      | hold held others =>
        cases others
        rwa [List.append_nil]
  | lobby =>
    refine lobby_completes.trans (or_congr_left (and_congr_right fun _ => ⟨?_, fun declined => ?_⟩))
    · rintro ⟨forge, rfl⟩
      exact .lobby forge .nil
    · cases declined with
      | lobby forge others =>
        cases others
        exact ⟨forge, rfl⟩

theorem Declined.append {methods more : List Method} {early late : List ((op : Op JoinGame) × op.Reply)}
    (declined : Declined config rounds methods early) (others : Declined config rounds more late) :
    Declined config rounds (methods ++ more) (early ++ late) := by
  induction declined with
  | nil => exact others
  | hold held _ ih => exact List.append_assoc .. ▸ .hold held ih
  | lobby forge _ ih => exact .lobby forge ih

theorem Declined.cons {method : Method} {methods : List Method}
    (declined : Declined config rounds (method :: methods) log) :
    ∃ early late, Declined config rounds [method] early ∧ Declined config rounds methods late ∧
      log = early ++ late := by
  cases declined with
  | @hold _ early late held others =>
    exact ⟨early, late, early.append_nil ▸ .hold held .nil, others, rfl⟩
  | @lobby _ late forge others => exact ⟨[_], late, .lobby forge .nil, others, rfl⟩

theorem occupyLoop_completes (methods : List Method) :
    Completes (occupyLoop wire config rounds backend client clientInfo inboundHistory loginQueue methods
        inbound : JoinM JoinGame Unit) log () ↔
      Disposes wire config rounds backend client clientInfo inbound inboundHistory loginQueue methods log := by
  induction methods generalizing log with
  | nil =>
    refine closeTcpStream_completes.trans ⟨fun closed => .inl ⟨[], .nil, closed⟩, ?_⟩
    rintro (⟨declined, none_asked, rfl⟩ | ⟨earlier, method, later, _, _, same, -⟩)
    · cases none_asked
      rfl
    · exact absurd same (by simp)
  | cons method methods ih =>
    rw [occupyLoop, completes_bind]
    constructor
    · rintro ⟨result, early, late, occupies, rest, rfl⟩
      rcases (occupyMethod_completes method).mp occupies with ⟨rfl, declined⟩ | ⟨rfl, took⟩
      · rcases ih.mp rest with ⟨others, all, rfl⟩ | ⟨earlier, taker, later, others, took, rfl, some_, takes, rfl⟩
        · exact .inl ⟨early ++ others, declined.append all, by rw [List.append_assoc]⟩
        · exact .inr ⟨method :: earlier, taker, later, early ++ others, took, rfl, declined.append some_,
            takes, by rw [List.append_assoc]⟩
      · obtain ⟨rfl, -⟩ := completes_pure.mp rest
        exact .inr ⟨[], method, methods, [], early, rfl, .nil, took, by simp⟩
    · rintro (⟨_, declined, rfl⟩ | ⟨_ | ⟨first, earlier⟩, taker, later, _, took, same, declined, takes, rfl⟩)
      · obtain ⟨early, others, first, rest, rfl⟩ := declined.cons
        rw [List.append_assoc]
        exact ⟨.continue_ inbound, early, _, (occupyMethod_completes _).mpr (.inl ⟨rfl, first⟩),
          ih.mpr (.inl ⟨others, rest, rfl⟩), rfl⟩
      · cases declined
        obtain ⟨rfl, rfl⟩ := List.cons.inj same
        exact ⟨.consumed, took, [], (occupyMethod_completes _).mpr (.inr ⟨rfl, takes⟩),
          completes_pure.mpr ⟨rfl, rfl⟩, by simp⟩
      · obtain ⟨rfl, rfl⟩ := List.cons.inj same
        obtain ⟨early, others, first, rest, rfl⟩ := declined.cons
        rw [List.append_assoc]
        exact ⟨.continue_ inbound, early, _, (occupyMethod_completes _).mpr (.inl ⟨rfl, first⟩),
          ih.mpr (.inr ⟨earlier, taker, later, others, took, rfl, rest, takes, rfl⟩), rfl⟩

/-- How a client that has been handed over ends up. The runs of `join::occupy` that succeed are those
in which the methods in front have declined it, without a byte written to it or read from it, and then
either one method has taken it, with all that it does and nothing after that, or none was left and its
connection was closed. -/
theorem occupy_disposes_iff :
    Completes (occupy wire config rounds backend client clientInfo inboundHistory loginQueue inbound :
        JoinM JoinGame Unit) log () ↔
      client.state = .login ∧ Disposes wire config rounds backend client clientInfo inbound inboundHistory
        loginQueue config.join.methods log := by
  unfold occupy
  split
  · rename_i other
    exact ⟨fun completes => (completes_throw completes).elim, fun disposed => absurd disposed.1 other⟩
  · rename_i login
    exact (occupyLoop_completes _).trans (and_iff_right (not_ne_iff.mp login)).symm

end
end PlexPaper.Join
