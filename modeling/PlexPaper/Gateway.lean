import PlexPaper.Join
import PlexPaper.ProcessOwners
import PlexPaper.RelayDelivery
import PlexPaper.WakeGate
import PlexPaper.WakeLedger

/-! `service/server.rs`: the service that accepts connections and routes each of them, while
the tasks of the life cycle run beside it. A connection is dropped, relayed to the server at
once, or served by `status::serve`, which may start the server and hand the client over. -/
namespace PlexPaper
open Tasks Server

/-- `config::Config`, with what only the services read. -/
structure ServiceConfig extends Config where
  wakeOnStart : Bool := false
  probeOnStart : Bool := false

/-- `service::probe::must_probe`. -/
def mustProbe (config : Config) : Bool := config.server.forge && config.join.methods.contains .lobby

/-- Does `service::probe::service` probe? -/
def ServiceConfig.probes (config : ServiceConfig) : Bool := config.probeOnStart || mustProbe config.toConfig

/-- `BannedIps::is_banned`. -/
def BannedIps.isBanned (parse : ExpiryFormat) (now : Utc) (bans : BannedIps) (ip : IpAddr) : Bool :=
  ((bans.get ip).map (·.isBanned parse now)).getD false

theorem BannedIps.isBanned_iff (bans : BannedIps) (parse : ExpiryFormat) (now : Utc) (ip : IpAddr) :
    bans.isBanned parse now ip = true ↔ bans.Active parse now ip := by
  unfold isBanned Active get
  cases bans.ips ip <;> simp

/-- `proxy::proxy`. -/
def proxyPlain (encode : ProxyFormat) (inbound : TcpStream) (proxyHeader : ProxyHeader)
    (outbound : List Read) : Outcome Relaying := proxyWithQueue encode inbound proxyHeader outbound []

/-- What `route` does with a connection: it is dropped, or a task is spawned for it. -/
inductive Route where
  | dropped
  | proxied (proxyHeader : ProxyHeader) (address : SocketAddr)
  | status (client : Client)
  deriving DecidableEq

section

variable (wire : StatusWire) (config : Config)

/-- `route`, of what `peer_addr` answers and what is found of the bans, the clock and the state. -/
def route (peer : Option SocketAddr) (bannedIps : BannedIps) (now : Utc) (state : State) : Route :=
  match peer with
  | none => .dropped
  | some peer =>
    let banned := bannedIps.isBanned wire.parseExpiry now peer.ip
    if banned ∧ config.server.dropBannedIps then .dropped
    else if !banned ∧ state = .started ∧ !config.lockout.enabled then
      .proxied (ProxyHeader.proxy.notNone config.server.sendProxyV2) config.server.address
    else .status (Client.new peer)

end

/-- An accepted connection, as far as it has come. -/
inductive Connection where
  | dropped (peer : Option SocketAddr)
  | proxied (inbound : TcpStream) (proxyHeader : ProxyHeader) (address : SocketAddr)
  | serving (session : Session)
  | ended (final : Final)

def Connection.peer? : Connection → Option SocketAddr
  | .dropped peer => peer
  | .proxied inbound _ _ => some inbound.peerAddr
  | .serving session => some session.client.peer
  | .ended final => some final.after.client.peer

def Final.handover? (final : Final) : Option Handover :=
  match final.ending with
  | .occupied handover => some handover
  | _ => none

/-- Has `Server::start` been called for it, on its way to `join::occupy`? -/
def Connection.handedOver : Connection → Bool
  | .ended final => final.handover?.isSome
  | _ => false

/-- Has it got to the server, or to a join method? -/
def Connection.passed : Connection → Bool
  | .proxied _ _ _ => true
  | connection => connection.handedOver

/-- How far `service` has come: it waits for the start that `wake_on_start` asks for. -/
inductive ServicePhase where
  | booting
  | waking (task : Nat)
  | listening
  deriving DecidableEq

/-- The whole proxy: the tasks of the life cycle and the connections of its clients. -/
structure Gateway where
  proxy : Proxy := Proxy.boot
  connections : List Connection := []
  phase : ServicePhase := .booting
  probing : Bool := false

/-- A move of the gateway. An iteration of `serve` finds its own moment; a connection comes
with what `peer_addr` answers. -/
inductive GatewayMove where
  | boot
  | listen
  | probe
  | accept (peerKnown : Bool) (inbound : TcpStream) (bannedIps : BannedIps) (now : Utc)
  | serve (index : Nat) (moment : Moment)
  | life (move : ProxyMove)

namespace Gateway

section

variable (wire : StatusWire) (config : ServiceConfig)

/-- `monitor_server` and `service::signal` call what the life cycle offers. -/
def calledBeside : ProxyMove → Bool
  | .call (.monitor _ _) | .call .interrupt => true
  | .call _ => false
  | _ => true

def callStart (proxy : Proxy) : Option Proxy := (lifecycle config.toConfig).step proxy (.call .start)

/-- What `route` makes of a new connection. -/
def accepted (peer : Option SocketAddr) (inbound : TcpStream) : Route → Connection
  | .dropped => .dropped peer
  | .proxied proxyHeader address => .proxied inbound proxyHeader address
  | .status client => .serving (.new client inbound.reads)

/-- An iteration of `serve`. A client that is handed over has the server started first. -/
def serveConnection (gateway : Gateway) (index : Nat) (session : Session) (moment : Moment) :
    Option Gateway :=
  match serveStep wire config.toConfig moment session with
  | (next, none) => some { gateway with connections := gateway.connections.set index (.serving next) }
  | (after, some ending) =>
    let final := { before := session, moment, after, ending }
    let connections := gateway.connections.set index (.ended final)
    if final.handover?.isSome then
      (callStart config gateway.proxy).map fun proxy => { gateway with proxy, connections }
    else some { gateway with connections }

def step (gateway : Gateway) (move : GatewayMove) : Option Gateway :=
  if gateway.proxy.world.exited then none
  else match move with
  | .boot =>
    if gateway.phase ≠ .booting then none
    else if config.wakeOnStart then
      (callStart config gateway.proxy).map fun proxy =>
        { gateway with proxy, phase := .waking gateway.proxy.tasks.length }
    else some { gateway with phase := .listening, probing := config.probes }
  | .listen =>
    match gateway.phase with
    | .waking task =>
      -- `Server::start(..).await` has returned.
      if (gateway.proxy.tasks[task]?.bind (·.next?)).isNone then
        some { gateway with phase := .listening, probing := config.probes }
      else none
    | _ => none
  | .probe =>
    if gateway.probing then
      (callStart config gateway.proxy).map fun proxy => { gateway with proxy, probing := false }
    else none
  | .accept peerKnown inbound bannedIps now =>
    if gateway.phase ≠ .listening then none
    else
      let peer := if peerKnown then some inbound.peerAddr else none
      let connection := accepted peer inbound
        (route wire config.toConfig peer bannedIps now gateway.proxy.world.server.state)
      some { gateway with connections := gateway.connections ++ [connection] }
  | .serve index moment =>
    match gateway.connections[index]? with
    | some (.serving session) => serveConnection wire config gateway index session moment
    | _ => none
  | .life move =>
    if calledBeside move then
      ((lifecycle config.toConfig).step gateway.proxy move).map fun proxy => { gateway with proxy }
    else none

def Reaches (condition : Gateway → GatewayMove → Prop) : Gateway → Gateway → Prop :=
  RunsTo (step wire config) condition

end

section

variable {wire : StatusWire} {config : ServiceConfig} {condition : Gateway → GatewayMove → Prop}
  {gateway after : Gateway}

/-! ## What a move can do -/

/-- What a move that is taken has found, and what it leaves. -/
inductive Steps (wire : StatusWire) (config : ServiceConfig) (gateway : Gateway) : GatewayMove → Gateway → Prop where
  | wakes {proxy : Proxy} (phase : gateway.phase = .booting) (wakes : config.wakeOnStart)
      (called : callStart config gateway.proxy = some proxy) :
      Steps wire config gateway .boot { gateway with proxy, phase := .waking gateway.proxy.tasks.length }
  | boots (phase : gateway.phase = .booting) (sleeps : config.wakeOnStart = false) :
      Steps wire config gateway .boot { gateway with phase := .listening, probing := config.probes }
  | listens {task : Nat} (phase : gateway.phase = .waking task) :
      Steps wire config gateway .listen { gateway with phase := .listening, probing := config.probes }
  | probes {proxy : Proxy} (probing : gateway.probing)
      (called : callStart config gateway.proxy = some proxy) :
      Steps wire config gateway .probe { gateway with proxy, probing := false }
  | accepts {peerKnown : Bool} {inbound : TcpStream} {bannedIps : BannedIps} {now : Utc}
      {peer : Option SocketAddr} (phase : gateway.phase = .listening)
      (known : peer = if peerKnown then some inbound.peerAddr else none) :
      Steps wire config gateway (.accept peerKnown inbound bannedIps now)
        { gateway with connections := gateway.connections ++ [accepted peer inbound
            (route wire config.toConfig peer bannedIps now gateway.proxy.world.server.state)] }
  | serves {index : Nat} {moment : Moment} {session next : Session}
      (found : gateway.connections[index]? = some (.serving session))
      (served : serveStep wire config.toConfig moment session = (next, none)) :
      Steps wire config gateway (.serve index moment)
        { gateway with connections := gateway.connections.set index (.serving next) }
  | closes {index : Nat} {moment : Moment} {before after : Session} {ending : Ending}
      (found : gateway.connections[index]? = some (.serving before))
      (served : serveStep wire config.toConfig moment before = (after, some ending))
      (closed : (Final.mk before moment after ending).handover? = none) :
      Steps wire config gateway (.serve index moment)
        { gateway with connections := gateway.connections.set index (.ended ⟨before, moment, after, ending⟩) }
  | handsOver {index : Nat} {moment : Moment} {before after : Session} {handover : Handover} {proxy : Proxy}
      (found : gateway.connections[index]? = some (.serving before))
      (served : serveStep wire config.toConfig moment before = (after, some (.occupied handover)))
      (called : callStart config gateway.proxy = some proxy) :
      Steps wire config gateway (.serve index moment)
        { gateway with
            proxy
            connections := gateway.connections.set index (.ended ⟨before, moment, after, .occupied handover⟩) }
  | lives {move : ProxyMove} {proxy : Proxy} (beside : calledBeside move)
      (stepped : (lifecycle config.toConfig).step gateway.proxy move = some proxy) :
      Steps wire config gateway (.life move) { gateway with proxy }

theorem steps_of_step {move : GatewayMove} (stepped : step wire config gateway move = some after) :
    Steps wire config gateway move after := by
  unfold step at stepped
  split at stepped
  · cases stepped
  cases move with
  | boot =>
    simp only at stepped
    split at stepped
    · cases stepped
    · rename_i phase
      split at stepped
      · rename_i wakes
        obtain ⟨proxy, called, rfl⟩ := Option.map_eq_some_iff.mp stepped
        exact .wakes (not_ne_iff.mp phase) wakes called
      · rename_i sleeps
        cases stepped
        exact .boots (not_ne_iff.mp phase) (by simpa using sleeps)
  | listen =>
    simp only at stepped
    split at stepped
    · rename_i task phase
      obtain ⟨-, same⟩ := Option.ite_none_right_eq_some.mp stepped
      cases same
      exact .listens phase
    · cases stepped
  | probe =>
    obtain ⟨probing, stepped⟩ := Option.ite_none_right_eq_some.mp stepped
    obtain ⟨proxy, called, rfl⟩ := Option.map_eq_some_iff.mp stepped
    exact .probes probing called
  | accept peerKnown inbound bannedIps now =>
    obtain ⟨phase, same⟩ := Option.ite_none_left_eq_some.mp stepped
    cases same
    exact .accepts (not_ne_iff.mp phase) rfl
  | serve index moment =>
    simp only at stepped
    split at stepped
    · rename_i session found
      unfold serveConnection at stepped
      rcases served : serveStep wire config.toConfig moment session with ⟨next, _ | ending⟩
      · rw [served] at stepped
        cases stepped
        exact .serves found served
      · rw [served] at stepped
        cases ending with
        | occupied handover =>
          simp only [Final.handover?, Option.isSome_some, ↓reduceIte] at stepped
          obtain ⟨proxy, called, rfl⟩ := Option.map_eq_some_iff.mp stepped
          exact .handsOver found served called
        | closed | failed =>
          cases stepped
          exact .closes found served rfl
    · cases stepped
  | life move =>
    obtain ⟨beside, stepped⟩ := Option.ite_none_right_eq_some.mp stepped
    obtain ⟨proxy, lived, rfl⟩ := Option.map_eq_some_iff.mp stepped
    exact .lives beside lived

/-- The tasks of the gateway are those of the life cycle. -/
theorem lifecycle_reached (reached : Reaches wire config condition {} gateway) :
    (lifecycle config.toConfig).Reaches (fun _ _ => True) Proxy.boot gateway.proxy := by
  induction reached with
  | refl => exact .refl
  | tail _ stepped ih =>
    obtain ⟨move, -, stepped⟩ := stepped
    cases steps_of_step stepped with
    | boots | listens | accepts | serves | closes => exact ih
    | wakes _ _ called | probes _ called | handsOver _ _ called | lives _ called =>
      exact ih.step trivial called

/-! ## What the server is started for -/

def callsStart : ProxyMove → Bool
  | .call .start => true
  | _ => false

/-- A step of the life cycle enters `start` only where it is called. -/
theorem countP_start_step {config : Config} {before after : Proxy} {move : ProxyMove}
    (stepped : (lifecycle config).step before move = some after) :
    after.tasks.countP (fun task => task.entry = .start) =
      before.tasks.countP (fun task => task.entry = .start) + if callsStart move then 1 else 0 := by
  obtain ⟨fresh, entries, new⟩ := System.step_entries stepped
  have counted (proxy : Proxy) : proxy.tasks.countP (fun task => task.entry = .start) =
      (proxy.tasks.map Task.entry).countP (· = .start) := by rw [List.countP_map]; rfl
  rw [counted, counted, entries, List.countP_append]
  congr 1
  cases move with
  | call entry =>
    rw [new]
    cases entry <;> rfl
  | outside event =>
    rw [new]
    rfl
  | run index answer =>
    obtain ⟨-, op, -, -, rfl⟩ := new
    cases op <;> rfl

theorem countP_start_call {proxy after : Proxy} (called : callStart config proxy = some after) :
    after.tasks.countP (fun task => task.entry = .start) =
      proxy.tasks.countP (fun task => task.entry = .start) + 1 := countP_start_step called

/-- The starts that the gateway has asked for. -/
def starts (config : ServiceConfig) (gateway : Gateway) : Nat :=
  gateway.connections.countP Connection.handedOver +
    (if config.wakeOnStart ∧ gateway.phase ≠ .booting then 1 else 0) +
    if config.probes ∧ gateway.phase = .listening ∧ gateway.probing = false then 1 else 0

theorem countP_handedOver_set {connections : List Connection} {index : Nat} {session : Session}
    (found : connections[index]? = some (.serving session)) (connection : Connection) :
    (connections.set index connection).countP Connection.handedOver =
      connections.countP Connection.handedOver + if connection.handedOver then 1 else 0 := by
  obtain ⟨bound, same⟩ := List.getElem?_eq_some_iff.mp found
  rw [List.countP_set bound, same]
  rfl

theorem accepted_handedOver (peer : Option SocketAddr) (inbound : TcpStream) (route : Route) :
    (accepted peer inbound route).handedOver = false := by cases route <;> rfl

/-- The life cycle is asked for a start by the gateway alone. -/
theorem starts_counted (reached : Reaches wire config condition {} gateway) :
    gateway.proxy.tasks.countP (fun task => task.entry = .start) = starts config gateway ∧
      (gateway.probing → config.probes ∧ gateway.phase = .listening) := by
  induction reached with
  | refl => simp [starts, Proxy.boot, System.initial]
  | @tail before _ _ stepped ih =>
    obtain ⟨move, -, stepped⟩ := stepped
    obtain ⟨counted, pending⟩ := ih
    cases steps_of_step stepped with
    | wakes phase wakes called =>
      refine ⟨?_, fun probing => ?_⟩
      · rw [countP_start_call called, counted]
        simp [starts, phase, wakes]
      · cases phase.symm.trans (pending probing).2
    | boots phase sleeps =>
      refine ⟨?_, fun probing => ⟨probing, rfl⟩⟩
      rw [counted]
      simp [starts, phase, sleeps]
    | listens phase =>
      refine ⟨?_, fun probing => ⟨probing, rfl⟩⟩
      rw [counted]
      simp [starts, phase]
    | probes probing called =>
      obtain ⟨wanted, listening⟩ := pending probing
      refine ⟨?_, fun unset => absurd unset Bool.false_ne_true⟩
      rw [countP_start_call called, counted]
      simp [starts, probing, wanted, listening]
    | accepts phase known =>
      refine ⟨?_, pending⟩
      simp only [starts, List.countP_append, List.countP_singleton, accepted_handedOver] at counted ⊢
      exact counted
    | serves found served =>
      refine ⟨?_, pending⟩
      simp only [starts, countP_handedOver_set found] at counted ⊢
      exact counted
    | closes found served closed =>
      refine ⟨?_, pending⟩
      simp only [starts, countP_handedOver_set found, Connection.handedOver, closed] at counted ⊢
      exact counted
    | handsOver found served called =>
      refine ⟨?_, pending⟩
      rw [countP_start_call called, counted]
      simp only [starts, countP_handedOver_set found, Connection.handedOver, Final.handover?,
        Option.isSome_some, ↓reduceIte]
      omega
    | @lives move proxy beside lived =>
      refine ⟨?_, pending⟩
      have other : callsStart move = false := by
        cases move with
        | call entry => cases entry <;> first | rfl | cases beside
        | _ => rfl
      rw [countP_start_step lived, other]
      exact counted

/-! ## What a connection comes to -/

/-- An iteration of `serve`, as the connection it leaves. -/
def served (session : Session) (moment : Moment) : Session × Option Ending → Connection
  | (next, none) => .serving next
  | (after, some ending) => .ended { before := session, moment, after, ending }

/-- What a move makes of the connections: each stays, or it is new, or an iteration has served it. -/
theorem connection_step {move : GatewayMove} (stepped : step wire config gateway move = some after)
    {index : Nat} {connection : Connection} (found : after.connections[index]? = some connection) :
    gateway.connections[index]? = some connection ∨
    (∃ peerKnown inbound bannedIps now peer, move = .accept peerKnown inbound bannedIps now ∧
      (peer = if peerKnown then some inbound.peerAddr else none) ∧ connection = accepted peer inbound
        (route wire config.toConfig peer bannedIps now gateway.proxy.world.server.state)) ∨
    ∃ moment session, move = .serve index moment ∧ gateway.connections[index]? = some (.serving session) ∧
      connection = served session moment (serveStep wire config.toConfig moment session) := by
  have replaced {other : Nat} {moment : Moment} {session : Session} {fresh : Connection}
      (there : gateway.connections[other]? = some (.serving session))
      (own : fresh = served session moment (serveStep wire config.toConfig moment session))
      (now : (gateway.connections.set other fresh)[index]? = some connection) :
      gateway.connections[index]? = some connection ∨
      ∃ moment' session', GatewayMove.serve other moment = .serve index moment' ∧
        gateway.connections[index]? = some (.serving session') ∧
        connection = served session' moment' (serveStep wire config.toConfig moment' session') := by
    by_cases same : other = index
    · subst same
      rw [List.getElem?_set_self (List.getElem?_eq_some_iff.mp there).1] at now
      exact .inr ⟨moment, session, rfl, there, (Option.some.inj now).symm.trans own⟩
    · rw [List.getElem?_set_ne same] at now
      exact .inl now
  cases steps_of_step stepped with
  | boots | listens | wakes | probes | lives => exact .inl found
  | accepts _ known =>
    rw [List.getElem?_append] at found
    split at found
    · exact .inl found
    · obtain rfl := List.mem_singleton.mp (List.mem_of_getElem? found)
      exact .inr (.inl ⟨_, _, _, _, _, rfl, known, rfl⟩)
  | serves there iteration | closes there iteration | handsOver there iteration =>
    exact (replaced there (by rw [iteration]; rfl) found).imp_right .inr

/-- Only a connection that is accepted is added. -/
theorem connections_length {move : GatewayMove} (stepped : step wire config gateway move = some after)
    (unaccepted : ∀ peerKnown inbound bannedIps now, move ≠ .accept peerKnown inbound bannedIps now) :
    after.connections.length = gateway.connections.length := by
  cases steps_of_step stepped with
  | boots | listens | wakes | probes | lives => rfl
  | accepts => exact absurd rfl (unaccepted _ _ _ _)
  | serves | closes | handsOver => exact List.length_set

/-- A connection that is there is left alone by all but its own iterations. -/
theorem connection_kept {move : GatewayMove} (stepped : step wire config gateway move = some after)
    {index : Nat} (there : index < gateway.connections.length)
    (unserved : ∀ moment, move ≠ .serve index moment) :
    after.connections[index]? = gateway.connections[index]? := by
  cases steps_of_step stepped with
  | boots | listens | wakes | probes | lives => rfl
  | accepts => exact List.getElem?_append_left there
  | serves | closes | handsOver => exact List.getElem?_set_ne (by rintro rfl; exact unserved _ rfl)

/-- The invariant rule for connections: what holds of each as `route` makes it, and is kept
by every iteration that serves it. -/
theorem connections_hold (holds : Connection → Prop)
    (accepts : ∀ gateway peerKnown inbound bannedIps now,
      condition gateway (.accept peerKnown inbound bannedIps now) →
      ∀ peer, (peer = if peerKnown then some inbound.peerAddr else none) →
        holds (accepted peer inbound
          (route wire config.toConfig peer bannedIps now gateway.proxy.world.server.state)))
    (serves : ∀ gateway index moment session, condition gateway (.serve index moment) →
      gateway.connections[index]? = some (.serving session) → holds (.serving session) →
        holds (served session moment (serveStep wire config.toConfig moment session)))
    (reached : Reaches wire config condition {} gateway) :
    ∀ connection ∈ gateway.connections, holds connection := by
  induction reached with
  | refl => exact fun _ member => absurd member List.not_mem_nil
  | tail _ stepped ih =>
    obtain ⟨move, meets, stepped⟩ := stepped
    intro connection member
    obtain ⟨index, found⟩ := List.mem_iff_getElem?.mp member
    rcases connection_step stepped found with
      old | ⟨peerKnown, inbound, bannedIps, now, peer, rfl, known, rfl⟩ | ⟨moment, session, rfl, there, rfl⟩
    · exact ih connection (List.mem_of_getElem? old)
    · exact accepts _ _ _ _ _ meets _ known
    · exact serves _ _ _ _ meets there (ih _ (List.mem_of_getElem? there))

/-- An iteration hands a client over only if the gate is open to it. -/
def Admits (wire : StatusWire) (config : Config) (final : Final) : Prop :=
  ∃ packet, loginStartPacket wire final.before = some packet ∧
    OpenTo wire config final.before.client.peer.ip final.moment ∧
    ∀ username, wire.decodeLoginStart packet.data = some username →
      isWhitelisted final.moment.whitelist username = true

theorem handedOver_admits {final : Final}
    (iteration : serveStep wire config.toConfig final.moment final.before = (final.after, some final.ending))
    (handed : final.handover?.isSome) : Admits wire config.toConfig final := by
  refine (serveStep_wakes_iff wire config.toConfig final.moment final.before).mp ?_
  rw [iteration]
  unfold Final.handover? at handed
  split at handed
  · rename_i handover ending
    exact ⟨handover, congrArg some ending⟩
  · cases handed

/-- A session that has ended did so in its last iteration. -/
theorem ended_served (reached : Reaches wire config condition {} gateway) {final : Final}
    (member : .ended final ∈ gateway.connections) :
    serveStep wire config.toConfig final.moment final.before = (final.after, some final.ending) := by
  refine connections_hold (fun connection => ∀ final, connection = .ended final →
    serveStep wire config.toConfig final.moment final.before = (final.after, some final.ending))
    ?_ ?_ reached _ member final rfl
  · intro gateway peerKnown inbound bannedIps now meets peer known final same
    cases routed : route wire config.toConfig peer bannedIps now gateway.proxy.world.server.state <;>
      rw [routed] at same <;> cases same
  · intro gateway index moment session meets found _ final same
    rcases iteration : serveStep wire config.toConfig moment session with ⟨next, _ | ending⟩
    · rw [iteration] at same
      cases same
    · rw [iteration] at same
      cases same
      exact iteration

/-- Every process of the server was asked for. The clients that were handed over account for
one each, and each was let through by the gate; the rest are the start at boot and the probe,
where there is one, and what is woken after a crash. -/
theorem processes_asked_for (reached : Reaches wire config condition {} gateway) :
    gateway.proxy.world.children.length ≤
      gateway.connections.countP Connection.handedOver + (if config.wakeOnStart then 1 else 0) +
        (if config.probes then 1 else 0) +
        gateway.proxy.done.countP (fun done => config.server.wakeOnCrash && done.1.crashed done.2) ∧
    ∀ final, .ended final ∈ gateway.connections → final.handover?.isSome →
      Admits wire config.toConfig final := by
  refine ⟨?_, fun final member handed => handedOver_admits (ended_served reached member) handed⟩
  have lives := lifecycle_reached reached
  have processes := length_children_le lives
  rw [countP_commands lives] at processes
  have caused := countP_orders_le_causes lives
  rw [(starts_counted reached).1, starts] at caused
  have booted : (if config.wakeOnStart ∧ gateway.phase ≠ .booting then 1 else 0) ≤
      if config.wakeOnStart then 1 else 0 := by
    split <;> simp_all
  have probed : (if config.probes ∧ gateway.phase = .listening ∧ gateway.probing = false then 1 else 0) ≤
      if config.probes then 1 else 0 := by
    split <;> simp_all
  omega

/-! ## Who is kept out -/

/-- A command task waits for a process that it has spawned, and no other task does. -/
theorem crashed_isCommand {config : Config} {condition : Proxy → ProxyMove → Prop} {proxy : Proxy}
    (reached : (lifecycle config).Reaches condition Proxy.boot proxy) {task : Task Op Op.Reply Entry}
    (member : task ∈ proxy.tasks) (crashed : 0 < task.log.countP fun done => done.1.crashed done.2) :
    task.entry.isCommand := by
  obtain ⟨⟨op, reply⟩, done, failed⟩ := List.countP_pos_iff.mp crashed
  cases op with
  | waitChild pid =>
    have spawned := (duty_records reached task member).waited pid reply done
    have counted := countP_spawned_le reached member
    have positive : 0 < task.log.countP fun done => done.1.spawned done.2 :=
      List.countP_pos_iff.mpr ⟨_, spawned, rfl⟩
    by_contra other
    rw [if_neg other] at counted
    omega
  | _ => cases failed

/-- Without a call of `start` there is no command. -/
theorem uncommanded {config : Config} {condition : Proxy → ProxyMove → Prop} {proxy : Proxy}
    (reached : (lifecycle config).Reaches condition Proxy.boot proxy)
    (unasked : .start ∉ proxy.tasks.map Task.entry) :
    .invokeServerCmd ∉ proxy.tasks.map Task.entry := by
  induction reached with
  | refl => exact List.not_mem_nil
  | @tail before after earlier stepped ih =>
    obtain ⟨move, meets, stepped⟩ := stepped
    have later := earlier.tail ⟨move, meets, stepped⟩
    obtain ⟨fresh, entries, new⟩ := System.step_entries stepped
    rw [entries] at unasked ⊢
    have calm := ih fun asked => unasked (List.mem_append_left _ asked)
    rintro commanded
    rcases List.mem_append.mp commanded with old | ordered
    · exact calm old
    cases move with
    | outside event =>
      rw [new] at ordered
      cases ordered
    | call entry =>
      rw [new] at ordered
      cases List.mem_singleton.mp ordered
      cases stepped
    | run index answer =>
      obtain ⟨task, op, found, waiting, rfl⟩ := new
      cases op with
      | spawnServerTask =>
        rcases System.step_task stepped found with ⟨-, other⟩ | ⟨_, op, next, reply, -, request, -, there⟩
        · exact other answer rfl
        · rw [Task.next?, request] at waiting
          cases waiting
          -- What a task orders it was started for, or has seen crash.
          have member := List.mem_of_getElem? there
          have warranted := countP_orders_le_warrants later member
          have ordered : 0 < (task.proceed .spawnServerTask reply (next reply)).log.countP
              fun done => done.1.orders :=
            List.countP_pos_iff.mpr ⟨⟨.spawnServerTask, reply⟩, by simp [Task.proceed], rfl⟩
          have known : task.entry ∈ before.tasks.map Task.entry :=
            List.mem_map_of_mem (List.mem_of_getElem? found)
          have notStart : (task.proceed .spawnServerTask reply (next reply)).entry ≠ .start := fun same =>
            unasked (List.mem_append_left _ (same ▸ known))
          have notCommand : task.entry ≠ .invokeServerCmd := fun same => calm (same ▸ known)
          rw [if_neg notStart] at warranted
          obtain ⟨done, seen, failed⟩ := List.countP_pos_iff.mp (Nat.lt_of_lt_of_le ordered warranted)
          have isCommand := crashed_isCommand later member
            (List.countP_pos_iff.mpr ⟨done, seen, (Bool.and_eq_true_iff.mp failed).2⟩)
          exact notCommand (Entry.eq_of_isCommand isCommand)
      | _ => cases ordered

/-- Wherever a connection from this address is looked up in the bans, the address is found. -/
def FindsBan (wire : StatusWire) (ip : IpAddr) (gateway : Gateway) : GatewayMove → Prop
  | .accept _ inbound bannedIps now => inbound.peerAddr.ip = ip → bannedIps.isBanned wire.parseExpiry now ip
  | .serve index moment => ∀ peer ∈ gateway.connections[index]?.bind Connection.peer?, peer.ip = ip →
      moment.bannedIps.isBanned wire.parseExpiry moment.now ip
  | _ => True

instance (wire : StatusWire) (ip : IpAddr) (gateway : Gateway) (move : GatewayMove) :
    Decidable (FindsBan wire ip gateway move) :=
  match move with
  | .accept _ inbound _ _ => inferInstanceAs (Decidable (inbound.peerAddr.ip = ip → _))
  | .serve index _ =>
    inferInstanceAs (Decidable (∀ peer ∈ gateway.connections[index]?.bind Connection.peer?, peer.ip = ip → _))
  | .boot | .listen | .probe | .life _ => isTrue trivial

/-- An iteration that finds the lockout or a ban passes nobody on. -/
theorem served_unpassed {session : Session} {moment : Moment}
    (shut : config.lockout.enabled ∨
      moment.bannedIps.isBanned wire.parseExpiry moment.now session.client.peer.ip) :
    (served session moment (serveStep wire config.toConfig moment session)).passed = false := by
  rcases iteration : serveStep wire config.toConfig moment session with ⟨next, _ | ending⟩
  · rfl
  · by_contra passes
    obtain ⟨-, -, opened, -⟩ := @handedOver_admits wire config ⟨session, moment, next, ending⟩ iteration
      (Bool.not_eq_false _ ▸ passes)
    rcases shut with locked | banned
    · exact absurd locked (by simp [opened.1])
    · exact opened.2 ((BannedIps.isBanned_iff ..).mp banned)

theorem served_peer (session : Session) (moment : Moment) :
    (served session moment (serveStep wire config.toConfig moment session)).peer? =
      some session.client.peer := by
  have same := serveStep_peer wire config.toConfig moment session
  rcases iteration : serveStep wire config.toConfig moment session with ⟨next, _ | ending⟩ <;>
    · rw [iteration] at same
      exact congrArg some same

theorem accepted_peer (inbound : TcpStream) (bannedIps : BannedIps) (now : Utc) (state : State) :
    (accepted (some inbound.peerAddr) inbound
      (route wire config.toConfig (some inbound.peerAddr) bannedIps now state)).peer? =
        some inbound.peerAddr := by
  simp only [route]
  split
  · rfl
  · split <;> rfl

/-- What `route` makes of a peer that it finds banned. -/
theorem route_banned {peer : SocketAddr} {bannedIps : BannedIps} {now : Utc} {state : State}
    (banned : bannedIps.isBanned wire.parseExpiry now peer.ip) :
    route wire config.toConfig (some peer) bannedIps now state =
      if config.server.dropBannedIps then .dropped else .status (.new peer) := by
  simp [route, banned]

theorem route_lockout {peer : Option SocketAddr} {bannedIps : BannedIps} {now : Utc} {state : State}
    (locked : config.lockout.enabled) (inbound : TcpStream) :
    (accepted peer inbound (route wire config.toConfig peer bannedIps now state)).passed = false := by
  cases peer with
  | none => rfl
  | some peer =>
    simp only [route, locked, Bool.not_true, Bool.false_eq_true, and_false, ↓reduceIte]
    split <;> rfl

/-- An address that is banned whenever one of its connections is looked up gets nowhere, on
any of them: none is relayed to the server, and none is handed to a join method. Where banned
addresses are dropped, each is. -/
theorem banned_kept_out (ip : IpAddr)
    (reached : Reaches wire config (FindsBan wire ip) {} gateway) :
    ∀ connection ∈ gateway.connections, ∀ peer, connection.peer? = some peer → peer.ip = ip →
      connection.passed = false ∧ (config.server.dropBannedIps → connection = .dropped (some peer)) := by
  refine connections_hold (fun connection => ∀ peer, connection.peer? = some peer → peer.ip = ip →
    connection.passed = false ∧ (config.server.dropBannedIps → connection = .dropped (some peer)))
    ?_ ?_ reached
  · rintro gateway peerKnown inbound bannedIps now finds _ rfl peer same own
    cases peerKnown with
    | false => cases same
    | true =>
      simp only [↓reduceIte] at same ⊢
      rw [accepted_peer] at same
      cases same
      rw [route_banned (own ▸ finds own)]
      by_cases drops : config.server.dropBannedIps
      · rw [if_pos drops]
        exact ⟨rfl, fun _ => rfl⟩
      · rw [if_neg drops]
        exact ⟨rfl, fun dropping => absurd dropping drops⟩
  · intro gateway index moment session finds found kept peer same own
    rw [served_peer] at same
    cases same
    have banned := finds session.client.peer (by rw [found]; rfl) own
    refine ⟨served_unpassed (.inr (own ▸ banned)), fun drops => ?_⟩
    cases (kept _ rfl own).2 drops

/-- With the lockout on nobody gets anywhere, and the server is left asleep unless it is
started at boot or for the probe. -/
theorem lockout_keeps_out (locked : config.lockout.enabled) (reached : Reaches wire config condition {} gateway) :
    (∀ connection ∈ gateway.connections, connection.passed = false) ∧
      (config.wakeOnStart = false → config.probes = false → gateway.proxy.world.children = []) := by
  have unpassed : ∀ connection ∈ gateway.connections, connection.passed = false := by
    refine connections_hold (fun connection => connection.passed = false) ?_ ?_ reached
    · exact fun _ _ inbound _ _ _ _ _ => route_lockout locked inbound
    · exact fun _ _ _ _ _ _ _ => served_unpassed (.inl locked)
  refine ⟨unpassed, fun sleeps unprobed => ?_⟩
  have lives := lifecycle_reached reached
  have asked := (starts_counted reached).1
  have handed : gateway.connections.countP Connection.handedOver = 0 := by
    refine List.countP_eq_zero.mpr fun connection member handed => ?_
    have outside := unpassed connection member
    cases connection with
    | ended final => exact absurd handed (by simpa [Connection.passed] using outside)
    | _ => cases handed
  rw [starts, handed, sleeps, unprobed] at asked
  have unasked : .start ∉ gateway.proxy.tasks.map Task.entry := by
    rintro called
    obtain ⟨task, member, entered⟩ := List.mem_map.mp called
    exact absurd (decide_eq_true entered) (List.countP_eq_zero.mp asked task member)
  have commands : gateway.proxy.tasks.countP (fun task => task.entry.isCommand) = 0 := by
    refine List.countP_eq_zero.mpr fun task member isCommand => uncommanded lives unasked ?_
    exact Entry.eq_of_isCommand isCommand ▸ List.mem_map_of_mem member
  have processes := length_children_le lives
  exact List.length_eq_zero_iff.mp (by omega)

/-! ## What is relayed at once -/

theorem proxied_route (reached : Reaches wire config condition {} gateway) {inbound : TcpStream}
    {proxyHeader : ProxyHeader} {address : SocketAddr}
    (member : .proxied inbound proxyHeader address ∈ gateway.connections) :
    config.lockout.enabled = false ∧ address = config.server.address ∧
      proxyHeader = ProxyHeader.proxy.notNone config.server.sendProxyV2 := by
  refine connections_hold (fun connection => ∀ inbound proxyHeader address,
    connection = .proxied inbound proxyHeader address →
      config.lockout.enabled = false ∧ address = config.server.address ∧
        proxyHeader = ProxyHeader.proxy.notNone config.server.sendProxyV2) ?_ ?_ reached _ member _ _ _ rfl
  · intro gateway peerKnown inbound bannedIps now meets peer known inbound proxyHeader address same
    unfold route at same
    cases peer with
    | none => cases same
    | some peer =>
      simp only at same
      split at same
      · cases same
      · split at same
        · rename_i passes
          cases same
          exact ⟨by simpa using passes.2.2, rfl, rfl⟩
        · cases same
  · intro gateway index moment session meets found _ inbound proxyHeader address same
    rcases iteration : serveStep wire config.toConfig moment session with ⟨next, _ | ending⟩ <;>
      rw [iteration] at same <;> cases same

/-- A connection that is relayed at once goes to the server, behind the proxy header where one
is to be sent. Either side gets what the other has sent, from its beginning and in its order,
and all of it before its end is passed on; and between two sides that end in order a relay that
has no more move to make has passed on all of it, and both ends. -/
theorem proxied_whole (reached : Reaches wire config condition {} gateway) {inbound : TcpStream}
    {proxyHeader : ProxyHeader} {address : SocketAddr}
    (member : .proxied inbound proxyHeader address ∈ gateway.connections) {encode : ProxyFormat}
    {outbound : List Read} {start : Relaying}
    (relays : proxyPlain encode inbound proxyHeader outbound = .ok start) :
    address = config.server.address ∧ ∃ header : List UInt8,
      (if config.server.sendProxyV2 then streamProxyHeader encode inbound = .ok header else header = []) ∧
      (∀ relaying, start.Reaches relaying →
        (relaying.toServer.sent <+: header ++ Read.bytes inbound.reads ∧
          (relaying.toServer.shutdown = true → relaying.toServer.sent = header ++ Read.bytes inbound.reads)) ∧
        relaying.toClient.sent <+: Read.bytes outbound ∧
          (relaying.toClient.shutdown = true → relaying.toClient.sent = Read.bytes outbound)) ∧
      start.Delivers .toServer (header ++ Read.bytes inbound.reads) ∧
      start.Delivers .toClient (Read.bytes outbound) := by
  obtain ⟨-, target, rfl⟩ := proxied_route reached member
  refine ⟨target, ?_⟩
  unfold proxyPlain proxyWithQueue at relays
  rcases headed : proxyHeaderBytes encode inbound (ProxyHeader.proxy.notNone config.server.sendProxyV2) with
    fault | header
  · rw [headed] at relays
    cases relays
  rw [headed] at relays
  cases relays
  have toServer : header ++ [] ++ Read.bytes inbound.reads = header ++ Read.bytes inbound.reads := by
    rw [List.append_nil]
  refine ⟨header, ?_, fun relaying runs => ⟨Relaying.relays .toServer rfl toServer runs,
    Relaying.relays .toClient rfl (List.nil_append _) runs⟩, Relaying.delivers .toServer rfl toServer,
    Relaying.delivers .toClient rfl (List.nil_append _)⟩
  cases sends : config.server.sendProxyV2 with
  | true => simpa [sends, ProxyHeader.notNone, proxyHeaderBytes] using headed
  | false =>
    rw [sends] at headed
    cases headed
    rfl

end

/-- A client from outside, that logs in without a readable name. -/
private def stranger : TcpStream := ⟨⟨.v4 0xCB007107, 49152⟩, ⟨.v4 0, 25565⟩, namelessLogin⟩

private def joins (bannedIps : BannedIps) : List GatewayMove :=
  [.boot, .accept true stranger bannedIps 0, .serve 0 { bannedIps }, .serve 0 { bannedIps }]

theorem processes_asked_for_joined : ∃ gateway,
    playRun (step plainStatusWire {}) (fun _ _ => True) {} (joins {} ++ (goes 0 5 ++ goes 1 2).map .life) =
      some gateway ∧
    gateway.proxy.world.children = [none] ∧
    gateway.proxy.world.children.length ≤ gateway.connections.countP Connection.handedOver := by
  have joined : (playRun (step plainStatusWire {}) (fun _ _ => True) {}
      (joins {} ++ (goes 0 5 ++ goes 1 2).map .life)).map (fun gateway =>
        decide (gateway.proxy.world.children = [none])) = some true := by decide
  obtain ⟨gateway, played, facts⟩ := Option.map_eq_some_iff.mp joined
  obtain ⟨processes, -⟩ := processes_asked_for (runsTo_of_playRun played)
  refine ⟨gateway, played, of_decide_eq_true facts, processes.trans (Nat.le_of_eq ?_)⟩
  simp [ServiceConfig.probes, mustProbe]

/-- The list that has every address. -/
private def everyone : BannedIps := ⟨fun _ => some ⟨none, none⟩⟩

theorem banned_kept_out_stranger : ∃ gateway,
    playRun (step plainStatusWire {}) (FindsBan plainStatusWire stranger.peerAddr.ip) {} (joins everyone) =
      some gateway ∧
    gateway.connections.length = 1 ∧ ∀ connection ∈ gateway.connections, connection.passed = false := by
  have kicked : (playRun (step plainStatusWire {}) (FindsBan plainStatusWire stranger.peerAddr.ip) {}
      (joins everyone)).map (fun gateway =>
        decide (gateway.connections.map Connection.peer? = [some stranger.peerAddr])) = some true := by decide
  obtain ⟨gateway, played, facts⟩ := Option.map_eq_some_iff.mp kicked
  have peers := of_decide_eq_true facts
  have kept := banned_kept_out stranger.peerAddr.ip (runsTo_of_playRun played)
  refine ⟨gateway, played, by simpa using congrArg List.length peers, fun connection member => ?_⟩
  have peer : connection.peer? ∈ gateway.connections.map Connection.peer? := List.mem_map_of_mem member
  rw [peers] at peer
  exact (kept connection member _ (List.mem_singleton.mp peer) rfl).1

theorem lockout_keeps_out_stranger : ∃ gateway,
    playRun (step plainStatusWire { lockout := { enabled := true } }) (fun _ _ => True) {} (joins {}) = some gateway ∧
    gateway.connections.length = 1 ∧ (∀ connection ∈ gateway.connections, connection.passed = false) ∧
    gateway.proxy.world.children = [] := by
  have locked : (playRun (step plainStatusWire { lockout := { enabled := true } }) (fun _ _ => True) {}
      (joins {})).map (fun gateway => decide (gateway.connections.length = 1)) = some true := by decide
  obtain ⟨gateway, played, facts⟩ := Option.map_eq_some_iff.mp locked
  obtain ⟨unpassed, asleep⟩ := lockout_keeps_out rfl (runsTo_of_playRun played)
  exact ⟨gateway, played, of_decide_eq_true facts, unpassed, asleep rfl rfl⟩

/-- A poll finds the server online, and then a client comes. -/
private def joinsOnline : List GatewayMove :=
  [.boot] ++ (.call (.monitor (.ok dummyStatus) (.ok ())) :: goes 0 3).map .life ++
    [.accept true stranger {} 0]

/-- The bytes of the client are read and written in two parts, and then both sides end. -/
private def relayEvents : List RelayEvent :=
  [.copy .toServer, .accept .toServer 8, .copy .toServer, .accept .toServer 2, .finish .toClient, .finish .toServer]

theorem proxied_whole_online : ∃ gateway, ∃ run : Nat → Relaying,
    playRun (step plainStatusWire {}) (fun _ _ => True) {} joinsOnline = some gateway ∧
    run 0 = proxyInboundOutboundWithQueue namelessLogin [] [] [] ∧ (∀ n < 6, (run n).Moves (run (n + 1))) ∧
    (∀ next, ¬ (run 6).Moves next) ∧ (run 6).toServer.sent = Read.bytes namelessLogin := by
  have proxied : ∃ gateway, playRun (step plainStatusWire {}) (fun _ _ => True) {} joinsOnline = some gateway ∧
      .proxied stranger .none INTERNAL_ADDRESS ∈ gateway.connections := ⟨_, rfl, List.mem_singleton.mpr rfl⟩
  obtain ⟨gateway, played, member⟩ := proxied
  obtain ⟨-, header, unsent, -, delivers, -⟩ := proxied_whole (runsTo_of_playRun played) member
    (show proxyPlain (fun _ => none) stranger .none [] = .ok (proxyInboundOutboundWithQueue namelessLogin [] [] [])
      from rfl)
  cases (unsent : header = [])
  let relay := proxyInboundOutboundWithQueue namelessLogin [] [] []
  have moved := @Relaying.moves_along relay relayEvents (by decide)
  have stuck := @Relaying.stuck_of_left (relay.along relayEvents 6) (by decide)
  have orderly : relay.BothEndInOrder := Relaying.bothEndInOrder
    (@endsInOrder_chunks [[7, 0, 47, 1, 120, 99, 221, 2], [1, 0]] (by decide)) nofun
  exact ⟨gateway, _, played, rfl, moved, stuck, ((delivers _ 6 rfl moved).2 orderly stuck).2⟩

end Gateway
end PlexPaper
