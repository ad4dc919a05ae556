import PlexPaper.Gateway
import PlexPaper.ListProvenance
import PlexPaper.WhitelistReloads

/-! The gateway and the files of the server. Before `service::server::service` accepts the first
connection it spawns the thread of `file_watcher::service`, and whoever looks at the ban list or the
whitelist finds what that thread has set last. It may set another before anything comes of the look:
`route` has looked at the bans when it asks for the state, and an iteration of `serve` looks at both
lists, one after the other, before it starts the server. So a client is judged by what the files have
said when it was looked up. -/
namespace PlexPaper
open Tasks

section

variable (wire : StatusWire) (config : Config) (session : Session)

/-- Does the iteration look its client up in the ban list? -/
def looksUpBan : Bool := (loginStartPacket wire session).isSome && !config.lockout.enabled

/-- Does it look up a name, where it has found these bans? -/
def looksUpName (bannedIps : BannedIps) (now : Utc) : Bool :=
  looksUpBan wire config session && !bannedIps.isBanned wire.parseExpiry now session.client.peer.ip &&
    ((loginStartPacket wire session).bind fun packet => wire.decodeLoginStart packet.data).isSome

variable {wire config session}

theorem looksUpBan_iff : looksUpBan wire config session = true ↔
    (∃ packet, loginStartPacket wire session = some packet) ∧ config.lockout.enabled = false := by
  simp [looksUpBan, Option.isSome_iff_exists]

theorem looksUpName_iff {bannedIps : BannedIps} {now : Utc} :
    looksUpName wire config session bannedIps now = true ↔
      looksUpBan wire config session = true ∧
        bannedIps.isBanned wire.parseExpiry now session.client.peer.ip = false ∧
        ∃ packet name, loginStartPacket wire session = some packet ∧
          wire.decodeLoginStart packet.data = some name := by
  simp only [looksUpName, Bool.and_eq_true, Bool.not_eq_true', Option.isSome_iff_exists,
    Option.bind_eq_some_iff, and_assoc]
  exact and_congr_right fun _ => and_congr_right fun _ => ⟨fun ⟨name, packet, both⟩ => ⟨packet, name, both⟩,
    fun ⟨packet, name, both⟩ => ⟨name, packet, both⟩⟩

/-- What the lists are makes a difference to an iteration only where it looks them up. -/
theorem serveStep_of_lookups {moment : Moment} {bannedIps : BannedIps} {now : Utc} {whitelist : Option Whitelist}
    (bans : looksUpBan wire config session = true → bannedIps = moment.bannedIps ∧ now = moment.now)
    (names : looksUpName wire config session bannedIps now = true → whitelist = moment.whitelist) :
    serveStep wire config { moment with bannedIps, now, whitelist } session =
      serveStep wire config moment session := by
  rcases read : readPacket wire.toCodecs session.client session.conn with
    ⟨(_ | _) | (_ | ⟨packet, raw⟩), conn⟩
  · simp only [serveStep, read]
  · simp only [serveStep, read]
  · simp only [serveStep, read]
  · by_cases login : session.client.state = .login ∧ packet.id = wire.serverLoginStart
    · have found : loginStartPacket wire session = some packet := by
        simp only [loginStartPacket, read]
        exact if_pos login
      have gate (found : Moment) : serveStep wire config found session =
          serveLoginStart wire config found { session with conn } packet raw := by
        simp [serveStep, read, login.1, login.2]
      rw [gate, gate]
      unfold serveLoginStart
      by_cases locked : config.lockout.enabled = true
      · rw [if_pos locked, if_pos locked]
        rfl
      rw [if_neg locked, if_neg locked]
      have looks : looksUpBan wire config session = true :=
        looksUpBan_iff.mpr ⟨⟨packet, found⟩, by simpa using locked⟩
      obtain ⟨rfl, rfl⟩ := bans looks
      simp only
      cases banned : (moment.bannedIps.get session.client.peer.ip).filter
        (·.isBanned wire.parseExpiry moment.now) with
      | some ban => rfl
      | none =>
        cases named : wire.decodeLoginStart packet.data with
        | none => rfl
        | some name =>
          have free : moment.bannedIps.isBanned wire.parseExpiry moment.now session.client.peer.ip = false :=
            Bool.eq_false_iff.mpr fun active =>
              (BannedIps.get_filter_eq_none_iff ..).mp banned ((BannedIps.isBanned_iff ..).mp active)
          obtain rfl := names (looksUpName_iff.mpr ⟨looks, free, packet, name, found, named⟩)
          rfl
    · simp only [serveStep, read, login, if_false]
      rfl

end

/-- What a connection has found: the ban list, at the time that it asked the clock, and the whitelist. -/
structure Lookups where
  bans : Option (BannedIps × Utc) := none
  names : Option (Option Whitelist) := none

def Lookups.made (lookups : Lookups) : Bool := lookups.bans.isSome || lookups.names.isSome

theorem Lookups.made_of_bans {lookups : Lookups} {found : BannedIps × Utc} (looked : lookups.bans = some found) :
    lookups.made := by simp [made, looked]

theorem Lookups.made_of_names {lookups : Lookups} {found : Option Whitelist} (looked : lookups.names = some found) :
    lookups.made := by simp [made, looked]

/-- A field of what has been looked up, where one connection has looked something up. -/
theorem Lookups.field_update {α : Type} (field : Lookups → Option α) {lookups : Nat → Lookups} {other index : Nat}
    {found : Lookups} {value : α} (looked : field (Function.update lookups other found index) = some value) :
    (index = other ∧ field found = some value) ∨ (index ≠ other ∧ field (lookups index) = some value) := by
  by_cases same : index = other
  · subst same
    rw [Function.update_self] at looked
    exact .inl ⟨rfl, looked⟩
  · rw [Function.update_of_ne same] at looked
    exact .inr ⟨same, looked⟩

/-- The gateway, the thread with the lists that it keeps in memory, and what has been found in them
and not yet acted on: by `route` for the connection that it is called with, and for each that is served. -/
structure WatchedGateway where
  gateway : Gateway := {}
  watcher : Pool FileWatcher.Op FileWatcher.Op.Reply FileWatcher.World Unit
  routed : Option (BannedIps × Utc) := none
  lookups : Nat → Lookups := fun _ => {}

inductive WatchedMove where
  | gate (move : GatewayMove)
  | lookUpRouted (now : Utc)
  | lookUpBan (index : Nat) (now : Utc)
  | lookUpName (index : Nat)
  | spawnWatcher
  | files (move : Move FileWatcher.Answer Unit FileWatcher.Change)

namespace WatchedGateway

/-- At the start nothing has been loaded. -/
def boot (files : Path → Option String) : WatchedGateway where
  watcher := ⟨{ files }, []⟩

section

variable (wire : StatusWire) (config : ServiceConfig) (formats : FileWatcher.FileFormats) (rounds : Nat)

/-- A move of the gateway, with what has been looked up for it. -/
def informed (whole : WatchedGateway) : GatewayMove → Option GatewayMove
  | .accept true inbound _ _ => whole.routed.map fun (bannedIps, now) => .accept true inbound bannedIps now
  -- Without the address of its peer a connection is dropped before the look.
  | .accept false inbound bannedIps now =>
    if whole.routed.isNone then some (.accept false inbound bannedIps now) else none
  | .serve index moment =>
    match whole.gateway.connections[index]? with
    | some (.serving session) =>
      if looksUpBan wire config.toConfig session then
        (whole.lookups index).bans.bind fun (bannedIps, now) =>
          if looksUpName wire config.toConfig session bannedIps now then
            (whole.lookups index).names.map fun whitelist => .serve index { moment with bannedIps, now, whitelist }
          else some (.serve index { moment with bannedIps, now })
      else some (.serve index moment)
    | _ => none
  | move => some move

/-- What has been found is acted on once. -/
def acted (whole : WatchedGateway) : GatewayMove → WatchedGateway
  | .accept _ _ _ _ => { whole with routed := none }
  | .serve index _ => { whole with lookups := Function.update whole.lookups index {} }
  | _ => whole

def step (whole : WatchedGateway) (move : WatchedMove) : Option WatchedGateway :=
  if whole.gateway.proxy.world.exited then none
  else match move with
  | .gate move =>
    (informed wire config whole move).bind fun told =>
      (Gateway.step wire config whole.gateway told).map fun gateway => { whole.acted move with gateway }
  | .lookUpRouted now =>
    if whole.gateway.phase = .listening ∧ whole.routed.isNone then
      some { whole with routed := some (whole.watcher.world.bannedIps, now) }
    else none
  | .lookUpBan index now =>
    match whole.gateway.connections[index]?, (whole.lookups index).bans with
    | some (.serving session), none =>
      if looksUpBan wire config.toConfig session then
        some { whole with
          lookups := Function.update whole.lookups index { bans := some (whole.watcher.world.bannedIps, now) } }
      else none
    | _, _ => none
  | .lookUpName index =>
    match whole.gateway.connections[index]?, whole.lookups index with
    | some (.serving session), ⟨some (bannedIps, now), none⟩ =>
      if looksUpName wire config.toConfig session bannedIps now then
        some { whole with
          lookups := Function.update whole.lookups index
            ⟨some (bannedIps, now), some whole.watcher.world.whitelist⟩ }
      else none
    | _, _ => none
  | .spawnWatcher =>
    if whole.gateway.phase = .listening ∧ whole.watcher.tasks.isEmpty then
      some { whole with
        watcher := (FileWatcher.watching formats config.toConfig rounds).alone () whole.watcher.world }
    else none
  | .files move =>
    ((FileWatcher.watching formats config.toConfig rounds).step whole.watcher move).map fun watcher =>
      { whole with watcher }

/-- Files are only changed to versions of theirs. -/
def Writes (versions : FileWatcher.Versions) (_ : WatchedGateway) : WatchedMove → Prop
  | .files (.outside change) => versions change.path change.contents
  | _ => True

def Reaches (versions : FileWatcher.Versions) : WatchedGateway → WatchedGateway → Prop :=
  RunsTo (step wire config formats rounds) (Writes versions)

end

section

variable {wire : StatusWire} {config : ServiceConfig} {formats : FileWatcher.FileFormats} {rounds : Nat}
  {versions : FileWatcher.Versions} {files : Path → Option String} {before after whole : WatchedGateway}

/-! ## What a move can do -/

/-- What a move that is taken has found, and what it leaves. -/
inductive Steps (wire : StatusWire) (config : ServiceConfig) (formats : FileWatcher.FileFormats) (rounds : Nat)
    (whole : WatchedGateway) : WatchedMove → WatchedGateway → Prop where
  | accepts {move : GatewayMove} {peerKnown : Bool} {inbound : TcpStream} {bannedIps : BannedIps} {now : Utc}
      {gateway : Gateway} (routed : peerKnown = true → whole.routed = some (bannedIps, now))
      (moved : Gateway.step wire config whole.gateway (.accept peerKnown inbound bannedIps now) = some gateway) :
      Steps wire config formats rounds whole (.gate move) { whole with gateway, routed := none }
  | serves {move : GatewayMove} {index : Nat} {moment : Moment} {session : Session} {gateway : Gateway}
      (there : whole.gateway.connections[index]? = some (.serving session))
      (bans : looksUpBan wire config.toConfig session = true →
        (whole.lookups index).bans = some (moment.bannedIps, moment.now))
      (names : looksUpName wire config.toConfig session moment.bannedIps moment.now = true →
        (whole.lookups index).names = some moment.whitelist)
      (moved : Gateway.step wire config whole.gateway (.serve index moment) = some gateway) :
      Steps wire config formats rounds whole (.gate move)
        { whole with gateway, lookups := Function.update whole.lookups index {} }
  | others {move : GatewayMove} {gateway : Gateway}
      (unaccepted : ∀ peerKnown inbound bannedIps now, move ≠ .accept peerKnown inbound bannedIps now)
      (unserved : ∀ index moment, move ≠ .serve index moment)
      (moved : Gateway.step wire config whole.gateway move = some gateway) :
      Steps wire config formats rounds whole (.gate move) { whole with gateway }
  | looksUpRouted {now : Utc} : Steps wire config formats rounds whole (.lookUpRouted now)
      { whole with routed := some (whole.watcher.world.bannedIps, now) }
  | looksUpBan {index : Nat} {now : Utc} {session : Session}
      (there : whole.gateway.connections[index]? = some (.serving session)) :
      Steps wire config formats rounds whole (.lookUpBan index now) { whole with
        lookups := Function.update whole.lookups index { bans := some (whole.watcher.world.bannedIps, now) } }
  | looksUpName {index : Nat} {session : Session} {found : BannedIps × Utc}
      (there : whole.gateway.connections[index]? = some (.serving session))
      (bans : (whole.lookups index).bans = some found) :
      Steps wire config formats rounds whole (.lookUpName index) { whole with
        lookups := Function.update whole.lookups index ⟨some found, some whole.watcher.world.whitelist⟩ }
  | spawns (unspawned : whole.watcher.tasks = []) :
      Steps wire config formats rounds whole .spawnWatcher { whole with
        watcher := (FileWatcher.watching formats config.toConfig rounds).alone () whole.watcher.world }
  | watches {move : Move FileWatcher.Answer Unit FileWatcher.Change}
      {watcher : Pool FileWatcher.Op FileWatcher.Op.Reply FileWatcher.World Unit}
      (moved : (FileWatcher.watching formats config.toConfig rounds).step whole.watcher move = some watcher) :
      Steps wire config formats rounds whole (.files move) { whole with watcher }

/-- What an iteration of `serve` is told. -/
theorem informed_serve {index : Nat} {moment : Moment} {told : GatewayMove}
    (informs : informed wire config whole (.serve index moment) = some told) :
    ∃ session told', told = .serve index told' ∧
      whole.gateway.connections[index]? = some (.serving session) ∧
      (looksUpBan wire config.toConfig session = true →
        (whole.lookups index).bans = some (told'.bannedIps, told'.now)) ∧
      (looksUpName wire config.toConfig session told'.bannedIps told'.now = true →
        (whole.lookups index).names = some told'.whitelist) := by
  simp only [informed] at informs
  split at informs
  · rename_i session there
    split at informs
    · obtain ⟨⟨bannedIps, now⟩, bans, informs⟩ := Option.bind_eq_some_iff.mp informs
      dsimp only at informs
      split at informs
      · obtain ⟨whitelist, names, rfl⟩ := Option.map_eq_some_iff.mp informs
        exact ⟨session, _, rfl, there, fun _ => bans, fun _ => names⟩
      · rename_i unnamed
        cases informs
        exact ⟨session, _, rfl, there, fun _ => bans, fun named => absurd named unnamed⟩
    · rename_i unlooked
      cases informs
      exact ⟨session, moment, rfl, there, fun looks => absurd looks unlooked,
        fun looks => absurd (looksUpName_iff.mp looks).1 unlooked⟩
  · cases informs

theorem steps_of_step {move : WatchedMove} (stepped : step wire config formats rounds whole move = some after) :
    Steps wire config formats rounds whole move after := by
  obtain ⟨-, stepped⟩ := Option.ite_none_left_eq_some.mp stepped
  cases move with
  | gate move =>
    obtain ⟨told, informs, taken⟩ := Option.bind_eq_some_iff.mp stepped
    obtain ⟨gateway, moved, rfl⟩ := Option.map_eq_some_iff.mp taken
    cases move with
    | accept peerKnown inbound bannedIps now =>
      cases peerKnown with
      | true =>
        obtain ⟨⟨bannedIps, now⟩, routed, rfl⟩ := Option.map_eq_some_iff.mp informs
        exact .accepts (fun _ => routed) moved
      | false =>
        obtain ⟨-, same⟩ := Option.ite_none_right_eq_some.mp informs
        cases same
        exact .accepts (fun known => absurd known Bool.false_ne_true) moved
    | serve index moment =>
      obtain ⟨session, found, rfl, there, bans, names⟩ := informed_serve informs
      exact .serves there bans names moved
    | boot | listen | probe | life =>
      cases informs
      exact .others nofun nofun moved
  | lookUpRouted now =>
    obtain ⟨-, same⟩ := Option.ite_none_right_eq_some.mp stepped
    cases same
    exact .looksUpRouted
  | lookUpBan index now =>
    simp only at stepped
    split at stepped
    · rename_i session there unlooked
      obtain ⟨-, same⟩ := Option.ite_none_right_eq_some.mp stepped
      cases same
      exact .looksUpBan there
    · cases stepped
  | lookUpName index =>
    simp only at stepped
    split at stepped
    · rename_i session bannedIps now there looked
      obtain ⟨-, same⟩ := Option.ite_none_right_eq_some.mp stepped
      cases same
      exact .looksUpName there (by rw [looked])
    · cases stepped
  | spawnWatcher =>
    obtain ⟨⟨-, unspawned⟩, same⟩ := Option.ite_none_right_eq_some.mp stepped
    cases same
    exact .spawns (List.isEmpty_iff.mp unspawned)
  | files move =>
    obtain ⟨watcher, moved, rfl⟩ := Option.map_eq_some_iff.mp stepped
    exact .watches moved

/-- The gateway of such a run has run by itself. -/
theorem gateway_reached (reached : Reaches wire config formats rounds versions (boot files) whole) :
    Gateway.Reaches wire config (fun _ _ => True) {} whole.gateway := by
  induction reached with
  | refl => exact .refl
  | tail _ stepped ih =>
    obtain ⟨move, -, stepped⟩ := stepped
    cases steps_of_step stepped with
    | accepts _ moved | serves _ _ _ moved | others _ _ moved => exact ih.tail ⟨_, trivial, moved⟩
    | looksUpRouted | looksUpBan | looksUpName | spawns | watches => exact ih

/-! ## The thread -/

variable (config formats rounds versions) in
/-- The thread has not been spawned, or it runs since the files were at versions of theirs. -/
def Watches (watcher : Pool FileWatcher.Op FileWatcher.Op.Reply FileWatcher.World Unit) : Prop :=
  (watcher.tasks = [] ∧ versions.Admit watcher.world.files ∧ watcher.world.watched = none) ∨
  (watcher.tasks ≠ [] ∧ ∃ world, versions.Admit world.files ∧ world.watched = none ∧
    (FileWatcher.watching formats config.toConfig rounds).Reaches versions.Written
      ((FileWatcher.watching formats config.toConfig rounds).alone () world) watcher)

/-- Before it is spawned only others change the world of the thread. -/
theorem unspawned_step {watcher later : Pool FileWatcher.Op FileWatcher.Op.Reply FileWatcher.World Unit}
    {move : Move FileWatcher.Answer Unit FileWatcher.Change} (unspawned : watcher.tasks = [])
    (stepped : (FileWatcher.watching formats config.toConfig rounds).step watcher move = some later) :
    ∃ change, move = .outside change ∧ later = ⟨watcher.world.change change, []⟩ := by
  obtain ⟨world, tasks⟩ := watcher
  obtain rfl : tasks = [] := unspawned
  cases move with
  | call entry =>
    rw [System.step, if_neg (by simp [FileWatcher.watching])] at stepped
    cases stepped
  | outside change =>
    cases stepped
    exact ⟨change, rfl, rfl⟩
  | run index answer => cases stepped

theorem watches_of_reaches (start : versions.Admit files)
    (reached : Reaches wire config formats rounds versions (boot files) whole) :
    Watches config formats rounds versions whole.watcher := by
  induction reached with
  | refl => exact .inl ⟨rfl, start, rfl⟩
  | tail _ stepped ih =>
    obtain ⟨move, written, stepped⟩ := stepped
    cases steps_of_step stepped with
    | accepts | serves | others | looksUpRouted | looksUpBan | looksUpName => exact ih
    | spawns unspawned =>
      rcases ih with ⟨-, admits, unwatched⟩ | ⟨running, -⟩
      · exact .inr ⟨List.cons_ne_nil _ _, _, admits, unwatched, .refl⟩
      · exact absurd unspawned running
    | @watches other watcher moved =>
      rcases ih with ⟨unspawned, admits, unwatched⟩ | ⟨running, world, admits, unwatched, runs⟩
      · obtain ⟨change, rfl, later⟩ := unspawned_step unspawned moved
        dsimp only
        rw [later]
        exact .inl ⟨rfl, admits.change written, unwatched⟩
      · refine .inr ⟨fun ended => running ?_, world, admits, unwatched, runs.step ?_ moved⟩
        · obtain ⟨fresh, entries, -⟩ := System.step_entries moved
          rw [ended] at entries
          exact List.map_eq_nil_iff.mp (List.append_eq_nil_iff.mp entries.symm).1
        cases other with
        | outside change => exact written
        | call | run => trivial

/-! ## Who gets through -/

/-- A connection that is served stays as it is until its next iteration. -/
theorem serving_kept {gateway : Gateway} {move : GatewayMove} {index : Nat}
    (moved : Gateway.step wire config before.gateway move = some gateway)
    (unserved : ∀ moment, move ≠ .serve index moment)
    (serving : ∃ session, before.gateway.connections[index]? = some (.serving session)) :
    gateway.connections[index]? = before.gateway.connections[index]? := by
  obtain ⟨session, there⟩ := serving
  obtain ⟨inside, -⟩ := List.getElem?_eq_some_iff.mp there
  exact Gateway.connection_kept moved inside unserved

/-- Only a connection that is served has looked anything up. -/
theorem serving_of_made (reached : Reaches wire config formats rounds versions (boot files) whole) :
    ∀ index, (whole.lookups index).made →
      ∃ session, whole.gateway.connections[index]? = some (.serving session) := by
  induction reached with
  | refl => exact nofun
  | @tail before _ _ stepped ih =>
    obtain ⟨move, -, stepped⟩ := stepped
    intro index made
    have kept {gateway : Gateway} {move : GatewayMove}
        (moved : Gateway.step wire config before.gateway move = some gateway)
        (unserved : ∀ moment, move ≠ .serve index moment) (made : (before.lookups index).made) :
        ∃ session, gateway.connections[index]? = some (.serving session) := by
      rw [serving_kept moved unserved (ih index made)]
      exact ih index made
    have updated {other : Nat} {session : Session} {found : Lookups}
        (there : before.gateway.connections[other]? = some (.serving session))
        (made : (Function.update before.lookups other found index).made) :
        ∃ session, before.gateway.connections[index]? = some (.serving session) := by
      by_cases same : index = other
      · subst same
        exact ⟨session, there⟩
      · rw [Function.update_of_ne same] at made
        exact ih index made
    cases steps_of_step stepped with
    | accepts _ moved => exact kept moved nofun made
    | @serves _ other _ _ _ _ _ _ moved =>
      dsimp only at made
      by_cases same : index = other
      · subst same
        rw [Function.update_self] at made
        cases made
      · rw [Function.update_of_ne same] at made
        exact kept moved (fun _ own => same (GatewayMove.serve.inj own).1.symm) made
    | others _ unserved moved => exact kept moved (unserved index) made
    | looksUpBan there => exact updated there made
    | looksUpName there => exact updated there made
    | looksUpRouted | spawns | watches => exact ih index made

variable {bans : BannedIps → Prop} {whitelist : Option Whitelist → Prop} {dir : Path}

/-- A move leaves each list as it is, or one is set that the versions of the files vouch for. -/
theorem lists_step (vouches : FileWatcher.Vouches formats config.toConfig dir versions bans whitelist)
    (directory : config.server.directory = some dir)
    (watches : Watches config formats rounds versions before.watcher) {move : WatchedMove}
    (stepped : step wire config formats rounds before move = some after) :
    (after.watcher.world.bannedIps = before.watcher.world.bannedIps ∨ bans after.watcher.world.bannedIps) ∧
      (after.watcher.world.whitelist = before.watcher.world.whitelist ∨
        whitelist after.watcher.world.whitelist) := by
  cases steps_of_step stepped with
  | accepts | serves | others | looksUpRouted | looksUpBan | looksUpName | spawns => exact ⟨.inl rfl, .inl rfl⟩
  | watches moved =>
    rcases watches with ⟨unspawned, -⟩ | ⟨-, world, admits, unwatched, runs⟩
    · obtain ⟨change, -, rfl⟩ := unspawned_step unspawned moved
      exact ⟨.inl rfl, .inl rfl⟩
    · exact FileWatcher.memory_step vouches directory admits unwatched runs moved

/-- Whatever has been looked up and not yet acted on was like this, unless it had been looked up
before, and then the connection has been left alone since. -/
structure Found (bans : BannedIps → Prop) (whitelist : Option Whitelist → Prop) (before whole : WatchedGateway) :
    Prop where
  routed : ∀ ips now, whole.routed = some (ips, now) → bans ips ∨
    before.routed = some (ips, now) ∧ before.gateway.connections.length = whole.gateway.connections.length
  lookedUpBans : ∀ index ips now, (whole.lookups index).bans = some (ips, now) → bans ips ∨
    (before.lookups index).bans = some (ips, now) ∧
      before.gateway.connections[index]? = whole.gateway.connections[index]?
  lookedUpNames : ∀ index list, (whole.lookups index).names = some list → whitelist list ∨
    (before.lookups index).names = some list ∧
      before.gateway.connections[index]? = whole.gateway.connections[index]?

theorem Found.refl : Found bans whitelist whole whole where
  routed _ _ looked := .inr ⟨looked, rfl⟩
  lookedUpBans _ _ _ looked := .inr ⟨looked, rfl⟩
  lookedUpNames _ _ looked := .inr ⟨looked, rfl⟩

theorem Found.trans (first : Found bans whitelist before whole) (second : Found bans whitelist whole after) :
    Found bans whitelist before after where
  routed ips now looked := (second.routed ips now looked).elim .inl fun ⟨earlier, same⟩ =>
    (first.routed ips now earlier).imp_right fun ⟨there, count⟩ => ⟨there, count.trans same⟩
  lookedUpBans index ips now looked := (second.lookedUpBans index ips now looked).elim .inl fun ⟨earlier, same⟩ =>
    (first.lookedUpBans index ips now earlier).imp_right fun ⟨there, alone⟩ => ⟨there, alone.trans same⟩
  lookedUpNames index list looked := (second.lookedUpNames index list looked).elim .inl fun ⟨earlier, same⟩ =>
    (first.lookedUpNames index list earlier).imp_right fun ⟨there, alone⟩ => ⟨there, alone.trans same⟩

/-- A look finds what is in memory, and until it is acted on its connection is left alone. -/
theorem Found.of_step (known : bans before.watcher.world.bannedIps)
    (listed : whitelist before.watcher.world.whitelist)
    (serving : ∀ index, (before.lookups index).made →
      ∃ session, before.gateway.connections[index]? = some (.serving session)) {move : WatchedMove}
    (stepped : step wire config formats rounds before move = some after) : Found bans whitelist before after := by
  have kept {gateway : Gateway} {move : GatewayMove} {index : Nat}
      (moved : Gateway.step wire config before.gateway move = some gateway)
      (unserved : ∀ moment, move ≠ .serve index moment) (made : (before.lookups index).made) :
      before.gateway.connections[index]? = gateway.connections[index]? :=
    (serving_kept moved unserved (serving index made)).symm
  have unmoved : Found bans whitelist before before := .refl
  cases steps_of_step stepped with
  | accepts _ moved =>
    exact ⟨nofun, fun _ _ _ looked => .inr ⟨looked, kept moved nofun (Lookups.made_of_bans looked)⟩,
      fun _ _ looked => .inr ⟨looked, kept moved nofun (Lookups.made_of_names looked)⟩⟩
  | @serves _ other moment _ _ _ _ _ moved =>
    have unserved {index : Nat} (same : index ≠ other) (again : Moment) :
        GatewayMove.serve other moment ≠ .serve index again := fun own => same (GatewayMove.serve.inj own).1.symm
    refine ⟨fun _ _ looked => .inr ⟨looked, (Gateway.connections_length moved nofun).symm⟩,
      fun index _ _ looked => ?_, fun index _ looked => ?_⟩
    · rcases Lookups.field_update Lookups.bans looked with ⟨-, gone⟩ | ⟨same, looked⟩
      · cases gone
      · exact .inr ⟨looked, kept moved (unserved same) (Lookups.made_of_bans looked)⟩
    · rcases Lookups.field_update Lookups.names looked with ⟨-, gone⟩ | ⟨same, looked⟩
      · cases gone
      · exact .inr ⟨looked, kept moved (unserved same) (Lookups.made_of_names looked)⟩
  | others unaccepted unserved moved =>
    exact ⟨fun _ _ looked => .inr ⟨looked, (Gateway.connections_length moved unaccepted).symm⟩,
      fun index _ _ looked => .inr ⟨looked, kept moved (unserved index) (Lookups.made_of_bans looked)⟩,
      fun index _ looked => .inr ⟨looked, kept moved (unserved index) (Lookups.made_of_names looked)⟩⟩
  | looksUpRouted =>
    refine ⟨fun ips now looked => .inl ?_, unmoved.lookedUpBans, unmoved.lookedUpNames⟩
    cases looked
    exact known
  | looksUpBan =>
    refine ⟨unmoved.routed, fun index ips now looked => ?_, fun index list looked => ?_⟩
    · rcases Lookups.field_update Lookups.bans looked with ⟨-, own⟩ | ⟨-, looked⟩
      · cases own
        exact .inl known
      · exact .inr ⟨looked, rfl⟩
    · rcases Lookups.field_update Lookups.names looked with ⟨-, gone⟩ | ⟨-, looked⟩
      · cases gone
      · exact .inr ⟨looked, rfl⟩
  | looksUpName _ bansLooked =>
    refine ⟨unmoved.routed, fun index ips now looked => ?_, fun index list looked => ?_⟩
    · rcases Lookups.field_update Lookups.bans looked with ⟨rfl, same⟩ | ⟨-, looked⟩
      · exact .inr ⟨bansLooked.trans same, rfl⟩
      · exact .inr ⟨looked, rfl⟩
    · rcases Lookups.field_update Lookups.names looked with ⟨-, own⟩ | ⟨-, looked⟩
      · cases own
        exact .inl listed
      · exact .inr ⟨looked, rfl⟩
  | spawns | watches => exact ⟨unmoved.routed, unmoved.lookedUpBans, unmoved.lookedUpNames⟩

variable (wire config bans whitelist before) in
/-- What a connection was looked up in, before something came of it, was like this, or it had been
looked up before. -/
def JudgedBy (index : Nat) : Connection → Prop
  | .dropped _ | .serving _ => True
  | .proxied inbound _ _ => ∃ ips now, ips.isBanned wire.parseExpiry now inbound.peerAddr.ip = false ∧
      (bans ips ∨ before.routed = some (ips, now) ∧ before.gateway.connections.length = index)
  | .ended final =>
    serveStep wire config.toConfig final.moment final.before = (final.after, some final.ending) ∧
    (looksUpBan wire config.toConfig final.before = true → bans final.moment.bannedIps ∨
      (before.lookups index).bans = some (final.moment.bannedIps, final.moment.now) ∧
        before.gateway.connections[index]? = some (.serving final.before)) ∧
    (looksUpName wire config.toConfig final.before final.moment.bannedIps final.moment.now = true →
      whitelist final.moment.whitelist ∨ (before.lookups index).names = some final.moment.whitelist ∧
        before.gateway.connections[index]? = some (.serving final.before))

theorem accepted_judgedBy {peerKnown : Bool} {inbound : TcpStream} {ips : BannedIps} {now : Utc} {index : Nat}
    {peer : Option SocketAddr} {state : State} (known : peer = if peerKnown then some inbound.peerAddr else none)
    (good : peerKnown = true → bans ips ∨
      before.routed = some (ips, now) ∧ before.gateway.connections.length = index) :
    JudgedBy wire config before bans whitelist index
      (Gateway.accepted peer inbound (route wire config.toConfig peer ips now state)) := by
  subst known
  unfold route
  cases peerKnown with
  | false => trivial
  | true =>
    simp only [↓reduceIte]
    split
    · trivial
    · split
      · rename_i passes
        exact ⟨ips, now, by simpa using passes.1, good rfl⟩
      · trivial

theorem served_judgedBy {session : Session} {moment : Moment} {index : Nat}
    (good : looksUpBan wire config.toConfig session = true → bans moment.bannedIps ∨
      (before.lookups index).bans = some (moment.bannedIps, moment.now) ∧
        before.gateway.connections[index]? = some (.serving session))
    (listed : looksUpName wire config.toConfig session moment.bannedIps moment.now = true →
      whitelist moment.whitelist ∨ (before.lookups index).names = some moment.whitelist ∧
        before.gateway.connections[index]? = some (.serving session)) :
    JudgedBy wire config before bans whitelist index
      (Gateway.served session moment (serveStep wire config.toConfig moment session)) := by
  rcases iteration : serveStep wire config.toConfig moment session with ⟨next, _ | ending⟩
  · trivial
  · exact ⟨iteration, good, listed⟩

/-- A move leaves each connection as it is, or it is judged by what has been looked up for it. -/
theorem connection_step {middle : WatchedGateway} (found : Found bans whitelist before middle) {move : WatchedMove}
    (stepped : step wire config formats rounds middle move = some after) {index : Nat} {connection : Connection}
    (there : after.gateway.connections[index]? = some connection) :
    middle.gateway.connections[index]? = some connection ∨
      JudgedBy wire config before bans whitelist index connection := by
  cases steps_of_step stepped with
  | @accepts _ peerKnown inbound ips now _ routed moved =>
    cases Gateway.steps_of_step moved with
    | accepts _ known =>
      dsimp only at there
      rw [List.getElem?_append] at there
      split at there
      · exact .inl there
      · rename_i behind
        obtain ⟨inside, -⟩ := List.getElem?_eq_some_iff.mp there
        obtain rfl := List.mem_singleton.mp (List.mem_of_getElem? there)
        have last : middle.gateway.connections.length = index := by
          simp only [List.length_singleton] at inside
          omega
        refine .inr (accepted_judgedBy known fun asked => ?_)
        exact (found.routed ips now (routed asked)).imp_right fun ⟨earlier, count⟩ => ⟨earlier, count.trans last⟩
  | @serves _ other moment session _ serving banned named moved =>
    rcases Gateway.connection_step moved there with
      old | ⟨_, _, _, _, _, same, -⟩ | ⟨_, session', same, there', rfl⟩
    · exact .inl old
    · cases same
    · cases same
      cases serving.symm.trans there'
      refine .inr (served_judgedBy (fun looks => ?_) fun looks => ?_)
      · exact (found.lookedUpBans index _ _ (banned looks)).imp_right fun ⟨earlier, alone⟩ =>
          ⟨earlier, alone.trans serving⟩
      · exact (found.lookedUpNames index _ (named looks)).imp_right fun ⟨earlier, alone⟩ =>
          ⟨earlier, alone.trans serving⟩
  | others unaccepted unserved moved =>
    rcases Gateway.connection_step moved there with
      old | ⟨_, _, _, _, _, same, -⟩ | ⟨_, _, same, -⟩
    · exact .inl old
    · exact absurd same (unaccepted _ _ _ _)
    · exact absurd same (unserved _ _)
  | looksUpRouted | looksUpBan | looksUpName | spawns | watches => exact .inl there

/-- Where the lists in memory are like these, and all that the versions of the files load as, whoever
comes to something from then on is judged by such lists, unless it had been looked up by then. -/
theorem judged_by_lists (vouches : FileWatcher.Vouches formats config.toConfig dir versions bans whitelist)
    (directory : config.server.directory = some dir) (start : versions.Admit files)
    (reached : Reaches wire config formats rounds versions (boot files) before)
    (knownBans : bans before.watcher.world.bannedIps) (knownList : whitelist before.watcher.world.whitelist)
    (later : Reaches wire config formats rounds versions before after) :
    (bans after.watcher.world.bannedIps ∧ whitelist after.watcher.world.whitelist) ∧
    Found bans whitelist before after ∧
    ∀ (index : Nat) connection, after.gateway.connections[index]? = some connection →
      before.gateway.connections[index]? = some connection ∨
        JudgedBy wire config before bans whitelist index connection := by
  induction later with
  | refl => exact ⟨⟨knownBans, knownList⟩, .refl, fun _ _ there => .inl there⟩
  | tail further stepped ih =>
    obtain ⟨move, written, stepped⟩ := stepped
    obtain ⟨⟨goodBans, goodList⟩, found, passed⟩ := ih
    have reached := reached.trans further
    obtain ⟨setBans, setList⟩ := lists_step vouches directory (watches_of_reaches start reached) stepped
    have looked := Found.of_step goodBans goodList (serving_of_made reached) stepped
    refine ⟨⟨setBans.elim (fun same => same ▸ goodBans) id, setList.elim (fun same => same ▸ goodList) id⟩,
      found.trans looked, fun index connection there => ?_⟩
    exact (connection_step found stepped there).elim (passed index connection) .inr

/-- Once a whitelist is in memory without a name that no version of its files lists, as long as the
server has it on, nobody wakes the server under the name any more but whoever has been looked up
by then. -/
theorem whitelist_in_files_keeps_out (name : String) (directory : config.server.directory = some dir)
    (start : versions.Admit files)
    (unlisted : ∀ properties users ops loaded, versions (dir ++ [FileWatcher.ServerProperties.FILE]) properties →
      versions (dir ++ [FileWatcher.WHITELIST_FILE]) users → versions (dir ++ [FileWatcher.OPS_FILE]) ops →
      FileWatcher.loadedWhitelist formats config.toConfig properties users ops = some loaded →
        isWhitelisted loaded name = false)
    (reached : Reaches wire config formats rounds versions (boot files) before)
    (known : isWhitelisted before.watcher.world.whitelist name = false)
    (later : Reaches wire config formats rounds versions before after) :
    ∀ (index : Nat) final packet, after.gateway.connections[index]? = some (.ended final) →
      final.handover?.isSome → loginStartPacket wire final.before = some packet →
        wire.decodeLoginStart packet.data = some name →
          before.gateway.connections[index]? = some (.ended final) ∨
            before.gateway.connections[index]? = some (.serving final.before) ∧
              ∃ list, (before.lookups index).names = some list ∧ isWhitelisted list name = true := by
  intro index final packet there handed login named
  have vouches : FileWatcher.Vouches formats config.toConfig dir versions (fun _ => True)
      fun list => isWhitelisted list name = false := ⟨fun _ _ _ _ => trivial, unlisted⟩
  obtain ⟨-, -, judged⟩ := judged_by_lists vouches directory start reached trivial known later
  refine (judged index _ there).imp_right fun judged => ?_
  obtain ⟨iteration, -, names⟩ := judged
  obtain ⟨other, same, opened, listed⟩ := Gateway.handedOver_admits iteration handed
  obtain rfl := Option.some.inj (login.symm.trans same)
  have free : final.moment.bannedIps.isBanned wire.parseExpiry final.moment.now
      final.before.client.peer.ip = false :=
    Bool.eq_false_iff.mpr fun found => opened.2 ((BannedIps.isBanned_iff ..).mp found)
  have asks := looksUpBan_iff.mpr ⟨⟨packet, login⟩, opened.1⟩
  have looks := looksUpName_iff.mpr ⟨asks, free, packet, name, login, named⟩
  rcases names looks with unlisted | ⟨looked, alone⟩
  · rw [listed name named] at unlisted
    cases unlisted
  · exact ⟨alone, _, looked, listed name named⟩

/-- A client is only turned away for what the files have said: where no version of the ban file has
its address, and every version of the whitelist has the name it logs in with, it is handed over as
long as the lockout is off. -/
theorem listed_in_files_let_in (ip : IpAddr) (name : String) (directory : config.server.directory = some dir)
    (start : versions.Admit files)
    (unbanned : ∀ contents loaded, versions (dir ++ [FileWatcher.Ban.FILE]) contents →
      FileWatcher.loadedBans formats config.toConfig contents = some loaded →
        ∀ now, loaded.isBanned wire.parseExpiry now ip = false)
    (listed : ∀ properties users ops loaded, versions (dir ++ [FileWatcher.ServerProperties.FILE]) properties →
      versions (dir ++ [FileWatcher.WHITELIST_FILE]) users → versions (dir ++ [FileWatcher.OPS_FILE]) ops →
      FileWatcher.loadedWhitelist formats config.toConfig properties users ops = some loaded →
        isWhitelisted loaded name = true)
    (unlocked : config.lockout.enabled = false)
    (reached : Reaches wire config formats rounds versions (boot files) after) :
    ∀ final packet, .ended final ∈ after.gateway.connections → final.before.client.peer.ip = ip →
      loginStartPacket wire final.before = some packet → wire.decodeLoginStart packet.data = some name →
        final.handover?.isSome := by
  intro final packet member own login named
  obtain ⟨index, there⟩ := List.mem_iff_getElem?.mp member
  have vouches : FileWatcher.Vouches formats config.toConfig dir versions
      (fun ips => ∀ now, ips.isBanned wire.parseExpiry now ip = false)
      fun list => isWhitelisted list name = true := ⟨unbanned, listed⟩
  obtain ⟨-, -, judged⟩ := judged_by_lists vouches directory start .refl (fun _ => rfl) rfl reached
  obtain ⟨iteration, bans, names⟩ := (judged index _ there).resolve_left nofun
  have looks : looksUpBan wire config.toConfig final.before = true :=
    looksUpBan_iff.mpr ⟨⟨packet, login⟩, unlocked⟩
  have free := (bans looks).resolve_right (fun ⟨looked, _⟩ => nomatch looked) final.moment.now
  have list := (names (looksUpName_iff.mpr ⟨looks, own ▸ free, packet, name, login, named⟩)).resolve_right
    fun ⟨looked, _⟩ => nomatch looked
  have opened : OpenTo wire config.toConfig final.before.client.peer.ip final.moment := by
    refine ⟨unlocked, fun banned => ?_⟩
    rw [← own, (BannedIps.isBanned_iff ..).mpr banned] at free
    cases free
  obtain ⟨handover, ending⟩ := (serveStep_wakes_iff wire config.toConfig final.moment final.before).mpr
    ⟨packet, login, opened, fun username same => by
      obtain rfl := Option.some.inj (named.symm.trans same)
      exact list⟩
  rw [iteration] at ending
  rw [Final.handover?, Option.some.inj ending]
  rfl

end

/-- A client that logs in under a name of one letter. -/
private def visitor (letter : UInt8) : TcpStream where
  peerAddr := ⟨.v4 0xCB007107, 49152⟩
  localAddr := ⟨.v4 0, 25565⟩
  reads := [.data [7, 0, 47, 1, 120, 99, 221, 2], .data [3, 0, 1, letter]]

/-- The service begins to accept, and the thread makes this many calls. -/
private def spawned (calls : Nat) : List WatchedMove :=
  [.gate .boot, .spawnWatcher] ++ .replicate calls (.files (.run 0 {}))

/-- A client is routed and greets, and its address is looked up when it logs in. -/
private def visits (letter : UInt8) : List WatchedMove :=
  [.lookUpRouted 0, .gate (.accept true (visitor letter) {} 0), .gate (.serve 0 {}), .lookUpBan 0 0]

/-- Its name is looked up as well. -/
private def admits (letter : UInt8) : List WatchedMove := visits letter ++ [.lookUpName 0, .gate (.serve 0 {})]

/-- The ban list of a server that has banned the address of the visitor. -/
private def banText : String := "[\x7b\"ip\":\"203.0.113.7\",\"created\":\"2024-05-01 12:00:00 +0000\"," ++
  "\"source\":\"Server\",\"expires\":\"forever\",\"reason\":\"Griefing\"\x7d]"

private def banned (path : Path) : Option String :=
  if path = [".", "banned-ips.json"] then some banText else none

/-- Nothing is changed in these files. -/
private abbrev asWritten (files : Path → Option String) : FileWatcher.Versions :=
  fun path contents => contents = files path

private instance {files : Path → Option String} (whole : WatchedGateway) (move : WatchedMove) :
    Decidable (Writes (asWritten files) whole move) :=
  match move with
  | .files (.outside change) => inferInstanceAs (Decidable (change.contents = files change.path))
  | .files (.call _) | .files (.run _ _) | .gate _ | .lookUpRouted _ | .lookUpBan _ _ | .lookUpName _
  | .spawnWatcher => isTrue trivial

/-- The whitelist is on, and lists `a`. -/
private def listing (path : Path) : Option String :=
  FileWatcher.cutFiles "[\x7b\"name\":\"a\"\x7d]" path

private theorem listing_loads {properties users ops : Option String} {loaded : Option Whitelist}
    (set : properties = listing [".", "server.properties"]) (listed : users = listing [".", "whitelist.json"])
    (trusted : ops = listing [".", "ops.json"])
    (loads : FileWatcher.loadedWhitelist FileWatcher.cutFormats {} properties users ops = some loaded) :
    isWhitelisted loaded "a" = true ∧ isWhitelisted loaded "b" = false := by
  have all : (FileWatcher.loadedWhitelist FileWatcher.cutFormats {} properties users ops).all
      (fun list => isWhitelisted list "a" && !isWhitelisted list "b") = true := by
    subst set listed trusted
    decide +kernel
  rw [loads] at all
  simpa using all

/-- The address and the name that have logged in at the end of the connection. -/
private def login? : Connection → Option (IpAddr × String)
  | .ended final => (loginStartPacket plainStatusWire final.before).bind fun packet =>
    (plainStatusWire.decodeLoginStart packet.data).map fun name => (final.before.client.peer.ip, name)
  | _ => none

private abbrev playListing : WatchedGateway → List WatchedMove → Option WatchedGateway :=
  playRun (step plainStatusWire {} FileWatcher.cutFormats 4) (Writes (asWritten listing))

theorem whitelist_in_files_keeps_out_visitor : ∃ before after connection,
    playListing (boot listing) (spawned 11) = some before ∧ playListing before (admits 98) = some after ∧
    after.gateway.connections[0]? = some connection ∧ login? connection = some ((visitor 98).peerAddr.ip, "b") ∧
    connection.handedOver = false := by
  have ran : ((playListing (boot listing) (spawned 11)).bind fun before =>
      (playListing before (admits 98)).map fun after =>
        before.gateway.connections.isEmpty && !isWhitelisted before.watcher.world.whitelist "b" &&
          after.gateway.connections[0]?.any fun connection =>
            login? connection = some ((visitor 98).peerAddr.ip, "b")) = some true := by decide +kernel
  obtain ⟨before, loads, ran⟩ := Option.bind_eq_some_iff.mp ran
  obtain ⟨after, visited, facts⟩ := Option.map_eq_some_iff.mp ran
  simp only [Bool.and_eq_true, Bool.not_eq_true', Option.any_eq_true, decide_eq_true_eq, List.isEmpty_iff] at facts
  obtain ⟨⟨none_yet, known⟩, connection, found, named⟩ := facts
  have start : (asWritten listing).Admit listing := fun _ => rfl
  have reached : Reaches plainStatusWire {} FileWatcher.cutFormats 4 (asWritten listing) (boot listing) before :=
    runsTo_of_playRun loads
  have later : Reaches plainStatusWire {} FileWatcher.cutFormats 4 (asWritten listing) before after :=
    runsTo_of_playRun visited
  refine ⟨before, after, connection, loads, visited, found, named, Bool.eq_false_iff.mpr fun handed => ?_⟩
  cases connection with
  | ended final =>
    obtain ⟨packet, login, decoded⟩ := Option.bind_eq_some_iff.mp named
    obtain ⟨name, decoded, same⟩ := Option.map_eq_some_iff.mp decoded
    obtain ⟨-, rfl⟩ := Prod.mk.inj same
    have kept := whitelist_in_files_keeps_out "b" rfl start
      (fun _ _ _ _ set listed trusted loads => (listing_loads set listed trusted loads).2) reached known later 0
      final packet found handed login decoded
    rw [none_yet] at kept
    rcases kept with earlier | ⟨earlier, -⟩ <;> cases earlier
  | _ => cases handed

theorem listed_in_files_let_in_visitor : ∃ after connection,
    playListing (boot listing) (spawned 11 ++ admits 97) = some after ∧
    after.gateway.connections[0]? = some connection ∧
    login? connection = some ((visitor 97).peerAddr.ip, "a") ∧ connection.handedOver = true := by
  have ran : (playListing (boot listing) (spawned 11 ++ admits 97)).map (fun after =>
      after.gateway.connections[0]?.any fun connection =>
        login? connection = some ((visitor 97).peerAddr.ip, "a")) = some true := by decide +kernel
  obtain ⟨after, played, facts⟩ := Option.map_eq_some_iff.mp ran
  simp only [Option.any_eq_true, decide_eq_true_eq] at facts
  obtain ⟨connection, found, named⟩ := facts
  have start : (asWritten listing).Admit listing := fun _ => rfl
  have reached : Reaches plainStatusWire {} FileWatcher.cutFormats 4 (asWritten listing) (boot listing) after :=
    runsTo_of_playRun played
  refine ⟨after, connection, played, found, named, ?_⟩
  have unbanned (contents : Option String) (loaded : BannedIps) (same : contents = listing [".", "banned-ips.json"])
      (loads : FileWatcher.loadedBans FileWatcher.cutFormats {} contents = some loaded) (now : Utc) :
      loaded.isBanned plainStatusWire.parseExpiry now (visitor 97).peerAddr.ip = false := by
    subst same
    cases loads
    rfl
  cases connection with
  | ended final =>
    obtain ⟨packet, login, decoded⟩ := Option.bind_eq_some_iff.mp named
    obtain ⟨name, decoded, same⟩ := Option.map_eq_some_iff.mp decoded
    obtain ⟨own, rfl⟩ := Prod.mk.inj same
    exact listed_in_files_let_in (visitor 97).peerAddr.ip "a" rfl start unbanned
      (fun _ _ _ _ set listed trusted loads => (listing_loads set listed trusted loads).1) rfl
      reached final packet (List.mem_of_getElem? found) own login decoded
  | _ => cases named

end WatchedGateway
end PlexPaper
