import PlexPaper.LastDone
import PlexPaper.LifecyclePrograms

/-! Where the values come from that the tasks put into the shared state. Each field is behind
a lock of its own, and the clock is behind none, so what a task has read may be out of date
when it acts on it. The source keeps that window to one operation: a time that is recorded
was read from the clock, and a process that is signalled from its lock, right before. -/
namespace PlexPaper
open Tasks Server

/-- What an operation records or signals is what its task was answered right before. -/
def Op.Fresh (config : Config) (last : Option ((op : Op) × op.Reply)) : Op → Prop
  | .sendSignal pid _ => last = some ⟨.read .pid, some pid⟩
  | .write .pid (some pid) => last = some ⟨.spawnChild, .ok pid⟩
  | .write .lastActive value | .write .rconLastStop value =>
    ∃ now, last = some ⟨.now, now⟩ ∧ value = some now
  | .write .keepOnlineUntil value => value = none ∨ ∃ now, last = some ⟨.now, now⟩ ∧
      value = some (now + Duration.fromSecs config.time.minOnlineTime.toNat)
  | .write .killAt value => value = none ∨ ∃ now, last = some ⟨.now, now⟩ ∧
      (value = some (now + Duration.fromSecs config.server.startTimeout.toNat) ∨
        value = some (now + Duration.fromSecs config.server.stopTimeout.toNat))
  | _ => True

section

variable {config : Config}

/-- A program whose operations act on fresh values, wherever it is begun. -/
abbrev ActsFresh {α : Type} (config : Config) (program : ServerM α) : Prop :=
  program.Fits (Op.Fresh config)

private theorem sleep_fresh (duration : Duration) : ActsFresh config (sleep duration) :=
  .bind (.perform fun _ => trivial) fun _ => .perform fun _ => trivial

private theorem updateLastActive_fresh : ActsFresh config updateLastActive :=
  .answered (fun _ => trivial) fun now =>
    Program.follows_perform.mpr ⟨⟨now, rfl, rfl⟩, fun _ => trivial⟩

private theorem keepOnlineFor_fresh :
    ActsFresh config (keepOnlineFor (some config.time.minOnlineTime)) := by
  unfold keepOnlineFor
  by_cases positive : config.time.minOnlineTime > 0
  · simp only [Option.filter_some, positive, decide_true, ↓reduceIte]
    exact .answered (fun _ => trivial) fun now =>
      Program.follows_perform.mpr ⟨.inr ⟨now, rfl, rfl⟩, fun _ => trivial⟩
  · simp only [Option.filter_some, positive, decide_false, Bool.false_eq_true, ↓reduceIte]
    exact .perform fun _ => .inl rfl

/-- A deadline counts from the clock as it was read right before. -/
private theorem deadline_follows (timeout : UInt32) {last : Option ((op : Op) × op.Reply)}
    {post : Option Instant → Option ((op : Op) × op.Reply) → Prop} (unset : post none last)
    (set : ∀ now, post (some (now + Duration.fromSecs timeout.toNat)) (some ⟨.now, now⟩)) :
    (deadline timeout).Follows (lastDone (Op.Fresh config)) last post := by
  unfold deadline
  split
  · exact Program.follows_bind.mpr ⟨trivial, set⟩
  · exact unset

private theorem killDeadline_follows (new : State) (last : Option ((op : Op) × op.Reply)) :
    (killDeadline config new).Follows (lastDone (Op.Fresh config)) last
      fun value ended => Op.Fresh config ended (.write .killAt value) := by
  cases new with
  | starting => exact deadline_follows _ (.inl rfl) fun now => .inr ⟨now, rfl, .inl rfl⟩
  | stopping => exact deadline_follows _ (.inl rfl) fun now => .inr ⟨now, rfl, .inr rfl⟩
  | stopped | started => exact Or.inl rfl

private theorem settle_fresh (new : State) : ActsFresh config (settle config new) := by
  refine .bind (.perform fun _ => trivial) fun _ => fun last => ?_
  refine Program.follows_bind.mpr ((killDeadline_follows new last).mono fun value ended fresh => ?_)
  refine Program.Fits.follows_after fresh fun _ => .ite (fun _ => ?_) fun _ => .pure
  exact .bind updateLastActive_fresh fun _ => keepOnlineFor_fresh

private theorem updateStateFrom_fresh (current : Option State) (new : State) :
    ActsFresh config (updateStateFrom config current new) := by
  cases current with
  | some current =>
    rw [updateStateFrom_some]
    refine .bind (.perform fun _ => trivial) fun changed => ?_
    cases changed with
    | error _ => exact .pure
    | ok old => exact .ite (fun _ => .pure) fun _ => .bind (settle_fresh new) fun _ => .pure
  | none =>
    rw [updateStateFrom_none]
    exact .bind (.perform fun _ => trivial) fun _ =>
      .ite (fun _ => .pure) fun _ => .bind (settle_fresh new) fun _ => .pure

private theorem updateStatus_fresh (status : Option ServerStatus) :
    ActsFresh config (updateStatus config status) := by
  have received (status : ServerStatus) : ActsFresh config (do
      if status.players.online > 0 then
        updateLastActive
      perform (.write .status (some status)) : ServerM Unit) :=
    .ite (fun _ => .bind updateLastActive_fresh fun _ => .perform fun _ => trivial)
      fun _ => .perform fun _ => trivial
  refine .bind (.perform fun _ => trivial) fun state => ?_
  cases status with
  | none =>
    cases state with
    | started => exact .bind (updateStateFrom_fresh _ _) fun _ => .pure
    | stopped | starting | stopping => exact .pure
  | some status =>
    cases state with
    | stopped | starting => exact .bind (updateStateFrom_fresh _ _) fun _ => received status
    | started | stopping => exact received status

/-- A signal goes to the process that was read right before. -/
private theorem signal_fresh {α : Type} (signal : Signal) {otherwise : ServerM α}
    {rest : Pid → Bool → ServerM α} (without : ActsFresh config otherwise)
    (signalled : ∀ pid delivered, ActsFresh config (rest pid delivered)) :
    ActsFresh config (do
      match ← perform (.read .pid) with
      | none => otherwise
      | some pid => rest pid (← perform (.sendSignal pid signal))) := by
  refine .answered (fun _ => trivial) fun pid => ?_
  cases pid with
  | none => exact without _
  | some pid => exact Program.Fits.follows_after rfl fun delivered => signalled pid delivered

private theorem freezeServerSignal_fresh : ActsFresh config (freezeServerSignal config) :=
  signal_fresh .sigstop .pure fun _ _ => .bind (updateStateFrom_fresh _ _) fun _ =>
    .bind (updateStateFrom_fresh _ _) fun _ => .pure

private theorem unfreezeServerSignal_fresh : ActsFresh config (unfreezeServerSignal config) :=
  signal_fresh .sigcont .pure fun _ _ => .bind (updateStateFrom_fresh _ _) fun _ =>
    .bind (updateStateFrom_fresh _ _) fun _ => .pure

private theorem stopServerSignal_fresh : ActsFresh config (stopServerSignal config) :=
  signal_fresh .sigterm .pure fun _ _ => .ite (fun _ => .pure) fun _ =>
    .bind (updateStateFrom_fresh _ _) fun _ => .bind (updateStateFrom_fresh _ _) fun _ => .pure

private theorem forceKill_fresh : ActsFresh config forceKill := by
  refine .answered (fun _ => trivial) fun pid => ?_
  cases pid with
  | none => trivial
  | some pid => exact Program.follows_perform.mpr ⟨rfl, fun _ => trivial⟩

private theorem stopServerRcon_fresh : ActsFresh config (stopServerRcon config) := by
  have released : ActsFresh config (do perform .releaseRcon; return false : ServerM Bool) :=
    .bind (.perform fun _ => trivial) fun _ => .pure
  have session (cooledDown : Bool) : ActsFresh config (do
      if !cooledDown then
        perform .releaseRcon
        return false
      if !(← perform .rconConnect) then
        perform .releaseRcon
        return false
      sleep QUIRK_RCON_GRACE_TIME
      if !(← perform .rconCommand) then
        perform .rconClose
        perform .releaseRcon
        return false
      perform (.write .rconLastStop (some (← perform .now)))
      let _ ← updateState config .stopping
      sleep QUIRK_RCON_GRACE_TIME
      perform .rconClose
      perform .releaseRcon
      return true : ServerM Bool) := by
    refine .ite (fun _ => released) fun _ => .bind (.perform fun _ => trivial) fun _ =>
      .ite (fun _ => released) fun _ => .bind (sleep_fresh _) fun _ =>
      .bind (.perform fun _ => trivial) fun _ =>
      .ite (fun _ => .bind (.perform fun _ => trivial) fun _ => released) fun _ => ?_
    refine Program.Fits.answered (fun _ => trivial) fun now =>
      Program.Fits.follows_after ⟨now, rfl, rfl⟩ fun _ => ?_
    exact .bind (updateStateFrom_fresh _ _) fun _ => .bind (sleep_fresh _) fun _ =>
      .bind (.perform fun _ => trivial) fun _ => .bind (.perform fun _ => trivial) fun _ => .pure
  refine .ite (fun _ => .pure) fun _ => .bind (.perform fun _ => trivial) fun _ =>
    .bind (.perform fun _ => trivial) fun last => ?_
  cases last with
  | none => exact session true
  | some last => exact .bind (.perform fun _ => trivial) fun _ => session _

private theorem start_fresh : ActsFresh config (start config) := by
  have spawned : ActsFresh config (do perform .spawnServerTask; return true : ServerM Bool) :=
    .bind (.perform fun _ => trivial) fun _ => .pure
  refine .bind (updateStateFrom_fresh _ _) fun _ => .ite (fun _ => .pure) fun _ =>
    .ite (fun _ => ?_) fun _ => spawned
  exact .bind unfreezeServerSignal_fresh fun _ => .ite (fun _ => .pure) fun _ => spawned

private theorem stop_fresh : ActsFresh config (stop config) := by
  have signalled : ActsFresh config (do
      if ← stopServerSignal config then
        return true
      return false : ServerM Bool) :=
    .bind stopServerSignal_fresh fun _ => .ite (fun _ => .pure) fun _ => .pure
  have running : ActsFresh config (do
      if (← perform .loadState) = .started then
        if ← stopServerRcon config then
          return true
      if ← stopServerSignal config then
        return true
      return false : ServerM Bool) := by
    refine .bind (.perform fun _ => trivial) fun _ => .ite (fun _ => ?_) fun _ => signalled
    exact .bind stopServerRcon_fresh fun _ => .ite (fun _ => .pure) fun _ => signalled
  refine .ite (fun _ => ?_) fun _ => running
  exact .bind freezeServerSignal_fresh fun _ => .ite (fun _ => .pure) fun _ => running

private theorem shouldSleep_fresh : ActsFresh config (shouldSleep config) := by
  have idle (keepOnline : Bool) (decision : Option Instant → ServerM Bool)
      (decided : ∀ lastActive, ActsFresh config (decision lastActive)) : ActsFresh config (do
        if keepOnline then
          return false
        decision (← perform (.read .lastActive)) : ServerM Bool) :=
    .ite (fun _ => .pure) fun _ => .bind (.perform fun _ => trivial) decided
  refine .bind (.perform fun _ => trivial) fun _ => .ite (fun _ => .pure) fun _ =>
    .bind (.perform fun _ => trivial) fun _ => .ite (fun _ => .pure) fun _ =>
    .bind (.perform fun _ => trivial) fun keepOnlineUntil => ?_
  cases keepOnlineUntil with
  | none =>
    refine idle false _ fun lastActive => ?_
    cases lastActive with
    | none => exact .pure
    | some _ => exact .bind (.perform fun _ => trivial) fun _ => .pure
  | some _ =>
    refine .bind (.perform fun _ => trivial) fun _ => idle _ _ fun lastActive => ?_
    cases lastActive with
    | none => exact .pure
    | some _ => exact .bind (.perform fun _ => trivial) fun _ => .pure

private theorem shouldKill_fresh : ActsFresh config shouldKill := by
  refine .bind (.perform fun _ => trivial) fun killAt => ?_
  cases killAt with
  | none => exact .pure
  | some killAt => exact .bind (.perform fun _ => trivial) fun _ => .pure

private theorem pollServer_fresh (fetched : Except Unit ServerStatus) (pinged : Except Unit Unit) :
    ActsFresh config (pollServer fetched pinged) := by
  cases fetched with
  | ok status => exact .pure
  | error _ =>
    refine .bind (.perform fun _ => trivial) fun _ => .ite (fun _ => ?_) fun _ => .pure
    cases pinged with
    | error _ => exact .pure
    | ok _ => exact .pure

private theorem monitorIteration_fresh (fetched : Except Unit ServerStatus)
    (pinged : Except Unit Unit) : ActsFresh config (monitorIteration config fetched pinged) := by
  have killing : ActsFresh config (do
      if ← shouldKill then
        let _ ← forceKill : ServerM Unit) :=
    .bind shouldKill_fresh fun _ => .ite (fun _ => .bind forceKill_fresh fun _ => .pure) fun _ => .pure
  have handled : ActsFresh config (do
      if ← shouldSleep config then
        let _ ← stop config
      if ← shouldKill then
        let _ ← forceKill : ServerM Unit) :=
    .bind shouldSleep_fresh fun _ =>
      .ite (fun _ => .bind stop_fresh fun _ => killing) fun _ => killing
  refine .bind (pollServer_fresh fetched pinged) fun polled => ?_
  rcases polled with _ | (_ | status)
  · exact .bind (updateStatus_fresh none) fun _ => handled
  · exact handled
  · exact .bind (updateStatus_fresh (some status)) fun _ => handled

private theorem interruptIteration_fresh : ActsFresh config (interruptIteration config) := by
  have stopping : ActsFresh config (do
      let stopping ← stop config
      if !stopping then
        perform .quit : ServerM Unit) :=
    .bind stop_fresh fun _ => .ite (fun _ => .perform fun _ => trivial) fun _ => .pure
  exact .bind (.perform fun _ => trivial) fun _ =>
    .ite (fun _ => .bind (.perform fun _ => trivial) fun _ => stopping) fun _ => stopping

private theorem invokeServerCmd_fresh : ActsFresh config (invokeServerCmd config) := by
  have cleaned (crashed : Bool) : ActsFresh config (do
      perform (.write .pid none)
      Server.sleep SERVER_QUIT_COOLDOWN
      let _ ← Server.updateState config .stopped
      if crashed && config.server.wakeOnCrash then
        let _ ← Server.start config
      return .ok () : ServerM (Except Unit Unit)) :=
    .bind (.perform fun _ => trivial) fun _ => .bind (sleep_fresh _) fun _ =>
      .bind (updateStateFrom_fresh _ _) fun _ =>
      .ite (fun _ => .bind start_fresh fun _ => .pure) fun _ => .pure
  refine .answered (fun _ => trivial) fun spawned => ?_
  cases spawned with
  | error _ => trivial
  | ok pid =>
    refine Program.Fits.follows_after rfl fun _ => .bind (.perform fun _ => trivial) fun exit => ?_
    cases exit with
    | error _ => exact cleaned false
    | ok status =>
      refine .ite (fun _ => cleaned false) fun _ => .ite (fun _ => cleaned false) fun _ => ?_
      exact .bind (.perform fun _ => trivial) fun _ => cleaned _

/-- Every task of the proxy acts on what it has just read. -/
theorem lifecycle_fresh (config : Config) :
    (lifecycle config).Obeys (lastDones Entry (Op.Fresh config)) := by
  intro entry _
  cases entry with
  | start => exact (start_fresh.bind fun _ => .pure) none
  | stop => exact (stop_fresh.bind fun _ => .pure) none
  | updateStatus status => exact updateStatus_fresh status none
  | monitor fetched pinged => exact monitorIteration_fresh fetched pinged none
  | interrupt => exact interruptIteration_fresh none
  | invokeServerCmd => exact (invokeServerCmd_fresh.bind fun _ => .pure) none

end

/-! ## What is recorded -/

/-- What may be behind a lock: a process that was spawned, and no time ahead of the clock by
more than what it was set for. -/
def Cell.Sound (config : Config) (world : World) : (cell : Cell) → cell.Value → Prop
  | .pid, value => ∀ pid ∈ value, pid < world.children.length
  | .status, _ => True
  | .lastActive, value | .rconLastStop, value => ∀ time ∈ value, time ≤ world.clock
  | .keepOnlineUntil, value => ∀ time ∈ value,
    time ≤ world.clock + Duration.fromSecs config.time.minOnlineTime.toNat
  | .killAt, value => ∀ time ∈ value, time ≤ world.clock +
    max (Duration.fromSecs config.server.startTimeout.toNat)
      (Duration.fromSecs config.server.stopTimeout.toNat)

/-- What a task has been answered last still holds of the clock and the processes. -/
def Known (config : Config) (world : World) (last : Option ((op : Op) × op.Reply)) : Prop :=
  ∀ done ∈ last, match done with
    | ⟨.now, now⟩ => now ≤ world.clock
    | ⟨.read cell, value⟩ => Cell.Sound config world cell value
    | ⟨.spawnChild, .ok pid⟩ => pid < world.children.length
    | _ => True

/-- Everything recorded is sound, and so is what each task is about to record. -/
structure SoundRecords (config : Config) (world : World)
    (lasts : List (Option ((op : Op) × op.Reply))) : Prop where
  cells : ∀ cell, Cell.Sound config world cell (world.server.get cell)
  known : ∀ last ∈ lasts, Known config world last

section

variable {config : Config} {world after : World} {last : Option ((op : Op) × op.Reply)}

theorem Cell.Sound.later {cell : Cell} {value : cell.Value} (sound : Cell.Sound config world cell value)
    (clock : world.clock ≤ after.clock) (children : world.children.length ≤ after.children.length) :
    Cell.Sound config after cell value := by
  cases cell with
  | status => trivial
  | pid => exact fun pid member => Nat.lt_of_lt_of_le (sound pid member) children
  | lastActive | rconLastStop => exact fun time member => Nat.le_trans (sound time member) clock
  | keepOnlineUntil | killAt =>
    exact fun time member => Nat.le_trans (sound time member) (Nat.add_le_add_right clock _)

theorem Known.later (known : Known config world last) (clock : world.clock ≤ after.clock)
    (children : world.children.length ≤ after.children.length) : Known config after last := by
  intro done member
  have before := known done member
  obtain ⟨op, reply⟩ := done
  cases op with
  | now => exact Nat.le_trans before clock
  | read cell => exact Cell.Sound.later before clock children
  | spawnChild =>
    cases reply with
    | error _ => trivial
    | ok pid => exact Nat.lt_of_lt_of_le before children
  | _ => trivial

/-- What is recorded on the strength of the last answer is sound. -/
theorem Known.sound_write {cell : Cell} {value : cell.Value} (known : Known config world last)
    (fresh : Op.Fresh config last (.write cell value)) : Cell.Sound config world cell value := by
  cases cell with
  | status => trivial
  | pid =>
    cases value with
    | none => intro pid member; cases member
    | some pid =>
      rintro _ ⟨⟩
      exact known _ fresh
  | lastActive | rconLastStop =>
    obtain ⟨now, just, rfl⟩ := fresh
    rintro _ ⟨⟩
    exact known _ just
  | keepOnlineUntil =>
    rcases fresh with rfl | ⟨now, just, rfl⟩
    · intro time member; cases member
    · rintro _ ⟨⟩
      exact Nat.add_le_add_right (known _ just) _
  | killAt =>
    rcases fresh with rfl | ⟨now, just, rfl | rfl⟩
    · intro time member; cases member
    · rintro _ ⟨⟩
      exact Nat.add_le_add (known _ just) (Nat.le_max_left ..)
    · rintro _ ⟨⟩
      exact Nat.add_le_add (known _ just) (Nat.le_max_right ..)

/-- Operations bring no process to an end. -/
theorem World.length_children_le {op : Op} {succeeds : Bool} {reply : op.Reply}
    (executed : world.execute op succeeds = some (reply, after)) :
    world.children.length ≤ after.children.length := by
  rw [World.execute_children executed]
  cases op with
  | spawnChild => cases succeeds <;> simp [Op.newChildren]
  | _ => exact Nat.le_refl _

/-- An operation answers with what is sound afterwards. -/
theorem Known.of_reply {op : Op} {succeeds : Bool} {reply : op.Reply}
    (cells : ∀ cell, Cell.Sound config world cell (world.server.get cell))
    (executed : world.execute op succeeds = some (reply, after)) :
    Known config after (some ⟨op, reply⟩) := by
  rintro _ ⟨⟩
  have clock := World.execute_clock executed
  cases op with
  | now => exact Nat.le_of_eq ((World.now_reply executed).trans clock.symm)
  | read cell =>
    have sound := cells cell
    rw [← World.read_reply executed] at sound
    exact Cell.Sound.later sound (Nat.le_of_eq clock.symm) (World.length_children_le executed)
  | spawnChild =>
    cases succeeds with
    | false => cases World.perform_of_execute executed; trivial
    | true =>
      cases World.perform_of_execute executed
      simp
  | _ => trivial

/-- A fresh operation keeps the records sound. -/
theorem SoundRecords.run {left right : List (Option ((op : Op) × op.Reply))} {op : Op}
    {succeeds : Bool} {reply : op.Reply} (sound : SoundRecords config world (left ++ last :: right))
    (fresh : Op.Fresh config last op) (executed : world.execute op succeeds = some (reply, after)) :
    SoundRecords config after (left ++ some ⟨op, reply⟩ :: right) := by
  have clock := Nat.le_of_eq (World.execute_clock executed).symm
  have children := World.length_children_le executed
  constructor
  · intro cell
    by_cases written : ∃ value, op = .write cell value
    · obtain ⟨value, rfl⟩ := written
      have known := sound.known last (by simp)
      have performed := World.perform_of_execute executed
      cases performed
      rw [Server.get_set]
      exact (known.sound_write fresh).later clock children
    · rw [World.execute_get executed cell fun value same => written ⟨value, same⟩]
      exact (sound.cells cell).later clock children
  · intro other member
    rcases List.mem_append.mp member with before | here
    · exact (sound.known other (by simp [before])).later clock children
    · rcases List.mem_cons.mp here with rfl | behind
      · exact .of_reply sound.cells executed
      · exact (sound.known other (by simp [behind])).later clock children

/-- The outside lets time pass and processes end. -/
theorem SoundRecords.outside {lasts : List (Option ((op : Op) × op.Reply))} {event : Event}
    (sound : SoundRecords config world lasts) (acted : world.outside event = some after) :
    SoundRecords config after lasts := by
  have clock := World.outside_clock acted
  have children := Nat.le_of_eq (World.outside_length acted).symm
  refine ⟨fun cell => ?_, fun last member => (sound.known last member).later clock children⟩
  rw [World.outside_server acted]
  exact (sound.cells cell).later clock children

variable {condition : Proxy → ProxyMove → Prop} {proxy : Proxy}

/-- In every proxy reached the records are sound. -/
theorem soundRecords_of_reached (reached : (lifecycle config).Reaches condition Proxy.boot proxy) :
    SoundRecords config proxy.world ((lastDones Entry (Op.Fresh config)).stages proxy) := by
  refine Protocol.invariant (lifecycle_fresh config) (SoundRecords config) ?_ ?_ ?_ ?_ reached
  · exact ⟨fun cell => by cases cell <;> first | trivial | exact nofun, nofun⟩
  · intro world lasts entry _ sound
    refine ⟨sound.cells, fun last member => ?_⟩
    rcases List.mem_append.mp member with old | new
    · exact sound.known last old
    · cases List.mem_singleton.mp new
      exact nofun
  · exact fun world lasts event after acted sound => sound.outside acted
  · intro proxy index answer task op reply after left right _ _ _ fresh executed _ sound
    have entered := sound.run fresh executed
    refine ⟨entered.cells, fun last member => ?_⟩
    rcases List.mem_append.mp member with old | new
    · exact entered.known last old
    · obtain ⟨entry, -, rfl⟩ := List.mem_map.mp new
      exact nofun

/-- However the tasks interleave, no time of the shared record lies ahead of the clock by
more than what it was set for, and the process it names has been spawned. -/
theorem recorded_times_due (reached : (lifecycle config).Reaches condition Proxy.boot proxy) :
    (∀ time ∈ proxy.world.server.lastActive, time ≤ proxy.world.clock) ∧
    (∀ time ∈ proxy.world.server.rconLastStop, time ≤ proxy.world.clock) ∧
    (∀ time ∈ proxy.world.server.keepOnlineUntil,
      time ≤ proxy.world.clock + Duration.fromSecs config.time.minOnlineTime.toNat) ∧
    (∀ time ∈ proxy.world.server.killAt, time ≤ proxy.world.clock +
      max (Duration.fromSecs config.server.startTimeout.toNat)
        (Duration.fromSecs config.server.stopTimeout.toNat)) ∧
    ∀ pid ∈ proxy.world.server.pid, pid < proxy.world.children.length := by
  have sound := (soundRecords_of_reached reached).cells
  exact ⟨sound .lastActive, sound .rconLastStop, sound .keepOnlineUntil, sound .killAt, sound .pid⟩

end

/-- A server that is slow to start is polled and stopped while time passes. -/
private def slowStart : List ProxyMove :=
  [.outside (.elapse 7), .call .start] ++ goes 0 5 ++ goes 1 2 ++ [.outside (.elapse 5)] ++
    [.call (.monitor (.ok dummyStatus) (.ok ()))] ++ goes 2 8

theorem recorded_times_due_slow : ∃ proxy,
    (lifecycle {}).play (fun _ _ => True) Proxy.boot slowStart = some proxy ∧
    proxy.world.clock = 12 ∧ proxy.world.server.lastActive.isSome ∧
    (∀ time ∈ proxy.world.server.lastActive, time ≤ 12) ∧
    ∀ pid ∈ proxy.world.server.pid, pid < 1 := by
  have started : ((lifecycle {}).play (fun _ _ => True) Proxy.boot slowStart).map (fun proxy =>
      decide (proxy.world.clock = 12 ∧ proxy.world.server.lastActive.isSome ∧
        proxy.world.children.length = 1)) = some true := by decide
  obtain ⟨proxy, played, facts⟩ := Option.map_eq_some_iff.mp started
  obtain ⟨clock, active, children⟩ := of_decide_eq_true facts
  obtain ⟨lastActive, -, -, -, pid⟩ := recorded_times_due (System.play_reaches played)
  rw [clock] at lastActive
  rw [children] at pid
  exact ⟨proxy, played, clock, active, lastActive, pid⟩

end PlexPaper
