import PlexPaper.LifecyclePrograms
import PlexPaper.SoloRuns

/-! What `Server::start` and `Server::stop` report when nothing else runs: whether some
signal or RCON command reached the server, or a process was asked for, and what of the
record has changed. -/
namespace PlexPaper
open Tasks Program Server

/-- What the outside lets succeed: the delivery of each signal, and the two halves of an
RCON exchange. -/
structure Outcomes where
  signal : Signal → Bool
  connect : Bool
  command : Bool

def Outcomes.of (outcomes : Outcomes) : Op → Bool
  | .sendSignal _ signal => outcomes.signal signal
  | .rconConnect => outcomes.connect
  | .rconCommand => outcomes.command
  | _ => true

/-- One operation of the server running alone, with what it has done so far. -/
structure Solo where
  world : World
  log : List ((op : Op) × op.Reply) := []

/-- When a sleep is over. -/
def Op.wakes : Op → Instant
  | .sleepUntil deadline => deadline
  | _ => 0

/-- The world when a step is due: time has passed, and a sleep has been waited for. -/
def Solo.due (solo : Solo) (op : Op) (delay : Duration) : World :=
  { solo.world with clock := max (solo.world.clock + delay) op.wakes }

@[simp] theorem Solo.due_server (solo : Solo) (op : Op) (delay : Duration) :
    (solo.due op delay).server = solo.world.server := rfl

@[simp] theorem Solo.due_exited (solo : Solo) (op : Op) (delay : Duration) :
    (solo.due op delay).exited = solo.world.exited := rfl

def Solo.execute (outcomes : Outcomes) (solo : Solo) (op : Op) (delay : Duration) :
    Option (op.Reply × Solo) :=
  ((solo.due op delay).execute op (outcomes.of op)).map fun (reply, world) =>
    (reply, ⟨world, solo.log ++ [⟨op, reply⟩]⟩)

/-! ## What an operation brings about -/

/-- A signal that freezes or terminates the server, or an RCON stop, was delivered. -/
def Op.stops : (op : Op) → op.Reply → Bool
  | .sendSignal _ .sigstop, delivered => delivered
  | .sendSignal _ .sigterm, delivered => delivered
  | .rconCommand, acknowledged => acknowledged
  | _, _ => false

/-- The signal that resumes a frozen server was delivered. -/
def Op.resumes : (op : Op) → op.Reply → Bool
  | .sendSignal _ .sigcont, delivered => delivered
  | _, _ => false

/-- A new process was asked for. -/
def Op.spawns : (op : Op) → op.Reply → Bool
  | .spawnServerTask, _ => true
  | _, _ => false

/-- A signal was not delivered, or an RCON exchange failed. -/
def Op.fails : (op : Op) → op.Reply → Bool
  | .sendSignal _ _, delivered => !delivered
  | .rconConnect, connected => !connected
  | .rconCommand, acknowledged => !acknowledged
  | _, _ => false

def Solo.did (solo : Solo) (what : (op : Op) → op.Reply → Bool) : Bool :=
  solo.log.any fun done => what done.1 done.2

/-- State, process id and kill deadline are as they were. -/
def Unchanged (before after : World) : Prop :=
  after.server.state = before.server.state ∧ after.server.pid = before.server.pid ∧
    after.server.killAt = before.server.killAt

/-- The methods `Server::stop` has to stop the server, in the order it tries them. -/
def stopMethods (config : Config) : List (ServerM Bool) :=
  (if config.server.freezeProcess then [freezeServerSignal config] else []) ++
    [stopServerRcon config, stopServerSignal config]

/-- What is asked of `Server::stop`. A method that answers `false` leaves the turn to the
next one. -/
structure StopReports (config : Config) (outcomes : Outcomes) (world : World) : Prop where
  delivered : ∀ delays after left,
    (Server.stop config).run (Solo.execute outcomes) delays ⟨world, []⟩ = some (true, after, left) →
    after.did Op.stops = true
  unchanged : ∀ delays after left,
    (Server.stop config).run (Solo.execute outcomes) delays ⟨world, []⟩ = some (false, after, left) →
    Unchanged world after.world
  failed : ∀ method ∈ stopMethods config, ∀ delays result after left,
    method.run (Solo.execute outcomes) delays ⟨world, []⟩ = some (result, after, left) →
    after.did Op.fails = true → result = false ∧ Unchanged world after.world

/-- What is asked of `Server::start`. -/
def StartReports (config : Config) (outcomes : Outcomes) (world : World) : Prop :=
  ∀ delays after left,
    (Server.start config).run (Solo.execute outcomes) delays ⟨world, []⟩ = some (true, after, left) →
    after.did Op.resumes = true ∨ after.did Op.spawns = true

/-! ## Steps -/

section Steps

variable {outcomes : Outcomes} {solo after : Solo} {op : Op} {delay : Duration} {reply : op.Reply}

theorem Unchanged.refl (world : World) : Unchanged world world := ⟨rfl, rfl, rfl⟩

theorem Unchanged.trans {first second third : World} (early : Unchanged first second)
    (late : Unchanged second third) : Unchanged first third :=
  ⟨late.1.trans early.1, late.2.1.trans early.2.1, late.2.2.trans early.2.2⟩

theorem execute_log (executed : solo.execute outcomes op delay = some (reply, after)) :
    after.log = solo.log ++ [⟨op, reply⟩] := by
  obtain ⟨⟨_, world⟩, -, same⟩ := Option.map_eq_some_iff.mp executed
  cases same
  rfl

theorem execute_did (executed : solo.execute outcomes op delay = some (reply, after))
    (what : (op : Op) → op.Reply → Bool) : after.did what = (solo.did what || what op reply) := by
  simp [Solo.did, execute_log executed]

/-- An operation of the lifecycle, a moment later. -/
theorem execute_world (executed : solo.execute outcomes op delay = some (reply, after)) :
    (solo.due op delay).execute op (outcomes.of op) = some (reply, after.world) := by
  obtain ⟨⟨_, world⟩, performed, same⟩ := Option.map_eq_some_iff.mp executed
  cases same
  exact performed

/-- Operations outside the state updates leave the record alone as far as it is judged. -/
theorem execute_unchanged (executed : solo.execute outcomes op delay = some (reply, after))
    (still : ∀ state, op.newState state = state) (kept : ∀ pid, op ≠ .write .pid pid)
    (unarmed : ∀ deadline, op ≠ .write .killAt deadline) : Unchanged solo.world after.world := by
  have performed := execute_world executed
  refine ⟨?_, World.execute_get performed .pid kept, World.execute_get performed .killAt unarmed⟩
  rw [World.execute_state performed]
  exact still _

/-- The pid that is read is the one on record. -/
theorem execute_readPid {reply : Option Pid}
    (executed : solo.execute outcomes (.read .pid) delay = some (reply, after)) :
    reply = solo.world.server.pid := World.read_reply (execute_world executed)

theorem execute_signal {pid : Pid} {signal : Signal} {reply : Bool}
    (executed : solo.execute outcomes (.sendSignal pid signal) delay = some (reply, after)) :
    reply = outcomes.signal signal := by
  have performed := execute_world executed
  exact (congrArg Prod.fst (Option.some.inj (World.perform_of_execute performed))).symm

/-- An exchange succeeds exactly in the state it expects. -/
theorem execute_exchange {current new : State} {reply : Except State State}
    (executed : solo.execute outcomes (.compareExchange current new) delay = some (reply, after)) :
    (solo.world.server.state = current ∧ reply = .ok current) ∨
      (solo.world.server.state ≠ current ∧ reply = .error solo.world.server.state) := by
  have performed := World.perform_of_execute (execute_world executed)
  simp only [World.perform] at performed
  split at performed
  · rename_i same
    exact .inl ⟨same, (congrArg Prod.fst (Option.some.inj performed)).symm⟩
  · rename_i other
    exact .inr ⟨other, (congrArg Prod.fst (Option.some.inj performed)).symm⟩

end Steps

/-! ## State updates -/

/-- An operation that nobody outside hears of, that is never waited for, and that keeps to
the process. -/
def Op.Quiet : Op → Prop
  | .write .pid _ => False
  | .loadState | .swapState _ | .compareExchange _ _ | .sendState _ | .read _ | .write _ _ | .now => True
  | _ => False

abbrev quietly : Discipline Op Op.Reply where
  Stage := Unit
  advance _ _ _ := ()
  permits _ op := op.Quiet

/-- Nothing was delivered, refused or asked for in between, and the process is the same. -/
structure Solo.Unheard (before after : Solo) : Prop where
  did : ∀ what : (op : Op) → op.Reply → Bool, (∀ op reply, op.Quiet → what op reply = false) →
    after.did what = before.did what
  pid : after.world.server.pid = before.world.server.pid
  exited : after.world.exited = before.world.exited

theorem Solo.Unheard.refl (solo : Solo) : solo.Unheard solo := ⟨fun _ _ => rfl, rfl, rfl⟩

theorem Solo.Unheard.trans {first second third : Solo} (early : first.Unheard second)
    (late : second.Unheard third) : first.Unheard third :=
  ⟨fun what silent => (late.did what silent).trans (early.did what silent), late.pid.trans early.pid,
    late.exited.trans early.exited⟩

/-- Nothing but `quit` ends the proxy. -/
theorem perform_exited {world after : World} {op : Op} {succeeds : Bool} {reply : op.Reply}
    (other : op ≠ .quit) (performed : world.perform op succeeds = some (reply, after)) :
    after.exited = world.exited := by
  cases op with
  | quit => exact absurd rfl other
  | spawnChild => cases succeeds <;> (cases performed; rfl)
  | waitChild pid =>
    cases succeeds with
    | true =>
      simp only [World.perform] at performed
      split at performed
      · cases performed; rfl
      · cases performed
    | false => cases performed; rfl
  | compareExchange =>
    simp only [World.perform] at performed
    split at performed <;> (cases performed; rfl)
  | sleepUntil | acquireRcon =>
    simp only [World.perform] at performed
    split at performed
    · cases performed; rfl
    · cases performed
  | _ => cases performed; rfl

theorem Op.Quiet.unheard {solo after : Solo} {outcomes : Outcomes} {op : Op} {delay : Duration}
    {reply : op.Reply} (quiet : op.Quiet)
    (executed : solo.execute outcomes op delay = some (reply, after)) : solo.Unheard after := by
  have performed := execute_world executed
  refine ⟨fun what silent => ?_, ?_, ?_⟩
  · rw [execute_did executed, silent op reply quiet, Bool.or_false]
  · apply World.execute_get performed .pid
    rintro value rfl
    exact quiet
  · have kept : after.world.exited = (solo.due op delay).exited := by
      refine perform_exited ?_ (World.perform_of_execute performed)
      rintro rfl
      exact quiet
    exact kept

/-- A quiet operation is carried out as long as the proxy runs. -/
theorem Op.Quiet.answered {solo : Solo} (outcomes : Outcomes) {op : Op} (quiet : op.Quiet)
    (running : solo.world.exited = false) (delay : Duration) :
    ∃ reply after, solo.execute outcomes op delay = some (reply, after) := by
  have performed : ∀ world : World, ∃ result, world.perform op (outcomes.of op) = some result := by
    intro world
    cases op with
    | compareExchange current new =>
      by_cases same : world.server.state = current
      · exact ⟨_, if_pos same⟩
      · exact ⟨_, if_neg same⟩
    | loadState | swapState | sendState | read | write | now => exact ⟨_, rfl⟩
    | _ => exact quiet.elim
  obtain ⟨⟨reply, after⟩, result⟩ := performed (solo.due op delay)
  refine ⟨reply, ⟨after, solo.log ++ [⟨op, reply⟩]⟩, ?_⟩
  simp [Solo.execute, World.execute, running, result]

theorem Op.Quiet.keeps {op : Op} (quiet : op.Quiet) : (perform op).Keeps quietly () :=
  .perform ⟨quiet, fun _ => rfl⟩

theorem deadline_quietly (timeout : UInt32) : (deadline timeout).Keeps quietly () :=
  .ite (fun _ => .bind (Op.Quiet.keeps trivial) fun _ => .pure) fun _ => .pure

theorem settle_quietly (config : Config) (new : State) : (settle config new).Keeps quietly () := by
  have armed : (killDeadline config new).Keeps quietly () := by
    cases new with
    | starting | stopping => exact deadline_quietly _
    | stopped | started => exact .pure
  have noted : updateLastActive.Keeps quietly () :=
    .bind (Op.Quiet.keeps trivial) fun _ => Op.Quiet.keeps trivial
  have kept : (keepOnlineFor (some config.time.minOnlineTime)).Keeps quietly () := by
    unfold keepOnlineFor
    split
    · exact .bind (Op.Quiet.keeps trivial) fun _ => Op.Quiet.keeps trivial
    · exact Op.Quiet.keeps trivial
  exact .bind (Op.Quiet.keeps trivial) fun _ => .bind armed fun _ =>
    .bind (Op.Quiet.keeps trivial) fun _ => .ite (fun _ => .bind noted fun _ => kept) fun _ => .pure

theorem updateStateFrom_quietly (config : Config) (current : Option State) (new : State) :
    (updateStateFrom config current new).Keeps quietly () := by
  have settles : (do settle config new; return true : ServerM Bool).Keeps quietly () :=
    .bind (settle_quietly config new) fun _ => .pure
  cases current with
  | none =>
    rw [updateStateFrom_none]
    exact .bind (Op.Quiet.keeps trivial) fun old => .ite (fun _ => .pure) fun _ => settles
  | some current =>
    rw [updateStateFrom_some]
    refine .bind (Op.Quiet.keeps trivial) fun changed => ?_
    cases changed with
    | error _ => exact .pure
    | ok old => exact .ite (fun _ => .pure) fun _ => settles

variable {config : Config} {outcomes : Outcomes} {solo : Solo}

theorem updateStateFrom_unheard (current : Option State) (new : State) :
    (updateStateFrom config current new).Ensures (Solo.execute outcomes) solo
      fun _ after => solo.Unheard after := by
  refine (Follows.ensures (fun after _ => solo.Unheard after) ?_
    (updateStateFrom_quietly config current new) (.refl solo)).mono fun _ _ ended => ended.choose_spec.1
  exact fun mid _ op delay reply after unheard quiet executed =>
    unheard.trans (Op.Quiet.unheard quiet executed)

/-- What keeps quiet comes to its end while the proxy runs. -/
theorem achieves_of_quietly {α : Type} {program : ServerM α} (keeps : program.Keeps quietly ())
    (running : solo.world.exited = false) :
    program.Achieves (Solo.execute outcomes) solo fun _ after => solo.Unheard after := by
  refine (Follows.achieves (fun after _ => solo.Unheard after) ?_ keeps (.refl solo)).mono
    fun _ _ ended => ended.choose_spec.1
  intro mid _ op delay unheard quiet
  obtain ⟨reply, after, executed⟩ :=
    Op.Quiet.answered outcomes quiet (unheard.exited.trans running) delay
  exact ⟨reply, after, executed, unheard.trans (Op.Quiet.unheard quiet executed)⟩

/-! ## The methods -/

/-- What a method of stopping reports, to somebody who knows what came before it. -/
structure Reports (before : Solo) (result : Bool) (after : Solo) : Prop where
  delivered : result = true → after.did Op.stops = true ∧ after.did Op.fails = before.did Op.fails
  unchanged : result = false → Unchanged before.world after.world

theorem quiet_not_stops (op : Op) (reply : op.Reply) (quiet : op.Quiet) : op.stops reply = false := by
  cases op <;> first | rfl | exact quiet.elim

theorem quiet_not_fails (op : Op) (reply : op.Reply) (quiet : op.Quiet) : op.fails reply = false := by
  cases op <;> first | rfl | exact quiet.elim

theorem Reports.of_false {after : Solo} (unchanged : Unchanged solo.world after.world) :
    Reports solo false after := ⟨nofun, fun _ => unchanged⟩

/-- Two state updates change nothing of what was reported. -/
theorem Reports.of_updates {first second : Option State} {new : State} {heard : Solo}
    (stops : heard.did Op.stops = true) (fails : heard.did Op.fails = solo.did Op.fails) :
    (do
      let _ ← updateStateFrom config first new
      let _ ← updateStateFrom config second new
      return true : ServerM Bool).Ensures (Solo.execute outcomes) heard (Reports solo) := by
  refine ensures_bind.mpr ((updateStateFrom_unheard first new).mono fun _ mid early => ?_)
  refine ensures_bind.mpr ((updateStateFrom_unheard second new).mono fun _ after late => ?_)
  refine ⟨fun _ => ⟨?_, ?_⟩, nofun⟩
  · rw [late.did _ quiet_not_stops, early.did _ quiet_not_stops, stops]
  · rw [late.did _ quiet_not_fails, early.did _ quiet_not_fails, fails]

theorem stopServerSignal_reports :
    (stopServerSignal config).Ensures (Solo.execute outcomes) solo (Reports solo) := by
  refine ensures_bind.mpr fun _ pid looked executed => ?_
  have same := execute_unchanged executed (fun _ => rfl) nofun nofun
  cases pid with
  | none => exact .of_false same
  | some pid =>
    refine ensures_bind.mpr fun _ delivered signalled sent => ?_
    cases delivered with
    | false => exact .of_false (same.trans (execute_unchanged sent (fun _ => rfl) nofun nofun))
    | true =>
      refine Reports.of_updates ?_ ?_
      · simp [execute_did sent, Op.stops]
      · simp [execute_did sent, execute_did executed, Op.fails]

/-- Freezing reports a delivery where the signal is delivered, if the process is known. -/
theorem freezeServerSignal_reports
    (arrives : solo.world.server.pid = none ∨ outcomes.signal .sigstop = true) :
    (freezeServerSignal config).Ensures (Solo.execute outcomes) solo (Reports solo) := by
  refine ensures_bind.mpr fun _ pid looked executed => ?_
  have known := execute_readPid executed
  cases pid with
  | none => exact .of_false (execute_unchanged executed (fun _ => rfl) nofun nofun)
  | some pid =>
    refine ensures_bind.mpr fun _ frozen signalled sent => ?_
    have delivered : frozen = true := by
      rcases arrives with unknown | arrives
      · rw [unknown] at known
        cases known
      · rw [execute_signal sent, arrives]
    subst delivered
    refine Reports.of_updates ?_ ?_
    · simp [execute_did sent, Op.stops]
    · simp [execute_did sent, execute_did executed, Op.fails]

/-- The record is as it was, and nothing has failed since. -/
def Untouched (before after : Solo) : Prop :=
  Unchanged before.world after.world ∧ after.did Op.fails = before.did Op.fails

theorem Untouched.refl (solo : Solo) : Untouched solo solo := ⟨Unchanged.refl _, rfl⟩

/-- Waiting, reading and the RCON permit. -/
theorem Untouched.step {mid after : Solo} {op : Op} {delay : Duration} {reply : op.Reply}
    (untouched : Untouched solo mid) (executed : mid.execute outcomes op delay = some (reply, after))
    (still : ∀ state, op.newState state = state) (kept : ∀ pid, op ≠ .write .pid pid)
    (unarmed : ∀ deadline, op ≠ .write .killAt deadline) (succeeds : op.fails reply = false) :
    Untouched solo after := by
  refine ⟨untouched.1.trans (execute_unchanged executed still kept unarmed), ?_⟩
  rw [execute_did executed, succeeds, Bool.or_false, untouched.2]

theorem sleep_untouched {mid : Solo} (untouched : Untouched solo mid) (duration : Duration) :
    (sleep duration).Ensures (Solo.execute outcomes) mid fun _ after => Untouched solo after := by
  refine ensures_bind.mpr fun _ clock looked executed => fun _ _ after slept => ?_
  exact (untouched.step executed (fun _ => rfl) nofun nofun rfl).step slept (fun _ => rfl) nofun nofun rfl

/-- The exchange did not come about, and the permit is given back. -/
theorem release_reports {mid : Solo} (unchanged : Unchanged solo.world mid.world) :
    (do perform .releaseRcon; return false : ServerM Bool).Ensures (Solo.execute outcomes) mid
      (Reports solo) :=
  ensures_bind.mpr fun _ _ _ released =>
    .of_false (unchanged.trans (execute_unchanged released (fun _ => rfl) nofun nofun))

/-- Something was delivered, and nothing has failed since before. -/
def Arrived (before after : Solo) : Prop :=
  after.did Op.stops = true ∧ after.did Op.fails = before.did Op.fails

theorem Arrived.step {mid after : Solo} {op : Op} {delay : Duration} {reply : op.Reply}
    (arrived : Arrived solo mid) (executed : mid.execute outcomes op delay = some (reply, after))
    (succeeds : op.fails reply = false) : Arrived solo after := by
  refine ⟨?_, ?_⟩
  · rw [execute_did executed, arrived.1, Bool.true_or]
  · rw [execute_did executed, succeeds, Bool.or_false, arrived.2]

/-- `stop_server_rcon` from the acknowledged command on. -/
theorem rconStopped_reports {mid : Solo} (arrived : Arrived solo mid) :
    (do
      perform (.write .rconLastStop (some (← perform .now)))
      let _ ← updateState config .stopping
      sleep QUIRK_RCON_GRACE_TIME
      perform .rconClose
      perform .releaseRcon
      return true : ServerM Bool).Ensures (Solo.execute outcomes) mid (Reports solo) := by
  refine fun _ clock looked now => fun _ _ noted written => ?_
  have before := (arrived.step now rfl).step written rfl
  change Ensures _ (updateState config .stopping >>= _) _ _
  refine ensures_bind.mpr ((updateStateFrom_unheard none .stopping).mono fun _ updated unheard => ?_)
  have settled : Arrived solo updated := by
    refine ⟨?_, ?_⟩
    · rw [unheard.did _ quiet_not_stops, before.1]
    · rw [unheard.did _ quiet_not_fails, before.2]
  refine fun _ _ _ read => fun _ _ _ slept => fun _ _ _ closed => fun _ _ after released => ?_
  have last := (((settled.step read rfl).step slept rfl).step closed rfl).step released rfl
  exact ⟨fun _ => last, nofun⟩

/-- `stop_server_rcon` from the cooldown on. -/
theorem rconExchange_reports (cooledDown : Bool) {mid : Solo} (untouched : Untouched solo mid) :
    (do
      if !cooledDown then
        perform .releaseRcon
        return false
      if !(← perform .rconConnect) then
        perform .releaseRcon
        return false
      sleep QUIRK_RCON_GRACE_TIME
      if !(← perform .rconCommand) then
        perform .rconClose
        perform .releaseRcon
        return false
      perform (.write .rconLastStop (some (← perform .now)))
      let _ ← updateState config .stopping
      sleep QUIRK_RCON_GRACE_TIME
      perform .rconClose
      perform .releaseRcon
      return true : ServerM Bool).Ensures (Solo.execute outcomes) mid (Reports solo) := by
  cases cooledDown with
  | false => exact release_reports untouched.1
  | true =>
    refine fun _ connected opened connects => ?_
    have unmoved := untouched.1.trans (execute_unchanged connects (fun _ => rfl) nofun nofun)
    match connected with
    | false => exact release_reports unmoved
    | true =>
      have there := untouched.step connects (fun _ => rfl) nofun nofun rfl
      change Ensures _ (sleep QUIRK_RCON_GRACE_TIME >>= _) _ _
      refine ensures_bind.mpr ((sleep_untouched there _).mono fun _ ready waits => ?_)
      refine fun _ acknowledged sent commands => ?_
      have still := waits.1.trans (execute_unchanged commands (fun _ => rfl) nofun nofun)
      cases acknowledged with
      | false =>
        refine fun _ _ closed closes => ?_
        exact release_reports (still.trans (execute_unchanged closes (fun _ => rfl) nofun nofun))
      | true =>
        refine rconStopped_reports ⟨?_, ?_⟩
        · simp [execute_did commands, Op.stops]
        · simp [execute_did commands, Op.fails, waits.2]

theorem stopServerRcon_reports :
    (stopServerRcon config).Ensures (Solo.execute outcomes) solo (Reports solo) := by
  unfold stopServerRcon
  by_cases enabled : config.rcon.enabled = true
  · simp only [enabled, Bool.not_true, Bool.false_eq_true, ↓reduceIte]
    refine fun _ _ held acquired => fun _ last looked read => ?_
    have looks := ((Untouched.refl solo).step acquired (fun _ => rfl) nofun nofun rfl).step read
      (fun _ => rfl) nofun nofun rfl
    cases last with
    | none => exact rconExchange_reports true looks
    | some last =>
      refine fun _ clock timed now => ?_
      exact rconExchange_reports _ (looks.step now (fun _ => rfl) nofun nofun rfl)
  · simp only [enabled, Bool.not_false, ↓reduceIte]
    exact .of_false (Unchanged.refl _)

/-! ## Starting and stopping -/

/-- What `Server::stop` reports. -/
structure Stopped (before : Solo) (result : Bool) (after : Solo) : Prop where
  delivered : result = true → after.did Op.stops = true
  unchanged : result = false → Unchanged before.world after.world

/-- One method after what has changed nothing, and the rest if it reports `false`. -/
theorem stopped_bind {method rest : ServerM Bool} {mid : Solo}
    (unchanged : Unchanged solo.world mid.world)
    (reports : method.Ensures (Solo.execute outcomes) mid (Reports mid))
    (then_ : ∀ later : Solo, Unchanged solo.world later.world →
      rest.Ensures (Solo.execute outcomes) later (Stopped solo)) :
    (do if ← method then return true else rest : ServerM Bool).Ensures (Solo.execute outcomes) mid
      (Stopped solo) := by
  refine ensures_bind.mpr (reports.mono fun result after reported => ?_)
  cases result with
  | true => exact ⟨fun _ => (reported.delivered rfl).1, nofun⟩
  | false => exact then_ after (unchanged.trans (reported.unchanged rfl))

theorem stop_stopped
    (arrives : config.server.freezeProcess = true →
      solo.world.server.pid = none ∨ outcomes.signal .sigstop = true) :
    (Server.stop config).Ensures (Solo.execute outcomes) solo (Stopped solo) := by
  have signalled : ∀ mid : Solo, Unchanged solo.world mid.world → (do
      if ← stopServerSignal config then
        return true
      return false : ServerM Bool).Ensures (Solo.execute outcomes) mid (Stopped solo) :=
    fun mid unchanged => stopped_bind unchanged stopServerSignal_reports
      fun later still => ⟨nofun, fun _ => still⟩
  have running : ∀ mid : Solo, Unchanged solo.world mid.world → (do
      if (← perform .loadState) = .started then
        if ← stopServerRcon config then
          return true
      if ← stopServerSignal config then
        return true
      return false : ServerM Bool).Ensures (Solo.execute outcomes) mid (Stopped solo) := by
    refine fun mid unchanged => fun _ state loaded load => ?_
    have still := unchanged.trans (execute_unchanged load (fun _ => rfl) nofun nofun)
    change Ensures _ (if state = .started then _ else _) _ _
    split
    · exact stopped_bind still stopServerRcon_reports signalled
    · exact signalled loaded still
  unfold Server.stop
  split
  · rename_i configured
    exact stopped_bind (Unchanged.refl _) (freezeServerSignal_reports (arrives configured)) running
  · exact running solo (Unchanged.refl _)

theorem quiet_not_resumes (op : Op) (reply : op.Reply) (quiet : op.Quiet) :
    op.resumes reply = false := by
  cases op <;> first | rfl | exact quiet.elim

theorem quiet_not_spawns (op : Op) (reply : op.Reply) (quiet : op.Quiet) :
    op.spawns reply = false := by
  cases op <;> first | rfl | exact quiet.elim

/-- A claim of `start` succeeds only from `Stopped`. -/
theorem claim_ensures :
    (updateStateFrom config (some .stopped) .starting).Ensures (Solo.execute outcomes) solo
      fun claimed after => solo.Unheard after ∧
        (claimed = true → solo.world.server.state = .stopped) := by
  apply (updateStateFrom_unheard _ _).and
  by_cases stopped : solo.world.server.state = .stopped
  · exact (updateStateFrom_unheard (some .stopped) .starting).mono fun _ _ _ _ => stopped
  · rw [updateStateFrom_some]
    refine ensures_bind.mpr fun _ changed mid executed => ?_
    obtain ⟨same, -⟩ | ⟨-, rfl⟩ := execute_exchange executed
    · exact absurd same stopped
    · exact nofun

/-- Two updates, whatever they find, and then `true`. -/
theorem updates_achieve {first second : Option State} {new : State}
    (running : solo.world.exited = false) :
    (do
      let _ ← updateStateFrom config first new
      let _ ← updateStateFrom config second new
      return true : ServerM Bool).Achieves (Solo.execute outcomes) solo
        fun result after => result = true ∧ solo.Unheard after := by
  refine achieves_bind.mpr ((achieves_of_quietly (updateStateFrom_quietly config first new)
    running).mono fun _ mid early => ?_)
  refine achieves_bind.mpr ((achieves_of_quietly (updateStateFrom_quietly config second new)
    (early.exited.trans running)).mono fun _ after late => ?_)
  exact ⟨rfl, early.trans late⟩

/-- What freezing and resuming share: the updates are made whether or not the signal
arrives. -/
def signalAnyway (config : Config) (signal : Signal) (first second new : State) : ServerM Bool := do
  match ← perform (.read .pid) with
  | none => return false
  | some pid =>
    let _delivered ← perform (.sendSignal pid signal)
    let _ ← updateStateFrom config (some first) new
    let _ ← updateStateFrom config (some second) new
    return true

theorem freezeServerSignal_eq (config : Config) :
    freezeServerSignal config = signalAnyway config .sigstop .starting .started .stopped := rfl

theorem unfreezeServerSignal_eq (config : Config) :
    unfreezeServerSignal config = signalAnyway config .sigcont .stopping .stopped .starting := rfl

/-- A known process is reported as signalled, and what is heard of it is the signal alone. -/
theorem signalAnyway_achieves {signal : Signal} {first second new : State} {pid : Pid}
    (running : solo.world.exited = false) (known : solo.world.server.pid = some pid) :
    (signalAnyway config signal first second new).Achieves (Solo.execute outcomes) solo
      fun result after => result = true ∧
        ∀ what : (op : Op) → op.Reply → Bool, (∀ op reply, op.Quiet → what op reply = false) →
          after.did what = (solo.did what || what (.sendSignal pid signal) (outcomes.signal signal)) := by
  have quiet : (Op.read .pid).Quiet := trivial
  refine achieves_bind.mpr fun delay => ?_
  obtain ⟨reply, looked, executed⟩ := quiet.answered outcomes running delay
  have unheard := quiet.unheard executed
  have found : reply = some pid := (execute_readPid executed).trans known
  subst found
  refine ⟨_, looked, executed, achieves_bind.mpr fun delay => ?_⟩
  have sent : looked.execute outcomes (.sendSignal pid signal) delay = some (outcomes.signal signal,
      ⟨looked.due (.sendSignal pid signal) delay,
        looked.log ++ [⟨.sendSignal pid signal, outcomes.signal signal⟩]⟩) := by
    simp [Solo.execute, World.execute, unheard.exited, running, World.perform, Outcomes.of]
  refine ⟨_, _, sent, ?_⟩
  change Achieves _ (updateStateFrom config (some first) new >>= _) _ _
  have still : (looked.due (.sendSignal pid signal) delay).exited = false :=
    unheard.exited.trans running
  refine (updates_achieve (by exact still)).mono fun result after ended => ?_
  refine ⟨ended.1, fun what silent => ?_⟩
  rw [ended.2.did what silent, execute_did sent, unheard.did what silent]

/-- Resuming a process that is known reports success, with the signal or without. -/
theorem unfreezeServerSignal_ensures :
    (unfreezeServerSignal config).Ensures (Solo.execute outcomes) solo fun resumed after =>
      resumed = true → solo.world.server.pid.isSome = true ∧
        (outcomes.signal .sigcont = true → after.did Op.resumes = true) := by
  refine ensures_bind.mpr fun _ pid looked executed => ?_
  have known := execute_readPid executed
  cases pid with
  | none => exact nofun
  | some pid =>
    refine ensures_bind.mpr fun _ delivered signalled sent => ?_
    have heard := execute_signal sent
    refine ensures_bind.mpr ((updateStateFrom_unheard _ _).mono fun _ mid early => ?_)
    refine ensures_bind.mpr ((updateStateFrom_unheard _ _).mono fun _ after late => ?_)
    refine fun _ => ⟨by rw [← known]; rfl, fun arrives => ?_⟩
    rw [late.did _ quiet_not_resumes, early.did _ quiet_not_resumes, execute_did sent, heard, arrives]
    simp [Op.resumes]

theorem start_reports (config : Config) (outcomes : Outcomes) (solo : Solo)
    (heard : config.server.freezeProcess = true → solo.world.server.state = .stopped →
      solo.world.server.pid.isSome = true → outcomes.signal .sigcont = true) :
    (Server.start config).Ensures (Solo.execute outcomes) solo fun started after =>
      started = true → after.did Op.resumes = true ∨ after.did Op.spawns = true := by
  have spawned : ∀ mid : Solo, (do perform .spawnServerTask; return true : ServerM Bool).Ensures
      (Solo.execute outcomes) mid fun started after =>
        started = true → after.did Op.resumes = true ∨ after.did Op.spawns = true := by
    refine fun mid => ensures_bind.mpr fun _ _ after spawns => fun _ => .inr ?_
    rw [execute_did spawns]
    simp [Op.spawns]
  refine ensures_bind.mpr (claim_ensures.mono fun claimed mid facts => ?_)
  obtain ⟨unheard, stopped⟩ := facts
  cases claimed with
  | false => exact nofun
  | true =>
    simp only [Bool.not_true, Bool.false_eq_true, ↓reduceIte]
    by_cases configured : config.server.freezeProcess = true
    · rw [if_pos configured]
      refine ensures_bind.mpr (unfreezeServerSignal_ensures.mono fun resumed after known => ?_)
      cases resumed with
      | false => exact spawned after
      | true =>
        obtain ⟨known, arrives⟩ := known rfl
        rw [unheard.pid] at known
        exact fun _ => .inl (arrives (heard configured (stopped rfl) known))
    · rw [if_neg configured]
      exact spawned mid

/-- A claim of `start` succeeds from `Stopped`, while the proxy runs. -/
theorem claim_achieves (running : solo.world.exited = false)
    (stopped : solo.world.server.state = .stopped) :
    (updateStateFrom config (some .stopped) .starting).Achieves (Solo.execute outcomes) solo
      fun claimed after => claimed = true ∧ solo.Unheard after := by
  rw [updateStateFrom_some]
  have quiet : (Op.compareExchange .stopped .starting).Quiet := trivial
  refine achieves_bind.mpr fun delay => ?_
  obtain ⟨reply, mid, executed⟩ := quiet.answered outcomes running delay
  have unheard := quiet.unheard executed
  obtain ⟨-, rfl⟩ | ⟨other, -⟩ := execute_exchange executed
  · refine ⟨_, mid, executed, ?_⟩
    change Achieves _ (settle config .starting >>= _) _ _
    refine achieves_bind.mpr ((achieves_of_quietly (settle_quietly config .starting)
      (unheard.exited.trans running)).mono fun _ after settled => ?_)
    exact ⟨rfl, unheard.trans settled⟩
  · exact absurd stopped other

/-- Freezing a process reports a stop though the signal is lost. -/
theorem stop_misreports {pid : Pid} (running : solo.world.exited = false)
    (configured : config.server.freezeProcess = true) (known : solo.world.server.pid = some pid)
    (lost : outcomes.signal .sigstop = false) :
    (Server.stop config).Achieves (Solo.execute outcomes) solo fun result after =>
      result = true ∧ after.did Op.stops = solo.did Op.stops := by
  unfold Server.stop
  rw [if_pos configured, freezeServerSignal_eq]
  refine achieves_bind.mpr ((signalAnyway_achieves running known).mono fun frozen after ended => ?_)
  obtain ⟨rfl, heard⟩ := ended
  refine ⟨rfl, ?_⟩
  rw [heard _ quiet_not_stops]
  simp [Op.stops, lost]

theorem start_misreports {pid : Pid} (running : solo.world.exited = false)
    (stopped : solo.world.server.state = .stopped)
    (configured : config.server.freezeProcess = true) (known : solo.world.server.pid = some pid)
    (lost : outcomes.signal .sigcont = false) :
    (Server.start config).Achieves (Solo.execute outcomes) solo fun result after =>
      result = true ∧ after.did Op.resumes = solo.did Op.resumes ∧
        after.did Op.spawns = solo.did Op.spawns := by
  refine achieves_bind.mpr ((claim_achieves running stopped).mono fun claimed mid facts => ?_)
  obtain ⟨rfl, unheard⟩ := facts
  simp only [Bool.not_true, Bool.false_eq_true, ↓reduceIte]
  rw [if_pos configured, unfreezeServerSignal_eq]
  refine achieves_bind.mpr ((signalAnyway_achieves (unheard.exited.trans running)
    (unheard.pid.trans known)).mono fun resumed after ended => ?_)
  obtain ⟨rfl, heard⟩ := ended
  refine ⟨rfl, ?_, ?_⟩
  · rw [heard _ quiet_not_resumes, unheard.did _ quiet_not_resumes]
    simp [Op.resumes, lost]
  · rw [heard _ quiet_not_spawns, unheard.did _ quiet_not_spawns]
    simp [Op.spawns]

/-- A method that reports as it should answers `false` to a failure, at the beginning of a
log. -/
theorem Reports.failed {world : World} {result : Bool} {after : Solo}
    (reports : Reports ⟨world, []⟩ result after) (fails : after.did Op.fails = true) :
    result = false ∧ Unchanged world after.world := by
  cases result with
  | true =>
    have none := (reports.delivered rfl).2
    rw [fails] at none
    cases none
  | false => exact ⟨rfl, reports.unchanged rfl⟩

/-- `stop` reports what happened unless a freeze signal to a known process is lost. -/
theorem stop_reports_iff (config : Config) (outcomes : Outcomes) (world : World)
    (running : world.exited = false) :
    StopReports config outcomes world ↔
      ¬ (config.server.freezeProcess = true ∧ world.server.pid.isSome = true ∧
        outcomes.signal .sigstop = false) := by
  constructor
  · rintro reports ⟨configured, known, lost⟩
    obtain ⟨pid, known⟩ := Option.isSome_iff_exists.mp known
    have misreports : (Server.stop config).Achieves (Solo.execute outcomes) ⟨world, []⟩ _ :=
      stop_misreports running configured known lost
    obtain ⟨_, after, left, ran, rfl, nothing⟩ := misreports.exists_run []
    rw [reports.delivered [] after left ran] at nothing
    cases nothing
  · intro heard
    have arrives : config.server.freezeProcess = true →
        world.server.pid = none ∨ outcomes.signal .sigstop = true := by
      intro configured
      by_contra lost
      obtain ⟨known, lost⟩ := not_or.mp lost
      exact heard ⟨configured, by simpa [Option.isSome_iff_ne_none] using known, by simpa using lost⟩
    have stops : (Server.stop config).Ensures (Solo.execute outcomes) ⟨world, []⟩ _ :=
      stop_stopped arrives
    refine ⟨fun delays after left ran => (stops.of_run ran).delivered rfl,
      fun delays after left ran => (stops.of_run ran).unchanged rfl, ?_⟩
    intro method member delays result after left ran
    rcases List.mem_append.mp member with frozen | others
    · split at frozen
      · rename_i configured
        obtain rfl := List.mem_singleton.mp frozen
        exact ((freezeServerSignal_reports (arrives configured)).of_run ran).failed
      · cases frozen
    · simp only [List.mem_cons, List.not_mem_nil, or_false] at others
      rcases others with rfl | rfl
      · exact (stopServerRcon_reports.of_run ran).failed
      · exact (stopServerSignal_reports.of_run ran).failed

/-- `start` reports what happened unless a resume signal to a known process is lost. -/
theorem start_reports_iff (config : Config) (outcomes : Outcomes) (world : World)
    (running : world.exited = false) :
    StartReports config outcomes world ↔
      ¬ (config.server.freezeProcess = true ∧ world.server.state = .stopped ∧
        world.server.pid.isSome = true ∧ outcomes.signal .sigcont = false) := by
  constructor
  · rintro reports ⟨configured, stopped, known, lost⟩
    obtain ⟨pid, known⟩ := Option.isSome_iff_exists.mp known
    have misreports : (Server.start config).Achieves (Solo.execute outcomes) ⟨world, []⟩ _ :=
      start_misreports running stopped configured known lost
    obtain ⟨_, after, left, ran, rfl, unresumed, unspawned⟩ := misreports.exists_run []
    rcases reports [] after left ran with resumed | spawned
    · rw [resumed] at unresumed
      cases unresumed
    · rw [spawned] at unspawned
      cases unspawned
  · intro heard delays after left ran
    refine (start_reports config outcomes ⟨world, []⟩ ?_).of_run ran rfl
    intro configured stopped known
    by_contra lost
    exact heard ⟨configured, stopped, known, by simpa using lost⟩

/-- Both report only what happened exactly when no signal of a configured freeze is lost. -/
theorem reports_iff (config : Config) (outcomes : Outcomes) (world : World)
    (running : world.exited = false) :
    StopReports config outcomes world ∧ StartReports config outcomes world ↔
      ¬ (config.server.freezeProcess = true ∧ world.server.pid.isSome = true ∧
        (outcomes.signal .sigstop = false ∨
          world.server.state = .stopped ∧ outcomes.signal .sigcont = false)) := by
  rw [stop_reports_iff config outcomes world running, start_reports_iff config outcomes world running]
  constructor
  · rintro ⟨stop, start⟩ ⟨configured, known, lost | ⟨stopped, lost⟩⟩
    · exact stop ⟨configured, known, lost⟩
    · exact start ⟨configured, stopped, known, lost⟩
  · intro heard
    constructor
    · rintro ⟨configured, known, lost⟩
      exact heard ⟨configured, known, .inl lost⟩
    · rintro ⟨configured, stopped, known, lost⟩
      exact heard ⟨configured, known, .inr ⟨stopped, lost⟩⟩

/-- Without a freeze configured, a server that nothing reaches is reported truthfully. -/
theorem reports_unreached :
    let outcomes : Outcomes := { signal := fun _ => false, connect := false, command := false }
    let world : World := { server := { state := .started, pid := some 0 }, children := [none] }
    StopReports {} outcomes world ∧ StartReports {} outcomes world := by
  apply (reports_iff {} _ _ rfl).mpr
  rintro ⟨configured, -⟩
  cases configured

/-- A freeze that never reaches the process is reported as a stop, and the state is moved. -/
theorem lost_freeze_reported :
    let config : Config := { server := { freezeProcess := true } }
    let outcomes : Outcomes := { signal := fun _ => false, connect := false, command := false }
    let world : World := { server := { state := .started, pid := some 0 }, children := [none] }
    (∃ after left, (Server.stop config).run (Solo.execute outcomes) [] ⟨world, []⟩ =
      some (true, after, left) ∧ after.did Op.stops = false) ∧
      ¬ StopReports config outcomes world := by
  intro config outcomes world
  have misreports : (Server.stop config).Achieves (Solo.execute outcomes) ⟨world, []⟩ _ :=
    stop_misreports rfl rfl rfl rfl
  obtain ⟨_, after, left, ran, rfl, nothing⟩ := misreports.exists_run []
  refine ⟨⟨after, left, ran, nothing⟩, fun reports => ?_⟩
  exact (stop_reports_iff config outcomes world rfl).mp reports ⟨rfl, rfl, rfl⟩

end PlexPaper
