import PlexPaper.RconStops

/-! What serialised stops over RCON come to in a run: one session at a time, a permit that no
way out of `stop_server_rcon` keeps, and a cooldown between any two commands that the server
acknowledges. A run is its list of moves, and a moment of it is how many have been made. -/
namespace PlexPaper
open Tasks Server

/-! ## What the logs tell -/

/-- An operation that a task has done, and how it was answered. -/
abbrev Done := (op : Op) × op.Reply

/-- A session is open once connecting has succeeded, until it is closed. -/
def sessionAfter (opened : Bool) : Done → Bool
  | ⟨.rconConnect, connected⟩ => opened || connected
  | ⟨.rconClose, _⟩ => false
  | _ => opened

def sessionOpen (log : List Done) : Bool := log.foldl sessionAfter false

/-- The task is connecting over RCON, or it has a session open. -/
def InSession (task : Task Op Op.Reply Entry) : Prop :=
  task.next? = some .rconConnect ∨ sessionOpen task.log = true

/-- How many permits an operation takes, or gives back. -/
def Op.permitsTaken : Op → Int
  | .acquireRcon => 1
  | .releaseRcon => -1
  | _ => 0

/-- The permits taken and not yet given back. -/
def permitsHeld (log : List Done) : Int := log.foldl (fun held done => held + done.1.permitsTaken) 0

/-- The permits that tasks hold, all together. -/
def permitsOut (tasks : List (Task Op Op.Reply Entry)) : Int :=
  tasks.foldr (fun task held => permitsHeld task.log + held) 0

/-- The log of a stop that has got this far. -/
structure Tells (log : List Done) (stop : RconStop) : Prop where
  session : sessionOpen log = stop.session
  permits : permitsHeld log = if stop.holds then 1 else 0

theorem sessionAfter_of_not_overRcon {op : Op} (other : ¬ op.OverRcon) (opened : Bool)
    (reply : op.Reply) : sessionAfter opened ⟨op, reply⟩ = opened := by
  cases op <;> first | rfl | exact absurd trivial other

theorem Op.permitsTaken_of_not_overRcon {op : Op} (other : ¬ op.OverRcon) : op.permitsTaken = 0 := by
  cases op <;> first | rfl | exact absurd trivial other

/-- Every permitted operation is told by the log. -/
theorem Tells.proceeds {log : List Done} {stop : RconStop} {op : Op} (tells : Tells log stop)
    (permitted : stop.permits op) (reply : op.Reply) :
    Tells (log ++ [⟨op, reply⟩]) (stop.advance op reply) := by
  have opened : sessionOpen (log ++ [⟨op, reply⟩]) = sessionAfter stop.session ⟨op, reply⟩ := by
    rw [← tells.session, sessionOpen, List.foldl_append]
    rfl
  have taken : permitsHeld (log ++ [⟨op, reply⟩]) =
      (if stop.holds then 1 else 0) + op.permitsTaken := by
    rw [← tells.permits, permitsHeld, List.foldl_append]
    rfl
  have moved := RconStop.moves permitted reply
  generalize stop.advance op reply = next at moved
  refine ⟨opened.trans ?_, taken.trans ?_⟩
  · cases moved with
    | checks last now => by_cases elapsed : now - last ≥ RCON_COOLDOWN <;> simp [elapsed] <;> rfl
    | keeps resting other => exact sessionAfter_of_not_overRcon other _ _
    | _ => rfl
  · cases moved with
    | closes session => rcases session with rfl | rfl <;> rfl
    | checks last now => by_cases elapsed : now - last ≥ RCON_COOLDOWN <;> simp [elapsed] <;> rfl
    | keeps resting other => rw [Op.permitsTaken_of_not_overRcon other, Int.add_zero]
    | _ => rfl

section

variable {config : Config} {proxy : Proxy}

theorem tells_of_reached (reached : (lifecycle config).Reaches (fun _ _ => True) Proxy.boot proxy) :
    ∀ task ∈ proxy.tasks, Tells task.log (rconStops.stage task) :=
  rconStops.tasks_relate (lifecycle_rconStops config) Tells (fun _ => ⟨rfl, rfl⟩)
    (fun _ _ _ reply permitted tells => tells.proceeds permitted reply) reached

/-- In a session the permit is held. -/
theorem InSession.holds {task : Task Op Op.Reply Entry} (inside : InSession task)
    (reached : (lifecycle config).Reaches (fun _ _ => True) Proxy.boot proxy)
    (member : task ∈ proxy.tasks) : (rconStops.stage task).holds = true := by
  rcases inside with connecting | opened
  · have onTrack := Protocol.tasks_follow (lifecycle_rconStops config) reached task member
    have cooled : rconStops.stage task = .cooled := onTrack.permits_next connecting
    rw [cooled]
    rfl
  · rw [(tells_of_reached reached task member).session] at opened
    cases stage : rconStops.stage task <;> first | rfl | (rw [stage] at opened; cases opened)

/-- Tasks that hold the permit are one task. -/
theorem one_holder (reached : (lifecycle config).Reaches (fun _ _ => True) Proxy.boot proxy)
    {first second : Nat} {one other : Task Op Op.Reply Entry} (here : proxy.tasks[first]? = some one)
    (there : proxy.tasks[second]? = some other) (held : (rconStops.stage one).holds)
    (also : (rconStops.stage other).holds) : first = second := by
  have staged : ∀ {index : Nat} {task : Task Op Op.Reply Entry}, proxy.tasks[index]? = some task →
      (rconStops.stages proxy)[index]? = some (rconStops.stage task) :=
    fun found => by simp [Protocol.stages, found]
  exact (serialised_of_reached reached).permit.same_holder (staged here) (staged there) held also

/-- They are as many as there are holders. -/
private theorem permitsOut_eq {tasks : List (Task Op Op.Reply Entry)}
    (tells : ∀ task ∈ tasks, Tells task.log (rconStops.stage task)) :
    permitsOut tasks = (((tasks.map rconStops.stage).countP RconStop.holds : Nat) : Int) := by
  induction tasks with
  | nil => rfl
  | cons task tasks ih =>
    have own := (tells task List.mem_cons_self).permits
    have rest := ih fun other member => tells other (List.mem_cons_of_mem _ member)
    rw [permitsOut] at rest ⊢
    simp only [List.foldr_cons, List.map_cons, List.countP_cons, own, rest]
    split <;> omega

/-- The one permit is there, or held by a task. -/
theorem permits_conserved (reached : (lifecycle config).Reaches (fun _ _ => True) Proxy.boot proxy) :
    (proxy.world.server.rconPermits : Int) + permitsOut proxy.tasks = 1 := by
  rw [permitsOut_eq (tells_of_reached reached)]
  have balanced := (serialised_of_reached reached).permit
  simp only [Semaphore.Balanced, Protocol.stages] at balanced
  omega

end

/-- Whatever it is answered, `stop_server_rcon` returns with its session closed and its
permit given back. -/
theorem stopServerRcon_returns {config : Config} {log : List Done} {stopped : Bool}
    (performs : (stopServerRcon config).Performs log (.pure stopped)) :
    permitsHeld log = 0 ∧ sessionOpen log = false := by
  have serialises := stopServerRcon_serialises config
  have ended : rconStops.after .idle log = .idle := serialises.performs performs
  have nothing : Tells [] .idle := ⟨rfl, rfl⟩
  have tells : Tells log (rconStops.after .idle log) :=
    serialises.relates Tells (fun _ _ _ reply permitted tells => tells.proceeds permitted reply)
      nothing performs
  rw [ended] at tells
  exact ⟨tells.permits, tells.session⟩

/-! ## From one command to the next -/

section

variable {config : Config} {before after : Proxy}

/-- The clock does not run backwards, and neither do the recorded stops. -/
theorem step_lastStop {move : ProxyMove}
    (reached : (lifecycle config).Reaches (fun _ _ => True) Proxy.boot before)
    (stepped : (lifecycle config).step before move = some after) :
    before.world.clock ≤ after.world.clock ∧
      ∀ time ∈ before.world.server.rconLastStop, ∃ last ∈ after.world.server.rconLastStop, time ≤ last := by
  cases move with
  | call entry =>
    simp only [System.step] at stepped
    split at stepped
    · cases stepped
      exact ⟨Nat.le_refl _, fun time member => ⟨time, member, Nat.le_refl _⟩⟩
    · cases stepped
  | outside event =>
    obtain ⟨world, acted, rfl⟩ := Option.map_eq_some_iff.mp stepped
    have server := World.outside_server acted
    refine ⟨World.outside_clock acted, fun time member => ⟨time, ?_, Nat.le_refl _⟩⟩
    change time ∈ world.server.rconLastStop
    rwa [server]
  | run index succeeds =>
    obtain ⟨task, op, reply, front, back, -, -, permitted, executed, stages, -⟩ :=
      Protocol.step_run (lifecycle_rconStops config) reached stepped
    refine ⟨Nat.le_of_eq (World.execute_clock executed).symm, fun time member => ?_⟩
    by_cases writes : ∃ value, op = .write .rconLastStop value
    · obtain ⟨value, rfl⟩ := writes
      obtain ⟨reading, measured, rfl⟩ := permitted
      have serialised := serialised_of_reached reached
      have agrees := serialised.agrees (.measured reading) (by simp [stages, measured])
      refine ⟨reading, ?_, Nat.le_trans (Nat.le_add_right _ _) (agrees.2 time member)⟩
      rw [World.execute_newServer executed]
      rfl
    · have kept := World.execute_get executed .rconLastStop fun value same => writes ⟨value, same⟩
      exact ⟨time, (congrArg (time ∈ ·) kept).mpr member, Nat.le_refl _⟩

/-- A stop was recorded among these operations, at this moment or later, and the server has
not forgotten it. -/
def RecordedSince (since : Instant) (more : List Done) (world : World) : Prop :=
  ∃ recorded, since ≤ recorded ∧ ⟨.write .rconLastStop (some recorded), ()⟩ ∈ more ∧
    ∃ last ∈ world.server.rconLastStop, recorded ≤ last

/-- A task whose command was acknowledged at some moment, with this log, is about to record
it, or it has. -/
structure Recording (since : Instant) (log : List Done) (world : World)
    (task : Task Op Op.Reply Entry) : Prop where
  clock : since ≤ world.clock
  progress : ∃ more, task.log = log ++ more ∧
    (rconStops.stage task = .acknowledged ∨
      (∃ reading, rconStops.stage task = .measured reading ∧ since ≤ reading) ∨
      RecordedSince since more world)

/-- No step undoes that. -/
theorem Recording.step {since : Instant} {log : List Done} {index : Nat}
    {task : Task Op Op.Reply Entry} {move : ProxyMove}
    (recording : Recording since log before.world task)
    (reached : (lifecycle config).Reaches (fun _ _ => True) Proxy.boot before)
    (found : before.tasks[index]? = some task)
    (stepped : (lifecycle config).step before move = some after) :
    ∃ later, after.tasks[index]? = some later ∧ Recording since log after.world later := by
  obtain ⟨since_le, more, same, progress⟩ := recording
  obtain ⟨passes, lasts⟩ := step_lastStop reached stepped
  have clock := Nat.le_trans since_le passes
  have remembered {done : List Done} (recorded : RecordedSince since done before.world) :
      RecordedSince since done after.world := by
    obtain ⟨recorded, order, member, last, now, before⟩ := recorded
    obtain ⟨newer, there, after⟩ := lasts last now
    exact ⟨recorded, order, member, newer, there, Nat.le_trans before after⟩
  rcases System.step_task stepped found with
    ⟨still, -⟩ | ⟨answer, op, next, reply, -, waiting, executed, there⟩
  · exact ⟨task, still, clock, more, same, progress.imp_right (.imp_right remembered)⟩
  · have onTrack :=
      Protocol.tasks_follow (lifecycle_rconStops config) reached task (List.mem_of_getElem? found)
    have moved : Moves (rconStops.stage task) op reply
        (rconStops.advance (rconStops.stage task) op reply) := RconStop.moves (onTrack.permits waiting) reply
    refine ⟨_, there, clock, more ++ [⟨op, reply⟩], by simp [Task.proceed, same], ?_⟩
    rw [Protocol.stage_proceed]
    generalize rconStops.advance (rconStops.stage task) op reply = ended at moved ⊢
    rcases progress with acknowledged | ⟨reading, measured, order⟩ | recorded
    · rw [acknowledged] at moved
      cases moved with
      | measures reading =>
        have read := World.now_reply executed
        exact .inr (.inl ⟨reading, rfl, read ▸ since_le⟩)
      | closes session => simp at session
      | keeps resting => cases resting
    · rw [measured] at moved
      cases moved with
      | records =>
        refine .inr (.inr ⟨reading, order, by simp, reading, ?_, Nat.le_refl _⟩)
        rw [World.execute_newServer executed]
        rfl
      | closes session => simp at session
      | keeps resting => cases resting
    · obtain ⟨moment, order, member, rest⟩ := remembered recorded
      exact .inr (.inr ⟨moment, order, List.mem_append_left _ member, rest⟩)

/-- So no run does. -/
theorem Recording.run {since : Instant} {log : List Done} {index : Nat}
    {task : Task Op Op.Reply Entry} (recording : Recording since log before.world task)
    (reached : (lifecycle config).Reaches (fun _ _ => True) Proxy.boot before)
    (found : before.tasks[index]? = some task)
    (continues : (lifecycle config).Reaches (fun _ _ => True) before after) :
    ∃ later, after.tasks[index]? = some later ∧ Recording since log after.world later := by
  induction continues with
  | refl => exact ⟨task, found, recording⟩
  | tail continued stepped ih =>
    obtain ⟨later, there, recording⟩ := ih
    obtain ⟨move, -, stepped⟩ := stepped
    exact recording.step (reached.trans continued) there stepped

end

/-! ## Runs -/

/-- The proxy after so many moves of a run from boot. -/
def Proxy.after (config : Config) (moves : List ProxyMove) (count : Nat) : Option Proxy :=
  (lifecycle config).play (fun _ _ => True) Proxy.boot (moves.take count)

section

variable {config : Config} {moves : List ProxyMove} {early late : Nat} {first second : Proxy}

theorem Proxy.reached_after (ran : Proxy.after config moves early = some first) :
    (lifecycle config).Reaches (fun _ _ => True) Proxy.boot first := System.play_reaches ran

private theorem Proxy.after_split (order : early ≤ late) : Proxy.after config moves late =
    (Proxy.after config moves early).bind fun middle =>
      (lifecycle config).play (fun _ _ => True) middle ((moves.take late).drop early) := by
  have front : moves.take early = (moves.take late).take early := by
    rw [List.take_take, Nat.min_eq_left order]
  rw [Proxy.after, Proxy.after, front, ← System.play_append, List.take_append_drop]

theorem Proxy.reaches_after (order : early ≤ late) (ran : Proxy.after config moves early = some first)
    (on : Proxy.after config moves late = some second) :
    (lifecycle config).Reaches (fun _ _ => True) first second := by
  rw [after_split order, ran] at on
  exact System.play_reaches on

/-- A run that gets so far has got to every place before. -/
theorem Proxy.after_earlier (order : early ≤ late) (ran : Proxy.after config moves late = some second) :
    ∃ first, Proxy.after config moves early = some first := by
  rw [after_split order] at ran
  obtain ⟨first, there, -⟩ := Option.bind_eq_some_iff.mp ran
  exact ⟨first, there⟩

theorem Proxy.after_succ {move : ProxyMove} (ran : Proxy.after config moves early = some first)
    (next : moves[early]? = some move) :
    Proxy.after config moves (early + 1) = (lifecycle config).step first move := by
  have front : moves.take (early + 1) = moves.take early ++ [move] := by
    rw [List.take_add_one, next]
    rfl
  rw [Proxy.after] at ran ⊢
  rw [front, System.play_append, ran]
  simp [System.play, playRun]

end

/-- The stop command that a task has sent is acknowledged by the move at this place, at this
moment. -/
structure Acknowledged (config : Config) (moves : List ProxyMove) (place index : Nat)
    (command : Task Op Op.Reply Entry) (moment : Instant) : Prop where
  waits : ∃ proxy ∈ Proxy.after config moves place,
    proxy.tasks[index]? = some command ∧ proxy.world.clock = moment
  sent : command.next? = some .rconCommand
  answered : moves[place]? = some (.run index true)

section

variable {config : Config} {moves : List ProxyMove} {proxy : Proxy}

/-- A command is only on its way in a session that was opened after the cooldown. -/
theorem connected_of_sent {task : Task Op Op.Reply Entry} {index : Nat}
    (reached : (lifecycle config).Reaches (fun _ _ => True) Proxy.boot proxy)
    (found : proxy.tasks[index]? = some task) (sent : task.next? = some .rconCommand) :
    rconStops.stage task = .connected ∧
      CooledAt proxy.world.server.rconLastStop proxy.world.clock := by
  have member := List.mem_of_getElem? found
  have connected : rconStops.stage task = .connected :=
    (Protocol.tasks_follow (lifecycle_rconStops config) reached task member).permits_next sent
  have agrees := (serialised_of_reached reached).agrees (rconStops.stage task) (List.mem_map_of_mem member)
  rw [connected] at agrees
  exact ⟨connected, agrees⟩

/-- Right after its acknowledgement a command is about to be recorded. -/
theorem Acknowledged.recording {place index : Nat} {command : Task Op Op.Reply Entry}
    {moment : Instant} (acknowledged : Acknowledged config moves place index command moment)
    (ran : Proxy.after config moves (place + 1) = some proxy) :
    ∃ task, proxy.tasks[index]? = some task ∧
      Recording moment (command.log ++ [⟨.rconCommand, true⟩]) proxy.world task := by
  obtain ⟨⟨before, here, found, rfl⟩, sent, answered⟩ := acknowledged
  have reached := Proxy.reached_after here
  have stepped := (Proxy.after_succ here answered).symm.trans ran
  rcases System.step_task stepped found with
    ⟨-, other⟩ | ⟨answer, op, next, reply, same, waiting, executed, there⟩
  · exact absurd rfl (other true)
  · cases same
    have waits : op = .rconCommand := by simpa [Task.next?, waiting, Program.next?] using sent
    subst waits
    have replied : true = reply := by
      have performed := World.perform_of_execute executed
      exact (Prod.mk.inj (Option.some.inj performed)).1
    subst replied
    have clock := World.execute_clock executed
    refine ⟨_, there, Nat.le_of_eq clock.symm, [], by simp [Task.proceed], .inl ?_⟩
    rw [Protocol.stage_proceed, (connected_of_sent reached found sent).1]
    rfl

/-- While a command is on its way, no other is acknowledged. -/
theorem Acknowledged.apart {place index later other : Nat} {first second : Task Op Op.Reply Entry}
    {moment : Instant} (acknowledged : Acknowledged config moves place index first moment)
    (order : place < later) (sent : second.next? = some .rconCommand) {last : Proxy}
    (ran : Proxy.after config moves later = some last) (found : last.tasks[other]? = some second)
    {early : Nat} (before : Proxy.after config moves early = some proxy)
    (there : proxy.tasks[other]? = some second) : place < early := by
  by_contra early_le
  obtain ⟨middle, here, foundFirst, -⟩ := acknowledged.waits
  have reached := Proxy.reached_after here
  -- The task of the second command has done nothing from its sending to its answer.
  obtain ⟨same, done, thereMiddle, -, grown⟩ :=
    (Proxy.reaches_after (by omega) before here).log_grows there
  obtain ⟨final, rest, thereLast, -, grows⟩ :=
    (Proxy.reaches_after (by omega) here ran).log_grows thereMiddle
  cases found.symm.trans thereLast
  have length := congrArg List.length grows
  rw [grown, List.append_assoc, List.length_append, List.length_append] at length
  have nothing : done = [] := List.length_eq_zero_iff.mp (by omega)
  rw [nothing, List.append_nil] at grown
  have stage : rconStops.stage same = rconStops.stage second := by rw [Protocol.stage, Protocol.stage, grown]
  -- So both commands are on their way where the first is answered, and are one.
  have connected := (connected_of_sent (Proxy.reached_after before) there sent).1
  have held := (connected_of_sent reached foundFirst acknowledged.sent).1
  have one := one_holder reached foundFirst thereMiddle (by rw [held]; rfl) (by rw [stage, connected]; rfl)
  subst one
  cases foundFirst.symm.trans thereMiddle
  obtain ⟨next, ranNext⟩ := Proxy.after_earlier order ran
  obtain ⟨task, foundNext, -, more, log, -⟩ := acknowledged.recording ranNext
  obtain ⟨task', more', foundLast, -, logs⟩ := (Proxy.reaches_after order ranNext ran).log_grows foundNext
  cases found.symm.trans foundLast
  rw [log, grown] at logs
  have length := congrArg List.length logs
  simp at length

/-- Stops over RCON are serialised and rate limited. -/
theorem rcon_stops_serialised (config : Config) (moves : List ProxyMove) :
    (∀ count, ∀ proxy ∈ Proxy.after config moves count,
      (∀ (first second : Nat) (one other : Task Op Op.Reply Entry), proxy.tasks[first]? = some one →
        proxy.tasks[second]? = some other → InSession one → InSession other → first = second) ∧
      (proxy.world.server.rconPermits : Int) + permitsOut proxy.tasks = 1) ∧
    (∀ (log : List Done) (stopped : Bool), (stopServerRcon config).Performs log (.pure stopped) →
      permitsHeld log = 0 ∧ sessionOpen log = false) ∧
    ∀ (place later index other : Nat) (first second : Task Op Op.Reply Entry) (moment answered : Instant),
      place < later → Acknowledged config moves place index first moment →
      Acknowledged config moves later other second answered →
      -- The second was sent at some moment at which its task already waits to be answered.
      ∀ count ≤ later, ∀ proxy ∈ Proxy.after config moves count, proxy.tasks[other]? = some second →
        ∃ (task : Task Op Op.Reply Entry) (more : List Done) (recorded : Instant),
          proxy.tasks[index]? = some task ∧ task.log = first.log ++ ⟨.rconCommand, true⟩ :: more ∧
          ⟨.write .rconLastStop (some recorded), ()⟩ ∈ more ∧ moment ≤ recorded ∧
          recorded + RCON_COOLDOWN ≤ proxy.world.clock := by
  refine ⟨fun count proxy ran => ?_, fun log stopped performs => stopServerRcon_returns performs, ?_⟩
  · have reached := Proxy.reached_after ran
    refine ⟨fun first second one other here there inside also => ?_, permits_conserved reached⟩
    exact one_holder reached here there (inside.holds reached (List.mem_of_getElem? here))
      (also.holds reached (List.mem_of_getElem? there))
  · intro place later index other first second moment answered order acknowledged also count bound
      proxy ran there
    obtain ⟨last, here, found, -⟩ := also.waits
    have reached := Proxy.reached_after ran
    have past := acknowledged.apart order also.sent here found ran there
    obtain ⟨next, ranNext⟩ := Proxy.after_earlier past ran
    obtain ⟨task, foundNext, recording⟩ := acknowledged.recording ranNext
    obtain ⟨task, foundNow, -, more, log, progress⟩ :=
      recording.run (Proxy.reached_after ranNext) foundNext (Proxy.reaches_after past ranNext ran)
    obtain ⟨connected, cooled⟩ := connected_of_sent reached there also.sent
    have unlike (holds : (rconStops.stage task).holds = true)
        (differs : rconStops.stage task ≠ .connected) : False := by
      have one := one_holder reached foundNow there holds (by rw [connected]; rfl)
      subst one
      cases foundNow.symm.trans there
      exact differs connected
    rcases progress with
      acknowledged | ⟨reading, measured, -⟩ | ⟨recorded, since, member, time, now, order⟩
    · exact (unlike (by rw [acknowledged]; rfl) (by simp [acknowledged])).elim
    · exact (unlike (by rw [measured]; rfl) (by simp [measured])).elim
    · refine ⟨task, more, recorded, foundNow, by simpa using log, member, since, ?_⟩
      exact Nat.le_trans (Nat.add_le_add_right order _) (cooled time now)

end

/-- A stop waits for another to be over, and for the cooldown after it. -/
private def twoStops : List ProxyMove :=
  [.call (.updateStatus (some dummyStatus))] ++ goes 0 2 ++ [.call .stop, .call .stop] ++ goes 1 1 ++
    goes 2 1 ++ goes 1 4 ++ [.outside (.elapse QUIRK_RCON_GRACE_TIME)] ++ goes 1 9 ++
    [.outside (.elapse QUIRK_RCON_GRACE_TIME)] ++ goes 1 3 ++
    [.outside (.elapse (RCON_COOLDOWN - QUIRK_RCON_GRACE_TIME))] ++ goes 2 5 ++
    [.outside (.elapse QUIRK_RCON_GRACE_TIME)] ++ goes 2 2

private def rconEnabled : Config := { rcon := { enabled := true } }

private def sendsCommand (task : Task Op Op.Reply Entry) : Bool :=
  match task.next? with
  | some .rconCommand => true
  | _ => false

private theorem next_of_sendsCommand {task : Task Op Op.Reply Entry} (sends : sendsCommand task) :
    task.next? = some .rconCommand := by
  unfold sendsCommand at sends
  split at sends
  · assumption
  · cases sends

private theorem acknowledged_of_run {config : Config} {moves : List ProxyMove} {place index : Nat}
    (answered : moves[place]? = some (.run index true))
    (waits : ((Proxy.after config moves place).bind (·.tasks[index]?)).any sendsCommand) :
    ∃ command moment, Acknowledged config moves place index command moment := by
  obtain ⟨command, found, sends⟩ := (Option.any_eq_true _ _).mp waits
  obtain ⟨proxy, ran, here⟩ := Option.bind_eq_some_iff.mp found
  exact ⟨command, proxy.world.clock, ⟨proxy, ran, here, rfl⟩, next_of_sendsCommand sends, answered⟩

/-- Both of its commands are acknowledged, the second no earlier than the cooldown after
the first was recorded. -/
theorem rcon_stops_serialised_twice :
    ∃ (first second : Task Op Op.Reply Entry) (moment answered : Instant),
      Acknowledged rconEnabled twoStops 13 1 first moment ∧
      Acknowledged rconEnabled twoStops 33 2 second answered ∧
      ∃ recorded, moment ≤ recorded ∧ recorded + RCON_COOLDOWN ≤ answered := by
  have sent : ((Proxy.after rconEnabled twoStops 13).bind (·.tasks[1]?)).any sendsCommand := by decide
  have sentAfter : ((Proxy.after rconEnabled twoStops 33).bind (·.tasks[2]?)).any sendsCommand := by decide
  obtain ⟨first, moment, acknowledged⟩ :=
    acknowledged_of_run (rfl : twoStops[13]? = some (.run 1 true)) sent
  obtain ⟨second, answered, also⟩ :=
    acknowledged_of_run (rfl : twoStops[33]? = some (.run 2 true)) sentAfter
  refine ⟨first, second, moment, answered, acknowledged, also, ?_⟩
  obtain ⟨proxy, ran, there, rfl⟩ := also.waits
  obtain ⟨-, -, recorded, -, -, -, since, cooled⟩ := (rcon_stops_serialised rconEnabled twoStops).2.2
    13 33 1 2 first second moment _ (by omega) acknowledged also 33 (by omega) proxy ran there
  exact ⟨recorded, since, cooled⟩

end PlexPaper
