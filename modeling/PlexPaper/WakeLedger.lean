import PlexPaper.CrashVerdict
import PlexPaper.SingleProcess
import PlexPaper.TaskLedger

/-! How often the server is woken. Many clients may join a sleeping server at once, and the
probe, a crash and the boot start it as well; the compare-exchange of `start` lets one of
them through. Counted over a whole run, every process comes from a command task of its own,
every command task from a move out of `Stopped`, and between two of those the server has
fallen to `Stopped` again. -/
namespace PlexPaper
open Tasks Server

/-- The operation has moved the server out of `Stopped`. -/
def Op.rouses : (op : Op) → op.Reply → Bool
  | .swapState new, old => old = .stopped ∧ new ≠ .stopped
  | .compareExchange current new, .ok _ => current = .stopped ∧ new ≠ .stopped
  | _, _ => false

/-- The operation has moved the server to `Stopped`. -/
def Op.falls (op : Op) (reply : op.Reply) : Bool := op.moved reply = some .stopped

/-- The operation hands the server to a new command task. -/
def Op.orders : Op → Bool
  | .spawnServerTask => true
  | _ => false

/-- The operation has spawned a process. -/
def Op.spawned : (op : Op) → op.Reply → Bool
  | .spawnChild, .ok _ => true
  | _, _ => false

def Entry.isCommand : Entry → Bool
  | .invokeServerCmd => true
  | _ => false

theorem Entry.eq_of_isCommand {entry : Entry} (isCommand : entry.isCommand) : entry = .invokeServerCmd := by
  cases entry <;> first | rfl | cases isCommand

namespace Op

variable {op : Op}

theorem Calm.spawned (calm : op.Calm) (reply : op.Reply) : op.spawned reply = false := by
  cases op <;> first | rfl | exact calm.elim

theorem Updating.spawned (updating : op.Updating) (reply : op.Reply) : op.spawned reply = false := by
  cases op <;> first | rfl | exact updating.elim

theorem Calm.orders (calm : op.Calm) : op.orders = false := by
  cases op <;> first | rfl | exact calm.elim

theorem Updating.orders (updating : op.Updating) : op.orders = false := by
  cases op <;> first | rfl | exact updating.elim

end Op

namespace World

variable {world after : World} {op : Op} {succeeds : Bool} {reply : op.Reply}

/-- Whether the server is asleep, as a number. -/
def asleep (world : World) : Nat := if world.server.state = .stopped then 1 else 0

/-- An operation that falls puts a server to sleep that was not, one that wakes does the
opposite, and every other operation does neither. -/
theorem execute_asleep (executed : world.execute op succeeds = some (reply, after)) :
    after.asleep + (if op.rouses reply then 1 else 0) =
      world.asleep + if op.falls reply then 1 else 0 := by
  have state := execute_state executed
  have performed := perform_of_execute executed
  have still (op : Op) (reply : op.Reply) (wakes : op.rouses reply = false)
      (moved : op.moved reply = none) (same : after.server.state = world.server.state) :
      after.asleep + (if op.rouses reply then 1 else 0) =
        world.asleep + if op.falls reply then 1 else 0 := by
    simp [asleep, wakes, Op.falls, moved, same]
  cases op with
  | swapState new =>
    cases performed
    simp only [asleep, Op.rouses, Op.falls, Op.moved]
    grind
  | compareExchange current new =>
    simp only [perform] at performed
    split at performed
    · rename_i same
      cases performed
      simp only [asleep, Op.rouses, Op.falls, Op.moved, same]
      grind
    · cases performed
      exact still (.compareExchange current new) (.error _) rfl rfl rfl
  | _ => exact still _ reply rfl rfl state

/-- The processes are those that were spawned. -/
theorem execute_spawned (executed : world.execute op succeeds = some (reply, after)) :
    after.children.length = world.children.length + if op.spawned reply then 1 else 0 := by
  have children := execute_children executed
  have performed := perform_of_execute executed
  cases op with
  | spawnChild => cases succeeds <;> cases performed <;> simp [Op.spawned]
  | _ => rw [children]; rfl

end World

section

variable {config : Config} {condition : Proxy → ProxyMove → Prop} {proxy : Proxy}

/-- The moves out of `Stopped` and those back to it alternate. -/
theorem wakes_and_falls (reached : (lifecycle config).Reaches condition Proxy.boot proxy) :
    proxy.world.asleep + proxy.done.countP (fun done => done.1.rouses done.2) =
      1 + proxy.done.countP fun done => done.1.falls done.2 := by
  refine reached.balances World.asleep _ _ ?_ ?_
  · intro world event after acted
    rw [World.asleep, World.outside_server acted, World.asleep]
  · intro world op succeeds reply after executed
    exact World.execute_asleep executed

theorem length_children (reached : (lifecycle config).Reaches condition Proxy.boot proxy) :
    proxy.world.children.length = proxy.done.countP fun done => done.1.spawned done.2 := by
  have balanced := reached.balances (fun world => world.children.length)
    (fun done => done.1.spawned done.2) (fun _ => false)
    (fun world event after acted => World.outside_length acted) fun world op succeeds reply after executed => by
      simpa using World.execute_spawned executed
  simpa [Proxy.boot, System.initial] using balanced

theorem countP_commands (reached : (lifecycle config).Reaches condition Proxy.boot proxy) :
    proxy.tasks.countP (fun task => task.entry.isCommand) = proxy.done.countP fun done => done.1.orders := by
  refine reached.countP_spawned Entry.isCommand (fun done => done.1.orders) ?_ ?_
  · intro entry called
    cases entry <;> first | rfl | cases called
  · intro op reply
    cases op <;> rfl

/-- A command task spawns at most one process, and no other task does. -/
theorem countP_spawned_le (reached : (lifecycle config).Reaches condition Proxy.boot proxy)
    {task : Task Op Op.Reply Entry} (member : task ∈ proxy.tasks) :
    task.log.countP (fun done => done.1.spawned done.2) ≤ if task.entry.isCommand then 1 else 0 := by
  have within := Protocol.entries_relate (lifecycle_duties config)
    (fun entry log (duty : Duty) => log.countP (fun done : (op : Op) × op.Reply => done.1.spawned done.2) +
      (if duty = .ordered then 1 else 0) ≤ if entry.isCommand then 1 else 0)
    (fun entry => by cases entry <;> simp [Entry.isCommand]) ?_ reached task member
  · omega
  · intro entry log duty op reply permitted within
    rw [List.countP_append, List.countP_singleton]
    generalize log.countP _ = count at within ⊢
    generalize (if entry.isCommand then 1 else 0) = most at within ⊢
    change _ + _ + (if duty.advance op reply = .ordered then 1 else 0) ≤ _
    have advances := Duty.advances permitted reply
    generalize duty.advance op reply = next at advances
    cases advances with
    | keeps calm => simpa [calm.spawned reply] using within
    | updates updating _ => simpa [updating.spawned reply] using within
    | _ => simp [Op.spawned] at within ⊢; omega

/-- A task orders a command only after it has moved the server out of `Stopped`. -/
theorem countP_orders_le (reached : (lifecycle config).Reaches condition Proxy.boot proxy)
    {task : Task Op Op.Reply Entry} (member : task ∈ proxy.tasks) :
    task.log.countP (fun done => done.1.orders) ≤ task.log.countP fun done => done.1.rouses done.2 := by
  have within := Protocol.tasks_relate (lifecycle_duties config)
    (fun log (duty : Duty) => log.countP (fun done : (op : Op) × op.Reply => done.1.orders) +
      (if duty = .claimed then 1 else 0) ≤
        log.countP fun done : (op : Op) × op.Reply => done.1.rouses done.2)
    (fun entry => by cases entry <;> simp) ?_ reached task member
  · omega
  · intro log duty op reply permitted within
    rw [List.countP_append, List.countP_append, List.countP_singleton, List.countP_singleton]
    generalize log.countP _ = orders at within ⊢
    generalize log.countP _ = wakes at within ⊢
    change _ + _ + (if duty.advance op reply = .claimed then 1 else 0) ≤ _
    have advances := Duty.advances permitted reply
    generalize duty.advance op reply = next at advances
    cases advances with
    | @claims _ reply free moved =>
      have woken : Op.rouses (.compareExchange .stopped .starting) reply = true := by
        cases reply with
        | ok old => rfl
        | error _ => cases moved
      rcases free with rfl | rfl
      all_goals simp [Op.orders, woken] at within ⊢; omega
    | keeps calm =>
      simp only [calm.orders, Bool.false_eq_true, ↓reduceIte]
      omega
    | updates updating _ =>
      simp only [updating.orders, Bool.false_eq_true, ↓reduceIte]
      omega
    | _ => simp [Op.orders] at within ⊢; omega

/-- Every process has a command task of its own. -/
theorem length_children_le (reached : (lifecycle config).Reaches condition Proxy.boot proxy) :
    proxy.world.children.length ≤ proxy.tasks.countP fun task => task.entry.isCommand := by
  have counted : proxy.done.countP (fun done => done.1.spawned done.2) ≤
      proxy.done.countP (fun _ => false) + proxy.tasks.countP fun task => task.entry.isCommand :=
    Pool.countP_done_le fun task member => by simpa using countP_spawned_le reached member
  rw [length_children reached]
  simpa using counted

/-- However many start the server at once, every process has a command task of its own and
every command task a move out of `Stopped`, and there is no second one of those before the
server has fallen to `Stopped` again. -/
theorem one_process_each_sleep (reached : (lifecycle config).Reaches condition Proxy.boot proxy) :
    proxy.world.children.length ≤ proxy.tasks.countP (fun task => task.entry.isCommand) ∧
    proxy.tasks.countP (fun task => task.entry.isCommand) ≤
      proxy.done.countP (fun done => done.1.rouses done.2) ∧
    proxy.done.countP (fun done => done.1.rouses done.2) + proxy.world.asleep =
      1 + proxy.done.countP fun done => done.1.falls done.2 := by
  refine ⟨length_children_le reached, ?_, ?_⟩
  · have counted : proxy.done.countP (fun done => done.1.orders) ≤
        proxy.done.countP (fun done => done.1.rouses done.2) + proxy.tasks.countP fun _ => false :=
      Pool.countP_done_le fun task member => by simpa using countP_orders_le reached member
    rw [countP_commands reached]
    simpa using counted
  · rw [Nat.add_comm, wakes_and_falls reached]

end

/-- Three clients join at once, and all of their tasks return. -/
private def threeJoin : List ProxyMove :=
  [.call .start, .call .start, .call .start, .run 1 true, .run 0 true, .run 2 true] ++ goes 1 4 ++ goes 3 2

theorem one_process_each_sleep_three : ∃ proxy,
    (lifecycle {}).play (fun _ _ => True) Proxy.boot threeJoin = some proxy ∧
    (∀ task ∈ proxy.tasks, task.entry = .start → task.next?.isNone) ∧
    proxy.tasks.length = 4 ∧ proxy.world.children.length = 1 ∧ proxy.world.children.length ≤ 1 := by
  have joined : ((lifecycle {}).play (fun _ _ => True) Proxy.boot threeJoin).map (fun proxy =>
      decide ((∀ task ∈ proxy.tasks, task.entry = .start → task.next?.isNone) ∧
        proxy.tasks.length = 4 ∧ proxy.world.children.length = 1 ∧ proxy.world.asleep = 0 ∧
        proxy.done.countP (fun done => done.1.falls done.2) = 0)) = some true := by decide
  obtain ⟨proxy, played, facts⟩ := Option.map_eq_some_iff.mp joined
  obtain ⟨returned, tasks, children, awake, falls⟩ := of_decide_eq_true facts
  obtain ⟨processes, commands, wakes⟩ := one_process_each_sleep (System.play_reaches played)
  exact ⟨proxy, played, returned, tasks, children, by omega⟩

/-! ## What the server is woken for -/

/-- A process has ended with a failure. -/
def Op.crashed : (op : Op) → op.Reply → Bool
  | .waitChild _, .ok status => !status.regular
  | _, _ => false

/-- Whether a task may order a command: a start may, once, and so may the command task of
a process that has crashed, where it is configured to. -/
abbrev warrants (config : Config) : Protocol Op Op.Reply Entry where
  Stage := Bool
  advance warranted op reply := match op with
    | .spawnServerTask => false
    | .waitChild pid => config.server.wakeOnCrash && (Op.waitChild pid).crashed reply
    | _ => warranted
  permits warranted op := op.orders → warranted
  enter entry := entry = .start

section

variable {config : Config} {warranted : Bool}

private theorem warrants_quiet (op : Op) (other : op.orders = false) (unwaited : op.awaited? = none) :
    (warrants config).QuietAt warranted op := by
  refine ⟨fun orders => absurd orders (by simp [other]), fun reply => ?_⟩
  cases op with
  | spawnServerTask => cases other
  | waitChild => cases unwaited
  | _ => rfl

private theorem warrants_background :
    Undisturbed (warrants config).toDiscipline warranted := by
  intro op background
  cases op with
  | spawnServerTask | waitChild => exact background.elim
  | _ => exact warrants_quiet _ rfl rfl

private theorem warrants_bookkept :
    Bookkept (warrants config).toDiscipline warranted := by
  intro op bookkeeping
  cases op with
  | spawnServerTask | waitChild => exact bookkeeping.elim
  | _ => exact warrants_quiet _ rfl rfl

private theorem warrants_update (current : Option State) (new : State) :
    UpdateKeeps (warrants config).toDiscipline warranted config current new := by
  have arming : ∀ value, (warrants config).QuietAt warranted (.write .killAt value) :=
    fun value => warrants_quiet _ rfl rfl
  have sending : (warrants config).QuietAt warranted (.sendState new) := warrants_quiet _ rfl rfl
  cases current with
  | none =>
    exact updateStateFrom_none_keeps warrants_background.unbothered sending arming
      (fun _ => warrants_bookkept) (warrants_quiet _ rfl rfl)
  | some current =>
    exact updateStateFrom_some_keeps warrants_background.unbothered sending arming
      (fun _ => warrants_bookkept) (warrants_quiet _ rfl rfl)

/-- A start uses up the warrant it has. -/
private theorem start_warranted :
    (start config).Follows (warrants config).toDiscipline true fun _ _ => True :=
  start_follows (d := (warrants config).toDiscipline) true true
    ((warrants_update (some .stopped) .starting).mono fun won ended same => by
      cases won
      · trivial
      · exact same)
    (unfreezeServerSignal_follows (d := (warrants config).toDiscipline) warrants_background.unbothered
      (fun pid => warrants_quiet (.sendSignal pid .sigcont) rfl rfl) (warrants_update _ _)
      (warrants_update _ _))
    trivial ⟨fun _ => rfl, trivial⟩

/-- The command task only starts the server again where its process has crashed. -/
private theorem command_warranted :
    (invokeServerCmd config).Follows (warrants config).toDiscipline false fun _ _ => True := by
  have quiet : ∀ (warranted : Bool) (op : Op), op.orders = false → op.awaited? = none →
      (perform op).Keeps (warrants config).toDiscipline warranted :=
    fun warranted op other unwaited => .perform (warrants_quiet op other unwaited)
  have cleaned (warranted crashed : Bool)
      (restarts : (crashed && config.server.wakeOnCrash) = true → warranted = true) : (do
      perform (.write .pid none)
      Server.sleep SERVER_QUIT_COOLDOWN
      let _ ← Server.updateState config .stopped
      if crashed && config.server.wakeOnCrash then
        let _ ← Server.start config
      return .ok () : ServerM (Except Unit Unit)).Follows (warrants config).toDiscipline warranted
        fun _ _ => True := by
    refine Program.follows_bind.mpr ((quiet warranted _ rfl rfl).follows fun _ => ?_)
    refine Program.follows_bind.mpr ((sleep_keeps warrants_background.unbothered _).follows fun _ => ?_)
    refine Program.follows_bind.mpr ((warrants_update none .stopped).follows fun _ => ?_)
    dsimp only
    split
    · rename_i restarting
      rw [restarts restarting]
      exact Program.follows_bind.mpr (start_warranted.mono fun _ _ _ => trivial)
    · trivial
  refine Program.follows_bind.mpr ((quiet false .spawnChild rfl rfl).follows fun reply => ?_)
  cases reply with
  | error _ => trivial
  | ok pid =>
    refine Program.follows_bind.mpr ((quiet false _ rfl rfl).follows fun _ => ?_)
    refine Program.follows_bind.mpr ⟨fun orders => (by cases orders), fun reply => ?_⟩
    change Program.Follows (warrants config).toDiscipline _
      (config.server.wakeOnCrash && (Op.waitChild pid).crashed reply) _
    cases reply with
    | error _ => exact cleaned _ false (by simp)
    | ok status =>
      refine Program.follows_pure.mpr ?_
      dsimp only
      by_cases success : status.success = true
      · rw [if_pos success]
        exact cleaned _ false (by simp)
      rw [if_neg success]
      by_cases allowed : (status.code.map fun code => ALLOWED_EXIT_CODES.contains code).getD false
      · rw [if_pos allowed]
        exact cleaned _ false (by simp)
      · have crashed : (Op.waitChild pid).crashed (.ok status) = true := by
          simp only [Op.crashed, ExitStatus.regular, success, allowed, Bool.or_self, Bool.not_false]
        rw [if_neg allowed, crashed, Bool.and_true]
        refine Program.follows_bind.mpr ((quiet _ .loadState rfl rfl).follows fun state => ?_)
        exact cleaned _ _ fun restarting => (Bool.and_eq_true_iff.mp restarting).2

/-- Every task of the proxy has a warrant for the command it orders. -/
theorem lifecycle_warrants (config : Config) : (lifecycle config).Obeys (warrants config) := by
  have background : Unbothered (warrants config).toDiscipline false := warrants_background.unbothered
  have stopping : StopUpdates (warrants config).toDiscipline false config :=
    { rcon := warrants_update _ _
      starting := warrants_update _ _
      started := warrants_update _ _
      frozen := fun _ => ⟨warrants_update _ _, warrants_update _ _⟩ }
  have stops := stop_keeps warrants_background stopping
  intro entry _
  cases entry with
  | start => exact Program.follows_bind.mpr (start_warranted.mono fun _ _ _ => trivial)
  | stop => exact (stops.bind fun _ => .pure).follows fun _ => trivial
  | updateStatus status =>
    exact (updateStatus_keeps background warrants_bookkept (warrants_update _ _) (warrants_update _ _)
      status).follows fun _ => trivial
  | monitor fetched pinged =>
    exact (monitorIteration_keeps background warrants_bookkept (warrants_update _ _)
      (warrants_update _ _) stops fetched pinged).follows fun _ => trivial
  | interrupt => exact (interruptIteration_keeps background stops).follows fun _ => trivial
  | invokeServerCmd => exact Program.follows_bind.mpr (command_warranted.mono fun _ _ _ => trivial)

variable {condition : Proxy → ProxyMove → Prop} {proxy : Proxy}

/-- A task orders no more commands than it has warrants for. -/
theorem countP_orders_le_warrants (reached : (lifecycle config).Reaches condition Proxy.boot proxy)
    {task : Task Op Op.Reply Entry} (member : task ∈ proxy.tasks) :
    task.log.countP (fun done => done.1.orders) ≤
      task.log.countP (fun done => config.server.wakeOnCrash && done.1.crashed done.2) +
        if task.entry = .start then 1 else 0 := by
  have within := Protocol.entries_relate (lifecycle_warrants config)
    (fun entry log (warranted : Bool) => log.countP (fun done : (op : Op) × op.Reply => done.1.orders) +
      (if warranted then 1 else 0) ≤
        log.countP (fun done : (op : Op) × op.Reply =>
          config.server.wakeOnCrash && done.1.crashed done.2) + if entry = .start then 1 else 0)
    (fun entry => by simp) ?_ reached task member
  · omega
  · intro entry log warranted op reply permitted within
    rw [List.countP_append, List.countP_append, List.countP_singleton, List.countP_singleton]
    generalize log.countP _ = orders at within ⊢
    generalize log.countP _ = crashes at within ⊢
    generalize (if entry = .start then 1 else 0) = starts at within ⊢
    cases op with
    | spawnServerTask =>
      cases permitted rfl
      simpa [Op.orders, Op.crashed] using within
    | waitChild pid =>
      simp only [Op.orders, Bool.false_eq_true, ↓reduceIte]
      omega
    | _ => simpa [Op.orders, Op.crashed] using within

/-- Every command is ordered for a start that was called, or for a crash. -/
theorem countP_orders_le_causes (reached : (lifecycle config).Reaches condition Proxy.boot proxy) :
    proxy.done.countP (fun done => done.1.orders) ≤
      proxy.done.countP (fun done => config.server.wakeOnCrash && done.1.crashed done.2) +
        proxy.tasks.countP fun task => task.entry = .start :=
  Pool.countP_done_le fun task member => by simpa using countP_orders_le_warrants reached member

/-- Every process the proxy runs is run for a reason: one for each call of `start` at most,
and one for each process that has crashed where the server is to be woken then. -/
theorem wakes_have_causes (reached : (lifecycle config).Reaches condition Proxy.boot proxy) :
    proxy.world.children.length ≤
      proxy.tasks.countP (fun task => task.entry = .start) +
        proxy.done.countP fun done => config.server.wakeOnCrash && done.1.crashed done.2 := by
  have processes := length_children_le reached
  rw [countP_commands reached] at processes
  have caused := countP_orders_le_causes reached
  omega

end

/-- A server that is online crashes, and the command task starts it again. -/
private def crashesOnce : List ProxyMove :=
  [.call .start] ++ goes 0 5 ++ goes 1 2 ++ [.call (.monitor (.ok dummyStatus) (.ok ()))] ++ goes 2 14 ++
    [.outside (.childExits 0 (.exited 1))] ++ goes 1 4 ++ [.outside (.elapse SERVER_QUIT_COOLDOWN)] ++
    goes 1 9 ++ goes 3 2

theorem wakes_have_causes_crash : ∃ proxy,
    (lifecycle { server := { wakeOnCrash := true } }).play (fun _ _ => True) Proxy.boot crashesOnce =
      some proxy ∧
    proxy.world.children = [some (.exited 1), none] ∧ proxy.world.children.length ≤ 1 + 1 := by
  have crashed : ((lifecycle { server := { wakeOnCrash := true } }).play (fun _ _ => True) Proxy.boot
      crashesOnce).map (fun proxy =>
        decide (proxy.world.children = [some (.exited 1), none] ∧
          proxy.tasks.countP (fun task => task.entry = .start) = 1 ∧
          proxy.done.countP (fun done => true && done.1.crashed done.2) = 1)) = some true := by decide
  obtain ⟨proxy, played, facts⟩ := Option.map_eq_some_iff.mp crashed
  obtain ⟨children, starts, crashes⟩ := of_decide_eq_true facts
  have caused := wakes_have_causes (System.play_reaches played)
  rw [starts] at caused
  exact ⟨proxy, played, children, crashes ▸ caused⟩

end PlexPaper
