import PlexPaper.Interference
import PlexPaper.LastDone
import PlexPaper.LifecyclePrograms

/-! The edges of the lifecycle graph under every interleaving. Compare-exchanges
only ever take an intended edge. The two unconditional swaps act on a state that
was loaded earlier: `update_status` swaps in `Started` after a load, and
`stop_server_rcon` swaps in `Stopping` several awaits after its caller's load.
What others do to the state in between decides whether the swap leaves the graph. -/
namespace PlexPaper
open Tasks Server

/-- The edges the life cycle must never take. -/
def Illegal (before after : State) : Prop :=
  (before = .stopped ∧ after = .stopping) ∨ (before = .stopping ∧ after = .started) ∨
    (before = .started ∧ after = .starting)

/-- The state changes that occur in the source: every compare-exchange is along
an intended edge, and `Starting` is never swapped in. -/
def IntendedChange : Op → Prop
  | .compareExchange current new =>
    (current, new) ∈ [(.stopped, .starting), (.stopping, .starting), (.starting, .stopping),
      (.started, .stopping), (.starting, .stopped), (.started, State.stopped)]
  | .swapState new => new ≠ .starting
  | _ => True

/-- An intended change takes an illegal edge only as a swap. -/
private theorem illegal_iff_swap {op : Op} (intended : IntendedChange op) (state : State) :
    Illegal state (op.newState state) ↔
      (op = .swapState .started ∧ state = .stopping) ∨ (op = .swapState .stopping ∧ state = .stopped) := by
  cases op with
  | swapState new => cases new <;> cases state <;> simp_all [Illegal, Op.newState, IntendedChange]
  | compareExchange current new =>
    cases current <;> cases new <;> cases state <;>
      simp_all [Illegal, Op.newState, IntendedChange]
  | _ => cases state <;> simp [Illegal, Op.newState]

/-! ## What a task has loaded -/

def Op.loads : Op → Bool
  | .loadState => true
  | _ => false

/-- What a task has loaded of the state and may still act on: the state itself
right after the load, then the stop over RCON begun because it was `Started`. -/
inductive Decision where
  | idle
  | loaded (state : State)
  | rcon
  deriving DecidableEq

namespace Decision

def advance (decision : Decision) (op : Op) (reply : op.Reply) : Decision :=
  match decision, op, reply with
  | _, .loadState, state => .loaded state
  | _, .acquireRcon, _ => .rcon
  | _, .releaseRcon, _ | _, .swapState _, _ | _, .compareExchange _ _, _ => .idle
  | .rcon, _, _ => .rcon
  | _, _, _ => .idle

/-- `update_status` swaps in `Started` right after its load, `stop_server_rcon`
swaps in `Stopping` under the permit it took right after that of `stop`. -/
def permits : Decision → Op → Prop
  | decision, .swapState .started => decision = .loaded .stopped ∨ decision = .loaded .starting
  | decision, .swapState .stopping => decision = .rcon
  | decision, .acquireRcon => decision = .loaded .started
  | _, op => IntendedChange op

/-- The state the task goes by. -/
def reading : Decision → Option State
  | .idle => none
  | .loaded state => some state
  | .rcon => some .started

variable {decision : Decision} {op : Op} {reply : op.Reply}

theorem intended_of_permits (permitted : decision.permits op) : IntendedChange op := by
  cases op with
  | swapState new => cases new <;> first | exact permitted | simp [IntendedChange]
  | compareExchange => exact permitted
  | _ => trivial

/-- Only a load is right behind a load. -/
theorem advance_loaded {state : State} (loaded : decision.advance op reply = .loaded state) :
    (⟨op, reply⟩ : (op : Op) × op.Reply) = ⟨.loadState, state⟩ := by
  cases op with
  | loadState => cases decision <;> (cases loaded; rfl)
  | _ => cases decision <;> cases loaded

/-- A stop over RCON is begun right behind the load, or goes on. Neither changes the state. -/
theorem advance_rcon (permitted : decision.permits op) (rcon : decision.advance op reply = .rcon) :
    op.loads = false ∧ (∀ state, op.newState state = state) ∧
      (op = .acquireRcon ∧ decision = .loaded .started ∨ decision = .rcon) := by
  cases op with
  | acquireRcon => exact ⟨rfl, fun _ => rfl, .inl ⟨rfl, permitted⟩⟩
  | loadState | releaseRcon | swapState | compareExchange => cases decision <;> cases rcon
  | _ =>
    cases decision with
    | rcon => exact ⟨rfl, fun _ => rfl, .inr rfl⟩
    | idle | loaded => cases rcon

/-- A task goes by what it has just loaded, or by what it went by before. -/
theorem reading_advance (permitted : decision.permits op) {state : State}
    (reads : (decision.advance op reply).reading = some state) :
    (⟨op, reply⟩ : (op : Op) × op.Reply) = ⟨.loadState, state⟩ ∨
      op.loads = false ∧ (∀ state, op.newState state = state) ∧ decision.reading = some state := by
  cases advanced : decision.advance op reply with
  | idle => simp [advanced, reading] at reads
  | loaded loaded =>
    rw [advanced] at reads
    cases reads
    exact .inl (advance_loaded advanced)
  | rcon =>
    rw [advanced] at reads
    cases reads
    obtain ⟨other, still, ⟨-, rfl⟩ | rfl⟩ := advance_rcon permitted advanced
    · exact .inr ⟨other, still, rfl⟩
    · exact .inr ⟨other, still, rfl⟩

end Decision

/-- Every task starts without having loaded anything. -/
abbrev decisions : Protocol Op Op.Reply Entry where
  Stage := Decision
  advance := Decision.advance
  permits := Decision.permits
  enter _ := .idle

/-! ## The source keeps to it -/

section

variable {config : Config}

/-- The operations that are no decision. -/
private abbrev Calm (op : Op) : Prop := ∀ decision : Decision, decision.permits op

private theorem calm_others {op : Op} (other : ¬ op.Updating) (apart : ¬ op.OverRcon) : Calm op := by
  intro decision
  cases op with
  | swapState | compareExchange => exact absurd trivial other
  | acquireRcon => exact absurd trivial apart
  | _ => trivial

private abbrev calmly : Discipline Op Op.Reply := only Calm

private theorem calm_quiet {op : Op} (calm : Calm op) : calmly.QuietAt () op :=
  ⟨calm, fun _ => rfl⟩

private theorem calm_background : Unbothered calmly () :=
  fun _ background apart => calm_quiet (calm_others background.not_updating apart)

private theorem calm_bookkept : Bookkept calmly () :=
  fun _ bookkeeping => calm_quiet (calm_others bookkeeping.not_updating bookkeeping.not_overRcon)

private theorem calm_arming (value : Option Instant) : calmly.QuietAt () (.write .killAt value) :=
  calm_quiet fun _ => trivial

/-- What makes no decision keeps to the order wherever it is begun. -/
private theorem decides_of_calm {α : Type} {program : ServerM α} (calm : program.Keeps calmly ()) :
    program.Anywhere decisions.toDiscipline := by
  induction program with
  | pure value => exact fun _ => trivial
  | request op next ih => exact fun decision => ⟨calm.1 decision, fun reply => ih reply (calm.2 reply) _⟩

private theorem calm_settle (new : State) : (settle config new).Keeps calmly () :=
  settle_keeps calm_background (calm_quiet fun _ => trivial) calm_arming fun _ => calm_bookkept

/-- A compare-exchange along an intended edge is no decision. -/
private theorem calm_exchange {current new : State}
    (intended : IntendedChange (.compareExchange current new)) :
    UpdateKeeps calmly () config (some current) new :=
  updateStateFrom_some_keeps calm_background (calm_quiet fun _ => trivial) calm_arming
    (fun _ => calm_bookkept) (calm_quiet fun _ => intended)

private theorem calm_offline : UpdateKeeps calmly () config none .stopped :=
  updateStateFrom_none_keeps calm_background (calm_quiet fun _ => trivial) calm_arming nofun
    (calm_quiet fun _ => by simp [Decision.permits, IntendedChange])

/-- An update by a swap makes one decision. -/
private theorem swap_decides {decision : Decision} {new : State}
    (permitted : decision.permits (.swapState new)) :
    (updateState config new).Follows decisions.toDiscipline decision fun _ _ => True :=
  updateStateFrom_none_follows permitted (fun _ _ => trivial) fun _ _ => decides_of_calm (calm_settle new) _

private theorem updateStatus_decides (status : Option ServerStatus) :
    (updateStatus config status).Anywhere decisions.toDiscipline := by
  intro decision
  refine Program.follows_bind.mpr ⟨trivial, fun state => ?_⟩
  cases status with
  | none =>
    cases state with
    | started => exact decides_of_calm (calm_offline.bind fun _ => .pure) _
    | stopped | starting | stopping => trivial
  | some status =>
    have received := decides_of_calm (receive_keeps calm_background calm_bookkept status)
    have online {decision : Decision}
        (offline : decision = .loaded .stopped ∨ decision = .loaded .starting) :
        (updateState config .started).Follows decisions.toDiscipline decision fun _ _ => True :=
      swap_decides offline
    cases state with
    | stopped => exact (online (.inl rfl)).bind_anywhere fun _ => received
    | starting => exact (online (.inr rfl)).bind_anywhere fun _ => received
    | started | stopping => exact received _

/-- `stop_server_rcon` goes by its caller's load up to its swap. -/
private theorem stopServerRcon_decides :
    (stopServerRcon config).Follows decisions.toDiscipline (.loaded .started) fun _ _ => True := by
  have quiet {op : Op} (calm : Calm op) (still : ∀ reply, Decision.rcon.advance op reply = .rcon) :
      (perform op).Keeps decisions.toDiscipline .rcon := .perform ⟨calm _, still⟩
  have slept : (sleep QUIRK_RCON_GRACE_TIME).Keeps decisions.toDiscipline .rcon :=
    .bind (quiet (fun _ => trivial) fun _ => rfl) fun _ => quiet (fun _ => trivial) fun _ => rfl
  have released : (do perform .releaseRcon; return false : ServerM Bool).Anywhere decisions.toDiscipline :=
    fun _ => ⟨trivial, fun _ => trivial⟩
  have closed : (do
      sleep QUIRK_RCON_GRACE_TIME
      perform .rconClose
      perform .releaseRcon
      return true : ServerM Bool).Anywhere decisions.toDiscipline :=
    decides_of_calm (.bind (sleep_keeps calm_background _) fun _ =>
      .bind (.perform (calm_quiet fun _ => trivial)) fun _ =>
      .bind (.perform (calm_quiet fun _ => trivial)) fun _ => .pure)
  have stopping : (updateState config .stopping).Follows decisions.toDiscipline .rcon fun _ _ => True :=
    swap_decides rfl
  have session (cooledDown : Bool) : (do
      if !cooledDown then
        perform .releaseRcon
        return false
      if !(← perform .rconConnect) then
        perform .releaseRcon
        return false
      sleep QUIRK_RCON_GRACE_TIME
      if !(← perform .rconCommand) then
        perform .rconClose
        perform .releaseRcon
        return false
      perform (.write .rconLastStop (some (← perform .now)))
      let _ ← updateState config .stopping
      sleep QUIRK_RCON_GRACE_TIME
      perform .rconClose
      perform .releaseRcon
      return true : ServerM Bool).Follows decisions.toDiscipline .rcon fun _ _ => True := by
    cases cooledDown with
    | false => exact released _
    | true =>
      refine Program.follows_bind.mpr ⟨trivial, fun connected => ?_⟩
      cases connected with
      | false => exact released _
      | true =>
        refine Program.follows_bind.mpr (slept.follows fun _ => ⟨trivial, fun acknowledged => ?_⟩)
        cases acknowledged with
        | false => exact ⟨trivial, fun _ => released _⟩
        | true =>
          refine ⟨trivial, fun now => ⟨trivial, fun _ => ?_⟩⟩
          exact stopping.bind_anywhere fun _ => closed
  unfold stopServerRcon
  split
  · trivial
  · refine ⟨rfl, fun _ => ⟨trivial, fun last => ?_⟩⟩
    cases last with
    | none => exact session true
    | some last => exact ⟨trivial, fun now => session _⟩

private theorem stop_decides : (stop config).Anywhere decisions.toDiscipline := by
  have intended {current new : State} (edge : IntendedChange (.compareExchange current new)) :=
    @calm_exchange config current new edge
  have signalled : (do
      if ← stopServerSignal config then
        return true
      return false : ServerM Bool).Anywhere decisions.toDiscipline :=
    decides_of_calm (.bind (stopServerSignal_keeps calm_background (intended (by simp [IntendedChange]))
      (intended (by simp [IntendedChange]))) fun _ => .ite (fun _ => .pure) fun _ => .pure)
  have running : (do
      if (← perform .loadState) = .started then
        if ← stopServerRcon config then
          return true
      if ← stopServerSignal config then
        return true
      return false : ServerM Bool).Anywhere decisions.toDiscipline := by
    refine fun decision => Program.follows_bind.mpr ⟨trivial, fun state => ?_⟩
    cases state with
    | started =>
      exact stopServerRcon_decides.bind_anywhere fun _ => .ite (fun _ => .pure) fun _ => signalled
    | stopped | starting | stopping => exact signalled _
  refine .ite (fun _ => ?_) fun _ => running
  have frozen : (freezeServerSignal config).Keeps calmly () :=
    freezeServerSignal_keeps calm_background (intended (by simp [IntendedChange]))
      (intended (by simp [IntendedChange]))
  exact .bind (decides_of_calm frozen) fun _ => .ite (fun _ => .pure) fun _ => running

private theorem calm_start : (start config).Keeps calmly () :=
  start_keeps calm_background (calm_exchange (by simp [IntendedChange]))
    (calm_exchange (by simp [IntendedChange])) (fun _ => calm_quiet fun _ => trivial)
    (calm_quiet fun _ => trivial)

private theorem monitorIteration_decides (fetched : Except Unit ServerStatus) (pinged : Except Unit Unit) :
    (monitorIteration config fetched pinged).Anywhere decisions.toDiscipline := by
  have killing : (do
      if ← shouldKill then
        let _ ← forceKill : ServerM Unit).Anywhere decisions.toDiscipline :=
    decides_of_calm (.bind (shouldKill_keeps calm_background) fun _ =>
      .ite (fun _ => .bind (forceKill_keeps calm_background) fun _ => .pure) fun _ => .pure)
  have handled : (do
      if ← shouldSleep config then
        let _ ← stop config
      if ← shouldKill then
        let _ ← forceKill : ServerM Unit).Anywhere decisions.toDiscipline :=
    .bind (decides_of_calm (shouldSleep_keeps calm_background)) fun _ =>
      .ite (fun _ => .bind stop_decides fun _ => killing) fun _ => killing
  refine .bind (decides_of_calm (pollServer_keeps calm_background fetched pinged)) fun polled => ?_
  rcases polled with _ | (_ | status)
  · exact .bind (updateStatus_decides none) fun _ => handled
  · exact handled
  · exact .bind (updateStatus_decides (some status)) fun _ => handled

private theorem interruptIteration_decides : (interruptIteration config).Anywhere decisions.toDiscipline := by
  have stopping : (do
      let stopping ← stop config
      if !stopping then
        perform .quit : ServerM Unit).Anywhere decisions.toDiscipline :=
    .bind stop_decides fun _ => .ite (fun _ => .perform fun _ => trivial) fun _ => .pure
  exact .bind (.perform fun _ => trivial) fun _ =>
    .ite (fun _ => .bind (.perform fun _ => trivial) fun _ => stopping) fun _ => stopping

private theorem calm_command : (invokeServerCmd config).Keeps calmly () := by
  have calm {op : Op} (other : ¬ op.Updating) (apart : ¬ op.OverRcon) : calmly.QuietAt () op :=
    calm_quiet (calm_others other apart)
  exact invokeServerCmd_keeps calm_background (calm id id) (fun _ => calm id id) (fun _ => calm id id)
    calm_offline calm_start

/-- Every task of the proxy keeps to its decisions. -/
theorem lifecycle_decides (config : Config) : (lifecycle config).Obeys decisions := by
  intro entry _
  cases entry with
  | start => exact decides_of_calm (calm_start.bind fun _ => .pure) _
  | stop => exact stop_decides.bind (fun _ => .pure) _
  | updateStatus status => exact updateStatus_decides status _
  | monitor fetched pinged => exact monitorIteration_decides fetched pinged _
  | interrupt => exact interruptIteration_decides _
  | invokeServerCmd => exact decides_of_calm (calm_command.bind fun _ => .pure) _

end

/-! ## What others do in between -/

/-- What others have last made of the state since each task last loaded it, if
they have changed it. -/
def sinceLoad (since : Nat → Option State) (before : Proxy) (move : ProxyMove) (after : Proxy) :
    Nat → Option State := fun index =>
  if move.task? = some index then
    if (before.turn? move).any (·.op.loads) then none else since index
  else if after.world.server.state = before.world.server.state then since index
  else some after.world.server.state

/-- A swap of a task whose load others have outdated: `update_status` is to swap
in `Started` where they have last changed the state to `Stopping`, or
`stop_server_rcon` to swap in `Stopping` where they have to `Stopped`. -/
def Outdated (since : Nat → Option State) (proxy : Proxy) (move : ProxyMove) : Prop :=
  ∃ index ∈ move.task?, ∃ turn ∈ proxy.turn? move,
    (turn.op = .swapState .started ∧ since index = some .stopping) ∨
      (turn.op = .swapState .stopping ∧ since index = some .stopped)

/-- Of every task that goes by a state it has loaded, the state is still that,
or what others have last made of it since. -/
private def Noted (since : Nat → Option State) (proxy : Proxy) : Prop :=
  ∀ index task, proxy.tasks[index]? = some task → ∀ state ∈ (decisions.stage task).reading,
    proxy.world.server.state = (since index).getD state

section

variable {config : Config} {before after : Proxy} {move : ProxyMove}

private theorem noted_step {since : Nat → Option State}
    (reached : (lifecycle config).Reaches (fun _ _ => True) Proxy.boot before) (noted : Noted since before)
    (stepped : (lifecycle config).step before move = some after) :
    Noted (sinceLoad since before move after) after := by
  intro index task found state reads
  rcases System.step_found stepped found with
    ⟨there, apart⟩ | fresh | ⟨answer, old, op, next, reply, rfl, there, waiting, executed, rfl⟩
  · have held := noted index task there state reads
    simp only [sinceLoad, apart, ↓reduceIte]
    split
    · rename_i same
      exact same.trans held
    · rfl
  · simp [Protocol.stage, fresh, Decision.reading] at reads
  · have permitted := (Protocol.tasks_follow (lifecycle_decides config) reached old
      (List.mem_of_getElem? there)).permits waiting
    have waits : old.next? = some op := by simp [Task.next?, waiting, Program.next?]
    rw [Protocol.stage_proceed] at reads
    simp only [sinceLoad, Move.task?, ↓reduceIte, Proxy.turn?_run there waits, Option.any_some]
    rcases Decision.reading_advance permitted reads with loaded | ⟨other, still, before⟩
    · cases loaded
      rw [World.execute_state executed, World.load_reply executed]
      simp [Op.loads, Op.newState]
    · rw [if_neg (by simp [other]), World.execute_state executed, still]
      exact noted index old there state before

/-- A step is along an illegal edge exactly where it swaps on an outdated load. -/
private theorem illegal_step_iff {since : Nat → Option State}
    (reached : (lifecycle config).Reaches (fun _ _ => True) Proxy.boot before) (noted : Noted since before)
    (stepped : (lifecycle config).step before move = some after) :
    Illegal before.world.server.state after.world.server.state ↔ Outdated since before move := by
  cases move with
  | call entry =>
    simp only [System.step] at stepped
    split at stepped
    · cases stepped
      cases before.world.server.state <;> simp [Illegal, Outdated, Proxy.turn?]
    · cases stepped
  | outside event =>
    obtain ⟨world, acted, rfl⟩ := Option.map_eq_some_iff.mp stepped
    have same : world.server = before.world.server := World.outside_server acted
    cases h : before.world.server.state <;> simp [Illegal, Outdated, Proxy.turn?, same, h]
  | run index answer =>
    obtain ⟨task, op, next, reply, world, found, waiting, executed, rfl⟩ := System.step_run stepped
    have onTrack := Protocol.tasks_follow (lifecycle_decides config) reached task
      (List.mem_of_getElem? found)
    have permitted : (decisions.stage task).permits op := onTrack.permits waiting
    have pending : task.next? = some op := by rw [Task.next?, waiting]; rfl
    have outdated_iff : Outdated since before (.run index answer) ↔
        (op = .swapState .started ∧ since index = some .stopping) ∨
          (op = .swapState .stopping ∧ since index = some .stopped) := by
      simp [Outdated, Move.task?, Proxy.turn?_run found pending]
    have follows {loaded last : State} (goes : (decisions.stage task).reading = some loaded)
        (other : loaded ≠ last) : before.world.server.state = last ↔ since index = some last := by
      rw [noted index task found loaded goes]
      cases since index <;> simp [other]
    rw [World.execute_state executed, illegal_iff_swap (Decision.intended_of_permits permitted), outdated_iff]
    refine or_congr (and_congr_right ?_) (and_congr_right ?_)
    · rintro rfl
      rcases permitted with stopped | starting
      · exact follows (congrArg Decision.reading stopped) (by decide)
      · exact follows (congrArg Decision.reading starting) (by decide)
    · rintro rfl
      have goes : decisions.stage task = .rcon := permitted
      exact follows (congrArg Decision.reading goes) (by decide)

end

/-- The state that a task is to swap in because of the state it has loaded:
`update_status` between its load and its swap, and `stop` between its load and
the swap of `stop_server_rcon`, unless the attempt ends before. -/
def decided (task : Task Op Op.Reply Entry) : Option State :=
  match decisions.stage task, task.next? with
  | .rcon, _ | _, some .acquireRcon => some .stopping
  | _, some (.swapState .started) => some .started
  | _, _ => none

/-- Another task than the one that moves is to swap in this state. -/
def OtherDecided (proxy : Proxy) (move : ProxyMove) (new : State) : Prop :=
  ∃ other ∈ proxy.tasks.zipIdx, move.task? ≠ some other.2 ∧ decided other.1 = some new
  deriving Decidable

/-- A change of the state that outdates the load of another task: to `Stopping`
while an `update_status` is between its load and its swap to `Started`, or to
`Stopped` while a stop over RCON is between its load and its swap to `Stopping`. -/
def Outdates (proxy : Proxy) (move : ProxyMove) : Prop :=
  ∃ turn ∈ proxy.turn? move,
    turn.op.newState proxy.world.server.state ≠ proxy.world.server.state ∧
    ((turn.op.newState proxy.world.server.state = .stopping ∧ OtherDecided proxy move .started) ∨
      (turn.op.newState proxy.world.server.state = .stopped ∧ OtherDecided proxy move .stopping))
  deriving Decidable

/-- No task is to take an illegal edge. -/
private def Standing (proxy : Proxy) : Prop :=
  ∀ task ∈ proxy.tasks, ∀ new ∈ decided task, ¬ Illegal proxy.world.server.state new

private theorem decided_cases {task : Task Op Op.Reply Entry} (onTrack : decisions.OnTrack task) {new : State}
    (heads : decided task = some new) :
    (new = .started ∧ (decisions.stage task = .loaded .stopped ∨ decisions.stage task = .loaded .starting)) ∨
      (new = .stopping ∧ (decisions.stage task = .loaded .started ∨ decisions.stage task = .rcon)) := by
  unfold decided at heads
  split at heads
  · rename_i rcon
    cases heads
    exact .inr ⟨rfl, .inr rcon⟩
  · rename_i waits _
    cases heads
    exact .inr ⟨rfl, .inl (onTrack.permits_next waits)⟩
  · rename_i waits _
    cases heads
    exact .inl ⟨rfl, onTrack.permits_next waits⟩
  · cases heads

section

variable {config : Config} {condition : Proxy → ProxyMove → Prop} {before after : Proxy}
  {move : ProxyMove}

/-- What a task decides by its own step, it decides on the state as it is. -/
private theorem standing_own {old : Task Op Op.Reply Entry} {op : Op} {next : op.Reply → ServerM Unit}
    {reply : op.Reply} {world after : World} {succeeds : Bool} (permitted : (decisions.stage old).permits op)
    (waits : old.next? = some op) (onTrack : decisions.OnTrack (old.proceed op reply (next reply)))
    (executed : world.execute op succeeds = some (reply, after))
    (standing : ∀ new ∈ decided old, ¬ Illegal world.server.state new) :
    ∀ new ∈ decided (old.proceed op reply (next reply)), ¬ Illegal after.server.state new := by
  intro new heads
  have state := World.execute_state executed
  have fresh {loaded : State} (staged : decisions.stage (old.proceed op reply (next reply)) = .loaded loaded) :
      after.server.state = loaded := by
    rw [Protocol.stage_proceed] at staged
    cases Decision.advance_loaded staged
    exact state.trans (World.load_reply executed).symm
  rcases decided_cases onTrack heads with ⟨rfl, stopped | starting⟩ | ⟨rfl, started | rcon⟩
  · simp [fresh stopped, Illegal]
  · simp [fresh starting, Illegal]
  · simp [fresh started, Illegal]
  · rw [Protocol.stage_proceed] at rcon
    obtain ⟨-, still, goes⟩ := Decision.advance_rcon permitted rcon
    rw [state, still]
    refine standing .stopping ?_
    rcases goes with ⟨rfl, staged⟩ | staged
    · simp [decided, waits, staged]
    · simp [decided, staged]

/-- Another task's step leaves a decision standing that it does not outdate. -/
private theorem standing_other {index : Nat} {task : Task Op Op.Reply Entry} {new : State}
    (stepped : (lifecycle config).step before move = some after) (timely : ¬ Outdates before move)
    (there : before.tasks[index]? = some task) (apart : move.task? ≠ some index)
    (onTrack : decisions.OnTrack task) (heads : decided task = some new)
    (standing : ¬ Illegal before.world.server.state new) :
    ¬ Illegal after.world.server.state new := by
  by_cases same : after.world.server.state = before.world.server.state
  · rwa [same]
  · obtain ⟨turn, turned, state⟩ := (Proxy.step_state stepped).resolve_left same
    have other : OtherDecided before move new :=
      ⟨(task, index), List.mem_zipIdx_iff_getElem?.mpr there, apart, heads⟩
    rw [state] at same ⊢
    rintro (⟨stopped, rfl⟩ | ⟨stopping, rfl⟩ | ⟨-, rfl⟩)
    · exact timely ⟨turn, turned, same, .inr ⟨stopped, other⟩⟩
    · exact timely ⟨turn, turned, same, .inl ⟨stopping, other⟩⟩
    · simpa using decided_cases onTrack heads

/-- As long as no load is outdated, decisions stand, and no illegal edge is taken. -/
private theorem standing_step (reached : (lifecycle config).Reaches condition Proxy.boot before)
    (standing : Standing before) (timely : ¬ Outdates before move)
    (stepped : (lifecycle config).step before move = some after) (meets : condition before move) :
    Standing after := by
  intro task member new heads
  have onTrack := Protocol.tasks_follow (lifecycle_decides config) (reached.step meets stepped) task member
  obtain ⟨index, found⟩ := List.mem_iff_getElem?.mp member
  rcases System.step_found stepped found with
    ⟨there, apart⟩ | fresh | ⟨answer, old, op, next, reply, rfl, there, waiting, executed, rfl⟩
  · exact standing_other stepped timely there apart onTrack heads
      (standing task (List.mem_of_getElem? there) new heads)
  · have idle : decisions.stage task = .idle := by simp [Protocol.stage, fresh]
    simpa [idle] using decided_cases onTrack heads
  · have permitted := (Protocol.tasks_follow (lifecycle_decides config) reached old
      (List.mem_of_getElem? there)).permits waiting
    have waits : old.next? = some op := by simp [Task.next?, waiting, Program.next?]
    exact standing_own permitted waits onTrack executed (standing old (List.mem_of_getElem? there)) new heads

/-- A task that is about to swap has decided to. -/
private theorem decided_of_swap {task : Task Op Op.Reply Entry} {new : State}
    (onTrack : decisions.OnTrack task) (waits : task.next? = some (.swapState new))
    (starts : new = .started ∨ new = .stopping) : decided task = some new := by
  have permitted : (decisions.stage task).permits (.swapState new) := onTrack.permits_next waits
  rcases starts with rfl | rfl
  · rcases permitted with staged | staged <;> simp [decided, waits, staged]
  · have staged : decisions.stage task = .rcon := permitted
    simp [decided, staged]

/-- While decisions stand, no step is along an illegal edge. -/
private theorem legal_step (reached : (lifecycle config).Reaches condition Proxy.boot before)
    (standing : Standing before) (stepped : (lifecycle config).step before move = some after) :
    ¬ Illegal before.world.server.state after.world.server.state := by
  rcases Proxy.step_state stepped with same | ⟨turn, turned, state⟩
  · rw [same]
    cases before.world.server.state <;> simp [Illegal]
  · obtain ⟨index, -, found, waits⟩ := Proxy.run_of_turn turned
    have member := List.mem_of_getElem? found
    have onTrack := Protocol.tasks_follow (lifecycle_decides config) reached turn.task member
    intro illegal
    have taken := illegal
    rw [state, illegal_iff_swap (Decision.intended_of_permits (onTrack.permits_next waits))] at taken
    rw [state] at illegal
    rcases taken with ⟨swaps, -⟩ | ⟨swaps, -⟩
    · rw [swaps] at waits illegal
      exact standing _ member _ (decided_of_swap onTrack waits (.inl rfl)) illegal
    · rw [swaps] at waits illegal
      exact standing _ member _ (decided_of_swap onTrack waits (.inr rfl)) illegal

/-- Pools reached by steps that outdate no load have their decisions standing. -/
private theorem standing_of_timely
    (reached : (lifecycle config).Reaches (fun proxy move => ¬ Outdates proxy move) Proxy.boot before) :
    Standing before := by
  induction reached with
  | refl => exact fun task member => nomatch member
  | tail reached stepped standing =>
    obtain ⟨move, timely, stepped⟩ := stepped
    exact standing_step reached standing timely stepped timely

end

/-- A run takes an illegal edge exactly where a swap comes on a load that others
have outdated: `update_status` swaps in `Started` although since its load they have
last changed the state to `Stopping`, or `stop_server_rcon` swaps in `Stopping`
although since the load of `stop` they have last changed it to `Stopped`. So no
illegal edge is taken where no task makes such a change while another one is
between its load and its swap, whatever tasks take part. -/
theorem transitions_intended_iff (config : Config) (moves : List ProxyMove) :
    ((lifecycle config).Every
        (fun before _ after => ¬ Illegal before.world.server.state after.world.server.state)
        Proxy.boot moves ↔
      (lifecycle config).EveryNoting sinceLoad (fun since before move _ => ¬ Outdated since before move)
        (fun _ => none) Proxy.boot moves) ∧
    ((lifecycle config).Every (fun before move _ => ¬ Outdates before move) Proxy.boot moves →
      (lifecycle config).Every
        (fun before _ after => ¬ Illegal before.world.server.state after.world.server.state)
        Proxy.boot moves) := by
  constructor
  · have start : Noted (fun _ => none) Proxy.boot :=
      fun index task found => by simp [Proxy.boot, System.initial] at found
    exact System.every_noting_iff start
      (fun since before move after reached noted stepped => noted_step reached noted stepped)
      (fun since before move after reached noted stepped =>
        not_congr (illegal_step_iff reached noted stepped)) moves
  · exact fun timely => System.every_of_condition
      (fun before move after reached _ stepped => legal_step reached (standing_of_timely reached) stepped) timely

/-- A server that comes online and is stopped over RCON, in a run that outdates no load. -/
private def onlineAndStopped : List ProxyMove :=
  [.call .start] ++ goes 0 5 ++ goes 1 2 ++ [.call (.updateStatus (some dummyStatus)), .call .stop] ++
    goes 2 9 ++ goes 3 5 ++ [.outside (.elapse QUIRK_RCON_GRACE_TIME)] ++ goes 3 9 ++
    [.outside (.elapse QUIRK_RCON_GRACE_TIME)] ++ goes 3 3 ++
    [.outside (.childExits 0 (.exited 0))] ++ goes 1 3 ++
    [.outside (.elapse SERVER_QUIT_COOLDOWN)] ++ goes 1 4

example : ((lifecycle { rcon := { enabled := true } }).play (fun before move => ¬ Outdates before move)
    Proxy.boot onlineAndStopped).map (·.world.server.state) = some .stopped := by decide

/-- An interrupt stops the starting server between the load and the swap of a
poll that found it online. -/
private def interruptedPoll : List ProxyMove :=
  [.call .start] ++ goes 0 5 ++ goes 1 2 ++
    [.call (.monitor (.ok dummyStatus) (.ok ())), .run 2 true, .call .interrupt] ++ goes 3 5

/-- The poll then swaps in `Started` over `Stopping`. -/
theorem interrupted_poll_leaves_graph :
    ¬ ∀ (config : Config) (moves : List ProxyMove),
      (lifecycle config).Every
        (fun before _ after => ¬ Illegal before.world.server.state after.world.server.state)
        Proxy.boot moves := by
  intro every
  have stopping : ((lifecycle {}).play (fun _ _ => True) Proxy.boot interruptedPoll).map
      (·.world.server.state) = some .stopping := by decide
  have started : ((lifecycle {}).play (fun _ _ => True) Proxy.boot
      (interruptedPoll ++ [.run 2 true])).map (·.world.server.state) = some .started := by decide
  obtain ⟨before, played, held⟩ := Option.map_eq_some_iff.mp stopping
  obtain ⟨after, replayed, holds⟩ := Option.map_eq_some_iff.mp started
  have stepped : (lifecycle {}).step before (.run 2 true) = some after := by
    rw [System.play_append, played] at replayed
    simpa [System.play, playRun] using replayed
  exact System.every_last (every {} _) played stepped (.inr (.inl ⟨held, holds⟩))

end PlexPaper
