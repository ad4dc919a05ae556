import PlexPaper.SingleProcess
import PlexPaper.StopReports

/-! A spawn that fails. By then `start` has moved the server to `Starting` and armed the
kill deadline; the command returns its error to nobody and takes neither back. -/
namespace PlexPaper
open Tasks Program Server

/-- The configured command cannot be spawned. -/
def SpawnFails (proxy : Proxy) (move : ProxyMove) : Prop :=
  ∃ turn ∈ proxy.turn? move, turn.op = .spawnChild ∧ turn.succeeds = false

/-- The task that has moved is over. -/
def Returned (move : ProxyMove) (after : Proxy) : Prop :=
  ∀ index succeeds, move = .run index succeeds → ∀ task ∈ after.tasks[index]?, task.next? = none

/-- The server can be started again, and nothing is due to be killed. -/
def Restored (world : World) : Prop :=
  world.server.state = .stopped ∧ world.server.killAt = none

/-- Starting the server again, with nothing else running, is refused. -/
def Wedged (config : Config) (world : World) : Prop :=
  world.server.state ≠ .stopped ∧ ∀ outcomes delays, ∃ after left,
    (Server.start config).run (Solo.execute outcomes) delays ⟨world, []⟩ = some (false, after, left) ∧
      Unchanged world after.world

/-- Whether a task has failed to spawn the process. -/
abbrev failures : Protocol Op Op.Reply Entry where
  Stage := Bool
  advance failed op reply := match op, reply with
    | .spawnChild, .error _ => true
    | _, _ => failed
  permits failed _ := failed = false
  enter _ := false

section

variable {config : Config}

private theorem failures_quiet {op : Op} (other : op ≠ .spawnChild) : failures.QuietAt false op := by
  refine ⟨rfl, fun reply => ?_⟩
  cases op <;> first | rfl | exact absurd rfl other

private theorem failures_background : Undisturbed failures.toDiscipline false := by
  rintro op background
  apply failures_quiet
  rintro rfl
  exact background

private theorem failures_bookkept : Bookkept failures.toDiscipline false := by
  rintro op bookkeeping
  refine failures_quiet ?_
  rintro rfl
  exact bookkeeping

private theorem failures_update (current : Option State) (new : State) :
    UpdateKeeps failures.toDiscipline false config current new := by
  cases current with
  | none =>
    exact updateStateFrom_none_keeps failures_background.unbothered (failures_quiet (by simp))
      (fun _ => failures_quiet (by simp)) (fun _ => failures_bookkept) (failures_quiet (by simp))
  | some current =>
    exact updateStateFrom_some_keeps failures_background.unbothered (failures_quiet (by simp))
      (fun _ => failures_quiet (by simp)) (fun _ => failures_bookkept) (failures_quiet (by simp))

private theorem failures_stops : StopUpdates failures.toDiscipline false config where
  rcon := failures_update _ _
  starting := failures_update _ _
  started := failures_update _ _
  frozen _ := ⟨failures_update _ _, failures_update _ _⟩

private theorem failures_start : (start config).Keeps failures.toDiscipline false :=
  start_keeps failures_background.unbothered (failures_update _ _) (failures_update _ _)
    (fun _ => failures_quiet (by simp)) (failures_quiet (by simp))

private theorem command_fails :
    (invokeServerCmd config).Follows failures.toDiscipline false fun _ _ => True :=
  invokeServerCmd_follows (d := failures.toDiscipline) (fun _ => false) (fun _ => false)
    (fun _ => false) false rfl (fun _ => rfl) trivial (fun _ => failures_quiet (by simp))
    (fun _ => rfl) (fun _ _ => rfl) (fun _ => failures_quiet (by simp)) (fun _ => rfl) (fun _ => rfl)
    (fun _ => failures_background.unbothered) (fun _ => failures_update none .stopped)
    (failures_start.follows fun _ => trivial) trivial

/-- A task that has failed to spawn the process does nothing more. -/
theorem lifecycle_failures (config : Config) : (lifecycle config).Obeys failures := by
  have returns : ∀ {α : Type} {program : ServerM α}, program.Keeps failures.toDiscipline false →
      program.Follows failures.toDiscipline false fun _ _ => True :=
    fun keeps => keeps.follows fun _ => trivial
  have stops : (stop config).Keeps failures.toDiscipline false :=
    stop_keeps failures_background failures_stops
  intro entry _
  cases entry with
  | start => exact returns (failures_start.bind fun _ => .pure)
  | stop => exact returns (stops.bind fun _ => .pure)
  | updateStatus status =>
    exact returns (updateStatus_keeps failures_background.unbothered failures_bookkept (failures_update _ _)
      (failures_update _ _) status)
  | monitor fetched pinged =>
    exact returns (monitorIteration_keeps failures_background.unbothered failures_bookkept
      (failures_update _ _) (failures_update _ _) stops fetched pinged)
  | interrupt => exact returns (interruptIteration_keeps failures_background.unbothered stops)
  | invokeServerCmd => exact Program.follows_bind.mpr (command_fails.mono fun _ _ _ => trivial)

/-- What a spawn that fails does: its task is over, and the world is as it was. -/
theorem spawnFails_step {before after : Proxy} {move : ProxyMove}
    (reached : (lifecycle config).Reaches (fun _ _ => True) Proxy.boot before)
    (stepped : (lifecycle config).step before move = some after) (fails : SpawnFails before move) :
    Returned move after ∧ after.world = before.world ∧ before.world.exited = false := by
  obtain ⟨turn, turned, spawning, failed⟩ := fails
  obtain ⟨index, rfl, at_, waits⟩ := Proxy.run_of_turn turned
  have reaches := reached.tail ⟨_, trivial, stepped⟩
  obtain ⟨task, op, next, reply, world, found, waiting, executed, rfl⟩ := System.step_run stepped
  cases found.symm.trans at_
  have same : op = .spawnChild := by
    simpa [Task.next?, waiting, Program.next?, spawning] using waits
  subst same
  rw [failed] at executed
  have running : before.world.exited = false := by
    by_contra exited
    simp [lifecycle, World.execute, exited] at executed
  cases World.perform_of_execute executed
  refine ⟨?_, rfl, running⟩
  rintro _ _ ⟨⟩ done member
  have onTrack := Protocol.tasks_follow (lifecycle_failures config) reaches done
    (List.mem_of_getElem? member)
  cases waits : done.next? with
  | none => rfl
  | some op =>
    have permitted := onTrack.permits_next waits
    have bound := (List.getElem?_eq_some_iff.mp found).1
    rw [Option.mem_def, List.getElem?_append_left (by simpa using bound),
      List.getElem?_set_self bound, Option.some.injEq] at member
    rw [← member, Protocol.stage_proceed] at permitted
    cases permitted

/-- Where the server does not count as stopped, a claim of `start` is refused. -/
theorem start_refused {outcomes : Outcomes} {solo : Solo} (running : solo.world.exited = false)
    (claimed : solo.world.server.state ≠ .stopped) :
    (Server.start config).Achieves (Solo.execute outcomes) solo fun started after =>
      started = false ∧ Unchanged solo.world after.world := by
  unfold start
  rw [updateStateFrom_some]
  have quiet : (Op.compareExchange .stopped .starting).Quiet := trivial
  refine achieves_bind.mpr (achieves_bind.mpr fun delay => ?_)
  obtain ⟨reply, mid, executed⟩ := quiet.answered outcomes running delay
  obtain ⟨stopped, -⟩ | ⟨-, rfl⟩ := execute_exchange executed
  · exact absurd stopped claimed
  · have performed := execute_world executed
    have same : mid.world.server.state = solo.world.server.state :=
      (World.execute_state performed).trans (if_neg claimed)
    exact ⟨_, mid, executed, rfl, same, World.execute_get performed .pid nofun,
      World.execute_get performed .killAt nofun⟩

/-- Under the guard of the claims the server does not count as stopped when a spawn
fails, and nothing but another task's update makes it. -/
theorem spawnFails_wedges {before after : Proxy} {move : ProxyMove}
    (reached : (lifecycle config).Reaches Guarded Proxy.boot before)
    (stepped : (lifecycle config).step before move = some after) (fails : SpawnFails before move) :
    Wedged config after.world := by
  obtain ⟨-, same, running⟩ := spawnFails_step (reached.mono fun _ _ _ => trivial) stepped fails
  obtain ⟨turn, turned, spawning, -⟩ := fails
  obtain ⟨index, rfl, found, waits⟩ := Proxy.run_of_turn turned
  have member := List.mem_of_getElem? found
  have onTrack := Protocol.tasks_follow (lifecycle_duties config) reached turn.task member
  have permitted := onTrack.permits_next waits
  rw [spawning] at permitted
  have busy : Duty.busy (duties.stage turn.task) = true := by
    rw [show duties.stage turn.task = .ordered from permitted]
    rfl
  have claimed := (exclusive_of_guarded reached).marked _ (List.mem_map_of_mem member) busy
  rw [same]
  refine ⟨claimed, fun outcomes delays => ?_⟩
  have refusal : (start config).Achieves (Solo.execute outcomes) ⟨before.world, []⟩
      fun started after => started = false ∧ Unchanged before.world after.world :=
    start_refused running claimed
  obtain ⟨started, refused, left, ran, rfl, unchanged⟩ := refusal.exists_run delays
  exact ⟨refused, left, ran, unchanged⟩

/-- The command that cannot be spawned is over at once. It leaves the server to be
started again exactly where that was so before, and never while no other task stops the
server over a command in progress: then it cannot be started again. -/
theorem failed_spawn_restores_iff (config : Config) (moves : List ProxyMove) :
    ((lifecycle config).Every (fun before move after => SpawnFails before move →
        Returned move after ∧ Restored after.world) Proxy.boot moves ↔
      (lifecycle config).Every (fun before move _ => SpawnFails before move →
        Restored before.world) Proxy.boot moves) ∧
    ((lifecycle config).Every (fun before move _ => Guarded before move) Proxy.boot moves →
      (lifecycle config).Every (fun before move after => SpawnFails before move →
        ¬ Restored after.world ∧ Wedged config after.world) Proxy.boot moves) := by
  constructor
  · refine System.every_congr (fun before move after reached stepped => ?_) moves
    refine forall_congr' fun fails => ?_
    obtain ⟨returned, same, -⟩ := spawnFails_step reached stepped fails
    rw [same]
    exact and_iff_right returned
  · refine System.every_of_condition fun before move after reached _ stepped fails => ?_
    have wedged := spawnFails_wedges reached stepped fails
    exact ⟨fun restored => wedged.1 restored.1, wedged⟩

/-- The first start of the server, up to its command. -/
private def startedOnce : List ProxyMove := [.call .start] ++ goes 0 5

/-- The command fails, and the server stays `Starting`. -/
theorem failed_spawn_stays_starting :
    ¬ ∀ (config : Config) (moves : List ProxyMove),
      (lifecycle config).Every (fun before move after => SpawnFails before move →
        Returned move after ∧ Restored after.world) Proxy.boot moves := by
  intro every
  have stuck : ((lifecycle {}).play (fun _ _ => True) Proxy.boot startedOnce).bind
      (fun before => ((lifecycle {}).step before (.run 1 false)).bind fun after =>
        (Proxy.turn? before (.run 1 false)).map fun turn =>
          (turn.op, turn.succeeds, after.world.server.state)) =
      some (Op.spawnChild, false, State.starting) := rfl
  obtain ⟨before, played, stuck⟩ := Option.bind_eq_some_iff.mp stuck
  obtain ⟨after, stepped, stuck⟩ := Option.bind_eq_some_iff.mp stuck
  obtain ⟨turn, turned, facts⟩ := Option.map_eq_some_iff.mp stuck
  obtain ⟨operation, rest⟩ := Prod.mk.inj facts
  obtain ⟨failed, state⟩ := Prod.mk.inj rest
  have held := System.every_last (every {} (startedOnce ++ [.run 1 false])) played stepped
  exact nomatch state.symm.trans (held ⟨turn, turned, operation, failed⟩).2.1

end

end PlexPaper
