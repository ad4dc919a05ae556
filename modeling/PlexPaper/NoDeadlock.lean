import PlexPaper.ProcessOwners
import PlexPaper.RconStops
import PlexPaper.TaskCompletion

/-! The tasks of the proxy never block each other for good. What a task can wait for is the
clock, its process, or the permit to stop over RCON, which its holder gives back on every
path; so whatever has happened, time and the ends of processes let every task return. -/
namespace PlexPaper
open Tasks Server

/-- A move that calls nothing, and in which an operation does what it was asked to. -/
def Forward (_ : Proxy) : ProxyMove → Prop
  | .call _ => False
  | .run _ succeeds => succeeds
  | .outside _ => True

/-- Of the tasks only this one moves forward. -/
def Alone (index : Nat) (proxy : Proxy) (move : ProxyMove) : Prop :=
  Forward proxy move ∧ ∀ other, move.task? = some other → other = index

/-- An operation that waits for nothing. -/
def Op.prompt : Op → Bool
  | .sleepUntil _ | .waitChild _ | .acquireRcon => false
  | _ => true

theorem World.perform_prompt (world : World) {op : Op} (prompt : op.prompt) :
    ∃ result, world.perform op true = some result := by
  cases op with
  | sleepUntil | waitChild | acquireRcon => cases prompt
  | compareExchange current new =>
    simp only [World.perform]
    split <;> exact ⟨_, rfl⟩
  | _ => exact ⟨_, rfl⟩

section

variable {config : Config} {proxy : Proxy} {index : Nat} {task : Task Op Op.Reply Entry} {op : Op}

/-- A task whose operation the world lets take effect goes on. -/
private theorem steps_of_perform (found : proxy.tasks[index]? = some task) (waiting : task.next? = some op)
    (running : proxy.world.exited = false) (performs : ∃ result, proxy.world.perform op true = some result) :
    ∃ after, (lifecycle config).step proxy (.run index true) = some after := by
  obtain ⟨⟨reply, world⟩, performed⟩ := performs
  have executed : proxy.world.execute op true = some (reply, world) := by
    simp only [World.execute, running, Bool.false_eq_true, ↓reduceIte, performed]
  obtain ⟨entry, log, rest⟩ := task
  cases rest with
  | pure value => cases waiting
  | request first next =>
    cases waiting
    have executed : (lifecycle config).execute proxy.world op true = some (reply, world) := executed
    exact ⟨_, by simp only [System.step, found, executed]; rfl⟩

/-- Something outside happens. -/
private theorem reaches_outside {event : Event} {world : World} (acted : proxy.world.outside event = some world) :
    (lifecycle config).Reaches (Alone index) proxy { proxy with world } := by
  refine .single ⟨.outside event, ⟨trivial, nofun⟩, ?_⟩
  have acted : (lifecycle config).outside proxy.world event = some world := acted
  simp only [System.step, acted, Option.map_some]

/-- A task that waits for a process waits for one that the proxy has spawned. -/
private theorem awaited_spawned (reached : (lifecycle config).Reaches (fun _ _ => True) Proxy.boot proxy)
    (member : task ∈ proxy.tasks) {pid : Pid} (waiting : task.next? = some (.waitChild pid)) :
    pid < proxy.world.children.length := by
  have onTrack := Protocol.tasks_follow (lifecycle_duties config) reached task member
  have running : duties.stage task = .running pid := onTrack.permits_next waiting
  have spawned := (duty_records reached task member).child pid (by rw [running]; rfl)
  have counted := countP_spawnedAs reached pid
  have positive : 0 < proxy.done.countP fun done => done.1.spawnedAs pid done.2 :=
    List.countP_pos_iff.mpr ⟨_, Pool.mem_done.mpr ⟨task, member, spawned⟩, decide_eq_true rfl⟩
  by_contra beyond
  rw [if_neg beyond] at counted
  omega

/-- A task goes on by itself, unless it waits for a permit that is not there. -/
private theorem goes_alone (reached : (lifecycle config).Reaches (fun _ _ => True) Proxy.boot proxy)
    (running : proxy.world.exited = false) (found : proxy.tasks[index]? = some task)
    (waiting : task.next? = some op) (free : op = .acquireRcon → 0 < proxy.world.server.rconPermits) :
    ∃ ready after, (lifecycle config).Reaches (Alone index) proxy ready ∧ ready.tasks[index]? = some task ∧
      (lifecycle config).step ready (.run index true) = some after := by
  by_cases prompt : op.prompt
  · obtain ⟨after, stepped⟩ := steps_of_perform found waiting running (proxy.world.perform_prompt prompt)
    exact ⟨proxy, after, .refl, found, stepped⟩
  -- The operation can take effect once something outside has happened.
  have outside (event : Event) (world : World) (acted : proxy.world.outside event = some world)
      (still : world.exited = false) (performs : ∃ result, world.perform op true = some result) :
      ∃ ready after, (lifecycle config).Reaches (Alone index) proxy ready ∧ ready.tasks[index]? = some task ∧
        (lifecycle config).step ready (.run index true) = some after := by
    obtain ⟨after, stepped⟩ :=
      @steps_of_perform config { proxy with world } _ _ _ found waiting still performs
    exact ⟨_, after, reaches_outside acted, found, stepped⟩
  cases op with
  | sleepUntil deadline =>
    have due : deadline ≤ proxy.world.clock + (deadline - proxy.world.clock) :=
      Nat.sub_le_iff_le_add'.mp (Nat.le_refl _)
    exact outside (.elapse (deadline - proxy.world.clock)) _ rfl running ⟨_, if_pos due⟩
  | waitChild pid =>
    have bound := awaited_spawned reached (List.mem_of_getElem? found) waiting
    obtain ⟨child, known⟩ : ∃ child, proxy.world.children[pid]? = some child :=
      ⟨_, List.getElem?_eq_getElem bound⟩
    cases child with
    | some status =>
      obtain ⟨after, stepped⟩ := steps_of_perform found waiting running
        ⟨(.ok status, proxy.world), by simp only [World.perform, known]⟩
      exact ⟨proxy, after, .refl, found, stepped⟩
    | none =>
      refine outside (.childExits pid (.exited 0)) _ (if_pos known) running
        ⟨(.ok (.exited 0), { proxy.world with children := proxy.world.children.set pid (some (.exited 0)) }), ?_⟩
      simp [World.perform, bound]
  | acquireRcon =>
    obtain ⟨after, stepped⟩ := steps_of_perform found waiting running ⟨_, if_pos (free rfl)⟩
    exact ⟨proxy, after, .refl, found, stepped⟩
  | _ => exact absurd rfl prompt

/-- A task that has returned does not hold the permit. -/
private theorem idle_of_returned (reached : (lifecycle config).Reaches (fun _ _ => True) Proxy.boot proxy)
    (member : task ∈ proxy.tasks) (done : task.next? = none) : rconStops.stage task = .idle := by
  obtain ⟨-, performs⟩ := reached.tasks_perform task member
  have follows := Program.Follows.performs (body_serialises config task.entry) performs
  obtain ⟨entry, log, rest⟩ := task
  cases rest with
  | pure value => exact follows
  | request op next => cases done

/-- Who holds the permit holds it until it is given back. -/
private theorem holds_until_released {stop : RconStop} (held : stop.holds) (permitted : stop.permits op)
    (reply : op.Reply) : (stop.advance op reply).holds ∨ op = .releaseRcon := by
  have moves := RconStop.moves permitted reply
  generalize stop.advance op reply = next at moves ⊢
  cases moves with
  | takes => cases held
  | gives => exact .inr rfl
  | checks last now => exact .inl (by split <;> rfl)
  | keeps => exact .inl held
  | _ => exact .inl rfl

private theorem reaches_any {condition : Proxy → ProxyMove → Prop} {after : Proxy}
    (reached : (lifecycle config).Reaches (fun _ _ => True) Proxy.boot proxy)
    (continues : (lifecycle config).Reaches condition proxy after) :
    (lifecycle config).Reaches (fun _ _ => True) Proxy.boot after :=
  reached.trans (continues.mono fun _ _ _ => trivial)

/-- The permit is there, or this task holds it. -/
private def PermitAt (holder : Nat) (proxy : Proxy) : Prop :=
  0 < proxy.world.server.rconPermits ∨
    ∀ task, proxy.tasks[holder]? = some task → (rconStops.stage task).holds

/-- The holder of the permit goes on by itself until the permit is there. -/
private theorem holder_goesOn {holder : Nat}
    (reached : (lifecycle config).Reaches (fun _ _ => True) Proxy.boot proxy) (kept : PermitAt holder proxy)
    (found : proxy.tasks[holder]? = some task) (waiting : task.next? = some op) :
    System.GoesOn (lifecycle config) (Alone holder)
      (fun pool => (lifecycle config).Reaches (fun _ _ => True) Proxy.boot pool ∧ PermitAt holder pool)
      (fun pool => pool.world.exited ∨ 0 < pool.world.server.rconPermits) proxy holder task := by
  by_cases exited : proxy.world.exited
  · exact ⟨proxy, .refl, .inl (.inl exited)⟩
  rcases kept with left | held
  · exact ⟨proxy, .refl, .inl (.inr left)⟩
  have onTrack := Protocol.tasks_follow (lifecycle_rconStops config) reached task (List.mem_of_getElem? found)
  have permitted := onTrack.permits_next waiting
  obtain ⟨ready, after, readied, still, stepped⟩ := goes_alone reached (by simpa using exited) found waiting (by
    rintro rfl
    have idle : rconStops.stage task = .idle := permitted
    have holds := held task found
    rw [idle] at holds
    cases holds)
  have again := reaches_any reached readied
  refine ⟨ready, readied, .inr ⟨still, true, after, ⟨rfl, fun _ => Eq.symm ∘ Option.some.inj⟩, stepped,
    again.step trivial stepped, ?_⟩⟩
  rcases System.step_task stepped still with ⟨-, other⟩ | ⟨_, op', next, reply, ⟨⟩, rest, executed, now⟩
  · exact absurd rfl (other true)
  rcases holds_until_released (held task found) (onTrack.permits rest) reply with holds | rfl
  · refine .inr fun task also => ?_
    cases also.symm.trans now
    rwa [Protocol.stage_proceed]
  · refine .inl ?_
    rw [World.execute_permits executed]
    exact Nat.succ_pos _

/-- The permit comes back while a task waits for it, or the proxy exits. -/
private theorem permit_returns (reached : (lifecycle config).Reaches (fun _ _ => True) Proxy.boot proxy)
    (found : proxy.tasks[index]? = some task) (waiting : task.next? = some .acquireRcon) :
    ∃ ready, (lifecycle config).Reaches Forward proxy ready ∧
      (ready.world.exited ∨ 0 < ready.world.server.rconPermits ∧ ready.tasks[index]? = some task) := by
  by_cases left : 0 < proxy.world.server.rconPermits
  · exact ⟨proxy, .refl, .inr ⟨left, found⟩⟩
  have balanced := (serialised_of_reached reached).permit
  have taken : 0 < (rconStops.stages proxy).countP RconStop.holds := by
    unfold Semaphore.Balanced at balanced
    omega
  obtain ⟨stop, staged, held⟩ := List.countP_pos_iff.mp taken
  obtain ⟨holding, member, rfl⟩ := List.mem_map.mp staged
  obtain ⟨holder, there⟩ := List.getElem?_of_mem member
  have other : holder ≠ index := by
    rintro rfl
    cases there.symm.trans found
    have idle : rconStops.stage task = .idle :=
      (Protocol.tasks_follow (lifecycle_rconStops config) reached task member).permits_next waiting
    rw [idle] at held
    cases held
  -- The holder goes on alone until it has given the permit back.
  obtain ⟨ready, readied, ended⟩ := System.completes
    (fun pool task op kept found waiting => holder_goesOn kept.1 kept.2 found waiting)
    ⟨reached, .inr fun task also => by cases also.symm.trans there; exact held⟩ there
  have still : ready.tasks[index]? = some task := readied.untouched (fun _ move alone runs =>
    other (alone.2 index runs).symm) found
  refine ⟨ready, readied.mono fun _ _ alone => alone.1, ?_⟩
  rcases ended with (exited | left) | ⟨⟨again, left | held⟩, task, there, done⟩
  · exact .inl exited
  · exact .inr ⟨left, still⟩
  · exact .inr ⟨left, still⟩
  · have holds := held task there
    rw [idle_of_returned again (List.mem_of_getElem? there) done] at holds
    cases holds

/-- Whatever a task is waiting on, it goes on, or the proxy exits. -/
private theorem task_goesOn (reached : (lifecycle config).Reaches (fun _ _ => True) Proxy.boot proxy)
    (found : proxy.tasks[index]? = some task) (waiting : task.next? = some op) :
    System.GoesOn (lifecycle config) Forward
      (fun pool => (lifecycle config).Reaches (fun _ _ => True) Proxy.boot pool)
      (fun pool => pool.world.exited) proxy index task := by
  by_cases exited : proxy.world.exited
  · exact ⟨proxy, .refl, .inl exited⟩
  have alone {ready : Proxy} (readied : (lifecycle config).Reaches Forward proxy ready)
      (running : ready.world.exited = false) (still : ready.tasks[index]? = some task)
      (free : op = .acquireRcon → 0 < ready.world.server.rconPermits) :
      System.GoesOn (lifecycle config) Forward
        (fun pool => (lifecycle config).Reaches (fun _ _ => True) Proxy.boot pool)
        (fun pool => pool.world.exited) proxy index task := by
    obtain ⟨last, after, continued, there, stepped⟩ :=
      goes_alone (reaches_any reached readied) running still waiting free
    have forward := readied.trans (continued.mono fun _ _ alone => alone.1)
    exact ⟨last, forward, .inr ⟨there, true, after, rfl, stepped,
      (reaches_any reached forward).step trivial stepped⟩⟩
  by_cases acquires : op = .acquireRcon
  · subst acquires
    obtain ⟨ready, readied, gone | ⟨left, still⟩⟩ := permit_returns reached found waiting
    · exact ⟨ready, readied, .inl gone⟩
    · by_cases gone : ready.world.exited
      · exact ⟨ready, readied, .inl gone⟩
      · exact alone readied (by simpa using gone) still fun _ => left
  · exact alone .refl (by simpa using exited) found fun same => absurd same acquires

/-- The tasks of the proxy never block each other for good. Whatever has happened, there is a
continuation without another call, in which every operation does what it was asked to, that
lets every task return, unless one of them exits the proxy. -/
theorem tasks_can_return (reached : (lifecycle config).Reaches (fun _ _ => True) Proxy.boot proxy) :
    ∃ after, (lifecycle config).Reaches Forward proxy after ∧
      (after.world.exited ∨ ∀ index < proxy.tasks.length, after.Finished index) := by
  obtain ⟨after, continued, ended⟩ := System.completes_all
    (fun pool index task reached found => System.completes
      (fun pool task op reached found waiting => task_goesOn reached found waiting) reached found)
    reached (Nat.le_refl _)
  exact ⟨after, continued, ended.imp id And.right⟩

end

/-- Two tasks stop the server over RCON. One has the permit and sleeps before it sends the
command, the other waits for the permit. -/
private def oneWaits : List ProxyMove :=
  [.call (.updateStatus (some dummyStatus))] ++ goes 0 2 ++ [.call .stop, .call .stop] ++ goes 1 1 ++
    goes 2 1 ++ goes 1 4

theorem tasks_can_return_waiting : ∃ proxy,
    (lifecycle { rcon := { enabled := true } }).play (fun _ _ => True) Proxy.boot oneWaits = some proxy ∧
    proxy.world.server.rconPermits = 0 ∧
    (lifecycle { rcon := { enabled := true } }).step proxy (.run 1 true) = none ∧
    (lifecycle { rcon := { enabled := true } }).step proxy (.run 2 true) = none ∧
    ∃ after, (lifecycle { rcon := { enabled := true } }).Reaches Forward proxy after ∧
      (after.world.exited ∨ ∀ index < 3, after.Finished index) := by
  have waits : ((lifecycle { rcon := { enabled := true } }).play (fun _ _ => True) Proxy.boot oneWaits).map
      (fun proxy => decide (proxy.world.server.rconPermits = 0 ∧ proxy.tasks.length = 3 ∧
        ((lifecycle { rcon := { enabled := true } }).step proxy (.run 1 true)).isNone ∧
        ((lifecycle { rcon := { enabled := true } }).step proxy (.run 2 true)).isNone)) = some true := by
    decide
  obtain ⟨proxy, played, facts⟩ := Option.map_eq_some_iff.mp waits
  obtain ⟨taken, tasks, sleeping, waiting⟩ := of_decide_eq_true facts
  obtain ⟨after, continued, ended⟩ := tasks_can_return (System.play_reaches played)
  rw [tasks] at ended
  exact ⟨proxy, played, taken, Option.isNone_iff_eq_none.mp sleeping, Option.isNone_iff_eq_none.mp waiting,
    after, continued, ended⟩

end PlexPaper
