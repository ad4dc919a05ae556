import PlexPaper.CommandDuty
import PlexPaper.FreshReadings
import PlexPaper.TaskLedger

/-! Whose a process is. The lock around the process id is read by whoever wants to signal
the server, but a process belongs to the one command task that spawned it: no other records
it or waits for it, and what is signalled had not been cleaned up when it was looked up. -/
namespace PlexPaper
open Tasks Server

/-- The operation has spawned this process. -/
def Op.spawnedAs (pid : Pid) : (op : Op) → op.Reply → Bool
  | .spawnChild, .ok spawned => spawned = pid
  | _, _ => false

/-- By what it has done a task has spawned the process, and has not taken it off the lock. -/
structure Owns (log : List ((op : Op) × op.Reply)) (pid : Pid) : Prop where
  spawned : ⟨.spawnChild, .ok pid⟩ ∈ log
  recorded : ⟨.write .pid none, ()⟩ ∉ log

/-- From the order to spawn a process to its cleanup nothing has been taken off the lock. -/
def Duty.holding : Duty → Bool
  | .ordered | .running _ | .cleaning _ => true
  | .idle | .claimed | .resuming | .cooling _ | .retired => false

/-- What a duty says of the log it has come from. -/
structure Duty.Records (log : List ((op : Op) × op.Reply)) (duty : Duty) : Prop where
  child : ∀ pid, duty.child? = some pid → ⟨.spawnChild, .ok pid⟩ ∈ log
  untaken : duty.holding → ⟨.write .pid none, ()⟩ ∉ log
  waited : ∀ pid reply, ⟨.waitChild pid, reply⟩ ∈ log → ⟨.spawnChild, .ok pid⟩ ∈ log
  written : ∀ pid, ⟨.write .pid (some pid), ()⟩ ∈ log → ⟨.spawnChild, .ok pid⟩ ∈ log

section

variable {log : List ((op : Op) × op.Reply)} {duty next : Duty} {op : Op} {reply : op.Reply}

/-- A task takes on the process that it spawns, and waits for and records no other. -/
private theorem Duty.Records.grows (records : duty.Records log)
    (child : ∀ pid, next.child? = some pid → duty.child? = some pid ∨ op.spawnedAs pid reply)
    (untaken : next.holding → duty.holding ∧ op ≠ .write .pid none)
    (waited : ∀ pid, op = .waitChild pid → duty.child? = some pid)
    (written : ∀ pid, op = .write .pid (some pid) → duty.child? = some pid) :
    next.Records (log ++ [⟨op, reply⟩]) where
  child pid mine := by
    rcases child pid mine with before | now
    · exact List.mem_append_left _ (records.child pid before)
    · cases op with
      | spawnChild =>
        cases reply with
        | error _ => cases now
        | ok spawned =>
          cases of_decide_eq_true now
          exact List.mem_append_right _ List.mem_cons_self
      | _ => cases now
  untaken owning taken := by
    obtain ⟨before, other⟩ := untaken owning
    rcases List.mem_append.mp taken with old | new
    · exact records.untaken before old
    · exact other (congrArg Sigma.fst (List.mem_singleton.mp new)).symm
  waited pid reply' member := by
    rcases List.mem_append.mp member with old | new
    · exact List.mem_append_left _ (records.waited pid reply' old)
    · have own := waited pid (congrArg Sigma.fst (List.mem_singleton.mp new)).symm
      exact List.mem_append_left _ (records.child pid own)
  written pid member := by
    rcases List.mem_append.mp member with old | new
    · exact List.mem_append_left _ (records.written pid old)
    · have own := written pid (congrArg Sigma.fst (List.mem_singleton.mp new)).symm
      exact List.mem_append_left _ (records.child pid own)

/-- Every permitted operation leaves a log that fits the duty it leaves. -/
private theorem Duty.Records.step (permitted : duty.permits op) (records : duty.Records log) :
    (duty.advance op reply).Records (log ++ [⟨op, reply⟩]) := by
  have advances := Duty.advances permitted reply
  generalize duty.advance op reply = next at advances ⊢
  cases advances with
  | keeps calm =>
    refine records.grows (fun pid mine => .inl mine) (fun held => ⟨held, ?_⟩) ?_ ?_
    · rintro rfl
      exact calm
    · rintro pid rfl
      cases permitted
      rfl
    · rintro pid rfl
      exact calm.elim
  | updates updating other =>
    refine records.grows nofun nofun ?_ ?_
    · rintro pid rfl
      exact updating.elim
    · rintro pid rfl
      exact updating.elim
  | records pid => exact records.grows (fun _ => .inl) (fun held => ⟨held, nofun⟩) nofun (by rintro _ ⟨⟩; rfl)
  | ends pid reply => exact records.grows (fun _ => .inl) (fun _ => ⟨rfl, nofun⟩) (by rintro _ ⟨⟩; rfl) nofun
  | spawns pid =>
    exact records.grows (by rintro _ ⟨⟩; exact .inr (decide_eq_true rfl)) (fun _ => ⟨rfl, nofun⟩) nofun nofun
  | takes pid => exact records.grows (fun _ => .inl) nofun nofun nofun
  | _ => exact records.grows nofun nofun nofun nofun

end

section

variable {config : Config} {condition : Proxy → ProxyMove → Prop} {proxy : Proxy}

/-- What every task has done fits its duty. -/
theorem duty_records (reached : (lifecycle config).Reaches condition Proxy.boot proxy) :
    ∀ task ∈ proxy.tasks, Duty.Records task.log (duties.stage task) := by
  refine Protocol.tasks_relate (lifecycle_duties config) Duty.Records (fun entry => ?_) ?_ reached
  · cases entry <;> exact ⟨nofun, nofun, nofun, nofun⟩
  · exact fun log duty op reply permitted records => records.step permitted

/-- A process has been spawned exactly once, if it exists. -/
theorem countP_spawnedAs (reached : (lifecycle config).Reaches condition Proxy.boot proxy) (pid : Pid) :
    proxy.done.countP (fun done => done.1.spawnedAs pid done.2) =
      if pid < proxy.world.children.length then 1 else 0 := by
  have balanced := reached.balances (fun world => if pid < world.children.length then 1 else 0)
    (fun done => done.1.spawnedAs pid done.2) (fun _ => false)
    (fun world event after acted => by rw [World.outside_length acted])
    fun world op succeeds reply after executed => by
      have children := World.execute_children executed
      cases op with
      | spawnChild =>
        cases succeeds with
        | false => cases World.perform_of_execute executed; simp [Op.spawnedAs]
        | true =>
          cases World.perform_of_execute executed
          simp only [Op.spawnedAs, List.length_append, List.length_singleton]
          grind
      | _ => simp [children, Op.newChildren, Op.spawnedAs]
  simpa [Proxy.boot, System.initial] using balanced.symm

/-- A status that a task was answered is how the process has ended. -/
theorem waited_status (reached : (lifecycle config).Reaches condition Proxy.boot proxy) :
    ∀ pid status, ⟨.waitChild pid, .ok status⟩ ∈ proxy.done →
      proxy.world.children[pid]? = some (some status) := by
  refine reached.recorded (fun world done => ∀ pid status, ⟨.waitChild pid, .ok status⟩ ∈ done →
    world.children[pid]? = some (some status)) ?_ nofun ?_ ?_
  · exact fun world done other same ended pid status member => ended pid status (same.mem_iff.mpr member)
  · exact fun world done event after acted ended pid status member =>
      World.outside_exited acted (ended pid status member)
  · intro world done op succeeds reply after executed ended pid status member
    rcases List.mem_cons.mp member with new | old
    · cases new
      cases succeeds with
      | false => cases World.perform_of_execute executed
      | true =>
        have performed := World.perform_of_execute executed
        simp only [World.perform] at performed
        split at performed
        · rename_i found
          cases performed
          exact found
        · cases performed
    · rw [World.execute_children executed]
      exact op.newChildren_getElem? (ended pid status old)

/-- Every process is spawned once, by one task. No other task waits for it or puts it behind
the lock, and the status its task is answered is how the process itself has ended. -/
theorem process_has_one_owner (reached : (lifecycle config).Reaches condition Proxy.boot proxy) (pid : Pid) :
    proxy.done.countP (fun done => done.1.spawnedAs pid done.2) =
      (if pid < proxy.world.children.length then 1 else 0) ∧
    ∀ task ∈ proxy.tasks,
      (⟨.write .pid (some pid), ()⟩ ∈ task.log → ⟨.spawnChild, .ok pid⟩ ∈ task.log) ∧
      ∀ reply, ⟨.waitChild pid, reply⟩ ∈ task.log → ⟨.spawnChild, .ok pid⟩ ∈ task.log ∧
        ∀ status, reply = .ok status → proxy.world.children[pid]? = some (some status) := by
  refine ⟨countP_spawnedAs reached pid, fun task member => ?_⟩
  have records := duty_records reached task member
  refine ⟨records.written pid, fun reply waited => ⟨records.waited pid reply waited, ?_⟩⟩
  rintro status rfl
  exact waited_status reached pid status (Pool.mem_done.mpr ⟨task, member, waited⟩)

/-- A task keeps the process that it has not cleaned up after until it takes it off the lock. -/
private theorem Advances.keeps_child {duty next : Duty} {op : Op} {reply : op.Reply} {pid : Pid}
    (advances : Advances duty op reply next) (other : op ≠ .write .pid none)
    (mine : duty = .running pid ∨ duty = .cleaning pid) : next = .running pid ∨ next = .cleaning pid := by
  cases advances with
  | keeps => exact mine
  | records => exact mine
  | ends => exact .inr (by simpa using mine)
  | takes => exact absurd rfl other
  | claims free => rcases free with rfl | rfl <;> simp at mine
  | _ => simp at mine

/-- What is behind the lock after an operation has its task, if what was there before had. -/
private theorem recorded_owned_run {world after : World} {left right : List Duty} {duty : Duty} {op : Op}
    {succeeds : Bool} {reply : op.Reply} (permitted : duty.permits op)
    (executed : world.execute op succeeds = some (reply, after))
    (owned : ∀ pid ∈ world.server.pid,
      .running pid ∈ left ++ duty :: right ∨ .cleaning pid ∈ left ++ duty :: right) :
    ∀ pid ∈ after.server.pid, .running pid ∈ left ++ duty.advance op reply :: right ∨
      .cleaning pid ∈ left ++ duty.advance op reply :: right := by
  intro pid recorded
  have advances := Duty.advances permitted reply
  by_cases written : ∃ value, op = .write .pid value
  · obtain ⟨value, rfl⟩ := written
    cases World.perform_of_execute executed
    cases value with
    | none => cases recorded
    | some recordedPid =>
      cases recorded
      cases permitted
      exact .inl (by simp [Duty.advance])
  · have same : after.server.pid = world.server.pid :=
      World.execute_get executed .pid fun value write => written ⟨value, write⟩
    have before := owned pid (same ▸ recorded)
    have kept := @Advances.keeps_child _ _ _ _ pid advances fun write => written ⟨none, write⟩
    grind

/-- The process behind the lock is one whose task has not cleaned up after it. -/
theorem recorded_owned (reached : (lifecycle config).Reaches condition Proxy.boot proxy) :
    ∀ pid ∈ proxy.world.server.pid, ∃ task ∈ proxy.tasks, Owns task.log pid := by
  have staged := Protocol.invariant (lifecycle_duties config)
    (fun world stages => ∀ pid ∈ world.server.pid,
      Duty.running pid ∈ stages ∨ Duty.cleaning pid ∈ stages) (fun pid recorded => by cases recorded)
    ?_ ?_ ?_ reached
  · intro pid recorded
    have owner : ∃ duty ∈ duties.stages proxy, Duty.holding duty ∧ Duty.child? duty = some pid := by
      rcases staged pid recorded with running | cleaning
      · exact ⟨_, running, rfl, rfl⟩
      · exact ⟨_, cleaning, rfl, rfl⟩
    obtain ⟨duty, staged, holding, child⟩ := owner
    obtain ⟨task, member, rfl⟩ := List.mem_map.mp staged
    have records := duty_records reached task member
    exact ⟨task, member, records.child pid child, records.untaken holding⟩
  · intro world stages entry _ owned pid recorded
    exact (owned pid recorded).imp (List.mem_append_left _) (List.mem_append_left _)
  · intro world stages event after acted owned pid recorded
    rw [World.outside_server acted] at recorded
    exact owned pid recorded
  · intro proxy index answer task op reply after left right _ _ _ permitted executed _ owned pid recorded
    exact (recorded_owned_run permitted executed owned pid recorded).imp (List.mem_append_left _)
      (List.mem_append_left _)

end

/-- A process ends, and is cleaned up after before the next one is spawned. -/
private def endsAndRestarts : List ProxyMove :=
  [.call .start] ++ goes 0 5 ++ goes 1 2 ++ [.outside (.childExits 0 (.exited 143))] ++ goes 1 3 ++
    [.outside (.elapse SERVER_QUIT_COOLDOWN)] ++ goes 1 4 ++ [.call .start] ++ goes 2 5 ++ goes 3 2

theorem process_has_one_owner_restart : ∃ proxy,
    (lifecycle {}).play (fun _ _ => True) Proxy.boot endsAndRestarts = some proxy ∧
    proxy.done.countP (fun done => done.1.spawnedAs 0 done.2) = 1 ∧
    proxy.done.countP (fun done => done.1.spawnedAs 1 done.2) = 1 ∧
    proxy.done.countP (fun done => done.1.spawnedAs 2 done.2) = 0 := by
  have restarted : ((lifecycle {}).play (fun _ _ => True) Proxy.boot endsAndRestarts).map
      (fun proxy => decide (proxy.world.children = [some (.exited 143), none])) = some true := by decide
  obtain ⟨proxy, played, facts⟩ := Option.map_eq_some_iff.mp restarted
  have children := of_decide_eq_true facts
  have owned (pid : Pid) := (process_has_one_owner (System.play_reaches played) pid).1
  simp only [children] at owned
  exact ⟨proxy, played, owned 0, owned 1, owned 2⟩

section

variable {config : Config} {condition : Proxy → ProxyMove → Prop} {proxy : Proxy}

/-- Whatever signals a process has looked it up right before, as the last thing it has done, and had
then found one of this proxy's own, whose task had not cleaned up after it. -/
theorem signals_own_process (reached : (lifecycle config).Reaches condition Proxy.boot proxy) {index : Nat}
    {task : Task Op Op.Reply Entry} (found : proxy.tasks[index]? = some task) {pid : Pid} {signal : Signal}
    (signals : task.next? = some (.sendSignal pid signal)) :
    task.log.getLast? = some ⟨.read .pid, some pid⟩ ∧
      ∃ middle next answer, (lifecycle config).Reaches condition Proxy.boot middle ∧
      middle.world.server.pid = some pid ∧ (∃ command ∈ middle.tasks, Owns command.log pid) ∧
      (lifecycle config).step middle (.run index answer) = some next ∧
      (lifecycle config).Reaches condition next proxy ∧ next.tasks[index]? = some task := by
  have onTrack := Protocol.tasks_follow (lifecycle_fresh config) reached task (List.mem_of_getElem? found)
  have last : (lastDones Entry (Op.Fresh config)).stage task = some ⟨.read .pid, some pid⟩ :=
    onTrack.permits_next signals
  rw [lastDones_stage] at last
  obtain ⟨middle, next, answer, before, stepped, executed, continued, still⟩ := reached.last_done found last
  have recorded : middle.world.server.pid = some pid := (World.read_reply executed).symm
  exact ⟨last, middle, next, answer, before, recorded, recorded_owned before pid recorded, stepped, continued,
    still⟩

end

/-- A task looks up the process to stop. Before it gets to signal it, the process ends by
itself and is cleaned up after. -/
private def signalsTooLate : List ProxyMove :=
  [.call .start] ++ goes 0 5 ++ goes 1 2 ++ [.call .stop] ++ goes 2 2 ++
    [.outside (.childExits 0 (.exited 0))] ++ goes 1 2

theorem signals_own_process_late : ∃ proxy task,
    (lifecycle {}).play (fun _ _ => True) Proxy.boot signalsTooLate = some proxy ∧
    proxy.tasks[2]? = some task ∧ task.next? = some (.sendSignal 0 .sigterm) ∧
    proxy.world.server.pid = none ∧ task.log.getLast? = some ⟨.read .pid, some 0⟩ ∧
    ∃ middle, (lifecycle {}).Reaches (fun _ _ => True) Proxy.boot middle ∧
      middle.world.server.pid = some 0 ∧ ∃ command ∈ middle.tasks, Owns command.log 0 := by
  have late : ((lifecycle {}).play (fun _ _ => True) Proxy.boot signalsTooLate).bind (fun proxy =>
      (proxy.tasks[2]?.bind Task.next?).map fun op => (op, proxy.world.server.pid)) =
      some (.sendSignal 0 .sigterm, none) := rfl
  obtain ⟨proxy, played, rest⟩ := Option.bind_eq_some_iff.mp late
  obtain ⟨op, waiting, same⟩ := Option.map_eq_some_iff.mp rest
  obtain ⟨rfl, cleaned⟩ := Prod.mk.inj same
  obtain ⟨task, found, signals⟩ := Option.bind_eq_some_iff.mp waiting
  obtain ⟨last, middle, _, _, reached, recorded, owned, -⟩ :=
    signals_own_process (System.play_reaches played) found signals
  exact ⟨proxy, task, played, found, signals, cleaned, last, middle, reached, recorded, owned⟩

end PlexPaper
