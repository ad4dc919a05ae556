import PlexPaper.CommandDuty

/-! Two generations of the server process. The cleanup after a process takes the
recorded process id, cools down, and swaps in `Stopped`, without asking whose id
and state these are by then. It spares a newer generation only where the newer
one begins after the swap, and a crash restart only where no command is in
progress. -/
namespace PlexPaper
open Tasks Server

/-- The operation begins a new generation: it moves the server to `Starting`, or
spawns a process. -/
def Op.Begins (op : Op) (state : State) (succeeds : Bool) : Prop :=
  (op.newState state = .starting ∧ state ≠ .starting) ∨ op.newChildren succeeds [] ≠ []
  deriving Decidable

def Begins (proxy : Proxy) (move : ProxyMove) : Prop :=
  ∃ turn ∈ proxy.turn? move, turn.op.Begins proxy.world.server.state turn.succeeds
  deriving Decidable

/-- A process has exited whose command task has its final update still to make. -/
def CleanupPending (proxy : Proxy) : Prop :=
  ∃ duty ∈ duties.stages proxy, ∃ pid ∈ Duty.child? duty, ¬ proxy.world.Alive pid
  deriving Decidable

/-- A new generation begins before the cleanup of an exited process is through,
or is the crash restart of an old one while another command is in progress. -/
def Overtakes (proxy : Proxy) (move : ProxyMove) : Prop :=
  Begins proxy move ∧ (CleanupPending proxy ∨
    ∃ turn ∈ proxy.turn? move, turn.task.entry = .invokeServerCmd ∧
      Duty.busy (duties.stage turn.task) = false ∧ InProgress proxy)
  deriving Decidable

/-- A step of the old task leaves the newer generation alone: the process id
stays, and the state as well unless the newer generation is over, with no
command in progress. -/
def Spares (before after : Proxy) : Prop :=
  after.world.server.pid = before.world.server.pid ∧
    (after.world.server.state = before.world.server.state ∨ ¬ InProgress before)
  deriving Decidable

/-- The cleanup is through, but for a crash restart. -/
def Duty.cleaned : Duty → Bool
  | .claimed | .resuming | .retired => true
  | .idle | .ordered | .running _ | .cleaning _ | .cooling _ => false

/-- Once cleaned up, a command task stays so. -/
private theorem cleaned_kept (duty : Duty) (op : Op) (reply : op.Reply) (permitted : duty.permits op)
    (cleaned : duty.cleaned) : (duty.advance op reply).cleaned := by
  have advanced := Duty.advances permitted reply
  generalize duty.advance op reply = ended at advanced ⊢
  cases advanced <;> first | rfl | exact cleaned

/-- The task of a process cleans up after that process, or is through. -/
private theorem owner_kept (pid : Pid) (duty : Duty) (op : Op) (reply : op.Reply)
    (permitted : duty.permits op) (owner : duty.child? = some pid ∨ duty.cleaned) :
    (duty.advance op reply).child? = some pid ∨ (duty.advance op reply).cleaned := by
  rcases owner with child | cleaned
  · have advanced := Duty.advances permitted reply
    generalize duty.advance op reply = ended at advanced ⊢
    cases advanced <;> first | exact .inl child | exact .inr rfl | cases child
  · exact .inr (cleaned_kept duty op reply permitted cleaned)

/-- All that a task can still change of the state once it has cleaned up is to
start again. -/
private theorem cleaned_begins {duty : Duty} {op : Op} {state : State} (permitted : duty.permits op)
    (cleaned : duty.cleaned) (changes : op.newState state ≠ state) (succeeds : Bool) :
    duty.busy = false ∧ op.Begins state succeeds := by
  cases op with
  | swapState new => rcases permitted with ⟨rfl, -⟩ | ⟨⟨pid, rfl⟩, -⟩ <;> cases cleaned
  | compareExchange current new =>
    have begins (starting : new = .starting) :
        (Op.compareExchange current new).Begins state succeeds := by
      subst starting
      exact .inl (by grind [Op.newState])
    rcases permitted with ⟨rfl, -⟩ | ⟨rfl, -, starting⟩ | ⟨rfl, starting⟩
    · cases cleaned
    · exact ⟨rfl, begins starting⟩
    · exact ⟨rfl, begins starting⟩
  | _ => exact absurd rfl changes

/-- A process that has exited stays so. -/
private theorem exited_kept {config : Config} {condition : Proxy → ProxyMove → Prop}
    {before after : Proxy} {pid : Pid} {status : ExitStatus}
    (continued : (lifecycle config).Reaches condition before after)
    (exited : before.world.children[pid]? = some (some status)) :
    after.world.children[pid]? = some (some status) := by
  induction continued with
  | refl => exact exited
  | @tail middle after _ stepped exited =>
    obtain ⟨move, -, stepped⟩ := stepped
    cases move with
    | call entry =>
      simp only [System.step] at stepped
      split at stepped
      · cases stepped; exact exited
      · cases stepped
    | outside event =>
      obtain ⟨world, acted, rfl⟩ := Option.map_eq_some_iff.mp stepped
      exact World.outside_exited acted exited
    | run index answer =>
      obtain ⟨task, op, next, reply, world, -, -, executed, rfl⟩ := System.step_run stepped
      rw [World.execute_children executed]
      exact op.newChildren_getElem? exited

/-- The moves of the proxy that never overtake a cleanup. -/
def Orderly (proxy : Proxy) (move : ProxyMove) : Prop := ¬ Overtakes proxy move
  deriving Decidable

/-- A step of a task that has cleaned up spares what is in progress. -/
private theorem cleaned_spares {config : Config} {later after : Proxy} {index : Nat} {answer : Bool}
    {task : Task Op Op.Reply Entry} (found : later.tasks[index]? = some task)
    (entry : task.entry = .invokeServerCmd) (cleaned : (duties.stage task).cleaned)
    (reached : (lifecycle config).Reaches Orderly Proxy.boot later)
    (meets : Orderly later (.run index answer))
    (stepped : (lifecycle config).step later (.run index answer) = some after) :
    Spares later after := by
  obtain ⟨here, op, reply, left, right, same, waiting, permitted, executed, -, -⟩ :=
    Protocol.step_run (lifecycle_duties config) reached stepped
  cases found.symm.trans same
  refine ⟨World.execute_get executed .pid fun value written => ?_, ?_⟩
  · subst written
    cases value with
    | some pid =>
      rw [show duties.stage task = .running pid from permitted] at cleaned
      cases cleaned
    | none =>
      obtain ⟨pid, cleaning⟩ := permitted
      rw [cleaning] at cleaned
      cases cleaned
  · -- A change of the state is a crash restart, which finds no command in progress.
    by_cases same : op.newState later.world.server.state = later.world.server.state
    · exact .inl (by rw [World.execute_state executed, same])
    · obtain ⟨free, begins⟩ := cleaned_begins permitted cleaned same answer
      have turn : later.turn? (.run index answer) = some ⟨task, op, answer⟩ :=
        Proxy.turn?_run found waiting
      exact .inr fun busy => meets ⟨⟨_, turn, begins⟩, .inr ⟨_, turn, entry, free, busy⟩⟩

/-- Once a newer generation has begun after a process exited, no step of that
process's command task touches it, as long as no move of the run overtakes a
cleanup. -/
theorem cleanup_spares_newer {config : Config} {exited middle begun later after : Proxy}
    {index : Nat} {task : Task Op Op.Reply Entry} {pid : Pid} {status : ExitStatus}
    {begin_ : ProxyMove} {succeeds : Bool}
    (reached : (lifecycle config).Reaches Orderly Proxy.boot exited)
    (found : exited.tasks[index]? = some task) (entry : task.entry = .invokeServerCmd)
    (owner : (duties.stage task).child? = some pid)
    (dead : exited.world.children[pid]? = some (some status))
    (meanwhile : (lifecycle config).Reaches Orderly exited middle)
    (begins : Begins middle begin_) (orderly : Orderly middle begin_)
    (beginning : (lifecycle config).step middle begin_ = some begun)
    (continued : (lifecycle config).Reaches Orderly begun later)
    (meets : Orderly later (.run index succeeds))
    (stepped : (lifecycle config).step later (.run index succeeds) = some after) :
    Spares later after := by
  obtain ⟨task, found, same, holds⟩ := Protocol.task_keeps (lifecycle_duties config)
    (owner_kept pid) reached meanwhile found (.inl owner)
  have cleaned : (duties.stage task).cleaned := by
    refine holds.resolve_left fun owner => orderly ⟨begins, .inl ?_⟩
    refine ⟨duties.stage task, List.mem_map_of_mem (List.mem_of_getElem? found), pid, owner, ?_⟩
    simp [World.Alive, exited_kept meanwhile dead]
  have onward : (lifecycle config).Reaches Orderly middle later :=
    (Relation.ReflTransGen.single ⟨begin_, orderly, beginning⟩).trans continued
  obtain ⟨task, found, still, cleaned⟩ := Protocol.task_keeps (lifecycle_duties config)
    cleaned_kept (reached.trans meanwhile) onward found cleaned
  exact cleaned_spares found (still.trans (same.trans entry)) cleaned
    ((reached.trans meanwhile).trans onward) meets stepped

/-- A server that came online, and whose process has just ended. -/
private def onlineThenExit (status : ExitStatus) : List ProxyMove :=
  [.call .start] ++ goes 0 5 ++ goes 1 2 ++ [.call (.monitor (.ok dummyStatus) (.ok ()))] ++
    goes 2 2 ++ [.outside (.childExits 0 status)]

/-- The command task of process 0, which has exited with this status, is task 1. -/
private def CommandExited (proxy : Proxy) (status : ExitStatus) : Prop :=
  (∃ task ∈ proxy.tasks[1]?, task.entry = .invokeServerCmd ∧ (duties.stage task).child? = some 0) ∧
    proxy.world.children[0]? = some (some status)
  deriving Decidable

/-- With wake on crash, a client starts the crashed server again right after the
cleanup, before the crash restart. -/
theorem cleanup_spares_newer_restart : ∃ later after : Proxy,
    (lifecycle { server := { wakeOnCrash := true } }).step later (.run 1 true) = some after ∧
      InProgress later ∧ Spares later after := by
  let config : Config := { server := { wakeOnCrash := true } }
  have run : ((lifecycle config).play Orderly Proxy.boot (onlineThenExit (.exited 1))).bind
      (fun exited => ((lifecycle config).play Orderly exited (goes 1 4 ++
          [.outside (.elapse SERVER_QUIT_COOLDOWN)] ++ goes 1 2 ++ [.call .start])).bind
        fun middle => ((lifecycle config).step middle (.run 3 true)).bind
          fun begun => ((lifecycle config).play Orderly begun (goes 1 2)).bind
            fun later => ((lifecycle config).step later (.run 1 true)).map
              fun _ => decide (CommandExited exited (.exited 1) ∧ Begins middle (.run 3 true) ∧
                Orderly middle (.run 3 true) ∧ Orderly later (.run 1 true) ∧ InProgress later)) =
      some true := by decide
  obtain ⟨exited, reached, run⟩ := Option.bind_eq_some_iff.mp run
  obtain ⟨middle, meanwhile, run⟩ := Option.bind_eq_some_iff.mp run
  obtain ⟨begun, beginning, run⟩ := Option.bind_eq_some_iff.mp run
  obtain ⟨later, continued, run⟩ := Option.bind_eq_some_iff.mp run
  obtain ⟨after, stepped, facts⟩ := Option.map_eq_some_iff.mp run
  obtain ⟨⟨⟨task, found, entry, owner⟩, dead⟩, begins, orderly, meets, busy⟩ :=
    of_decide_eq_true facts
  exact ⟨later, after, stepped, busy, cleanup_spares_newer (System.play_reaches reached) found entry
    owner dead (System.play_reaches meanwhile) begins orderly beginning
    (System.play_reaches continued) meets stepped⟩

/-- During the cool-down a poll fails, a client joins, and the second process is
spawned. -/
private def joinDuringCooldown : List ProxyMove :=
  goes 1 3 ++ [.call (.monitor (.error ()) (.error ()))] ++ goes 3 3 ++ [.call .start]

/-- The cleanup then declares the newer generation stopped. -/
theorem cleanup_stops_newer :
    ¬ ∀ (config : Config) (exited middle begun later after : Proxy) (index : Nat)
        (task : Task Op Op.Reply Entry) (pid : Pid) (status : ExitStatus) (begin_ : ProxyMove)
        (succeeds : Bool), (lifecycle config).Reaches (fun _ _ => True) Proxy.boot exited →
      exited.tasks[index]? = some task → task.entry = .invokeServerCmd →
      (duties.stage task).child? = some pid → exited.world.children[pid]? = some (some status) →
      (lifecycle config).Reaches (fun _ _ => True) exited middle → Begins middle begin_ →
      (lifecycle config).step middle begin_ = some begun →
      (lifecycle config).Reaches (fun _ _ => True) begun later →
      (lifecycle config).step later (.run index succeeds) = some after → Spares later after := by
  intro spares
  have run : ((lifecycle {}).play (fun _ _ => True) Proxy.boot (onlineThenExit (.exited 0))).bind
      (fun exited => ((lifecycle {}).play (fun _ _ => True) exited joinDuringCooldown).bind
        fun middle => ((lifecycle {}).step middle (.run 4 true)).bind
          fun begun => ((lifecycle {}).play (fun _ _ => True) begun (goes 4 4 ++ goes 5 2 ++
              [.outside (.elapse SERVER_QUIT_COOLDOWN)] ++ goes 1 1)).bind
            fun later => ((lifecycle {}).step later (.run 1 true)).map
              fun after => decide (CommandExited exited (.exited 0) ∧ Begins middle (.run 4 true) ∧
                ¬ Spares later after)) = some true := by decide
  obtain ⟨exited, reached, run⟩ := Option.bind_eq_some_iff.mp run
  obtain ⟨middle, meanwhile, run⟩ := Option.bind_eq_some_iff.mp run
  obtain ⟨begun, beginning, run⟩ := Option.bind_eq_some_iff.mp run
  obtain ⟨later, continued, run⟩ := Option.bind_eq_some_iff.mp run
  obtain ⟨after, stepped, facts⟩ := Option.map_eq_some_iff.mp run
  obtain ⟨⟨⟨task, found, entry, owner⟩, dead⟩, begins, touches⟩ := of_decide_eq_true facts
  exact touches (spares {} exited middle begun later after 1 task 0 _ _ true
    (System.play_reaches reached) found entry owner dead (System.play_reaches meanwhile) begins
    beginning (System.play_reaches continued) stepped)

end PlexPaper
