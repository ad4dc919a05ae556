import Mathlib.Data.List.Induction
import PlexPaper.LifecyclePrograms

/-! The verdict on an exit. The command task takes an exit for a crash if the
status is a failure and the server counts as started. A stop delivers its
request first and moves the server out of `Started` afterwards, so the verdict
comes too early when the process ends, and is judged, between the two. -/
namespace PlexPaper
open Tasks Server

/-- The exits that `invoke_server_cmd` takes for a stop whatever the state. -/
def ExitStatus.regular (status : ExitStatus) : Bool :=
  status.success || (status.code.map fun code => ALLOWED_EXIT_CODES.contains code).getD false

/-- How far a command task has come in judging the exit of its process. -/
inductive Verdict where
  | elsewhere
  | ordered
  | running (pid : Pid)
  | suspect
  | judged (crashed : Bool)
  | restarted
  deriving DecidableEq

namespace Verdict

def advance (verdict : Verdict) (op : Op) (reply : op.Reply) : Verdict :=
  match verdict, op, reply with
  | .elsewhere, _, _ => .elsewhere
  | _, .compareExchange _ .starting, _ => .restarted
  | .ordered, .spawnChild, .ok pid => .running pid
  | .ordered, .spawnChild, .error _ => .judged false
  | .running _, .waitChild _, .ok status => if status.regular then .judged false else .suspect
  | .running _, .waitChild _, .error _ => .judged false
  | .suspect, .loadState, state => .judged (state = .started)
  | verdict, _, _ => verdict

def permits : Verdict → Op → Prop
  | .running pid, op => op = .write .pid (some pid) ∨ op = .waitChild pid
  | .suspect, op => op = .loadState
  | .judged false, op => ∀ current, op ≠ .compareExchange current .starting
  | _, _ => True

/-- The process is still to be judged. -/
def unsettled : Verdict → Bool
  | .running _ | .suspect => true
  | _ => false

/-- The exit was taken for a crash. -/
def crash : Verdict → Bool
  | .judged true | .restarted => true
  | _ => false

end Verdict

/-- The judgements of the command tasks. -/
abbrev verdicts : Protocol Op Op.Reply Entry where
  Stage := Verdict
  advance := Verdict.advance
  permits := Verdict.permits
  enter
    | .invokeServerCmd => .ordered
    | _ => .elsewhere

section

variable {config : Config}

private theorem judged_quiet {crashed : Bool} (op : Op) (other : ¬ op.Updating) :
    verdicts.QuietAt (.judged crashed) op := by
  cases op with
  | swapState | compareExchange => exact absurd trivial other
  | _ => cases crashed <;> exact ⟨by simp [Verdict.permits], fun _ => rfl⟩

/-- The final update is no verdict. -/
private theorem cleanup_judged (crashed : Bool) :
    UpdateKeeps verdicts.toDiscipline (.judged crashed) config none .stopped := by
  refine updateStateFrom_none_keeps (fun op member _ => judged_quiet op member.not_updating)
    (judged_quiet _ id) (fun value => ?_) (fun same => by cases same) ?_
  · cases crashed <;> exact ⟨by simp [Verdict.permits], fun _ => rfl⟩
  · cases crashed <;> exact ⟨by simp [Verdict.permits], fun _ => rfl⟩

/-- After a crash the order asks for nothing any more. -/
private theorem start_after_crash :
    (start config).Follows verdicts.toDiscipline (.judged true) fun _ _ => True := by
  have free := Program.follows_of_free (d := verdicts.toDiscipline)
    (fun verdict => verdict = .judged true ∨ verdict = .restarted) ?_ ?_ (start config)
    (.inl rfl)
  · exact free.mono fun _ _ _ => trivial
  · rintro verdict op (rfl | rfl) <;> exact trivial
  · intro verdict op reply among
    cases op with
    | compareExchange current new =>
      rcases among with rfl | rfl <;> cases new <;> first | exact .inl rfl | exact .inr rfl
    | _ => rcases among with rfl | rfl <;> first | exact .inl rfl | exact .inr rfl

/-- What the command task does once the exit is judged. -/
private theorem cleanup_follows (crashed : Bool) : (do
      perform (.write .pid none)
      Server.sleep SERVER_QUIT_COOLDOWN
      let _ ← Server.updateState config .stopped
      if crashed && config.server.wakeOnCrash then
        let _ ← Server.start config
      return .ok () : ServerM (Except Unit Unit)).Follows verdicts.toDiscipline (.judged crashed)
        fun _ _ => True := by
  have background : Unbothered verdicts.toDiscipline (.judged crashed) :=
    fun op member _ => judged_quiet op member.not_updating
  refine Program.follows_bind.mpr ((Program.Keeps.perform (judged_quiet _ id)).follows fun _ => ?_)
  refine Program.follows_bind.mpr ((sleep_keeps background _).follows fun _ => ?_)
  refine Program.follows_bind.mpr ((cleanup_judged crashed).follows fun _ => ?_)
  dsimp only
  split
  · rename_i restarts
    obtain rfl : crashed = true := (Bool.and_eq_true_iff.mp restarts).1
    exact Program.follows_bind.mpr (start_after_crash.mono fun _ _ _ => trivial)
  · trivial

/-- The command task judges the exit of its process before it cleans up. -/
private theorem command_judges :
    (invokeServerCmd config).Follows verdicts.toDiscipline .ordered fun _ _ => True := by
  refine Program.follows_bind.mpr ⟨trivial, fun reply => ?_⟩
  cases reply with
  | error _ => trivial
  | ok pid =>
    refine Program.follows_bind.mpr ⟨.inl rfl, fun _ => ?_⟩
    refine Program.follows_bind.mpr ⟨.inr rfl, fun reply => ?_⟩
    cases reply with
    | error _ => exact cleanup_follows false
    | ok status =>
      refine Program.follows_pure.mpr ?_
      show Program.Follows verdicts.toDiscipline _ (if status.regular then .judged false else .suspect) _
      dsimp only
      by_cases success : status.success = true
      · have regular : status.regular = true := by simp [ExitStatus.regular, success]
        rw [if_pos success, if_pos regular]
        exact cleanup_follows false
      rw [if_neg success]
      by_cases allowed : (status.code.map fun code => ALLOWED_EXIT_CODES.contains code).getD false
      · have regular : status.regular = true := by
          simp only [ExitStatus.regular, allowed, Bool.or_true]
        rw [if_pos allowed, if_pos regular]
        exact cleanup_follows false
      · have suspected : ¬ status.regular = true := by
          simp only [ExitStatus.regular, success, allowed, Bool.or_self, Bool.false_eq_true,
            not_false_eq_true]
        rw [if_neg allowed, if_neg suspected]
        exact Program.follows_bind.mpr ⟨rfl, fun state => cleanup_follows _⟩

/-- Every task of the proxy keeps to its verdict. -/
theorem lifecycle_verdicts (config : Config) : (lifecycle config).Obeys verdicts := by
  intro entry _
  have others : ∀ entry : Entry, verdicts.enter entry = .elsewhere →
      ((lifecycle config).body entry).Follows verdicts.toDiscipline (verdicts.enter entry)
        fun _ _ => True := by
    intro entry entered
    have free := Program.follows_of_free (d := verdicts.toDiscipline)
      (fun verdict => verdict = .elsewhere)
      (by rintro verdict op rfl; trivial) (by rintro verdict op reply rfl; rfl)
      ((lifecycle config).body entry) entered
    exact free.mono fun _ _ _ => trivial
  cases entry with
  | invokeServerCmd => exact Program.follows_bind.mpr (command_judges.mono fun _ _ _ => trivial)
  | start | stop | updateStatus | monitor | interrupt => apply others; rfl

end

/-- The task has tried to start the server again. -/
def Restarts (task : Task Op Op.Reply Entry) : Prop :=
  ∃ done ∈ task.log, ∃ current, done.1 = .compareExchange current .starting

namespace Verdict

variable {verdict : Verdict} {op : Op} {reply : op.Reply}

theorem advance_restarted : advance .restarted op reply = .restarted := by
  cases op with
  | compareExchange current new => cases new <;> rfl
  | _ => rfl

theorem advance_exchange (known : verdict ≠ .elsewhere) {current : State}
    (exchange : op = .compareExchange current .starting) : verdict.advance op reply = .restarted := by
  subst exchange
  cases verdict with
  | elsewhere => exact absurd rfl known
  | _ => rfl

theorem advance_acquitted (permitted : permits (.judged false) op) :
    advance (.judged false) op reply = .judged false := by
  cases op with
  | compareExchange current new =>
    cases new with
    | starting => exact absurd rfl (permitted current)
    | _ => rfl
  | _ => rfl

end Verdict

/-- The verdict of a command task that has tried to start the server again. -/
theorem restarted_of_restarts {task : Task Op Op.Reply Entry}
    (known : verdicts.stage task ≠ .elsewhere) (restarts : Restarts task) :
    verdicts.stage task = .restarted := by
  obtain ⟨entry, log, rest⟩ := task
  simp only [Protocol.stage, Restarts] at known restarts ⊢
  induction log using List.reverseRecOn with
  | nil => simp at restarts
  | append_singleton log done ih =>
    simp only [List.foldl_append, List.foldl_cons, List.foldl_nil] at known ⊢
    have before : log.foldl (fun verdict done => verdicts.advance verdict done.1 done.2)
        (verdicts.enter entry) ≠ .elsewhere := by
      intro elsewhere
      rw [elsewhere] at known
      exact known rfl
    obtain ⟨other, member, current, exchange⟩ := restarts
    rcases List.mem_append.mp member with old | new
    · rw [ih before ⟨other, old, current, exchange⟩]
      exact Verdict.advance_restarted
    · rw [List.mem_singleton.mp new] at exchange
      exact Verdict.advance_exchange before exchange

/-- Stops that were delivered, until the update that follows. -/
abbrev requests : Protocol Op Op.Reply Entry where
  Stage := Bool
  advance asked op reply := match op, reply with
    | .sendSignal _ .sigterm, true | .rconCommand, _ => true
    | .compareExchange .started .stopping, _ | .swapState .stopping, _ => false
    | _, _ => asked
  permits _ _ := True
  enter _ := false

/-- The operation asks the process to stop. A command may arrive unacknowledged. -/
def Op.asks (op : Op) (succeeds : Bool) (pid : Pid) : Bool :=
  match op with
  | .sendSignal target .sigterm => target = pid && succeeds
  | .rconCommand => true
  | _ => false

/-- The task delivers a stop to a process that is alive. -/
def Delivers (proxy : Proxy) (move : ProxyMove) (stopper : Nat) (pid : Pid) : Prop :=
  move.task? = some stopper ∧ proxy.world.Alive pid ∧
    ∃ turn ∈ proxy.turn? move, turn.op.asks turn.succeeds pid
  deriving Decidable

/-- The exit is about to be judged in `Started`, before the update of the stop. -/
def Hasty (stopper command : Nat) (proxy : Proxy) (move : ProxyMove) : Prop :=
  move.task? = some command ∧ proxy.world.server.state = .started ∧
    (∃ task ∈ proxy.tasks[command]?, verdicts.stage task = .suspect) ∧
    ∃ task ∈ proxy.tasks[stopper]?, requests.stage task = true
  deriving Decidable

/-- The server is moved to `Started` after the update of the stop, before the
exit has been judged. -/
def Relapses (stopper command : Nat) (proxy : Proxy) (move : ProxyMove) : Prop :=
  (∃ turn ∈ proxy.turn? move, turn.op.newState proxy.world.server.state = .started ∧
    proxy.world.server.state ≠ .started) ∧
    (∃ task ∈ proxy.tasks[command]?, (verdicts.stage task).unsettled) ∧
    ∃ task ∈ proxy.tasks[stopper]?, requests.stage task = false
  deriving Decidable

/-- A stop was delivered, and its exit has not been taken for a crash. While it
is to be judged, the update of the stop is still to be made, or the server is
not started. -/
def Expected (stopper command : Nat) (proxy : Proxy) : Prop :=
  ∃ asker, proxy.tasks[stopper]? = some asker ∧ ∃ judge, proxy.tasks[command]? = some judge ∧
    (verdicts.stage judge = .judged false ∨ (verdicts.stage judge).unsettled ∧
      (requests.stage asker = true ∨ proxy.world.server.state ≠ .started))

/-- An update that ends a request leaves `Started`. -/
private theorem settled_leaves {op : Op} {reply : op.Reply} (state : State)
    (settles : requests.advance true op reply = false) : op.newState state ≠ .started := by
  have updates : op = .compareExchange .started .stopping ∨ op = .swapState .stopping := by
    cases op with
    | compareExchange current new =>
      cases current <;> cases new <;> first | exact .inl rfl | cases settles
    | swapState new => cases new <;> first | exact .inr rfl | cases settles
    | sendSignal pid signal => cases signal <;> cases reply <;> cases settles
    | _ => cases settles
  rcases updates with rfl | rfl
  · simp only [Op.newState]
    grind
  · simp [Op.newState]

/-- An operation of the judge, when it does not judge in `Started`. -/
private theorem judge_proceeds {verdict : Verdict} {op : Op} {reply : op.Reply} {world after : World}
    {succeeds : Bool} (unsettled : verdict.unsettled) (permitted : verdict.permits op)
    (executed : world.execute op succeeds = some (reply, after))
    (fair : verdict = .suspect → world.server.state ≠ .started) :
    verdict.advance op reply = .judged false ∨ (verdict.advance op reply).unsettled := by
  cases verdict with
  | running pid =>
    rcases permitted with rfl | rfl
    · exact .inr rfl
    · cases reply with
      | ok status =>
        by_cases regular : status.regular = true
        · exact .inl (if_pos regular)
        · refine .inr ?_
          have suspected : (Verdict.running pid).advance (.waitChild pid) (.ok status) = .suspect :=
            if_neg regular
          rw [suspected]
          rfl
      | error _ => exact .inl rfl
  | suspect =>
    cases permitted
    cases World.perform_of_execute executed
    exact .inl (congrArg Verdict.judged (decide_eq_false (fair rfl)))
  | _ => cases unsettled

section

variable {config : Config} {stopper command : Nat} {before after : Proxy} {move : ProxyMove}
  {asker judge : Task Op Op.Reply Entry}

/-- The task that asked either still has its update to make, or the server is
not started after the step. -/
private theorem asker_step (stepped : (lifecycle config).step before move = some after)
    (found : before.tasks[stopper]? = some asker)
    (fair : requests.stage asker = true ∨ before.world.server.state ≠ .started)
    (stays : requests.stage asker = false → before.world.server.state ≠ .started →
      after.world.server.state ≠ .started) :
    ∃ later, after.tasks[stopper]? = some later ∧
      (requests.stage later = true ∨ after.world.server.state ≠ .started) := by
  rcases System.step_task stepped found with ⟨same, -⟩ | ⟨_, op, next, reply, -, -, executed, now⟩
  · refine ⟨asker, same, ?_⟩
    cases asked : requests.stage asker with
    | true => exact .inl rfl
    | false => exact .inr (stays asked (by simpa [asked] using fair))
  · refine ⟨_, now, ?_⟩
    cases asked : requests.stage asker with
    | true =>
      rw [Protocol.stage_proceed, asked, World.execute_state executed]
      cases settles : requests.advance true op reply with
      | true => exact .inl rfl
      | false => exact .inr (settled_leaves _ settles)
    | false => exact .inr (stays asked (by simpa [asked] using fair))

/-- The command task either still has the exit to judge, or has judged it no crash. -/
private theorem judge_step (reached : (lifecycle config).Reaches (fun _ _ => True) Proxy.boot before)
    (stepped : (lifecycle config).step before move = some after)
    (found : before.tasks[command]? = some judge)
    (open_ : verdicts.stage judge = .judged false ∨ (verdicts.stage judge).unsettled)
    (fair : move.task? = some command → verdicts.stage judge = .suspect →
      before.world.server.state ≠ .started) :
    ∃ later, after.tasks[command]? = some later ∧ (verdicts.stage later = .judged false ∨
      (verdicts.stage later).unsettled ∧ (verdicts.stage judge).unsettled) := by
  rcases System.step_task stepped found with
    ⟨same, -⟩ | ⟨succeeds, op, next, reply, runs, waiting, executed, now⟩
  · exact ⟨judge, same, open_.imp id fun unsettled => ⟨unsettled, unsettled⟩⟩
  · refine ⟨_, now, ?_⟩
    rw [Protocol.stage_proceed]
    have onTrack := Protocol.tasks_follow (lifecycle_verdicts config) reached judge
      (List.mem_of_getElem? found)
    have permitted := onTrack.permits waiting
    rcases open_ with acquitted | unsettled
    · rw [acquitted] at permitted ⊢
      exact .inl (Verdict.advance_acquitted permitted)
    · have judged := judge_proceeds unsettled permitted executed (fair (runs ▸ rfl))
      exact judged.imp id fun unsettledNow => ⟨unsettledNow, unsettled⟩

/-- A step that neither judges hastily nor relapses keeps the stop expected. -/
private theorem expected_step
    (reached : (lifecycle config).Reaches (fun _ _ => True) Proxy.boot before)
    (expected : Expected stopper command before)
    (stepped : (lifecycle config).step before move = some after)
    (timely : ¬ Hasty stopper command before move)
    (kept : ¬ Relapses stopper command before move) : Expected stopper command after := by
  obtain ⟨asker, askerFound, judge, judgeFound, fair⟩ := expected
  obtain ⟨judgeNow, judgeThere, judges⟩ := judge_step reached stepped judgeFound
    (fair.imp id And.left) fun runs suspect started => by
      have asked : requests.stage asker = true := by simpa [suspect, started, Verdict.unsettled] using fair
      exact timely ⟨runs, started, ⟨judge, judgeFound, suspect⟩, asker, askerFound, asked⟩
  rcases judges with acquitted | ⟨unsettledNow, unsettled⟩
  · obtain ⟨askerNow, askerThere⟩ : ∃ later, after.tasks[stopper]? = some later := by
      rcases System.step_task stepped askerFound with ⟨same, -⟩ | ⟨_, _, _, _, -, -, -, now⟩
      · exact ⟨_, same⟩
      · exact ⟨_, now⟩
    exact ⟨askerNow, askerThere, judgeNow, judgeThere, .inl acquitted⟩
  · have asked : requests.stage asker = true ∨ before.world.server.state ≠ .started := by
      rcases fair with acquitted | ⟨-, asked⟩
      · simp [acquitted, Verdict.unsettled] at unsettled
      · exact asked
    obtain ⟨askerNow, askerThere, asks⟩ := asker_step stepped askerFound asked fun done left started => by
      rcases Proxy.step_state stepped with same | ⟨turn, turned, moved⟩
      · exact left (same ▸ started)
      · exact kept ⟨⟨turn, turned, moved ▸ started, left⟩, ⟨judge, judgeFound, unsettled⟩,
          asker, askerFound, done⟩
    exact ⟨askerNow, askerThere, judgeNow, judgeThere, .inr ⟨unsettledNow, asks⟩⟩

/-- Delivering a stop makes it expected. -/
private theorem expected_of_delivers {pid : Pid}
    (reached : (lifecycle config).Reaches (fun _ _ => True) Proxy.boot before)
    (found : before.tasks[command]? = some judge) (running : verdicts.stage judge = .running pid)
    (delivers : Delivers before move stopper pid)
    (stepped : (lifecycle config).step before move = some after) : Expected stopper command after := by
  obtain ⟨runs, -, turn, turned, asks⟩ := delivers
  obtain ⟨index, rfl, askerFound, waits⟩ := Proxy.run_of_turn turned
  cases runs
  obtain ⟨judgeNow, judgeThere, judges⟩ := judge_step reached stepped found
    (.inr (by rw [running]; rfl)) fun _ suspect => by cases running.symm.trans suspect
  rcases System.step_task stepped askerFound with
    ⟨-, other⟩ | ⟨succeeds, op, next, reply, same, waiting, executed, now⟩
  · exact absurd rfl (other _)
  cases same
  have asked : requests.advance (requests.stage turn.task) op reply = true := by
    have performs : turn.op = op := by
      simpa [Task.next?, waiting, Program.next?, eq_comm] using waits
    rw [performs] at asks
    cases op with
    | sendSignal target signal =>
      cases signal with
      | sigterm =>
        have performed := World.perform_of_execute executed
        simp only [World.perform, Option.some.injEq, Prod.mk.injEq] at performed
        rw [← performed.1, (Bool.and_eq_true_iff.mp asks).2]
      | _ => cases asks
    | rconCommand => rfl
    | _ => cases asks
  refine ⟨_, now, judgeNow, judgeThere, judges.imp id fun unsettled => ⟨unsettled.1, .inl ?_⟩⟩
  rw [Protocol.stage_proceed, asked]

end

/-- An exit is not taken for a crash, and the server not started again, once a
stop was delivered to the process alive, as long as its exit is not judged
between the delivery and the update of the stop while the server is started, and
the server is not moved back to `Started` before it is judged. -/
theorem requested_stop_not_crash {config : Config} {before asked later : Proxy}
    {stopper command : Nat} {pid : Pid} {move : ProxyMove} {judge : Task Op Op.Reply Entry}
    (reached : (lifecycle config).Reaches (fun _ _ => True) Proxy.boot before)
    (found : before.tasks[command]? = some judge) (running : verdicts.stage judge = .running pid)
    (delivers : Delivers before move stopper pid)
    (stepped : (lifecycle config).step before move = some asked)
    (continues : (lifecycle config).Reaches
      (fun proxy move => ¬ Hasty stopper command proxy move ∧ ¬ Relapses stopper command proxy move)
      asked later) :
    ∃ task, later.tasks[command]? = some task ∧ (verdicts.stage task).crash = false ∧
      ¬ Restarts task := by
  have asks := expected_of_delivers reached found running delivers stepped
  have expected : (lifecycle config).Reaches (fun _ _ => True) Proxy.boot later ∧
      Expected stopper command later := by
    induction continues with
    | refl => exact ⟨reached.tail ⟨move, trivial, stepped⟩, asks⟩
    | tail _ stepped ih =>
      obtain ⟨move, ⟨timely, kept⟩, stepped⟩ := stepped
      exact ⟨ih.1.tail ⟨move, trivial, stepped⟩, expected_step ih.1 ih.2 stepped timely kept⟩
  obtain ⟨-, asker, -, task, there, fair⟩ := expected
  have open_ : verdicts.stage task = .judged false ∨ (verdicts.stage task).unsettled :=
    fair.imp id And.left
  refine ⟨task, there, ?_, fun restarts => ?_⟩
  · cases stage : verdicts.stage task <;> simp_all [Verdict.crash, Verdict.unsettled]
  · have restarted := restarted_of_restarts ?_ restarts
    · rw [restarted] at open_
      rcases open_ with same | same <;> cases same
    · intro elsewhere
      rw [elsewhere] at open_
      rcases open_ with same | same <;> cases same

/-- Task 3 is about to send SIGTERM to a started server, which task 1 runs. -/
private def aboutToStop : List ProxyMove :=
  [.call .start] ++ goes 0 5 ++ goes 1 2 ++ [.call (.monitor (.ok dummyStatus) (.ok ()))] ++
    goes 2 14 ++ [.call .stop] ++ goes 3 2

private def wakes : Config := { server := { wakeOnCrash := true } }

private abbrev Timely (proxy : Proxy) (move : ProxyMove) : Prop :=
  ¬ Hasty 3 1 proxy move ∧ ¬ Relapses 3 1 proxy move

/-- The process fails on its way down, after the server was moved to `Stopping`. -/
theorem requested_stop_not_crash_failing : ∃ before asked later judge,
    (lifecycle wakes).play (fun _ _ => True) Proxy.boot aboutToStop = some before ∧
    before.tasks[1]? = some judge ∧ Delivers before (.run 3 true) 3 0 ∧
    (lifecycle wakes).step before (.run 3 true) = some asked ∧
    (lifecycle wakes).play Timely asked
      (goes 3 2 ++ [.outside (.childExits 0 (.exited 1))] ++ goes 1 2) = some later ∧
    ∃ task, later.tasks[1]? = some task ∧ (verdicts.stage task).crash = false ∧ ¬ Restarts task := by
  have shown : ((lifecycle wakes).play (fun _ _ => True) Proxy.boot aboutToStop).bind (fun before =>
      ((lifecycle wakes).step before (.run 3 true)).bind fun asked =>
        ((lifecycle wakes).play Timely asked
          (goes 3 2 ++ [.outside (.childExits 0 (.exited 1))] ++ goes 1 2)).map fun _ =>
            decide (Delivers before (.run 3 true) 3 0 ∧
              before.tasks[1]?.map verdicts.stage = some (.running 0))) = some true := by decide
  obtain ⟨before, played, shown⟩ := Option.bind_eq_some_iff.mp shown
  obtain ⟨asked, stepped, shown⟩ := Option.bind_eq_some_iff.mp shown
  obtain ⟨later, continued, facts⟩ := Option.map_eq_some_iff.mp shown
  obtain ⟨delivers, running⟩ := of_decide_eq_true facts
  obtain ⟨judge, found, running⟩ := Option.map_eq_some_iff.mp running
  exact ⟨before, asked, later, judge, played, found, delivers, stepped, continued,
    requested_stop_not_crash (System.play_reaches played) found running delivers stepped
      (System.play_reaches continued)⟩

/-- The process fails on its way down before the server is moved, and the exit
is judged at once. -/
private def judgedEarly : List ProxyMove :=
  [.outside (.childExits 0 (.exited 1))] ++ goes 1 4 ++ [.outside (.elapse SERVER_QUIT_COOLDOWN)] ++
    goes 1 5

/-- The server is started again then. -/
theorem failing_stop_restarts :
    ¬ ∀ (config : Config) (before asked later : Proxy) (stopper command : Nat) (pid : Pid)
      (move : ProxyMove) (judge : Task Op Op.Reply Entry),
      (lifecycle config).Reaches (fun _ _ => True) Proxy.boot before →
      before.tasks[command]? = some judge → verdicts.stage judge = .running pid →
      Delivers before move stopper pid → (lifecycle config).step before move = some asked →
      (lifecycle config).Reaches (fun _ _ => True) asked later →
      ∃ task, later.tasks[command]? = some task ∧ (verdicts.stage task).crash = false ∧
        ¬ Restarts task := by
  intro every
  have shown : ((lifecycle wakes).play (fun _ _ => True) Proxy.boot aboutToStop).bind (fun before =>
      ((lifecycle wakes).step before (.run 3 true)).bind fun asked =>
        ((lifecycle wakes).play (fun _ _ => True) asked judgedEarly).map fun later =>
            decide (Delivers before (.run 3 true) 3 0 ∧
              before.tasks[1]?.map verdicts.stage = some (.running 0) ∧
              later.tasks[1]?.map verdicts.stage = some .restarted)) = some true := by decide
  obtain ⟨before, played, shown⟩ := Option.bind_eq_some_iff.mp shown
  obtain ⟨asked, stepped, shown⟩ := Option.bind_eq_some_iff.mp shown
  obtain ⟨later, continued, facts⟩ := Option.map_eq_some_iff.mp shown
  obtain ⟨delivers, running, restarted⟩ := of_decide_eq_true facts
  obtain ⟨judge, found, running⟩ := Option.map_eq_some_iff.mp running
  obtain ⟨task, there, crash, -⟩ := every wakes before asked later 3 1 0 (.run 3 true) judge
    (System.play_reaches played) found running delivers stepped (System.play_reaches continued)
  rw [there] at restarted
  rw [Option.some.inj restarted] at crash
  cases crash

end PlexPaper
