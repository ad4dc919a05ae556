import PlexPaper.LifecyclePrograms

/-! Which task is responsible for the server process. `start` claims the server
by its compare-exchange and hands the claim to a command task, which spawns the
process, waits for it, and cleans up after it. What a task has done says how far
it has come in this; `Advances` lists everything one of its operations can do. -/
namespace PlexPaper
open Tasks Server

/-- The responsibility of a task for the server process. -/
inductive Duty where
  | idle
  | claimed
  | resuming
  | ordered
  | running (pid : Pid)
  | cleaning (pid : Pid)
  | cooling (pid : Pid)
  | retired
  deriving DecidableEq

namespace Duty

def advance (duty : Duty) (op : Op) (reply : op.Reply) : Duty :=
  match duty, op, reply with
  | .idle, .compareExchange current new, reply =>
    if (Op.compareExchange current new).moved reply = some .starting then .claimed else .idle
  | .retired, .compareExchange current new, reply =>
    if (Op.compareExchange current new).moved reply = some .starting then .claimed else .retired
  | .claimed, .spawnServerTask, _ => .retired
  | .claimed, .sendSignal _ .sigcont, _ => .resuming
  | .ordered, .spawnChild, .ok pid => .running pid
  | .ordered, .spawnChild, .error _ => .retired
  | .running pid, .waitChild _, _ => .cleaning pid
  | .cleaning pid, .write .pid none, _ => .cooling pid
  | .cooling _, .swapState _, _ => .retired
  | duty, _, _ => duty

/-- Which of the operations that matter a task performs in which stage. -/
def permits : Duty → Op → Prop
  | duty, .swapState new =>
    (duty = .idle ∧ new ≠ .starting) ∨ ((∃ pid, duty = .cooling pid) ∧ new = .stopped)
  | duty, .compareExchange current new =>
    (duty = .idle ∧ (new = .starting → current = .stopped)) ∨
      (duty = .retired ∧ current = .stopped ∧ new = .starting) ∨
      (duty = .resuming ∧ new = .starting)
  | duty, .spawnServerTask | duty, .sendSignal _ .sigcont => duty = .claimed
  | duty, .spawnChild => duty = .ordered
  | duty, .waitChild pid => duty = .running pid
  | duty, .write .pid (some pid) => duty = .running pid
  | duty, .write .pid none => ∃ pid, duty = .cleaning pid
  | _, _ => True

/-- A command is in progress from the claim to the end of its cleanup. -/
def busy : Duty → Bool
  | .claimed | .ordered | .running _ | .cleaning _ | .cooling _ => true
  | .idle | .resuming | .retired => false

/-- The process the task has spawned and not yet cleaned up after. -/
def child? : Duty → Option Pid
  | .running pid | .cleaning pid | .cooling pid => some pid
  | .idle | .claimed | .resuming | .ordered | .retired => none

end Duty

/-- The life of a claim. The command task is spawned to carry it out. -/
abbrev duties : Protocol Op Op.Reply Entry where
  Stage := Duty
  advance := Duty.advance
  permits := Duty.permits
  enter
    | .invokeServerCmd => .ordered
    | _ => .idle

/-- A command is in progress. -/
def InProgress (proxy : Proxy) : Prop := ∃ duty ∈ duties.stages proxy, Duty.busy duty
  deriving Decidable

/-- Operations that leave the state, the processes and the recorded process id
alone. -/
def Op.Calm : Op → Prop
  | .swapState _ | .compareExchange _ _ | .write .pid _ | .spawnServerTask | .spawnChild => False
  | _ => True

namespace Op

variable {op : Op}

theorem Calm.newState (calm : op.Calm) (state : State) : op.newState state = state := by
  cases op <;> first | rfl | exact calm.elim

theorem Calm.newChildren (calm : op.Calm) (succeeds : Bool) (children : List (Option ExitStatus)) :
    op.newChildren succeeds children = children := by
  cases op <;> first | rfl | exact calm.elim

theorem Calm.spawns (calm : op.Calm) (config : Config) : (lifecycle config).spawns op = [] := by
  cases op <;> first | rfl | exact calm.elim

theorem Updating.newChildren (updating : op.Updating) (succeeds : Bool)
    (children : List (Option ExitStatus)) : op.newChildren succeeds children = children := by
  cases op <;> first | rfl | exact updating.elim

theorem Updating.spawns (updating : op.Updating) (config : Config) :
    (lifecycle config).spawns op = [] := by
  cases op <;> first | rfl | exact updating.elim

end Op

/-- Everything a permitted operation can do to the duty of its task. -/
inductive Advances : Duty → (op : Op) → op.Reply → Duty → Prop where
  | claims {duty : Duty} {reply : Except State State} (free : duty = .idle ∨ duty = .retired)
      (moved : (Op.compareExchange .stopped .starting).moved reply = some .starting) :
      Advances duty (.compareExchange .stopped .starting) reply .claimed
  | handsOver : Advances .claimed .spawnServerTask () .retired
  | resumes (pid : Pid) (reply : Bool) : Advances .claimed (.sendSignal pid .sigcont) reply .resuming
  | spawns (pid : Pid) : Advances .ordered .spawnChild (.ok pid) (.running pid)
  | fails : Advances .ordered .spawnChild (.error ()) .retired
  | records (pid : Pid) : Advances (.running pid) (.write .pid (some pid)) () (.running pid)
  | ends (pid : Pid) (reply : Except Unit ExitStatus) :
      Advances (.running pid) (.waitChild pid) reply (.cleaning pid)
  | takes (pid : Pid) : Advances (.cleaning pid) (.write .pid none) () (.cooling pid)
  | retires (pid : Pid) (old : State) : Advances (.cooling pid) (.swapState .stopped) old .retired
  | updates {op : Op} {reply : op.Reply} (updating : op.Updating)
      (other : op.moved reply ≠ some .starting) : Advances .idle op reply .idle
  | restores (current : State) (reply : Except State State) :
      Advances .resuming (.compareExchange current .starting) reply .resuming
  | misses {reply : Except State State}
      (unmoved : (Op.compareExchange .stopped .starting).moved reply ≠ some .starting) :
      Advances .retired (.compareExchange .stopped .starting) reply .retired
  | keeps {duty : Duty} {op : Op} {reply : op.Reply} (calm : op.Calm) : Advances duty op reply duty

/-- A compare-exchange only ever moves to its new state. -/
theorem exchange_moved {current new state : State} {reply : Except State State}
    (moved : (Op.compareExchange current new).moved reply = some state) : state = new := by
  cases reply with
  | error _ => cases moved
  | ok old =>
    simp only [Op.moved] at moved
    split at moved
    · cases moved
    · exact (Option.some.inj moved).symm

/-- What a permitted operation can do. -/
theorem Duty.advances {duty : Duty} {op : Op} (permitted : duty.permits op) (reply : op.Reply) :
    Advances duty op reply (duty.advance op reply) := by
  cases op with
  | swapState new =>
    rcases permitted with ⟨rfl, other⟩ | ⟨⟨pid, rfl⟩, rfl⟩
    · exact .updates trivial (by simp [Op.moved, other])
    · exact .retires pid reply
  | compareExchange current new =>
    by_cases moved : (Op.compareExchange current new).moved reply = some .starting
    · cases exchange_moved moved
      rcases permitted with ⟨rfl, claim⟩ | ⟨rfl, rfl, -⟩ | ⟨rfl, -⟩
      · cases claim rfl
        simpa [advance, moved] using Advances.claims (.inl rfl) moved
      · simpa [advance, moved] using Advances.claims (.inr rfl) moved
      · exact .restores current reply
    · rcases permitted with ⟨rfl, -⟩ | ⟨rfl, rfl, rfl⟩ | ⟨rfl, rfl⟩
      · have updates : Advances .idle (.compareExchange current new) reply .idle :=
          .updates trivial moved
        simpa [advance, moved] using updates
      · simpa [advance, moved] using Advances.misses moved
      · exact .restores current reply
  | spawnServerTask => cases permitted; exact .handsOver
  | spawnChild =>
    cases permitted
    cases reply with
    | ok pid => exact .spawns pid
    | error _ => exact .fails
  | waitChild pid => cases permitted; exact .ends pid reply
  | sendSignal pid signal =>
    cases signal with
    | sigcont => cases permitted; exact .resumes pid reply
    | sigkill | sigterm | sigstop => cases duty <;> exact .keeps trivial
  | write cell value =>
    cases cell with
    | pid =>
      cases value with
      | some pid => cases permitted; exact .records pid
      | none => obtain ⟨pid, rfl⟩ := permitted; exact .takes pid
    | _ => cases duty <;> exact .keeps trivial
  | _ => cases duty <;> exact .keeps trivial

/-! ## The source keeps to the duties -/

section

variable {config : Config}

private theorem background_quiet (duty : Duty) : Undisturbed duties.toDiscipline duty := by
  intro op background
  cases op with
  | write cell value =>
    cases cell <;> first | exact background.elim | (cases duty <;> exact ⟨trivial, fun _ => rfl⟩)
  | sendSignal pid signal =>
    cases signal <;> first | exact background.elim | (cases duty <;> exact ⟨trivial, fun _ => rfl⟩)
  | swapState | compareExchange | spawnServerTask | spawnChild | waitChild => exact background.elim
  | _ => cases duty <;> exact ⟨trivial, fun _ => rfl⟩

private theorem bookkeeping_quiet (duty : Duty) : Bookkept duties.toDiscipline duty := by
  intro op bookkeeping
  cases op with
  | write cell value =>
    cases cell <;> first | exact bookkeeping.elim | (cases duty <;> exact ⟨trivial, fun _ => rfl⟩)
  | _ => exact bookkeeping.elim

private theorem sending_quiet (duty : Duty) (new : State) :
    duties.QuietAt duty (.sendState new) := by
  cases duty <;> exact ⟨trivial, fun _ => rfl⟩

private theorem arming_quiet (duty : Duty) (value : Option Instant) :
    duties.QuietAt duty (.write .killAt value) := by
  cases duty <;> exact ⟨trivial, fun _ => rfl⟩

/-- A task without a duty may update to anything but a claim. -/
private theorem idle_update (current : Option State) (new : State) (other : new ≠ .starting) :
    UpdateKeeps duties.toDiscipline .idle config current new := by
  cases current with
  | none =>
    exact updateStateFrom_none_keeps (background_quiet .idle).unbothered (sending_quiet .idle _)
      (arming_quiet .idle)
      (fun _ => bookkeeping_quiet .idle) ⟨.inl ⟨rfl, other⟩, fun _ => rfl⟩
  | some current =>
    refine updateStateFrom_some_keeps (background_quiet .idle).unbothered (sending_quiet .idle _)
      (arming_quiet .idle)
      (fun _ => bookkeeping_quiet .idle) ⟨?_, ?_⟩
    · exact .inl ⟨rfl, fun same => absurd same other⟩
    · intro reply
      apply if_neg
      intro moved
      exact other (exchange_moved moved).symm

private theorem idle_stops : StopUpdates duties.toDiscipline .idle config where
  rcon := idle_update _ _ (by decide)
  starting := idle_update _ _ (by decide)
  started := idle_update _ _ (by decide)
  frozen _ := ⟨idle_update _ _ (by decide), idle_update _ _ (by decide)⟩

/-- A free task that wins the claim has it. -/
private theorem claim_follows {duty : Duty} (free : duty = .idle ∨ duty = .retired) :
    (updateStateFrom config (some .stopped) .starting).Follows duties.toDiscipline duty
      fun won ended => if won then ended = Duty.claimed else ended = duty := by
  refine updateStateFrom_some_follows (d := duties.toDiscipline) ?_ (fun reply unmoved => ?_)
    fun reply moved => ?_
  · rcases free with rfl | rfl
    · exact .inl ⟨rfl, fun _ => rfl⟩
    · exact .inr (.inl ⟨rfl, rfl, rfl⟩)
  · rcases free with rfl | rfl <;> exact if_neg (by simp [unmoved])
  · have claimed : duty.advance (.compareExchange .stopped .starting) reply = .claimed := by
      rcases free with rfl | rfl <;> exact if_pos moved
    have settled : (settle config .starting).Keeps duties.toDiscipline Duty.claimed :=
      settle_keeps (background_quiet .claimed).unbothered (sending_quiet .claimed _) (arming_quiet .claimed)
        fun same => by cases same
    exact claimed ▸ settled

private theorem start_on_duty {duty : Duty} (free : duty = .idle ∨ duty = .retired) :
    (start config).Follows duties.toDiscipline duty fun _ _ => True := by
  have restored (current : State) :
      UpdateKeeps duties.toDiscipline .resuming config (some current) .starting :=
    updateStateFrom_some_keeps (background_quiet .resuming).unbothered (sending_quiet .resuming _)
      (arming_quiet .resuming)
      (fun same => by cases same) ⟨.inr (.inr ⟨rfl, rfl⟩), fun _ => rfl⟩
  refine start_follows (d := duties.toDiscipline) Duty.claimed Duty.resuming
    ((claim_follows free).mono fun won ended claims => ?_)
    (unfreezeServerSignal_follows (background_quiet .claimed).unbothered (fun pid => ⟨rfl, fun _ => rfl⟩)
      (restored .stopping) (restored .stopped)) trivial ⟨rfl, trivial⟩
  cases won with
  | true => exact claims
  | false => trivial

private theorem command_on_duty :
    (invokeServerCmd config).Follows duties.toDiscipline .ordered fun _ _ => True := by
  refine invokeServerCmd_follows (d := duties.toDiscipline) Duty.running Duty.cleaning Duty.cooling
    Duty.retired rfl (fun _ => rfl) trivial
    (fun _ => ⟨rfl, fun _ => rfl⟩) (fun _ => rfl) (fun _ _ => rfl)
    (fun _ => ⟨trivial, fun _ => rfl⟩) (fun pid => ⟨pid, rfl⟩) (fun _ => rfl)
    (fun pid => (background_quiet (.cooling pid)).unbothered) (fun pid => ?_) (start_on_duty (.inr rfl)) trivial
  refine updateStateFrom_none_follows (.inr ⟨⟨pid, rfl⟩, rfl⟩) (fun _ _ => rfl) fun _ _ => ?_
  exact settle_keeps (background_quiet .retired).unbothered (sending_quiet .retired _) (arming_quiet .retired)
    fun same => by cases same

/-- Every task of the proxy keeps to its duty. -/
theorem lifecycle_duties (config : Config) : (lifecycle config).Obeys duties := by
  have online : UpdateKeeps duties.toDiscipline .idle config none .started :=
    idle_update _ _ (by decide)
  have offline : UpdateKeeps duties.toDiscipline .idle config none .stopped :=
    idle_update _ _ (by decide)
  have returns : ∀ {α : Type} {program : ServerM α}, program.Keeps duties.toDiscipline .idle →
      program.Follows duties.toDiscipline .idle fun _ _ => True :=
    fun keeps => keeps.follows fun _ => trivial
  have background := (background_quiet .idle).unbothered
  have stops : (stop config).Keeps duties.toDiscipline .idle := stop_keeps (background_quiet .idle) idle_stops
  intro entry _
  cases entry with
  | start => exact Program.follows_bind.mpr ((start_on_duty (.inl rfl)).mono fun _ _ _ => trivial)
  | stop => exact returns (stops.bind fun _ => .pure)
  | updateStatus status =>
    exact returns (updateStatus_keeps background (bookkeeping_quiet .idle) online offline status)
  | monitor fetched pinged =>
    exact returns (monitorIteration_keeps background (bookkeeping_quiet .idle) online offline stops
      fetched pinged)
  | interrupt => exact returns (interruptIteration_keeps background stops)
  | invokeServerCmd => exact Program.follows_bind.mpr (command_on_duty.mono fun _ _ _ => trivial)

end

end PlexPaper
