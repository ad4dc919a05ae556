import PlexPaper.Lifecycle

/-! What each function of `server.rs` does to a task's stage, for any protocol.
An operation is in the background unless it is part of a state update, or
handles the child process. A function whose background operations are quiet and
whose state updates keep the stage keeps the stage itself, so a protocol has to
look only at the operations it is about. -/
namespace PlexPaper
open Tasks

/-- The operations by which `update_state_from` updates the state. -/
def Op.Updating : Op → Prop
  | .swapState _ | .compareExchange _ _ | .write .killAt _ => True
  | _ => False

/-- The operations by which it changes the state to a new one. -/
def Op.UpdatesTo (new : State) : Op → Prop
  | .swapState other | .compareExchange _ other => other = new
  | _ => False

/-- The operations by which the monitor keeps account of what it polls. -/
def Op.Bookkeeping : Op → Prop
  | .write .lastActive _ | .write .keepOnlineUntil _ | .write .status _ => True
  | _ => False

/-- The operation by which `update_state_from` publishes the state. -/
def Op.Publishing : Op → Prop
  | .sendState _ => True
  | _ => False

/-- The operations that only a stop over RCON performs. -/
def Op.OverRcon : Op → Prop
  | .acquireRcon | .releaseRcon | .rconConnect | .rconCommand | .rconClose
  | .write .rconLastStop _ => True
  | _ => False

/-- Operations that neither update or publish the state, nor handle the child
process, nor keep account. -/
def Op.Background : Op → Prop
  | .swapState _ | .compareExchange _ _ | .sendState _ | .write .killAt _ | .spawnServerTask
  | .spawnChild | .waitChild _ | .write .pid _ | .sendSignal _ .sigcont | .write .lastActive _
  | .write .keepOnlineUntil _ | .write .status _ => False
  | _ => True

namespace Op

variable {op : Op}

theorem Background.not_updating (background : op.Background) : ¬ op.Updating := by
  intro updating
  cases op with
  | write cell value => cases cell <;> first | exact updating | exact background
  | swapState | compareExchange => exact background
  | _ => exact updating

theorem Background.not_bookkeeping (background : op.Background) : ¬ op.Bookkeeping := by
  intro bookkeeping
  cases op with
  | write cell value => cases cell <;> first | exact bookkeeping | exact background
  | _ => exact bookkeeping

theorem Background.not_publishing (background : op.Background) : ¬ op.Publishing := by
  intro publishing
  cases op with
  | sendState => exact background
  | _ => exact publishing

theorem Bookkeeping.not_updating (bookkeeping : op.Bookkeeping) : ¬ op.Updating := by
  intro updating
  cases op with
  | write cell value => cases cell <;> first | exact updating | exact bookkeeping
  | _ => exact bookkeeping

theorem Bookkeeping.not_publishing (bookkeeping : op.Bookkeeping) : ¬ op.Publishing := by
  intro publishing
  cases op with
  | sendState => exact bookkeeping
  | _ => exact publishing

theorem Bookkeeping.not_overRcon (bookkeeping : op.Bookkeeping) : ¬ op.OverRcon := by
  intro rcon
  cases op with
  | write cell value => cases cell <;> first | exact rcon | exact bookkeeping
  | _ => exact bookkeeping

theorem newState_of_not_updating (other : ¬ op.Updating) (state : State) :
    op.newState state = state := by
  cases op with
  | swapState | compareExchange => exact absurd trivial other
  | _ => rfl

end Op

/-- The background is quiet in this stage. -/
def Undisturbed (d : Discipline Op Op.Reply) (stage : d.Stage) : Prop :=
  ∀ op : Op, op.Background → d.QuietAt stage op

/-- The background is quiet in this stage, but for what only a stop over RCON does. -/
def Unbothered (d : Discipline Op Op.Reply) (stage : d.Stage) : Prop :=
  ∀ op : Op, op.Background → ¬ op.OverRcon → d.QuietAt stage op

theorem Undisturbed.unbothered {d : Discipline Op Op.Reply} {stage : d.Stage}
    (background : Undisturbed d stage) : Unbothered d stage :=
  fun op member _ => background op member

/-- Keeping account is quiet in this stage. -/
def Bookkept (d : Discipline Op Op.Reply) (stage : d.Stage) : Prop :=
  ∀ op : Op, op.Bookkeeping → d.QuietAt stage op

namespace Server

variable {d : Discipline Op Op.Reply} {stage : d.Stage} {config : Config}

/-- What `update_state_from` still does once the state has changed. -/
def settle (config : Config) (new : State) : ServerM Unit := do
  perform (.sendState new)
  perform (.write .killAt (← killDeadline config new))
  if new = .started then
    updateLastActive
    keepOnlineFor (some config.time.minOnlineTime)

theorem updateStateFrom_some (config : Config) (current new : State) :
    updateStateFrom config (some current) new = (do
      match ← perform (.compareExchange current new) with
      | .error _ => return false
      | .ok old => if old = new then return false else settle config new; return true) := by
  refine congrArg (Program.request _) (funext fun changed => ?_)
  cases changed with
  | error _ => rfl
  | ok old => cases new <;> simp [settle, Program.bind]

theorem updateStateFrom_none (config : Config) (new : State) :
    updateStateFrom config none new = (do
      if (← perform (.swapState new)) = new then return false else settle config new; return true) := by
  cases new <;> simp [updateStateFrom, settle]

theorem deadline_keeps (background : Unbothered d stage) (timeout : UInt32) :
    (deadline timeout).Keeps d stage := by
  refine .ite (fun _ => ?_) fun _ => .pure
  exact .bind (.perform (background .now trivial id)) fun _ => .pure

theorem killDeadline_keeps (background : Unbothered d stage) (new : State) :
    (killDeadline config new).Keeps d stage := by
  cases new with
  | starting | stopping => exact deadline_keeps background _
  | stopped | started => exact .pure

theorem sleep_keeps (background : Unbothered d stage) (duration : Duration) :
    (sleep duration).Keeps d stage :=
  .bind (.perform (background .now trivial id)) fun _ => .perform (background _ trivial id)

theorem updateLastActive_keeps (background : Unbothered d stage) (bookkept : Bookkept d stage) :
    updateLastActive.Keeps d stage :=
  .bind (.perform (background .now trivial id)) fun _ => .perform (bookkept _ trivial)

theorem keepOnlineFor_keeps (background : Unbothered d stage) (bookkept : Bookkept d stage)
    (duration : Option UInt32) : (keepOnlineFor duration).Keeps d stage := by
  unfold keepOnlineFor
  split
  · exact .bind (.perform (background .now trivial id)) fun _ => .perform (bookkept _ trivial)
  · exact .perform (bookkept _ trivial)

/-- What follows a change is its send, and from there keeps the stage where
writing a deadline does and, for `Started`, keeping account. -/
theorem settle_follows {sent : d.Stage} {new : State} (sending : d.permits stage (.sendState new))
    (sends : d.advance stage (.sendState new) () = sent) (background : Unbothered d sent)
    (arming : ∀ value, d.QuietAt sent (.write .killAt value))
    (online : new = .started → Bookkept d sent) :
    (settle config new).Follows d stage fun _ ended => ended = sent := by
  refine Program.follows_bind.mpr ⟨sending, fun _ => ?_⟩
  rw [sends]
  refine Program.Keeps.bind (killDeadline_keeps background new) fun killAt =>
    .bind (.perform (arming killAt)) fun _ => .ite (fun started => ?_) fun _ => .pure
  have bookkept := online started
  exact .bind (updateLastActive_keeps background bookkept) fun _ =>
    keepOnlineFor_keeps background bookkept _

theorem settle_keeps (background : Unbothered d stage) {new : State}
    (sending : d.QuietAt stage (.sendState new))
    (arming : ∀ value, d.QuietAt stage (.write .killAt value))
    (online : new = .started → Bookkept d stage) : (settle config new).Keeps d stage :=
  settle_follows sending.1 (sending.2 ()) background arming online

/-- An update either shows no change and returns false, or settles the new
state and returns true. -/
theorem updateStateFrom_some_follows {current new : State} {post : Bool → d.Stage → Prop}
    (exchange : d.permits stage (.compareExchange current new))
    (unmoved : ∀ reply, (Op.compareExchange current new).moved reply = none →
      post false (d.advance stage (.compareExchange current new) reply))
    (settled : ∀ reply, (Op.compareExchange current new).moved reply = some new →
      (settle config new).Follows d (d.advance stage (.compareExchange current new) reply)
        fun _ ended => post true ended) :
    (updateStateFrom config (some current) new).Follows d stage post := by
  rw [updateStateFrom_some]
  refine Program.follows_bind.mpr ⟨exchange, fun reply => ?_⟩
  cases reply with
  | error _ => exact unmoved _ rfl
  | ok old =>
    refine Program.follows_pure.mpr ?_
    dsimp only
    split
    · rename_i same
      exact unmoved (.ok old) (if_pos same)
    · rename_i moved
      exact Program.follows_bind.mpr (settled (.ok old) (if_neg moved))

theorem updateStateFrom_none_follows {new : State} {post : Bool → d.Stage → Prop}
    (swap : d.permits stage (.swapState new))
    (unmoved : ∀ reply, (Op.swapState new).moved reply = none →
      post false (d.advance stage (.swapState new) reply))
    (settled : ∀ reply, (Op.swapState new).moved reply = some new →
      (settle config new).Follows d (d.advance stage (.swapState new) reply)
        fun _ ended => post true ended) :
    (updateStateFrom config none new).Follows d stage post := by
  rw [updateStateFrom_none]
  refine Program.follows_bind.mpr ⟨swap, fun old => ?_⟩
  refine Program.follows_pure.mpr ?_
  split
  · rename_i same
    exact unmoved old (if_pos same)
  · rename_i moved
    exact Program.follows_bind.mpr (settled old (if_neg moved))

theorem updateStateFrom_some_keeps (background : Unbothered d stage) {current new : State}
    (sending : d.QuietAt stage (.sendState new))
    (arming : ∀ value, d.QuietAt stage (.write .killAt value))
    (online : new = .started → Bookkept d stage)
    (exchange : d.QuietAt stage (.compareExchange current new)) :
    (updateStateFrom config (some current) new).Keeps d stage :=
  updateStateFrom_some_follows exchange.1 (fun reply _ => exchange.2 reply) fun reply _ => by
    rw [exchange.2 reply]
    exact settle_keeps background sending arming online

theorem updateStateFrom_none_keeps (background : Unbothered d stage) {new : State}
    (sending : d.QuietAt stage (.sendState new))
    (arming : ∀ value, d.QuietAt stage (.write .killAt value))
    (online : new = .started → Bookkept d stage)
    (swap : d.QuietAt stage (.swapState new)) :
    (updateStateFrom config none new).Keeps d stage :=
  updateStateFrom_none_follows swap.1 (fun reply _ => swap.2 reply) fun reply _ => by
    rw [swap.2 reply]
    exact settle_keeps background sending arming online

/-- Which updates a caller may make without moving the stage. -/
def UpdateKeeps (d : Discipline Op Op.Reply) (stage : d.Stage) (config : Config)
    (current : Option State) (new : State) : Prop :=
  (updateStateFrom config current new).Keeps d stage

/-- A stage that an update leaves by its change of the state, for one that depends on the new
state, is kept if settling that state leads back to it. -/
theorem UpdateKeeps.of_lands {new : State} (flight : State → d.Stage)
    (permitted : ∀ op : Op, op.UpdatesTo new → d.permits stage op)
    (advance : ∀ (op : Op) (reply : op.Reply), op.UpdatesTo new →
      d.advance stage op reply = ((op.moved reply).map flight).getD stage)
    (lands : (settle config new).Follows d (flight new) fun _ ended => ended = stage)
    (current : Option State) : UpdateKeeps d stage config current new := by
  have unmoved {op : Op} {reply : op.Reply} (updates : op.UpdatesTo new)
      (still : op.moved reply = none) : d.advance stage op reply = stage := by
    rw [advance op reply updates, still]
    rfl
  have landing {op : Op} {reply : op.Reply} (updates : op.UpdatesTo new)
      (moved : op.moved reply = some new) :
      (settle config new).Follows d (d.advance stage op reply) fun _ ended => ended = stage := by
    rw [advance op reply updates, moved]
    exact lands
  cases current with
  | none =>
    apply updateStateFrom_none_follows (permitted _ rfl)
    · exact fun reply still => unmoved rfl still
    · exact fun reply moved => landing rfl moved
  | some current =>
    apply updateStateFrom_some_follows (permitted _ rfl)
    · exact fun reply still => unmoved rfl still
    · exact fun reply moved => landing rfl moved

/-- Receiving a status, once the state has been updated for it. -/
theorem receive_keeps (background : Unbothered d stage) (bookkept : Bookkept d stage)
    (status : ServerStatus) :
    (do
      if status.players.online > 0 then
        updateLastActive
      perform (.write .status (some status)) : ServerM Unit).Keeps d stage := by
  have written : (perform (.write .status (some status))).Keeps d stage :=
    .perform (bookkept _ trivial)
  exact .ite (fun _ => .bind (updateLastActive_keeps background bookkept) fun _ => written)
    fun _ => written

/-- A status that was fetched never takes the server offline. -/
theorem updateStatus_some_keeps (background : Unbothered d stage) (bookkept : Bookkept d stage)
    (online : UpdateKeeps d stage config none .started) (status : ServerStatus) :
    (updateStatus config (some status)).Keeps d stage := by
  apply Program.Keeps.bind (.perform (background .loadState trivial id))
  intro state
  have received := receive_keeps background bookkept status
  cases state with
  | stopped | starting => exact .bind online fun _ => received
  | started | stopping => exact received

theorem updateStatus_keeps (background : Unbothered d stage) (bookkept : Bookkept d stage)
    (online : UpdateKeeps d stage config none .started)
    (offline : UpdateKeeps d stage config none .stopped) (status : Option ServerStatus) :
    (updateStatus config status).Keeps d stage := by
  cases status with
  | none =>
    apply Program.Keeps.bind (.perform (background .loadState trivial id))
    intro state
    cases state with
    | started => exact .bind offline fun _ => .pure
    | stopped | starting | stopping => exact .pure
  | some status => exact updateStatus_some_keeps background bookkept online status

theorem freezeServerSignal_keeps (background : Unbothered d stage)
    (starting : UpdateKeeps d stage config (some .starting) .stopped)
    (started : UpdateKeeps d stage config (some .started) .stopped) :
    (freezeServerSignal config).Keeps d stage := by
  apply Program.Keeps.bind (.perform (background (.read .pid) trivial id))
  intro pid
  cases pid with
  | none => exact .pure
  | some pid =>
    exact .bind (.perform (background _ trivial id)) fun _ =>
      .bind starting fun _ => .bind started fun _ => .pure

/-- Resuming a frozen process begins with the signal to continue. Without a
process id nothing happens. -/
theorem unfreezeServerSignal_follows {resuming : d.Stage} (background : Unbothered d stage)
    (signal : ∀ pid, d.permits stage (.sendSignal pid .sigcont) ∧
      ∀ reply, d.advance stage (.sendSignal pid .sigcont) reply = resuming)
    (stopping : UpdateKeeps d resuming config (some .stopping) .starting)
    (stopped : UpdateKeeps d resuming config (some .stopped) .starting) :
    (unfreezeServerSignal config).Follows d stage fun unfrozen ended =>
      ended = if unfrozen then resuming else stage := by
  have pidRead : (perform (.read .pid)).Keeps d stage := .perform (background (.read .pid) trivial id)
  refine Program.follows_bind.mpr (pidRead.follows fun pid => ?_)
  cases pid with
  | none => exact rfl
  | some pid =>
    refine Program.follows_bind.mpr ⟨(signal pid).1, fun reply => ?_⟩
    rw [(signal pid).2]
    refine Program.follows_pure.mpr (Program.follows_bind.mpr (stopping.follows fun _ => ?_))
    exact Program.follows_bind.mpr (stopped.follows fun _ => rfl)

theorem stopServerSignal_keeps (background : Unbothered d stage)
    (starting : UpdateKeeps d stage config (some .starting) .stopping)
    (started : UpdateKeeps d stage config (some .started) .stopping) :
    (stopServerSignal config).Keeps d stage := by
  apply Program.Keeps.bind (.perform (background (.read .pid) trivial id))
  intro pid
  cases pid with
  | none => exact .pure
  | some pid =>
    apply Program.Keeps.bind (.perform (background (.sendSignal pid .sigterm) trivial id))
    intro _
    apply Program.Keeps.ite (fun _ => .pure)
    intro _
    exact .bind starting fun _ => .bind started fun _ => .pure

theorem stopServerRcon_keeps (background : Undisturbed d stage)
    (stopping : UpdateKeeps d stage config none .stopping) :
    (stopServerRcon config).Keeps d stage := by
  have quiet : ∀ op : Op, op.Background → (perform op).Keeps d stage :=
    fun op member => .perform (background op member)
  have released : (do perform .releaseRcon; return false : ServerM Bool).Keeps d stage :=
    .bind (quiet _ trivial) fun _ => .pure
  refine .ite (fun _ => .pure) fun _ => .bind (quiet _ trivial) fun _ =>
    .bind (quiet _ trivial) fun last => ?_
  have session : ∀ cooledDown : Bool, (do
      if !cooledDown then
        perform .releaseRcon
        return false
      if !(← perform .rconConnect) then
        perform .releaseRcon
        return false
      sleep QUIRK_RCON_GRACE_TIME
      if !(← perform .rconCommand) then
        perform .rconClose
        perform .releaseRcon
        return false
      perform (.write .rconLastStop (some (← perform .now)))
      let _ ← updateState config .stopping
      sleep QUIRK_RCON_GRACE_TIME
      perform .rconClose
      perform .releaseRcon
      return true : ServerM Bool).Keeps d stage := by
    intro cooledDown
    refine .ite (fun _ => released) fun _ => .bind (quiet _ trivial) fun _ =>
      .ite (fun _ => released) fun _ => .bind (sleep_keeps background.unbothered _) fun _ =>
      .bind (quiet _ trivial) fun _ => .ite (fun _ => .bind (quiet _ trivial) fun _ => released)
      fun _ => ?_
    refine .bind (quiet _ trivial) fun _ => .bind (quiet _ trivial) fun _ =>
      .bind stopping fun _ => .bind (sleep_keeps background.unbothered _) fun _ => ?_
    exact .bind (quiet _ trivial) fun _ => .bind (quiet _ trivial) fun _ => .pure
  cases last with
  | none => exact session true
  | some last => exact .bind (quiet _ trivial) fun _ => session _

/-- The updates of the stopping methods, the frozen ones only where configured. -/
structure StopUpdates (d : Discipline Op Op.Reply) (stage : d.Stage) (config : Config) : Prop where
  rcon : UpdateKeeps d stage config none .stopping
  starting : UpdateKeeps d stage config (some .starting) .stopping
  started : UpdateKeeps d stage config (some .started) .stopping
  frozen : config.server.freezeProcess = true →
    UpdateKeeps d stage config (some .starting) .stopped ∧
      UpdateKeeps d stage config (some .started) .stopped

/-- Stopping keeps a stage that the stop over RCON keeps. -/
theorem stop_keeps_of_rcon (background : Unbothered d stage)
    (rcon : (stopServerRcon config).Keeps d stage) (updates : StopUpdates d stage config) :
    (stop config).Keeps d stage := by
  have signalled : (do
      if ← stopServerSignal config then
        return true
      return false : ServerM Bool).Keeps d stage :=
    .bind (stopServerSignal_keeps background updates.starting updates.started) fun _ =>
      .ite (fun _ => .pure) fun _ => .pure
  have running : (do
      if (← perform .loadState) = .started then
        if ← stopServerRcon config then
          return true
      if ← stopServerSignal config then
        return true
      return false : ServerM Bool).Keeps d stage := by
    refine .bind (.perform (background .loadState trivial id)) fun _ =>
      .ite (fun _ => ?_) fun _ => signalled
    exact .bind rcon fun _ => .ite (fun _ => .pure) fun _ => signalled
  refine .ite (fun configured => ?_) fun _ => running
  obtain ⟨starting, started⟩ := updates.frozen configured
  exact .bind (freezeServerSignal_keeps background starting started) fun _ =>
    .ite (fun _ => .pure) fun _ => running

theorem stop_keeps (background : Undisturbed d stage) (updates : StopUpdates d stage config) :
    (stop config).Keeps d stage :=
  stop_keeps_of_rcon background.unbothered (stopServerRcon_keeps background updates.rcon) updates

theorem forceKill_keeps (background : Unbothered d stage) : forceKill.Keeps d stage := by
  apply Program.Keeps.bind (.perform (background (.read .pid) trivial id))
  intro pid
  cases pid with
  | none => exact .pure
  | some pid => exact .perform (background _ trivial id)

theorem shouldKill_keeps (background : Unbothered d stage) : shouldKill.Keeps d stage := by
  apply Program.Keeps.bind (.perform (background (.read .killAt) trivial id))
  intro killAt
  cases killAt with
  | none => exact .pure
  | some killAt => exact .bind (.perform (background _ trivial id)) fun _ => .pure

theorem shouldSleep_keeps (background : Unbothered d stage) :
    (shouldSleep config).Keeps d stage := by
  have quiet : ∀ op : Op, op.Background → ¬ op.OverRcon → (perform op).Keeps d stage :=
    fun op member other => .perform (background op member other)
  have idle : ∀ (keepOnline : Bool) (decision : Option Instant → ServerM Bool),
      (∀ lastActive, (decision lastActive).Keeps d stage) → (do
        if keepOnline then
          return false
        decision (← perform (.read .lastActive)) : ServerM Bool).Keeps d stage :=
    fun _ _ decided => .ite (fun _ => .pure) fun _ => .bind (quiet _ trivial id) decided
  refine .bind (quiet _ trivial id) fun _ => .ite (fun _ => .pure) fun _ =>
    .bind (quiet _ trivial id) fun _ => .ite (fun _ => .pure) fun _ =>
    .bind (quiet _ trivial id) fun keepOnlineUntil => ?_
  cases keepOnlineUntil with
  | none =>
    refine idle false _ fun lastActive => ?_
    cases lastActive with
    | none => exact .pure
    | some _ => exact .bind (quiet _ trivial id) fun _ => .pure
  | some _ =>
    refine .bind (quiet _ trivial id) fun _ => idle _ _ fun lastActive => ?_
    cases lastActive with
    | none => exact .pure
    | some _ => exact .bind (quiet _ trivial id) fun _ => .pure

/-- `start` claims the server by its first update. What it does with the claim
is to resume a frozen process, or to hand it to the command task. -/
theorem start_follows (claimed resuming : d.Stage) {post : Bool → d.Stage → Prop}
    (claim : (updateStateFrom config (some .stopped) .starting).Follows d stage
      fun won ended => if won then ended = claimed else post false ended)
    (unfreeze : (unfreezeServerSignal config).Follows d claimed fun unfrozen ended =>
      ended = if unfrozen then resuming else claimed)
    (resumed : post true resuming)
    (handover : d.permits claimed .spawnServerTask ∧
      post true (d.advance claimed .spawnServerTask ())) :
    (start config).Follows d stage post := by
  have spawned : (do perform .spawnServerTask; return true : ServerM Bool).Follows d claimed post :=
    Program.follows_bind.mpr ⟨handover.1, fun _ => handover.2⟩
  refine Program.follows_bind.mpr (claim.mono fun won ended claims => ?_)
  cases won with
  | false => exact claims
  | true =>
    cases claims
    by_cases frozen : config.server.freezeProcess = true
    · simp only [frozen, Bool.not_true, Bool.false_eq_true, ↓reduceIte, Program.follows_bind]
      apply unfreeze.mono
      intro unfrozen ended same
      subst same
      cases unfrozen with
      | true => exact resumed
      | false => exact spawned
    · simpa only [Bool.not_true, Bool.false_eq_true, ↓reduceIte, frozen] using spawned

theorem start_keeps (background : Unbothered d stage)
    (claim : UpdateKeeps d stage config (some .stopped) .starting)
    (resume : UpdateKeeps d stage config (some .stopping) .starting)
    (signal : ∀ pid, d.QuietAt stage (.sendSignal pid .sigcont))
    (handover : d.QuietAt stage .spawnServerTask) : (start config).Keeps d stage :=
  start_follows stage stage
    (claim.mono fun won _ same => by cases won <;> exact same)
    (unfreezeServerSignal_follows background signal resume claim) rfl
    ⟨handover.1, handover.2 ()⟩

end Server

open Server

variable {d : Discipline Op Op.Reply} {stage : d.Stage} {config : Config}

theorem pollServer_keeps (background : Unbothered d stage) (fetched : Except Unit ServerStatus)
    (pinged : Except Unit Unit) : (pollServer fetched pinged).Keeps d stage := by
  cases fetched with
  | ok status => exact .pure
  | error _ =>
    refine .bind (.perform (background .loadState trivial id)) fun _ => .ite (fun _ => ?_) fun _ => .pure
    cases pinged with
    | error _ => exact .pure
    | ok _ => exact .pure

/-- What an iteration of the monitor does once its poll is handled. -/
theorem handled_keeps (background : Unbothered d stage) (stops : (stop config).Keeps d stage) :
    (do
      if ← shouldSleep config then
        let _ ← stop config
      if ← shouldKill then
        let _ ← forceKill : ServerM Unit).Keeps d stage := by
  have killing : (do
      if ← shouldKill then
        let _ ← forceKill : ServerM Unit).Keeps d stage :=
    .bind (shouldKill_keeps background) fun _ =>
      .ite (fun _ => .bind (forceKill_keeps background) fun _ => .pure) fun _ => .pure
  exact .bind (shouldSleep_keeps background) fun _ =>
    .ite (fun _ => .bind stops fun _ => killing) fun _ => killing

theorem monitorIteration_fetched_keeps (background : Unbothered d stage)
    (bookkept : Bookkept d stage) (online : UpdateKeeps d stage config none .started)
    (stops : (stop config).Keeps d stage) (status : ServerStatus) (pinged : Except Unit Unit) :
    (monitorIteration config (.ok status) pinged).Keeps d stage := by
  change (updateStatus config (some status) >>= fun _ => _).Keeps d stage
  exact .bind (updateStatus_some_keeps background bookkept online status) fun _ =>
    handled_keeps background stops

theorem monitorIteration_keeps (background : Unbothered d stage) (bookkept : Bookkept d stage)
    (online : UpdateKeeps d stage config none .started)
    (offline : UpdateKeeps d stage config none .stopped) (stops : (stop config).Keeps d stage)
    (fetched : Except Unit ServerStatus) (pinged : Except Unit Unit) :
    (monitorIteration config fetched pinged).Keeps d stage := by
  apply Program.Keeps.bind (pollServer_keeps background fetched pinged)
  intro polled
  have updated := updateStatus_keeps background bookkept online offline
  rcases polled with _ | (_ | status)
  · exact .bind (updated none) fun _ => handled_keeps background stops
  · exact handled_keeps background stops
  · exact .bind (updated (some status)) fun _ => handled_keeps background stops

theorem interruptIteration_keeps (background : Unbothered d stage)
    (stops : (stop config).Keeps d stage) : (interruptIteration config).Keeps d stage := by
  have stopping : (do
      let stopping ← stop config
      if !stopping then
        perform .quit : ServerM Unit).Keeps d stage :=
    .bind stops fun _ =>
      .ite (fun _ => .perform (background .quit trivial id)) fun _ => .pure
  exact .bind (.perform (background .loadState trivial id)) fun _ =>
    .ite (fun _ => .bind (.perform (background .quit trivial id)) fun _ => stopping) fun _ => stopping

/-- The command task by its stages: spawning, running the process, cleaning up
after it, cooling down, and, with its last update, done but for a restart. -/
theorem invokeServerCmd_follows (running cleaning cooling : Pid → d.Stage) (done : d.Stage)
    {post : Except Unit Unit → d.Stage → Prop}
    (spawning : d.permits stage .spawnChild)
    (spawned : ∀ pid, d.advance stage .spawnChild (.ok pid) = running pid)
    (failed : post (.error ()) (d.advance stage .spawnChild (.error ())))
    (known : ∀ pid, d.QuietAt (running pid) (.write .pid (some pid)))
    (waiting : ∀ pid, d.permits (running pid) (.waitChild pid))
    (ended : ∀ pid reply, d.advance (running pid) (.waitChild pid) reply = cleaning pid)
    (loading : ∀ pid, d.QuietAt (cleaning pid) .loadState)
    (taking : ∀ pid, d.permits (cleaning pid) (.write .pid none))
    (taken : ∀ pid, d.advance (cleaning pid) (.write .pid none) () = cooling pid)
    (background : ∀ pid, Unbothered d (cooling pid))
    (cleanup : ∀ pid, (updateStateFrom config none .stopped).Follows d (cooling pid)
      fun _ stage => stage = done)
    (restart : (start config).Follows d done fun _ stage => post (.ok ()) stage)
    (finished : post (.ok ()) done) :
    (invokeServerCmd config).Follows d stage post := by
  have cleaned (pid : Pid) (crashed : Bool) : (do
      perform (.write .pid none)
      Server.sleep SERVER_QUIT_COOLDOWN
      let _ ← Server.updateState config .stopped
      if crashed && config.server.wakeOnCrash then
        let _ ← Server.start config
      return .ok () : ServerM (Except Unit Unit)).Follows d (cleaning pid) post := by
    refine Program.follows_bind.mpr ⟨taking pid, fun _ => ?_⟩
    rw [taken]
    refine Program.follows_bind.mpr ((sleep_keeps (background pid) _).follows fun _ => ?_)
    refine Program.follows_bind.mpr ((cleanup pid).mono fun _ _ same => ?_)
    subst same
    dsimp only
    split
    · exact Program.follows_bind.mpr restart
    · exact finished
  refine Program.follows_bind.mpr ⟨spawning, fun reply => ?_⟩
  cases reply with
  | error _ => exact failed
  | ok pid =>
    rw [spawned]
    refine Program.follows_bind.mpr ⟨(known pid).1, fun _ => ?_⟩
    rw [(known pid).2]
    refine Program.follows_bind.mpr ⟨waiting pid, fun reply => ?_⟩
    rw [ended]
    cases reply with
    | error _ => exact cleaned pid false
    | ok status =>
      refine Program.follows_pure.mpr ?_
      dsimp only
      split
      · exact cleaned pid false
      · split
        · exact cleaned pid false
        · exact Program.follows_bind.mpr ((Program.Keeps.perform (loading pid)).follows fun _ =>
            cleaned pid _)

theorem invokeServerCmd_keeps (background : Unbothered d stage) (spawning : d.QuietAt stage .spawnChild)
    (known : ∀ value, d.QuietAt stage (.write .pid value)) (waiting : ∀ pid, d.QuietAt stage (.waitChild pid))
    (cleanup : UpdateKeeps d stage config none .stopped) (restart : (start config).Keeps d stage) :
    (invokeServerCmd config).Keeps d stage :=
  invokeServerCmd_follows (fun _ => stage) (fun _ => stage) (fun _ => stage) stage spawning.1
    (fun pid => spawning.2 (.ok pid)) (spawning.2 (.error ())) (fun pid => known (some pid))
    (fun pid => (waiting pid).1) (fun pid => (waiting pid).2) (fun _ => background .loadState trivial id)
    (fun _ => (known none).1) (fun _ => (known none).2 ()) (fun _ => background) (fun _ => cleanup) restart rfl

/-- Every pair with which `update_state_from` is called, `none` for a swap. -/
def sourceUpdates : List (Option State × State) :=
  [(none, .started), (none, .stopped), (none, .stopping), (some .stopped, .starting),
    (some .stopping, .starting), (some .starting, .stopping), (some .started, .stopping),
    (some .starting, .stopped), (some .started, .stopped)]

/-- The entries that take in a poll. -/
def Entry.polls : Entry → Bool
  | .updateStatus _ | .monitor _ _ => true
  | .start | .stop | .interrupt | .invokeServerCmd => false

/-- A task keeps the stage when the updates of the source and the stop over RCON keep it
and every other operation is quiet there. Only one that takes in polls updates to
`Started` and keeps account. -/
theorem body_keeps_of_rcon
    (quiet : ∀ op : Op, ¬ op.Updating → ¬ op.Publishing → ¬ op.Bookkeeping → ¬ op.OverRcon →
      d.QuietAt stage op)
    (rcon : (stopServerRcon config).Keeps d stage)
    (updates : ∀ update ∈ sourceUpdates, update.2 ≠ .started → UpdateKeeps d stage config update.1 update.2)
    (entry : Entry)
    (polling : entry.polls → Bookkept d stage ∧ UpdateKeeps d stage config none .started) :
    (entry.body config).Keeps d stage := by
  have background : Unbothered d stage :=
    fun op member => quiet op member.not_updating member.not_publishing member.not_bookkeeping
  have update : ∀ current new, (current, new) ∈ sourceUpdates → new ≠ .started →
      UpdateKeeps d stage config current new :=
    fun current new member other => updates (current, new) member other
  have stopping : StopUpdates d stage config :=
    { rcon := update _ _ (by decide) (by decide)
      starting := update _ _ (by decide) (by decide)
      started := update _ _ (by decide) (by decide)
      frozen := fun _ =>
        ⟨update _ _ (by decide) (by decide), update _ _ (by decide) (by decide)⟩ }
  have stops := stop_keeps_of_rcon background rcon stopping
  have offline := update none .stopped (by decide) (by decide)
  have starts : (start config).Keeps d stage :=
    start_keeps background (update _ _ (by decide) (by decide)) (update _ _ (by decide) (by decide))
      (fun _ => quiet _ id id id id) (quiet _ id id id id)
  cases entry with
  | start => exact starts.bind fun _ => .pure
  | stop => exact stops.bind fun _ => .pure
  | updateStatus status =>
    obtain ⟨bookkept, online⟩ := polling rfl
    exact updateStatus_keeps background bookkept online offline status
  | monitor fetched pinged =>
    obtain ⟨bookkept, online⟩ := polling rfl
    exact monitorIteration_keeps background bookkept online offline stops fetched pinged
  | interrupt => exact interruptIteration_keeps background stops
  | invokeServerCmd =>
    have command : (invokeServerCmd config).Keeps d stage :=
      invokeServerCmd_keeps background (quiet _ id id id id) (fun _ => quiet _ id id id id)
        (fun _ => quiet _ id id id id) offline starts
    exact command.bind fun _ => .pure

/-- Where the background is quiet, the stop over RCON keeps the stage by itself. -/
theorem body_keeps
    (quiet : ∀ op : Op, ¬ op.Updating → ¬ op.Publishing → ¬ op.Bookkeeping → d.QuietAt stage op)
    (updates : ∀ update ∈ sourceUpdates, update.2 ≠ .started → UpdateKeeps d stage config update.1 update.2)
    (entry : Entry)
    (polling : entry.polls → Bookkept d stage ∧ UpdateKeeps d stage config none .started) :
    (entry.body config).Keeps d stage := by
  have background : Undisturbed d stage :=
    fun op member => quiet op member.not_updating member.not_publishing member.not_bookkeeping
  have rcon := stopServerRcon_keeps background (updates (none, .stopping) (by simp [sourceUpdates]) (by simp))
  exact body_keeps_of_rcon (fun op other silent apart _ => quiet op other silent apart) rcon updates
    entry polling

/-- A protocol with one stage for every task is obeyed when the updates of the
source keep that stage, and every other operation is quiet there. -/
theorem lifecycle_obeys {protocol : Protocol Op Op.Reply Entry} {stage : protocol.Stage}
    (entered : ∀ entry, protocol.enter entry = stage)
    (quiet : ∀ op : Op, ¬ op.Updating → ¬ op.Publishing → protocol.QuietAt stage op)
    (updates : ∀ update ∈ sourceUpdates,
      UpdateKeeps protocol.toDiscipline stage config update.1 update.2) :
    (lifecycle config).Obeys protocol := by
  intro entry _
  rw [entered]
  have bookkept : Bookkept protocol.toDiscipline stage :=
    fun op member => quiet op member.not_updating member.not_publishing
  have online := updates (none, .started) (by decide)
  have keeps := body_keeps (fun op other silent _ => quiet op other silent)
    (fun update member _ => updates update member) entry fun _ => ⟨bookkept, online⟩
  exact keeps.follows fun _ => trivial

end PlexPaper
