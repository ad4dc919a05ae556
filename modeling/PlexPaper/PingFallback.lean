import PlexPaper.LifecyclePrograms

/-! What a poll does to a server that counts as started. The ping is meant for a server
that is too slow to answer with a status; its success does not keep the server online. -/
namespace PlexPaper
open Tasks Program Server

/-- An iteration of `monitor_server` as far as it handles the result of its poll. -/
def pollHandling (config : Config) (fetched : Except Unit ServerStatus) (pinged : Except Unit Unit) :
    ServerM Unit := do
  match ← pollServer fetched pinged with
  | .ok (some status) => Server.updateStatus config (some status)
  | .error _ => Server.updateStatus config none
  | .ok none => return ()

theorem monitorIteration_eq (config : Config) (fetched : Except Unit ServerStatus)
    (pinged : Except Unit Unit) :
    monitorIteration config fetched pinged = (do
      pollHandling config fetched pinged
      if ← Server.shouldSleep config then
        let _ ← Server.stop config
      if ← Server.shouldKill then
        let _ ← Server.forceKill) := by
  unfold monitorIteration pollHandling
  rw [LawfulMonad.bind_assoc]
  refine congrArg (pollServer fetched pinged >>= ·) (funext fun polled => ?_)
  rcases polled with _ | (_ | status) <;> rfl

/-- The operation sets the state, the cached status or the time of the last activity. -/
def Op.Touches : Op → Prop
  | .swapState _ | .compareExchange _ _ | .write .status _ | .write .lastActive _ => True
  | _ => False

/-- Every look at the state shows `Started`, up to what is done to it here. -/
def StartedThroughout (log : List ((op : Op) × op.Reply)) : Prop :=
  ∀ done ∈ log, match done with
    | ⟨.loadState, state⟩ => state = .started
    | ⟨.swapState _, old⟩ => old = .started
    | _ => True

/-- What is asked of the handling of a poll. -/
structure KeepsOnline (fetched : Except Unit ServerStatus) (pinged : Except Unit Unit)
    (log : List ((op : Op) × op.Reply)) : Prop where
  unchanged : fetched = .error () → pinged = .ok () → ∀ done ∈ log, ¬ done.1.Touches
  stops : ∀ old, ⟨.swapState .stopped, old⟩ ∈ log → fetched = .error () ∧ pinged = .error ()

/-- A step by which a poll takes the server offline. -/
def TakesOffline (before : Proxy) (move : ProxyMove) (fetched : Except Unit ServerStatus)
    (pinged : Except Unit Unit) : Prop :=
  ∃ turn ∈ before.turn? move, turn.task.entry = .monitor fetched pinged ∧
    turn.op = .swapState .stopped

/-- Whether a task that goes on from a poll may take the server offline. -/
abbrev polled : Protocol Op Op.Reply Entry where
  Stage := Bool
  advance stage _ _ := stage
  permits stage op := stage = false → op ≠ .swapState .stopped
  enter
    | .monitor (.ok _) _ => false
    | _ => true

theorem polled_stage (task : Task Op Op.Reply Entry) :
    polled.stage task = polled.enter task.entry := by
  have stays (log : List ((op : Op) × op.Reply)) (stage : Bool) :
      log.foldl (fun stage _ => stage) stage = stage := by
    induction log with
    | nil => rfl
    | cons done log ih => exact ih
  exact stays task.log _

section

variable {config : Config}

private theorem polled_quiet {op : Op} (other : op ≠ .swapState .stopped) :
    polled.QuietAt false op := ⟨fun _ => other, fun _ => rfl⟩

private theorem polled_background : Undisturbed polled.toDiscipline false := by
  rintro op background
  refine polled_quiet ?_
  rintro rfl
  exact background

private theorem polled_bookkept : Bookkept polled.toDiscipline false := by
  rintro op bookkeeping
  refine polled_quiet ?_
  rintro rfl
  exact bookkeeping

private theorem polled_online : UpdateKeeps polled.toDiscipline false config none .started :=
  updateStateFrom_none_keeps polled_background.unbothered (polled_quiet (by simp)) (fun _ => polled_quiet (by simp))
    (fun _ => polled_bookkept) (polled_quiet (by simp))

private theorem polled_stops : StopUpdates polled.toDiscipline false config := by
  have exchange : ∀ current new, new ≠ .started →
      UpdateKeeps polled.toDiscipline false config (some current) new := fun current new other =>
    updateStateFrom_some_keeps polled_background.unbothered (polled_quiet (by simp))
      (fun _ => polled_quiet (by simp)) (fun same => absurd same other) (polled_quiet (by simp))
  have swap : UpdateKeeps polled.toDiscipline false config none .stopping :=
    updateStateFrom_none_keeps polled_background.unbothered (polled_quiet (by simp))
      (fun _ => polled_quiet (by simp)) (fun same => by cases same) (polled_quiet (by simp))
  exact ⟨swap, exchange _ _ (by simp), exchange _ _ (by simp),
    fun _ => ⟨exchange _ _ (by simp), exchange _ _ (by simp)⟩⟩

/-- An iteration that has fetched a status does not take the server offline. -/
theorem lifecycle_polled (config : Config) : (lifecycle config).Obeys polled := by
  intro entry _
  by_cases fetched : polled.enter entry = false
  · cases entry with
    | monitor status pinged =>
      cases status with
      | ok status =>
        exact (monitorIteration_fetched_keeps polled_background.unbothered polled_bookkept polled_online
          (stop_keeps polled_background polled_stops) status pinged).follows fun _ => trivial
      | error _ => cases fetched
    | _ => cases fetched
  · have free := Program.follows_of_free (d := polled.toDiscipline) (fun stage => stage = true)
      (by rintro _ _ rfl; nofun) (by rintro _ _ _ rfl; rfl) ((lifecycle config).body entry)
      (by simpa using fetched)
    exact free.mono fun _ _ _ => trivial

/-- What a poll with a status does keeps to that, too. -/
theorem pollHandling_fetched (config : Config) (status : ServerStatus) (pinged : Except Unit Unit) :
    (pollHandling config (.ok status) pinged).Keeps polled.toDiscipline false :=
  updateStatus_some_keeps polled_background.unbothered polled_bookkept polled_online status

/-- The handling of a poll is as asked for exactly when the fetch gave a status, or the
ping failed as well. -/
theorem pollHandling_keepsOnline_iff (config : Config) (fetched : Except Unit ServerStatus)
    (pinged : Except Unit Unit) :
    (∀ log rest, (pollHandling config fetched pinged).Performs log rest → StartedThroughout log →
      KeepsOnline fetched pinged log) ↔ ¬ (fetched = .error () ∧ pinged = .ok ()) := by
  constructor
  · rintro keeps ⟨rfl, rfl⟩
    -- The fallback succeeds, and the state is looked at once more and swapped.
    have performs : (pollHandling config (.error ()) (.ok ())).Performs
        [⟨.loadState, .started⟩, ⟨.loadState, .started⟩, ⟨.swapState .stopped, .started⟩] _ :=
      .request (.request (.request .start))
    have kept := keeps _ _ performs (by simp [StartedThroughout])
    exact kept.unchanged rfl rfl ⟨.swapState .stopped, .started⟩ (by simp) trivial
  · intro other log rest performs _
    refine ⟨fun failed succeeded => absurd ⟨failed, succeeded⟩ other, fun old member => ?_⟩
    cases fetched with
    | ok status =>
      have permitted := Follows.permits_of_mem (fun _ _ _ => rfl)
        (pollHandling_fetched config status pinged) performs member
      exact absurd rfl (permitted rfl)
    | error _ =>
      cases pinged with
      | ok _ => exact absurd ⟨rfl, rfl⟩ other
      | error _ => exact ⟨rfl, rfl⟩

/-- The iterations that have been started so far. -/
theorem entry_of_step {before after : Proxy} {move : ProxyMove}
    (stepped : (lifecycle config).step before move = some after)
    {task : Task Op Op.Reply Entry} (member : task ∈ after.tasks) :
    (∃ old ∈ before.tasks, old.entry = task.entry) ∨ move = .call task.entry ∨
      task.entry = .invokeServerCmd := by
  cases move with
  | call entry =>
    simp only [System.step] at stepped
    split at stepped
    · cases stepped
      rcases List.mem_append.mp member with old | new
      · exact .inl ⟨task, old, rfl⟩
      · rw [List.mem_singleton.mp new]
        exact .inr (.inl rfl)
    · cases stepped
  | outside event =>
    obtain ⟨world, -, rfl⟩ := Option.map_eq_some_iff.mp stepped
    exact .inl ⟨task, member, rfl⟩
  | run index answer =>
    obtain ⟨acting, op, next, reply, world, found, waiting, -, rfl⟩ := System.step_run stepped
    rcases List.mem_append.mp member with old | new
    · rcases List.mem_or_eq_of_mem_set old with old | rfl
      · exact .inl ⟨task, old, rfl⟩
      · exact .inl ⟨acting, List.mem_of_getElem? found, rfl⟩
    · obtain ⟨entry, spawned, rfl⟩ := List.mem_map.mp new
      have command : entry = .invokeServerCmd := by
        cases op <;> first | exact List.mem_singleton.mp spawned | cases spawned
      exact .inr (.inr command)

end

/-- No iteration fails to fetch the status of a server that answers its ping. -/
def Conclusive (entry : Entry) : Prop := entry ≠ .monitor (.error ()) (.ok ())

/-- In a run of iterations whose fallback never succeeds, a poll takes the server offline
only where both of its halves have failed. -/
theorem conclusive_run {config : Config} {pool : Proxy}
    (reached : (lifecycle config).Reaches (fun _ _ => True) Proxy.boot pool)
    (entries : ∀ task ∈ pool.tasks, Conclusive task.entry) (moves : List ProxyMove)
    (conclusive : (lifecycle config).Every
      (fun _ move _ => ∀ entry, move = .call entry → Conclusive entry) pool moves) :
    (lifecycle config).Every (fun before move _ => ∀ fetched pinged,
      TakesOffline before move fetched pinged → fetched = .error () ∧ pinged = .error ())
      pool moves := by
  induction moves generalizing pool with
  | nil => trivial
  | cons move moves ih =>
    intro after stepped
    obtain ⟨now, later⟩ := conclusive after stepped
    refine ⟨?_, ih (reached.tail ⟨move, trivial, stepped⟩) ?_ later⟩
    · rintro fetched pinged ⟨turn, turned, entered, operation⟩
      obtain ⟨index, -, found, waiting⟩ := Proxy.run_of_turn turned
      have member := List.mem_of_getElem? found
      have onTrack := Protocol.tasks_follow (lifecycle_polled config) reached turn.task member
      have permitted := onTrack.permits_next waiting
      have started := polled_stage turn.task
      have judged := entries turn.task member
      rw [started, entered] at permitted
      rw [entered] at judged
      cases fetched with
      | ok status => exact absurd operation (permitted rfl)
      | error _ =>
        cases pinged with
        | ok _ => exact absurd rfl judged
        | error _ => exact ⟨rfl, rfl⟩
    · intro task member
      rcases entry_of_step stepped member with ⟨old, there, same⟩ | called | command
      · exact same ▸ entries old there
      · exact now task.entry called
      · rw [command]
        exact nofun

/-- Handling a poll keeps a started server as it is asked to, whatever runs beside it,
exactly when the fetch gave a status or the ping failed as well; and where each iteration
of a run is such, polls take the server offline only after both have failed. -/
theorem ping_fallback_iff (config : Config) :
    (∀ fetched pinged,
      (∀ log rest, (pollHandling config fetched pinged).Performs log rest →
        StartedThroughout log → KeepsOnline fetched pinged log) ↔
          ¬ (fetched = .error () ∧ pinged = .ok ())) ∧
    ∀ moves, (lifecycle config).Every
        (fun _ move _ => ∀ entry, move = .call entry → Conclusive entry) Proxy.boot moves →
      (lifecycle config).Every (fun before move _ => ∀ fetched pinged,
        TakesOffline before move fetched pinged → fetched = .error () ∧ pinged = .error ())
        Proxy.boot moves :=
  ⟨pollHandling_keepsOnline_iff config, conclusive_run .refl nofun⟩

/-- A server that a poll has found online, and the handling of the next poll: the fetch
fails, and the ping is answered. -/
private def onlineThenLate : List ProxyMove :=
  [.call (.monitor (.ok dummyStatus) (.ok ()))] ++ goes 0 14 ++
    [.call (.monitor (.error ()) (.ok ()))] ++ goes 1 2

/-- It takes the server offline. -/
theorem late_answer_is_taken_offline :
    ¬ ∀ (config : Config) (moves : List ProxyMove),
      (lifecycle config).Every (fun before move _ => ∀ fetched pinged,
        TakesOffline before move fetched pinged → fetched = .error () ∧ pinged = .error ())
        Proxy.boot moves := by
  intro every
  have offline : ((lifecycle {}).play (fun _ _ => True) Proxy.boot onlineThenLate).bind
      (fun before => ((lifecycle {}).step before (.run 1 true)).bind fun _ =>
        (Proxy.turn? before (.run 1 true)).map fun turn => (turn.task.entry, turn.op)) =
      some (Entry.monitor (.error ()) (.ok ()), Op.swapState .stopped) := rfl
  obtain ⟨before, played, offline⟩ := Option.bind_eq_some_iff.mp offline
  obtain ⟨after, stepped, offline⟩ := Option.bind_eq_some_iff.mp offline
  obtain ⟨turn, turned, facts⟩ := Option.map_eq_some_iff.mp offline
  obtain ⟨entered, operation⟩ := Prod.mk.inj facts
  have held := System.every_last (every {} (onlineThenLate ++ [.run 1 true])) played stepped
  exact nomatch (held _ _ ⟨turn, turned, entered, operation⟩).2

end PlexPaper
