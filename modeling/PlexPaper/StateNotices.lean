import PlexPaper.PublishedState
import PlexPaper.TaskLedger

/-! How often the state is published. Those who wait for the server count on it that no
change of the state passes them by. Every task publishes each state that it moves the server
to, once and in its own order, so over a whole run there are as many values on the watch
channel as there were changes, but for those still to be sent. -/
namespace PlexPaper
open Tasks Server

/-- The states that a task has moved the server to, in order. -/
def movesIn (log : List ((op : Op) × op.Reply)) : List State := log.filterMap fun done => done.1.moved done.2

/-- The states that a task has sent on the watch channel, in order. -/
def sentIn (log : List ((op : Op) × op.Reply)) : List State := log.filterMap fun done => done.1.sent?

section

variable {config : Config} {condition : Proxy → ProxyMove → Prop} {proxy : Proxy}

/-- A task has sent what it has moved to, but for the state that is pending. -/
theorem movesIn_eq (reached : (lifecycle config).Reaches condition Proxy.boot proxy)
    {task : Task Op Op.Reply Entry} (member : task ∈ proxy.tasks) :
    movesIn task.log = sentIn task.log ++ (pending.stage task).toList := by
  refine Protocol.tasks_relate (lifecycle_sends config)
    (fun log (stage : Option State) => movesIn log = sentIn log ++ stage.toList) (fun _ => rfl) ?_
    reached task member
  intro log stage op reply permitted same
  rw [movesIn, sentIn, List.filterMap_append, List.filterMap_append]
  change movesIn log ++ _ = sentIn log ++ _ ++ (pending.advance stage op reply).toList
  rw [same]
  cases stage with
  | some new =>
    cases permitted
    simp [Op.moved, Op.sent?]
  | none =>
    have silent : op.sent? = none := by
      cases op <;> first | rfl | exact absurd trivial permitted
    have advance : pending.advance none op reply = op.moved reply := by
      cases op with
      | sendState => exact absurd trivial permitted
      | _ => exact Option.or_none (o := Op.moved _ reply)
    rw [advance]
    cases moved : op.moved reply <;> simp [moved, silent]

/-- The values sent on the watch channel are those that the tasks have sent. -/
theorem version_eq (reached : (lifecycle config).Reaches condition Proxy.boot proxy) :
    proxy.world.server.version = proxy.done.countP fun done => done.1.sent?.isSome := by
  have balanced := reached.balances (fun world => world.server.version)
    (fun done => done.1.sent?.isSome) (fun _ => false)
    (fun world event after acted => by rw [World.outside_server acted])
    fun world op succeeds reply after executed => by
      cases op with
      | sendState new => rw [World.execute_newServer executed]; rfl
      | _ => exact (World.execute_channel executed fun _ => nofun).2
  simpa [Proxy.boot, System.initial] using balanced

/-- A state is pending in a task that is about to send it, and in no other. -/
theorem pending_eq (reached : (lifecycle config).Reaches condition Proxy.boot proxy)
    {task : Task Op Op.Reply Entry} (member : task ∈ proxy.tasks) :
    pending.stage task = task.next?.bind Op.sent? := by
  obtain ⟨entered, performs⟩ := reached.tasks_perform task member
  -- Unlike a protocol that is obeyed, this says how a task returns.
  have returns : (task.entry.body config).Keeps pending.toDiscipline none :=
    body_keeps (fun op other silent _ => quiet_otherwise op other silent)
      (fun update _ _ => update_sends update.1 update.2) task.entry fun _ =>
      ⟨fun op bookkeeping => quiet_otherwise op bookkeeping.not_updating bookkeeping.not_publishing,
        update_sends _ _⟩
  have rest : task.rest.Follows pending.toDiscipline (pending.stage task) fun _ ended => ended = none :=
    returns.performs performs
  cases waiting : task.rest with
  | pure value =>
    rw [waiting] at rest
    have settled : pending.stage task = none := rest
    simp [Task.next?, waiting, Program.next?, settled]
  | request op next =>
    rw [waiting] at rest
    have permitted := rest.1
    simp only [Task.next?, waiting, Program.next?, Option.bind_some]
    cases stage : pending.stage task with
    | some new =>
      rw [stage] at permitted
      cases permitted
      rfl
    | none =>
      rw [stage] at permitted
      cases op <;> first | rfl | exact absurd trivial permitted

/-- Every state that a task moves the server to it sends on the watch channel, once, in its
order, and before it does anything else. So however many updates overlap, the channel has
been sent to as often as the state has changed, but for the tasks that are about to send. -/
theorem changes_published_once (reached : (lifecycle config).Reaches condition Proxy.boot proxy) :
    (∀ task ∈ proxy.tasks,
      movesIn task.log = sentIn task.log ++ (task.next?.bind Op.sent?).toList) ∧
    proxy.done.countP (fun done => (done.1.moved done.2).isSome) =
      proxy.world.server.version + proxy.tasks.countP fun task => (task.next?.bind Op.sent?).isSome := by
  have each : ∀ task ∈ proxy.tasks,
      movesIn task.log = sentIn task.log ++ (task.next?.bind Op.sent?).toList := fun task member => by
    rw [movesIn_eq reached member, pending_eq reached member]
  refine ⟨each, ?_⟩
  rw [version_eq reached]
  refine Pool.countP_done_eq fun task member => ?_
  have lengths := congrArg List.length (each task member)
  rw [movesIn, sentIn, List.length_append, List.length_filterMap_eq_countP,
    List.length_filterMap_eq_countP] at lengths
  rw [lengths]
  cases task.next?.bind Op.sent? <;> rfl

end

/-- A poll takes the server online while a start has not published its own change yet. -/
private def onlineBeforeSend : List ProxyMove :=
  [.call .start] ++ goes 0 1 ++ [.call (.monitor (.ok dummyStatus) (.ok ()))] ++ goes 1 14

theorem changes_published_once_overtaken : ∃ proxy,
    (lifecycle {}).play (fun _ _ => True) Proxy.boot onlineBeforeSend = some proxy ∧
    proxy.world.server.state = .started ∧
    proxy.done.countP (fun done => (done.1.moved done.2).isSome) = proxy.world.server.version + 1 := by
  have online : ((lifecycle {}).play (fun _ _ => True) Proxy.boot onlineBeforeSend).map (fun proxy =>
      decide (proxy.world.server.state = .started ∧
        proxy.tasks.countP (fun task => (task.next?.bind Op.sent?).isSome) = 1)) = some true := by decide
  obtain ⟨proxy, played, facts⟩ := Option.map_eq_some_iff.mp online
  obtain ⟨started, unsent⟩ := of_decide_eq_true facts
  have counted := (changes_published_once (System.play_reaches played)).2
  exact ⟨proxy, played, started, unsent ▸ counted⟩

end PlexPaper
