import PlexPaper.LifecyclePrograms

/-! The published state. `update_state_from` changes the state in one step and
sends it on the watch channel in a later one, so between the two an update is
pending. The last value sent is the state again once no update is pending,
unless an update that was overtaken sends its own state last. -/
namespace PlexPaper
open Tasks Server

/-- An update is pending, with the state it has moved to, from its state change
to its send. -/
abbrev pending : Protocol Op Op.Reply Entry where
  Stage := Option State
  advance stage op reply := match op with
    | .sendState _ => none
    | op => (op.moved reply).or stage
  permits
    | some new, op => op = .sendState new
    | none, op => ¬ op.Publishing
  enter _ := none

theorem quiet_otherwise (op : Op) (other : ¬ op.Updating) (silent : ¬ op.Publishing) :
    pending.QuietAt none op := by
  refine ⟨silent, fun reply => ?_⟩
  cases op with
  | swapState | compareExchange => exact absurd trivial other
  | sendState => exact absurd trivial silent
  | _ => rfl

private theorem idle_background : Unbothered pending.toDiscipline none :=
  fun op member _ => quiet_otherwise op member.not_updating member.not_publishing

section

variable {config : Config}

/-- Settling a state begins with its send. -/
private theorem settle_sends (new : State) :
    (settle config new).Follows pending.toDiscipline (some new) fun _ ended => ended = none :=
  settle_follows (d := pending.toDiscipline) rfl rfl idle_background
    (fun _ => ⟨id, fun _ => rfl⟩)
    fun _ op member => quiet_otherwise op member.not_updating member.not_publishing

/-- An update is over with its send, or never was pending. -/
theorem update_sends (current : Option State) (new : State) :
    UpdateKeeps pending.toDiscipline none config current new := by
  apply UpdateKeeps.of_lands some
  · intro op updates
    cases op with
    | swapState | compareExchange => exact id
    | _ => exact updates.elim
  · intro op reply updates
    cases op with
    | swapState | compareExchange =>
      change (Op.moved _ reply).or none = _
      cases Op.moved _ reply <;> rfl
    | _ => exact updates.elim
  · exact settle_sends new

/-- Every task of the proxy sends the states it moves to, one after the other. -/
theorem lifecycle_sends (config : Config) : (lifecycle config).Obeys pending :=
  lifecycle_obeys (fun _ => rfl) quiet_otherwise fun update _ => update_sends update.1 update.2

end

/-- The state an operation sends on the watch channel. -/
def Op.sent? : Op → Option State
  | .sendState new => some new
  | _ => none

/-- A state is about to be sent that the server has left, with no update to its
present state pending. -/
def LateSend (proxy : Proxy) (move : ProxyMove) : Prop :=
  ∃ turn ∈ proxy.turn? move, ∃ new ∈ turn.op.sent?, new ≠ proxy.world.server.state ∧
    some proxy.world.server.state ∉ pending.stages proxy
  deriving Decidable

/-- The state is the one published last, or an update to it is pending. -/
def Heralded (world : World) (stages : List (Option State)) : Prop :=
  world.server.published = world.server.state ∨ some world.server.state ∈ stages

/-- A permitted operation keeps the state heralded unless it sends late. -/
private theorem heralded_run {world after : World} {left right : List (Option State)}
    {stage : Option State} {op : Op} {reply : op.Reply} {succeeds : Bool}
    (heralded : Heralded world (left ++ stage :: right)) (permitted : pending.permits stage op)
    (executed : world.execute op succeeds = some (reply, after))
    (timely : ∀ new, op = .sendState new → new = world.server.state ∨
      some world.server.state ∈ left ++ stage :: right) :
    Heralded after (left ++ pending.advance stage op reply :: right) := by
  by_cases sends : ∃ new, op = .sendState new
  · obtain ⟨new, rfl⟩ := sends
    cases World.perform_of_execute executed
    rcases timely new rfl with same | waiting
    · exact .inl same
    · by_cases same : new = world.server.state
      · exact .inl same
      · -- The pending update is another task's: the sender's own is to `new`.
        refine .inr ?_
        have elsewhere : stage ≠ some world.server.state := by
          rintro rfl
          cases permitted
          exact same rfl
        grind
  · have silent (new : State) (same : op = .sendState new) : False := sends ⟨new, same⟩
    have idle : op.moved reply ≠ none → stage = none := by
      intro moves
      cases stage with
      | none => rfl
      | some new => exact (silent new permitted).elim
    have state := World.execute_state executed
    have moved := World.execute_moved executed
    have published := (World.execute_channel executed silent).1
    have advance : pending.advance stage op reply = (op.moved reply).or stage := by
      cases op with
      | sendState new => exact (silent new rfl).elim
      | _ => rfl
    unfold Heralded
    rw [advance, moved, published, state]
    split
    · rename_i same
      rw [same]
      exact heralded
    · exact .inr (List.mem_append_right _ List.mem_cons_self)

/-- Runs in which no state is sent late keep the state heralded. -/
theorem heralded_of_timely {config : Config} {proxy : Proxy}
    (reached : (lifecycle config).Reaches (fun proxy move => ¬ LateSend proxy move) Proxy.boot proxy) :
    Heralded proxy.world (pending.stages proxy) := by
  refine pending.invariant (lifecycle_sends config) Heralded (.inl rfl) ?_ ?_ ?_ reached
  · intro world stages entry _ heralded
    exact heralded.imp_right fun waiting => List.mem_append_left _ waiting
  · intro world stages event after acted heralded
    unfold Heralded
    rw [World.outside_server acted]
    exact heralded
  · intro proxy index answer task op reply after left right timely found waiting permitted executed
      around heralded
    have own := heralded_run heralded permitted executed fun new sends => by
      subst sends
      by_contra late
      push Not at late
      exact timely ⟨_, Proxy.turn?_run found waiting, new, rfl, late.1, around ▸ late.2⟩
    exact own.imp_right fun waiting => List.mem_append_left _ waiting

/-- As long as no state is sent late, the value last sent on the watch channel
is the state of the server whenever no update is pending, and with that whenever
no `update_state_from` is in flight. -/
theorem published_state_agrees {config : Config} {proxy : Proxy}
    (reached : (lifecycle config).Reaches (fun proxy move => ¬ LateSend proxy move) Proxy.boot proxy)
    (settled : ∀ stage ∈ pending.stages proxy, stage = none) :
    proxy.world.server.published = proxy.world.server.state := by
  refine (heralded_of_timely reached).resolve_right fun waiting => ?_
  cases settled _ waiting

/-- A poll finds the server online after its start. -/
private def startedInOrder : List ProxyMove :=
  [.call .start] ++ goes 0 5 ++ goes 1 2 ++ [.call (.monitor (.ok dummyStatus) (.ok ()))] ++ goes 2 14

theorem published_state_agrees_online : ∃ proxy,
    (lifecycle {}).play (fun proxy move => ¬ LateSend proxy move) Proxy.boot startedInOrder =
      some proxy ∧
    proxy.world.server.state = .started ∧ proxy.world.server.published = proxy.world.server.state := by
  have online : ((lifecycle {}).play (fun proxy move => ¬ LateSend proxy move) Proxy.boot
      startedInOrder).map (fun proxy => decide (proxy.world.server.state = .started ∧
        ∀ stage ∈ pending.stages proxy, stage = none)) = some true := by decide
  obtain ⟨proxy, played, facts⟩ := Option.map_eq_some_iff.mp online
  obtain ⟨started, settled⟩ := of_decide_eq_true facts
  exact ⟨proxy, played, started, published_state_agrees (System.play_reaches played) settled⟩

/-- A poll takes the server online while the update to `Starting` is pending. The
command cannot be run after that. -/
private def startOvertaken : List ProxyMove :=
  [.call .start] ++ goes 0 1 ++ [.call (.monitor (.ok dummyStatus) (.ok ()))] ++ goes 1 14 ++
    goes 0 4 ++ [.run 2 false]

/-- Every task has returned then, and the channel still says `Starting`. -/
theorem overtaken_start_published_last :
    ¬ ∀ (config : Config) (proxy : Proxy),
      (lifecycle config).Reaches (fun _ _ => True) Proxy.boot proxy →
      (∀ task ∈ proxy.tasks, task.next?.isNone) →
      proxy.world.server.published = proxy.world.server.state := by
  intro every
  have overtaken : ((lifecycle {}).play (fun _ _ => True) Proxy.boot startOvertaken).map
      (fun proxy => decide ((∀ task ∈ proxy.tasks, task.next?.isNone) ∧
        proxy.world.server.published ≠ proxy.world.server.state)) = some true := by decide
  obtain ⟨proxy, played, facts⟩ := Option.map_eq_some_iff.mp overtaken
  obtain ⟨settled, differ⟩ := of_decide_eq_true facts
  exact differ (every {} proxy (System.play_reaches played) settled)

end PlexPaper
