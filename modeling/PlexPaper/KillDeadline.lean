import PlexPaper.LifecyclePrograms

/-! The kill deadline. `update_state_from` changes the state first and writes
`kill_at` some steps later, so between the two an update is in flight and the
deadline may belong to another state. It gets disarmed in time unless an update
that was overtaken writes its own deadline last. -/
namespace PlexPaper
open Tasks Server

/-- The states in which a kill deadline runs. -/
def Timed (state : State) : Prop := state = .starting ∨ state = .stopping
  deriving Decidable

/-- The operation arms the deadline. -/
def Op.arms : Op → Bool
  | .write .killAt (some _) => true
  | _ => false

/-- An update is in flight, with the state it has moved to, from its state
change to its write of the deadline. -/
abbrev inFlight : Protocol Op Op.Reply Entry where
  Stage := Option State
  advance stage op reply := match op with
    | .write .killAt _ => none
    | op => (op.moved reply).or stage
  permits
    | none, .write .killAt _ => False
    | none, _ => True
    | some new, .write .killAt value => value.isSome → Timed new
    | some _, op => ¬ op.Updating
  enter _ := none

private theorem quiet_others (stage : Option State) (op : Op) (other : ¬ op.Updating) :
    inFlight.QuietAt stage op := by
  cases op with
  | swapState | compareExchange => exact absurd trivial other
  | write cell value => cases cell <;> cases stage <;> first
    | exact absurd trivial other
    | exact ⟨trivial, fun _ => rfl⟩
    | exact ⟨other, fun _ => rfl⟩
  | _ => cases stage <;> first
    | exact ⟨trivial, fun _ => rfl⟩
    | exact ⟨other, fun _ => rfl⟩

private theorem background (stage : Option State) : Unbothered inFlight.toDiscipline stage :=
  fun op member _ => quiet_others stage op member.not_updating

section

variable {config : Config}

/-- Only a timed state is given a deadline. -/
private theorem killDeadline_timed (new : State) :
    (killDeadline config new).Follows inFlight.toDiscipline (some new) fun value ended =>
      ended = some new ∧ (value.isSome → Timed new) := by
  have kept : (killDeadline config new).Keeps inFlight.toDiscipline (some new) :=
    killDeadline_keeps (background (some new)) new
  cases new with
  | starting => exact kept.mono fun _ _ same => ⟨same, fun _ => .inl rfl⟩
  | stopping => exact kept.mono fun _ _ same => ⟨same, fun _ => .inr rfl⟩
  | stopped | started => exact ⟨rfl, fun deadline => by cases deadline⟩

/-- Settling a state ends the flight of its update. -/
private theorem settle_lands (new : State) :
    (settle config new).Follows inFlight.toDiscipline (some new) fun _ ended => ended = none := by
  refine Program.follows_bind.mpr ((Program.Keeps.perform (quiet_others _ (.sendState new) id)).follows
    fun _ => ?_)
  refine Program.follows_bind.mpr ((killDeadline_timed new).mono fun value ended ⟨same, timed⟩ => ?_)
  subst same
  refine Program.follows_bind.mpr ⟨timed, fun _ => ?_⟩
  have bookkept : Bookkept inFlight.toDiscipline none :=
    fun op member => quiet_others none op member.not_updating
  show Program.Keeps inFlight.toDiscipline none _
  refine .ite (fun _ => ?_) fun _ => .pure
  exact .bind (updateLastActive_keeps (background none) bookkept) fun _ =>
    keepOnlineFor_keeps (background none) bookkept _

/-- An update is over with its write, or never left. -/
private theorem update_lands (current : Option State) (new : State) :
    UpdateKeeps inFlight.toDiscipline none config current new := by
  apply UpdateKeeps.of_lands some
  · intro op updates
    cases op with
    | swapState | compareExchange => trivial
    | _ => exact updates.elim
  · intro op reply updates
    cases op with
    | swapState | compareExchange =>
      change (Op.moved _ reply).or none = _
      cases Op.moved _ reply <;> rfl
    | _ => exact updates.elim
  · exact settle_lands new

/-- Every task of the proxy makes its updates one after the other. -/
theorem lifecycle_updates (config : Config) : (lifecycle config).Obeys inFlight :=
  lifecycle_obeys (fun _ => rfl) (fun op other _ => quiet_others none op other) fun update _ =>
    update_lands update.1 update.2

end

/-- A deadline is about to be armed for a state the server has left, with no
update in flight that would disarm it. -/
def LateArming (proxy : Proxy) (move : ProxyMove) : Prop :=
  ∃ turn ∈ proxy.turn? move, turn.op.arms ∧ ¬ Timed proxy.world.server.state ∧
    ∀ stage ∈ inFlight.stages proxy, ∀ new ∈ stage, Timed new
  deriving Decidable

/-- A deadline runs only in a timed state, or with an update in flight that will
disarm it. -/
def Covered (world : World) (stages : List (Option State)) : Prop :=
  world.server.killAt.isSome → Timed world.server.state ∨ ∃ stage ∈ stages, ∃ new ∈ stage, ¬ Timed new

/-- A permitted operation keeps the deadline covered unless it arms late. -/
private theorem covered_run {world after : World} {left right : List (Option State)}
    {stage : Option State} {op : Op} {reply : op.Reply} {succeeds : Bool}
    (covered : Covered world (left ++ stage :: right)) (permitted : inFlight.permits stage op)
    (executed : world.execute op succeeds = some (reply, after))
    (timely : op.arms → Timed world.server.state ∨
      ∃ other ∈ left ++ stage :: right, ∃ new ∈ other, ¬ Timed new) :
    Covered after (left ++ inFlight.advance stage op reply :: right) := by
  have state := World.execute_state executed
  by_cases writes : ∃ value, op = .write .killAt value
  · obtain ⟨value, rfl⟩ := writes
    cases World.perform_of_execute executed
    cases value with
    | none => exact fun armed => by cases armed
    | some deadline =>
      -- The writing task's own state is timed, so what disarms later is in flight elsewhere.
      intro _
      rcases timely rfl with timed | ⟨other, member, new, inside, untimed⟩
      · exact .inl timed
      · refine .inr ⟨other, ?_, new, inside, untimed⟩
        have elsewhere : other ≠ stage := by
          rintro rfl
          cases other with
          | none => cases inside
          | some own => cases inside; exact untimed (permitted rfl)
        grind
  · have kept : after.server.killAt = world.server.killAt :=
      World.execute_get executed .killAt fun value same => writes ⟨value, same⟩
    have advance : inFlight.advance stage op reply = (op.moved reply).or stage := by
      cases op with
      | write cell value => cases cell <;> first | rfl | exact absurd ⟨value, rfl⟩ writes
      | _ => rfl
    intro armed
    rw [advance, World.execute_moved executed, state]
    split
    · rename_i same
      rw [same]
      exact covered (kept ▸ armed)
    · by_cases timed : Timed (op.newState world.server.state)
      · exact .inl timed
      · exact .inr ⟨_, List.mem_append_right _ List.mem_cons_self, _, rfl, timed⟩

/-- Runs in which no deadline is armed late keep the deadline covered. -/
theorem covered_of_timely {config : Config} {proxy : Proxy}
    (reached : (lifecycle config).Reaches (fun proxy move => ¬ LateArming proxy move) Proxy.boot proxy) :
    Covered proxy.world (inFlight.stages proxy) := by
  refine inFlight.invariant (lifecycle_updates config) Covered ?_ ?_ ?_ ?_ reached
  · exact fun armed => by cases armed
  · intro world stages entry _ covered armed
    exact (covered armed).imp_right fun ⟨stage, member, rest⟩ =>
      ⟨stage, List.mem_append_left _ member, rest⟩
  · intro world stages event after acted covered
    unfold Covered
    rw [World.outside_server acted]
    exact covered
  · intro proxy index answer task op reply after left right timely found waiting permitted executed
      around covered armed
    have own := covered_run covered permitted executed (fun arms => by
      by_contra late
      push Not at late
      exact timely ⟨_, Proxy.turn?_run found waiting, arms, late.1, around ▸ late.2⟩) armed
    exact own.imp_right fun ⟨stage, member, rest⟩ => ⟨stage, List.mem_append_left _ member, rest⟩

/-- With no update in flight, a kill deadline runs only while the server is
starting or stopping. -/
def Disarmed (proxy : Proxy) : Prop :=
  (∀ stage ∈ inFlight.stages proxy, stage = none) → proxy.world.server.killAt.isSome →
    Timed proxy.world.server.state
  deriving Decidable

/-- As long as no deadline is armed late, it is disarmed outside `Starting` and
`Stopping` whenever no update is in flight, and `should_kill` answers no for a
server settled in `Started`. -/
theorem kill_deadline_disarmed {config : Config} {proxy : Proxy}
    (reached : (lifecycle config).Reaches (fun proxy move => ¬ LateArming proxy move) Proxy.boot proxy) :
    Disarmed proxy ∧ ((∀ stage ∈ inFlight.stages proxy, stage = none) →
      proxy.world.server.state = .started → proxy.world.exited = false → ∀ answers,
      (shouldKill.run World.execute answers proxy.world).map (·.1) = some false) := by
  have disarmed : Disarmed proxy := by
    intro settled armed
    refine (covered_of_timely reached armed).resolve_right ?_
    rintro ⟨stage, member, new, inside, -⟩
    rw [settled stage member] at inside
    cases inside
  refine ⟨disarmed, fun settled started running answers => ?_⟩
  have unarmed : proxy.world.server.killAt = none := by
    by_contra armed
    rcases disarmed settled (Option.isSome_iff_ne_none.mpr armed) with timed | timed <;>
      cases started.symm.trans timed
  simp [shouldKill, Program.run, World.execute, running, World.perform, Server.get, unarmed]

/-- A server that came online with no update in flight. -/
theorem kill_deadline_disarmed_online : ∃ proxy,
    (lifecycle {}).play (fun proxy move => ¬ LateArming proxy move) Proxy.boot
      ([.call .start] ++ goes 0 5 ++ goes 1 2 ++ [.call (.monitor (.ok dummyStatus) (.ok ()))] ++
        goes 2 14) = some proxy ∧
    proxy.world.server.state = .started ∧ Disarmed proxy ∧
    (shouldKill.run World.execute [] proxy.world).map (·.1) = some false := by
  have online : ((lifecycle {}).play (fun proxy move => ¬ LateArming proxy move) Proxy.boot
      ([.call .start] ++ goes 0 5 ++ goes 1 2 ++ [.call (.monitor (.ok dummyStatus) (.ok ()))] ++
        goes 2 14)).map (fun proxy => decide ((∀ stage ∈ inFlight.stages proxy, stage = none) ∧
          proxy.world.server.state = .started ∧ proxy.world.exited = false)) = some true := by
    decide
  obtain ⟨proxy, played, facts⟩ := Option.map_eq_some_iff.mp online
  obtain ⟨settled, started, running⟩ := of_decide_eq_true facts
  obtain ⟨disarmed, spared⟩ := kill_deadline_disarmed (System.play_reaches played)
  exact ⟨proxy, played, started, disarmed, spared settled started running []⟩

/-- The server comes online while the update to `Starting` is in flight. -/
private def onlineBeforeDeadline : List ProxyMove :=
  [.call .start] ++ goes 0 3 ++ [.call (.monitor (.ok dummyStatus) (.ok ()))] ++ goes 1 14 ++ goes 0 1

/-- The deadline of the start stays armed. -/
theorem started_server_stays_armed :
    ¬ ∀ (config : Config) (proxy : Proxy),
      (lifecycle config).Reaches (fun _ _ => True) Proxy.boot proxy → Disarmed proxy := by
  intro every
  have armed : ((lifecycle {}).play (fun _ _ => True) Proxy.boot onlineBeforeDeadline).map
      (fun proxy => decide (¬ Disarmed proxy)) = some true := by decide
  obtain ⟨proxy, played, armed⟩ := Option.map_eq_some_iff.mp armed
  exact of_decide_eq_true armed (every {} proxy (System.play_reaches played))

end PlexPaper
