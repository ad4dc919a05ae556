import PlexPaper.Waiting

/-! A held client and the cycles of the server. `hold::occupy` looks at the state
itself and then watches the channel, which its receiver has never marked, so what
it sees first may have been published for an earlier cycle. It does not see an old
stop as long as the start that it has looked at was published, with nothing left
to publish from before. -/
namespace PlexPaper.Waiting
open Tasks

/-- The states that end a wait without the server. -/
def Stops (state : State) : Prop := state = .stopping ∨ state = .stopped
  deriving Decidable

/-- What the loop of the waiters makes of a state. -/
def answer : State → Option Bool
  | .starting => none
  | .started => some true
  | .stopping | .stopped => some false

theorem answer_eq_false_iff {state : State} : answer state = some false ↔ Stops state := by
  cases state <;> simp [answer, Stops]

/-- The step takes the server from this state to `Stopping` or `Stopped`. -/
def StopsFrom (source : State) (before : Lounge) (_ : LoungeMove) (after : Lounge) : Prop :=
  before.world.proxy.server.state = source ∧ Stops after.world.proxy.server.state

/-- A stop is what the channel holds, or what an update is still to send. -/
def Stale (lounge : Lounge) : Prop :=
  (lounge.world.proxy.server.version ≠ 0 ∧ Stops lounge.world.proxy.server.published) ∨
    ∃ stage ∈ waits.stages lounge, stage = .serving (some .stopping) ∨ stage = .serving (some .stopped)
  deriving Decidable

/-- No stop is left to be seen, and the waiter has seen none. -/
structure Steady (index : Nat) (lounge : Lounge) : Prop where
  state : ¬ Stops lounge.world.proxy.server.state
  published : lounge.world.proxy.server.version = 0 ∨ ¬ Stops lounge.world.proxy.server.published
  pending : ∀ new, .serving (some new) ∈ waits.stages lounge → ¬ Stops new
  waiter : ∃ task, lounge.tasks[index]? = some task ∧ waits.stage task ≠ .refused

section

variable {world after : World} {op : Op} {succeeds : Bool} {reply : op.Reply} {stage : Stage}

/-- An update that is pending after an operation was pending before, or is to the
state that the operation has moved to. -/
theorem pending_advance {new : State} (permitted : stage.permits op)
    (executed : world.execute op succeeds = some (reply, after))
    (updates : stage.advance op reply = .serving (some new)) :
    stage = .serving (some new) ∨ after.proxy.server.state = new := by
  cases stage with
  | serving update =>
    cases op with
    | server inner =>
      have advanced : pending.advance update inner reply = some new := Stage.serving.inj updates
      have executed := (World.execute_server executed).1
      by_cases sends : ∃ sent, inner = .sendState sent
      · obtain ⟨sent, rfl⟩ := sends
        cases advanced
      · have advance : pending.advance update inner reply = (inner.moved reply).or update := by
          cases inner with
          | sendState sent => exact absurd ⟨sent, rfl⟩ sends
          | _ => rfl
        rcases Option.or_eq_some_iff.mp (advance.symm.trans advanced) with moved | ⟨-, same⟩
        · have becomes := (PlexPaper.World.execute_moved executed).symm.trans moved
          obtain ⟨-, becomes⟩ := Option.ite_none_left_eq_some.mp becomes
          exact .inr ((PlexPaper.World.execute_state executed).trans (Option.some.inj becomes))
        · exact .inl (congrArg Stage.serving same)
    | _ => cases permitted
  | entering =>
    cases permitted
    simp only [Stage.advance] at updates
    split at updates <;> cases updates
  | subscribing => cases permitted; cases updates
  | watching seen => cases permitted; cases reply <;> cases updates
  | marked seen => cases permitted; cases reply <;> cases updates
  | released | refused | gone => cases permitted

/-- A value that is sent was pending. -/
theorem sent_pending {new : State} (permitted : stage.permits (.server (.sendState new))) :
    stage = .serving (some new) := by
  cases stage with
  | serving update =>
    cases update with
    | some other => cases permitted; rfl
    | none => exact absurd trivial permitted
  | entering => cases permitted
  | subscribing => cases permitted
  | watching => cases permitted
  | marked => cases permitted
  | released | refused | gone => cases permitted

/-- A waiter is answered by what it borrows. -/
theorem verdict_advance {through : Bool} (permitted : stage.permits op)
    (executed : world.execute op succeeds = some (reply, after))
    (answered : (stage.advance op reply).verdict = some through) :
    ∃ seen, stage = .marked seen ∧ answer world.proxy.server.published = some through := by
  cases stage with
  | serving update =>
    cases op with
    | server inner => cases answered
    | _ => cases permitted
  | entering =>
    cases permitted
    simp only [Stage.advance] at answered
    split at answered <;> cases answered
  | subscribing => cases permitted; cases answered
  | watching seen => cases permitted; cases reply <;> cases answered
  | marked seen =>
    cases permitted
    obtain ⟨-, executed⟩ := Option.ite_none_left_eq_some.mp executed
    obtain ⟨borrowed, -⟩ := Prod.mk.inj (Option.some.inj executed)
    rw [← borrowed] at answered
    refine ⟨seen, rfl, ?_⟩
    cases state : world.proxy.server.published with
    | starting =>
      rw [state] at answered
      cases answered
    | started | stopping | stopped =>
      rw [state] at answered
      exact answered
  | released | refused | gone => cases permitted

end

variable {config : Config} {before after : Lounge} {move : LoungeMove} {index : Nat}

/-- What the channel holds and is still to be sent stays clear of any kind of state
while the server does. -/
theorem channel_avoids {avoided : State → Prop}
    (reached : (waiting config).Reaches (fun _ _ => True) Lounge.boot before)
    (published : before.world.proxy.server.version = 0 ∨ ¬ avoided before.world.proxy.server.published)
    (pending : ∀ new, .serving (some new) ∈ waits.stages before → ¬ avoided new)
    (stepped : (waiting config).step before move = some after)
    (going : ¬ avoided after.world.proxy.server.state) :
    (after.world.proxy.server.version = 0 ∨ ¬ avoided after.world.proxy.server.published) ∧
      ∀ new, .serving (some new) ∈ waits.stages after → ¬ avoided new := by
  have entered (entry : Entry) (new : State) : Stage.serving (some new) ≠ waits.enter entry := by
    cases entry <;> simp
  cases move with
  | call entry =>
    simp only [System.step] at stepped
    split at stepped
    · cases stepped
      refine ⟨published, fun new member => ?_⟩
      simp only [Protocol.stages, List.map_append, List.mem_append] at member
      rcases member with old | fresh
      · exact pending new old
      · exact absurd (List.mem_singleton.mp fresh) (entered entry new)
    · cases stepped
  | outside event =>
    obtain ⟨world, acted, rfl⟩ := Option.map_eq_some_iff.mp stepped
    obtain ⟨proxy, moved, rfl⟩ := Option.map_eq_some_iff.mp acted
    refine ⟨?_, pending⟩
    simpa only [World.outside_server moved] using published
  | run other succeeds =>
    obtain ⟨task, op, reply, left, right, -, -, permitted, executed, around, becomes⟩ :=
      Protocol.step_run (waiting_obeys config) reached stepped
    have own (new : State) (serves : waits.stage task = .serving (some new)) : ¬ avoided new :=
      pending new (by simp [around, serves])
    constructor
    · by_cases sends : ∃ new, op = .server (.sendState new)
      · obtain ⟨new, rfl⟩ := sends
        rw [(World.execute_send executed).1]
        exact .inr (own new (sent_pending permitted))
      · obtain ⟨same, version⟩ := World.execute_silent executed fun new same => sends ⟨new, same⟩
        rw [same, version]
        exact published
    · intro new member
      rw [becomes] at member
      simp only [List.mem_append, List.mem_cons, List.mem_map] at member
      rcases member with (other | advanced | other) | ⟨entry, -, same⟩
      · exact pending new (by simp [around, other])
      · rcases pending_advance permitted executed advanced.symm with serves | rfl
        · exact own new serves
        · exact going
      · exact pending new (by simp [around, other])
      · exact absurd same.symm (entered entry new)

/-- While the server does not stop, no waiter that has seen no stop is refused. -/
private theorem steady_waiter
    (reached : (waiting config).Reaches (fun _ _ => True) Lounge.boot before)
    (steady : Steady index before) (stepped : (waiting config).step before move = some after) :
    ∃ task, after.tasks[index]? = some task ∧ waits.stage task ≠ .refused := by
  obtain ⟨task, found, kept⟩ := steady.waiter
  have member := List.mem_of_getElem? found
  rcases System.step_task stepped found with ⟨same, -⟩ | ⟨succeeds, op, next, reply, -, rest, executed, now⟩
  · exact ⟨task, same, kept⟩
  · refine ⟨_, now, fun refused => ?_⟩
    rw [Protocol.stage_proceed] at refused
    have permitted := (Protocol.tasks_follow (waiting_obeys config) reached task member).permits rest
    obtain ⟨seen, marked, answered⟩ := verdict_advance permitted executed (congrArg Stage.verdict refused)
    have current := (watched reached).current _ (List.mem_map_of_mem member)
    rw [marked] at current
    obtain ⟨positive, marked⟩ := current
    exact steady.published.elim (fun unsent => by omega) fun clear => clear (answer_eq_false_iff.mp answered)

/-- A step keeps a lounge steady unless it stops the server. -/
theorem steady_step (reached : (waiting config).Reaches (fun _ _ => True) Lounge.boot before)
    (steady : Steady index before) (stepped : (waiting config).step before move = some after) :
    Steady index after ∨
      (StopsFrom .starting before move after ∨ StopsFrom .started before move after) := by
  by_cases stops : Stops after.world.proxy.server.state
  · refine .inr ?_
    cases state : before.world.proxy.server.state with
    | starting => exact .inl ⟨state, stops⟩
    | started => exact .inr ⟨state, stops⟩
    | stopping => exact absurd (.inl state) steady.state
    | stopped => exact absurd (.inr state) steady.state
  · obtain ⟨published, pending⟩ :=
      channel_avoids reached steady.published steady.pending stepped stops
    exact .inl ⟨stops, published, pending, steady_waiter reached steady stepped⟩

/-- The step that looks at the state leaves it as it is. -/
private theorem state_of_entering
    (reached : (waiting config).Reaches (fun _ _ => True) Lounge.boot before) {succeeds : Bool}
    (entering : before.tasks[index]?.map waits.stage = some .entering)
    (read : (waiting config).step before (.run index succeeds) = some after) :
    after.world.proxy.server.state = before.world.proxy.server.state := by
  obtain ⟨task, found, stage⟩ := Option.map_eq_some_iff.mp entering
  rcases System.step_task read found with ⟨-, idle⟩ | ⟨answer, op, next, reply, -, rest, executed, -⟩
  · exact absurd rfl (idle succeeds)
  · have permitted := (Protocol.tasks_follow (waiting_obeys config) reached task
      (List.mem_of_getElem? found)).permits rest
    rw [stage] at permitted
    cases permitted
    exact PlexPaper.World.execute_state (World.execute_server executed).1

/-- A client that `hold` refuses before its deadline is refused for a stop that
has come after the state was read, as long as no stop of an earlier cycle was left
to be seen at the read and the server has not been stopped from `Started`. -/
theorem held_client_dropped_for_new_stop {reading : Lounge} {moves : List LoungeMove} {succeeds : Bool}
    (reached : (waiting config).Reaches (fun _ _ => True) Lounge.boot before)
    (entering : before.tasks[index]?.map waits.stage = some .entering)
    (starting : before.world.proxy.server.state = .starting) (fresh : ¬ Stale before)
    (read : (waiting config).step before (.run index succeeds) = some reading)
    (played : (waiting config).play (fun _ _ => True) reading moves = some after)
    (lasting : (waiting config).Every (fun before move after => ¬ StopsFrom .started before move after)
      reading moves)
    (refused : after.tasks[index]?.map waits.stage = some .refused) :
    (waiting config).Meets (StopsFrom .starting) reading moves := by
  have steady : Steady index before := by
    obtain ⟨task, found, stage⟩ := Option.map_eq_some_iff.mp entering
    refine ⟨?_, ?_, fun new member stop => fresh (.inr ?_), task, found, by simp [stage]⟩
    · simp [Stops, starting]
    · exact or_not_of_imp fun stop => by_contra fun sent => fresh (.inl ⟨sent, stop⟩)
    · rcases stop with rfl | rfl
      · exact ⟨_, member, .inl rfl⟩
      · exact ⟨_, member, .inr rfl⟩
  have state := state_of_entering reached entering read
  have meets : (waiting config).Meets (fun before move after =>
      StopsFrom .starting before move after ∨ StopsFrom .started before move after) reading moves := by
    have going : Steady index reading := (steady_step reached steady read).resolve_right fun stops => by
      have stopped := stops.elim And.right And.right
      simp [Stops, state, starting] at stopped
    rcases System.holds_or_meets
      (fun before move after further held stepped => steady_step (Relation.ReflTransGen.trans
        (reached.step trivial read) further) held stepped) going played with ended | meets
    · obtain ⟨task, found, kept⟩ := ended.waiter
      rw [found] at refused
      exact absurd (Option.some.inj refused) kept
    · exact meets
  exact meets.of_every lasting

instance (source : State) (before : Lounge) (move : LoungeMove) (after : Lounge) :
    Decidable (StopsFrom source before move after) := inferInstanceAs (Decidable (_ ∧ _))

/-- Task 2 is a client that is about to be held. -/
private def aboutToHold : List LoungeMove :=
  [.call (.server .start)] ++ runs 0 5 ++ runs 1 2 ++ [.call (.hold 9)]

/-- Task 3 stops the server that the client waits for. -/
private def stoppedWhileHeld : List LoungeMove :=
  runs 2 3 ++ [.call (.server .stop)] ++ runs 3 5 ++ runs 2 2

/-- The client is refused for a stop that comes while it is held. -/
theorem held_client_dropped_for_new_stop_held : ∃ before reading after,
    (waiting {}).play (fun _ _ => True) Lounge.boot aboutToHold = some before ∧
    (waiting {}).step before (.run 2 true) = some reading ∧
    (waiting {}).play (fun _ _ => True) reading stoppedWhileHeld = some after ∧
    after.tasks[2]?.map waits.stage = some .refused ∧
    (waiting {}).Meets (StopsFrom .starting) reading stoppedWhileHeld := by
  have shown : ((waiting {}).play (fun _ _ => True) Lounge.boot aboutToHold).bind (fun before =>
      ((waiting {}).step before (.run 2 true)).bind fun reading =>
        ((waiting {}).play (fun _ _ => True) reading stoppedWhileHeld).map fun after =>
          decide (before.tasks[2]?.map waits.stage = some .entering ∧
            before.world.proxy.server.state = .starting ∧ ¬ Stale before ∧
            (waiting {}).Every (fun before move after => ¬ StopsFrom .started before move after)
              reading stoppedWhileHeld ∧
            after.tasks[2]?.map waits.stage = some .refused)) = some true := by decide
  obtain ⟨before, played, shown⟩ := Option.bind_eq_some_iff.mp shown
  obtain ⟨reading, read, shown⟩ := Option.bind_eq_some_iff.mp shown
  obtain ⟨after, continued, facts⟩ := Option.map_eq_some_iff.mp shown
  obtain ⟨entering, starting, fresh, lasting, refused⟩ := of_decide_eq_true facts
  exact ⟨before, reading, after, played, read, continued, refused,
    held_client_dropped_for_new_stop (System.play_reaches played) entering starting fresh read
      continued lasting refused⟩

/-- The server has been started and stopped, and task 3 has moved it to `Starting`
again without having published that. Task 4 is a client that is about to be held. -/
private def aboutToHoldAgain : List LoungeMove :=
  [.call (.server .start)] ++ runs 0 5 ++ runs 1 2 ++ [.call (.server .stop)] ++ runs 2 8 ++
    [.outside (.childExits 0 (.exited 0))] ++ runs 1 3 ++ [.outside (.elapse SERVER_QUIT_COOLDOWN)] ++
    runs 1 4 ++ [.call (.server .start)] ++ runs 3 1 ++ [.call (.hold 9)]

/-- The client is refused for the stop that ended the cycle before. -/
theorem held_client_dropped_for_old_stop :
    ¬ ∀ (config : Config) (before reading after : Lounge) (index : Nat) (succeeds : Bool)
      (moves : List LoungeMove),
      (waiting config).Reaches (fun _ _ => True) Lounge.boot before →
      before.tasks[index]?.map waits.stage = some .entering →
      before.world.proxy.server.state = .starting →
      (waiting config).step before (.run index succeeds) = some reading →
      (waiting config).play (fun _ _ => True) reading moves = some after →
      after.tasks[index]?.map waits.stage = some .refused →
      (waiting config).Meets (StopsFrom .starting) reading moves := by
  intro every
  have shown : ((waiting {}).play (fun _ _ => True) Lounge.boot aboutToHoldAgain).bind (fun before =>
      ((waiting {}).step before (.run 4 true)).bind fun reading =>
        ((waiting {}).play (fun _ _ => True) reading (runs 4 3)).map fun after =>
          decide (before.tasks[4]?.map waits.stage = some .entering ∧
            before.world.proxy.server.state = .starting ∧
            ¬ (waiting {}).Meets (StopsFrom .starting) reading (runs 4 3) ∧
            after.tasks[4]?.map waits.stage = some .refused)) = some true := by decide
  obtain ⟨before, played, shown⟩ := Option.bind_eq_some_iff.mp shown
  obtain ⟨reading, read, shown⟩ := Option.bind_eq_some_iff.mp shown
  obtain ⟨after, continued, facts⟩ := Option.map_eq_some_iff.mp shown
  obtain ⟨entering, starting, unstopped, refused⟩ := of_decide_eq_true facts
  exact unstopped (every {} before reading after 4 true (runs 4 3) (System.play_reaches played)
    entering starting read continued refused)

end PlexPaper.Waiting
