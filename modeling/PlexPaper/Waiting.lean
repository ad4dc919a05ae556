import PlexPaper.PublishedState

/-! Waiting for the server. `hold`, the lobby and the probe each wait with the
same loop for a state on the watch channel. A receiver is the version it has
marked as seen: one cloned from the receiver of the server inherits that mark,
and `changed` returns as soon as the channel has another version, which it marks.
The tasks of the proxy run next to them. -/
namespace PlexPaper.Waiting
open Tasks

/-- `state_receiver`, `changed` under the deadline of its loop, and `borrow`,
next to everything the proxy does. -/
inductive Op where
  | server (op : PlexPaper.Op)
  | subscribe
  | changed (seen : Nat)
  | borrow

/-- `changed` replies the version it marks, or nothing when the deadline passes
first. -/
@[reducible] def Op.Reply : Op → Type
  | .server op => op.Reply
  | .subscribe => Nat
  | .changed _ => Option Nat
  | .borrow => State

abbrev WaitM := Program Op Op.Reply

abbrev perform (op : Op) : WaitM op.Reply := Program.perform op

/-- The loop of the three waiters, which ends without a result when its deadline
passes. It looks at no more than `rounds` states until then. -/
def taskWait : (rounds : Nat) → (seen : Nat) → WaitM (Option Bool)
  | 0, _ => pure none
  | rounds + 1, seen => do
    match ← perform (.changed seen) with
    | none => return none
    | some seen =>
      match ← perform .borrow with
      | .starting => taskWait rounds seen
      | .started => return some true
      | .stopping => return some false
      | .stopped => return some false

/-- `join::hold::hold`. -/
def hold (rounds : Nat) : WaitM Bool := do
  match ← taskWait rounds (← perform .subscribe) with
  | some true => return true
  | some false => return false
  | none => return false

/-- `join::MethodResult`, without the stream. -/
inductive MethodResult where
  | consumed
  | continue_

/-- `join::hold::occupy`. -/
def holdOccupy (rounds : Nat) : WaitM MethodResult := do
  if (← perform (.server .loadState)) ≠ .starting then
    return .continue_
  if ← hold rounds then
    return .consumed
  return .continue_

/-- `lobby::wait_for_server`. -/
def waitForServer (rounds : Nat) : WaitM (Except Unit Unit) := do
  match ← taskWait rounds (← perform .subscribe) with
  | some true => return .ok ()
  | some false => return .error ()
  | none => return .error ()

/-- `probe::wait_until_online`. -/
def waitUntilOnline (rounds : Nat) : WaitM Bool := do
  match ← taskWait rounds (← perform .subscribe) with
  | some online => return online
  | none => return false

/-- The tasks of the proxy, and the waiters. -/
inductive Entry where
  | server (entry : PlexPaper.Entry)
  | hold (rounds : Nat)
  | lobby (rounds : Nat)
  | probe (rounds : Nat)
  deriving DecidableEq

/-- The world of the proxy, with the receiver that the server keeps. -/
structure World where
  proxy : PlexPaper.World := {}
  stateWatchReceiver : Nat := 0

/-- One operation, given whether the system around lets it succeed. A deadline
may pass at any time; nothing else lets `changed` return at the version seen. -/
def World.execute (world : World) : (op : Op) → Bool → Option (op.Reply × World)
  | .server op, succeeds =>
    (world.proxy.execute op succeeds).map fun (reply, proxy) => (reply, { world with proxy })
  | .subscribe, _ => if world.proxy.exited then none else some (world.stateWatchReceiver, world)
  | .changed seen, inTime =>
    if world.proxy.exited then none
    else if inTime then
      if world.proxy.server.version = seen then none
      else some (some world.proxy.server.version, world)
    else some (none, world)
  | .borrow, _ => if world.proxy.exited then none else some (world.proxy.server.published, world)

/-- The proxy with its waiters as a system of tasks. -/
def waiting (config : Config) : System Op Op.Reply World Bool Entry Event where
  body
    | .server entry => (entry.body config).embed .server fun _ => id
    | .hold rounds => discard (holdOccupy rounds)
    | .lobby rounds => discard (waitForServer rounds)
    | .probe rounds => discard (waitUntilOnline rounds)
  callable
    | .server entry => (lifecycle config).callable entry
    | .hold _ | .lobby _ | .probe _ => true
  execute := World.execute
  spawns
    | .server op => ((lifecycle config).spawns op).map .server
    | _ => []
  outside world event := (world.proxy.outside event).map fun proxy => { world with proxy }

abbrev Lounge := Pool Op Op.Reply World Entry
abbrev LoungeMove := Move Bool Entry Event

/-- At boot no task runs. -/
def Lounge.boot : Lounge := System.initial {}

/-- How far a task has come in waiting. A task of the proxy has the update it has
pending, a waiter the version it has seen. -/
inductive Stage where
  | serving (pending : Option State)
  | entering
  | subscribing
  | watching (seen : Nat)
  | marked (seen : Nat)
  | released
  | refused
  | gone
  deriving DecidableEq

namespace Stage

def advance (stage : Stage) (op : Op) (reply : op.Reply) : Stage :=
  match stage, op, reply with
  | .serving update, .server op, reply => .serving (pending.advance update op reply)
  | .entering, .server .loadState, state => if state = .starting then .subscribing else .gone
  | .subscribing, .subscribe, seen => .watching seen
  | .watching _, .changed _, some version => .marked version
  | .watching _, .changed _, none => .gone
  | .marked seen, .borrow, .starting => .watching seen
  | .marked _, .borrow, .started => .released
  | .marked _, .borrow, .stopping => .refused
  | .marked _, .borrow, .stopped => .refused
  | stage, _, _ => stage

def permits : Stage → Op → Prop
  | .serving update, .server op => pending.permits update op
  | .entering, op => op = .server .loadState
  | .subscribing, op => op = .subscribe
  | .watching seen, op => op = .changed seen
  | .marked _, op => op = .borrow
  | _, _ => False

/-- How a waiter at this stage has ended its wait, unless by its deadline. -/
def verdict : Stage → Option Bool
  | .released => some true
  | .refused => some false
  | _ => none

end Stage

abbrev waits : Protocol Op Op.Reply Entry where
  Stage := Stage
  advance := Stage.advance
  permits := Stage.permits
  enter
    | .server _ => .serving none
    | .hold _ => .entering
    | .lobby _ | .probe _ => .subscribing

/-- The loop ends with the verdict of the last state it has seen. -/
theorem taskWait_follows (rounds seen : Nat) :
    (taskWait rounds seen).Follows waits.toDiscipline (.watching seen) fun result ended =>
      ended.verdict = result := by
  induction rounds generalizing seen with
  | zero => rfl
  | succ rounds ih =>
    refine Program.follows_bind.mpr ⟨rfl, fun version => ?_⟩
    cases version with
    | none => rfl
    | some version =>
      refine Program.follows_bind.mpr ⟨rfl, fun state => ?_⟩
      cases state with
      | starting => exact ih version
      | started | stopping | stopped => rfl

/-- A wait begins with the receiver. -/
private theorem wait_follows {α : Type} (rounds : Nat) {finish : Option Bool → WaitM α}
    {post : α → Stage → Prop}
    (finishes : ∀ ended : Stage, (finish ended.verdict).Follows waits.toDiscipline ended post) :
    (do finish (← taskWait rounds (← perform .subscribe)) : WaitM α).Follows waits.toDiscipline
      .subscribing post := by
  refine Program.follows_bind.mpr ⟨rfl, fun seen => ?_⟩
  refine Program.follows_bind.mpr ((taskWait_follows rounds seen).mono fun result ended same => ?_)
  exact same ▸ finishes ended

/-- `hold` reports whether the loop has released the client. A client it refuses
is reported like one whose deadline passes. -/
theorem hold_follows (rounds : Nat) :
    (hold rounds).Follows waits.toDiscipline .subscribing fun held ended =>
      held = ended.verdict.getD false :=
  wait_follows rounds fun ended => by cases ended <;> exact rfl

/-- Every task keeps to its order of operations. -/
theorem waiting_obeys (config : Config) : (waiting config).Obeys waits := by
  intro entry entered
  cases entry with
  | server entry =>
    have sends := lifecycle_sends config entry <| entered.imp id fun ⟨op, spawned⟩ => by
      cases op with
      | server op =>
        obtain ⟨_, spawned, ⟨⟩⟩ := List.mem_map.mp spawned
        exact ⟨op, spawned⟩
      | _ => cases spawned
    have embedded := @Program.Follows.embed _ _ _ pending.toDiscipline _ _ waits.toDiscipline
      Op.server (fun _ => id) Stage.serving (fun _ _ permitted => permitted) (fun _ _ _ => rfl) _ _ _
      sends
    exact embedded.mono fun _ _ _ => trivial
  | hold rounds =>
    refine Program.follows_bind.mpr (Program.follows_bind.mpr ⟨rfl, fun state => ?_⟩)
    have holds : (hold rounds).Follows waits.toDiscipline .subscribing fun _ _ => True :=
      (hold_follows rounds).mono fun _ _ _ => trivial
    cases state with
    | starting => exact Program.follows_bind.mpr (holds.mono fun held _ _ => by cases held <;> trivial)
    | stopped | started | stopping => trivial
  | lobby rounds =>
    refine Program.follows_bind.mpr (wait_follows rounds fun ended => ?_)
    rcases ended.verdict with _ | _ | _ <;> trivial
  | probe rounds =>
    refine Program.follows_bind.mpr (wait_follows rounds fun ended => ?_)
    rcases ended.verdict with _ | _ <;> trivial

/-! ## No missed wake-up -/

/-- What a waiter has marked is a version that the channel has had. The one it
watches is the first, before any update, or one at which it has found the server
starting. -/
def Stage.Current (world : World) : Stage → Prop
  | .watching seen => seen ≤ world.proxy.server.version ∧
      (world.proxy.server.version = seen → seen = 0 ∨ world.proxy.server.published = .starting)
  | .marked seen => 0 < seen ∧ seen ≤ world.proxy.server.version
  | _ => True

/-- The receiver of the server is never marked, and every waiter is current. -/
structure Watched (world : World) (stages : List Stage) : Prop where
  unmarked : world.stateWatchReceiver = 0
  current : ∀ stage ∈ stages, stage.Current world

variable {world after : World} {op : Op} {succeeds : Bool} {reply : op.Reply}

/-- An operation of the proxy, in the world of the waiters. -/
theorem World.execute_server {op : PlexPaper.Op} {reply : op.Reply}
    (executed : world.execute (.server op) succeeds = some (reply, after)) :
    world.proxy.execute op succeeds = some (reply, after.proxy) ∧
      after.stateWatchReceiver = world.stateWatchReceiver := by
  obtain ⟨⟨_, proxy⟩, inner, ⟨⟩⟩ := Option.map_eq_some_iff.mp executed
  exact ⟨inner, rfl⟩

/-- A waiter changes nothing, and learns what the channel holds. -/
theorem World.execute_waiter (waits : ∀ inner, op ≠ .server inner)
    (executed : world.execute op succeeds = some (reply, after)) : after = world := by
  cases op with
  | server inner => exact absurd rfl (waits inner)
  | subscribe | borrow =>
    simp only [World.execute] at executed
    split at executed <;> (cases executed; try rfl)
  | changed seen =>
    simp only [World.execute] at executed
    grind

/-- Only a send of the proxy changes the watch channel. -/
theorem World.execute_silent (executed : world.execute op succeeds = some (reply, after))
    (silent : ∀ new, op ≠ .server (.sendState new)) :
    after.proxy.server.published = world.proxy.server.published ∧
      after.proxy.server.version = world.proxy.server.version := by
  by_cases serves : ∃ inner, op = .server inner
  · obtain ⟨inner, rfl⟩ := serves
    exact PlexPaper.World.execute_channel (World.execute_server executed).1
      fun new same => silent new (congrArg Op.server same)
  · rw [World.execute_waiter (fun inner same => serves ⟨inner, same⟩) executed]
    exact ⟨rfl, rfl⟩

/-- A send publishes its value. -/
theorem World.execute_send {new : State} {reply : Unit}
    (executed : world.execute (.server (.sendState new)) succeeds = some (reply, after)) :
    after.proxy.server.published = new ∧
      after.proxy.server.version = world.proxy.server.version + 1 := by
  have performed := World.perform_of_execute (World.execute_server executed).1
  obtain ⟨-, proxy⟩ := Prod.mk.inj (Option.some.inj performed)
  rw [← proxy]
  exact ⟨rfl, rfl⟩

/-- An operation leaves the channel alone, or sends one value. -/
theorem World.execute_channel (executed : world.execute op succeeds = some (reply, after)) :
    (after.proxy.server.version = world.proxy.server.version ∧
      after.proxy.server.published = world.proxy.server.published) ∨
    after.proxy.server.version = world.proxy.server.version + 1 := by
  by_cases sends : ∃ new, op = .server (.sendState new)
  · obtain ⟨new, rfl⟩ := sends
    exact .inr (World.execute_send executed).2
  · exact .inl (World.execute_silent executed fun new same => sends ⟨new, same⟩).symm

/-- No operation marks the receiver of the server. -/
theorem World.execute_receiver (executed : world.execute op succeeds = some (reply, after)) :
    after.stateWatchReceiver = world.stateWatchReceiver := by
  by_cases serves : ∃ inner, op = .server inner
  · obtain ⟨inner, rfl⟩ := serves
    exact (World.execute_server executed).2
  · rw [World.execute_waiter (fun inner same => serves ⟨inner, same⟩) executed]

/-- A waiter stays current whatever happens to the channel. -/
private theorem current_kept {stage : Stage} (current : stage.Current world)
    (channel : (after.proxy.server.version = world.proxy.server.version ∧
        after.proxy.server.published = world.proxy.server.published) ∨
      after.proxy.server.version = world.proxy.server.version + 1) : stage.Current after := by
  cases stage with
  | watching seen =>
    obtain ⟨reached, starting⟩ := current
    rcases channel with ⟨version, published⟩ | version
    · simpa only [Stage.Current, version, published] using And.intro reached starting
    · exact ⟨by omega, fun same => by omega⟩
  | marked seen =>
    obtain ⟨positive, reached⟩ := current
    exact ⟨positive, by omega⟩
  | _ => trivial

/-- A waiter that performs its next operation is current again. -/
private theorem current_advance {stage : Stage} (unmarked : world.stateWatchReceiver = 0)
    (current : stage.Current world) (permitted : stage.permits op)
    (executed : world.execute op succeeds = some (reply, after)) :
    (stage.advance op reply).Current after := by
  cases stage with
  | serving update =>
    cases op with
    | server inner => trivial
    | _ => cases permitted
  | entering =>
    cases permitted
    simp only [Stage.advance]
    split <;> trivial
  | subscribing =>
    cases permitted
    obtain ⟨-, executed⟩ := Option.ite_none_left_eq_some.mp executed
    cases executed
    rw [unmarked]
    exact ⟨Nat.zero_le _, fun _ => .inl rfl⟩
  | watching seen =>
    cases permitted
    obtain ⟨reached, -⟩ := current
    obtain ⟨-, executed⟩ := Option.ite_none_left_eq_some.mp executed
    cases succeeds with
    | false =>
      cases executed
      trivial
    | true =>
      obtain ⟨news, executed⟩ := Option.ite_none_left_eq_some.mp executed
      cases executed
      exact ⟨by omega, Nat.le_refl _⟩
  | marked seen =>
    cases permitted
    obtain ⟨-, executed⟩ := Option.ite_none_left_eq_some.mp executed
    cases executed
    obtain ⟨positive, reached⟩ := current
    cases state : world.proxy.server.published with
    | starting => exact ⟨reached, fun _ => .inr state⟩
    | started | stopping | stopped => trivial
  | released | refused | gone => cases permitted

/-- In every reachable pool every waiter is current. -/
theorem watched {config : Config} {lounge : Lounge}
    (reached : (waiting config).Reaches (fun _ _ => True) Lounge.boot lounge) :
    Watched lounge.world (waits.stages lounge) := by
  refine waits.invariant (waiting_obeys config) Watched ⟨rfl, by simp⟩ ?_ ?_ ?_ reached
  · intro world stages entry _ watched
    refine ⟨watched.unmarked, fun stage member => ?_⟩
    rcases List.mem_append.mp member with old | new
    · exact watched.current stage old
    · rw [List.mem_singleton.mp new]
      cases entry <;> trivial
  · intro world stages event after acted watched
    obtain ⟨proxy, moved, rfl⟩ := Option.map_eq_some_iff.mp acted
    have server := World.outside_server moved
    refine ⟨watched.unmarked, fun stage member => current_kept (watched.current stage member) (.inl ?_)⟩
    exact ⟨congrArg Server.version server, congrArg Server.published server⟩
  · intro lounge index succeeds task op reply after left right _ _ _ permitted executed _ watched
    have channel := World.execute_channel executed
    have receiver := World.execute_receiver executed
    refine ⟨receiver.trans watched.unmarked, fun stage member => ?_⟩
    simp only [List.mem_append, List.mem_cons, List.mem_map] at member
    rcases member with (other | rfl | other) | ⟨entry, -, rfl⟩
    · exact current_kept (watched.current stage (by simp [other])) channel
    · exact current_advance watched.unmarked (watched.current _ (by simp)) permitted executed
    · exact current_kept (watched.current stage (by simp [other])) channel
    · cases entry <;> trivial

/-- The version that a task has seen which is at `changed`. -/
def awaited? (task : Task Op Op.Reply Entry) : Option Nat :=
  match task.next? with
  | some (.changed seen) => some seen
  | _ => none

/-- A waiter at `changed` is current. -/
private theorem current_of_awaiting {config : Config} {lounge : Lounge}
    {task : Task Op Op.Reply Entry} {seen : Nat}
    (reached : (waiting config).Reaches (fun _ _ => True) Lounge.boot lounge)
    (member : task ∈ lounge.tasks) (awaits : awaited? task = some seen) :
    (Stage.watching seen).Current lounge.world := by
  have onTrack := Protocol.tasks_follow (waiting_obeys config) reached task member
  have waits_for : task.next? = some (.changed seen) := by
    unfold awaited? at awaits
    split at awaits
    · cases awaits; assumption
    · cases awaits
  have permitted := onTrack.permits_next waits_for
  have current := (watched reached).current _ (List.mem_map_of_mem member)
  cases stage : waits.stage task with
  | watching version =>
    rw [stage] at permitted current
    cases permitted
    exact current
  | serving | entering | subscribing | marked | released | refused | gone =>
    rw [stage] at permitted
    cases permitted

/-- A waiter is blocked in `changed`: the channel has the version it has seen. -/
def Blocked (lounge : Lounge) (task : Task Op Op.Reply Entry) : Prop :=
  awaited? task = some lounge.world.proxy.server.version
  deriving Decidable

/-- A waiter is blocked only as long as no update was ever published, or while the
value published is `Starting`. With any other value published, its `changed`
returns. -/
theorem waiter_blocked_only_while_starting {config : Config} {lounge : Lounge}
    {task : Task Op Op.Reply Entry}
    (reached : (waiting config).Reaches (fun _ _ => True) Lounge.boot lounge)
    (member : task ∈ lounge.tasks) :
    (Blocked lounge task → lounge.world.proxy.server.version = 0 ∨
      lounge.world.proxy.server.published = .starting) ∧
    ∀ seen, awaited? task = some seen → lounge.world.proxy.exited = false →
      lounge.world.proxy.server.version ≠ 0 → lounge.world.proxy.server.published ≠ .starting →
      lounge.world.execute (.changed seen) true =
        some (some lounge.world.proxy.server.version, lounge.world) := by
  constructor
  · intro blocked
    exact (current_of_awaiting reached member blocked).2 rfl
  · intro seen awaits running updated ready
    have news : lounge.world.proxy.server.version ≠ seen := by
      rintro rfl
      exact ((current_of_awaiting reached member awaits).2 rfl).elim updated ready
    simp [World.execute, running, news]

/-- Moves of one task, with every call succeeding. -/
def runs (task count : Nat) : List LoungeMove := List.replicate count (.run task true)

/-- A client is held that has found the server starting. -/
theorem waiter_blocked_only_while_starting_held : ∃ lounge task,
    (waiting {}).play (fun _ _ => True) Lounge.boot
      ([.call (.server .start)] ++ runs 0 5 ++ [.call (.hold 9)] ++ runs 2 4) = some lounge ∧
    task ∈ lounge.tasks ∧ Blocked lounge task ∧
    (lounge.world.proxy.server.version = 0 ∨ lounge.world.proxy.server.published = .starting) := by
  have held : ((waiting {}).play (fun _ _ => True) Lounge.boot
      ([.call (.server .start)] ++ runs 0 5 ++ [.call (.hold 9)] ++ runs 2 4)).map
        (fun lounge => decide (∃ task ∈ lounge.tasks, Blocked lounge task)) = some true := by decide
  obtain ⟨lounge, played, blocked⟩ := Option.map_eq_some_iff.mp held
  obtain ⟨task, member, blocked⟩ := of_decide_eq_true blocked
  exact ⟨lounge, task, played, member, blocked,
    (waiter_blocked_only_while_starting (System.play_reaches played) member).1 blocked⟩

end PlexPaper.Waiting
