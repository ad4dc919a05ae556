import PlexPaper.CommandDuty
import PlexPaper.Semaphore
import PlexPaper.TransitionGraph

/-! At most one server process. The compare-exchange of `start` is the only
guard: it admits a claim in `Stopped` alone, so what has to hold is that the
server is never `Stopped` while a command is in progress. The cleanup respects
that; a poll that fails against a running server does not. -/
namespace PlexPaper
open Tasks Server

/-- A task other than the command in progress moves the server to `Stopped`. -/
def FalseStop (proxy : Proxy) (move : ProxyMove) : Prop :=
  ∃ turn ∈ proxy.turn? move, Duty.busy (duties.stage turn.task) = false ∧
    turn.op.newState proxy.world.server.state = .stopped ∧
    proxy.world.server.state ≠ .stopped ∧ InProgress proxy
  deriving Decidable

/-- The process an operation waits for. -/
def Op.awaited? : Op → Option Pid
  | .waitChild pid => some pid
  | _ => none

/-- Waiting for a process fails although it is alive. -/
def LostChild (proxy : Proxy) (move : ProxyMove) : Prop :=
  ∃ turn ∈ proxy.turn? move, ∃ pid ∈ turn.op.awaited?,
    turn.succeeds = false ∧ proxy.world.Alive pid
  deriving Decidable

/-- The moves of the proxy under which the guard works. -/
def Guarded (proxy : Proxy) (move : ProxyMove) : Prop :=
  ¬ FalseStop proxy move ∧ ¬ LostChild proxy move
  deriving Decidable

/-- One command at a time, never while the server counts as stopped, and every
process that is alive is being waited for. -/
structure Exclusive (world : World) (stages : List Duty) : Prop where
  single : stages.countP Duty.busy ≤ 1
  marked : ∀ duty ∈ stages, duty.busy → world.server.state ≠ .stopped
  owned : ∀ pid, world.Alive pid → .running pid ∈ stages

namespace Exclusive

variable {world after : World} {left right : List Duty} {duty : Duty}

/-- Being busy takes the one permit that there is. -/
theorem balanced {stages : List Duty} (exclusive : Exclusive world stages) :
    Semaphore.Balanced Duty.busy 1 (1 - stages.countP Duty.busy) stages :=
  Nat.sub_add_cancel exclusive.single

/-- While one task is busy no other is. -/
theorem others_free (exclusive : Exclusive world (left ++ duty :: right)) (busy : duty.busy) :
    ∀ other, other ∈ left ∨ other ∈ right → other.busy = false :=
  exclusive.balanced.others_free busy

/-- In `Stopped` no task is busy. -/
theorem free_of_stopped {stages : List Duty} (exclusive : Exclusive world stages)
    (stopped : world.server.state = .stopped) : ∀ duty ∈ stages, duty.busy = false := by
  intro duty member
  by_contra busy
  exact exclusive.marked duty member (by simpa using busy) stopped

/-- In `Stopped` no process is alive. -/
theorem dead_of_stopped {stages : List Duty} (exclusive : Exclusive world stages)
    (stopped : world.server.state = .stopped) (pid : Pid) : ¬ world.Alive pid := by
  intro alive
  exact exclusive.marked _ (exclusive.owned pid alive) rfl stopped

/-- A task moves on without spawning anything, and leaves no process it ran
behind. The server only gets stopped where no task is busy any more. -/
theorem moves_on (exclusive : Exclusive world (left ++ duty :: right)) (ended : Duty)
    (children : after.children = world.children) (relieved : ended.busy → duty.busy)
    (reaped : ∀ pid, duty = .running pid → ended = .running pid ∨ ¬ world.Alive pid)
    (stopped : after.server.state = .stopped → world.server.state ≠ .stopped →
      ∀ other ∈ left ++ ended :: right, other.busy = false) :
    Exclusive after (left ++ ended :: right) where
  single := by
    have single := exclusive.single
    simp only [List.countP_append, List.countP_cons] at single ⊢
    grind
  marked other member busy declared := by
    by_cases before : world.server.state = .stopped
    · have free := exclusive.free_of_stopped before
      grind
    · simp [stopped declared before other member] at busy
  owned pid alive := by
    have alive : world.Alive pid := by simpa only [World.Alive, children] using alive
    have owned := exclusive.owned pid alive
    grind

/-- Where the state stays as it is, nothing more has to be said of it. -/
theorem stays (exclusive : Exclusive world (left ++ duty :: right)) (ended : Duty)
    (children : after.children = world.children)
    (same : after.server.state = world.server.state) (relieved : ended.busy → duty.busy)
    (reaped : ∀ pid, duty = .running pid → ended = .running pid ∨ ¬ world.Alive pid) :
    Exclusive after (left ++ ended :: right) :=
  exclusive.moves_on ended children relieved reaped fun stopped was => absurd (same ▸ stopped) was

/-- A claim is won in `Stopped`, where it finds no other task busy. -/
theorem claims (exclusive : Exclusive world (left ++ duty :: right))
    (children : after.children = world.children) (stopped : world.server.state = .stopped)
    (starting : after.server.state = .starting) :
    Exclusive after (left ++ .claimed :: right) where
  single := by
    have free := exclusive.free_of_stopped stopped
    have noneLeft : left.countP Duty.busy = 0 := List.countP_eq_zero.mpr (by grind)
    have noneRight : right.countP Duty.busy = 0 := List.countP_eq_zero.mpr (by grind)
    simp [List.countP_append, List.countP_cons, noneLeft, noneRight, Duty.busy]
  marked _ _ _ := by simp [starting]
  owned pid alive := by
    have alive : world.Alive pid := by simpa only [World.Alive, children] using alive
    exact absurd alive (exclusive.dead_of_stopped stopped pid)

/-- The claim passes to the command task. -/
theorem handsOver (exclusive : Exclusive world (left ++ .claimed :: right))
    (same : after.children = world.children ∧ after.server.state = world.server.state) :
    Exclusive after (left ++ .retired :: right ++ [.ordered]) where
  single := by
    have single := exclusive.single
    simp only [List.countP_append, List.countP_cons, List.countP_nil] at single ⊢
    simp only [Duty.busy, ↓reduceIte, Bool.false_eq_true] at single ⊢
    omega
  marked _ _ _ := by
    rw [same.2]
    exact exclusive.marked .claimed (by simp) rfl
  owned pid alive := by
    have alive : world.Alive pid := by simpa only [World.Alive, same.1] using alive
    have owned := exclusive.owned pid alive
    grind

/-- The process joins as the only one alive: its task was the busy one. -/
theorem spawns (exclusive : Exclusive world (left ++ .ordered :: right))
    (children : after.children = world.children ++ [none])
    (same : after.server.state = world.server.state) :
    Exclusive after (left ++ .running world.children.length :: right) where
  single := by
    have single := exclusive.single
    simp only [List.countP_append, List.countP_cons] at single ⊢
    exact single
  marked _ _ _ := by
    rw [same]
    exact exclusive.marked .ordered (by simp) rfl
  owned pid alive := by
    simp only [World.Alive, children, List.getElem?_append] at alive
    by_cases old : pid < world.children.length
    · rw [if_pos old] at alive
      have owned := exclusive.owned pid alive
      grind
    · rw [if_neg old] at alive
      obtain ⟨bound, -⟩ := List.getElem?_eq_some_iff.mp alive
      have new : pid = world.children.length :=
        Nat.le_antisymm (Nat.sub_eq_zero_iff_le.mp (Nat.lt_one_iff.mp bound)) (Nat.not_lt.mp old)
      simp [new]

end Exclusive

/-- A permitted operation keeps the commands exclusive unless it is a false
stop or loses a child. -/
theorem Exclusive.run {config : Config} {world after : World} {left right : List Duty} {duty : Duty}
    {op : Op} {reply : op.Reply} {succeeds : Bool}
    (exclusive : Exclusive world (left ++ duty :: right)) (permitted : duty.permits op)
    (executed : world.execute op succeeds = some (reply, after))
    (honest : duty.busy = false → op.newState world.server.state = .stopped →
      world.server.state ≠ .stopped → ∀ other ∈ left ++ duty :: right, other.busy = false)
    (reaped : ∀ pid, op = .waitChild pid → ¬ world.Alive pid) :
    Exclusive after (left ++ duty.advance op reply :: right ++
      ((lifecycle config).spawns op).map duties.enter) := by
  have state := World.execute_state executed
  have children := World.execute_children executed
  have moved := World.execute_moved executed
  have advanced := Duty.advances permitted reply
  generalize duty.advance op reply = ended at advanced ⊢
  cases advanced with
  | claims free started =>
    rw [started] at moved
    have stopped : world.server.state = .stopped := by grind [Op.newState]
    have starting : after.server.state = .starting := by simp [state, Op.newState, stopped]
    simpa [lifecycle] using exclusive.claims children stopped starting
  | handsOver => exact exclusive.handsOver ⟨children, state⟩
  | spawns pid =>
    cases succeeds with
    | false => cases World.perform_of_execute executed
    | true =>
      have performed := World.perform_of_execute executed
      simp only [World.perform, Option.some.injEq, Prod.mk.injEq, Except.ok.injEq] at performed
      obtain ⟨rfl, rfl⟩ := performed
      simpa [lifecycle] using exclusive.spawns children state
  | fails =>
    cases succeeds with
    | false => simpa [lifecycle] using exclusive.stays _ children state (by simp [Duty.busy]) (by simp)
    | true => cases World.perform_of_execute executed
  | resumes pid reply =>
    simpa [lifecycle] using exclusive.stays _ children state (by simp [Duty.busy]) (by simp)
  | records pid =>
    simpa [lifecycle] using exclusive.stays _ children state id fun _ => .inl
  | ends pid reply =>
    simpa [lifecycle] using exclusive.stays _ children state (by simp [Duty.busy]) (by simp [reaped])
  | takes pid =>
    simpa [lifecycle] using exclusive.stays _ children state (by simp [Duty.busy]) (by simp)
  | retires pid old =>
    have others := exclusive.others_free rfl
    simpa [lifecycle] using exclusive.moves_on .retired children (by simp [Duty.busy])
      (by simp) fun _ _ other member => by grind [Duty.busy]
  | updates updating other =>
    rw [updating.newChildren] at children
    simpa [updating.spawns] using exclusive.moves_on .idle children id (by simp)
      fun stopped was => honest rfl (state ▸ stopped) was
  | restores current reply =>
    have unstopped : (Op.compareExchange current .starting).newState world.server.state = .stopped →
        world.server.state = .stopped := by grind [Op.newState]
    simpa [lifecycle] using exclusive.moves_on .resuming children id (by simp)
      fun stopped was => absurd (unstopped (state ▸ stopped)) was
  | misses unmoved =>
    have same : after.server.state = world.server.state := by grind [Op.newState]
    simpa [lifecycle] using exclusive.stays .retired children same id (by simp)
  | keeps calm =>
    rw [calm.newChildren] at children
    rw [calm.newState] at state
    simpa [calm.spawns] using exclusive.stays _ children state id fun _ => .inl

/-- Guarded moves keep the commands exclusive. -/
theorem exclusive_of_guarded {config : Config} {proxy : Proxy}
    (reached : (lifecycle config).Reaches Guarded Proxy.boot proxy) :
    Exclusive proxy.world (duties.stages proxy) := by
  refine duties.invariant (lifecycle_duties config) Exclusive ?_ ?_ ?_ ?_ reached
  · exact ⟨Nat.zero_le _, by simp, fun pid alive => by simp [World.Alive] at alive⟩
  · intro world stages entry callable exclusive
    have idle : duties.enter entry = .idle := by cases entry <;> first | rfl | cases callable
    rw [idle]
    exact { single := by simpa [List.countP_append, Duty.busy] using exclusive.single
            marked := by
              intro duty member busy
              rcases List.mem_append.mp member with old | new
              · exact exclusive.marked duty old busy
              · cases List.mem_singleton.mp new
                cases busy
            owned := fun pid alive => List.mem_append_left _ (exclusive.owned pid alive) }
  · intro world stages event after acted exclusive
    exact { single := exclusive.single
            marked := by rw [World.outside_server acted]; exact exclusive.marked
            owned := fun pid alive => exclusive.owned pid (World.outside_alive acted alive) }
  · intro proxy index answer task op reply after left right guarded found waiting permitted
      executed around exclusive
    refine exclusive.run permitted executed (fun free stopped was => ?_) fun pid same => ?_
    · by_contra busy
      push Not at busy
      obtain ⟨other, member, busy⟩ := busy
      exact guarded.1 ⟨_, Proxy.turn?_run found waiting, free, stopped, was, other,
        around ▸ member, by simpa using busy⟩
    · subst same
      intro alive
      cases answer with
      | true =>
        have performed := World.perform_of_execute executed
        simp [World.perform, show _ = _ from alive] at performed
      | false => exact guarded.2 ⟨_, Proxy.turn?_run found waiting, pid, rfl, rfl, alive⟩

/-- No two processes are alive, and none is while a task is about to spawn one. -/
def OneProcess (proxy : Proxy) : Prop :=
  (∀ pid other, proxy.world.Alive pid → proxy.world.Alive other → pid = other) ∧
    ∀ task ∈ proxy.tasks, task.next? = some .spawnChild → ∀ pid, ¬ proxy.world.Alive pid

/-- Two busy tasks of an exclusive pool are one. -/
private theorem Exclusive.same_duty {world : World} {stages : List Duty}
    (exclusive : Exclusive world stages) {duty other : Duty} (member : duty ∈ stages)
    (also : other ∈ stages) (busy : duty.busy) (too : other.busy) : duty = other := by
  obtain ⟨left, right, rfl⟩ := List.append_of_mem member
  have free := exclusive.others_free busy
  grind

/-- As long as no task declares the server stopped while a command is in
progress, and no living process is lost, there is at most one process. -/
theorem one_process {config : Config} {proxy : Proxy}
    (reached : (lifecycle config).Reaches Guarded Proxy.boot proxy) : OneProcess proxy := by
  have exclusive := exclusive_of_guarded reached
  constructor
  · intro pid other alive also
    have same := exclusive.same_duty (exclusive.owned pid alive) (exclusive.owned other also) rfl rfl
    exact Duty.running.inj same
  · intro task member spawning pid alive
    have onTrack := Protocol.tasks_follow (lifecycle_duties config) reached task member
    have ordered : duties.stage task = .ordered := onTrack.permits_next spawning
    have staged : Duty.ordered ∈ duties.stages proxy := ordered ▸ List.mem_map_of_mem member
    cases exclusive.same_duty staged (exclusive.owned pid alive) rfl rfl

/-- A first process runs and exits, and a second is spawned after its cleanup. -/
private def twoGenerations : List ProxyMove :=
  [.call .start] ++ goes 0 5 ++ goes 1 2 ++ [.outside (.childExits 0 (.exited 0))] ++ goes 1 3 ++
    [.outside (.elapse SERVER_QUIT_COOLDOWN)] ++ goes 1 4 ++ [.call .start] ++ goes 2 5 ++ goes 3 2

theorem one_process_two_generations :
    ∃ proxy, (lifecycle {}).play Guarded Proxy.boot twoGenerations = some proxy ∧
      proxy.world.Alive 1 ∧ OneProcess proxy := by
  have alive : ((lifecycle {}).play Guarded Proxy.boot twoGenerations).map
      (fun proxy => decide (proxy.world.Alive 1)) = some true := by decide
  obtain ⟨proxy, played, alive⟩ := Option.map_eq_some_iff.mp alive
  exact ⟨proxy, played, of_decide_eq_true alive, one_process (System.play_reaches played)⟩

/-- A poll finds the server online, and its iteration ends; the next one only gets an answer to its
ping, and a client joins. -/
private def unansweredPoll : List ProxyMove :=
  [.call .start] ++ goes 0 5 ++ goes 1 2 ++ [.call (.monitor (.ok dummyStatus) (.ok ()))] ++
    goes 2 14 ++ [.call (.monitor (.error ()) (.ok ()))] ++ goes 3 3 ++ [.call .start] ++ goes 4 5 ++
    goes 5 1

/-- Two processes are alive after it. -/
theorem unanswered_poll_spawns_second :
    ¬ ∀ (config : Config) (proxy : Proxy), config.server.freezeProcess = false →
      (lifecycle config).Reaches (fun _ _ => True) Proxy.boot proxy → OneProcess proxy := by
  intro every
  have both : ((lifecycle {}).play (fun _ _ => True) Proxy.boot unansweredPoll).map
      (fun proxy => decide (proxy.world.Alive 0 ∧ proxy.world.Alive 1)) = some true := by decide
  obtain ⟨proxy, played, alive⟩ := Option.map_eq_some_iff.mp both
  obtain ⟨first, second⟩ := of_decide_eq_true alive
  have same := (every {} proxy rfl (System.play_reaches played)).1 0 1 first second
  cases same

end PlexPaper
