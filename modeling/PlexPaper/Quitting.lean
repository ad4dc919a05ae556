import PlexPaper.LifecyclePrograms

/-! Quitting. After Ctrl+C the proxy exits at once where the server is stopped,
and nothing on that way kills a process. So nothing may stop the server while
its process is alive, and none may be spawned for a server that is stopped.
Freezing the process does the first. -/
namespace PlexPaper
open Tasks Server

/-- How far a task has come in quitting because the server is stopped. -/
inductive Leave where
  | elsewhere
  | asking
  | leaving
  deriving DecidableEq

/-- An interrupt leaves where the state it loads first is `Stopped`. -/
abbrev interrupts : Protocol Op Op.Reply Entry where
  Stage := Leave
  advance stage op reply := match stage, op, reply with
    | .asking, .loadState, .stopped => .leaving
    | .asking, .loadState, _ => .elsewhere
    | stage, _, _ => stage
  permits _ _ := True
  enter
    | .interrupt => .asking
    | _ => .elsewhere

/-- An interrupt finds the server stopped, or one that has is about to exit. -/
def Leaving (proxy : Proxy) : Prop :=
  proxy.world.server.state = .stopped ∨ .leaving ∈ interrupts.stages proxy
  deriving Decidable

/-- No process is left behind by an interrupt that finds the server stopped. -/
def NoOrphan (proxy : Proxy) : Prop := Leaving proxy → ∀ pid, ¬ proxy.world.Alive pid

/-- The operation spawns a process. -/
def Op.spawnsChild : Op → Bool
  | .spawnChild => true
  | _ => false

/-- The server is stopped over a process that is alive, or a process spawned
where an interrupt does not look for one any more. -/
def Orphans (proxy : Proxy) (move : ProxyMove) : Prop :=
  ∃ turn ∈ proxy.turn? move,
    (turn.op.newState proxy.world.server.state = .stopped ∧ proxy.world.server.state ≠ .stopped ∧
      ∃ pid, proxy.world.Alive pid) ∨
    (turn.op.spawnsChild ∧ turn.succeeds ∧ Leaving proxy)

/-- The operation ends the proxy. -/
def Op.quits : Op → Bool
  | .quit => true
  | _ => false

/-- The proxy exits because an interrupt has found the server stopped. -/
def QuitsStopped (proxy : Proxy) (move : ProxyMove) : Prop :=
  ∃ turn ∈ proxy.turn? move, turn.op.quits ∧ interrupts.stage turn.task = .leaving
  deriving Decidable

private theorem interrupts_obeyed (config : Config) : (lifecycle config).Obeys interrupts :=
  System.obeys_of_free fun _ _ => trivial

/-- Where an interrupt starts to leave, it has found the server stopped. -/
private theorem leaves_stopped (stage : Leave) {op : Op} {reply : op.Reply} {world after : World}
    {succeeds : Bool} (executed : world.execute op succeeds = some (reply, after))
    (leaves : interrupts.advance stage op reply = .leaving) :
    stage = .leaving ∨ world.server.state = .stopped := by
  cases stage with
  | elsewhere => cases leaves
  | leaving => exact .inl rfl
  | asking =>
    cases op with
    | loadState =>
      cases World.perform_of_execute executed
      cases state : world.server.state with
      | stopped => exact .inr rfl
      | _ => rw [state] at leaves; cases leaves
    | _ => cases leaves

/-- An operation keeps every process within reach exactly where it does not
orphan one. -/
private theorem turn_orphan_iff {config : Config} {before after : Proxy} {index : Nat} {succeeds : Bool}
    (reached : (lifecycle config).Reaches (fun _ _ => True) Proxy.boot before)
    (held : NoOrphan before)
    (stepped : (lifecycle config).step before (.run index succeeds) = some after) :
    NoOrphan after ↔ ¬ Orphans before (.run index succeeds) := by
  obtain ⟨task, op, reply, left, right, found, waiting, -, executed, around, becomes⟩ :=
    Protocol.step_run (interrupts_obeyed config) reached stepped
  have state := World.execute_state executed
  have children := World.execute_children executed
  have orphans_iff : Orphans before (.run index succeeds) ↔
      (op.newState before.world.server.state = .stopped ∧ before.world.server.state ≠ .stopped ∧
        ∃ pid, before.world.Alive pid) ∨ (op.spawnsChild ∧ succeeds ∧ Leaving before) := by
    simp [Orphans, Proxy.turn?_run found waiting]
  have leaves : Leaving after → op.newState before.world.server.state = .stopped ∨ Leaving before := by
    rintro (stopped | member)
    · exact .inl (state ▸ stopped)
    · have entered (entry : Entry) : interrupts.enter entry ≠ .leaving := by cases entry <;> simp
      have own := leaves_stopped (interrupts.stage task) executed
      rw [becomes] at member
      unfold Leaving
      grind
  by_cases spawned : op = .spawnChild ∧ succeeds = true
  · obtain ⟨rfl, rfl⟩ := spawned
    have same : Leaving after ↔ Leaving before := by
      refine ⟨fun leaving => (leaves leaving).elim .inl id, Or.imp (fun stopped => state.trans stopped) ?_⟩
      have stays : interrupts.advance (interrupts.stage task) .spawnChild reply =
          interrupts.stage task := by cases interrupts.stage task <;> rfl
      intro member
      rw [becomes, stays, List.mem_append, ← around]
      exact .inl member
    have born : after.world.Alive before.world.children.length := by
      simp [World.Alive, children, Op.newChildren]
    rw [orphans_iff]
    constructor
    · rintro kept (⟨stopped, was, -⟩ | ⟨-, -, leaving⟩)
      · exact was stopped
      · exact kept (same.mpr leaving) _ born
    · intro kept leaving
      exact absurd (.inr ⟨rfl, rfl, same.mp leaving⟩) kept
  · have kept : after.world.children = before.world.children := by
      rw [children]
      cases op with
      | spawnChild => cases succeeds <;> first | rfl | exact absurd ⟨rfl, rfl⟩ spawned
      | _ => rfl
    have alive (pid : Pid) : after.world.Alive pid ↔ before.world.Alive pid := by
      simp [World.Alive, kept]
    have silent : ¬ (op.spawnsChild = true ∧ succeeds = true ∧ Leaving before) := by
      rintro ⟨spawns, succeeds, -⟩
      cases op <;> first | exact spawned ⟨rfl, succeeds⟩ | cases spawns
    rw [orphans_iff, or_iff_left silent]
    constructor
    · rintro noOrphan ⟨stopped, -, pid, living⟩
      exact noOrphan (.inl (state.trans stopped)) pid ((alive pid).mpr living)
    · intro kept leaving pid living
      have was := (alive pid).mp living
      rcases leaves leaving with stopped | before
      · exact kept ⟨stopped, fun already => held (.inl already) pid was, pid, was⟩
      · exact held before pid was

/-- A step keeps every process within reach exactly where it does not orphan one. -/
private theorem step_orphan_iff {config : Config} {before after : Proxy} {move : ProxyMove}
    (reached : (lifecycle config).Reaches (fun _ _ => True) Proxy.boot before)
    (held : NoOrphan before) (stepped : (lifecycle config).step before move = some after) :
    NoOrphan after ↔ ¬ Orphans before move := by
  cases move with
  | run index succeeds => exact turn_orphan_iff reached held stepped
  | call entry =>
    simp only [System.step] at stepped
    split at stepped
    · cases stepped
      refine iff_of_true (fun leaving => held (leaving.imp id fun member => ?_)) (by simp [Orphans, Proxy.turn?])
      have entered : interrupts.enter entry ≠ .leaving := by cases entry <;> simp
      simpa [Protocol.stages, entered.symm] using member
    · cases stepped
  | outside event =>
    obtain ⟨world, acted, rfl⟩ := Option.map_eq_some_iff.mp stepped
    refine iff_of_true (fun leaving pid living => ?_) (by simp [Orphans, Proxy.turn?])
    have leavingBefore : Leaving before :=
      leaving.imp (fun stopped => (congrArg Server.state (World.outside_server acted)) ▸ stopped) id
    exact held leavingBefore pid (World.outside_alive acted living)

/-- An exit of an interrupt that has found the server stopped is made by a pool
that is leaving. -/
private theorem leaving_of_quits {before : Proxy} {move : ProxyMove} (quits : QuitsStopped before move) :
    Leaving before := by
  obtain ⟨turn, turned, -, leaving⟩ := quits
  obtain ⟨index, -, found, -⟩ := Proxy.run_of_turn turned
  exact .inr (leaving ▸ List.mem_map_of_mem (List.mem_of_getElem? found))

/-- No run ever leaves a process behind for an interrupt that finds the server
stopped, exactly if no step stops the server over a living process, or spawns one
where the server is stopped or an interrupt has found it so. Then every exit that
is made because the server is stopped is made with no process alive. -/
theorem quitting_leaves_no_orphan_iff (config : Config) (moves : List ProxyMove) :
    ((lifecycle config).Every (fun _ _ after => NoOrphan after) Proxy.boot moves ↔
      (lifecycle config).Every (fun before move _ => ¬ Orphans before move) Proxy.boot moves) ∧
    ((lifecycle config).Every (fun before move _ => ¬ Orphans before move) Proxy.boot moves →
      (lifecycle config).Every
        (fun before move _ => QuitsStopped before move → ∀ pid, ¬ before.world.Alive pid)
        Proxy.boot moves) := by
  have start : NoOrphan Proxy.boot := fun _ pid alive => by cases alive
  have kept_iff : (lifecycle config).Every (fun _ _ after => NoOrphan after) Proxy.boot moves ↔
      (lifecycle config).Every (fun before move _ => ¬ Orphans before move) Proxy.boot moves :=
    System.every_invariant_iff start
      (fun _ _ _ reached held stepped => step_orphan_iff reached held stepped) moves
  refine ⟨kept_iff, fun kept => System.every_before ?_ start (kept_iff.mpr kept)⟩
  intro before move after noOrphan quits
  exact noOrphan (leaving_of_quits quits)

/-- A started server is frozen by the first interrupt, and the second finds it
stopped. -/
private def frozenAndQuit : List ProxyMove :=
  [.call .start] ++ goes 0 6 ++ goes 1 2 ++ [.call (.monitor (.ok dummyStatus) (.ok ()))] ++
    goes 2 14 ++ [.call .interrupt] ++ goes 3 7 ++ [.call .interrupt] ++ goes 4 1

/-- Its exit leaves the frozen process behind. -/
theorem frozen_process_is_orphaned :
    ¬ ∀ (config : Config) (moves : List ProxyMove),
      (lifecycle config).Every
        (fun before move _ => QuitsStopped before move → ∀ pid, ¬ before.world.Alive pid)
        Proxy.boot moves := by
  intro every
  let config : Config := { server := { freezeProcess := true } }
  have orphaned : ((lifecycle config).play (fun _ _ => True) Proxy.boot frozenAndQuit).bind
      (fun before => ((lifecycle config).step before (.run 4 true)).map fun _ =>
        decide (QuitsStopped before (.run 4 true) ∧ before.world.Alive 0)) = some true := by decide
  obtain ⟨before, played, orphaned⟩ := Option.bind_eq_some_iff.mp orphaned
  obtain ⟨after, stepped, facts⟩ := Option.map_eq_some_iff.mp orphaned
  obtain ⟨quits, alive⟩ := of_decide_eq_true facts
  exact System.every_last (every config (frozenAndQuit ++ [.run 4 true])) played stepped quits 0 alive

end PlexPaper
