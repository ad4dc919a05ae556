import PlexPaper.CommandDuty

/-! The way out of `Stopping`. No poll and no start leaves it; only the final
update of a command task does. So the server may only be moved to `Stopping`
while there is a process to end, or a command task with that update still to
make. `stop_server_rcon` does not look: it also stops a server that was found
running. -/
namespace PlexPaper
open Tasks Server

/-- A process was spawned whose command task has its final update still to make. -/
def Tended (proxy : Proxy) : Prop := ∃ duty ∈ duties.stages proxy, (Duty.child? duty).isSome
  deriving Decidable

/-- A process is alive, or its exit cleanup has not run. -/
def Attended (proxy : Proxy) : Prop := (∃ pid, proxy.world.Alive pid) ∨ Tended proxy

/-- `Stopping` is no dead end in this state. -/
def HasExit (proxy : Proxy) : Prop := proxy.world.server.state = .stopping → Attended proxy

/-- The server is moved to `Stopping` although there is no process and no
command task to move it on. -/
def Strands (proxy : Proxy) (move : ProxyMove) : Prop :=
  ∃ turn ∈ proxy.turn? move, turn.op.newState proxy.world.server.state = .stopping ∧
    proxy.world.server.state ≠ .stopping ∧ ¬ Attended proxy

/-- The last process ends in `Stopping` after its command task is through, having
failed to wait for it. -/
def Abandons (proxy : Proxy) (move : ProxyMove) : Prop :=
  ∃ pid status, move = .outside (.childExits pid status) ∧
    proxy.world.server.state = .stopping ∧ ¬ Tended proxy ∧
    ∀ other, proxy.world.Alive other → other = pid

/-- Only a spawn and a final update change whether a task tends a process. -/
private theorem tends_same {duty ended : Duty} {op : Op} {reply : op.Reply}
    (advanced : Advances duty op reply ended) (other : op ≠ .spawnChild) :
    (Duty.child? ended).isSome = (Duty.child? duty).isSome ∨ op = .swapState .stopped := by
  cases advanced with
  | claims free moved => rcases free with rfl | rfl <;> exact .inl rfl
  | spawns | fails => exact absurd rfl other
  | retires => exact .inr rfl
  | _ => exact .inl rfl

/-- A task whose tending stays the same leaves the pool tended or not, as it was. -/
private theorem tended_same {left right : List Duty} {duty ended : Duty} {entries : List Entry}
    (same : (Duty.child? ended).isSome = (Duty.child? duty).isSome) :
    (∃ other ∈ left ++ ended :: right ++ entries.map duties.enter, (Duty.child? other).isSome) ↔
      ∃ other ∈ left ++ duty :: right, (Duty.child? other).isSome := by
  have childless (entry : Entry) : (Duty.child? (duties.enter entry)).isSome = false := by
    cases entry <;> rfl
  simp [or_and_right, exists_or, same, childless]

/-- The end of a process keeps the exit open unless it was the last one, and
abandoned. -/
private theorem child_exit_iff {before : Proxy} {world : World} {pid : Pid} {status : ExitStatus}
    (acted : before.world.outside (.childExits pid status) = some world) :
    HasExit { before with world } ↔ ¬ Abandons before (.outside (.childExits pid status)) := by
  have server := World.outside_server acted
  have alive_iff (other : Pid) : world.Alive other ↔ before.world.Alive other ∧ other ≠ pid :=
    World.childExits_alive acted other
  constructor
  · rintro exit ⟨_, _, same, stopping, untended, last⟩
    cases same
    rcases exit (server ▸ stopping) with ⟨other, alive⟩ | tended
    · exact ((alive_iff other).mp alive).2 (last other ((alive_iff other).mp alive).1)
    · exact untended tended
  · intro kept stopping
    by_contra unattended
    refine kept ⟨pid, status, rfl, server ▸ stopping, fun tended => unattended (.inr tended), ?_⟩
    intro other alive
    by_contra distinct
    exact unattended (.inl ⟨other, (alive_iff other).mpr ⟨alive, distinct⟩⟩)

/-- An operation keeps the exit open exactly where it does not strand the server. -/
private theorem turn_exit_iff {config : Config} {before after : Proxy} {index : Nat} {succeeds : Bool}
    (reached : (lifecycle config).Reaches (fun _ _ => True) Proxy.boot before)
    (held : HasExit before)
    (stepped : (lifecycle config).step before (.run index succeeds) = some after) :
    HasExit after ↔ ¬ Strands before (.run index succeeds) := by
  obtain ⟨task, op, reply, left, right, found, waiting, permitted, executed, around, becomes⟩ :=
    Protocol.step_run (lifecycle_duties config) reached stepped
  have state := World.execute_state executed
  have children := World.execute_children executed
  have strands_iff : Strands before (.run index succeeds) ↔
      op.newState before.world.server.state = .stopping ∧
        before.world.server.state ≠ .stopping ∧ ¬ Attended before := by
    simp [Strands, Proxy.turn?_run found waiting]
  by_cases spawning : op = .spawnChild
  · -- The task that spawns tended nothing, so the pool stays tended by the others.
    subst spawning
    have ordered : duties.stage task = .ordered := permitted
    apply iff_of_true
    · intro stopping
      rcases held (state.symm.trans stopping) with ⟨pid, alive⟩ | ⟨duty, member, tends⟩
      · refine .inl ⟨pid, ?_⟩
        unfold World.Alive
        rw [children]
        exact Op.newChildren_getElem? _ alive
      · rw [around, ordered] at member
        refine .inr ⟨duty, ?_, tends⟩
        rw [becomes]
        grind [Duty.child?]
    · intro strands
      exact (strands_iff.mp strands).2.1 (strands_iff.mp strands).1
  · rw [Op.newChildren_of_ne spawning] at children
    rcases tends_same (Duty.advances permitted reply) spawning with same | rfl
    · have tended : Tended after ↔ Tended before := by
        unfold Tended
        rw [becomes, around]
        exact tended_same same
      have kept : Attended after ↔ Attended before := by
        unfold Attended World.Alive
        rw [children, tended]
      unfold HasExit at held ⊢
      rw [strands_iff, state, kept]
      grind
    · apply iff_of_true
      · intro stopping
        cases state.symm.trans stopping
      · intro strands
        cases (strands_iff.mp strands).1

/-- A step keeps the exit open exactly where it neither strands the server nor
abandons it. -/
private theorem step_exit_iff {config : Config} {before after : Proxy} {move : ProxyMove}
    (reached : (lifecycle config).Reaches (fun _ _ => True) Proxy.boot before)
    (held : HasExit before) (stepped : (lifecycle config).step before move = some after) :
    HasExit after ↔ ¬ Strands before move ∧ ¬ Abandons before move := by
  cases move with
  | call entry =>
    simp only [System.step] at stepped
    split at stepped
    · cases stepped
      apply iff_of_true
      · intro stopping
        rcases held stopping with alive | ⟨duty, member, tends⟩
        · exact .inl alive
        · refine .inr ⟨duty, ?_, tends⟩
          simp only [Protocol.stages, List.map_append]
          exact List.mem_append_left _ member
      · simp [Strands, Abandons, Proxy.turn?]
    · cases stepped
  | outside event =>
    obtain ⟨world, acted, rfl⟩ := Option.map_eq_some_iff.mp stepped
    have unstranded : ¬ Strands before (.outside event) := by simp [Strands, Proxy.turn?]
    cases event with
    | childExits pid status =>
      rw [child_exit_iff acted]
      exact (and_iff_right unstranded).symm
    | elapse duration =>
      cases acted
      exact iff_of_true held ⟨unstranded, by simp [Abandons]⟩
  | run index succeeds =>
    rw [turn_exit_iff reached held stepped]
    exact (and_iff_left (by simp [Abandons])).symm

/-- No run ever leaves the server in `Stopping` with no process to end and no
cleanup to come, exactly if each of its steps that moves the server to
`Stopping` is made while there is one, and no process ends there abandoned. -/
theorem stopping_has_exit_iff (config : Config) (moves : List ProxyMove) :
    (lifecycle config).Every (fun _ _ after => HasExit after) Proxy.boot moves ↔
      (lifecycle config).Every (fun before move _ => ¬ Strands before move ∧ ¬ Abandons before move)
        Proxy.boot moves :=
  System.every_invariant_iff (fun stopping => by cases stopping)
    (fun _ _ _ reached held stepped => step_exit_iff reached held stepped) moves

/-- A server found running is stopped through RCON. -/
private def foundAndStopped : List ProxyMove :=
  [.call (.monitor (.ok dummyStatus) (.ok ()))] ++ goes 0 14 ++ [.call .stop] ++ goes 1 5 ++
    [.outside (.elapse QUIRK_RCON_GRACE_TIME)] ++ goes 1 5

/-- It is stopping then, with no process and no command task there. -/
theorem found_server_has_no_exit :
    ¬ ∀ (config : Config) (moves : List ProxyMove),
      (lifecycle config).Every (fun _ _ after => HasExit after) Proxy.boot moves := by
  intro every
  let config : Config := { rcon := { enabled := true } }
  have stranded : ((lifecycle config).play (fun _ _ => True) Proxy.boot foundAndStopped).map
      (fun proxy => decide (proxy.world.server.state = .stopping ∧
        proxy.world.children = [] ∧ ¬ Tended proxy)) = some true := by
    decide
  obtain ⟨proxy, played, stranded⟩ := Option.map_eq_some_iff.mp stranded
  obtain ⟨stopping, childless, untended⟩ := of_decide_eq_true stranded
  have exit := System.every_played HasExit (fun stopping => by cases stopping)
    (every config foundAndStopped) played
  rcases exit stopping with ⟨pid, alive⟩ | tended
  · simp [World.Alive, childless] at alive
  · exact untended tended

end PlexPaper
