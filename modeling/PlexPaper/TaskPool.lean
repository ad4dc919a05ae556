import Mathlib.Logic.Relation
import PlexPaper.TaskProgram

/-! A runtime that interleaves any number of tasks over one shared world, one
operation at a time. Calls may be made at any moment, an operation may hand new
tasks to the runtime, and the outside may act between any two operations.

Every task keeps the log of what it has done, so a `Discipline` assigns it a
stage. `Reaches.tasks_follow` carries the `Follows` proofs of the programs to
every task of every reachable pool, and `Reaches.invariant` is the one induction
over runs: an invariant of the world and the stages only has to survive a call,
a move of the outside, and one permitted operation. -/
namespace Tasks

/-! ## Runs of a step function -/

section Runs

variable {State Move : Type} {step : State → Move → Option State} {condition : State → Move → Prop}
  {before after : State}

variable (step condition) in
/-- Moves that each meet the condition lead from one state to the other. -/
abbrev RunsTo : State → State → Prop :=
  Relation.ReflTransGen fun before after => ∃ move, condition before move ∧ step before move = some after

variable (step condition) in
/-- Where a list of moves leads, each taken only where it meets the condition. -/
def playRun [∀ state move, Decidable (condition state move)] : State → List Move → Option State
  | state, [] => some state
  | state, move :: moves =>
    if condition state move then (step state move).bind fun after => playRun after moves else none

theorem RunsTo.mono {stronger : State → Move → Prop} (runs : RunsTo step stronger before after)
    (implies : ∀ state move, stronger state move → condition state move) :
    RunsTo step condition before after := by
  induction runs with
  | refl => exact .refl
  | tail _ stepped ih =>
    obtain ⟨move, meets, stepped⟩ := stepped
    exact ih.tail ⟨move, implies _ _ meets, stepped⟩

/-- A played list of moves is a run. -/
theorem runsTo_of_playRun [∀ state move, Decidable (condition state move)] {moves : List Move}
    (played : playRun step condition before moves = some after) : RunsTo step condition before after := by
  induction moves generalizing before with
  | nil => cases played; exact .refl
  | cons move moves ih =>
    simp only [playRun] at played
    split at played
    · rename_i meets
      obtain ⟨middle, stepped, rest⟩ := Option.bind_eq_some_iff.mp played
      exact .head ⟨move, meets, stepped⟩ (ih rest)
    · cases played

theorem playRun_append [∀ state move, Decidable (condition state move)] (moves more : List Move)
    (before : State) : playRun step condition before (moves ++ more) =
      (playRun step condition before moves).bind fun middle => playRun step condition middle more := by
  induction moves generalizing before with
  | nil => rfl
  | cons move moves ih =>
    simp only [List.cons_append, playRun]
    split
    · cases step before move with
      | none => rfl
      | some after => exact ih after
    · rfl

end Runs

/-! ## Systems of tasks -/

/-- What the runtime runs: the program of each entry point, the meaning of each
operation, the tasks an operation spawns, and what the outside may do. -/
structure System (Op : Type) (Reply : Op → Type) (World Answer Entry Event : Type) where
  body : Entry → Program Op Reply Unit
  callable : Entry → Bool
  execute : World → (op : Op) → Answer → Option (Reply op × World)
  spawns : Op → List Entry
  outside : World → Event → Option World

/-- A task: where it was entered, what it has done, and what is left of it. -/
structure Task (Op : Type) (Reply : Op → Type) (Entry : Type) where
  entry : Entry
  log : List ((op : Op) × Reply op)
  rest : Program Op Reply Unit

/-- The shared world and every task ever started, finished ones included. -/
structure Pool (Op : Type) (Reply : Op → Type) (World Entry : Type) where
  world : World
  tasks : List (Task Op Reply Entry)

/-- One move of a run. -/
inductive Move (Answer Entry Event : Type) where
  | call (entry : Entry)
  | run (task : Nat) (answer : Answer)
  | outside (event : Event)

variable {Op : Type} {Reply : Op → Type} {World Answer Entry Event : Type}

/-- The task that a move runs. -/
def Move.task? : Move Answer Entry Event → Option Nat
  | .run task _ => some task
  | _ => none

/-- A task at its entry point. -/
def System.enter (sys : System Op Reply World Answer Entry Event) (entry : Entry) :
    Task Op Reply Entry :=
  { entry, log := [], rest := sys.body entry }

/-- The operation a task is waiting on. -/
def Task.next? (task : Task Op Reply Entry) : Option Op := task.rest.next?

/-- A task after one operation was answered. -/
def Task.proceed (task : Task Op Reply Entry) (op : Op) (reply : Reply op)
    (rest : Program Op Reply Unit) : Task Op Reply Entry :=
  { task with log := task.log ++ [⟨op, reply⟩], rest }

namespace System

variable (sys : System Op Reply World Answer Entry Event)

/-- Before anything is called. -/
def initial (world : World) : Pool Op Reply World Entry := ⟨world, []⟩

def step (pool : Pool Op Reply World Entry) :
    Move Answer Entry Event → Option (Pool Op Reply World Entry)
  | .call entry =>
    if sys.callable entry then some { pool with tasks := pool.tasks ++ [sys.enter entry] } else none
  | .outside event => (sys.outside pool.world event).map fun world => { pool with world }
  | .run index answer =>
    match pool.tasks[index]? with
    | none => none
    | some task =>
      match task.rest with
      | .pure _ => none
      | .request op next =>
        (sys.execute pool.world op answer).map fun (reply, world) =>
          { world
            tasks := pool.tasks.set index (task.proceed op reply (next reply)) ++
              (sys.spawns op).map sys.enter }

/-- A pool reaches another when moves that each meet the condition lead there. -/
def Reaches (condition : Pool Op Reply World Entry → Move Answer Entry Event → Prop) :
    Pool Op Reply World Entry → Pool Op Reply World Entry → Prop := RunsTo sys.step condition

/-- A list of moves, each taken only where it meets the condition. -/
def play (condition : Pool Op Reply World Entry → Move Answer Entry Event → Prop)
    [∀ pool move, Decidable (condition pool move)] :
    Pool Op Reply World Entry → List (Move Answer Entry Event) → Option (Pool Op Reply World Entry) :=
  playRun sys.step condition

/-- Every step of a run has a property. The run ends at the first move that
cannot be taken. -/
def Every (property : Pool Op Reply World Entry → Move Answer Entry Event →
    Pool Op Reply World Entry → Prop) :
    Pool Op Reply World Entry → List (Move Answer Entry Event) → Prop
  | _, [] => True
  | before, move :: moves => ∀ after, sys.step before move = some after →
      property before move after ∧ Every property after moves

/-- Some step of a run has a property. -/
def Meets (property : Pool Op Reply World Entry → Move Answer Entry Event →
    Pool Op Reply World Entry → Prop) :
    Pool Op Reply World Entry → List (Move Answer Entry Event) → Prop
  | _, [] => False
  | before, move :: moves => ∃ after, sys.step before move = some after ∧
      (property before move after ∨ Meets property after moves)

/-- The same of a run beside which notes are kept: every step adds to them, and the property
may consult them. -/
def EveryNoting {Notes : Type}
    (note : Notes → Pool Op Reply World Entry → Move Answer Entry Event → Pool Op Reply World Entry → Notes)
    (property : Notes → Pool Op Reply World Entry → Move Answer Entry Event →
      Pool Op Reply World Entry → Prop) :
    Notes → Pool Op Reply World Entry → List (Move Answer Entry Event) → Prop
  | _, _, [] => True
  | notes, before, move :: moves => ∀ after, sys.step before move = some after →
      property notes before move after ∧ EveryNoting note property (note notes before move after) after moves

instance Every.decidable {property : Pool Op Reply World Entry → Move Answer Entry Event →
      Pool Op Reply World Entry → Prop} [∀ before move after, Decidable (property before move after)] :
    (before : Pool Op Reply World Entry) → (moves : List (Move Answer Entry Event)) →
      Decidable (sys.Every property before moves)
  | _, [] => isTrue trivial
  | before, move :: moves =>
    match taken : sys.step before move with
    | none => isTrue (by simp [Every, taken])
    | some after =>
      have : Decidable (sys.Every property after moves) := Every.decidable after moves
      decidable_of_iff (property before move after ∧ sys.Every property after moves)
        (by simp [Every, taken])

instance Meets.decidable {property : Pool Op Reply World Entry → Move Answer Entry Event →
      Pool Op Reply World Entry → Prop} [∀ before move after, Decidable (property before move after)] :
    (before : Pool Op Reply World Entry) → (moves : List (Move Answer Entry Event)) →
      Decidable (sys.Meets property before moves)
  | _, [] => isFalse id
  | before, move :: moves =>
    match taken : sys.step before move with
    | none => isFalse (by simp [Meets, taken])
    | some after =>
      have : Decidable (sys.Meets property after moves) := Meets.decidable after moves
      decidable_of_iff (property before move after ∨ sys.Meets property after moves)
        (by simp [Meets, taken])

variable {sys} {condition : Pool Op Reply World Entry → Move Answer Entry Event → Prop}
  {before after pool : Pool Op Reply World Entry}

/-- Properties that agree on every step from a reachable pool agree on runs. -/
theorem every_congr {left right : Pool Op Reply World Entry → Move Answer Entry Event →
      Pool Op Reply World Entry → Prop}
    (agree : ∀ before move after, sys.Reaches (fun _ _ => True) pool before →
      sys.step before move = some after → (left before move after ↔ right before move after))
    (moves : List (Move Answer Entry Event)) :
    sys.Every left pool moves ↔ sys.Every right pool moves := by
  suffices ∀ before, sys.Reaches (fun _ _ => True) pool before →
      (sys.Every left before moves ↔ sys.Every right before moves) from this pool .refl
  induction moves with
  | nil => exact fun _ _ => Iff.rfl
  | cons move moves ih =>
    intro before reached
    refine forall_congr' fun after => forall_congr' fun stepped => ?_
    exact and_congr (agree before move after reached stepped)
      (ih after (reached.tail ⟨move, trivial, stepped⟩))

/-- A property of steps is one of the notes where the two agree as long as something holds of
notes and pool that every step keeps. -/
theorem every_noting_iff {Notes : Type}
    {note : Notes → Pool Op Reply World Entry → Move Answer Entry Event → Pool Op Reply World Entry → Notes}
    {property : Pool Op Reply World Entry → Move Answer Entry Event → Pool Op Reply World Entry → Prop}
    {noted : Notes → Pool Op Reply World Entry → Move Answer Entry Event → Pool Op Reply World Entry → Prop}
    {holds : Notes → Pool Op Reply World Entry → Prop} {notes : Notes} (start : holds notes pool)
    (kept : ∀ notes before move after, sys.Reaches (fun _ _ => True) pool before → holds notes before →
      sys.step before move = some after → holds (note notes before move after) after)
    (agree : ∀ notes before move after, sys.Reaches (fun _ _ => True) pool before → holds notes before →
      sys.step before move = some after → (property before move after ↔ noted notes before move after))
    (moves : List (Move Answer Entry Event)) :
    sys.Every property pool moves ↔ sys.EveryNoting note noted notes pool moves := by
  suffices ∀ notes before, sys.Reaches (fun _ _ => True) pool before → holds notes before →
      (sys.Every property before moves ↔ sys.EveryNoting note noted notes before moves) from
    this notes pool .refl start
  induction moves with
  | nil => exact fun _ _ _ _ => Iff.rfl
  | cons move moves ih =>
    intro notes before reached held
    refine forall_congr' fun after => forall_congr' fun stepped => ?_
    exact and_congr (agree notes before move after reached held stepped)
      (ih _ after (reached.tail ⟨move, trivial, stepped⟩) (kept notes before move after reached held stepped))

/-- An invariant that each step keeps exactly where it meets a condition holds
all along a run if and only if every step meets the condition. -/
theorem every_invariant_iff {holds : Pool Op Reply World Entry → Prop}
    {meets : Pool Op Reply World Entry → Move Answer Entry Event → Prop} (start : holds pool)
    (agree : ∀ before move after, sys.Reaches (fun _ _ => True) pool before → holds before →
      sys.step before move = some after → (holds after ↔ meets before move))
    (moves : List (Move Answer Entry Event)) :
    sys.Every (fun _ _ after => holds after) pool moves ↔
      sys.Every (fun before move _ => meets before move) pool moves := by
  suffices ∀ before, sys.Reaches (fun _ _ => True) pool before → holds before →
      (sys.Every (fun _ _ after => holds after) before moves ↔
        sys.Every (fun before move _ => meets before move) before moves) from this pool .refl start
  induction moves with
  | nil => exact fun _ _ _ => Iff.rfl
  | cons move moves ih =>
    intro before reached held
    refine forall_congr' fun after => forall_congr' fun stepped => ?_
    have same := agree before move after reached held stepped
    have rest (held : holds after) := ih after (reached.tail ⟨move, trivial, stepped⟩) held
    exact ⟨fun ⟨now, later⟩ => ⟨same.mp now, (rest now).mp later⟩,
      fun ⟨now, later⟩ => ⟨same.mpr now, (rest (same.mpr now)).mpr later⟩⟩

/-- What one move of a task is: the task was waiting on an operation, the
operation took effect with some reply, and the task moved on. -/
theorem step_run {index : Nat} {answer : Answer}
    (stepped : sys.step before (.run index answer) = some after) :
    ∃ task op next reply world, before.tasks[index]? = some task ∧ task.rest = .request op next ∧
      sys.execute before.world op answer = some (reply, world) ∧
      after = { world
                tasks := before.tasks.set index (task.proceed op reply (next reply)) ++
                  (sys.spawns op).map sys.enter } := by
  simp only [step] at stepped
  split at stepped
  · cases stepped
  · rename_i task found
    split at stepped
    · cases stepped
    · rename_i op next waiting
      obtain ⟨⟨reply, world⟩, executed, rfl⟩ := Option.map_eq_some_iff.mp stepped
      exact ⟨task, op, next, reply, world, found, waiting, executed, rfl⟩

/-- What a step does to one task: nothing, or, if the task is the one to run, the
operation it is waiting on. -/
theorem step_task {move : Move Answer Entry Event} (stepped : sys.step before move = some after)
    {index : Nat} {task : Task Op Reply Entry} (found : before.tasks[index]? = some task) :
    (after.tasks[index]? = some task ∧ ∀ answer, move ≠ .run index answer) ∨
      ∃ (answer : Answer) (op : Op) (next : Reply op → Program Op Reply Unit) (reply : Reply op),
        move = .run index answer ∧ task.rest = .request op next ∧
        sys.execute before.world op answer = some (reply, after.world) ∧
        after.tasks[index]? = some (task.proceed op reply (next reply)) := by
  have bound := (List.getElem?_eq_some_iff.mp found).1
  cases move with
  | call entry =>
    simp only [step] at stepped
    split at stepped
    · cases stepped
      exact .inl ⟨by simp [List.getElem?_append_left bound, found], by simp⟩
    · cases stepped
  | outside event =>
    obtain ⟨world, -, rfl⟩ := Option.map_eq_some_iff.mp stepped
    exact .inl ⟨found, by simp⟩
  | run other answer =>
    obtain ⟨runner, op, next, reply, world, here, waiting, executed, rfl⟩ := step_run stepped
    by_cases own : other = index
    · subst own
      cases found.symm.trans here
      exact .inr ⟨answer, op, next, reply, rfl, waiting, executed,
        by simp [List.getElem?_append_left, bound]⟩
    · refine .inl ⟨?_, by simp [own]⟩
      rw [List.getElem?_append_left (by simpa using bound), List.getElem?_set_ne own, found]

theorem Reaches.step {move : Move Answer Entry Event}
    (reaches : sys.Reaches condition pool before) (meets : condition before move)
    (stepped : sys.step before move = some after) : sys.Reaches condition pool after :=
  reaches.tail ⟨move, meets, stepped⟩

theorem Reaches.mono {stronger : Pool Op Reply World Entry → Move Answer Entry Event → Prop}
    (reaches : sys.Reaches stronger before after)
    (implies : ∀ pool move, stronger pool move → condition pool move) :
    sys.Reaches condition before after := RunsTo.mono reaches implies

/-- Where the runtime may start a task. -/
def Enters (sys : System Op Reply World Answer Entry Event) (entry : Entry) : Prop :=
  sys.callable entry ∨ ∃ op, entry ∈ sys.spawns op

/-- What a task has done, the program of its entry point performs. -/
theorem Reaches.tasks_perform {world : World} (reaches : sys.Reaches condition (initial world) pool) :
    ∀ task ∈ pool.tasks, sys.Enters task.entry ∧
      (sys.body task.entry).Performs task.log task.rest := by
  induction reaches with
  | refl => intro task member; cases member
  | tail _ stepped ih =>
    obtain ⟨move, -, stepped⟩ := stepped
    intro task member
    cases move with
    | call entry =>
      simp only [System.step] at stepped
      split at stepped
      · rename_i callable
        cases stepped
        rcases List.mem_append.mp member with old | new
        · exact ih task old
        · rw [List.mem_singleton.mp new]
          exact ⟨.inl callable, .start⟩
      · cases stepped
    | outside event =>
      obtain ⟨world, -, rfl⟩ := Option.map_eq_some_iff.mp stepped
      exact ih task member
    | run index answer =>
      obtain ⟨runner, op, next, reply, world, found, waiting, -, rfl⟩ := step_run stepped
      rcases List.mem_append.mp member with old | new
      · rcases List.mem_or_eq_of_mem_set old with old | rfl
        · exact ih task old
        · obtain ⟨entered, performs⟩ := ih runner (List.mem_of_getElem? found)
          rw [waiting] at performs
          exact ⟨entered, performs.concat reply⟩
      · obtain ⟨entry, spawned, rfl⟩ := List.mem_map.mp new
        exact ⟨.inr ⟨op, spawned⟩, .start⟩

/-- A task keeps its place, and its log only grows. -/
theorem Reaches.log_grows (reaches : sys.Reaches condition before after) {index : Nat}
    {task : Task Op Reply Entry} (found : before.tasks[index]? = some task) :
    ∃ later more, after.tasks[index]? = some later ∧ later.entry = task.entry ∧
      later.log = task.log ++ more := by
  induction reaches with
  | refl => exact ⟨task, [], found, rfl, (List.append_nil _).symm⟩
  | tail _ stepped ih =>
    obtain ⟨later, more, found, entry, log⟩ := ih
    obtain ⟨move, -, stepped⟩ := stepped
    rcases step_task stepped found with ⟨same, -⟩ | ⟨answer, op, next, reply, -, -, -, now⟩
    · exact ⟨later, more, same, entry, log⟩
    · refine ⟨_, more ++ [⟨op, reply⟩], now, entry, ?_⟩
      rw [Task.proceed, log, List.append_assoc]

/-- A played list of moves is a run. -/
theorem play_reaches [∀ pool move, Decidable (condition pool move)]
    {moves : List (Move Answer Entry Event)}
    (played : sys.play condition before moves = some after) : sys.Reaches condition before after :=
  runsTo_of_playRun played

theorem play_append [∀ pool move, Decidable (condition pool move)]
    (moves more : List (Move Answer Entry Event)) (before : Pool Op Reply World Entry) :
    sys.play condition before (moves ++ more) =
      (sys.play condition before moves).bind fun middle => sys.play condition middle more :=
  playRun_append moves more before

/-- What every step keeps that does not have a property holds of the pool played
to, unless a step of the run has it. -/
theorem holds_or_meets {holds : Pool Op Reply World Entry → Prop}
    {property : Pool Op Reply World Entry → Move Answer Entry Event → Pool Op Reply World Entry → Prop}
    (kept : ∀ before move after, sys.Reaches (fun _ _ => True) pool before → holds before →
      sys.step before move = some after → holds after ∨ property before move after)
    {moves : List (Move Answer Entry Event)} (start : holds pool)
    (played : sys.play (fun _ _ => True) pool moves = some after) :
    holds after ∨ sys.Meets property pool moves := by
  suffices ∀ before, sys.Reaches (fun _ _ => True) pool before → holds before →
      sys.play (fun _ _ => True) before moves = some after →
      holds after ∨ sys.Meets property before moves from this pool .refl start played
  clear played
  induction moves with
  | nil =>
    rintro before - held ⟨⟩
    exact .inl held
  | cons move moves ih =>
    intro before reached held played
    obtain ⟨next, stepped, rest⟩ := Option.bind_eq_some_iff.mp played
    rcases kept before move next reached held stepped with held | has
    · exact (ih next (reached.tail ⟨move, trivial, stepped⟩) held rest).imp id
        fun meets => ⟨next, stepped, .inr meets⟩
    · exact .inr ⟨next, stepped, .inl has⟩

/-- Of two properties, the run meets the one that not every step lacks. -/
theorem Meets.of_every {left right : Pool Op Reply World Entry → Move Answer Entry Event →
      Pool Op Reply World Entry → Prop} {moves : List (Move Answer Entry Event)}
    (meets : sys.Meets (fun before move after => left before move after ∨ right before move after)
      pool moves)
    (lacks : sys.Every (fun before move after => ¬ right before move after) pool moves) :
    sys.Meets left pool moves := by
  induction moves generalizing pool with
  | nil => exact meets
  | cons move moves ih =>
    obtain ⟨after, stepped, (has | has) | later⟩ := meets
    · exact ⟨after, stepped, .inl has⟩
    · exact absurd has (lacks after stepped).1
    · exact ⟨after, stepped, .inr (ih later (lacks after stepped).2)⟩

/-- What holds at the start and after every step holds before every step. -/
theorem every_before {holds : Pool Op Reply World Entry → Prop}
    {property : Pool Op Reply World Entry → Move Answer Entry Event → Pool Op Reply World Entry → Prop}
    (implies : ∀ before move after, holds before → property before move after)
    {moves : List (Move Answer Entry Event)} (start : holds pool)
    (every : sys.Every (fun _ _ after => holds after) pool moves) : sys.Every property pool moves := by
  induction moves generalizing pool with
  | nil => trivial
  | cons move moves ih =>
    intro after stepped
    obtain ⟨now, later⟩ := every after stepped
    exact ⟨implies pool move after start, ih now later⟩

/-- Where every step of a run meets a condition, the run has what the steps have that
meet it in a pool reached by such steps. -/
theorem every_of_condition
    {property : Pool Op Reply World Entry → Move Answer Entry Event → Pool Op Reply World Entry → Prop}
    (holds : ∀ before move after, sys.Reaches condition pool before → condition before move →
      sys.step before move = some after → property before move after)
    {moves : List (Move Answer Entry Event)}
    (every : sys.Every (fun before move _ => condition before move) pool moves) :
    sys.Every property pool moves := by
  suffices ∀ before, sys.Reaches condition pool before →
      sys.Every (fun before move _ => condition before move) before moves →
      sys.Every property before moves from this pool .refl every
  clear every
  induction moves with
  | nil => exact fun _ _ _ => trivial
  | cons move moves ih =>
    intro before reached every after stepped
    obtain ⟨meets, later⟩ := every after stepped
    exact ⟨holds before move after reached meets stepped, ih after (reached.step meets stepped) later⟩

/-- What holds at the start and after every step holds of the pool played to. -/
theorem every_played (holds : Pool Op Reply World Entry → Prop)
    [∀ pool move, Decidable (condition pool move)] {moves : List (Move Answer Entry Event)}
    (start : holds before) (every : sys.Every (fun _ _ after => holds after) before moves)
    (played : sys.play condition before moves = some after) : holds after := by
  induction moves generalizing before with
  | nil => cases played; exact start
  | cons first moves ih =>
    simp only [play, playRun] at played
    split at played
    · obtain ⟨next, taken, rest⟩ := Option.bind_eq_some_iff.mp played
      obtain ⟨now, later⟩ := every next taken
      exact ih now later rest
    · cases played

/-- A property of every step holds of the last one played. -/
theorem every_last {property : Pool Op Reply World Entry → Move Answer Entry Event →
      Pool Op Reply World Entry → Prop} [∀ pool move, Decidable (condition pool move)]
    {moves : List (Move Answer Entry Event)} {move : Move Answer Entry Event}
    {middle : Pool Op Reply World Entry} (every : sys.Every property before (moves ++ [move]))
    (played : sys.play condition before moves = some middle)
    (stepped : sys.step middle move = some after) : property middle move after := by
  induction moves generalizing before with
  | nil => cases played; exact (every after stepped).1
  | cons first moves ih =>
    simp only [play, playRun] at played
    split at played
    · obtain ⟨next, taken, rest⟩ := Option.bind_eq_some_iff.mp played
      exact ih (every next taken).2 rest
    · cases played

end System

/-! ## Stages -/

/-- How a discipline reads a system: the stage in which each entry starts. -/
structure Protocol (Op : Type) (Reply : Op → Type) (Entry : Type) extends Discipline Op Reply where
  enter : Entry → Stage

/-- The stage a task has come to by what it has done. -/
def Protocol.stage (protocol : Protocol Op Reply Entry) (task : Task Op Reply Entry) :
    protocol.Stage :=
  task.log.foldl (fun stage done => protocol.advance stage done.1 done.2) (protocol.enter task.entry)

/-- The stages of all tasks, in the order the tasks were started. -/
def Protocol.stages (protocol : Protocol Op Reply Entry) (pool : Pool Op Reply World Entry) :
    List protocol.Stage :=
  pool.tasks.map protocol.stage

/-- Every entry point at which a task can start keeps to the protocol. -/
def System.Obeys (sys : System Op Reply World Answer Entry Event)
    (protocol : Protocol Op Reply Entry) : Prop :=
  ∀ entry, (sys.callable entry ∨ ∃ op, entry ∈ sys.spawns op) →
    (sys.body entry).Follows protocol.toDiscipline (protocol.enter entry) fun _ _ => True

/-- A protocol that permits everything is obeyed. -/
theorem System.obeys_of_free {sys : System Op Reply World Answer Entry Event}
    {protocol : Protocol Op Reply Entry} (free : ∀ stage op, protocol.permits stage op) :
    sys.Obeys protocol := fun entry _ =>
  Program.follows_of_free (fun _ => True) (fun stage op _ => free stage op)
    (fun _ _ _ _ => trivial) (sys.body entry) trivial

namespace Protocol

variable {sys : System Op Reply World Answer Entry Event} {protocol : Protocol Op Reply Entry}
  {condition : Pool Op Reply World Entry → Move Answer Entry Event → Prop}
  {before after pool : Pool Op Reply World Entry}

@[simp] theorem stage_enter (entry : Entry) :
    protocol.stage (sys.enter entry) = protocol.enter entry := rfl

@[simp] theorem stage_proceed (task : Task Op Reply Entry) (op : Op) (reply : Reply op)
    (rest : Program Op Reply Unit) :
    protocol.stage (task.proceed op reply rest) = protocol.advance (protocol.stage task) op reply := by
  simp [stage, Task.proceed]

/-- What a task is still to do keeps to the protocol from its present stage. -/
def OnTrack (protocol : Protocol Op Reply Entry) (task : Task Op Reply Entry) : Prop :=
  task.rest.Follows protocol.toDiscipline (protocol.stage task) fun _ _ => True

theorem OnTrack.permits {task : Task Op Reply Entry} {op : Op}
    {next : Reply op → Program Op Reply Unit} (onTrack : protocol.OnTrack task)
    (waiting : task.rest = .request op next) : protocol.permits (protocol.stage task) op := by
  unfold OnTrack at onTrack
  rw [waiting] at onTrack
  exact onTrack.1

theorem OnTrack.permits_next {task : Task Op Reply Entry} {op : Op}
    (onTrack : protocol.OnTrack task) (waiting : task.next? = some op) :
    protocol.permits (protocol.stage task) op := by
  cases rest : task.rest with
  | pure value => simp [Task.next?, rest, Program.next?] at waiting
  | request first next =>
    simp only [Task.next?, rest, Program.next?, Option.some.injEq] at waiting
    exact waiting ▸ onTrack.permits rest

/-- In every reachable pool every task is on track. -/
theorem tasks_follow (obeys : sys.Obeys protocol) {world : World}
    (reaches : sys.Reaches condition (System.initial world) pool) :
    ∀ task ∈ pool.tasks, protocol.OnTrack task := by
  intro task member
  obtain ⟨entered, performs⟩ := reaches.tasks_perform task member
  exact (obeys task.entry entered).performs performs

/-- What ties logs to stages at every entry, and is kept by every permitted operation, ties
what every task has done to its stage. -/
theorem tasks_relate (obeys : sys.Obeys protocol)
    (holds : List ((op : Op) × Reply op) → protocol.Stage → Prop)
    (start : ∀ entry, holds [] (protocol.enter entry))
    (kept : ∀ done stage op reply, protocol.permits stage op → holds done stage →
      holds (done ++ [⟨op, reply⟩]) (protocol.advance stage op reply)) {world : World}
    (reaches : sys.Reaches condition (System.initial world) pool) :
    ∀ task ∈ pool.tasks, holds task.log (protocol.stage task) := by
  intro task member
  obtain ⟨entered, performs⟩ := reaches.tasks_perform task member
  exact (obeys task.entry entered).relates holds kept (start task.entry) performs

/-- A list around one of its entries, and what replacing the entry makes of it. -/
private theorem split_at {α : Type} {entries : List α} {index : Nat} {entry : α}
    (found : entries[index]? = some entry) :
    ∃ left right, entries = left ++ entry :: right ∧
      ∀ other, entries.set index other = left ++ other :: right := by
  obtain ⟨bound, rfl⟩ := List.getElem?_eq_some_iff.mp found
  refine ⟨entries.take index, entries.drop (index + 1), ?_, fun other => ?_⟩
  · rw [List.getElem_cons_drop, List.take_append_drop]
  · rw [List.set_eq_take_append_cons_drop, if_pos bound]

/-- What one move of a task does to the stages: the operation was permitted,
its task advances, and the tasks it spawns enter at the end. -/
theorem step_run (obeys : sys.Obeys protocol) {world : World}
    (reached : sys.Reaches condition (System.initial world) before) {index : Nat} {answer : Answer}
    (stepped : sys.step before (.run index answer) = some after) :
    ∃ (task : Task Op Reply Entry) (op : Op) (reply : Reply op) (left right : List protocol.Stage),
      before.tasks[index]? = some task ∧ task.next? = some op ∧
      protocol.permits (protocol.stage task) op ∧
      sys.execute before.world op answer = some (reply, after.world) ∧
      protocol.stages before = left ++ protocol.stage task :: right ∧
      protocol.stages after = left ++ protocol.advance (protocol.stage task) op reply :: right ++
        (sys.spawns op).map protocol.enter := by
  obtain ⟨task, op, next, reply, world, found, waiting, executed, rfl⟩ := System.step_run stepped
  have permitted := (tasks_follow obeys reached task (List.mem_of_getElem? found)).permits waiting
  have staged : (protocol.stages before)[index]? = some (protocol.stage task) := by
    simp [stages, found]
  obtain ⟨left, right, around, replaced⟩ := split_at staged
  refine ⟨task, op, reply, left, right, found, by simp [Task.next?, waiting, Program.next?],
    permitted, executed, around, ?_⟩
  rw [← replaced]
  simp [stages, List.map_set, Function.comp_def]

/-- A task keeps a property of its stage that every permitted operation keeps,
and its place in the pool. -/
theorem task_keeps (obeys : sys.Obeys protocol) {property : protocol.Stage → Prop}
    (kept : ∀ stage op reply, protocol.permits stage op → property stage →
      property (protocol.advance stage op reply)) {world : World}
    (reached : sys.Reaches condition (System.initial world) before)
    (continues : sys.Reaches condition before after) {index : Nat} {task : Task Op Reply Entry}
    (found : before.tasks[index]? = some task) (holds : property (protocol.stage task)) :
    ∃ later, after.tasks[index]? = some later ∧ later.entry = task.entry ∧
      property (protocol.stage later) := by
  induction continues with
  | refl => exact ⟨task, found, rfl, holds⟩
  | tail continued stepped ih =>
    obtain ⟨later, found, entry, holds⟩ := ih
    obtain ⟨move, -, stepped⟩ := stepped
    rcases System.step_task stepped found with ⟨same, -⟩ | ⟨answer, op, next, reply, -, waiting, -, now⟩
    · exact ⟨later, same, entry, holds⟩
    · have onTrack := tasks_follow obeys (reached.trans continued) later (List.mem_of_getElem? found)
      refine ⟨_, now, entry, ?_⟩
      rw [stage_proceed]
      exact kept _ op reply (onTrack.permits waiting) holds

/-- The invariant rule. A property of the world and of the tasks' stages holds
in every pool reached by moves that meet the condition, if it holds at the
start and survives a call, a move of the outside, and an operation that the
protocol permits in the stage of the task that performs it. -/
theorem invariant (obeys : sys.Obeys protocol) (holds : World → List protocol.Stage → Prop)
    {world : World} (start : holds world [])
    (calls : ∀ world stages entry, sys.callable entry → holds world stages →
      holds world (stages ++ [protocol.enter entry]))
    (outside : ∀ world stages event after, sys.outside world event = some after →
      holds world stages → holds after stages)
    (runs : ∀ (pool : Pool Op Reply World Entry) (index : Nat) (answer : Answer)
      (task : Task Op Reply Entry) (op : Op) (reply : Reply op) (after : World)
      (left right : List protocol.Stage),
      condition pool (.run index answer) → pool.tasks[index]? = some task →
      task.next? = some op → protocol.permits (protocol.stage task) op →
      sys.execute pool.world op answer = some (reply, after) →
      protocol.stages pool = left ++ protocol.stage task :: right →
      holds pool.world (left ++ protocol.stage task :: right) →
      holds after (left ++ protocol.advance (protocol.stage task) op reply :: right ++
        (sys.spawns op).map protocol.enter))
    (reaches : sys.Reaches condition (System.initial world) pool) :
    holds pool.world (protocol.stages pool) := by
  induction reaches with
  | refl => exact start
  | @tail middle pool reached stepped ih =>
    obtain ⟨move, meets, stepped⟩ := stepped
    cases move with
    | call entry =>
      simp only [System.step] at stepped
      split at stepped
      · rename_i callable
        cases stepped
        simpa [stages] using calls _ _ entry callable ih
      · cases stepped
    | outside event =>
      obtain ⟨world, acted, rfl⟩ := Option.map_eq_some_iff.mp stepped
      exact outside _ _ event world acted ih
    | run index answer =>
      obtain ⟨task, op, reply, left, right, found, waiting, permitted, executed, around, becomes⟩ :=
        step_run obeys reached stepped
      rw [becomes]
      exact runs middle index answer task op reply pool.world left right meets found waiting
        permitted executed around (around ▸ ih)

end Protocol

end Tasks
