import Mathlib.Data.List.Count
import PlexPaper.TaskPool

/-! What the tasks of a run have done together. Their logs are the history of the run, but
for its order between tasks, and that is enough to count by: where every operation moves as
much in the world as it is counted for, the world and the history balance in every pool
reached. -/
namespace Tasks

variable {Op : Type} {Reply : Op → Type} {World Answer Entry Event : Type}

/-- Everything that has been done, task by task. -/
def Pool.done (pool : Pool Op Reply World Entry) : List ((op : Op) × Reply op) :=
  pool.tasks.flatMap Task.log

namespace Pool

variable {pool : Pool Op Reply World Entry}

theorem mem_done {entry : (op : Op) × Reply op} :
    entry ∈ pool.done ↔ ∃ task ∈ pool.tasks, entry ∈ task.log := List.mem_flatMap

/-- Counts that are in a relation log by log are in it all together, where sums keep it. -/
private theorem countP_flatMap_rel {α β : Type} {related : Nat → Nat → Prop} (none_related : related 0 0)
    (sums : ∀ {a b c d}, related a b → related c d → related (a + c) (b + d)) {first second : β → Bool}
    {log : α → List β} {more : α → Bool} {entries : List α}
    (each : ∀ entry ∈ entries, related ((log entry).countP first)
      ((log entry).countP second + if more entry then 1 else 0)) :
    related ((entries.flatMap log).countP first) ((entries.flatMap log).countP second + entries.countP more) := by
  induction entries with
  | nil => exact none_related
  | cons entry entries ih =>
    have own := each entry List.mem_cons_self
    have others := ih fun other member => each other (List.mem_cons_of_mem _ member)
    simp only [List.flatMap_cons, List.countP_append, List.countP_cons]
    rw [Nat.add_comm (entries.countP more), Nat.add_add_add_comm]
    exact sums own others

/-- What each task has done at most as often as something else, or once more, all of them
have, or once more for each of these. -/
theorem countP_done_le {first second : (op : Op) × Reply op → Bool} {more : Task Op Reply Entry → Bool}
    (each : ∀ task ∈ pool.tasks, task.log.countP first ≤
      task.log.countP second + if more task then 1 else 0) :
    pool.done.countP first ≤ pool.done.countP second + pool.tasks.countP more :=
  countP_flatMap_rel (Nat.le_refl 0) Nat.add_le_add each

/-- What each task has done exactly as often as something else, or once more, all of them
have, and once more for each of these. -/
theorem countP_done_eq {first second : (op : Op) × Reply op → Bool} {more : Task Op Reply Entry → Bool}
    (each : ∀ task ∈ pool.tasks, task.log.countP first =
      task.log.countP second + if more task then 1 else 0) :
    pool.done.countP first = pool.done.countP second + pool.tasks.countP more :=
  countP_flatMap_rel rfl (congrArg₂ (· + ·)) each

end Pool

namespace System

variable {sys : System Op Reply World Answer Entry Event}
  {condition : Pool Op Reply World Entry → Move Answer Entry Event → Prop}
  {before after pool : Pool Op Reply World Entry}

private theorem flatMap_log_enter (entries : List Entry) :
    (entries.map sys.enter).flatMap Task.log = [] := by
  induction entries with
  | nil => rfl
  | cons entry entries ih => rw [List.map_cons, List.flatMap_cons, ih]; rfl

/-- An operation of a task is entered in what has been done. -/
private theorem done_proceed {index : Nat} {task : Task Op Reply Entry}
    (found : before.tasks[index]? = some task) (world : World) (op : Op) (reply : Reply op)
    (rest : Program Op Reply Unit) :
    (Pool.mk world (before.tasks.set index (task.proceed op reply rest) ++
      (sys.spawns op).map sys.enter)).done.Perm (⟨op, reply⟩ :: before.done) := by
  obtain ⟨bound, rfl⟩ := List.getElem?_eq_some_iff.mp found
  have around : before.tasks =
      before.tasks.take index ++ before.tasks[index] :: before.tasks.drop (index + 1) := by
    rw [List.getElem_cons_drop, List.take_append_drop]
  simp only [Pool.done]
  rw [List.flatMap_append, flatMap_log_enter, List.append_nil, List.set_eq_take_append_cons_drop,
    if_pos bound]
  conv_rhs => rw [around]
  simp only [List.flatMap_append, List.flatMap_cons, Task.proceed]
  -- The new entry stands behind what its task has done before.
  rw [List.append_assoc, List.singleton_append, ← List.append_assoc, ← List.append_assoc]
  exact List.perm_middle

variable (sys) in
/-- The task that performs an operation stays where it is, and those that it spawns come last. -/
private theorem entries_proceed {index : Nat} {task : Task Op Reply Entry}
    (found : before.tasks[index]? = some task) (op : Op) (reply : Reply op) (rest : Program Op Reply Unit) :
    (before.tasks.set index (task.proceed op reply rest) ++ (sys.spawns op).map sys.enter).map Task.entry =
      before.tasks.map Task.entry ++ sys.spawns op := by
  have same : (before.tasks.set index (task.proceed op reply rest)).map Task.entry =
      before.tasks.map Task.entry := by
    obtain ⟨bound, here⟩ := List.getElem?_eq_some_iff.mp found
    have own : (task.proceed op reply rest).entry =
        (before.tasks.map Task.entry).get ⟨index, by rwa [List.length_map]⟩ := by
      rw [List.get_eq_getElem, List.getElem_map, here, Task.proceed]
    rw [List.map_set, own, List.get_eq_getElem, List.set_getElem_self]
  rw [List.map_append, same, List.map_map]
  exact congrArg _ (List.map_id' _)

/-- A move adds the entry that it calls, or those that its operation spawns. -/
theorem step_entries {move : Move Answer Entry Event} (stepped : sys.step before move = some after) :
    ∃ fresh, after.tasks.map Task.entry = before.tasks.map Task.entry ++ fresh ∧
      match move with
      | .call entry => fresh = [entry]
      | .outside _ => fresh = []
      | .run index _ => ∃ task op, before.tasks[index]? = some task ∧ task.next? = some op ∧
          fresh = sys.spawns op := by
  cases move with
  | call entry =>
    obtain ⟨-, same⟩ := Option.ite_none_right_eq_some.mp stepped
    cases same
    exact ⟨_, by rw [List.map_append]; rfl, rfl⟩
  | outside event =>
    obtain ⟨world, -, rfl⟩ := Option.map_eq_some_iff.mp stepped
    exact ⟨[], (List.append_nil _).symm, rfl⟩
  | run index answer =>
    obtain ⟨task, op, next, reply, world, found, waiting, -, rfl⟩ := step_run stepped
    exact ⟨sys.spawns op, entries_proceed sys found op reply _, task, op, found,
      by rw [Task.next?, waiting]; rfl, rfl⟩

/-- A move adds the operation that it runs to what has been done, and nothing else. -/
theorem step_done {move : Move Answer Entry Event} (stepped : sys.step before move = some after) :
    (after.done = before.done ∧
      (after.world = before.world ∨ ∃ event, sys.outside before.world event = some after.world)) ∨
    ∃ (answer : Answer) (op : Op) (reply : Reply op),
      sys.execute before.world op answer = some (reply, after.world) ∧
        after.done.Perm (⟨op, reply⟩ :: before.done) := by
  cases move with
  | call entry =>
    simp only [step] at stepped
    split at stepped
    · cases stepped
      refine .inl ⟨?_, .inl rfl⟩
      simp [Pool.done, enter]
    · cases stepped
  | outside event =>
    obtain ⟨world, acted, rfl⟩ := Option.map_eq_some_iff.mp stepped
    exact .inl ⟨rfl, .inr ⟨event, acted⟩⟩
  | run index answer =>
    obtain ⟨task, op, next, reply, world, found, -, executed, rfl⟩ := step_run stepped
    exact .inr ⟨answer, op, reply, executed, done_proceed found world op reply _⟩

/-- The ledger rule. What holds of the world before anything is done, and is kept by every
operation that is entered and by the outside, holds in every pool reached. -/
theorem Reaches.recorded {world : World} (holds : World → List ((op : Op) × Reply op) → Prop)
    (order : ∀ world done other, done.Perm other → holds world done → holds world other)
    (start : holds world [])
    (outside : ∀ world done event after, sys.outside world event = some after →
      holds world done → holds after done)
    (enters : ∀ world done op answer reply after, sys.execute world op answer = some (reply, after) →
      holds world done → holds after (⟨op, reply⟩ :: done))
    (reaches : sys.Reaches condition (initial world) pool) : holds pool.world pool.done := by
  induction reaches with
  | refl => exact start
  | tail _ stepped ih =>
    obtain ⟨move, -, stepped⟩ := stepped
    rcases step_done stepped with ⟨done, same | ⟨event, acted⟩⟩ | ⟨answer, op, reply, executed, done⟩
    · rw [done, same]
      exact ih
    · rw [done]
      exact outside _ _ event _ acted ih
    · exact order _ _ _ done.symm (enters _ _ op answer reply _ executed ih)

/-- A quantity of the world that each operation raises and lowers as it is counted for is
what it was, with all that was raised and without all that was lowered. -/
theorem Reaches.balances {world : World} (amount : World → Nat) (raises lowers : (op : Op) × Reply op → Bool)
    (outside : ∀ world event after, sys.outside world event = some after → amount after = amount world)
    (enters : ∀ world op answer reply after, sys.execute world op answer = some (reply, after) →
      amount after + (if lowers ⟨op, reply⟩ then 1 else 0) =
        amount world + if raises ⟨op, reply⟩ then 1 else 0)
    (reaches : sys.Reaches condition (initial world) pool) :
    amount pool.world + pool.done.countP lowers = amount world + pool.done.countP raises := by
  refine reaches.recorded
    (fun now done => amount now + done.countP lowers = amount world + done.countP raises)
    ?_ rfl ?_ ?_
  · intro now done other same balanced
    rw [← same.countP_eq, ← same.countP_eq]
    exact balanced
  · intro now done event after acted balanced
    rw [outside _ _ _ acted]
    exact balanced
  · intro now done op answer reply after executed balanced
    have own := enters _ _ _ _ _ executed
    simp only [List.countP_cons]
    omega

/-- The tasks at an entry that is never called are those that were spawned. -/
theorem Reaches.countP_spawned {world : World} (isEntry : Entry → Bool)
    (spawnsEntry : (op : Op) × Reply op → Bool)
    (uncalled : ∀ entry, sys.callable entry → isEntry entry = false)
    (spawned : ∀ op reply, (sys.spawns op).countP isEntry = if spawnsEntry ⟨op, reply⟩ then 1 else 0)
    (reaches : sys.Reaches condition (initial world) pool) :
    pool.tasks.countP (fun task => isEntry task.entry) = pool.done.countP spawnsEntry := by
  induction reaches with
  | refl => rfl
  | @tail middle pool _ stepped ih =>
    obtain ⟨move, -, stepped⟩ := stepped
    cases move with
    | call entry =>
      simp only [System.step] at stepped
      split at stepped
      · rename_i callable
        cases stepped
        simpa [Pool.done, enter, List.countP_append, uncalled entry callable] using ih
      · cases stepped
    | outside event =>
      obtain ⟨world, -, rfl⟩ := Option.map_eq_some_iff.mp stepped
      exact ih
    | run index answer =>
      obtain ⟨task, op, next, reply, world, found, -, -, rfl⟩ := step_run stepped
      have counted := congrArg (List.countP isEntry) (entries_proceed sys found op reply (next reply))
      rw [List.countP_append, List.countP_map, List.countP_map] at counted
      rw [(done_proceed found world op reply (next reply)).countP_eq, List.countP_cons, ← ih, ← spawned op reply]
      exact counted

end System

/-- What ties logs to stages at each entry, and is kept by every permitted operation, ties
what every task has done to its stage. -/
theorem Protocol.entries_relate {sys : System Op Reply World Answer Entry Event}
    {condition : Pool Op Reply World Entry → Move Answer Entry Event → Prop}
    {pool : Pool Op Reply World Entry} {protocol : Protocol Op Reply Entry} (obeys : sys.Obeys protocol)
    (holds : Entry → List ((op : Op) × Reply op) → protocol.Stage → Prop)
    (start : ∀ entry, holds entry [] (protocol.enter entry))
    (kept : ∀ entry done stage op reply, protocol.permits stage op → holds entry done stage →
      holds entry (done ++ [⟨op, reply⟩]) (protocol.advance stage op reply)) {world : World}
    (reaches : sys.Reaches condition (System.initial world) pool) :
    ∀ task ∈ pool.tasks, holds task.entry task.log (protocol.stage task) := by
  intro task member
  obtain ⟨entered, performs⟩ := reaches.tasks_perform task member
  exact (obeys task.entry entered).relates (holds task.entry) (kept task.entry) (start task.entry) performs

end Tasks
