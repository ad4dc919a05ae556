import PlexPaper.TaskPool

/-! Whether tasks can come to their end. A program is finite, so a task that can always go on
gets there; what has to be said is how each operation that it may be waiting on comes to take
effect, with the help of other tasks if need be. -/
namespace Tasks

/-- The task at this place has returned. -/
def Pool.Finished {Op : Type} {Reply : Op → Type} {World Entry : Type}
    (pool : Pool Op Reply World Entry) (index : Nat) : Prop :=
  ∃ task, pool.tasks[index]? = some task ∧ task.next? = none

namespace System

variable {Op : Type} {Reply : Op → Type} {World Answer Entry Event : Type}
  {sys : System Op Reply World Answer Entry Event}
  {condition : Pool Op Reply World Entry → Move Answer Entry Event → Prop}
  {before after pool : Pool Op Reply World Entry} {index : Nat} {task : Task Op Reply Entry}

/-- A task that does not run stays as it is. -/
theorem Reaches.untouched (reaches : sys.Reaches condition before after)
    (rests : ∀ pool move, condition pool move → move.task? ≠ some index)
    (found : before.tasks[index]? = some task) : after.tasks[index]? = some task := by
  induction reaches with
  | refl => exact found
  | tail _ stepped ih =>
    obtain ⟨move, meets, stepped⟩ := stepped
    rcases step_task stepped ih with ⟨same, -⟩ | ⟨answer, _, _, _, rfl, -⟩
    · exact same
    · exact absurd rfl (rests _ _ meets)

/-- A task that has returned stays as it is. -/
theorem Reaches.returned (reaches : sys.Reaches condition before after)
    (found : before.tasks[index]? = some task) (done : task.next? = none) :
    after.tasks[index]? = some task := by
  induction reaches with
  | refl => exact found
  | tail _ stepped ih =>
    obtain ⟨move, -, stepped⟩ := stepped
    rcases step_task stepped ih with ⟨same, -⟩ | ⟨_, _, _, _, -, waiting, -⟩
    · exact same
    · simp [Task.next?, waiting, Program.next?] at done

/-- After some moves, in which it does nothing, a task goes on, unless a goal is met first. -/
def GoesOn (sys : System Op Reply World Answer Entry Event)
    (condition : Pool Op Reply World Entry → Move Answer Entry Event → Prop)
    (holds goal : Pool Op Reply World Entry → Prop) (pool : Pool Op Reply World Entry) (index : Nat)
    (task : Task Op Reply Entry) : Prop :=
  ∃ ready, sys.Reaches condition pool ready ∧
    (goal ready ∨ ready.tasks[index]? = some task ∧ ∃ answer after,
      condition ready (.run index answer) ∧ sys.step ready (.run index answer) = some after ∧ holds after)

/-- The completion rule. A task that always goes on, in a way that keeps what it takes to,
comes to its end, unless the goal is met first. -/
theorem completes {holds goal : Pool Op Reply World Entry → Prop}
    (goesOn : ∀ pool task op, holds pool → pool.tasks[index]? = some task → task.next? = some op →
      sys.GoesOn condition holds goal pool index task)
    (start : holds pool) (found : pool.tasks[index]? = some task) :
    ∃ after, sys.Reaches condition pool after ∧
      (goal after ∨ holds after ∧ after.Finished index) := by
  obtain ⟨entry, log, rest⟩ := task
  induction rest generalizing pool log with
  | pure value => exact ⟨pool, .refl, .inr ⟨start, _, found, rfl⟩⟩
  | request op next ih =>
    obtain ⟨ready, readied, met | ⟨still, answer, after, meets, stepped, kept⟩⟩ := goesOn pool _ op start found rfl
    · exact ⟨ready, readied, .inl met⟩
    · rcases step_task stepped still with ⟨-, other⟩ | ⟨_, op', next', reply, -, waiting, -, now⟩
      · exact absurd rfl (other answer)
      · cases waiting
        obtain ⟨last, continued, ended⟩ := ih reply kept _ now
        exact ⟨last, (readied.step meets stepped).trans continued, ended⟩

/-- Tasks that can each come to their end can all do so, one after the other. -/
theorem completes_all {holds goal : Pool Op Reply World Entry → Prop}
    (each : ∀ pool index task, holds pool → pool.tasks[index]? = some task →
      ∃ after, sys.Reaches condition pool after ∧ (goal after ∨ holds after ∧ after.Finished index))
    (start : holds pool) {count : Nat} (bound : count ≤ pool.tasks.length) :
    ∃ after, sys.Reaches condition pool after ∧
      (goal after ∨ holds after ∧ ∀ index < count, after.Finished index) := by
  induction count with
  | zero => exact ⟨pool, .refl, .inr ⟨start, nofun⟩⟩
  | succ count ih =>
    obtain ⟨middle, reached, met | ⟨held, finished⟩⟩ := ih (Nat.le_of_succ_le bound)
    · exact ⟨middle, reached, .inl met⟩
    · have found := List.getElem?_eq_getElem (Nat.lt_of_succ_le bound)
      obtain ⟨later, _, still, -⟩ := reached.log_grows found
      obtain ⟨after, continued, met | ⟨kept, own⟩⟩ := each middle count later held still
      · exact ⟨after, reached.trans continued, .inl met⟩
      · refine ⟨after, reached.trans continued, .inr ⟨kept, fun index below => ?_⟩⟩
        rcases Nat.lt_succ_iff_lt_or_eq.mp below with earlier | rfl
        · obtain ⟨done, there, ended⟩ := finished index earlier
          exact ⟨done, continued.returned there ended, ended⟩
        · exact own

end System
end Tasks
