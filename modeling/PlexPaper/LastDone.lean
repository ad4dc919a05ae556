import PlexPaper.TaskPool

/-! Operations that are judged by the one their task has done before them. A value that was
read is out of date as soon as another task acts, so what a task does with it should follow
at once: whether an operation fits what the one before it was answered can be checked along
the program, and over a run the world at that earlier operation is found again. -/
namespace Tasks

variable {Op : Type} {Reply : Op → Type} {World Answer Entry Event α β : Type}

/-- The order in which each operation fits the one done before it, if there is one. -/
abbrev lastDone (fits : Option ((op : Op) × Reply op) → Op → Prop) : Discipline Op Reply where
  Stage := Option ((op : Op) × Reply op)
  advance _ op reply := some ⟨op, reply⟩
  permits := fits

namespace Program

variable {fits : Option ((op : Op) × Reply op) → Op → Prop}

/-- Wherever the program is begun, its operations fit. -/
abbrev Fits (fits : Option ((op : Op) × Reply op) → Op → Prop) (program : Program Op Reply α) : Prop :=
  program.Anywhere (lastDone fits)

/-- What follows an operation has to fit its reply alone. -/
theorem Fits.answered {op : Op} {rest : Reply op → Program Op Reply β} (free : ∀ last, fits last op)
    (then_ : ∀ reply, (rest reply).Follows (lastDone fits) (some ⟨op, reply⟩) fun _ _ => True) :
    (Program.perform op >>= rest).Fits fits :=
  fun last => follows_bind.mpr (follows_perform.mpr ⟨free last, then_⟩)

/-- An operation that fits here, whatever follows it. -/
theorem Fits.follows_after {op : Op} {rest : Reply op → Program Op Reply β}
    {last : Option ((op : Op) × Reply op)} (here : fits last op) (then_ : ∀ reply, (rest reply).Fits fits) :
    (Program.perform op >>= rest).Follows (lastDone fits) last fun _ _ => True :=
  Follows.bind_anywhere (follows_perform.mpr ⟨here, fun _ => trivial⟩) then_

end Program

/-- Every task begins with nothing done. -/
abbrev lastDones (Entry : Type) (fits : Option ((op : Op) × Reply op) → Op → Prop) :
    Protocol Op Reply Entry where
  toDiscipline := lastDone fits
  enter _ := none

section

variable {fits : Option ((op : Op) × Reply op) → Op → Prop}

/-- The stage of a task is the last entry of its log. -/
theorem lastDones_stage (task : Task Op Reply Entry) :
    (lastDones Entry fits).stage task = task.log.getLast? := by
  have last : ∀ (log : List ((op : Op) × Reply op)) (first : Option ((op : Op) × Reply op)),
      log.foldl (fun _ done => some done) first = log.getLast?.or first := by
    intro log
    induction log with
    | nil => intro first; rfl
    | cons done log ih =>
      intro first
      rw [List.foldl_cons, ih, List.getLast?_cons]
      cases log.getLast? <;> rfl
  exact (last task.log none).trans Option.or_none

end

namespace System

variable {sys : System Op Reply World Answer Entry Event}
  {condition : Pool Op Reply World Entry → Move Answer Entry Event → Prop}
  {before after pool : Pool Op Reply World Entry}

/-- A task that is there after a step was there before it and has not run, or is new, or has run. -/
theorem step_found {move : Move Answer Entry Event} (stepped : sys.step before move = some after)
    {index : Nat} {task : Task Op Reply Entry} (found : after.tasks[index]? = some task) :
    before.tasks[index]? = some task ∧ move.task? ≠ some index ∨ task.log = [] ∨
      ∃ (answer : Answer) (old : Task Op Reply Entry) (op : Op)
        (next : Reply op → Program Op Reply Unit) (reply : Reply op),
        move = .run index answer ∧ before.tasks[index]? = some old ∧ old.rest = .request op next ∧
        sys.execute before.world op answer = some (reply, after.world) ∧
        task = old.proceed op reply (next reply) := by
  by_cases bound : index < before.tasks.length
  · obtain ⟨old, there⟩ : ∃ old, before.tasks[index]? = some old := ⟨_, List.getElem?_eq_getElem bound⟩
    rcases step_task stepped there with
      ⟨same, apart⟩ | ⟨answer, op, next, reply, own, waiting, executed, now⟩
    · refine .inl ⟨there.trans (same.symm.trans found), ?_⟩
      cases move with
      | run other answer => rintro ⟨⟩; exact apart answer rfl
      | call | outside => exact nofun
    · exact .inr (.inr ⟨answer, old, op, next, reply, own, there, waiting, executed,
        Option.some.inj (found.symm.trans now)⟩)
  · refine .inr (.inl ?_)
    cases move with
    | call entry =>
      simp only [step] at stepped
      split at stepped
      · cases stepped
        rw [List.getElem?_append_right (Nat.le_of_not_lt bound)] at found
        obtain rfl := List.mem_singleton.mp (List.mem_of_getElem? found)
        rfl
      · cases stepped
    | outside event =>
      obtain ⟨world, -, rfl⟩ := Option.map_eq_some_iff.mp stepped
      exact absurd (List.getElem?_eq_some_iff.mp found).1 bound
    | run other answer =>
      obtain ⟨runner, op, next, reply, world, -, -, -, rfl⟩ := step_run stepped
      rw [List.getElem?_append_right (by simpa using bound)] at found
      obtain ⟨entry, -, rfl⟩ := List.mem_map.mp (List.mem_of_getElem? found)
      rfl

/-- The last thing a task has done it has done at some pool on the way, and it has been
waiting since. -/
theorem Reaches.last_done {world : World} (reaches : sys.Reaches condition (initial world) pool)
    {index : Nat} {task : Task Op Reply Entry} (found : pool.tasks[index]? = some task)
    {op : Op} {reply : Reply op} (last : task.log.getLast? = some ⟨op, reply⟩) :
    ∃ (middle next : Pool Op Reply World Entry) (answer : Answer),
      sys.Reaches condition (initial world) middle ∧
      sys.step middle (.run index answer) = some next ∧
      sys.execute middle.world op answer = some (reply, next.world) ∧
      sys.Reaches condition next pool ∧ next.tasks[index]? = some task := by
  induction reaches with
  | refl => simp [initial] at found
  | @tail before pool reached stepped ih =>
    have moved := stepped
    obtain ⟨move, meets, stepped⟩ := stepped
    rcases step_found stepped found with
      ⟨there, -⟩ | fresh | ⟨answer, old, op', rest, reply', own, there, -, executed, rfl⟩
    · obtain ⟨middle, next, answer, first, ran, executed, continued, still⟩ := ih there
      exact ⟨middle, next, answer, first, ran, executed, continued.tail moved, still⟩
    · simp [fresh] at last
    · simp only [Task.proceed, List.getLast?_concat, Option.some.injEq] at last
      cases last
      exact ⟨before, pool, answer, reached, own ▸ stepped, executed, .refl, found⟩

end System
end Tasks
