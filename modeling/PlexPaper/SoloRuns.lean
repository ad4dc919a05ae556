import PlexPaper.TaskProgram

/-! Programs that run alone, against a world that answers each operation, or does not
let it through. `Ensures` speaks of the runs that return; `Achieves` says that every run
does. Both are defined along the program, so their rules follow its text. -/
namespace Tasks
namespace Program

variable {Op : Type} {Reply : Op → Type} {World Answer α β : Type}

section Contracts

variable (execute : World → (op : Op) → Answer → Option (Reply op × World))

/-- Every run that returns does so with this postcondition. -/
def Ensures : Program Op Reply α → World → (α → World → Prop) → Prop
  | .pure value, world, post => post value world
  | .request op next, world, post => ∀ answer reply after,
    execute world op answer = some (reply, after) → (next reply).Ensures after post

/-- Every run returns, and with this postcondition. -/
def Achieves : Program Op Reply α → World → (α → World → Prop) → Prop
  | .pure value, world, post => post value world
  | .request op next, world, post => ∀ answer, ∃ reply after,
    execute world op answer = some (reply, after) ∧ (next reply).Achieves after post

end Contracts

variable {execute : World → (op : Op) → Answer → Option (Reply op × World)}
  {program : Program Op Reply α} {rest : α → Program Op Reply β} {world : World}
  {post weaker : α → World → Prop} {post' : β → World → Prop}

@[simp] theorem ensures_pure {value : α} :
    (Pure.pure value : Program Op Reply α).Ensures execute world post ↔ post value world := Iff.rfl

@[simp] theorem ensures_request {op : Op} {next : Reply op → Program Op Reply α} :
    (Program.request op next).Ensures execute world post ↔ ∀ answer reply after,
      execute world op answer = some (reply, after) → (next reply).Ensures execute after post := Iff.rfl

/-- The sequencing rule. -/
@[simp] theorem ensures_bind :
    (program >>= rest).Ensures execute world post' ↔
      program.Ensures execute world fun value after => (rest value).Ensures execute after post' := by
  induction program generalizing world with
  | pure value => rfl
  | request op next ih =>
    exact forall_congr' fun _ => forall_congr' fun reply => forall_congr' fun after =>
      forall_congr' fun _ => ih reply

/-- The consequence rule. -/
theorem Ensures.mono (ensures : program.Ensures execute world post)
    (implies : ∀ value after, post value after → weaker value after) :
    program.Ensures execute world weaker := by
  induction program generalizing world with
  | pure value => exact implies value world ensures
  | request op next ih =>
    exact fun answer reply after executed => ih reply (ensures answer reply after executed)

theorem Ensures.and {more : α → World → Prop} (ensures : program.Ensures execute world post)
    (also : program.Ensures execute world more) :
    program.Ensures execute world fun value after => post value after ∧ more value after := by
  induction program generalizing world with
  | pure value => exact ⟨ensures, also⟩
  | request op next ih =>
    exact fun answer reply after executed =>
      ih reply (ensures answer reply after executed) (also answer reply after executed)

theorem Achieves.mono (achieves : program.Achieves execute world post)
    (implies : ∀ value after, post value after → weaker value after) :
    program.Achieves execute world weaker := by
  induction program generalizing world with
  | pure value => exact implies value world achieves
  | request op next ih =>
    intro answer
    obtain ⟨reply, after, executed, then_⟩ := achieves answer
    exact ⟨reply, after, executed, ih reply then_⟩

theorem achieves_bind :
    (program >>= rest).Achieves execute world post' ↔
      program.Achieves execute world fun value after => (rest value).Achieves execute after post' := by
  induction program generalizing world with
  | pure value => rfl
  | request op next ih =>
    refine forall_congr' fun _ => exists_congr fun reply => exists_congr fun after => ?_
    exact and_congr Iff.rfl (ih reply)

/-- A world answers in one way, so what every run achieves each one ensures. -/
theorem Achieves.ensures (achieves : program.Achieves execute world post) :
    program.Ensures execute world post := by
  induction program generalizing world with
  | pure value => exact achieves
  | request op next ih =>
    intro answer reply after executed
    obtain ⟨reply', after', executed', then_⟩ := achieves answer
    rw [executed] at executed'
    cases executed'
    exact ih reply then_

/-- What the operations of an order keep holds where a program that follows it returns. -/
theorem Follows.ensures {d : Discipline Op Reply} {stage : d.Stage} {ended : α → d.Stage → Prop}
    (related : World → d.Stage → Prop)
    (kept : ∀ world stage op answer reply after, related world stage → d.permits stage op →
      execute world op answer = some (reply, after) → related after (d.advance stage op reply))
    (follows : program.Follows d stage ended) (start : related world stage) :
    program.Ensures execute world fun value after => ∃ last, related after last ∧ ended value last := by
  induction program generalizing world stage with
  | pure value => exact ⟨stage, start, follows⟩
  | request op next ih =>
    exact fun answer reply after executed =>
      ih reply (follows.2 reply) (kept _ _ _ _ _ _ start follows.1 executed)

/-- A program of operations that the world always answers runs to its end. What they keep
holds there. -/
theorem Follows.achieves {d : Discipline Op Reply} {stage : d.Stage} {ended : α → d.Stage → Prop}
    (related : World → d.Stage → Prop)
    (answers : ∀ world stage op answer, related world stage → d.permits stage op →
      ∃ reply after, execute world op answer = some (reply, after) ∧
        related after (d.advance stage op reply))
    (follows : program.Follows d stage ended) (start : related world stage) :
    program.Achieves execute world fun value after =>
      ∃ last, related after last ∧ ended value last := by
  induction program generalizing world stage with
  | pure value => exact ⟨stage, start, follows⟩
  | request op next ih =>
    intro answer
    obtain ⟨reply, after, executed, kept⟩ := answers world stage op answer start follows.1
    exact ⟨reply, after, executed, ih reply (follows.2 reply) kept⟩

variable [Inhabited Answer] {answers left : List Answer} {value : α} {after : World}

theorem Ensures.of_run (ensures : program.Ensures execute world post)
    (ran : program.run execute answers world = some (value, after, left)) : post value after := by
  induction program generalizing world answers with
  | pure found =>
    cases ran
    exact ensures
  | request op next ih =>
    rw [Program.run] at ran
    cases executed : execute world op (answers.headD default) with
    | none =>
      rw [executed] at ran
      cases ran
    | some outcome =>
      obtain ⟨reply, mid⟩ := outcome
      rw [executed] at ran
      exact ih reply (ensures _ reply mid executed) ran

theorem Achieves.exists_run (achieves : program.Achieves execute world post) (answers : List Answer) :
    ∃ value after left, program.run execute answers world = some (value, after, left) ∧
      post value after := by
  induction program generalizing world answers with
  | pure value => exact ⟨value, world, answers, rfl, achieves⟩
  | request op next ih =>
    obtain ⟨reply, mid, executed, then_⟩ := achieves (answers.headD default)
    obtain ⟨value, after, left, ran, holds⟩ := ih reply then_ answers.tail
    refine ⟨value, after, left, ?_, holds⟩
    rw [Program.run, executed]
    exact ran

end Program
end Tasks
