import Mathlib.Tactic.Common

/-! Asynchronous code as data. A program is the finite tree of requests a task
makes of the outside: each operation waits for its reply and continues with it.
Nothing here fixes what an operation does; `run` is given the meaning as a
parameter, and `Follows` is the proof rule for programs whose operations keep
to an order, whatever the replies and whatever other tasks do between them. -/
namespace Tasks

/-- A program over the operations `Op`, each answered by a `Reply`. -/
inductive Program (Op : Type) (Reply : Op → Type) (α : Type) where
  | pure (value : α)
  | request (op : Op) (next : Reply op → Program Op Reply α)

namespace Program

variable {Op : Type} {Reply : Op → Type} {α β γ : Type}

/-- Sequencing grafts the continuation onto every leaf. -/
def bind : Program Op Reply α → (α → Program Op Reply β) → Program Op Reply β
  | .pure value, rest => rest value
  | .request op next, rest => .request op fun reply => (next reply).bind rest

instance : Monad (Program Op Reply) where
  pure := .pure
  bind := bind

/-- One operation, answering with its reply. -/
def perform (op : Op) : Program Op Reply (Reply op) := .request op .pure

@[simp] theorem leaf_bind (value : α) (rest : α → Program Op Reply β) :
    (Program.pure value : Program Op Reply α) >>= rest = rest value := rfl

@[simp] theorem request_bind (op : Op) (next : Reply op → Program Op Reply α)
    (rest : α → Program Op Reply β) :
    Program.request op next >>= rest = .request op fun reply => next reply >>= rest := rfl

@[simp] theorem perform_bind (op : Op) (rest : Reply op → Program Op Reply β) :
    perform op >>= rest = .request op rest := rfl

theorem bind_pure (program : Program Op Reply α) : program >>= Pure.pure = program := by
  induction program with
  | pure value => rfl
  | request op next ih => exact congrArg (Program.request op) (funext ih)

theorem bind_assoc (program : Program Op Reply α) (first : α → Program Op Reply β)
    (rest : β → Program Op Reply γ) :
    program >>= first >>= rest = program >>= fun value => first value >>= rest := by
  induction program with
  | pure value => rfl
  | request op next ih => exact congrArg (Program.request op) (funext ih)

instance : LawfulMonad (Program Op Reply) :=
  LawfulMonad.mk' _ bind_pure (fun _ _ => rfl) bind_assoc

@[simp] theorem request_map (f : α → β) (op : Op) (next : Reply op → Program Op Reply α) :
    f <$> Program.request op next = .request op fun reply => f <$> next reply := rfl

/-- The operation a program is waiting on, if it has not returned. -/
def next? : Program Op Reply α → Option Op
  | .pure _ => none
  | .request op _ => some op

/-- A timer around a program. Before every operation the timer may have run
out, in which case the program is dropped where it stands. -/
def timeout (timer : Op) (elapsed : Reply timer → Bool) :
    Program Op Reply α → Program Op Reply (Option α)
  | .pure value => .pure (some value)
  | .request op next => .request timer fun reply =>
      if elapsed reply then .pure none
      else .request op fun reply => (next reply).timeout timer elapsed

/-- A program next to something else that is polled. Before every operation the
other may have come to its result, in which case the program is dropped where it
stands. -/
def race (poll : Op) (won : Reply poll → Option β) : Program Op Reply α → Program Op Reply (α ⊕ β)
  | .pure value => .pure (.inl value)
  | .request op next => .request poll fun reply =>
      match won reply with
      | some result => .pure (.inr result)
      | none => .request op fun reply => (next reply).race poll won

/-- A program over one set of operations, made of operations of another. -/
def embed {Op' : Type} {Reply' : Op' → Type} (inject : Op → Op')
    (answer : ∀ op, Reply' (inject op) → Reply op) : Program Op Reply α → Program Op' Reply' α
  | .pure value => .pure value
  | .request op next => .request (inject op) fun reply => (next (answer op reply)).embed inject answer

end Program

section Alone

variable {Op : Type} {Reply : Op → Type} {World Answer α β : Type} [Inhabited Answer]

/-- A program run by itself. Operation `n` is carried out with the `n`-th
decision of the environment; the decisions left over are returned. -/
def Program.run (execute : World → (op : Op) → Answer → Option (Reply op × World)) :
    Program Op Reply α → List Answer → World → Option (α × World × List Answer)
  | .pure value, answers, world => some (value, world, answers)
  | .request op next, answers, world =>
    match execute world op (answers.headD default) with
    | none => none
    | some (reply, world) => (next reply).run execute answers.tail world

variable {execute : World → (op : Op) → Answer → Option (Reply op × World)}

@[simp] theorem Program.run_pure (value : α) (answers : List Answer) (world : World) :
    (Pure.pure value : Program Op Reply α).run execute answers world = some (value, world, answers) :=
  rfl

/-- Running a request carries it out, and goes on with its reply. -/
theorem Program.run_request (op : Op) (next : Reply op → Program Op Reply α)
    (answers : List Answer) (world : World) :
    (Program.request op next).run execute answers world =
      (execute world op (answers.headD default)).bind fun (reply, after) =>
        (next reply).run execute answers.tail after := by
  cases executed : execute world op (answers.headD default) <;>
    simp only [Program.run, executed] <;> rfl

/-- Running one operation carries it out. -/
theorem Program.run_perform (op : Op) (answers : List Answer) (world : World) :
    (Program.perform op : Program Op Reply (Reply op)).run execute answers world =
      (execute world op (answers.headD default)).map fun (reply, after) =>
        (reply, after, answers.tail) := by
  cases executed : execute world op (answers.headD default) <;>
    simp only [Program.perform, Program.run, executed] <;> rfl

/-- Running a sequence runs its parts one after the other. -/
theorem Program.run_bind (program : Program Op Reply α) (rest : α → Program Op Reply β)
    (answers : List Answer) (world : World) :
    (program >>= rest).run execute answers world =
      (program.run execute answers world).bind fun (value, world, answers) =>
        (rest value).run execute answers world := by
  induction program generalizing answers world with
  | pure value => rfl
  | request op next ih =>
    simp only [Program.request_bind, Program.run]
    cases execute world op (answers.headD default) with
    | none => rfl
    | some outcome => exact ih ..

theorem Program.run_map (f : α → β) (program : Program Op Reply α) (answers : List Answer)
    (world : World) :
    (f <$> program).run execute answers world =
      (program.run execute answers world).map fun (value, world, answers) =>
        (f value, world, answers) := by
  rw [map_eq_pure_bind, run_bind]
  cases program.run execute answers world <;> rfl

end Alone

/-! ## Programs that keep to an order of operations -/

/-- An order of operations: what stage each reply moves a task to, and which
operations a stage permits. -/
structure Discipline (Op : Type) (Reply : Op → Type) where
  Stage : Type
  advance : Stage → (op : Op) → Reply op → Stage
  permits : Stage → Op → Prop

namespace Program

variable {Op : Type} {Reply : Op → Type} {α β : Type} {d : Discipline Op Reply}

/-- From this stage the program only ever makes permitted requests, whatever
it is answered, and returns in a stage that satisfies `post`. -/
def Follows (d : Discipline Op Reply) :
    Program Op Reply α → d.Stage → (α → d.Stage → Prop) → Prop
  | .pure value, stage, post => post value stage
  | .request op next, stage, post =>
    d.permits stage op ∧ ∀ reply, (next reply).Follows d (d.advance stage op reply) post

@[simp] theorem follows_pure {value : α} {stage : d.Stage} {post : α → d.Stage → Prop} :
    (Pure.pure value : Program Op Reply α).Follows d stage post ↔ post value stage := Iff.rfl

@[simp] theorem follows_request {op : Op} {next : Reply op → Program Op Reply α}
    {stage : d.Stage} {post : α → d.Stage → Prop} :
    (Program.request op next).Follows d stage post ↔
      d.permits stage op ∧ ∀ reply, (next reply).Follows d (d.advance stage op reply) post := Iff.rfl

@[simp] theorem follows_perform {op : Op} {stage : d.Stage} {post : Reply op → d.Stage → Prop} :
    (perform op : Program Op Reply (Reply op)).Follows d stage post ↔
      d.permits stage op ∧ ∀ reply, post reply (d.advance stage op reply) := Iff.rfl

/-- The rule for one operation. -/
theorem Follows.request {op : Op} {next : Reply op → Program Op Reply α} {stage : d.Stage}
    {post : α → d.Stage → Prop} (permitted : d.permits stage op)
    (rest : ∀ reply, (next reply).Follows d (d.advance stage op reply) post) :
    (Program.request op next).Follows d stage post := ⟨permitted, rest⟩

/-- The sequencing rule. -/
@[simp] theorem follows_bind {program : Program Op Reply α} {rest : α → Program Op Reply β}
    {stage : d.Stage} {post : β → d.Stage → Prop} :
    (program >>= rest).Follows d stage post ↔
      program.Follows d stage fun value stage => (rest value).Follows d stage post := by
  induction program generalizing stage with
  | pure value => rfl
  | request op next ih => exact and_congr Iff.rfl (forall_congr' fun reply => ih reply)

/-- The consequence rule. -/
theorem Follows.mono {program : Program Op Reply α} {stage : d.Stage}
    {post weaker : α → d.Stage → Prop} (follows : program.Follows d stage post)
    (implies : ∀ value stage, post value stage → weaker value stage) :
    program.Follows d stage weaker := by
  induction program generalizing stage with
  | pure value => exact implies value stage follows
  | request op next ih => exact ⟨follows.1, fun reply => ih reply (follows.2 reply)⟩

/-- Among stages that permit everything and only lead to each other, every
program keeps to the order. -/
theorem follows_of_free (free : d.Stage → Prop)
    (permits : ∀ stage op, free stage → d.permits stage op)
    (kept : ∀ stage op reply, free stage → free (d.advance stage op reply))
    (program : Program Op Reply α) {stage : d.Stage} (start : free stage) :
    program.Follows d stage fun _ ended => free ended := by
  induction program generalizing stage with
  | pure value => exact start
  | request op next ih => exact ⟨permits stage op start, fun reply => ih reply (kept stage op reply start)⟩

/-- The race rule. What the program returns, it returns as without the race; what
the other comes to first may find it in any stage that permitted operations lead to. -/
theorem Follows.race {poll : Op} {won : Reply poll → Option β} {program : Program Op Reply α}
    {stage : d.Stage} {post : α → d.Stage → Prop} (dropped : β → d.Stage → Prop)
    (holds : d.Stage → Prop)
    (kept : ∀ stage op reply, d.permits stage op → holds stage → holds (d.advance stage op reply))
    (permits : ∀ stage, holds stage → d.permits stage poll)
    (waits : ∀ stage reply, holds stage → won reply = none → d.advance stage poll reply = stage)
    (wins : ∀ stage reply result, holds stage → won reply = some result →
      dropped result (d.advance stage poll reply))
    (start : holds stage) (follows : program.Follows d stage post) :
    (program.race poll won).Follows d stage fun result ended =>
      result.elim (post · ended) (dropped · ended) := by
  induction program generalizing stage with
  | pure value => exact follows
  | request op next ih =>
    rw [Program.race, follows_request]
    refine ⟨permits stage start, fun reply => ?_⟩
    cases decided : won reply with
    | some result => exact wins stage reply result start decided
    | none =>
      rw [waits stage reply start decided]
      exact ⟨follows.1, fun reply => ih reply (kept stage op reply follows.1 start) (follows.2 reply)⟩

/-- The race rule for a program that keeps to a stricter order, such as one that never makes
the poll itself. What the other comes to first finds what the program has kept. -/
theorem Follows.race_stricter {poll : Op} {won : Reply poll → Option β} {program : Program Op Reply α}
    {stage : d.Stage} {permits : d.Stage → Op → Prop} {post : α → d.Stage → Prop}
    (dropped : β → d.Stage → Prop) (holds : d.Stage → Prop)
    (kept : ∀ stage op reply, permits stage op → holds stage → holds (d.advance stage op reply))
    (permitted : ∀ stage op, permits stage op → d.permits stage op)
    (polls : ∀ stage, holds stage → d.permits stage poll)
    (waits : ∀ stage reply, won reply = none → d.advance stage poll reply = stage)
    (wins : ∀ stage reply result, holds stage → won reply = some result →
      dropped result (d.advance stage poll reply))
    (start : holds stage) (follows : program.Follows { d with permits } stage post) :
    (program.race poll won).Follows d stage fun result ended =>
      result.elim (post · ended) (dropped · ended) := by
  induction program generalizing stage with
  | pure value => exact follows
  | request op next ih =>
    rw [Program.race, follows_request]
    refine ⟨polls stage start, fun reply => ?_⟩
    cases decided : won reply with
    | some result => exact wins stage reply result start decided
    | none =>
      rw [waits stage reply decided]
      exact ⟨permitted stage op follows.1, fun reply =>
        ih reply (kept stage op reply follows.1 start) (follows.2 reply)⟩

/-- The embedding rule. What a program does in the terms of its own order, its
embedding does in the terms of an order that has a view of it. -/
theorem Follows.embed {Op' : Type} {Reply' : Op' → Type} {d' : Discipline Op' Reply'}
    (inject : Op → Op') (answer : ∀ op, Reply' (inject op) → Reply op) (view : d.Stage → d'.Stage)
    (permits : ∀ stage op, d.permits stage op → d'.permits (view stage) (inject op))
    (advance : ∀ stage op reply, d'.advance (view stage) (inject op) reply =
      view (d.advance stage op (answer op reply)))
    {program : Program Op Reply α} {stage : d.Stage} {post : α → d.Stage → Prop}
    (follows : program.Follows d stage post) :
    (program.embed inject answer).Follows d' (view stage) fun value ended =>
      ∃ inner, ended = view inner ∧ post value inner := by
  induction program generalizing stage with
  | pure value => exact ⟨stage, rfl, follows⟩
  | request op next ih =>
    refine ⟨permits stage op follows.1, fun reply => ?_⟩
    rw [advance]
    exact ih _ (follows.2 _)

end Program

section

variable {Op : Type} {Reply : Op → Type}

/-- In this stage the operation is permitted and leaves the stage as it is. -/
def Discipline.QuietAt (d : Discipline Op Reply) (stage : d.Stage) (op : Op) : Prop :=
  d.permits stage op ∧ ∀ reply, d.advance stage op reply = stage

end

namespace Program

variable {Op : Type} {Reply : Op → Type} {α β : Type} {d : Discipline Op Reply} {stage : d.Stage}

/-- The program ends in the stage it began in. -/
def Keeps (d : Discipline Op Reply) (stage : d.Stage) (program : Program Op Reply α) : Prop :=
  program.Follows d stage fun _ ended => ended = stage

theorem Keeps.pure {value : α} : (Pure.pure value : Program Op Reply α).Keeps d stage := rfl

theorem Keeps.perform {op : Op} (quiet : d.QuietAt stage op) :
    (perform op : Program Op Reply (Reply op)).Keeps d stage := quiet

theorem Keeps.bind {program : Program Op Reply α} {rest : α → Program Op Reply β}
    (first : program.Keeps d stage) (then_ : ∀ value, (rest value).Keeps d stage) :
    (program >>= rest).Keeps d stage :=
  follows_bind.mpr (first.mono fun value _ same => same ▸ then_ value)

theorem Keeps.ite {condition : Prop} [Decidable condition] {yes no : Program Op Reply α}
    (left : condition → yes.Keeps d stage) (right : ¬ condition → no.Keeps d stage) :
    (if condition then yes else no).Keeps d stage := by
  split
  · exact left ‹_›
  · exact right ‹_›

/-- Wherever the program is begun, it keeps to the order. -/
def Anywhere (d : Discipline Op Reply) (program : Program Op Reply α) : Prop :=
  ∀ stage, program.Follows d stage fun _ _ => True

theorem Anywhere.pure {value : α} : (Pure.pure value : Program Op Reply α).Anywhere d :=
  fun _ => trivial

/-- An operation that is permitted in every stage. -/
theorem Anywhere.perform {op : Op} (free : ∀ stage, d.permits stage op) :
    (perform op : Program Op Reply (Reply op)).Anywhere d :=
  fun stage => follows_perform.mpr ⟨free stage, fun _ => trivial⟩

/-- What keeps to the order wherever it is begun can stand behind anything. -/
theorem Follows.bind_anywhere {program : Program Op Reply α} {rest : α → Program Op Reply β}
    (first : program.Follows d stage fun _ _ => True) (then_ : ∀ value, (rest value).Anywhere d) :
    (program >>= rest).Follows d stage fun _ _ => True :=
  follows_bind.mpr (first.mono fun value ended _ => then_ value ended)

theorem Anywhere.bind {program : Program Op Reply α} {rest : α → Program Op Reply β}
    (first : program.Anywhere d) (then_ : ∀ value, (rest value).Anywhere d) :
    (program >>= rest).Anywhere d :=
  fun stage => (first stage).bind_anywhere then_

theorem Anywhere.ite {condition : Prop} [Decidable condition] {yes no : Program Op Reply α}
    (left : condition → yes.Anywhere d) (right : ¬ condition → no.Anywhere d) :
    (if condition then yes else no).Anywhere d := by
  split
  · exact left ‹_›
  · exact right ‹_›

/-- What is embedded keeps the stage where each of its operations does. -/
theorem Keeps.embed {Op' : Type} {Reply' : Op' → Type} {d' : Discipline Op' Reply'} {stage' : d'.Stage}
    {inject : Op → Op'} {answer : ∀ op, Reply' (inject op) → Reply op}
    (quiet : ∀ op, d'.QuietAt stage' (inject op)) (program : Program Op Reply α) :
    (program.embed inject answer).Keeps d' stage' := by
  induction program with
  | pure value => rfl
  | request op next ih =>
    refine ⟨(quiet op).1, fun reply => ?_⟩
    rw [(quiet op).2 reply]
    exact ih _

/-- The timer rule. A program that keeps to the order still does when it may be
dropped before any of its operations; what it returns, it returns as before. -/
theorem Follows.timeout {timer : Op} {elapsed : Reply timer → Bool} {program : Program Op Reply α}
    {post : α → d.Stage → Prop} (quiet : ∀ stage, d.QuietAt stage timer)
    (follows : program.Follows d stage post) :
    (program.timeout timer elapsed).Follows d stage fun result stage =>
      ∀ value, result = some value → post value stage := by
  induction program generalizing stage with
  | pure value =>
    rintro value ⟨⟩
    exact follows
  | request op next ih =>
    refine ⟨(quiet stage).1, fun reply => ?_⟩
    rw [(quiet stage).2 reply]
    dsimp only
    split
    · rintro value ⟨⟩
    · exact ⟨follows.1, fun reply => ih reply (follows.2 reply)⟩

/-- A timer that may still run drops nothing, so the program had kept to the order. -/
theorem Follows.of_timeout {timer : Op} {elapsed : Reply timer → Bool} {program : Program Op Reply α}
    {post : α → d.Stage → Prop} {reply : Reply timer} (running : elapsed reply = false)
    (quiet : ∀ stage, d.QuietAt stage timer)
    (follows : (program.timeout timer elapsed).Follows d stage fun result stage =>
      ∀ value, result = some value → post value stage) :
    program.Follows d stage post := by
  induction program generalizing stage with
  | pure value => exact follows value rfl
  | request op next ih =>
    have rest := follows.2 reply
    rw [(quiet stage).2 reply] at rest
    dsimp only at rest
    rw [if_neg (by simp [running])] at rest
    exact ⟨rest.1, fun reply => ih reply (rest.2 reply)⟩

/-- A program that keeps the stage can be stepped over. -/
theorem Keeps.follows {program : Program Op Reply α} {post : α → d.Stage → Prop}
    (keeps : program.Keeps d stage) (holds : ∀ value, post value stage) :
    program.Follows d stage post :=
  keeps.mono fun value _ same => same ▸ holds value

end Program

/-! ## What a program has done -/

/-- The stage that a log of operations and replies leads to. -/
def Discipline.after {Op : Type} {Reply : Op → Type} (d : Discipline Op Reply) (stage : d.Stage)
    (log : List ((op : Op) × Reply op)) : d.Stage :=
  log.foldl (fun stage done => d.advance stage done.1 done.2) stage

namespace Program

variable {Op : Type} {Reply : Op → Type} {α β : Type}

/-- The program has made these requests, with these replies, and has this rest
to do. -/
inductive Performs : Program Op Reply α → List ((op : Op) × Reply op) → Program Op Reply α → Prop where
  | start {program : Program Op Reply α} : Performs program [] program
  | request {op : Op} {next : Reply op → Program Op Reply α} {reply : Reply op}
      {log : List ((op : Op) × Reply op)} {rest : Program Op Reply α}
      (performs : Performs (next reply) log rest) :
      Performs (.request op next) (⟨op, reply⟩ :: log) rest

/-- The program with its first requests answered this way, one after the other:
what it has done then, and what is left. -/
def answered : Program Op Reply α → List ((op : Op) → Reply op) →
    List ((op : Op) × Reply op) × Program Op Reply α
  | .pure value, _ => ([], .pure value)
  | .request op next, [] => ([], .request op next)
  | .request op next, answer :: answers =>
    let (log, rest) := (next (answer op)).answered answers
    (⟨op, answer op⟩ :: log, rest)

theorem performs_answered (program : Program Op Reply α) (answers : List ((op : Op) → Reply op)) :
    program.Performs (program.answered answers).1 (program.answered answers).2 := by
  induction program generalizing answers with
  | pure value => exact .start
  | request op next ih =>
    cases answers with
    | nil => exact .start
    | cons answer answers => exact .request (ih (answer op) answers)

/-- What a program returns, if it has nothing left to do. -/
def value? : Program Op Reply α → Option α
  | .pure value => some value
  | .request _ _ => none

/-- A program that is answered until it returns. -/
theorem performs_returns {program : Program Op Reply α} {answers : List ((op : Op) → Reply op)} {value : α}
    (returned : (program.answered answers).2.value? = some value) :
    program.Performs (program.answered answers).1 (.pure value) := by
  have performs := performs_answered program answers
  generalize (program.answered answers).2 = rest at returned performs
  cases rest with
  | pure found =>
    cases returned
    exact performs
  | request => cases returned

/-- An operation that is found in the log stands behind what was done before it. -/
theorem performs_found {γ : Type} {view : ((op : Op) × Reply op) → Option γ} {seen : γ}
    {done : (op : Op) × Reply op} (only : ∀ other, view other = some seen → other = done)
    {program : Program Op Reply α} {answers : List ((op : Op) → Reply op)} {place : Nat}
    (found : ((program.answered answers).1[place]?.bind view) = some seen) :
    program.Performs ((program.answered answers).1.take place ++
      done :: (program.answered answers).1.drop (place + 1)) (program.answered answers).2 := by
  obtain ⟨other, there, sees⟩ := Option.bind_eq_some_iff.mp found
  obtain ⟨inside, same⟩ := List.getElem?_eq_some_iff.mp there
  have performs := performs_answered program answers
  rw [← List.take_append_drop place (program.answered answers).1, List.drop_eq_getElem_cons inside,
    same, only other sees] at performs
  exact performs

/-- A program goes on with the request it is waiting on. -/
theorem Performs.concat {program : Program Op Reply α} {log : List ((op : Op) × Reply op)} {op : Op}
    {next : Reply op → Program Op Reply α} (performs : program.Performs log (.request op next))
    (reply : Reply op) : program.Performs (log ++ [⟨op, reply⟩]) (next reply) := by
  generalize waiting : Program.request op next = rest at performs
  induction performs with
  | start =>
    subst waiting
    exact .request .start
  | request _ ih => exact .request (ih waiting)

/-- What comes first in the log, the program has done before the rest of it. -/
theorem Performs.front {program rest : Program Op Reply α} {early late : List ((op : Op) × Reply op)}
    (performs : program.Performs (early ++ late) rest) : ∃ mid, program.Performs early mid := by
  induction early generalizing program with
  | nil => exact ⟨program, .start⟩
  | cons done early ih =>
    cases performs with
    | request performs =>
      obtain ⟨mid, front⟩ := ih performs
      exact ⟨mid, .request front⟩

variable {d : Discipline Op Reply} {program rest : Program Op Reply α} {stage : d.Stage}
  {post : α → d.Stage → Prop} {log : List ((op : Op) × Reply op)}

/-- What a program is still to do keeps to the order from where it has got to. -/
theorem Follows.performs (follows : program.Follows d stage post) (performs : program.Performs log rest) :
    rest.Follows d (d.after stage log) post := by
  induction performs generalizing stage with
  | start => exact follows
  | request _ ih => exact ih (follows.2 _)

/-- Every operation that it has performed was permitted. -/
theorem Follows.permits_of_performs {op : Op} {reply : Reply op} {late : List ((op : Op) × Reply op)}
    (follows : program.Follows d stage post)
    (performs : program.Performs (log ++ ⟨op, reply⟩ :: late) rest) :
    d.permits (d.after stage log) op := by
  induction log generalizing program stage with
  | nil =>
    cases performs with
    | request => exact follows.1
  | cons done log ih =>
    cases performs with
    | request performs => exact ih (follows.2 _) performs

/-- What every permitted operation keeps holds wherever the program has got to. -/
theorem Follows.invariant (holds : d.Stage → Prop)
    (kept : ∀ stage op reply, d.permits stage op → holds stage → holds (d.advance stage op reply))
    (start : holds stage) (follows : program.Follows d stage post)
    (performs : program.Performs log rest) : holds (d.after stage log) := by
  induction performs generalizing stage with
  | start => exact start
  | request _ ih => exact ih (kept _ _ _ follows.1 start) (follows.2 _)

/-- What ties a log to a stage, and is kept by every permitted operation, ties all that the
program has done to the stage it has got to. -/
theorem Follows.relates (holds : List ((op : Op) × Reply op) → d.Stage → Prop)
    (kept : ∀ done stage op reply, d.permits stage op → holds done stage →
      holds (done ++ [⟨op, reply⟩]) (d.advance stage op reply))
    {before : List ((op : Op) × Reply op)} (start : holds before stage)
    (follows : program.Follows d stage post) (performs : program.Performs log rest) :
    holds (before ++ log) (d.after stage log) := by
  induction performs generalizing stage before with
  | start => rwa [List.append_nil]
  | @request op next reply log rest _ ih =>
    have done := ih (kept before stage op reply follows.1 start) (follows.2 reply)
    rwa [List.append_assoc, List.singleton_append] at done

/-- In stages that nothing changes, every operation performed was permitted there. -/
theorem Follows.permits_of_mem (still : ∀ stage op reply, d.advance stage op reply = stage)
    (follows : program.Follows d stage post) (performs : program.Performs log rest)
    {done : (op : Op) × Reply op} (member : done ∈ log) : d.permits stage done.1 := by
  induction performs with
  | start => cases member
  | request _ ih =>
    rcases List.mem_cons.mp member with rfl | later
    · exact follows.1
    · exact ih (still stage _ _ ▸ follows.2 _) later

end Program

/-! ## Programs that may fail -/

/-- An order that permits no operation but those that leave the stage as it is. -/
def Discipline.quietly {Op : Type} {Reply : Op → Type} (d : Discipline Op Reply) :
    Discipline Op Reply :=
  { d with permits := d.QuietAt }

namespace Program

variable {Op : Type} {Reply : Op → Type} {α β ε : Type} {d : Discipline Op Reply}

/-- What keeps to the order quietly keeps to it. -/
theorem Follows.of_quietly {program : Program Op Reply α} {stage : d.Stage} {post : α → d.Stage → Prop}
    (follows : program.Follows d.quietly stage post) : program.Follows d stage post := by
  induction program generalizing stage with
  | pure value => exact follows
  | request op next ih => exact ⟨follows.1.1, fun reply => ih reply (follows.2 reply)⟩

/-- Every result of the program has a property, whatever it is answered. -/
def Returns : Program Op Reply α → (α → Prop) → Prop
  | .pure value, post => post value
  | .request _ next, post => ∀ reply, (next reply).Returns post

theorem returns_bind {program : Program Op Reply α} {rest : α → Program Op Reply β} {post : β → Prop} :
    (program >>= rest).Returns post ↔ program.Returns fun value => (rest value).Returns post := by
  induction program with
  | pure value => rfl
  | request op next ih => exact forall_congr' fun reply => ih reply

theorem Returns.mono {program : Program Op Reply α} {post weaker : α → Prop}
    (returns : program.Returns post) (implies : ∀ value, post value → weaker value) :
    program.Returns weaker := by
  induction program with
  | pure value => exact implies value returns
  | request op next ih => exact fun reply => ih reply (returns reply)

theorem returns_of_forall {program : Program Op Reply α} {post : α → Prop} (all : ∀ value, post value) :
    program.Returns post := by
  induction program with
  | pure value => exact all value
  | request op next ih => exact ih

/-- A program that a timer drops returns as before, if it returns. -/
theorem Returns.timeout {timer : Op} {elapsed : Reply timer → Bool} {program : Program Op Reply α}
    {post : α → Prop} (returns : program.Returns post) :
    (program.timeout timer elapsed).Returns fun result => ∀ value, result = some value → post value := by
  induction program with
  | pure value =>
    rintro value ⟨⟩
    exact returns
  | request op next ih =>
    intro reply
    dsimp only
    split
    · rintro value ⟨⟩
    · exact fun reply => ih reply (returns reply)

/-- What is known of every result is known where the program keeps to an order. -/
theorem Follows.and_returns {program : Program Op Reply α} {stage : d.Stage} {post : α → d.Stage → Prop}
    {known : α → Prop} (follows : program.Follows d stage post) (returns : program.Returns known) :
    program.Follows d stage fun value ended => post value ended ∧ known value := by
  induction program generalizing stage with
  | pure value => exact ⟨follows, returns⟩
  | request op next ih => exact ⟨follows.1, fun reply => ih reply (follows.2 reply) (returns reply)⟩

/-- Sequencing a program that may fail. A failure ends the whole. -/
theorem follows_except_bind {program : ExceptT ε (Program Op Reply) α}
    {rest : α → ExceptT ε (Program Op Reply) β} {stage : d.Stage}
    {post : Except ε β → d.Stage → Prop} :
    (program >>= rest).run.Follows d stage post ↔
      program.run.Follows d stage fun result ended =>
        match result with
        | .ok value => (rest value).run.Follows d ended post
        | .error fault => post (.error fault) ended := by
  change (program.run >>= _).Follows d stage post ↔ _
  rw [follows_bind]
  constructor
  · refine fun follows => follows.mono fun result ended holds => ?_
    cases result <;> exact holds
  · refine fun follows => follows.mono fun result ended holds => ?_
    cases result <;> exact holds

theorem returns_except_bind {program : ExceptT ε (Program Op Reply) α}
    {rest : α → ExceptT ε (Program Op Reply) β} {post : Except ε β → Prop} :
    (program >>= rest).run.Returns post ↔
      program.run.Returns fun result =>
        match result with
        | .ok value => (rest value).run.Returns post
        | .error fault => post (.error fault) := by
  change (program.run >>= _).Returns post ↔ _
  rw [returns_bind]
  constructor
  · refine fun returns => returns.mono fun result holds => ?_
    cases result <;> exact holds
  · refine fun returns => returns.mono fun result holds => ?_
    cases result <;> exact holds

/-- The program keeps to the order, and what it succeeds with has a property. -/
def Yields (d : Discipline Op Reply) (stage : d.Stage) (program : ExceptT ε (Program Op Reply) α)
    (post : α → d.Stage → Prop) : Prop :=
  program.run.Follows d stage fun result ended => ∀ value, result = .ok value → post value ended

namespace Yields

variable {stage : d.Stage} {post : α → d.Stage → Prop}

theorem pure {value : α} (holds : post value stage) :
    Yields d stage (Pure.pure value : ExceptT ε (Program Op Reply) α) post := by
  rintro _ ⟨⟩
  exact holds

theorem throw {fault : ε} : Yields d stage (throw fault : ExceptT ε (Program Op Reply) α) post :=
  fun _ failed => nomatch failed

theorem perform {op : Op} {post : Reply op → d.Stage → Prop} (permitted : d.permits stage op)
    (holds : ∀ reply, post reply (d.advance stage op reply)) :
    Yields d stage (ExceptT.lift (Program.perform op) : ExceptT ε (Program Op Reply) (Reply op)) post := by
  refine ⟨permitted, fun reply => ?_⟩
  rintro _ ⟨⟩
  exact holds reply

/-- A program that cannot fail. -/
theorem lift {program : Program Op Reply α} (follows : program.Follows d stage post) :
    Yields d stage (ExceptT.lift program : ExceptT ε (Program Op Reply) α) post := by
  change (Except.ok <$> program).Follows d stage _
  rw [map_eq_pure_bind, follows_bind]
  refine follows.mono fun value ended holds => ?_
  rintro _ ⟨⟩
  exact holds

/-- Sequencing goes on with what the first part succeeds with. -/
theorem bind {program : ExceptT ε (Program Op Reply) α} {rest : α → ExceptT ε (Program Op Reply) β}
    {post' : β → d.Stage → Prop} (first : Yields d stage program post)
    (then_ : ∀ value ended, post value ended → Yields d ended (rest value) post') :
    Yields d stage (program >>= rest) post' := by
  refine follows_except_bind.mpr (Follows.mono first fun result ended holds => ?_)
  cases result with
  | ok value => exact then_ value ended (holds value rfl)
  | error fault => exact nofun

theorem mono {program : ExceptT ε (Program Op Reply) α} {weaker : α → d.Stage → Prop}
    (yields : Yields d stage program post) (implies : ∀ value ended, post value ended → weaker value ended) :
    Yields d stage program weaker :=
  Follows.mono yields fun _ _ holds value same => implies value _ (holds value same)

/-- What is known of every result is known of what it succeeds with. -/
theorem and_returns {program : ExceptT ε (Program Op Reply) α} {known : α → Prop}
    (yields : Yields d stage program post)
    (returns : program.run.Returns fun result => ∀ value, result = .ok value → known value) :
    Yields d stage program fun value ended => post value ended ∧ known value :=
  (Follows.and_returns yields returns).mono fun _ _ facts value same =>
    ⟨facts.1 value same, facts.2 value same⟩

end Yields

/-- From a calm stage on, a program that may fail keeps to the order, and leaves a
calm stage unless it fails. -/
def Settles (d : Discipline Op Reply) (calm : d.Stage → Prop)
    (program : ExceptT ε (Program Op Reply) α) : Prop :=
  ∀ stage, calm stage → Yields d stage program fun _ ended => calm ended

namespace Settles

variable {calm : d.Stage → Prop}

theorem pure {value : α} :
    Settles d calm (Pure.pure value : ExceptT ε (Program Op Reply) α) :=
  fun _ held => .pure held

theorem throw {fault : ε} : Settles d calm (throw fault : ExceptT ε (Program Op Reply) α) :=
  fun _ _ => .throw

/-- An outcome that is known already. -/
theorem known {outcome : Except ε α} :
    Settles d calm (ExceptT.mk (Pure.pure outcome) : ExceptT ε (Program Op Reply) α) :=
  fun _ held _ _ => held

theorem bind {program : ExceptT ε (Program Op Reply) α} {rest : α → ExceptT ε (Program Op Reply) β}
    (first : Settles d calm program) (then_ : ∀ value, Settles d calm (rest value)) :
    Settles d calm (program >>= rest) :=
  fun stage held => (first stage held).bind fun value ended calms => then_ value ended calms

theorem perform {op : Op}
    (quiet : ∀ stage, calm stage → d.permits stage op ∧ ∀ reply, calm (d.advance stage op reply)) :
    Settles d calm (ExceptT.lift (Program.perform op) : ExceptT ε (Program Op Reply) (Reply op)) :=
  fun stage held => .perform (quiet stage held).1 (quiet stage held).2

end Settles

end Program

/-! ## Whole runs -/

namespace Program

variable {Op : Type} {Reply : Op → Type} {α β ε : Type}

@[simp] theorem performs_pure_iff {value result : α} {log : List ((op : Op) × Reply op)} :
    (Pure.pure value : Program Op Reply α).Performs log (.pure result) ↔ log = [] ∧ value = result := by
  constructor
  · intro performs
    cases performs
    exact ⟨rfl, rfl⟩
  · rintro ⟨rfl, rfl⟩
    exact .start

theorem performs_request_iff {op : Op} {next : Reply op → Program Op Reply α} {result : α}
    {log : List ((op : Op) × Reply op)} :
    (Program.request op next).Performs log (.pure result) ↔
      ∃ reply rest, (next reply).Performs rest (.pure result) ∧ log = ⟨op, reply⟩ :: rest := by
  constructor
  · intro performs
    cases performs with
    | request performs => exact ⟨_, _, performs, rfl⟩
  · rintro ⟨reply, rest, performs, rfl⟩
    exact .request performs

/-- A sequence has run when its parts have, one after the other. -/
theorem performs_bind_iff {program : Program Op Reply α} {rest : α → Program Op Reply β} {result : β}
    {log : List ((op : Op) × Reply op)} :
    (program >>= rest).Performs log (.pure result) ↔ ∃ value early late,
      program.Performs early (.pure value) ∧ (rest value).Performs late (.pure result) ∧
        log = early ++ late := by
  induction program generalizing log with
  | pure value =>
    constructor
    · exact fun performs => ⟨value, [], log, .start, performs, rfl⟩
    · rintro ⟨_, _, late, first, performs, rfl⟩
      cases first
      exact performs
  | request op next ih =>
    rw [request_bind, performs_request_iff]
    constructor
    · rintro ⟨reply, log, performs, rfl⟩
      obtain ⟨value, early, late, first, second, rfl⟩ := ih reply |>.mp performs
      exact ⟨value, ⟨op, reply⟩ :: early, late, .request first, second, rfl⟩
    · rintro ⟨value, early, late, first, second, rfl⟩
      obtain ⟨reply, later, performs, rfl⟩ := performs_request_iff.mp first
      exact ⟨reply, later ++ late, ih reply |>.mpr ⟨value, later, late, performs, second, rfl⟩, rfl⟩

/-- What has been embedded has run as it does by itself. -/
theorem performs_embed_iff {Op' : Type} {Reply' : Op' → Type} {inject : Op → Op'}
    {answer : ∀ op, Reply' (inject op) → Reply op} {program : Program Op Reply α} {result : α}
    {log : List ((op : Op') × Reply' op)} :
    (program.embed inject answer).Performs log (.pure result) ↔
      ∃ inner : List ((op : Op) × Reply' (inject op)),
        program.Performs (inner.map fun done => ⟨done.1, answer done.1 done.2⟩) (.pure result) ∧
          log = inner.map fun done => ⟨inject done.1, done.2⟩ := by
  induction program generalizing log with
  | pure value =>
    constructor
    · intro performs
      cases performs
      exact ⟨[], .start, rfl⟩
    · rintro ⟨inner, performs, rfl⟩
      obtain ⟨empty, rfl⟩ := performs_pure_iff.mp performs
      obtain rfl := List.map_eq_nil_iff.mp empty
      exact .start
  | request op next ih =>
    constructor
    · intro performs
      obtain ⟨reply, rest, later, rfl⟩ := performs_request_iff.mp performs
      obtain ⟨inner, alone, rfl⟩ := (ih _).mp later
      exact ⟨⟨op, reply⟩ :: inner, .request alone, rfl⟩
    · rintro ⟨inner, performs, rfl⟩
      cases inner with
      | nil => cases performs
      | cons done inner =>
        cases performs with
        | request performs => exact .request ((ih _).mpr ⟨inner, performs, rfl⟩)

/-- The program has come to its end, with this result. -/
def Completes (program : ExceptT ε (Program Op Reply) α) (log : List ((op : Op) × Reply op)) (result : α) :
    Prop := program.run.Performs log (.pure (.ok result))

variable {result : α} {log : List ((op : Op) × Reply op)}

@[simp] theorem completes_pure {value : α} :
    Completes (Pure.pure value : ExceptT ε (Program Op Reply) α) log result ↔ log = [] ∧ value = result := by
  refine performs_pure_iff.trans (and_congr_right fun _ => ?_)
  exact ⟨Except.ok.inj, congrArg _⟩

@[simp] theorem completes_throw {fault : ε} :
    ¬ Completes (throw fault : ExceptT ε (Program Op Reply) α) log result := by
  intro completes
  cases completes

@[simp] theorem completes_perform {op : Op} {reply : Reply op} :
    Completes (ExceptT.lift (perform op) : ExceptT ε (Program Op Reply) (Reply op)) log reply ↔
      log = [⟨op, reply⟩] := by
  constructor
  · intro completes
    obtain ⟨_, rest, performs, rfl⟩ := performs_request_iff.mp completes
    cases performs
    rfl
  · rintro rfl
    exact .request .start

@[simp] theorem completes_lift {program : Program Op Reply α} :
    Completes (ExceptT.lift program : ExceptT ε (Program Op Reply) α) log result ↔
      program.Performs log (.pure result) := by
  change (Except.ok <$> program).Performs log _ ↔ _
  rw [map_eq_pure_bind, performs_bind_iff]
  constructor
  · rintro ⟨value, early, late, first, second, rfl⟩
    obtain ⟨rfl, same⟩ := performs_pure_iff.mp second
    cases same
    rwa [List.append_nil]
  · exact fun performs => ⟨result, log, [], performs, performs_pure_iff.mpr ⟨rfl, rfl⟩, by simp⟩

/-- An outcome that is known already. -/
@[simp] theorem completes_known {outcome : Except ε α} :
    Completes (ExceptT.mk (Pure.pure outcome) : ExceptT ε (Program Op Reply) α) log result ↔
      log = [] ∧ outcome = .ok result := performs_pure_iff

theorem completes_bind {program : ExceptT ε (Program Op Reply) α}
    {rest : α → ExceptT ε (Program Op Reply) β} {result : β} :
    Completes (program >>= rest) log result ↔ ∃ value early late,
      Completes program early value ∧ Completes (rest value) late result ∧ log = early ++ late := by
  refine performs_bind_iff.trans ?_
  constructor
  · rintro ⟨value | value, early, late, first, second, rfl⟩
    · cases second
    · exact ⟨value, early, late, first, second, rfl⟩
  · rintro ⟨value, early, late, first, second, rfl⟩
    exact ⟨.ok value, early, late, first, second, rfl⟩

end Program

end Tasks
