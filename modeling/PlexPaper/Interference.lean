import PlexPaper.TaskPool

/-! One task whose state others may change between any two of its operations. What is
asserted before an operation has to survive what others do, and what is asserted behind it
has to follow from that, whatever the operation leads to. `Reaches.secures` carries a proof
about the program to every pool that is reached from the task alone. -/
namespace Tasks

/-- What a program runs among: the steps that others may take at any moment, what an
operation may lead to, and what has to hold whenever the program is about to make one. -/
structure Interference (Op : Type) (Reply : Op → Type) (State : Type) where
  others : State → State → Prop
  takes : State → (op : Op) → Reply op → State → Prop
  demands : State → Op → Prop

variable {Op : Type} {Reply : Op → Type} {State α β : Type}

/-- Others leave it standing. -/
def Interference.Stable (env : Interference Op Reply State) (asserted : State → Prop) : Prop :=
  ∀ before after, env.others before after → asserted before → asserted after

/-- The order of a program that makes no other operations than these. -/
abbrev only {Op : Type} {Reply : Op → Type} (allowed : Op → Prop) : Discipline Op Reply where
  Stage := Unit
  advance _ _ _ := ()
  permits _ := allowed

namespace Program

theorem keeps_perform_only {allowed : Op → Prop} {op : Op} (permitted : allowed op) :
    (Program.perform op : Program Op Reply (Reply op)).Keeps (only allowed) () :=
  .perform ⟨permitted, fun _ => rfl⟩

theorem keeps_only_mono {program : Program Op Reply α} {allowed more : Op → Prop}
    (within : program.Keeps (only allowed) ()) (implies : ∀ op, allowed op → more op) :
    program.Keeps (only more) () := by
  induction program with
  | pure value => rfl
  | request op next ih => exact ⟨implies op within.1, fun reply => ih reply (within.2 reply)⟩

variable (env : Interference Op Reply State)

/-- From this state on the demands are met, whatever others do, and what the program
returns satisfies `post`. -/
def Secures : Program Op Reply α → State → (α → State → Prop) → Prop
  | .pure value, state, post => post value state
  | .request op next, state, post => ∀ now, Relation.ReflTransGen env.others state now →
      env.demands now op ∧ ∀ reply after, env.takes now op reply after → (next reply).Secures after post

/-- The same from every state of which something is asserted. -/
def Upholds (pre : State → Prop) (program : Program Op Reply α) (post : α → State → Prop) : Prop :=
  ∀ state, pre state → program.Secures env state post

variable {env}

theorem Secures.mono {program : Program Op Reply α} {state : State} {post weaker : α → State → Prop}
    (secures : program.Secures env state post)
    (implies : ∀ value state, post value state → weaker value state) :
    program.Secures env state weaker := by
  induction program generalizing state with
  | pure value => exact implies value state secures
  | request op next ih =>
    intro now later
    obtain ⟨demanded, steps⟩ := secures now later
    exact ⟨demanded, fun reply after takes => ih reply (steps reply after takes)⟩

/-- Sequencing goes on where the first part returns. -/
theorem secures_bind {program : Program Op Reply α} {rest : α → Program Op Reply β} {state : State}
    {post : β → State → Prop} : (program >>= rest).Secures env state post ↔
      program.Secures env state fun value state => (rest value).Secures env state post := by
  induction program generalizing state with
  | pure value => rfl
  | request op next ih =>
    refine forall_congr' fun now => forall_congr' fun _ => and_congr_right fun _ => ?_
    exact forall_congr' fun reply => forall_congr' fun after => forall_congr' fun _ => ih reply

end Program

/-- What one step of others leaves standing, any number of them does. -/
theorem Interference.Stable.later {env : Interference Op Reply State} {asserted : State → Prop}
    (stable : env.Stable asserted) {before after : State}
    (later : Relation.ReflTransGen env.others before after) (holds : asserted before) :
    asserted after := by
  induction later with
  | refl => exact holds
  | tail _ step ih => exact stable _ _ step ih

theorem Interference.Stable.and {env : Interference Op Reply State} {left right : State → Prop}
    (first : env.Stable left) (second : env.Stable right) :
    env.Stable fun state => left state ∧ right state :=
  fun before after step holds => ⟨first before after step holds.1, second before after step holds.2⟩

namespace Program.Upholds

variable {env : Interference Op Reply State} {pre : State → Prop} {post : α → State → Prop}

theorem pure {value : α} (holds : ∀ state, pre state → post value state) :
    Upholds env pre (Pure.pure value : Program Op Reply α) post := holds

/-- One operation, asserted about before and behind. -/
theorem perform {op : Op} {post : Reply op → State → Prop} (stable : env.Stable pre)
    (demanded : ∀ state, pre state → env.demands state op)
    (steps : ∀ before reply after, pre before → env.takes before op reply after → post reply after) :
    Upholds env pre (Program.perform op) post := by
  intro state holds now later
  have holds := stable.later later holds
  exact ⟨demanded now holds, fun reply after takes => steps now reply after holds takes⟩

/-- An operation of which nothing is asserted. -/
theorem perform_any {op : Op} (demanded : ∀ state, env.demands state op) :
    Upholds env (fun _ => True) (Program.perform op) fun _ _ => True :=
  .perform (fun _ _ _ _ => trivial) (fun state _ => demanded state) fun _ _ _ _ _ => trivial

theorem bind {program : Program Op Reply α} {rest : α → Program Op Reply β}
    {post' : β → State → Prop} (first : Upholds env pre program post)
    (then_ : ∀ value, Upholds env (post value) (rest value) post') :
    Upholds env pre (program >>= rest) post' :=
  fun state holds => secures_bind.mpr ((first state holds).mono fun value state holds =>
    then_ value state holds)

theorem mono {program : Program Op Reply α} {stronger : State → Prop} {weaker : α → State → Prop}
    (ensures : Upholds env pre program post) (before : ∀ state, stronger state → pre state)
    (after : ∀ value state, post value state → weaker value state) :
    Upholds env stronger program weaker :=
  fun state holds => (ensures state (before state holds)).mono after

theorem ite {condition : Prop} [Decidable condition] {yes no : Program Op Reply α}
    (first : condition → Upholds env pre yes post) (second : ¬ condition → Upholds env pre no post) :
    Upholds env pre (if condition then yes else no) post := by
  split
  · exact first ‹_›
  · exact second ‹_›

/-- Two things that are ensured are ensured at once. -/
theorem and {program : Program Op Reply α} {pre' : State → Prop} {post' : α → State → Prop}
    (first : Upholds env pre program post) (second : Upholds env pre' program post') :
    Upholds env (fun state => pre state ∧ pre' state) program
      fun value state => post value state ∧ post' value state := by
  rintro state ⟨holds, holds'⟩
  replace first := first state holds
  replace second := second state holds'
  clear holds holds'
  induction program generalizing state with
  | pure value => exact ⟨first, second⟩
  | request op next ih =>
    intro now later
    obtain ⟨demanded, steps⟩ := first now later
    obtain ⟨-, steps'⟩ := second now later
    exact ⟨demanded, fun reply after takes =>
      ih reply after (steps reply after takes) (steps' reply after takes)⟩

/-- What others and every operation that may be made leave standing, the program does. -/
theorem keeps {program : Program Op Reply α} {allowed : Op → Prop} {asserted : State → Prop}
    (within : program.Keeps (only allowed) ()) (stable : env.Stable asserted)
    (demanded : ∀ state op, allowed op → asserted state → env.demands state op)
    (steps : ∀ before op reply after, allowed op → asserted before →
      env.takes before op reply after → asserted after) :
    Upholds env asserted program fun _ => asserted := by
  intro state holds
  induction program generalizing state with
  | pure value => exact holds
  | request op next ih =>
    intro now later
    have holds := stable.later later holds
    exact ⟨demanded now op within.1 holds, fun reply after takes =>
      ih reply (within.2 reply) after (steps now op reply after within.1 holds takes)⟩

end Program.Upholds

namespace System

variable {World Answer Entry Event : Type} {sys : System Op Reply World Answer Entry Event}
  {condition : Pool Op Reply World Entry → Move Answer Entry Event → Prop}

/-- A pool in which one task has just been entered. -/
def alone (sys : System Op Reply World Answer Entry Event) (entry : Entry) (world : World) :
    Pool Op Reply World Entry :=
  ⟨world, [sys.enter entry]⟩

/-- What a task has done, and the world it is in. -/
abbrev Situation (Op : Type) (Reply : Op → Type) (World : Type) : Type :=
  List ((op : Op) × Reply op) × World

/-- Where nothing else is called or spawned, the only task of a pool that is reached still
secures what its program does, if the moves are those that it reckons with. -/
theorem Reaches.secures_under {entry : Entry} {world : World} {pool : Pool Op Reply World Entry}
    {env : Interference Op Reply (Situation Op Reply World)}
    (start : (sys.body entry).Secures env ([], world) fun _ _ => True)
    (single : ∀ entry, sys.callable entry = false) (spawnless : ∀ op, sys.spawns op = [])
    (others : ∀ (task : Task Op Reply Entry) before event after, condition ⟨before, [task]⟩ (.outside event) →
      sys.outside before event = some after → env.others (task.log, before) (task.log, after))
    (takes : ∀ (task : Task Op Reply Entry) world answer op next reply after,
      task.rest = .request op next → condition ⟨world, [task]⟩ (.run 0 answer) →
      sys.execute world op answer = some (reply, after) →
      env.takes (task.log, world) op reply (task.log ++ [⟨op, reply⟩], after))
    (reached : sys.Reaches condition (sys.alone entry world) pool) :
    ∃ task, pool.tasks = [task] ∧ task.rest.Secures env (task.log, pool.world) fun _ _ => True := by
  induction reached with
  | refl => exact ⟨sys.enter entry, rfl, start⟩
  | @tail before after _ step ih =>
    obtain ⟨task, only, secures⟩ := ih
    obtain ⟨move, meets, stepped⟩ := step
    obtain ⟨world, tasks⟩ := before
    obtain rfl : tasks = [task] := only
    cases move with
    | call entry =>
      rw [System.step, if_neg (by simp [single])] at stepped
      cases stepped
    | outside event =>
      obtain ⟨changed, happens, rfl⟩ := Option.map_eq_some_iff.mp stepped
      refine ⟨task, rfl, ?_⟩
      have happened := others task world event changed meets happens
      revert secures
      cases task.rest with
      | pure value => exact fun _ => trivial
      | request op next => exact fun secures now later => secures now (.head happened later)
    | run index answer =>
      obtain ⟨runner, op, next, reply, changed, found, waiting, executed, rfl⟩ := step_run stepped
      obtain rfl : index = 0 := by
        have bound := (List.getElem?_eq_some_iff.mp found).1
        simpa using bound
      cases found
      have taken := takes task world answer op next reply changed waiting meets executed
      rw [waiting] at secures
      refine ⟨task.proceed op reply (next reply), by simp [spawnless], ?_⟩
      exact (secures _ .refl).2 reply _ taken

/-- The same where others may do whatever the system lets them. -/
theorem Reaches.secures {entry : Entry} {world : World} {pool : Pool Op Reply World Entry}
    {env : Interference Op Reply (Situation Op Reply World)}
    (single : ∀ entry, sys.callable entry = false) (spawnless : ∀ op, sys.spawns op = [])
    (others : ∀ log before event after, sys.outside before event = some after →
      env.others (log, before) (log, after))
    (takes : ∀ (task : Task Op Reply Entry) world answer op next reply after,
      task.rest = .request op next → condition ⟨world, [task]⟩ (.run 0 answer) →
      sys.execute world op answer = some (reply, after) →
      env.takes (task.log, world) op reply (task.log ++ [⟨op, reply⟩], after))
    (start : (sys.body entry).Secures env ([], world) fun _ _ => True)
    (reached : sys.Reaches condition (sys.alone entry world) pool) :
    ∃ task, pool.tasks = [task] ∧ task.rest.Secures env (task.log, pool.world) fun _ _ => True :=
  reached.secures_under start single spawnless
    (fun task before event after _ => others task.log before event after) takes

/-- So what it demands holds there. -/
theorem demands_of_secures {env : Interference Op Reply (Situation Op Reply World)}
    {task : Task Op Reply Entry} {world : World} {op : Op}
    (secures : task.rest.Secures env (task.log, world) fun _ _ => True)
    (waits : task.next? = some op) : env.demands (task.log, world) op := by
  unfold Task.next? at waits
  cases rest : task.rest with
  | pure value =>
    rw [rest] at waits
    cases waits
  | request first next =>
    rw [rest] at waits secures
    cases waits
    exact (secures _ .refl).1

end System

end Tasks
