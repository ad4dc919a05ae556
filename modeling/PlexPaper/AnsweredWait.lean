import PlexPaper.HeldClient

/-! What ends a wait. The receiver of the server is never marked, so a waiter may be answered by a
state that was published before it came. That is the only way to be answered by the past: what it
sees was on the channel or about to be sent when the wait began, or the server has come to it since. -/
namespace PlexPaper.Waiting
open Tasks

/-- What an update that is still to be sent will tell the waiters. -/
def Stage.announces : Stage → Option Bool
  | .serving (some new) => answer new
  | _ => none

/-- The server, the channel or a pending update is at a state with this answer. -/
def Around (through : Bool) (lounge : Lounge) : Prop :=
  answer lounge.world.proxy.server.state = some through ∨
  (lounge.world.proxy.server.version ≠ 0 ∧ answer lounge.world.proxy.server.published = some through) ∨
  ∃ stage ∈ waits.stages lounge, stage.announces = some through
  deriving Decidable

/-- The step takes the server to a state with this answer from one without it. -/
def TurnsTo (through : Bool) (before : Lounge) (_ : LoungeMove) (after : Lounge) : Prop :=
  answer before.world.proxy.server.state ≠ some through ∧
    answer after.world.proxy.server.state = some through

/-- How the wait of a task has ended, unless by its deadline. Nothing for a task that has not come
yet. -/
def verdictOf (index : Nat) (lounge : Lounge) : Option Bool := (waits.stages lounge)[index]?.bind Stage.verdict

private theorem getElem?_joined {α : Type} {present fresh : List α} {now : α} {index : Nat}
    (found : (present ++ fresh)[index]? = some now) : present[index]? = some now ∨ now ∈ fresh := by
  rw [List.getElem?_append] at found
  split at found
  · exact .inl found
  · exact .inr (List.mem_of_getElem? found)

private theorem getElem?_replaced {α : Type} {left right : List α} {new now : α} {index : Nat} (old : α)
    (found : (left ++ new :: right)[index]? = some now) :
    now = new ∨ (left ++ old :: right)[index]? = some now := by
  grind

variable {config : Config} {before after : Lounge} {move : LoungeMove} {index : Nat} {through : Bool}

private theorem enter_verdict (entry : Entry) : (waits.enter entry).verdict = none := by
  cases entry <;> rfl

/-- A step answers a waiter only with what the channel holds. -/
theorem verdictOf_step (reached : (waiting config).Reaches (fun _ _ => True) Lounge.boot before)
    (stepped : (waiting config).step before move = some after)
    (answered : verdictOf index after = some through) :
    verdictOf index before = some through ∨
    (before.world.proxy.server.version ≠ 0 ∧
      answer before.world.proxy.server.published = some through) := by
  obtain ⟨stage, found, ended⟩ := Option.bind_eq_some_iff.mp answered
  cases move with
  | call entry =>
    obtain ⟨-, same⟩ := Option.ite_none_right_eq_some.mp stepped
    cases same
    simp only [Protocol.stages, List.map_append] at found
    rcases getElem?_joined found with old | fresh
    · exact .inl (Option.bind_eq_some_iff.mpr ⟨stage, old, ended⟩)
    · obtain rfl := List.mem_singleton.mp fresh
      cases ended.symm.trans (enter_verdict entry)
  | outside event =>
    obtain ⟨world, acted, rfl⟩ := Option.map_eq_some_iff.mp stepped
    exact .inl answered
  | run other succeeds =>
    obtain ⟨task, op, reply, left, right, taken, -, permitted, executed, around, becomes⟩ :=
      Protocol.step_run (waiting_obeys config) reached stepped
    rw [becomes] at found
    rcases getElem?_joined found with present | spawned
    · rcases getElem?_replaced (waits.stage task) present with rfl | same
      · obtain ⟨seen, marked, answered⟩ := verdict_advance permitted executed ended
        have current := (watched reached).current _ (List.mem_map_of_mem (List.mem_of_getElem? taken))
        rw [marked] at current
        obtain ⟨positive, marked⟩ := current
        exact .inr ⟨by omega, answered⟩
      · exact .inl (Option.bind_eq_some_iff.mpr ⟨stage, around ▸ same, ended⟩)
    · obtain ⟨entry, -, rfl⟩ := List.mem_map.mp spawned
      cases ended.symm.trans (enter_verdict entry)

/-- As long as the server does not come to a state with the answer, no waiter is answered with it. -/
structure Unanswered (through : Bool) (index : Nat) (lounge : Lounge) : Prop where
  around : ¬ Around through lounge
  waiter : verdictOf index lounge ≠ some through

theorem unanswered_step (reached : (waiting config).Reaches (fun _ _ => True) Lounge.boot before)
    (unanswered : Unanswered through index before) (stepped : (waiting config).step before move = some after) :
    Unanswered through index after ∨ TurnsTo through before move after := by
  have around := unanswered.around
  simp only [Around, not_or, not_and, not_exists] at around
  obtain ⟨state, published, pending⟩ := around
  by_cases turned : answer after.world.proxy.server.state = some through
  · exact .inr ⟨state, turned⟩
  · obtain ⟨channel, sends⟩ := @channel_avoids config before after move (answer · = some through) reached
      (Classical.or_iff_not_imp_left.mpr published) (fun new => pending (.serving (some new))) stepped turned
    refine .inl ⟨?_, fun answered => ?_⟩
    · rintro (now | ⟨sent, now⟩ | ⟨stage, serves, now⟩)
      · exact turned now
      · exact channel.elim sent fun clear => clear now
      · cases stage with
        | serving update =>
          cases update with
          | some new => exact sends new serves now
          | none => cases now
        | _ => cases now
    · rcases verdictOf_step reached stepped answered with old | ⟨sent, now⟩
      · exact unanswered.waiter old
      · exact published sent now

/-- Whoever waits, and whenever it has come: from any state that can be reached on, it is let through
only for a start that was on the channel or about to be sent, or that the server has come to since; and
refused only for a stop of which the same is true. -/
theorem waiter_answered_for_cause {moves : List LoungeMove}
    (reached : (waiting config).Reaches (fun _ _ => True) Lounge.boot before)
    (unanswered : verdictOf index before ≠ some through)
    (played : (waiting config).play (fun _ _ => True) before moves = some after)
    (answered : verdictOf index after = some through) :
    Around through before ∨ (waiting config).Meets (TurnsTo through) before moves := by
  refine Classical.or_iff_not_imp_left.mpr fun clear => ?_
  rcases System.holds_or_meets (fun _ _ _ further held stepped =>
    unanswered_step (reached.trans further) held stepped) ⟨clear, unanswered⟩ played with still | meets
  · exact absurd answered still.waiter
  · exact meets

instance (through : Bool) (before : Lounge) (move : LoungeMove) (after : Lounge) :
    Decidable (TurnsTo through before move after) := inferInstanceAs (Decidable (_ ∧ _))

/-- Task 2 polls the server that the others wait for, and task 3 is a lobby client that comes only
then. -/
private def startedWhileWaiting : List LoungeMove :=
  [.call (.server (.monitor (.ok dummyStatus) (.ok ()))), .call (.lobby 9)] ++ runs 3 1 ++ runs 2 3 ++ runs 3 2

/-- A client is let through that has come while the server was starting. -/
theorem waiter_answered_for_cause_lobby : ∃ before after,
    (waiting {}).play (fun _ _ => True) Lounge.boot
      ([.call (.server .start)] ++ runs 0 5 ++ runs 1 2) = some before ∧
    (waiting {}).play (fun _ _ => True) before startedWhileWaiting = some after ∧
    verdictOf 3 after = some true ∧ (waiting {}).Meets (TurnsTo true) before startedWhileWaiting := by
  have shown : ((waiting {}).play (fun _ _ => True) Lounge.boot
      ([.call (.server .start)] ++ runs 0 5 ++ runs 1 2)).bind (fun before =>
        ((waiting {}).play (fun _ _ => True) before startedWhileWaiting).map fun after =>
          decide (¬ Around true before ∧ verdictOf 3 before ≠ some true ∧ verdictOf 3 after = some true)) =
      some true := by decide
  obtain ⟨before, played, shown⟩ := Option.bind_eq_some_iff.mp shown
  obtain ⟨after, continued, facts⟩ := Option.map_eq_some_iff.mp shown
  obtain ⟨clear, unanswered, answered⟩ := of_decide_eq_true facts
  exact ⟨before, after, played, continued, answered,
    (waiter_answered_for_cause (System.play_reaches played) unanswered continued answered).resolve_left clear⟩

end PlexPaper.Waiting
