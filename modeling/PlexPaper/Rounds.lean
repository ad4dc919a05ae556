import Mathlib.Tactic.Common

/-! A loop that has no bound of its own. A round gives the result of the loop or the
state of the next round; a loop that is cut after so many rounds has no result when it
is still going. -/
namespace Rounds

variable {σ ρ : Type} {round : σ → ρ ⊕ σ} {first state next : σ}

def run (round : σ → ρ ⊕ σ) : (count : Nat) → σ → Option ρ
  | 0, _ => none
  | count + 1, state =>
    match round state with
    | .inl result => some result
    | .inr next => run round count next

/-- Does the loop come to an end? -/
def Ends (round : σ → ρ ⊕ σ) (state : σ) : Prop := ∃ count result, run round count state = some result

/-- The states at the start of each round. -/
inductive Comes (round : σ → ρ ⊕ σ) (first : σ) : σ → Prop where
  | first : Comes round first first
  | next {state next : σ} : Comes round first state → round state = .inr next →
      Comes round first next

theorem run_inl {result : ρ} (count : Nat) (ends : round state = .inl result) :
    run round (count + 1) state = some result := by
  simp [run, ends]

theorem run_inr (count : Nat) (goesOn : round state = .inr next) :
    run round (count + 1) state = run round count next := by
  simp [run, goesOn]

theorem ends_iff (goesOn : round state = .inr next) : Ends round state ↔ Ends round next := by
  constructor
  · rintro ⟨count, result, ran⟩
    cases count with
    | zero => cases ran
    | succ count => exact ⟨count, result, by rwa [run_inr count goesOn] at ran⟩
  · rintro ⟨count, result, ran⟩
    exact ⟨count + 1, result, by rwa [run_inr count goesOn]⟩

theorem Comes.ends_iff (comes : Comes round first state) : Ends round first ↔ Ends round state := by
  induction comes with
  | first => exact Iff.rfl
  | next _ goesOn ih => exact ih.trans (Rounds.ends_iff goesOn)

/-- A state that follows itself is never left. -/
theorem not_ends_of_self (again : round state = .inr state) : ¬ Ends round state := by
  rintro ⟨count, result, ran⟩
  induction count with
  | zero => cases ran
  | succ count ih => exact ih (by rwa [run_inr count again] at ran)

/-- The invariant rule. -/
theorem Comes.holds {Inv : σ → Prop} (start : Inv first)
    (kept : ∀ state next, Inv state → round state = .inr next → Inv next)
    (comes : Comes round first state) : Inv state := by
  induction comes with
  | first => exact start
  | next _ goesOn ih => exact kept _ _ ih goesOn

/-- The result comes out of the last round. -/
theorem comes_of_run {count : Nat} {result : ρ} (ran : run round count state = some result) :
    ∃ last, Comes round state last ∧ round last = .inl result := by
  suffices ∀ first, Comes round first state → ∃ last, Comes round first last ∧
      round last = .inl result from this state .first
  intro first comes
  induction count generalizing state with
  | zero => cases ran
  | succ count ih =>
    rcases step : round state with ended | next
    · rw [run_inl count step] at ran
      cases ran
      exact ⟨state, comes, step⟩
    · rw [run_inr count step] at ran
      exact ih ran (comes.next step)

/-- A loop ends whose rounds keep an invariant and lower a measure. -/
theorem ends_of_lower {Inv : σ → Prop} (measure : σ → Nat)
    (lower : ∀ state next, Inv state → round state = .inr next →
      Inv next ∧ measure next < measure state) (start : Inv first) : Ends round first := by
  suffices ∀ bound state, Inv state → measure state < bound → Ends round state from
    this _ first start (Nat.lt_succ_self _)
  intro bound
  induction bound with
  | zero => intro state _ small; omega
  | succ bound ih =>
    intro state holds small
    rcases step : round state with result | next
    · exact ⟨1, result, run_inl 0 step⟩
    · obtain ⟨kept, fewer⟩ := lower state next holds step
      exact (ends_iff step).mpr (ih next kept (by omega))

end Rounds
