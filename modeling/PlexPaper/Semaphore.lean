import Mathlib.Data.List.Basic
import Mathlib.Tactic.Common

/-! A semaphore among any number of parties, each in some stage. What is left of the permits
and the parties that hold one always make up the whole. With a single permit that is mutual
exclusion: next to a party that holds it, no other does. -/
namespace Semaphore

variable {Stage : Type} {holds : Stage → Bool}

/-- The permits left and those held are all there are. -/
def Balanced (holds : Stage → Bool) (total left : Nat) (stages : List Stage) : Prop :=
  left + stages.countP holds = total

variable {total left after : Nat} {front back stages : List Stage} {stage next : Stage}

/-- A party moves on, with as many permits as it had, or with one taken or given back. -/
theorem Balanced.moves (balanced : Balanced holds total left (front ++ stage :: back))
    (exchanged : after + (if holds next then 1 else 0) = left + (if holds stage then 1 else 0)) :
    Balanced holds total after (front ++ next :: back) := by
  unfold Balanced at balanced ⊢
  simp only [List.countP_append, List.countP_cons] at balanced ⊢
  omega

/-- A party that joins brings no permit. -/
theorem Balanced.joins (balanced : Balanced holds total left stages) {joined : List Stage}
    (without : ∀ stage ∈ joined, holds stage = false) :
    Balanced holds total left (stages ++ joined) := by
  have none : joined.countP holds = 0 :=
    List.countP_eq_zero.mpr fun stage member => by simp [without stage member]
  unfold Balanced at balanced ⊢
  rw [List.countP_append, none]
  exact balanced

/-- The only permit is held by nobody else. -/
theorem Balanced.others_free (balanced : Balanced holds 1 left (front ++ stage :: back))
    (held : holds stage) : ∀ other, other ∈ front ∨ other ∈ back → holds other = false := by
  unfold Balanced at balanced
  simp only [List.countP_append, List.countP_cons, held, ↓reduceIte] at balanced
  have noneFront : front.countP holds = 0 := by omega
  have noneBack : back.countP holds = 0 := by omega
  intro other member
  rcases member with member | member
  · exact Bool.eq_false_iff.mpr (List.countP_eq_zero.mp noneFront other member)
  · exact Bool.eq_false_iff.mpr (List.countP_eq_zero.mp noneBack other member)

/-- Two parties that hold the only permit are one. -/
theorem Balanced.same_holder (balanced : Balanced holds 1 left stages) {first second : Nat}
    {one other : Stage} (here : stages[first]? = some one) (there : stages[second]? = some other)
    (held : holds one) (also : holds other) : first = second := by
  have apart : ∀ {low high : Nat} {lower higher : Stage}, stages[low]? = some lower →
      stages[high]? = some higher → holds lower → holds higher → ¬ low < high := by
    intro low high lower higher below above holdsLower holdsHigher order
    obtain ⟨inside, rfl⟩ := List.getElem?_eq_some_iff.mp below
    have around : stages = stages.take low ++ stages[low] :: stages.drop (low + 1) := by
      rw [List.getElem_cons_drop, List.take_append_drop]
    have later : higher ∈ stages.drop (low + 1) := by
      apply List.mem_of_getElem?
      rw [List.getElem?_drop, Nat.add_sub_cancel' (Nat.succ_le_of_lt order), above]
    rw [around] at balanced
    have free := balanced.others_free holdsLower higher (.inr later)
    simp [holdsHigher] at free
  have notBelow := apart here there held also
  have notAbove := apart there here also held
  omega

end Semaphore
