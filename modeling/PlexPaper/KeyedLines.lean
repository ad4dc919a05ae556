import Mathlib.Data.List.Basic
import Mathlib.Data.List.Find

/-! Lines of which some give a key a value, where the first line of a key is the one that
counts. Changes are applied in one pass: each is used up by the first line of its key, and
those that are left have no line yet. Nothing here says what a line or a key is. -/
namespace KeyedLines

/-- How lines define keys. Setting the value of a line that has a key keeps the key. -/
structure Format (Line Key Value : Type) where
  key : Line → Option Key
  value : Line → Value
  set : Line → Value → Line
  key_set : ∀ {line k} new, key line = some k → key (set line new) = some k
  value_set : ∀ {line k} new, key line = some k → value (set line new) = new

/-- The changes that are left, and whether a line has been changed. -/
structure Pending (Key Value : Type) where
  changes : List (Key × Value)
  changed : Bool := false

variable {Line Key Value : Type}

namespace Format

variable (format : Format Line Key Value) [DecidableEq Value]

/-- The line with the value of a change, if there is one for it. -/
def update (line : Line) (change : Option (Key × Value)) : Line :=
  match change with
  | none => line
  | some (_, new) => if format.value line ≠ new then format.set line new else line

variable {format} {line : Line} {k : Key}

theorem key_update (change : Option (Key × Value)) (keyed : format.key line = some k) :
    format.key (format.update line change) = some k := by
  unfold update
  cases change with
  | none => exact keyed
  | some change =>
    dsimp only
    split
    · exact format.key_set change.2 keyed
    · exact keyed

theorem value_update {change : Key × Value} (keyed : format.key line = some k) :
    format.value (format.update line (some change)) = change.2 := by
  unfold update
  dsimp only
  split
  · exact format.value_set change.2 keyed
  · rename_i same
    exact not_not.mp same

end Format

variable [DecidableEq Key]

/-- The change of a key. -/
def changeOf (changes : List (Key × Value)) (k : Key) : Option (Key × Value) :=
  changes.find? fun change => change.1 = k

theorem changeOf_key {changes : List (Key × Value)} {k : Key} {change : Key × Value}
    (found : changeOf changes k = some change) : change ∈ changes ∧ change.1 = k :=
  ⟨List.mem_of_find?_eq_some found, by simpa using List.find?_some found⟩

theorem changeOf_eq_none_iff {changes : List (Key × Value)} {k : Key} :
    changeOf changes k = none ↔ ∀ change ∈ changes, change.1 ≠ k := by
  simp [changeOf]

/-- Where keys are distinct, every change is the one of its key. -/
theorem changeOf_of_mem {changes : List (Key × Value)} {change : Key × Value}
    (distinct : (changes.map Prod.fst).Nodup) (member : change ∈ changes) :
    changeOf changes change.1 = some change := by
  induction changes with
  | nil => cases member
  | cons first changes ih =>
    obtain ⟨fresh, distinct⟩ := List.nodup_cons.mp distinct
    rcases List.mem_cons.mp member with rfl | later
    · simp [changeOf]
    · have other : first.1 ≠ change.1 := by
        intro same
        exact fresh (same ▸ List.mem_map_of_mem later)
      rw [changeOf, List.find?_cons_of_neg (by simpa using other)]
      exact ih distinct later

/-- Taking changes of other keys out does not matter to a key. -/
theorem changeOf_filter {changes : List (Key × Value)} {k : Key} {keep : Key × Value → Bool}
    (kept : ∀ change, change.1 = k → keep change = true) :
    changeOf (changes.filter keep) k = changeOf changes k := by
  induction changes with
  | nil => rfl
  | cons first changes ih =>
    by_cases same : first.1 = k
    · rw [List.filter_cons_of_pos (kept first same)]
      simp [changeOf, same]
    · have skip : changeOf (first :: changes) k = changeOf changes k :=
        List.find?_cons_of_neg (by simpa using same)
      rw [skip, ← ih]
      cases keeps : keep first with
      | false => rw [List.filter_cons_of_neg (by simp [keeps])]
      | true =>
        rw [List.filter_cons_of_pos keeps]
        exact List.find?_cons_of_neg (by simpa using same)

namespace Format

variable (format : Format Line Key Value)

/-- The line that counts for a key. -/
def definition (lines : List Line) (k : Key) : Option Line :=
  lines.find? fun line => format.key line = some k

/-- The key has no line here. -/
def Undefined (lines : List Line) (k : Key) : Prop := ∀ line ∈ lines, format.key line ≠ some k

instance (lines : List Line) (k : Key) : Decidable (format.Undefined lines k) :=
  inferInstanceAs (Decidable (∀ line ∈ lines, _))

/-- The changes that these lines have no key of. -/
def remaining (lines : List Line) (changes : List (Key × Value)) : List (Key × Value) :=
  changes.filter fun change => format.Undefined lines change.1

/-- The change that is for a line, where these are left. -/
def changeFor (changes : List (Key × Value)) (line : Line) : Option (Key × Value) :=
  (format.key line).bind (changeOf changes)

variable {format} {line : Line} {lines : List Line} {k : Key}

theorem remaining_cons (line : Line) (lines : List Line) (changes : List (Key × Value)) :
    format.remaining lines (format.remaining [line] changes) =
      format.remaining (line :: lines) changes := by
  rw [remaining, remaining, remaining, List.filter_filter]
  apply List.filter_congr
  intro change _
  rw [Bool.eq_iff_iff, Bool.and_eq_true, decide_eq_true_iff, decide_eq_true_iff, decide_eq_true_iff]
  simp [Undefined, and_comm]

theorem definition_cons (line : Line) (lines : List Line) (k : Key) :
    format.definition (line :: lines) k =
      if format.key line = some k then some line else format.definition lines k := by
  unfold definition
  by_cases keyed : format.key line = some k
  · rw [List.find?_cons_of_pos (by simpa using keyed), if_pos keyed]
  · rw [List.find?_cons_of_neg (by simpa using keyed), if_neg keyed]

theorem definition_append (lines more : List Line) (k : Key) :
    format.definition (lines ++ more) k =
      (format.definition lines k).or (format.definition more k) := List.find?_append

theorem definition_key (found : format.definition lines k = some line) : format.key line = some k := by
  simpa using List.find?_some found

theorem definition_eq_none_iff : format.definition lines k = none ↔ format.Undefined lines k := by
  simp [definition, Undefined]

theorem definition_eq_some_iff : format.definition lines k = some line ↔
    ∃ i : Nat, lines[i]? = some line ∧ format.key line = some k ∧ format.Undefined (lines.take i) k := by
  unfold definition Undefined
  rw [List.find?_eq_some_iff_append]
  constructor
  · rintro ⟨keyed, before, after, rfl, others⟩
    refine ⟨before.length, by simp, by simpa using keyed, ?_⟩
    simpa using others
  · rintro ⟨i, found, keyed, others⟩
    obtain ⟨within, rfl⟩ := List.getElem?_eq_some_iff.mp found
    refine ⟨by simpa using keyed, lines.take i, lines.drop (i + 1), ?_, by simpa using others⟩
    rw [List.getElem_cons_drop, List.take_append_drop]

/-- A line leaves the changes of other keys. -/
theorem changeOf_remaining {changes : List (Key × Value)} (other : format.key line ≠ some k) :
    changeOf (format.remaining [line] changes) k = changeOf changes k := by
  apply changeOf_filter
  rintro change rfl
  simpa [Undefined] using other

variable (format) [DecidableEq Value]

def rewriteLine (line : Line) (pending : Pending Key Value) : Line × Pending Key Value :=
  match format.changeFor pending.changes line with
  | none => (line, pending)
  | some (k, new) =>
    let changes := pending.changes.filter fun change => change.1 ≠ k
    if format.value line ≠ new then (format.set line new, { changes, changed := true })
    else (line, { pending with changes })

def rewrite : List Line → Pending Key Value → List Line × Pending Key Value
  | [], pending => ([], pending)
  | line :: lines, pending =>
    let (line, pending) := format.rewriteLine line pending
    let (lines, pending) := rewrite lines pending
    (line :: lines, pending)

/-- Every change is what the lines say already. -/
def Holds (changes : List (Key × Value)) (lines : List Line) : Prop :=
  ∀ change ∈ changes, (format.definition lines change.1).map format.value = some change.2

instance (changes : List (Key × Value)) (lines : List Line) : Decidable (format.Holds changes lines) :=
  inferInstanceAs (Decidable (∀ change ∈ changes, _))

variable {format} {pending : Pending Key Value}

/-! ## One line -/

theorem rewriteLine_line : (format.rewriteLine line pending).1 =
    format.update line (format.changeFor pending.changes line) := by
  unfold rewriteLine update
  cases format.changeFor pending.changes line with
  | none => rfl
  | some change =>
    dsimp only
    split <;> rfl

/-- A line uses up the change of its key, and no other. -/
theorem rewriteLine_changes : (format.rewriteLine line pending).2.changes =
    format.remaining [line] pending.changes := by
  have undefined (change : Key × Value) : format.Undefined [line] change.1 ↔
      format.key line ≠ some change.1 := by
    simp [Undefined]
  unfold rewriteLine remaining
  simp only [undefined]
  cases found : format.changeFor pending.changes line with
  | none =>
    symm
    dsimp only
    apply List.filter_eq_self.mpr
    intro change member
    rw [decide_eq_true_eq]
    intro keyed
    rw [changeFor, keyed, Option.bind_some] at found
    exact changeOf_eq_none_iff.mp found change member rfl
  | some change =>
    obtain ⟨k, keyed, changes⟩ := Option.bind_eq_some_iff.mp found
    have own : change.1 = k := (changeOf_key changes).2
    have taken : (pending.changes.filter fun other => other.1 ≠ change.1) =
        pending.changes.filter fun other => format.key line ≠ some other.1 := by
      apply List.filter_congr
      intro other _
      rw [keyed, own]
      simp [eq_comm]
    dsimp only
    split <;> exact taken

theorem rewriteLine_changed : (format.rewriteLine line pending).2.changed = true ↔
    pending.changed = true ∨ ∃ change, format.changeFor pending.changes line = some change ∧
      format.value line ≠ change.2 := by
  unfold rewriteLine
  cases format.changeFor pending.changes line with
  | none => simp
  | some change =>
    dsimp only
    split
    · rename_i differs
      simp [differs]
    · rename_i same
      simp [not_not.mp same]

/-! ## The whole pass -/

theorem rewrite_cons (line : Line) (lines : List Line) (pending : Pending Key Value) :
    format.rewrite (line :: lines) pending =
      ((format.rewriteLine line pending).1 ::
          (format.rewrite lines (format.rewriteLine line pending).2).1,
        (format.rewrite lines (format.rewriteLine line pending).2).2) := rfl

/-- What is left has no line. -/
theorem rewrite_changes (lines : List Line) (pending : Pending Key Value) :
    (format.rewrite lines pending).2.changes = format.remaining lines pending.changes := by
  induction lines generalizing pending with
  | nil => simp [rewrite, remaining, Undefined]
  | cons line lines ih => rw [rewrite_cons, ih, rewriteLine_changes, remaining_cons]

/-- Each line is updated with what is left of the changes when it is come to. -/
theorem rewrite_getElem? (lines : List Line) (pending : Pending Key Value) (i : Nat) :
    (format.rewrite lines pending).1[i]? = lines[i]?.map fun line =>
      format.update line
        (format.changeFor (format.remaining (lines.take i) pending.changes) line) := by
  induction lines generalizing pending i with
  | nil => rfl
  | cons line lines ih =>
    rw [rewrite_cons]
    cases i with
    | zero =>
      have all : format.remaining [] pending.changes = pending.changes := by
        simp [remaining, Undefined]
      simp [rewriteLine_line, all]
    | succ i =>
      rw [List.getElem?_cons_succ, List.getElem?_cons_succ, ih, rewriteLine_changes,
        List.take_succ_cons]
      simp only [remaining_cons]

theorem rewrite_length (lines : List Line) (pending : Pending Key Value) :
    (format.rewrite lines pending).1.length = lines.length := by
  induction lines generalizing pending with
  | nil => rfl
  | cons line lines ih => rw [rewrite_cons, List.length_cons, List.length_cons, ih]

theorem mem_rewrite {lines : List Line} (member : line ∈ (format.rewrite lines pending).1) :
    ∃ before ∈ lines, line = before ∨ ∃ change ∈ pending.changes, line = format.set before change.2 := by
  obtain ⟨i, found⟩ := List.mem_iff_getElem?.mp member
  rw [rewrite_getElem?, Option.map_eq_some_iff] at found
  obtain ⟨before, at_, rfl⟩ := found
  refine ⟨before, List.mem_of_getElem? at_, ?_⟩
  unfold update
  cases own : format.changeFor (format.remaining (lines.take i) pending.changes) before with
  | none => exact .inl rfl
  | some change =>
    obtain ⟨k, -, changes⟩ := Option.bind_eq_some_iff.mp own
    have left := (List.mem_filter.mp (changeOf_key changes).1).1
    dsimp only
    split
    · exact .inr ⟨change, left, rfl⟩
    · exact .inl rfl

/-- A test that no line of a changed key passes finds the same line. -/
theorem rewrite_find? {test : Line → Bool} (lines : List Line) (pending : Pending Key Value)
    (inert : ∀ line, ∀ change ∈ pending.changes, format.key line = some change.1 →
      test line = false ∧ test (format.set line change.2) = false) :
    (format.rewrite lines pending).1.find? test = lines.find? test := by
  induction lines generalizing pending with
  | nil => rfl
  | cons line lines ih =>
    have rest := ih (format.rewriteLine line pending).2 fun other change member keyed => by
      rw [rewriteLine_changes] at member
      exact inert other change (List.mem_filter.mp member).1 keyed
    have first : test (format.rewriteLine line pending).1 = test line ∧
        (test line = true → (format.rewriteLine line pending).1 = line) := by
      rw [rewriteLine_line]
      cases found : format.changeFor pending.changes line with
      | none => exact ⟨rfl, fun _ => rfl⟩
      | some change =>
        obtain ⟨k, keyed, changes⟩ := Option.bind_eq_some_iff.mp found
        obtain ⟨member, rfl⟩ := changeOf_key changes
        obtain ⟨before, after⟩ := inert line change member keyed
        refine ⟨?_, fun passes => by rw [before] at passes; cases passes⟩
        unfold update
        dsimp only
        split
        · rw [before, after]
        · rfl
    rw [rewrite_cons]
    cases passes : test line with
    | true => rw [first.2 passes, List.find?_cons_of_pos passes, List.find?_cons_of_pos passes]
    | false =>
      rw [List.find?_cons_of_neg (by simp [first.1, passes]), rest,
        List.find?_cons_of_neg (by simp [passes])]

/-- The line that counts for a key is the one it was, with the new value. -/
theorem rewrite_definition (lines : List Line) (pending : Pending Key Value) (k : Key) :
    format.definition (format.rewrite lines pending).1 k =
      (format.definition lines k).map fun line =>
        format.update line (changeOf pending.changes k) := by
  induction lines generalizing pending with
  | nil => rfl
  | cons line lines ih =>
    rw [rewrite_cons, definition_cons, definition_cons, rewriteLine_line]
    by_cases keyed : format.key line = some k
    · rw [if_pos (key_update _ keyed), if_pos keyed, changeFor, keyed]
      rfl
    · have still : format.key (format.update line (format.changeFor pending.changes line)) ≠ some k := by
        cases own : format.key line with
        | none => simp [changeFor, own, update]
        | some k' =>
          rw [key_update _ own, ← own]
          exact keyed
      rw [if_neg still, if_neg keyed, ih, rewriteLine_changes, changeOf_remaining keyed]

/-- A pass changes something exactly where the line that counts has another value. -/
theorem rewrite_changed (lines : List Line) (pending : Pending Key Value) :
    (format.rewrite lines pending).2.changed = true ↔ pending.changed = true ∨
      ∃ k line change, format.definition lines k = some line ∧
        changeOf pending.changes k = some change ∧ format.value line ≠ change.2 := by
  induction lines generalizing pending with
  | nil => simp [rewrite, definition]
  | cons line lines ih =>
    rw [rewrite_cons, ih, rewriteLine_changed, rewriteLine_changes, or_assoc]
    apply or_congr_right
    constructor
    · rintro (⟨change, found, differs⟩ | ⟨k, other, change, defined, found, differs⟩)
      · obtain ⟨k, keyed, changes⟩ := Option.bind_eq_some_iff.mp found
        exact ⟨k, line, change, by rw [definition_cons, if_pos keyed], changes, differs⟩
      · have unkeyed : format.key line ≠ some k := by
          intro keyed
          obtain ⟨member, rfl⟩ := changeOf_key found
          have undefined := (List.mem_filter.mp member).2
          simp [Undefined, keyed] at undefined
        rw [changeOf_remaining unkeyed] at found
        exact ⟨k, other, change, by rw [definition_cons, if_neg unkeyed, defined], found, differs⟩
    · rintro ⟨k, other, change, defined, found, differs⟩
      rw [definition_cons] at defined
      by_cases keyed : format.key line = some k
      · rw [if_pos keyed] at defined
        cases defined
        exact .inl ⟨change, by rw [changeFor, keyed]; exact found, differs⟩
      · rw [if_neg keyed] at defined
        exact .inr ⟨k, other, change, defined, by rwa [changeOf_remaining keyed], differs⟩

theorem rewrite_unchanged (lines : List Line) (pending : Pending Key Value)
    (same : (format.rewrite lines pending).2.changed = false) :
    (format.rewrite lines pending).1 = lines := by
  induction lines generalizing pending with
  | nil => rfl
  | cons line lines ih =>
    rw [rewrite_cons] at same ⊢
    dsimp only at same ⊢
    have first : (format.rewriteLine line pending).2.changed = false := by
      by_contra changed
      rw [Bool.not_eq_false] at changed
      rw [(rewrite_changed lines _).mpr (.inl changed)] at same
      cases same
    rw [ih _ same, rewriteLine_line]
    congr 1
    unfold update
    cases found : format.changeFor pending.changes line with
    | none => rfl
    | some change =>
      dsimp only
      split
      · rename_i differs
        rw [rewriteLine_changed.mpr (.inr ⟨change, found, differs⟩)] at first
        cases first
      · rfl

/-! ## Changes that hold -/

variable {changes : List (Key × Value)}

/-- Nothing is changed and nothing is left exactly where all changes hold already. -/
theorem rewrite_idle_iff (distinct : (changes.map Prod.fst).Nodup) :
    ((format.rewrite lines { changes }).2.changed = false ∧
      (format.rewrite lines { changes }).2.changes = []) ↔ format.Holds changes lines := by
  rw [← Bool.not_eq_true, rewrite_changed, rewrite_changes, remaining, List.filter_eq_nil_iff]
  constructor
  · rintro ⟨same, defined⟩ change member
    cases found : format.definition lines change.1 with
    | none => exact absurd (by simpa using definition_eq_none_iff.mp found) (defined change member)
    | some line =>
      rw [Option.map_some, Option.some.injEq]
      by_contra differs
      exact same (.inr ⟨change.1, line, change, found, changeOf_of_mem distinct member, differs⟩)
  · intro holds
    constructor
    · rintro (started | ⟨k, line, change, defined, found, differs⟩)
      · cases started
      · obtain ⟨member, rfl⟩ := changeOf_key found
        obtain ⟨other, same, value⟩ := Option.map_eq_some_iff.mp (holds change member)
        cases defined.symm.trans same
        exact differs value
    · intro change member undefined
      obtain ⟨line, found, -⟩ := Option.map_eq_some_iff.mp (holds change member)
      rw [decide_eq_true_eq, ← definition_eq_none_iff, found] at undefined
      cases undefined

/-- The lines of a pass, with one line more for each change that is left, are as the
changes say. -/
theorem rewrite_holds (distinct : (changes.map Prod.fst).Nodup) (entry : Key × Value → Line)
    (entryKey : ∀ change ∈ changes, format.key (entry change) = some change.1)
    (entryValue : ∀ change ∈ changes, format.value (entry change) = change.2) :
    format.Holds changes ((format.rewrite lines { changes }).1 ++
      ((format.rewrite lines { changes }).2.changes.map entry)) := by
  intro change member
  rw [definition_append, rewrite_definition, rewrite_changes]
  cases found : format.definition lines change.1 with
  | some line =>
    have updated : format.value (format.update line (some change)) = change.2 :=
      format.value_update (definition_key found)
    rw [changeOf_of_mem distinct member]
    exact congrArg some updated
  | none =>
    have left : change ∈ format.remaining lines changes := by
      simpa [remaining, member] using definition_eq_none_iff.mp found
    rw [Option.map_none, Option.none_or, definition, List.find?_map]
    have only : ∀ other ∈ format.remaining lines changes,
        ((fun line => decide (format.key line = some change.1)) ∘ entry) other =
          decide (other.1 = change.1) := by
      intro other otherLeft
      have key := entryKey other (List.mem_filter.mp otherLeft).1
      simp [key]
    have kept : (format.remaining lines changes).find? (fun other => decide (other.1 = change.1)) =
        some change := by
      have same : changeOf (format.remaining lines changes) change.1 = changeOf changes change.1 := by
        apply changeOf_filter
        intro other own
        rw [own]
        exact (List.mem_filter.mp left).2
      exact same.trans (changeOf_of_mem distinct member)
    rw [List.find?_congr only, kept]
    exact congrArg some (entryValue change member)

end Format
end KeyedLines
