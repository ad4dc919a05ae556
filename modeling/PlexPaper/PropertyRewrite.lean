import PlexPaper.PropertyLines

/-! `server_properties::rewrite_contents`, with `read_property` as its counterpart. A change
is used up by the first line of its property, and what is left of the changes is written
behind the last line. What is only logged is left out. -/
namespace PlexPaper.ServerProperties
open KeyedLines FileWatcher

/-- `HashMap<&str, String>`, in the order it is iterated in. -/
structure Changes where
  entries : List (String × String)
  distinct : (entries.map Prod.fst).Nodup

section Rewrite

variable (mapping : CaseMapping)

/-- `HashMap::remove_entry`. -/
def removeEntry (key : String) : StateM (Pending String String) (Option (String × String)) := do
  let pending ← get
  match changeOf pending.changes key with
  | none => return none
  | some entry =>
    set { pending with changes := pending.changes.filter fun change => change.1 ≠ entry.1 }
    return some entry

/-- What `rewrite_contents` maps a line to. -/
def rewriteLine (line : String) : StateM (Pending String String) String := do
  let trimmed := trim line
  if startsWith trimmed '#' || trimmed = "" then return line
  else
    match splitOnce line with
    | none => return line
    | some (key, value) =>
      match ← removeEntry (mapping.toLowercase (trim key)) with
      | none => return line
      | some (_, new) =>
        if value ≠ new then
          modify fun pending => { pending with changed := true }
          return key ++ "=" ++ new
        else return line

def rewriteContents (contents : String) (changes : Changes) : Option String :=
  if changes.entries = [] then none
  else
    let (lines, pending) :=
      ((Lobby.lines contents).mapM (rewriteLine mapping)).run { changes := changes.entries }
    let (newContents, changed) := pending.changes.foldl
      (fun (newContents, _) (key, value) => (newContents ++ (EOL ++ key ++ "=" ++ value), true))
      (EOL.intercalate lines, pending.changed)
    if changed then some newContents else none

/-- What `read_property` finds in a file. -/
def propertyIn (contents property : String) : Option String :=
  (((Lobby.lines contents).filterMap splitOnce).find? fun line =>
    mapping.toLowercase (trim line.1) = mapping.toLowercase property).map fun line => trim line.2

/-- What is on disk after `rewrite_file`. -/
def onDisk (contents : String) (changes : Changes) : String :=
  (rewriteContents mapping contents changes).getD contents

/-! ## The pass over the lines -/

variable {mapping} {contents : String} {changes : Changes}

theorem removeEntry_run (key : String) (pending : Pending String String) :
    (removeEntry key).run pending = match changeOf pending.changes key with
      | none => (none, pending)
      | some entry => (some entry,
          { pending with changes := pending.changes.filter fun change => change.1 ≠ entry.1 }) := by
  unfold removeEntry
  cases found : changeOf pending.changes key <;> simp [found] <;> rfl

theorem changeFor_properties (pending : List (String × String)) (line : String) :
    (properties mapping).changeFor pending line =
      if isComment line then none
      else (splitOnce line).bind fun split => changeOf pending (nameOf mapping split.1) := by
  rw [Format.changeFor, properties_key, definedBy, readBy]
  split
  · rfl
  · rw [Option.bind_map]
    rfl

theorem rewriteLine_run (line : String) (pending : Pending String String) :
    (rewriteLine mapping line).run pending = (properties mapping).rewriteLine line pending := by
  unfold rewriteLine Format.rewriteLine
  rw [changeFor_properties]
  by_cases comment : isComment line = true
  · have skipped : (startsWith (trim line) '#' || decide (trim line = "")) = true := comment
    simp only [skipped, comment, if_true]
    rfl
  · have kept : ¬ (startsWith (trim line) '#' || decide (trim line = "")) = true := comment
    simp only [kept, comment]
    rcases split : splitOnce line with _ | ⟨key, value⟩
    · rfl
    · have value_eq : (properties mapping).value line = value := by
        change valueOf line = value
        rw [valueOf, split]
        rfl
      have set_eq (new : String) : (properties mapping).set line new = key ++ "=" ++ new := by
        change setValue line new = key ++ "=" ++ new
        rw [setValue, split]
      have removed := removeEntry_run (nameOf mapping key) pending
      simp only [Option.bind_some, Bool.false_eq_true, if_false]
      rw [StateT.run_bind]
      change (removeEntry (nameOf mapping key)).run pending >>= _ = _
      rw [removed]
      rcases changeOf pending.changes (nameOf mapping key) with _ | ⟨k, new⟩
      · rfl
      · dsimp only
        rw [value_eq, set_eq]
        change (if value ≠ new then do
            modify fun pending => { pending with changed := true }
            return key ++ "=" ++ new
          else return line : StateM (Pending String String) String).run
            { pending with changes := pending.changes.filter fun change => change.1 ≠ k } = _
        by_cases differs : value ≠ new
        · rw [if_pos differs, if_pos differs]
          rfl
        · rw [if_neg differs, if_neg differs]
          rfl

theorem rewriteLines_run (lines : List String) (pending : Pending String String) :
    (lines.mapM (rewriteLine mapping)).run pending = (properties mapping).rewrite lines pending := by
  induction lines generalizing pending with
  | nil => rfl
  | cons line lines ih =>
    rw [List.mapM_cons, StateT.run_bind, rewriteLine_run, Format.rewrite_cons, ← ih]
    rfl

/-! ## What is written -/

/-- The text with a line behind it for each of these changes. -/
def appendEntries (text : String) (changes : List (String × String)) : String :=
  changes.foldl (fun text change => text ++ (EOL ++ entry change)) text

theorem appendEntries_fold (text : String) (changed : Bool) (changes : List (String × String)) :
    changes.foldl (fun (newContents, _) (key, value) =>
        (newContents ++ (EOL ++ key ++ "=" ++ value), true)) (text, changed) =
      (appendEntries text changes, changed || !changes.isEmpty) := by
  unfold appendEntries
  induction changes generalizing text changed with
  | nil => simp
  | cons change changes ih =>
    rw [List.foldl_cons, List.foldl_cons, ih]
    simp [entry, String.append_assoc]

theorem lines_appendEntries (text : String) (changes : List (String × String)) :
    Lobby.lines (appendEntries text changes ++ EOL) =
      Lobby.lines (text ++ EOL) ++ (changes.map entry).flatMap fun line => Lobby.lines (line ++ EOL) := by
  unfold appendEntries
  induction changes generalizing text with
  | nil => simp
  | cons change changes ih =>
    rw [List.foldl_cons, ih, List.map_cons, List.flatMap_cons, ← List.append_assoc]
    congr 1
    rw [← lines_append]
    simp [String.append_assoc]

theorem lines_intercalate (texts : List String) : Lobby.lines (EOL.intercalate texts ++ EOL) =
    if texts = [] then [""] else texts.flatMap fun line => Lobby.lines (line ++ EOL) := by
  induction texts with
  | nil => rfl
  | cons text texts ih =>
    rw [if_neg (by simp)]
    by_cases last : texts = []
    · subst last
      simp
    · rw [if_neg last] at ih
      rw [String.intercalate_cons_of_ne_nil last, String.append_assoc, lines_append, ih, List.flatMap_cons]

variable (mapping contents changes)

/-- The pass over the lines of a file. -/
def pass : List String × Pending String String :=
  (properties mapping).rewrite (Lobby.lines contents) { changes := changes.entries }

/-- The lines that the pass leaves, and those that are written behind them. -/
def written : List String :=
  (pass mapping contents changes).1 ++ (pass mapping contents changes).2.changes.map entry

variable {mapping contents changes}

theorem rewriteContents_eq : rewriteContents mapping contents changes =
    if (properties mapping).Holds changes.entries (Lobby.lines contents) then none
    else some (appendEntries (EOL.intercalate (pass mapping contents changes).1)
      (pass mapping contents changes).2.changes) := by
  have idle : (((properties mapping).rewrite (Lobby.lines contents)
        { changes := changes.entries }).2.changed = false ∧
      ((properties mapping).rewrite (Lobby.lines contents) { changes := changes.entries }).2.changes = []) ↔
        (properties mapping).Holds changes.entries (Lobby.lines contents) :=
    Format.rewrite_idle_iff changes.distinct
  unfold rewriteContents
  by_cases none : changes.entries = []
  · rw [if_pos none, if_pos (by simp [Format.Holds, none])]
  · rw [if_neg none, rewriteLines_run]
    dsimp only
    rw [appendEntries_fold]
    by_cases holds : (properties mapping).Holds changes.entries (Lobby.lines contents)
    · obtain ⟨same, nothing⟩ := idle.mpr holds
      rw [if_pos holds, same, nothing]
      rfl
    · have busy : (pass mapping contents changes).2.changed = true ∨
          (pass mapping contents changes).2.changes ≠ [] := by
        by_contra neither
        rw [not_or, Bool.not_eq_true, not_not] at neither
        exact holds (idle.mp neither)
      rw [if_neg holds, if_pos]
      · rfl
      · simpa [pass] using busy

/-- The content stays exactly where every change is what the file says already. -/
theorem rewriteContents_eq_none_iff : rewriteContents mapping contents changes = none ↔
    (properties mapping).Holds changes.entries (Lobby.lines contents) := by
  rw [rewriteContents_eq]
  split <;> simp_all

/-- Then the pass leaves the lines as they are. -/
theorem written_of_holds (holds : (properties mapping).Holds changes.entries (Lobby.lines contents)) :
    onDisk mapping contents changes = contents ∧
      written mapping contents changes = Lobby.lines contents := by
  obtain ⟨same, nothing⟩ := (Format.rewrite_idle_iff changes.distinct).mpr holds
  constructor
  · rw [onDisk, rewriteContents_eq, if_pos holds]
    rfl
  · rw [written, pass, Format.rewrite_unchanged _ _ same, nothing, List.map_nil, List.append_nil]

/-- Otherwise the text is put together of what is written. -/
theorem lines_onDisk (differs : ¬ (properties mapping).Holds changes.entries (Lobby.lines contents)) :
    Lobby.lines (onDisk mapping contents changes ++ EOL) =
      (if (pass mapping contents changes).1 = [] then [""] else []) ++
        (written mapping contents changes).flatMap fun line => Lobby.lines (line ++ EOL) := by
  rw [onDisk, rewriteContents_eq, if_neg differs, Option.getD_some, lines_appendEntries,
    lines_intercalate, written, List.flatMap_append]
  split
  · rename_i nothing
    rw [nothing]
    rfl
  · rfl

/-- What a reader can find on disk is in one of the texts that are written. -/
theorem mem_onDisk {line : String} (visible : line ≠ "") :
    line ∈ Lobby.lines (onDisk mapping contents changes) ↔
      ∃ text ∈ written mapping contents changes, line ∈ Lobby.lines text := by
  by_cases holds : (properties mapping).Holds changes.entries (Lobby.lines contents)
  · obtain ⟨same, all⟩ := written_of_holds holds
    rw [same, all]
    constructor
    · intro member
      exact ⟨line, member, by simp [lines_single (not_mem_lines member) visible]⟩
    · rintro ⟨text, member, found⟩
      have some : text ≠ "" := by
        rintro rfl
        cases found
      rw [lines_single (not_mem_lines member) some] at found
      rwa [List.mem_singleton.mp found]
  · rw [← mem_lines_end visible, lines_onDisk holds]
    simp only [List.mem_append, List.mem_flatMap, mem_lines_end visible]
    have blank : line ∉ if (pass mapping contents changes).1 = [] then [""] else [] := by
      split <;> simp [visible]
    simp [blank]

/-! ## Changes that keep to their lines -/

/-- A change that can be written as one line and read back: the names are those that the
proxy itself writes, in lower case and trimmed. -/
structure Plain (mapping : CaseMapping) (change : String × String) : Prop where
  lowercase : mapping.toLowercase change.1 = change.1
  trimmed : trim change.1 = change.1
  noSign : '=' ∉ change.1.toList
  noHash : startsWith change.1 '#' = false
  keyWhole : '\n' ∉ change.1.toList
  valueWhole : '\n' ∉ change.2.toList

namespace Plain

variable {change : String × String}

theorem splitOnce_entry (plain : Plain mapping change) :
    splitOnce (entry change) = some (change.1, change.2) :=
  splitOnce_eq_some_iff.mpr ⟨rfl, plain.noSign⟩

theorem definedBy_entry (plain : Plain mapping change) :
    definedBy mapping (entry change) = some change.1 := by
  apply definedBy_eq_some_iff.mpr
  refine ⟨change.1, change.2, plain.splitOnce_entry, ?_, ?_⟩
  · rw [plain.trimmed, plain.noHash]
  · rw [nameOf, plain.trimmed, plain.lowercase]

theorem valueOf_entry (plain : Plain mapping change) : valueOf (entry change) = change.2 := by
  rw [valueOf, plain.splitOnce_entry]
  rfl

theorem entry_whole (plain : Plain mapping change) : '\n' ∉ (entry change).toList := by
  simp [entry, String.toList_append, plain.keyWhole, plain.valueWhole]

theorem setValue_whole (plain : Plain mapping change) {line : String} (whole : '\n' ∉ line.toList) :
    '\n' ∉ (setValue line change.2).toList := by
  unfold setValue
  split
  · exact whole
  · rename_i key value split
    obtain ⟨rfl, -⟩ := splitOnce_eq_some_iff.mp split
    simp only [String.toList_append, List.mem_append, not_or] at whole ⊢
    exact ⟨whole.1, plain.valueWhole⟩

end Plain

variable (plain : ∀ change ∈ changes.entries, Plain mapping change)

include plain in
theorem written_whole : ∀ text ∈ written mapping contents changes, '\n' ∉ text.toList := by
  intro text member
  rcases List.mem_append.mp member with left | entered
  · obtain ⟨line, inside, rfl | ⟨change, changing, rfl⟩⟩ := Format.mem_rewrite left
    · exact not_mem_lines inside
    · exact (plain change changing).setValue_whole (not_mem_lines inside)
  · obtain ⟨change, left, rfl⟩ := List.mem_map.mp entered
    rw [pass, Format.rewrite_changes] at left
    exact (plain change (List.mem_filter.mp left).1).entry_whole

end Rewrite
end PlexPaper.ServerProperties
