import PlexPaper.PropertyRewrite

/-! What a rewrite of `server.properties` does to the file: as a map for a reader that takes
the first line of a property, as `read_property` does, and for one that takes the last, as
the server does. -/
namespace PlexPaper.ServerProperties
open KeyedLines FileWatcher

section

variable {mapping : CaseMapping} {contents : String} {changes : Changes}

/-- What a property reads as is the value of the first line that is read as it. -/
theorem propertyIn_eq (contents property : String) : propertyIn mapping contents property =
    ((Lobby.lines contents).find? fun line =>
      readBy mapping line = some (mapping.toLowercase property)).map fun line => trim (valueOf line) := by
  unfold propertyIn
  rw [List.find?_filterMap]
  have tests : (fun line => (splitOnce line).any fun split =>
      decide (mapping.toLowercase (trim split.1) = mapping.toLowercase property)) =
      fun line => decide (readBy mapping line = some (mapping.toLowercase property)) := by
    funext line
    unfold readBy nameOf
    cases splitOnce line <;> simp
  rw [tests]
  cases found : (Lobby.lines contents).find? fun line =>
      decide (readBy mapping line = some (mapping.toLowercase property)) with
  | none => rfl
  | some line =>
    have read := List.find?_some found
    rw [decide_eq_true_eq] at read
    obtain ⟨split, splits, -⟩ := Option.map_eq_some_iff.mp read
    rw [Option.bind_some, splits, Option.map_some, Option.map_some, valueOf, splits]
    rfl

/-- A line end behind a text does not matter to who looks for more than an empty line. -/
theorem find?_lines_end {test : String → Bool} (blank : test "" = false) (text : String) :
    (Lobby.lines (text ++ EOL)).find? test = (Lobby.lines text).find? test := by
  rcases lines_end text with same | more
  · rw [same]
  · rw [more, List.find?_append, List.find?_cons_of_neg (by simp [blank]), List.find?_nil, Option.or_none]

variable (plain : ∀ change ∈ changes.entries, Plain mapping change)

include plain

theorem lines_written : ((written mapping contents changes).flatMap fun line =>
    Lobby.lines (line ++ EOL)) = written mapping contents changes := by
  rw [List.flatMap_congr fun line member => lines_end_single (written_whole plain line member)]
  exact List.flatMap_singleton' _

theorem onDisk_find? {test : String → Bool} (blank : test "" = false) :
    (Lobby.lines (onDisk mapping contents changes)).find? test =
      (written mapping contents changes).find? test := by
  by_cases holds : (properties mapping).Holds changes.entries (Lobby.lines contents)
  · obtain ⟨same, all⟩ := written_of_holds holds
    rw [same, all]
  · rw [← find?_lines_end blank, lines_onDisk holds, lines_written plain, List.find?_append]
    split <;> simp [blank]

/-- The lines of the file keep their places. -/
theorem onDisk_getElem? {i : Nat} {line : String} (within : i < (Lobby.lines contents).length)
    (found : (written mapping contents changes)[i]? = some line) :
    (Lobby.lines (onDisk mapping contents changes) ++ [""])[i]? = some line := by
  by_cases holds : (properties mapping).Holds changes.entries (Lobby.lines contents)
  · obtain ⟨same, all⟩ := written_of_holds holds
    rw [all] at found
    rw [same, List.getElem?_append_left within, found]
  · have some : (pass mapping contents changes).1 ≠ [] := by
      intro nothing
      have length : ((properties mapping).rewrite (Lobby.lines contents)
          { changes := changes.entries }).1.length = (Lobby.lines contents).length :=
        Format.rewrite_length _ _
      rw [pass] at nothing
      rw [nothing] at length
      simp [← length] at within
    have all := lines_onDisk holds
    rw [if_neg some, List.nil_append, lines_written plain] at all
    rcases lines_end (onDisk mapping contents changes) with same | more
    · rw [← same, all, List.getElem?_append_left (List.getElem?_eq_some_iff.mp found).1, found]
    · rw [← more, all, found]

/-- After the rewrite every change holds, whether it had to be written or not. -/
theorem onDisk_holds :
    (properties mapping).Holds changes.entries (Lobby.lines (onDisk mapping contents changes)) := by
  intro change member
  have same : (properties mapping).definition (Lobby.lines (onDisk mapping contents changes)) change.1 =
      (properties mapping).definition (written mapping contents changes) change.1 := by
    apply onDisk_find? plain
    rw [properties_key, definedBy_blank]
    rfl
  have holds : (properties mapping).Holds changes.entries (written mapping contents changes) := by
    rw [written, pass]
    apply Format.rewrite_holds changes.distinct
    · intro change member
      rw [properties_key, (plain change member).definedBy_entry]
    · intro change member
      rw [properties_value, (plain change member).valueOf_entry]
  rw [same]
  exact holds change member

end

/-- The line at this place is the first one that defines a property to be changed. -/
def IsFirstDefinition (mapping : CaseMapping) (contents : String) (changes : Changes) (i : Nat)
    (line : String) : Prop :=
  ∃ change ∈ changes.entries, definedBy mapping line = some change.1 ∧
    (properties mapping).Undefined ((Lobby.lines contents).take i) change.1

/-- A line of the file that is not the first of a changed property is left alone. -/
theorem pass_getElem?_other {mapping : CaseMapping} {contents : String} {changes : Changes} {i : Nat}
    {line : String} (found : (Lobby.lines contents)[i]? = some line)
    (notFirst : ¬ IsFirstDefinition mapping contents changes i line) :
    (pass mapping contents changes).1[i]? = some line := by
  rw [pass, Format.rewrite_getElem?, found, Option.map_some]
  cases own : (properties mapping).changeFor
    ((properties mapping).remaining ((Lobby.lines contents).take i) changes.entries) line with
  | none => rfl
  | some change =>
    obtain ⟨k, keyed, taken⟩ := Option.bind_eq_some_iff.mp own
    obtain ⟨left, rfl⟩ := changeOf_key taken
    obtain ⟨member, fresh⟩ := List.mem_filter.mp left
    rw [properties_key] at keyed
    exact absurd ⟨change, member, keyed, of_decide_eq_true fresh⟩ notFirst

/-- Lower case, for a text of ASCII letters. -/
def asciiMapping : CaseMapping where
  lower _ c _ := [c.toLower]
  lower_hash _ _ := rfl

theorem toLowercase_ascii (s : String) : asciiMapping.toLowercase s = s.toLower := by
  have chars (before chars : List Char) : asciiMapping.lowerFrom before chars = chars.map Char.toLower := by
    induction chars generalizing before with
    | nil => rfl
    | cons c chars ih => rw [CaseMapping.lowerFrom, ih, List.map_cons]; rfl
  apply String.toList_inj.mp
  have lower : s.toLower = s.map Char.toLower := rfl
  rw [CaseMapping.toLowercase, String.toList_ofList, chars, lower, String.toList_map]

/-- The reader that the whitelist is switched with is this one. -/
theorem propertyOf_eq (contents property : String) :
    propertyOf contents property = propertyIn asciiMapping contents property := by
  simp only [propertyOf, propertyIn, toLowercase_ascii]

/-- The port that the proxy sets, and one more property that a file may not have. -/
def portChanges : Changes where
  entries := [("server-port", "25566"), ("query.port", "25566")]
  distinct := by decide

theorem portChanges_plain : ∀ change ∈ portChanges.entries, Plain asciiMapping change := by
  intro change member
  rcases List.mem_cons.mp member with rfl | member
  · constructor <;> decide +kernel
  · rw [List.mem_singleton.mp member]
    constructor <;> decide +kernel

section

variable {mapping : CaseMapping} {contents : String} {changes : Changes}
  (plain : ∀ change ∈ changes.entries, Plain mapping change)
include plain

/-- No comment is read as a changed property, so the reader finds the line that the rewrite
has set. -/
theorem propertyIn_changed {change : String × String} (member : change ∈ changes.entries)
    (trimmed : trim change.2 = change.2) :
    propertyIn mapping (onDisk mapping contents changes) change.1 = some change.2 := by
  have tests : (fun line => decide (readBy mapping line = some change.1)) =
      fun line => decide (definedBy mapping line = some change.1) := by
    funext line
    rw [decide_eq_decide]
    exact ⟨definedBy_of_readBy (plain change member).noHash, readBy_of_definedBy⟩
  have holds : (properties mapping).Holds changes.entries (Lobby.lines (onDisk mapping contents changes)) :=
    onDisk_holds plain
  have holds := holds change member
  rw [Format.definition, properties_key, properties_value] at holds
  obtain ⟨line, first, value⟩ := Option.map_eq_some_iff.mp holds
  rw [propertyIn_eq, (plain change member).lowercase, tests, first, Option.map_some, value, trimmed]

/-- The lines that the pass sets are not read as another property, before or after. -/
theorem propertyIn_other {property : String}
    (other : ∀ change ∈ changes.entries, mapping.toLowercase property ≠ change.1) :
    propertyIn mapping (onDisk mapping contents changes) property = propertyIn mapping contents property := by
  have pass_find : (pass mapping contents changes).1.find?
        (fun line => decide (readBy mapping line = some (mapping.toLowercase property))) =
      (Lobby.lines contents).find?
        fun line => decide (readBy mapping line = some (mapping.toLowercase property)) := by
    rw [pass]
    apply Format.rewrite_find?
    intro line change member keyed
    rw [properties_key] at keyed
    have own : readBy mapping line = some change.1 := readBy_of_definedBy keyed
    have kept : readBy mapping (setValue line change.2) = some change.1 := by
      rw [readBy_setValue, own]
    rw [properties_set, own, kept]
    simp [Ne.symm (other change member)]
  have entries_find : ((pass mapping contents changes).2.changes.map entry).find?
      (fun line => decide (readBy mapping line = some (mapping.toLowercase property))) = none := by
    rw [List.find?_eq_none]
    intro line member
    obtain ⟨change, left, rfl⟩ := List.mem_map.mp member
    rw [pass, Format.rewrite_changes] at left
    have inside := (List.mem_filter.mp left).1
    rw [readBy_of_definedBy (plain change inside).definedBy_entry]
    simp [Ne.symm (other change inside)]
  rw [propertyIn_eq, propertyIn_eq, onDisk_find? plain (by simp [readBy_blank]), written,
    List.find?_append, entries_find, Option.or_none, pass_find]

end

/-- For a reader that takes the first line of a property the rewrite sets exactly the
changed properties, and every line but the first of a changed property keeps its place. -/
theorem rewrite_is_map_update (mapping : CaseMapping) (contents : String) (changes : Changes)
    (plain : ∀ change ∈ changes.entries, Plain mapping change)
    (trimmed : ∀ change ∈ changes.entries, trim change.2 = change.2) :
    (∀ change ∈ changes.entries,
      propertyIn mapping (onDisk mapping contents changes) change.1 = some change.2) ∧
    (∀ property, (∀ change ∈ changes.entries, mapping.toLowercase property ≠ change.1) →
      propertyIn mapping (onDisk mapping contents changes) property =
        propertyIn mapping contents property) ∧
    ∀ i line, (Lobby.lines contents)[i]? = some line → ¬ IsFirstDefinition mapping contents changes i line →
      (Lobby.lines (onDisk mapping contents changes) ++ [""])[i]? = some line := by
  refine ⟨fun change member => propertyIn_changed plain member (trimmed change member),
    fun property other => propertyIn_other plain other, fun i line found notFirst => ?_⟩
  apply onDisk_getElem? plain (List.getElem?_eq_some_iff.mp found).1
  rw [written, List.getElem?_append_left, pass_getElem?_other found notFirst]
  rw [pass, Format.rewrite_length]
  exact (List.getElem?_eq_some_iff.mp found).1

/-- A file with a comment, another spelling of a key and no line end at its end. -/
theorem rewrite_is_map_update_ports :
    propertyIn asciiMapping (onDisk asciiMapping "#server-port=1\nServer-Port = 25565\nmotd=a=b" portChanges)
        "server-port" = some "25566" ∧
      propertyIn asciiMapping (onDisk asciiMapping "#server-port=1\nServer-Port = 25565\nmotd=a=b" portChanges)
        "MOTD" = propertyIn asciiMapping "#server-port=1\nServer-Port = 25565\nmotd=a=b" "MOTD" := by
  obtain ⟨changed, others, -⟩ := rewrite_is_map_update asciiMapping
    "#server-port=1\nServer-Port = 25565\nmotd=a=b" portChanges portChanges_plain (by decide +kernel)
  exact ⟨changed ("server-port", "25566") (by decide), others "MOTD" (by decide +kernel)⟩

/-- A rewrite changes nothing exactly where every changed property has its new text
already, and so nothing where it is made again, in whatever order. -/
theorem rewrite_idempotent (mapping : CaseMapping) (contents : String) (changes : Changes)
    (plain : ∀ change ∈ changes.entries, Plain mapping change) :
    (rewriteContents mapping contents changes = none ↔ changes.entries = [] ∨
      ∀ change ∈ changes.entries, ((properties mapping).definition (Lobby.lines contents) change.1).map
        valueOf = some change.2) ∧
    ∀ out, rewriteContents mapping contents changes = some out → ∀ again : Changes,
      again.entries.Perm changes.entries → rewriteContents mapping out again = none := by
  refine ⟨?_, fun out rewritten again order => ?_⟩
  · rw [rewriteContents_eq_none_iff, Format.Holds, properties_value]
    constructor
    · exact .inr
    · rintro (none | holds) change member
      · rw [none] at member
        cases member
      · exact holds change member
  · have disk : onDisk mapping contents changes = out := by rw [onDisk, rewritten, Option.getD_some]
    rw [rewriteContents_eq_none_iff, ← disk]
    intro change member
    exact onDisk_holds plain change (order.mem_iff.mp member)

theorem rewrite_idempotent_ports :
    ∃ out, rewriteContents asciiMapping "server-port=25565" portChanges = some out ∧
      rewriteContents asciiMapping out portChanges = none := by
  have idempotent := rewrite_idempotent asciiMapping "server-port=25565" portChanges portChanges_plain
  have changes : (rewriteContents asciiMapping "server-port=25565" portChanges).isSome = true := by
    decide +kernel
  obtain ⟨out, rewritten⟩ := Option.isSome_iff_exists.mp changes
  exact ⟨out, rewritten, idempotent.2 out rewritten portChanges (.refl _)⟩

/-! ## Later lines of a property -/

section

variable (mapping : CaseMapping) (contents : String) (changes : Changes)

/-- If the line defines a property to be changed, then with its new value. -/
def Carries (line : String) : Prop :=
  ∀ change ∈ changes.entries, definedBy mapping line = some change.1 →
    trim (valueOf line) = trim change.2

/-- No line of a text has another value for a property to be changed. -/
def NoStaleDefinition (text : String) : Prop := ∀ line ∈ Lobby.lines text, Carries mapping changes line

/-- What is written for a change, if anything is. -/
def writtenFor (change : String × String) : Option String :=
  match (properties mapping).definition (Lobby.lines contents) change.1 with
  | none => some (entry change)
  | some line => if valueOf line ≠ change.2 then some (setValue line change.2) else none

/-- The lines of a property behind its first one have the new value already. -/
def LaterLinesCarry : Prop :=
  ∀ i line, (Lobby.lines contents)[i]? = some line → ¬ IsFirstDefinition mapping contents changes i line →
    Carries mapping changes line

/-- What is written for a change is not read as another value for one. -/
def WritesReadBack : Prop :=
  ∀ change ∈ changes.entries, ∀ text ∈ writtenFor mapping contents change,
    ∀ line ∈ Lobby.lines text, Carries mapping changes line

variable {mapping contents changes}

theorem carries_blank : Carries mapping changes "" := by
  intro change _ keyed
  rw [definedBy_blank] at keyed
  cases keyed

/-- A line with the new value of a change carries it, for the keys are distinct. -/
theorem carries_of_value {line : String} {change : String × String} (member : change ∈ changes.entries)
    (keyed : definedBy mapping line = some change.1) (value : valueOf line = change.2) :
    Carries mapping changes line := by
  intro other otherMember otherKeyed
  have sameKey : other.1 = change.1 := Option.some.inj (otherKeyed.symm.trans keyed)
  have own := changeOf_of_mem changes.distinct member
  have same := changeOf_of_mem changes.distinct otherMember
  rw [sameKey, own] at same
  cases same
  rw [value]

/-- The first line of a changed property gets the new value, unless it has it. -/
theorem pass_getElem?_first {i : Nat} {line : String} {change : String × String}
    (found : (Lobby.lines contents)[i]? = some line) (member : change ∈ changes.entries)
    (keyed : definedBy mapping line = some change.1)
    (fresh : (properties mapping).Undefined ((Lobby.lines contents).take i) change.1) :
    (properties mapping).definition (Lobby.lines contents) change.1 = some line ∧
      (pass mapping contents changes).1[i]? =
        some (if valueOf line ≠ change.2 then setValue line change.2 else line) := by
  constructor
  · apply Format.definition_eq_some_iff.mpr
    exact ⟨i, found, by rw [properties_key, keyed], fresh⟩
  · have left : changeOf ((properties mapping).remaining ((Lobby.lines contents).take i) changes.entries)
        change.1 = some change := by
      rw [Format.remaining, changeOf_filter]
      · exact changeOf_of_mem changes.distinct member
      · rintro other same
        rw [same]
        exact decide_eq_true fresh
    rw [pass, Format.rewrite_getElem?, found, Option.map_some, Format.changeFor, properties_key, keyed,
      Option.bind_some, left]
    rfl

/-- A text of one line is that line. -/
theorem noStaleDefinition_line {line : String} (whole : '\n' ∉ line.toList) :
    NoStaleDefinition mapping changes line ↔ Carries mapping changes line := by
  by_cases visible : line = ""
  · subst visible
    exact ⟨fun _ => carries_blank, fun _ other member => by cases member⟩
  · simp [NoStaleDefinition, lines_single whole visible]

theorem onDisk_noStaleDefinition : NoStaleDefinition mapping changes (onDisk mapping contents changes) ↔
    ∀ text ∈ written mapping contents changes, NoStaleDefinition mapping changes text := by
  constructor
  · intro clean text member line inside
    by_cases visible : line = ""
    · rw [visible]
      exact carries_blank
    · exact clean line ((mem_onDisk visible).mpr ⟨text, member, inside⟩)
  · intro clean line member
    by_cases visible : line = ""
    · rw [visible]
      exact carries_blank
    · obtain ⟨text, inside, found⟩ := (mem_onDisk visible).mp member
      exact clean text inside line found

/-- What is written for a change is on disk. -/
theorem writtenFor_mem {change : String × String} {text : String} (member : change ∈ changes.entries)
    (writes : writtenFor mapping contents change = some text) : text ∈ written mapping contents changes := by
  unfold writtenFor at writes
  cases defined : (properties mapping).definition (Lobby.lines contents) change.1 with
  | none =>
    rw [defined] at writes
    cases writes
    apply List.mem_append_right
    apply List.mem_map_of_mem
    rw [pass, Format.rewrite_changes]
    exact List.mem_filter.mpr ⟨member, decide_eq_true (Format.definition_eq_none_iff.mp defined)⟩
  | some line =>
    rw [defined] at writes
    obtain ⟨i, found, keyed, fresh⟩ := Format.definition_eq_some_iff.mp defined
    rw [properties_key] at keyed
    have place := (pass_getElem?_first found member keyed fresh).2
    dsimp only at writes
    split at writes
    · rename_i differs
      cases writes
      rw [if_pos differs] at place
      exact List.mem_append_left _ (List.mem_of_getElem? place)
    · cases writes

/-- Each text on disk is written for a change, or is a line that was there. -/
theorem written_cases {text : String} (member : text ∈ written mapping contents changes) :
    (∃ change ∈ changes.entries, writtenFor mapping contents change = some text) ∨
      ∃ i, (Lobby.lines contents)[i]? = some text ∧
        (IsFirstDefinition mapping contents changes i text → Carries mapping changes text) := by
  rcases List.mem_append.mp member with kept | entered
  · obtain ⟨i, place⟩ := List.mem_iff_getElem?.mp kept
    have within : i < (Lobby.lines contents).length := by
      have below := (List.getElem?_eq_some_iff.mp place).1
      rwa [pass, Format.rewrite_length] at below
    have found := List.getElem?_eq_getElem within
    by_cases first : IsFirstDefinition mapping contents changes i (Lobby.lines contents)[i]
    · obtain ⟨change, changing, keyed, fresh⟩ := first
      obtain ⟨defined, same⟩ := pass_getElem?_first found changing keyed fresh
      rw [place, Option.some.injEq] at same
      by_cases differs : valueOf (Lobby.lines contents)[i] ≠ change.2
      · rw [if_pos differs] at same
        exact .inl ⟨change, changing, by rw [writtenFor, defined, same]; exact if_pos differs⟩
      · rw [if_neg differs] at same
        rw [← same] at found keyed differs
        exact .inr ⟨i, found, fun _ => carries_of_value changing keyed (not_not.mp differs)⟩
    · have same := (pass_getElem?_other found first).symm.trans place
      rw [Option.some.injEq] at same
      rw [same] at found first
      exact .inr ⟨i, found, fun other => absurd other first⟩
  · obtain ⟨change, left, rfl⟩ := List.mem_map.mp entered
    rw [pass, Format.rewrite_changes] at left
    obtain ⟨changing, undefined⟩ := List.mem_filter.mp left
    have none := Format.definition_eq_none_iff.mpr (of_decide_eq_true undefined)
    exact .inl ⟨change, changing, by rw [writtenFor, none]⟩

end

/-- No stale definition survives a rewrite exactly when the later lines of a changed
property have its new value already and what is written does not break out of its line,
which no plain change does. -/
theorem no_stale_definition_iff (mapping : CaseMapping) (contents : String) (changes : Changes) :
    (NoStaleDefinition mapping changes (onDisk mapping contents changes) ↔
      LaterLinesCarry mapping contents changes ∧ WritesReadBack mapping contents changes) ∧
    ((∀ change ∈ changes.entries, Plain mapping change) → WritesReadBack mapping contents changes) := by
  constructor
  · rw [onDisk_noStaleDefinition]
    constructor
    · intro clean
      constructor
      · intro i line found notFirst
        have place := pass_getElem?_other found notFirst
        have whole := not_mem_lines (List.mem_of_getElem? found)
        exact (noStaleDefinition_line whole).mp
          (clean line (List.mem_append_left _ (List.mem_of_getElem? place)))
      · exact fun change member text writes => clean text (writtenFor_mem member writes)
    · rintro ⟨later, readBack⟩ text member
      rcases written_cases member with ⟨change, changing, writes⟩ | ⟨i, found, first⟩
      · exact readBack change changing text writes
      · apply (noStaleDefinition_line (not_mem_lines (List.mem_of_getElem? found))).mpr
        by_cases isFirst : IsFirstDefinition mapping contents changes i text
        · exact first isFirst
        · exact later i text found isFirst
  · intro plain change member text writes
    have whole := written_whole plain text (writtenFor_mem member writes)
    apply (noStaleDefinition_line whole).mpr
    rw [Option.mem_def, writtenFor] at writes
    cases defined : (properties mapping).definition (Lobby.lines contents) change.1 with
    | none =>
      rw [defined] at writes
      cases writes
      exact carries_of_value member (plain change member).definedBy_entry
        (plain change member).valueOf_entry
    | some line =>
      rw [defined] at writes
      have keyed := Format.definition_key defined
      rw [properties_key] at keyed
      dsimp only at writes
      split at writes
      · cases writes
        exact carries_of_value member (definedBy_setValue _ keyed) (valueOf_setValue _ keyed)
      · cases writes

/-- A file that has the port twice, and the second time the new one. -/
theorem no_stale_definition_twice :
    NoStaleDefinition asciiMapping portChanges
      (onDisk asciiMapping "server-port=25565\nserver-port=25566" portChanges) := by
  obtain ⟨clean_iff, readsBack⟩ :=
    no_stale_definition_iff asciiMapping "server-port=25565\nserver-port=25566" portChanges
  refine clean_iff.mpr ⟨fun i line found notFirst => ?_, readsBack portChanges_plain⟩
  have both : Lobby.lines "server-port=25565\nserver-port=25566" = ["server-port=25565", "server-port=25566"] := by
    decide +kernel
  rw [both] at found
  match i with
  | 0 =>
    cases found
    refine absurd ⟨("server-port", "25566"), by decide, by decide +kernel, ?_⟩ notFirst
    simp [Format.Undefined]
  | 1 =>
    cases found
    unfold Carries
    decide +kernel
  | _ + 2 => cases found

/-- A second line of the port keeps its value, which is the one that the server takes. -/
theorem later_definition_stays :
    onDisk asciiMapping "server-port=25565\nserver-port=25500" portChanges =
        "server-port=25566\r\nserver-port=25500\r\nquery.port=25566" ∧
      ¬ NoStaleDefinition asciiMapping portChanges
        (onDisk asciiMapping "server-port=25565\nserver-port=25500" portChanges) := by
  constructor
  · decide +kernel
  · unfold NoStaleDefinition Carries
    decide +kernel

end PlexPaper.ServerProperties
