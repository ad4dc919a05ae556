import Mathlib.Data.List.Induction
import PlexPaper.FileWatcher

/-! Whom the whitelist lets in after any number of reloads, each of which may find other
files. `None` stands for a whitelist that is not in use and for one that nothing has been
loaded for yet; a load that fails leaves it as it is, and everyone is let in. -/
namespace PlexPaper.FileWatcher
open Tasks

/-- The regular files that are there at some time, with what is in them. -/
abbrev Files := Path → Option String

variable (formats : FileFormats) (config : Config) (dir : Path)

/-- One call of `reload_whitelist` that finds these files. -/
def reloadOnce (world : World) (files : Files) : Option World :=
  ((reloadWhitelist formats config dir).run execute [] { world with files }).map (·.2.1)

/-- Calls that find one set of files after the other. -/
def reloads (calls : List Files) (world : World) : Option World :=
  calls.foldlM (reloadOnce formats config dir) world

/-! ## What the files ask for -/

/-- The property says `white-list=true`. -/
def Enabled (files : Files) : Prop :=
  (((files (dir ++ [ServerProperties.FILE])).bind (propertyOf · "white-list")).map
    fun v => trim v == "true") = some true

instance (files : Files) : Decidable (Enabled dir files) := inferInstanceAs (Decidable (_ = _))

/-- The users in both files, if both can be read. -/
def listedIn (files : Files) : Option Whitelist := do
  let whitelist ← loadedUsers formats.whitelist (files (dir ++ [WHITELIST_FILE]))
  let ops ← loadedUsers formats.ops (files (dir ++ [OPS_FILE]))
  return { whitelist, ops }

/-- The whitelist was loaded as `list`, has been in use since then, and no load has
succeeded again. -/
def LatestLoad (calls : List Files) (list : Whitelist) : Prop :=
  ∃ before files after, calls = before ++ files :: after ∧ Enabled dir files ∧
    listedIn formats dir files = some list ∧
    ∀ later ∈ after, Enabled dir later ∧ listedIn formats dir later = none

/-- Only users of the latest load are let in, and nobody where nothing has been loaded. -/
def FailsClosed (calls : List Files) (memory : Option Whitelist) : Prop :=
  ∀ username, isWhitelisted memory username = true →
    ∃ list, LatestLoad formats dir calls list ∧ (username ∈ list.whitelist ∨ username ∈ list.ops)

variable {formats config dir}

/-- What one call leaves in memory. -/
theorem reloadOnce_eq (wake : config.server.wakeWhitelist = true) (world : World) (files : Files) :
    ∃ after, reloadOnce formats config dir world files = some after ∧ after.whitelist =
      if Enabled dir files then listedIn formats dir files <|> world.whitelist else none := by
  refine ⟨_, by rw [reloadOnce, reloadWhitelist_run]; rfl, ?_⟩
  have read : ((((files (dir ++ [ServerProperties.FILE])).bind (propertyOf · "white-list")).map
      fun v => trim v == "true").getD false = true) ↔ Enabled dir files := by
    unfold Enabled
    cases ((files (dir ++ [ServerProperties.FILE])).bind (propertyOf · "white-list")).map
      fun v => trim v == "true" <;> simp
  simp only [World.reloadedWhitelist, loadedWhitelist, wake, Bool.not_true, Bool.false_eq_true, if_false]
  by_cases enabled : Enabled dir files
  · simp only [read.mpr enabled, enabled, Bool.not_true, Bool.false_eq_true, if_false, if_true, listedIn]
    cases loadedUsers formats.whitelist (files (dir ++ [WHITELIST_FILE])) with
    | none => simp
    | some whitelist => cases loadedUsers formats.ops (files (dir ++ [OPS_FILE])) <;> simp
  · have off := Bool.eq_false_of_not_eq_true (mt read.mp enabled)
    simp only [off, enabled, Bool.not_false, if_true, if_false, Option.getD_some]

/-- What one more call makes the latest load. -/
theorem latestLoad_concat (calls : List Files) (files : Files) (list : Whitelist) :
    LatestLoad formats dir (calls ++ [files]) list ↔ Enabled dir files ∧
      (listedIn formats dir files = some list ∨
        listedIn formats dir files = none ∧ LatestLoad formats dir calls list) := by
  constructor
  · rintro ⟨before, found, after, split, enabled, listed, later⟩
    rcases List.eq_nil_or_concat after with rfl | ⟨front, last, rfl⟩
    · obtain ⟨rfl, same⟩ := List.append_inj' split rfl
      cases same
      exact ⟨enabled, .inl listed⟩
    · rw [List.concat_eq_append, ← List.cons_append, ← List.append_assoc] at split
      obtain ⟨rfl, same⟩ := List.append_inj' split rfl
      cases same
      obtain ⟨stays, failed⟩ := later files (by simp)
      refine ⟨stays, .inr ⟨failed, before, found, front, rfl, enabled, listed, fun file member => ?_⟩⟩
      exact later file (by simp [member])
  · rintro ⟨enabled, listed | ⟨failed, before, found, after, rfl, first, listed, later⟩⟩
    · exact ⟨calls, files, [], rfl, enabled, listed, by simp⟩
    · refine ⟨before, found, after ++ [files], by simp, first, listed, fun file member => ?_⟩
      rcases List.mem_append.mp member with earlier | last
      · exact later file earlier
      · rw [List.mem_singleton.mp last]
        exact ⟨enabled, failed⟩

/-- Whatever the calls find, the memory holds the latest load, or nothing without one. -/
theorem reloads_memory (wake : config.server.wakeWhitelist = true) (calls : List Files)
    (world : World) (fresh : world.whitelist = none) :
    ∃ after, reloads formats config dir calls world = some after ∧
      ∀ list, after.whitelist = some list ↔ LatestLoad formats dir calls list := by
  induction calls using List.reverseRecOn with
  | nil => exact ⟨world, rfl, fun list => by simp [fresh, LatestLoad]⟩
  | append_singleton calls files ih =>
    obtain ⟨mid, ran, holds⟩ := ih
    obtain ⟨after, call, whitelist⟩ : ∃ after, reloadOnce formats config dir mid files = some after ∧
        after.whitelist = if Enabled dir files then listedIn formats dir files <|> mid.whitelist else none :=
      reloadOnce_eq wake mid files
    refine ⟨after, ?_, fun list => ?_⟩
    · rw [reloads, List.foldlM_append, ← reloads, ran]
      simp [call]
    · rw [whitelist, latestLoad_concat, ← holds list]
      by_cases enabled : Enabled dir files
      · cases listedIn formats dir files <;> simp [enabled]
      · simp [enabled]

/-- After any calls the whitelist fails closed exactly when a load has succeeded since the
whitelist was last off. -/
theorem whitelist_fails_closed_iff (formats : FileFormats) (config : Config) (dir : Path)
    (wake : config.server.wakeWhitelist = true) (start : Files) (calls : List Files) :
    ∃ after, reloads formats config dir calls { files := start } = some after ∧
      (FailsClosed formats dir calls after.whitelist ↔ ∃ list, LatestLoad formats dir calls list) := by
  obtain ⟨after, ran, holds⟩ := reloads_memory wake calls { files := start } rfl
  refine ⟨after, ran, fun closed => ?_, ?_⟩
  · cases memory : after.whitelist with
    | none =>
      obtain ⟨list, latest, -⟩ := closed "" (by rw [memory]; rfl)
      exact ⟨list, latest⟩
    | some list => exact ⟨list, (holds list).mp memory⟩
  · rintro ⟨list, latest⟩ username listed
    rw [(holds list).mpr latest, isWhitelisted_iff] at listed
    exact ⟨list, latest, listed list rfl⟩

/-- The files of a server that uses its whitelist, with this text as the whitelist. -/
def cutFiles (text : String) : Files := fun path =>
  if path = [".", "server.properties"] then some "white-list=true"
  else if path = [".", "whitelist.json"] then some text
  else none

/-- The parsers, as far as the runs below go: a list is empty, has one user, or is cut off. -/
def cutFormats : FileFormats where
  bannedIps _ := some []
  whitelist contents :=
    if contents = "[]" then some []
    else if contents = "[\x7b\"name\":\"a\"\x7d]" then some ["a"]
    else none
  ops _ := some []

/-- A whitelist that is cut off while it is written again leaves the users in it. -/
theorem whitelist_fails_closed_cut :
    ∃ after, reloads cutFormats {} ["."] [cutFiles "[\x7b\"name\":\"a\"\x7d]", cutFiles "["]
        { files := fun _ => none } = some after ∧
      FailsClosed cutFormats ["."] [cutFiles "[\x7b\"name\":\"a\"\x7d]", cutFiles "["]
        after.whitelist := by
  obtain ⟨after, ran, closed_iff⟩ := whitelist_fails_closed_iff cutFormats {} ["."] rfl (fun _ => none)
    [cutFiles "[\x7b\"name\":\"a\"\x7d]", cutFiles "["]
  refine ⟨after, ran, closed_iff.mpr ⟨⟨["a"], []⟩, [], _, _, rfl, by decide +kernel, by rfl, ?_⟩⟩
  intro later member
  rw [List.mem_singleton.mp member]
  exact ⟨by decide +kernel, by rfl⟩

/-- A whitelist that is cut off when it is first loaded lets everyone in. -/
theorem unloaded_whitelist_admits_everyone :
    Enabled ["."] (cutFiles "[") ∧
    ∃ after, reloads cutFormats {} ["."] [cutFiles "["] { files := fun _ => none } = some after ∧
      (∀ username, isWhitelisted after.whitelist username = true) ∧
      ¬ FailsClosed cutFormats ["."] [cutFiles "["] after.whitelist := by
  refine ⟨by decide +kernel, ?_⟩
  obtain ⟨after, ran, holds⟩ : ∃ after,
      reloads cutFormats {} ["."] [cutFiles "["] { files := fun _ => none } = some after ∧
        ∀ list, after.whitelist = some list ↔ LatestLoad cutFormats ["."] [cutFiles "["] list :=
    reloads_memory rfl [cutFiles "["] { files := fun _ => none } rfl
  have nothing (list : Whitelist) : ¬ LatestLoad cutFormats ["."] [cutFiles "["] list := by
    rw [← List.nil_append [cutFiles "["], latestLoad_concat]
    rintro ⟨-, listed | ⟨-, before, _, _, split, -⟩⟩
    · have failed : listedIn cutFormats ["."] (cutFiles "[") = none := by rfl
      cases failed.symm.trans listed
    · cases before <;> cases split
  have memory : after.whitelist = none :=
    Option.eq_none_iff_forall_ne_some.mpr fun list loaded => nothing list ((holds list).mp loaded)
  refine ⟨after, ran, fun username => by rw [memory]; rfl, fun closed => ?_⟩
  obtain ⟨list, latest, -⟩ := closed "" (by rw [memory]; rfl)
  exact nothing list latest

end PlexPaper.FileWatcher
