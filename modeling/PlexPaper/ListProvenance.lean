import PlexPaper.FollowedFiles

/-! Where the lists in memory come from. The watcher may be late, miss a change or find a file that
cannot be parsed, but it sets nothing that it has not read: a property that loads of all versions of
the files have, whatever it sets has too. -/
namespace PlexPaper.FileWatcher
open Tasks Program

/-- What may be in each file; `none` is for no file. -/
abbrev Versions := Path → Option String → Prop

/-- Each file is at one of its versions. -/
def Versions.Admit (versions : Versions) (files : Path → Option String) : Prop :=
  ∀ path, versions path (files path)

/-- Files are only changed to versions of theirs. -/
def Versions.Written (versions : Versions) (_ : Pool Op Op.Reply World Unit) :
    Move Answer Unit Change → Prop
  | .outside change => versions change.path change.contents
  | _ => True

/-- What is loaded from versions of the files has these properties. -/
structure Vouches (formats : FileFormats) (config : Config) (dir : Path) (versions : Versions)
    (bans : BannedIps → Prop) (whitelist : Option Whitelist → Prop) : Prop where
  bans : ∀ contents loaded, versions (dir ++ [Ban.FILE]) contents →
    loadedBans formats config contents = some loaded → bans loaded
  whitelist : ∀ properties users ops loaded, versions (dir ++ [ServerProperties.FILE]) properties →
    versions (dir ++ [WHITELIST_FILE]) users → versions (dir ++ [OPS_FILE]) ops →
    loadedWhitelist formats config properties users ops = some loaded → whitelist loaded

/-- What is set, if anything, has these properties. -/
def Op.Vouched (bans : BannedIps → Prop) (whitelist : Option Whitelist → Prop) : Op → Prop
  | .setBannedIps ips => bans ips
  | .setWhitelist list => whitelist list
  | _ => True

/-- The service among those who write versions of the files. -/
def readingVersions (versions : Versions) (bans : BannedIps → Prop) (whitelist : Option Whitelist → Prop) :
    Interference Op Op.Reply (System.Situation Op Op.Reply World) where
  others before after := ∃ change, versions change.path change.contents ∧ after.2 = before.2.change change
  takes before op reply after := ∃ answer, execute before.2 op answer = some (reply, after.2)
  demands _ op := op.Vouched bans whitelist

/-- Every file is at a version, and no other directory is watched. -/
def Versioned (dir : Path) (versions : Versions) (now : System.Situation Op Op.Reply World) : Prop :=
  versions.Admit now.2.files ∧ ∀ watched ∈ now.2.watched, watched = dir

section

variable {formats : FileFormats} {config : Config} {dir : Path} {versions : Versions}
  {bans : BannedIps → Prop} {whitelist : Option Whitelist → Prop}

theorem Versions.Admit.change {world : World} (admits : versions.Admit world.files) {change : Change}
    (version : versions change.path change.contents) : versions.Admit (world.change change).files := by
  intro path
  by_cases own : path = change.path
  · subst own
    simpa [World.change] using version
  · rw [change_files_of_ne own]
    exact admits path

theorem versioned_stable : (readingVersions versions bans whitelist).Stable (Versioned dir versions) := by
  rintro before after ⟨change, version, changed⟩ ⟨admits, watched⟩
  rw [Versioned, changed]
  exact ⟨admits.change version, watched⟩

/-- The service changes no file, and registers no other directory. -/
theorem versioned_takes {op : Op} {reply : op.Reply} {before after : System.Situation Op Op.Reply World}
    (versioned : Versioned dir versions before)
    (takes : (readingVersions versions bans whitelist).takes before op reply after)
    (own : ∀ other, op = .watch other → other = dir) : Versioned dir versions after := by
  obtain ⟨answer, executed⟩ := takes
  obtain ⟨admits, watched⟩ := versioned
  obtain ⟨log, world⟩ := after
  cases op with
  | watch other =>
    obtain rfl := own other rfl
    cases executed
    cases answer.succeeds with
    | true => exact ⟨admits, fun _ same => (Option.some.inj same).symm⟩
    | false => exact ⟨admits, watched⟩
  | recv =>
    obtain ⟨succeeds, received⟩ := answer
    cases received with
    | events paths =>
      obtain ⟨-, same⟩ := Option.ite_none_right_eq_some.mp executed
      cases same
      exact ⟨admits, watched⟩
    | error | disconnected =>
      cases executed
      exact ⟨admits, watched⟩
  | dropDebouncer =>
    cases executed
    exact ⟨admits, fun _ same => nomatch same⟩
  | _ =>
    cases executed
    exact ⟨admits, watched⟩

/-- From versions of the files the program comes to a result like this, and sets only what is
vouched for. -/
def Reads (dir : Path) (versions : Versions) (bans : BannedIps → Prop) (whitelist : Option Whitelist → Prop)
    {α : Type} (program : FilesM α) (post : α → Prop) : Prop :=
  Upholds (readingVersions versions bans whitelist) (Versioned dir versions) program
    fun value now => Versioned dir versions now ∧ post value

namespace Reads

variable {α β : Type}

theorem pure {post : α → Prop} {value : α} (holds : post value) :
    Reads dir versions bans whitelist (Pure.pure value) post :=
  Upholds.pure fun _ versioned => ⟨versioned, holds⟩

theorem bind {program : FilesM α} {rest : α → FilesM β} {post : α → Prop} {post' : β → Prop}
    (first : Reads dir versions bans whitelist program post)
    (then_ : ∀ value, post value → Reads dir versions bans whitelist (rest value) post') :
    Reads dir versions bans whitelist (program >>= rest) post' :=
  Upholds.bind first fun value now held => then_ value held.2 now held.1

theorem ite {condition : Prop} [Decidable condition] {yes no : FilesM α} {post : α → Prop}
    (first : condition → Reads dir versions bans whitelist yes post)
    (second : ¬ condition → Reads dir versions bans whitelist no post) :
    Reads dir versions bans whitelist (if condition then yes else no) post :=
  Upholds.ite first second

theorem perform {op : Op} (own : ∀ other, op = .watch other → other = dir)
    (vouched : op.Vouched bans whitelist) :
    Reads dir versions bans whitelist (FileWatcher.perform op) fun _ => True :=
  Upholds.perform versioned_stable (fun _ _ => vouched) fun _ _ _ versioned takes =>
    ⟨versioned_takes versioned takes own, trivial⟩

/-- Whenever it begins, every file is at a version. -/
theorem admitting {program : FilesM α} {post : α → Prop}
    (reads : ∀ files, versions.Admit files → Reads dir versions bans whitelist program post) :
    Reads dir versions bans whitelist program post :=
  fun now versioned => reads now.2.files versioned.1 now versioned

/-- A file that is not there is a version. -/
theorem isFile (path : Path) : Reads dir versions bans whitelist (FileWatcher.perform (.isFile path))
    fun there => there = false → versions path none := by
  refine Upholds.perform versioned_stable (fun _ _ => trivial) fun before there after versioned takes =>
    ⟨versioned_takes versioned takes (fun _ same => nomatch same), ?_⟩
  rintro rfl
  obtain ⟨answer, executed⟩ := takes
  have missing : (before.2.files path).isSome = false := (Prod.mk.inj (Option.some.inj executed)).1
  exact Option.not_isSome_iff_eq_none.mp (Bool.eq_false_iff.mp missing) ▸ versioned.1 path

theorem readToString (path : Path) :
    Reads dir versions bans whitelist (FileWatcher.perform (.readToString path)) (versions path) := by
  refine Upholds.perform versioned_stable (fun _ _ => trivial) fun before contents after versioned takes =>
    ⟨versioned_takes versioned takes (fun _ same => nomatch same), ?_⟩
  obtain ⟨answer, executed⟩ := takes
  rw [← (Prod.mk.inj (Option.some.inj executed)).1]
  exact versioned.1 path

/-- What comes back is a batch of files in the directory. -/
theorem recv : Reads dir versions bans whitelist (FileWatcher.perform .recv)
    fun reply => ∀ paths, reply = .events paths → ∀ path ∈ paths, InDir dir path := by
  refine Upholds.perform versioned_stable (fun _ _ => trivial) fun before reply after versioned takes =>
    ⟨versioned_takes versioned takes (fun _ same => nomatch same), ?_⟩
  rintro paths rfl path member
  obtain ⟨answer, executed⟩ := takes
  have reported := (recv_events executed).1 path member
  obtain ⟨nonempty, watched⟩ := (Bool.and_eq_true_iff.mp reported)
  exact ⟨by simpa using nonempty, versioned.2 _ (of_decide_eq_true watched)⟩

/-! ## The reloads -/

theorem readProperty (file : Path) (property : String) :
    Reads dir versions bans whitelist (FileWatcher.readProperty file property)
      fun value => ∃ contents, versions file contents ∧ value = contents.bind (propertyOf · property) := by
  refine bind (isFile file) fun there missing => ite (fun _ => ?_) fun absent => ?_
  · refine bind (readToString file) fun contents version => ?_
    cases contents with
    | none => exact pure ⟨none, version, rfl⟩
    | some contents => exact pure ⟨some contents, version, rfl⟩
  · exact pure ⟨none, missing (by simpa using absent), rfl⟩

theorem usersIn (parse : String → Option (List String)) (file : Path) :
    Reads dir versions bans whitelist (FileWatcher.usersIn parse file)
      fun users => ∀ names, users = some names → ∃ contents, versions file contents ∧
        loadedUsers parse contents = some names := by
  refine bind (isFile file) fun there missing => ite (fun _ => ?_) fun absent => ?_
  · refine bind (readToString file) fun contents version => ?_
    cases contents with
    | none => exact pure nofun
    | some contents => exact pure fun names same => ⟨some contents, version, same⟩
  · exact pure fun names same => ⟨none, missing (by simpa using absent), same⟩

theorem reloadBans (vouches : Vouches formats config dir versions bans whitelist) :
    Reads dir versions bans whitelist (FileWatcher.reloadBans formats config (dir ++ [Ban.FILE]))
      fun _ => True := by
  unfold FileWatcher.reloadBans
  refine ite (fun _ => pure trivial) fun enabled => bind (isFile _) fun there missing =>
    ite (fun _ => ?_) fun absent => ?_
  · refine bind (bind (readToString _) fun contents version => ?_) fun loaded (vouched : ∀ ips,
      loaded = some ips → bans ips) => ?_
    · cases contents with
      | none => exact pure nofun
      | some contents =>
        refine pure fun ips loads => vouches.bans (some contents) ips version ?_
        rw [loadedBans, if_neg enabled]
        exact loads
    · cases loaded with
      | none => exact pure trivial
      | some ips => exact perform (fun _ same => nomatch same) (vouched ips rfl)
  · refine perform (fun _ same => nomatch same) (vouches.bans none {} (missing (by simpa using absent)) ?_)
    rw [loadedBans, if_neg enabled]

theorem reloadWhitelist (vouches : Vouches formats config dir versions bans whitelist) :
    Reads dir versions bans whitelist (FileWatcher.reloadWhitelist formats config dir) fun _ => True := by
  unfold FileWatcher.reloadWhitelist
  refine admitting fun files admits => ite (fun _ => pure trivial) fun wakes => bind (readProperty _ _) ?_
  rintro _ ⟨contents, property, rfl⟩
  refine ite (fun disabled => ?_) fun enabled => ?_
  · refine perform (fun _ same => nomatch same)
      (vouches.whitelist contents _ _ none property (admits _) (admits _) ?_)
    rw [loadedWhitelist, if_neg wakes]
    exact if_pos disabled
  · refine bind ?_ fun loaded (vouched : ∀ list, loaded = some list → whitelist (some list)) => ?_
    · refine bind (usersIn _ _) fun users listed => ?_
      cases users with
      | none => exact pure nofun
      | some users =>
        refine bind (usersIn _ _) fun ops trusted => ?_
        cases ops with
        | none => exact pure nofun
        | some ops =>
          obtain ⟨usersFile, usersVersion, usersLoaded⟩ := listed users rfl
          obtain ⟨opsFile, opsVersion, opsLoaded⟩ := trusted ops rfl
          refine pure fun list same => ?_
          cases same
          refine vouches.whitelist contents usersFile opsFile _ property usersVersion opsVersion ?_
          rw [loadedWhitelist, if_neg wakes, usersLoaded, opsLoaded]
          exact if_neg enabled
    · cases loaded with
      | none => exact pure trivial
      | some list => exact perform (fun _ same => nomatch same) (vouched list rfl)

/-! ## The loops -/

theorem update (vouches : Vouches formats config dir versions bans whitelist) {path : Path}
    (inside : InDir dir path) :
    Reads dir versions bans whitelist (FileWatcher.update formats config dir path) fun _ => True := by
  rw [update_eq]
  have first : Reads dir versions bans whitelist (if endsWith path Ban.FILE then
      FileWatcher.reloadBans formats config path else Pure.pure ()) fun _ => True := by
    refine ite (fun named => ?_) fun _ => pure trivial
    obtain rfl := (endsWith_iff inside _).mp named
    exact reloadBans vouches
  exact bind first fun _ _ => ite (fun _ => reloadWhitelist vouches) fun _ => pure trivial

theorem updateAll (vouches : Vouches formats config dir versions bans whitelist) {paths : List Path}
    (inside : ∀ path ∈ paths, InDir dir path) :
    Reads dir versions bans whitelist (FileWatcher.updateAll formats config dir paths) fun _ => True := by
  induction paths with
  | nil => exact pure trivial
  | cons path paths ih =>
    obtain ⟨first, others⟩ := List.forall_mem_cons.mp inside
    exact bind (update vouches first) fun _ _ => ih others

theorem dropDebouncer : Reads dir versions bans whitelist
    (FileWatcher.perform .dropDebouncer >>= fun _ => Pure.pure true) fun _ => True :=
  bind (perform (fun _ same => nomatch same) trivial) fun _ _ => pure trivial

theorem watchLoop (vouches : Vouches formats config dir versions bans whitelist) (rounds : Nat) :
    Reads dir versions bans whitelist (FileWatcher.watchLoop formats config dir rounds) fun _ => True := by
  induction rounds with
  | zero => exact pure trivial
  | succ rounds ih =>
    refine bind recv fun reply inside => ?_
    cases reply with
    | events paths => exact bind (updateAll vouches (inside paths rfl)) fun _ _ => ih
    | error | disconnected => exact dropDebouncer

theorem watchServer (vouches : Vouches formats config dir versions bans whitelist) (rounds : Nat) :
    Reads dir versions bans whitelist (FileWatcher.watchServer formats config rounds dir) fun _ => True := by
  refine bind (perform (fun _ same => nomatch same) trivial) fun there _ => ite (fun _ => ?_) fun _ => pure trivial
  refine bind (perform (fun _ same => nomatch same) trivial) fun made _ => ite (fun _ => ?_) fun _ => pure trivial
  refine bind (perform (fun _ same => (Op.watch.inj same).symm) trivial) fun watches _ => ite (fun _ => ?_) fun _ => ?_
  · exact watchLoop vouches rounds
  · exact dropDebouncer

theorem serviceLoop (vouches : Vouches formats config dir versions bans whitelist) (rounds : Nat) :
    Reads dir versions bans whitelist (FileWatcher.serviceLoop formats config dir rounds) fun _ => True := by
  induction rounds with
  | zero => exact pure trivial
  | succ rounds ih =>
    refine bind (reloadBans vouches) fun _ _ => bind (reloadWhitelist vouches) fun _ _ =>
      bind (watchServer vouches rounds) fun _ _ => ite (fun _ => ih) fun _ => pure trivial

theorem service (vouches : Vouches formats config dir versions bans whitelist) (rounds : Nat)
    (directory : config.server.directory = some dir) :
    Reads dir versions bans whitelist (FileWatcher.service formats config rounds) fun _ => True := by
  unfold FileWatcher.service
  rw [directory]
  exact bind (perform (fun _ same => nomatch same) trivial) fun _ _ =>
    ite (fun _ => serviceLoop vouches rounds) fun _ => pure trivial

end Reads

/-- Nothing else changes the lists. -/
theorem execute_lists {world after : World} {op : Op} {answer : Answer} {reply : op.Reply}
    (executed : execute world op answer = some (reply, after)) :
    (after.bannedIps = world.bannedIps ∨ op = .setBannedIps after.bannedIps) ∧
      (after.whitelist = world.whitelist ∨ op = .setWhitelist after.whitelist) := by
  cases op with
  | setBannedIps ips =>
    cases executed
    exact ⟨.inr rfl, .inl rfl⟩
  | setWhitelist list =>
    cases executed
    exact ⟨.inl rfl, .inr rfl⟩
  | watch dir =>
    cases executed
    cases answer.succeeds <;> exact ⟨.inl rfl, .inl rfl⟩
  | recv =>
    obtain ⟨succeeds, received⟩ := answer
    cases received with
    | events paths =>
      obtain ⟨-, same⟩ := Option.ite_none_right_eq_some.mp executed
      cases same
      exact ⟨.inl rfl, .inl rfl⟩
    | error | disconnected =>
      cases executed
      exact ⟨.inl rfl, .inl rfl⟩
  | _ =>
    cases executed
    exact ⟨.inl rfl, .inl rfl⟩

/-- A step of the watcher leaves each list as it is, or sets one that the versions of the files vouch
for. -/
theorem memory_step (vouches : Vouches formats config dir versions bans whitelist) {rounds : Nat}
    (directory : config.server.directory = some dir) {world : World} (admits : versions.Admit world.files)
    (unwatched : world.watched = none) {before after : Pool Op Op.Reply World Unit}
    {move : Move Answer Unit Change}
    (reached : (watching formats config rounds).Reaches versions.Written
      ((watching formats config rounds).alone () world) before)
    (stepped : (watching formats config rounds).step before move = some after) :
    (after.world.bannedIps = before.world.bannedIps ∨ bans after.world.bannedIps) ∧
      (after.world.whitelist = before.world.whitelist ∨ whitelist after.world.whitelist) := by
  cases move with
  | call entry =>
    rw [System.step, if_neg (by simp [watching])] at stepped
    cases stepped
  | outside change =>
    cases stepped
    exact ⟨.inl rfl, .inl rfl⟩
  | run index answer =>
    obtain ⟨task, op, next, reply, changed, found, waiting, executed, rfl⟩ := System.step_run stepped
    have start : ((watching formats config rounds).body ()).Secures (readingVersions versions bans whitelist)
        ([], world) fun _ _ => True :=
      (Reads.service vouches rounds directory ([], world) ⟨admits, by simp [unwatched]⟩).mono fun _ _ _ => trivial
    obtain ⟨only, alone, secures⟩ := reached.secures_under start (fun _ => rfl) (fun _ => rfl)
      (fun _ _ change _ version changed => ⟨change, version, (Option.some.inj changed).symm⟩)
      (fun _ _ answer _ _ _ _ _ _ executed => ⟨answer, executed⟩)
    obtain rfl : task = only := by
      rw [alone] at found
      exact List.mem_singleton.mp (List.mem_of_getElem? found)
    have vouched : op.Vouched bans whitelist :=
      System.demands_of_secures secures (by rw [Task.next?, waiting]; rfl)
    obtain ⟨setBans, setList⟩ := execute_lists executed
    exact ⟨setBans.imp_right fun sets => by rw [sets] at vouched; exact vouched,
      setList.imp_right fun sets => by rw [sets] at vouched; exact vouched⟩

end

end PlexPaper.FileWatcher
