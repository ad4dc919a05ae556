import PlexPaper.FileWatcher

/-! What the file watcher keeps in memory follows the files, unless one is changed between
its load and the registration of the watcher: nothing reports that change. A look at a
file stays true until the file is changed; from the registration on the change is then
pending, and before it the moment of the registration decides. -/
namespace PlexPaper.FileWatcher
open Tasks Program

/-- A call with its reply. -/
abbrev Look := (op : Op) × op.Reply

/-- The reply of a look is what these files would reply. -/
def Look.Agrees (files : Path → Option String) : Look → Prop
  | ⟨.isFile path, there⟩ => there = (files path).isSome
  | ⟨.readToString path, contents⟩ => contents = files path
  | _ => True

instance (files : Path → Option String) : (look : Look) → Decidable (look.Agrees files)
  | ⟨.isFile path, there⟩ => inferInstanceAs (Decidable (there = (files path).isSome))
  | ⟨.readToString path, contents⟩ => inferInstanceAs (Decidable (contents = files path))
  | ⟨.isDir _, _⟩ | ⟨.setBannedIps _, _⟩ | ⟨.setWhitelist _, _⟩ | ⟨.newDebouncer, _⟩
  | ⟨.watch _, _⟩ | ⟨.recv, _⟩ | ⟨.dropDebouncer, _⟩ => isTrue trivial

/-- Behind this `service` loads all files again. -/
def Look.restarts : Look → Bool
  | ⟨.dropDebouncer, _⟩ => true
  | ⟨.newDebouncer, created⟩ => !created
  | _ => false

/-- What has been done since `service` last began to load the files. -/
def sinceReload (log : List Look) : List Look :=
  log.foldl (fun done look => if look.restarts then [] else done ++ [look]) []

/-- The files are as they were found when they were loaded. -/
def AsFound (log : List Look) (files : Path → Option String) : Prop :=
  ∀ look ∈ sinceReload log, look.Agrees files

instance (log : List Look) (files : Path → Option String) : Decidable (AsFound log files) :=
  inferInstanceAs (Decidable (∀ look ∈ _, _))

/-- The next call registers the watcher. -/
def registers (task : Task Op Op.Reply Unit) : Bool :=
  match task.next? with
  | some (.watch _) => true
  | _ => false

/-- If the watcher is registered, it is while the files are as they were loaded. -/
def RegistersAsFound (pool : Pool Op Op.Reply World Unit) : Move Answer Unit Change → Prop
  | .run index answer => ∀ task ∈ pool.tasks[index]?, registers task = true →
      answer.succeeds = true → AsFound task.log pool.world.files
  | _ => True

instance (pool : Pool Op Op.Reply World Unit) :
    (move : Move Answer Unit Change) → Decidable (RegistersAsFound pool move)
  | .run index answer => inferInstanceAs (Decidable (∀ task ∈ pool.tasks[index]?,
      registers task = true → answer.succeeds = true → AsFound task.log pool.world.files))
  | .call _ | .outside _ => isTrue trivial

/-- Reloading the bans and the whitelist now would leave them as they are. -/
def UpToDate (formats : FileFormats) (config : Config) (dir : Path) (world : World) : Prop :=
  (do
    reloadBans formats config (dir ++ [Ban.FILE])
    reloadWhitelist formats config dir : FilesM Unit).run execute [] world = some ((), world, [])

section

variable {formats : FileFormats} {config : Config} {dir : Path} {world : World}

theorem upToDate_iff : UpToDate formats config dir world ↔
    world.reloadedBans formats config (dir ++ [Ban.FILE]) = world.bannedIps ∧
      world.reloadedWhitelist formats config dir = world.whitelist := by
  unfold UpToDate
  rw [Program.run_bind, reloadBans_run]
  simp only [Option.bind_some]
  rw [reloadWhitelist_run]
  obtain ⟨files, bannedIps, whitelist, watched, pending⟩ := world
  simp only [Option.some.injEq, Prod.mk.injEq, World.mk.injEq, true_and, and_true]
  rfl

/-! ## What a reload has seen -/

variable (formats config dir) in
/-- The service among those who write files. It may only be blocked without an event when
nothing is left to load. -/
def surroundings : Interference Op Op.Reply (System.Situation Op Op.Reply World) where
  others before after := after.1 = before.1 ∧ ∃ change, after.2 = before.2.change change
  takes before op reply after := after.1 = before.1 ++ [⟨op, reply⟩] ∧
    (∃ answer, execute before.2 op answer = some (reply, after.2)) ∧
    ∀ dir, (⟨op, reply⟩ : Look) = ⟨.watch dir, true⟩ → AsFound before.1 before.2.files
  demands now op := op = .recv → now.2.pending = [] → UpToDate formats config dir now.2

/-- A look at one of these files. -/
def Op.LooksAt (files : List Path) : Op → Prop
  | .isFile path | .readToString path => path ∈ files
  | _ => False

def Op.SetsBans : Op → Prop
  | .setBannedIps _ => True
  | _ => False

def Op.SetsWhitelist : Op → Prop
  | .setWhitelist _ => True
  | _ => False

/-- A reload looks at its files and sets something in memory. -/
def Op.Reloads (files : List Path) (op : Op) : Prop :=
  op.LooksAt files ∨ op.SetsBans ∨ op.SetsWhitelist

variable (formats config dir) in
/-- Something is known of each look, from when it is made on. -/
structure Sees (files : List Path) (base : System.Situation Op Op.Reply World → Prop)
    (seen : Look → System.Situation Op Op.Reply World → Prop) : Prop where
  stable : (surroundings formats config dir).Stable base
  lasting : ∀ look, (surroundings formats config dir).Stable (seen look)
  kept : ∀ before op reply after, op.Reloads files → base before →
    (surroundings formats config dir).takes before op reply after → base after
  keeps : ∀ look before op reply after, op.Reloads files → seen look before →
    (surroundings formats config dir).takes before op reply after → seen look after
  made : ∀ before op reply after, op.LooksAt files → base before →
    (surroundings formats config dir).takes before op reply after → seen ⟨op, reply⟩ after

/-- What is in memory. -/
def World.Remembers (world : World) (bannedIps : BannedIps) (whitelist : Option Whitelist) : Prop :=
  world.bannedIps = bannedIps ∧ world.whitelist = whitelist

/-- A look is true, leaves the world as it is, and gets the same reply from other files that
agree. -/
theorem execute_look {op : Op} {files : List Path} (looks : op.LooksAt files) {answer : Answer}
    {reply : op.Reply} {after : World} (executed : execute world op answer = some (reply, after)) :
    after = world ∧ Look.Agrees world.files ⟨op, reply⟩ ∧
      ∀ (start : World) (given : Path → Option String), Look.Agrees given ⟨op, reply⟩ →
        execute { start with files := given } op default =
          some (reply, { start with files := given }) := by
  cases op with
  | isFile path =>
    cases executed
    refine ⟨rfl, rfl, fun start given agrees => ?_⟩
    simp only [execute, Look.Agrees] at agrees ⊢
    rw [agrees]
  | readToString path =>
    cases executed
    refine ⟨rfl, rfl, fun start given agrees => ?_⟩
    simp only [execute, Look.Agrees] at agrees ⊢
    rw [agrees]
  | _ => exact looks.elim

/-- What is set, is set in any world. -/
theorem execute_set {op : Op} (sets : op.SetsBans ∨ op.SetsWhitelist) {answer : Answer}
    {reply : op.Reply} {after : World}
    (executed : execute world op answer = some (reply, after)) {start : World}
    (remembers : world.Remembers start.bannedIps start.whitelist) :
    ∃ bannedIps whitelist, after.Remembers bannedIps whitelist ∧ ∀ given : Path → Option String,
      execute { start with files := given } op default =
        some (reply, { start with files := given, bannedIps, whitelist }) := by
  obtain ⟨bans, list⟩ := remembers
  cases op with
  | setBannedIps ips =>
    cases executed
    exact ⟨ips, start.whitelist, ⟨rfl, list⟩, fun _ => rfl⟩
  | setWhitelist whitelist =>
    cases executed
    exact ⟨start.bannedIps, whitelist, ⟨bans, rfl⟩, fun _ => rfl⟩
  | _ => exact (sets.elim id id).elim

/-- A program that only reloads does what it would have done alone with any files that agree
with all it has seen. -/
theorem reload_sees {α : Type} {files : List Path}
    {base : System.Situation Op Op.Reply World → Prop}
    {seen : Look → System.Situation Op Op.Reply World → Prop}
    (sees : Sees formats config dir files base seen)
    {program : FilesM α} (reloads : program.Keeps (only (Op.Reloads files)) ()) (start : World)
    (earlier : List Look) :
    Upholds (surroundings formats config dir)
      (fun now => base now ∧ now.2.Remembers start.bannedIps start.whitelist ∧
        ∀ look ∈ earlier, seen look now) program
      fun value now => base now ∧ ∃ looks, earlier ⊆ looks ∧ (∀ look ∈ looks, seen look now) ∧
        ∀ given, (∀ look ∈ looks, look.Agrees given) →
          program.run execute [] { start with files := given } = some (value,
            { start with
              files := given
              bannedIps := now.2.bannedIps
              whitelist := now.2.whitelist }, []) := by
  have stable (start : World) (earlier : List Look) : (surroundings formats config dir).Stable
      fun now => base now ∧ now.2.Remembers start.bannedIps start.whitelist ∧
        ∀ look ∈ earlier, seen look now := by
    rintro before after others ⟨held, remembers, seen⟩
    refine ⟨sees.stable _ _ others held, ?_,
      fun look member => sees.lasting look _ _ others (seen look member)⟩
    obtain ⟨-, change, changed⟩ := others
    rw [changed]
    exact remembers
  intro state holds
  induction program generalizing start earlier state with
  | pure value =>
    obtain ⟨held, ⟨bans, list⟩, seen⟩ := holds
    refine ⟨held, earlier, fun _ member => member, seen, fun given _ => ?_⟩
    rw [bans, list]
    rfl
  | request op next ih =>
    intro now later
    obtain ⟨held, remembers, seen⟩ := (stable start earlier).later later holds
    have reload : op.Reloads files := reloads.1
    refine ⟨?_, fun reply after takes => ?_⟩
    · rintro rfl
      exact (reload.elim id fun sets => sets.elim id id).elim
    obtain ⟨answer, executed⟩ := takes.2.1
    have held := sees.kept _ _ _ _ reload held takes
    replace seen : ∀ look ∈ earlier, _ := fun look member =>
      sees.keeps look _ _ _ _ reload (seen look member) takes
    rcases reload with looks | sets
    · obtain ⟨same, -, replies⟩ := execute_look looks executed
      have made := sees.made _ _ _ _ looks ‹_› takes
      refine (ih reply (reloads.2 reply) start (⟨op, reply⟩ :: earlier) after
        ⟨held, same ▸ remembers, List.forall_mem_cons.mpr ⟨made, seen⟩⟩).mono ?_
      rintro value ended ⟨held, looks, includes, seen, runs⟩
      refine ⟨held, looks, fun _ member => includes (List.mem_cons_of_mem _ member), seen,
        fun given agrees => ?_⟩
      have replied := replies start given (agrees _ (includes List.mem_cons_self))
      rw [Program.run_request, List.headD_nil, replied]
      exact runs given agrees
    · obtain ⟨bannedIps, whitelist, remembers, replies⟩ := execute_set sets executed remembers
      refine (ih reply (reloads.2 reply) { start with bannedIps, whitelist } earlier after
        ⟨held, remembers, seen⟩).mono ?_
      rintro value ended ⟨held, looks, includes, seen, runs⟩
      refine ⟨held, looks, includes, seen, fun given agrees => ?_⟩
      rw [Program.run_request, List.headD_nil, replies given]
      exact runs given agrees

/-! ## The two reloads -/

/-- The files of the whitelist. -/
def whitelistFiles (dir : Path) : List Path :=
  [dir ++ [ServerProperties.FILE], dir ++ [WHITELIST_FILE], dir ++ [OPS_FILE]]

/-- Looks and sets of one list. -/
abbrev reloading (files : List Path) (sets : Op → Prop) : Discipline Op Op.Reply :=
  only fun op => op.LooksAt files ∨ sets op

/-- Looking whether a file is there, and reading it. -/
theorem look_keeps {files : List Path} (sets : Op → Prop) {file : Path} (listed : file ∈ files) :
    (perform (.isFile file)).Keeps (reloading files sets) () ∧
      (perform (.readToString file)).Keeps (reloading files sets) () :=
  ⟨keeps_perform_only (.inl listed), keeps_perform_only (.inl listed)⟩

theorem reloadBans_keeps (file : Path) :
    (reloadBans formats config file).Keeps (reloading [file] Op.SetsBans) () := by
  obtain ⟨look, read⟩ := look_keeps Op.SetsBans (List.mem_singleton_self file)
  refine .ite (fun _ => .pure) fun _ => .bind look fun _ => .ite (fun _ => ?_) fun _ => ?_
  · refine .bind (.bind read fun contents => ?_) fun loaded => ?_
    · cases contents <;> exact .pure
    · cases loaded with
      | none => exact .pure
      | some ips => exact keeps_perform_only (.inr trivial)
  · exact keeps_perform_only (.inr trivial)

theorem usersIn_keeps {parse : String → Option (List String)} {file : Path} {files : List Path}
    {sets : Op → Prop} (listed : file ∈ files) :
    (usersIn parse file).Keeps (reloading files sets) () := by
  obtain ⟨look, read⟩ := look_keeps sets listed
  refine .bind look fun _ => .ite (fun _ => .bind read fun contents => ?_) fun _ => .pure
  cases contents <;> exact .pure

theorem reloadWhitelist_keeps : (reloadWhitelist formats config dir).Keeps
    (reloading (whitelistFiles dir) Op.SetsWhitelist) () := by
  refine .ite (fun _ => .pure) fun _ => .bind ?_ fun property => .ite (fun _ => ?_) fun _ =>
    .bind ?_ fun whitelist => ?_
  · have listed : dir ++ [ServerProperties.FILE] ∈ whitelistFiles dir := .head _
    obtain ⟨look, read⟩ := look_keeps Op.SetsWhitelist listed
    refine .bind look fun _ => .ite (fun _ => .bind read fun contents => ?_) fun _ => .pure
    cases contents <;> exact .pure
  · exact keeps_perform_only (.inr trivial)
  · refine .bind (usersIn_keeps (.tail _ (.head _))) fun whitelist => ?_
    cases whitelist with
    | none => exact .pure
    | some whitelist =>
      refine .bind (usersIn_keeps (.tail _ (.tail _ (.head _)))) fun ops => ?_
      cases ops <;> exact .pure
  · cases whitelist with
    | none => exact .pure
    | some whitelist => exact keeps_perform_only (.inr trivial)

variable (formats config dir) in
/-- A reload from these files leaves the bans as they are. -/
def BansCurrent (files : Path → Option String) (bannedIps : BannedIps) : Prop :=
  (loadedBans formats config (files (dir ++ [Ban.FILE]))).getD bannedIps = bannedIps

variable (formats config dir) in
/-- A reload from these files leaves the whitelist as it is. -/
def WhitelistCurrent (files : Path → Option String) (whitelist : Option Whitelist) : Prop :=
  (loadedWhitelist formats config (files (dir ++ [ServerProperties.FILE]))
    (files (dir ++ [WHITELIST_FILE])) (files (dir ++ [OPS_FILE]))).getD whitelist = whitelist

theorem getD_getD {α : Type} (loaded : Option α) (start : α) :
    loaded.getD (loaded.getD start) = loaded.getD start := by
  cases loaded <;> rfl

section

variable {base : System.Situation Op Op.Reply World → Prop}
  {seen : Look → System.Situation Op Op.Reply World → Prop}

/-- What every run alone leaves behind, a reload leaves behind for all files that agree with
what it has seen. -/
theorem reload_settles {files : List Path} (sees : Sees formats config dir files base seen)
    {program : FilesM Unit} (reloads : program.Keeps (only (Op.Reloads files)) ())
    (current : (Path → Option String) → BannedIps → Option Whitelist → Prop)
    (settles : ∀ start ended : World, program.run execute [] start = some ((), ended, []) →
      current ended.files ended.bannedIps ended.whitelist) :
    Upholds (surroundings formats config dir) base program fun _ now => base now ∧
      ∃ looks : List Look, (∀ look ∈ looks, seen look now) ∧
        ∀ given, (∀ look ∈ looks, Look.Agrees given look) →
          current given now.2.bannedIps now.2.whitelist := by
  intro state holds
  refine (reload_sees sees reloads state.2 [] state ⟨holds, ⟨rfl, rfl⟩, nofun⟩).mono ?_
  rintro _ now ⟨held, looks, -, seen, runs⟩
  exact ⟨held, looks, seen, fun given agrees => settles _ _ (runs given agrees)⟩

/-- Once the bans are loaded they are current for all files that agree with what was seen. -/
theorem reloadBans_sees
    (sees : Sees formats config dir [dir ++ [Ban.FILE]] base seen) :
    Upholds (surroundings formats config dir) base (reloadBans formats config (dir ++ [Ban.FILE]))
      fun _ now => base now ∧ ∃ looks : List Look, (∀ look ∈ looks, seen look now) ∧
        ∀ given, (∀ look ∈ looks, Look.Agrees given look) →
          BansCurrent formats config dir given now.2.bannedIps := by
  have within : (reloadBans formats config (dir ++ [Ban.FILE])).Keeps
      (only (Op.Reloads [dir ++ [Ban.FILE]])) () :=
    keeps_only_mono (reloadBans_keeps _) fun op allowed => allowed.imp_right .inl
  refine reload_settles sees within (fun given bannedIps _ =>
    BansCurrent formats config dir given bannedIps) fun start ended ran => ?_
  rw [reloadBans_run] at ran
  cases ran
  exact getD_getD _ _

/-- Once the whitelist is loaded it is current for all such files. -/
theorem reloadWhitelist_sees
    (sees : Sees formats config dir (whitelistFiles dir) base seen) :
    Upholds (surroundings formats config dir) base (reloadWhitelist formats config dir)
      fun _ now => base now ∧ ∃ looks : List Look, (∀ look ∈ looks, seen look now) ∧
        ∀ given, (∀ look ∈ looks, Look.Agrees given look) →
          WhitelistCurrent formats config dir given now.2.whitelist := by
  have within : (reloadWhitelist formats config dir).Keeps
      (only (Op.Reloads (whitelistFiles dir))) () :=
    keeps_only_mono reloadWhitelist_keeps fun op allowed => allowed.imp_right .inr
  refine reload_settles sees within (fun given _ whitelist =>
    WhitelistCurrent formats config dir given whitelist) fun start ended ran => ?_
  rw [reloadWhitelist_run] at ran
  cases ran
  exact getD_getD _ _

end

/-! ## Before the registration -/

theorem sinceReload_append (log : List Look) (look : Look) :
    sinceReload (log ++ [look]) = if look.restarts then [] else sinceReload log ++ [look] := by
  simp [sinceReload, List.foldl_append]

theorem reloads_continues {op : Op} {files : List Path} (reloads : op.Reloads files)
    (reply : op.Reply) : Look.restarts ⟨op, reply⟩ = false := by
  cases op with
  | newDebouncer | dropDebouncer => exact (reloads.elim id fun sets => sets.elim id id).elim
  | _ => rfl

/-- What has been looked at since the reload began stays in the log. -/
theorem loading_sees (files : List Path) :
    Sees formats config dir files (fun _ => True) fun look now => look ∈ sinceReload now.1 where
  stable _ _ _ _ := trivial
  lasting look before after others member := by
    obtain ⟨logged, -⟩ := others
    rw [logged]
    exact member
  kept _ _ _ _ _ _ _ := trivial
  keeps look before op reply after reloads member takes := by
    obtain ⟨logged, -⟩ := takes
    rw [logged, sinceReload_append, reloads_continues reloads]
    exact List.mem_append_left _ member
  made before op reply after looks _ takes := by
    obtain ⟨logged, -⟩ := takes
    rw [logged, sinceReload_append, reloads_continues (.inl looks)]
    exact List.mem_append_right _ (List.mem_singleton_self _)

variable (formats config dir) in
/-- The bans are what the files say, if these are still as they were found. -/
def BansLoaded (now : System.Situation Op Op.Reply World) : Prop :=
  ∀ files, AsFound now.1 files → BansCurrent formats config dir files now.2.bannedIps

variable (formats config dir) in
/-- And so is the whitelist. -/
def Loaded (now : System.Situation Op Op.Reply World) : Prop :=
  BansLoaded formats config dir now ∧
    ∀ files, AsFound now.1 files → WhitelistCurrent formats config dir files now.2.whitelist

/-- What has been found stays so as long as the files are not loaded again. -/
theorem asFound_of_append {log : List Look} {look : Look} (continues : look.restarts = false)
    {files : Path → Option String} (found : AsFound (log ++ [look]) files) : AsFound log files := by
  intro earlier member
  apply found earlier
  rw [sinceReload_append, continues]
  exact List.mem_append_left _ member

theorem bansLoaded_stable :
    (surroundings formats config dir).Stable (BansLoaded formats config dir) := by
  rintro before after ⟨logged, change, changed⟩ loaded files found
  rw [logged] at found
  rw [changed]
  exact loaded files found

theorem loaded_stable : (surroundings formats config dir).Stable (Loaded formats config dir) := by
  apply bansLoaded_stable.and
  rintro before after ⟨logged, change, changed⟩ loaded files found
  rw [logged] at found
  rw [changed]
  exact loaded files found

/-- A reload that does not set the bans leaves them. -/
theorem reloading_bannedIps {op : Op} {files : List Path} {answer : Answer} {reply : op.Reply}
    {after : World} (reloads : op.LooksAt files ∨ op.SetsWhitelist)
    (executed : execute world op answer = some (reply, after)) :
    after.bannedIps = world.bannedIps := by
  cases op with
  | isFile | readToString | setWhitelist =>
    cases executed
    rfl
  | _ => exact (reloads.elim id id).elim

theorem reloading_whitelist {op : Op} {files : List Path} {answer : Answer} {reply : op.Reply}
    {after : World} (reloads : op.LooksAt files ∨ op.SetsBans)
    (executed : execute world op answer = some (reply, after)) :
    after.whitelist = world.whitelist := by
  cases op with
  | isFile | readToString | setBannedIps =>
    cases executed
    rfl
  | _ => exact (reloads.elim id id).elim

/-- No reload waits for events. -/
theorem reloads_demands {op : Op} {files : List Path} (reloads : op.Reloads files)
    (now : System.Situation Op Op.Reply World) : (surroundings formats config dir).demands now op := by
  rintro rfl
  exact (reloads.elim id fun sets => sets.elim id id).elim

/-- Before the watcher is registered, first the bans are loaded. -/
theorem reloadBans_loads : Upholds (surroundings formats config dir) (fun _ => True)
    (reloadBans formats config (dir ++ [Ban.FILE])) fun _ => BansLoaded formats config dir := by
  apply (reloadBans_sees (loading_sees _)).mono (fun _ _ => trivial)
  rintro _ now ⟨-, looks, seen, current⟩
  exact fun files found => current files fun look member => found look (seen look member)

/-- The whitelist is loaded after them. -/
theorem reloadWhitelist_loads : Upholds (surroundings formats config dir)
    (BansLoaded formats config dir) (reloadWhitelist formats config dir)
    fun _ => Loaded formats config dir := by
  have kept : Upholds (surroundings formats config dir) (BansLoaded formats config dir)
      (reloadWhitelist formats config dir) fun _ => BansLoaded formats config dir := by
    refine .keeps reloadWhitelist_keeps bansLoaded_stable
      (fun now op allowed _ => reloads_demands (allowed.imp_right .inr) now) ?_
    rintro before op reply after allowed loaded ⟨logged, ⟨answer, executed⟩, -⟩ files found
    rw [logged] at found
    rw [reloading_bannedIps allowed executed]
    exact loaded files (asFound_of_append (reloads_continues (allowed.imp_right .inr) reply) found)
  refine (kept.and (reloadWhitelist_sees (loading_sees _))).mono (fun _ held => ⟨held, trivial⟩) ?_
  rintro _ now ⟨held, -, looks, seen, current⟩
  exact ⟨held, fun files found => current files fun look member => found look (seen look member)⟩

/-! ## From the registration on -/

/-- The file lies directly in the directory. -/
def InDir (dir path : Path) : Prop := path ≠ [] ∧ path.dropLast = dir

theorem inDir_append (dir : Path) (file : String) : InDir dir (dir ++ [file]) := by
  simp [InDir]

/-- The name tells the files of a directory apart. -/
theorem endsWith_iff {path : Path} (inside : InDir dir path) (file : String) :
    endsWith path file = true ↔ path = dir ++ [file] := by
  obtain ⟨nonempty, rfl⟩ := inside
  rw [endsWith, decide_eq_true_iff]
  constructor
  · intro last
    exact (List.dropLast_append_getLast? file last).symm
  · intro same
    rw [same]
    simp

theorem reports_iff_inDir (watched : world.watched = some dir) (path : Path) :
    world.reports path = true ↔ InDir dir path := by
  simp only [World.reports, InDir, watched, Bool.and_eq_true, decide_eq_true_iff, Option.some.injEq]
  exact and_congr_right fun _ => eq_comm

/-- A look into the directory that is watched is true, or an event is pending for one of the
files it is about. -/
def Tracked (dir : Path) (files : List Path) (look : Look) (world : World) : Prop :=
  look.1.LooksAt files ∧ world.watched = some dir ∧
    (look.Agrees world.files ∨ ∃ path ∈ files, path ∈ world.pending)

/-- Reloads leave the files and the watcher alone. -/
theorem reloading_watcher {op : Op} {files : List Path} {answer : Answer} {reply : op.Reply}
    {after : World} (reloads : op.Reloads files)
    (executed : execute world op answer = some (reply, after)) :
    after.files = world.files ∧ after.watched = world.watched ∧ after.pending = world.pending := by
  cases op with
  | isFile | readToString | setBannedIps | setWhitelist =>
    cases executed
    exact ⟨rfl, rfl, rfl⟩
  | _ => exact (reloads.elim id fun sets => sets.elim id id).elim

/-- What has been pending is, and so is a change in the directory that is watched. -/
theorem mem_pending_change {change : Change} {path : Path} (was : path ∈ world.pending) :
    path ∈ (world.change change).pending := by
  unfold World.change
  split
  · exact List.mem_append_left _ was
  · exact was

theorem mem_pending_changed {change : Change} (watched : world.watched = some dir)
    (inside : InDir dir change.path) : change.path ∈ (world.change change).pending := by
  rw [World.change, if_pos ((reports_iff_inDir watched _).mpr inside)]
  exact List.mem_append_right _ (List.mem_singleton_self _)

/-- Other files are as before. -/
theorem change_files_of_ne {change : Change} {path : Path} (other : path ≠ change.path) :
    (world.change change).files path = world.files path := Function.update_of_ne other _ _

theorem tracked_change {files : List Path} (inside : ∀ path ∈ files, InDir dir path) {look : Look}
    {change : Change} (tracked : Tracked dir files look world) :
    Tracked dir files look (world.change change) := by
  obtain ⟨looks, watched, agrees⟩ := tracked
  refine ⟨looks, watched, ?_⟩
  rcases agrees with agrees | ⟨path, listed, due⟩
  · by_cases concerned : change.path ∈ files
    · exact .inr ⟨_, concerned, mem_pending_changed watched (inside _ concerned)⟩
    · left
      have other {path : Path} (listed : path ∈ files) :
          (world.change change).files path = world.files path :=
        change_files_of_ne fun same => concerned (same ▸ listed)
      obtain ⟨op, reply⟩ := look
      cases op with
      | isFile path => exact agrees.trans (congrArg _ (other looks).symm)
      | readToString path => exact agrees.trans (other looks).symm
      | _ => exact looks.elim
  · exact .inr ⟨path, listed, mem_pending_change due⟩

/-- Every look into the directory is tracked from then on. -/
theorem watching_sees {files : List Path} (inside : ∀ path ∈ files, InDir dir path) :
    Sees formats config dir files (fun now => now.2.watched = some dir)
      fun look now => Tracked dir files look now.2 where
  stable before after others watched := by
    obtain ⟨-, change, changed⟩ := others
    rw [changed]
    exact watched
  lasting look before after others tracked := by
    obtain ⟨-, change, changed⟩ := others
    rw [changed]
    exact tracked_change inside tracked
  kept before op reply after reloads watched takes := by
    obtain ⟨-, ⟨answer, executed⟩, -⟩ := takes
    exact (reloading_watcher reloads executed).2.1.trans watched
  keeps look before op reply after reloads tracked takes := by
    obtain ⟨-, ⟨answer, executed⟩, -⟩ := takes
    obtain ⟨files, watched, pending⟩ := reloading_watcher reloads executed
    rw [Tracked, files, watched, pending]
    exact tracked
  made before op reply after looks watched takes := by
    obtain ⟨-, ⟨answer, executed⟩, -⟩ := takes
    obtain ⟨same, agrees, -⟩ := execute_look looks executed
    exact ⟨looks, same ▸ watched, .inl (same ▸ agrees)⟩

/-- One of the files has a change that is pending or in the batch at hand. -/
def Due (files batch : List Path) (world : World) : Prop :=
  ∃ path ∈ files, path ∈ world.pending ∨ path ∈ batch

/-- The files are as they were loaded, or they are due to be loaded again. -/
def Abreast (files batch : List Path) (current : (Path → Option String) → Prop) (world : World) :
    Prop :=
  Due files batch world ∨ current world.files

section

variable {files batch : List Path} {current : (Path → Option String) → Prop}

theorem abreast_change {change : Change} (inside : ∀ path ∈ files, InDir dir path)
    (local_ : ∀ before after : Path → Option String, (∀ path ∈ files, after path = before path) →
      current before → current after)
    (watched : world.watched = some dir) (abreast : Abreast files batch current world) :
    Abreast files batch current (world.change change) := by
  rcases abreast with ⟨path, listed, due⟩ | holds
  · exact .inl ⟨path, listed, due.imp_left mem_pending_change⟩
  · by_cases concerned : change.path ∈ files
    · exact .inl ⟨_, concerned, .inl (mem_pending_changed watched (inside _ concerned))⟩
    · refine .inr (local_ world.files _ (fun path listed => ?_) holds)
      exact change_files_of_ne fun same => concerned (same ▸ listed)

/-- A reload that has been tracked all along leaves the list abreast. -/
theorem abreast_of_tracked {looks : List Look} (tracked : ∀ look ∈ looks, Tracked dir files look world)
    (holds : ∀ given, (∀ look ∈ looks, look.Agrees given) → current given) :
    Abreast files batch current world := by
  by_cases due : ∃ path ∈ files, path ∈ world.pending
  · obtain ⟨path, listed, pending⟩ := due
    exact .inl ⟨path, listed, .inl pending⟩
  · exact .inr (holds _ fun look member => (tracked look member).2.2.resolve_right due)

/-- An event for another file is not what makes these due. -/
theorem abreast_of_cons {path : Path} (other : path ∉ files)
    (abreast : Abreast files (path :: batch) current world) : Abreast files batch current world := by
  apply abreast.imp_left
  rintro ⟨due, listed, pending | now | ⟨_, rest⟩⟩
  · exact ⟨due, listed, .inl pending⟩
  · exact absurd listed other
  · exact ⟨due, listed, .inr rest⟩

end

theorem bansFile_inDir : ∀ path ∈ [dir ++ [Ban.FILE]], InDir dir path := by
  rintro path (_ | ⟨_, ⟨⟩⟩)
  exact inDir_append dir _

theorem whitelistFiles_inDir : ∀ path ∈ whitelistFiles dir, InDir dir path := by
  rintro path (_ | ⟨_, _ | ⟨_, _ | ⟨_, ⟨⟩⟩⟩⟩) <;> exact inDir_append dir _

variable (formats config dir) in
/-- The watcher is registered, and the bans are abreast of their file. -/
def BansAbreast (batch : List Path) (now : System.Situation Op Op.Reply World) : Prop :=
  now.2.watched = some dir ∧ Abreast [dir ++ [Ban.FILE]] batch
    (fun files => BansCurrent formats config dir files now.2.bannedIps) now.2

variable (formats config dir) in
/-- The watcher is registered, and the whitelist is abreast of its files. -/
def WhitelistAbreast (batch : List Path) (now : System.Situation Op Op.Reply World) : Prop :=
  now.2.watched = some dir ∧ Abreast (whitelistFiles dir) batch
    (fun files => WhitelistCurrent formats config dir files now.2.whitelist) now.2

theorem bansAbreast_stable (batch : List Path) :
    (surroundings formats config dir).Stable (BansAbreast formats config dir batch) := by
  rintro before after ⟨-, change, changed⟩ ⟨watched, abreast⟩
  rw [BansAbreast, changed]
  refine ⟨watched, abreast_change bansFile_inDir (fun given later same holds => ?_) watched abreast⟩
  rw [BansCurrent, same _ (.head _)]
  exact holds

theorem whitelistAbreast_stable (batch : List Path) :
    (surroundings formats config dir).Stable (WhitelistAbreast formats config dir batch) := by
  rintro before after ⟨-, change, changed⟩ ⟨watched, abreast⟩
  rw [WhitelistAbreast, changed]
  refine ⟨watched, abreast_change whitelistFiles_inDir (fun given later same holds => ?_) watched
    abreast⟩
  rw [WhitelistCurrent, same _ (.head _), same _ (.tail _ (.head _)),
    same _ (.tail _ (.tail _ (.head _)))]
  exact holds

/-- A reload of the one list leaves the other abreast. -/
theorem bansAbreast_reloading {program : FilesM Unit} {files batch : List Path}
    (within : program.Keeps (reloading files Op.SetsWhitelist) ()) :
    Upholds (surroundings formats config dir) (BansAbreast formats config dir batch) program
      fun _ => BansAbreast formats config dir batch := by
  refine .keeps within (bansAbreast_stable batch)
    (fun now op allowed _ => reloads_demands (allowed.imp_right .inr) now) ?_
  rintro before op reply after allowed ⟨watched, abreast⟩ ⟨-, ⟨answer, executed⟩, -⟩
  obtain ⟨files, still, pending⟩ := reloading_watcher (allowed.imp_right .inr) executed
  rw [BansAbreast, still, Abreast, Due, files, pending, reloading_bannedIps allowed executed]
  exact ⟨watched, abreast⟩

theorem whitelistAbreast_reloading {program : FilesM Unit} {files batch : List Path}
    (within : program.Keeps (reloading files Op.SetsBans) ()) :
    Upholds (surroundings formats config dir) (WhitelistAbreast formats config dir batch) program
      fun _ => WhitelistAbreast formats config dir batch := by
  refine .keeps within (whitelistAbreast_stable batch)
    (fun now op allowed _ => reloads_demands (allowed.imp_right .inl) now) ?_
  rintro before op reply after allowed ⟨watched, abreast⟩ ⟨-, ⟨answer, executed⟩, -⟩
  obtain ⟨files, still, pending⟩ := reloading_watcher (allowed.imp_right .inl) executed
  rw [WhitelistAbreast, still, Abreast, Due, files, pending, reloading_whitelist allowed executed]
  exact ⟨watched, abreast⟩

/-- Both names are asked for, one after the other. -/
theorem update_eq (path : Path) : update formats config dir path =
    (if endsWith path Ban.FILE then reloadBans formats config path else Pure.pure ()) >>= fun _ =>
      if endsWith path WHITELIST_FILE || endsWith path OPS_FILE ||
        endsWith path ServerProperties.FILE then reloadWhitelist formats config dir
      else Pure.pure () := by
  unfold update
  cases endsWith path Ban.FILE <;> rfl

/-- An event is dealt with: what it made due is loaded again. -/
theorem update_abreast {path : Path} {batch : List Path} (inside : InDir dir path) :
    Upholds (surroundings formats config dir)
      (fun now => BansAbreast formats config dir (path :: batch) now ∧
        WhitelistAbreast formats config dir (path :: batch) now)
      (update formats config dir path)
      fun _ now => BansAbreast formats config dir batch now ∧
        WhitelistAbreast formats config dir batch now := by
  have bans : Upholds (surroundings formats config dir) (BansAbreast formats config dir (path :: batch))
      (if endsWith path Ban.FILE then reloadBans formats config path else return ())
      fun _ => BansAbreast formats config dir batch := by
    refine .ite (fun named => ?_) fun unnamed => ?_
    · obtain rfl := (endsWith_iff inside _).mp named
      apply (reloadBans_sees (watching_sees bansFile_inDir)).mono (fun _ held => held.1)
      rintro _ now ⟨watched, looks, tracked, current⟩
      exact ⟨watched, abreast_of_tracked tracked current⟩
    · refine .pure fun now held => ⟨held.1, abreast_of_cons ?_ held.2⟩
      rw [List.mem_singleton, ← endsWith_iff inside]
      exact unnamed
  have whitelist : Upholds (surroundings formats config dir)
      (WhitelistAbreast formats config dir (path :: batch))
      (if endsWith path WHITELIST_FILE || endsWith path OPS_FILE ||
          endsWith path ServerProperties.FILE then reloadWhitelist formats config dir else return ())
      fun _ => WhitelistAbreast formats config dir batch := by
    have named_iff : (endsWith path WHITELIST_FILE || endsWith path OPS_FILE ||
        endsWith path ServerProperties.FILE) = true ↔ path ∈ whitelistFiles dir := by
      simp only [Bool.or_eq_true, endsWith_iff inside, whitelistFiles, List.mem_cons,
        List.not_mem_nil, or_false]
      tauto
    refine .ite (fun named => ?_) fun unnamed => ?_
    · apply (reloadWhitelist_sees (watching_sees whitelistFiles_inDir)).mono (fun _ held => held.1)
      rintro _ now ⟨watched, looks, tracked, current⟩
      exact ⟨watched, abreast_of_tracked tracked current⟩
    · refine .pure fun now held => ⟨held.1, abreast_of_cons ?_ held.2⟩
      rw [← named_iff]
      exact unnamed
  have first : (if endsWith path Ban.FILE then reloadBans formats config path else Pure.pure ()).Keeps
      (reloading [path] Op.SetsBans) () := .ite (fun _ => reloadBans_keeps path) fun _ => .pure
  have second : (if endsWith path WHITELIST_FILE || endsWith path OPS_FILE ||
        endsWith path ServerProperties.FILE then reloadWhitelist formats config dir
      else Pure.pure ()).Keeps (reloading (whitelistFiles dir) Op.SetsWhitelist) () :=
    .ite (fun _ => reloadWhitelist_keeps) fun _ => .pure
  rw [update_eq]
  exact .bind (bans.and (whitelistAbreast_reloading first)) fun _ =>
    .and (bansAbreast_reloading second) whitelist

/-! ## The loops -/

variable (formats config dir) in
/-- Both lists are abreast of their files. -/
def BothAbreast (batch : List Path) (now : System.Situation Op Op.Reply World) : Prop :=
  BansAbreast formats config dir batch now ∧ WhitelistAbreast formats config dir batch now

theorem updateAll_abreast {paths : List Path} (inside : ∀ path ∈ paths, InDir dir path) :
    Upholds (surroundings formats config dir) (BothAbreast formats config dir paths)
      (updateAll formats config dir paths) fun _ => BothAbreast formats config dir [] := by
  induction paths with
  | nil => exact .pure fun _ held => held
  | cons path paths ih =>
    obtain ⟨first, others⟩ := List.forall_mem_cons.mp inside
    exact .bind (update_abreast first) fun _ => ih others

/-- With nothing pending and no event at hand, nothing is left to load. -/
theorem upToDate_of_abreast {now : System.Situation Op Op.Reply World}
    (abreast : BothAbreast formats config dir [] now) (empty : now.2.pending = []) :
    UpToDate formats config dir now.2 := by
  have settled {files : List Path} {current : (Path → Option String) → Prop}
      (abreast : Abreast files [] current now.2) : current now.2.files := by
    apply abreast.resolve_left
    rintro ⟨path, -, pending | now⟩
    · rw [empty] at pending
      cases pending
    · cases now
  exact upToDate_iff.mpr ⟨settled abreast.1.2, settled abreast.2.2⟩

/-- A batch that is received is at hand instead of pending. -/
theorem recv_events {answer : Answer} {paths : List Path} {after : World}
    (executed : execute world .recv answer = some (.events paths, after)) :
    (∀ path ∈ paths, world.reports path = true) ∧
      after = { world with pending := world.pending.filter (· ∉ paths) } := by
  change world.receive answer.received = _ at executed
  cases received : answer.received with
  | events batch =>
    rw [received, World.receive] at executed
    split at executed
    · rename_i reported
      cases executed
      exact ⟨reported, rfl⟩
    · cases executed
  | error | disconnected =>
    rw [received] at executed
    cases executed

theorem abreast_received {files paths : List Path} {current : (Path → Option String) → Prop}
    (abreast : Abreast files [] current world) :
    Abreast files paths current { world with pending := world.pending.filter (· ∉ paths) } := by
  apply abreast.imp_left
  rintro ⟨path, listed, pending | now⟩
  · by_cases received : path ∈ paths
    · exact ⟨path, listed, .inr received⟩
    · exact ⟨path, listed, .inl (List.mem_filter.mpr ⟨pending, by simpa using received⟩)⟩
  · cases now

theorem drop_follows : Upholds (surroundings formats config dir) (fun _ => True)
    (perform .dropDebouncer >>= fun _ => Pure.pure true) fun _ _ => True :=
  .bind (.perform_any fun _ same => nomatch same) fun _ => .pure fun _ _ => trivial

theorem watchLoop_follows (rounds : Nat) :
    Upholds (surroundings formats config dir) (BothAbreast formats config dir [])
      (watchLoop formats config dir rounds) fun _ _ => True := by
  induction rounds with
  | zero => exact .pure fun _ _ => trivial
  | succ rounds ih =>
    have received : Upholds (surroundings formats config dir) (BothAbreast formats config dir [])
        (perform .recv) fun reply now => ∀ paths, reply = .events paths →
          BothAbreast formats config dir paths now ∧ ∀ path ∈ paths, InDir dir path := by
      refine .perform ((bansAbreast_stable _).and (whitelistAbreast_stable _))
        (fun now abreast _ empty => upToDate_of_abreast abreast empty) ?_
      rintro before reply after ⟨⟨watched, bans⟩, -, whitelist⟩ ⟨-, ⟨answer, executed⟩, -⟩ paths rfl
      obtain ⟨reported, same⟩ := recv_events executed
      rw [BothAbreast, BansAbreast, WhitelistAbreast, same]
      exact ⟨⟨⟨watched, abreast_received bans⟩, watched, abreast_received whitelist⟩,
        fun path member => (reports_iff_inDir watched path).mp (reported path member)⟩
    refine .bind received fun reply => ?_
    cases reply with
    | events paths =>
      intro now held
      obtain ⟨abreast, inside⟩ := held paths rfl
      exact secures_bind.mpr ((updateAll_abreast inside now abreast).mono fun _ now abreast =>
        ih now abreast)
    | error => exact drop_follows.mono (fun _ _ => trivial) fun _ _ _ => trivial
    | disconnected => exact drop_follows.mono (fun _ _ => trivial) fun _ _ _ => trivial

/-- A call that sets nothing and does not restart the loading leaves the lists loaded. -/
theorem loaded_takes {before after : System.Situation Op Op.Reply World} {look : Look}
    (continues : look.restarts = false) (logged : after.1 = before.1 ++ [look])
    (bans : after.2.bannedIps = before.2.bannedIps)
    (whitelist : after.2.whitelist = before.2.whitelist)
    (loaded : Loaded formats config dir before) : Loaded formats config dir after := by
  rw [Loaded, BansLoaded, logged, bans, whitelist]
  exact ⟨fun files found => loaded.1 files (asFound_of_append continues found),
    fun files found => loaded.2 files (asFound_of_append continues found)⟩

/-- Where the files are still as they were found, the registration finds both lists abreast. -/
theorem registered_abreast {before after : System.Situation Op Op.Reply World}
    (loaded : Loaded formats config dir before)
    (takes : (surroundings formats config dir).takes before (.watch dir) true after) :
    BothAbreast formats config dir [] after := by
  obtain ⟨-, ⟨answer, executed⟩, registered⟩ := takes
  have found := registered dir rfl
  have same : after.2 = { before.2 with watched := some dir, pending := [] } := by
    obtain ⟨succeeds, same⟩ := Prod.mk.inj (Option.some.inj executed)
    rw [← same, if_pos succeeds]
  rw [BothAbreast, BansAbreast, WhitelistAbreast, same]
  exact ⟨⟨rfl, .inr (loaded.1 _ found)⟩, rfl, .inr (loaded.2 _ found)⟩

theorem watchServer_follows (rounds : Nat) :
    Upholds (surroundings formats config dir) (Loaded formats config dir)
      (watchServer formats config rounds dir) fun _ _ => True := by
  have looked : Upholds (surroundings formats config dir) (Loaded formats config dir)
      (perform (.isDir dir)) fun _ => Loaded formats config dir := by
    refine .perform loaded_stable (fun _ _ same => nomatch same) ?_
    rintro before reply after loaded ⟨logged, ⟨answer, executed⟩, -⟩
    have same : before.2 = after.2 := (Prod.mk.inj (Option.some.inj executed)).2
    exact loaded_takes rfl logged (by rw [same]) (by rw [same]) loaded
  have created : Upholds (surroundings formats config dir) (Loaded formats config dir)
      (perform .newDebouncer) fun reply now => reply = true → Loaded formats config dir now := by
    refine .perform loaded_stable (fun _ _ same => nomatch same) ?_
    rintro before reply after loaded ⟨logged, ⟨answer, executed⟩, -⟩ rfl
    have same : before.2 = after.2 := (Prod.mk.inj (Option.some.inj executed)).2
    exact loaded_takes rfl logged (by rw [same]) (by rw [same]) loaded
  have registered : Upholds (surroundings formats config dir) (Loaded formats config dir)
      (perform (.watch dir)) fun reply now => reply = true → BothAbreast formats config dir [] now := by
    refine .perform loaded_stable (fun _ _ same => nomatch same) ?_
    rintro before reply after loaded takes rfl
    exact registered_abreast loaded takes
  refine .bind looked fun there => .ite (fun _ => .bind created fun made => .ite (fun yes => ?_)
    fun _ => .pure fun _ _ => trivial) fun _ => .pure fun _ _ => trivial
  refine .bind (registered.mono (fun now held => held yes) fun _ _ held => held) fun watches =>
    .ite (fun yes => ?_) fun _ => ?_
  · exact (watchLoop_follows rounds).mono (fun now held => held yes) fun _ _ held => held
  · exact drop_follows.mono (fun _ _ => trivial) fun _ _ held => held

theorem serviceLoop_follows (rounds : Nat) :
    Upholds (surroundings formats config dir) (fun _ => True)
      (serviceLoop formats config dir rounds) fun _ _ => True := by
  induction rounds with
  | zero => exact .pure fun _ _ => trivial
  | succ rounds ih =>
    refine .bind reloadBans_loads fun _ => .bind reloadWhitelist_loads fun _ =>
      .bind (watchServer_follows rounds) fun _ => .ite (fun _ => ih) fun _ => .pure fun _ _ => trivial

theorem service_follows (rounds : Nat) (directory : config.server.directory = some dir) :
    Upholds (surroundings formats config dir) (fun _ => True)
      (service formats config rounds) fun _ _ => True := by
  unfold service
  rw [directory]
  exact .bind (.perform_any fun _ same => nomatch same) fun _ =>
    .ite (fun _ => serviceLoop_follows rounds) fun _ => .pure fun _ _ => trivial

end

/-- In every run in which the watcher is only registered while the files are as they were
loaded, the ban list and the whitelist follow the files: when the service waits and no event
is pending, a reload would leave them as they are. -/
theorem lists_follow_files (formats : FileFormats) (config : Config) (rounds : Nat) (world : World)
    {pool : Pool Op Op.Reply World Unit}
    (reached : (watching formats config rounds).Reaches RegistersAsFound
      ((watching formats config rounds).alone () world) pool)
    {task : Task Op Op.Reply Unit} (running : task ∈ pool.tasks) (waits : task.next? = some .recv)
    (settled : pool.world.pending = []) :
    ∀ dir ∈ config.server.directory, UpToDate formats config dir pool.world := by
  intro dir directory
  have takes (task : Task Op Op.Reply Unit) (world : World) (answer : Answer) (op : Op)
      (next : op.Reply → FilesM Unit) (reply : op.Reply) (after : World)
      (rest : task.rest = .request op next)
      (meets : RegistersAsFound ⟨world, [task]⟩ (.run 0 answer))
      (executed : execute world op answer = some (reply, after)) :
      (surroundings formats config dir).takes (task.log, world) op reply
        (task.log ++ [⟨op, reply⟩], after) := by
    refine ⟨rfl, ⟨answer, executed⟩, fun dir same => ?_⟩
    cases same
    refine meets task rfl ?_ (Prod.mk.inj (Option.some.inj executed)).1
    rw [registers, Task.next?, rest]
    rfl
  have others (log : List Look) (before : World) (change : Change) (after : World)
      (changed : some (before.change change) = some after) :
      (surroundings formats config dir).others (log, before) (log, after) :=
    ⟨rfl, change, (Option.some.inj changed).symm⟩
  obtain ⟨only, alone, secures⟩ := System.Reaches.secures (fun _ => rfl) (fun _ => rfl) others takes
    (service_follows rounds directory ([], world) trivial) reached
  rw [alone, List.mem_singleton] at running
  subst running
  exact System.demands_of_secures secures waits rfl settled

/-! Two runs in which an address is banned while the proxy runs. -/

def bannedAddress : IpAddr := .v4 0x0A000001

/-- The parsers, as far as the runs below go: a list is empty, or it is the one of the run. -/
def plainFormats : FileFormats where
  bannedIps contents := some (if contents = "[]" then [] else [(bannedAddress, ⟨none, none⟩)])
  whitelist _ := some []
  ops _ := some []

/-- The server has not written any files yet. -/
def newServer : World where
  files _ := none

/-- `/ban-ip 10.0.0.1`. -/
def banned : Change where
  path := [".", "banned-ips.json"]
  contents := some "[\x7b\"ip\":\"10.0.0.1\"\x7d]"

/-- The address is banned after the registration, and the event is told. -/
def bannedWhileWatching : List (Move Answer Unit Change) :=
  .replicate 8 (.run 0 {}) ++ .outside banned ::
    .run 0 { received := .events [banned.path] } :: .replicate 3 (.run 0 {})

/-- The address is banned between the load and the registration. -/
def bannedWhileLoading : List (Move Answer Unit Change) :=
  .replicate 7 (.run 0 {}) ++ [.outside banned, .run 0 {}]

/-- The service waits, and nothing is pending. -/
def settled (pool : Pool Op Op.Reply World Unit) : Bool :=
  pool.world.pending.isEmpty &&
    match pool.tasks.map Task.next? with
    | [some .recv] => true
    | _ => false

theorem settled_waits {pool : Pool Op Op.Reply World Unit} (holds : settled pool = true) :
    pool.world.pending = [] ∧ ∃ task ∈ pool.tasks, task.next? = some .recv := by
  rw [settled, Bool.and_eq_true, List.isEmpty_iff] at holds
  refine ⟨holds.1, ?_⟩
  have only : pool.tasks.map Task.next? = [some .recv] := by
    have waits := holds.2
    split at waits
    · assumption
    · cases waits
  exact List.mem_map.mp (only ▸ List.mem_singleton_self _)

/-- A ban that is told of is in memory, and nothing is left to load. -/
theorem lists_follow_files_banned : ∃ pool,
    (watching plainFormats {} 4).Reaches RegistersAsFound
      ((watching plainFormats {} 4).alone () newServer) pool ∧
    (pool.world.bannedIps.ips bannedAddress).isSome = true ∧
    UpToDate plainFormats {} ["."] pool.world := by
  have ran : ((watching plainFormats {} 4).play RegistersAsFound
      ((watching plainFormats {} 4).alone () newServer) bannedWhileWatching).map (fun pool =>
        settled pool && (pool.world.bannedIps.ips bannedAddress).isSome) = some true := by
    decide +kernel
  obtain ⟨pool, played, holds⟩ := Option.map_eq_some_iff.mp ran
  obtain ⟨waits, known⟩ := Bool.and_eq_true_iff.mp holds
  obtain ⟨nothing, task, running, waiting⟩ := settled_waits waits
  have reached := System.play_reaches played
  exact ⟨pool, reached, known,
    lists_follow_files plainFormats {} 4 newServer reached running waiting nothing ["."] rfl⟩

/-- A ban in between is not told of, and stays unknown. -/
theorem ban_while_loading_missed :
    ¬ ∀ (formats : FileFormats) (config : Config) (rounds : Nat) (world : World)
        (pool : Pool Op Op.Reply World Unit),
      (∀ contents, formats.bannedIps contents ≠ none ∧ formats.whitelist contents ≠ none ∧
        formats.ops contents ≠ none) →
      (watching formats config rounds).Reaches (fun _ _ => True)
        ((watching formats config rounds).alone () world) pool →
      ∀ task ∈ pool.tasks, task.next? = some .recv → pool.world.pending = [] →
        ∀ dir ∈ config.server.directory, UpToDate formats config dir pool.world := by
  intro every
  have ran : ((watching plainFormats {} 4).play (fun _ _ => True)
      ((watching plainFormats {} 4).alone () newServer) bannedWhileLoading).map (fun pool =>
        settled pool && ((pool.world.bannedIps.ips bannedAddress).isNone &&
          ((pool.world.reloadedBans plainFormats {} banned.path).ips bannedAddress).isSome)) =
      some true := by
    decide +kernel
  obtain ⟨pool, played, holds⟩ := Option.map_eq_some_iff.mp ran
  obtain ⟨waits, missed⟩ := Bool.and_eq_true_iff.mp holds
  obtain ⟨unknown, listed⟩ := Bool.and_eq_true_iff.mp missed
  obtain ⟨nothing, task, running, waiting⟩ := settled_waits waits
  have upToDate := every plainFormats {} 4 newServer pool (fun _ => ⟨nofun, nofun, nofun⟩)
    (System.play_reaches played) task running waiting nothing ["."] rfl
  have same : pool.world.reloadedBans plainFormats {} banned.path = pool.world.bannedIps :=
    (upToDate_iff.mp upToDate).1
  rw [same, Option.isSome_iff_ne_none] at listed
  exact listed (Option.isNone_iff_eq_none.mp unknown)

end PlexPaper.FileWatcher
