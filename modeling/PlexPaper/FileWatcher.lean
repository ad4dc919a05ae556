import PlexPaper.Access
import PlexPaper.LobbyPackets
import PlexPaper.Interference

/-! `service/file_watcher.rs`, with what it calls in `mc/ban.rs`, `mc/whitelist.rs` and
`mc/server_properties.rs`: the thread that keeps the ban list and the whitelist in memory
as the files of the server say. It looks at one file after the other, and the files may
change between any two looks. The parsers are third-party, kept as parameters; what is
only logged is left out. Every loop is cut after `rounds` iterations. -/
namespace PlexPaper.FileWatcher
open Tasks

/-- `ban::FILE`. -/
def Ban.FILE : String := "banned-ips.json"

def WHITELIST_FILE : String := "whitelist.json"
def OPS_FILE : String := "ops.json"

/-- `server_properties::FILE`. -/
def ServerProperties.FILE : String := "server.properties"

/-- `Path::ends_with`, for a file name. -/
def endsWith (path : Path) (file : String) : Bool := path.getLast? = some file

/-- `serde_json::from_str` for the lists of the server, as far as they are kept: the bans
by address, and the names of the users. -/
structure FileFormats where
  bannedIps : String → Option (List (IpAddr × BannedIp))
  whitelist : String → Option (List String)
  ops : String → Option (List String)

/-- What the debouncer sends: the paths that have changed, or an error. The channel may
be closed as well. -/
inductive Received where
  | events (paths : List Path)
  | error
  | disconnected

/-- What the service does, one call to the system after the other. `dropDebouncer` is the
end of the scope of `watch_server`. -/
inductive Op where
  | isDir (path : Path)
  | isFile (path : Path)
  | readToString (path : Path)
  | setBannedIps (ips : BannedIps)
  | setWhitelist (whitelist : Option Whitelist)
  | newDebouncer
  | watch (dir : Path)
  | recv
  | dropDebouncer

@[reducible] def Op.Reply : Op → Type
  | .isDir _ | .isFile _ | .newDebouncer | .watch _ => Bool
  | .readToString _ => Option String
  | .setBannedIps _ | .setWhitelist _ | .dropDebouncer => Unit
  | .recv => Received

abbrev FilesM := Program Op Op.Reply

abbrev perform (op : Op) : FilesM op.Reply := Program.perform op

/-! ## The loaders -/

/-- The entries by address. The last of an address stays. -/
def BannedIps.ofList (entries : List (IpAddr × BannedIp)) : BannedIps where
  ips ip := (entries.reverse.find? (·.1 = ip)).map (·.2)

/-- `str::split_once`, at a `=`. -/
def splitOnce (line : String) : Option (String × String) :=
  match line.toList.span (· ≠ '=') with
  | (_, []) => none
  | (before, _ :: after) => some (.ofList before, .ofList after)

/-- The first value that a text has for a property. `to_lowercase` is on ASCII letters:
no other character has one of those of `white-list` as its lower case. -/
def propertyOf (contents property : String) : Option String :=
  (((Lobby.lines contents).filterMap splitOnce).find? fun line =>
    (trim line.1).toLower = property.toLower).map fun line => trim line.2

section Programs

variable (formats : FileFormats) (config : Config)

/-- `server_properties::read_property`. -/
def readProperty (file : Path) (property : String) : FilesM (Option String) := do
  if ← perform (.isFile file) then
    match ← perform (.readToString file) with
    | none => return none
    | some contents => return propertyOf contents property
  else return none

/-- `ban::load`. -/
def Ban.load (path : Path) : FilesM (Option BannedIps) := do
  match ← perform (.readToString path) with
  | none => return none
  | some contents => return (formats.bannedIps contents).map BannedIps.ofList

/-- `load_whitelist` and `load_ops`. -/
def loadUsers (parse : String → Option (List String)) (path : Path) :
    FilesM (Option (List String)) := do
  match ← perform (.readToString path) with
  | none => return none
  | some contents => return parse contents

/-- The users of one of the two files of `whitelist::load_dir`, if it is there. -/
def usersIn (parse : String → Option (List String)) (file : Path) :
    FilesM (Option (List String)) := do
  if ← perform (.isFile file) then loadUsers parse file else return some []

/-- `whitelist::load_dir`. -/
def loadDir (dir : Path) : FilesM (Option Whitelist) := do
  match ← usersIn formats.whitelist (dir ++ [WHITELIST_FILE]) with
  | none => return none
  | some whitelist =>
    match ← usersIn formats.ops (dir ++ [OPS_FILE]) with
    | none => return none
    | some ops => return some { whitelist, ops }

def reloadBans (path : Path) : FilesM Unit := do
  if !config.server.blockBannedIps && !config.server.dropBannedIps then return ()
  else if ← perform (.isFile path) then
    match ← Ban.load formats path with
    | some ips => perform (.setBannedIps ips)
    | none => return ()
  else perform (.setBannedIps {})

def reloadWhitelist (dir : Path) : FilesM Unit := do
  if !config.server.wakeWhitelist then return ()
  else
    let property ← readProperty (dir ++ [ServerProperties.FILE]) "white-list"
    let enabled := (property.map fun v => trim v == "true").getD false
    if !enabled then perform (.setWhitelist none)
    else
      match ← loadDir formats dir with
      | some whitelist => perform (.setWhitelist (some whitelist))
      | none => return ()

/-! ## The service -/

def update (dir path : Path) : FilesM Unit := do
  if endsWith path Ban.FILE then reloadBans formats config path
  if endsWith path WHITELIST_FILE || endsWith path OPS_FILE ||
      endsWith path ServerProperties.FILE then
    reloadWhitelist formats config dir

/-- The events of one batch. -/
def updateAll (dir : Path) : List Path → FilesM Unit
  | [] => return ()
  | path :: paths => do
    update formats config dir path
    updateAll dir paths

/-- The loop of `watch_server`. -/
def watchLoop (dir : Path) : (rounds : Nat) → FilesM Bool
  | 0 => return false
  | rounds + 1 => do
    match ← perform .recv with
    | .events paths =>
      updateAll formats config dir paths
      watchLoop dir rounds
    | .error =>
      perform .dropDebouncer
      return true
    | .disconnected =>
      perform .dropDebouncer
      return true

def watchServer (rounds : Nat) (dir : Path) : FilesM Bool := do
  if ← perform (.isDir dir) then
    if ← perform .newDebouncer then
      if ← perform (.watch dir) then watchLoop formats config dir rounds
      else
        perform .dropDebouncer
        return true
    else return true
  else return false

/-- The loop of `service`. -/
def serviceLoop (dir : Path) : (rounds : Nat) → FilesM Unit
  | 0 => return ()
  | rounds + 1 => do
    reloadBans formats config (dir ++ [Ban.FILE])
    reloadWhitelist formats config dir
    if ← watchServer formats config rounds dir then serviceLoop dir rounds
    else return ()

def service (rounds : Nat) : FilesM Unit :=
  match config.server.directory with
  | none => return ()
  | some dir => do
    if ← perform (.isDir dir) then serviceLoop formats config dir rounds
    else return ()

end Programs

/-! ## The files -/

/-- The regular files with what is in them, what the service keeps in memory, and the
watcher: the directory that is registered, if one is, and the changes in it that it has
not reported yet. -/
structure World where
  files : Path → Option String
  bannedIps : BannedIps := {}
  whitelist : Option Whitelist := none
  watched : Option Path := none
  pending : List Path := []

/-- A file is written, replaced or, with no contents, removed. -/
structure Change where
  path : Path
  contents : Option String

/-- The file lies in the directory that is watched. -/
def World.reports (world : World) (path : Path) : Bool :=
  path ≠ [] && world.watched = some path.dropLast

/-- A change that is made after `watch` becomes an event with its path. -/
def World.change (world : World) (change : Change) : World :=
  { world with
    files := Function.update world.files change.path change.contents
    pending := if world.reports change.path then world.pending ++ [change.path] else world.pending }

/-- What the system decides when it is called. -/
structure Answer where
  succeeds : Bool := true
  received : Received := .disconnected

instance : Inhabited Answer := ⟨{}⟩

/-- Events are told per path: one stands for all changes of its file so far. -/
def World.receive (world : World) : Received → Option (Received × World)
  | .events paths =>
    if ∀ path ∈ paths, world.reports path then
      some (.events paths, { world with pending := world.pending.filter (· ∉ paths) })
    else none
  | .error => some (.error, world)
  | .disconnected => some (.disconnected, world)

/-- Regular files can be read, and the system decides what succeeds otherwise. -/
def execute (world : World) (op : Op) (answer : Answer) : Option (op.Reply × World) :=
  match op with
  | .isDir _ => some (answer.succeeds, world)
  | .isFile path => some ((world.files path).isSome, world)
  | .readToString path => some (world.files path, world)
  | .setBannedIps ips => some ((), { world with bannedIps := ips })
  | .setWhitelist whitelist => some ((), { world with whitelist })
  | .newDebouncer => some (answer.succeeds, world)
  | .watch dir => some (answer.succeeds,
      if answer.succeeds then { world with watched := some dir, pending := [] } else world)
  | .recv => world.receive answer.received
  | .dropDebouncer => some ((), { world with watched := none, pending := [] })

/-- The service, and whoever else writes files. -/
def watching (formats : FileFormats) (config : Config) (rounds : Nat) :
    System Op Op.Reply World Answer Unit Change where
  body _ := service formats config rounds
  callable _ := false
  execute := execute
  spawns _ := []
  outside world change := some (world.change change)

/-! ## What a reload makes of the files -/

section

variable (formats : FileFormats) (config : Config)

/-- What `reload_bans` sets, if anything. -/
def loadedBans (contents : Option String) : Option BannedIps :=
  if !config.server.blockBannedIps && !config.server.dropBannedIps then none
  else match contents with
    | none => some {}
    | some contents => (formats.bannedIps contents).map BannedIps.ofList

/-- The users that are read from one file. -/
def loadedUsers (parse : String → Option (List String)) : Option String → Option (List String)
  | none => some []
  | some contents => parse contents

/-- What `reload_whitelist` sets, if anything. -/
def loadedWhitelist (properties whitelist ops : Option String) : Option (Option Whitelist) :=
  if !config.server.wakeWhitelist then none
  else
    let property := properties.bind (propertyOf · "white-list")
    if !(property.map fun v => trim v == "true").getD false then some none
    else
      match loadedUsers formats.whitelist whitelist, loadedUsers formats.ops ops with
      | some whitelist, some ops => some (some { whitelist, ops })
      | _, _ => none

/-- The ban list that a reload would leave in memory. -/
def World.reloadedBans (world : World) (path : Path) : BannedIps :=
  (loadedBans formats config (world.files path)).getD world.bannedIps

/-- The whitelist that a reload would leave in memory. -/
def World.reloadedWhitelist (world : World) (dir : Path) : Option Whitelist :=
  (loadedWhitelist formats config (world.files (dir ++ [ServerProperties.FILE]))
    (world.files (dir ++ [WHITELIST_FILE])) (world.files (dir ++ [OPS_FILE]))).getD world.whitelist

variable {formats config}

theorem readProperty_run (world : World) (file : Path) (property : String) :
    (readProperty file property).run execute [] world =
      some ((world.files file).bind (propertyOf · property), world, []) := by
  unfold readProperty
  rw [Program.run_bind, Program.run_perform]
  cases found : world.files file with
  | none => simp [execute, found]
  | some contents =>
    simp only [execute, found, Option.isSome_some, Option.map_some, Option.bind_some, if_true,
      List.tail_nil]
    rw [Program.run_bind, Program.run_perform]
    simp [execute, found]

theorem load_run (world : World) (path : Path) :
    (Ban.load formats path).run execute [] world =
      some ((world.files path).bind fun contents =>
        (formats.bannedIps contents).map BannedIps.ofList, world, []) := by
  unfold Ban.load
  rw [Program.run_bind, Program.run_perform]
  cases found : world.files path <;> simp [execute, found]

theorem usersIn_run (parse : String → Option (List String)) (world : World) (file : Path) :
    (usersIn parse file).run execute [] world =
      some (loadedUsers parse (world.files file), world, []) := by
  unfold usersIn loadUsers
  rw [Program.run_bind, Program.run_perform]
  cases found : world.files file with
  | none => simp [execute, found, loadedUsers]
  | some contents =>
    simp only [execute, found, Option.isSome_some, Option.map_some, Option.bind_some, if_true,
      List.tail_nil]
    rw [Program.run_bind, Program.run_perform]
    simp [execute, found, loadedUsers]

theorem loadDir_run (world : World) (dir : Path) :
    (loadDir formats dir).run execute [] world =
      some ((loadedUsers formats.whitelist (world.files (dir ++ [WHITELIST_FILE]))).bind fun whitelist =>
        (loadedUsers formats.ops (world.files (dir ++ [OPS_FILE]))).map fun ops => { whitelist, ops },
        world, []) := by
  unfold loadDir
  rw [Program.run_bind, usersIn_run]
  cases loadedUsers formats.whitelist (world.files (dir ++ [WHITELIST_FILE])) with
  | none => rfl
  | some whitelist =>
    simp only [Option.bind_some]
    rw [Program.run_bind, usersIn_run]
    cases loadedUsers formats.ops (world.files (dir ++ [OPS_FILE])) <;> rfl

/-- By itself a reload of the bans sets what the file says. -/
theorem reloadBans_run (world : World) (path : Path) :
    (reloadBans formats config path).run execute [] world =
      some ((), { world with bannedIps := world.reloadedBans formats config path }, []) := by
  unfold reloadBans World.reloadedBans loadedBans
  split
  · rfl
  · rw [Program.run_bind, Program.run_perform]
    cases found : world.files path with
    | none =>
      simp only [execute, found, Option.isSome_none, Option.map_some, Option.bind_some,
        Bool.false_eq_true, if_false, List.tail_nil]
      rw [Program.run_perform]
      rfl
    | some contents =>
      simp only [execute, found, Option.isSome_some, Option.map_some, Option.bind_some, if_true,
        List.tail_nil]
      rw [Program.run_bind, load_run, found]
      cases loads : formats.bannedIps contents with
      | none => simp [loads]
      | some entries =>
        simp only [Option.bind_some, loads, Option.map_some, Option.getD_some]
        rw [Program.run_perform]
        rfl

/-- By itself a reload of the whitelist sets what the three files say. -/
theorem reloadWhitelist_run (world : World) (dir : Path) :
    (reloadWhitelist formats config dir).run execute [] world =
      some ((), { world with whitelist := world.reloadedWhitelist formats config dir }, []) := by
  unfold reloadWhitelist World.reloadedWhitelist loadedWhitelist
  split
  · rfl
  · rw [Program.run_bind, readProperty_run]
    simp only [Option.bind_some]
    split
    · rw [Program.run_perform]
      rfl
    · rw [Program.run_bind, loadDir_run]
      simp only [Option.bind_some]
      cases loadedUsers formats.whitelist (world.files (dir ++ [WHITELIST_FILE])) with
      | none => rfl
      | some whitelist =>
        cases loadedUsers formats.ops (world.files (dir ++ [OPS_FILE])) with
        | none => rfl
        | some ops =>
          simp only [Option.bind_some, Option.map_some]
          rw [Program.run_perform]
          rfl

end

end PlexPaper.FileWatcher
