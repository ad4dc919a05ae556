import PlexPaper.PropertyLaws
import PlexPaper.ServerCommand

/-! How the proxy starts: `main.rs` and `action/start.rs`, with `Config::runtime` and what
`server_properties.rs` does to the file. The proxy decides on its own where the server is to
listen, and writes that into the properties of the server before there is one. The generator
of random characters, the tables of Unicode and the order of a hash map are third-party, kept
as parameters; what is only logged is left out. -/
namespace PlexPaper.StartUp
open ServerProperties ServerCommand FileWatcher

def INTERNAL_PORT_FALLBACK : UInt16 := 25567
def RCON_PORT_DEFAULT : UInt16 := 25575
def RCON_PASSWORD_LENGTH : Nat := 32

/-! ## Numbers in the environment -/

/-- The digits of a number behind `value`, as long as it stays in range. -/
def parseDigits (bound : Nat) : List Char → Nat → Option Nat
  | [], value => some value
  | c :: rest, value =>
    if c.isDigit ∧ 10 * value + (c.toNat - '0'.toNat) < bound then
      parseDigits bound rest (10 * value + (c.toNat - '0'.toNat))
    else none

/-- `str::parse`, for an unsigned integer below `bound`. -/
def parseUnsigned (bound : Nat) (s : String) : Option Nat :=
  match s.toList with
  | [] => none
  | '+' :: c :: rest => parseDigits bound (c :: rest) 0
  | chars => parseDigits bound chars 0

/-- `env::var`, where it is set and is Unicode. -/
abbrev Environment := String → Option String

def envU16 (value : Option String) : Option UInt16 :=
  ((envString value).bind (parseUnsigned UInt16.size)).map UInt16.ofNat

def envU32 (value : Option String) : Option UInt32 :=
  ((envString value).bind (parseUnsigned UInt32.size)).map UInt32.ofNat

/-! ## The configuration -/

/-- `config::Config`, with what is read only while starting. -/
structure StartConfig extends Config where
  publicAddress : SocketAddr
  command : String
  rconPort : UInt16 := RCON_PORT_DEFAULT
  rconPassword : String := ""
  randomizePassword : Bool := true
  rewriteServerProperties : Bool := true

/-- `main::java_args`, of all arguments. -/
def javaArgs (args : List String) : List String :=
  (args.drop 1).filter fun arg => trim arg ≠ "" ∧ trim arg ≠ "start" ∧ trim arg ≠ "run"

/-- `Config::runtime`, where `windows` is `cfg!(windows)`. -/
def runtime (shlex : Shlex) (windows : Bool) (env : Environment) (javaArgs : List String) : StartConfig :=
  let publicPort := (envU16 (env "SERVER_PORT")).getD PUBLIC_PORT_DEFAULT
  let internalPort :=
    if publicPort = INTERNAL_PORT_PRIMARY then INTERNAL_PORT_FALLBACK else INTERNAL_PORT_PRIMARY
  { publicAddress := ⟨.v4 0, publicPort⟩
    publicConfig :=
      { version := (envString (env "MC_VERSION")).getD PROTO_DEFAULT_VERSION
        protocol := (envU32 (env "PROTOCOL_NUMBER")).getD PROTO_DEFAULT_PROTOCOL }
    server :=
      { directory := some ["."]
        address := ⟨.v4 0x7F000001, internalPort⟩ }
    command := buildCommand shlex (env "SERVER_JARFILE") javaArgs
    rcon := { enabled := windows } }

/-- The characters of `rand::distributions::Alphanumeric`. -/
def ALPHANUMERIC : List Char :=
  "ABCDEFGHIJKLMNOPQRSTUVWXYZabcdefghijklmnopqrstuvwxyz0123456789".toList

/-- `generate_random_password`, of what the generator answers one after the other. -/
def generateRandomPassword (sample : Nat → Fin 62) : String :=
  .ofList ((List.range RCON_PASSWORD_LENGTH).map fun i => ALPHANUMERIC.get (sample i))

def prepareRcon (sample : Nat → Fin 62) (config : StartConfig) : StartConfig :=
  if !config.rcon.enabled then config
  else if config.randomizePassword then { config with rconPassword := generateRandomPassword sample }
  else config

/-! ## The properties file -/

/-- `IpAddr::to_string`, given that of `Ipv6Addr`. -/
def ipToString (v6 : BitVec 128 → String) : IpAddr → String
  | .v4 address =>
    let octet (i : Nat) : String := toString (address.toNat / 256 ^ i % 256)
    ".".intercalate [octet 3, octet 2, octet 1, octet 0]
  | .v6 address => v6 address

/-- The changes of `action::start::rewrite_server_properties`. -/
def serverChanges (v6 : BitVec 128 → String) (config : StartConfig) : List (String × String) :=
  [("server-ip", ipToString v6 config.server.address.ip),
    ("server-port", toString config.server.address.port.toNat),
    ("query.port", toString config.server.address.port.toNat),
    ("enable-status", "true"),
    ("view-distance", "5"),
    ("simulation-distance", "5"),
    ("spawn-protection", "0")] ++
  (if config.join.methods.contains .lobby then
    [("network-compression-threshold", toString Lobby.COMPRESSION_THRESHOLD.toInt)] else []) ++
  (if config.rcon.enabled then
    [("rcon.port", toString config.rconPort.toNat), ("rcon.password", config.rconPassword),
      ("enable-rcon", "true")] else [])

/-- The properties that the proxy sets. -/
def SET_PROPERTIES : List String :=
  ["server-ip", "server-port", "query.port", "enable-status", "view-distance", "simulation-distance",
    "spawn-protection", "network-compression-threshold", "rcon.port", "rcon.password", "enable-rcon"]

theorem serverChanges_keys (v6 : BitVec 128 → String) (config : StartConfig) :
    ((serverChanges v6 config).map Prod.fst).Sublist SET_PROPERTIES := by
  unfold serverChanges
  split <;> split <;> (simp only [List.map_append, List.map_cons, List.map_nil]; decide)

theorem serverChanges_distinct (v6 : BitVec 128 → String) (config : StartConfig) :
    ((serverChanges v6 config).map Prod.fst).Nodup :=
  (serverChanges_keys v6 config).nodup (by decide)

/-- The order in which a `HashMap` is iterated. -/
structure HashOrder where
  order : List (String × String) → List (String × String)
  perm : ∀ entries, (order entries).Perm entries

def HashOrder.changes (hash : HashOrder) (entries : List (String × String))
    (distinct : (entries.map Prod.fst).Nodup) : Changes where
  entries := hash.order entries
  distinct := ((hash.perm entries).map Prod.fst).nodup_iff.mpr distinct

/-- What `fs::read_to_string` finds in a file. -/
inductive FileContents where
  | text (contents : String)
  | unreadable

/-- The directories and the files there are. -/
structure Disk where
  isDir : Path → Bool
  file : Path → Option FileContents

def Disk.set (disk : Disk) (path : Path) (contents : FileContents) : Disk :=
  { disk with file := fun other => if other = path then some contents else disk.file other }

section

variable (mapping : CaseMapping) (fsWrite : String → FileContents)

/-- `server_properties::rewrite_file`, where `fsWrite` is what a file holds after `fs::write`. -/
def rewriteFile (disk : Disk) (file : Path) (changes : Changes) : Disk :=
  if changes.entries = [] then disk
  else
    match disk.file file with
    | some (.text contents) =>
      match rewriteContents mapping contents changes with
      | none => disk
      | some contents => disk.set file (fsWrite contents)
    | some .unreadable | none => disk

/-- `server_properties::rewrite_dir`. -/
def rewriteDir (disk : Disk) (dir : Path) (changes : Changes) : Disk :=
  if changes.entries = [] then disk
  else if !disk.isDir dir then disk
  else rewriteFile mapping fsWrite disk (dir ++ [ServerProperties.FILE]) changes

variable (hash : HashOrder) (v6 : BitVec 128 → String)

/-- `action::start::rewrite_server_properties`. -/
def rewriteServerProperties (config : StartConfig) (disk : Disk) : Disk :=
  if !config.rewriteServerProperties then disk
  else
    match config.server.directory with
    | none => disk
    | some dir => rewriteDir mapping fsWrite disk dir
        (hash.changes (serverChanges v6 config) (serverChanges_distinct v6 config))

/-- `action::start::invoke` up to the service: the configuration it starts with, and the disk. -/
def invoke (shlex : Shlex) (windows : Bool) (env : Environment) (sample : Nat → Fin 62)
    (javaArgs : List String) (disk : Disk) : StartConfig × Disk :=
  let config := prepareRcon sample (runtime shlex windows env javaArgs)
  (config, rewriteServerProperties mapping fsWrite hash v6 config disk)

end

/-! ## What a number is read from -/

section

variable {bound value n : Nat} {chars : List Char} {s : String}

theorem le_ofDigitChars (chars : List Char) (value : Nat) : value ≤ Nat.ofDigitChars 10 chars value := by
  induction chars generalizing value with
  | nil => exact Nat.le_refl _
  | cons c chars ih =>
    rw [Nat.ofDigitChars_cons]
    exact Nat.le_trans (by omega) (ih _)

/-- A number that ends in range has been in range all along. -/
theorem parseDigits_eq_some_iff (start : value < bound) : parseDigits bound chars value = some n ↔
    (∀ c ∈ chars, c.isDigit) ∧ Nat.ofDigitChars 10 chars value = n ∧ n < bound := by
  induction chars generalizing value with
  | nil =>
    simp only [parseDigits, Nat.ofDigitChars_nil, Option.some.injEq]
    constructor
    · rintro rfl
      exact ⟨nofun, rfl, start⟩
    · exact fun facts => facts.2.1
  | cons c chars ih =>
    rw [parseDigits, Nat.ofDigitChars_cons, List.forall_mem_cons]
    by_cases digit : c.isDigit ∧ 10 * value + (c.toNat - '0'.toNat) < bound
    · rw [if_pos digit, ih digit.2, and_iff_right digit.1]
    · rw [if_neg digit]
      constructor
      · rintro ⟨⟩
      · rintro ⟨⟨first, -⟩, rfl, within⟩
        exact absurd ⟨first, Nat.lt_of_le_of_lt (le_ofDigitChars chars _) within⟩ digit

/-- A text is a number where it consists of digits behind at most one plus sign, and is in
range. -/
theorem parseUnsigned_eq_some_iff (positive : 0 < bound) : parseUnsigned bound s = some n ↔
    ∃ digits, digits ≠ [] ∧ (s.toList = digits ∨ s.toList = '+' :: digits) ∧
      (∀ c ∈ digits, c.isDigit) ∧ Nat.ofDigitChars 10 digits 0 = n ∧ n < bound := by
  have sign : '+'.isDigit = false := by decide
  unfold parseUnsigned
  split
  · rename_i empty
    rw [empty]
    simp
  · rename_i c rest signed
    rw [parseDigits_eq_some_iff positive, signed]
    constructor
    · exact fun facts => ⟨c :: rest, by simp, .inr rfl, facts⟩
    · rintro ⟨digits, -, rfl | same, all, facts⟩
      · simp [sign] at all
      · cases same
        exact ⟨all, facts⟩
  · rename_i some plain
    rw [parseDigits_eq_some_iff positive]
    constructor
    · exact fun facts => ⟨s.toList, some, .inl rfl, facts⟩
    · rintro ⟨digits, more, rfl | same, facts⟩
      · exact facts
      · cases digits with
        | nil => exact absurd rfl more
        | cons c rest => exact absurd same (plain c rest)

/-- What is written of a number in range is read as it. -/
theorem parseUnsigned_toString (within : n < bound) : parseUnsigned bound (toString n) = some n := by
  refine (parseUnsigned_eq_some_iff (Nat.lt_of_le_of_lt (Nat.zero_le n) within)).mpr
    ⟨Nat.toDigits 10 n, Nat.toDigits_ne_nil, .inl ?_, fun c member => ?_, ?_, within⟩
  · rw [Nat.toString_eq_ofList_toDigits, String.toList_ofList]
  · exact Nat.isDigit_of_mem_toDigits (by decide) (by decide) member
  · exact Nat.ofDigitChars_ten_toDigits

/-- What the environment has is this number: the value that is set consists, but for blanks
around it, of the digits of the number behind at most one plus sign. -/
def NumberIn (value : Option String) (n : Nat) : Prop :=
  ∃ text digits, value = some text ∧ digits ≠ [] ∧
    ((trim text).toList = digits ∨ (trim text).toList = '+' :: digits) ∧
    (∀ c ∈ digits, c.isDigit) ∧ Nat.ofDigitChars 10 digits 0 = n

private theorem envNumber_eq_some_iff (positive : 0 < bound) (value : Option String) :
    (envString value).bind (parseUnsigned bound) = some n ↔ NumberIn value n ∧ n < bound := by
  rw [Option.bind_eq_some_iff]
  constructor
  · rintro ⟨word, given, parsed⟩
    obtain ⟨set, -⟩ := Option.filter_eq_some_iff.mp given
    obtain ⟨text, rfl, rfl⟩ := Option.map_eq_some_iff.mp set
    obtain ⟨digits, more, written, all, reads, within⟩ := (parseUnsigned_eq_some_iff positive).mp parsed
    exact ⟨⟨text, digits, rfl, more, written, all, reads⟩, within⟩
  · rintro ⟨⟨text, digits, rfl, more, written, all, reads⟩, within⟩
    refine ⟨trim text, Option.filter_eq_some_iff.mpr ⟨rfl, ?_⟩,
      (parseUnsigned_eq_some_iff positive).mpr ⟨digits, more, written, all, reads, within⟩⟩
    have visible : trim text ≠ "" := by
      intro empty
      rw [empty] at written
      rcases written with same | same
      · exact more same.symm
      · cases same
    simpa using visible

/-- A setting that is a number in range, or else the default. -/
private theorem getD_number {N : Type} {ofNat : Nat → N} {toNat : N → Nat} (positive : 0 < bound)
    (back : ∀ number, ofNat (toNat number) = number) (forth : ∀ n < bound, toNat (ofNat n) = n)
    (range : ∀ number, toNat number < bound) (value : Option String) (default_ number : N) :
    (((envString value).bind (parseUnsigned bound)).map ofNat).getD default_ = number ↔
      NumberIn value (toNat number) ∨
        number = default_ ∧ ∀ other : N, ¬ NumberIn value (toNat other) := by
  have exact_ (n : Nat) := envNumber_eq_some_iff (n := n) positive value
  cases read : (envString value).bind (parseUnsigned bound) with
  | none =>
    have nothing (other : N) : ¬ NumberIn value (toNat other) := fun set => by
      have found := (exact_ _).mpr ⟨set, range other⟩
      rw [read] at found
      cases found
    simp [nothing, eq_comm]
  | some n =>
    obtain ⟨set, within⟩ := (exact_ n).mp read
    have only (other : N) : NumberIn value (toNat other) ↔ ofNat n = other := by
      constructor
      · intro also
        have found := (exact_ _).mpr ⟨also, range other⟩
        rw [read] at found
        rw [Option.some.inj found, back]
      · rintro rfl
        rwa [forth n within]
    simp only [Option.map_some, Option.getD_some, only]
    constructor
    · exact .inl
    · rintro (same | ⟨-, never⟩)
      · exact same
      · exact absurd rfl (never (ofNat n))

/-- The public port and the protocol number are what the environment says, where that is a
number in range, and the defaults everywhere else. -/
theorem runtime_numbers (shlex : Shlex) (windows : Bool) (env : Environment) (args : List String) :
    (∀ port, (runtime shlex windows env args).publicAddress.port = port ↔
      NumberIn (env "SERVER_PORT") port.toNat ∨
        port = PUBLIC_PORT_DEFAULT ∧ ∀ other : UInt16, ¬ NumberIn (env "SERVER_PORT") other.toNat) ∧
    ∀ protocol, (runtime shlex windows env args).publicConfig.protocol = protocol ↔
      NumberIn (env "PROTOCOL_NUMBER") protocol.toNat ∨
        protocol = PROTO_DEFAULT_PROTOCOL ∧
          ∀ other : UInt32, ¬ NumberIn (env "PROTOCOL_NUMBER") other.toNat :=
  ⟨getD_number (by decide) (fun _ => UInt16.ofNat_toNat) (fun _ => UInt16.toNat_ofNat_of_lt')
      UInt16.toNat_lt _ _,
    getD_number (by decide) (fun _ => UInt32.ofNat_toNat) (fun _ => UInt32.toNat_ofNat_of_lt')
      UInt32.toNat_lt _ _⟩

end

/-! ## What is written -/

/-- A text in one line without blanks. -/
def Visible (s : String) : Prop := ∀ c ∈ s.toList, isWhitespace c = false

theorem visible_of_all {s : String} (all : s.toList.all (fun c => !isWhitespace c) = true) : Visible s :=
  fun c member => by simpa using List.all_eq_true.mp all c member

theorem Visible.trim_eq {s : String} (visible : Visible s) : trim s = s := by
  have front (chars : List Char) (all : ∀ c ∈ chars, isWhitespace c = false) :
      chars.dropWhile isWhitespace = chars := by
    cases chars with
    | nil => rfl
    | cons c rest => exact List.dropWhile_cons_of_neg (by simp [all c List.mem_cons_self])
  rw [trim, front _ visible, front _ fun c member => visible c (List.mem_reverse.mp member),
    List.reverse_reverse, String.ofList_toList]

theorem Visible.whole {s : String} (visible : Visible s) : '\n' ∉ s.toList := fun member => by
  have blank := visible '\n' member
  exact absurd blank (by decide)

theorem visible_of_isDigit {c : Char} (digit : c.isDigit) : isWhitespace c = false := by
  have range : 48 ≤ c.toNat ∧ c.toNat ≤ 57 := by
    simpa [Char.isDigit, UInt32.le_iff_toNat_le] using digit
  simp only [isWhitespace, Bool.or_eq_false_iff, Bool.and_eq_false_iff, decide_eq_false_iff_not,
    List.contains_eq_mem, List.mem_cons, List.not_mem_nil, or_false]
  omega

theorem visible_toString (n : Nat) : Visible (toString n) := by
  intro c member
  rw [Nat.toString_eq_ofList_toDigits, String.toList_ofList] at member
  exact visible_of_isDigit (Nat.isDigit_of_mem_toDigits (by decide) (by decide) member)

theorem visible_append {s t : String} (left : Visible s) (right : Visible t) : Visible (s ++ t) := by
  intro c member
  rw [String.toList_append] at member
  exact (List.mem_append.mp member).elim (left c) (right c)

theorem visible_ipv4 (v6 : BitVec 128 → String) (address : BitVec 32) :
    Visible (ipToString v6 (.v4 address)) := by
  have dot : Visible "." := visible_of_all (by decide)
  have octet (i : Nat) := visible_toString (address.toNat / 256 ^ i % 256)
  simp only [ipToString, String.intercalate_cons_cons, String.intercalate_singleton]
  exact visible_append (visible_append (octet 3) dot) (visible_append (visible_append (octet 2) dot)
    (visible_append (visible_append (octet 1) dot) (octet 0)))

theorem visible_password (sample : Nat → Fin 62) : Visible (generateRandomPassword sample) := by
  have all : ALPHANUMERIC.all (fun c => !isWhitespace c) = true := by decide
  intro c member
  rw [generateRandomPassword, String.toList_ofList] at member
  obtain ⟨i, -, rfl⟩ := List.mem_map.mp member
  exact (Bool.not_eq_true' _).mp (List.all_eq_true.mp all _ (List.get_mem ..))

/-- `str::to_lowercase` on ASCII letters. -/
def AsciiLower (mapping : CaseMapping) : Prop :=
  ∀ before c after, c.toNat < 128 → mapping.lower before c after = [c.toLower]

theorem asciiMapping_lower : AsciiLower asciiMapping := fun _ _ _ _ => rfl

theorem AsciiLower.toLowercase_eq {mapping : CaseMapping} (ascii : AsciiLower mapping) {s : String}
    (lower : ∀ c ∈ s.toList, c.toNat < 128 ∧ c.toLower = c) : mapping.toLowercase s = s := by
  have chars (before chars : List Char) (all : ∀ c ∈ chars, c.toNat < 128 ∧ c.toLower = c) :
      mapping.lowerFrom before chars = chars := by
    induction chars generalizing before with
    | nil => rfl
    | cons c chars ih =>
      obtain ⟨range, same⟩ := all c List.mem_cons_self
      rw [CaseMapping.lowerFrom, ascii _ _ _ range, same,
        ih _ fun c member => all c (List.mem_cons_of_mem _ member)]
      rfl
  rw [CaseMapping.toLowercase, chars [] _ lower, String.ofList_toList]

section

variable {mapping : CaseMapping} {v6 : BitVec 128 → String} {config : StartConfig}

theorem serverChanges_key {change : String × String} (member : change ∈ serverChanges v6 config) :
    change.1 ∈ SET_PROPERTIES :=
  (serverChanges_keys v6 config).subset (List.mem_map_of_mem member)

theorem serverChanges_visible (ip : Visible (ipToString v6 config.server.address.ip))
    (password : config.rcon.enabled → Visible config.rconPassword) :
    ∀ change ∈ serverChanges v6 config, Visible change.2 := by
  have constants : ∀ value ∈ ["true", "5", "0", "256"], Visible value := fun value member =>
    visible_of_all (List.all_eq_true.mp (show ["true", "5", "0", "256"].all
      (fun value => value.toList.all fun c => !isWhitespace c) = true by decide) value member)
  have threshold : toString Lobby.COMPRESSION_THRESHOLD.toInt = "256" := by decide +kernel
  intro change member
  simp only [serverChanges, List.mem_append] at member
  rcases member with (fixed | lobby) | rcon
  · simp only [List.mem_cons, List.not_mem_nil, or_false] at fixed
    rcases fixed with rfl | rfl | rfl | rfl | rfl | rfl | rfl
    · exact ip
    · exact visible_toString _
    · exact visible_toString _
    all_goals exact constants _ (by decide)
  · split at lobby
    · rw [List.mem_singleton.mp lobby, threshold]
      exact constants _ (by decide)
    · cases lobby
  · split at rcon
    · rename_i enabled
      simp only [List.mem_cons, List.not_mem_nil, or_false] at rcon
      rcases rcon with rfl | rfl | rfl
      · exact visible_toString _
      · exact password enabled
      · exact constants _ (by decide)
    · cases rcon

/-- Every change that the proxy makes is one that reads back. -/
theorem serverChanges_plain (ascii : AsciiLower mapping)
    (visible : ∀ change ∈ serverChanges v6 config, Visible change.2) :
    ∀ change ∈ serverChanges v6 config, Plain mapping change := by
  have keys : SET_PROPERTIES.all (fun key => key.toList.all (fun c => c.toNat < 128 ∧ c.toLower = c) &&
      trim key = key && '=' ∉ key.toList && !startsWith key '#' && '\n' ∉ key.toList) = true := by
    decide +kernel
  intro change member
  have key := List.all_eq_true.mp keys _ (serverChanges_key member)
  simp only [Bool.and_eq_true, List.all_eq_true, decide_eq_true_eq, Bool.not_eq_true'] at key
  obtain ⟨⟨⟨⟨lower, trimmed⟩, noSign⟩, noHash⟩, whole⟩ := key
  exact {
    lowercase := ascii.toLowercase_eq lower
    trimmed
    noSign
    noHash
    keyWhole := whole
    valueWhole := (visible change member).whole }

variable {fsWrite : String → FileContents} {disk : Disk} {dir : Path} {contents : String}

/-- After the rewrite the file says what the configuration does, whatever it said before, and
nothing else on the disk has changed. -/
theorem rewrite_reads_back (hash : HashOrder) (ascii : AsciiLower mapping)
    (visible : ∀ change ∈ serverChanges v6 config, Visible change.2)
    (rewrites : config.rewriteServerProperties = true) (directory : config.server.directory = some dir)
    (isDir : disk.isDir dir = true)
    (file : disk.file (dir ++ [ServerProperties.FILE]) = some (.text contents))
    (writes : ∀ text, fsWrite text = .text text) :
    ∃ text, (rewriteServerProperties mapping fsWrite hash v6 config disk).file
        (dir ++ [ServerProperties.FILE]) = some (.text text) ∧
      (∀ change ∈ serverChanges v6 config, propertyIn mapping text change.1 = some change.2) ∧
      (∀ property, mapping.toLowercase property ∉ SET_PROPERTIES →
        propertyIn mapping text property = propertyIn mapping contents property) ∧
      ∀ path, path ≠ dir ++ [ServerProperties.FILE] →
        (rewriteServerProperties mapping fsWrite hash v6 config disk).file path = disk.file path := by
  have order := hash.perm (serverChanges v6 config)
  generalize made : hash.changes (serverChanges v6 config) (serverChanges_distinct v6 config) = changes
  have entries (change : String × String) : change ∈ changes.entries ↔ change ∈ serverChanges v6 config := by
    rw [← made]
    exact order.mem_iff
  have changing : changes.entries ≠ [] := by
    intro none
    have member := (entries ("enable-status", "true")).mpr (by simp [serverChanges])
    rw [none] at member
    cases member
  have plain : ∀ change ∈ changes.entries, Plain mapping change :=
    fun change member => serverChanges_plain ascii visible change ((entries change).mp member)
  have rewritten : rewriteServerProperties mapping fsWrite hash v6 config disk =
      match rewriteContents mapping contents changes with
      | none => disk
      | some text => disk.set (dir ++ [ServerProperties.FILE]) (.text text) := by
    simp only [rewriteServerProperties, rewrites, directory, made, rewriteDir, changing, isDir, rewriteFile,
      file, Bool.not_true, Bool.false_eq_true, if_false, writes]
  refine ⟨onDisk mapping contents changes, ?_, ?_, ?_, ?_⟩
  · rw [rewritten, onDisk]
    cases rewriteContents mapping contents changes with
    | none => exact file
    | some text => simp [Disk.set]
  · intro change member
    exact propertyIn_changed plain ((entries change).mpr member) (visible change member).trim_eq
  · intro property other
    refine propertyIn_other plain fun change member same => other ?_
    rw [same]
    exact serverChanges_key ((entries change).mp member)
  · intro path different
    rw [rewritten]
    cases rewriteContents mapping contents changes with
    | none => rfl
    | some text => simp [Disk.set, different]

end

/-- What the proxy starts with, wherever it starts. -/
private structure Starts (sample : Nat → Fin 62) (config : StartConfig) : Prop where
  rewrites : config.rewriteServerProperties = true
  directory : config.server.directory = some ["."]
  ip : config.server.address.ip = .v4 0x7F000001
  port : config.server.address.port ≠ config.publicAddress.port
  password : config.rcon.enabled → config.rconPassword = generateRandomPassword sample

private theorem invoke_starts (shlex : Shlex) (windows : Bool) (env : Environment) (sample : Nat → Fin 62)
    (args : List String) : Starts sample (prepareRcon sample (runtime shlex windows env args)) := by
  have apart (publicPort : UInt16) : (if publicPort = INTERNAL_PORT_PRIMARY then INTERNAL_PORT_FALLBACK
      else INTERNAL_PORT_PRIMARY) ≠ publicPort := by
    split
    · rename_i primary
      rw [primary]
      decide
    · rename_i other
      exact Ne.symm other
  cases windows with
  | false => exact ⟨rfl, rfl, rfl, apart _, nofun⟩
  | true => exact ⟨rfl, rfl, rfl, apart _, fun _ => rfl⟩

/-- Whatever the environment and the file have said, once the proxy has started the server
reads where the proxy will look for it: on a port of its own, apart from the public one, and
with the password that the proxy has made up, where there is RCON. Every other setting of the
file is what it was. -/
theorem start_agrees_with_file (mapping : CaseMapping) (ascii : AsciiLower mapping)
    (fsWrite : String → FileContents) (writes : ∀ text, fsWrite text = .text text) (hash : HashOrder)
    (v6 : BitVec 128 → String) (shlex : Shlex) (windows : Bool) (env : Environment)
    (sample : Nat → Fin 62) (args : List String) (disk : Disk) (contents : String)
    (isDir : disk.isDir ["."] = true)
    (file : disk.file [".", ServerProperties.FILE] = some (.text contents)) (config : StartConfig)
    (after : Disk)
    (invoked : invoke mapping fsWrite hash v6 shlex windows env sample args disk = (config, after)) :
    ∃ text, after.file [".", ServerProperties.FILE] = some (.text text) ∧
      config.server.address.ip = .v4 0x7F000001 ∧ propertyIn mapping text "server-ip" = some "127.0.0.1" ∧
      ((propertyIn mapping text "server-port").bind (parseUnsigned UInt16.size)) =
        some config.server.address.port.toNat ∧
      config.server.address.port ≠ config.publicAddress.port ∧
      (config.rcon.enabled →
        propertyIn mapping text "enable-rcon" = some "true" ∧
        ((propertyIn mapping text "rcon.port").bind (parseUnsigned UInt16.size)) =
          some config.rconPort.toNat ∧
        propertyIn mapping text "rcon.password" = some config.rconPassword ∧
        config.rconPassword.length = RCON_PASSWORD_LENGTH) ∧
      ∀ property, mapping.toLowercase property ∉ SET_PROPERTIES →
        propertyIn mapping text property = propertyIn mapping contents property := by
  obtain ⟨rfl, rfl⟩ := Prod.mk.inj invoked
  have starts := invoke_starts shlex windows env sample args
  generalize prepareRcon sample (runtime shlex windows env args) = config at starts
  have local_ : ipToString v6 config.server.address.ip = "127.0.0.1" := by
    rw [starts.ip, ipToString]
    decide +kernel
  have visible : ∀ change ∈ serverChanges v6 config, Visible change.2 := serverChanges_visible
    (by rw [starts.ip]; exact visible_ipv4 v6 _)
    (fun enabled => by rw [starts.password enabled]; exact visible_password sample)
  obtain ⟨text, written, reads, others, -⟩ := rewrite_reads_back hash ascii visible starts.rewrites
    starts.directory isDir file writes
  have port (n : UInt16) : parseUnsigned UInt16.size (toString n.toNat) = some n.toNat :=
    parseUnsigned_toString n.toNat_lt
  refine ⟨text, written, starts.ip, ?_, ?_, starts.port, fun enabled => ?_, others⟩
  · have ip := reads ("server-ip", ipToString v6 config.server.address.ip) (by simp [serverChanges])
    exact ip.trans (congrArg some local_)
  · rw [reads ("server-port", toString config.server.address.port.toNat) (by simp [serverChanges]),
      Option.bind_some, port]
  · have rcon (change : String × String) (member : change ∈ [("rcon.port", toString config.rconPort.toNat),
        ("rcon.password", config.rconPassword), ("enable-rcon", "true")]) :
        propertyIn mapping text change.1 = some change.2 :=
      reads change (by rw [serverChanges, if_pos enabled]; exact List.mem_append_right _ member)
    refine ⟨rcon ("enable-rcon", "true") (by simp), ?_, rcon ("rcon.password", _) (by simp), ?_⟩
    · rw [rcon ("rcon.port", toString config.rconPort.toNat) (by simp), Option.bind_some, port]
    · rw [starts.password enabled, generateRandomPassword, String.length_ofList, List.length_map,
        List.length_range]

/-- A file in the order of its entries. -/
private def listOrder : HashOrder where
  order := id
  perm _ := .refl _

/-- On Windows, with the public port where the server would be by default, and a file that
says otherwise. -/
theorem start_agrees_with_file_windows :
    let disk : Disk :=
      { isDir := fun _ => true
        file := fun _ => some (.text "Server-Port=1\nwhite-list=true") }
    let started := invoke asciiMapping .text listOrder (fun _ => "") plainShlex true
      (fun key => if key = "SERVER_PORT" then some " +25566 " else none) (fun _ => 0) [] disk
    ∃ text, started.2.file [".", ServerProperties.FILE] = some (.text text) ∧
      started.1.publicAddress.port = 25566 ∧
      (propertyIn asciiMapping text "server-port").bind (parseUnsigned UInt16.size) = some 25567 ∧
      propertyIn asciiMapping text "rcon.password" = some started.1.rconPassword ∧
      propertyIn asciiMapping text "white-list" =
        propertyIn asciiMapping "Server-Port=1\nwhite-list=true" "white-list" := by
  intro disk started
  obtain ⟨text, written, -, -, port, -, rcon, others⟩ := start_agrees_with_file asciiMapping
    asciiMapping_lower .text (fun _ => rfl) listOrder (fun _ => "") plainShlex true
    (fun key => if key = "SERVER_PORT" then some " +25566 " else none) (fun _ => 0) [] disk
    "Server-Port=1\nwhite-list=true" rfl rfl started.1 started.2 rfl
  have internal : started.1.server.address.port.toNat = 25567 := by decide +kernel
  exact ⟨text, written, by decide +kernel, internal ▸ port, (rcon rfl).2.2.1, others _ (by decide +kernel)⟩

end PlexPaper.StartUp
