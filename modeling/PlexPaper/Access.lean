import PlexPaper.Client

/-! `mc/ban.rs` and `mc/whitelist.rs`: who may wake the server, as the files next
to it say. Reading a date is third-party, kept as a parameter. -/
namespace PlexPaper

def EXPIRY_FOREVER : String := "forever"

/-- `char::is_whitespace`. -/
def isWhitespace (c : Char) : Bool :=
  (0x09 ≤ c.toNat && c.toNat ≤ 0x0D) || (0x2000 ≤ c.toNat && c.toNat ≤ 0x200A) ||
    [0x20, 0x85, 0xA0, 0x1680, 0x2028, 0x2029, 0x202F, 0x205F, 0x3000].contains c.toNat

/-- `str::trim`. -/
def trim (s : String) : String :=
  String.ofList ((s.toList.dropWhile isWhitespace).reverse.dropWhile isWhitespace).reverse

/-- A reading of the calendar clock. -/
abbrev Utc := Int

/-- An entry of `banned-ips.json`, as far as the gate reads it. -/
structure BannedIp where
  expires : Option String
  reason : Option String
  deriving DecidableEq

/-- `DateTime::parse_from_str` with the format of the file. -/
abbrev ExpiryFormat := String → Option Utc

/-- Does an entry still hold? One whose expiry cannot be read does. `to_lowercase`
is on ASCII letters: no other character has one of the letters of `forever` as its
lower case. -/
def BannedIp.isBanned (parse : ExpiryFormat) (now : Utc) (ban : BannedIp) : Bool :=
  match ban.expires with
  | none => true
  | some expires =>
    if (trim expires).toLower = EXPIRY_FOREVER then true
    else
      match parse expires with
      | some expiry => expiry > now
      | none => true

structure BannedIps where
  ips : IpAddr → Option BannedIp := fun _ => none

def BannedIps.get (bans : BannedIps) (ip : IpAddr) : Option BannedIp := bans.ips ip

/-- The peer has an entry that holds at this time. -/
def BannedIps.Active (bans : BannedIps) (parse : ExpiryFormat) (now : Utc) (ip : IpAddr) : Prop :=
  ∃ ban, bans.ips ip = some ban ∧ ban.isBanned parse now = true

/-- Looking the peer up and asking the entry finds nothing to kick for. -/
theorem BannedIps.get_filter_eq_none_iff (bans : BannedIps) (parse : ExpiryFormat) (now : Utc)
    (ip : IpAddr) :
    (bans.get ip).filter (·.isBanned parse now) = none ↔ ¬ bans.Active parse now ip := by
  unfold get Active
  cases bans.ips ip with
  | none => simp
  | some ban => simp

structure Whitelist where
  whitelist : List String := []
  ops : List String := []

def Whitelist.isWhitelisted (list : Whitelist) (username : String) : Bool :=
  list.whitelist.any (· = username) || list.ops.any (· = username)

/-- `Server::is_whitelisted`: with no list loaded everyone is. -/
def isWhitelisted (list : Option Whitelist) (username : String) : Bool :=
  (list.map fun list => list.isWhitelisted username).getD true

theorem Whitelist.isWhitelisted_iff (list : Whitelist) (username : String) :
    list.isWhitelisted username = true ↔ username ∈ list.whitelist ∨ username ∈ list.ops := by
  simp [isWhitelisted]

theorem isWhitelisted_iff (list : Option Whitelist) (username : String) :
    isWhitelisted list username = true ↔
      ∀ loaded, list = some loaded → username ∈ loaded.whitelist ∨ username ∈ loaded.ops := by
  cases list with
  | none => simp [isWhitelisted]
  | some loaded => simp [isWhitelisted, Whitelist.isWhitelisted_iff]

end PlexPaper
