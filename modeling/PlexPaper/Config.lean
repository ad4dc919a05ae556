/-! The runtime configuration, with the defaults of `config.rs`. Only settings
that a modelled function reads are kept. -/
namespace PlexPaper

/-- `std::net::IpAddr`. -/
inductive IpAddr where
  | v4 (address : BitVec 32)
  | v6 (address : BitVec 128)
  deriving DecidableEq

/-- `std::net::SocketAddr`. -/
structure SocketAddr where
  ip : IpAddr
  port : UInt16
  deriving DecidableEq

def PUBLIC_PORT_DEFAULT : UInt16 := 25565
def INTERNAL_PORT_PRIMARY : UInt16 := 25566

/-- The server's own address, on `127.0.0.1`. -/
def INTERNAL_ADDRESS : SocketAddr := ⟨.v4 0x7F000001, INTERNAL_PORT_PRIMARY⟩

/-- Where `forward` sends a client unless configured, on `127.0.0.1`. -/
def FORWARD_ADDRESS : SocketAddr := ⟨.v4 0x7F000001, PUBLIC_PORT_DEFAULT⟩

def PROTO_DEFAULT_VERSION : String := "1.21.4"
def PROTO_DEFAULT_PROTOCOL : UInt32 := 769

/-- `config::Public`, with what `Config::runtime` falls back to. -/
structure PublicConfig where
  version : String := PROTO_DEFAULT_VERSION
  protocol : UInt32 := PROTO_DEFAULT_PROTOCOL

/-- `std::path::Path`, component by component. -/
abbrev Path := List String

/-- `config::Server`. -/
structure ServerConfig where
  directory : Option Path := some ["."]
  address : SocketAddr := INTERNAL_ADDRESS
  freezeProcess : Bool := false
  wakeOnCrash : Bool := false
  forge : Bool := false
  startTimeout : UInt32 := 120
  stopTimeout : UInt32 := 60
  wakeWhitelist : Bool := true
  blockBannedIps : Bool := true
  dropBannedIps : Bool := false
  sendProxyV2 : Bool := false

/-- `config::Time`. -/
structure TimeConfig where
  sleepAfter : UInt32 := 300
  minOnlineTime : UInt32 := 60

/-- `config::Rcon`. On the unix build `enabled` defaults to `cfg!(windows)`. -/
structure RconConfig where
  enabled : Bool := false

/-- `config::Motd`. -/
structure MotdConfig where
  sleeping : String :=
    "§bPlexScale§f - Server is sleeping, join to wake it up\n§fThis server is powered by PlexScale.com"
  starting : String :=
    "§bPlexScale§f - Server is starting, please wait...\n§fThis server is powered by PlexScale.com"
  stopping : String :=
    "§bPlexScale§f - Server is going to sleep...\n§fThis server is powered by PlexScale.com"
  fromServer : Bool := false

/-- `config::Method`. -/
inductive Method where
  | kick
  | hold
  | forward
  | lobby
  deriving DecidableEq

/-- `config::JoinKick`. -/
structure JoinKickConfig where
  starting : String :=
    "§bPlexScale§f\n\nThe server is starting up.\n\nPlease reconnect in a moment."
  stopping : String :=
    "§bPlexScale§f\n\nThe server is going to sleep.\n\nReconnect to wake it up again."

/-- `config::JoinForward`. -/
structure JoinForwardConfig where
  address : SocketAddr := FORWARD_ADDRESS
  sendProxyV2 : Bool := false

/-- `config::JoinLobby`. -/
structure JoinLobbyConfig where
  message : String := "§bPlexScale§f\n§fServer is starting, please wait..."
  readySound : Option String := some "block.note_block.chime"

/-- `config::Join`. -/
structure JoinConfig where
  methods : List Method := [.hold, .kick]
  kick : JoinKickConfig := {}
  forward : JoinForwardConfig := {}
  lobby : JoinLobbyConfig := {}

/-- `config::Lockout`. -/
structure LockoutConfig where
  enabled : Bool := false
  message : String := "§bPlexScale§f\n\nThis server is currently closed."

/-- `config::Config`. -/
structure Config where
  publicConfig : PublicConfig := {}
  server : ServerConfig := {}
  time : TimeConfig := {}
  rcon : RconConfig := {}
  motd : MotdConfig := {}
  join : JoinConfig := {}
  lockout : LockoutConfig := {}

end PlexPaper
