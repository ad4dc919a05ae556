import Mathlib.Tactic.Common
import PlexPaper.Config

/-! `proto/client.rs`: what the proxy knows of one connection. The mutex around
the state and the atomic compression threshold are the values they hold: one
task serves a connection. -/
namespace PlexPaper

inductive ClientState where
  | handshake
  | status
  | login
  | play
  deriving DecidableEq

def ClientState.fromId (id : Int32) : Option ClientState :=
  if id = 0 then some .handshake
  else if id = 1 then some .status
  else if id = 2 then some .login
  else none

def ClientState.toId : ClientState → Int32
  | .handshake => 0
  | .status => 1
  | .login => 2
  | .play => -1

/-- Only the states a handshake can ask for have an id that reads back. -/
theorem ClientState.fromId_toId (id : Int32) (state : ClientState) :
    fromId id = some state ↔ state ≠ .play ∧ id = state.toId := by
  constructor
  · intro named
    unfold fromId at named
    split_ifs at named with zero one two
    all_goals cases named; simp_all [toId]
  · rintro ⟨known, rfl⟩
    cases state with
    | play => exact absurd rfl known
    | handshake | status | login => rfl

structure Client where
  peer : SocketAddr
  state : ClientState := .handshake
  compression : Int32 := -1
  deriving DecidableEq

namespace Client

def new (peer : SocketAddr) : Client := { peer }

/-- The client the probe speaks as. -/
def dummy : Client := new ⟨.v4 0, 0⟩

def setState (client : Client) (state : ClientState) : Client := { client with state }

def compressed (client : Client) : Int32 := client.compression

def isCompressed (client : Client) : Bool := client.compressed ≥ 0

def setCompression (client : Client) (threshold : Int32) : Client :=
  { client with compression := threshold }

end Client

/-- The handshake packet. -/
structure Handshake where
  protocolVersion : Int32
  serverAddr : String
  serverPort : UInt16
  nextState : Int32
  deriving DecidableEq

structure ClientInfo where
  protocol : Option UInt32 := none
  handshake : Option Handshake := none
  username : Option String := none
  deriving DecidableEq

namespace ClientInfo

def empty : ClientInfo := {}

/-- `ClientInfo::protocol`, the method. -/
def protocolVersion (info : ClientInfo) : Option UInt32 :=
  info.protocol <|> info.handshake.map fun handshake => handshake.protocolVersion.toUInt32

end ClientInfo
end PlexPaper
