import PlexPaper.Lobby
import PlexPaper.Status
import PlexPaper.Waiting

/-! `join/mod.rs` and its methods: who takes a client that wants to log in, as
`status::serve` hands it over. Holding a client is the wait for the server, and the
lobby is `lobby::serve`; both are embedded with all that they do. Each method takes the
socket, and gives it back to continue with the next one. -/
namespace PlexPaper.Join
open Tasks Outcome

structure JoinWire (ModList JoinGame : Type) extends StatusWire, Lobby.LobbyWire ModList JoinGame

/-- `relay` is the task that `route_proxy_address_queue` spawns, with `proxy_with_queue`. -/
inductive Op (JoinGame : Type) where
  | wait (op : Waiting.Op)
  | lobby (op : Lobby.Op JoinGame)
  | write (bytes : List UInt8)
  | close
  | relay (inbound : TcpStream) (proxyHeader : ProxyHeader) (address : SocketAddr) (queue : List UInt8)

/-- Writing and closing reply whether they succeed. -/
@[reducible] def Op.Reply {JoinGame : Type} : Op JoinGame → Type
  | .wait op => op.Reply
  | .lobby op => op.Reply
  | .write _ | .close => Bool
  | .relay _ _ _ _ => Unit

abbrev JoinM (JoinGame : Type) := ExceptT Fault (Program (Op JoinGame) Op.Reply)

inductive MethodResult where
  | consumed
  | continue_ (stream : TcpStream)

section

variable {ModList JoinGame : Type} (wire : JoinWire ModList JoinGame) (config : Config)

abbrev perform (op : Op JoinGame) : JoinM JoinGame op.Reply := ExceptT.lift (Program.perform op)

/-- `net::close_tcp_stream`. -/
def closeTcpStream : JoinM JoinGame Unit := do
  if ← perform .close then return () else throw .err

/-- `service::server::route_proxy_queue`. -/
def routeProxyQueue (inbound : TcpStream) (queue : List UInt8) : JoinM JoinGame Unit :=
  perform (.relay inbound (ProxyHeader.proxy.notNone config.server.sendProxyV2)
    config.server.address queue)

namespace Kick

/-- `join::kick::occupy`. -/
def occupy (client : Client) : JoinM JoinGame MethodResult := do
  let msg := match ← perform (.wait (.server .loadState)) with
    | .starting | .stopped | .started => config.join.kick.starting
    | .stopping => config.join.kick.stopping
  let bytes ← ExceptT.mk (pure (kick wire.toStatusWire client msg))
  if ← perform (.write bytes) then
    closeTcpStream
    return .consumed
  else throw .err

end Kick

namespace Hold

/-- `join::hold::occupy`. -/
def occupy (rounds : Nat) (inbound : TcpStream) (inboundHistory : List UInt8) :
    JoinM JoinGame MethodResult := do
  match ← ExceptT.lift ((Waiting.holdOccupy rounds).embed Op.wait fun _ => id) with
  | .consumed =>
    routeProxyQueue config inbound inboundHistory
    return .consumed
  | .continue_ => return .continue_ inbound

end Hold

namespace Forward

/-- `join::forward::occupy`. -/
def occupy (inbound : TcpStream) (inboundHistory : List UInt8) : JoinM JoinGame MethodResult := do
  perform (.relay inbound (ProxyHeader.proxy.notNone config.join.forward.sendProxyV2)
    config.join.forward.address inboundHistory)
  return .consumed

end Forward

namespace Lobby

def mustProbe : Bool := config.server.forge

def mustStillProbe : JoinM JoinGame Bool :=
  if mustProbe config then do
    return (← perform (.lobby .readJoinGame)).isNone
  else return false

/-- `join::lobby::occupy`. -/
def occupy (rounds : Nat) (backend : PlexPaper.Lobby.Backend) (client : Client)
    (clientInfo : ClientInfo) (inbound : TcpStream) (inboundQueue : List UInt8) :
    JoinM JoinGame MethodResult := do
  if ← mustStillProbe config then return .continue_ inbound
  else
    ExceptT.mk ((PlexPaper.Lobby.serve wire.toLobbyWire config rounds clientInfo inbound backend client
      inboundQueue).run.embed Op.lobby fun _ => id)
    return .consumed

end Lobby

variable (rounds : Nat) (backend : PlexPaper.Lobby.Backend) (client : Client) (clientInfo : ClientInfo)
  (inboundHistory loginQueue : List UInt8)

def occupyMethod (inbound : TcpStream) : Method → JoinM JoinGame MethodResult
  | .kick => Kick.occupy wire config client
  | .hold => Hold.occupy config rounds inbound inboundHistory
  | .forward => Forward.occupy config inbound inboundHistory
  | .lobby => Lobby.occupy wire config rounds backend client clientInfo inbound loginQueue

/-- The loop of `join::occupy`. -/
def occupyLoop : List Method → TcpStream → JoinM JoinGame Unit
  | [], _ => closeTcpStream
  | method :: methods, inbound => do
    match ← occupyMethod wire config rounds backend client clientInfo inboundHistory loginQueue inbound
      method with
    | .consumed => return ()
    | .continue_ stream => occupyLoop methods stream

/-- `join::occupy`. -/
def occupy (inbound : TcpStream) : JoinM JoinGame Unit :=
  -- `assert_eq!`
  if client.state ≠ .login then throw .panic
  else occupyLoop wire config rounds backend client clientInfo inboundHistory loginQueue
    config.join.methods inbound

end
end PlexPaper.Join
