import Mathlib.Logic.Relation
import PlexPaper.ByteStream

/-! `proxy.rs`: relaying between a client and a server. What is queued for either
of them is written first, the client's before the server's, and then `io::copy`
runs in both directions until its source ends. A socket takes as many bytes at a
time as it likes. The format of the proxy header is third-party. -/
namespace PlexPaper
open Outcome

/-- A `TcpStream`, with what reading from it will give. -/
structure TcpStream where
  peerAddr : SocketAddr
  localAddr : SocketAddr
  reads : List Read

inductive ProxyHeader where
  | none
  | local_
  | proxy
  deriving DecidableEq

def ProxyHeader.notNone (header : ProxyHeader) (notNone : Bool) : ProxyHeader :=
  if notNone then header else .none

/-- What the header of version 2 says: the command, and who is connected to whom. -/
inductive ProxyHeaderV2 where
  | localUnspec
  | proxyIpv4 (source destination : SocketAddr)
  | proxyIpv6 (source destination : SocketAddr)

/-- `proxy_protocol::encode`. -/
abbrev ProxyFormat := ProxyHeaderV2 → Option (List UInt8)

def localProxyHeader (encode : ProxyFormat) : Outcome (List UInt8) := question (encode .localUnspec)

def streamProxyHeader (encode : ProxyFormat) (inbound : TcpStream) : Outcome (List UInt8) :=
  match inbound.peerAddr.ip, inbound.localAddr.ip with
  | .v4 _, .v4 _ => question (encode (.proxyIpv4 inbound.peerAddr inbound.localAddr))
  | .v6 _, .v6 _ => question (encode (.proxyIpv6 inbound.peerAddr inbound.localAddr))
  | _, _ => .error .panic

/-- One direction of a relay: what is left of the queue, what is still to be read,
what `io::copy` has read and not written, and what has been sent. -/
structure Pipe where
  queue : List UInt8
  reads : List Read
  buffer : List UInt8 := []
  sent : List UInt8 := []
  shutdown : Bool := false

/-- The next read is the end of the stream. -/
def Read.ended : List Read → Bool
  | [] => true
  | .data chunk :: _ => chunk = []
  | _ => false

namespace Pipe

/-- The socket takes that many bytes. -/
def accept (count : Nat) (pipe : Pipe) : Option Pipe :=
  if count = 0 then none
  else if pipe.queue ≠ [] then
    if count ≤ pipe.queue.length then
      some { pipe with queue := pipe.queue.drop count, sent := pipe.sent ++ pipe.queue.take count }
    else none
  else if count ≤ pipe.buffer.length then
    some { pipe with buffer := pipe.buffer.drop count, sent := pipe.sent ++ pipe.buffer.take count }
  else none

/-- A read of `io::copy`. -/
def copy (pipe : Pipe) : Option Pipe :=
  match pipe.reads with
  | .data chunk :: reads =>
    if chunk = [] ∨ pipe.shutdown = true then none
    else some { pipe with buffer := pipe.buffer ++ chunk, reads }
  | _ => none

/-- `io::copy` has returned and the socket is shut down. -/
def finish (pipe : Pipe) : Option Pipe :=
  if pipe.queue = [] ∧ pipe.buffer = [] ∧ Read.ended pipe.reads = true then
    some { pipe with shutdown := true }
  else none

end Pipe

inductive Direction where
  | toClient
  | toServer
  deriving DecidableEq

/-- Both directions of `proxy_inbound_outbound_with_queue`. -/
structure Relaying where
  toClient : Pipe
  toServer : Pipe

inductive RelayEvent where
  | accept (direction : Direction) (count : Nat)
  | copy (direction : Direction)
  | finish (direction : Direction)

namespace Relaying

def pipe (relaying : Relaying) : Direction → Pipe
  | .toClient => relaying.toClient
  | .toServer => relaying.toServer

def setPipe (relaying : Relaying) : Direction → Pipe → Relaying
  | .toClient, pipe => { relaying with toClient := pipe }
  | .toServer, pipe => { relaying with toServer := pipe }

/-- Nothing is left of the queues. -/
def copying (relaying : Relaying) : Bool :=
  relaying.toClient.queue = [] ∧ relaying.toServer.queue = []

/-- One step of the relay. It may fail before any of them, and takes no more then. -/
def step (relaying : Relaying) : RelayEvent → Option Relaying
  | .accept direction count =>
    if direction = .toServer ∧ relaying.toClient.queue ≠ [] then none
    else ((relaying.pipe direction).accept count).map (relaying.setPipe direction)
  | .copy direction =>
    if relaying.copying then (relaying.pipe direction).copy.map (relaying.setPipe direction) else none
  | .finish direction =>
    if relaying.copying then (relaying.pipe direction).finish.map (relaying.setPipe direction) else none

def Reaches : Relaying → Relaying → Prop :=
  Relation.ReflTransGen fun before after => ∃ event, before.step event = some after

end Relaying

def proxyInboundOutboundWithQueue (inbound outbound : List Read)
    (inboundQueue outboundQueue : List UInt8) : Relaying where
  toClient := { queue := inboundQueue, reads := outbound }
  toServer := { queue := outboundQueue, reads := inbound }

/-- What `proxy_with_queue` writes first. -/
def proxyHeaderBytes (encode : ProxyFormat) (inbound : TcpStream) : ProxyHeader → Outcome (List UInt8)
  | .none => .ok []
  | .local_ => localProxyHeader encode
  | .proxy => streamProxyHeader encode inbound

/-- `proxy_with_queue` once it has connected to the target. -/
def proxyWithQueue (encode : ProxyFormat) (inbound : TcpStream) (proxyHeader : ProxyHeader)
    (outbound : List Read) (queue : List UInt8) : Outcome Relaying := do
  let header ← proxyHeaderBytes encode inbound proxyHeader
  -- Two `write_all` in a row write what one of both would.
  return proxyInboundOutboundWithQueue inbound.reads outbound [] (header ++ queue)

/-! ## Nothing lost, nothing added -/

namespace Pipe

variable {pipe after : Pipe}

/-- Everything that goes through this direction, sent or not. -/
def stream (pipe : Pipe) : List UInt8 :=
  pipe.sent ++ pipe.queue ++ pipe.buffer ++ Read.bytes pipe.reads

/-- A direction that is shut down has nothing left. -/
def Sound (pipe : Pipe) : Prop :=
  pipe.shutdown = true → pipe.queue = [] ∧ pipe.buffer = [] ∧ Read.bytes pipe.reads = []

theorem bytes_of_ended {reads : List Read} (ended : Read.ended reads = true) : Read.bytes reads = [] := by
  cases reads with
  | nil => rfl
  | cons read reads =>
    cases read with
    | data chunk => exact if_pos (of_decide_eq_true ended)
    | reset | error => rfl

theorem accept_keeps {count : Nat} (accepted : pipe.accept count = some after) :
    after.stream = pipe.stream ∧ after.shutdown = pipe.shutdown := by
  unfold accept at accepted
  split at accepted
  · cases accepted
  · split at accepted
    · split at accepted
      · cases accepted
        exact ⟨by simp [stream], rfl⟩
      · cases accepted
    · rename_i emptied
      have none_queued : pipe.queue = [] := by simpa using emptied
      split at accepted
      · cases accepted
        exact ⟨by simp [stream, none_queued], rfl⟩
      · cases accepted

theorem copy_keeps (copied : pipe.copy = some after) :
    after.stream = pipe.stream ∧ after.shutdown = pipe.shutdown := by
  unfold copy at copied
  split at copied
  · rename_i chunk reads shape
    split at copied
    · cases copied
    · rename_i open_
      obtain ⟨nonempty, -⟩ := not_or.mp open_
      cases copied
      exact ⟨by simp [stream, shape, Read.bytes, nonempty], rfl⟩
  · cases copied

theorem finish_keeps (finished : pipe.finish = some after) :
    after.stream = pipe.stream ∧ after.Sound := by
  unfold finish at finished
  split at finished
  · rename_i done
    obtain ⟨queue, buffer, ended⟩ := done
    cases finished
    exact ⟨rfl, fun _ => ⟨queue, buffer, bytes_of_ended ended⟩⟩
  · cases finished

/-- A direction that is shut down sends nothing more. -/
theorem accept_sound {count : Nat} (sound : pipe.Sound) (accepted : pipe.accept count = some after) :
    after.Sound := by
  intro shut
  obtain ⟨queue, buffer, -⟩ := sound ((accept_keeps accepted).2 ▸ shut)
  have nothing : pipe.accept count = none := by
    cases count <;> simp [accept, queue, buffer]
  cases nothing.symm.trans accepted

theorem copy_sound (copied : pipe.copy = some after) : after.Sound := by
  intro shut
  obtain ⟨-, same⟩ := copy_keeps copied
  unfold copy at copied
  split at copied
  · rw [if_pos (.inr (same ▸ shut))] at copied
    cases copied
  · cases copied

end Pipe

namespace Relaying

variable {start relaying : Relaying}

/-- A relay conserves the bytes of each direction, and a direction is only shut
down once all of them are sent. -/
theorem conserves (direction : Direction) (reached : start.Reaches relaying)
    (sound : (start.pipe direction).Sound) :
    (relaying.pipe direction).stream = (start.pipe direction).stream ∧
      (relaying.pipe direction).Sound := by
  induction reached with
  | refl => exact ⟨rfl, sound⟩
  | @tail before after _ stepped ih =>
    obtain ⟨event, stepped⟩ := stepped
    obtain ⟨same, sound⟩ := ih
    have other (moved : Direction) (pipe : Pipe) (distinct : moved ≠ direction) :
        (before.setPipe moved pipe).pipe direction = before.pipe direction := by
      cases moved <;> cases direction <;> first | rfl | exact absurd rfl distinct
    have own (pipe : Pipe) : (before.setPipe direction pipe).pipe direction = pipe := by
      cases direction <;> rfl
    cases event with
    | accept moved count =>
      obtain ⟨-, stepped⟩ := Option.ite_none_left_eq_some.mp stepped
      obtain ⟨pipe, accepted, rfl⟩ := Option.map_eq_some_iff.mp stepped
      by_cases distinct : moved = direction
      · subst distinct
        rw [own]
        exact ⟨(Pipe.accept_keeps accepted).1.trans same, Pipe.accept_sound sound accepted⟩
      · rw [other moved pipe distinct]
        exact ⟨same, sound⟩
    | copy moved =>
      obtain ⟨-, stepped⟩ := Option.ite_none_right_eq_some.mp stepped
      obtain ⟨pipe, copied, rfl⟩ := Option.map_eq_some_iff.mp stepped
      by_cases distinct : moved = direction
      · subst distinct
        rw [own]
        exact ⟨(Pipe.copy_keeps copied).1.trans same, Pipe.copy_sound copied⟩
      · rw [other moved pipe distinct]
        exact ⟨same, sound⟩
    | finish moved =>
      obtain ⟨-, stepped⟩ := Option.ite_none_right_eq_some.mp stepped
      obtain ⟨pipe, finished, rfl⟩ := Option.map_eq_some_iff.mp stepped
      by_cases distinct : moved = direction
      · subst distinct
        rw [own]
        obtain ⟨stream, sound⟩ := Pipe.finish_keeps finished
        exact ⟨stream.trans same, sound⟩
      · rw [other moved pipe distinct]
        exact ⟨same, sound⟩

/-- What is sent in a direction is the front of what is queued and what is read,
and all of it once the direction is shut down. -/
theorem relays (direction : Direction) {queue stream : List UInt8} {reads : List Read}
    (begins : start.pipe direction = { queue, reads }) (whole : queue ++ Read.bytes reads = stream)
    (reached : start.Reaches relaying) :
    (relaying.pipe direction).sent <+: stream ∧
      ((relaying.pipe direction).shutdown = true → (relaying.pipe direction).sent = stream) := by
  obtain ⟨same, sound⟩ := conserves direction reached (by rw [begins]; nofun)
  have all : (relaying.pipe direction).stream = stream := by
    rw [same, begins, ← whole]
    simp [Pipe.stream]
  constructor
  · rw [← all, Pipe.stream, List.append_assoc, List.append_assoc]
    exact List.prefix_append ..
  · intro shut
    obtain ⟨none_queued, none_buffered, none_left⟩ := sound shut
    rw [← all]
    simp [Pipe.stream, none_queued, none_buffered, none_left]

end Relaying
end PlexPaper
