import PlexPaper.Proxy

/-! Whether a relay comes to its end. Every move of it uses up some of what is still to be
moved, so it makes finitely many; and between two sides that end their streams in order it
makes another until both ends are passed on. -/
namespace PlexPaper

/-- The bound rule. Where every move lowers a measure, a run has no more moves than the measure
has at its start. -/
theorem moves_le_of_lower {σ : Type} {moves : σ → σ → Prop} (measure : σ → Nat)
    (lowers : ∀ before after, moves before after → measure after < measure before)
    {run : Nat → σ} {steps : Nat} (moved : ∀ n < steps, moves (run n) (run (n + 1))) :
    steps + measure (run steps) ≤ measure (run 0) := by
  induction steps with
  | zero => omega
  | succ steps ih =>
    have before := ih fun n below => moved n (by omega)
    have lower := lowers _ _ (moved steps (Nat.lt_succ_self _))
    omega

/-- The other side sends these chunks and ends its stream. -/
def EndsInOrder (reads : List Read) : Prop := ∀ read ∈ reads, ∃ chunk, chunk ≠ [] ∧ read = .data chunk

theorem endsInOrder_chunks {chunks : List (List UInt8)} (nonempty : ∀ chunk ∈ chunks, chunk ≠ []) :
    EndsInOrder (chunks.map .data) := by
  intro read member
  obtain ⟨chunk, sent, rfl⟩ := List.mem_map.mp member
  exact ⟨chunk, nonempty chunk sent, rfl⟩

namespace Pipe

variable {pipe after : Pipe}

/-- How much is still to be moved in this direction. A byte that is still to be read counts
twice, and the shutdown once. -/
def left (pipe : Pipe) : Nat :=
  pipe.queue.length + pipe.buffer.length + 2 * (Read.bytes pipe.reads).length +
    if pipe.shutdown then 0 else 1

theorem accept_moves {count : Nat} (accepted : pipe.accept count = some after) :
    after.left < pipe.left ∧ after.reads = pipe.reads := by
  unfold accept at accepted
  split at accepted
  · cases accepted
  · split at accepted
    · split at accepted
      · cases accepted
        refine ⟨?_, rfl⟩
        simp only [left, List.length_drop]
        omega
      · cases accepted
    · split at accepted
      · cases accepted
        refine ⟨?_, rfl⟩
        simp only [left, List.length_drop]
        omega
      · cases accepted

theorem copy_moves (copied : pipe.copy = some after) :
    after.left < pipe.left ∧ ∃ read, pipe.reads = read :: after.reads := by
  unfold copy at copied
  split at copied
  · rename_i chunk reads shape
    split at copied
    · cases copied
    · rename_i open_
      obtain ⟨nonempty, -⟩ := not_or.mp open_
      cases copied
      have size := List.length_pos_of_ne_nil nonempty
      refine ⟨?_, _, shape⟩
      simp only [left, shape, Read.bytes, if_neg nonempty, List.length_append]
      omega
  · cases copied

/-- Shutting down again changes nothing. -/
theorem finish_moves (finished : pipe.finish = some after) :
    (after = pipe ∨ after.left < pipe.left) ∧ after.reads = pipe.reads := by
  obtain ⟨-, finished⟩ := Option.ite_none_right_eq_some.mp finished
  cases finished
  obtain ⟨queue, reads, buffer, sent, shutdown⟩ := pipe
  cases shutdown with
  | false => exact ⟨.inr (by simp [left]), rfl⟩
  | true => exact ⟨.inl rfl, rfl⟩

theorem exists_accept (held : pipe.queue ≠ [] ∨ pipe.buffer ≠ []) :
    ∃ after, pipe.accept 1 = some after := by
  unfold accept
  rw [if_neg Nat.one_ne_zero]
  by_cases queued : pipe.queue = []
  · have buffered := List.length_pos_of_ne_nil (held.resolve_left (not_not_intro queued))
    exact ⟨_, (if_neg (not_not_intro queued)).trans (if_pos buffered)⟩
  · exact ⟨_, (if_pos queued).trans (if_pos (List.length_pos_of_ne_nil queued))⟩

theorem exists_copy {read : Read} {reads : List Read} (pending : pipe.reads = read :: reads)
    (orderly : EndsInOrder pipe.reads) (going : pipe.shutdown = false) :
    ∃ after, pipe.copy = some after := by
  rw [pending] at orderly
  obtain ⟨chunk, nonempty, rfl⟩ := orderly read List.mem_cons_self
  refine ⟨{ pipe with buffer := pipe.buffer ++ chunk, reads }, ?_⟩
  rw [copy, pending]
  exact if_neg (by simp [nonempty, going])

theorem finish_of_empty (queue : pipe.queue = []) (buffer : pipe.buffer = []) (reads : pipe.reads = []) :
    pipe.finish = some { pipe with shutdown := true } :=
  if_pos ⟨queue, buffer, by rw [reads]; rfl⟩

end Pipe

namespace Relaying

variable {relaying next : Relaying}

/-- A step that changes something. -/
def Moves (before after : Relaying) : Prop :=
  after ≠ before ∧ ∃ event, before.step event = some after

/-- Both sides end their streams in order. -/
def BothEndInOrder (relaying : Relaying) : Prop := ∀ direction, EndsInOrder (relaying.pipe direction).reads

def left (relaying : Relaying) : Nat := relaying.toClient.left + relaying.toServer.left

/-- Both ends are passed on. -/
def Over (relaying : Relaying) : Prop := ∀ direction, (relaying.pipe direction).shutdown = true

/-- A step is one of one direction: the other stays as it is, and this one takes its reads
from the front. -/
theorem step_one {event : RelayEvent} (stepped : relaying.step event = some next) :
    ∃ direction pipe, next = relaying.setPipe direction pipe ∧
      (pipe = relaying.pipe direction ∨ pipe.left < (relaying.pipe direction).left) ∧
      (EndsInOrder (relaying.pipe direction).reads → EndsInOrder pipe.reads) := by
  cases event with
  | accept direction count =>
    obtain ⟨-, stepped⟩ := Option.ite_none_left_eq_some.mp stepped
    obtain ⟨pipe, accepted, rfl⟩ := Option.map_eq_some_iff.mp stepped
    obtain ⟨lower, same⟩ := Pipe.accept_moves accepted
    exact ⟨direction, pipe, rfl, .inr lower, fun orderly => same ▸ orderly⟩
  | copy direction =>
    obtain ⟨-, stepped⟩ := Option.ite_none_right_eq_some.mp stepped
    obtain ⟨pipe, copied, rfl⟩ := Option.map_eq_some_iff.mp stepped
    obtain ⟨lower, read, front⟩ := Pipe.copy_moves copied
    refine ⟨direction, pipe, rfl, .inr lower, fun orderly other member => orderly other ?_⟩
    rw [front]
    exact .tail _ member
  | finish direction =>
    obtain ⟨-, stepped⟩ := Option.ite_none_right_eq_some.mp stepped
    obtain ⟨pipe, finished, rfl⟩ := Option.map_eq_some_iff.mp stepped
    obtain ⟨lower, same⟩ := Pipe.finish_moves finished
    exact ⟨direction, pipe, rfl, lower, fun orderly => same ▸ orderly⟩

theorem left_setPipe (direction : Direction) {pipe : Pipe} (lower : pipe.left < (relaying.pipe direction).left) :
    (relaying.setPipe direction pipe).left < relaying.left := by
  cases direction <;> simp only [Relaying.pipe] at lower <;> simp only [left, setPipe] <;> omega

theorem left_lt_of_moves (moves : relaying.Moves next) : next.left < relaying.left := by
  obtain ⟨changed, event, stepped⟩ := moves
  obtain ⟨direction, pipe, rfl, same | lower, -⟩ := step_one stepped
  · refine absurd ?_ changed
    subst same
    cases direction <;> rfl
  · exact left_setPipe direction lower

theorem BothEndInOrder.step {event : RelayEvent} (orderly : relaying.BothEndInOrder)
    (stepped : relaying.step event = some next) : next.BothEndInOrder := by
  obtain ⟨direction, pipe, rfl, -, own⟩ := step_one stepped
  intro other
  cases direction with
  | toClient =>
    cases other with
    | toClient => exact own (orderly .toClient)
    | toServer => exact orderly .toServer
  | toServer =>
    cases other with
    | toClient => exact orderly .toClient
    | toServer => exact own (orderly .toServer)

theorem moves_of_lower (event : RelayEvent) (direction : Direction) {pipe : Pipe}
    (lower : pipe.left < (relaying.pipe direction).left)
    (stepped : relaying.step event = some (relaying.setPipe direction pipe)) :
    ∃ next, relaying.Moves next :=
  ⟨_, fun same => (left_setPipe direction lower).ne (congrArg left same), event, stepped⟩

/-- What is held for a side can be written to it, the client's queue before the server's. -/
theorem exists_moves_accept (direction : Direction)
    (held : (relaying.pipe direction).queue ≠ [] ∨ (relaying.pipe direction).buffer ≠ [])
    (turn : direction = .toServer → relaying.toClient.queue = []) : ∃ next, relaying.Moves next := by
  obtain ⟨pipe, accepted⟩ := Pipe.exists_accept held
  refine moves_of_lower (.accept direction 1) direction (Pipe.accept_moves accepted).1 ?_
  rw [step, if_neg fun waits => waits.2 (turn waits.1), accepted, Option.map_some]

/-- Once the queues are written, a direction that is not shut down has a move of its own. -/
theorem exists_moves_copying (orderly : relaying.BothEndInOrder) (client : relaying.toClient.queue = [])
    (server : relaying.toServer.queue = []) (direction : Direction)
    (going : (relaying.pipe direction).shutdown = false) : ∃ next, relaying.Moves next := by
  have copying : relaying.copying = true := by simp [Relaying.copying, client, server]
  have unqueued : (relaying.pipe direction).queue = [] := by
    cases direction with
    | toClient => exact client
    | toServer => exact server
  by_cases buffered : (relaying.pipe direction).buffer = []
  · rcases pending : (relaying.pipe direction).reads with _ | ⟨read, reads⟩
    · have finished := Pipe.finish_of_empty unqueued buffered pending
      refine moves_of_lower (.finish direction) direction ?_
        (by rw [step, if_pos copying, finished, Option.map_some])
      simp [Pipe.left, unqueued, buffered, pending, going]
    · obtain ⟨pipe, copied⟩ := Pipe.exists_copy pending (orderly direction) going
      exact moves_of_lower (.copy direction) direction (Pipe.copy_moves copied).1
        (by rw [step, if_pos copying, copied, Option.map_some])
  · exact exists_moves_accept direction (.inr buffered) fun _ => client

/-- Between two sides that end their streams in order a relay that has no move is at its end. -/
theorem over_of_stuck (orderly : relaying.BothEndInOrder) (stuck : ∀ next, ¬ relaying.Moves next) :
    relaying.Over := by
  intro direction
  by_contra going
  refine not_exists.mpr stuck ?_
  by_cases client : relaying.toClient.queue = []
  · by_cases server : relaying.toServer.queue = []
    · exact exists_moves_copying orderly client server direction (by simpa using going)
    · exact exists_moves_accept .toServer (.inl server) fun _ => client
  · exact exists_moves_accept .toClient (.inl client) fun other => by cases other

theorem reaches_of_moves {run : Nat → Relaying} {steps : Nat}
    (moved : ∀ n < steps, (run n).Moves (run (n + 1))) : (run 0).Reaches (run steps) := by
  induction steps with
  | zero => exact .refl
  | succ steps ih => exact (ih fun n below => moved n (by omega)).tail (moved steps (Nat.lt_succ_self _)).2

theorem BothEndInOrder.reaches (orderly : relaying.BothEndInOrder) (reached : relaying.Reaches next) :
    next.BothEndInOrder := by
  induction reached with
  | refl => exact orderly
  | tail _ stepped ih =>
    obtain ⟨event, stepped⟩ := stepped
    exact ih.step stepped

/-- In whatever order the moves come, there are no more of them than there is to move; and where
none is left, between two sides that end their streams in order, exactly this has been sent in
this direction, and its end passed on. -/
def Delivers (start : Relaying) (direction : Direction) (stream : List UInt8) : Prop :=
  ∀ (run : Nat → Relaying) (steps : Nat), run 0 = start → (∀ n < steps, (run n).Moves (run (n + 1))) →
    steps ≤ start.left ∧ (start.BothEndInOrder → (∀ next, ¬ (run steps).Moves next) →
      ((run steps).pipe direction).shutdown = true ∧ ((run steps).pipe direction).sent = stream)

/-- What is queued in a direction and what comes behind it is delivered. -/
theorem delivers (direction : Direction) {start : Relaying} {queue stream : List UInt8} {reads : List Read}
    (begins : start.pipe direction = { queue, reads }) (whole : queue ++ Read.bytes reads = stream) :
    start.Delivers direction stream := by
  rintro run steps rfl moved
  constructor
  · have bound := moves_le_of_lower left (fun _ _ => left_lt_of_moves) moved
    omega
  · intro orderly stuck
    have reached := reaches_of_moves moved
    have ended := over_of_stuck (orderly.reaches reached) stuck direction
    exact ⟨ended, (relays direction begins whole reached).2 ended⟩

theorem bothEndInOrder {inbound outbound : List Read} {inboundQueue outboundQueue : List UInt8}
    (client : EndsInOrder inbound) (server : EndsInOrder outbound) :
    (proxyInboundOutboundWithQueue inbound outbound inboundQueue outboundQueue).BothEndInOrder := by
  intro direction
  cases direction with
  | toClient => exact server
  | toServer => exact client

/-- A relay makes at most two moves for each byte and one for each end, in whatever order its
two directions take them; and where it has no more move to make, between two sides that end
their streams in order, both ends are passed on and each side has got all that was queued for
it and all that the other has sent. -/
theorem relay_delivers {inbound outbound : List Read} {inboundQueue outboundQueue : List UInt8}
    {run : Nat → Relaying} {steps : Nat}
    (begins : run 0 = proxyInboundOutboundWithQueue inbound outbound inboundQueue outboundQueue)
    (moved : ∀ n < steps, (run n).Moves (run (n + 1))) :
    steps ≤ inboundQueue.length + outboundQueue.length
        + 2 * ((Read.bytes inbound).length + (Read.bytes outbound).length) + 2 ∧
      (EndsInOrder inbound → EndsInOrder outbound → (∀ next, ¬ (run steps).Moves next) →
        (run steps).Over ∧
          (run steps).toServer.sent = outboundQueue ++ Read.bytes inbound ∧
          (run steps).toClient.sent = inboundQueue ++ Read.bytes outbound) := by
  have toServer : (run 0).Delivers .toServer (outboundQueue ++ Read.bytes inbound) :=
    delivers .toServer (by rw [begins]; rfl) rfl
  have toClient : (run 0).Delivers .toClient (inboundQueue ++ Read.bytes outbound) :=
    delivers .toClient (by rw [begins]; rfl) rfl
  obtain ⟨bound, server⟩ := toServer run steps rfl moved
  obtain ⟨-, client⟩ := toClient run steps rfl moved
  constructor
  · have initial : (run 0).left = inboundQueue.length + outboundQueue.length
        + 2 * ((Read.bytes inbound).length + (Read.bytes outbound).length) + 2 := by
      rw [begins]
      simp only [left, Pipe.left, proxyInboundOutboundWithQueue, List.length_nil, Bool.false_eq_true, if_false]
      omega
    omega
  · intro inOrder outOrder stuck
    have orderly : (run 0).BothEndInOrder := begins ▸ bothEndInOrder inOrder outOrder
    obtain ⟨serverEnded, serverSent⟩ := server orderly stuck
    obtain ⟨clientEnded, clientSent⟩ := client orderly stuck
    refine ⟨fun direction => ?_, serverSent, clientSent⟩
    cases direction with
    | toClient => exact clientEnded
    | toServer => exact serverEnded

/-! Runs by their events -/

/-- Where the first events of a list lead to. -/
def along (start : Relaying) (events : List RelayEvent) (count : Nat) : Relaying :=
  (events.take count).foldl (fun relaying event => (relaying.step event).getD relaying) start

/-- Events that each leave less to be moved are moves. -/
theorem moves_along {start : Relaying} {events : List RelayEvent}
    (lower : ∀ n < events.length, (start.along events (n + 1)).left < (start.along events n).left) :
    ∀ n < events.length, (start.along events n).Moves (start.along events (n + 1)) := by
  intro n below
  have next : start.along events (n + 1) =
      ((start.along events n).step events[n]).getD (start.along events n) := by
    rw [along, List.take_succ_eq_append_getElem below, List.foldl_append]
    rfl
  have changed := lower n below
  refine ⟨fun same => absurd changed (by rw [same]; exact Nat.lt_irrefl _), events[n], ?_⟩
  cases stepped : (start.along events n).step events[n] with
  | none =>
    rw [next, stepped] at changed
    exact absurd changed (Nat.lt_irrefl _)
  | some after => rw [next, stepped, Option.getD_some]

/-- Where nothing is left to be moved, there are no moves. -/
theorem stuck_of_left (done : relaying.left = 0) : ∀ next, ¬ relaying.Moves next :=
  fun _ moves => Nat.not_lt_zero _ (done ▸ left_lt_of_moves moves)

/-- Two bytes from the client: a read, a write and the two ends. -/
theorem relay_delivers_two : ∃ run : Nat → Relaying,
    (∀ n < 4, (run n).Moves (run (n + 1))) ∧ 4 ≤ 6 ∧
      (run 4).Over ∧ (run 4).toServer.sent = [1, 2] ∧ (run 4).toClient.sent = [] := by
  let events : List RelayEvent := [.copy .toServer, .accept .toServer 2, .finish .toClient, .finish .toServer]
  have moved := @moves_along (proxyInboundOutboundWithQueue [.data [1, 2]] [] [] []) events (by decide)
  obtain ⟨bound, delivers⟩ := @relay_delivers [.data [1, 2]] [] [] [] _ 4 rfl moved
  exact ⟨_, moved, bound, delivers (@endsInOrder_chunks [[1, 2]] (by decide)) nofun (stuck_of_left rfl)⟩

end Relaying
end PlexPaper
