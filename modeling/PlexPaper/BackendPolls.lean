import PlexPaper.PacketSafety
import PlexPaper.Rounds
import PlexPaper.Server
import PlexPaper.StatusFormat

/-! The two loops of `monitor.rs` that read the answer of the server to a poll. An error
of `read_packet` does not end them, so whether they end depends on what each of its
error paths leaves in the buffer. -/
namespace PlexPaper
open Outcome

/-- The packet formats of `minecraft_protocol` that a poll uses. -/
structure PollWire extends Codecs where
  clientStatus : UInt8
  clientPing : UInt8
  decodeStatusResponse : List UInt8 → Option ServerStatus
  decodePingResponse : List UInt8 → Option UInt64

section Loops

variable {α : Type}

/-- What `wait_for_status` makes of a packet: the result of the loop, if it is the answer. -/
def statusAnswer (wire : PollWire) (packet : RawPacket) : Option (Outcome ServerStatus) :=
  if packet.id = wire.clientStatus then some (question (wire.decodeStatusResponse packet.data))
  else none

/-- What `wait_for_ping` makes of a packet. -/
def pingAnswer (wire : PollWire) (token : UInt64) (packet : RawPacket) : Option (Outcome Unit) :=
  if packet.id = wire.clientPing then
    match wire.decodePingResponse packet.data with
    | none => some (.error .err)
    | some time => if time = token then some (.ok ()) else none
  else none

/-- The body of both loops. -/
def pollRound (lib : Codecs) (client : Client) (answer : RawPacket → Option (Outcome α))
    (conn : Conn) : Outcome α ⊕ Conn :=
  match readPacket lib client conn with
  | (.ok (some (packet, _)), conn) =>
    match answer packet with
    | some result => .inl result
    | none => .inr conn
  | (.ok none, _) => .inl (.error .err)
  | (.error .err, conn) => .inr conn
  | (.error .panic, _) => .inl (.error .panic)

def waitForStatus (wire : PollWire) (client : Client) : (rounds : Nat) → Conn →
    Option (Outcome ServerStatus) :=
  Rounds.run (pollRound wire.toCodecs client (statusAnswer wire))

def waitForPing (wire : PollWire) (client : Client) (token : UInt64) : (rounds : Nat) → Conn →
    Option (Outcome Unit) :=
  Rounds.run (pollRound wire.toCodecs client (pingAnswer wire token))

end Loops

/-! ## Where the packets of a stream begin -/

/-- How many bytes `read_packet` takes the packet in front of a stream to have. -/
def packetLength (lib : Codecs) (stream : List UInt8) : Option Nat :=
  (readVarInt lib stream).map fun (consumed, len) => (consumed + asUsize len) % 2 ^ 64

/-- The places where a loop looks for a packet: behind each packet that is whole and is not
its answer. -/
inductive StartsAt {α : Type} (lib : Codecs) (answer : RawPacket → Option (Outcome α))
    (stream : List UInt8) : Nat → Prop where
  | first : StartsAt lib answer stream 0
  | behind {start size : Nat} : StartsAt lib answer stream start →
      packetLength lib (stream.drop start) = some size → start + size ≤ stream.length →
      (∀ packet, RawPacket.decodeWithLen lib .dummy ((stream.drop start).take size) = .ok packet →
        answer packet = none) →
      StartsAt lib answer stream (start + size)

/-- Two bytes have arrived of the prefix at this place, and a chunk ends inside it. -/
def PrefixCut (lib : Codecs) (chunks : List (List UInt8)) (start : Nat) : Prop :=
  ∃ before after consumed len, chunks = before ++ after ∧
    readVarInt lib (chunks.flatten.drop start) = some (consumed, len) ∧
    start + 2 ≤ before.flatten.length ∧ before.flatten.length < start + consumed

/-- `read_packet` fails at this place and takes nothing off the buffer: two bytes are
there, and they are no prefix, or not all of one, or the size of the packet wraps around
to zero. -/
def StallsAt (lib : Codecs) (chunks : List (List UInt8)) (start : Nat) : Prop :=
  start + 2 ≤ chunks.flatten.length ∧
    (packetLength lib (chunks.flatten.drop start) = none ∨
      packetLength lib (chunks.flatten.drop start) = some 0 ∨ PrefixCut lib chunks start)

/-- A loop comes to such a place. -/
def Stalls {α : Type} (lib : Codecs) (answer : RawPacket → Option (Outcome α))
    (chunks : List (List UInt8)) : Prop :=
  ∃ start, StartsAt lib answer chunks.flatten start ∧ StallsAt lib chunks start

/-- What is asked of a loop for a stream in these chunks: a result, and that each error it
passes over has used up bytes. -/
structure PollEnds {α : Type} (lib : Codecs) (answer : RawPacket → Option (Outcome α))
    (loop : (rounds : Nat) → Conn → Option (Outcome α)) (chunks : List (List UInt8)) : Prop where
  finishes : ∃ rounds result, loop rounds ⟨[], chunks.map .data⟩ = some result ∧
    result ≠ .error .panic
  decreases : ∀ conn after,
    Rounds.Comes (pollRound lib .dummy answer) ⟨[], chunks.map .data⟩ conn →
    readPacket lib .dummy conn = (.error .err, after) → after.size < conn.size

/-! ## One call between two packets -/

section Calls

variable {lib : Codecs} {client : Client} {chunks : List (List UInt8)} {conn : Conn} {start : Nat}

/-- The connection of a loop that has used up the bytes before this place: no more chunks
are read than it takes to see two bytes behind it. -/
def At (chunks : List (List UInt8)) (start : Nat) (conn : Conn) : Prop :=
  ∃ before after, chunks = before ++ after ∧
    conn = ⟨before.flatten.drop start, after.map .data⟩ ∧ start ≤ before.flatten.length ∧
    ∀ shorter later, chunks = shorter ++ later → start + 2 ≤ shorter.flatten.length →
      before <+: shorter

theorem at_first (chunks : List (List UInt8)) : At chunks 0 ⟨[], chunks.map .data⟩ :=
  ⟨[], chunks, rfl, rfl, Nat.le_refl 0, fun _ _ _ _ => List.nil_prefix⟩

theorem size_chunks (buf : List UInt8) (chunks : List (List UInt8)) :
    Conn.size ⟨buf, chunks.map .data⟩ = buf.length + chunks.flatten.length := by
  simp only [Conn.size, List.map_map, List.length_flatten]
  rfl

theorem At.size (here : At chunks start conn) : conn.size + start = chunks.flatten.length := by
  obtain ⟨before, after, rfl, rfl, inside, -⟩ := here
  rw [size_chunks, List.length_drop, List.flatten_append, List.length_append]
  omega

/-- A stream that is too short is read to its end. -/
theorem fill_ended (need : Nat) (buf : List UInt8) (chunks : List (List UInt8))
    (nonempty : ∀ chunk ∈ chunks, chunk ≠ []) (short : buf.length + chunks.flatten.length < need) :
    (fill need buf (chunks.map .data)).1 = .ended := by
  induction chunks generalizing buf with
  | nil =>
    simp only [List.flatten_nil, List.length_nil] at short
    simp [fill, show buf.length < need by omega]
  | cons chunk chunks ih =>
    simp only [List.flatten_cons, List.length_append] at short
    rw [List.map_cons, fill, if_pos (by omega)]
    simp only [if_neg (nonempty chunk List.mem_cons_self)]
    refine ih (buf ++ chunk) (fun other member => nonempty other (List.mem_cons_of_mem _ member)) ?_
    rw [List.length_append]
    omega

/-- A loop of `read_packet` ends with the first chunk that holds the byte it needs, counted
from the beginning of the stream. -/
theorem fill_at {before after : List (List UInt8)} (need : Nat)
    (nonempty : ∀ chunk ∈ before ++ after, chunk ≠ []) (inside : start ≤ before.flatten.length)
    (enough : start + need ≤ (before ++ after).flatten.length) :
    ∃ read unread, before ++ after = read ++ unread ∧
      fill need (before.flatten.drop start) (after.map .data) =
        (.filled, ⟨read.flatten.drop start, unread.map .data⟩) ∧
      start + need ≤ read.flatten.length ∧ before <+: read ∧
      ∀ shorter later, before ++ after = shorter ++ later →
        start + need ≤ shorter.flatten.length → before <+: shorter → read <+: shorter := by
  have held : (before.flatten.drop start).length = before.flatten.length - start := List.length_drop
  rw [List.flatten_append, List.length_append] at enough
  obtain ⟨more, unread, rfl, filled, reached, minimal⟩ :=
    fill_chunks need (before.flatten.drop start)
      (fun chunk member => nonempty chunk (List.mem_append_right _ member)) (by omega)
  refine ⟨before ++ more, unread, by simp, ?_, ?_, List.prefix_append .., ?_⟩
  · rw [filled, List.flatten_append, List.drop_append_of_le_length inside]
  · rw [List.flatten_append, List.length_append]
    omega
  · rintro shorter later cut arrived ⟨some_, rfl⟩
    rw [List.append_assoc, List.append_cancel_left_eq] at cut
    refine (List.prefix_append_right_inj before).mpr (minimal some_ later cut ?_)
    rw [List.flatten_append, List.length_append] at arrived
    omega

theorem fill_enough {need : Nat} {buf : List UInt8} (reads : List Read) (enough : need ≤ buf.length) :
    fill need buf reads = (.filled, ⟨buf, reads⟩) := by
  cases reads <;> simp [fill, Nat.not_lt.mpr enough]

/-- A number that is buffered whole is the number of the stream. -/
theorem readVarInt_flatten {before : List (List UInt8)} (after : List (List UInt8))
    {found : Nat × Int32} (inside : start ≤ before.flatten.length)
    (read : readVarInt lib (before.flatten.drop start) = some found) :
    readVarInt lib ((before ++ after).flatten.drop start) = some found := by
  rw [List.flatten_append, List.drop_append_of_le_length inside]
  exact readVarInt_more _ read

theorem packetLength_eq {stream : List UInt8} {consumed : Nat} {len : Int32}
    (read : readVarInt lib stream = some (consumed, len)) :
    packetLength lib stream = some ((consumed + asUsize len) % 2 ^ 64) := by
  rw [packetLength, read, Option.map_some]

/-- The first loop of a call, where two bytes are left. -/
theorem At.two (here : At chunks start conn) (nonempty : ∀ chunk ∈ chunks, chunk ≠ [])
    (two : start + 2 ≤ chunks.flatten.length) :
    ∃ before after, chunks = before ++ after ∧
      fill 2 conn.buf conn.reads = (.filled, ⟨before.flatten.drop start, after.map .data⟩) ∧
      start + 2 ≤ before.flatten.length ∧
      ∀ shorter later, chunks = shorter ++ later → start + 2 ≤ shorter.flatten.length →
        before <+: shorter := by
  obtain ⟨before, after, rfl, rfl, inside, minimal⟩ := here
  obtain ⟨read, unread, cut, filled, reached, -, first⟩ := fill_at 2 nonempty inside two
  exact ⟨read, unread, cut, filled, reached, fun shorter later cut arrived =>
    first shorter later cut arrived (minimal shorter later cut arrived)⟩

/-- A call where it stalls leaves a connection on which it stalls again. -/
theorem readPacket_stalls (client : Client) (here : At chunks start conn)
    (nonempty : ∀ chunk ∈ chunks, chunk ≠ []) (stalls : StallsAt lib chunks start) :
    ∃ mid, readPacket lib client conn = (.error .err, mid) ∧
      readPacket lib client mid = (.error .err, mid) := by
  obtain ⟨two, stalls⟩ := stalls
  obtain ⟨before, after, rfl, first, reached, minimal⟩ := here.two nonempty two
  have held : (before.flatten.drop start).length = before.flatten.length - start := List.length_drop
  have again : fill 2 (before.flatten.drop start) (after.map .data) =
      (.filled, ⟨before.flatten.drop start, after.map .data⟩) :=
    fill_enough _ (by rw [held]; omega)
  refine ⟨⟨before.flatten.drop start, after.map .data⟩, ?_⟩
  rcases read : readVarInt lib (before.flatten.drop start) with _ | ⟨consumed, len⟩
  · constructor
    · simp only [readPacket, first, read]
    · simp only [readPacket, again, read]
  · have whole := readVarInt_flatten after (by omega) read
    have zero : (consumed + asUsize len) % 2 ^ 64 = 0 := by
      rcases stalls with unread | zero | ⟨shorter, later, consumed', len', cut, found, low, high⟩
      · rw [packetLength_eq whole] at unread
        cases unread
      · rw [packetLength_eq whole] at zero
        exact Option.some.inj zero
      · -- The prefix is buffered whole, so no chunk has ended inside it.
        have same := whole.symm.trans found
        cases same
        have bounds := (readVarInt_bounds read).2.2
        obtain ⟨more, rfl⟩ := minimal shorter later cut low
        rw [List.flatten_append, List.length_append] at high
        omega
    have nothing : splitPacket lib client 0 (fill 0 (before.flatten.drop start) (after.map .data)) =
        (.error .err, ⟨before.flatten.drop start, after.map .data⟩) := by
      rw [fill_enough _ (Nat.zero_le _)]
      simp [splitPacket, decodeWithLen_nil, Except.map]
    constructor
    · rw [readPacket_declared first read zero, nothing]
    · rw [readPacket_declared again read zero, nothing]

/-- Anywhere else a call is at the end of the stream, or uses up the bytes of a packet
whether or not it can be decoded. -/
theorem readPacket_moves (client : Client) (here : At chunks start conn)
    (nonempty : ∀ chunk ∈ chunks, chunk ≠ []) (clear : ¬ StallsAt lib chunks start) :
    ((readPacket lib client conn).1 = .ok none ∧
      ∀ size, packetLength lib (chunks.flatten.drop start) = some size →
        chunks.flatten.length < start + 2 ∨ chunks.flatten.length < start + size) ∨
    ∃ size after, packetLength lib (chunks.flatten.drop start) = some size ∧ 0 < size ∧
      start + size ≤ chunks.flatten.length ∧ At chunks (start + size) after ∧
      SlicesInBounds lib ((chunks.flatten.drop start).take size) ∧
      readPacket lib client conn =
        ((RawPacket.decodeWithLen lib client ((chunks.flatten.drop start).take size)).map
          fun packet => some (packet, (chunks.flatten.drop start).take size), after) := by
  by_cases two : start + 2 ≤ chunks.flatten.length
  · obtain ⟨before, after, rfl, first, reached, minimal⟩ := here.two nonempty two
    rcases read : readVarInt lib (before.flatten.drop start) with _ | ⟨consumed, len⟩
    · -- What is buffered is no prefix. Then the stream has none there, or one that is cut.
      exfalso
      refine clear ⟨two, ?_⟩
      rcases whole : readVarInt lib ((before ++ after).flatten.drop start) with _ | ⟨consumed, len⟩
      · exact .inl (by rw [packetLength, whole, Option.map_none])
      · refine .inr (.inr ⟨before, after, consumed, len, rfl, whole, reached, ?_⟩)
        by_contra buffered
        rw [List.flatten_append, List.drop_append_of_le_length (by omega)] at whole
        have front := readVarInt_front whole (by rw [List.length_drop]; omega)
        rw [read] at front
        cases front
    · have whole := readVarInt_flatten after (by omega) read
      have length := packetLength_eq whole
      generalize sum : (consumed + asUsize len) % 2 ^ 64 = size at length
      have positive : 0 < size := by
        refine Nat.pos_of_ne_zero fun zero => clear ⟨two, .inr (.inl ?_)⟩
        rw [length, zero]
      have call : readPacket lib client conn = _ := readPacket_declared first read sum
      by_cases enough : start + size ≤ (before ++ after).flatten.length
      · obtain ⟨more, unread, cut, filled, arrived, longer, least⟩ :=
          fill_at size nonempty (by omega) enough
        have front : (more.flatten.drop start).take size =
            ((before ++ after).flatten.drop start).take size := by
          rw [cut, List.flatten_append, List.drop_append_of_le_length (by omega),
            List.take_append_of_le_length (by rw [List.length_drop]; omega)]
        have bounds := slices_in_bounds ⟨_, _⟩ read (by rw [sum]; exact filled)
        rw [sum] at bounds
        refine .inr ⟨size, ⟨more.flatten.drop (start + size), unread.map .data⟩, length, positive,
          enough, ⟨more, unread, cut, rfl, arrived, ?_⟩, ?_, ?_⟩
        · intro shorter later split reach
          exact least shorter later split (by omega) (minimal shorter later split (by omega))
        · rwa [← front]
        · rw [call, filled, splitPacket, front, List.drop_drop]
      · refine .inl ⟨?_, fun size' same => .inr ?_⟩
        · have ended := fill_ended size (before.flatten.drop start) after
            (fun chunk member => nonempty chunk (List.mem_append_right _ member))
            (by rw [List.length_drop]
                rw [List.flatten_append, List.length_append] at enough
                omega)
          rw [call]
          rcases second : fill size (before.flatten.drop start) (after.map .data) with
            ⟨_ | _ | _, mid⟩
          · simp [second] at ended
          · rfl
          · simp [second] at ended
        · rw [length] at same
          cases same
          omega
  · refine .inl ⟨?_, fun size _ => .inl (by omega)⟩
    obtain ⟨before, after, rfl, rfl, inside, -⟩ := here
    have ended := fill_ended 2 (before.flatten.drop start) after
      (fun chunk member => nonempty chunk (List.mem_append_right _ member))
      (by rw [List.length_drop]
          rw [List.flatten_append, List.length_append] at two
          omega)
    rcases first : fill 2 (before.flatten.drop start) (after.map .data) with ⟨_ | _ | _, mid⟩
    · simp [first] at ended
    · simp only [readPacket, first]
    · simp [first] at ended

end Calls

/-! ## The loops -/

section Ends

variable {α : Type} {lib : Codecs} {answer : RawPacket → Option (Outcome α)}
  {chunks : List (List UInt8)} {conn next : Conn} {start : Nat}

/-- A client without compression has no packet it panics at, as far as the slices go. -/
theorem decodeWithLen_returns {client : Client} {raw : List UInt8}
    (plain : client.isCompressed = false) (inBounds : SlicesInBounds lib raw) :
    RawPacket.decodeWithLen lib client raw ≠ .error .panic := by
  unfold RawPacket.decodeWithLen
  rcases read : readVarInt lib raw with _ | ⟨consumed, len⟩
  · simp [question, bind, Except.bind]
  · have inside : sliceTo (raw.drop consumed) (asUsize len) =
        .ok ((raw.drop consumed).take (asUsize len)) := if_pos (inBounds consumed len read).2
    simp [bind, Except.bind, sliceFrom_readVarInt read, inside, RawPacket.decodeWithoutLen, plain,
      RawPacket.readPacketIdData_returns]

/-- A round at a place where the loop does not stall. -/
theorem pollRound_moves (answer : RawPacket → Option (Outcome α)) (here : At chunks start conn)
    (nonempty : ∀ chunk ∈ chunks, chunk ≠ []) (clear : ¬ StallsAt lib chunks start) :
    (pollRound lib .dummy answer conn = .inl (.error .err) ∧
      ∀ size, packetLength lib (chunks.flatten.drop start) = some size →
        chunks.flatten.length < start + 2 ∨ chunks.flatten.length < start + size) ∨
    (∃ packet result, answer packet = some result ∧
      pollRound lib .dummy answer conn = .inl result ∧
      ∀ size, packetLength lib (chunks.flatten.drop start) = some size →
        RawPacket.decodeWithLen lib .dummy ((chunks.flatten.drop start).take size) = .ok packet) ∨
    ∃ size next, pollRound lib .dummy answer conn = .inr next ∧ 0 < size ∧
      At chunks (start + size) next ∧
      packetLength lib (chunks.flatten.drop start) = some size ∧
      start + size ≤ chunks.flatten.length ∧
      ∀ packet, RawPacket.decodeWithLen lib .dummy ((chunks.flatten.drop start).take size) =
        .ok packet → answer packet = none := by
  rcases readPacket_moves .dummy here nonempty clear with
    ⟨ended, why⟩ | ⟨size, after, length, positive, inside, there, inBounds, call⟩
  · refine .inl ⟨?_, why⟩
    rcases read : readPacket lib .dummy conn with ⟨result, after⟩
    rw [read] at ended
    cases ended
    simp only [pollRound, read]
  · right
    have returns : RawPacket.decodeWithLen lib .dummy _ ≠ .error .panic :=
      decodeWithLen_returns (by decide) inBounds
    rcases decoded : RawPacket.decodeWithLen lib .dummy ((chunks.flatten.drop start).take size) with
      fault | packet
    · rw [decoded] at call returns
      cases fault with
      | panic => exact absurd rfl returns
      | err =>
        refine .inr ⟨size, after, ?_, positive, there, length, inside, fun packet same => ?_⟩
        · simp only [pollRound, call, Except.map]
        · rw [decoded] at same
          cases same
    · rw [decoded] at call
      rcases answered : answer packet with _ | result
      · refine .inr ⟨size, after, ?_, positive, there, length, inside, ?_⟩
        · simp only [pollRound, call, Except.map, answered]
        · intro other same
          rw [decoded] at same
          cases same
          exact answered
      · refine .inl ⟨packet, result, answered, ?_, ?_⟩
        · simp only [pollRound, call, Except.map, answered]
        · intro size' same
          rw [length] at same
          cases same
          exact decoded

/-- A loop that stalls goes on for ever. -/
theorem not_ends_of_stallsAt (here : At chunks start conn)
    (nonempty : ∀ chunk ∈ chunks, chunk ≠ []) (stalls : StallsAt lib chunks start) :
    ¬ Rounds.Ends (pollRound lib .dummy answer) conn := by
  obtain ⟨mid, first, again⟩ := readPacket_stalls .dummy here nonempty stalls
  have goesOn : pollRound lib .dummy answer conn = .inr mid := by simp only [pollRound, first]
  rw [Rounds.ends_iff goesOn]
  exact Rounds.not_ends_of_self (by simp only [pollRound, again])

/-- Where a packet begins with two bytes of the stream left, the loop arrives there, unless
it has stalled on its way. -/
theorem StartsAt.comes (nonempty : ∀ chunk ∈ chunks, chunk ≠ [])
    (starts : StartsAt lib answer chunks.flatten start) (two : start + 2 ≤ chunks.flatten.length) :
    (∃ conn, Rounds.Comes (pollRound lib .dummy answer) ⟨[], chunks.map .data⟩ conn ∧
      At chunks start conn) ∨
    ¬ Rounds.Ends (pollRound lib .dummy answer) ⟨[], chunks.map .data⟩ := by
  induction starts with
  | first => exact .inl ⟨_, .first, at_first chunks⟩
  | @behind start size _ length inside unanswered ih =>
    rcases ih (by omega) with ⟨conn, comes, here⟩ | diverges
    · by_cases stalls : StallsAt lib chunks start
      · right
        rw [comes.ends_iff]
        exact not_ends_of_stallsAt here nonempty stalls
      · left
        rcases pollRound_moves answer here nonempty stalls with
          ⟨-, why⟩ | ⟨packet, result, answered, -, decoded⟩ | ⟨size', next, goesOn, -, there, same, -⟩
        · have := why size length
          omega
        · have none := unanswered packet (decoded size length)
          rw [answered] at none
          cases none
        · rw [length] at same
          cases same
          exact ⟨next, comes.next goesOn, there⟩
    · exact .inr diverges

/-- The connection at the start of a round that has not stalled. -/
def Between (lib : Codecs) (answer : RawPacket → Option (Outcome α)) (chunks : List (List UInt8))
    (conn : Conn) : Prop :=
  ∃ start, StartsAt lib answer chunks.flatten start ∧ At chunks start conn

theorem between_first (lib : Codecs) (answer : RawPacket → Option (Outcome α))
    (chunks : List (List UInt8)) : Between lib answer chunks ⟨[], chunks.map .data⟩ :=
  ⟨0, .first, at_first chunks⟩

/-- A round of a loop that does not stall, and is not the last. -/
theorem pollRound_lower (nonempty : ∀ chunk ∈ chunks, chunk ≠ [])
    (clear : ¬ Stalls lib answer chunks)
    (here : Between lib answer chunks conn) (goesOn : pollRound lib .dummy answer conn = .inr next) :
    Between lib answer chunks next ∧ next.size < conn.size := by
  obtain ⟨start, starts, here⟩ := here
  rcases pollRound_moves answer here nonempty (fun stalls => clear ⟨start, starts, stalls⟩)
    with ⟨ended, -⟩ | ⟨packet, result, -, ended, -⟩ |
      ⟨size, after, moved, positive, there, length, inside, unanswered⟩
  · rw [ended] at goesOn
    cases goesOn
  · rw [ended] at goesOn
    cases goesOn
  · rw [moved] at goesOn
    cases goesOn
    refine ⟨⟨start + size, starts.behind length inside unanswered, there⟩, ?_⟩
    have := here.size
    have := there.size
    omega

/-- A loop over a stream ends, with every error it passes over using up bytes, exactly when
it comes to no place where it stalls. -/
theorem pollEnds_iff (nonempty : ∀ chunk ∈ chunks, chunk ≠ [])
    (answers : ∀ packet result, answer packet = some result → result ≠ .error .panic) :
    PollEnds lib answer (Rounds.run (pollRound lib .dummy answer)) chunks ↔
      ¬ Stalls lib answer chunks := by
  constructor
  · rintro ⟨⟨rounds, result, ran, -⟩, -⟩ ⟨start, starts, stalls⟩
    rcases starts.comes nonempty stalls.1 with ⟨conn, comes, here⟩ | diverges
    · exact not_ends_of_stallsAt here nonempty stalls
        (comes.ends_iff.mp ⟨rounds, result, ran⟩)
    · exact diverges ⟨rounds, result, ran⟩
  · intro clear
    have lower : ∀ conn next, Between lib answer chunks conn →
        pollRound lib .dummy answer conn = .inr next →
        Between lib answer chunks next ∧ next.size < conn.size :=
      fun _ _ here goesOn => pollRound_lower nonempty clear here goesOn
    have holds : ∀ conn, Rounds.Comes (pollRound lib .dummy answer) ⟨[], chunks.map .data⟩ conn →
        Between lib answer chunks conn := fun _ =>
      Rounds.Comes.holds (between_first lib answer chunks)
        fun conn next here goesOn => (lower conn next here goesOn).1
    constructor
    · obtain ⟨rounds, result, ran⟩ := Rounds.ends_of_lower Conn.size lower
        (between_first lib answer chunks)
      refine ⟨rounds, result, ran, ?_⟩
      obtain ⟨last, comes, ended⟩ := Rounds.comes_of_run ran
      obtain ⟨start, starts, here⟩ := holds last comes
      rcases pollRound_moves answer here nonempty
        (fun stalls => clear ⟨start, starts, stalls⟩) with
          ⟨erred, -⟩ | ⟨packet, result', answered, erred, -⟩ | ⟨size, next, goesOn, -⟩
      · rw [erred] at ended
        cases ended
        simp
      · rw [erred] at ended
        cases ended
        exact answers packet _ answered
      · rw [goesOn] at ended
        cases ended
    · intro conn after comes read
      exact (lower conn after (holds conn comes) (by simp only [pollRound, read])).2

end Ends

theorem statusAnswer_returns (wire : PollWire) (packet : RawPacket) (result : Outcome ServerStatus)
    (answered : statusAnswer wire packet = some result) : result ≠ .error .panic := by
  unfold statusAnswer at answered
  split at answered
  · cases answered
    cases wire.decodeStatusResponse packet.data <;> simp [question]
  · cases answered

theorem pingAnswer_returns (wire : PollWire) (token : UInt64) (packet : RawPacket)
    (result : Outcome Unit) (answered : pingAnswer wire token packet = some result) :
    result ≠ .error .panic := by
  unfold pingAnswer at answered
  split at answered
  · split at answered
    · cases answered
      simp
    · split at answered
      · cases answered
        simp
      · cases answered
  · cases answered

/-- Both readers end on a stream exactly when they come to no place where they stall. -/
theorem poll_readers_end_iff (wire : PollWire) (token : UInt64) (chunks : List (List UInt8))
    (nonempty : ∀ chunk ∈ chunks, chunk ≠ []) :
    (PollEnds wire.toCodecs (statusAnswer wire) (waitForStatus wire .dummy) chunks ↔
      ¬ Stalls wire.toCodecs (statusAnswer wire) chunks) ∧
    (PollEnds wire.toCodecs (pingAnswer wire token) (waitForPing wire .dummy token) chunks ↔
      ¬ Stalls wire.toCodecs (pingAnswer wire token) chunks) :=
  ⟨pollEnds_iff nonempty (statusAnswer_returns wire),
    pollEnds_iff nonempty (pingAnswer_returns wire token)⟩

/-- The packet formats of `minecraft_protocol`. -/
def plainPollWire : PollWire where
  toCodecs := plainCodecs
  clientStatus := 0
  clientPing := 1
  decodeStatusResponse := decodeStatus plainCodecs
  decodePingResponse := decodeTime

/-- What an empty server answers. -/
private def emptyServer : List UInt8 := RawPacket.frame ⟨0, encodeStatus
  { version := ⟨"Paper 1.21.4", 769⟩, players := ⟨0, 20⟩, description := "A Minecraft Server", favicon := none }⟩

/-- No reader stalls on a stream that is one packet, with a length of at most two bytes. -/
theorem not_stalls_of_single {α : Type} {lib : Codecs} {answer : RawPacket → Option (Outcome α)}
    {chunks : List (List UInt8)} {stream : List UInt8} {consumed : Nat} {len : Int32}
    (flat : chunks.flatten = stream) (read : readVarInt lib stream = some (consumed, len)) (short : consumed ≤ 2)
    (single : packetLength lib stream = some stream.length) (ends : packetLength lib [] = none) :
    ¬ Stalls lib answer chunks := by
  subst flat
  have places {start : Nat} (starts : StartsAt lib answer chunks.flatten start) :
      start = 0 ∨ start = chunks.flatten.length := by
    induction starts with
    | first => exact .inl rfl
    | behind _ length _ _ ih =>
      rcases ih with rfl | rfl
      · rw [List.drop_zero, single] at length
        cases length
        exact .inr (Nat.zero_add _)
      · rw [List.drop_length, ends] at length
        cases length
  rintro ⟨start, starts, inside, stalls⟩
  rcases places starts with rfl | rfl
  · rw [List.drop_zero, single] at stalls
    rcases stalls with none | zero | ⟨before, after, consumed', len', -, read', two, cut⟩
    · cases none
    · have nothing : chunks.flatten.length = 0 := Option.some.inj zero
      omega
    · rw [List.drop_zero, read] at read'
      cases read'
      omega
  · omega

/-- One status response, cut inside its length. -/
theorem poll_readers_end_status :
    PollEnds plainCodecs (statusAnswer plainPollWire) (waitForStatus plainPollWire .dummy)
        [emptyServer.take 1, emptyServer.drop 1] ∧
      PollEnds plainCodecs (pingAnswer plainPollWire 5) (waitForPing plainPollWire .dummy 5)
        [emptyServer.take 1, emptyServer.drop 1] := by
  have stream : [emptyServer.take 1, emptyServer.drop 1].flatten = emptyServer := by decide +kernel
  have read : readVarInt plainCodecs emptyServer = some (2, 147) := by decide +kernel
  have single : packetLength plainCodecs emptyServer = some emptyServer.length := by decide +kernel
  have ends := poll_readers_end_iff plainPollWire 5 [emptyServer.take 1, emptyServer.drop 1] (by decide +kernel)
  exact ⟨ends.1.mpr (not_stalls_of_single stream read (by decide) single (by decide)),
    ends.2.mpr (not_stalls_of_single stream read (by decide) single (by decide))⟩

/-- Two bytes that each say that another one follows, and nothing behind them: neither
reader ever ends. -/
theorem poll_readers_spin :
    (¬ ∃ rounds result, waitForStatus plainPollWire .dummy rounds ⟨[], [.data [128, 128]]⟩ =
      some result) ∧
    ¬ ∃ rounds result, waitForPing plainPollWire .dummy 5 rounds ⟨[], [.data [128, 128]]⟩ =
      some result := by
  have stalls : StallsAt plainCodecs [[128, 128]] 0 := ⟨by decide, .inl (by decide)⟩
  have here := at_first [[128, 128]]
  exact ⟨not_ends_of_stallsAt here (by decide) stalls, not_ends_of_stallsAt here (by decide) stalls⟩

end PlexPaper
