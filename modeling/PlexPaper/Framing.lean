import Mathlib.Data.List.Forall2
import PlexPaper.PacketCodec

/-! `packet::read_packet`, and what repeated calls of it make of a stream of
frames. The reader holds two bytes before it looks at the length of a frame; a
length of three bytes or more that arrives in pieces is not waited for. -/
namespace PlexPaper

/-- One `read_buf` of a socket. No bytes mean the end of the stream. -/
inductive Read where
  | data (bytes : List UInt8)
  | reset
  | error
  deriving DecidableEq

/-- Bytes read but not used yet, and what further reads will give. After the
last of them the stream is at its end. -/
structure Conn where
  buf : List UInt8
  reads : List Read
  deriving DecidableEq

inductive Fill where
  | filled
  | ended
  | failed
  deriving DecidableEq

/-- The loop of both halves of `read_packet`: read while `buf.len() < need`. -/
def fill (need : Nat) (buf : List UInt8) : List Read → Fill × Conn
  | [] => (if buf.length < need then .ended else .filled, ⟨buf, []⟩)
  | read :: reads =>
    if buf.length < need then
      match read with
      | .data bytes => if bytes = [] then (.ended, ⟨buf, reads⟩) else fill need (buf ++ bytes) reads
      | .reset => (.ended, ⟨buf, reads⟩)
      | .error => (.failed, ⟨buf, reads⟩)
    else (.filled, ⟨buf, read :: reads⟩)

/-- The packet and its raw frame, and the connection after the call. -/
def readPacket (lib : Codecs) (client : Client) (conn : Conn) :
    Outcome (Option (RawPacket × List UInt8)) × Conn :=
  match fill 2 conn.buf conn.reads with
  | (.ended, conn) => (.ok none, conn)
  | (.failed, conn) => (.error .err, conn)
  | (.filled, conn) =>
    match readVarInt lib conn.buf with
    | none => (.error .err, conn)
    | some (consumed, len) =>
      let need := (consumed + asUsize len) % 2 ^ 64
      match fill need conn.buf conn.reads with
      | (.ended, conn) => (.ok none, conn)
      | (.failed, conn) => (.error .err, conn)
      | (.filled, conn) =>
        let raw := conn.buf.take need
        let conn := { conn with buf := conn.buf.drop need }
        match RawPacket.decodeWithLen lib client raw with
        | .error fault => (.error fault, conn)
        | .ok packet => (.ok (some (packet, raw)), conn)

/-- How many bytes are still to be returned in frames. -/
def Conn.size (conn : Conn) : Nat :=
  conn.buf.length + (conn.reads.map fun read => match read with
    | .data bytes => bytes.length
    | .reset | .error => 0).sum

theorem fill_size (need : Nat) (buf : List UInt8) (reads : List Read) :
    (fill need buf reads).2.size ≤ Conn.size ⟨buf, reads⟩ := by
  induction reads generalizing buf with
  | nil => exact Nat.le_refl _
  | cons read reads ih =>
    unfold fill
    split
    · cases read with
      | data bytes =>
        by_cases empty : bytes = []
        · simp [empty, Conn.size]
        · have rest := ih (buf ++ bytes)
          simp only [if_neg empty, Conn.size, List.length_append, List.map_cons, List.sum_cons]
            at rest ⊢
          omega
      | reset | error => simp [Conn.size]
    · exact Nat.le_refl _

theorem decodeWithLen_nil (lib : Codecs) (client : Client) :
    RawPacket.decodeWithLen lib client [] = .error .err := rfl

/-- A call that returns a packet has used up its frame, so no loop of calls goes
on for ever. -/
theorem readPacket_shrinks {lib : Codecs} {client : Client} {conn after : Conn}
    {sent : RawPacket × List UInt8} (read : readPacket lib client conn = (.ok (some sent), after)) :
    after.size < conn.size := by
  unfold readPacket at read
  have first := fill_size 2 conn.buf conn.reads
  generalize fill 2 conn.buf conn.reads = filled at read first
  obtain ⟨_ | _ | _, mid⟩ := filled
  · cases prefixed : readVarInt lib mid.buf with
    | none => simp [prefixed] at read
    | some found =>
      obtain ⟨consumed, len⟩ := found
      simp only [prefixed] at read
      generalize (consumed + asUsize len) % 2 ^ 64 = need at read
      have second := fill_size need mid.buf mid.reads
      generalize fill need mid.buf mid.reads = refilled at read second
      obtain ⟨_ | _ | _, last⟩ := refilled
      · simp only at read
        cases decoded : RawPacket.decodeWithLen lib client (last.buf.take need) with
        | error fault => simp [decoded] at read
        | ok packet =>
          simp only [decoded, Prod.mk.injEq] at read
          obtain ⟨-, rfl⟩ := read
          have used : last.buf.take need ≠ [] := by
            intro nothing
            rw [nothing, decodeWithLen_nil] at decoded
            cases decoded
          have taken := List.length_pos_of_ne_nil used
          simp only [Conn.size, List.length_take, List.length_drop] at first second taken ⊢
          omega
      · simp at read
      · simp at read
  · simp at read
  · simp at read

/-- The results of that many calls, one after the other. -/
def readPackets (lib : Codecs) (client : Client) :
    (calls : Nat) → Conn → List (Outcome (Option (RawPacket × List UInt8)))
  | 0, _ => []
  | calls + 1, conn =>
    (readPacket lib client conn).1 :: readPackets lib client calls (readPacket lib client conn).2

/-- Reading stops with the first chunk that brings enough, and not before. -/
theorem fill_chunks (need : Nat) (buf : List UInt8) {chunks : List (List UInt8)}
    (nonempty : ∀ chunk ∈ chunks, chunk ≠ [])
    (enough : need ≤ buf.length + chunks.flatten.length) :
    ∃ before after, chunks = before ++ after ∧
      fill need buf (chunks.map .data) =
        (.filled, ⟨buf ++ before.flatten, after.map .data⟩) ∧
      need ≤ buf.length + before.flatten.length ∧
      ∀ shorter rest, chunks = shorter ++ rest → need ≤ buf.length + shorter.flatten.length →
        before <+: shorter := by
  induction chunks generalizing buf with
  | nil =>
    have held : ¬ buf.length < need := by simpa using enough
    exact ⟨[], [], rfl, by simp [fill, held], by simpa using enough, fun _ _ _ _ => List.nil_prefix⟩
  | cons chunk chunks ih =>
    by_cases held : buf.length < need
    · have later := ih (buf ++ chunk) (fun c member => nonempty c (by simp [member]))
        (by simp only [List.length_append, List.flatten_cons] at enough ⊢; omega)
      obtain ⟨before, after, rfl, filled, reached, first⟩ := later
      refine ⟨chunk :: before, after, rfl, ?_, ?_, ?_⟩
      · rw [List.map_cons, fill, if_pos held]
        simp only [if_neg (nonempty chunk (by simp)), filled]
        simp
      · simp only [List.length_append, List.flatten_cons] at reached ⊢
        omega
      · intro shorter rest cut arrived
        cases shorter with
        | nil =>
          simp only [List.flatten_nil, List.length_nil] at arrived
          omega
        | cons c shorter =>
          obtain ⟨rfl, tails⟩ := List.cons.inj cut
          refine (List.prefix_cons_inj chunk).mpr (first shorter rest tails ?_)
          simp only [List.length_append, List.flatten_cons] at arrived ⊢
          omega
    · exact ⟨[], chunk :: chunks, rfl, by simp [fill, held], by simpa using held,
        fun _ _ _ _ => List.nil_prefix⟩

/-- At the end of a stream that stopped between two frames. -/
theorem readPacket_end (lib : Codecs) (client : Client) :
    readPacket lib client ⟨[], []⟩ = (.ok none, ⟨[], []⟩) := rfl

/-- What an encoder puts on the wire for one packet. -/
structure IsFrame (lib : Codecs) (client : Client) (packet : RawPacket)
    (body frame : List UInt8) : Prop where
  shape : frame = varInt (asI32 body.length) ++ body
  nonempty : 0 < body.length
  fits : body.length < 2 ^ 31
  decodes : RawPacket.decodeWithLen lib client frame = .ok packet

theorem RawPacket.Fits.isFrame {lib : Codecs} {client : Client} {packet : RawPacket}
    {frame : List UInt8} (fits : packet.Fits lib client) (standard : lib.Standard)
    (zlib : lib.ZlibInverts) (encoded : packet.encodeWithLen lib client = .ok frame) :
    ∃ body, IsFrame lib client packet body frame := by
  obtain ⟨body, encodes, decodes⟩ :=
    RawPacket.decode_encodeWithoutLen client standard zlib rfl fits.payload
  have short := fits.encoded body encodes
  rw [RawPacket.encodeWithLen_eq standard encodes] at encoded
  cases encoded
  refine ⟨body, rfl, ?_, short, ?_⟩
  · apply List.length_pos_of_ne_nil
    rintro rfl
    simp [RawPacket.decodeWithoutLen, RawPacket.readPacketIdData, readVarInt, varIntLength,
      Outcome.question, bind, Except.bind] at decodes
  · rw [RawPacket.decodeWithLen_frame standard short, decodes]

/-- Where the chunks end, counted from the first byte of the frames: a chunk ends
after the second byte of a frame and still within its length. `held` bytes of
the frames are buffered already. -/
def SplitsPrefixFrom (lib : Codecs) (held : Nat) (chunks frames : List (List UInt8)) : Prop :=
  ∃ done frame rest before after consumed len,
    frames = done ++ frame :: rest ∧ chunks = before ++ after ∧
    readVarInt lib frame = some (consumed, len) ∧
    done.flatten.length + 2 ≤ held + before.flatten.length ∧
    held + before.flatten.length < done.flatten.length + consumed

/-- A cut inside the length of a frame that is at least three bytes, after the
two bytes the reader waits for. -/
def SplitsPrefix (lib : Codecs) (chunks frames : List (List UInt8)) : Prop :=
  SplitsPrefixFrom lib 0 chunks frames

section Stream

variable {lib : Codecs} {client : Client} {packet : RawPacket} {body frame buf rest : List UInt8}
  {chunks frames : List (List UInt8)}

theorem IsFrame.length_ge (whole : IsFrame lib client packet body frame) : 2 ≤ frame.length := by
  have front := varInt_length_pos (asI32 body.length)
  have := whole.nonempty
  rw [whole.shape, List.length_append]
  omega

theorem IsFrame.readVarInt (whole : IsFrame lib client packet body frame)
    (standard : lib.Standard) (rest : List UInt8) :
    readVarInt lib (frame ++ rest) =
      some ((varInt (asI32 body.length)).length, asI32 body.length) := by
  rw [whole.shape, List.append_assoc, standard.readVarInt]

private theorem shorter_front {a b c d : List UInt8} (same : a ++ b = c ++ d)
    (short : a.length ≤ c.length) : a = c.take a.length := by
  rw [← List.take_append_of_le_length short, ← same, List.take_left]

private theorem longer_front {a b c d : List UInt8} (same : a ++ b = c ++ d)
    (long : c.length ≤ a.length) : a = c ++ a.drop c.length := by
  have front := shorter_front same.symm long
  conv_lhs => rw [← List.take_append_drop c.length a, ← front]

/-- One call on a stream that begins with a frame: unless a chunk ends inside its
length the frame is returned, and reading has gone to the first chunk end behind it. -/
theorem readPacket_frame (standard : lib.Standard)
    (whole : IsFrame lib client packet body frame) (nonempty : ∀ chunk ∈ chunks, chunk ≠ [])
    (stream : buf ++ chunks.flatten = frame ++ rest) :
    (∃ before after, chunks = before ++ after ∧ 2 ≤ buf.length + before.flatten.length ∧
      buf.length + before.flatten.length < (varInt (asI32 body.length)).length ∧
      (readPacket lib client ⟨buf, chunks.map .data⟩).1 = .error .err) ∨
    ∃ before after, chunks = before ++ after ∧
      frame.length ≤ buf.length + before.flatten.length ∧
      (∀ shorter later, chunks = shorter ++ later →
        2 ≤ buf.length + shorter.flatten.length →
        (varInt (asI32 body.length)).length ≤ buf.length + shorter.flatten.length) ∧
      (∀ shorter later, chunks = shorter ++ later →
        frame.length ≤ buf.length + shorter.flatten.length → before <+: shorter) ∧
      readPacket lib client ⟨buf, chunks.map .data⟩ =
        (.ok (some (packet, frame)),
          ⟨(buf ++ before.flatten).drop frame.length, after.map .data⟩) := by
  have size := congrArg List.length stream
  simp only [List.length_append] at size
  have long := whole.length_ge
  obtain ⟨first, after, rfl, filled, two, minimal⟩ :=
    fill_chunks 2 buf nonempty (by omega)
  have held : (buf ++ first.flatten).length = buf.length + first.flatten.length :=
    List.length_append
  have split : (buf ++ first.flatten) ++ after.flatten = frame ++ rest := by
    rw [← stream, List.flatten_append, List.append_assoc]
  have behind : (buf ++ first.flatten) ++ after.flatten =
      varInt (asI32 body.length) ++ (body ++ rest) := by
    rw [split, whole.shape, List.append_assoc]
  by_cases inside : buf.length + first.flatten.length < (varInt (asI32 body.length)).length
  · -- Two bytes of a longer length are not a number, and the second fill is never reached.
    refine .inl ⟨first, after, rfl, two, inside, ?_⟩
    have unread : readVarInt lib (buf ++ first.flatten) = none := by
      rw [shorter_front behind (by omega)]
      exact readVarInt_cut lib _ (by omega)
    simp only [readPacket, filled, unread]
  · have front := longer_front behind (by omega)
    have read : readVarInt lib (buf ++ first.flatten) =
        some ((varInt (asI32 body.length)).length, asI32 body.length) := by
      rw [front]
      exact standard.readVarInt _ _
    have need : ((varInt (asI32 body.length)).length + asUsize (asI32 body.length)) % 2 ^ 64 =
        frame.length := by
      have width := varInt_length_le (asI32 body.length)
      have fits := whole.fits
      rw [asUsize_asI32 fits, whole.shape, List.length_append]
      omega
    have later : ∀ chunk ∈ after, chunk ≠ [] := fun chunk member =>
      nonempty chunk (by simp [member])
    have splitSize := congrArg List.length split
    simp only [List.length_append] at splitSize
    obtain ⟨second, after, rfl, refilled, reached, minimal'⟩ :=
      fill_chunks frame.length (buf ++ first.flatten) later
        (by simp only [List.length_append]; omega)
    have all : buf ++ first.flatten ++ second.flatten = buf ++ (first ++ second).flatten := by
      simp
    have raw : (buf ++ first.flatten ++ second.flatten).take frame.length = frame := by
      have same : (buf ++ first.flatten ++ second.flatten) ++ after.flatten = frame ++ rest := by
        rw [← split, List.flatten_append, List.append_assoc]
      exact (shorter_front same.symm (by rwa [List.length_append])).symm
    refine .inr ⟨first ++ second, after, by simp, ?_, ?_, ?_, ?_⟩
    · simp only [List.flatten_append, List.length_append] at reached ⊢
      omega
    · intro shorter later cut arrived
      obtain ⟨more, rfl⟩ := minimal shorter later cut arrived
      simp only [List.flatten_append, List.length_append]
      omega
    · intro shorter later cut arrived
      obtain ⟨more, rfl⟩ := minimal shorter later cut (by omega)
      refine (List.prefix_append_right_inj first).mpr (minimal' more later ?_ ?_)
      · simpa using cut
      · simpa [Nat.add_assoc] using arrived
    · simp only [readPacket, filled, read, need, refilled, raw, whole.decodes]
      rw [all]

/-- Where the chunks end behind a frame does not depend on having read it. -/
theorem splits_behind {before after : List (List UInt8)} {consumed : Nat} {len : Int32}
    (read : PlexPaper.readVarInt lib frame = some (consumed, len))
    (reached : frame.length ≤ buf.length + before.flatten.length)
    (uncut : ∀ shorter later, before ++ after = shorter ++ later →
      2 ≤ buf.length + shorter.flatten.length → consumed ≤ buf.length + shorter.flatten.length)
    (minimal : ∀ shorter later, before ++ after = shorter ++ later →
      frame.length ≤ buf.length + shorter.flatten.length → before <+: shorter) :
    SplitsPrefixFrom lib buf.length (before ++ after) (frame :: frames) ↔
      SplitsPrefixFrom lib ((buf ++ before.flatten).drop frame.length).length after frames := by
  have held : ((buf ++ before.flatten).drop frame.length).length =
      buf.length + before.flatten.length - frame.length := by simp
  rw [held]
  constructor
  · rintro ⟨done, next, rest, shorter, later, used, size, shape, cut, found, low, high⟩
    cases done with
    | nil =>
      obtain ⟨rfl, rfl⟩ := List.cons.inj shape
      rw [read] at found
      cases found
      have := uncut shorter later cut (by simpa using low)
      simp only [List.flatten_nil, List.length_nil] at high
      omega
    | cons head done =>
      obtain ⟨rfl, rfl⟩ := List.cons.inj shape
      simp only [List.flatten_cons, List.length_append] at low high
      obtain ⟨more, rfl⟩ := minimal shorter later cut (by omega)
      simp only [List.flatten_append, List.length_append] at low high
      refine ⟨done, next, rest, more, later, used, size, rfl, ?_, found, ?_, ?_⟩
      · simpa using cut
      · omega
      · omega
  · rintro ⟨done, next, rest, more, later, used, size, rfl, rfl, found, low, high⟩
    refine ⟨frame :: done, next, rest, before ++ more, later, used, size, rfl, by simp, found,
      ?_, ?_⟩
    · simp only [List.flatten_cons, List.flatten_append, List.length_append]
      omega
    · simp only [List.flatten_cons, List.flatten_append, List.length_append]
      omega

/-- What a reader that keeps calling should see: every packet with its frame,
then the end of the stream. -/
def framesRead (packets : List RawPacket) (frames : List (List UInt8)) :
    List (Outcome (Option (RawPacket × List UInt8))) :=
  (packets.zip frames).map (fun sent => .ok (some sent)) ++ [.ok none]

theorem framesRead_cons (packet : RawPacket) (frame : List UInt8) (packets : List RawPacket)
    (frames : List (List UInt8)) :
    framesRead (packet :: packets) (frame :: frames) =
      .ok (some (packet, frame)) :: framesRead packets frames := rfl

/-- From any moment between two calls on. The induction is on the frames to come;
what is already buffered of them moves with it. -/
theorem readPackets_iff_from (standard : lib.Standard) {packets : List RawPacket}
    (sent : List.Forall₂ (fun packet frame => ∃ body, IsFrame lib client packet body frame)
      packets frames)
    (nonempty : ∀ chunk ∈ chunks, chunk ≠ []) (stream : buf ++ chunks.flatten = frames.flatten) :
    readPackets lib client (packets.length + 1) ⟨buf, chunks.map .data⟩ =
        framesRead packets frames ↔
      ¬ SplitsPrefixFrom lib buf.length chunks frames := by
  induction sent generalizing buf chunks with
  | nil =>
    obtain ⟨rfl, empty⟩ := List.append_eq_nil_iff.mp stream
    have none : chunks = [] := by
      cases chunks with
      | nil => rfl
      | cons chunk chunks =>
        exact absurd (List.append_eq_nil_iff.mp empty).1 (nonempty chunk (by simp))
    subst none
    constructor
    · rintro - ⟨done, frame, rest, before, after, used, size, shape, -⟩
      simp at shape
    · intro _
      simp [readPackets, readPacket_end, framesRead]
  | @cons packet frame packets frames first others ih =>
    obtain ⟨body, whole⟩ := first
    have read : PlexPaper.readVarInt lib frame =
        some ((varInt (asI32 body.length)).length, asI32 body.length) := by
      simpa using whole.readVarInt standard []
    rcases readPacket_frame standard whole nonempty stream with
      ⟨before, after, rfl, low, high, failed⟩ |
      ⟨before, after, rfl, reached, uncut, minimal, returned⟩
    · have split : SplitsPrefixFrom lib buf.length (before ++ after) (frame :: frames) :=
        ⟨[], frame, frames, before, after, _, _, rfl, rfl, read, by simpa using low,
          by simpa using high⟩
      rw [List.length_cons, readPackets, framesRead_cons, failed]
      simp [split]
    · have rest : (buf ++ before.flatten).drop frame.length ++ after.flatten = frames.flatten := by
        rw [← List.drop_append_of_le_length (by simpa using reached), List.append_assoc,
          ← List.flatten_append, stream, List.flatten_cons, List.drop_left]
      rw [splits_behind read reached uncut minimal,
        ← ih (fun chunk member => nonempty chunk (by simp [member])) rest,
        List.length_cons, readPackets, framesRead_cons, returned]
      simp

end Stream

/-- The frames of a list of packets. -/
def Encoded (lib : Codecs) (client : Client) (packets : List RawPacket)
    (frames : List (List UInt8)) : Prop :=
  List.Forall₂ (fun packet frame => packet.encodeWithLen lib client = .ok frame) packets frames

theorem Encoded.isFrame {lib : Codecs} {client : Client} {packets : List RawPacket}
    {frames : List (List UInt8)} (encoded : Encoded lib client packets frames)
    (standard : lib.Standard) (zlib : lib.ZlibInverts)
    (fits : ∀ packet ∈ packets, packet.Fits lib client) :
    List.Forall₂ (fun packet frame => ∃ body, IsFrame lib client packet body frame)
      packets frames := by
  induction encoded with
  | nil => exact .nil
  | cons first _ ih =>
    apply List.Forall₂.cons
    · exact (fits _ (by simp)).isFrame standard zlib first
    · exact ih fun packet member => fits packet (by simp [member])

/-- Repeated calls return every packet with its own frame and then the end of the
stream, exactly when no chunk ends inside the length of a frame behind its second byte. -/
theorem read_packets_iff (lib : Codecs) (standard : lib.Standard) (zlib : lib.ZlibInverts)
    (client : Client) (packets : List RawPacket) (frames chunks : List (List UInt8))
    (fits : ∀ packet ∈ packets, packet.Fits lib client)
    (encoded : Encoded lib client packets frames) (nonempty : ∀ chunk ∈ chunks, chunk ≠ [])
    (stream : chunks.flatten = frames.flatten) :
    readPackets lib client (packets.length + 1) ⟨[], chunks.map .data⟩ =
        framesRead packets frames ↔
      ¬ SplitsPrefix lib chunks frames :=
  readPackets_iff_from standard (encoded.isFrame standard zlib fits) nonempty stream

/-- Two packets whose frames arrive in three chunks, one of them ending inside the
second frame. -/
theorem read_packets_two :
    readPackets plainCodecs .dummy 3 ⟨[], [.data [1], .data [0, 2, 1], .data [9]]⟩ =
      [.ok (some (⟨0, []⟩, [1, 0])), .ok (some (⟨1, [9]⟩, [2, 1, 9])), .ok none] := by
  refine (read_packets_iff plainCodecs plainCodecs_standard plainCodecs_zlibInverts .dummy
    [⟨0, []⟩, ⟨1, [9]⟩] [[1, 0], [2, 1, 9]] [[1], [0, 2, 1], [9]] ?_ ?_ ?_ rfl).mpr ?_
  · intro packet member
    have small : packet.payload.length < 2 ^ 31 := by
      rcases List.mem_pair.mp member with rfl | rfl <;> decide
    refine ⟨small, fun bytes encodes => ?_⟩
    rw [show packet.encodeWithoutLen plainCodecs .dummy = packet.encodeUncompressed plainCodecs
      from rfl, RawPacket.encodeUncompressed_eq plainCodecs_standard] at encodes
    cases encodes
    exact small
  · exact .cons (by decide) (.cons (by decide) .nil)
  · decide
  · rintro ⟨done, frame, rest, before, after, consumed, len, shape, -, read, low, high⟩
    have short : frame ∈ [[1, 0], [2, 1, 9]] := by simp [shape]
    have one : consumed = 1 := by
      rcases List.mem_pair.mp short with rfl | rfl
      · exact (congrArg Prod.fst (Option.some.inj read)).symm
      · exact (congrArg Prod.fst (Option.some.inj read)).symm
    omega

/-- A packet whose frame has a length of three bytes. -/
def longPacket : RawPacket := ⟨0, List.replicate 16383 0⟩

theorem longPacket_payload_length : longPacket.payload.length = 16384 := by
  have front : (varInt longPacket.id.toUInt32.toInt32).length = 1 := rfl
  have data : longPacket.data.length = 16383 := List.length_replicate
  rw [RawPacket.payload, List.length_append, front, data]

theorem longPacket_fits : longPacket.Fits plainCodecs .dummy := by
  constructor
  · rw [longPacket_payload_length]
    omega
  · intro bytes encodes
    rw [show longPacket.encodeWithoutLen plainCodecs .dummy =
      longPacket.encodeUncompressed plainCodecs from rfl,
      RawPacket.encodeUncompressed_eq plainCodecs_standard] at encodes
    cases encodes
    rw [longPacket_payload_length]
    omega

/-- The frame of `longPacket`, and the same bytes with a chunk end behind the second. -/
def longFrame : List UInt8 := [128, 128, 1] ++ longPacket.payload
def longChunks : List (List UInt8) := [[128, 128], 1 :: longPacket.payload]

theorem longPacket_encodes : longPacket.encodeWithLen plainCodecs .dummy = .ok longFrame := by
  have encodes : longPacket.encodeWithoutLen plainCodecs .dummy = .ok longPacket.payload :=
    RawPacket.encodeUncompressed_eq plainCodecs_standard longPacket
  rw [RawPacket.encodeWithLen_eq plainCodecs_standard encodes, longPacket_payload_length]
  rfl

/-- Framing depends on the chunking: the frame of `longPacket`, cut behind its second
byte, is not read. -/
theorem cut_length_breaks_framing :
    ¬ ∀ (lib : Codecs) (client : Client) (packets : List RawPacket)
        (frames chunks : List (List UInt8)),
      lib.Standard → lib.ZlibInverts → (∀ packet ∈ packets, packet.Fits lib client) →
      Encoded lib client packets frames → (∀ chunk ∈ chunks, chunk ≠ []) →
      chunks.flatten = frames.flatten →
      readPackets lib client (packets.length + 1) ⟨[], chunks.map .data⟩ =
        framesRead packets frames := by
  intro independent
  have fits : ∀ packet ∈ [longPacket], packet.Fits plainCodecs .dummy := by
    simpa using longPacket_fits
  have encoded : Encoded plainCodecs .dummy [longPacket] [longFrame] :=
    .cons longPacket_encodes .nil
  have nonempty : ∀ chunk ∈ longChunks, chunk ≠ [] := by simp [longChunks]
  have stream : longChunks.flatten = [longFrame].flatten := by simp [longChunks, longFrame]
  have reads := independent plainCodecs .dummy [longPacket] [longFrame] longChunks
    plainCodecs_standard plainCodecs_zlibInverts fits encoded nonempty stream
  refine (readPackets_iff_from plainCodecs_standard
    (encoded.isFrame plainCodecs_standard plainCodecs_zlibInverts fits) nonempty stream).mp reads ?_
  refine ⟨[], longFrame, [], [[128, 128]], [1 :: longPacket.payload], 3, asI32 16384, rfl, rfl,
    ?_, by simp, by simp⟩
  exact plainCodecs_standard.readVarInt (asI32 16384) longPacket.payload

end PlexPaper
