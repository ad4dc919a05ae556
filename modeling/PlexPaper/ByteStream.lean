import PlexPaper.Framing

/-! The bytes of a connection. What is buffered and what is still to be read is one
stream, however it is cut into chunks, and a call of `read_packet` takes the frame
that it returns off the front of it. -/
namespace PlexPaper
open Outcome

/-- What these reads give until the end of the stream, or until one fails. -/
def Read.bytes : List Read → List UInt8
  | .data chunk :: reads => if chunk = [] then [] else chunk ++ Read.bytes reads
  | _ => []

/-- Everything of a connection that is not used yet. -/
def Conn.stream (conn : Conn) : List UInt8 := conn.buf ++ Read.bytes conn.reads

@[simp] theorem Read.bytes_nil : Read.bytes [] = [] := rfl

theorem Read.bytes_chunks {chunks : List (List UInt8)} (nonempty : ∀ chunk ∈ chunks, chunk ≠ []) :
    Read.bytes (chunks.map .data) = chunks.flatten := by
  induction chunks with
  | nil => rfl
  | cons chunk chunks ih =>
    rw [List.map_cons, Read.bytes, if_neg (nonempty chunk List.mem_cons_self), List.flatten_cons,
      ih fun other member => nonempty other (List.mem_cons_of_mem _ member)]

/-- Bytes that are one frame of this packet: a length, in whatever form it is read,
and that many bytes. -/
structure FrameOf (lib : Codecs) (client : Client) (packet : RawPacket) (frame : List UInt8) :
    Prop where
  length : ∃ consumed len, readVarInt lib frame = some (consumed, len) ∧
    frame.length = (consumed + asUsize len) % 2 ^ 64
  decodes : RawPacket.decodeWithLen lib client frame = .ok packet

section

variable {lib : Codecs} {client : Client} {packet : RawPacket} {frame raw rest : List UInt8}
  {conn after : Conn}

/-- A number ends where its own bytes say, so more bytes behind it change nothing. -/
theorem varIntLength_more {most len : Nat} {buf : List UInt8} (more : List UInt8)
    (found : varIntLength most buf = some len) : varIntLength most (buf ++ more) = some len := by
  obtain ⟨ends, short⟩ := varIntLength_eq_some.mp found
  exact varIntLength_eq_some.mpr ⟨ends.append more, short⟩

theorem varIntLength_le {most len : Nat} {buf : List UInt8}
    (found : varIntLength most buf = some len) : len ≤ buf.length :=
  (varIntLength_eq_some.mp found).1.le_length

theorem readVarInt_more {buf : List UInt8} (more : List UInt8) {found : Nat × Int32}
    (read : readVarInt lib buf = some found) : readVarInt lib (buf ++ more) = some found := by
  unfold readVarInt at read ⊢
  obtain ⟨len, length, value⟩ := Option.bind_eq_some_iff.mp read
  rw [varIntLength_more more length]
  simpa [List.take_append_of_le_length (varIntLength_le length)] using value

/-- The two loops of `read_packet` move bytes from the socket to the buffer. -/
theorem fill_stream {need : Nat} {buf : List UInt8} {reads : List Read}
    (filled : fill need buf reads = (.filled, after)) :
    after.stream = buf ++ Read.bytes reads ∧ need ≤ after.buf.length := by
  induction reads generalizing buf with
  | nil =>
    simp only [fill, Prod.mk.injEq] at filled
    obtain ⟨enough, rfl⟩ := filled
    refine ⟨rfl, ?_⟩
    by_contra short
    rw [if_pos (by simpa using short)] at enough
    cases enough
  | cons read reads ih =>
    unfold fill at filled
    split at filled
    · cases read with
      | data chunk =>
        simp only at filled
        split at filled
        · cases filled
        · rename_i nonempty
          obtain ⟨stream, enough⟩ := ih filled
          refine ⟨?_, enough⟩
          rw [stream, Read.bytes, if_neg nonempty, List.append_assoc]
      | reset | error => cases filled
    · rename_i enough
      cases filled
      exact ⟨rfl, by simpa using enough⟩

/-- What a call that returns a packet has done: its frame was in front. -/
theorem readPacket_stream (read : readPacket lib client conn = (.ok (some (packet, raw)), after)) :
    conn.stream = raw ++ after.stream ∧ FrameOf lib client packet raw := by
  unfold readPacket at read
  rcases first : fill 2 conn.buf conn.reads with ⟨_ | _ | _, mid⟩
  · rw [first] at read
    obtain ⟨stream, -⟩ := fill_stream first
    cases found : readVarInt lib mid.buf with
    | none => simp [found] at read
    | some length =>
      obtain ⟨consumed, len⟩ := length
      simp only [found] at read
      generalize need : (consumed + asUsize len) % 2 ^ 64 = size at read
      rcases second : fill size mid.buf mid.reads with ⟨_ | _ | _, last⟩
      · rw [second] at read
        obtain ⟨same, enough⟩ := fill_stream second
        simp only at read
        cases decoded : RawPacket.decodeWithLen lib client (last.buf.take size) with
        | error fault => simp [decoded] at read
        | ok sent =>
          simp only [decoded, Prod.mk.injEq, Except.ok.injEq, Option.some.injEq] at read
          obtain ⟨⟨rfl, rfl⟩, rfl⟩ := read
          have whole : conn.stream =
              last.buf.take size ++ (last.buf.drop size ++ Read.bytes last.reads) := by
            rw [← List.append_assoc, List.take_append_drop]
            exact (same.trans stream).symm
          refine ⟨whole, ?_, decoded⟩
          -- The decoder has read the length again, from the frame alone.
          have again : ∃ found, readVarInt lib (last.buf.take size) = some found := by
            unfold RawPacket.decodeWithLen at decoded
            cases length : readVarInt lib (last.buf.take size) with
            | none => simp [length, question, bind, Except.bind] at decoded
            | some found => exact ⟨found, rfl⟩
          obtain ⟨found', again⟩ := again
          have front : readVarInt lib conn.stream = some found' := whole ▸ readVarInt_more _ again
          have before : readVarInt lib conn.stream = some (consumed, len) := by
            have longer := readVarInt_more (Read.bytes mid.reads) found
            exact (congrArg (readVarInt lib) stream).symm.trans longer
          cases front.symm.trans before
          refine ⟨consumed, len, again, ?_⟩
          rw [List.length_take, need]
          omega
      · rw [second] at read
        cases read
      · rw [second] at read
        cases read
  · rw [first] at read
    cases read
  · rw [first] at read
    cases read

/-- A stream has one frame in front, at most. -/
theorem FrameOf.front {other : RawPacket} {rest' : List UInt8}
    (whole : FrameOf lib client packet frame) (read : FrameOf lib client other raw)
    (same : frame ++ rest = raw ++ rest') : frame = raw ∧ packet = other ∧ rest = rest' := by
  obtain ⟨consumed, len, found, size⟩ := whole.length
  obtain ⟨consumed', len', found', size'⟩ := read.length
  have length := readVarInt_more rest found
  rw [same, readVarInt_more rest' found'] at length
  cases length
  obtain ⟨rfl, rfl⟩ := List.append_inj same (size.trans size'.symm)
  exact ⟨rfl, Except.ok.inj (whole.decodes.symm.trans read.decodes), rfl⟩

/-- From a stream with a frame in front, `read_packet` returns that frame or none. -/
theorem readPacket_front {other : RawPacket} (whole : FrameOf lib client packet frame)
    (stream : conn.stream = frame ++ rest)
    (read : readPacket lib client conn = (.ok (some (other, raw)), after)) :
    other = packet ∧ raw = frame ∧ after.stream = rest := by
  obtain ⟨taken, raw_whole⟩ := readPacket_stream read
  obtain ⟨rfl, rfl, rfl⟩ := whole.front raw_whole (stream.symm.trans taken)
  exact ⟨rfl, rfl, rfl⟩

/-- Reading takes reads from the front of the list. -/
theorem fill_suffix (need : Nat) (buf : List UInt8) (reads : List Read) :
    (fill need buf reads).2.reads <:+ reads := by
  induction reads generalizing buf with
  | nil => exact List.suffix_rfl
  | cons read reads ih =>
    unfold fill
    split
    · cases read with
      | data chunk =>
        dsimp only
        split
        · exact List.suffix_cons ..
        · exact (ih _).trans (List.suffix_cons ..)
      | reset | error => exact List.suffix_cons ..
    · exact List.suffix_rfl

theorem readPacket_suffix (lib : Codecs) (client : Client) (conn : Conn) :
    (readPacket lib client conn).2.reads <:+ conn.reads := by
  unfold readPacket
  have first := fill_suffix 2 conn.buf conn.reads
  generalize fill 2 conn.buf conn.reads = filled at first ⊢
  obtain ⟨_ | _ | _, mid⟩ := filled
  · cases found : readVarInt lib mid.buf with
    | none => simpa only [found] using first
    | some length =>
      obtain ⟨consumed, len⟩ := length
      have second := fill_suffix ((consumed + asUsize len) % 2 ^ 64) mid.buf mid.reads
      simp only [found]
      generalize fill ((consumed + asUsize len) % 2 ^ 64) mid.buf mid.reads = refilled at second ⊢
      obtain ⟨_ | _ | _, last⟩ := refilled
      · dsimp only
        cases RawPacket.decodeWithLen lib client _ <;> exact second.trans first
      · exact second.trans first
      · exact second.trans first
  · exact first
  · exact first

end

/-- Calls that each return a packet, whatever the client is by then, with what they
return and where they leave the connection. -/
inductive ReadsFrames (lib : Codecs) : Conn → List (RawPacket × List UInt8) → Conn → Prop where
  | none {conn : Conn} : ReadsFrames lib conn [] conn
  | next {client : Client} {conn mid after : Conn} {found : RawPacket × List UInt8}
      {frames : List (RawPacket × List UInt8)}
      (read : readPacket lib client conn = (.ok (some found), mid))
      (rest : ReadsFrames lib mid frames after) : ReadsFrames lib conn (found :: frames) after

namespace ReadsFrames

variable {lib : Codecs} {client : Client} {conn mid after : Conn}
  {frames more : List (RawPacket × List UInt8)}

theorem one {found : RawPacket × List UInt8}
    (read : readPacket lib client conn = (.ok (some found), after)) :
    ReadsFrames lib conn [found] after := .next read .none

theorem append (first : ReadsFrames lib conn frames mid) (rest : ReadsFrames lib mid more after) :
    ReadsFrames lib conn (frames ++ more) after := by
  induction first with
  | none => exact rest
  | next read _ ih => exact .next read (ih rest)

/-- The frames returned and what is left are the stream, in order. -/
theorem stream (reads : ReadsFrames lib conn frames after) :
    conn.stream = (frames.map (·.2)).flatten ++ after.stream := by
  induction reads with
  | none => rfl
  | next read _ ih =>
    rw [(readPacket_stream read).1, ih, List.map_cons, List.flatten_cons, List.append_assoc]

end ReadsFrames

/-! ## Cutting a stream of frames -/

section

variable {frames : List (List UInt8)} {bytes : List UInt8} {count : Nat}

/-- After that many bytes a frame is underway: some of it has come, and some is still
to come. -/
def Underway (frames : List (List UInt8)) (count : Nat) : Prop :=
  ∃ done frame later, frames = done ++ frame :: later ∧
    done.flatten.length < count ∧ count < (done ++ [frame]).flatten.length

/-- Either a frame is underway, or the bytes so far are whole frames. -/
theorem cut_or_underway (within : count ≤ frames.flatten.length) :
    (∃ done later, frames = done ++ later ∧ done.flatten.length = count) ∨ Underway frames count := by
  induction frames generalizing count with
  | nil => exact .inl ⟨[], [], rfl, (Nat.le_zero.mp within).symm⟩
  | cons frame frames ih =>
    rw [List.flatten_cons, List.length_append] at within
    by_cases start : count = 0
    · exact .inl ⟨[], frame :: frames, rfl, start.symm⟩
    by_cases inside : count < frame.length
    · exact .inr ⟨[], frame, frames, rfl, Nat.pos_of_ne_zero start, by simpa using inside⟩
    have behind : frame.length + (count - frame.length) = count := by omega
    have fewer : count - frame.length ≤ frames.flatten.length := by omega
    rcases ih fewer with
      ⟨done, later, rfl, length⟩ | ⟨done, next, later, rfl, after, before⟩
    · exact .inl ⟨frame :: done, later, rfl, by simp [length, behind]⟩
    · refine .inr ⟨frame :: done, next, later, rfl, ?_, ?_⟩
      · rw [List.flatten_cons, List.length_append]
        omega
      · rw [List.cons_append, List.flatten_cons, List.length_append]
        omega

/-- Never both: a frame that is underway has the whole frames before it in front of
it, and no more of them fit. -/
theorem not_underway_of_cut {done later : List (List UInt8)} :
    ¬ Underway (done ++ later) done.flatten.length := by
  rintro ⟨before, frame, behind, same, after, inside⟩
  have nested : before ++ [frame] <+: done ++ later := ⟨behind, by simp [same]⟩
  have prefixes : before ++ [frame] <+: done ∨ done <+: before ++ [frame] :=
    List.prefix_or_prefix_of_prefix nested (List.prefix_append ..)
  rcases prefixes with ⟨more, rfl⟩ | shorter
  · rw [List.flatten_append, List.length_append] at inside
    omega
  · rcases List.prefix_concat_iff.mp shorter with rfl | ⟨more, rfl⟩
    · omega
    · rw [List.flatten_append, List.length_append] at after
      omega

/-- What is left of a stream of frames is whole frames exactly when no frame is
underway where it was cut. -/
theorem whole_iff_not_underway {before : List UInt8} (stream : before ++ bytes = frames.flatten) :
    (∃ done later, frames = done ++ later ∧ bytes = later.flatten) ↔
      ¬ Underway frames before.length := by
  constructor
  · rintro ⟨done, later, rfl, rfl⟩
    rw [List.flatten_append] at stream
    obtain rfl := List.append_cancel_right stream
    exact not_underway_of_cut
  · intro still
    have within : before.length ≤ frames.flatten.length := by
      rw [← stream, List.length_append]
      omega
    obtain ⟨done, later, rfl, length⟩ := (cut_or_underway within).resolve_right still
    rw [List.flatten_append] at stream
    obtain ⟨rfl, rfl⟩ := List.append_inj stream length.symm
    exact ⟨done, later, rfl, rfl⟩

end
end PlexPaper
