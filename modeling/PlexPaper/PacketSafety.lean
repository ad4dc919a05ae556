import PlexPaper.ByteStream

/-! Numbers from the wire used as sizes. `read_packet` adds the declared length of a
packet to the size of its prefix, and a compressed packet declares the capacity its
decoder asks for. Both are read as `i32` and cast to `usize` before any check. -/
namespace PlexPaper
open Outcome

variable {lib : Codecs} {client : Client}

/-! ## The two casts -/

theorem asUsize_of_nonneg {i : Int32} (nonneg : 0 ≤ i) : asUsize i < 2 ^ 31 := by
  have low : 0 ≤ i.toInt := Int32.le_iff_toInt_le.mp nonneg
  have high := i.toInt_lt
  rw [asUsize]
  omega

theorem asUsize_of_neg {i : Int32} (neg : i < 0) : 2 ^ 64 - 2 ^ 31 ≤ asUsize i := by
  have high : i.toInt < 0 := Int32.lt_iff_toInt_lt.mp neg
  have low := i.le_toInt
  rw [asUsize]
  omega

theorem asUsize_lt (i : Int32) : asUsize i < 2 ^ 64 := by
  rw [asUsize]
  omega

/-- `Vec::with_capacity` takes exactly the lengths that are not negative. -/
theorem withCapacity_asUsize (i : Int32) :
    withCapacity (asUsize i) = if 0 ≤ i then .ok () else .error .panic := by
  by_cases nonneg : 0 ≤ i
  · have small := asUsize_of_nonneg nonneg
    rw [if_pos nonneg, withCapacity, if_pos (by omega)]
  · have large := asUsize_of_neg (Int32.not_le.mp nonneg)
    rw [if_neg nonneg, withCapacity, if_neg (by omega)]

theorem varIntLength_bounds {most len : Nat} {buf : List UInt8}
    (found : varIntLength most buf = some len) : 0 < len ∧ len ≤ most := by
  obtain ⟨ends, short⟩ := varIntLength_eq_some.mp found
  exact ⟨ends.positive, short⟩

/-- What `read_var_int` returns has at most five bytes, all of them there. -/
theorem readVarInt_bounds {buf : List UInt8} {consumed : Nat} {val : Int32}
    (read : readVarInt lib buf = some (consumed, val)) :
    0 < consumed ∧ consumed ≤ 5 ∧ consumed ≤ buf.length := by
  unfold readVarInt at read
  obtain ⟨len, length, value⟩ := Option.bind_eq_some_iff.mp read
  obtain ⟨_, -, same⟩ := Option.bind_eq_some_iff.mp value
  cases same
  obtain ⟨positive, most⟩ := varIntLength_bounds length
  exact ⟨positive, most, varIntLength_le length⟩

/-- So what stands behind the number can always be sliced off. -/
theorem sliceFrom_readVarInt {buf : List UInt8} {consumed : Nat} {val : Int32}
    (read : readVarInt lib buf = some (consumed, val)) :
    sliceFrom buf consumed = .ok (buf.drop consumed) :=
  if_pos (readVarInt_bounds read).2.2

/-! ## The capacity of a compressed packet -/

namespace RawPacket

theorem readPacketIdData_cases (lib : Codecs) (buf : List UInt8) :
    readPacketIdData lib buf = .error .err ∨ ∃ packet, readPacketIdData lib buf = .ok packet := by
  unfold readPacketIdData
  rcases read : readVarInt lib buf with _ | ⟨consumed, id⟩
  · exact .inl rfl
  · refine .inr ⟨⟨id.toUInt32.toUInt8, buf.drop consumed⟩, ?_⟩
    simp [bind, Except.bind, pure, Except.pure, sliceFrom_readVarInt read]

theorem readPacketIdData_returns (lib : Codecs) (buf : List UInt8) :
    readPacketIdData lib buf ≠ .error .panic := by
  rcases readPacketIdData_cases lib buf with err | ⟨packet, ok⟩
  · simp [err]
  · simp [ok]

/-- The one panic of the decoder: a capacity made of a negative length. -/
theorem decodeWithoutLen_panics_iff (lib : Codecs) (client : Client) (buf : List UInt8) :
    decodeWithoutLen lib client buf = .error .panic ↔
      client.isCompressed = true ∧
        ∃ consumed dataLen, readVarInt lib buf = some (consumed, dataLen) ∧ dataLen < 0 := by
  unfold decodeWithoutLen
  by_cases compressed : client.isCompressed = true
  · rcases read : readVarInt lib buf with _ | ⟨consumed, dataLen⟩
    · simp [compressed, question, bind, Except.bind]
    · by_cases zero : dataLen = 0
      · simp [compressed, question_some, bind, Except.bind, sliceFrom_readVarInt read, zero,
          readPacketIdData_returns]
      · by_cases nonneg : 0 ≤ dataLen
        · have room := withCapacity_asUsize dataLen
          rw [if_pos nonneg] at room
          rcases unpacks : lib.zlibDecompress (buf.drop consumed) with _ | decompressed
          · simp [compressed, question, bind, Except.bind, sliceFrom_readVarInt read, zero, room,
              unpacks, Int32.not_lt.mpr nonneg]
          · by_cases whole : decompressed.length = asUsize dataLen
            · simp [compressed, question_some, bind, Except.bind, sliceFrom_readVarInt read, zero,
                room, unpacks, whole, readPacketIdData_returns, Int32.not_lt.mpr nonneg]
            · simp [compressed, question_some, bind, Except.bind, sliceFrom_readVarInt read, zero,
                room, unpacks, whole, Int32.not_lt.mpr nonneg]
        · have full := withCapacity_asUsize dataLen
          rw [if_neg nonneg] at full
          simp [compressed, question_some, bind, Except.bind, sliceFrom_readVarInt read, zero, full,
            Int32.not_le.mp nonneg]
  · simp [compressed, readPacketIdData_returns]

/-- What is asked of `decode_without_len` for any bytes: a result, offsets inside the
slice, and a capacity of at most `isize::MAX`. -/
structure DecodesSafely (lib : Codecs) (client : Client) (buf : List UInt8) : Prop where
  returns : decodeWithoutLen lib client buf ≠ .error .panic
  offset : ∀ consumed dataLen, readVarInt lib buf = some (consumed, dataLen) →
    consumed ≤ buf.length
  capacity : ∀ consumed dataLen, readVarInt lib buf = some (consumed, dataLen) → dataLen ≠ 0 →
    asUsize dataLen ≤ 2 ^ 63 - 1

/-- Decoding under compression is safe exactly for the bytes that do not begin with a
negative length. -/
theorem compressed_decoding_safe_iff (lib : Codecs) (client : Client) (buf : List UInt8)
    (compressed : client.isCompressed = true) :
    DecodesSafely lib client buf ↔
      ∀ consumed dataLen, readVarInt lib buf = some (consumed, dataLen) → 0 ≤ dataLen := by
  constructor
  · intro safe consumed dataLen read
    by_contra negative
    exact safe.returns ((decodeWithoutLen_panics_iff lib client buf).mpr
      ⟨compressed, consumed, dataLen, read, Int32.not_le.mp negative⟩)
  · intro nonneg
    refine ⟨?_, fun consumed dataLen read => (readVarInt_bounds read).2.2, ?_⟩
    · intro panics
      obtain ⟨-, consumed, dataLen, read, negative⟩ :=
        (decodeWithoutLen_panics_iff lib client buf).mp panics
      exact Int32.not_lt.mpr (nonneg consumed dataLen read) negative
    · intro consumed dataLen read _
      have := asUsize_of_nonneg (nonneg consumed dataLen read)
      omega

/-- Bytes that declare `i32::MAX` and hold nothing are an error. -/
theorem compressed_decoding_safe_largest :
    DecodesSafely plainCodecs { Client.dummy with compression := 256 }
      [255, 255, 255, 255, 7] := by
  refine (compressed_decoding_safe_iff plainCodecs _ _ (by decide)).mpr ?_
  intro consumed dataLen read
  cases (show some (5, (2147483647 : Int32)) = some (consumed, dataLen) from
    (by decide : readVarInt plainCodecs [255, 255, 255, 255, 7] = _).symm.trans read)
  decide

/-- Bytes that declare a length of -1 make it panic. -/
theorem negative_capacity_panics :
    ¬ ∀ (lib : Codecs) (client : Client) (buf : List UInt8), client.isCompressed = true →
      decodeWithoutLen lib client buf ≠ .error .panic := by
  intro returns
  refine returns plainCodecs { Client.dummy with compression := 256 } [255, 255, 255, 255, 15]
    (by decide) ?_
  exact (decodeWithoutLen_panics_iff _ _ _).mpr ⟨by decide, 5, -1, by decide, by decide⟩

end RawPacket

/-! ## The length of a packet -/

/-- Cutting a buffer leaves a number alone or takes away all of it. -/
theorem varIntLength_take {most len : Nat} {buf : List UInt8} (cut : Nat)
    (found : varIntLength most buf = some len) :
    varIntLength most (buf.take cut) = if len ≤ cut then some len else none := by
  obtain ⟨ends, short⟩ := varIntLength_eq_some.mp found
  split
  · rename_i whole
    refine varIntLength_eq_some.mpr ⟨ends.of_take_eq ?_, short⟩
    rw [List.take_take, Nat.min_eq_left whole]
  · rw [varIntLength_eq]
    exact ends.prefixLength_take (by omega)

theorem readVarInt_take {buf : List UInt8} {cut consumed read : Nat} {val len : Int32}
    (found : readVarInt lib buf = some (consumed, val))
    (again : readVarInt lib (buf.take cut) = some (read, len)) :
    consumed ≤ cut ∧ read = consumed ∧ len = val := by
  have more := readVarInt_more (buf.drop cut) again
  rw [List.take_append_drop, found] at more
  cases more
  refine ⟨?_, rfl, rfl⟩
  have bounds := (readVarInt_bounds again).2.2
  rw [List.length_take] at bounds
  omega

/-- A number whose bytes are all there can be read already. -/
theorem readVarInt_front {buf more : List UInt8} {consumed : Nat} {val : Int32}
    (found : readVarInt lib (buf ++ more) = some (consumed, val)) (whole : consumed ≤ buf.length) :
    readVarInt lib buf = some (consumed, val) := by
  unfold readVarInt at found ⊢
  obtain ⟨len, length, value⟩ := Option.bind_eq_some_iff.mp found
  obtain ⟨_, decoded, same⟩ := Option.bind_eq_some_iff.mp value
  cases same
  have cut := varIntLength_take buf.length length
  rw [List.take_left, if_pos whole] at cut
  rw [List.take_append_of_le_length whole] at decoded
  simp [cut, decoded]

/-- The prefix as `read_packet` sees it, once two bytes are there. -/
def Conn.declared (lib : Codecs) (conn : Conn) : Option (Nat × Int32) :=
  match fill 2 conn.buf conn.reads with
  | (.filled, mid) => readVarInt lib mid.buf
  | _ => none

/-- Neither slice of `decode_with_len` leaves these bytes. -/
def SlicesInBounds (lib : Codecs) (raw : List UInt8) : Prop :=
  ∀ read len, readVarInt lib raw = some (read, len) →
    read ≤ raw.length ∧ asUsize len ≤ (raw.drop read).length

/-- What is asked of `read_packet` for a declared length, from the moment it has read
the prefix. -/
structure LengthHandled (lib : Codecs) (client : Client) (conn : Conn) : Prop where
  noOverflow : ∀ consumed len, conn.declared lib = some (consumed, len) →
    consumed + asUsize len < 2 ^ 64
  inBounds : ∀ consumed len full, conn.declared lib = some (consumed, len) →
    fill ((consumed + asUsize len) % 2 ^ 64) (fill 2 conn.buf conn.reads).2.buf
      (fill 2 conn.buf conn.reads).2.reads = (.filled, full) →
    SlicesInBounds lib (full.buf.take ((consumed + asUsize len) % 2 ^ 64))
  rejects : ∀ consumed len, conn.declared lib = some (consumed, len) → len < 0 →
    (readPacket lib client conn).1 = .error .err ∧
      (readPacket lib client conn).2.reads = (fill 2 conn.buf conn.reads).2.reads

variable {conn : Conn} {consumed : Nat} {len : Int32}

theorem declared_eq_some (declared : conn.declared lib = some (consumed, len)) :
    ∃ mid, fill 2 conn.buf conn.reads = (.filled, mid) ∧
      readVarInt lib mid.buf = some (consumed, len) := by
  unfold Conn.declared at declared
  rcases first : fill 2 conn.buf conn.reads with ⟨_ | _ | _, mid⟩
  · rw [first] at declared
    exact ⟨mid, rfl, declared⟩
  · simp [first] at declared
  · simp [first] at declared

theorem fill_prefix (need : Nat) (buf : List UInt8) (reads : List Read) :
    buf <+: (fill need buf reads).2.buf := by
  induction reads generalizing buf with
  | nil => exact List.prefix_rfl
  | cons read reads ih =>
    unfold fill
    split
    · cases read with
      | data chunk =>
        dsimp only
        split
        · exact List.prefix_rfl
        · exact (List.prefix_append buf chunk).trans (ih _)
      | reset | error => exact List.prefix_rfl
    · exact List.prefix_rfl

/-- A call that needs more than it has is at the end of the stream or makes a read. -/
theorem fill_short {need : Nat} {buf : List UInt8} (reads : List Read) (short : buf.length < need) :
    (fill need buf reads).1 = .ended ∨ (fill need buf reads).2.reads.length < reads.length := by
  cases reads with
  | nil => exact .inl (by simp [fill, short])
  | cons read reads =>
    right
    unfold fill
    rw [if_pos short]
    cases read with
    | data bytes =>
      by_cases empty : bytes = []
      · simp [empty]
      · have rest := (fill_suffix need (buf ++ bytes) reads).length_le
        simp only [if_neg empty, List.length_cons]
        omega
    | reset | error => simp

/-- The end of `read_packet`, behind its second loop. -/
def splitPacket (lib : Codecs) (client : Client) (need : Nat) :
    Fill × Conn → Outcome (Option (RawPacket × List UInt8)) × Conn
  | (.ended, conn) => (.ok none, conn)
  | (.failed, conn) => (.error .err, conn)
  | (.filled, conn) =>
    ((RawPacket.decodeWithLen lib client (conn.buf.take need)).map fun packet =>
      some (packet, conn.buf.take need), { conn with buf := conn.buf.drop need })

/-- A call whose prefix has been read. -/
theorem readPacket_declared {mid : Conn} {need : Nat}
    (first : fill 2 conn.buf conn.reads = (.filled, mid))
    (read : readVarInt lib mid.buf = some (consumed, len))
    (sum : (consumed + asUsize len) % 2 ^ 64 = need) :
    readPacket lib client conn = splitPacket lib client need (fill need mid.buf mid.reads) := by
  subst sum
  simp only [readPacket, first, read]
  generalize (consumed + asUsize len) % 2 ^ 64 = need
  rcases fill need mid.buf mid.reads with ⟨_ | _ | _, full⟩
  · cases decoded : RawPacket.decodeWithLen lib client (full.buf.take need) <;>
      simp [splitPacket, decoded, Except.map]
  · rfl
  · rfl

/-- The socket is where the second loop has left it. -/
theorem readPacket_declared_reads {mid : Conn} {need : Nat}
    (first : fill 2 conn.buf conn.reads = (.filled, mid))
    (read : readVarInt lib mid.buf = some (consumed, len))
    (sum : (consumed + asUsize len) % 2 ^ 64 = need) :
    (readPacket lib client conn).2.reads = (fill need mid.buf mid.reads).2.reads := by
  rw [readPacket_declared first read sum]
  rcases fill need mid.buf mid.reads with ⟨_ | _ | _, full⟩ <;> rfl

/-- The second parse of a packet finds the prefix of the first, or nothing where the sum
has wrapped around. -/
theorem slices_in_bounds (mid : Conn) {full : Conn}
    (read : readVarInt lib mid.buf = some (consumed, len))
    (filled : fill ((consumed + asUsize len) % 2 ^ 64) mid.buf mid.reads = (.filled, full)) :
    SlicesInBounds lib (full.buf.take ((consumed + asUsize len) % 2 ^ 64)) := by
  intro again len' reread
  have enough := (fill_stream filled).2
  obtain ⟨more, grown⟩ := fill_prefix ((consumed + asUsize len) % 2 ^ 64) mid.buf mid.reads
  rw [filled] at grown
  have found : readVarInt lib full.buf = some (consumed, len) := by
    rw [← grown]
    exact readVarInt_more more read
  obtain ⟨inside, rfl, rfl⟩ := readVarInt_take found reread
  have small := asUsize_lt len'
  simp only [List.length_drop, List.length_take]
  omega

/-- A negative length that does not wrap around asks for more than a buffer can hold. -/
theorem not_rejects_of_negative (declared : conn.declared lib = some (consumed, len))
    (room : (fill 2 conn.buf conn.reads).2.buf.length < 2 ^ 63) (negative : len < 0)
    (noOverflow : consumed + asUsize len < 2 ^ 64) :
    ¬ ((readPacket lib client conn).1 = .error .err ∧
      (readPacket lib client conn).2.reads = (fill 2 conn.buf conn.reads).2.reads) := by
  obtain ⟨mid, first, read⟩ := declared_eq_some declared
  have large := asUsize_of_neg negative
  have short : mid.buf.length < consumed + asUsize len := by
    rw [first] at room
    dsimp only at room
    omega
  have sum := Nat.mod_eq_of_lt noOverflow
  rintro ⟨result, unread⟩
  rw [readPacket_declared_reads first read sum, first] at unread
  rcases fill_short mid.reads short with ended | fewer
  · rw [readPacket_declared first read sum] at result
    rcases second : fill (consumed + asUsize len) mid.buf mid.reads with ⟨_ | _ | _, full⟩
    · simp [second] at ended
    · simp [second, splitPacket] at result
    · simp [second] at ended
  · rw [unread] at fewer
    exact Nat.lt_irrefl _ fewer

/-- A declared length is handled safely exactly when it is not negative. No buffer of the
program is larger than `isize::MAX`. -/
theorem declared_length_handled_iff (lib : Codecs) (client : Client) (conn : Conn)
    (room : (fill 2 conn.buf conn.reads).2.buf.length < 2 ^ 63) :
    LengthHandled lib client conn ↔
      ∀ consumed len, conn.declared lib = some (consumed, len) → 0 ≤ len := by
  constructor
  · intro handled consumed len declared
    by_contra negative
    rw [Int32.not_le] at negative
    exact not_rejects_of_negative declared room negative
      (handled.noOverflow consumed len declared) (handled.rejects consumed len declared negative)
  · intro nonneg
    refine ⟨?_, ?_, ?_⟩
    · intro consumed len declared
      obtain ⟨mid, -, read⟩ := declared_eq_some declared
      have small := asUsize_of_nonneg (nonneg consumed len declared)
      have width := (readVarInt_bounds read).2.1
      omega
    · intro consumed len full declared filled
      obtain ⟨mid, first, read⟩ := declared_eq_some declared
      rw [first] at filled
      exact slices_in_bounds mid read filled
    · intro consumed len declared negative
      exact absurd negative (Int32.not_lt.mpr (nonneg consumed len declared))

/-- A frame that is still to be read. -/
theorem declared_length_handled_two :
    LengthHandled plainCodecs .dummy ⟨[2], [.data [1, 9]]⟩ := by
  refine (declared_length_handled_iff plainCodecs .dummy ⟨[2], [.data [1, 9]]⟩ (by decide)).mpr ?_
  intro consumed len declared
  cases (show some (1, (2 : Int32)) = some (consumed, len) from
    (by decide : Conn.declared plainCodecs ⟨[2], [.data [1, 9]]⟩ = _).symm.trans declared)
  decide

/-- A length of -6 is waited for to the end of the stream, and what arrives is buffered. -/
theorem negative_length_waits :
    readPacket plainCodecs .dummy ⟨[250, 255, 255, 255, 15], [.data [7]]⟩ =
        (.ok none, ⟨[250, 255, 255, 255, 15, 7], []⟩) ∧
      ¬ LengthHandled plainCodecs .dummy ⟨[250, 255, 255, 255, 15], [.data [7]]⟩ := by
  have waits : readPacket plainCodecs .dummy ⟨[250, 255, 255, 255, 15], [.data [7]]⟩ =
      (.ok none, ⟨[250, 255, 255, 255, 15, 7], []⟩) := by decide +kernel
  refine ⟨waits, fun handled => ?_⟩
  have rejected := (handled.rejects 5 (-6) (by decide) (by decide)).1
  rw [waits] at rejected
  cases rejected

/-! ## Where reading a packet panics -/

/-- What makes the decoder panic. -/
def NegativeLength (lib : Codecs) (client : Client) (buf : List UInt8) : Prop :=
  client.isCompressed = true ∧
    ∃ consumed dataLen, readVarInt lib buf = some (consumed, dataLen) ∧ dataLen < 0

/-- The bytes of a frame behind its length. -/
def RawPacket.frameBody (raw : List UInt8) (consumed : Nat) (len : Int32) : List UInt8 :=
  (raw.drop consumed).take (asUsize len)

/-- The bytes that `read_packet` takes for the frame in front, once they are there. -/
def Conn.front (lib : Codecs) (conn : Conn) : Option (List UInt8) := do
  let (consumed, len) ← conn.declared lib
  let mid := (fill 2 conn.buf conn.reads).2
  let need := (consumed + asUsize len) % 2 ^ 64
  match fill need mid.buf mid.reads with
  | (.filled, full) => return full.buf.take need
  | _ => none

/-- A frame in front that holds a negative data length. -/
def NegativeFront (lib : Codecs) (client : Client) (conn : Conn) : Prop :=
  ∃ raw ∈ conn.front lib, ∃ consumed len, readVarInt lib raw = some (consumed, len) ∧
    NegativeLength lib client (RawPacket.frameBody raw consumed len)

/-- A frame that is decoded has a length, and what is decoded stands behind it. -/
theorem RawPacket.decodeWithLen_ok {packet : RawPacket} {raw : List UInt8}
    (decodes : decodeWithLen lib client raw = .ok packet) :
    ∃ consumed len, readVarInt lib raw = some (consumed, len) ∧
      decodeWithoutLen lib client (frameBody raw consumed len) = .ok packet ∧
      ∀ other, decodeWithLen lib other raw =
        decodeWithoutLen lib other (frameBody raw consumed len) := by
  obtain ⟨⟨consumed, len⟩, read, rest⟩ := bind_ok.mp decodes
  obtain ⟨behind, sliced, rest⟩ := bind_ok.mp rest
  obtain ⟨whole, cut, decodes⟩ := bind_ok.mp rest
  have read := question_ok.mp read
  cases (sliceFrom_readVarInt read).symm.trans sliced
  have same : whole = frameBody raw consumed len := by
    simp only [sliceTo] at cut
    split at cut
    · exact (Except.ok.inj cut).symm
    · cases cut
  subst same
  refine ⟨consumed, len, read, decodes, fun other => ?_⟩
  simp only [decodeWithLen, read, question_some]
  change (do
    let buf ← sliceFrom raw consumed
    let buf ← sliceTo buf (asUsize len)
    decodeWithoutLen lib other buf) = _
  rw [sliced]
  change (do
    let buf ← sliceTo (raw.drop consumed) (asUsize len)
    decodeWithoutLen lib other buf) = _
  rw [cut]
  rfl

/-- A frame whose slices are in bounds is decoded as what stands behind its length. -/
theorem decodeWithLen_panics_iff {raw : List UInt8} (inBounds : SlicesInBounds lib raw) :
    RawPacket.decodeWithLen lib client raw = .error .panic ↔
      ∃ consumed len, readVarInt lib raw = some (consumed, len) ∧
        NegativeLength lib client (RawPacket.frameBody raw consumed len) := by
  unfold RawPacket.decodeWithLen
  cases read : readVarInt lib raw with
  | none => simp [question, bind, Except.bind]
  | some found =>
    obtain ⟨consumed, len⟩ := found
    have whole : sliceTo (raw.drop consumed) (asUsize len) =
        .ok (RawPacket.frameBody raw consumed len) := if_pos (inBounds consumed len read).2
    have inner : RawPacket.decodeWithoutLen lib client (RawPacket.frameBody raw consumed len) =
        .error .panic ↔ NegativeLength lib client (RawPacket.frameBody raw consumed len) :=
      RawPacket.decodeWithoutLen_panics_iff ..
    simpa [question_some, bind, Except.bind, sliceFrom_readVarInt read, whole] using inner

/-- The frame in front of a connection whose prefix has been read. -/
theorem front_declared {mid : Conn} {need : Nat}
    (first : fill 2 conn.buf conn.reads = (.filled, mid))
    (read : readVarInt lib mid.buf = some (consumed, len))
    (sum : (consumed + asUsize len) % 2 ^ 64 = need) :
    conn.front lib = match fill need mid.buf mid.reads with
      | (.filled, full) => some (full.buf.take need)
      | _ => none := by
  subst sum
  have declared : conn.declared lib = some (consumed, len) := by
    simp only [Conn.declared, first, read]
  rw [Conn.front, declared, first]
  rfl

/-- Reading panics exactly at a frame that holds a negative data length. -/
theorem readPacket_panics_iff (lib : Codecs) (client : Client) (conn : Conn) :
    (readPacket lib client conn).1 = .error .panic ↔ NegativeFront lib client conn := by
  have undeclared (nothing : conn.declared lib = none) : ¬ NegativeFront lib client conn := by
    rintro ⟨raw, taken, -⟩
    rw [Conn.front, nothing] at taken
    cases taken
  rcases first : fill 2 conn.buf conn.reads with ⟨_ | _ | _, mid⟩
  · cases read : readVarInt lib mid.buf with
    | none =>
      refine iff_of_false ?_ (undeclared (by simp only [Conn.declared, first, read]))
      simp [readPacket, first, read]
    | some found =>
      obtain ⟨consumed, len⟩ := found
      have front := front_declared first read rfl
      have bounds : ∀ full, fill ((consumed + asUsize len) % 2 ^ 64) mid.buf mid.reads =
          (.filled, full) → SlicesInBounds lib (full.buf.take ((consumed + asUsize len) % 2 ^ 64)) :=
        fun _ => slices_in_bounds mid read
      rw [readPacket_declared first read rfl]
      generalize (consumed + asUsize len) % 2 ^ 64 = need at front bounds
      rcases second : fill need mid.buf mid.reads with ⟨_ | _ | _, full⟩
      · rw [second] at front
        have split : (splitPacket lib client need (.filled, full)).1 = .error .panic ↔
            RawPacket.decodeWithLen lib client (full.buf.take need) = .error .panic := by
          cases decoded : RawPacket.decodeWithLen lib client (full.buf.take need) <;>
            simp [splitPacket, decoded, Except.map]
        rw [split, decodeWithLen_panics_iff (bounds full second), NegativeFront, front]
        simp
      · rw [second] at front
        simp [splitPacket, NegativeFront, front]
      · rw [second] at front
        simp [splitPacket, NegativeFront, front]
  · refine iff_of_false ?_ (undeclared (by simp only [Conn.declared, first]))
    simp [readPacket, first]
  · refine iff_of_false ?_ (undeclared (by simp only [Conn.declared, first]))
    simp [readPacket, first]

end PlexPaper
