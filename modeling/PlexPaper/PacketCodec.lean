import PlexPaper.Client
import PlexPaper.Leb128

/-! `types.rs` and the codec of `proto/packet.rs`. The number and compression
formats themselves are third-party functions, kept as parameters. Offsets and
lengths are `usize` on a 64-bit target, and a slice outside its buffer panics. -/
namespace PlexPaper

/-- What `minecraft_protocol` and `flate2` do for the codec; `none` is their
error. The encoder half of `flate2` is `write_all` followed by `finish`. -/
structure Codecs where
  varIntEncode : Int32 → Option (List UInt8)
  varIntDecode : List UInt8 → Option Int32
  zlibCompress : List UInt8 → Option (List UInt8)
  zlibDecompress : List UInt8 → Option (List UInt8)

/-- How a function fails: with `Err(())`, or by a panic. -/
inductive Fault where
  | err
  | panic
  deriving DecidableEq

abbrev Outcome := Except Fault

namespace Outcome

variable {α : Type}

/-- The `?` operator on a third-party or own result. -/
def question : Option α → Outcome α
  | some value => .ok value
  | none => .error .err

/-- `Result::unwrap`. -/
def unwrap : Option α → Outcome α
  | some value => .ok value
  | none => .error .panic

@[simp] theorem question_some (value : α) : question (some value) = .ok value := rfl
@[simp] theorem unwrap_some (value : α) : unwrap (some value) = .ok value := rfl

theorem question_ok {given : Option α} {value : α} : question given = .ok value ↔ given = some value := by
  cases given <;> simp [question]

theorem question_ne_panic (given : Option α) : question given ≠ .error .panic := by
  cases given <;> simp [question]

section

variable {β : Type} {first : Outcome α} {rest : α → Outcome β}

theorem bind_ok {value : β} :
    first >>= rest = .ok value ↔ ∃ mid, first = .ok mid ∧ rest mid = .ok value := by
  cases first <;> simp [bind, Except.bind]

theorem bind_error {fault : Fault} : first >>= rest = .error fault ↔
    first = .error fault ∨ ∃ mid, first = .ok mid ∧ rest mid = .error fault := by
  cases first <;> simp [bind, Except.bind]

end

/-- `&buf[start..]`. -/
def sliceFrom (buf : List UInt8) (start : Nat) : Outcome (List UInt8) :=
  if start ≤ buf.length then .ok (buf.drop start) else .error .panic

/-- `&buf[..stop]`. -/
def sliceTo (buf : List UInt8) (stop : Nat) : Outcome (List UInt8) :=
  if stop ≤ buf.length then .ok (buf.take stop) else .error .panic

/-- `Vec::with_capacity`, which refuses more than `isize::MAX` bytes. -/
def withCapacity (capacity : Nat) : Outcome Unit :=
  if capacity < 2 ^ 63 then .ok () else .error .panic

theorem sliceFrom_append (front back : List UInt8) :
    sliceFrom (front ++ back) front.length = .ok back := by
  simp [sliceFrom]

theorem sliceTo_length (buf : List UInt8) : sliceTo buf buf.length = .ok buf := by
  simp [sliceTo]

end Outcome

/-- `i as usize`, which sign-extends. -/
def asUsize (i : Int32) : Nat := (i.toInt % 2 ^ 64).toNat

/-- `n as i32`, which keeps the low 32 bits. -/
def asI32 (n : Nat) : Int32 := Int32.ofNat n

/-- Is `buf[len - 1] & (1 << 7)` positive? -/
def extraByte (b : UInt8) : Bool := (b &&& ((1 : UInt8) <<< 7)) > 0

/-- The loop of `read_var_int`: how many of at most five bytes it reads. -/
def varIntLength : (most : Nat) → (buf : List UInt8) → Option Nat
  | 0, _ => none
  | _, [] => none
  | most + 1, b :: rest => if extraByte b then (varIntLength most rest).map (· + 1) else some 1

def readVarInt (lib : Codecs) (buf : List UInt8) : Option (Nat × Int32) := do
  let len ← varIntLength 5 buf
  let val ← lib.varIntDecode (buf.take len)
  return (len, val)

def encodeVarInt (lib : Codecs) (i : Int32) : Option (List UInt8) := lib.varIntEncode i

structure RawPacket where
  id : UInt8
  data : List UInt8
  deriving DecidableEq

namespace RawPacket

open Outcome

def readPacketIdData (lib : Codecs) (buf : List UInt8) : Outcome RawPacket := do
  let (read, packetId) ← question (readVarInt lib buf)
  let buf ← sliceFrom buf read
  return ⟨packetId.toUInt32.toUInt8, buf⟩

def decodeWithoutLen (lib : Codecs) (client : Client) (buf : List UInt8) : Outcome RawPacket :=
  if !client.isCompressed then readPacketIdData lib buf
  else do
    let (read, dataLen) ← question (readVarInt lib buf)
    let buf ← sliceFrom buf read
    if dataLen = 0 then readPacketIdData lib buf
    else do
      withCapacity (asUsize dataLen)
      let decompressed ← question (lib.zlibDecompress buf)
      if decompressed.length ≠ asUsize dataLen then .error .err
      else readPacketIdData lib decompressed

def decodeWithLen (lib : Codecs) (client : Client) (buf : List UInt8) : Outcome RawPacket := do
  let (read, len) ← question (readVarInt lib buf)
  let buf ← sliceFrom buf read
  let buf ← sliceTo buf (asUsize len)
  decodeWithoutLen lib client buf

def encodeUncompressed (lib : Codecs) (packet : RawPacket) : Outcome (List UInt8) := do
  let front ← question (encodeVarInt lib packet.id.toUInt32.toInt32)
  return front ++ packet.data

def encodeCompressed (lib : Codecs) (packet : RawPacket) (threshold : Int32) :
    Outcome (List UInt8) := do
  let front ← question (encodeVarInt lib packet.id.toUInt32.toInt32)
  let payload := front ++ packet.data
  let dataLen := asI32 payload.length
  let compress := dataLen > threshold
  let dataLenHeader := if compress then dataLen else 0
  let payload ← if compress then question (lib.zlibCompress payload) else .ok payload
  let header ← unwrap (encodeVarInt lib dataLenHeader)
  return header ++ payload

def encodeWithoutLen (lib : Codecs) (packet : RawPacket) (client : Client) :
    Outcome (List UInt8) :=
  let threshold := client.compressed
  if threshold ≥ 0 then packet.encodeCompressed lib threshold
  else packet.encodeUncompressed lib

def encodeWithLen (lib : Codecs) (packet : RawPacket) (client : Client) :
    Outcome (List UInt8) := do
  let payload ← packet.encodeWithoutLen lib client
  let front ← question (encodeVarInt lib (asI32 payload.length))
  return front ++ payload

end RawPacket

/-- The number format the two `var_int` functions implement. -/
structure Codecs.Standard (lib : Codecs) : Prop where
  encode : ∀ i, lib.varIntEncode i = some (Leb128.encode 4 i.toUInt32.toNat)
  decode : ∀ bytes, Leb128.Terminated bytes → bytes.length ≤ 5 →
    lib.varIntDecode bytes = some (UInt32.ofNat (Leb128.value bytes)).toInt32

/-- Compressing into memory succeeds, and decompressing gives the data back. -/
def Codecs.ZlibInverts (lib : Codecs) : Prop :=
  ∀ data, ∃ packed, lib.zlibCompress data = some packed ∧ lib.zlibDecompress packed = some data

theorem extraByte_iff (b : UInt8) : extraByte b = true ↔ Leb128.Continues b := by
  have bit : (b &&& ((1 : UInt8) <<< 7)).toNat = (b.toNat.testBit 7).toNat * 2 ^ 7 := by
    rw [UInt8.toNat_and]
    exact Nat.and_two_pow b.toNat 7
  have small := b.toNat_lt
  rw [extraByte, decide_eq_true_eq, gt_iff_lt, UInt8.lt_iff_toNat_lt, bit,
    Nat.testBit_eq_decide_div_mod_eq, Leb128.Continues]
  by_cases high : 128 ≤ b.toNat
  · have : b.toNat / 128 % 2 = 1 := by omega
    simp [this, high]
  · have : b.toNat / 128 % 2 = 0 := by omega
    simp [this, high]

theorem varIntLength_eq (most : Nat) (buf : List UInt8) :
    varIntLength most buf = Leb128.prefixLength most buf := by
  induction most generalizing buf with
  | zero => rfl
  | succ most ih =>
    cases buf with
    | nil => rfl
    | cons b rest => simp only [varIntLength, Leb128.prefixLength, extraByte_iff, ih]

/-- It reads up to the first byte without a continuation bit. -/
theorem varIntLength_eq_some {most len : Nat} {buf : List UInt8} :
    varIntLength most buf = some len ↔ Leb128.EndsAt buf len ∧ len ≤ most := by
  rw [varIntLength_eq, Leb128.prefixLength_eq_some]

/-- The bytes of one number. -/
def varInt (i : Int32) : List UInt8 := Leb128.encode 4 i.toUInt32.toNat

theorem varInt_length_pos (i : Int32) : 0 < (varInt i).length := Leb128.encode_length_pos _ _

theorem varInt_length_le (i : Int32) : (varInt i).length ≤ 5 := Leb128.encode_length_le _ _

theorem varInt_terminated (i : Int32) : Leb128.Terminated (varInt i) :=
  Leb128.encode_terminated _ _

theorem Codecs.Standard.encodeVarInt {lib : Codecs} (standard : lib.Standard) (i : Int32) :
    encodeVarInt lib i = some (varInt i) := standard.encode i

/-- A number is read back whatever follows it. -/
theorem Codecs.Standard.readVarInt {lib : Codecs} (standard : lib.Standard) (i : Int32)
    (rest : List UInt8) :
    readVarInt lib (varInt i ++ rest) = some ((varInt i).length, i) := by
  have found : varIntLength 5 (varInt i ++ rest) = some (varInt i).length := by
    rw [varIntLength_eq]
    exact Leb128.prefixLength_append rest (varInt_terminated i) (varInt_length_le i)
  have decoded : lib.varIntDecode (varInt i) = some i := by
    rw [standard.decode _ (varInt_terminated i) (varInt_length_le i), varInt,
      Leb128.value_encode 4 _ (by have := i.toUInt32.toNat_lt; omega)]
    simp
  simp [PlexPaper.readVarInt, found, decoded]

/-- Bytes cut off inside a number are an error, not a wait for more. -/
theorem readVarInt_cut (lib : Codecs) (i : Int32) {cut : Nat} (inside : cut < (varInt i).length) :
    readVarInt lib ((varInt i).take cut) = none := by
  have nothing : varIntLength 5 ((varInt i).take cut) = none := by
    rw [varIntLength_eq]
    exact (varInt_terminated i).endsAt.prefixLength_take inside
  simp [readVarInt, nothing]

theorem toInt_asI32 {n : Nat} (fits : n < 2 ^ 31) : (asI32 n).toInt = n :=
  Int32.toInt_ofNat_of_lt fits

theorem asUsize_asI32 {n : Nat} (fits : n < 2 ^ 31) : asUsize (asI32 n) = n := by
  rw [asUsize, toInt_asI32 fits]
  omega

namespace RawPacket

open Outcome

variable {lib : Codecs} {packet : RawPacket} {sender receiver : Client}

/-- The id of a packet and its data, before any framing. -/
def payload (packet : RawPacket) : List UInt8 := varInt packet.id.toUInt32.toInt32 ++ packet.data

/-- What a client without compression puts on the wire for a packet. -/
def frame (packet : RawPacket) : List UInt8 := varInt (asI32 packet.payload.length) ++ packet.payload

theorem payload_length_pos (packet : RawPacket) : 0 < packet.payload.length := by
  have := varInt_length_pos packet.id.toUInt32.toInt32
  simp only [payload, List.length_append]
  omega

theorem readPacketIdData_payload (standard : lib.Standard) (packet : RawPacket) :
    readPacketIdData lib packet.payload = .ok packet := by
  rw [readPacketIdData, payload, standard.readVarInt]
  simp [bind, Except.bind, pure, Except.pure, sliceFrom_append]

theorem encodeUncompressed_eq (standard : lib.Standard) (packet : RawPacket) :
    packet.encodeUncompressed lib = .ok packet.payload := by
  simp [encodeUncompressed, standard.encodeVarInt, bind, Except.bind, pure, Except.pure, payload]

/-- Below the threshold the payload goes out as it is, behind a zero. -/
theorem encodeCompressed_small (standard : lib.Standard) {threshold : Int32}
    (small : ¬ asI32 packet.payload.length > threshold) :
    packet.encodeCompressed lib threshold = .ok (varInt 0 ++ packet.payload) := by
  rw [payload] at small ⊢
  simp only [encodeCompressed, standard.encodeVarInt, question_some, unwrap_some, bind,
    Except.bind, pure, Except.pure, if_neg small]

/-- Above it the payload goes out compressed, behind its own length. -/
theorem encodeCompressed_large (standard : lib.Standard) {threshold : Int32} {packed : List UInt8}
    (large : asI32 packet.payload.length > threshold)
    (packs : lib.zlibCompress packet.payload = some packed) :
    packet.encodeCompressed lib threshold =
      .ok (varInt (asI32 packet.payload.length) ++ packed) := by
  rw [payload] at large packs ⊢
  simp only [encodeCompressed, standard.encodeVarInt, question_some, unwrap_some, bind,
    Except.bind, pure, Except.pure, if_pos large, packs]

theorem decodeWithoutLen_uncompressed (standard : lib.Standard)
    (plain : receiver.isCompressed = false) :
    decodeWithoutLen lib receiver packet.payload = .ok packet := by
  simp [decodeWithoutLen, plain, readPacketIdData_payload standard]

theorem decodeWithoutLen_small (standard : lib.Standard)
    (compressed : receiver.isCompressed = true) :
    decodeWithoutLen lib receiver (varInt 0 ++ packet.payload) = .ok packet := by
  simp [decodeWithoutLen, compressed, standard.readVarInt, bind, Except.bind, sliceFrom_append,
    readPacketIdData_payload standard]

theorem decodeWithoutLen_large (standard : lib.Standard)
    (compressed : receiver.isCompressed = true) (fits : packet.payload.length < 2 ^ 31)
    {packed : List UInt8} (unpacks : lib.zlibDecompress packed = some packet.payload) :
    decodeWithoutLen lib receiver (varInt (asI32 packet.payload.length) ++ packed) =
      .ok packet := by
  have nonzero : asI32 packet.payload.length ≠ 0 := by
    intro zero
    have length := toInt_asI32 fits
    rw [zero] at length
    have := packet.payload_length_pos
    simp at length
    omega
  have room : withCapacity packet.payload.length = .ok () := if_pos (by omega)
  simp [decodeWithoutLen, compressed, standard.readVarInt, bind, Except.bind, sliceFrom_append,
    nonzero, asUsize_asI32 fits, room, unpacks, readPacketIdData_payload standard]

/-- The lengths the encoder casts to `i32`, before and after compression. -/
structure Fits (lib : Codecs) (client : Client) (packet : RawPacket) : Prop where
  payload : packet.payload.length < 2 ^ 31
  encoded : ∀ bytes, packet.encodeWithoutLen lib client = .ok bytes → bytes.length < 2 ^ 31

/-- Each of the three forms the encoder chooses from is read back. -/
theorem decode_encodeWithoutLen (receiver : Client) (standard : lib.Standard) (zlib : lib.ZlibInverts)
    (same : sender.isCompressed = receiver.isCompressed)
    (fits : packet.payload.length < 2 ^ 31) :
    ∃ bytes, packet.encodeWithoutLen lib sender = .ok bytes ∧
      decodeWithoutLen lib receiver bytes = .ok packet := by
  by_cases compressed : sender.compressed ≥ 0
  · have receives : receiver.isCompressed = true := by
      rw [← same]
      simpa [Client.isCompressed] using compressed
    rw [encodeWithoutLen]
    simp only [if_pos compressed]
    by_cases large : asI32 packet.payload.length > sender.compressed
    · obtain ⟨packed, packs, unpacks⟩ := zlib packet.payload
      refine ⟨_, encodeCompressed_large standard large packs, ?_⟩
      exact decodeWithoutLen_large standard receives fits unpacks
    · refine ⟨_, encodeCompressed_small standard large, ?_⟩
      exact decodeWithoutLen_small standard receives
  · have receives : receiver.isCompressed = false := by
      rw [← same]
      simpa [Client.isCompressed] using compressed
    rw [encodeWithoutLen]
    simp only [if_neg compressed]
    exact ⟨_, encodeUncompressed_eq standard packet, decodeWithoutLen_uncompressed standard receives⟩

/-- A frame is its payload behind the length of it. -/
theorem encodeWithLen_eq (standard : lib.Standard) {bytes : List UInt8}
    (encoded : packet.encodeWithoutLen lib sender = .ok bytes) :
    packet.encodeWithLen lib sender = .ok (varInt (asI32 bytes.length) ++ bytes) := by
  simp [encodeWithLen, encoded, standard.encodeVarInt, bind, Except.bind, pure, Except.pure]

theorem decodeWithLen_frame (standard : lib.Standard) {bytes : List UInt8}
    (fits : bytes.length < 2 ^ 31) :
    decodeWithLen lib receiver (varInt (asI32 bytes.length) ++ bytes) =
      decodeWithoutLen lib receiver bytes := by
  simp [decodeWithLen, standard.readVarInt, bind, Except.bind, sliceFrom_append,
    asUsize_asI32 fits, sliceTo_length]

end RawPacket

open RawPacket in
/-- What one client encodes any other in the same mode decodes, with the length
in front and without it. The two thresholds play no part. -/
theorem packet_round_trip (lib : Codecs) (standard : lib.Standard) (zlib : lib.ZlibInverts)
    (packet : RawPacket) (sender receiver : Client)
    (same : sender.isCompressed = receiver.isCompressed) (fits : packet.Fits lib sender) :
    (packet.encodeWithLen lib sender >>= decodeWithLen lib receiver) = .ok packet ∧
      (packet.encodeWithoutLen lib sender >>= decodeWithoutLen lib receiver) = .ok packet := by
  obtain ⟨bytes, encoded, decoded⟩ := decode_encodeWithoutLen receiver standard zlib same fits.payload
  constructor
  · rw [encodeWithLen_eq standard encoded]
    change decodeWithLen lib receiver _ = _
    rw [decodeWithLen_frame standard (fits.encoded bytes encoded), decoded]
  · rw [encoded]
    exact decoded

/-- The number format in full. One zero byte compresses to the stream zlib has
for it; other data is only marked. -/
def plainCodecs : Codecs where
  varIntEncode i := some (varInt i)
  varIntDecode bytes := (Leb128.prefixLength 5 bytes).map fun len =>
    (UInt32.ofNat (Leb128.value (bytes.take len))).toInt32
  zlibCompress data :=
    some (if data = [0] then [0x78, 0x9c, 0x63, 0, 0, 0, 1, 0, 1] else 0 :: data)
  zlibDecompress packed :=
    if packed = [0x78, 0x9c, 0x63, 0, 0, 0, 1, 0, 1] then some [0] else some packed.tail

theorem plainCodecs_standard : plainCodecs.Standard where
  encode _ := rfl
  decode bytes terminated short := by
    have whole := Leb128.prefixLength_append [] terminated short
    simp only [List.append_nil] at whole
    simp [plainCodecs, whole]

theorem plainCodecs_zlibInverts : plainCodecs.ZlibInverts := by
  intro data
  refine ⟨_, rfl, ?_⟩
  by_cases zero : data = [0] <;> simp [plainCodecs, zero]

/-- A packet with no data, compressed by a threshold of zero, reaches a client
that would not have compressed it. -/
theorem packet_round_trip_compressed :
    let sender := { Client.dummy with compression := 0 }
    let receiver := { Client.dummy with compression := 256 }
    (⟨0, []⟩ : RawPacket).encodeWithLen plainCodecs sender =
        .ok [10, 1, 0x78, 0x9c, 0x63, 0, 0, 0, 1, 0, 1] ∧
      ((⟨0, []⟩ : RawPacket).encodeWithLen plainCodecs sender >>=
        RawPacket.decodeWithLen plainCodecs receiver) = .ok ⟨0, []⟩ := by
  refine ⟨by decide, (packet_round_trip plainCodecs plainCodecs_standard plainCodecs_zlibInverts
    ⟨0, []⟩ _ _ (by decide) ⟨by decide, ?_⟩).1⟩
  intro bytes encoded
  have same : bytes = [1, 0x78, 0x9c, 0x63, 0, 0, 0, 1, 0, 1] :=
    (Except.ok.inj (encoded.symm.trans (by decide)))
  simp [same]

end PlexPaper
