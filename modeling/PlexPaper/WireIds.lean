import PlexPaper.PacketSafety

/-! Which packet a frame decodes to. The id on the wire is a number of 32 bits, and a
`RawPacket` keeps the lowest eight of them: an id from 0 to 255 stays what it is, any
other one is taken for one of these. -/
namespace PlexPaper
open Outcome

section

variable (lib : Codecs) (client : Client)

/-- The payload behind the length of a frame, unpacked where it is packed. -/
def wirePayload (body : List UInt8) : Option (List UInt8) :=
  if client.isCompressed then do
    let (consumed, dataLen) ← readVarInt lib body
    if dataLen = 0 then return body.drop consumed else lib.zlibDecompress (body.drop consumed)
  else some body

/-- The id in front of the payload of a frame, and the bytes behind it. -/
def wirePacket (buf : List UInt8) : Option (Int32 × List UInt8) := do
  let (consumed, len) ← readVarInt lib buf
  let payload ← wirePayload lib client (RawPacket.frameBody buf consumed len)
  let (read, id) ← readVarInt lib payload
  return (id, payload.drop read)

/-- The packet has the id that is on the wire, as a number, and the bytes behind it. -/
def DecodesFaithfully (buf : List UInt8) (packet : RawPacket) : Prop :=
  ∃ id, wirePacket lib client buf = some (id, packet.data) ∧ id.toInt = packet.id.toNat

/-- The id on the wire is one that a byte can hold. -/
def IdInByte (buf : List UInt8) : Prop :=
  ∀ found ∈ wirePacket lib client buf, 0 ≤ found.1.toInt ∧ found.1.toInt < 256

variable {lib client} {buf : List UInt8} {packet : RawPacket}

namespace RawPacket

theorem readPacketIdData_wire (decodes : readPacketIdData lib buf = .ok packet) :
    ∃ read id, readVarInt lib buf = some (read, id) ∧
      packet = ⟨id.toUInt32.toUInt8, buf.drop read⟩ := by
  unfold readPacketIdData at decodes
  obtain ⟨⟨read, id⟩, found, decodes⟩ := bind_ok.mp decodes
  have found := question_ok.mp found
  simp only [sliceFrom_readVarInt found] at decodes
  cases decodes
  exact ⟨read, id, found, rfl⟩

/-- The three paths of the decoder end in the payload that is on the wire. -/
theorem decodeWithoutLen_wire (decodes : decodeWithoutLen lib client buf = .ok packet) :
    ∃ payload, wirePayload lib client buf = some payload ∧
      readPacketIdData lib payload = .ok packet := by
  unfold decodeWithoutLen at decodes
  by_cases compressed : client.isCompressed = true
  · simp only [compressed, Bool.not_true, Bool.false_eq_true, if_false] at decodes
    obtain ⟨⟨consumed, dataLen⟩, found, decodes⟩ := bind_ok.mp decodes
    have found := question_ok.mp found
    simp only [sliceFrom_readVarInt found] at decodes
    obtain ⟨_, same, decodes⟩ := bind_ok.mp decodes
    cases same
    by_cases zero : dataLen = 0
    · rw [if_pos zero] at decodes
      exact ⟨buf.drop consumed, by simp [wirePayload, compressed, found, zero], decodes⟩
    · rw [if_neg zero] at decodes
      obtain ⟨_, -, decodes⟩ := bind_ok.mp decodes
      obtain ⟨decompressed, unpacks, decodes⟩ := bind_ok.mp decodes
      have unpacks := question_ok.mp unpacks
      split at decodes
      · cases decodes
      · exact ⟨decompressed, by simp [wirePayload, compressed, found, zero, unpacks], decodes⟩
  · rw [if_pos (by simpa using compressed)] at decodes
    exact ⟨buf, if_neg compressed, decodes⟩

/-- A packet is the one on the wire, but for its id. -/
theorem decodeWithLen_wire (decodes : decodeWithLen lib client buf = .ok packet) :
    ∃ id, wirePacket lib client buf = some (id, packet.data) ∧ packet.id = id.toUInt32.toUInt8 := by
  obtain ⟨consumed, len, found, decodes, -⟩ := decodeWithLen_ok decodes
  obtain ⟨payload, same, decodes⟩ := decodeWithoutLen_wire decodes
  obtain ⟨read, id, number, rfl⟩ := readPacketIdData_wire decodes
  exact ⟨id, by simp [wirePacket, found, same, number], rfl⟩

end RawPacket

/-- The lowest eight bits are the whole number exactly when it fits in a byte. -/
theorem toInt_eq_toUInt8_iff (id : Int32) :
    id.toInt = id.toUInt32.toUInt8.toNat ↔ 0 ≤ id.toInt ∧ id.toInt < 256 := by
  have bits : id.toInt = if 2 * id.toUInt32.toNat < 2 ^ 32 then (id.toUInt32.toNat : Int)
      else id.toUInt32.toNat - 2 ^ 32 := id.toBitVec.toInt_eq_toNat_cond
  have bound := id.toUInt32.toNat_lt
  rw [UInt32.toNat_toUInt8]
  split at bits <;> omega

/-- Every frame that decodes does so faithfully exactly when its id is in a byte, and
frames with different ids in a byte decode to different packets. -/
theorem decoding_faithful_iff (lib : Codecs) (client : Client) (buf : List UInt8)
    (packet : RawPacket) (decodes : RawPacket.decodeWithLen lib client buf = .ok packet) :
    (DecodesFaithfully lib client buf packet ↔ IdInByte lib client buf) ∧
      ∀ otherClient otherBuf other, RawPacket.decodeWithLen lib otherClient otherBuf = .ok other →
        IdInByte lib client buf → IdInByte lib otherClient otherBuf →
        (wirePacket lib client buf).map Prod.fst ≠ (wirePacket lib otherClient otherBuf).map Prod.fst →
        packet ≠ other := by
  obtain ⟨id, wired, cut⟩ := RawPacket.decodeWithLen_wire decodes
  have faithful_iff : DecodesFaithfully lib client buf packet ↔ IdInByte lib client buf := by
    simp only [DecodesFaithfully, IdInByte, wired, Option.some.injEq, Prod.mk.injEq, and_true,
      exists_eq_left', Option.mem_def, forall_eq', cut]
    exact toInt_eq_toUInt8_iff id
  refine ⟨faithful_iff, fun otherClient otherBuf other otherDecodes small otherSmall differ same => ?_⟩
  obtain ⟨otherId, otherWired, otherCut⟩ := RawPacket.decodeWithLen_wire otherDecodes
  have kept := (toInt_eq_toUInt8_iff id).mpr (small _ wired)
  have otherKept := (toInt_eq_toUInt8_iff otherId).mpr (otherSmall _ otherWired)
  apply differ
  rw [wired, otherWired, Option.map_some, Option.map_some, Option.some.injEq]
  apply Int32.toInt_inj.mp
  rw [kept, otherKept, ← cut, ← otherCut, same]

end

/-- A frame with a login id, next to one with the id of another packet. -/
theorem decoding_faithful_login :
    DecodesFaithfully plainCodecs .dummy [2, 2, 7] ⟨2, [7]⟩ ∧ (⟨2, [7]⟩ : RawPacket) ≠ ⟨1, [7]⟩ := by
  obtain ⟨faithful_iff, apart⟩ :=
    decoding_faithful_iff plainCodecs .dummy [2, 2, 7] ⟨2, [7]⟩ (by decide +kernel)
  exact ⟨faithful_iff.mpr (by unfold IdInByte; decide +kernel),
    apart .dummy [2, 1, 7] ⟨1, [7]⟩ (by decide +kernel) (by unfold IdInByte; decide +kernel)
      (by unfold IdInByte; decide +kernel) (by decide +kernel)⟩

/-- The id 256 is taken for 0, the id of a handshake and of a login start: its frame
decodes to the packet that the frame with id 0 decodes to. -/
theorem wide_id_decodes_as_zero :
    (¬ ∀ client buf packet, RawPacket.decodeWithLen plainCodecs client buf = .ok packet →
      DecodesFaithfully plainCodecs client buf packet) ∧
    wirePacket plainCodecs .dummy [3, 128, 2, 7] = some (256, [7]) ∧
    wirePacket plainCodecs .dummy [2, 0, 7] = some (0, [7]) ∧
    RawPacket.decodeWithLen plainCodecs .dummy [3, 128, 2, 7] = .ok ⟨0, [7]⟩ ∧
    RawPacket.decodeWithLen plainCodecs .dummy [2, 0, 7] = .ok ⟨0, [7]⟩ := by
  have wired : wirePacket plainCodecs .dummy [3, 128, 2, 7] = some (256, [7]) := by decide +kernel
  refine ⟨fun every => ?_, wired, by decide +kernel, by decide +kernel, by decide +kernel⟩
  obtain ⟨id, same, number⟩ := every .dummy [3, 128, 2, 7] ⟨0, [7]⟩ (by decide +kernel)
  cases wired.symm.trans same
  revert number
  decide

end PlexPaper
