import PlexPaper.Framing

/-! What `read_var_int` does with any buffer: it reads the number that the buffer begins
with, by the bytes of that number alone, and says exactly how many they are. This is more
than the round trip. It covers encodings that are longer than they need be, buffers that
end inside a number, and numbers that do not end within five bytes. -/
namespace PlexPaper

/-- The number of an encoding, as the `i32` it is decoded to. -/
def varIntValue (bytes : List UInt8) : Int32 := (UInt32.ofNat (Leb128.value bytes)).toInt32

/-- The buffer begins with a number of this many bytes, all of them there and at most five. -/
def BeginsWithVarInt (buf : List UInt8) (len : Nat) : Prop :=
  Leb128.EndsAt buf len ∧ len ≤ min 5 buf.length

variable {lib : Codecs} {buf : List UInt8}

theorem varIntLength_eq_some_iff {len : Nat} :
    varIntLength 5 buf = some len ↔ BeginsWithVarInt buf len := by
  rw [varIntLength_eq_some, BeginsWithVarInt, Nat.le_min]
  exact ⟨fun ⟨ends, short⟩ => ⟨ends, short, ends.le_length⟩, fun ⟨ends, short, _⟩ => ⟨ends, short⟩⟩

/-- What is read is the length and the value of the number that the buffer begins with. -/
theorem Codecs.Standard.readVarInt_eq_some (standard : lib.Standard) {len : Nat} {val : Int32} :
    PlexPaper.readVarInt lib buf = some (len, val) ↔
      BeginsWithVarInt buf len ∧ val = varIntValue (buf.take len) := by
  have decoded (begins : BeginsWithVarInt buf len) :
      lib.varIntDecode (buf.take len) = some (varIntValue (buf.take len)) := by
    obtain ⟨ends, short⟩ := begins
    refine standard.decode _ ends.terminated ?_
    rw [List.length_take]
    omega
  constructor
  · intro read
    obtain ⟨found, length, value⟩ := Option.bind_eq_some_iff.mp read
    obtain ⟨number, decodes, same⟩ := Option.bind_eq_some_iff.mp value
    cases same
    have begins := varIntLength_eq_some_iff.mp length
    rw [decoded begins] at decodes
    exact ⟨begins, (Option.some.inj decodes).symm⟩
  · rintro ⟨begins, rfl⟩
    simp [PlexPaper.readVarInt, varIntLength_eq_some_iff.mpr begins, decoded begins]

/-- Another buffer that agrees on the bytes of the number begins with it as well. -/
theorem BeginsWithVarInt.of_take_eq {other : List UInt8} {len : Nat}
    (begins : BeginsWithVarInt buf len) (agree : other.take len = buf.take len) :
    BeginsWithVarInt other len := by
  obtain ⟨ends, short⟩ := begins
  have also := ends.of_take_eq agree
  have inside := also.le_length
  exact ⟨also, by omega⟩

/-- Reading a number is exact prefix decoding. -/
theorem readVarInt_exact (lib : Codecs) (standard : lib.Standard) :
    (∀ (i : Int32) (suffix : List UInt8), ∃ bytes, encodeVarInt lib i = some bytes ∧
      readVarInt lib (bytes ++ suffix) = some (bytes.length, i)) ∧
    ∀ buf : List UInt8,
      (∀ len val, readVarInt lib buf = some (len, val) ↔
        BeginsWithVarInt buf len ∧ val = varIntValue (buf.take len)) ∧
      (∀ len val, readVarInt lib buf = some (len, val) → ∀ other : List UInt8,
        other.take len = buf.take len → readVarInt lib other = some (len, val)) ∧
      (readVarInt lib buf = none ↔ ∀ len, ¬ BeginsWithVarInt buf len) := by
  refine ⟨fun i suffix => ⟨varInt i, standard.encodeVarInt i, standard.readVarInt i suffix⟩,
    fun buf => ⟨fun len val => standard.readVarInt_eq_some, ?_, ?_⟩⟩
  · intro len val read other agree
    obtain ⟨begins, rfl⟩ := standard.readVarInt_eq_some.mp read
    rw [standard.readVarInt_eq_some, agree]
    exact ⟨begins.of_take_eq agree, rfl⟩
  · constructor
    · intro unread len begins
      have read := standard.readVarInt_eq_some.mpr ⟨begins, rfl⟩
      cases unread.symm.trans read
    · intro nothing
      rw [Option.eq_none_iff_forall_ne_some]
      rintro ⟨len, val⟩ read
      exact nothing len (standard.readVarInt_eq_some.mp read).1

/-- Minus one takes five bytes, zero can be written with two, and four bytes that all
continue hold no number. -/
theorem readVarInt_exact_plain :
    readVarInt plainCodecs [255, 255, 255, 255, 15, 7] = some (5, -1) ∧
    readVarInt plainCodecs [128, 0, 7] = some (2, 0) ∧
    readVarInt plainCodecs [128, 128, 128, 128] = none := by
  obtain ⟨round, reads⟩ := readVarInt_exact plainCodecs plainCodecs_standard
  obtain ⟨bytes, encodes, minus⟩ := round (-1) [7]
  have five : some [255, 255, 255, 255, 15] = some bytes :=
    (by decide : some [255, 255, 255, 255, 15] = encodeVarInt plainCodecs (-1)).trans encodes
  cases five
  refine ⟨minus, ((reads [128, 0, 7]).1 2 0).mpr ⟨⟨⟨?_, 0, rfl, by omega, by decide⟩, by simp⟩, rfl⟩,
    (reads [128, 128, 128, 128]).2.2.mpr ?_⟩
  · intro index b bound found
    have first : index = 0 := by omega
    subst first
    cases found
    decide
  · rintro len ⟨⟨-, last, found, -, stops⟩, -⟩
    have member := List.mem_of_getElem? found
    simp only [List.mem_cons, List.not_mem_nil, or_false, or_self] at member
    exact stops (by rw [member]; decide)

end PlexPaper
