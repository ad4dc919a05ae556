import Mathlib.Data.Nat.Bitwise

/-! Little-endian numbers in groups of seven bits, one group a byte. A set high
bit says that another byte follows. Nothing here fixes the width of the number:
an encoder is given the most bytes it may continue for. -/
namespace Leb128

/-- Does another byte follow this one? -/
def Continues (b : UInt8) : Prop := 128 ≤ b.toNat
deriving Decidable

/-- The shortest encoding, of at most `more` bytes before its last. -/
def encode : (more n : Nat) → List UInt8
  | 0, n => [UInt8.ofNat (n % 128)]
  | more + 1, n =>
    if n < 128 then [UInt8.ofNat n] else UInt8.ofNat (n % 128 + 128) :: encode more (n / 128)

/-- The number these bytes carry, whatever follows the last of them. -/
def value : List UInt8 → Nat
  | [] => 0
  | b :: rest => b.toNat % 128 + 128 * value rest

/-- One number and nothing else: exactly the last byte does not continue. -/
def Terminated : List UInt8 → Prop
  | [] => False
  | b :: rest => if Continues b then Terminated rest else rest = []

/-- The bytes of the number that `bytes` begin with, at most `most` of them. -/
def prefixLength : (most : Nat) → (bytes : List UInt8) → Option Nat
  | 0, _ => none
  | _, [] => none
  | most + 1, b :: rest => if Continues b then (prefixLength most rest).map (· + 1) else some 1

/-- The byte before this place is the first that does not continue. -/
def EndsAt (bytes : List UInt8) (place : Nat) : Prop :=
  (∀ index b, index + 1 < place → bytes[index]? = some b → Continues b) ∧
    ∃ last, bytes[place - 1]? = some last ∧ 0 < place ∧ ¬ Continues last

private theorem byte_toNat {n : Nat} (h : n < 256) : (UInt8.ofNat n).toNat = n := by
  simp [Nat.mod_eq_of_lt h]

theorem encode_small {more n : Nat} (small : n < 128) : encode more n = [UInt8.ofNat n] := by
  cases more with
  | zero => simp [encode, Nat.mod_eq_of_lt small]
  | succ more => simp [encode, small]

theorem encode_large {more n : Nat} (large : 128 ≤ n) :
    encode (more + 1) n = UInt8.ofNat (n % 128 + 128) :: encode more (n / 128) := by
  simp [encode, show ¬ n < 128 by omega]

theorem encode_terminated (more n : Nat) : Terminated (encode more n) := by
  induction more generalizing n with
  | zero =>
    have last : n % 128 < 128 := Nat.mod_lt n (by omega)
    simp [encode, Terminated, Continues, byte_toNat (show n % 128 < 256 by omega), last]
  | succ more ih =>
    by_cases small : n < 128
    · simp [encode_small small, Terminated, Continues, byte_toNat (show n < 256 by omega), small]
    · rw [encode_large (by omega), Terminated, if_pos]
      · exact ih (n / 128)
      · rw [Continues, byte_toNat (by omega)]
        omega

theorem value_encode (more n : Nat) (fits : n < 128 ^ (more + 1)) : value (encode more n) = n := by
  induction more generalizing n with
  | zero =>
    have small : n < 128 := by simpa using fits
    simp [encode_small small, value, byte_toNat (show n < 256 by omega), small]
  | succ more ih =>
    by_cases small : n < 128
    · simp [encode_small small, value, byte_toNat (show n < 256 by omega), small]
    · have inner : n / 128 < 128 ^ (more + 1) := by
        apply Nat.div_lt_of_lt_mul
        rwa [← Nat.pow_succ']
      rw [encode_large (by omega), value, ih (n / 128) inner, byte_toNat (by omega)]
      omega

theorem encode_length_pos (more n : Nat) : 0 < (encode more n).length := by
  cases more with
  | zero => simp [encode]
  | succ more =>
    unfold encode
    split <;> simp

theorem encode_length_le (more n : Nat) : (encode more n).length ≤ more + 1 := by
  induction more generalizing n with
  | zero => simp [encode]
  | succ more ih =>
    by_cases small : n < 128
    · simp [encode_small small]
    · rw [encode_large (by omega), List.length_cons]
      have := ih (n / 128)
      omega

/-! ## Where a number ends -/

theorem EndsAt.positive {bytes : List UInt8} {place : Nat} (ends : EndsAt bytes place) : 0 < place := by
  obtain ⟨-, last, -, positive, -⟩ := ends
  exact positive

theorem not_endsAt_nil (place : Nat) : ¬ EndsAt [] place := by
  rintro ⟨-, last, found, -⟩
  simp at found

/-- A number ends behind a first byte that continues where the rest does, and behind any
other right there. -/
theorem endsAt_cons {b : UInt8} {rest : List UInt8} {place : Nat} :
    EndsAt (b :: rest) (place + 1) ↔ if Continues b then EndsAt rest place else place = 0 := by
  cases place with
  | zero =>
    split
    · rename_i more
      refine iff_of_false ?_ fun ends => absurd ends.positive (Nat.lt_irrefl 0)
      rintro ⟨-, last, found, -, stops⟩
      cases found
      exact stops more
    · rename_i stops
      refine iff_of_true ⟨fun index other bound _ => by omega, b, rfl, by omega, stops⟩ rfl
  | succ place =>
    split
    · rename_i more
      constructor
      · rintro ⟨before, last, found, -, stops⟩
        exact ⟨fun index other bound inside => before (index + 1) other (by omega) inside,
          last, found, by omega, stops⟩
      · rintro ⟨before, last, found, -, stops⟩
        refine ⟨fun index other bound inside => ?_, last, found, by omega, stops⟩
        cases index with
        | zero => cases inside; exact more
        | succ index => exact before index other (by omega) inside
    · rename_i stops
      refine iff_of_false ?_ (by omega)
      rintro ⟨before, -⟩
      exact stops (before 0 b (by omega) rfl)

/-- The bytes of a number are counted to where it ends. -/
theorem prefixLength_eq_some {most : Nat} {bytes : List UInt8} {place : Nat} :
    prefixLength most bytes = some place ↔ EndsAt bytes place ∧ place ≤ most := by
  induction most generalizing bytes place with
  | zero =>
    refine iff_of_false (by simp [prefixLength]) ?_
    rintro ⟨ends, none⟩
    have := ends.positive
    omega
  | succ most ih =>
    cases bytes with
    | nil => exact iff_of_false (by simp [prefixLength]) fun ends => not_endsAt_nil place ends.1
    | cons b rest =>
      cases place with
      | zero =>
        refine iff_of_false ?_ fun ends => absurd ends.1.positive (Nat.lt_irrefl 0)
        rw [prefixLength]
        split <;> simp
      | succ place =>
        rw [prefixLength, endsAt_cons, Nat.add_le_add_iff_right]
        split
        · simpa using ih
        · rw [Option.some.injEq]
          omega

theorem EndsAt.le_length {bytes : List UInt8} {place : Nat} (ends : EndsAt bytes place) :
    place ≤ bytes.length := by
  obtain ⟨-, last, found, -⟩ := ends
  have inside := (List.getElem?_eq_some_iff.mp found).1
  omega

/-- Where a number ends depends on its own bytes alone. -/
theorem endsAt_take {bytes : List UInt8} {place : Nat} :
    EndsAt (bytes.take place) place ↔ EndsAt bytes place := by
  have same (index : Nat) (inside : index < place) : (bytes.take place)[index]? = bytes[index]? := by
    rw [List.getElem?_take, if_pos inside]
  constructor
  · rintro ⟨before, last, found, positive, stops⟩
    exact ⟨fun index b bound inside => before index b bound (by rwa [same index (by omega)]),
      last, by rwa [← same _ (by omega)], positive, stops⟩
  · rintro ⟨before, last, found, positive, stops⟩
    exact ⟨fun index b bound inside => before index b bound (by rwa [← same index (by omega)]),
      last, by rwa [same _ (by omega)], positive, stops⟩

/-- The bytes up to there are one number and nothing else. -/
theorem EndsAt.terminated {bytes : List UInt8} {place : Nat} (ends : EndsAt bytes place) :
    Terminated (bytes.take place) := by
  induction bytes generalizing place with
  | nil => exact (not_endsAt_nil place ends).elim
  | cons b rest ih =>
    cases place with
    | zero => exact absurd ends.positive (Nat.lt_irrefl 0)
    | succ place =>
      rw [endsAt_cons] at ends
      rw [List.take_succ_cons, Terminated]
      split
      · rename_i more
        rw [if_pos more] at ends
        exact ih ends
      · rename_i stops
        rw [if_neg stops] at ends
        simp [ends]

/-- So it ends there in whatever else begins with them. -/
theorem EndsAt.of_take_eq {bytes other : List UInt8} {place : Nat} (ends : EndsAt bytes place)
    (agree : other.take place = bytes.take place) : EndsAt other place := by
  rw [← endsAt_take, agree]
  exact endsAt_take.mpr ends

theorem EndsAt.append {bytes : List UInt8} {place : Nat} (ends : EndsAt bytes place)
    (rest : List UInt8) : EndsAt (bytes ++ rest) place :=
  ends.of_take_eq (List.take_append_of_le_length ends.le_length)

/-- A number ends in one place only. -/
theorem EndsAt.unique {bytes : List UInt8} {place other : Nat} (ends : EndsAt bytes place)
    (also : EndsAt bytes other) : place = other := by
  have first := prefixLength_eq_some.mpr ⟨ends, Nat.le_max_left place other⟩
  have second := prefixLength_eq_some.mpr ⟨also, Nat.le_max_right place other⟩
  exact Option.some.inj (first.symm.trans second)

theorem Terminated.endsAt {bytes : List UInt8} (terminated : Terminated bytes) :
    EndsAt bytes bytes.length := by
  induction bytes with
  | nil => exact terminated.elim
  | cons b tail ih =>
    rw [List.length_cons, endsAt_cons]
    rw [Terminated] at terminated
    split at terminated
    · rename_i more
      rw [if_pos more]
      exact ih terminated
    · rename_i stops
      rw [if_neg stops, terminated, List.length_nil]

/-- The end of a number is found whatever comes after it. -/
theorem prefixLength_append {bytes : List UInt8} {most : Nat} (rest : List UInt8)
    (terminated : Terminated bytes) (short : bytes.length ≤ most) :
    prefixLength most (bytes ++ rest) = some bytes.length :=
  prefixLength_eq_some.mpr ⟨terminated.endsAt.append rest, short⟩

/-- Bytes cut off before a number ends do not yet hold one. -/
theorem EndsAt.prefixLength_take {bytes : List UInt8} {place most cut : Nat}
    (ends : EndsAt bytes place) (inside : cut < place) : prefixLength most (bytes.take cut) = none := by
  rw [Option.eq_none_iff_forall_ne_some]
  intro other found
  obtain ⟨early, -⟩ := prefixLength_eq_some.mp found
  have short := early.le_length
  have whole := early.append (bytes.drop cut)
  rw [List.take_append_drop] at whole
  have same := ends.unique whole
  rw [List.length_take] at short
  omega

end Leb128
