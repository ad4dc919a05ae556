import PlexPaper.PacketCodec
import PlexPaper.Server

/-! The status of a server on the wire, in the format of `minecraft_protocol`: JSON, as a text
behind its length. What is written of a status reads as the status. -/
namespace PlexPaper

/-! ## Texts -/

section

variable (lib : Codecs)

/-- A text behind the number of its bytes. -/
def writeText (text : String) : List UInt8 :=
  varInt (asI32 text.toUTF8.size) ++ text.toUTF8.data.toList

/-- A text, and what is behind it. -/
def readText (data : List UInt8) : Option (String × List UInt8) := do
  let (read, len) ← readVarInt lib data
  let rest := data.drop read
  let text ← if asUsize len ≤ rest.length then
    String.fromUTF8? ⟨(rest.take (asUsize len)).toArray⟩ else none
  return (text, rest.drop (asUsize len))

variable {lib} in
theorem readText_writeText (standard : lib.Standard) {text : String} (fits : text.utf8ByteSize < 2 ^ 31)
    (rest : List UInt8) : readText lib (writeText text ++ rest) = some (text, rest) := by
  have size : text.toByteArray.data.toList.length = text.utf8ByteSize := by simp
  have taken : (text.toByteArray.data.toList ++ rest).take text.utf8ByteSize = text.toByteArray.data.toList :=
    List.take_left' size
  have left : (text.toByteArray.data.toList ++ rest).drop text.utf8ByteSize = rest := List.drop_left' size
  have decoded : String.fromUTF8? text.toByteArray = some text := dif_pos text.isValidUTF8
  rw [readText, writeText, List.append_assoc, standard.readVarInt]
  simp [asUsize_asI32 fits, taken, left, decoded]

end

/-! ## JSON -/

/-- The characters that have an escape, and its letter. -/
def jsonEscapes : List (Char × Char) :=
  [('"', '"'), ('\\', '\\'), ('\n', 'n'), ('\r', 'r'), ('\t', 't')]

/-- A character inside a text. -/
def jsonChar (c : Char) : List Char :=
  match jsonEscapes.lookup c with
  | some letter => ['\\', letter]
  | none => [c]

def jsonText (text : String) : List Char := ['"'] ++ text.toList.flatMap jsonChar ++ ['"']

/-- The characters of a text up to its end, and what is behind it. -/
def readJsonChars : List Char → Option (List Char × List Char)
  | [] => none
  | '"' :: rest => some ([], rest)
  | '\\' :: letter :: rest => do
    let (c, _) ← jsonEscapes.find? (·.2 = letter)
    let (text, rest) ← readJsonChars rest
    return (c :: text, rest)
  | c :: rest => do
    let (text, rest) ← readJsonChars rest
    return (c :: text, rest)

def readJsonText : List Char → Option (String × List Char)
  | '"' :: rest => (readJsonChars rest).map fun (text, rest) => (String.ofList text, rest)
  | _ => none

def jsonNumber (number : UInt32) : List Char := Nat.toDigits 10 number.toNat

def readJsonNumber (data : List Char) : Option (UInt32 × List Char) :=
  let digits := data.takeWhile Char.isDigit
  if digits = [] then none
  else some (UInt32.ofNat (Nat.ofDigitChars 10 digits 0), data.dropWhile Char.isDigit)

/-- Exactly these characters, and what is behind them. -/
def readJsonToken : (token : List Char) → List Char → Option (List Char)
  | [], data => some data
  | _ :: _, [] => none
  | c :: token, d :: data => if c = d then readJsonToken token data else none

theorem readJsonToken_append (token rest : List Char) : readJsonToken token (token ++ rest) = some rest := by
  induction token with
  | nil => rfl
  | cons c token ih => simp [readJsonToken, ih]

/-- No two escapes have one letter. -/
theorem jsonEscapes_letter : ∀ escape ∈ jsonEscapes, jsonEscapes.find? (·.2 = escape.2) = some escape := by
  decide

/-- An escape stands for its character, and a character without one for itself. -/
theorem readJsonChars_char (c : Char) (text : List Char) :
    readJsonChars (jsonChar c ++ text) = (readJsonChars text).bind fun (found, rest) => some (c :: found, rest) := by
  unfold jsonChar
  split
  · rename_i letter escaped
    obtain ⟨before, after, listed, -⟩ := List.lookup_eq_some_iff.mp escaped
    have member : (c, letter) ∈ jsonEscapes := listed ▸ List.mem_append_right _ List.mem_cons_self
    have back : jsonEscapes.find? (·.2 = letter) = some (c, letter) := jsonEscapes_letter _ member
    simp [readJsonChars, back]
  · rename_i plain
    have quote : c ≠ '"' := by
      rintro rfl
      cases plain
    have backslash : c ≠ '\\' := by
      rintro rfl
      cases plain
    rw [List.singleton_append, readJsonChars]
    · rfl
    · exact quote
    · exact fun _ _ same _ => backslash same

theorem readJsonChars_flatMap (text rest : List Char) :
    readJsonChars (text.flatMap jsonChar ++ '"' :: rest) = some (text, rest) := by
  induction text with
  | nil => simp [readJsonChars]
  | cons c text ih => rw [List.flatMap_cons, List.append_assoc, readJsonChars_char, ih]; rfl

theorem readJsonText_jsonText (text : String) (rest : List Char) :
    readJsonText (jsonText text ++ rest) = some (text, rest) := by
  simp [readJsonText, jsonText, readJsonChars_flatMap]

/-- A number is read to its end where no digit follows. -/
theorem readJsonNumber_jsonNumber (number : UInt32) {c : Char} (ends : c.isDigit = false) (rest : List Char) :
    readJsonNumber (jsonNumber number ++ c :: rest) = some (number, c :: rest) := by
  have digits : ∀ d ∈ jsonNumber number, d.isDigit = true := fun d member =>
    Nat.isDigit_of_mem_toDigits (by decide) (by decide) member
  have taken : (jsonNumber number ++ c :: rest).takeWhile Char.isDigit = jsonNumber number := by
    rw [List.takeWhile_append_of_pos digits]
    simp [ends]
  have left : (jsonNumber number ++ c :: rest).dropWhile Char.isDigit = c :: rest := by
    rw [List.dropWhile_append_of_pos digits]
    simp [ends]
  have some_digit : jsonNumber number ≠ [] := Nat.toDigits_ne_nil
  have value : Nat.ofDigitChars 10 (jsonNumber number) 0 = number.toNat :=
    Nat.ofDigitChars_toDigits (by decide) (by decide)
  rw [readJsonNumber, taken, left]
  simp [some_digit, value]

/-! ## The status -/

def beforeName : List Char := "\x7b\"version\":\x7b\"name\":".toList
def beforeProtocol : List Char := ",\"protocol\":".toList
def beforeOnline : List Char := "\x7d,\"players\":\x7b\"online\":".toList
def beforeMax : List Char := ",\"max\":".toList
def beforeDescription : List Char := ",\"sample\":[]\x7d,\"description\":".toList
def beforeFavicon : List Char := ",\"favicon\":".toList
def jsonNull : List Char := "null".toList

/-- The sample of the players online is left empty. -/
def statusJson (status : ServerStatus) : List Char :=
  beforeName ++ (jsonText status.version.name ++
    (beforeProtocol ++ (jsonNumber status.version.protocol ++
    (beforeOnline ++ (jsonNumber status.players.online ++
    (beforeMax ++ (jsonNumber status.players.max ++
    (beforeDescription ++ (jsonText status.description ++
    (beforeFavicon ++ ((status.favicon.map jsonText).getD jsonNull ++ ['\x7d'])))))))))))

def readStatusJson (json : List Char) : Option ServerStatus := do
  let rest ← readJsonToken beforeName json
  let (name, rest) ← readJsonText rest
  let rest ← readJsonToken beforeProtocol rest
  let (protocol, rest) ← readJsonNumber rest
  let rest ← readJsonToken beforeOnline rest
  let (online, rest) ← readJsonNumber rest
  let rest ← readJsonToken beforeMax rest
  let (max, rest) ← readJsonNumber rest
  let rest ← readJsonToken beforeDescription rest
  let (description, rest) ← readJsonText rest
  let rest ← readJsonToken beforeFavicon rest
  let favicon ← if (readJsonToken jsonNull rest).isSome then some none
    else (readJsonText rest).map fun (favicon, _) => some favicon
  return { version := ⟨name, protocol⟩, players := ⟨online, max⟩, description, favicon }

theorem readStatusJson_statusJson (status : ServerStatus) :
    readStatusJson (statusJson status) = some status := by
  obtain ⟨⟨name, protocol⟩, ⟨online, max⟩, description, favicon⟩ := status
  have online_ends (value : UInt32) (rest : List Char) : readJsonNumber (jsonNumber value ++ (beforeOnline ++ rest)) =
      some (value, beforeOnline ++ rest) := readJsonNumber_jsonNumber value (c := '\x7d') rfl _
  have max_ends (value : UInt32) (rest : List Char) : readJsonNumber (jsonNumber value ++ (beforeMax ++ rest)) =
      some (value, beforeMax ++ rest) := readJsonNumber_jsonNumber value (c := ',') rfl _
  have description_ends (value : UInt32) (rest : List Char) :
      readJsonNumber (jsonNumber value ++ (beforeDescription ++ rest)) =
        some (value, beforeDescription ++ rest) := readJsonNumber_jsonNumber value (c := ',') rfl _
  simp only [statusJson, readStatusJson, readJsonToken_append, readJsonText_jsonText, Option.bind_eq_bind,
    Option.bind_some, online_ends, max_ends, description_ends]
  cases favicon with
  | none => simp [readJsonToken_append]
  | some favicon =>
    have text : readJsonToken jsonNull (jsonText favicon ++ ['\x7d']) = none := rfl
    simp [text, readJsonText_jsonText]

/-! ## The packets -/

def encodeStatus (status : ServerStatus) : List UInt8 := writeText (String.ofList (statusJson status))

def decodeStatus (lib : Codecs) (data : List UInt8) : Option ServerStatus := do
  let (json, _) ← readText lib data
  readStatusJson json.toList

theorem decodeStatus_encodeStatus {lib : Codecs} (standard : lib.Standard) {status : ServerStatus}
    (fits : (String.ofList (statusJson status)).utf8ByteSize < 2 ^ 31) :
    decodeStatus lib (encodeStatus status) = some status := by
  have read := readText_writeText standard fits []
  rw [List.append_nil] at read
  simp [decodeStatus, encodeStatus, read, readStatusJson_statusJson]

/-- A chat message that is one text. -/
def encodeMessage (text : String) : List UInt8 :=
  writeText (String.ofList ("\x7b\"text\":".toList ++ jsonText text ++ ['\x7d']))

/-- The time of a ping, its highest byte first. -/
def encodeTime (time : UInt64) : List UInt8 :=
  (List.range 8).map fun place => (time >>> (56 - 8 * place.toUInt64)).toUInt8

def decodeTime (data : List UInt8) : Option UInt64 :=
  if data.length < 8 then none
  else some (UInt64.ofNat ((data.take 8).foldl (fun time byte => 256 * time + byte.toNat) 0))

theorem decodeTime_encodeTime (time : UInt64) : decodeTime (encodeTime time) = some time := by
  have bytes : (encodeTime time).map UInt8.toNat =
      (List.range 8).map fun place => time.toNat / 256 ^ (7 - place) % 256 := by
    simp [encodeTime, List.range_succ, Nat.shiftRight_eq_div_pow]
  have value : (encodeTime time).foldl (fun time byte => 256 * time + byte.toNat) 0 = time.toNat := by
    have below := time.toNat_lt
    rw [← List.foldl_map, bytes]
    simp only [List.range_succ, List.range_zero, List.nil_append, List.cons_append, List.map_cons, List.map_nil,
      List.foldl_cons, List.foldl_nil]
    omega
  have length : (encodeTime time).length = 8 := by simp [encodeTime]
  have all : (encodeTime time).take 8 = encodeTime time := List.take_of_length_le length.le
  rw [decodeTime, if_neg (by omega), all, value]
  simp

end PlexPaper
