import Mathlib.Data.List.TakeDrop
import Mathlib.Data.List.TakeWhile
import PlexPaper.FileWatcher
import PlexPaper.KeyedLines

/-! The lines of `server.properties`: how a text splits into lines, how a line splits at its
first `=`, and which key it defines. A carriage return belongs to a line end only in front
of a line feed; any other one stays in its line. -/
namespace PlexPaper.ServerProperties
open FileWatcher

/-- `server_properties::EOL`. -/
def EOL : String := "\r\n"

/-! ## Lines -/

/-- A line at its line feed, back to front: one carriage return in front of it is dropped. -/
def closeLine : List Char → List Char
  | '\r' :: line => line.reverse
  | line => line.reverse

theorem linesFrom_feed (line rest : List Char) :
    Lobby.linesFrom line ('\n' :: rest) = closeLine line :: Lobby.linesFrom [] rest := by
  unfold closeLine
  split
  · rw [Lobby.linesFrom]
  · rename_i bare
    rw [Lobby.linesFrom]
    exact bare

theorem linesFrom_other {c : Char} (other : c ≠ '\n') (line rest : List Char) :
    Lobby.linesFrom line (c :: rest) = Lobby.linesFrom (c :: line) rest := by
  rw [Lobby.linesFrom]
  exact other

theorem linesFrom_append (line x y : List Char) :
    Lobby.linesFrom line (x ++ '\r' :: '\n' :: y) =
      Lobby.linesFrom line (x ++ ['\r', '\n']) ++ Lobby.linesFrom [] y := by
  induction x generalizing line with
  | nil =>
    simp only [List.nil_append, linesFrom_other (show '\r' ≠ '\n' by decide), linesFrom_feed]
    rfl
  | cons c x ih =>
    by_cases feed : c = '\n'
    · subst feed
      simp only [List.cons_append, linesFrom_feed, ih]
    · simp only [List.cons_append, linesFrom_other feed, ih]

/-- A line end behind a text ends its last line, or is an empty line of its own. -/
theorem linesFrom_end (line x : List Char) :
    Lobby.linesFrom line (x ++ ['\r', '\n']) = Lobby.linesFrom line x ∨
      Lobby.linesFrom line (x ++ ['\r', '\n']) = Lobby.linesFrom line x ++ [[]] := by
  induction x generalizing line with
  | nil =>
    rw [List.nil_append, linesFrom_other (by decide), linesFrom_feed]
    cases line with
    | nil => exact .inr rfl
    | cons c line => exact .inl rfl
  | cons c x ih =>
    by_cases feed : c = '\n'
    · subst feed
      simp only [List.cons_append, linesFrom_feed, List.cons.injEq, true_and]
      exact ih []
    · simp only [List.cons_append, linesFrom_other feed]
      exact ih (c :: line)

/-- Without a line feed there is one line, or none in an empty text. -/
theorem linesFrom_single {x : List Char} (whole : '\n' ∉ x) (line : List Char) :
    Lobby.linesFrom line x = Lobby.linesFrom (x.reverse ++ line) [] ∧
      Lobby.linesFrom line (x ++ ['\r', '\n']) = [line.reverse ++ x] := by
  induction x generalizing line with
  | nil =>
    rw [List.nil_append, linesFrom_other (by decide), linesFrom_feed]
    exact ⟨rfl, by simp [closeLine, Lobby.linesFrom]⟩
  | cons c x ih =>
    rw [List.mem_cons, not_or] at whole
    obtain ⟨left, ended⟩ := ih whole.2 (c :: line)
    rw [List.cons_append, linesFrom_other (Ne.symm whole.1), linesFrom_other (Ne.symm whole.1), left, ended]
    simp

theorem not_mem_closeLine {line : List Char} (whole : '\n' ∉ line) : '\n' ∉ closeLine line := by
  unfold closeLine
  split
  · simp_all
  · simpa using whole

theorem not_mem_linesFrom {line : List Char} (x : List Char) (whole : '\n' ∉ line) :
    ∀ found ∈ Lobby.linesFrom line x, '\n' ∉ found := by
  induction x generalizing line with
  | nil =>
    intro found member
    rw [Lobby.linesFrom] at member
    split at member
    · cases member
    · rw [List.mem_singleton.mp member]
      simpa using whole
  | cons c x ih =>
    intro found member
    by_cases feed : c = '\n'
    · subst feed
      rw [linesFrom_feed, List.mem_cons] at member
      rcases member with rfl | later
      · exact not_mem_closeLine whole
      · exact ih (by simp) found later
    · rw [linesFrom_other feed] at member
      exact ih (by simp [Ne.symm feed, whole]) found member

/-! ## Texts -/

theorem EOL_toList : EOL.toList = ['\r', '\n'] := rfl

theorem lines_append (x y : String) :
    Lobby.lines (x ++ EOL ++ y) = Lobby.lines (x ++ EOL) ++ Lobby.lines y := by
  simp only [Lobby.lines, String.toList_append, EOL_toList, List.append_assoc, List.cons_append,
    List.nil_append]
  rw [linesFrom_append, List.map_append]

theorem lines_end (x : String) : Lobby.lines (x ++ EOL) = Lobby.lines x ∨
    Lobby.lines (x ++ EOL) = Lobby.lines x ++ [""] := by
  simp only [Lobby.lines, String.toList_append, EOL_toList]
  rcases linesFrom_end [] x.toList with same | more
  · exact .inl (by rw [same])
  · exact .inr (by rw [more, List.map_append]; rfl)

/-- The lines of a text that is more than an empty line. -/
theorem mem_lines_end {x line : String} (visible : line ≠ "") :
    line ∈ Lobby.lines (x ++ EOL) ↔ line ∈ Lobby.lines x := by
  rcases lines_end x with same | more
  · rw [same]
  · rw [more]
    simp [visible]

theorem lines_end_single {x : String} (whole : '\n' ∉ x.toList) : Lobby.lines (x ++ EOL) = [x] := by
  simp [Lobby.lines, String.toList_append, EOL_toList, (linesFrom_single whole []).2]

theorem lines_single {x : String} (whole : '\n' ∉ x.toList) (visible : x ≠ "") :
    Lobby.lines x = [x] := by
  have some : x.toList ≠ [] := by simpa using visible
  simp [Lobby.lines, (linesFrom_single whole []).1, Lobby.linesFrom, some]

theorem not_mem_lines {text line : String} (member : line ∈ Lobby.lines text) : '\n' ∉ line.toList := by
  obtain ⟨chars, found, rfl⟩ := List.mem_map.mp member
  rw [String.toList_ofList]
  exact not_mem_linesFrom text.toList (by simp) chars found

/-! ## What a line defines -/

/-- `str::split_once` splits at the first `=`. -/
theorem splitOnce_eq_some_iff {line key value : String} :
    splitOnce line = some (key, value) ↔ line = key ++ "=" ++ value ∧ '=' ∉ key.toList := by
  unfold splitOnce
  rw [List.span_eq_takeWhile_dropWhile]
  constructor
  · intro split
    have all := List.takeWhile_append_dropWhile (p := fun c => decide (c ≠ '=')) (l := line.toList)
    have sign := List.head?_dropWhile_not (fun c => decide (c ≠ '=')) line.toList
    rcases rest : line.toList.dropWhile (fun c => decide (c ≠ '=')) with _ | ⟨c, after⟩
    · rw [rest] at split
      cases split
    · rw [rest] at split all sign
      cases split
      have equals : c = '=' := by simpa using sign
      subst equals
      constructor
      · apply String.toList_inj.mp
        simpa [String.toList_append] using all.symm
      · rw [String.toList_ofList]
        intro member
        simpa using List.mem_takeWhile_imp member
  · rintro ⟨rfl, free⟩
    have keep : ∀ c ∈ key.toList, decide (c ≠ '=') = true := by
      intro c member
      rw [decide_eq_true_eq]
      rintro rfl
      exact free member
    have chars : (key ++ "=" ++ value).toList = key.toList ++ '=' :: value.toList := by
      simp [String.toList_append]
    rw [chars, List.takeWhile_append_of_pos keep, List.dropWhile_append_of_pos keep]
    simp

/-- What stands first in a text that is trimmed. -/
theorem trim_head (s : String) : (trim s).toList.head? = (s.toList.dropWhile isWhitespace).head? := by
  rw [trim, String.toList_ofList, List.head?_reverse]
  rcases visible : s.toList.dropWhile isWhitespace with _ | ⟨c, rest⟩
  · rfl
  · have first : isWhitespace c = false := by
      have sign := List.head?_dropWhile_not isWhitespace s.toList
      rw [visible] at sign
      simpa using sign
    rw [List.reverse_cons, List.dropWhile_append]
    split
    · simp [first]
    · simp

/-- The tables of Unicode for `str::to_lowercase`: what a character becomes where it stands.
Only that of a sigma depends on what is around it. -/
structure CaseMapping where
  lower : (before : List Char) → Char → (after : List Char) → List Char
  lower_hash : ∀ before after, lower before '#' after = ['#']

namespace CaseMapping

variable (mapping : CaseMapping)

def lowerFrom (before : List Char) : List Char → List Char
  | [] => []
  | c :: rest => mapping.lower before c rest ++ lowerFrom (c :: before) rest

/-- `str::to_lowercase`. -/
def toLowercase (s : String) : String := .ofList (mapping.lowerFrom [] s.toList)

end CaseMapping

/-- `str::starts_with`, for a character. -/
def startsWith (s : String) (c : Char) : Bool := s.toList.head? = some c

/-- The line is a comment, or empty. -/
def isComment (line : String) : Bool := startsWith (trim line) '#' || trim line = ""

/-- Whether a line with a `=` is a comment depends on what stands in front of that. -/
theorem isComment_split (key value : String) :
    isComment (key ++ "=" ++ value) = startsWith (trim key) '#' := by
  have sign : isWhitespace '=' = false := by decide
  have chars : (key ++ "=" ++ value).toList = key.toList ++ '=' :: value.toList := by
    simp [String.toList_append]
  have head : (trim (key ++ "=" ++ value)).toList.head? =
      some ((trim key).toList.head?.getD '=') := by
    rw [trim_head, trim_head, chars, List.dropWhile_append]
    rcases key.toList.dropWhile isWhitespace with _ | ⟨c, rest⟩ <;> simp [sign]
  have visible : trim (key ++ "=" ++ value) ≠ "" := by
    intro empty
    rw [empty] at head
    cases head
  rw [isComment, decide_eq_false visible, Bool.or_false, startsWith, startsWith, head]
  cases (trim key).toList.head? <;> simp

variable (mapping : CaseMapping)

/-- The name of a property, as both functions compare it. -/
def nameOf (key : String) : String := mapping.toLowercase (trim key)

/-- The property that a line is for `read_property`. -/
def readBy (line : String) : Option String := (splitOnce line).map fun split => nameOf mapping split.1

/-- The property that a line is for `rewrite_contents`. -/
def definedBy (line : String) : Option String := if isComment line then none else readBy mapping line

/-- What stands behind the first `=` of a line. -/
def valueOf (line : String) : String := ((splitOnce line).map Prod.snd).getD ""

/-- The line with another value. -/
def setValue (line new : String) : String :=
  match splitOnce line with
  | none => line
  | some (key, _) => key ++ "=" ++ new

/-- A line that is written for a property. -/
def entry (change : String × String) : String := change.1 ++ "=" ++ change.2

variable {mapping} {line name : String}

theorem splitOnce_setValue (new : String) {key value : String}
    (split : splitOnce line = some (key, value)) : splitOnce (setValue line new) = some (key, new) := by
  rw [setValue, split]
  exact splitOnce_eq_some_iff.mpr ⟨rfl, (splitOnce_eq_some_iff.mp split).2⟩

theorem readBy_setValue (new : String) : readBy mapping (setValue line new) = readBy mapping line := by
  unfold readBy
  rcases split : splitOnce line with _ | ⟨key, value⟩
  · rw [setValue, split]
    dsimp only
    rw [split]
  · rw [splitOnce_setValue new split]
    rfl

theorem definedBy_eq_some_iff : definedBy mapping line = some name ↔ ∃ key value,
    splitOnce line = some (key, value) ∧ startsWith (trim key) '#' = false ∧ nameOf mapping key = name := by
  unfold definedBy readBy
  rcases split : splitOnce line with _ | ⟨key, value⟩
  · simp
  · obtain ⟨rfl, -⟩ := splitOnce_eq_some_iff.mp split
    rw [isComment_split]
    cases hash : startsWith (trim key) '#' <;> simp [hash]

theorem definedBy_setValue (new : String) (keyed : definedBy mapping line = some name) :
    definedBy mapping (setValue line new) = some name := by
  obtain ⟨key, value, split, bare, same⟩ := definedBy_eq_some_iff.mp keyed
  exact definedBy_eq_some_iff.mpr ⟨key, new, splitOnce_setValue new split, bare, same⟩

theorem valueOf_setValue (new : String) (keyed : definedBy mapping line = some name) :
    valueOf (setValue line new) = new := by
  obtain ⟨key, value, split, -, -⟩ := definedBy_eq_some_iff.mp keyed
  rw [valueOf, splitOnce_setValue new split]
  rfl

theorem readBy_of_definedBy (keyed : definedBy mapping line = some name) :
    readBy mapping line = some name := by
  obtain ⟨key, value, split, -, same⟩ := definedBy_eq_some_iff.mp keyed
  rw [readBy, split, ← same]
  rfl

/-- A name that starts with `#` is that of a comment, and only such a name is. -/
theorem definedBy_of_readBy (bare : startsWith name '#' = false) (keyed : readBy mapping line = some name) :
    definedBy mapping line = some name := by
  obtain ⟨⟨key, value⟩, split, same⟩ := Option.map_eq_some_iff.mp keyed
  refine definedBy_eq_some_iff.mpr ⟨key, value, split, ?_, same⟩
  by_contra hash
  subst same
  have first : (trim key).toList.head? = some '#' := by simpa [startsWith] using hash
  rcases chars : (trim key).toList with _ | ⟨c, rest⟩
  · rw [chars] at first
    cases first
  · rw [chars] at first
    cases first
    simp [startsWith, nameOf, CaseMapping.toLowercase, chars, CaseMapping.lowerFrom,
      mapping.lower_hash] at bare

/-- An empty line is no property. -/
theorem readBy_blank : readBy mapping "" = none := rfl

theorem definedBy_blank : definedBy mapping "" = none := by
  rw [definedBy, readBy_blank, ite_self]

/-- The lines of a properties file, by the property they define. -/
def properties (mapping : CaseMapping) : KeyedLines.Format String String String where
  key := definedBy mapping
  value := valueOf
  set := setValue
  key_set := definedBy_setValue
  value_set := valueOf_setValue

@[simp] theorem properties_key : (properties mapping).key = definedBy mapping := by
  rw [properties]

@[simp] theorem properties_value : (properties mapping).value = valueOf := rfl
@[simp] theorem properties_set : (properties mapping).set = setValue := rfl

end PlexPaper.ServerProperties
