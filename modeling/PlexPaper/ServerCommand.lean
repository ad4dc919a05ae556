import Mathlib.Data.List.TakeWhile
import PlexPaper.Access

/-! The command that starts the server, from `config.rs`, as `invoke_server_cmd` takes it
apart again. The arguments are edited one after the other: a `-jar` where there is none,
a jar name behind a `-jar` that is last, and a `--nogui` where there is none. Quoting is
third-party, kept as a parameter. -/
namespace PlexPaper.ServerCommand

def JAVA_BIN : String := "java"
def JAR_DEFAULT : String := "server.jar"
def JAVA_ARGS_DEFAULT : List String :=
  ["-Xms128M", "-XX:MaxRAMPercentage=75.0", "-Dterminal.jline=false", "-Dterminal.ansi=true", "-jar"]

/-- What `shlex` does for the command: `try_quote` of a word, and `split`. `none` is their
error. -/
structure Shlex where
  tryQuote : String → Option String
  split : String → Option (List String)

/-- `env_string`, of what the environment has for a key. -/
def envString (value : Option String) : Option String := (value.map trim).filter (· ≠ "")

section

variable (shlex : Shlex) (jarfile : Option String)

/-- `jar_file`, where `jarfile` is what the environment has for `SERVER_JARFILE`. -/
def jarFile : String := (envString jarfile).getD JAR_DEFAULT

/-- The arguments that `build_command` is given, without blank ones, or the defaults. -/
def givenArgs (javaArgs : List String) : List String :=
  let args := (javaArgs.map trim).filter (· ≠ "")
  if args = [] then JAVA_ARGS_DEFAULT else args

/-- The arguments as `build_command` quotes them. -/
def commandArgs (javaArgs : List String) : List String :=
  let args := givenArgs javaArgs
  let args := if !args.any (· == "-jar") then args ++ ["-jar"] else args
  let args := if (args.getLast?.map (· == "-jar")).getD false then args ++ [jarFile jarfile] else args
  if !args.any (· == "--nogui") then args ++ ["--nogui"] else args

def buildCommand (javaArgs : List String) : String :=
  " ".intercalate ((JAVA_BIN :: commandArgs jarfile javaArgs).map fun part =>
    (shlex.tryQuote part).getD part)

/-- The words that `invoke_server_cmd` starts the server with. -/
def invokedWords (javaArgs : List String) : Option (List String) :=
  shlex.split (buildCommand shlex jarfile javaArgs)

end

/-! ## What the command is to be -/

/-- Java does not take the word for an option. -/
def JarName (word : String) : Prop := word.toList.head? ≠ some '-'
deriving Decidable

/-- The words behind the first `-jar`. -/
def behindJar (words : List String) : List String := (words.dropWhile (· ≠ "-jar")).tail

/-- What the server is to be started with: java, the arguments in their order with no more
than a `-jar`, a jar and a `--nogui` put to them, a jar behind the first `-jar`, and a
`--nogui` behind the jar. -/
structure StartsJar (jar : String) (given words : List String) : Prop where
  args : ∃ more, words = JAVA_BIN :: (given ++ more) ∧ more.Sublist ["-jar", jar, "--nogui"]
  named : ∃ name after, behindJar words = name :: after ∧ JarName name ∧ "--nogui" ∈ after

/-- The arguments leave room for that: the word behind their first `-jar`, or else the name
that is to be inserted, is no option, and a `--nogui` of their own stands behind it. -/
structure LeavesRoom (jar : String) (given : List String) : Prop where
  name : JarName ((behindJar given).headD jar)
  nogui : "--nogui" ∈ given →
    "--nogui" ∈ behindJar given ∨ given.getLast? = some "-jar" ∧ jar = "--nogui"

/-! ## The edits -/

theorem behindJar_append {words : List String} (member : "-jar" ∈ words) (more : List String) :
    behindJar (words ++ more) = behindJar words ++ more := by
  have rest : words.dropWhile (· ≠ "-jar") ≠ [] := by
    intro nothing
    have all := List.dropWhile_eq_nil_iff.mp nothing _ member
    simp at all
  rw [behindJar, behindJar, List.dropWhile_append, if_neg (by simpa using rest),
    List.tail_append_of_ne_nil rest]

theorem dropWhile_of_not_mem {words : List String} (missing : "-jar" ∉ words) :
    words.dropWhile (· ≠ "-jar") = [] := by
  rw [List.dropWhile_eq_nil_iff]
  intro word member
  rw [decide_eq_true_eq]
  rintro rfl
  exact missing member

theorem behindJar_of_not_mem {words : List String} (missing : "-jar" ∉ words) : behindJar words = [] := by
  rw [behindJar, dropWhile_of_not_mem missing]
  rfl

theorem behindJar_insert {words : List String} (missing : "-jar" ∉ words) (jar : String) :
    behindJar (words ++ ["-jar", jar]) = [jar] := by
  rw [behindJar, List.dropWhile_append, dropWhile_of_not_mem missing]
  simp

theorem behindJar_cons {word : String} (other : word ≠ "-jar") (words : List String) :
    behindJar (word :: words) = behindJar words := by
  rw [behindJar, List.dropWhile_cons_of_pos (by simpa using other)]
  rfl

/-- Nothing stands behind the first `-jar` only if that is the last word. -/
theorem getLast?_of_behindJar {words : List String} (member : "-jar" ∈ words)
    (nothing : behindJar words = []) : words.getLast? = some "-jar" := by
  induction words with
  | nil => cases member
  | cons word words ih =>
    by_cases same : word = "-jar"
    · subst same
      have alone : words = [] := by simpa [behindJar] using nothing
      rw [alone]
      rfl
    · have later : "-jar" ∈ words := by simpa [Ne.symm same] using member
      rw [behindJar_cons same] at nothing
      rw [List.getLast?_cons, ih later nothing]
      rfl

/-- The arguments with a jar to start: the first two edits. -/
def withJar (jar : String) (given : List String) : List String :=
  if "-jar" ∈ given then if given.getLast? = some "-jar" then given ++ [jar] else given
  else given ++ ["-jar", jar]

theorem commandArgs_eq (jarfile : Option String) (javaArgs : List String) :
    commandArgs jarfile javaArgs =
      if "--nogui" ∈ withJar (jarFile jarfile) (givenArgs javaArgs) then
        withJar (jarFile jarfile) (givenArgs javaArgs)
      else withJar (jarFile jarfile) (givenArgs javaArgs) ++ ["--nogui"] := by
  have any_iff (word : String) (words : List String) : words.any (· == word) = true ↔ word ∈ words := by
    simp
  have last_iff (words : List String) : (words.getLast?.map (· == "-jar")).getD false = true ↔
      words.getLast? = some "-jar" := by
    cases words.getLast? <;> simp
  unfold commandArgs withJar
  simp only [Bool.not_eq_true', ← Bool.not_eq_true, any_iff, last_iff]
  by_cases jar : "-jar" ∈ givenArgs javaArgs
  · simp only [jar, not_true_eq_false, if_false, if_true, ite_not]
  · have last : (givenArgs javaArgs ++ ["-jar"]).getLast? = some "-jar" := by simp
    have both : givenArgs javaArgs ++ ["-jar"] ++ [jarFile jarfile] =
        givenArgs javaArgs ++ ["-jar", jarFile jarfile] := by simp
    simp only [jar, not_false_eq_true, if_true, if_false, last, both, ite_not]

/-- Behind the first `-jar` there is a word then, its own or the one that is inserted. -/
theorem behindJar_withJar (jar : String) (given : List String) :
    ∃ after, behindJar (withJar jar given) = (behindJar given).headD jar :: after := by
  unfold withJar
  by_cases member : "-jar" ∈ given
  · rw [if_pos member]
    cases behind : behindJar given with
    | nil =>
      rw [if_pos (getLast?_of_behindJar member behind), behindJar_append member, behind]
      exact ⟨[], rfl⟩
    | cons name after =>
      split
      · rw [behindJar_append member, behind]
        exact ⟨after ++ [jar], rfl⟩
      · rw [behind]
        exact ⟨after, rfl⟩
  · rw [if_neg member, behindJar_of_not_mem member, behindJar_insert member]
    exact ⟨[], rfl⟩

theorem jar_mem_withJar (jar : String) (given : List String) : "-jar" ∈ withJar jar given := by
  unfold withJar
  split
  · split
    · simp [*]
    · assumption
  · simp

/-- A `--nogui` is there before the last edit if it was given, or is what is inserted as the
name of the jar. -/
theorem nogui_mem_withJar {jar : String} {given : List String} (member : "--nogui" ∈ withJar jar given)
    (named : JarName ((behindJar given).headD jar)) :
    "--nogui" ∈ behindJar (withJar jar given) ↔ ("--nogui" ∈ given →
      "--nogui" ∈ behindJar given ∨ given.getLast? = some "-jar" ∧ jar = "--nogui") := by
  unfold withJar at member ⊢
  by_cases inside : "-jar" ∈ given
  · rw [if_pos inside] at member ⊢
    by_cases last : given.getLast? = some "-jar"
    · rw [if_pos last] at member ⊢
      rw [behindJar_append inside]
      simp only [List.mem_append, List.mem_singleton, last, true_and] at member ⊢
      constructor
      · rintro (behind | rfl) _
        · exact .inl behind
        · exact .inr rfl
      · intro room
        rcases member with own | same
        · exact (room own).imp_right Eq.symm
        · exact .inr same
    · rw [if_neg last] at member ⊢
      simp [member, last]
  · rw [behindJar_of_not_mem inside] at named ⊢
    rw [if_neg inside] at member ⊢
    have other : jar ≠ "--nogui" := by
      rintro rfl
      exact named rfl
    have own : "--nogui" ∈ given := by simpa [Ne.symm other] using member
    rw [behindJar_insert inside]
    simp [own, other, Ne.symm other]

/-- The first two edits only put words behind the ones that are given. -/
theorem withJar_extends (jar : String) (given : List String) :
    ∃ more, withJar jar given = given ++ more ∧ more.Sublist ["-jar", jar] := by
  unfold withJar
  split
  · split
    · exact ⟨[jar], rfl, .cons _ (.refl _)⟩
    · exact ⟨[], (List.append_nil _).symm, List.nil_sublist _⟩
  · exact ⟨["-jar", jar], rfl, .refl _⟩

theorem commandArgs_extends (jarfile : Option String) (javaArgs : List String) :
    ∃ more, commandArgs jarfile javaArgs = givenArgs javaArgs ++ more ∧
      more.Sublist ["-jar", jarFile jarfile, "--nogui"] := by
  obtain ⟨more, same, allowed⟩ := withJar_extends (jarFile jarfile) (givenArgs javaArgs)
  rw [commandArgs_eq, same]
  split
  · exact ⟨more, rfl, allowed.trans (List.sublist_append_left _ ["--nogui"])⟩
  · exact ⟨more ++ ["--nogui"], List.append_assoc .., allowed.append (.refl ["--nogui"])⟩

/-- The words start a jar exactly when the arguments leave room for one. -/
theorem startsJar_iff (jarfile : Option String) (javaArgs : List String) :
    StartsJar (jarFile jarfile) (givenArgs javaArgs) (JAVA_BIN :: commandArgs jarfile javaArgs) ↔
      LeavesRoom (jarFile jarfile) (givenArgs javaArgs) := by
  have java : behindJar (JAVA_BIN :: commandArgs jarfile javaArgs) =
      behindJar (commandArgs jarfile javaArgs) := behindJar_cons (by decide) _
  obtain ⟨more, extends_, allowed⟩ := commandArgs_extends jarfile javaArgs
  have inserted : ∃ more, JAVA_BIN :: commandArgs jarfile javaArgs =
      JAVA_BIN :: (givenArgs javaArgs ++ more) ∧ more.Sublist ["-jar", jarFile jarfile, "--nogui"] :=
    ⟨more, by rw [extends_], allowed⟩
  obtain ⟨after, behind⟩ := behindJar_withJar (jarFile jarfile) (givenArgs javaArgs)
  by_cases present : "--nogui" ∈ withJar (jarFile jarfile) (givenArgs javaArgs)
  · have edits := commandArgs_eq jarfile javaArgs
    rw [if_pos present] at edits
    rw [← edits] at behind
    constructor
    · rintro ⟨-, name, rest, words, named, inside⟩
      rw [java, behind] at words
      cases words
      refine ⟨named, (nogui_mem_withJar present named).mp ?_⟩
      rw [← edits, behind]
      exact List.mem_cons_of_mem _ inside
    · rintro ⟨named, room⟩
      have found := (nogui_mem_withJar present named).mpr room
      rw [← edits, behind, List.mem_cons] at found
      refine ⟨inserted, _, after, by rw [java, behind], named, found.resolve_left ?_⟩
      intro same
      rw [← same] at named
      exact named rfl
  · have edits := commandArgs_eq jarfile javaArgs
    rw [if_neg present] at edits
    have behind_all : behindJar (commandArgs jarfile javaArgs) =
        (behindJar (givenArgs javaArgs)).headD (jarFile jarfile) :: (after ++ ["--nogui"]) := by
      rw [edits, behindJar_append (jar_mem_withJar ..), behind]
      rfl
    constructor
    · rintro ⟨-, name, rest, words, named, -⟩
      rw [java, behind_all] at words
      cases words
      refine ⟨named, fun own => absurd ?_ present⟩
      obtain ⟨early, same, -⟩ := withJar_extends (jarFile jarfile) (givenArgs javaArgs)
      rw [same]
      exact List.mem_append_left _ own
    · rintro ⟨named, -⟩
      exact ⟨inserted, _, _, by rw [java, behind_all], named, by simp⟩

/-! ## Quoting -/

/-- A word without a NUL. -/
def NulFree (word : String) : Prop := Char.ofNat 0 ∉ word.toList
deriving Decidable

/-- The words that are not given are without one. -/
theorem own_nulFree : ∀ word ∈ [JAVA_BIN, "-jar", "--nogui", JAR_DEFAULT] ++ JAVA_ARGS_DEFAULT,
    NulFree word := by
  decide +kernel

/-- Words that are quoted and joined with spaces are split into themselves. -/
def Shlex.Inverts (shlex : Shlex) : Prop := ∀ words : List String, (∀ word ∈ words, NulFree word) →
  ∃ quoted, words.mapM shlex.tryQuote = some quoted ∧ shlex.split (" ".intercalate quoted) = some words

/-- No word falls back on being written as it is then. -/
theorem map_tryQuote {shlex : Shlex} {words quoted : List String}
    (quotes : words.mapM shlex.tryQuote = some quoted) :
    (words.map fun part => (shlex.tryQuote part).getD part) = quoted := by
  induction words generalizing quoted with
  | nil =>
    simp only [List.mapM_nil, Option.pure_def, Option.some.injEq] at quotes
    exact quotes
  | cons word words ih =>
    simp only [List.mapM_cons, Option.bind_eq_bind, Option.bind_eq_some_iff, Option.pure_def,
      Option.some.injEq] at quotes
    obtain ⟨first, quote, rest, others, rfl⟩ := quotes
    rw [List.map_cons, quote, ih others]
    rfl

theorem NulFree.trim {word : String} (free : NulFree word) : NulFree (trim word) := by
  intro member
  apply free
  rw [PlexPaper.trim, String.toList_ofList, List.mem_reverse] at member
  have inner := (List.dropWhile_sublist _).subset member
  exact (List.dropWhile_sublist _).subset (List.mem_reverse.mp inner)

theorem jarFile_nulFree {jarfile : Option String} (free : ∀ jar ∈ jarfile, NulFree jar) :
    NulFree (jarFile jarfile) := by
  unfold jarFile envString
  cases jarfile with
  | none => exact own_nulFree _ (by simp)
  | some jar =>
    by_cases blank : trim jar = ""
    · have default : (Option.filter (· ≠ "") (some (trim jar))).getD JAR_DEFAULT = JAR_DEFAULT := by
        rw [blank, Option.filter_some_neg (by decide)]
        rfl
      rw [Option.map_some, default]
      exact own_nulFree _ (by simp)
    · simpa [blank, Option.filter] using (free jar rfl).trim

theorem givenArgs_nulFree {javaArgs : List String} (free : ∀ arg ∈ javaArgs, NulFree arg) :
    ∀ arg ∈ givenArgs javaArgs, NulFree arg := by
  unfold givenArgs
  dsimp only
  split
  · exact fun arg member => own_nulFree arg (List.mem_append_right _ member)
  · intro arg member
    obtain ⟨given, inside, rfl⟩ := List.mem_map.mp (List.mem_filter.mp member).1
    exact (free given inside).trim

/-! ## A quoting that is undone -/

def QUOTE : Char := Char.ofNat 39
def BACKSLASH : Char := Char.ofNat 92

/-- A word of only these characters is not quoted. -/
def unquotedOk (c : Char) : Bool := c.isAlphanum || "+-./:@]_".toList.contains c

/-- What a character is between single quotes, which are closed for a quote. -/
def quoteChar (c : Char) : List Char :=
  if c = QUOTE then [QUOTE, BACKSLASH, QUOTE, QUOTE] else [c]

def quoteWord (word : String) : Option String :=
  if Char.ofNat 0 ∈ word.toList then none
  else if word ≠ "" ∧ word.toList.all unquotedOk then some word
  else some (String.ofList (QUOTE :: (word.toList.flatMap quoteChar ++ [QUOTE])))

inductive Reading where
  | plain
  | quoted
  | escaped
deriving DecidableEq, Repr

def wordRead (word : Option (List Char)) : List String := (word.map String.ofList).toList

/-- The words in the characters that are left, where `word` is what has been read of the
current one. -/
def readWords : List Char → Reading → Option (List Char) → Option (List String)
  | [], reading, word => if reading = .plain then some (wordRead word) else none
  | c :: rest, .plain, word =>
    if c = ' ' then (readWords rest .plain none).map (wordRead word ++ ·)
    else if c = QUOTE then readWords rest .quoted (some (word.getD []))
    else if c = BACKSLASH then readWords rest .escaped (some (word.getD []))
    else readWords rest .plain (some (word.getD [] ++ [c]))
  | c :: rest, .quoted, word =>
    if c = QUOTE then readWords rest .plain word
    else readWords rest .quoted (some (word.getD [] ++ [c]))
  | c :: rest, .escaped, word => readWords rest .plain (some (word.getD [] ++ [c]))

def plainShlex : Shlex where
  tryQuote := quoteWord
  split command := readWords command.toList .plain none

theorem unquotedOk_plain {c : Char} (ok : unquotedOk c) : c ≠ ' ' ∧ c ≠ QUOTE ∧ c ≠ BACKSLASH := by
  refine ⟨?_, ?_, ?_⟩
  all_goals
    rintro rfl
    revert ok
    decide

theorem readWords_unquoted {chars : List Char} (ok : chars.all unquotedOk) (rest : List Char)
    (word : List Char) :
    readWords (chars ++ rest) .plain (some word) = readWords rest .plain (some (word ++ chars)) := by
  induction chars generalizing word with
  | nil => simp
  | cons c chars ih =>
    rw [List.all_cons, Bool.and_eq_true] at ok
    obtain ⟨space, quote, backslash⟩ := unquotedOk_plain ok.1
    rw [List.cons_append, readWords, if_neg space, if_neg quote, if_neg backslash, ih ok.2]
    simp

theorem readWords_quoted (chars rest word : List Char) :
    readWords (chars.flatMap quoteChar ++ QUOTE :: rest) .quoted (some word) =
      readWords rest .plain (some (word ++ chars)) := by
  induction chars generalizing word with
  | nil => simp [readWords]
  | cons c chars ih =>
    rw [List.flatMap_cons, List.append_assoc]
    by_cases quote : c = QUOTE
    · have closed : quoteChar c = [QUOTE, BACKSLASH, QUOTE, QUOTE] := if_pos quote
      have escapes : BACKSLASH ≠ ' ' ∧ BACKSLASH ≠ QUOTE ∧ QUOTE ≠ ' ' := by decide
      simp only [closed, List.cons_append, List.nil_append, readWords, escapes.1, escapes.2.1,
        escapes.2.2, if_true, if_false, Option.getD_some, ih]
      simp [quote]
    · have same : quoteChar c = [c] := if_neg quote
      simp only [same, List.cons_append, List.nil_append, readWords, quote, if_false, Option.getD_some, ih]
      simp

/-- A quoted word is read as the word, whatever stands behind it. -/
theorem readWords_quoteWord {word quoted : String} (quotes : quoteWord word = some quoted)
    (rest : List Char) :
    readWords (quoted.toList ++ rest) .plain none = readWords rest .plain (some word.toList) := by
  unfold quoteWord at quotes
  split at quotes
  · cases quotes
  · split at quotes
    · rename_i safe
      cases quotes
      cases chars : word.toList with
      | nil => exact absurd (String.toList_eq_nil_iff.mp chars) safe.1
      | cons c chars =>
        have ok := safe.2
        rw [chars, List.all_cons, Bool.and_eq_true] at ok
        obtain ⟨space, quote, backslash⟩ := unquotedOk_plain ok.1
        rw [List.cons_append, readWords, if_neg space, if_neg quote, if_neg backslash,
          readWords_unquoted ok.2]
        rfl
    · cases quotes
      have quote : QUOTE ≠ ' ' := by decide
      rw [String.toList_ofList, List.cons_append, readWords, if_neg quote, if_pos rfl, List.append_assoc,
        List.singleton_append, Option.getD_none, readWords_quoted, List.nil_append]

theorem quoteWord_of_nulFree {word : String} (free : NulFree word) : ∃ quoted, quoteWord word = some quoted := by
  unfold quoteWord
  rw [if_neg free]
  split
  · exact ⟨_, rfl⟩
  · exact ⟨_, rfl⟩

theorem plainShlex_inverts : plainShlex.Inverts := by
  intro words free
  induction words with
  | nil => exact ⟨[], rfl, by decide⟩
  | cons word words ih =>
    obtain ⟨quoted, quotes⟩ := quoteWord_of_nulFree (free word List.mem_cons_self)
    obtain ⟨others, all, splits⟩ := ih fun other member => free other (List.mem_cons_of_mem _ member)
    refine ⟨quoted :: others, ?_, ?_⟩
    · rw [List.mapM_cons, all]
      simp [plainShlex, quotes]
    · change readWords _ .plain none = some words at splits
      change readWords _ .plain none = some (word :: words)
      cases others with
      | nil =>
        rw [String.intercalate_nil] at splits
        cases splits
        rw [String.intercalate_singleton, ← List.append_nil quoted.toList, readWords_quoteWord quotes]
        simp [readWords, wordRead]
      | cons next others =>
        have space : " ".toList = [' '] := by decide
        rw [String.intercalate_cons_cons, String.toList_append, String.toList_append, List.append_assoc,
          readWords_quoteWord quotes, space, List.cons_append, readWords, if_pos rfl, List.nil_append,
          splits]
        simp [wordRead]

/-! ## The command that is run -/

/-- For all arguments and all names of a jar the command splits into words again, and these
start a jar exactly when the arguments leave room for one. -/
theorem server_command_names_jar_iff (shlex : Shlex) (inverts : shlex.Inverts) (jarfile : Option String)
    (javaArgs : List String) (argsFree : ∀ arg ∈ javaArgs, NulFree arg)
    (jarFree : ∀ jar ∈ jarfile, NulFree jar) :
    ∃ words, invokedWords shlex jarfile javaArgs = some words ∧
      (StartsJar (jarFile jarfile) (givenArgs javaArgs) words ↔
        LeavesRoom (jarFile jarfile) (givenArgs javaArgs)) := by
  refine ⟨JAVA_BIN :: commandArgs jarfile javaArgs, ?_, startsJar_iff jarfile javaArgs⟩
  have free : ∀ word ∈ JAVA_BIN :: commandArgs jarfile javaArgs, NulFree word := by
    obtain ⟨more, same, allowed⟩ := commandArgs_extends jarfile javaArgs
    intro word member
    rw [same, List.mem_cons, List.mem_append] at member
    rcases member with rfl | own | inserted
    · exact own_nulFree _ (by simp)
    · exact givenArgs_nulFree argsFree word own
    · have kinds := allowed.subset inserted
      simp only [List.mem_cons, List.not_mem_nil, or_false] at kinds
      rcases kinds with rfl | rfl | rfl
      · exact own_nulFree _ (by simp)
      · exact jarFile_nulFree jarFree
      · exact own_nulFree _ (by simp)
  obtain ⟨quoted, quotes, splits⟩ := inverts _ free
  rw [invokedWords, buildCommand, map_tryQuote quotes]
  exact splits

theorem server_command_names_jar_paper :
    ∃ words, invokedWords plainShlex none [" -Xmx2G", "", "-jar", "paper.jar "] = some words ∧
      StartsJar (jarFile none) (givenArgs [" -Xmx2G", "", "-jar", "paper.jar "]) words := by
  obtain ⟨words, invoked, starts_iff⟩ := server_command_names_jar_iff plainShlex plainShlex_inverts none
    [" -Xmx2G", "", "-jar", "paper.jar "] (by decide +kernel) nofun
  refine ⟨words, invoked, starts_iff.mpr ⟨?_, fun nogui => ?_⟩⟩
  · unfold JarName
    decide +kernel
  · exact absurd nogui (by decide +kernel)

/-- With `--nogui` right behind `-jar` the word is taken for the jar. -/
theorem nogui_named_as_jar :
    invokedWords plainShlex none ["-jar", "--nogui"] = some ["java", "-jar", "--nogui"] ∧
    ∀ jar, ¬StartsJar jar (givenArgs ["-jar", "--nogui"]) ["java", "-jar", "--nogui"] := by
  constructor
  · decide +kernel
  · rintro jar ⟨-, name, after, behind, named, -⟩
    have words : behindJar ["java", "-jar", "--nogui"] = ["--nogui"] := by decide
    rw [words] at behind
    cases behind
    exact named (by decide)

end PlexPaper.ServerCommand
