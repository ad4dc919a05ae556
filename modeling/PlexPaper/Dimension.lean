import PlexPaper.Server
import PlexPaper.PacketCodec

/-! The dimension that a client waits in, from `mc/dimension.rs`, and the game data that
`join_game.rs` sends it with. The dimension is one of the backend's own where its codec
has one, with the lobby's tags over it. Maps of tags are third-party, kept as a parameter;
the bundled codec and dimension are values. -/
namespace PlexPaper.Dimension
open Outcome

/-- A tag of the NBT format. A float is its bits. -/
inductive Tag (Compound : Type) where
  | byte (value : Int8)
  | short (value : Int16)
  | int (value : Int32)
  | long (value : Int64)
  | float (bits : UInt32)
  | double (bits : UInt64)
  | byteArray (values : List Int8)
  | string (value : String)
  | list (tags : List (Tag Compound))
  | compound (value : Compound)
  | intArray (values : List Int32)
  | longArray (values : List Int64)

section

variable {Compound : Type}

def Tag.compound? : Tag Compound → Option Compound
  | .compound value => some value
  | _ => none

def Tag.string? : Tag Compound → Option String
  | .string value => some value
  | _ => none

def Tag.compounds? : Tag Compound → Option (List Compound)
  | .list tags => tags.mapM Tag.compound?
  | _ => none

end

/-- What the code uses of a `CompoundTag`. A `get_` answers `none` for its error. -/
structure Nbt (Compound : Type) where
  get : Compound → String → Option (Tag Compound)
  insert : Compound → String → Tag Compound → Compound
  getCompoundTag : Compound → String → Option Compound
  getCompoundTagVec : Compound → String → Option (List Compound)
  getStr : Compound → String → Option String

/-- What its documentation says: a typed `get_` has the tag if it is of that type, and an
`insert_` replaces the tag of its key only. -/
structure Nbt.Lawful {Compound : Type} (nbt : Nbt Compound) : Prop where
  get_insert : ∀ base key tag other, nbt.get (nbt.insert base key tag) other =
    if other = key then some tag else nbt.get base other
  getCompoundTag : ∀ base key, nbt.getCompoundTag base key = (nbt.get base key).bind Tag.compound?
  getCompoundTagVec : ∀ base key,
    nbt.getCompoundTagVec base key = (nbt.get base key).bind Tag.compounds?
  getStr : ∀ base key, nbt.getStr base key = (nbt.get base key).bind Tag.string?

/-- The two files under `res`. -/
structure Bundled (Compound : Type) where
  dimensionCodec : Compound
  dimension : Compound

/-- The tags that `lobby_dimension` inserts, in its order. -/
def lobbyTags {Compound : Type} : List (String × Tag Compound) :=
  [("piglin_safe", .byte 1), ("ambient_light", .float 0), ("respawn_anchor_works", .byte 0),
    ("has_skylight", .byte 0), ("bed_works", .byte 0), ("effects", .string "minecraft:the_end"),
    ("fixed_time", .long 0), ("has_raids", .byte 0), ("min_y", .int 0), ("height", .int 16),
    ("logical_height", .int 16), ("coordinate_scale", .double 0x3FF0000000000000),
    ("ultrawarm", .byte 0), ("has_ceiling", .byte 0)]

def preferred : List String :=
  ["minecraft:the_end", "minecraft:the_nether", "minecraft:the_overworld"]

section

variable {Compound : Type} (nbt : Nbt Compound) (bundled : Bundled Compound)

/-- The search of `lobby_base_dimension`. A first entry of a name without an element is
passed over for the next name. -/
def preferredDimension (dimensions : List Compound) : Option Compound :=
  preferred.findSome? fun name =>
    (dimensions.find? fun dimension => ((nbt.getStr dimension "name").map (· == name)).getD false).bind
      (nbt.getCompoundTag · "element")

def lobbyBaseDimension (dimensionTypes : Compound) : Outcome Compound := do
  let dimensions ← unwrap (nbt.getCompoundTagVec dimensionTypes "value")
  match preferredDimension nbt dimensions with
  | some dimension => return dimension
  | none => return (dimensions.head?.bind (nbt.getCompoundTag · "element")).getD bundled.dimension

/-- A series of `insert_` calls. -/
def insertAll (base : Compound) (entries : List (String × Tag Compound)) : Compound :=
  entries.foldl (fun base entry => nbt.insert base entry.1 entry.2) base

def lobbyDimension (codec : Compound) : Outcome Compound := do
  match nbt.getCompoundTag codec "minecraft:dimension_type" with
  | none => return bundled.dimension
  | some dimensionTypes =>
    let base ← lobbyBaseDimension nbt bundled dimensionTypes
    return insertAll nbt base lobbyTags

end

/-! ## The game data -/

/-- A `JoinGame` packet, in the form before 1.17 or since. -/
structure JoinGame (Compound : Type) where
  entityId : Int32
  hardcore : Bool
  gameMode : UInt8
  previousGameMode : UInt8
  worldNames : List String
  dimensionCodec : Compound
  dimension : Compound
  worldName : String
  hashedSeed : Int64
  maxPlayers : Int32
  viewDistance : Int32
  reducedDebugInfo : Bool
  enableRespawnScreen : Bool
  isDebug : Bool
  isFlat : Bool

structure JoinGameData (Compound : Type) where
  hardcore : Option Bool
  gameMode : Option UInt8
  previousGameMode : Option UInt8
  worldNames : Option (List String)
  dimension : Option Compound
  dimensionCodec : Option Compound
  worldName : Option String
  hashedSeed : Option Int64
  maxPlayers : Option Int32
  viewDistance : Option Int32
  reducedDebugInfo : Option Bool
  enableRespawnScreen : Option Bool
  isDebug : Option Bool
  isFlat : Option Bool

section

variable {Compound : Type} (nbt : Nbt Compound) (bundled : Bundled Compound)

/-- `JoinGameData::from`, of either form. -/
def JoinGameData.ofPacket (joinGame : JoinGame Compound) : JoinGameData Compound where
  hardcore := some joinGame.hardcore
  gameMode := some joinGame.gameMode
  previousGameMode := some joinGame.previousGameMode
  worldNames := some joinGame.worldNames
  dimension := some joinGame.dimension
  dimensionCodec := some joinGame.dimensionCodec
  worldName := some joinGame.worldName
  hashedSeed := some joinGame.hashedSeed
  maxPlayers := some joinGame.maxPlayers
  viewDistance := some joinGame.viewDistance
  reducedDebugInfo := some joinGame.reducedDebugInfo
  enableRespawnScreen := some joinGame.enableRespawnScreen
  isDebug := some joinGame.isDebug
  isFlat := some joinGame.isFlat

/-- The packet that `lobby_send` writes, in the client's form, with what the probe stored. -/
def lobbyJoinGame (status : Option ServerStatus) (joinGame : Option (JoinGameData Compound)) :
    Outcome (JoinGame Compound) := do
  let dimensionCodec := (joinGame.bind (·.dimensionCodec)).getD bundled.dimensionCodec
  let dimension ← lobbyDimension nbt bundled dimensionCodec
  return {
    entityId := 0
    hardcore := (joinGame.bind (·.hardcore)).getD false
    gameMode := 3
    previousGameMode := (-1 : Int8).toUInt8
    worldNames := (joinGame.bind (·.worldNames)).getD
      ["minecraft:overworld", "minecraft:the_nether", "minecraft:the_end"]
    dimensionCodec
    dimension
    worldName := "plexpaper:lobby"
    hashedSeed := 0
    maxPlayers := ((status.map (·.players.max.toInt32)).or (joinGame.bind (·.maxPlayers))).getD 20
    viewDistance := (joinGame.bind (·.viewDistance)).getD 10
    reducedDebugInfo := (joinGame.bind (·.reducedDebugInfo)).getD false
    enableRespawnScreen := (joinGame.bind (·.enableRespawnScreen)).getD true
    isDebug := (joinGame.bind (·.isDebug)).getD false
    isFlat := (joinGame.bind (·.isFlat)).getD false }

/-! ## What the lobby is to look like -/

def element (dimension : Compound) : Option Compound :=
  (nbt.get dimension "element").bind Tag.compound?

/-- The element of the first dimension of a name. -/
def elementNamed (name : String) (dimensions : List Compound) : Option Compound :=
  (dimensions.find? fun dimension => (nbt.get dimension "name").bind Tag.string? = some name).bind
    (element nbt)

/-- The dimension to start from where there is neither an end nor a nether, if the
overworld is the dimension of this name. -/
def fallback (overworld : String) (dimensions : List Compound) : Compound :=
  ((elementNamed nbt overworld dimensions).or (dimensions.head?.bind (element nbt))).getD
    bundled.dimension

/-- The dimension to start from. -/
def base (overworld : String) (dimensions : List Compound) : Compound :=
  ((elementNamed nbt "minecraft:the_end" dimensions).or
    (elementNamed nbt "minecraft:the_nether" dimensions)).getD (fallback nbt bundled overworld dimensions)

/-- The one has the lobby's tags, and is the other besides. -/
structure LobbyOf (base result : Compound) : Prop where
  tags : ∀ entry ∈ lobbyTags, nbt.get result entry.1 = some entry.2
  others : ∀ key, key ∉ (@lobbyTags Compound).map Prod.fst →
    nbt.get result key = nbt.get base key

/-- If `minecraft:dimension_type` is a compound, its `value` is a list of compounds. -/
def Survivable (codec : Compound) : Prop :=
  ∀ dimensionTypes, nbt.get codec "minecraft:dimension_type" = some (.compound dimensionTypes) →
    ∃ dimensions : List Compound,
      nbt.get dimensionTypes "value" = some (.list (dimensions.map .compound))

end

section

variable {Compound : Type} {nbt : Nbt Compound} {bundled : Bundled Compound}

theorem Tag.compound?_eq_some_iff {tag : Tag Compound} {value : Compound} :
    tag.compound? = some value ↔ tag = .compound value := by
  cases tag <;> simp [Tag.compound?]

theorem Tag.compounds?_eq_some_iff {tag : Tag Compound} {dimensions : List Compound} :
    tag.compounds? = some dimensions ↔ tag = .list (dimensions.map .compound) := by
  have each (tags : List (Tag Compound)) (dimensions : List Compound) :
      tags.mapM Tag.compound? = some dimensions ↔ tags = dimensions.map .compound := by
    induction tags generalizing dimensions with
    | nil => cases dimensions <;> simp
    | cons first tags ih =>
      cases dimensions with
      | nil => simp [List.mapM_cons, Option.bind_eq_some_iff]
      | cons dimension dimensions =>
        simp [List.mapM_cons, Option.bind_eq_some_iff, ih, Tag.compound?_eq_some_iff]
  cases tag with
  | list tags => simp [Tag.compounds?, each]
  | _ => simp [Tag.compounds?]

theorem get_insertAll_other (lawful : nbt.Lawful) {entries : List (String × Tag Compound)} {key : String}
    (missing : key ∉ entries.map Prod.fst) (base : Compound) :
    nbt.get (insertAll nbt base entries) key = nbt.get base key := by
  induction entries generalizing base with
  | nil => rfl
  | cons entry entries ih =>
    rw [List.map_cons, List.mem_cons, not_or] at missing
    have rest := ih missing.2 (nbt.insert base entry.1 entry.2)
    rw [lawful.get_insert, if_neg missing.1] at rest
    exact rest

/-- No later entry replaces an earlier one where the keys are distinct. -/
theorem get_insertAll_own (lawful : nbt.Lawful) {entries : List (String × Tag Compound)}
    (distinct : (entries.map Prod.fst).Nodup) {entry : String × Tag Compound} (member : entry ∈ entries)
    (base : Compound) : nbt.get (insertAll nbt base entries) entry.1 = some entry.2 := by
  induction entries generalizing base with
  | nil => cases member
  | cons first entries ih =>
    rw [List.map_cons, List.nodup_cons] at distinct
    rcases List.mem_cons.mp member with rfl | later
    · have rest := get_insertAll_other lawful distinct.1 (nbt.insert base entry.1 entry.2)
      rw [lawful.get_insert, if_pos rfl] at rest
      exact rest
    · exact ih distinct.2 later _

theorem lobbyTags_distinct : ((@lobbyTags Compound).map Prod.fst).Nodup := by
  simp [lobbyTags]

/-- The result of the insertions is the lobby of every dimension that only differs from
the one they start from in the lobby's own tags. -/
theorem lobbyOf_insertAll_iff (lawful : nbt.Lawful) (base started : Compound) :
    LobbyOf nbt base (insertAll nbt started lobbyTags) ↔
      ∀ key, key ∉ (@lobbyTags Compound).map Prod.fst → nbt.get base key = nbt.get started key := by
  constructor
  · intro lobby key missing
    rw [← lobby.others key missing, get_insertAll_other lawful missing]
  · intro same
    constructor
    · intro entry member
      exact get_insertAll_own lawful lobbyTags_distinct member started
    · intro key missing
      rw [get_insertAll_other lawful missing, same key missing]

theorem getCompoundTag_element (lawful : nbt.Lawful) :
    (nbt.getCompoundTag · "element") = element nbt := by
  funext dimension
  rw [lawful.getCompoundTag, element]

/-- The code looks for an overworld of another name than the bundled codec's. -/
theorem preferredDimension_eq (lawful : nbt.Lawful) (dimensions : List Compound) :
    preferredDimension nbt dimensions = ((elementNamed nbt "minecraft:the_end" dimensions).or
      (elementNamed nbt "minecraft:the_nether" dimensions)).or
        (elementNamed nbt "minecraft:the_overworld" dimensions) := by
  have named (name : String) :
      (fun dimension => ((nbt.getStr dimension "name").map (· == name)).getD false) =
        fun dimension => decide ((nbt.get dimension "name").bind Tag.string? = some name) := by
    funext dimension
    rw [lawful.getStr]
    cases (nbt.get dimension "name").bind Tag.string? with
    | none => rfl
    | some own => simp [beq_eq_decide]
  have each : preferredDimension nbt dimensions =
      preferred.findSome? (fun name => elementNamed nbt name dimensions) := by
    simp only [preferredDimension, elementNamed, named, getCompoundTag_element lawful]
  rw [each, preferred]
  simp only [List.findSome?_cons, List.findSome?_nil]
  cases elementNamed nbt "minecraft:the_end" dimensions with
  | some dimension => rfl
  | none =>
    cases elementNamed nbt "minecraft:the_nether" dimensions with
    | some dimension => rfl
    | none => cases elementNamed nbt "minecraft:the_overworld" dimensions <;> rfl

theorem lobbyBaseDimension_eq (lawful : nbt.Lawful) {dimensionTypes : Compound}
    {dimensions : List Compound}
    (value : nbt.get dimensionTypes "value" = some (.list (dimensions.map .compound))) :
    lobbyBaseDimension nbt bundled dimensionTypes =
      .ok (base nbt bundled "minecraft:the_overworld" dimensions) := by
  have list : nbt.getCompoundTagVec dimensionTypes "value" = some dimensions := by
    rw [lawful.getCompoundTagVec, value, Option.bind_some, Tag.compounds?_eq_some_iff]
  unfold lobbyBaseDimension base fallback
  rw [list, getCompoundTag_element lawful]
  change (match preferredDimension nbt dimensions with | some dimension => _ | none => _) = _
  rw [preferredDimension_eq lawful]
  cases (elementNamed nbt "minecraft:the_end" dimensions).or
      (elementNamed nbt "minecraft:the_nether" dimensions) with
  | some dimension => rfl
  | none => cases elementNamed nbt "minecraft:the_overworld" dimensions <;> rfl

/-- Without a list of compounds there the code panics. -/
theorem lobbyBaseDimension_panics (lawful : nbt.Lawful) {dimensionTypes : Compound}
    (value : ∀ dimensions : List Compound,
      nbt.get dimensionTypes "value" ≠ some (.list (dimensions.map .compound))) :
    lobbyBaseDimension nbt bundled dimensionTypes = .error .panic := by
  have noList : nbt.getCompoundTagVec dimensionTypes "value" = none := by
    rw [lawful.getCompoundTagVec, Option.bind_eq_none_iff]
    intro tag got
    rw [Option.eq_none_iff_forall_ne_some]
    intro dimensions read
    rw [Tag.compounds?_eq_some_iff.mp read] at got
    exact value dimensions got
  unfold lobbyBaseDimension
  rw [noList]
  rfl

theorem lobbyDimension_of_types (lawful : nbt.Lawful) {codec dimensionTypes : Compound}
    (types : nbt.get codec "minecraft:dimension_type" = some (.compound dimensionTypes)) :
    lobbyDimension nbt bundled codec =
      (lobbyBaseDimension nbt bundled dimensionTypes).map (insertAll nbt · lobbyTags) := by
  have found : nbt.getCompoundTag codec "minecraft:dimension_type" = some dimensionTypes := by
    rw [lawful.getCompoundTag, types]
    rfl
  rw [lobbyDimension, found]
  change (lobbyBaseDimension nbt bundled dimensionTypes >>= fun base =>
    pure (insertAll nbt base lobbyTags)) = _
  cases lobbyBaseDimension nbt bundled dimensionTypes <;> rfl

theorem lobbyDimension_returns_iff (lawful : nbt.Lawful) (codec : Compound) :
    (∃ dimension, lobbyDimension nbt bundled codec = .ok dimension) ↔ Survivable nbt codec := by
  constructor
  · rintro ⟨dimension, returns⟩ dimensionTypes types
    by_contra noList
    rw [lobbyDimension_of_types lawful types,
      lobbyBaseDimension_panics lawful fun dimensions list => noList ⟨dimensions, list⟩] at returns
    cases returns
  · intro survivable
    cases found : nbt.getCompoundTag codec "minecraft:dimension_type" with
    | none =>
      rw [lobbyDimension, found]
      exact ⟨_, rfl⟩
    | some dimensionTypes =>
      have types : nbt.get codec "minecraft:dimension_type" = some (.compound dimensionTypes) := by
        rw [lawful.getCompoundTag, Option.bind_eq_some_iff] at found
        obtain ⟨tag, got, own⟩ := found
        rw [got, Tag.compound?_eq_some_iff.mp own]
      obtain ⟨dimensions, value⟩ := survivable dimensionTypes types
      rw [lobbyDimension_of_types lawful types, lobbyBaseDimension_eq lawful value]
      exact ⟨_, rfl⟩

end

/-! ## Codecs as trees -/

inductive Tree where
  | node (tags : List (String × Tag Tree))

def Tree.get : Tree → String → Option (Tag Tree)
  | .node tags, key => tags.lookup key

/-- The tag hides those that the key had before. -/
def Tree.insert : Tree → String → Tag Tree → Tree
  | .node tags, key, tag => .node ((key, tag) :: tags)

def tree : Nbt Tree where
  get := Tree.get
  insert := Tree.insert
  getCompoundTag base key := (base.get key).bind Tag.compound?
  getCompoundTagVec base key := (base.get key).bind Tag.compounds?
  getStr base key := (base.get key).bind Tag.string?

theorem tree_lawful : tree.Lawful where
  get_insert := by
    rintro ⟨tags⟩ key tag other
    change List.lookup other ((key, tag) :: tags) = _
    rw [List.lookup_cons]
    by_cases same : other = key
    · simp [same]
    · have differ : (other == key) = false := by simpa using same
      rw [differ, if_neg same]
      rfl
  getCompoundTag _ _ := rfl
  getCompoundTagVec _ _ := rfl
  getStr _ _ := rfl

/-- A dimension with one tag. -/
def dimensionOf (name : String) (natural : Int8) : Tree :=
  .node [("name", .string name), ("element", .compound (.node [("natural", .byte natural)]))]

def codecOf (dimensions : List Tree) : Tree :=
  .node [("minecraft:dimension_type", .compound (.node [("value", .list (dimensions.map .compound))]))]

def bare : Bundled Tree where
  dimensionCodec := .node []
  dimension := .node []

/-! ## The lobby's dimension -/

section

variable {Compound : Type} {nbt : Nbt Compound} {bundled : Bundled Compound}

/-- For all codecs with a list of dimensions, the lobby starts from the vanilla overworld in
its turn exactly when an end or a nether comes before it, or the dimensions that its name
and the code's lead to differ in the lobby's own tags at most. -/
theorem lobby_starts_from_base_iff (lawful : nbt.Lawful) {codec dimensionTypes : Compound}
    {dimensions : List Compound}
    (types : nbt.get codec "minecraft:dimension_type" = some (.compound dimensionTypes))
    (value : nbt.get dimensionTypes "value" = some (.list (dimensions.map .compound))) :
    ∃ result, lobbyDimension nbt bundled codec = .ok result ∧
      (LobbyOf nbt (base nbt bundled "minecraft:overworld" dimensions) result ↔
        (elementNamed nbt "minecraft:the_end" dimensions).isSome ∨
          (elementNamed nbt "minecraft:the_nether" dimensions).isSome ∨
            ∀ key, key ∉ (@lobbyTags Compound).map Prod.fst →
              nbt.get (fallback nbt bundled "minecraft:overworld" dimensions) key =
                nbt.get (fallback nbt bundled "minecraft:the_overworld" dimensions) key) := by
  refine ⟨insertAll nbt (base nbt bundled "minecraft:the_overworld" dimensions) lobbyTags, ?_, ?_⟩
  · rw [lobbyDimension_of_types lawful types, lobbyBaseDimension_eq lawful value]
    rfl
  · rw [lobbyOf_insertAll_iff lawful]
    unfold base
    cases the_end : elementNamed nbt "minecraft:the_end" dimensions with
    | some dimension => simp
    | none =>
      cases nether : elementNamed nbt "minecraft:the_nether" dimensions with
      | some dimension => simp
      | none => simp

/-- For everything that a backend may send as its codec, the game data of a waiting client
is computed exactly when the list of its dimensions is one. -/
theorem lobby_join_game_returns_iff (lawful : nbt.Lawful) (status : Option ServerStatus)
    (received : JoinGame Compound) :
    (∃ packet, lobbyJoinGame nbt bundled status (some (.ofPacket received)) = .ok packet ∧
      lobbyDimension nbt bundled received.dimensionCodec = .ok packet.dimension) ↔
      Survivable nbt received.dimensionCodec := by
  have returns_iff : (∃ dimension, lobbyDimension nbt bundled received.dimensionCodec = .ok dimension) ↔
      Survivable nbt received.dimensionCodec := lobbyDimension_returns_iff lawful _
  rw [← returns_iff]
  constructor
  · rintro ⟨packet, -, returns⟩
    exact ⟨packet.dimension, returns⟩
  · rintro ⟨dimension, returns⟩
    have codec : ((some (JoinGameData.ofPacket received)).bind (·.dimensionCodec)).getD
        bundled.dimensionCodec = received.dimensionCodec := rfl
    rw [lobbyJoinGame, codec, returns]
    exact ⟨_, rfl, rfl⟩

end

/-- The base is the end, which is found under its name. -/
theorem lobby_starts_from_base_end :
    ∃ result, lobbyDimension tree bare (codecOf [dimensionOf "minecraft:overworld" 1,
        dimensionOf "minecraft:the_end" 0]) = .ok result ∧
      LobbyOf tree (base tree bare "minecraft:overworld" [dimensionOf "minecraft:overworld" 1,
        dimensionOf "minecraft:the_end" 0]) result := by
  obtain ⟨result, returned, starts_iff⟩ := @lobby_starts_from_base_iff _ _ bare tree_lawful
    (codecOf [dimensionOf "minecraft:overworld" 1, dimensionOf "minecraft:the_end" 0]) _ _ rfl rfl
  exact ⟨result, returned, starts_iff.mpr (.inl rfl)⟩

/-- A dimension of another name at the head of the list is taken for the overworld. -/
theorem overworld_passed_over :
    ∃ result, lobbyDimension tree bare (codecOf [dimensionOf "custom:cave" 0,
        dimensionOf "minecraft:overworld" 1]) = .ok result ∧
      ¬LobbyOf tree (base tree bare "minecraft:overworld" [dimensionOf "custom:cave" 0,
        dimensionOf "minecraft:overworld" 1]) result := by
  refine ⟨_, rfl, ?_⟩
  intro lobby
  have natural := lobby.others "natural" (by simp [lobbyTags])
  have differ : some (Tag.byte 0 : Tag Tree) = some (.byte 1) := natural
  simp at differ

def joinGameOf (codec : Tree) : JoinGame Tree where
  entityId := 0
  hardcore := false
  gameMode := 0
  previousGameMode := 0
  worldNames := []
  dimensionCodec := codec
  dimension := .node []
  worldName := ""
  hashedSeed := 0
  maxPlayers := 20
  viewDistance := 10
  reducedDebugInfo := false
  enableRespawnScreen := true
  isDebug := false
  isFlat := false

theorem lobby_join_game_returns_empty :
    ∃ packet, lobbyJoinGame tree bare none (some (.ofPacket (joinGameOf (codecOf [])))) = .ok packet ∧
      lobbyDimension tree bare (codecOf []) = .ok packet.dimension := by
  refine (lobby_join_game_returns_iff tree_lawful none (joinGameOf (codecOf []))).mpr fun dimensionTypes found => ?_
  cases found
  exact ⟨[], rfl⟩

/-- With dimension types that have no `value` the lobby panics. -/
theorem missing_value_panics :
    lobbyJoinGame tree bare none (some (.ofPacket
      (joinGameOf (.node [("minecraft:dimension_type", .compound (.node []))])))) = .error .panic := rfl

end PlexPaper.Dimension
