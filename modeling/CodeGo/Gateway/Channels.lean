import CodeGo.Lib.Prog
import CodeGo.Lib.Table
import CodeGo.Lib.Trim
import Mathlib.Data.Finmap
import Mathlib.Data.Finset.Sort
import Mathlib.Data.Int.Order.Basic
import Mathlib.Data.List.Sort

/-!
# Channels and their cache

The `channels` and `abilities` tables, the operations of the channel store on them, and the cache
that `channel_store.go` keeps of both, with the memory cache enabled. Every operation is a program
whose actions are its committed statements; a transaction is one action.
-/

namespace CodeGo.Gateway.Channels

open CodeGo.Lib CodeGo.Lib.Prog CodeGo.Lib.Trim

def channelStatusEnabled : Int := 1
def channelStatusManuallyDisabled : Int := 2
def channelStatusAutoDisabled : Int := 3

inductive MultiKeyMode where
  | unset
  | random
  | polling
  deriving DecidableEq, Repr

structure ChannelInfo where
  isMultiKey : Bool := false
  multiKeySize : Int := 0
  multiKeyStatusList : Finmap fun _ : Int => Int := ∅
  multiKeyPollingIndex : Int := 0
  multiKeyMode : MultiKeyMode := .unset
  deriving DecidableEq

structure Channel where
  id : Int
  key : String := ""
  status : Int := channelStatusEnabled
  models : String := ""
  group : String := ""
  priority : Option Int := none
  channelInfo : ChannelInfo := {}
  /-- The keys that only a cached channel holds. -/
  keys : List String := []
  deriving DecidableEq

structure Ability where
  group : String
  model : String
  channelID : Int
  enabled : Bool
  deriving DecidableEq, Repr

instance : Indexed Channel Int where
  pk := Channel.id
  clash c d := c.id = d.id
  clash_comm c d := by simp only [eq_comm]
  clash_of_pk c d h := by simp [h]

@[simp] theorem pk_channel (c : Channel) : pk c = c.id := rfl

/-- `strings.Split`. -/
def split (s : String) (sep : Char) : List String := (s.toList.splitOn sep).map String.ofList

def Channel.groupNames (c : Channel) : List String := split c.group ','

def Channel.modelNames (c : Channel) : List String := split c.models ','

def Channel.getPriority (c : Channel) : Int := c.priority.getD 0

section Keys

-- `unmarshal` is how `encoding/json` splits a text into its elements, when it is a JSON array
variable (unmarshal : String → Option (List String))

def channelKeysFromRaw (raw : String) : List String :=
  if raw = "" then []
  else
    let lines := split (String.ofList (trimList (· = '\n') raw.toList)) '\n'
    let trimmed := trimSpace raw
    if "[".toList.isPrefixOf trimmed.toList then (unmarshal trimmed).getD lines else lines

def Channel.keySource (c : Channel) : String :=
  if c.keys ≠ [] then String.intercalate "\n" c.keys else c.key

def Channel.getKeys (c : Channel) : List String := channelKeysFromRaw unmarshal c.keySource

/-- The place of a key; a key that is not there counts as the first. -/
def keyIndex (keys : List String) (usingKey : String) : Nat :=
  (keys.findIdx? (· = usingKey)).getD 0

def ChannelInfo.setKeyStatus (info : ChannelInfo) (keyIndex : Int) (status : Int) : ChannelInfo :=
  { info with multiKeyStatusList :=
    if status = channelStatusEnabled then info.multiKeyStatusList.erase keyIndex
    else info.multiKeyStatusList.insert keyIndex status }

def handleMultiKeyUpdate (channel : Channel) (usingKey : String) (status : Int) : Channel :=
  let keys := channel.getKeys unmarshal
  if keys = [] then { channel with status := status }
  else
    let info := channel.channelInfo.setKeyStatus (keyIndex keys usingKey) status
    if info.multiKeySize ≤ (info.multiKeyStatusList.keys.card : Int) then
      { channel with channelInfo := info, status := channelStatusAutoDisabled }
    else { channel with channelInfo := info }

end Keys

def Channel.ability (c : Channel) (group model : String) : Ability :=
  ⟨group, model, c.id, c.status = channelStatusEnabled⟩

/-- A model under a group, unless the key of the two names put together is there already. -/
def addAbility (channel : Channel) (built : List String × List Ability)
    (pair : String × String) : List String × List Ability :=
  let key := pair.1 ++ "|" ++ pair.2
  if key ∈ built.1 then built
  else (key :: built.1, built.2 ++ [channel.ability pair.1 pair.2])

def buildChannelAbilities (channel : Channel) : List Ability :=
  let pairs := channel.modelNames.flatMap fun model => channel.groupNames.map (·, model)
  (pairs.foldl (addAbility channel) ([], [])).2

/-- `lo.Chunk`. -/
def chunk {α : Type} (size : Nat) (hsize : 0 < size) : List α → List (List α)
  | [] => []
  | x :: xs => (x :: xs).take size :: chunk size hsize ((x :: xs).drop size)
  termination_by xs => xs.length
  decreasing_by
    rw [List.length_drop, List.length_cons]
    omega

structure Database where
  channels : Table Channel := Table.empty
  abilities : List Ability := []

/-- A row as it is read, without the keys of a cached channel. -/
def Channel.loaded (c : Channel) : Channel := { c with keys := [] }

def Database.find (db : Database) : List Channel := db.channels.rows.map Channel.loaded

def Database.first (db : Database) (id : Int) : Option Channel :=
  (db.channels.get? id).map Channel.loaded

/-- All columns but the key of the channel. -/
def saveColumns (channel row : Channel) : Channel :=
  { channel with id := row.id, key := row.key }

/-- The columns for which the channel has a value that is not the zero one. -/
def updateColumns (channel row : Channel) : Channel :=
  { row with
    key := if channel.key = "" then row.key else channel.key
    status := if channel.status = 0 then row.status else channel.status
    models := if channel.models = "" then row.models else channel.models
    group := if channel.group = "" then row.group else channel.group
    priority := channel.priority.or row.priority
    channelInfo := if channel.channelInfo = {} then row.channelInfo else channel.channelInfo }

theorem keepsIndexes_saveColumns (channel : Channel) :
    Table.KeepsIndexes (saveColumns channel) := fun _ => ⟨rfl, fun _ => rfl⟩

theorem keepsIndexes_updateColumns (channel : Channel) :
    Table.KeepsIndexes (updateColumns channel) := fun _ => ⟨rfl, fun _ => rfl⟩

def Database.save (db : Database) (channel : Channel) : Database :=
  { db with channels :=
    db.channels.update channel.id (saveColumns channel) (keepsIndexes_saveColumns channel) }

def Database.updates (db : Database) (channel : Channel) : Database :=
  { db with channels :=
    db.channels.update channel.id (updateColumns channel) (keepsIndexes_updateColumns channel) }

/-- `OnConflict{DoNothing: true}` on the primary key of the abilities. -/
def insertAbility (abilities : List Ability) (ability : Ability) : List Ability :=
  if ∃ a ∈ abilities, a.group = ability.group ∧ a.model = ability.model ∧
    a.channelID = ability.channelID then abilities
  else abilities ++ [ability]

def Database.insertAbilities (db : Database) (abilities : List Ability) : Database :=
  { db with abilities := abilities.foldl insertAbility db.abilities }

def Database.deleteAbilities (db : Database) (p : Int → Bool) : Database :=
  { db with abilities := db.abilities.filter fun a => !p a.channelID }

def Database.updateAbilityStatus (db : Database) (channelID : Int) (enabled : Bool) : Database :=
  { db with abilities := db.abilities.map fun a =>
    if a.channelID = channelID then { a with enabled := enabled } else a }

section Statements

inductive Error where
  | recordNotFound
  | duplicatedKey
  | missingWhereClause
  deriving DecidableEq, Repr

/-- A program over the database. -/
abbrev Statements (α : Type) := Prog Database Unit Error α

variable (unmarshal : String → Option (List String))

def loadChannelByID (channelID : Int) : Statements Channel :=
  stepE () fun db => match db.first channelID with
    | some channel => (.ok channel, db)
    | none => (.error .recordNotFound, db)

/-- The columns that have a default, with which `Create` also fills the channel. -/
def Channel.withDefaults (c : Channel) : Channel :=
  { c with
    status := if c.status = 0 then channelStatusEnabled else c.status
    group := if c.group = "" then "default" else c.group
    priority := some c.getPriority }

def addChannelAbilities (channel : Channel) : Statements PUnit :=
  (chunk 50 (by decide) (buildChannelAbilities channel)).forM fun abilities =>
    step () fun db => ((), db.insertAbilities abilities)

/-- The channel has the primary key that the database assigns to it. -/
def createChannel (channel : Channel) : Statements PUnit := do
  let channel := channel.withDefaults
  stepE () fun db => match db.channels.insert? channel with
    | some channels => (.ok (), { db with channels := channels })
    | none => (.error .duplicatedKey, db)
  addChannelAbilities channel

/-- The statements of `UpdateChannelAbilities`, which commit together. -/
def updateChannelAbilities (channel : Channel) : Statements PUnit :=
  transaction () (do
    step () fun db => ((), db.deleteAbilities (· = channel.id))
    addChannelAbilities channel)

/-- The number of keys, and the key statuses that this number leaves. -/
def Channel.sized (c : Channel) (keyStr : String) : Channel :=
  let size : Int := (channelKeysFromRaw unmarshal keyStr).length
  { c with channelInfo := { c.channelInfo with
    multiKeySize := size
    multiKeyStatusList := c.channelInfo.multiKeyStatusList.keys.sort.foldl
      (fun list index => if size ≤ index then list.erase index else list)
      c.channelInfo.multiKeyStatusList } }

def prepareChannelForSave (channel : Channel) : Statements Channel :=
  if !channel.channelInfo.isMultiKey then pure channel
  else if channel.key ≠ "" then pure (channel.sized unmarshal channel.key)
  else do
    let existing ← (loadChannelByID channel.id).attempt
    match existing with
    | .ok existing => pure (channel.sized unmarshal existing.key)
    | .error _ => pure (channel.sized unmarshal "")

def updateChannel (channel : Channel) : Statements PUnit := do
  let channel ← prepareChannelForSave unmarshal channel
  stepE () fun db =>
    if channel.id = 0 then (.error .missingWhereClause, db) else (.ok (), db.updates channel)
  let channel ← step () fun db => ((db.first channel.id).getD channel, db)
  updateChannelAbilities channel

def deleteChannelByID (channelID : Int) : Statements PUnit := do
  stepE () fun db =>
    if channelID = 0 then (.error .missingWhereClause, db)
    else (.ok (), { db with channels := db.channels.delete (·.id = channelID) })
  step () fun db => ((), db.deleteAbilities (· = channelID))

def batchDeleteChannels (ids : List Int) : Statements PUnit :=
  if ids = [] then pure ()
  else step () fun db => ((), { db with channels := db.channels.delete (·.id ∈ ids) }
    |>.deleteAbilities (· ∈ ids))

def deleteDisabledChannels : Statements PUnit :=
  step () fun db => ((), { db with channels := db.channels.delete fun c =>
    c.status = channelStatusAutoDisabled ∨ c.status = channelStatusManuallyDisabled })

/-- The row of a channel that is gone cannot be put back without its key. -/
def saveChannelWithoutKey (channel : Channel) : Statements PUnit :=
  stepE () fun db =>
    if channel.id = 0 ∨ db.first channel.id = none then (.error .recordNotFound, db)
    else (.ok (), db.save channel)

def Channel.updated (c : Channel) (usingKey : String) (status : Int) : Channel :=
  if c.channelInfo.isMultiKey then handleMultiKeyUpdate unmarshal c usingKey status
  else { c with status := status }

/-- What `UpdateChannelStatus` does to the database. -/
def persistChannelStatus (channelID : Int) (usingKey : String) (status : Int) :
    Statements Bool := do
  let channel ← (loadChannelByID channelID).attempt
  match channel with
  | .error _ => pure false
  | .ok channel =>
    if channel.status = status then pure false
    else
      let updated := channel.updated unmarshal usingKey status
      let shouldUpdateAbilities :=
        !channel.channelInfo.isMultiKey || channel.status != updated.status
      let saved ← (saveChannelWithoutKey updated).attempt
      if shouldUpdateAbilities then
        step () fun db => ((), db.updateAbilityStatus channelID (status = channelStatusEnabled))
      pure saved.isOk

end Statements

section Cache

/-- The channel ids of each model of each group that has been made. -/
abbrev Index := String → Option (String → List Int)

structure Cache where
  channelsIDM : Int → Option Channel := fun _ => none
  group2model2channels : Index := fun _ => none

def Cache.priority (channelsIDM : Int → Option Channel) (id : Int) : Int :=
  ((channelsIDM id).map Channel.getPriority).getD 0

def sortByPriority (channelsIDM : Int → Option Channel) (channelIDs : List Int) : List Int :=
  channelIDs.insertionSort fun i j => Cache.priority channelsIDM j ≤ Cache.priority channelsIDM i

variable (unmarshal : String → Option (List String))

/-- A channel that was read, with its keys and with the place at which the old cache polls. -/
def Channel.cached (c : Channel) (old : Cache) : Channel :=
  if !c.channelInfo.isMultiKey then c
  else
    let c := { c with keys := c.getKeys unmarshal }
    match c.channelInfo.multiKeyMode, old.channelsIDM c.id with
    | .polling, some oldChannel =>
      if oldChannel.channelInfo.isMultiKey ∧ oldChannel.channelInfo.multiKeyMode = .polling then
        { c with channelInfo := { c.channelInfo with
          multiKeyPollingIndex := oldChannel.channelInfo.multiKeyPollingIndex } }
      else c
    | _, _ => c

/-- Where the rebuild puts the channels, in its order. -/
def placements (channels : List Channel) : List (String × String × Int) :=
  (channels.filter (·.status = channelStatusEnabled)).flatMap fun channel =>
    channel.groupNames.flatMap fun group =>
      channel.modelNames.map fun model => (group, model, channel.id)

/-- Fails for a group that has no map: Go panics at an assignment to an entry of a nil map. -/
def Index.append (index : Index) (place : String × String × Int) : Option Index :=
  (index place.1).map fun models => Function.update index place.1
    (some (Function.update models place.2.1 (models place.2.1 ++ [place.2.2])))

/-- The rebuild from the channels and the abilities that it read; `none` is a panic. -/
def initChannelCache (old : Cache) (channels : List Channel) (abilities : List Ability) :
    Option Cache :=
  let newChannelIDToChannel := fun id => channels.find? (·.id = id)
  let newGroupToModelChannels : Index := fun group =>
    if ∃ a ∈ abilities, a.group = group then some fun _ => [] else none
  ((placements channels).foldlM Index.append newGroupToModelChannels).map fun index =>
    { channelsIDM := fun id => (newChannelIDToChannel id).map (·.cached unmarshal old)
      group2model2channels := fun group => (index group).map fun models model =>
        sortByPriority newChannelIDToChannel (models model) }

/-- The channel is put under a model that does not list it. -/
def addModel (channelsIDM : Int → Option Channel) (channelID : Int) (models : String → List Int)
    (model : String) : String → List Int :=
  if channelID ∈ models model then models
  else Function.update models model (sortByPriority channelsIDM (models model ++ [channelID]))

/-- The channel is put under the models of a group, which is made when there is none. -/
def addGroup (channelsIDM : Int → Option Channel) (channelID : Int) (modelNames : List String)
    (index : Index) (group : String) : Index :=
  let models := (index group).getD fun _ => []
  Function.update index group (some (modelNames.foldl (addModel channelsIDM channelID) models))

def cacheUpdateChannelStatus (channelID : Int) (status : Int) (cache : Cache) : Cache :=
  match cache.channelsIDM channelID with
  | none => cache
  | some channel =>
    let channel := { channel with status := status }
    let channelsIDM := Function.update cache.channelsIDM channelID (some channel)
    if status = channelStatusEnabled then
      { channelsIDM := channelsIDM
        group2model2channels := channel.groupNames.foldl
          (addGroup channelsIDM channelID channel.modelNames) cache.group2model2channels }
    else
      { channelsIDM := channelsIDM
        -- the first place of each list
        group2model2channels := fun group =>
          (cache.group2model2channels group).map fun models model =>
            (models model).erase channelID }

end Cache

section Runs

structure State where
  db : Database
  cache : Cache

variable (unmarshal : String → Option (List String))

/-- `UpdateChannelStatus` on the cache; `none` when the call ends there. -/
def updateCachedStatus (channelID : Int) (usingKey : String) (status : Int) (cache : Cache) :
    Option Cache :=
  match cache.channelsIDM channelID with
  | none => none
  | some channelCache =>
    if channelCache.channelInfo.isMultiKey then
      let channelCache := handleMultiKeyUpdate unmarshal channelCache usingKey status
      some { cache with
        channelsIDM := Function.update cache.channelsIDM channelID (some channelCache) }
    else if channelCache.status = status then none
    else some (cacheUpdateChannelStatus channelID status cache)

def updateChannelStatus (channelID : Int) (usingKey : String) (status : Int) (s : State) :
    Bool × State :=
  match updateCachedStatus unmarshal channelID usingKey status s.cache with
  | none => (false, s)
  | some cache =>
    let (saved, db) := (persistChannelStatus unmarshal channelID usingKey status).run s.db
    (saved.toOption.getD false, ⟨db, cache⟩)

end Runs

end CodeGo.Gateway.Channels
