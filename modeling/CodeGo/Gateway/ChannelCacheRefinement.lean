import CodeGo.Gateway.ChannelIndex

/-!
# The channel cache against the database

The cache that `UpdateChannelStatus` patches and the one that a rebuild would make. Both are kept
alike as long as a call changes the same in the cached channel and in the stored one, and does not
turn a channel with several keys off.
-/

namespace CodeGo.Gateway.Channels

open CodeGo.Lib CodeGo.Lib.Prog

section Rows

variable {db : Database} {c : Channel} {id : Int}

theorem mem_find_iff : c ∈ db.find ↔ db.first c.id = some c := by
  rw [Database.find, Database.first, List.mem_map]
  constructor
  · rintro ⟨row, hrow, rfl⟩
    have hget := Table.get?_of_mem (t := db.channels) hrow
    rw [pk_channel] at hget
    show (db.channels.get? row.id).map Channel.loaded = _
    rw [hget, Option.map_some]
  · intro h
    obtain ⟨row, hrow, hc⟩ := Option.map_eq_some_iff.1 h
    exact ⟨row, Table.mem_of_get? hrow, hc⟩

theorem first_eq_some (h : db.first id = some c) : c.id = id ∧ c.keys = [] := by
  obtain ⟨row, hrow, rfl⟩ := Option.map_eq_some_iff.1 h
  exact ⟨Table.pk_of_get? hrow, rfl⟩

theorem find?_find (id : Int) : db.find.find? (·.id = id) = db.first id := by
  rw [Database.find, List.find?_map]
  rfl

/-- The row of a loaded channel takes all that a change makes of it, except the key. -/
theorem first_save {c' : Channel} (h : db.first c.id = some c) (hid : c'.id = c.id)
    (hkey : c'.key = c.key) (hkeys : c'.keys = []) (id : Int) :
    (db.save c').first id = if id = c.id then some c' else db.first id := by
  obtain ⟨row, hrow, hc⟩ := Option.map_eq_some_iff.1 h
  rw [Database.first, Database.save, Table.get?_update, hid]
  split
  next hid' =>
    rw [hrow, Option.map_some, Option.map_some]
    have hrowID : row.id = c.id := Table.pk_of_get? hrow
    have hrowKey : row.key = c.key := by rw [← hc, Channel.loaded]
    rw [saveColumns, Channel.loaded, hrowID, hrowKey, ← hid, ← hkey, ← hkeys]
  next => rfl

end Rows

section Persist

variable {unmarshal : String → Option (List String)} {db : Database} {c : Channel}
  {usingKey : String} {status : Int}

theorem handleMultiKeyUpdate_keeps (channel : Channel) :
    let c := handleMultiKeyUpdate unmarshal channel usingKey status
    c.id = channel.id ∧ c.key = channel.key ∧ c.keys = channel.keys ∧ c.group = channel.group ∧
      c.models = channel.models ∧ c.priority = channel.priority := by
  rw [handleMultiKeyUpdate]
  split
  · exact ⟨rfl, rfl, rfl, rfl, rfl, rfl⟩
  · simp only
    split <;> exact ⟨rfl, rfl, rfl, rfl, rfl, rfl⟩

variable (unmarshal usingKey status) in
theorem updated_keeps (channel : Channel) :
    let c := channel.updated unmarshal usingKey status
    c.id = channel.id ∧ c.key = channel.key ∧ c.keys = channel.keys ∧ c.group = channel.group ∧
      c.models = channel.models ∧ c.priority = channel.priority := by
  rw [Channel.updated]
  split
  · exact handleMultiKeyUpdate_keeps channel
  · exact ⟨rfl, rfl, rfl, rfl, rfl, rfl⟩

/-- The groups that the abilities of each channel name. -/
def SameGroups (abilities abilities' : List Ability) : Prop :=
  ∀ group channelID, (∃ a ∈ abilities', a.group = group ∧ a.channelID = channelID) ↔
    ∃ a ∈ abilities, a.group = group ∧ a.channelID = channelID

theorem SameGroups.named {abilities abilities' : List Ability} (h : SameGroups abilities abilities')
    (group : String) : (∃ a ∈ abilities', a.group = group) ↔ ∃ a ∈ abilities, a.group = group := by
  constructor
  · rintro ⟨a, ha, hgroup⟩
    obtain ⟨a', ha', hgroup', -⟩ := (h group a.channelID).1 ⟨a, ha, hgroup, rfl⟩
    exact ⟨a', ha', hgroup'⟩
  · rintro ⟨a, ha, hgroup⟩
    obtain ⟨a', ha', hgroup', -⟩ := (h group a.channelID).2 ⟨a, ha, hgroup, rfl⟩
    exact ⟨a', ha', hgroup'⟩

theorem sameGroups_updateAbilityStatus (db : Database) (channelID : Int) (enabled : Bool) :
    SameGroups db.abilities (db.updateAbilityStatus channelID enabled).abilities := by
  intro group id
  simp only [Database.updateAbilityStatus, List.mem_map]
  constructor
  · rintro ⟨-, ⟨a, ha, rfl⟩, hgroup⟩
    refine ⟨a, ha, ?_⟩
    split at hgroup <;> exact hgroup
  · rintro ⟨a, ha, hgroup⟩
    refine ⟨_, ⟨a, ha, rfl⟩, ?_⟩
    split <;> exact hgroup

variable (unmarshal usingKey status) in
/-- The row of the channel is changed, or left alone when it has the status already. -/
theorem persistChannelStatus_effect (h : db.first c.id = some c) :
    ∃ db', ((persistChannelStatus unmarshal c.id usingKey status).run db).2 = db' ∧
      SameGroups db.abilities db'.abilities ∧ ∀ id, db'.first id =
        if id = c.id ∧ c.id ≠ 0 ∧ c.status ≠ status then
          some (c.updated unmarshal usingKey status)
        else db.first id := by
  refine ⟨_, rfl, ?_⟩
  have hload : ((loadChannelByID c.id).attempt).run db = (.ok (.ok c), db) := by
    rw [run_attempt, loadChannelByID, run_stepE, h]
  rw [persistChannelStatus, run_bind_ok hload]
  simp only
  by_cases hstatus : c.status = status
  · rw [if_pos hstatus]
    simp [hstatus, SameGroups]
  · obtain ⟨hid', hkey, hkeys, -⟩ := updated_keeps unmarshal usingKey status c
    -- the save fails for a channel without an id
    have hsave : ∃ r db₁, (saveChannelWithoutKey (c.updated unmarshal usingKey status)).attempt.run
        db = (.ok r, db₁) ∧ db₁.abilities = db.abilities ∧ ∀ id, db₁.first id =
          if id = c.id ∧ c.id ≠ 0 then some (c.updated unmarshal usingKey status)
          else db.first id := by
      rw [run_attempt, saveChannelWithoutKey, run_stepE, hid', h]
      by_cases hid : c.id = 0
      · simp [hid]
      · have hfirst := first_save h hid' hkey (hkeys.trans (first_eq_some h).2)
        exact ⟨.ok (), db.save (c.updated unmarshal usingKey status), by simp [hid], rfl,
          by simpa [hid] using hfirst⟩
    obtain ⟨r, db₁, hrun, habilities, hfirst⟩ := hsave
    rw [if_neg hstatus, run_bind_ok hrun]
    simp only [ne_eq, hstatus, not_false_eq_true, and_true]
    split
    · rw [run_bind, run_step]
      rw [← habilities]
      exact ⟨sameGroups_updateAbilityStatus _ _ _, hfirst⟩
    · refine ⟨fun _ _ => ?_, hfirst⟩
      simp only [pure_eq, run_ret, habilities]

end Persist

section Statement

structure Call where
  channelID : Int
  usingKey : String
  status : Int

variable (unmarshal : String → Option (List String))

/-- The state after a call. -/
def afterCall (s : State) (call : Call) : State :=
  (updateChannelStatus unmarshal call.channelID call.usingKey call.status s).2

/-- What holds of every call of a run and of the state in which it is made. -/
def Along (P : State → Call → Prop) : State → List Call → Prop
  | _, [] => True
  | s, call :: calls => P s call ∧ Along P (afterCall unmarshal s call) calls

structure Same (cache rebuilt : Cache) : Prop where
  status : ∀ id, (cache.channelsIDM id).map (·.status) = (rebuilt.channelsIDM id).map (·.status)
  keyStatus : ∀ id, (cache.channelsIDM id).map (·.channelInfo.multiKeyStatusList) =
    (rebuilt.channelsIDM id).map (·.channelInfo.multiKeyStatusList)
  listed : ∀ group model id, id ∈ cache.group2model2channels.ids group model ↔
    id ∈ rebuilt.group2model2channels.ids group model
  ordered : ∀ group model,
    Ordered rebuilt.channelsIDM (cache.group2model2channels.ids group model) ∧
      Ordered rebuilt.channelsIDM (rebuilt.group2model2channels.ids group model)

/-- The cache is what a rebuild would make, and selects the channels that are enabled. -/
structure Refines (s : State) : Prop where
  rebuilt : ∃ rebuilt, initChannelCache unmarshal s.cache s.db.find s.db.abilities = some rebuilt ∧
    Same s.cache rebuilt
  selectable : ∀ id, (∃ group model, id ∈ s.cache.group2model2channels.ids group model) ↔
    ∃ c, s.db.first id = some c ∧ c.status = channelStatusEnabled

def keyStatus (channel : Option Channel) (i : Int) : Option Int :=
  channel.bind (·.channelInfo.multiKeyStatusList.lookup i)

/-- A call with one of the keys of its channel leaves the status of the other keys. -/
def OthersKept (s : State) (call : Call) : Prop :=
  (∀ c, s.db.first call.channelID = some c → c.channelInfo.isMultiKey →
    call.usingKey ∈ c.getKeys unmarshal) →
  ∀ id (i : Nat), (∀ c, s.db.first id = some c → id = call.channelID →
      (c.getKeys unmarshal)[i]? ≠ some call.usingKey) →
    keyStatus ((afterCall unmarshal s call).db.first id) i = keyStatus (s.db.first id) i ∧
      keyStatus ((afterCall unmarshal s call).cache.channelsIDM id) i =
        keyStatus (s.cache.channelsIDM id) i

/-- The keys that are off once the call has set the status of one. -/
def offAfter (c : Channel) (keyIndex status : Int) : Finset Int :=
  if status = channelStatusEnabled then c.channelInfo.multiKeyStatusList.keys.erase keyIndex
  else insert keyIndex c.channelInfo.multiKeyStatusList.keys

/-- The key has the same place in both lists. When the stored channel has the status of the call,
the key has it too, and otherwise the call does not turn the channel on or off. -/
structure CarefulKey (c : Channel) (keys cachedKeys : List String) (usingKey : String)
    (status : Int) : Prop where
  empty : cachedKeys = [] ↔ keys = []
  place : keyIndex cachedKeys usingKey = keyIndex keys usingKey
  unnoticed : c.status = status → keys ≠ [] →
    c.channelInfo.multiKeyStatusList.lookup (keyIndex keys usingKey : Int) =
        (if status = channelStatusEnabled then none else some status) ∧
      (status = channelStatusAutoDisabled ∨
        (c.channelInfo.multiKeyStatusList.keys.card : Int) < c.channelInfo.multiKeySize)
  emptyOff : c.status ≠ status → keys = [] →
    c.status ≠ channelStatusEnabled ∧ status ≠ channelStatusEnabled
  someOn : c.status = channelStatusEnabled → c.status ≠ status → keys ≠ [] →
    ((offAfter c (keyIndex keys usingKey) status).card : Int) < c.channelInfo.multiKeySize

def Careful (s : State) (call : Call) : Prop :=
  ∀ c channelCache, s.db.first call.channelID = some c →
    s.cache.channelsIDM call.channelID = some channelCache →
    if c.channelInfo.isMultiKey then
      CarefulKey c (c.getKeys unmarshal) (channelCache.getKeys unmarshal) call.usingKey call.status
    else c.status = call.status ∨ call.status = channelStatusEnabled ∨
      ∀ group model, (s.cache.group2model2channels.ids group model).count call.channelID ≤ 1

/-- Every channel has an id and an ability for each of its groups. -/
structure Stored (db : Database) : Prop where
  assigned : ∀ id c, db.first id = some c → c.id ≠ 0
  named : ∀ id c, db.first id = some c → ∀ group ∈ c.groupNames,
    ∃ a ∈ db.abilities, a.group = group

end Statement

section Invariant

/-- A channel without what only a cached one holds. -/
def Channel.seen (c : Channel) : Channel :=
  { c with keys := [], channelInfo := { c.channelInfo with multiKeyPollingIndex := 0 } }

structure Inv (s : State) : Prop extends Stored s.db where
  mirrored : ∀ id, (s.cache.channelsIDM id).map Channel.seen = (s.db.first id).map Channel.seen
  listed : ∀ group model id, id ∈ s.cache.group2model2channels.ids group model ↔
    ∃ c, s.db.first id = some c ∧ c.status = channelStatusEnabled ∧ group ∈ c.groupNames ∧
      model ∈ c.modelNames
  ordered : ∀ group model, Ordered s.db.first (s.cache.group2model2channels.ids group model)

variable {unmarshal : String → Option (List String)} {s : State}

theorem fields_of_seen {c d : Channel} (h : c.seen = d.seen) :
    c.status = d.status ∧ c.channelInfo.isMultiKey = d.channelInfo.isMultiKey ∧
      c.groupNames = d.groupNames ∧ c.modelNames = d.modelNames := by
  have hstatus := congrArg Channel.status h
  have hmulti := congrArg (·.channelInfo.isMultiKey) h
  have hgroups := congrArg Channel.groupNames h
  have hmodels := congrArg Channel.modelNames h
  exact ⟨hstatus, hmulti, hgroups, hmodels⟩

theorem seen_cached (c : Channel) (old : Cache) : (c.cached unmarshal old).seen = c.seen := by
  rw [Channel.cached]
  split
  · rfl
  · dsimp only
    split
    · split <;> rfl
    · rfl

/-- The priorities are those of the channels as they are seen. -/
theorem priority_eq_of_seen {p q : Int → Option Channel}
    (h : ∀ id, (p id).map Channel.seen = (q id).map Channel.seen) (id : Int) :
    Cache.priority p id = Cache.priority q id := by
  have hpriority : ∀ o : Option Channel,
      o.map Channel.getPriority = (o.map Channel.seen).map Channel.getPriority := by
    rintro (- | c) <;> rfl
  rw [Cache.priority, Cache.priority, hpriority, h, ← hpriority]

theorem ordered_of_seen {p q : Int → Option Channel} {channelIDs : List Int}
    (h : ∀ id, (p id).map Channel.seen = (q id).map Channel.seen) :
    Ordered p channelIDs ↔ Ordered q channelIDs := by
  simp only [Ordered, priority_eq_of_seen h]

theorem inv_of_init {db : Database} {old cache : Cache} (hdb : Stored db)
    (h : initChannelCache unmarshal old db.find db.abilities = some cache) : Inv ⟨db, cache⟩ where
  toStored := hdb
  mirrored id := by
    rw [channelsIDM_of_init h, find?_find, Option.map_map]
    exact congrArg (Option.map · _) (funext fun c => seen_cached c old)
  listed group model id := by
    rw [mem_ids_of_init h]
    constructor
    · rintro ⟨c, hc, henabled, hgroup, hmodel, rfl⟩
      exact ⟨c, mem_find_iff.1 hc, henabled, hgroup, hmodel⟩
    · rintro ⟨c, hc, henabled, hgroup, hmodel⟩
      have hid := (first_eq_some hc).1
      subst hid
      exact ⟨c, mem_find_iff.2 hc, henabled, hgroup, hmodel, rfl⟩
  ordered group model := by
    have hordered := ordered_of_init h group model
    simpa only [find?_find] using hordered

theorem Inv.refines (h : Inv s) : Refines unmarshal s := by
  have hnamed : Named s.db.find s.db.abilities := by
    intro c hc _
    exact h.named c.id c (mem_find_iff.1 hc)
  obtain ⟨rebuilt, hrebuilt⟩ := Option.isSome_iff_exists.1
    ((initChannelCache_isSome unmarshal s.cache).2 hnamed)
  have hinv : Inv ⟨s.db, rebuilt⟩ := inv_of_init h.toStored hrebuilt
  have hseen : ∀ id, (rebuilt.channelsIDM id).map Channel.seen =
      (s.cache.channelsIDM id).map Channel.seen := by
    intro id
    rw [h.mirrored id]
    exact hinv.mirrored id
  have hmap : ∀ {β : Type} (f : Channel → β), (∀ c, f c = f c.seen) → ∀ id,
      (s.cache.channelsIDM id).map f = (rebuilt.channelsIDM id).map f := by
    intro β f hf id
    have hcomp : ∀ o : Option Channel, o.map f = (o.map Channel.seen).map f := by
      rintro (- | c)
      · rfl
      · exact congrArg some (hf c)
    rw [hcomp, hcomp (rebuilt.channelsIDM id), hseen]
  constructor
  · refine ⟨rebuilt, hrebuilt, hmap _ fun _ => rfl, hmap _ fun _ => rfl, ?_, ?_⟩
    · intro group model id
      rw [h.listed]
      exact (hinv.listed group model id).symm
    · intro group model
      rw [ordered_of_seen hinv.mirrored, ordered_of_seen hinv.mirrored]
      exact ⟨h.ordered group model, hinv.ordered group model⟩
  · intro id
    constructor
    · rintro ⟨group, model, hid⟩
      obtain ⟨c, hc, henabled, -⟩ := (h.listed group model id).1 hid
      exact ⟨c, hc, henabled⟩
    · rintro ⟨c, hc, henabled⟩
      obtain ⟨group, hgroup⟩ := List.exists_mem_of_ne_nil _ (split_ne_nil c.group ',')
      obtain ⟨model, hmodel⟩ := List.exists_mem_of_ne_nil _ (split_ne_nil c.models ',')
      exact ⟨group, model, (h.listed group model id).2 ⟨c, hc, henabled, hgroup, hmodel⟩⟩

/-- The channel `d` becomes `d'`, in the database and in the cache. -/
structure Changed (s s' : State) (d d' : Channel) : Prop where
  stored : s.db.first d.id = some d
  keeps : d'.id = d.id ∧ d'.group = d.group ∧ d'.models = d.models ∧ d'.priority = d.priority
  sameGroups : SameGroups s.db.abilities s'.db.abilities
  first : ∀ id, s'.db.first id = if id = d.id then some d' else s.db.first id
  mirrored : ∀ id, (s'.cache.channelsIDM id).map Channel.seen =
    if id = d.id then some d'.seen else (s.cache.channelsIDM id).map Channel.seen

theorem Inv.changed (h : Inv s) {s' : State} {d d' : Channel} (hchanged : Changed s s' d d')
    (hlisted : ∀ group model id, id ∈ s'.cache.group2model2channels.ids group model ↔
      if id = d.id then d'.status = channelStatusEnabled ∧ group ∈ d.groupNames ∧
        model ∈ d.modelNames
      else id ∈ s.cache.group2model2channels.ids group model)
    (hordered : ∀ group model,
      Ordered s.db.first (s'.cache.group2model2channels.ids group model)) : Inv s' := by
  obtain ⟨hid, hgroup, hmodels, hpriority⟩ := hchanged.keeps
  have hgroups : d'.groupNames = d.groupNames := by rw [Channel.groupNames, hgroup]; rfl
  have hmodelNames : d'.modelNames = d.modelNames := by rw [Channel.modelNames, hmodels]; rfl
  constructor
  · constructor
    · intro id c hc
      rw [hchanged.first] at hc
      split at hc
      · cases hc
        rw [hid]
        exact h.assigned _ _ hchanged.stored
      · exact h.assigned id c hc
    · intro id c hc group hmem
      rw [hchanged.first] at hc
      rw [hchanged.sameGroups.named group]
      split at hc
      · cases hc
        exact h.named _ _ hchanged.stored group (hgroups ▸ hmem)
      · exact h.named id c hc group hmem
  · intro id
    rw [hchanged.mirrored, hchanged.first]
    split
    · rfl
    · exact h.mirrored id
  · intro group model id
    rw [hlisted, hchanged.first]
    split
    · simp [hgroups, hmodelNames]
    · exact h.listed group model id
  · intro group model
    have hsame : ∀ id, Cache.priority s'.db.first id = Cache.priority s.db.first id := by
      intro id
      rw [Cache.priority, Cache.priority, hchanged.first]
      split
      next hd =>
        subst hd
        rw [hchanged.stored]
        simp only [Option.map_some, Option.getD_some, Channel.getPriority, hpriority]
      next => rfl
    simpa only [Ordered, hsame] using hordered group model

end Invariant

section Step

variable {unmarshal : String → Option (List String)} {s : State} {call : Call}

theorem seen_handleMultiKeyUpdate {c d : Channel} {usingKey : String} {status : Int}
    (hseen : c.seen = d.seen) (hempty : c.getKeys unmarshal = [] ↔ d.getKeys unmarshal = [])
    (hplace : keyIndex (c.getKeys unmarshal) usingKey = keyIndex (d.getKeys unmarshal) usingKey) :
    (handleMultiKeyUpdate unmarshal c usingKey status).seen =
      (handleMultiKeyUpdate unmarshal d usingKey status).seen := by
  have hspec : ∀ c : Channel, (handleMultiKeyUpdate unmarshal c usingKey status).seen =
      if c.getKeys unmarshal = [] then { c.seen with status := status }
      else
        let info :=
          c.seen.channelInfo.setKeyStatus (keyIndex (c.getKeys unmarshal) usingKey) status
        if info.multiKeySize ≤ (info.multiKeyStatusList.keys.card : Int) then
          { c.seen with channelInfo := info, status := channelStatusAutoDisabled }
        else { c.seen with channelInfo := info } := by
    intro c
    rw [handleMultiKeyUpdate]
    split
    · rfl
    · simp only
      split <;> rename_i hsize
      · exact (if_pos hsize).symm
      · exact (if_neg hsize).symm
  rw [hspec, hspec, hseen, hplace]
  simp only [hempty]

theorem keys_setKeyStatus (info : ChannelInfo) (keyIndex status : Int) :
    (info.setKeyStatus keyIndex status).multiKeyStatusList.keys =
      if status = channelStatusEnabled then info.multiKeyStatusList.keys.erase keyIndex
      else insert keyIndex info.multiKeyStatusList.keys := by
  rw [ChannelInfo.setKeyStatus]
  simp only
  split
  · exact Finmap.keys_erase _ _
  · ext i
    rw [Finmap.mem_keys, Finmap.mem_insert, Finset.mem_insert, Finmap.mem_keys]

theorem lookup_setKeyStatus (info : ChannelInfo) (keyIndex status i : Int) :
    (info.setKeyStatus keyIndex status).multiKeyStatusList.lookup i =
      if i = keyIndex then (if status = channelStatusEnabled then none else some status)
      else info.multiKeyStatusList.lookup i := by
  rw [ChannelInfo.setKeyStatus]
  simp only
  by_cases hi : i = keyIndex
  · subst hi
    split <;> simp
  · rw [if_neg hi]
    split
    · exact Finmap.lookup_erase_ne hi
    · exact Finmap.lookup_insert_of_ne _ hi

theorem step_of_none
    (h : updateCachedStatus unmarshal call.channelID call.usingKey call.status s.cache = none) :
    afterCall unmarshal s call = s := by
  rw [afterCall, updateChannelStatus, h]

theorem step_of_some {cache : Cache}
    (h : updateCachedStatus unmarshal call.channelID call.usingKey call.status s.cache =
      some cache) : afterCall unmarshal s call = ⟨((persistChannelStatus unmarshal call.channelID
        call.usingKey call.status).run s.db).2, cache⟩ := by
  rw [afterCall, updateChannelStatus, h]

theorem Inv.stored_of_cached (h : Inv s) {id : Int} {c : Channel}
    (hc : s.cache.channelsIDM id = some c) :
    ∃ d, s.db.first id = some d ∧ c.seen = d.seen ∧ d.id = id := by
  have hmirrored := h.mirrored id
  rw [hc, Option.map_some] at hmirrored
  obtain ⟨d, hd, hseen⟩ := Option.map_eq_some_iff.1 hmirrored.symm
  exact ⟨d, hd, hseen.symm, (first_eq_some hd).1⟩

/-- What the call makes of the stored channel. -/
def Channel.after (unmarshal : String → Option (List String)) (d : Channel) (call : Call) :
    Channel :=
  if d.status = call.status then d else d.updated unmarshal call.usingKey call.status

theorem changed_step (h : Inv s) {cache : Cache} {d : Channel}
    (hd : s.db.first call.channelID = some d)
    (hcache : updateCachedStatus unmarshal call.channelID call.usingKey call.status s.cache =
      some cache)
    (hmirrored : ∀ id, (cache.channelsIDM id).map Channel.seen =
      if id = d.id then some (d.after unmarshal call).seen
      else (s.cache.channelsIDM id).map Channel.seen) :
    Changed s (afterCall unmarshal s call) d (d.after unmarshal call) := by
  have hid := (first_eq_some hd).1
  have hstored : s.db.first d.id = some d := by rw [hid, hd]
  obtain ⟨db', hdb', hgroups, hfirst⟩ := persistChannelStatus_effect unmarshal call.usingKey
    call.status hstored
  rw [hid] at hdb'
  constructor
  · exact hstored
  · rw [Channel.after]
    split
    · exact ⟨rfl, rfl, rfl, rfl⟩
    · obtain ⟨hid, -, -, hgroup, hmodels, hpriority⟩ := updated_keeps unmarshal
        call.usingKey call.status d
      exact ⟨hid, hgroup, hmodels, hpriority⟩
  · rw [step_of_some hcache, hdb']
    exact hgroups
  · intro id
    rw [step_of_some hcache, hdb']
    simp only [hfirst, Channel.after]
    by_cases hdID : id = d.id
    · subst hdID
      have hid := h.assigned _ _ hstored
      by_cases hstatus : d.status = call.status <;> simp [hstatus, hstored, hid]
    · simp [hdID]
  · rw [step_of_some hcache]
    exact hmirrored

theorem seen_update {cache : Cache} {id : Int} {c d : Channel} (hc : c.seen = d.seen) (id' : Int) :
    (Function.update cache.channelsIDM id (some c) id').map Channel.seen =
      if id' = id then some d.seen else (cache.channelsIDM id').map Channel.seen := by
  by_cases hid : id' = id
  · subst hid
    rw [Function.update_self, if_pos rfl, Option.map_some, hc]
  · rw [Function.update_of_ne hid, if_neg hid]

theorem Inv.mem_ids_iff (h : Inv s) {d : Channel} (hd : s.db.first d.id = some d)
    (group model : String) : d.id ∈ s.cache.group2model2channels.ids group model ↔
      d.status = channelStatusEnabled ∧ group ∈ d.groupNames ∧ model ∈ d.modelNames := by
  rw [h.listed, hd]
  simp

section MultiKey

variable {c d : Channel}

theorem handleMultiKeyUpdate_of_ne (hkeys : d.getKeys unmarshal ≠ []) (usingKey : String)
    (status : Int) :
    let info := d.channelInfo.setKeyStatus (keyIndex (d.getKeys unmarshal) usingKey) status
    handleMultiKeyUpdate unmarshal d usingKey status =
      if info.multiKeySize ≤ (info.multiKeyStatusList.keys.card : Int) then
        { d with channelInfo := info, status := channelStatusAutoDisabled }
      else { d with channelInfo := info } := by
  rw [handleMultiKeyUpdate, if_neg hkeys]

theorem card_setKeyStatus (d : Channel) (keyIndex status : Int) :
    (d.channelInfo.setKeyStatus keyIndex status).multiKeyStatusList.keys.card =
      (offAfter d keyIndex status).card := by
  rw [keys_setKeyStatus, offAfter]

/-- An update that makes no difference to the stored channel. -/
theorem CarefulKey.update_eq {keys cachedKeys : List String}
    (hcareful : CarefulKey d keys cachedKeys call.usingKey call.status)
    (hkeys : keys = d.getKeys unmarshal) (hstatus : d.status = call.status) :
    handleMultiKeyUpdate unmarshal d call.usingKey call.status = d := by
  subst hkeys
  by_cases hempty : d.getKeys unmarshal = []
  · rw [handleMultiKeyUpdate, if_pos hempty, ← hstatus]
  · obtain ⟨hlookup, hon⟩ := hcareful.unnoticed hstatus hempty
    have hlist : (d.channelInfo.setKeyStatus (keyIndex (d.getKeys unmarshal) call.usingKey)
        call.status).multiKeyStatusList = d.channelInfo.multiKeyStatusList := by
      apply Finmap.ext_lookup
      intro i
      rw [lookup_setKeyStatus]
      split
      next hi => rw [hi, hlookup]
      next => rfl
    have hinfo : d.channelInfo.setKeyStatus (keyIndex (d.getKeys unmarshal) call.usingKey)
        call.status = d.channelInfo := by
      rw [ChannelInfo.setKeyStatus] at hlist ⊢
      simp only at hlist
      rw [hlist]
    rw [handleMultiKeyUpdate_of_ne hempty, hinfo]
    split
    next hsize =>
      rcases hon with hauto | hon
      · rw [← hauto, ← hstatus]
      · omega
    next => rfl

/-- The channel is on after the update exactly when it was on before. -/
theorem CarefulKey.enabled_iff {keys cachedKeys : List String}
    (hcareful : CarefulKey d keys cachedKeys call.usingKey call.status)
    (hkeys : keys = d.getKeys unmarshal) (hstatus : d.status ≠ call.status) :
    (handleMultiKeyUpdate unmarshal d call.usingKey call.status).status = channelStatusEnabled ↔
      d.status = channelStatusEnabled := by
  subst hkeys
  by_cases hempty : d.getKeys unmarshal = []
  · obtain ⟨hoff, hoff'⟩ := hcareful.emptyOff hstatus hempty
    rw [handleMultiKeyUpdate, if_pos hempty]
    exact iff_of_false hoff' hoff
  · rw [handleMultiKeyUpdate_of_ne hempty]
    split
    next hsize =>
      rw [card_setKeyStatus] at hsize
      have hoff : channelStatusAutoDisabled ≠ channelStatusEnabled := by decide
      apply iff_of_false hoff
      intro hon
      have hsome := hcareful.someOn hon hstatus hempty
      have hsame : (d.channelInfo.setKeyStatus (keyIndex (d.getKeys unmarshal) call.usingKey)
        call.status).multiKeySize = d.channelInfo.multiKeySize := rfl
      omega
    next => rfl

theorem Inv.step_multiKey (h : Inv s) (hc : s.cache.channelsIDM call.channelID = some c)
    (hd : s.db.first call.channelID = some d) (hmulti : c.channelInfo.isMultiKey = true)
    (hcareful : CarefulKey d (d.getKeys unmarshal) (c.getKeys unmarshal) call.usingKey
      call.status) :
    Changed s (afterCall unmarshal s call) d (d.after unmarshal call) ∧
      Inv (afterCall unmarshal s call) := by
  obtain ⟨d₁, hd₁, hseen, hid⟩ := h.stored_of_cached hc
  cases hd.symm.trans hd₁
  have hmulti' : d.channelInfo.isMultiKey = true := (fields_of_seen hseen).2.1 ▸ hmulti
  have hcache : updateCachedStatus unmarshal call.channelID call.usingKey call.status s.cache =
      some ⟨Function.update s.cache.channelsIDM call.channelID
        (some (handleMultiKeyUpdate unmarshal c call.usingKey call.status)),
        s.cache.group2model2channels⟩ := by
    rw [updateCachedStatus, hc]
    simp only [hmulti, if_true]
  have hafter : (handleMultiKeyUpdate unmarshal c call.usingKey call.status).seen =
      (d.after unmarshal call).seen := by
    rw [seen_handleMultiKeyUpdate hseen hcareful.empty hcareful.place, Channel.after]
    split
    next hstatus => rw [hcareful.update_eq rfl hstatus]
    next => rw [Channel.updated, if_pos hmulti']
  have hchanged := changed_step h hd hcache fun id => by
    rw [hid]
    exact seen_update hafter id
  refine ⟨hchanged, h.changed hchanged ?_ ?_⟩
  · intro group model id
    rw [step_of_some hcache]
    have henabled : (d.after unmarshal call).status = channelStatusEnabled ↔
        d.status = channelStatusEnabled := by
      rw [Channel.after]
      split
      next => rfl
      next hstatus =>
        rw [Channel.updated, if_pos hmulti']
        exact hcareful.enabled_iff rfl hstatus
    split
    next hdID =>
      rw [hdID, henabled]
      exact h.mem_ids_iff hchanged.stored _ _
    next => rfl
  · intro group model
    rw [step_of_some hcache]
    exact h.ordered group model

end MultiKey

section SingleKey

variable {c d : Channel} {cache : Cache} {channelID status : Int}

theorem channelsIDM_cacheUpdate (hc : cache.channelsIDM channelID = some c) :
    (cacheUpdateChannelStatus channelID status cache).channelsIDM =
      Function.update cache.channelsIDM channelID (some { c with status := status }) := by
  rw [cacheUpdateChannelStatus, hc]
  simp only
  split <;> rfl

theorem mem_ids_cacheUpdate (hc : cache.channelsIDM channelID = some c) {group model : String}
    {id : Int} :
    id ∈ (cacheUpdateChannelStatus channelID status cache).group2model2channels.ids group model ↔
      if status = channelStatusEnabled then id ∈ cache.group2model2channels.ids group model ∨
        id = channelID ∧ group ∈ c.groupNames ∧ model ∈ c.modelNames
      else id ∈ (cache.group2model2channels.ids group model).erase channelID := by
  rw [cacheUpdateChannelStatus, hc]
  simp only
  split
  · exact mem_ids_foldl_addGroup
  · rw [ids_erase]

variable (status) in
theorem ordered_cacheUpdate (hc : cache.channelsIDM channelID = some c)
    (h : ∀ group model, Ordered cache.channelsIDM (cache.group2model2channels.ids group model))
    (group model : String) : Ordered cache.channelsIDM
      ((cacheUpdateChannelStatus channelID status cache).group2model2channels.ids group model) := by
  have hpriority : ∀ id, Cache.priority (Function.update cache.channelsIDM channelID
      (some { c with status := status })) id = Cache.priority cache.channelsIDM id := by
    intro id
    rw [Cache.priority, Cache.priority]
    by_cases hid : id = channelID
    · subst hid
      rw [Function.update_self, hc]
      rfl
    · rw [Function.update_of_ne hid]
  rw [cacheUpdateChannelStatus, hc]
  simp only
  split
  · simp only [Ordered, ← hpriority] at h ⊢
    exact ordered_foldl_addGroup h group model
  · rw [ids_erase]
    exact (h group model).sublist List.erase_sublist

theorem Inv.step_singleKey (h : Inv s) (hc : s.cache.channelsIDM call.channelID = some c)
    (hd : s.db.first call.channelID = some d) (hsingle : c.channelInfo.isMultiKey = false)
    (hstatus : c.status ≠ call.status)
    (hcount : call.status = channelStatusEnabled ∨
      ∀ group model, (s.cache.group2model2channels.ids group model).count call.channelID ≤ 1) :
    Changed s (afterCall unmarshal s call) d { d with status := call.status } ∧
      Inv (afterCall unmarshal s call) := by
  obtain ⟨d₁, hd₁, hseen, hid⟩ := h.stored_of_cached hc
  cases hd.symm.trans hd₁
  obtain ⟨hsame, hsingle', hgroups, hmodels⟩ := fields_of_seen hseen
  rw [hsingle] at hsingle'
  have hafter : d.after unmarshal call = { d with status := call.status } := by
    rw [Channel.after, if_neg (hsame ▸ hstatus), Channel.updated, ← hsingle']
    rfl
  have hcache : updateCachedStatus unmarshal call.channelID call.usingKey call.status s.cache =
      some (cacheUpdateChannelStatus call.channelID call.status s.cache) := by
    rw [updateCachedStatus, hc]
    simp [hsingle, hstatus]
  have hseen' : ({ c with status := call.status } : Channel).seen =
      ({ d with status := call.status } : Channel).seen :=
    have hset := congrArg (fun e : Channel => ({ e with status := call.status } : Channel)) hseen
    hset
  have hchanged := changed_step h hd hcache fun id => by
    rw [hid, channelsIDM_cacheUpdate hc, hafter]
    exact seen_update hseen' id
  rw [hafter] at hchanged
  refine ⟨hchanged, h.changed hchanged ?_ ?_⟩
  · intro group model id
    rw [step_of_some hcache, hid, mem_ids_cacheUpdate hc, hgroups, hmodels]
    have hbefore := h.mem_ids_iff hchanged.stored group model
    rw [hid] at hbefore
    by_cases hdID : id = call.channelID
    · subst hdID
      rw [if_pos rfl]
      split
      next henabled =>
        have hoff : d.status ≠ channelStatusEnabled := by
          rw [← hsame, ← henabled]
          exact hstatus
        simp [hbefore, hoff, henabled]
      next hoff =>
        have hone := (hcount.resolve_left hoff) group model
        simp only [hoff, false_and, iff_false]
        intro hmem
        have hleft := List.count_pos_iff.2 hmem
        rw [List.count_erase_self] at hleft
        omega
    · rw [if_neg hdID]
      split
      · simp [hdID]
      · exact List.mem_erase_of_ne hdID
  · intro group model
    rw [step_of_some hcache]
    have hordered := ordered_cacheUpdate call.status hc
      (fun group model => (ordered_of_seen h.mirrored).2 (h.ordered group model)) group model
    exact (ordered_of_seen h.mirrored).1 hordered

end SingleKey

section Others

variable {c d d' : Channel}

theorem getElem?_keyIndex {keys : List String} {usingKey : String} (h : usingKey ∈ keys) :
    keys[keyIndex keys usingKey]? = some usingKey := by
  cases hfind : keys.findIdx? (· = usingKey) with
  | none =>
    rw [List.findIdx?_eq_none_iff] at hfind
    simpa using hfind usingKey h
  | some i =>
    obtain ⟨hi, hkey, -⟩ := List.findIdx?_eq_some_iff_getElem.1 hfind
    rw [keyIndex, hfind, Option.getD_some, List.getElem?_eq_getElem hi]
    simpa using hkey

/-- An update of a channel with several keys sets the status of one place. -/
theorem lookup_handleMultiKeyUpdate (usingKey : String) (status i : Int)
    (hi : i ≠ keyIndex (d.getKeys unmarshal) usingKey) :
    (handleMultiKeyUpdate unmarshal d usingKey status).channelInfo.multiKeyStatusList.lookup i =
      d.channelInfo.multiKeyStatusList.lookup i := by
  by_cases hempty : d.getKeys unmarshal = []
  · rw [handleMultiKeyUpdate, if_pos hempty]
  · rw [handleMultiKeyUpdate_of_ne hempty]
    have hlookup := lookup_setKeyStatus d.channelInfo (keyIndex (d.getKeys unmarshal) usingKey)
      status i
    rw [if_neg hi] at hlookup
    split <;> exact hlookup

theorem Inv.keyStatus_eq (h : Inv s) (id i : Int) :
    keyStatus (s.cache.channelsIDM id) i = keyStatus (s.db.first id) i := by
  have hseen : ∀ o : Option Channel, keyStatus o i = keyStatus (o.map Channel.seen) i := by
    rintro (- | c) <;> rfl
  rw [hseen, h.mirrored, ← hseen]

theorem OthersKept.of_changed (h : Inv s) (h' : Inv (afterCall unmarshal s call))
    (hid : d.id = call.channelID) (hchanged : Changed s (afterCall unmarshal s call) d d')
    (hkept : ∀ i : Int, i ≠ keyIndex (d.getKeys unmarshal) call.usingKey ∨
      d.channelInfo.isMultiKey = false → d'.channelInfo.multiKeyStatusList.lookup i =
        d.channelInfo.multiKeyStatusList.lookup i) : OthersKept unmarshal s call := by
  intro hkey id i hother
  have hstored : keyStatus ((afterCall unmarshal s call).db.first id) i =
      keyStatus (s.db.first id) i := by
    rw [hchanged.first]
    split
    next hdID =>
      subst hdID
      rw [hchanged.stored]
      apply hkept
      cases hmulti : d.channelInfo.isMultiKey with
      | false => exact .inr rfl
      | true =>
        have hmem := hkey d (hid ▸ hchanged.stored) hmulti
        have hplace := hother d hchanged.stored hid
        refine .inl fun hi => hplace ?_
        rw [Nat.cast_inj.1 hi]
        exact getElem?_keyIndex hmem
    next => rfl
  exact ⟨hstored, by rw [h'.keyStatus_eq, h.keyStatus_eq, hstored]⟩

end Others

theorem othersKept_of_eq (h : afterCall unmarshal s call = s) : OthersKept unmarshal s call := by
  intro _ id i _
  rw [h]
  exact ⟨rfl, rfl⟩

/-- One call keeps the cache and the database alike. -/
theorem Inv.keep (h : Inv s) (hcareful : Careful unmarshal s call) :
    Inv (afterCall unmarshal s call) ∧ OthersKept unmarshal s call := by
  cases hc : s.cache.channelsIDM call.channelID with
  | none =>
    have hstep : afterCall unmarshal s call = s := step_of_none (by rw [updateCachedStatus, hc])
    exact ⟨by rwa [hstep], othersKept_of_eq hstep⟩
  | some c =>
    obtain ⟨d, hd, hseen, hid⟩ := h.stored_of_cached hc
    have hcall := hcareful d c hd hc
    obtain ⟨hsame, hmulti, -⟩ := fields_of_seen hseen
    rw [← hmulti] at hcall
    cases hkeys : c.channelInfo.isMultiKey with
    | true =>
      rw [if_pos hkeys] at hcall
      obtain ⟨hchanged, h'⟩ := h.step_multiKey hc hd hkeys hcall
      refine ⟨h', .of_changed h h' hid hchanged fun i hi => ?_⟩
      rw [hmulti] at hkeys
      rw [Channel.after]
      split
      · rfl
      · rw [Channel.updated, if_pos hkeys]
        apply lookup_handleMultiKeyUpdate
        exact hi.resolve_right (by simp [hkeys])
    | false =>
      by_cases hstatus : c.status = call.status
      · have hstep : afterCall unmarshal s call = s :=
          step_of_none (by simp [updateCachedStatus, hc, hkeys, hstatus])
        exact ⟨by rwa [hstep], othersKept_of_eq hstep⟩
      · simp only [hkeys, Bool.false_eq_true, if_false, ← hsame, hstatus, false_or] at hcall
        obtain ⟨hchanged, h'⟩ := h.step_singleKey hc hd hkeys hstatus hcall
        exact ⟨h', .of_changed h h' hid hchanged fun _ _ => rfl⟩

end Step

section Runs

variable {unmarshal : String → Option (List String)}

theorem Inv.along {s : State} {calls : List Call} (h : Inv s)
    (hcareful : Along unmarshal (Careful unmarshal) s calls) :
    Along unmarshal
      (fun s call => Refines unmarshal (afterCall unmarshal s call) ∧ OthersKept unmarshal s call)
      s calls := by
  induction calls generalizing s with
  | nil => trivial
  | cons call calls ih =>
    obtain ⟨hcall, hcalls⟩ := hcareful
    obtain ⟨hinv, hkept⟩ := h.keep hcall
    exact ⟨⟨hinv.refines, hkept⟩, ih hinv hcalls⟩

/-- After every call of a run of careful calls the cache is what a rebuild would make, and the call
has changed the status of no other key. -/
theorem channel_cache_refines {db : Database} {old cache : Cache} {calls : List Call}
    (hdb : Stored db)
    (hinit : initChannelCache unmarshal old db.find db.abilities = some cache)
    (hcareful : Along unmarshal (Careful unmarshal) ⟨db, cache⟩ calls) :
    Along unmarshal
      (fun s call => Refines unmarshal (afterCall unmarshal s call) ∧ OthersKept unmarshal s call)
      ⟨db, cache⟩ calls :=
  (inv_of_init hdb hinit).along hcareful

def sampleMultiKey : Channel where
  id := 1
  key := "a\nb"
  models := "m"
  group := "default"
  channelInfo := { isMultiKey := true, multiKeySize := 2 }

def sampleSingleKey : Channel where
  id := 2
  key := "c"
  status := channelStatusManuallyDisabled
  models := "m,n"
  group := "default,vip"

def sampleChannels : Database where
  channels := ⟨[sampleMultiKey, sampleSingleKey], by decide⟩
  abilities := [⟨"default", "m", 1, true⟩, ⟨"default", "m", 2, false⟩, ⟨"vip", "m", 2, false⟩,
    ⟨"default", "n", 2, false⟩, ⟨"vip", "n", 2, false⟩]

theorem stored_sampleChannels : Stored sampleChannels := by
  have hrows : ∀ c ∈ sampleChannels.find, c.id ≠ 0 ∧ ∀ group ∈ c.groupNames,
      ∃ a ∈ sampleChannels.abilities, a.group = group := by decide
  constructor
  · intro id c hc
    obtain ⟨rfl, -⟩ := first_eq_some hc
    exact (hrows c (mem_find_iff.2 hc)).1
  · intro id c hc
    obtain ⟨rfl, -⟩ := first_eq_some hc
    exact (hrows c (mem_find_iff.2 hc)).2

def sampleCache : Cache :=
  (initChannelCache (fun _ => none) {} sampleChannels.find sampleChannels.abilities).get
    (by decide)

theorem init_sampleCache : initChannelCache (fun _ => none) {} sampleChannels.find
    sampleChannels.abilities = some sampleCache := (Option.some_get _).symm

/-- One of two keys is disabled, and a channel with a single key is enabled. -/
theorem channel_cache_refines_sample :
    Along (fun _ => none)
      (fun s call => Refines (fun _ => none) (afterCall (fun _ => none) s call) ∧
        OthersKept (fun _ => none) s call)
      ⟨sampleChannels, sampleCache⟩
      [⟨1, "a", channelStatusAutoDisabled⟩, ⟨2, "c", channelStatusEnabled⟩] := by
  apply channel_cache_refines stored_sampleChannels init_sampleCache
  refine ⟨?_, ?_, trivial⟩
  · intro c channelCache hc (hcache : sampleCache.channelsIDM 1 = some channelCache)
    have hrow : sampleChannels.first 1 = some sampleMultiKey := by decide
    have hkeys : (sampleCache.channelsIDM 1).map (·.getKeys fun _ => none) = some ["a", "b"] := by
      decide +kernel
    cases hrow.symm.trans hc
    rw [hcache, Option.map_some, Option.some.injEq] at hkeys
    have hmulti : sampleMultiKey.channelInfo.isMultiKey = true := rfl
    rw [if_pos hmulti, hkeys]
    exact ⟨by decide +kernel, by decide +kernel, by decide +kernel, by decide +kernel,
      by decide +kernel⟩
  · intro c channelCache hc _
    have hrow : (afterCall (fun _ => none) ⟨sampleChannels, sampleCache⟩
        ⟨1, "a", channelStatusAutoDisabled⟩).db.first 2 = some sampleSingleKey := by
      decide +kernel
    cases hrow.symm.trans hc
    exact .inr (.inl rfl)

/-- Once both keys are off the database has the channel disabled, and the cache still lists it. -/
theorem listed_with_all_keys_off :
    ¬ ∀ (unmarshal : String → Option (List String)) (db : Database) (old cache : Cache)
      (calls : List Call), Stored db →
      initChannelCache unmarshal old db.find db.abilities = some cache →
      Along unmarshal
        (fun s call => Refines unmarshal (afterCall unmarshal s call) ∧ OthersKept unmarshal s call)
        ⟨db, cache⟩ calls := by
  intro h
  obtain ⟨-, ⟨hrefines, -⟩, -⟩ := h (fun _ => none) sampleChannels {} sampleCache
    [⟨1, "a", channelStatusAutoDisabled⟩, ⟨1, "b", channelStatusAutoDisabled⟩]
    stored_sampleChannels init_sampleCache
  obtain ⟨c, hc, henabled⟩ := (hrefines.selectable 1).1 ⟨"default", "m", by decide +kernel⟩
  have hoff : ((afterCall (fun _ => none)
      (afterCall (fun _ => none) ⟨sampleChannels, sampleCache⟩ ⟨1, "a", channelStatusAutoDisabled⟩)
      ⟨1, "b", channelStatusAutoDisabled⟩).db.first 1).map (·.status) =
        some channelStatusAutoDisabled := by decide +kernel
  rw [hc, Option.map_some, henabled] at hoff
  cases hoff

end Runs

end CodeGo.Gateway.Channels
