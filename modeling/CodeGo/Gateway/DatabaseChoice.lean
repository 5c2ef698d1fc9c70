import CodeGo.Gateway.ChannelCacheRebuild
import CodeGo.Gateway.WeightedChoice
import Mathlib.Data.List.Perm.Basic

/-!
# The choice of a channel from the database

`loadRandomSatisfiedChannelFromDB` of the channel store and the rows it chooses from, beside the
choice from a cache that was just built of the same channels.
-/

namespace CodeGo.Gateway.WeightedChoice

open CodeGo.Lib.Ranking CodeGo.Lib.Wrap

section Model

structure Ability extends Channels.Ability where
  /-- A row without a priority is stored with the default 0. -/
  priority : Int
  weight : UInt64
  deriving DecidableEq

def Channel.ability (c : Channel) (group model : String) : Ability :=
  { c.toChannel.ability group model with
    priority := c.getPriority
    weight := c.weight.getD 0 }

def buildChannelAbilities (channel : Channel) : List Ability :=
  (Channels.buildChannelAbilities channel.toChannel).map fun a => channel.ability a.group a.model

structure Database where
  channels : List Channel
  abilities : List Ability

def Database.matching (db : Database) (group modelName : String) : List Ability :=
  db.abilities.filter fun a => a.group = group ∧ a.model = modelName ∧ a.enabled

/-- `SELECT DISTINCT(priority) … ORDER BY priority DESC`. -/
def Database.priorities (db : Database) (group modelName : String) : List Int :=
  falling ((db.matching group modelName).map (·.priority))

inductive LoadFailure where
  | error (text : String)
  | recordNotFound
  | invalidArgumentToIntn
  deriving DecidableEq, Repr

def loadChannelPriority (db : Database) (group modelName : String) (retry : Nat) :
    Except LoadFailure Int :=
  let priorities := db.priorities group modelName
  if priorities = [] then .error (.error "数据库一致性被破坏")
  else if priorities.length ≤ retry then .ok (priorities.getD (priorities.length - 1) 0)
  else .ok (priorities.getD retry 0)

/-- The rows that the query selects; no row equals the maximum over none. -/
def buildChannelQuery (db : Database) (group modelName : String) (retry : Nat) :
    Except LoadFailure (List Ability) :=
  let matching := db.matching group modelName
  if retry = 0 then
    .ok (matching.filter fun a => (matching.map (·.priority)).max? = some a.priority)
  else
    (loadChannelPriority db group modelName retry).map fun priority =>
      matching.filter fun a => a.priority = priority

/-- `ORDER BY weight DESC`: rows of one weight come in whichever order the database likes. -/
structure WeightOrder where
  sort : List Ability → List Ability
  perm : ∀ rows, (sort rows).Perm rows
  falling : ∀ rows, (sort rows).Pairwise fun a b => b.weight ≤ a.weight

/-- What `GetRandomInt` is asked for. -/
def askedWeight (abilities : List Ability) : Int :=
  wrap64 (abilities.foldl (fun (weightSum : UInt64) ability => weightSum + (ability.weight + 10)) 0).toNat

/-- The channel of the row at which the number drawn is used up. -/
def landsOn : List Ability → Int → Option Int
  | [], _ => none
  | ability :: abilities, weight =>
    let left := wrap64 (weight - wrap64 (wrap64 ability.weight.toNat + 10))
    if left ≤ 0 then some ability.channelID else landsOn abilities left

def Database.firstChannel (db : Database) (channelID : Int) : Except LoadFailure (Option Channel) :=
  match db.channels.find? (·.id = channelID) with
  | some channel => .ok (some channel)
  | none => .error .recordNotFound

def loadRandomSatisfiedChannelFromDB (order : WeightOrder) (db : Database)
    (group modelName : String) (retry draw : Nat) : Except LoadFailure (Option Channel) := do
  let rows ← buildChannelQuery db group modelName retry
  match order.sort rows with
  | [] => .ok none
  | first :: abilities =>
    if askedWeight (first :: abilities) ≤ 0 then .error .invalidArgumentToIntn
    else
      let channelID := (landsOn (first :: abilities) draw).getD 0
      db.firstChannel (if channelID = 0 then first.channelID else channelID)

variable (unmarshal : String → Option (List String))

/-- A cache that was just built from the channels and the abilities. -/
def initChannelCache (old : Channels.Cache) (channels : List Channel)
    (abilities : List Ability) : Option Cache :=
  (Channels.initChannelCache unmarshal old (channels.map (·.toChannel))
      (abilities.map (·.toAbility))).map fun cache =>
    { channelsIDM := fun id => (channels.find? (·.id = id)).map fun c =>
        { c with toChannel := c.toChannel.cached unmarshal old }
      group2model2channels := cache.group2model2channels }

end Model

/-- The enabled channels that name the group and the model. -/
def listed (channels : List Channel) (group modelName : String) : List Channel :=
  channels.filter fun c => c.status = Channels.channelStatusEnabled ∧
    group ∈ c.toChannel.groupNames ∧ modelName ∈ c.toChannel.modelNames

/-- The ones among them that have a row for the pair: a channel gets none when the two names put
together are those of an earlier pair. -/
def stored (channels : List Channel) (group modelName : String) : List Channel :=
  channels.filter fun c => c.status = Channels.channelStatusEnabled ∧
    c.toChannel.ability group modelName ∈ Channels.buildChannelAbilities c.toChannel

def Cache.loaded (cache : Cache) (group modelName : String) : List Channel :=
  (cache.channelIDs group modelName).filterMap cache.channelsIDM

/-- The channels that the cached path draws from. -/
def Cache.choices (cache : Cache) (group modelName : String) (retry : Nat) : List Channel :=
  targetChannels (cache.loaded group modelName) retry

/-- The sum of the weights that a draw should range over. -/
def weightsOf (rows : List Ability) : Nat := (rows.map fun a => a.weight.toNat + 10).sum

def chosenID {ε : Type} : Except ε (Option Channel) → Option Int
  | .ok (some channel) => some channel.id
  | _ => none

/-- The two paths choose from the same channels, and the rows of the database path are drawn by
their weights. -/
structure Agreement (order : WeightOrder) (db : Database) (cache : Cache)
    (group modelName : String) (retry : Nat) : Prop where
  cached : ∀ draw c, getRandomSatisfiedChannel cache group modelName retry draw = .ok (some c) →
    c ∈ cache.choices group modelName retry
  same : ∃ rows, buildChannelQuery db group modelName retry = .ok rows ∧
    ∀ id, (∃ a ∈ rows, a.channelID = id) ↔ ∃ c ∈ cache.choices group modelName retry, c.id = id
  none : cache.choices group modelName retry = [] → ∀ draw,
    getRandomSatisfiedChannel cache group modelName retry draw = .ok none ∧
    loadRandomSatisfiedChannelFromDB order db group modelName retry draw = .ok none
  shares : ∀ rows, buildChannelQuery db group modelName retry = .ok rows → rows ≠ [] →
    askedWeight (order.sort rows) = weightsOf rows ∧
      ∀ a ∈ rows, (List.range (weightsOf rows)).countP (fun draw =>
        chosenID (loadRandomSatisfiedChannelFromDB order db group modelName retry draw) =
          some a.channelID) = a.weight.toNat + 10

/-- There are no candidates and it is the first try, or the retry leaves one channel, alone among
the channels and among their rows. -/
def Agreeing (channels : List Channel) (group modelName : String) (retry : Nat) : Prop :=
  (listed channels group modelName = [] ∧
      listed channels group (formatMatchingModelName modelName) = [] ∧ retry = 0) ∨
    ∃ c, ranked (listed channels group modelName) retry = [c] ∧
      ranked (stored channels group modelName) retry = [c] ∧ c.columnWeight + 10 < 2 ^ 63

/-- Every row that is built is the row of one of the pairs, and no pair has two. -/
theorem built_foldl_addAbility (channel : Channels.Channel) {pairs : List (String × String)}
    {built : List String × List Channels.Ability}
    (hkeys : ∀ a ∈ built.2, a.group ++ "|" ++ a.model ∈ built.1)
    (hrow : ∀ a ∈ built.2, a = channel.ability a.group a.model) (hnodup : built.2.Nodup) :
    (∀ a ∈ (pairs.foldl (Channels.addAbility channel) built).2,
        a = channel.ability a.group a.model ∧ (a ∈ built.2 ∨ (a.group, a.model) ∈ pairs)) ∧
      (pairs.foldl (Channels.addAbility channel) built).2.Nodup := by
  induction pairs generalizing built with
  | nil => exact ⟨fun a ha => ⟨hrow a ha, .inl ha⟩, hnodup⟩
  | cons pair pairs ih =>
    rw [List.foldl_cons, Channels.addAbility]
    by_cases hkey : pair.1 ++ "|" ++ pair.2 ∈ built.1
    · simp only [if_pos hkey]
      obtain ⟨hall, hnodup⟩ := ih hkeys hrow hnodup
      refine ⟨fun a ha => ⟨(hall a ha).1, (hall a ha).2.imp_right (List.mem_cons_of_mem _)⟩, hnodup⟩
    · simp only [if_neg hkey]
      have hfresh : channel.ability pair.1 pair.2 ∉ built.2 := fun h => hkey (hkeys _ h)
      obtain ⟨hall, hnodup⟩ := @ih
        ((pair.1 ++ "|" ++ pair.2) :: built.1, built.2 ++ [channel.ability pair.1 pair.2])
        (by
          intro a ha
          rcases List.mem_append.1 ha with ha | ha
          · exact List.mem_cons_of_mem _ (hkeys a ha)
          · rw [List.mem_singleton.1 ha]
            exact List.mem_cons_self)
        (by
          intro a ha
          rcases List.mem_append.1 ha with ha | ha
          · exact hrow a ha
          · rw [List.mem_singleton.1 ha]
            rfl)
        (hnodup.append (List.nodup_singleton _) (by simpa using hfresh))
      refine ⟨fun a ha => ⟨(hall a ha).1, ?_⟩, hnodup⟩
      rcases (hall a ha).2 with hbuilt | hpair
      · rcases List.mem_append.1 hbuilt with hbuilt | hnew
        · exact .inl hbuilt
        · rw [List.mem_singleton.1 hnew]
          exact .inr List.mem_cons_self
      · exact .inr (List.mem_cons_of_mem _ hpair)

theorem built (channel : Channels.Channel) :
    (∀ a ∈ Channels.buildChannelAbilities channel, a = channel.ability a.group a.model ∧
        a.group ∈ channel.groupNames ∧ a.model ∈ channel.modelNames) ∧
      (Channels.buildChannelAbilities channel).Nodup := by
  obtain ⟨hall, hnodup⟩ := @built_foldl_addAbility channel
    (channel.modelNames.flatMap fun model => channel.groupNames.map (·, model)) ([], [])
    (by simp) (by simp) List.nodup_nil
  refine ⟨fun a ha => ?_, hnodup⟩
  obtain ⟨hrow, hbuilt | hpair⟩ := hall a ha
  · cases hbuilt
  · obtain ⟨model, hmodel, hplace⟩ := List.mem_flatMap.1 hpair
    obtain ⟨group, hin, heq⟩ := List.mem_map.1 hplace
    obtain ⟨rfl, rfl⟩ := Prod.mk.inj heq
    exact ⟨hrow, hin, hmodel⟩

/-- A channel has its one row for a pair, or none. -/
theorem filter_buildChannelAbilities (c : Channel) (group modelName : String) :
    (buildChannelAbilities c).filter
        (fun a => a.group = group ∧ a.model = modelName ∧ a.enabled) =
      if c.status = Channels.channelStatusEnabled ∧
          c.toChannel.ability group modelName ∈ Channels.buildChannelAbilities c.toChannel then
        [c.ability group modelName] else [] := by
  obtain ⟨hall, hnodup⟩ := built c.toChannel
  rw [buildChannelAbilities, List.filter_map]
  have hfilter : (Channels.buildChannelAbilities c.toChannel).filter
      ((fun a : Ability => decide (a.group = group ∧ a.model = modelName ∧ a.enabled)) ∘
        fun a => c.ability a.group a.model) =
      ((Channels.buildChannelAbilities c.toChannel).filter
        (· = c.toChannel.ability group modelName)).filter
          fun _ => c.status = Channels.channelStatusEnabled := by
    rw [List.filter_filter]
    apply List.filter_congr
    intro a ha
    rw [Function.comp, ← Bool.decide_and, decide_eq_decide]
    constructor
    · rintro ⟨hgroup, hmodel, henabled⟩
      have hrow := (hall a ha).1
      exact ⟨of_decide_eq_true henabled, by rw [hrow]; exact congrArg₂ _ hgroup hmodel⟩
    · rintro ⟨henabled, rfl⟩
      exact ⟨rfl, rfl, decide_eq_true henabled⟩
  rw [hfilter, List.filter_eq]
  have hcount := hnodup.count (a := c.toChannel.ability group modelName)
  rw [hcount]
  by_cases henabled : c.status = Channels.channelStatusEnabled
  · by_cases hmem : c.toChannel.ability group modelName ∈
        Channels.buildChannelAbilities c.toChannel
    · simp only [henabled, hmem, if_true, and_self, decide_true, List.filter_true]
      rfl
    · simp [henabled, hmem]
  · simp [henabled]

theorem filter_flatMap_buildChannelAbilities (channels : List Channel) (group modelName : String) :
    (channels.flatMap buildChannelAbilities).filter
        (fun a => a.group = group ∧ a.model = modelName ∧ a.enabled) =
      (stored channels group modelName).map (·.ability group modelName) := by
  induction channels with
  | nil => rfl
  | cons c channels ih =>
    rw [List.flatMap_cons, List.filter_append, filter_buildChannelAbilities, ih, stored, stored,
      List.filter_cons]
    simp only [decide_eq_true_eq]
    split <;> rfl

theorem stored_subset (channels : List Channel) (group modelName : String) :
    stored channels group modelName ⊆ listed channels group modelName := by
  intro c hc
  obtain ⟨hmem, hrow⟩ := List.mem_filter.1 hc
  rw [decide_eq_true_eq] at hrow
  obtain ⟨-, hgroup, hmodel⟩ := (built c.toChannel).1 _ hrow.2
  rw [listed, List.mem_filter, decide_eq_true_eq]
  exact ⟨hmem, hrow.1, hgroup, hmodel⟩

section Query

variable {db : Database} {group modelName : String}
  (hrows : db.abilities.Perm (db.channels.flatMap buildChannelAbilities))

include hrows

theorem matching_perm : (db.matching group modelName).Perm
    ((stored db.channels group modelName).map (·.ability group modelName)) := by
  rw [← filter_flatMap_buildChannelAbilities]
  exact hrows.filter _

theorem mem_priorities {p : Int} : p ∈ (db.matching group modelName).map (·.priority) ↔
    p ∈ (stored db.channels group modelName).map (·.getPriority) := by
  rw [((matching_perm hrows).map _).mem_iff, List.map_map]
  rfl

/-- The query selects the rows of the channels that the retry leaves. -/
theorem buildChannelQuery_ok (hstored : stored db.channels group modelName ≠ []) (retry : Nat) :
    ∃ rows, buildChannelQuery db group modelName retry = .ok rows ∧ rows.Perm
      ((ranked (stored db.channels group modelName) retry).map (·.ability group modelName)) := by
  have hpriorities : (db.matching group modelName).map (·.priority) ≠ [] := by
    obtain ⟨c, hc⟩ := List.exists_mem_of_ne_nil _ hstored
    exact List.ne_nil_of_mem ((mem_priorities hrows).2 (List.mem_map_of_mem hc))
  have hranked : ((db.matching group modelName).filter fun a =>
      rank ((db.matching group modelName).map (·.priority)) a.priority =
        clamped ((db.matching group modelName).map (·.priority)) retry).Perm
      ((ranked (stored db.channels group modelName) retry).map (·.ability group modelName)) := by
    have hsame := fun p : Int => @mem_priorities db group modelName hrows p
    simp only [rank_congr hsame, clamped_congr hsame]
    have := (@matching_perm db group modelName hrows).filter fun a =>
      rank ((stored db.channels group modelName).map (·.getPriority)) a.priority =
        clamped ((stored db.channels group modelName).map (·.getPriority)) retry
    rw [List.filter_map] at this
    exact this
  refine ⟨_, ?_, hranked⟩
  rw [buildChannelQuery]
  by_cases hretry : retry = 0
  · subst hretry
    rw [if_pos rfl]
    congr 1
    apply List.filter_congr
    intro a ha
    rw [decide_eq_decide, List.max?_eq_some_iff, clamped, Nat.zero_min, rank_eq_zero]
    exact and_iff_right (List.mem_map_of_mem ha)
  · have hload : loadChannelPriority db group modelName retry =
        .ok ((falling ((db.matching group modelName).map (·.priority))).get
          ⟨_, clamped_lt hpriorities retry⟩) := by
      have hnonempty : db.priorities group modelName ≠ [] :=
        List.ne_nil_of_length_pos (Nat.zero_lt_of_lt (clamped_lt hpriorities retry))
      rw [loadChannelPriority, if_neg hnonempty, ← getD_falling hpriorities retry 0]
      simp only [Database.priorities]
      exact (apply_ite (fun place => Except.ok (List.getD _ place 0)) _ _ _).symm
    rw [if_neg hretry, hload]
    show Except.ok _ = _
    congr 1
    apply List.filter_congr
    intro a ha
    rw [decide_eq_decide]
    exact eq_get_iff (List.mem_map_of_mem ha) _

theorem buildChannelQuery_none (hstored : stored db.channels group modelName = []) (retry : Nat) :
    buildChannelQuery db group modelName retry =
      if retry = 0 then .ok [] else .error (.error "数据库一致性被破坏") := by
  have hmatching : db.matching group modelName = [] := by
    have := @matching_perm db group modelName hrows
    rw [hstored, List.map_nil] at this
    exact this.eq_nil
  rw [buildChannelQuery]
  by_cases hretry : retry = 0
  · rw [if_pos hretry, if_pos hretry, hmatching]
    rfl
  · rw [if_neg hretry, if_neg hretry, loadChannelPriority, Database.priorities, hmatching,
      List.map_nil, falling_nil]
    rfl

end Query

section Cached

variable {unmarshal : String → Option (List String)} {old : Channels.Cache}
  {channels : List Channel} {abilities : List Ability} {cache : Cache}
  (hinit : initChannelCache unmarshal old channels abilities = some cache)

include hinit

theorem mem_ids {group modelName : String} {id : Int} :
    id ∈ cache.group2model2channels.ids group modelName ↔
      ∃ c ∈ listed channels group modelName, c.id = id := by
  obtain ⟨built, hbuilt, rfl⟩ := Option.map_eq_some_iff.1 hinit
  rw [Channels.mem_ids_of_init hbuilt]
  constructor
  · rintro ⟨c, hc, henabled, hgroup, hmodel, rfl⟩
    obtain ⟨d, hd, rfl⟩ := List.mem_map.1 hc
    refine ⟨d, List.mem_filter.2 ⟨hd, ?_⟩, rfl⟩
    exact decide_eq_true ⟨henabled, hgroup, hmodel⟩
  · rintro ⟨c, hc, rfl⟩
    obtain ⟨hmem, hnames⟩ := List.mem_filter.1 hc
    obtain ⟨henabled, hgroup, hmodel⟩ := of_decide_eq_true hnames
    exact ⟨c.toChannel, List.mem_map_of_mem hmem, henabled, hgroup, hmodel, rfl⟩

/-- The channels that the cached path takes: those of the name, or of its normalized form. -/
def sources (channels : List Channel) (group modelName : String) : List Channel :=
  if listed channels group modelName = [] then
    listed channels group (formatMatchingModelName modelName)
  else listed channels group modelName

theorem mem_channelIDs {group modelName : String} {id : Int} :
    id ∈ cache.channelIDs group modelName ↔
      ∃ c ∈ sources channels group modelName, c.id = id := by
  have hempty : cache.group2model2channels.ids group modelName = [] ↔
      listed channels group modelName = [] := by
    constructor
    · intro h
      rw [List.eq_nil_iff_forall_not_mem]
      intro c hc
      have := (mem_ids hinit).2 ⟨c, hc, rfl⟩
      rw [h] at this
      cases this
    · intro h
      rw [List.eq_nil_iff_forall_not_mem]
      intro id hid
      obtain ⟨c, hc, -⟩ := (mem_ids hinit).1 hid
      rw [h] at hc
      cases hc
  rw [Cache.channelIDs, sources]
  by_cases h : listed channels group modelName = []
  · rw [if_pos h, if_pos (hempty.2 h), mem_ids hinit]
  · rw [if_neg h, if_neg (mt hempty.1 h), mem_ids hinit]

end Cached

section Choices

variable {channels : List Channel} (hids : (channels.map (·.id)).Nodup)

theorem mem_of_mem_sources {group modelName : String} {c : Channel}
    (hc : c ∈ sources channels group modelName) : c ∈ channels := by
  rw [sources] at hc
  split at hc <;> exact (List.mem_filter.1 hc).1

include hids

theorem find?_id {c : Channel} (hc : c ∈ channels) : channels.find? (·.id = c.id) = some c := by
  induction channels with
  | nil => cases hc
  | cons d channels ih =>
    rw [List.map_cons, List.nodup_cons] at hids
    rcases List.mem_cons.1 hc with rfl | hc
    · rw [List.find?_cons_of_pos (by simp)]
    · have hne : d.id ≠ c.id := by
        intro h
        rw [h] at hids
        exact hids.1 (List.mem_map_of_mem hc)
      rw [List.find?_cons_of_neg (by simpa using hne), ih hids.2 hc]

variable {unmarshal : String → Option (List String)} {old : Channels.Cache}
  {abilities : List Ability} {cache : Cache}
  (hinit : initChannelCache unmarshal old channels abilities = some cache)

include hinit

/-- What the cache holds under an id it lists, as far as a choice can tell. -/
theorem channelsIDM_of_mem {c : Channel} (hc : c ∈ channels) :
    ∃ d, cache.channelsIDM c.id = some d ∧ d.id = c.id ∧ d.getPriority = c.getPriority := by
  obtain ⟨built, hbuilt, rfl⟩ := Option.map_eq_some_iff.1 hinit
  have hkeeps : (c.toChannel.cached unmarshal old).id = c.id ∧
      (c.toChannel.cached unmarshal old).priority = c.priority := by
    rw [Channels.Channel.cached]
    split
    · exact ⟨rfl, rfl⟩
    · dsimp only
      split
      · split <;> exact ⟨rfl, rfl⟩
      · exact ⟨rfl, rfl⟩
  simp only [find?_id hids hc, Option.map_some]
  exact ⟨_, rfl, hkeeps.1, congrArg (·.getD 0) hkeeps.2⟩

variable (group modelName : String)

theorem map_channelIDs : (cache.channelIDs group modelName).map cache.channelsIDM =
    (cache.loaded group modelName).map some := by
  have hone (id : Int) (hid : id ∈ cache.channelIDs group modelName) :
      ∃ d, cache.channelsIDM id = some d := by
    obtain ⟨c, hc, rfl⟩ := (mem_channelIDs hinit).1 hid
    obtain ⟨d, hd, -⟩ := channelsIDM_of_mem hids hinit (mem_of_mem_sources hc)
    exact ⟨d, hd⟩
  rw [Cache.loaded]
  generalize cache.channelIDs group modelName = ids at hone
  induction ids with
  | nil => rfl
  | cons id ids ih =>
    obtain ⟨d, hd⟩ := hone id List.mem_cons_self
    rw [List.map_cons, List.filterMap_cons_some hd, List.map_cons, hd,
      ih fun id hid => hone id (List.mem_cons_of_mem _ hid)]

/-- The cache loads the channels it takes, as far as a choice can tell. -/
theorem mem_loaded (id p : Int) :
    (∃ d ∈ cache.loaded group modelName, d.id = id ∧ d.getPriority = p) ↔
      ∃ c ∈ sources channels group modelName, c.id = id ∧ c.getPriority = p := by
  simp only [Cache.loaded, List.mem_filterMap]
  constructor
  · rintro ⟨d, ⟨id', hid', hd⟩, rfl, rfl⟩
    obtain ⟨c, hc, rfl⟩ := (mem_channelIDs hinit).1 hid'
    obtain ⟨d', hd', hdid, hpriority⟩ := channelsIDM_of_mem hids hinit (mem_of_mem_sources hc)
    rw [hd, Option.some.injEq] at hd'
    subst hd'
    exact ⟨c, hc, hdid.symm, hpriority.symm⟩
  · rintro ⟨c, hc, rfl, rfl⟩
    obtain ⟨d, hd, hdid, hpriority⟩ := channelsIDM_of_mem hids hinit (mem_of_mem_sources hc)
    exact ⟨d, ⟨c.id, (mem_channelIDs hinit).2 ⟨c, hc, rfl⟩, hd⟩, hdid, hpriority⟩

/-- The cached path draws from the channels that the retry leaves. -/
theorem ids_of_choices (retry : Nat) (id : Int) :
    (∃ d ∈ cache.choices group modelName retry, d.id = id) ↔
      ∃ c ∈ ranked (sources channels group modelName) retry, c.id = id := by
  have hloaded := mem_loaded hids hinit group modelName
  have hpriorities (p : Int) : p ∈ (cache.loaded group modelName).map (·.getPriority) ↔
      p ∈ (sources channels group modelName).map (·.getPriority) := by
    simp only [List.mem_map]
    constructor
    · rintro ⟨d, hd, hp⟩
      obtain ⟨c, hc, -, hcp⟩ := (hloaded d.id p).1 ⟨d, hd, rfl, hp⟩
      exact ⟨c, hc, hcp⟩
    · rintro ⟨c, hc, hp⟩
      obtain ⟨d, hd, -, hdp⟩ := (hloaded c.id p).2 ⟨c, hc, rfl, hp⟩
      exact ⟨d, hd, hdp⟩
  have hchoices : cache.choices group modelName retry =
      ranked (cache.loaded group modelName) retry := by
    by_cases hne : cache.loaded group modelName = []
    · rw [Cache.choices, hne]
      rfl
    · exact targetChannels_eq hne retry
  simp only [hchoices, ranked, List.mem_filter, decide_eq_true_eq, rank_congr hpriorities,
    clamped_congr hpriorities]
  constructor
  · rintro ⟨d, ⟨hd, hrank⟩, hid⟩
    obtain ⟨c, hc, hcid, hcp⟩ := (hloaded id d.getPriority).1 ⟨d, hd, hid, rfl⟩
    exact ⟨c, ⟨hc, by rwa [hcp]⟩, hcid⟩
  · rintro ⟨c, ⟨hc, hrank⟩, hid⟩
    obtain ⟨d, hd, hdid, hdp⟩ := (hloaded id c.getPriority).2 ⟨c, hc, hid, rfl⟩
    exact ⟨d, ⟨hd, by rwa [hdp]⟩, hdid⟩

theorem choices_eq_nil {retry : Nat} : cache.choices group modelName retry = [] ↔
    sources channels group modelName = [] := by
  have hchoices := ids_of_choices hids hinit group modelName retry
  constructor
  · intro h
    by_contra hne
    obtain ⟨c, hc⟩ := List.exists_mem_of_ne_nil _ (ranked_ne_nil hne retry)
    obtain ⟨d, hd, -⟩ := (hchoices c.id).2 ⟨c, hc, rfl⟩
    rw [h] at hd
    cases hd
  · intro h
    rw [List.eq_nil_iff_forall_not_mem]
    intro d hd
    obtain ⟨c, hc, -⟩ := (hchoices d.id).1 ⟨d, hd, rfl⟩
    rw [h] at hc
    cases hc

/-- What the cached path returns is one of the channels it draws from. -/
theorem cached_mem_choices {retry draw : Nat} {c : Channel}
    (h : getRandomSatisfiedChannel cache group modelName retry draw = .ok (some c)) :
    c ∈ cache.choices group modelName retry := by
  have hmap := map_channelIDs hids hinit group modelName
  rw [Cache.choices]
  cases hids : cache.channelIDs group modelName with
  | nil =>
    rw [getRandomSatisfiedChannel, hids] at h
    cases h
  | cons id ids =>
    cases ids with
    | nil =>
      rw [getRandomSatisfiedChannel, hids] at h
      rw [hids, List.map_singleton] at hmap
      have hfound : cache.channelsIDM id = some c := by
        simp only [Cache.channel] at h
        cases hfound : cache.channelsIDM id with
        | none =>
          rw [hfound] at h
          cases h
        | some d =>
          rw [hfound] at h
          cases h
          rfl
      have hloaded : cache.loaded group modelName = [c] := by
        rw [hfound, eq_comm, List.map_eq_singleton_iff] at hmap
        obtain ⟨d, hloaded, hd⟩ := hmap
        rw [hloaded, Option.some.inj hd]
      rw [hloaded, targetChannels_eq (List.cons_ne_nil _ _)]
      obtain ⟨d, hd⟩ := List.exists_mem_of_ne_nil _ (ranked_ne_nil (List.cons_ne_nil c []) retry)
      rwa [List.mem_singleton.1 (List.mem_filter.1 hd).1] at hd
    | cons id' ids =>
      have hdraw : drawChannel group modelName (cache.loaded group modelName) retry draw =
          .ok (some c) := by
        rw [getRandomSatisfiedChannel, hids] at h
        have hbind : (List.mapM cache.channel (id :: id' :: ids)).bind
            (drawChannel group modelName · retry draw) = .ok (some c) := h
        rwa [← hids, mapM_channel hmap] at hbind
      simp only [drawChannel] at hdraw
      split at hdraw
      · cases hdraw
      · split at hdraw
        · cases hdraw
        · split at hdraw
          next d hd =>
            cases hdraw
            obtain ⟨i, -, hi⟩ := Option.bind_eq_some_iff.1 hd
            exact List.mem_of_getElem? hi
          next => cases hdraw

theorem cached_none {retry : Nat} (h : cache.choices group modelName retry = []) (draw : Nat) :
    getRandomSatisfiedChannel cache group modelName retry draw = .ok none := by
  have hnone : cache.channelIDs group modelName = [] := by
    rw [List.eq_nil_iff_forall_not_mem]
    intro id hid
    obtain ⟨c, hc, -⟩ := (mem_channelIDs hinit).1 hid
    rw [(choices_eq_nil hids hinit group modelName).1 h] at hc
    cases hc
  rw [getRandomSatisfiedChannel, hnone]

end Choices

section Draws

variable {order : WeightOrder} {db : Database} {group modelName : String} {retry : Nat}

theorem toNat_foldl (rows : List Ability) (sum : UInt64) :
    (rows.foldl (fun (weightSum : UInt64) ability => weightSum + (ability.weight + 10)) sum).toNat =
      (sum.toNat + weightsOf rows) % 2 ^ 64 := by
  induction rows generalizing sum with
  | nil =>
    rw [List.foldl_nil, weightsOf, List.map_nil, List.sum_nil, Nat.add_zero]
    exact (Nat.mod_eq_of_lt sum.toNat_lt).symm
  | cons a rows ih =>
    rw [List.foldl_cons, ih, weightsOf, weightsOf, List.map_cons, List.sum_cons, UInt64.toNat_add,
      UInt64.toNat_add]
    have : (10 : UInt64).toNat = 10 := rfl
    rw [this]
    omega

theorem askedWeight_eq {rows : List Ability} (h : weightsOf rows < 2 ^ 63) :
    askedWeight rows = weightsOf rows := by
  rw [askedWeight, toNat_foldl]
  have : (0 : UInt64).toNat = 0 := rfl
  rw [this, Nat.zero_add, Nat.mod_eq_of_lt (by omega), wrap64_of_nonneg (by omega) (by omega)]

/-- A number up to the ten more than the weight of the first row lands on that row. -/
theorem landsOn_first {a : Ability} {rows : List Ability} {draw : Nat}
    (hweight : a.weight.toNat + 10 < 2 ^ 63) (h : draw ≤ a.weight.toNat + 10) :
    landsOn (a :: rows) draw = some a.channelID := by
  rw [landsOn]
  have hint : wrap64 (a.weight.toNat : Int) = a.weight.toNat :=
    wrap64_of_nonneg (by omega) (by omega)
  have hten : wrap64 ((a.weight.toNat : Int) + 10) = a.weight.toNat + 10 :=
    wrap64_of_nonneg (by omega) (by omega)
  simp only [hint, hten]
  rw [wrap64_of_inRange ⟨by omega, by omega⟩, if_pos (by omega)]

variable (hids : (db.channels.map (·.id)).Nodup) (hzero : ∀ c ∈ db.channels, c.id ≠ 0)

include hids hzero

/-- The row at the head of the order is drawn by the numbers up to ten more than its weight. -/
theorem load_first {c : Channel} (hc : c ∈ db.channels) {rows sorted : List Ability}
    (hquery : buildChannelQuery db group modelName retry = .ok rows)
    (hsort : order.sort rows = c.ability group modelName :: sorted)
    (hasked : 0 < askedWeight (order.sort rows)) (hweight : c.columnWeight + 10 < 2 ^ 63)
    {draw : Nat} (hdraw : draw ≤ c.columnWeight + 10) :
    loadRandomSatisfiedChannelFromDB order db group modelName retry draw = .ok (some c) := by
  have hlands : landsOn (c.ability group modelName :: sorted) draw = some c.id :=
    landsOn_first hweight hdraw
  rw [hsort] at hasked
  rw [loadRandomSatisfiedChannelFromDB, hquery]
  show (match order.sort rows with
    | [] => _
    | first :: abilities => _) = _
  rw [hsort]
  simp only [if_neg (not_le.2 hasked), hlands, Option.getD_some, if_neg (hzero c hc)]
  rw [Database.firstChannel, find?_id hids hc]

omit hids hzero in
theorem load_none (hquery : buildChannelQuery db group modelName retry = .ok []) (draw : Nat) :
    loadRandomSatisfiedChannelFromDB order db group modelName retry draw = .ok none := by
  have hsort : order.sort [] = [] := (order.perm []).eq_nil
  rw [loadRandomSatisfiedChannelFromDB, hquery]
  show (match order.sort [] with
    | [] => _
    | first :: abilities => _) = _
  rw [hsort]

/-- Exact shares leave room for one row only. -/
theorem alone_of_shares {c : Channel} (hc : c ∈ db.channels) {rows sorted : List Ability}
    (hquery : buildChannelQuery db group modelName retry = .ok rows)
    (hsort : order.sort rows = c.ability group modelName :: sorted)
    (hasked : askedWeight (order.sort rows) = weightsOf rows)
    (hshare : (List.range (weightsOf rows)).countP (fun draw =>
        chosenID (loadRandomSatisfiedChannelFromDB order db group modelName retry draw) =
          some c.id) = c.columnWeight + 10) :
    sorted = [] ∧ c.columnWeight + 10 < 2 ^ 63 := by
  have hsum : weightsOf rows = c.columnWeight + 10 + weightsOf sorted := by
    have := ((order.perm rows).map fun a => a.weight.toNat + 10).sum_eq
    rw [hsort] at this
    exact this.symm
  have hlt : (weightsOf rows : Int) < 2 ^ 63 := by
    rw [← hasked]
    exact (wrap64_inRange _).2
  refine ⟨?_, by omega⟩
  by_contra hne
  -- the head of the order is drawn by one number too many
  have hmore : c.columnWeight + 11 ≤ weightsOf rows := by
    obtain ⟨b, rest, rfl⟩ := List.exists_cons_of_ne_nil hne
    rw [hsum, weightsOf, List.map_cons, List.sum_cons]
    omega
  have hall : (List.range (c.columnWeight + 11)).countP (fun draw =>
      chosenID (loadRandomSatisfiedChannelFromDB order db group modelName retry draw) =
        some c.id) = (List.range (c.columnWeight + 11)).length := by
    rw [List.countP_eq_length]
    intro draw hdraw
    have hdraw := List.mem_range.1 hdraw
    rw [load_first hids hzero hc hquery hsort (by omega) (by omega) (by omega)]
    exact decide_eq_true rfl
  have hle := (List.range_sublist.2 hmore).countP_le (p := fun draw => decide (
    chosenID (loadRandomSatisfiedChannelFromDB order db group modelName retry draw) = some c.id))
  rw [hall, hshare, List.length_range] at hle
  omega

end Draws

section Agreement

variable {unmarshal : String → Option (List String)} {old : Channels.Cache} {order : WeightOrder}
  {db : Database} {cache : Cache} {group modelName : String} {retry : Nat}
  (hrows : db.abilities.Perm (db.channels.flatMap buildChannelAbilities))
  (hids : (db.channels.map (·.id)).Nodup) (hzero : ∀ c ∈ db.channels, c.id ≠ 0)
  (hinit : initChannelCache unmarshal old db.channels db.abilities = some cache)

include hrows hids hinit

theorem agreement_of_none (hlisted : listed db.channels group modelName = [])
    (hnormal : listed db.channels group (formatMatchingModelName modelName) = []) :
    Agreement order db cache group modelName 0 := by
  have hstored : stored db.channels group modelName = [] := by
    have := stored_subset db.channels group modelName
    rwa [hlisted, List.subset_nil] at this
  have hquery := buildChannelQuery_none hrows hstored 0
  rw [if_pos rfl] at hquery
  have hchoices : cache.choices group modelName 0 = [] := by
    rw [choices_eq_nil hids hinit, sources, if_pos hlisted, hnormal]
  constructor
  case cached => exact fun draw c => cached_mem_choices hids hinit group modelName
  case same =>
    refine ⟨[], hquery, fun id => ?_⟩
    rw [hchoices]
    simp
  case none =>
    intro _ draw
    exact ⟨cached_none hids hinit group modelName hchoices draw, load_none hquery draw⟩
  case shares =>
    intro rows h hne
    rw [hquery] at h
    cases h
    exact absurd rfl hne

include hzero in
theorem agreement_of_one {c : Channel}
    (hlisted : ranked (listed db.channels group modelName) retry = [c])
    (hstored : ranked (stored db.channels group modelName) retry = [c])
    (hweight : c.columnWeight + 10 < 2 ^ 63) :
    Agreement order db cache group modelName retry := by
  have hc : c ∈ listed db.channels group modelName := by
    have : c ∈ ranked (listed db.channels group modelName) retry := by
      rw [hlisted]
      exact List.mem_singleton_self c
    exact (List.mem_filter.1 this).1
  have hsources : sources db.channels group modelName = listed db.channels group modelName :=
    if_neg (List.ne_nil_of_mem hc)
  have hne : stored db.channels group modelName ≠ [] := by
    intro h
    rw [h] at hstored
    cases hstored
  obtain ⟨rows, hquery, hperm⟩ := buildChannelQuery_ok hrows hne retry
  rw [hstored, List.map_singleton, List.perm_singleton] at hperm
  subst hperm
  have hsort : order.sort [c.ability group modelName] = [c.ability group modelName] :=
    List.perm_singleton.1 (order.perm _)
  have hsum : weightsOf [c.ability group modelName] = c.columnWeight + 10 := rfl
  have hasked : askedWeight (order.sort [c.ability group modelName]) =
      weightsOf [c.ability group modelName] := by
    rw [hsort]
    apply askedWeight_eq
    omega
  constructor
  case cached => exact fun draw d => cached_mem_choices hids hinit group modelName
  case same =>
    refine ⟨_, hquery, fun id => ?_⟩
    rw [ids_of_choices hids hinit, hsources, hlisted]
    simp only [List.mem_singleton, exists_eq_left]
    rfl
  case none =>
    intro h
    rw [choices_eq_nil hids hinit, hsources] at h
    rw [h] at hc
    cases hc
  case shares =>
    intro rows h _
    rw [hquery, Except.ok.injEq] at h
    subst h
    refine ⟨hasked, ?_⟩
    intro a ha
    rw [List.mem_singleton.1 ha]
    have hall : ∀ draw ∈ List.range (weightsOf [c.ability group modelName]),
        decide (chosenID (loadRandomSatisfiedChannelFromDB order db group modelName retry draw) =
          some (c.ability group modelName).channelID) = true := by
      intro draw hdraw
      have hdraw := List.mem_range.1 hdraw
      rw [load_first hids hzero (List.mem_filter.1 hc).1 hquery hsort (by omega) hweight (by omega)]
      exact decide_eq_true rfl
    rw [List.countP_eq_length.2 hall, List.length_range]
    exact hsum

include hzero in
theorem agreeing_of_agreement (h : Agreement order db cache group modelName retry) :
    Agreeing db.channels group modelName retry := by
  obtain ⟨rows, hquery, hsame⟩ := h.same
  simp only [ids_of_choices hids hinit] at hsame
  by_cases hlisted : listed db.channels group modelName = []
  · have hstored : stored db.channels group modelName = [] := by
      have := stored_subset db.channels group modelName
      rwa [hlisted, List.subset_nil] at this
    rw [buildChannelQuery_none hrows hstored] at hquery
    by_cases hretry : retry = 0
    · rw [if_pos hretry, Except.ok.injEq] at hquery
      subst hquery
      refine .inl ⟨hlisted, ?_, hretry⟩
      by_contra hne
      rw [sources, if_pos hlisted] at hsame
      obtain ⟨c, hc⟩ := List.exists_mem_of_ne_nil _ (ranked_ne_nil hne retry)
      obtain ⟨a, ha, -⟩ := (hsame c.id).2 ⟨c, hc, rfl⟩
      cases ha
    · rw [if_neg hretry] at hquery
      cases hquery
  · rw [sources, if_neg hlisted] at hsame
    obtain ⟨d, hd⟩ := List.exists_mem_of_ne_nil _ (ranked_ne_nil hlisted retry)
    obtain ⟨a, ha, -⟩ := (hsame d.id).2 ⟨d, hd, rfl⟩
    have hne : rows ≠ [] := List.ne_nil_of_mem ha
    have hstored : stored db.channels group modelName ≠ [] := by
      intro hstored
      rw [buildChannelQuery_none hrows hstored] at hquery
      split at hquery
      · cases hquery
        exact hne rfl
      · cases hquery
    obtain ⟨rows', hquery', hperm⟩ := buildChannelQuery_ok hrows hstored retry
    rw [hquery, Except.ok.injEq] at hquery'
    subst hquery'
    obtain ⟨hasked, hshares⟩ := h.shares rows hquery hne
    obtain ⟨first, sorted, hsort⟩ : ∃ first sorted, order.sort rows = first :: sorted :=
      List.exists_cons_of_ne_nil fun hnil => hne ((order.perm rows).symm.trans (by rw [hnil])).eq_nil
    have hfirst : first ∈ rows := by
      rw [← (order.perm rows).mem_iff, hsort]
      exact List.mem_cons_self
    obtain ⟨c, hc, rfl⟩ := List.mem_map.1 (hperm.mem_iff.1 hfirst)
    have hin : c ∈ db.channels := (List.mem_filter.1 (List.mem_filter.1 hc).1).1
    obtain ⟨rfl, hweight⟩ := alone_of_shares hids hzero hin hquery hsort hasked
      (hshares _ hfirst)
    have hrows' : rows = [c.ability group modelName] :=
      List.perm_singleton.1 (hsort ▸ (order.perm rows).symm)
    have hlength : (ranked (stored db.channels group modelName) retry).length = 1 := by
      have := hperm.length_eq
      rw [hrows', List.length_map] at this
      exact this.symm
    obtain ⟨e, he⟩ := List.length_eq_one_iff.1 hlength
    rw [he, List.mem_singleton] at hc
    subst hc
    refine .inr ⟨c, ?_, he, hweight⟩
    have honly : ∀ d ∈ ranked (listed db.channels group modelName) retry, d = c := by
      intro d hd
      obtain ⟨a, ha, hid⟩ := (hsame d.id).2 ⟨d, hd, rfl⟩
      rw [hrows', List.mem_singleton] at ha
      subst ha
      have hfound := find?_id hids (List.mem_filter.1 (List.mem_filter.1 hd).1).1
      rw [← hid] at hfound
      exact Option.some.inj (hfound.symm.trans (find?_id hids hin))
    have hnodup : (ranked (listed db.channels group modelName) retry).Nodup :=
      ((List.Nodup.of_map _ hids).filter _).filter _
    have hpos := List.length_pos_of_mem hd
    rw [List.eq_replicate_of_mem honly] at hnodup ⊢
    have hle := List.nodup_replicate.1 hnodup
    rw [show (ranked (listed db.channels group modelName) retry).length = 1 by omega]
    rfl

include hzero in
/-- The two paths agree exactly when there are no candidates and it is the first try, or when the
retry leaves one channel, alone among the channels and among their rows. -/
theorem database_choice_agrees :
    Agreement order db cache group modelName retry ↔
      Agreeing db.channels group modelName retry := by
  constructor
  · exact agreeing_of_agreement hrows hids hzero hinit
  · rintro (⟨hlisted, hnormal, rfl⟩ | ⟨c, hlisted, hstored, hweight⟩)
    · exact agreement_of_none hrows hids hinit hlisted hnormal
    · exact agreement_of_one hrows hids hzero hinit hlisted hstored hweight

end Agreement

/-- The rows of one weight in the order they are stored in. -/
def stableOrder : WeightOrder where
  sort rows := rows.insertionSort fun a b => b.weight ≤ a.weight
  perm rows := List.perm_insertionSort _ rows
  falling rows := by
    have : Std.Total fun a b : Ability => b.weight ≤ a.weight :=
      ⟨fun a b => UInt64.le_total b.weight a.weight⟩
    have : IsTrans Ability fun a b => b.weight ≤ a.weight :=
      ⟨fun a b c hab hbc => UInt64.le_trans hbc hab⟩
    exact List.pairwise_insertionSort _ rows

/-- The channels with the rows that are built for them. -/
def Database.of (channels : List Channel) : Database :=
  ⟨channels, channels.flatMap buildChannelAbilities⟩

def twoPriorities : Database := .of
  [{ id := 1, models := "gpt-4,gpt-4o", group := "default,vip", priority := some 5 },
    { id := 2, models := "gpt-4", group := "default", weight := some 7 }]

theorem database_choice_agrees_sample :
    ∃ cache, initChannelCache (fun _ => none) {} twoPriorities.channels twoPriorities.abilities =
        some cache ∧
      Agreement stableOrder twoPriorities cache "default" "gpt-4" 3 := by
  have hisSome : (initChannelCache (fun _ => none) {} twoPriorities.channels
    twoPriorities.abilities).isSome = true := by decide
  obtain ⟨cache, hinit⟩ := Option.isSome_iff_exists.1 hisSome
  refine ⟨cache, hinit, (database_choice_agrees (List.Perm.refl _) (by decide)
    (by decide) hinit).2 (.inr ⟨{
      id := 2, models := "gpt-4", group := "default", weight := some 7 }, ?_, ?_, ?_⟩)⟩
  · decide
  · decide
  · decide

/-- Two channels of one priority and no weight, and one channel under the name of all gizmos. -/
def twoEqual : Database := .of
  [{ id := 1, models := "gpt-4", group := "default" },
    { id := 2, models := "gpt-4,gpt-4-gizmo-*", group := "default" }]

def twoEqualCache : Option Cache :=
  initChannelCache (fun _ => none) {} twoEqual.channels twoEqual.abilities

theorem first_row_is_favoured :
    (∃ cache, twoEqualCache = some cache ∧
        ¬ Agreement stableOrder twoEqual cache "default" "gpt-4" 0) ∧
      (List.range 20).map (fun draw => chosenID
          (loadRandomSatisfiedChannelFromDB stableOrder twoEqual "default" "gpt-4" 0 draw)) =
        List.replicate 11 (some 1) ++ List.replicate 9 (some 2) ∧
      twoEqualCache.map (fun cache => chosenID
          (getRandomSatisfiedChannel cache "default" "gpt-4-gizmo-cats" 1 0)) = some (some 2) ∧
      loadRandomSatisfiedChannelFromDB stableOrder twoEqual "default" "gpt-4-gizmo-cats" 1 0 =
        .error (.error "数据库一致性被破坏") := by
  refine ⟨?_, by decide, by decide, by decide⟩
  have hisSome : twoEqualCache.isSome = true := by decide
  obtain ⟨cache, hinit⟩ := Option.isSome_iff_exists.1 hisSome
  refine ⟨cache, hinit, fun h => ?_⟩
  have hquery : buildChannelQuery twoEqual "default" "gpt-4" 0 =
      .ok (twoEqual.matching "default" "gpt-4") := by decide
  have hshare := (h.shares _ hquery (by decide)).2
    ⟨⟨"default", "gpt-4", 1, true⟩, 0, 0⟩ (by decide)
  revert hshare
  decide

end CodeGo.Gateway.WeightedChoice
