import CodeGo.Gateway.Channels

/-!
# The selection index

Which channels a rebuild lists under which model, when it panics, and what a change of status does
to the lists.
-/

namespace CodeGo.Gateway.Channels

/-- The channels of a model of a group, none for a group that has not been made. -/
def Index.ids (index : Index) (group model : String) : List Int :=
  ((index group).map fun models => models model).getD []

/-- Lists are in order of falling priority. -/
def Ordered (channelsIDM : Int → Option Channel) (channelIDs : List Int) : Prop :=
  channelIDs.Pairwise fun i j => Cache.priority channelsIDM j ≤ Cache.priority channelsIDM i

theorem split_ne_nil (s : String) (sep : Char) : split s sep ≠ [] := by
  rw [split, Ne, List.map_eq_nil_iff]
  exact List.splitOn_ne_nil _ _

theorem ordered_sortByPriority (channelsIDM : Int → Option Channel) (channelIDs : List Int) :
    Ordered channelsIDM (sortByPriority channelsIDM channelIDs) := by
  have : Std.Total fun i j => Cache.priority channelsIDM j ≤ Cache.priority channelsIDM i :=
    ⟨fun i j => by omega⟩
  have : IsTrans Int fun i j => Cache.priority channelsIDM j ≤ Cache.priority channelsIDM i :=
    ⟨fun i j k => by omega⟩
  exact List.pairwise_insertionSort _ channelIDs

@[simp] theorem mem_sortByPriority {channelsIDM : Int → Option Channel} {channelIDs : List Int}
    {id : Int} : id ∈ sortByPriority channelsIDM channelIDs ↔ id ∈ channelIDs :=
  List.mem_insertionSort _

section Rebuild

theorem Index.append_isSome {index : Index} {place : String × String × Int} :
    (index.append place).isSome ↔ (index place.1).isSome := by
  rw [Index.append, Option.isSome_map]

theorem Index.append_made {index index' : Index} {place : String × String × Int}
    (h : index.append place = some index') (group : String) :
    (index' group).isSome = (index group).isSome := by
  obtain ⟨models, hmodels, rfl⟩ := Option.map_eq_some_iff.1 h
  by_cases hg : group = place.1
  · subst hg
    rw [Function.update_self, hmodels]
    rfl
  · rw [Function.update_of_ne hg]

theorem Index.mem_append {index index' : Index} {place : String × String × Int}
    (h : index.append place = some index') {group model : String} {id : Int} :
    id ∈ index'.ids group model ↔ id ∈ index.ids group model ∨ (group, model, id) = place := by
  obtain ⟨models, hmodels, rfl⟩ := Option.map_eq_some_iff.1 h
  obtain ⟨group', model', id'⟩ := place
  rw [Index.ids, Index.ids]
  by_cases hg : group = group'
  · subst hg
    rw [Function.update_self, hmodels]
    by_cases hm : model = model'
    · subst hm
      simp
    · simp [hm]
  · simp [hg]

theorem Index.foldlM_append {places : List (String × String × Int)} {index : Index} :
    (places.foldlM Index.append index).isSome ↔ ∀ p ∈ places, (index p.1).isSome := by
  induction places generalizing index with
  | nil => simp [pure]
  | cons place places ih =>
    rw [List.foldlM_cons, List.forall_mem_cons, ← Index.append_isSome]
    cases happend : index.append place with
    | none => simp
    | some index' =>
      simp only [Option.bind_eq_bind, Option.bind_some, ih, Option.isSome_some, true_and]
      simp only [Index.append_made happend]

theorem Index.mem_foldlM_append {places : List (String × String × Int)} {index index' : Index}
    (h : places.foldlM Index.append index = some index') {group model : String} {id : Int} :
    id ∈ index'.ids group model ↔
      id ∈ index.ids group model ∨ (group, model, id) ∈ places := by
  induction places generalizing index with
  | nil =>
    cases h
    simp
  | cons place places ih =>
    rw [List.foldlM_cons] at h
    obtain ⟨index₁, happend, h⟩ := Option.bind_eq_some_iff.1 h
    rw [ih h, Index.mem_append happend, List.mem_cons, or_assoc]

theorem mem_placements {channels : List Channel} {group model : String} {id : Int} :
    (group, model, id) ∈ placements channels ↔ ∃ c ∈ channels,
      c.status = channelStatusEnabled ∧ group ∈ c.groupNames ∧ model ∈ c.modelNames ∧ c.id = id := by
  simp only [placements, List.mem_flatMap, List.mem_filter, List.mem_map, decide_eq_true_eq,
    Prod.mk.injEq]
  constructor
  · rintro ⟨c, ⟨hc, henabled⟩, g, hg, m, hm, rfl, rfl, rfl⟩
    exact ⟨c, hc, henabled, hg, hm, rfl⟩
  · rintro ⟨c, hc, henabled, hg, hm, rfl⟩
    exact ⟨c, ⟨hc, henabled⟩, group, hg, model, hm, rfl, rfl, rfl⟩

variable {unmarshal : String → Option (List String)} {old cache : Cache} {channels : List Channel}
  {abilities : List Ability}

/-- Every group of an enabled channel is the group of an ability. -/
def Named (channels : List Channel) (abilities : List Ability) : Prop :=
  ∀ c ∈ channels, c.status = channelStatusEnabled → ∀ group ∈ c.groupNames,
    ∃ a ∈ abilities, a.group = group

variable (unmarshal old) in
/-- A rebuild panics exactly when an ability is missing. -/
theorem initChannelCache_isSome :
    (initChannelCache unmarshal old channels abilities).isSome ↔ Named channels abilities := by
  rw [initChannelCache, Option.isSome_map, Index.foldlM_append]
  constructor
  · intro h c hc henabled group hgroup
    obtain ⟨model, hmodel⟩ := List.exists_mem_of_ne_nil _ (split_ne_nil c.models ',')
    have hplace := h (group, model, c.id) (mem_placements.2 ⟨c, hc, henabled, hgroup, hmodel, rfl⟩)
    by_contra hnone
    simp only [if_neg hnone] at hplace
    cases hplace
  · rintro h ⟨group, model, id⟩ hplace
    obtain ⟨c, hc, henabled, hgroup, -, -⟩ := mem_placements.1 hplace
    simp only [if_pos (h c hc henabled group hgroup), Option.isSome_some]

theorem channelsIDM_of_init (h : initChannelCache unmarshal old channels abilities = some cache)
    (id : Int) : cache.channelsIDM id =
      (channels.find? (·.id = id)).map (·.cached unmarshal old) := by
  obtain ⟨index, -, rfl⟩ := Option.map_eq_some_iff.1 h
  rfl

theorem ids_of_init (h : initChannelCache unmarshal old channels abilities = some cache) :
    ∃ index, (placements channels).foldlM Index.append
        (fun group => if ∃ a ∈ abilities, a.group = group then some fun _ => [] else none) =
      some index ∧ ∀ group model, cache.group2model2channels.ids group model =
        sortByPriority (fun id => channels.find? (·.id = id)) (index.ids group model) := by
  obtain ⟨index, hindex, rfl⟩ := Option.map_eq_some_iff.1 h
  refine ⟨index, hindex, fun group model => ?_⟩
  simp only [Index.ids, Option.map_map]
  cases index group <;> rfl

/-- A rebuild lists the enabled channels under each of their groups and models. -/
theorem mem_ids_of_init (h : initChannelCache unmarshal old channels abilities = some cache)
    {group model : String} {id : Int} : id ∈ cache.group2model2channels.ids group model ↔
      ∃ c ∈ channels, c.status = channelStatusEnabled ∧ group ∈ c.groupNames ∧
        model ∈ c.modelNames ∧ c.id = id := by
  obtain ⟨index, hindex, hids⟩ := ids_of_init h
  rw [hids, mem_sortByPriority, Index.mem_foldlM_append hindex, mem_placements]
  apply or_iff_right
  simp only [Index.ids]
  split <;> simp

theorem ordered_of_init (h : initChannelCache unmarshal old channels abilities = some cache)
    (group model : String) :
    Ordered (fun id => channels.find? (·.id = id)) (cache.group2model2channels.ids group model) := by
  obtain ⟨index, -, hids⟩ := ids_of_init h
  rw [hids]
  exact ordered_sortByPriority ..

end Rebuild

section Change

variable {channelsIDM : Int → Option Channel} {channelID : Int}

theorem mem_foldl_addModel {modelNames : List String} {models : String → List Int}
    {model : String} {id : Int} :
    id ∈ modelNames.foldl (addModel channelsIDM channelID) models model ↔
      id ∈ models model ∨ id = channelID ∧ model ∈ modelNames := by
  induction modelNames generalizing models with
  | nil => simp
  | cons name modelNames ih =>
    have hadd : id ∈ addModel channelsIDM channelID models name model ↔
        id ∈ models model ∨ id = channelID ∧ model = name := by
      rw [addModel]
      split
      next hlisted =>
        constructor
        · exact Or.inl
        · rintro (h | ⟨rfl, rfl⟩)
          · exact h
          · exact hlisted
      next =>
        by_cases hmodel : model = name
        · subst hmodel
          simp
        · simp [hmodel]
    rw [List.foldl_cons, ih, hadd, List.mem_cons, or_assoc, ← and_or_left]

theorem mem_ids_foldl_addGroup {groups modelNames : List String} {index : Index}
    {group model : String} {id : Int} :
    id ∈ (groups.foldl (addGroup channelsIDM channelID modelNames) index).ids group model ↔
      id ∈ index.ids group model ∨ id = channelID ∧ group ∈ groups ∧ model ∈ modelNames := by
  induction groups generalizing index with
  | nil => simp
  | cons name groups ih =>
    have hadd : id ∈ (addGroup channelsIDM channelID modelNames index name).ids group model ↔
        id ∈ index.ids group model ∨ id = channelID ∧ group = name ∧ model ∈ modelNames := by
      rw [addGroup, Index.ids, Index.ids]
      by_cases hgroup : group = name
      · subst hgroup
        rw [Function.update_self, Option.map_some, Option.getD_some, mem_foldl_addModel]
        cases index group <;> simp
      · simp [hgroup]
    rw [List.foldl_cons, ih, hadd, List.mem_cons]
    tauto

theorem ordered_foldl_addModel {modelNames : List String} {models : String → List Int}
    (h : ∀ model, Ordered channelsIDM (models model)) (model : String) :
    Ordered channelsIDM (modelNames.foldl (addModel channelsIDM channelID) models model) := by
  induction modelNames generalizing models with
  | nil => exact h model
  | cons name modelNames ih =>
    apply ih
    intro model
    rw [addModel]
    split
    · exact h model
    · by_cases hmodel : model = name
      · subst hmodel
        rw [Function.update_self]
        exact ordered_sortByPriority ..
      · rw [Function.update_of_ne hmodel]
        exact h model

theorem ordered_foldl_addGroup {groups modelNames : List String} {index : Index}
    (h : ∀ group model, Ordered channelsIDM (index.ids group model)) (group model : String) :
    Ordered channelsIDM
      ((groups.foldl (addGroup channelsIDM channelID modelNames) index).ids group model) := by
  induction groups generalizing index with
  | nil => exact h group model
  | cons name groups ih =>
    apply ih
    intro group model
    rw [addGroup, Index.ids]
    by_cases hgroup : group = name
    · subst hgroup
      rw [Function.update_self, Option.map_some, Option.getD_some]
      apply ordered_foldl_addModel
      intro model
      have hmodel := h group model
      rw [Index.ids] at hmodel
      cases hindex : index group with
      | none => exact List.Pairwise.nil
      | some models => rwa [hindex] at hmodel
    · rw [Function.update_of_ne hgroup]
      exact h group model

theorem ids_erase (index : Index) (group model : String) :
    Index.ids (fun group => (index group).map fun models model => (models model).erase channelID)
      group model = (index.ids group model).erase channelID := by
  rw [Index.ids, Index.ids]
  cases index group <;> rfl

end Change

end CodeGo.Gateway.Channels
