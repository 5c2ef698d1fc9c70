import CodeGo.Lib.Weave
import CodeGo.Gateway.ChannelCacheRefinement

/-!
# Rebuilds of the channel cache between the writers

A rebuild reads the channels and then the abilities, while the writers commit a channel and its
abilities in separate statements. It panics exactly when the channels that it read have a group
that no ability that it read has.
-/

namespace CodeGo.Gateway.Channels

open CodeGo.Lib CodeGo.Lib.Prog CodeGo.Lib.Weave

section Processes

inductive Op where
  | createChannel (channel : Channel)
  | updateChannel (channel : Channel)
  | deleteChannelByID (channelID : Int)
  | batchDeleteChannels (ids : List Int)
  | deleteDisabledChannels
  | updateChannelStatus (channelID : Int) (usingKey : String) (status : Int)
  | initChannelCache (old : Cache)

inductive Outcome where
  | done
  | rebuilt (channels : List Channel) (abilities : List Ability) (cache : Option Cache)

variable (unmarshal : String → Option (List String))

def rebuildChannelCache (old : Cache) : Statements Outcome := do
  let channels ← step () fun db => (db.find, db)
  let abilities ← step () fun db => (db.abilities, db)
  pure (.rebuilt channels abilities (initChannelCache unmarshal old channels abilities))

def statementsOf : Op → Statements Outcome
  | .createChannel channel => do createChannel channel; pure .done
  | .updateChannel channel => do updateChannel unmarshal channel; pure .done
  | .deleteChannelByID channelID => do deleteChannelByID channelID; pure .done
  | .batchDeleteChannels ids => do batchDeleteChannels ids; pure .done
  | .deleteDisabledChannels => do deleteDisabledChannels; pure .done
  | .updateChannelStatus channelID usingKey status => do
    discard (persistChannelStatus unmarshal channelID usingKey status)
    pure .done
  | .initChannelCache old => rebuildChannelCache unmarshal old

/-- The operations of the processes, none of which has started. -/
def processes {ι : Type} (db : Database) (ops : ι → Op) : System ι Database Turn Error Outcome :=
  ⟨db, fun i => opened (statementsOf unmarshal (ops i))⟩

/-- The rebuild has made a cache, which lists every enabled channel that was read. -/
def Outcome.Complete : Outcome → Prop
  | .done => True
  | .rebuilt channels _ cache => ∃ built, cache = some built ∧
    ∀ c ∈ channels, c.status = channelStatusEnabled → ∀ group ∈ c.groupNames,
      ∀ model ∈ c.modelNames, c.id ∈ built.group2model2channels.ids group model

end Processes

section Interleaved

variable {unmarshal : String → Option (List String)}

theorem complete_rebuilt_iff {old : Cache} {channels : List Channel} {abilities : List Ability} :
    (Outcome.rebuilt channels abilities
      (initChannelCache unmarshal old channels abilities)).Complete ↔ Named channels abilities := by
  rw [← initChannelCache_isSome unmarshal old, Outcome.Complete]
  constructor
  · rintro ⟨built, hbuilt, -⟩
    rw [hbuilt]
    rfl
  · intro hsome
    obtain ⟨built, hbuilt⟩ := Option.isSome_iff_exists.1 hsome
    refine ⟨built, hbuilt, fun c hc henabled group hgroup model hmodel => ?_⟩
    exact (mem_ids_of_init hbuilt).2 ⟨c, hc, henabled, hgroup, hmodel, rfl⟩

/-- The cache of an outcome is the rebuild from what was read. -/
def Outcome.Rebuilt (unmarshal : String → Option (List String)) : Outcome → Prop
  | .done => True
  | .rebuilt channels abilities cache =>
    ∃ old, cache = initChannelCache unmarshal old channels abilities

theorem yields_statementsOf (op : Op) : Yields (Outcome.Rebuilt unmarshal) (statementsOf unmarshal op) := by
  cases op with
  | initChannelCache old => exact fun _ _ => ⟨old, rfl⟩
  | _ => exact Yields.bind _ fun _ => trivial

end Interleaved

section Registered

/-- Every channel has an ability of its own for each of its groups. -/
def Registered (db : Database) : Prop :=
  ∀ id c, db.first id = some c → ∀ group ∈ c.groupNames,
    ∃ a ∈ db.abilities, a.group = group ∧ a.channelID = id

variable {unmarshal : String → Option (List String)} {db : Database} {new : List Ability}

theorem Registered.named (h : Registered db) : Named db.find db.abilities := by
  intro c hc _ group hgroup
  obtain ⟨a, ha, hag, -⟩ := h c.id c (mem_find_iff.1 hc) group hgroup
  exact ⟨a, ha, hag⟩

theorem mem_insertAbility {abilities : List Ability} {ability a : Ability}
    (h : a ∈ abilities) : a ∈ insertAbility abilities ability := by
  rw [insertAbility]
  split
  · exact h
  · exact List.mem_append_left _ h

/-- What is inserted is there afterwards, or was there under the same primary key. -/
theorem exists_mem_insertAbilities (new : List Ability) (abilities : List Ability) :
    (∀ a ∈ abilities, a ∈ new.foldl insertAbility abilities) ∧
      ∀ a ∈ new, ∃ a' ∈ new.foldl insertAbility abilities,
        a'.group = a.group ∧ a'.channelID = a.channelID := by
  induction new generalizing abilities with
  | nil => exact ⟨fun a ha => ha, nofun⟩
  | cons ability new ih =>
    obtain ⟨hold, hnew⟩ := ih (insertAbility abilities ability)
    refine ⟨fun a ha => hold a (mem_insertAbility ha), ?_⟩
    intro a ha
    rcases List.mem_cons.1 ha with rfl | ha
    · by_cases hstored : ∃ a' ∈ abilities, a'.group = a.group ∧ a'.model = a.model ∧
        a'.channelID = a.channelID
      · obtain ⟨a', ha', hgroup, -, hid⟩ := hstored
        exact ⟨a', hold a' (mem_insertAbility ha'), hgroup, hid⟩
      · refine ⟨a, hold a ?_, rfl, rfl⟩
        rw [insertAbility, if_neg hstored]
        exact List.mem_append_right _ (List.mem_singleton.2 rfl)
    · exact hnew a ha

theorem flatten_chunk {α : Type} (size : Nat) (hsize : 0 < size) (xs : List α) :
    (chunk size hsize xs).flatten = xs := by
  fun_induction chunk size hsize xs with
  | case1 => rfl
  | case2 x xs ih => rw [List.flatten_cons, ih, List.take_append_drop]

theorem run_addChannelAbilities (channel : Channel) (db : Database) :
    (addChannelAbilities channel).run db =
      (.ok (), db.insertAbilities (buildChannelAbilities channel)) := by
  have hrun : ∀ (chunks : List (List Ability)) (db : Database),
      (chunks.forM fun abilities =>
        (step () fun db => ((), db.insertAbilities abilities) : Statements Unit)).run db =
        (.ok (), db.insertAbilities chunks.flatten) := by
    intro chunks
    induction chunks with
    | nil => exact fun _ => rfl
    | cons abilities chunks ih =>
      intro db
      have hchunks := ih (db.insertAbilities abilities)
      rw [List.flatten_cons, Database.insertAbilities, List.foldl_append]
      exact hchunks
  rw [addChannelAbilities, hrun, flatten_chunk]

theorem mem_foldl_addAbility {channel : Channel} {pairs : List (String × String)}
    {built : List String × List Ability} {a : Ability} (ha : a ∈ built.2) :
    a ∈ (pairs.foldl (addAbility channel) built).2 := by
  induction pairs generalizing built with
  | nil => exact ha
  | cons pair pairs ih =>
    apply ih
    rw [addAbility]
    split
    · exact ha
    · exact List.mem_append_left _ ha

/-- Under one model the keys tell the groups apart. -/
theorem exists_mem_foldl_addAbility (channel : Channel) {groups : List String} (model : String)
    (built : List String × List Ability)
    (hbuilt : ∀ key ∈ built.1, ∃ a ∈ built.2, key = a.group ++ "|" ++ model ∧
      a.channelID = channel.id) {group : String} (hgroup : group ∈ groups) :
    ∃ a ∈ ((groups.map (·, model)).foldl (addAbility channel) built).2,
      a.group = group ∧ a.channelID = channel.id := by
  induction groups generalizing built with
  | nil => cases hgroup
  | cons name groups ih =>
    rw [List.map_cons, List.foldl_cons]
    rcases List.mem_cons.1 hgroup with rfl | hgroup
    · have hstored : ∃ a ∈ (addAbility channel built (group, model)).2,
          a.group = group ∧ a.channelID = channel.id := by
        rw [addAbility]
        split
        next hkey =>
          obtain ⟨a, ha, hsame, hid⟩ := hbuilt _ hkey
          have hgroup : group = a.group := by
            simpa [String.append_assoc] using hsame
          exact ⟨a, ha, hgroup.symm, hid⟩
        next =>
          exact ⟨channel.ability group model, List.mem_append_right _ (List.mem_singleton.2 rfl),
            rfl, rfl⟩
      obtain ⟨a, ha, hgroup, hid⟩ := hstored
      exact ⟨a, mem_foldl_addAbility ha, hgroup, hid⟩
    · refine ih _ ?_ hgroup
      rw [addAbility]
      split
      · exact hbuilt
      · intro key hkey
        rcases List.mem_cons.1 hkey with rfl | hkey
        · exact ⟨channel.ability name model, List.mem_append_right _ (List.mem_singleton.2 rfl),
            rfl, rfl⟩
        · obtain ⟨a, ha, hsame, hid⟩ := hbuilt key hkey
          exact ⟨a, List.mem_append_left _ ha, hsame, hid⟩

theorem exists_mem_buildChannelAbilities (channel : Channel) {group : String}
    (hgroup : group ∈ channel.groupNames) :
    ∃ a ∈ buildChannelAbilities channel, a.group = group ∧ a.channelID = channel.id := by
  rw [buildChannelAbilities]
  cases hmodels : channel.modelNames with
  | nil => exact absurd hmodels (split_ne_nil channel.models ',')
  | cons model models =>
    obtain ⟨a, ha, hag, hid⟩ := exists_mem_foldl_addAbility channel model ([], []) (by simp)
      hgroup
    simp only [List.flatMap_cons, List.foldl_append]
    exact ⟨a, mem_foldl_addAbility ha, hag, hid⟩

theorem Registered.insertAbilities (h : ∀ id c, db.first id = some c → ∀ group ∈ c.groupNames,
      ∃ a, (a ∈ db.abilities ∨ a ∈ new) ∧ a.group = group ∧ a.channelID = id) :
    Registered (db.insertAbilities new) := by
  intro id c hc group hgroup
  obtain ⟨a, ha, hag, hid⟩ := h id c hc group hgroup
  obtain ⟨hold, hnew⟩ := exists_mem_insertAbilities new db.abilities
  rcases ha with ha | ha
  · exact ⟨a, hold a ha, hag, hid⟩
  · obtain ⟨a', ha', hgroup', hid'⟩ := hnew a ha
    exact ⟨a', ha', hgroup'.trans hag, hid'.trans hid⟩

theorem Registered.createChannel (h : Registered db) (channel : Channel) :
    Registered ((Channels.createChannel channel).run db).2 := by
  rw [Channels.createChannel, run_bind, run_stepE]
  cases hinsert : db.channels.insert? channel.withDefaults with
  | none => exact h
  | some channels =>
    simp only [run_addChannelAbilities]
    apply Registered.insertAbilities
    intro id c hc group hgroup
    rw [Database.first, Table.get?_insert? hinsert] at hc
    split at hc
    next hid =>
      cases hc
      obtain ⟨a, ha, hag, ha'⟩ := exists_mem_buildChannelAbilities channel.withDefaults hgroup
      exact ⟨a, .inr ha, hag, by rw [ha', hid]; rfl⟩
    next =>
      obtain ⟨a, ha, hag, ha'⟩ := h id c hc group hgroup
      exact ⟨a, .inl ha, hag, ha'⟩

theorem run_updateChannelAbilities (channel : Channel) (db : Database) :
    (updateChannelAbilities channel).run db = (.ok (), (db.deleteAbilities (· = channel.id))
      |>.insertAbilities (buildChannelAbilities channel)) := by
  rw [updateChannelAbilities, run_transaction, commit, run_bind, run_step]
  simp only [run_addChannelAbilities]

theorem mem_deleteAbilities {p : Int → Bool} {a : Ability} :
    a ∈ (db.deleteAbilities p).abilities ↔ a ∈ db.abilities ∧ p a.channelID = false := by
  simp [Database.deleteAbilities]

variable (unmarshal) in
theorem run_prepareChannelForSave (channel : Channel) (db : Database) :
    ∃ prepared, (prepareChannelForSave unmarshal channel).run db = (.ok prepared, db) ∧
      prepared.id = channel.id := by
  rw [prepareChannelForSave]
  split
  · exact ⟨channel, rfl, rfl⟩
  · split
    · exact ⟨_, rfl, rfl⟩
    · rw [run_bind, run_attempt, loadChannelByID, run_stepE]
      cases db.first channel.id <;> exact ⟨_, rfl, rfl⟩

variable (db) in
theorem first_updates (channel : Channel) (id : Int) :
    (db.updates channel).first id = if id = channel.id then
      (db.channels.get? id).map fun row => (updateColumns channel row).loaded
    else db.first id := by
  rw [Database.first, Database.updates, Table.get?_update]
  split
  next hid => rw [hid, Option.map_map]; rfl
  next => rfl

theorem Registered.updateChannel (h : Registered db) (channel : Channel) :
    Registered ((Channels.updateChannel unmarshal channel).run db).2 := by
  obtain ⟨prepared, hprepared, hid⟩ := run_prepareChannelForSave unmarshal channel db
  rw [Channels.updateChannel, run_bind_ok hprepared, run_bind, run_stepE]
  by_cases hzero : prepared.id = 0
  · simpa [hzero] using h
  · simp only [if_neg hzero, run_bind, run_step, run_updateChannelAbilities]
    -- the row as it is read back, or the channel of the request when there is none
    have hsaved : (((db.updates prepared).first prepared.id).getD prepared).id = prepared.id := by
      cases hrow : (db.updates prepared).first prepared.id with
      | none => rfl
      | some row => exact (first_eq_some hrow).1
    apply Registered.insertAbilities
    intro id c hc group hgroup
    rw [hsaved]
    by_cases hchannel : id = prepared.id
    · subst hchannel
      have hc' : (db.updates prepared).first prepared.id = some c := hc
      rw [hc'] at hsaved ⊢
      obtain ⟨a, ha, hag, ha'⟩ := exists_mem_buildChannelAbilities _ hgroup
      exact ⟨a, .inr ha, hag, by rw [ha']; exact hsaved⟩
    · have hrow : db.first id = some c := by
        have hupdates := first_updates db prepared id
        rw [if_neg hchannel] at hupdates
        exact hupdates.symm.trans hc
      obtain ⟨a, ha, hag, ha'⟩ := h id c hrow group hgroup
      refine ⟨a, .inl (mem_deleteAbilities.2 ⟨ha, ?_⟩), hag, ha'⟩
      simpa [ha'] using hchannel

theorem first_of_delete {p : Channel → Bool} {id : Int} {c : Channel}
    (h : ({ db with channels := db.channels.delete p } : Database).first id = some c) :
    db.first id = some c ∧ ∃ row, p row = false ∧ row.id = id ∧ row.status = c.status := by
  obtain ⟨row, hrow, rfl⟩ := Option.map_eq_some_iff.1 h
  have hmem := Table.mem_delete.1 (Table.mem_of_get? hrow)
  have hid : row.id = id := Table.pk_of_get? hrow
  have hget := Table.get?_of_mem hmem.1
  rw [pk_channel, hid] at hget
  exact ⟨by rw [Database.first, hget]; rfl, row, hmem.2, hid, rfl⟩

/-- Channels and then the abilities of channels that are gone are deleted. -/
theorem Registered.delete (h : Registered db) {p : Channel → Bool} {q : Int → Bool}
    (hpq : ∀ row, p row = false → q row.id = false) :
    Registered (({ db with channels := db.channels.delete p } : Database).deleteAbilities q) := by
  intro id c hc group hgroup
  obtain ⟨hrow, row, hp, hid, -⟩ := first_of_delete hc
  obtain ⟨a, ha, hag, ha'⟩ := h id c hrow group hgroup
  refine ⟨a, mem_deleteAbilities.2 ⟨ha, ?_⟩, hag, ha'⟩
  rw [ha', ← hid]
  exact hpq row hp

variable (unmarshal) in
theorem Registered.persistChannelStatus (h : Registered db) (channelID : Int) (usingKey : String)
    (status : Int) :
    Registered ((Channels.persistChannelStatus unmarshal channelID usingKey status).run db).2 := by
  cases hload : db.first channelID with
  | none =>
    rw [Channels.persistChannelStatus, run_bind, run_attempt, loadChannelByID, run_stepE, hload]
    exact h
  | some c =>
    obtain ⟨rfl, -⟩ := first_eq_some hload
    obtain ⟨db', hdb', hgroups, hfirst⟩ := persistChannelStatus_effect unmarshal usingKey status
      hload
    rw [hdb']
    intro id c' hc' group hgroup
    rw [hgroups]
    rw [hfirst] at hc'
    split at hc'
    next hupdated =>
      cases hc'
      obtain ⟨-, -, -, hsame, -⟩ := updated_keeps unmarshal usingKey status c
      rw [Channel.groupNames, hsame] at hgroup
      rw [hupdated.1]
      exact h c.id c hload group hgroup
    next => exact h id c' hc' group hgroup

variable (db) in
theorem run_then {α β : Type} (p : Statements α) (b : β) :
    ((p >>= fun _ => pure b).run db).2 = (p.run db).2 := by
  rw [run_bind]
  match p.run db with
  | (.ok a, db') => rfl
  | (.error e, db') => rfl

theorem ok_then {α β : Type} {p : Statements α} {b b' : β}
    (h : ((p >>= fun _ => pure b).run db).1 = .ok b') : b' = b := by
  rw [run_bind] at h
  match p.run db, h with
  | (.ok a, db'), h => exact (Except.ok.inj h).symm
  | (.error e, db'), h => cases h

/-- Alone, every operation leaves each channel with its abilities, and a rebuild is complete. -/
theorem Registered.run (h : Registered db) (op : Op) :
    Registered ((statementsOf unmarshal op).run db).2 ∧
      ∀ outcome, ((statementsOf unmarshal op).run db).1 = .ok outcome → outcome.Complete := by
  cases op with
  | createChannel channel =>
    refine ⟨?_, fun outcome ho => by cases ok_then ho; trivial⟩
    rw [statementsOf, run_then]
    exact h.createChannel channel
  | updateChannel channel =>
    refine ⟨?_, fun outcome ho => by cases ok_then ho; trivial⟩
    rw [statementsOf, run_then]
    exact h.updateChannel channel
  | deleteChannelByID channelID =>
    refine ⟨?_, fun outcome ho => by cases ok_then ho; trivial⟩
    rw [statementsOf, run_then, Channels.deleteChannelByID, run_bind, run_stepE]
    by_cases hzero : channelID = 0
    · simpa [hzero] using h
    · simp only [if_neg hzero, run_step]
      exact h.delete fun row hrow => hrow
  | batchDeleteChannels ids =>
    refine ⟨?_, fun outcome ho => by cases ok_then ho; trivial⟩
    rw [statementsOf, run_then, Channels.batchDeleteChannels]
    split
    · exact h
    · exact h.delete fun row hrow => hrow
  | deleteDisabledChannels =>
    refine ⟨?_, fun outcome ho => by cases ok_then ho; trivial⟩
    rw [statementsOf, run_then]
    intro id c hc
    exact h id c (first_of_delete hc).1
  | updateChannelStatus channelID usingKey status =>
    refine ⟨?_, fun outcome ho => by cases ok_then ho; trivial⟩
    rw [statementsOf, run_then]
    have hdiscard := h.persistChannelStatus unmarshal channelID usingKey status
    rw [← run_then db _ ()] at hdiscard
    exact hdiscard
  | initChannelCache old =>
    refine ⟨h, fun outcome ho => ?_⟩
    cases ho
    exact complete_rebuilt_iff.2 h.named

end Registered

section Runs

variable {unmarshal : String → Option (List String)} {ι : Type} [DecidableEq ι] {db : Database}
  {ops : ι → Op} {c : System ι Database Turn Error Outcome}

/-- A rebuild between the statements of other operations completes, and lists every enabled channel
that it read, exactly when the abilities that it read name the groups of these channels; where no
two operations overlap, every rebuild does. -/
theorem channel_cache_rebuilds_iff :
    (∀ i channels abilities cache, Reach (fun _ _ _ => True) (processes unmarshal db ops) c →
      c.proc i = .ret (.rebuilt channels abilities cache) →
      ((Outcome.rebuilt channels abilities cache).Complete ↔ Named channels abilities)) ∧
    (Registered db → Reach Alone (processes unmarshal db ops) c →
      ∀ i outcome, c.proc i = .ret outcome → outcome.Complete) := by
  constructor
  · intro i channels abilities cache hreach hi
    have hyields := hreach.yields (Q := Outcome.Rebuilt unmarshal)
      (fun i => yields_opened (yields_statementsOf (ops i))) i
    rw [hi] at hyields
    obtain ⟨old, rfl⟩ := hyields
    exact complete_rebuilt_iff
  · intro hdb hreach i outcome hi
    exact hreach.serial_ret (I := Registered)
      (Q := fun _ result => ∀ outcome, result = .ok outcome → outcome.Complete) hdb
      (fun i db hdb => hdb.run (ops i)) hi outcome rfl

def sampleChannel : Channel where
  id := 1
  models := "m"
  group := "vip"

/-- A channel is created in the group "vip", and the cache rebuilt. -/
def sampleOps (creates : Bool) : Op :=
  if creates then .createChannel sampleChannel else .initChannelCache {}

theorem registered_empty : Registered {} := nofun

/-- What was read and whether a cache was made. -/
def rebuildOf (c : System Bool Database Turn Error Outcome) :
    Option (List Channel × List Ability × Bool) :=
  match c.proc false with
  | .ret (.rebuilt channels abilities cache) => some (channels, abilities, cache.isSome)
  | _ => none

theorem rebuildOf_eq_some {c : System Bool Database Turn Error Outcome} {channels : List Channel}
    {abilities : List Ability} {made : Bool}
    (h : rebuildOf c = some (channels, abilities, made)) :
    ∃ cache, c.proc false = .ret (.rebuilt channels abilities cache) ∧ cache.isSome = made := by
  rw [rebuildOf] at h
  split at h
  next channels' abilities' cache hproc =>
    cases h
    exact ⟨cache, hproc, rfl⟩
  next => cases h

/-- The cache is rebuilt once the channel has been created. -/
theorem channel_cache_rebuilds_sample : ∃ c,
    Reach Alone (processes (fun _ => none) {} sampleOps) c ∧ (∃ channels abilities cache,
      c.proc false = .ret (.rebuilt channels abilities cache) ∧ channels ≠ [] ∧
        (Outcome.rebuilt channels abilities cache).Complete) := by
  have hrun : (perform (fun c i _ => (c.proc !i).next? != some .later)
      (processes (fun _ => none) {} sampleOps) [true, true, false, false]).bind rebuildOf =
        some ([sampleChannel.withDefaults], [⟨"vip", "m", 1, true⟩], true) := by decide +kernel
  obtain ⟨c, hc, hrebuild⟩ := Option.bind_eq_some_iff.1 hrun
  have hreach : Reach Alone (processes (fun _ => none) {} sampleOps) c := by
    apply Reach.init.perform _ hc
    intro c i l hcheck j hj
    cases i <;> cases j <;> simp_all
  obtain ⟨cache, hproc, -⟩ := rebuildOf_eq_some hrebuild
  exact ⟨c, hreach, _, _, cache, hproc, by simp,
    (channel_cache_rebuilds_iff).2 registered_empty hreach false _ hproc⟩

/-- The channel has been inserted when the cache is rebuilt, and its abilities have not. -/
theorem rebuild_before_abilities :
    ¬ ∀ (unmarshal : String → Option (List String)) (ops : Bool → Op)
      (c : System Bool Database Turn Error Outcome),
      Reach (fun _ _ _ => True) (processes unmarshal {} ops) c →
      ∀ i outcome, c.proc i = .ret outcome → outcome.Complete := by
  intro h
  have hrun : (perform (fun _ _ _ => true) (processes (fun _ => none) {} sampleOps)
      [true, false, false]).bind rebuildOf =
        some ([sampleChannel.withDefaults], [], false) := by decide
  obtain ⟨c, hc, hrebuild⟩ := Option.bind_eq_some_iff.1 hrun
  obtain ⟨cache, hproc, hnone⟩ := rebuildOf_eq_some hrebuild
  obtain ⟨built, hbuilt, -⟩ := h (fun _ => none) sampleOps c
    (Reach.init.perform (fun _ _ _ _ => trivial) hc) false _ hproc
  rw [hbuilt] at hnone
  cases hnone

end Runs

end CodeGo.Gateway.Channels
