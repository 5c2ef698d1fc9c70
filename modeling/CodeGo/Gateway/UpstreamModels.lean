import CodeGo.Lib.Reconcile
import CodeGo.Lib.Trim
import Mathlib.Data.Finmap

/-!
# Upstream model updates of a channel

`channel_upstream_update_helpers.go` in `internal/gateway/routing/app`: the models of a channel
against the models that its upstream lists, and the changes that follow. `matchString` stands for
`regexp.MatchString`, with `none` for an expression that does not compile.
-/

namespace CodeGo.Gateway.UpstreamModels

open CodeGo.Lib CodeGo.Lib.Trim

def normalizeModelNames (models : List String) : List String :=
  (models.filterMap fun modelName =>
    let trimmed := trimSpace modelName
    if trimmed ≠ "" then some trimmed else none).eraseDups

def mergeModelNames (base appended : List String) : List String :=
  (normalizeModelNames appended).foldl
    (fun merged modelName => if modelName ∈ merged then merged else merged ++ [modelName])
    (normalizeModelNames base)

def subtractModelNames (base removed : List String) : List String :=
  (normalizeModelNames base).filter fun modelName => modelName ∉ normalizeModelNames removed

def applySelectedModelChanges (originModels addModels removeModels : List String) : List String :=
  let normalizedAdd := normalizeModelNames addModels
  let normalizedRemove := subtractModelNames (normalizeModelNames removeModels) normalizedAdd
  subtractModelNames (mergeModelNames originModels normalizedAdd) normalizedRemove

/-- The model names that are aliases, with the names they stand for. -/
abbrev Mapping := Finmap fun _ : String => String

def regexPrefix : String := "regex:"

/-- The name is ignored by an entry of the list, which is a name or an expression. -/
def ignoredBy (matchString : String → String → Option Bool) (modelName ignoredModel : String) :
    Bool :=
  if regexPrefix.toList.isPrefixOf ignoredModel.toList then
    let regexBody := String.ofList (ignoredModel.toList.drop regexPrefix.toList.length)
    matchString (trimSpace regexBody) modelName = some true
  else ignoredModel = modelName

/-- What is to be added, and what is to be removed. -/
def collectPendingUpstreamModelChangesFromModels (matchString : String → String → Option Bool)
    (localModels upstreamModels ignoredModels : List String) (modelMapping : Mapping) :
    List String × List String :=
  let localModels := normalizeModelNames localModels
  let upstreamModels := normalizeModelNames upstreamModels
  let normalizedIgnoredModels := normalizeModelNames ignoredModels
  let redirectTargets := modelMapping.entries.map Sigma.snd
  let pendingAdd := upstreamModels.filter fun modelName =>
    !(modelName ∈ localModels || modelName ∈ redirectTargets) &&
      !normalizedIgnoredModels.any (ignoredBy matchString modelName)
  let pendingRemove := localModels.filter fun modelName =>
    !(modelName ∈ modelMapping) && !(modelName ∈ upstreamModels)
  (normalizeModelNames pendingAdd, normalizeModelNames pendingRemove)

section Names

variable {m : String} {models models' base appended removed : List String}

theorem nodup_eraseDups {α : Type} [BEq α] [LawfulBEq α] (xs : List α) : xs.eraseDups.Nodup := by
  match xs with
  | [] => exact List.nodup_nil
  | x :: xs =>
    rw [List.eraseDups_cons, List.nodup_cons, List.mem_eraseDups]
    have hlt : (xs.filter fun y => !y == x).length < xs.length + 1 :=
      Nat.lt_succ_of_le (List.length_filter_le _ _)
    exact ⟨by simp, nodup_eraseDups _⟩
termination_by xs.length

theorem mem_normalizeModelNames :
    m ∈ normalizeModelNames models ↔ m ≠ "" ∧ ∃ name ∈ models, trimSpace name = m := by
  unfold normalizeModelNames
  simp only [List.mem_eraseDups, List.mem_filterMap, Option.ite_none_right_eq_some,
    Option.some.injEq]
  constructor
  · rintro ⟨name, hname, hne, rfl⟩
    exact ⟨hne, name, hname, rfl⟩
  · rintro ⟨hne, name, hname, rfl⟩
    exact ⟨name, hname, hne, rfl⟩

/-- A normalized name is trimmed, and not empty. -/
theorem normal_of_mem (h : m ∈ normalizeModelNames models) : m ≠ "" ∧ trimSpace m = m := by
  obtain ⟨hne, name, -, rfl⟩ := mem_normalizeModelNames.1 h
  exact ⟨hne, trimSpace_trimSpace name⟩

/-- The names are trimmed and not empty. -/
def Normal (models : List String) : Prop := ∀ m ∈ models, m ≠ "" ∧ trimSpace m = m

theorem normal_normalizeModelNames (models : List String) : Normal (normalizeModelNames models) :=
  fun _ => normal_of_mem

theorem nodup_normalizeModelNames (models : List String) : (normalizeModelNames models).Nodup :=
  nodup_eraseDups _

theorem Normal.filter (h : Normal models) (p : String → Bool) : Normal (models.filter p) :=
  fun m hm => h m (List.mem_of_mem_filter hm)

theorem mem_normalize_of_normal (h : Normal models) : m ∈ normalizeModelNames models ↔ m ∈ models := by
  rw [mem_normalizeModelNames]
  constructor
  · rintro ⟨-, name, hname, rfl⟩
    rwa [(h name hname).2]
  · intro hm
    exact ⟨(h m hm).1, m, hm, (h m hm).2⟩

theorem mem_normalizeModelNames_of_perm (h : models.Perm models') :
    m ∈ normalizeModelNames models ↔ m ∈ normalizeModelNames models' := by
  simp only [mem_normalizeModelNames, h.mem_iff]

theorem mem_foldl_merge (names merged : List String) :
    m ∈ names.foldl (fun merged name => if name ∈ merged then merged else merged ++ [name]) merged ↔
      m ∈ merged ∨ m ∈ names := by
  induction names generalizing merged with
  | nil => simp
  | cons name names ih =>
    rw [List.foldl_cons, ih, List.mem_cons]
    split
    next hmem =>
      constructor
      · rintro (h | h)
        · exact .inl h
        · exact .inr (.inr h)
      · rintro (h | rfl | h)
        · exact .inl h
        · exact .inl hmem
        · exact .inr h
    next => simp only [List.mem_append, List.mem_singleton, or_assoc]

theorem mem_mergeModelNames : m ∈ mergeModelNames base appended ↔
    m ∈ normalizeModelNames base ∨ m ∈ normalizeModelNames appended := mem_foldl_merge _ _

theorem normal_mergeModelNames (base appended : List String) :
    Normal (mergeModelNames base appended) := by
  intro m hm
  rcases mem_mergeModelNames.1 hm with hm | hm
  · exact normal_of_mem hm
  · exact normal_of_mem hm

theorem mem_subtractModelNames : m ∈ subtractModelNames base removed ↔
    m ∈ normalizeModelNames base ∧ m ∉ normalizeModelNames removed := by
  rw [subtractModelNames, List.mem_filter, decide_eq_true_eq]

theorem mem_applySelectedModelChanges {add remove : List String} :
    m ∈ applySelectedModelChanges base add remove ↔
      (m ∈ normalizeModelNames base ∨ m ∈ normalizeModelNames add) ∧
        ¬ (m ∈ normalizeModelNames remove ∧ m ∉ normalizeModelNames add) := by
  have hsub : Normal (subtractModelNames (normalizeModelNames remove) (normalizeModelNames add)) :=
    (normal_normalizeModelNames _).filter _
  unfold applySelectedModelChanges
  simp only [mem_subtractModelNames, mem_normalize_of_normal (normal_mergeModelNames _ _),
    mem_normalize_of_normal hsub, mem_mergeModelNames,
    mem_normalize_of_normal (normal_normalizeModelNames _)]

end Names

section Sync

open Reconcile

variable (matchString : String → String → Option Bool)
  (localModels upstreamModels ignoredModels : List String) (modelMapping : Mapping)

/-- What the lists and the mapping of a channel mean. -/
def rules : Rules String where
  upstream := {m | m ∈ normalizeModelNames upstreamModels}
  ignored := {m | ∃ i ∈ normalizeModelNames ignoredModels, ignoredBy matchString m i = true}
  pinned := {m | m ∈ modelMapping}
  covered := {m | m ∈ modelMapping.entries.map Sigma.snd}

def names (models : List String) : Set String := {m | m ∈ normalizeModelNames models}

/-- The code collects the additions and the removals of its rules. -/
theorem mem_collect (m : String) :
    (m ∈ (collectPendingUpstreamModelChangesFromModels matchString localModels upstreamModels
        ignoredModels modelMapping).1 ↔
      m ∈ (rules matchString upstreamModels ignoredModels modelMapping).additions
        (names localModels)) ∧
    (m ∈ (collectPendingUpstreamModelChangesFromModels matchString localModels upstreamModels
        ignoredModels modelMapping).2 ↔
      m ∈ (rules matchString upstreamModels ignoredModels modelMapping).removals
        (names localModels)) := by
  unfold collectPendingUpstreamModelChangesFromModels
  simp only [mem_normalize_of_normal ((normal_normalizeModelNames _).filter _), List.mem_filter,
    Bool.and_eq_true, Bool.not_eq_true', Bool.or_eq_false_iff, decide_eq_false_iff_not,
    List.any_eq_false]
  constructor
  · constructor
    · rintro ⟨hup, ⟨hlocal, htarget⟩, hignored⟩
      exact ⟨hup, hlocal, htarget, fun ⟨i, hi, hmatch⟩ => hignored i hi hmatch⟩
    · rintro ⟨hup, hlocal, htarget, hignored⟩
      exact ⟨hup, ⟨hlocal, htarget⟩, fun i hi hmatch => hignored ⟨i, hi, hmatch⟩⟩
  · exact Iff.rfl

/-- The list that the channel has after the changes. -/
def synced : List String :=
  let pending := collectPendingUpstreamModelChangesFromModels matchString localModels upstreamModels
    ignoredModels modelMapping
  applySelectedModelChanges localModels pending.1 pending.2

theorem normal_collect :
    Normal (collectPendingUpstreamModelChangesFromModels matchString localModels upstreamModels
        ignoredModels modelMapping).1 ∧
      Normal (collectPendingUpstreamModelChangesFromModels matchString localModels upstreamModels
        ignoredModels modelMapping).2 :=
  ⟨normal_normalizeModelNames _, normal_normalizeModelNames _⟩

/-- The code reaches the next set of its rules. -/
theorem mem_synced (m : String) :
    m ∈ synced matchString localModels upstreamModels ignoredModels modelMapping ↔
      m ∈ (rules matchString upstreamModels ignoredModels modelMapping).next (names localModels) := by
  obtain ⟨hadd, hrem⟩ := mem_collect matchString localModels upstreamModels ignoredModels
    modelMapping m
  obtain ⟨hnadd, hnrem⟩ := normal_collect matchString localModels upstreamModels ignoredModels
    modelMapping
  unfold synced
  rw [mem_applySelectedModelChanges, mem_normalize_of_normal hnadd, mem_normalize_of_normal hnrem,
    hadd, hrem]
  constructor
  · rintro ⟨hin, hout⟩
    refine ⟨hin, fun hremoved => ?_⟩
    exact hout ⟨hremoved, fun hadded => Rules.not_mem_removals_of_addition hadded hremoved⟩
  · rintro ⟨hin, hout⟩
    exact ⟨hin, fun hboth => hout hboth.1⟩

theorem names_synced :
    names (synced matchString localModels upstreamModels ignoredModels modelMapping) =
      (rules matchString upstreamModels ignoredModels modelMapping).next (names localModels) := by
  have hnormal : Normal (synced matchString localModels upstreamModels ignoredModels modelMapping) :=
    (normal_normalizeModelNames _).filter _
  ext m
  exact (mem_normalize_of_normal hnormal).trans (mem_synced ..)

theorem rules_of_perm {upstreamModels' ignoredModels' : List String}
    (hup : upstreamModels'.Perm upstreamModels) (hign : ignoredModels'.Perm ignoredModels) :
    rules matchString upstreamModels' ignoredModels' modelMapping =
      rules matchString upstreamModels ignoredModels modelMapping := by
  unfold rules
  simp only [mem_normalizeModelNames_of_perm hup, mem_normalizeModelNames_of_perm hign]

/-- One round of updates settles the models of a channel. -/
theorem upstream_models_settle :
    collectPendingUpstreamModelChangesFromModels matchString
        (synced matchString localModels upstreamModels ignoredModels modelMapping) upstreamModels
        ignoredModels modelMapping = ([], []) ∧
      (synced matchString localModels upstreamModels ignoredModels modelMapping).Nodup ∧
      (∀ source ∈ modelMapping, source ∈ normalizeModelNames localModels →
        source ∈ synced matchString localModels upstreamModels ignoredModels modelMapping) ∧
      (∀ m ∈ (collectPendingUpstreamModelChangesFromModels matchString localModels upstreamModels
          ignoredModels modelMapping).2,
        m ∉ synced matchString localModels upstreamModels ignoredModels modelMapping) ∧
      ∀ localModels' upstreamModels' ignoredModels' : List String, localModels'.Perm localModels →
        upstreamModels'.Perm upstreamModels → ignoredModels'.Perm ignoredModels →
        ∀ m, m ∈ synced matchString localModels' upstreamModels' ignoredModels' modelMapping ↔
          m ∈ synced matchString localModels upstreamModels ignoredModels modelMapping := by
  refine ⟨Prod.ext ?_ ?_, ?_, fun source hsource hlocal => ?_, fun m hm => ?_, ?_⟩
  · refine List.eq_nil_iff_forall_not_mem.2 fun m hm => ?_
    have hadded := (mem_collect ..).1.1 hm
    rw [names_synced, Rules.additions_next] at hadded
    exact hadded
  · refine List.eq_nil_iff_forall_not_mem.2 fun m hm => ?_
    have hremoved := (mem_collect ..).2.1 hm
    rw [names_synced, Rules.removals_next] at hremoved
    exact hremoved
  · exact (nodup_normalizeModelNames _).filter _
  · exact (mem_synced ..).2 (Rules.pinned_subset_next hlocal hsource)
  · intro hmem
    exact ((mem_synced ..).1 hmem).2 ((mem_collect ..).2.1 hm)
  · intro localModels' upstreamModels' ignoredModels' hlocal hup hign m
    have hnames : names localModels' = names localModels := by
      ext m
      exact mem_normalizeModelNames_of_perm hlocal
    rw [mem_synced, mem_synced, rules_of_perm matchString upstreamModels ignoredModels modelMapping
      hup hign, hnames]

end Sync

end CodeGo.Gateway.UpstreamModels
