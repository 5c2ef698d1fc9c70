import CodeGo.Lib.Chain
import Mathlib.Data.Finmap

/-!
# The model mapping of a channel

`ModelMappedHelper` in `model_mapping.go`, and the channels that are tried one after another for a
request: each attempt sets up the context, makes the channel meta and maps the model.
-/

namespace CodeGo.Gateway.ModelMapping

open CodeGo.Lib.Chain

section Model

abbrev Mapping := Finmap fun _ : String => String

def compactModelSuffix := "-openai-compact"

def hasCompactSuffix (name : String) : Bool :=
  compactModelSuffix.toList.isSuffixOf name.toList

/-- `strings.TrimSuffix`. -/
def trimCompactSuffix (name : String) : String :=
  if hasCompactSuffix name then
    String.ofList (name.toList.take (name.toList.length - compactModelSuffix.toList.length))
  else name

def withCompactModelSuffix (modelName : String) : String :=
  if hasCompactSuffix modelName then modelName else modelName ++ compactModelSuffix

inductive Error where
  | unmarshalModelMappingFailed
  | modelMappingContainsCycle
  deriving DecidableEq, Repr

def Error.message : Error → String
  | .unmarshalModelMappingFailed => "unmarshal_model_mapping_failed"
  | .modelMappingContainsCycle => "model_mapping_contains_cycle"

/-- What the context says of the selected channel. -/
structure Context where
  originalModel : String
  modelMapping : String

/-- The request, and the names in the meta of its channel. -/
structure RelayInfo where
  isResponsesCompact : Bool
  originModelName : String
  upstreamModelName : String := ""
  isModelMapped : Bool := false
  deriving DecidableEq, Repr

/-- A name that is mapped to the empty name is not mapped. -/
def mappedModel (modelMap : Mapping) (name : String) : Option String :=
  (modelMap.lookup name).filter (· ≠ "")

inductive Followed where
  | unmapped
  | last (currentModel : String) (isModelMapped : Bool)
  | cycle
  deriving DecidableEq, Repr

/-- The names that lead to one that was not visited. -/
def fresh (modelMap : Mapping) (visited : List String) : Finset String :=
  modelMap.keys.filter fun name => ∃ mapped ∈ mappedModel modelMap name, mapped ∉ visited

theorem fresh_lt {modelMap : Mapping} {visited : List String} {current mapped : String}
    (h : mappedModel modelMap current = some mapped) (hmapped : mapped ∉ visited) :
    (fresh modelMap (mapped :: visited)).card < (fresh modelMap visited).card := by
  have hkey : current ∈ modelMap.keys := by
    rw [Finmap.mem_keys, ← Finmap.lookup_isSome]
    rw [(Option.filter_eq_some_iff.1 h).1]
    rfl
  apply Finset.card_lt_card
  rw [Finset.ssubset_iff_of_subset]
  · refine ⟨current, ?_, ?_⟩
    · simp only [fresh, Finset.mem_filter]
      exact ⟨hkey, mapped, h, hmapped⟩
    · simp [fresh, h]
  · intro name hname
    simp only [fresh, Finset.mem_filter, List.mem_cons, not_or] at hname ⊢
    obtain ⟨hmem, target, htarget, -, hnew⟩ := hname
    exact ⟨hmem, target, htarget, hnew⟩

/-- The loop over the visited names. -/
def follow (modelMap : Mapping) (originModelName : String) (visitedModels : List String)
    (currentModel : String) (isModelMapped : Bool) : Followed :=
  match h : mappedModel modelMap currentModel with
  | none => .last currentModel isModelMapped
  | some mapped =>
    if hvisited : mapped ∈ visitedModels then
      if mapped = currentModel then
        if currentModel = originModelName then .unmapped else .last currentModel true
      else .cycle
    else follow modelMap originModelName (mapped :: visitedModels) mapped true
  termination_by (fresh modelMap visitedModels).card
  decreasing_by exact fresh_lt h hvisited

def mappingModelName (info : RelayInfo) : String :=
  if info.isResponsesCompact then trimCompactSuffix info.originModelName else info.originModelName

/-- The names at the end. -/
def finish (info : RelayInfo) : RelayInfo :=
  if info.isResponsesCompact then
    let finalUpstreamModelName :=
      if info.isModelMapped ∧ info.upstreamModelName ≠ "" then info.upstreamModelName
      else mappingModelName info
    { info with
      upstreamModelName := finalUpstreamModelName
      originModelName := withCompactModelSuffix finalUpstreamModelName }
  else info

-- `unmarshal` is how `encoding/json` reads a text as a map of strings
variable (unmarshal : String → Option Mapping)

def modelMappedHelper (c : Context) (info : RelayInfo) : Option Error × RelayInfo :=
  if c.modelMapping ≠ "" ∧ c.modelMapping ≠ "{}" then
    match unmarshal c.modelMapping with
    | none => (some .unmarshalModelMappingFailed, info)
    | some modelMap =>
      match follow modelMap info.originModelName [mappingModelName info] (mappingModelName info)
          info.isModelMapped with
      | .unmapped => (none, { info with isModelMapped := false })
      | .cycle => (some .modelMappingContainsCycle, { info with isModelMapped := true })
      | .last currentModel isModelMapped =>
        (none, finish { info with
          isModelMapped := isModelMapped
          upstreamModelName := if isModelMapped then currentModel else info.upstreamModelName })
  else (none, finish info)

def setupContextForSelectedChannel (modelMapping modelName : String) : Context :=
  ⟨modelName, modelMapping⟩

def initChannelMeta (c : Context) (info : RelayInfo) : RelayInfo :=
  { info with upstreamModelName := c.originalModel, isModelMapped := false }

/-- One attempt with a channel of this mapping. -/
def attempt (info : RelayInfo) (modelMapping : String) : Option Error × RelayInfo :=
  let c := setupContextForSelectedChannel modelMapping info.originModelName
  modelMappedHelper unmarshal c (initChannelMeta c info)

/-- What the attempts return and leave, one after another. -/
def attempts (info : RelayInfo) : List String → List (Option Error × RelayInfo)
  | [] => []
  | modelMapping :: mappings =>
    let x := attempt unmarshal info modelMapping
    x :: attempts x.2 mappings

end Model

/-- A step from a name to another one. -/
def step (modelMap : Mapping) (name : String) : Option String :=
  (mappedModel modelMap name).filter (· ≠ name)

/-- A text without entries maps nothing. -/
def parsed (unmarshal : String → Option Mapping) (modelMapping : String) : Option Mapping :=
  if modelMapping ≠ "" ∧ modelMapping ≠ "{}" then unmarshal modelMapping else some ∅

/-- What an attempt returns for the name that the client asked for. -/
inductive Means (modelMap : Option Mapping) (name : String) : Option Error → RelayInfo → Prop
  | unreadable (info : RelayInfo) (h : modelMap = none) :
      Means modelMap name (some .unmarshalModelMappingFailed) info
  | cycle (info : RelayInfo) (m : Mapping) (h : modelMap = some m) (hcycle : Revisits (step m) name) :
      Means modelMap name (some .modelMappingContainsCycle) info
  | mapped (info : RelayInfo) (m : Mapping) (h : modelMap = some m) (steps : List String)
      (hends : Ends (step m) name steps info.upstreamModelName)
      (hmapped : info.isModelMapped = true ↔ steps ≠ []) : Means modelMap name none info

/-- The chain ends at a name that is mapped to itself. The loop takes that for no step where it is
the origin name, and for a step elsewhere. -/
def SelfMapped (modelMap : Option Mapping) (name originModelName : String) : Prop :=
  ∃ m steps last, modelMap = some m ∧ Ends (step m) name steps last ∧
    mappedModel m last = some last ∧ (steps = [] ↔ last ≠ originModelName)

section Follow

variable {modelMap : Mapping} {name origin current mapped : String} {steps visited : List String}
  {isModelMapped : Bool}

theorem step_eq_some : step modelMap current = some mapped ↔
    mappedModel modelMap current = some mapped ∧ mapped ≠ current := by
  simp [step, Option.filter_eq_some_iff]

theorem step_eq_none (h : ∀ mapped, mappedModel modelMap current = some mapped → mapped = current) :
    step modelMap current = none := by
  rw [step, Option.filter_eq_none_iff]
  intro mapped hmapped
  simpa using h mapped hmapped

/-- The loop follows the chain: what it has visited are the names of the chain so far. -/
theorem follow_spec (hpath : Follows (step modelMap) name steps current)
    (hnodup : (name :: steps).Nodup) (hvisited : ∀ a, a ∈ visited ↔ a ∈ name :: steps)
    (hflag : isModelMapped = true ↔ steps ≠ []) :
    match follow modelMap origin visited current isModelMapped with
    | .cycle => Revisits (step modelMap) name
    | .unmapped => ∃ all, Ends (step modelMap) name all origin ∧
        mappedModel modelMap origin = some origin
    | .last z flag => ∃ all, Ends (step modelMap) name all z ∧
        (flag = true ↔ all ≠ [] ∨ mappedModel modelMap z = some z) ∧
        (mappedModel modelMap z = some z → z ≠ origin) := by
  induction visited, current, isModelMapped using follow.induct modelMap origin
    generalizing steps with
  | case1 visited current isModelMapped hnone =>
    rw [follow.eq_def, hnone]
    refine ⟨steps, ⟨hpath, hnodup, step_eq_none ?_⟩, ?_, ?_⟩
    · rw [hnone]
      exact nofun
    · rw [hnone, hflag]
      simp
    · rw [hnone]
      exact nofun
  | case2 visited flag hmem hmapped =>
    -- a self-mapping of the name that the request started with
    rw [follow.eq_def, hmapped]
    simp only [hmem, ↓reduceDIte, ↓reduceIte]
    refine ⟨steps, ⟨hpath, hnodup, step_eq_none fun mapped h => ?_⟩, trivial⟩
    rw [hmapped] at h
    exact (Option.some.inj h).symm
  | case3 visited flag current hmem hmapped horigin =>
    rw [follow.eq_def, hmapped]
    simp only [hmem, horigin, ↓reduceDIte, ↓reduceIte]
    refine ⟨steps, ⟨hpath, hnodup, step_eq_none fun mapped h => ?_⟩,
      ⟨fun _ => .inr hmapped, fun _ => trivial⟩, fun _ => horigin⟩
    rw [hmapped] at h
    exact (Option.some.inj h).symm
  | case4 visited current flag mapped hmapped hmem hne =>
    rw [follow.eq_def, hmapped]
    simp only [hmem, hne, ↓reduceDIte, ↓reduceIte]
    exact hpath.revisits (step_eq_some.2 ⟨hmapped, hne⟩) ((hvisited mapped).1 hmem)
  | case5 visited current flag mapped hmapped hmem ih =>
    have hne : mapped ≠ current := by
      rintro rfl
      exact hmem ((hvisited mapped).2 hpath.mem)
    have hnew : mapped ∉ name :: steps := fun h => hmem ((hvisited mapped).2 h)
    rw [follow.eq_def, hmapped]
    simp only [hmem, ↓reduceDIte]
    apply ih (hpath.concat (step_eq_some.2 ⟨hmapped, hne⟩))
    · rw [← List.cons_append, List.nodup_append]
      refine ⟨hnodup, List.nodup_singleton mapped, ?_⟩
      rintro a ha b hb rfl
      rw [List.mem_singleton.1 hb] at ha
      exact hnew ha
    · intro a
      rw [List.mem_cons, hvisited, ← List.cons_append, List.mem_append, List.mem_singleton]
      exact or_comm
    · simp

end Follow

section Attempt

variable {unmarshal : String → Option Mapping} {info : RelayInfo} {modelMapping : String}

/-- The info of an attempt before its model is mapped. -/
def RelayInfo.reset (info : RelayInfo) : RelayInfo :=
  { info with upstreamModelName := info.originModelName, isModelMapped := false }

/-- A mapping without entries is followed like one that is not there. -/
theorem attempt_eq (unmarshal : String → Option Mapping) (info : RelayInfo) (modelMapping : String) :
    attempt unmarshal info modelMapping = match parsed unmarshal modelMapping with
      | none => (some .unmarshalModelMappingFailed, info.reset)
      | some m => match follow m info.originModelName [mappingModelName info]
          (mappingModelName info) false with
        | .unmapped => (none, info.reset)
        | .cycle => (some .modelMappingContainsCycle, { info.reset with isModelMapped := true })
        | .last z flag => (none, finish { info.reset with
            isModelMapped := flag
            upstreamModelName := if flag then z else info.originModelName }) := by
  show modelMappedHelper unmarshal ⟨info.originModelName, modelMapping⟩ info.reset = _
  unfold modelMappedHelper parsed
  dsimp only
  by_cases htext : modelMapping ≠ "" ∧ modelMapping ≠ "{}"
  · rw [if_pos htext, if_pos htext]
    rfl
  · have hfollow : follow ∅ info.originModelName [mappingModelName info] (mappingModelName info)
        false = .last (mappingModelName info) false := by
      rw [follow.eq_def]
      rfl
    rw [if_neg htext, if_neg htext]
    simp only [hfollow]
    rfl

theorem ne_empty_of_ends {m : Mapping} {name z : String} {steps : List String}
    (h : Ends (step m) name steps z) (hflag : steps ≠ [] ∨ mappedModel m z = some z) : z ≠ "" := by
  have hmapped : ∀ {a b : String}, mappedModel m a = some b → b ≠ "" := fun hb => by
    simpa using (Option.filter_eq_some_iff.1 hb).2
  have hfollows : ∀ {x y : String} {ys : List String}, Follows (step m) x ys y → ys ≠ [] → y ≠ "" := by
    intro x y ys hpath
    induction hpath with
    | stop x => exact fun hne => absurd rfl hne
    | @move x y z ys hfirst hpath ih =>
      intro _
      cases hpath with
      | stop => exact hmapped (step_eq_some.1 hfirst).1
      | move hnext hrest => exact ih nofun
  rcases hflag with hsteps | hself
  · exact hfollows h.follows hsteps
  · exact hmapped hself

/-- The names that a finished attempt leaves. -/
theorem finish_names {z : String} {flag : Bool} (hstart : flag = false → z = mappingModelName info)
    (hne : flag = true → z ≠ "") :
    (finish { info.reset with
        isModelMapped := flag
        upstreamModelName := if flag then z else info.originModelName }).upstreamModelName = z ∧
      (finish { info.reset with
        isModelMapped := flag
        upstreamModelName := if flag then z else info.originModelName }).isModelMapped = flag := by
  obtain ⟨compact, origin, upstream, mapped⟩ := info
  cases compact with
  | false =>
    cases flag with
    | false => exact ⟨(hstart rfl).symm, rfl⟩
    | true => exact ⟨rfl, rfl⟩
  | true =>
    cases flag with
    | false =>
      have hz := hstart rfl
      simp only [finish, RelayInfo.reset, Bool.false_eq_true, false_and, if_false, if_true]
      exact ⟨hz.symm, trivial⟩
    | true =>
      have hz := hne rfl
      simp [finish, RelayInfo.reset, hz]

theorem Ends.eq_of_steps_nil {m : Mapping} {name z : String} (h : Ends (step m) name [] z) :
    z = name := by
  cases h.follows
  rfl

/-- In the normal mode the loop starts at the origin name. -/
theorem not_selfMapped (m : Option Mapping) (name : String) : ¬ SelfMapped m name name := by
  rintro ⟨m, steps, last, -, hends, -, hiff⟩
  by_cases hsteps : steps = []
  · subst hsteps
    exact hiff.1 rfl (Ends.eq_of_steps_nil hends)
  · have hlast : last = name := by
      by_contra hne
      exact hsteps (hiff.2 hne)
    subst hlast
    obtain ⟨y, ys, rfl⟩ := List.exists_cons_of_ne_nil hsteps
    have hpath : Follows (step m) last (y :: ys) last := hends.follows
    cases hpath with
    | move hnext hrest =>
      exact (List.nodup_cons.1 hends.nodup).1 hrest.mem

theorem means_iff {m : Mapping} {name z : String} {all : List String}
    (hends : Ends (step m) name all z) {after : RelayInfo} (hz : after.upstreamModelName = z) :
    Means (some m) name none after ↔ (after.isModelMapped = true ↔ all ≠ []) := by
  constructor
  · intro h
    cases h with
    | mapped _ m' hm steps hends' hmapped =>
      cases hm
      rw [hz] at hends'
      rwa [(hends.unique hends').1]
  · intro h
    exact .mapped after m rfl all (hz ▸ hends) h

theorem selfMapped_iff {m : Mapping} {name z origin : String} {all : List String}
    (hends : Ends (step m) name all z) :
    SelfMapped (some m) name origin ↔ mappedModel m z = some z ∧ (all = [] ↔ z ≠ origin) := by
  constructor
  · rintro ⟨m', steps, last, hm, hends', hself, hiff⟩
    cases hm
    obtain ⟨rfl, rfl⟩ := hends.unique hends'
    exact ⟨hself, hiff⟩
  · rintro ⟨hself, hiff⟩
    exact ⟨m, all, z, rfl, hends, hself, hiff⟩

/-- An attempt returns what its mapping means, unless the chain of the name ends in a
self-mapping. -/
theorem attempt_means_iff (unmarshal : String → Option Mapping) (info : RelayInfo)
    (modelMapping : String) :
    Means (parsed unmarshal modelMapping) (mappingModelName info)
        (attempt unmarshal info modelMapping).1 (attempt unmarshal info modelMapping).2 ↔
      ¬ SelfMapped (parsed unmarshal modelMapping) (mappingModelName info) info.originModelName := by
  rw [attempt_eq]
  cases hparsed : parsed unmarshal modelMapping with
  | none =>
    refine ⟨fun _ => ?_, fun _ => .unreadable _ rfl⟩
    rintro ⟨m, -, -, hm, -⟩
    cases hm
  | some m =>
    have hvisited : ∀ a, a ∈ [mappingModelName info] ↔ a ∈ mappingModelName info :: ([] : List String) :=
      fun _ => Iff.rfl
    have hflag : false = true ↔ ([] : List String) ≠ [] := by simp
    have hspec := @follow_spec m _ info.originModelName _ [] _ false
      (.stop (mappingModelName info)) (List.nodup_singleton _) hvisited hflag
    dsimp only
    cases hfollow : follow m info.originModelName [mappingModelName info] (mappingModelName info)
      false with
    | cycle =>
      rw [hfollow] at hspec
      refine ⟨fun _ => ?_, fun _ => .cycle _ m rfl hspec⟩
      rintro ⟨m', steps, last, hm, hends, -, -⟩
      cases hm
      exact hends.not_revisits hspec
    | unmapped =>
      rw [hfollow] at hspec
      obtain ⟨all, hends, hself⟩ := hspec
      have hname : info.reset.upstreamModelName = info.originModelName := rfl
      have hmapped : info.reset.isModelMapped = false := rfl
      dsimp only
      rw [means_iff hends hname, selfMapped_iff hends, hmapped]
      simp [hself]
    | last z flag =>
      rw [hfollow] at hspec
      obtain ⟨all, hends, hflag, horigin⟩ := hspec
      have hstart : flag = false → z = mappingModelName info := by
        rintro rfl
        have hnil : all = [] := by
          by_contra hne
          exact Bool.false_ne_true (hflag.2 (.inl hne))
        subst hnil
        exact Ends.eq_of_steps_nil hends
      obtain ⟨hupstream, hmapped⟩ :=
        finish_names hstart fun htrue => ne_empty_of_ends hends (hflag.1 htrue)
      dsimp only
      rw [means_iff hends hupstream, selfMapped_iff hends, hmapped, hflag]
      tauto

end Attempt

section Runs

variable {unmarshal : String → Option Mapping} {info : RelayInfo} {name : String}

/-- Every attempt returns what its own mapping means for the name that was asked for. -/
def MeansAll (unmarshal : String → Option Mapping) (name : String) : RelayInfo → List String → Prop
  | _, [] => True
  | info, modelMapping :: mappings =>
    let x := attempt unmarshal info modelMapping
    Means (parsed unmarshal modelMapping) name x.1 x.2 ∧ MeansAll unmarshal name x.2 mappings

/-- In the compact mode, each attempt starts from the name that was asked for, and its chain does
not end in a self-mapping. -/
def Careful (unmarshal : String → Option Mapping) (name : String) : RelayInfo → List String → Prop
  | _, [] => True
  | info, modelMapping :: mappings =>
    (info.isResponsesCompact = true → mappingModelName info = name ∧
      ¬ SelfMapped (parsed unmarshal modelMapping) name info.originModelName) ∧
    Careful unmarshal name (attempt unmarshal info modelMapping).2 mappings

@[simp] theorem finish_isResponsesCompact (info : RelayInfo) :
    (finish info).isResponsesCompact = info.isResponsesCompact := by
  unfold finish
  split <;> rfl

theorem finish_originModelName (hnormal : info.isResponsesCompact = false) :
    (finish info).originModelName = info.originModelName := by
  rw [finish, hnormal]
  rfl

/-- An attempt stays in its mode, and outside the compact mode it leaves the origin name. -/
theorem attempt_origin (unmarshal : String → Option Mapping) (info : RelayInfo)
    (modelMapping : String) :
    (attempt unmarshal info modelMapping).2.isResponsesCompact = info.isResponsesCompact ∧
      (info.isResponsesCompact = false →
        (attempt unmarshal info modelMapping).2.originModelName = info.originModelName) := by
  rw [attempt_eq]
  cases parsed unmarshal modelMapping with
  | none => exact ⟨rfl, fun _ => rfl⟩
  | some m =>
    dsimp only
    cases follow m info.originModelName [mappingModelName info] (mappingModelName info) false with
    | unmapped => exact ⟨rfl, fun _ => rfl⟩
    | cycle => exact ⟨rfl, fun _ => rfl⟩
    | last z flag => exact ⟨finish_isResponsesCompact _, fun h => finish_originModelName h⟩

theorem meansAll_of_careful {mappings : List String}
    (hname : info.isResponsesCompact = false → info.originModelName = name)
    (h : Careful unmarshal name info mappings) : MeansAll unmarshal name info mappings := by
  induction mappings generalizing info with
  | nil => trivial
  | cons modelMapping mappings ih =>
    obtain ⟨hcareful, hrest⟩ := h
    have hiff := attempt_means_iff unmarshal info modelMapping
    cases hcompact : info.isResponsesCompact with
    | false =>
      have hstart : mappingModelName info = info.originModelName := by
        rw [mappingModelName, hcompact]
        rfl
      have horigin := (attempt_origin unmarshal info modelMapping).2 hcompact
      rw [hstart] at hiff
      have hmeans := hiff.2 (not_selfMapped _ _)
      rw [hname hcompact] at hmeans horigin
      exact ⟨hmeans, ih (fun _ => horigin) hrest⟩
    | true =>
      obtain ⟨hstart, hself⟩ := hcareful hcompact
      rw [hstart] at hiff
      refine ⟨hiff.2 hself, ih (fun hnormal => ?_) hrest⟩
      rw [(attempt_origin unmarshal info modelMapping).1, hcompact] at hnormal
      cases hnormal

theorem careful_normal (unmarshal : String → Option Mapping) (name : String)
    (hnormal : info.isResponsesCompact = false) (mappings : List String) :
    Careful unmarshal name info mappings := by
  induction mappings generalizing info with
  | nil => trivial
  | cons modelMapping mappings ih =>
    refine ⟨fun hcompact => ?_, ih ?_⟩
    · rw [hnormal] at hcompact
      cases hcompact
    · rw [(attempt_origin unmarshal info modelMapping).1, hnormal]

/-- The first attempt returns what its mapping means exactly when its chain does not end in a
self-mapping; every attempt does so outside the compact mode, and in it as long as each one starts
from the name that was asked for. -/
theorem model_mapping_followed (unmarshal : String → Option Mapping) (info : RelayInfo)
    (mappings : List String) :
    (∀ modelMapping, Means (parsed unmarshal modelMapping) (mappingModelName info)
        (attempt unmarshal info modelMapping).1 (attempt unmarshal info modelMapping).2 ↔
      ¬ SelfMapped (parsed unmarshal modelMapping) (mappingModelName info) info.originModelName) ∧
    (info.isResponsesCompact = false → MeansAll unmarshal (mappingModelName info) info mappings) ∧
    (Careful unmarshal (mappingModelName info) info mappings →
      MeansAll unmarshal (mappingModelName info) info mappings) := by
  have hname : info.isResponsesCompact = false → info.originModelName = mappingModelName info := by
    intro hnormal
    rw [mappingModelName, hnormal]
    rfl
  exact ⟨attempt_means_iff unmarshal info,
    fun hnormal => meansAll_of_careful hname (careful_normal unmarshal _ hnormal mappings),
    meansAll_of_careful hname⟩

def toB := "\x7b\"a\":\"b\"\x7d"
def toC := "\x7b\"a\":\"c\"\x7d"
def toItself := "\x7b\"a\":\"a\"\x7d"

/-- How the texts above read. -/
def readPair (text : String) : Option Mapping :=
  if text = toB then some (Finmap.singleton "a" "b")
  else if text = toC then some (Finmap.singleton "a" "c")
  else if text = toItself then some (Finmap.singleton "a" "a")
  else none

def upstreams (info : RelayInfo) (mappings : List String) : List (Option Error × String × Bool) :=
  (attempts readPair info mappings).map fun x => (x.1, x.2.upstreamModelName, x.2.isModelMapped)

/-- Outside the compact mode the second channel maps the name again. -/
theorem model_mapping_followed_sample :
    upstreams ⟨false, "a", "", false⟩ [toB, toC, toItself] =
        [(none, "b", true), (none, "c", true), (none, "a", false)] ∧
      MeansAll readPair "a" ⟨false, "a", "", false⟩ [toB, toC, toItself] :=
  ⟨by decide +kernel,
    (model_mapping_followed readPair ⟨false, "a", "", false⟩ [toB, toC, toItself]).2.1 rfl⟩

/-- In the compact mode the second channel maps the name that the first one left, and a name that is
mapped to itself counts as mapped. -/
theorem compact_name_drifts :
    upstreams ⟨true, "a-openai-compact", "", false⟩ [toB, toC] =
        [(none, "b", true), (none, "b", false)] ∧
      ¬ MeansAll readPair "a" ⟨true, "a-openai-compact", "", false⟩ [toB, toC] ∧
      upstreams ⟨true, "a-openai-compact", "", false⟩ [toItself] = [(none, "a", true)] ∧
      ¬ MeansAll readPair "a" ⟨true, "a-openai-compact", "", false⟩ [toItself] := by
  have htoC : parsed readPair toC = some (Finmap.singleton "a" "c") := by decide
  have hself : parsed readPair toItself = some (Finmap.singleton "a" "a") := by decide
  refine ⟨by decide +kernel, ?_, by decide +kernel, ?_⟩
  · rintro ⟨-, hmeans, -⟩
    have hends : Ends (step (Finmap.singleton "a" "c")) "a" ["c"] "c" :=
      ⟨.move (by decide) (.stop "c"), by decide, by decide⟩
    rw [htoC] at hmeans
    generalize hx : attempt readPair _ toC = x at hmeans
    have hxval : x.1 = none ∧ x.2.upstreamModelName = "b" := by
      rw [← hx]
      decide +kernel
    obtain ⟨e, after⟩ := x
    obtain ⟨rfl, hb⟩ := hxval
    cases hmeans with
    | mapped _ m hm steps hends' =>
      cases hm
      have hsame := (hends.unique hends').2
      rw [hb] at hsame
      exact absurd hsame (by decide)
  · rintro ⟨hmeans, -⟩
    have hends : Ends (step (Finmap.singleton "a" "a")) "a" [] "a" :=
      ⟨.stop "a", by decide, by decide⟩
    rw [hself] at hmeans
    generalize hx : attempt readPair _ toItself = x at hmeans
    have hxval : x.1 = none ∧ x.2.upstreamModelName = "a" ∧ x.2.isModelMapped = true := by
      rw [← hx]
      decide +kernel
    obtain ⟨e, after⟩ := x
    obtain ⟨rfl, ha, hmapped⟩ := hxval
    exact (means_iff hends ha).1 hmeans |>.1 hmapped rfl

end Runs

end CodeGo.Gateway.ModelMapping
