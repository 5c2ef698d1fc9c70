import CodeGo.Gateway.Circuit
import Mathlib.Tactic.Linarith
import Mathlib.Tactic.Positivity

/-!
# Selection in an automatic route pool

`route_pool_selection.go`: the candidates of a pool are scored, the recorded channel is kept while
no other is much better, and otherwise the cheapest one is taken, or explored around. Scores are
exact rationals. The slice of scored candidates is sorted in place, while pointers into it are kept.
-/

namespace CodeGo.Gateway.RoutePool

open CodeGo.Lib.Trim

section Model

def routePoolExploreRate : ℚ := 25 / 1000
def routePoolProbeRate : ℚ := 2 / 100
def routePoolSwitchImprovement : ℚ := 15 / 100

/-- What the selection reads of the health of a channel. -/
structure ChannelHealth where
  state : Circuit.HealthState := .unset
  consecutiveRetryableFailures : Nat := 0
  coolingUntil : Int := 0
  successRate5m : ℚ := 0
  ttftP95Milliseconds : ℚ := 0
  window5Requests : Int := 0
  window5Successes : Int := 0

structure RoutePoolMember where
  costMultiplier : ℚ
  modelCostOverrides : String := ""

structure RoutePoolCandidate where
  channelID : Int
  member : RoutePoolMember

structure ScoredRoutePoolCandidate where
  channelID : Int
  score : ℚ
  probe : Bool := false
  cost : ℚ := 0
  deriving DecidableEq

/-- `sort.Slice` by score: equal scores come in whichever order. -/
structure SliceSort where
  sort : List ScoredRoutePoolCandidate → List ScoredRoutePoolCandidate
  perm : ∀ candidates, (sort candidates).Perm candidates
  rising : ∀ candidates, (sort candidates).Pairwise fun a b => a.score ≤ b.score

/-- What the functions use that is not theirs: the reading of the cost overrides, the lower bound
of the success rate that takes a square root, the sort, and the health and the affinity caches. -/
structure Env where
  unmarshal : String → Option (String → Option ℚ)
  wilsonRate : ChannelHealth → ℚ
  slice : SliceSort
  health : Int → Option ChannelHealth
  preferred : String → Option Int

variable (env : Env)

def routePoolModelCost (member : RoutePoolMember) (modelName : String) : ℚ :=
  match (env.unmarshal member.modelCostOverrides).bind (· modelName) with
  | some override => if 0 < override then override else member.costMultiplier
  | none => member.costMultiplier

def routePoolConservativeSuccessRate (health : ChannelHealth) : ℚ :=
  if health.window5Requests < 20 ∨ health.window5Successes < 0 ∨
      health.window5Requests < health.window5Successes then health.successRate5m
  else env.wilsonRate health

def routePoolReliabilityPenalty (rate : ℚ) : ℚ :=
  if 98 ≤ rate then 1
  else if 95 ≤ rate then 115 / 100 + (98 - rate) * (12 / 100)
  else if 90 ≤ rate then 25 / 10 + (95 - rate) * (3 / 10)
  else min 15 (5 + (90 - rate) * (2 / 10))

def effectiveRoutePoolCost (member : RoutePoolMember) (modelName : String)
    (health : ChannelHealth) : ℚ :=
  let cost := routePoolModelCost env member modelName
  let cost := if cost ≤ 0 then 1 else cost
  let cost := if health.window5Requests < 20 then cost * (110 / 100) else cost
  let cost := if 5 ≤ health.window5Requests then
    cost * routePoolReliabilityPenalty (routePoolConservativeSuccessRate env health) else cost
  let cost := if health.state = .degraded then cost * (135 / 100) else cost
  if 0 < health.consecutiveRetryableFailures then
    cost * (5 / 4) ^ health.consecutiveRetryableFailures else cost

/-- The times that are known of the candidates, sorted. -/
def knownTTFTs (candidates : List ScoredRoutePoolCandidate) : List ℚ :=
  (candidates.filterMap fun candidate => (env.health candidate.channelID).bind fun health =>
    if 0 < health.ttftP95Milliseconds then some health.ttftP95Milliseconds else none).insertionSort
      (· ≤ ·)

/-- Zero when none is known. -/
def routePoolMedianTTFT (candidates : List ScoredRoutePoolCandidate) : ℚ :=
  let values := knownTTFTs env candidates
  values.getD ((values.length - 1) / 2) 0

def ScoredRoutePoolCandidate.penalized (median : ℚ) (candidate : ScoredRoutePoolCandidate) :
    ScoredRoutePoolCandidate :=
  match env.health candidate.channelID with
  | none => candidate
  | some health =>
    let ratio := health.ttftP95Milliseconds / median
    if health.ttftP95Milliseconds ≤ 0 then candidate
    else if 25 / 10 < ratio then { candidate with score := candidate.score * 2 }
    else if 15 / 10 < ratio then { candidate with score := candidate.score * (135 / 100) }
    else candidate

def applyRoutePoolTTFTPenalty (candidates : List ScoredRoutePoolCandidate) :
    List ScoredRoutePoolCandidate :=
  let median := routePoolMedianTTFT env candidates
  if candidates.length < 2 then candidates
  else if median ≤ 0 then candidates
  else candidates.map (ScoredRoutePoolCandidate.penalized env median)

def ChannelHealth.coolingAt (health : ChannelHealth) (now : Int) : Bool :=
  health.state = .cooling ∧ now < health.coolingUntil

def routePoolHardMigrationRequired (health : ChannelHealth) (medianTTFT : ℚ) (now : Int) : Bool :=
  health.coolingAt now || 2 ≤ health.consecutiveRetryableFailures ||
    (10 ≤ health.window5Requests && routePoolConservativeSuccessRate env health < 85) ||
    (0 < medianTTFT && medianTTFT * (25 / 10) < health.ttftP95Milliseconds)

def routePoolReliabilityNeedsMigration (health : ChannelHealth) : Bool :=
  20 ≤ health.window5Requests && health.successRate5m < 95

/-- The request: the channels it has used, its token and the key of its affinity. -/
structure Request where
  useChannel : List String := []
  tokenID : Int := 0
  affinity : Option String := none

def channelAlreadyUsed (c : Option Request) (channelID : Int) : Bool :=
  match c with
  | none => false
  | some c => 0 < channelID && c.useChannel.any fun used => trimSpace used = toString channelID

def prepareRoutePoolAffinity (c : Option Request) (poolID : Int) (group modelName : String) :
    Option Request :=
  c.map fun c =>
    if poolID ≤ 0 ∨ c.tokenID ≤ 0 then c
    else { c with affinity := some (String.intercalate ":"
      ["route_pool", toString poolID, toString c.tokenID, group, modelName]) }

/-- The first candidate, and the slice as it is left behind. -/
def chooseLowestRoutePoolCandidate (candidates : List ScoredRoutePoolCandidate) :
    Option ScoredRoutePoolCandidate × List ScoredRoutePoolCandidate :=
  let candidates := env.slice.sort candidates
  (candidates.head?, candidates)

/-- What comes of the affinity: the candidate, the slice as it is left behind, and whether the
affinity is forgotten. -/
structure Sticky where
  candidate : Option ScoredRoutePoolCandidate
  candidates : List ScoredRoutePoolCandidate
  invalidated : Bool := false

/-- A channel that is much worse than the best one is left. -/
def improves (best : ScoredRoutePoolCandidate) (channelID : Int) (score : ℚ) : Bool :=
  best.channelID ≠ channelID ∧ best.score ≤ score * (1 - routePoolSwitchImprovement)

def recordedChannel (c : Option Request) : Option Int :=
  c.bind fun c => c.affinity.bind fun cacheKey =>
    if cacheKey = "" then none else env.preferred cacheKey

def placeOf (candidates : List ScoredRoutePoolCandidate) (channelID : Int) : Option Nat :=
  candidates.findIdx? (·.channelID = channelID)

def getRoutePoolStickyCandidate (c : Option Request) (candidates : List ScoredRoutePoolCandidate)
    (now : Int) : Sticky :=
  match recordedChannel env c with
  | none => ⟨none, candidates, false⟩
  | some channelID =>
    match placeOf candidates channelID with
    | none => ⟨none, candidates, true⟩
    | some sticky =>
      if channelAlreadyUsed c channelID then ⟨none, candidates, true⟩
      else
        let health := (env.health channelID).getD {}
        if routePoolHardMigrationRequired env health (routePoolMedianTTFT env candidates) now then
          ⟨none, candidates, true⟩
        else
          -- `sticky` stays a pointer to its place in the slice, which is sorted now
          let (best, candidates) := chooseLowestRoutePoolCandidate env candidates
          match best, candidates[sticky]? with
          | some best, some kept =>
            if improves best channelID kept.score then ⟨none, candidates, false⟩
            else ⟨some kept, candidates, false⟩
          | _, kept => ⟨kept, candidates, false⟩

/-- The numbers that `rand` gives. -/
structure Draws where
  probe : ℚ
  explore : ℚ
  intn : Nat → Nat
  intn_lt : ∀ n, 0 < n → intn n < n

def chooseRoutePoolHealthyCandidate (draws : Draws) (candidates : List ScoredRoutePoolCandidate) :
    Option ScoredRoutePoolCandidate :=
  let candidates := env.slice.sort candidates
  match candidates with
  | [] => none
  | best :: others =>
    if others = [] ∨ routePoolExploreRate ≤ draws.explore then some best
    else
      let limit := best.score * (115 / 100)
      let explorable := (best :: others).filter (·.score ≤ limit)
      if explorable = [] then some best else explorable[draws.intn explorable.length]?

def scored (candidate : RoutePoolCandidate) (modelName : String) (probe : Bool) :
    ScoredRoutePoolCandidate where
  channelID := candidate.channelID
  score := effectiveRoutePoolCost env candidate.member modelName
    ((env.health candidate.channelID).getD {})
  probe := probe
  cost := routePoolModelCost env candidate.member modelName

def isCooling (candidate : RoutePoolCandidate) : Bool :=
  ((env.health candidate.channelID).map (·.state)) = some .cooling

def activelyCooling (now : Int) (channelID : Int) : Bool :=
  (env.health channelID).any (·.coolingAt now)

/-- The candidates that this request may try and whose circuit is not open. -/
def healthyCandidates (c : Option Request) (candidates : List RoutePoolCandidate)
    (modelName : String) : List ScoredRoutePoolCandidate :=
  applyRoutePoolTTFTPenalty env ((candidates.filter fun candidate =>
    !channelAlreadyUsed c candidate.channelID && !isCooling env candidate).map
      (scored env · modelName false))

/-- The ones whose circuit may be probed. -/
def probeCandidates (c : Option Request) (candidates : List RoutePoolCandidate)
    (modelName : String) (now : Int) : List ScoredRoutePoolCandidate :=
  applyRoutePoolTTFTPenalty env ((candidates.filter fun candidate =>
    !channelAlreadyUsed c candidate.channelID && isCooling env candidate &&
      !activelyCooling env now candidate.channelID).map (scored env · modelName true))

/-- The channel of an enabled pool with the cost it is settled at; `now` is the time that the
candidates are looked at, `later` the one at which the affinity is. -/
def selectAutomaticPoolChannel (draws : Draws) (poolID : Int) (c : Option Request)
    (group modelName : String) (candidates : List RoutePoolCandidate) (now later : Int) :
    Option ScoredRoutePoolCandidate :=
  let healthy := healthyCandidates env c candidates modelName
  let probes := probeCandidates env c candidates modelName now
  let c := prepareRoutePoolAffinity c poolID group modelName
  if healthy = [] then (chooseLowestRoutePoolCandidate env probes).1
  else
    let sticky := getRoutePoolStickyCandidate env c healthy later
    match sticky.candidate with
    | some candidate => some candidate
    | none =>
      if probes ≠ [] ∧ draws.probe < routePoolProbeRate then
        (chooseLowestRoutePoolCandidate env probes).1
      else chooseRoutePoolHealthyCandidate env draws sticky.candidates

def migrationCandidates (candidates : List RoutePoolCandidate) (modelName : String) (now : Int) :
    List ScoredRoutePoolCandidate :=
  applyRoutePoolTTFTPenalty env ((candidates.filter fun candidate =>
    !activelyCooling env now candidate.channelID).map (scored env · modelName false))

def shouldMigrateAutomaticPoolAffinity (modelName : String) (candidates : List RoutePoolCandidate)
    (channelID : Int) (now later : Int) : Bool :=
  let healthy := migrationCandidates env candidates modelName now
  match placeOf healthy channelID with
  | none => false
  | some current =>
    if channelID ≤ 0 ∨ healthy.length < 2 then false
    else
      let (best, healthy) := chooseLowestRoutePoolCandidate env healthy
      match best, healthy[current]? with
      | some best, some current =>
        let health := (env.health channelID).getD {}
        if best.channelID = channelID then false
        else if routePoolHardMigrationRequired env health (routePoolMedianTTFT env healthy) later then
          true
        else
          (health.state = .degraded || routePoolReliabilityNeedsMigration health) &&
            best.score ≤ current.score * (1 - routePoolSwitchImprovement)
      | _, _ => false

end Model

section Spec

variable (env : Env)

/-- What the affinity should come to: the candidate of the recorded channel, judged with its own
score. -/
def stickySpec (c : Option Request) (candidates : List ScoredRoutePoolCandidate) (now : Int) :
    Option ScoredRoutePoolCandidate :=
  (recordedChannel env c).bind fun channelID =>
    (candidates.find? (·.channelID = channelID)).bind fun own =>
      if channelAlreadyUsed c channelID || routePoolHardMigrationRequired env
          ((env.health channelID).getD {}) (routePoolMedianTTFT env candidates) now ||
          (env.slice.sort candidates).head?.any (improves · channelID own.score) then none
      else some own

/-- Whether the current channel should be left, judged with its own score. -/
def migrateSpec (modelName : String) (candidates : List RoutePoolCandidate)
    (channelID : Int) (now later : Int) : Bool :=
  let healthy := migrationCandidates env candidates modelName now
  let health := (env.health channelID).getD {}
  0 < channelID && 2 ≤ healthy.length &&
    (healthy.find? (·.channelID = channelID)).any fun own =>
      (env.slice.sort healthy).head?.any fun best => best.channelID ≠ channelID &&
        (routePoolHardMigrationRequired env health (routePoolMedianTTFT env healthy) later ||
          ((health.state = .degraded || routePoolReliabilityNeedsMigration health) &&
            best.score ≤ own.score * (1 - routePoolSwitchImprovement)))

/-- The recorded channel is judged and returned as itself: the sort leaves it in its place, or the
best one is much better than both it and the candidate that takes its place. -/
def StickyInPlace (c : Option Request) (candidates : List ScoredRoutePoolCandidate) (now : Int) :
    Prop :=
  ∀ channelID i own other best, recordedChannel env c = some channelID →
    placeOf candidates channelID = some i → candidates[i]? = some own →
    channelAlreadyUsed c channelID = false →
    routePoolHardMigrationRequired env ((env.health channelID).getD {})
      (routePoolMedianTTFT env candidates) now = false →
    (env.slice.sort candidates)[i]? = some other → (env.slice.sort candidates).head? = some best →
    other = own ∨ (improves best channelID own.score = true ∧
      improves best channelID other.score = true)

/-- Where only the scores decide, the current channel and the candidate that takes its place are on
one side of the bound. -/
def MigrationInPlace (modelName : String) (candidates : List RoutePoolCandidate)
    (channelID : Int) (now later : Int) : Prop :=
  let healthy := migrationCandidates env candidates modelName now
  let health := (env.health channelID).getD {}
  ∀ i own other best, 0 < channelID → 2 ≤ healthy.length → placeOf healthy channelID = some i →
    healthy[i]? = some own → (env.slice.sort healthy)[i]? = some other →
    (env.slice.sort healthy).head? = some best → best.channelID ≠ channelID →
    routePoolHardMigrationRequired env health (routePoolMedianTTFT env healthy) later = false →
    (health.state = .degraded || routePoolReliabilityNeedsMigration health) = true →
    (best.score ≤ other.score * (1 - routePoolSwitchImprovement) ↔
      best.score ≤ own.score * (1 - routePoolSwitchImprovement))

end Spec

section Scores

variable {env : Env} {candidates : List ScoredRoutePoolCandidate}

theorem perm_ttfts {candidates' : List ScoredRoutePoolCandidate} (h : candidates.Perm candidates') :
    routePoolMedianTTFT env candidates = routePoolMedianTTFT env candidates' := by
  have hsame : knownTTFTs env candidates = knownTTFTs env candidates' := by
    have hperm : (knownTTFTs env candidates).Perm (knownTTFTs env candidates') :=
      ((List.perm_insertionSort _ _).trans (h.filterMap _)).trans (List.perm_insertionSort _ _).symm
    exact hperm.eq_of_pairwise (fun a b _ _ => le_antisymm) (List.pairwise_insertionSort (· ≤ ·) _)
      (List.pairwise_insertionSort (· ≤ ·) _)
  rw [routePoolMedianTTFT, routePoolMedianTTFT, hsame]

theorem routePoolReliabilityPenalty_pos (rate : ℚ) : 0 < routePoolReliabilityPenalty rate := by
  rw [routePoolReliabilityPenalty]
  split_ifs
  · norm_num
  · linarith
  · linarith
  · apply lt_min
    · norm_num
    · linarith

theorem effectiveRoutePoolCost_pos (member : RoutePoolMember) (modelName : String)
    (health : ChannelHealth) : 0 < effectiveRoutePoolCost env member modelName health := by
  have hpenalty := routePoolReliabilityPenalty_pos (routePoolConservativeSuccessRate env health)
  simp only [effectiveRoutePoolCost]
  generalize routePoolReliabilityPenalty _ = penalty at hpenalty ⊢
  have hcost : 0 < (if routePoolModelCost env member modelName ≤ 0 then 1
      else routePoolModelCost env member modelName) := by
    split
    · norm_num
    · linarith
  generalize (if routePoolModelCost env member modelName ≤ 0 then (1 : ℚ)
    else routePoolModelCost env member modelName) = cost at hcost ⊢
  split_ifs <;> positivity

/-- The penalty for slow channels changes scores only, and none falls below zero by it. -/
theorem mem_applyRoutePoolTTFTPenalty {s : ScoredRoutePoolCandidate}
    (h : s ∈ applyRoutePoolTTFTPenalty env candidates) :
    ∃ d ∈ candidates, s.channelID = d.channelID ∧ (0 ≤ d.score → 0 ≤ s.score) := by
  simp only [applyRoutePoolTTFTPenalty] at h
  split at h
  · exact ⟨s, h, rfl, fun hscore => hscore⟩
  · split at h
    · exact ⟨s, h, rfl, fun hscore => hscore⟩
    · obtain ⟨d, hd, rfl⟩ := List.mem_map.1 h
      refine ⟨d, hd, ?_⟩
      rw [ScoredRoutePoolCandidate.penalized]
      split
      · exact ⟨rfl, fun hscore => hscore⟩
      · dsimp only
        split_ifs
        · exact ⟨rfl, fun hscore => hscore⟩
        · exact ⟨rfl, fun hscore => by positivity⟩
        · exact ⟨rfl, fun hscore => by positivity⟩
        · exact ⟨rfl, fun hscore => hscore⟩

end Scores

section Places

variable {env : Env} {candidates : List ScoredRoutePoolCandidate} {channelID : Int}

theorem find?_of_placeOf {i : Nat} (h : placeOf candidates channelID = some i) :
    ∃ own, candidates[i]? = some own ∧
      candidates.find? (·.channelID = channelID) = some own ∧ own.channelID = channelID := by
  obtain ⟨hi, hid, hbefore⟩ := List.findIdx?_eq_some_iff_getElem.1 h
  refine ⟨candidates[i], List.getElem?_eq_getElem hi, ?_, by simpa using hid⟩
  rw [List.find?_eq_some_iff_getElem]
  exact ⟨hid, i, hi, rfl, fun j hj => by simpa using hbefore j hj⟩

theorem find?_of_placeOf_none (h : placeOf candidates channelID = none) :
    candidates.find? (·.channelID = channelID) = none := by
  rw [placeOf, List.findIdx?_eq_none_iff] at h
  rw [List.find?_eq_none]
  intro c hc
  simpa using h c hc

variable (env) in
/-- The sorted slice has a candidate at every place, and one at its head. -/
theorem sorted_at {i : Nat} {own : ScoredRoutePoolCandidate} (h : candidates[i]? = some own) :
    ∃ other best, (env.slice.sort candidates)[i]? = some other ∧
      (env.slice.sort candidates).head? = some best := by
  obtain ⟨hi, -⟩ := List.getElem?_eq_some_iff.1 h
  have hlength := (env.slice.perm candidates).length_eq
  have hlt : i < (env.slice.sort candidates).length := by omega
  refine ⟨_, (env.slice.sort candidates)[0], List.getElem?_eq_getElem hlt, ?_⟩
  rw [List.head?_eq_getElem?]
  exact List.getElem?_eq_getElem _

end Places

section Affinity

variable {env : Env} {c : Option Request} {candidates : List ScoredRoutePoolCandidate} {now : Int}

/-- What the affinity comes to, once the recorded channel has a candidate that may be kept. -/
theorem sticky_eq {channelID : Int} {i : Nat} {other best : ScoredRoutePoolCandidate}
    (hrecorded : recordedChannel env c = some channelID)
    (hplace : placeOf candidates channelID = some i)
    (hused : channelAlreadyUsed c channelID = false)
    (hhard : routePoolHardMigrationRequired env ((env.health channelID).getD {})
      (routePoolMedianTTFT env candidates) now = false)
    (hother : (env.slice.sort candidates)[i]? = some other)
    (hbest : (env.slice.sort candidates).head? = some best) :
    (getRoutePoolStickyCandidate env c candidates now).candidate =
      if improves best channelID other.score then none else some other := by
  simp only [getRoutePoolStickyCandidate, hrecorded, hplace, hused, hhard,
    chooseLowestRoutePoolCandidate, hother, hbest, Bool.false_eq_true, if_false]
  split <;> rfl

variable (env c candidates now) in
theorem sticky_candidates_perm :
    (getRoutePoolStickyCandidate env c candidates now).candidates.Perm candidates := by
  rw [getRoutePoolStickyCandidate]
  split
  · exact List.Perm.refl _
  · split
    · exact List.Perm.refl _
    · split
      · exact List.Perm.refl _
      · dsimp only
        split
        · exact List.Perm.refl _
        · simp only [chooseLowestRoutePoolCandidate]
          split
          · split <;> exact env.slice.perm candidates
          · exact env.slice.perm candidates

theorem mem_of_sticky {s : ScoredRoutePoolCandidate}
    (h : (getRoutePoolStickyCandidate env c candidates now).candidate = some s) :
    s ∈ candidates := by
  cases hrecorded : recordedChannel env c with
  | none =>
    simp only [getRoutePoolStickyCandidate, hrecorded] at h
    cases h
  | some channelID =>
    cases hplace : placeOf candidates channelID with
    | none =>
      simp only [getRoutePoolStickyCandidate, hrecorded, hplace] at h
      cases h
    | some i =>
      by_cases hused : channelAlreadyUsed c channelID = true
      · simp only [getRoutePoolStickyCandidate, hrecorded, hplace, hused, if_true] at h
        cases h
      by_cases hhard : routePoolHardMigrationRequired env ((env.health channelID).getD {})
          (routePoolMedianTTFT env candidates) now = true
      · simp only [getRoutePoolStickyCandidate, hrecorded, hplace, hused, hhard, if_true,
          Bool.false_eq_true, if_false] at h
        cases h
      obtain ⟨own, hown, -, -⟩ := find?_of_placeOf hplace
      obtain ⟨other, best, hother, hbest⟩ := sorted_at env hown
      rw [sticky_eq hrecorded hplace (by simpa using hused) (by simpa using hhard) hother hbest]
        at h
      split at h
      · cases h
      · cases h
        exact (env.slice.perm candidates).mem_iff.1 (List.mem_of_getElem? hother)

/-- The affinity comes to what it should exactly when the recorded channel is judged as itself. -/
theorem sticky_eq_spec_iff :
    (getRoutePoolStickyCandidate env c candidates now).candidate = stickySpec env c candidates now ↔
      StickyInPlace env c candidates now := by
  cases hrecorded : recordedChannel env c with
  | none =>
    simp [getRoutePoolStickyCandidate, stickySpec, StickyInPlace, hrecorded]
  | some channelID =>
    cases hplace : placeOf candidates channelID with
    | none =>
      have hinplace : StickyInPlace env c candidates now := by
        intro channelID' i own other best hrecorded' hplace'
        rw [hrecorded, Option.some.injEq] at hrecorded'
        rw [← hrecorded', hplace] at hplace'
        cases hplace'
      simp [getRoutePoolStickyCandidate, stickySpec, hinplace, hrecorded, hplace,
        find?_of_placeOf_none hplace]
    | some i =>
      obtain ⟨own, hown, hfind, -⟩ := find?_of_placeOf hplace
      obtain ⟨other, best, hother, hbest⟩ := sorted_at env hown
      have hspec : stickySpec env c candidates now =
          if channelAlreadyUsed c channelID || routePoolHardMigrationRequired env
            ((env.health channelID).getD {}) (routePoolMedianTTFT env candidates) now ||
            improves best channelID own.score then none else some own := by
        simp only [stickySpec, hrecorded, Option.bind_some, hfind, hbest, Option.any_some]
      have hinplace : StickyInPlace env c candidates now ↔
          (channelAlreadyUsed c channelID = false →
            routePoolHardMigrationRequired env ((env.health channelID).getD {})
              (routePoolMedianTTFT env candidates) now = false →
            other = own ∨ (improves best channelID own.score = true ∧
              improves best channelID other.score = true)) := by
        constructor
        · intro h hused hhard
          exact h channelID i own other best hrecorded hplace hown hused hhard hother hbest
        · intro h channelID' i' own' other' best' hrecorded' hplace' hown' hused hhard hother' hbest'
          rw [hrecorded, Option.some.injEq] at hrecorded'
          subst hrecorded'
          rw [hplace, Option.some.injEq] at hplace'
          subst hplace'
          rw [hown, Option.some.injEq] at hown'
          rw [hother, Option.some.injEq] at hother'
          rw [hbest, Option.some.injEq] at hbest'
          subst hown' hother' hbest'
          exact h hused hhard
      rw [hspec, hinplace]
      by_cases hused : channelAlreadyUsed c channelID = true
      · simp [getRoutePoolStickyCandidate, hrecorded, hplace, hused]
      by_cases hhard : routePoolHardMigrationRequired env ((env.health channelID).getD {})
          (routePoolMedianTTFT env candidates) now = true
      · simp [getRoutePoolStickyCandidate, hrecorded, hplace, hused, hhard]
      rw [Bool.not_eq_true] at hused hhard
      rw [sticky_eq hrecorded hplace hused hhard hother hbest]
      simp only [hused, hhard, Bool.false_or, true_implies]
      by_cases hown' : improves best channelID own.score = true <;>
        by_cases hother' : improves best channelID other.score = true
      · simp [hown', hother']
      · simp only [hown', hother']
        constructor
        · intro h
          cases h
        · rintro (rfl | ⟨-, h⟩)
          · exact absurd hown' hother'
          · cases h
      · simp only [hown', hother']
        constructor
        · intro h
          cases h
        · rintro (rfl | ⟨h, -⟩)
          · exact absurd hother' hown'
          · cases h
      · simp [hown', hother']

end Affinity

section Migration

variable {env : Env} {modelName : String} {candidates : List RoutePoolCandidate} {channelID : Int}
  {now later : Int}

variable (env modelName candidates channelID now later) in
theorem migrate_early (h : channelID ≤ 0 ∨ (migrationCandidates env candidates modelName now).length < 2 ∨
      placeOf (migrationCandidates env candidates modelName now) channelID = none) :
    shouldMigrateAutomaticPoolAffinity env modelName candidates channelID now later = false ∧
      migrateSpec env modelName candidates channelID now later = false := by
  rw [shouldMigrateAutomaticPoolAffinity, migrateSpec]
  generalize migrationCandidates env candidates modelName now = healthy at h
  rcases h with h | h | h
  · have : ¬ 0 < channelID := by omega
    constructor
    · dsimp only
      split
      · rfl
      · rw [if_pos (.inl h)]
    · simp [this]
  · have : ¬ 2 ≤ healthy.length := by omega
    constructor
    · dsimp only
      split
      · rfl
      · rw [if_pos (.inr h)]
    · simp [this]
  · simp [h, find?_of_placeOf_none h]

variable (env modelName candidates channelID now later) in
/-- The current channel is left for the best one when it is compared as `own`. -/
def moves (best own : ScoredRoutePoolCandidate) : Bool :=
  best.channelID ≠ channelID &&
    (routePoolHardMigrationRequired env ((env.health channelID).getD {})
        (routePoolMedianTTFT env (migrationCandidates env candidates modelName now)) later ||
      ((((env.health channelID).getD {}).state = .degraded ||
          routePoolReliabilityNeedsMigration ((env.health channelID).getD {})) &&
        best.score ≤ own.score * (1 - routePoolSwitchImprovement)))

/-- What becomes of the current channel, once it has a candidate beside others. -/
theorem migrate_eq {i : Nat} {other best : ScoredRoutePoolCandidate} (hpos : 0 < channelID)
    (hlength : 2 ≤ (migrationCandidates env candidates modelName now).length)
    (hplace : placeOf (migrationCandidates env candidates modelName now) channelID = some i)
    (hother : (env.slice.sort (migrationCandidates env candidates modelName now))[i]? = some other)
    (hbest : (env.slice.sort (migrationCandidates env candidates modelName now)).head? =
      some best) :
    shouldMigrateAutomaticPoolAffinity env modelName candidates channelID now later =
      moves env modelName candidates channelID now later best other := by
  have hnot : ¬ (channelID ≤ 0 ∨ (migrationCandidates env candidates modelName now).length < 2) := by
    omega
  simp only [shouldMigrateAutomaticPoolAffinity, chooseLowestRoutePoolCandidate, hplace,
    if_neg hnot, hother, hbest, perm_ttfts (env.slice.perm _), moves]
  by_cases hsame : best.channelID = channelID
  · simp [hsame]
  · simp only [hsame, if_false, ne_eq, not_false_eq_true, decide_true, Bool.true_and]
    split
    next hhard => rw [hhard, Bool.true_or]
    next hhard =>
      rw [Bool.not_eq_true] at hhard
      rw [hhard, Bool.false_or]

/-- The current channel is left when it should be exactly when it is compared as itself. -/
theorem migrate_eq_spec_iff :
    shouldMigrateAutomaticPoolAffinity env modelName candidates channelID now later =
        migrateSpec env modelName candidates channelID now later ↔
      MigrationInPlace env modelName candidates channelID now later := by
  by_cases hearly : channelID ≤ 0 ∨
      (migrationCandidates env candidates modelName now).length < 2 ∨
      placeOf (migrationCandidates env candidates modelName now) channelID = none
  · obtain ⟨hcode, hspec⟩ := migrate_early env modelName candidates channelID now later hearly
    rw [hcode, hspec]
    simp only [true_iff]
    intro i own other best hpos hlength hplace
    rcases hearly with h | h | h
    · omega
    · omega
    · rw [h] at hplace
      cases hplace
  · obtain ⟨hpos, hlength, hplace⟩ : 0 < channelID ∧
        2 ≤ (migrationCandidates env candidates modelName now).length ∧
        placeOf (migrationCandidates env candidates modelName now) channelID ≠ none := by
      refine ⟨by omega, by omega, fun h => hearly (.inr (.inr h))⟩
    obtain ⟨i, hi⟩ := Option.ne_none_iff_exists'.1 hplace
    obtain ⟨own, hown, hfind, -⟩ := find?_of_placeOf hi
    obtain ⟨other, best, hother, hbest⟩ := sorted_at env hown
    rw [migrate_eq hpos hlength hi hother hbest]
    have hspec : migrateSpec env modelName candidates channelID now later =
        moves env modelName candidates channelID now later best own := by
      simp only [migrateSpec, moves, hpos, hlength, hfind, hbest, Option.any_some, decide_true,
        Bool.true_and]
    have hinplace : MigrationInPlace env modelName candidates channelID now later ↔
        (best.channelID ≠ channelID →
          routePoolHardMigrationRequired env ((env.health channelID).getD {})
            (routePoolMedianTTFT env (migrationCandidates env candidates modelName now)) later =
              false →
          (((env.health channelID).getD {}).state = .degraded ||
            routePoolReliabilityNeedsMigration ((env.health channelID).getD {})) = true →
          (best.score ≤ other.score * (1 - routePoolSwitchImprovement) ↔
            best.score ≤ own.score * (1 - routePoolSwitchImprovement))) := by
      constructor
      · intro h
        exact h i own other best hpos hlength hi hown hother hbest
      · intro h i' own' other' best' _ _ hi' hown' hother' hbest'
        rw [hi, Option.some.injEq] at hi'
        subst hi'
        rw [hown, Option.some.injEq] at hown'
        rw [hother, Option.some.injEq] at hother'
        rw [hbest, Option.some.injEq] at hbest'
        subst hown' hother' hbest'
        exact h
    rw [hspec, hinplace, moves, moves]
    generalize routePoolHardMigrationRequired env _ _ later = hard
    generalize (decide (((env.health channelID).getD {}).state = .degraded) ||
      routePoolReliabilityNeedsMigration ((env.health channelID).getD {})) = unreliable
    by_cases hsame : best.channelID = channelID
    · simp [hsame]
    · cases hard <;> cases unreliable <;> simp [hsame]

end Migration

section Selection

variable {env : Env} {draws : Draws} {c : Option Request} {modelName : String}
  {pool : List RoutePoolCandidate} {now later : Int} {s : ScoredRoutePoolCandidate}

variable (now) in
theorem mem_healthyCandidates (h : s ∈ healthyCandidates env c pool modelName) :
    channelAlreadyUsed c s.channelID = false ∧ activelyCooling env now s.channelID = false ∧
      0 ≤ s.score := by
  obtain ⟨d, hd, hid, hscore⟩ := mem_applyRoutePoolTTFTPenalty h
  obtain ⟨candidate, hcandidate, rfl⟩ := List.mem_map.1 hd
  have hfilter := (List.mem_filter.1 hcandidate).2
  rw [Bool.and_eq_true, Bool.not_eq_true', Bool.not_eq_true'] at hfilter
  have hsame : (scored env candidate modelName false).channelID = candidate.channelID := rfl
  rw [hid, hsame]
  refine ⟨hfilter.1, ?_, hscore (effectiveRoutePoolCost_pos ..).le⟩
  have hclosed := hfilter.2
  rw [isCooling] at hclosed
  rw [activelyCooling]
  cases hhealth : env.health candidate.channelID with
  | none => rfl
  | some health =>
    rw [hhealth] at hclosed
    simpa [ChannelHealth.coolingAt] using fun h => absurd h (by simpa using hclosed)

theorem mem_probeCandidates (h : s ∈ probeCandidates env c pool modelName now) :
    channelAlreadyUsed c s.channelID = false ∧ activelyCooling env now s.channelID = false := by
  obtain ⟨d, hd, hid, -⟩ := mem_applyRoutePoolTTFTPenalty h
  obtain ⟨candidate, hcandidate, rfl⟩ := List.mem_map.1 hd
  have hfilter := (List.mem_filter.1 hcandidate).2
  rw [Bool.and_eq_true, Bool.and_eq_true, Bool.not_eq_true', Bool.not_eq_true'] at hfilter
  rw [hid]
  exact ⟨hfilter.1.1, hfilter.2⟩

theorem mem_of_lowest {candidates : List ScoredRoutePoolCandidate}
    (h : (chooseLowestRoutePoolCandidate env candidates).1 = some s) : s ∈ candidates :=
  (env.slice.perm candidates).mem_iff.1 (List.mem_of_head? h)

variable (draws) in
/-- Exploring stays near the best score. -/
theorem chooseRoutePoolHealthyCandidate_near {candidates : List ScoredRoutePoolCandidate}
    (hne : candidates ≠ []) (hscore : ∀ d ∈ candidates, 0 ≤ d.score) :
    ∃ s ∈ candidates, chooseRoutePoolHealthyCandidate env draws candidates = some s ∧
      ∀ d ∈ candidates, s.score ≤ d.score * (115 / 100) := by
  have hperm := env.slice.perm candidates
  have hrising := env.slice.rising candidates
  rw [chooseRoutePoolHealthyCandidate]
  cases hsort : env.slice.sort candidates with
  | nil =>
    rw [hsort] at hperm
    exact absurd hperm.symm.eq_nil hne
  | cons best others =>
    rw [hsort] at hperm hrising
    have hmem : ∀ d, d ∈ best :: others ↔ d ∈ candidates := fun d => hperm.mem_iff
    have hbest : ∀ d ∈ candidates, best.score ≤ d.score := by
      intro d hd
      rcases List.mem_cons.1 ((hmem d).2 hd) with rfl | hd
      · exact le_refl _
      · exact (List.pairwise_cons.1 hrising).1 d hd
    have htake : ∀ d ∈ candidates, best.score ≤ d.score * (115 / 100) := by
      intro d hd
      have := hbest d hd
      have := hscore d hd
      linarith
    have hhead : best ∈ candidates := (hmem best).1 List.mem_cons_self
    dsimp only
    split
    · exact ⟨best, hhead, rfl, htake⟩
    split
    · exact ⟨best, hhead, rfl, htake⟩
    next hexplorable =>
      have hlt := draws.intn_lt _ (List.length_pos_of_ne_nil hexplorable)
      refine ⟨_, ?_, List.getElem?_eq_getElem hlt, ?_⟩
      · exact (hmem _).1 (List.mem_filter.1 (List.getElem_mem hlt)).1
      · intro d hd
        have hlimit := (List.mem_filter.1 (List.getElem_mem hlt)).2
        rw [decide_eq_true_eq] at hlimit
        have := hbest d hd
        linarith

variable {poolID : Int} {group : String}

variable (poolID group later) in
/-- What is left of the candidates after the affinity: the same ones, in some order. -/
theorem left_after_sticky (hne : healthyCandidates env c pool modelName ≠ []) :
    let left := (getRoutePoolStickyCandidate env (prepareRoutePoolAffinity c poolID group modelName)
      (healthyCandidates env c pool modelName) later).candidates
    left ≠ [] ∧ (∀ d ∈ left, 0 ≤ d.score) ∧
      ∀ d, d ∈ left ↔ d ∈ healthyCandidates env c pool modelName := by
  have hperm := sticky_candidates_perm env (prepareRoutePoolAffinity c poolID group modelName)
    (healthyCandidates env c pool modelName) later
  refine ⟨?_, ?_, fun d => hperm.mem_iff⟩
  · intro h
    rw [h] at hperm
    exact hne hperm.symm.eq_nil
  · intro d hd
    exact (mem_healthyCandidates later (hperm.mem_iff.1 hd)).2.2

/-- A selected channel was not used by the request, and its circuit is not open. -/
theorem selectAutomaticPoolChannel_safe
    (h : selectAutomaticPoolChannel env draws poolID c group modelName pool now later = some s) :
    channelAlreadyUsed c s.channelID = false ∧ activelyCooling env now s.channelID = false := by
  simp only [selectAutomaticPoolChannel] at h
  split at h
  · exact mem_probeCandidates (mem_of_lowest h)
  next hhealthy =>
    split at h
    next candidate hsticky =>
      cases h
      obtain ⟨hused, hcooling, -⟩ := mem_healthyCandidates now (mem_of_sticky hsticky)
      exact ⟨hused, hcooling⟩
    next =>
      split at h
      · exact mem_probeCandidates (mem_of_lowest h)
      · obtain ⟨hne, hscore, hmem⟩ := left_after_sticky later poolID group hhealthy
        obtain ⟨s', hs', hchosen, -⟩ := chooseRoutePoolHealthyCandidate_near draws hne hscore
        rw [hchosen, Option.some.injEq] at h
        subst h
        obtain ⟨hused, hcooling, -⟩ := mem_healthyCandidates now ((hmem _).1 hs')
        exact ⟨hused, hcooling⟩

/-- Without affinity and probe, the selected score is near the best one. -/
theorem selectAutomaticPoolChannel_near (hne : healthyCandidates env c pool modelName ≠ [])
    (hsticky : (getRoutePoolStickyCandidate env (prepareRoutePoolAffinity c poolID group modelName)
      (healthyCandidates env c pool modelName) later).candidate = none)
    (hprobe : ¬ (probeCandidates env c pool modelName now ≠ [] ∧ draws.probe < routePoolProbeRate)) :
    ∃ s ∈ healthyCandidates env c pool modelName,
      selectAutomaticPoolChannel env draws poolID c group modelName pool now later = some s ∧
        ∀ d ∈ healthyCandidates env c pool modelName, s.score ≤ d.score * (115 / 100) := by
  obtain ⟨hleft, hscore, hmem⟩ := left_after_sticky later poolID group hne
  obtain ⟨s, hs, hchosen, hnear⟩ := chooseRoutePoolHealthyCandidate_near draws hleft hscore
  refine ⟨s, (hmem s).1 hs, ?_, fun d hd => hnear d ((hmem d).2 hd)⟩
  simp only [selectAutomaticPoolChannel, if_neg hne, hsticky, if_neg hprobe]
  exact hchosen

end Selection

/-- The inputs of the three functions. -/
structure Inputs where
  env : Env
  draws : Draws
  poolID : Int
  request : Option Request
  group : String
  modelName : String
  pool : List RoutePoolCandidate
  /-- A slice of scored candidates, as the affinity is asked about it. -/
  slice : List ScoredRoutePoolCandidate
  /-- The channel whose affinity may be migrated. -/
  channelID : Int
  now : Int
  later : Int

/-- The recorded and the current channel are judged as themselves, and a selection is safe and near
the best score. -/
structure Careful (x : Inputs) : Prop where
  sticks : (getRoutePoolStickyCandidate x.env x.request x.slice x.later).candidate =
    stickySpec x.env x.request x.slice x.later
  migrates :
    shouldMigrateAutomaticPoolAffinity x.env x.modelName x.pool x.channelID x.now x.later =
      migrateSpec x.env x.modelName x.pool x.channelID x.now x.later
  safe : ∀ s, selectAutomaticPoolChannel x.env x.draws x.poolID x.request x.group x.modelName
    x.pool x.now x.later = some s →
      channelAlreadyUsed x.request s.channelID = false ∧
        activelyCooling x.env x.now s.channelID = false
  near : healthyCandidates x.env x.request x.pool x.modelName ≠ [] →
    (getRoutePoolStickyCandidate x.env
      (prepareRoutePoolAffinity x.request x.poolID x.group x.modelName)
      (healthyCandidates x.env x.request x.pool x.modelName) x.later).candidate = none →
    ¬ (probeCandidates x.env x.request x.pool x.modelName x.now ≠ [] ∧
      x.draws.probe < routePoolProbeRate) →
    ∃ s ∈ healthyCandidates x.env x.request x.pool x.modelName,
      selectAutomaticPoolChannel x.env x.draws x.poolID x.request x.group x.modelName x.pool
        x.now x.later = some s ∧
      ∀ d ∈ healthyCandidates x.env x.request x.pool x.modelName, s.score ≤ d.score * (115 / 100)

/-- A selection is always safe and near; the recorded and the current channel are judged as
themselves exactly when the sort in place does not matter to them. -/
theorem route_pool_careful_iff (x : Inputs) :
    Careful x ↔ StickyInPlace x.env x.request x.slice x.later ∧
      MigrationInPlace x.env x.modelName x.pool x.channelID x.now x.later := by
  constructor
  · intro h
    exact ⟨sticky_eq_spec_iff.1 h.sticks, migrate_eq_spec_iff.1 h.migrates⟩
  · rintro ⟨hsticky, hmigrate⟩
    constructor
    case sticks => exact sticky_eq_spec_iff.2 hsticky
    case migrates => exact migrate_eq_spec_iff.2 hmigrate
    case safe => exact fun s hs => selectAutomaticPoolChannel_safe hs
    case near =>
      exact fun hne hsticky hprobe => selectAutomaticPoolChannel_near hne hsticky hprobe

/-- Three channels at the costs 10, 19/2 and 9, and an affinity to the first. -/
def threeChannels : Inputs where
  env :=
    { unmarshal := fun _ => none
      wilsonRate := fun _ => 0
      slice :=
        { sort := fun candidates => candidates.insertionSort fun a b => a.score ≤ b.score
          perm := fun _ => List.perm_insertionSort _ _
          rising := fun candidates => by
            have : Std.Total fun a b : ScoredRoutePoolCandidate => a.score ≤ b.score :=
              ⟨fun a b => le_total a.score b.score⟩
            have : IsTrans ScoredRoutePoolCandidate fun a b => a.score ≤ b.score :=
              ⟨fun a b c hab hbc => le_trans hab hbc⟩
            exact List.pairwise_insertionSort _ candidates }
      health := fun id => if id = 1 then some { state := .degraded, window5Requests := 4 } else none
      preferred := fun _ => some 1 }
  draws := ⟨1, 1, fun _ => 0, fun _ h => h⟩
  poolID := 1
  request := some { tokenID := 5, affinity := some "route_pool:1:5:default:gpt-4" }
  group := "default"
  modelName := "gpt-4"
  pool := [⟨1, { costMultiplier := 10 }⟩, ⟨2, { costMultiplier := 19 / 2 }⟩,
    ⟨3, { costMultiplier := 9 }⟩]
  slice := [{ channelID := 1, score := 10 }, { channelID := 2, score := 19 / 2 },
    { channelID := 3, score := 9 }]
  channelID := 1
  now := 0
  later := 0

/-- After the sort the pointer to the first channel denotes the third, which is returned in its
place; and the first channel, which is degraded, is compared with the score of the third. -/
theorem pointer_denotes_another :
    recordedChannel threeChannels.env threeChannels.request = some 1 ∧
      (getRoutePoolStickyCandidate threeChannels.env threeChannels.request threeChannels.slice
        threeChannels.later).candidate = some { channelID := 3, score := 9 } ∧
      shouldMigrateAutomaticPoolAffinity threeChannels.env "gpt-4" threeChannels.pool 1 0 0 = false ∧
      migrateSpec threeChannels.env "gpt-4" threeChannels.pool 1 0 0 = true ∧
      ¬ Careful threeChannels := by
  have hsticky : (getRoutePoolStickyCandidate threeChannels.env threeChannels.request
      threeChannels.slice threeChannels.later).candidate = some { channelID := 3, score := 9 } := by
    decide +kernel
  refine ⟨by decide +kernel, hsticky, by decide +kernel, by decide +kernel, fun h => ?_⟩
  have hsame := h.sticks
  have hspec : stickySpec threeChannels.env threeChannels.request threeChannels.slice
      threeChannels.later = some { channelID := 1, score := 10 } := by decide +kernel
  rw [hsticky, hspec, Option.some.injEq] at hsame
  exact absurd hsame (by decide)

end CodeGo.Gateway.RoutePool
