import CodeGo.Gateway.ChannelIndex
import CodeGo.Lib.Ranking
import CodeGo.Lib.Shares
import CodeGo.Lib.Wrap
import Mathlib.Algebra.BigOperators.Ring.List

/-!
# The weighted choice of a channel

`GetRandomSatisfiedChannel` of the channel store, with the memory cache enabled: the channels of the
highest priority that the retry leaves, one of them drawn by weight.
-/

namespace CodeGo.Gateway.WeightedChoice

open CodeGo.Lib.Ranking CodeGo.Lib.Shares CodeGo.Lib.Wrap

structure Channel extends Channels.Channel where
  weight : Option UInt64 := none
  deriving DecidableEq

/-- The weight, as the unsigned number of its column. -/
def Channel.columnWeight (c : Channel) : Nat := (c.weight.getD 0).toNat

def Channel.getWeight (c : Channel) : Int := wrap64 c.columnWeight

structure Cache where
  channelsIDM : Int → Option Channel
  group2model2channels : Channels.Index

inductive Error where
  | channelMissing (channelID : Int)
  | noChannelFound (group modelName : String) (targetPriority : Int)
  | channelNotFound
  deriving DecidableEq, Repr

def Error.message : Error → String
  | .channelMissing channelID => s!"数据库一致性错误，渠道# {channelID} 不存在，请联系管理员修复"
  | .noChannelFound group modelName targetPriority =>
    s!"no channel found, group: {group}, model: {modelName}, priority: {targetPriority}"
  | .channelNotFound => "channel not found"

/-- How a selection ends without a result: with an error, or in the panic of `rand.Intn`. -/
inductive Failure where
  | error (error : Error)
  | invalidArgumentToIntn
  deriving DecidableEq, Repr

def hasStart (name start : String) : Bool := start.toList.isPrefixOf name.toList

/-- `strings.Contains`. -/
def contains (name part : String) : Bool := decide (part.toList <:+: name.toList)

def handleThinkingBudgetModel (name start wildcard : String) : String :=
  if hasStart name start && contains name "-thinking-" then wildcard else name

def formatMatchingModelName (name : String) : String :=
  let name :=
    if name = "gpt-5.4-2026-03-05" then "gpt-5.4"
    else if name = "gpt-5.4-pro-2026-03-05" then "gpt-5.4-pro"
    else name
  let name :=
    if hasStart name "gemini-2.5-flash-lite" then
      handleThinkingBudgetModel name "gemini-2.5-flash-lite" "gemini-2.5-flash-lite-thinking-*"
    else if hasStart name "gemini-2.5-flash" then
      handleThinkingBudgetModel name "gemini-2.5-flash" "gemini-2.5-flash-thinking-*"
    else if hasStart name "gemini-2.5-pro" then
      handleThinkingBudgetModel name "gemini-2.5-pro" "gemini-2.5-pro-thinking-*"
    else name
  let name := if hasStart name "gpt-4-gizmo" then "gpt-4-gizmo-*" else name
  if hasStart name "gpt-4o-gizmo" then "gpt-4o-gizmo-*" else name

/-- The channels of the model, or of its normalized name when it has none. -/
def Cache.channelIDs (cache : Cache) (group modelName : String) : List Int :=
  let channelIDs := cache.group2model2channels.ids group modelName
  if channelIDs = [] then
    cache.group2model2channels.ids group (formatMatchingModelName modelName)
  else channelIDs

def Cache.channel (cache : Cache) (channelID : Int) : Except Failure Channel :=
  match cache.channelsIDM channelID with
  | some channel => .ok channel
  | none => .error (.error (.channelMissing channelID))

/-- The keys of `uniquePriorities`, the highest first. -/
def sortedPriorities (channels : List Channel) : List Int := falling (channels.map (·.getPriority))

/-- The priority of a retry; no list of channels that it is asked of is empty. -/
def targetPriority (channels : List Channel) (retry : Nat) : Int :=
  let sorted := sortedPriorities channels
  sorted.getD (if sorted.length ≤ retry then sorted.length - 1 else retry) 0

def targetChannels (channels : List Channel) (retry : Nat) : List Channel :=
  channels.filter (·.getPriority = targetPriority channels retry)

structure Smoothing where
  sumWeight : Int
  smoothingFactor : Int
  smoothingAdjustment : Int
  deriving DecidableEq, Repr

def sumWeight (targets : List Channel) : Int :=
  targets.foldl (fun sum channel => wrap64 (sum + channel.getWeight)) 0

def smoothing (targets : List Channel) : Smoothing :=
  let sum := sumWeight targets
  if sum = 0 then ⟨wrap64 (targets.length * 100), 1, 100⟩
  else if sum.tdiv targets.length < 10 then ⟨sum, 100, 0⟩
  else ⟨sum, 1, 0⟩

/-- What `rand.Intn` is asked for. -/
def drawRange (targets : List Channel) : Int :=
  wrap64 ((smoothing targets).sumWeight * (smoothing targets).smoothingFactor)

/-- What a channel takes off the number drawn. -/
def Smoothing.taken (s : Smoothing) (channel : Channel) : Int :=
  wrap64 (wrap64 (channel.getWeight * s.smoothingFactor) + s.smoothingAdjustment)

/-- The place in the list at which the number drawn falls below zero. -/
def fallsAt (s : Smoothing) : List Channel → Int → Option Nat
  | [], _ => none
  | channel :: channels, randomWeight =>
    let left := wrap64 (randomWeight - s.taken channel)
    if left < 0 then some 0 else (fallsAt s channels left).map (· + 1)

/-- The place of the channel that a draw selects. -/
def drawn (targets : List Channel) (draw : Nat) : Option Nat :=
  fallsAt (smoothing targets) targets draw

/-- What is left to do once the channels of the list are loaded. -/
def drawChannel (group modelName : String) (channels : List Channel) (retry draw : Nat) :
    Except Failure (Option Channel) :=
  let targets := targetChannels channels retry
  if targets = [] then
    .error (.error (.noChannelFound group modelName (targetPriority channels retry)))
  else if drawRange targets ≤ 0 then .error .invalidArgumentToIntn
  else match (drawn targets draw).bind (targets[·]?) with
    | some channel => .ok (some channel)
    | none => .error (.error .channelNotFound)

def getRandomSatisfiedChannel (cache : Cache) (group modelName : String) (retry draw : Nat) :
    Except Failure (Option Channel) :=
  match cache.channelIDs group modelName with
  | [] => .ok none
  | [channelID] => (cache.channel channelID).map some
  | channelIDs => do
    -- both loops look up the same channels, under one lock
    let channels ← channelIDs.mapM cache.channel
    drawChannel group modelName channels retry draw

/-- The channels whose priority is the highest, the second highest and so on, with the retry; the
ones of the lowest when it is past that. -/
def ranked (channels : List Channel) (retry : Nat) : List Channel :=
  channels.filter fun c => rank (channels.map (·.getPriority)) c.getPriority =
    clamped (channels.map (·.getPriority)) retry

def weightSum (targets : List Channel) : Nat := (targets.map (·.columnWeight)).sum

/-- The smoothed weight of a channel among others: a hundred when none has weight, a hundredfold
when they have less than ten on average. -/
def smoothed (targets : List Channel) (c : Channel) : Nat :=
  if weightSum targets = 0 then 100
  else if weightSum targets / targets.length < 10 then c.columnWeight * 100
  else c.columnWeight

/-- A selection among channels draws by their smoothed weights. -/
structure DrawnByWeight (targets : List Channel) (select : Nat → Except Failure (Option Channel))
    (range : Nat) : Prop where
  range_pos : 0 < range
  asked : drawRange targets = range
  returned : ∀ draw < range, ∃ i c, drawn targets draw = some i ∧ targets[i]? = some c ∧
    select draw = .ok (some c)
  share : ∀ i c, targets[i]? = some c →
    (List.range range).countP (drawn targets · = some i) = smoothed targets c
  weightless : ∀ draw < range, ∀ c, select draw = .ok (some c) → c.columnWeight = 0 →
    ∀ d ∈ targets, d.columnWeight = 0

/-- What a selection promises of its candidates; a single one is taken without a draw. -/
def Selects (candidates : List Channel) (retry : Nat)
    (select : Nat → Except Failure (Option Channel)) : Prop :=
  if candidates.length = 1 then ∀ draw, ∃ c ∈ ranked candidates retry, select draw = .ok (some c)
  else ∃ range, DrawnByWeight (ranked candidates retry) select range

section Ranks

variable {channels : List Channel} (hne : channels ≠ []) (retry : Nat)

include hne

theorem targetPriority_eq : ∃ h, targetPriority channels retry =
    (falling (channels.map (·.getPriority))).get
      ⟨clamped (channels.map (·.getPriority)) retry, h⟩ :=
  ⟨clamped_lt (by simpa using hne) retry, getD_falling (by simpa using hne) retry 0⟩

/-- The channels of the target priority are the ones that the retry leaves. -/
theorem targetChannels_eq : targetChannels channels retry = ranked channels retry := by
  obtain ⟨hplace, htarget⟩ := targetPriority_eq hne retry
  apply List.filter_congr
  intro c hc
  rw [htarget, decide_eq_decide]
  exact eq_get_iff (List.mem_map_of_mem (f := fun c : Channel => c.getPriority) hc) ⟨_, hplace⟩

/-- Some channel is left at every retry. -/
theorem ranked_ne_nil : ranked channels retry ≠ [] := by
  obtain ⟨hplace, htarget⟩ := targetPriority_eq hne retry
  have hmem : targetPriority channels retry ∈ channels.map (·.getPriority) := by
    rw [htarget]
    exact mem_falling.1 (List.get_mem _ _)
  obtain ⟨c, hc, hpriority⟩ := List.mem_map.1 hmem
  rw [← targetChannels_eq hne]
  apply List.ne_nil_of_mem (a := c)
  rw [targetChannels, List.mem_filter, decide_eq_true_eq]
  exact ⟨hc, hpriority⟩

end Ranks

theorem sumWeight_eq (targets : List Channel) :
    sumWeight targets = wrap64 (weightSum targets) := by
  have hfold (sum : Int) : targets.foldl (fun sum channel => wrap64 (sum + channel.getWeight))
      (wrap64 sum) = wrap64 (sum + weightSum targets) := by
    induction targets generalizing sum with
    | nil => simp [weightSum]
    | cons c targets ih =>
      have : wrap64 (wrap64 sum + c.getWeight) = wrap64 (sum + c.columnWeight) := by
        rw [wrap64_wrap64_add, Int.add_comm, Channel.getWeight, wrap64_wrap64_add, Int.add_comm]
      rw [List.foldl_cons, this, ih, weightSum, weightSum, List.map_cons, List.sum_cons]
      congr 1
      omega
  have hstart := hfold 0
  rw [wrap64_zero, Int.zero_add] at hstart
  exact hstart

/-- The smoothed weights add up to what the draw is meant to range over. -/
theorem sum_smoothed (targets : List Channel) :
    (targets.map (smoothed targets)).sum =
      if weightSum targets = 0 then targets.length * 100
      else if weightSum targets / targets.length < 10 then
        weightSum targets * 100
      else weightSum targets := by
  by_cases hzero : weightSum targets = 0
  · have : smoothed targets = fun _ => 100 := funext fun c => if_pos hzero
    rw [this, if_pos hzero, List.map_const', List.sum_replicate_nat]
  by_cases hsmall : weightSum targets / targets.length < 10
  · have : smoothed targets = fun c => c.columnWeight * 100 :=
      funext fun c => (if_neg hzero).trans (if_pos hsmall)
    rw [this, if_neg hzero, if_pos hsmall]
    exact List.sum_map_mul_right _ _ _
  · have : smoothed targets = fun c => c.columnWeight :=
      funext fun c => (if_neg hzero).trans (if_neg hsmall)
    rw [this, if_neg hzero, if_neg hsmall]
    rfl

theorem columnWeight_le_sum {targets : List Channel} {c : Channel} (h : c ∈ targets) :
    c.columnWeight ≤ weightSum targets :=
  List.single_le_sum (fun _ _ => Nat.zero_le _) _ (List.mem_map_of_mem h)

section Bounded

variable {targets : List Channel} (hbound : (targets.map (smoothed targets)).sum < 2 ^ 63)

include hbound

theorem weightSum_lt : weightSum targets < 2 ^ 63 := by
  rw [sum_smoothed] at hbound
  split_ifs at hbound <;> omega

/-- The smoothing is the exact one. -/
theorem smoothing_eq : smoothing targets =
    if weightSum targets = 0 then ⟨targets.length * 100, 1, 100⟩
    else if weightSum targets / targets.length < 10 then
      ⟨weightSum targets, 100, 0⟩
    else ⟨weightSum targets, 1, 0⟩ := by
  have hsum : sumWeight targets = weightSum targets := by
    have := weightSum_lt hbound
    rw [sumWeight_eq, wrap64_of_nonneg (by omega) (by omega)]
  have hdiv : Int.tdiv (weightSum targets : Int) targets.length < 10 ↔
      weightSum targets / targets.length < 10 := by
    rw [Int.tdiv_eq_ediv_of_nonneg (by omega)]
    omega
  simp only [smoothing, hsum, hdiv, Int.natCast_eq_zero]
  rw [sum_smoothed] at hbound
  split_ifs at hbound ⊢
  · rw [wrap64_of_nonneg (by omega) (by omega)]
  · rfl
  · rfl

theorem drawRange_eq : drawRange targets = (targets.map (smoothed targets)).sum := by
  rw [drawRange, smoothing_eq hbound]
  rw [sum_smoothed] at hbound ⊢
  split_ifs at hbound ⊢
  · simp only [Int.mul_one]
    rw [wrap64_of_nonneg (by omega) (by omega)]
    push_cast
    rfl
  · simp only
    rw [wrap64_of_nonneg (by omega) (by omega)]
    push_cast
    rfl
  · simp only [Int.mul_one]
    rw [wrap64_of_nonneg (by omega) (by omega)]

theorem taken_eq {c : Channel} (hc : c ∈ targets) :
    (smoothing targets).taken c = smoothed targets c := by
  have hle := columnWeight_le_sum hc
  have hweight : c.getWeight = c.columnWeight := by
    have := weightSum_lt hbound
    rw [Channel.getWeight, wrap64_of_nonneg (by omega) (by omega)]
  rw [Smoothing.taken, smoothing_eq hbound, hweight, smoothed]
  rw [sum_smoothed] at hbound
  split_ifs at hbound ⊢
  · have : c.columnWeight = 0 := by omega
    rw [this]
    rfl
  · simp only [Int.add_zero, wrap64_wrap64]
    rw [wrap64_of_nonneg (by omega) (by omega)]
    push_cast
    omega
  · simp only [Int.add_zero, wrap64_wrap64]
    rw [wrap64_of_nonneg (by omega) (by omega)]
    omega

end Bounded

/-- Without overflow the loop stops in the share that the number falls into. -/
theorem fallsAt_eq_pick {s : Smoothing} {channels : List Channel} {share : Channel → Nat}
    (hshare : ∀ c ∈ channels, s.taken c = share c ∧ share c < 2 ^ 63) {draw : Nat}
    (hdraw : draw < 2 ^ 63) :
    fallsAt s channels draw = pick (channels.map share) draw := by
  induction channels generalizing draw with
  | nil => rfl
  | cons c channels ih =>
    rw [List.forall_mem_cons] at hshare
    obtain ⟨⟨htaken, hlt⟩, hshare⟩ := hshare
    have hleft : wrap64 ((draw : Int) - s.taken c) = draw - share c := by
      rw [htaken]
      exact wrap64_of_inRange ⟨by omega, by omega⟩
    simp only [fallsAt, List.map_cons, pick, hleft]
    by_cases hin : draw < share c
    · rw [if_pos (by omega), if_pos hin]
    · rw [if_neg (by omega), if_neg hin, ← Int.ofNat_sub (by omega), ih hshare (by omega)]

section Selection

variable {targets : List Channel} {select : Nat → Except Failure (Option Channel)}

/-- Draws by smoothed weights whose sum is below `2^63` are exact. -/
theorem drawnByWeight (hne : targets ≠ []) (hbound : (targets.map (smoothed targets)).sum < 2 ^ 63)
    (hselect : ∀ draw, select draw =
      if drawRange targets ≤ 0 then .error .invalidArgumentToIntn
      else match (drawn targets draw).bind (targets[·]?) with
        | some channel => .ok (some channel)
        | none => .error (.error .channelNotFound)) :
    DrawnByWeight targets select (targets.map (smoothed targets)).sum := by
  have hlength := List.length_pos_of_ne_nil hne
  have hpos : 0 < (targets.map (smoothed targets)).sum := by
    rw [sum_smoothed]
    split_ifs <;> omega
  have hrange := drawRange_eq hbound
  have hdrawn : ∀ draw < (targets.map (smoothed targets)).sum,
      drawn targets draw = pick (targets.map (smoothed targets)) draw := by
    intro draw hdraw
    apply fallsAt_eq_pick _ (by omega)
    intro c hc
    have := List.single_le_sum (fun _ _ => Nat.zero_le _) _
      (List.mem_map_of_mem (f := smoothed targets) hc)
    exact ⟨taken_eq hbound hc, by omega⟩
  have hreturned : ∀ draw < (targets.map (smoothed targets)).sum, ∃ i c,
      drawn targets draw = some i ∧ targets[i]? = some c ∧ select draw = .ok (some c) := by
    intro draw hdraw
    obtain ⟨i, hi⟩ := Option.isSome_iff_exists.1 (pick_isSome.2 hdraw)
    have hlt : i < targets.length := by simpa using pick_lt_length hi
    have hc := List.getElem?_eq_getElem hlt
    refine ⟨i, targets[i], (hdrawn draw hdraw).trans hi, hc, ?_⟩
    rw [hselect, if_neg (by omega), hdrawn draw hdraw, hi, Option.bind_some, hc]
  have hshare : ∀ i c, targets[i]? = some c → (List.range (targets.map (smoothed targets)).sum).countP
      (drawn targets · = some i) = smoothed targets c := by
    intro i c hc
    have hcongr : (List.range (targets.map (smoothed targets)).sum).countP
        (drawn targets · = some i) = (List.range (targets.map (smoothed targets)).sum).countP
        (pick (targets.map (smoothed targets)) · = some i) := by
      apply List.countP_congr
      intro draw hdraw
      rw [hdrawn draw (List.mem_range.1 hdraw)]
    rw [hcongr, countP_pick, List.getD_eq_getElem?_getD, List.getElem?_map, hc]
    rfl
  refine ⟨hpos, hrange, hreturned, hshare, ?_⟩
  intro draw hdraw c hselected hweightless d hd
  obtain ⟨i, c', hi, hc', hreturn⟩ := hreturned draw hdraw
  rw [hselected] at hreturn
  cases hreturn
  -- a channel that is drawn has a share, and one without weight has none among weighted ones
  have hshared : 0 < smoothed targets c := by
    rw [← hshare i c hc']
    exact List.countP_pos_iff.2 ⟨draw, List.mem_range.2 hdraw, by simpa using hi⟩
  have hsum : weightSum targets = 0 := by
    by_contra hsum
    rw [smoothed, if_neg hsum, hweightless] at hshared
    split at hshared <;> omega
  have := columnWeight_le_sum hd
  omega

/-- Exact draws leave no room for an overflow. -/
theorem sum_smoothed_lt {range : Nat} (h : DrawnByWeight targets select range) :
    (targets.map (smoothed targets)).sum < 2 ^ 63 := by
  have hplaced := sum_countP_le (drawn targets) (List.range range) targets.length
  have hcounts : (List.range targets.length).map (fun i =>
      (List.range range).countP (drawn targets · = some i)) = targets.map (smoothed targets) := by
    apply List.ext_getElem
    · simp
    · intro i hi _
      have hlt : i < targets.length := by simpa using hi
      simp only [List.getElem_map, List.getElem_range]
      exact h.share i _ (List.getElem?_eq_getElem hlt)
  rw [hcounts, List.length_range] at hplaced
  have := (wrap64_inRange ((smoothing targets).sumWeight * (smoothing targets).smoothingFactor)).2
  have := h.asked
  rw [drawRange] at this
  omega

theorem mapM_channel {cache : Cache} {channelIDs : List Int} {channels : List Channel}
    (h : channelIDs.map cache.channelsIDM = channels.map some) :
    channelIDs.mapM cache.channel = .ok channels := by
  induction channelIDs generalizing channels with
  | nil =>
    rw [List.map_nil, eq_comm, List.map_eq_nil_iff] at h
    rw [h]
    rfl
  | cons id ids ih =>
    cases channels with
    | nil => cases h
    | cons c channels =>
      rw [List.map_cons, List.map_cons, List.cons.injEq] at h
      rw [List.mapM_cons, ih h.2, Cache.channel, h.1]
      rfl

/-- A cached selection does what is promised exactly when there is a single candidate, or when the
smoothed weights of the ones that the retry leaves add up to less than `2^63`. -/
theorem random_channel_weighted {cache : Cache} {group modelName : String}
    {candidates : List Channel} (hne : candidates ≠ [])
    (hcached : (cache.channelIDs group modelName).map cache.channelsIDM = candidates.map some)
    (retry : Nat) :
    Selects candidates retry (getRandomSatisfiedChannel cache group modelName retry) ↔
      candidates.length = 1 ∨
        ((ranked candidates retry).map (smoothed (ranked candidates retry))).sum < 2 ^ 63 := by
  have hlength := congrArg List.length hcached
  rw [List.length_map, List.length_map] at hlength
  by_cases hone : candidates.length = 1
  · simp only [Selects, hone, true_or, iff_true]
    intro draw
    obtain ⟨c, hc⟩ := List.exists_mem_of_ne_nil _ (ranked_ne_nil hne retry)
    refine ⟨c, hc, ?_⟩
    obtain ⟨id, hid⟩ := List.length_eq_one_iff.1 (hlength.trans hone)
    obtain ⟨only, honly⟩ := List.length_eq_one_iff.1 hone
    have hsame : c = only := by
      have := (List.mem_filter.1 hc).1
      rwa [honly, List.mem_singleton] at this
    rw [hid, honly, List.map_singleton, List.map_singleton, List.cons.injEq] at hcached
    rw [getRandomSatisfiedChannel, hid]
    simp only [Cache.channel, hcached.1, hsame]
    rfl
  · have hselect (draw : Nat) : getRandomSatisfiedChannel cache group modelName retry draw =
        if drawRange (ranked candidates retry) ≤ 0 then .error .invalidArgumentToIntn
        else match (drawn (ranked candidates retry) draw).bind ((ranked candidates retry)[·]?) with
          | some channel => .ok (some channel)
          | none => .error (.error .channelNotFound) := by
      rw [getRandomSatisfiedChannel]
      have hloaded := mapM_channel hcached
      cases hids : cache.channelIDs group modelName with
      | nil =>
        rw [hids] at hlength
        exact absurd (List.length_eq_zero_iff.1 hlength.symm) hne
      | cons id ids =>
        cases ids with
        | nil =>
          rw [hids] at hlength
          exact absurd hlength.symm hone
        | cons id' ids =>
          rw [hids] at hloaded
          show (List.mapM cache.channel (id :: id' :: ids)).bind
            (drawChannel group modelName · retry draw) = _
          rw [hloaded, Except.bind, drawChannel, targetChannels_eq hne,
            if_neg (ranked_ne_nil hne retry)]
    simp only [Selects, hone, false_or]
    constructor
    · rintro ⟨range, h⟩
      exact sum_smoothed_lt h
    · intro hbound
      exact ⟨_, drawnByWeight (ranked_ne_nil hne retry) hbound hselect⟩

/-- A cache that lists its channels under one model of one group. -/
def sampleCache (channels : List Channel) : Cache where
  channelsIDM id := channels.find? (·.id = id)
  group2model2channels group :=
    if group = "default" then
      some fun model => if model = "gpt-4" then channels.map (·.id) else []
    else none

/-- Two channels of the higher priority, one of them without weight, and one of a lower. -/
def sampleChannels : List Channel :=
  [{ id := 1, priority := some 5, weight := some 3 }, { id := 2, priority := some 5 },
    { id := 3, priority := some 1, weight := some 20 }]

theorem random_channel_weighted_sample :
    ranked sampleChannels 0 = sampleChannels.take 2 ∧
      ranked sampleChannels 7 = sampleChannels.drop 2 ∧
      Selects sampleChannels 0
        (getRandomSatisfiedChannel (sampleCache sampleChannels) "default" "gpt-4" 0) :=
  ⟨by decide, by decide,
    (random_channel_weighted (by decide) (by decide) 0).2 (.inr (by decide))⟩

/-- Two weights of `2^62`: they add up to a negative number, `rand.Intn` is asked for nothing and
panics. -/
def heavyChannels : List Channel :=
  [{ id := 1, weight := some 4611686018427387904 }, { id := 2, weight := some 4611686018427387904 }]

theorem heavy_weights_panic :
    (∀ c ∈ heavyChannels, 0 ≤ c.getWeight) ∧
      ((sampleCache heavyChannels).channelIDs "default" "gpt-4").map
        (sampleCache heavyChannels).channelsIDM = heavyChannels.map some ∧
      getRandomSatisfiedChannel (sampleCache heavyChannels) "default" "gpt-4" 0 0 =
        .error .invalidArgumentToIntn ∧
      ¬ Selects heavyChannels 0
        (getRandomSatisfiedChannel (sampleCache heavyChannels) "default" "gpt-4" 0) := by
  refine ⟨by decide, by decide, by decide, ?_⟩
  rintro ⟨range, h⟩
  have hasked := h.asked
  have hnone : drawRange (ranked heavyChannels 0) = 0 := by decide
  have := h.range_pos
  omega

end Selection

end CodeGo.Gateway.WeightedChoice
