import CodeGo.Gateway.RelayRequest

/-!
# What a pass of the retry loop does

The selection among the auto groups and the passes of the loop, each as the list of what it can
do. From these follows that the loop of every request ends.
-/

namespace CodeGo.Gateway.RelayRequest

open Billing.Session Types.ApiError AutoGroups

section Scan

/-- The selection parameter after `sel` was selected. -/
def selectedParam (retryTimes : Int) (sel : Selected) (p : RetryParam) : RetryParam :=
  ({ p with retry := sel.priorityRetry } : RetryParam).selectGroup retryTimes sel.position sel.group
    sel.priorityRetry

/-- The priority that the scan from `start` asks the group at `i` for. -/
def askedFor (p : RetryParam) (start i : Nat) : Nat := if i = start then p.retry else 0

/-- The groups at `i` up to `j` have no channel for the scan from `start`. -/
def Emptied (health : Availability) (ranking : List String) (p : RetryParam) (start i j : Nat) :
    Prop :=
  ∀ k group, i ≤ k → k < j → ranking[k]? = some group →
    health.pick group (askedFor p start k) = none

/-- `sel` is what the scan from `start` selects in the ranking. -/
structure Found (retryTimes : Int) (health : Availability) (ranking : List String)
    (p : RetryParam) (start i : Nat) (sel : Selected) (p' : RetryParam) : Prop where
  from_start : i ≤ sel.position
  at_position : ranking[sel.position]? = some sel.group
  priority : sel.priorityRetry = askedFor p start sel.position
  picked : health.pick sel.group sel.priorityRetry = some sel.channel
  emptied : Emptied health ranking p start i sel.position
  param : p' = selectedParam retryTimes sel p

variable {s : Settings} {health : Availability} {ranking : List String} {start i : Nat}
  {p : RetryParam} {R : Int}

/-- What the scan of the groups from `i` on finds, when it asked for `p.retry` at `start` only. -/
theorem selectFrom_cases (hi : start ≤ i) (q : RetryParam)
    (hq : ∃ index, q = { p with ctx := { p.ctx with autoGroupIndex := index }
                                retry := if i = start then p.retry else 0 }) :
    ((selectFrom R health start (ranking.drop i) i q).1 = none ∧
        Emptied health ranking p start i ranking.length) ∨
      ∃ sel, (selectFrom R health start (ranking.drop i) i q).1 = some sel ∧
        Found R health ranking p start i sel (selectFrom R health start (ranking.drop i) i q).2 := by
  generalize hl : ranking.drop i = groups
  induction groups generalizing i q with
  | nil =>
    have hlen : ranking.length ≤ i := by simpa using hl
    left
    refine ⟨rfl, fun k group hik hk _ => ?_⟩
    omega
  | cons group groups ih =>
    obtain ⟨index, rfl⟩ := hq
    have hget : ranking[i]? = some group := by
      have := congrArg (fun l => l[0]?) hl
      simpa using this
    have hrest : ranking.drop (i + 1) = groups := by
      have := congrArg List.tail hl
      simpa using this
    have hasked : (if i > start then 0 else if i = start then p.retry else 0) = askedFor p start i := by
      unfold askedFor
      split <;> split <;> omega
    simp only [selectFrom, hasked]
    cases hpick : health.pick group (askedFor p start i) with
    | none =>
      have hne : ¬ i + 1 = start := by omega
      have hleave := ih (Nat.le_succ_of_le hi)
        (RetryParam.leaveGroup i
          { p with ctx := { p.ctx with autoGroupIndex := index }
                   retry := if i = start then p.retry else 0 })
        ⟨some (i + 1), by simp [RetryParam.leaveGroup, hne]⟩ hrest
      have hmore : ∀ j, Emptied health ranking p start (i + 1) j → Emptied health ranking p start i j := by
        intro j h k g hik hk hg
        by_cases hki : k = i
        · subst hki
          rw [hget] at hg
          cases hg
          exact hpick
        · exact h k g (by omega) hk hg
      rcases hleave with ⟨hnone, hemptied⟩ | ⟨sel, hsome, hfound⟩
      · exact .inl ⟨hnone, hmore _ hemptied⟩
      · right
        exact ⟨sel, hsome, { hfound with
          from_start := Nat.le_of_succ_le hfound.from_start
          emptied := hmore _ hfound.emptied }⟩
    | some channel =>
      right
      refine ⟨_, rfl, ⟨Nat.le_refl i, hget, rfl, hpick, fun k g hik hk _ => ?_, ?_⟩⟩
      · exact absurd (Nat.lt_of_le_of_lt hik hk) (Nat.lt_irrefl i)
      · simp only [selectedParam, RetryParam.selectGroup]
        split <;> rfl

/-- The two outcomes of a selection among the auto groups. -/
theorem selectAutoGroup_cases (s : Settings) (ranking : List String) (health : Availability)
    (p : RetryParam) :
    ((selectAutoGroup s ranking health p).1.selected = none ∧
        Emptied health ranking p p.startGroupIndex p.startGroupIndex ranking.length) ∨
      ∃ sel, (selectAutoGroup s ranking health p).1.selected = some sel ∧
        Found s.retryTimes health ranking p p.startGroupIndex p.startGroupIndex sel
          (selectAutoGroup s ranking health p).2 :=
  selectFrom_cases (Nat.le_refl _) p ⟨p.ctx.autoGroupIndex, by simp⟩

end Scan

variable {σ ℓ : Type} {cfg : Config} {a : Accounts σ ℓ} {info : RelayInfo} {r : Round}
  {st st' : RelayState σ} {exit : Option Exit}

section Passes

/-- What finding the channel of a pass can do. -/
inductive Selects (s : Settings) (r : Round) (st : RelayState σ) :
    RelayState σ → Option Exit → Prop where
  | context (first : st.channelMeta = false) : Selects s r st st none
  | refused (c : Circuits) (err : NewAPIError) (later : st.channelMeta = true) :
      Selects s r st { st with circuits := c } (some (.failed err))
  | nothing (c : Circuits) (turn : Turn) (p : RetryParam) (err : NewAPIError)
      (later : st.channelMeta = true)
      (selection : cacheGetRandomSatisfiedChannel s c r.selectedAt r.health r.lookupErr
        st.retryParam = .ok (turn, p))
      (nothing : turn.selected = none) :
      Selects s r st { st with circuits := c, retryParam := p, turns := st.turns ++ [turn] }
        (some (.noChannel err))
  | channel (c : Circuits) (turn : Turn) (p : RetryParam) (sel : Selected)
      (exit : Option Exit) (later : st.channelMeta = true)
      (selection : cacheGetRandomSatisfiedChannel s c r.selectedAt r.health r.lookupErr
        st.retryParam = .ok (turn, p))
      (selected : turn.selected = some sel)
      (refused : exit = none ∨ ∃ err, exit = some (.failed err)) :
      Selects s r st { st with circuits := c, retryParam := p, turns := st.turns ++ [turn] } exit

theorem getChannel_selects (cfg : Config) (r : Round) (st : RelayState σ) :
    Selects cfg.routing r st (getChannel cfg r st).1 (getChannel cfg r st).2 := by
  unfold getChannel
  split
  next hmeta => exact .context hmeta
  next hmeta =>
    have later : st.channelMeta = true := by simpa using hmeta
    simp only
    split
    next err herr => exact .refused _ _ later
    next turn p hok =>
      split
      next hnone => exact .nothing _ turn p _ later hok hnone
      next sel hsome =>
        refine .channel _ turn p sel _ later hok hsome ?_
        cases r.setup with
        | none => exact .inl rfl
        | some err => exact .inr ⟨err, rfl⟩

/-- What an attempt leaves of the state and of the loop. -/
structure Attempted (cfg : Config) (st st' : RelayState σ) (exit : Option Exit) : Prop where
  turns : st'.turns = st.turns
  channelMeta : st'.channelMeta = true
  used : st'.usedChannels = st.usedChannels ∨ st'.usedChannels = st.usedChannels + 1
  param : st'.retryParam = st.retryParam ∨ exit = none
  goes_on : exit = none → st'.usedChannels = st.usedChannels + 1 ∧
    (st.retryParam.retry : Int) < cfg.routing.retryTimes ∧
    st'.retryParam = st.retryParam.increaseRetry
  not_empty : ∀ err, exit ≠ some (.noChannel err)
  not_over : exit ≠ some .exhausted

theorem shouldRetry_left {err : NewAPIError} {left : Int}
    (h : shouldRetry cfg r err left = true) : 0 < left := by
  unfold shouldRetry at h
  split at h
  next => cases h
  next =>
    split at h
    next => cases h
    next hpos => omega

theorem preConsumeRound_state (a : Accounts σ ℓ) (info : RelayInfo) (r : Round) (price : PriceData) (st : RelayState σ) :
    ∃ billing, (preConsumeRound a info r price st).2 = { st with billing } := by
  unfold preConsumeRound
  split
  next => exact ⟨st.billing, rfl⟩
  next => exact ⟨_, rfl⟩

variable (st) in
/-- The handler of a pass whose channel is in use. -/
theorem handle_attempted (cfg : Config) (a : Accounts σ ℓ) (info : RelayInfo) (r : Round)
    (hmeta : st.channelMeta = true) :
    (handle cfg a info r st).1.turns = st.turns ∧
      (handle cfg a info r st).1.channelMeta = true ∧
      (handle cfg a info r st).1.usedChannels = st.usedChannels ∧
      ((handle cfg a info r st).2 = none → (st.retryParam.retry : Int) < cfg.routing.retryTimes ∧
        (handle cfg a info r st).1.retryParam = st.retryParam.increaseRetry) ∧
      ((handle cfg a info r st).1.retryParam = st.retryParam ∨ (handle cfg a info r st).2 = none) ∧
      (∀ err, (handle cfg a info r st).2 ≠ some (.noChannel err)) ∧
      (handle cfg a info r st).2 ≠ some .exhausted := by
  unfold handle
  cases r.answer with
  | ok actualQuota => simp [hmeta]
  | error err =>
    simp only [handleFailure]
    split
    next hretry =>
      have hleft := shouldRetry_left hretry
      refine ⟨rfl, hmeta, rfl, fun _ => ⟨?_, rfl⟩, .inr rfl, by simp, by simp⟩
      omega
    next => simp [hmeta]

theorem attempt_attempted (cfg : Config) (a : Accounts σ ℓ) (info : RelayInfo) (r : Round)
    (st : RelayState σ) :
    Attempted cfg st (attempt cfg a info r st).1 (attempt cfg a info r st).2 := by
  unfold attempt
  dsimp only
  split
  next err hprice => exact ⟨rfl, rfl, .inl rfl, .inl rfl, nofun, nofun, nofun⟩
  next price hprice =>
    split
    next err hbody => exact ⟨rfl, rfl, .inr rfl, .inl rfl, nofun, nofun, nofun⟩
    next hbody =>
      obtain ⟨billing, hstate⟩ := preConsumeRound_state a info r price
        { st with channelMeta := true, usedChannels := st.usedChannels + 1 }
      split
      next err st₁ hpre =>
        rw [hpre] at hstate
        subst hstate
        exact ⟨rfl, rfl, .inr rfl, .inl rfl, nofun, nofun, nofun⟩
      next st₁ hpre =>
        rw [hpre] at hstate
        subst hstate
        obtain ⟨hturns, hmeta, hused, hgoes, hparam, hempty, hover⟩ :=
          handle_attempted
            { st with channelMeta := true, usedChannels := st.usedChannels + 1, billing }
            cfg a info r rfl
        exact ⟨hturns, hmeta, .inr hused, hparam, fun h => ⟨hused, hgoes h⟩, hempty, hover⟩

/-- A pass: the channel is found, and then, where the loop was not left, attempted. -/
theorem relayRound_cases (cfg : Config) (a : Accounts σ ℓ) (info : RelayInfo) (r : Round)
    (st : RelayState σ) :
    (∃ e, (relayRound cfg a info r st).2 = some e ∧
        Selects cfg.routing r st (relayRound cfg a info r st).1 (some e)) ∨
      ∃ st₁, Selects cfg.routing r st st₁ none ∧
        Attempted cfg st₁ (relayRound cfg a info r st).1 (relayRound cfg a info r st).2 := by
  have hselects := getChannel_selects cfg r st
  unfold relayRound
  split
  next st₁ e hget =>
    rw [hget] at hselects
    exact .inl ⟨e, rfl, hselects⟩
  next st₁ hget =>
    rw [hget] at hselects
    exact .inr ⟨st₁, hselects, attempt_attempted cfg a info r st₁⟩

end Passes

section Slots

/-- The tries that a group has. -/
def slotWidth (s : Settings) : Nat := (s.retryTimes + 1).toNat

/-- The tries of a request, one after the other. -/
def slots (s : Settings) (p : RetryParam) : Nat :=
  if p.tokenGroup = autoGroupName then (getUserAutoGroup s).length * slotWidth s else slotWidth s

/-- The first try that is left. -/
def slot (s : Settings) (p : RetryParam) : Nat :=
  if p.tokenGroup = autoGroupName then p.startGroupIndex * slotWidth s + p.retry else p.retry

def slotOf (s : Settings) (sel : Selected) : Nat :=
  sel.position * slotWidth s + sel.priorityRetry

variable {s : Settings} {c : Circuits} {now : Int} {health : Availability}
  {lookupErr : Option String} {p p' : RetryParam} {turn : Turn} {sel : Selected}

/-- A selection takes a try that is left, and leaves the tries after it. -/
structure TakesSlot (s : Settings) (p p' : RetryParam) (sel : Selected) : Prop where
  left : slot s p ≤ slotOf s sel
  exists_slot : slotOf s sel < slots s p
  next : (p'.retry : Int) < s.retryTimes → slotOf s sel < slot s p'.increaseRetry
  bounded : (p'.retry : Int) < s.retryTimes → slot s p'.increaseRetry ≤ slots s p
  tokenGroup : p'.tokenGroup = p.tokenGroup

theorem increaseRetry_tokenGroup (p : RetryParam) :
    p.increaseRetry.tokenGroup = p.tokenGroup := by
  unfold RetryParam.increaseRetry
  split <;> rfl

theorem increaseRetry_resetNextTry (p : RetryParam) : p.increaseRetry.resetNextTry = false := by
  unfold RetryParam.increaseRetry
  split
  next => rfl
  next h => simpa using h

/-- The parameter after a selection: a switch to the next group, or one more try in this one. -/
theorem selectedParam_cases (hreset : p.resetNextTry = false) (R : Int) (sel : Selected) :
    ((p.ctx.crossGroupRetry = true ∧ R ≤ sel.priorityRetry) ∧
        (selectedParam R sel p).retry = 0 ∧
        (selectedParam R sel p).increaseRetry.startGroupIndex = sel.position + 1 ∧
        (selectedParam R sel p).increaseRetry.retry = 0) ∨
      (¬ (p.ctx.crossGroupRetry = true ∧ R ≤ sel.priorityRetry) ∧
        (selectedParam R sel p).retry = sel.priorityRetry ∧
        (selectedParam R sel p).increaseRetry.startGroupIndex = sel.position ∧
        (selectedParam R sel p).increaseRetry.retry = sel.priorityRetry + 1) := by
  unfold selectedParam RetryParam.selectGroup
  split
  next h => exact .inl ⟨h, rfl, rfl, rfl⟩
  next h => exact .inr ⟨h, rfl, by simp [RetryParam.increaseRetry, hreset, RetryParam.startGroupIndex],
      by simp [RetryParam.increaseRetry, hreset]⟩

theorem selectedParam_tokenGroup (R : Int) (sel : Selected) (p : RetryParam) :
    (selectedParam R sel p).tokenGroup = p.tokenGroup := by
  unfold selectedParam RetryParam.selectGroup
  split <;> rfl

/-- A group found in the ranking takes a slot of the automatic groups. -/
theorem Found.takesSlot {ranking : List String}
    (h : Found s.retryTimes health ranking p p.startGroupIndex p.startGroupIndex sel p')
    (hauto : p.tokenGroup = autoGroupName) (hreset : p.resetNextTry = false)
    (hretry : (p.retry : Int) ≤ s.retryTimes)
    (hlen : ranking.length = (getUserAutoGroup s).length) : TakesSlot s p p' sel := by
  have hpos : sel.position + 1 ≤ (getUserAutoGroup s).length := by
    have := (List.getElem?_eq_some_iff.1 h.at_position).1
    omega
  have hwidth : (slotWidth s : Int) = s.retryTimes + 1 := by
    unfold slotWidth
    omega
  have hasked : sel.priorityRetry < slotWidth s := by
    rw [h.priority, askedFor]
    split <;> omega
  have hstart := h.from_start
  have hmul : (sel.position + 1) * slotWidth s ≤ (getUserAutoGroup s).length * slotWidth s :=
    Nat.mul_le_mul_right _ hpos
  have hsucc : (sel.position + 1) * slotWidth s = sel.position * slotWidth s + slotWidth s :=
    Nat.succ_mul ..
  have hleft : p.startGroupIndex * slotWidth s + p.retry ≤
      sel.position * slotWidth s + sel.priorityRetry := by
    rcases Nat.eq_or_lt_of_le hstart with heq | hlt
    · rw [h.priority, askedFor, if_pos heq.symm, heq]
    · have := Nat.mul_le_mul_right (slotWidth s) (Nat.succ_le_of_lt hlt)
      rw [Nat.succ_mul] at this
      omega
  have hgroup : p'.tokenGroup = p.tokenGroup := by
    rw [h.param, selectedParam_tokenGroup]
  have hslot' : slot s p'.increaseRetry =
      p'.increaseRetry.startGroupIndex * slotWidth s + p'.increaseRetry.retry := by
    rw [slot, if_pos]
    rw [increaseRetry_tokenGroup, hgroup, hauto]
  have hcases := selectedParam_cases hreset s.retryTimes sel
  rw [← h.param] at hcases
  constructor
  · simpa only [slot, if_pos hauto, slotOf] using hleft
  · simp only [slots, if_pos hauto, slotOf]
    omega
  · intro hnext
    rw [hslot', slotOf]
    rcases hcases with ⟨-, -, hindex, hretry'⟩ | ⟨-, -, hindex, hretry'⟩ <;>
      rw [hindex, hretry'] <;> omega
  · intro hnext
    rw [hslot']
    simp only [slots, if_pos hauto]
    rcases hcases with ⟨-, -, hindex, hretry'⟩ | ⟨-, hkept, hindex, hretry'⟩ <;>
      rw [hindex, hretry'] <;> omega
  · exact hgroup

/-- What a selection that finds a channel does to the slots. -/
theorem selection_takesSlot
    (h : cacheGetRandomSatisfiedChannel s c now health lookupErr p = .ok (turn, p'))
    (hsel : turn.selected = some sel) (hreset : p.resetNextTry = false)
    (hretry : (p.retry : Int) ≤ s.retryTimes) : TakesSlot s p p' sel := by
  unfold cacheGetRandomSatisfiedChannel at h
  split at h
  next hauto =>
    split at h
    next => cases h
    next =>
      have hres := Except.ok.inj h
      have hcases := selectAutoGroup_cases s (orderAutoGroups s p.modelName now c) health p
      rw [hres] at hcases
      rcases hcases with ⟨hnone, -⟩ | ⟨sel', hsome, hfound⟩
      · rw [hsel] at hnone
        cases hnone
      · obtain rfl : sel' = sel := Option.some.inj (hsome.symm.trans hsel)
        exact hfound.takesSlot hauto hreset hretry (orderAutoGroups_perm ..).length_eq
  next hauto =>
    split at h
    next => cases h
    next =>
      obtain ⟨rfl, rfl⟩ := Prod.mk.inj (Except.ok.inj h)
      obtain ⟨channel, hpick, rfl⟩ := Option.map_eq_some_iff.1 hsel
      have hinc : p.increaseRetry.retry = p.retry + 1 := by
        simp [RetryParam.increaseRetry, hreset]
      have hwidth : (slotWidth s : Int) = s.retryTimes + 1 := by
        unfold slotWidth
        omega
      constructor
      · simp [slot, if_neg hauto, slotOf]
      · simp only [slots, if_neg hauto, slotOf]
        omega
      · intro hnext
        simp only [slot, increaseRetry_tokenGroup, if_neg hauto, slotOf, hinc]
        omega
      · intro hnext
        simp only [slot, slots, increaseRetry_tokenGroup, if_neg hauto, hinc]
        omega
      · rfl

end Slots

/-- A pass after the first one takes at most one try, and the loop goes on from a later one. -/
structure Advances (s : Settings) (st st' : RelayState σ) (exit : Option Exit) : Prop where
  used : st'.usedChannels = st.usedChannels ∨
    st'.usedChannels = st.usedChannels + 1 ∧ slot s st.retryParam < slots s st.retryParam
  goes_on : exit = none → st'.usedChannels = st.usedChannels + 1 ∧
    slot s st.retryParam < slot s st'.retryParam ∧
    slot s st'.retryParam ≤ slots s st.retryParam ∧
    slots s st'.retryParam = slots s st.retryParam ∧
    st'.channelMeta = true ∧ st'.retryParam.resetNextTry = false

theorem slots_congr {s : Settings} {p p' : RetryParam} (h : p'.tokenGroup = p.tokenGroup) :
    slots s p' = slots s p := by
  unfold slots
  rw [h]

theorem relayRound_advances (a : Accounts σ ℓ) (info : RelayInfo) (r : Round)
    (hmeta : st.channelMeta = true)
    (hreset : st.retryParam.resetNextTry = false)
    (hretry : (st.retryParam.retry : Int) ≤ cfg.routing.retryTimes) :
    Advances cfg.routing st (relayRound cfg a info r st).1 (relayRound cfg a info r st).2 := by
  rcases relayRound_cases cfg a info r st with ⟨e, he, hselects⟩ | ⟨st₁, hselects, hattempt⟩
  · rw [he]
    generalize (relayRound cfg a info r st).1 = st' at hselects ⊢
    refine ⟨.inl ?_, nofun⟩
    cases hselects <;> rfl
  · generalize relayRound cfg a info r st = result at hattempt ⊢
    cases hselects with
    | context first => simp [first] at hmeta
    | channel c turn p sel exit later selection selected =>
      have htakes := selection_takesSlot selection selected hreset hretry
      have hslot : slot cfg.routing st.retryParam < slots cfg.routing st.retryParam :=
        Nat.lt_of_le_of_lt htakes.left htakes.exists_slot
      constructor
      · rcases hattempt.used with h | h
        · exact .inl h
        · exact .inr ⟨h, hslot⟩
      · intro hexit
        obtain ⟨hused, hlt, hparam⟩ := hattempt.goes_on hexit
        have hgroup : result.1.retryParam.tokenGroup = st.retryParam.tokenGroup := by
          rw [hparam, increaseRetry_tokenGroup, htakes.tokenGroup]
        refine ⟨hused, ?_, ?_, slots_congr hgroup, hattempt.channelMeta, ?_⟩
        · rw [hparam]
          exact Nat.lt_of_le_of_lt htakes.left (htakes.next hlt)
        · rw [hparam]
          exact htakes.bounded hlt
        · rw [hparam]
          exact increaseRetry_resetNextTry _

/-- From a pass after the first one, the loop ends when the tries are used up. -/
theorem relayLoop_later (a : Accounts σ ℓ) (info : RelayInfo) (rounds : List Round) (hmeta : st.channelMeta = true)
    (hreset : st.retryParam.resetNextTry = false)
    (hused : st.usedChannels ≤ slot cfg.routing st.retryParam) :
    (relayLoop cfg a info rounds st).1.usedChannels ≤
        max st.usedChannels (slots cfg.routing st.retryParam) ∧
      (slots cfg.routing st.retryParam - slot cfg.routing st.retryParam < rounds.length →
        (relayLoop cfg a info rounds st).2.isSome = true) := by
  induction rounds generalizing st with
  | nil => exact ⟨Nat.le_max_left .., fun h => absurd h (Nat.not_lt_zero _)⟩
  | cons r rounds ih =>
    unfold relayLoop
    split
    next hretry =>
      have hadv := relayRound_advances a info r hmeta hreset hretry
      generalize relayRound cfg a info r st = result at hadv
      obtain ⟨st', exit⟩ := result
      have hcount : st'.usedChannels ≤ max st.usedChannels (slots cfg.routing st.retryParam) := by
        rcases hadv.used with h | ⟨h, hlt⟩ <;> dsimp only at h <;> omega
      cases exit with
      | some e => exact ⟨hcount, fun _ => rfl⟩
      | none =>
        obtain ⟨h, hlt, hle, heq, hmeta', hreset'⟩ := hadv.goes_on rfl
        dsimp only at h hlt hle heq hmeta' hreset' ⊢
        obtain ⟨hb, hend⟩ := ih hmeta' hreset' (by omega)
        rw [heq] at hb hend
        constructor
        · omega
        · intro hlen
          apply hend
          rw [List.length_cons] at hlen
          omega
    next => exact ⟨Nat.le_max_left .., fun _ => rfl⟩

/-- What the first pass leaves, when the loop goes on. -/
theorem relayRound_first (cfg : Config) (a : Accounts σ ℓ) (info : RelayInfo) (r : Round)
    (hmeta : st.channelMeta = false)
    (hreset : st.retryParam.resetNextTry = false)
    (h : (relayRound cfg a info r st).2 = none) :
    (relayRound cfg a info r st).1.turns = st.turns ∧
      (relayRound cfg a info r st).1.channelMeta = true ∧
      (relayRound cfg a info r st).1.usedChannels = st.usedChannels + 1 ∧
      (st.retryParam.retry : Int) < cfg.routing.retryTimes ∧
      (relayRound cfg a info r st).1.retryParam =
        { st.retryParam with retry := st.retryParam.retry + 1 } := by
  rcases relayRound_cases cfg a info r st with ⟨e, he, -⟩ | ⟨st₁, hselects, hattempt⟩
  · rw [he] at h
    cases h
  · generalize relayRound cfg a info r st = result at hattempt h ⊢
    cases hselects with
    | context first =>
      obtain ⟨hused, hlt, hparam⟩ := hattempt.goes_on h
      refine ⟨hattempt.turns, hattempt.channelMeta, hused, hlt, ?_⟩
      rw [hparam, RetryParam.increaseRetry, if_neg (by simp [hreset])]
    | channel c turn p sel exit later => simp [hmeta] at later

/-- The loop of every request ends, whatever it meets. -/
theorem relayLoop_ends (cfg : Config) (a : Accounts σ ℓ) (info : RelayInfo) (rounds : List Round)
    (hmeta : st.channelMeta = false) (hreset : st.retryParam.resetNextTry = false)
    (hused : st.usedChannels = 0)
    (hlen : slots cfg.routing st.retryParam + 1 < rounds.length) :
    (relayLoop cfg a info rounds st).2.isSome = true := by
  cases rounds with
  | nil => simp at hlen
  | cons r rounds =>
    unfold relayLoop
    split
    next hretry =>
      have hfirst := relayRound_first cfg a info r hmeta hreset
      generalize relayRound cfg a info r st = result at hfirst
      obtain ⟨st', exit⟩ := result
      cases exit with
      | some e => rfl
      | none =>
        obtain ⟨-, hmeta', hused', hlt, hparam⟩ := hfirst rfl
        dsimp only at hmeta' hused' hparam ⊢
        have hslots : slots cfg.routing st'.retryParam = slots cfg.routing st.retryParam := by
          rw [hparam]
          rfl
        have hslot : 1 ≤ slot cfg.routing st'.retryParam := by
          rw [hparam]
          unfold slot
          split <;> dsimp only <;> omega
        refine (relayLoop_later a info rounds hmeta' (by rw [hparam]; exact hreset) (by omega)).2 ?_
        rw [List.length_cons] at hlen
        omega
    next => rfl

end CodeGo.Gateway.RelayRequest
