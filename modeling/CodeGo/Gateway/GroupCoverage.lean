import CodeGo.Gateway.RelayRounds
import Mathlib.Data.List.Chain

/-!
# Retries over the automatic groups

The position in the ranking is kept between two selections, the ranking is not. As long as each
new ranking agrees with the position, every group gets its turn once.
-/

namespace CodeGo.Gateway.RelayRequest

open Lib Billing.Session Types.ApiError AutoGroups

section Lists

variable {α : Type} {P : List α → α → Prop}

/-- Each entry of the list is related by `P` to the entries before it. -/
def EachAfter (P : List α → α → Prop) (l : List α) : Prop :=
  ∀ earlier x later, l = earlier ++ x :: later → P earlier x

theorem eachAfter_snoc {l : List α} {x : α} (h : EachAfter P l) (hx : P l x) :
    EachAfter P (l ++ [x]) := by
  intro earlier y later heq
  rcases List.eq_nil_or_concat later with rfl | ⟨later', z, rfl⟩
  · obtain ⟨rfl, hy⟩ := List.append_inj' heq rfl
    obtain rfl : x = y := by simpa using hy
    exact hx
  · have heq' : l ++ [x] = (earlier ++ y :: later') ++ [z] := by simpa using heq
    exact h earlier y later' (List.append_inj' heq' rfl).1

theorem eachAfter_singleton {x : α} (hx : P [] x) : EachAfter P [x] :=
  eachAfter_snoc (l := []) (fun earlier y later h => by simp at h) hx

end Lists

/-- The re-ranking moves no group over the position that the request has reached, and leaves the
group that it is in at its place as long as it has tries there. -/
def KeepsPlace (t t' : Turn) : Prop :=
  (∀ group ∈ t.ranking.take t'.start, group ∈ t'.ranking.take t'.start) ∧
    (0 < t'.retry → t'.ranking[t'.start]? = t.ranking[t'.start]?)

instance (t t' : Turn) : Decidable (KeepsPlace t t') := by
  unfold KeepsPlace
  infer_instance

def attempts (turns : List Turn) : List Selected := turns.filterMap Turn.selected

/-- A channel of the group was attempted, or the group had none at some selection. -/
def Covered (turns : List Turn) (group : String) : Prop :=
  (∃ sel ∈ attempts turns, sel.group = group) ∨ ∃ t ∈ turns, t.health.channels group = []

/-- The groups ranked before the selected one have had their turn. -/
def SkipsNone (earlier : List Turn) (t : Turn) : Prop :=
  ∀ sel, t.selected = some sel → ∀ group ∈ t.ranking.take sel.position,
    Covered (earlier ++ [t]) group

/-- An attempt is in a new group, or a later try in the group of the attempt before. -/
def RestartsNone (earlier : List Selected) (sel : Selected) : Prop :=
  (∀ e ∈ earlier, e.group ≠ sel.group) ∨
    ∃ e, earlier.getLast? = some e ∧ e.group = sel.group ∧ e.priorityRetry < sel.priorityRetry

/-- The retries of a request are few and get to every group. -/
structure CoversGroups {σ : Type} (s : Settings) (st : RelayState σ) (exit : Option Exit) : Prop where
  bounded : st.usedChannels ≤ (getUserAutoGroup s).length * slotWidth s
  exhaustive : ∀ err, exit = some (.noChannel err) → ∀ group ∈ getUserAutoGroup s,
    Covered st.turns group
  skips_none : EachAfter SkipsNone st.turns
  restarts_none : EachAfter RestartsNone (attempts st.turns)

section Step

variable {s : Settings} {turns : List Turn} {t t' : Turn} {sel sel' : Selected}
  {p p' : RetryParam} {health : Availability} {ranking : List String} {group : String} {j : Nat}

theorem attempts_snoc (turns : List Turn) (t : Turn) :
    attempts (turns ++ [t]) = attempts turns ++ t.selected.toList := by
  rw [attempts, attempts, List.filterMap_append]
  cases h : t.selected <;> simp [h]

theorem Covered.mono (h : Covered turns group) (t : Turn) : Covered (turns ++ [t]) group := by
  rcases h with ⟨e, he, hg⟩ | ⟨u, hu, hg⟩
  · refine .inl ⟨e, ?_, hg⟩
    rw [attempts_snoc]
    exact List.mem_append_left _ he
  · exact .inr ⟨u, List.mem_append_left _ hu, hg⟩

theorem covered_of_empty (h : t.health.channels group = []) : Covered (turns ++ [t]) group :=
  .inr ⟨t, by simp, h⟩

/-- Where the request stands after it selected `sel` in its last turn `t`. -/
structure Standing (s : Settings) (turns : List Turn) (t : Turn) (sel : Selected) : Prop where
  last : turns.getLast? = some t
  selected : t.selected = some sel
  at_position : t.ranking[sel.position]? = some sel.group
  /-- after an affinity hit, only the group of the channel is known -/
  ranking : t.ranking.Perm (getUserAutoGroup s) ∨ sel.position = 0 ∧ t.ranking = [sel.group]
  ahead : ∀ group ∈ t.ranking.take sel.position, Covered turns group
  tried : ∀ e ∈ attempts turns, e.group ∈ t.ranking.take (sel.position + 1)
  skips_none : EachAfter SkipsNone turns
  restarts_none : EachAfter RestartsNone (attempts turns)

/-- Where the next selection starts from: in the next group, or with one more try in this one. -/
def Resumes (sel : Selected) (p : RetryParam) : Prop :=
  p.startGroupIndex = sel.position + 1 ∧ p.retry = 0 ∨
    p.startGroupIndex = sel.position ∧ p.retry = sel.priorityRetry + 1

/-- A turn from the place where `p` stands. -/
structure TurnFrom (s : Settings) (p : RetryParam) (health : Availability) (t' : Turn) : Prop where
  ranking : t'.ranking.Perm (getUserAutoGroup s)
  start : t'.start = p.startGroupIndex
  retry : t'.retry = p.retry
  health : t'.health = health

theorem Standing.mem_attempts (h : Standing s turns t sel) : sel ∈ attempts turns :=
  List.mem_filterMap.2 ⟨t, List.mem_of_getLast? h.last, h.selected⟩

theorem Standing.last_attempt (h : Standing s turns t sel) :
    (attempts turns).getLast? = some sel := by
  obtain ⟨init, hinit⟩ := List.getLast?_eq_some_iff.1 h.last
  rw [hinit, attempts_snoc, h.selected]
  simp

/-- The groups in front of the next selection are the same as before. -/
theorem Standing.take_subset (h : Standing s turns t sel) (hres : Resumes sel p)
    (hturn : TurnFrom s p health t') (hkeep : KeepsPlace t t')
    (hnodup : (getUserAutoGroup s).Nodup) :
    t'.ranking.take p.startGroupIndex ⊆ t.ranking.take p.startGroupIndex := by
  have hsub : t.ranking.take p.startGroupIndex ⊆ t'.ranking.take p.startGroupIndex := by
    intro g hg
    have := hkeep.1 g
    rw [hturn.start] at this
    exact this hg
  have hnd : t.ranking.Nodup := by
    rcases h.ranking with hperm | ⟨-, hrank⟩
    · exact hperm.nodup_iff.2 hnodup
    · rw [hrank]
      exact List.nodup_singleton _
  have hlen : (t'.ranking.take p.startGroupIndex).length ≤
      (t.ranking.take p.startGroupIndex).length := by
    rw [List.length_take, List.length_take]
    rcases h.ranking with hperm | ⟨hpos, hrank⟩
    · rw [hturn.ranking.length_eq, hperm.length_eq]
    · rw [hrank, List.length_singleton]
      rcases hres with ⟨hindex, -⟩ | ⟨hindex, -⟩ <;> omega
  have hperm := (List.subperm_of_subset (hnd.sublist (List.take_sublist ..)) hsub).perm_of_length_le
    hlen
  exact hperm.symm.subset

/-- The groups that had an attempt are in front of the place that the request resumes at, or the
group that it has more tries in. -/
theorem Standing.tried_from (h : Standing s turns t sel) (hres : Resumes sel p)
    (hturn : TurnFrom s p health t') (hkeep : KeepsPlace t t') {e : Selected}
    (he : e ∈ attempts turns) :
    e.group ∈ t'.ranking.take p.startGroupIndex ∨
      0 < p.retry ∧ e.group = sel.group ∧ t'.ranking[p.startGroupIndex]? = some sel.group := by
  have hmem := h.tried e he
  have hfront : ∀ g ∈ t.ranking.take p.startGroupIndex, g ∈ t'.ranking.take p.startGroupIndex := by
    intro g hg
    have := hkeep.1 g
    rw [hturn.start] at this
    exact this hg
  rcases hres with ⟨hindex, -⟩ | ⟨hindex, hretry⟩
  · rw [← hindex] at hmem
    exact .inl (hfront _ hmem)
  · rw [List.take_add_one, h.at_position, List.mem_append] at hmem
    rcases hmem with hmem | hmem
    · rw [← hindex] at hmem
      exact .inl (hfront _ hmem)
    · have hgroup : e.group = sel.group := by simpa using hmem
      have hat := hkeep.2 (by rw [hturn.retry]; omega)
      rw [hturn.start, hindex, h.at_position] at hat
      refine .inr ⟨by omega, hgroup, ?_⟩
      rw [hindex]
      exact hat

/-- The groups that the scan has passed have had their turn. -/
theorem Standing.covered_ahead (h : Standing s turns t sel) (hres : Resumes sel p)
    (hturn : TurnFrom s p health t') (hkeep : KeepsPlace t t')
    (hnodup : (getUserAutoGroup s).Nodup)
    (hemptied : Emptied health t'.ranking p p.startGroupIndex p.startGroupIndex j) :
    ∀ group ∈ t'.ranking.take j, Covered (turns ++ [t']) group := by
  intro group hgroup
  obtain ⟨k, hk, hat⟩ := List.mem_take_iff_getElem.1 hgroup
  have hget : t'.ranking[k]? = some group := by
    rw [List.getElem?_eq_some_iff]
    exact ⟨_, hat⟩
  by_cases hfront : k < p.startGroupIndex
  · have hmem : group ∈ t.ranking.take p.startGroupIndex := by
      apply h.take_subset hres hturn hkeep hnodup
      refine List.mem_take_iff_getElem.2 ⟨k, ?_, hat⟩
      omega
    apply Covered.mono
    rcases hres with ⟨hindex, -⟩ | ⟨hindex, -⟩
    · rw [hindex, List.take_add_one, h.at_position, List.mem_append] at hmem
      rcases hmem with hmem | hmem
      · exact h.ahead group hmem
      · refine .inl ⟨sel, h.mem_attempts, ?_⟩
        simpa [eq_comm] using hmem
    · rw [hindex] at hmem
      exact h.ahead group hmem
  · have hpick := hemptied k group (by omega) (by omega) hget
    by_cases hmore : k = p.startGroupIndex ∧ 0 < p.retry
    · have hat' := hkeep.2 (by rw [hturn.retry]; exact hmore.2)
      rw [hturn.start, ← hmore.1, hget] at hat'
      rcases hres with ⟨-, hretry⟩ | ⟨hindex, -⟩
      · omega
      · rw [hmore.1, hindex, h.at_position] at hat'
        apply Covered.mono
        exact .inl ⟨sel, h.mem_attempts, (Option.some.inj hat').symm⟩
    · have hzero : askedFor p p.startGroupIndex k = 0 := by
        unfold askedFor
        split
        next heq => exact Nat.eq_zero_of_not_pos fun hpos => hmore ⟨heq, hpos⟩
        next => rfl
      rw [hzero] at hpick
      apply covered_of_empty
      rw [hturn.health]
      exact Availability.none_at_first hpick

/-- The next selection is in a group that had no turn yet, or one more try in the last group. -/
theorem Standing.restartsNone (h : Standing s turns t sel) (hres : Resumes sel p)
    (hturn : TurnFrom s p health t') (hkeep : KeepsPlace t t')
    (hnodup : (getUserAutoGroup s).Nodup) {R : Int}
    (hfound : Found R health t'.ranking p p.startGroupIndex p.startGroupIndex sel' p') :
    RestartsNone (attempts turns) sel' := by
  have hnd : t'.ranking.Nodup := hturn.ranking.nodup_iff.2 hnodup
  have hlater : ∀ k, k < sel'.position → t'.ranking[k]? ≠ some sel'.group := by
    intro k hk hat
    have := (List.nodup_iff_getElem?_ne_getElem?.1 hnd) k sel'.position hk
      (List.getElem?_eq_some_iff.1 hfound.at_position).1
    exact this (hat.trans hfound.at_position.symm)
  have hfront : ∀ g ∈ t'.ranking.take p.startGroupIndex, g ≠ sel'.group := by
    rintro g hg rfl
    obtain ⟨k, hk, hat⟩ := List.mem_take_iff_getElem.1 hg
    refine hlater k ?_ (List.getElem?_eq_some_iff.2 ⟨_, hat⟩)
    have := hfound.from_start
    omega
  by_cases hsame : sel'.position = p.startGroupIndex ∧ 0 < p.retry
  · right
    rcases hres with ⟨-, hretry⟩ | ⟨hindex, hretry⟩
    · omega
    · have hat := hkeep.2 (by rw [hturn.retry]; exact hsame.2)
      rw [hturn.start, ← hsame.1, hfound.at_position, hsame.1, hindex, h.at_position] at hat
      refine ⟨sel, h.last_attempt, (Option.some.inj hat).symm, ?_⟩
      rw [hfound.priority, askedFor, if_pos hsame.1]
      omega
  · left
    intro e he
    rcases h.tried_from hres hturn hkeep he with hmem | ⟨hpos, hgroup, hat⟩
    · exact hfront _ hmem
    · rw [hgroup]
      rintro heq
      rw [heq] at hat
      have hne : sel'.position ≠ p.startGroupIndex := fun h => hsame ⟨h, hpos⟩
      have := hfound.from_start
      exact hlater _ (by omega) hat

/-- A selection that finds a channel. -/
theorem Standing.next (h : Standing s turns t sel) (hres : Resumes sel p)
    (hturn : TurnFrom s p health t') (hkeep : KeepsPlace t t')
    (hnodup : (getUserAutoGroup s).Nodup) (hsel : t'.selected = some sel') {R : Int}
    (hfound : Found R health t'.ranking p p.startGroupIndex p.startGroupIndex sel' p') :
    Standing s (turns ++ [t']) t' sel' where
  last := by simp
  selected := hsel
  at_position := hfound.at_position
  ranking := .inl hturn.ranking
  ahead := h.covered_ahead hres hturn hkeep hnodup hfound.emptied
  tried := by
    intro e he
    rw [attempts_snoc, hsel, Option.toList_some, List.mem_append, List.mem_singleton] at he
    rcases he with he | rfl
    · rcases h.tried_from hres hturn hkeep he with hmem | ⟨-, hgroup, hat⟩
      · refine List.take_subset_take_left _ ?_ hmem
        have := hfound.from_start
        omega
      · rw [hgroup]
        refine List.take_subset_take_left _ (Nat.succ_le_succ hfound.from_start) ?_
        rw [List.take_add_one, hat]
        simp
    · rw [List.take_add_one, hfound.at_position]
      simp
  skips_none := by
    refine eachAfter_snoc h.skips_none fun e he => ?_
    obtain rfl : sel' = e := Option.some.inj (hsel.symm.trans he)
    exact h.covered_ahead hres hturn hkeep hnodup hfound.emptied
  restarts_none := by
    rw [attempts_snoc, hsel]
    exact eachAfter_snoc h.restarts_none (h.restartsNone hres hturn hkeep hnodup hfound)

/-- A selection that finds no channel has passed every group. -/
theorem Standing.exhausted (h : Standing s turns t sel) (hres : Resumes sel p)
    (hturn : TurnFrom s p health t') (hkeep : KeepsPlace t t')
    (hnodup : (getUserAutoGroup s).Nodup) (hsel : t'.selected = none)
    (hemptied : Emptied health t'.ranking p p.startGroupIndex p.startGroupIndex
      t'.ranking.length) :
    (∀ group ∈ getUserAutoGroup s, Covered (turns ++ [t']) group) ∧
      EachAfter SkipsNone (turns ++ [t']) ∧ EachAfter RestartsNone (attempts (turns ++ [t'])) := by
  refine ⟨fun group hgroup => ?_, ?_, ?_⟩
  · apply h.covered_ahead hres hturn hkeep hnodup hemptied
    rw [List.take_length]
    exact hturn.ranking.mem_iff.2 hgroup
  · refine eachAfter_snoc h.skips_none fun e he => ?_
    rw [hsel] at he
    cases he
  · rw [attempts_snoc, hsel, Option.toList_none, List.append_nil]
    exact h.restarts_none

end Step

section Run

variable {σ ℓ : Type} {cfg : Config} {a : Accounts σ ℓ} {info : RelayInfo} {r : Round}
  {st st' : RelayState σ} {exit : Option Exit} {s : Settings} {turns : List Turn} {t : Turn}
  {sel : Selected} {p : RetryParam}

theorem selectedParam_resumes {p : RetryParam} (hreset : p.resetNextTry = false) (R : Int)
    (sel : Selected) : Resumes sel (selectedParam R sel p).increaseRetry := by
  rcases selectedParam_cases hreset R sel with ⟨-, -, hindex, hretry⟩ | ⟨-, -, hindex, hretry⟩
  · exact .inl ⟨hindex, hretry⟩
  · exact .inr ⟨hindex, hretry⟩

/-- A selection is a turn from where the request stands. -/
theorem selection_turn {c : Circuits} {now : Int} {health : Availability}
    {lookupErr : Option String} {t' : Turn} {p' : RetryParam}
    (hauto : p.tokenGroup = autoGroupName)
    (h : cacheGetRandomSatisfiedChannel s c now health lookupErr p = .ok (t', p')) :
    TurnFrom s p health t' ∧
      (t'.selected = none ∧ Emptied health t'.ranking p p.startGroupIndex p.startGroupIndex
          t'.ranking.length ∨
        ∃ sel', t'.selected = some sel' ∧
          Found s.retryTimes health t'.ranking p p.startGroupIndex p.startGroupIndex sel' p') := by
  unfold cacheGetRandomSatisfiedChannel at h
  rw [if_pos hauto] at h
  split at h
  next => cases h
  next =>
    have hcases := selectAutoGroup_cases s (orderAutoGroups s p.modelName now c) health p
    have hres := Except.ok.inj h
    rw [hres] at hcases
    have ht' : t' = (selectAutoGroup s (orderAutoGroups s p.modelName now c) health p).1 := by
      rw [hres]
    subst ht'
    exact ⟨⟨orderAutoGroups_perm .., rfl, rfl, rfl⟩, hcases⟩

/-- A pass of the loop only adds to the turns. -/
theorem relayRound_turns (cfg : Config) (a : Accounts σ ℓ) (info : RelayInfo) (r : Round)
    (st : RelayState σ) : st.turns <+: (relayRound cfg a info r st).1.turns := by
  have hselects : ∀ {st' exit}, Selects cfg.routing r st st' exit → st.turns <+: st'.turns := by
    intro st' exit h
    cases h with
    | context => exact List.prefix_rfl
    | refused => exact List.prefix_rfl
    | nothing => exact List.prefix_append ..
    | channel => exact List.prefix_append ..
  rcases relayRound_cases cfg a info r st with ⟨e, -, h⟩ | ⟨st₁, h, hattempt⟩
  · exact hselects h
  · rw [hattempt.turns]
    exact hselects h

theorem relayLoop_turns (cfg : Config) (a : Accounts σ ℓ) (info : RelayInfo) (rounds : List Round)
    (st : RelayState σ) : st.turns <+: (relayLoop cfg a info rounds st).1.turns := by
  induction rounds generalizing st with
  | nil => exact List.prefix_rfl
  | cons r rounds ih =>
    have hround := relayRound_turns cfg a info r st
    unfold relayLoop
    split
    next =>
      generalize relayRound cfg a info r st = result at hround
      obtain ⟨st', exit⟩ := result
      cases exit with
      | some e => exact hround
      | none => exact hround.trans (ih st')
    next => exact List.prefix_rfl

theorem keepsPlace_of_chain {t' : Turn} {rest : List Turn} (hlast : turns.getLast? = some t)
    (h : (turns ++ [t'] ++ rest).IsChain KeepsPlace) : KeepsPlace t t' := by
  have hchain := (List.isChain_append.1 h).1
  exact (List.isChain_append.1 hchain).2.2 t hlast t' rfl

/-- What the loop keeps at the head of each pass after the first. -/
structure Retrying (s : Settings) (st : RelayState σ) (t : Turn) (sel : Selected) : Prop where
  standing : Standing s st.turns t sel
  resumes : Resumes sel st.retryParam
  auto : st.retryParam.tokenGroup = autoGroupName
  reset : st.retryParam.resetNextTry = false
  later : st.channelMeta = true

/-- The parts of the coverage that the turns alone decide. -/
structure TurnsCover (s : Settings) (turns : List Turn) (exit : Option Exit) : Prop where
  exhaustive : ∀ err, exit = some (.noChannel err) → ∀ group ∈ getUserAutoGroup s,
    Covered turns group
  skips_none : EachAfter SkipsNone turns
  restarts_none : EachAfter RestartsNone (attempts turns)

theorem Standing.covers (h : Standing s turns t sel) (hexit : ∀ err, exit ≠ some (.noChannel err)) :
    TurnsCover s turns exit :=
  ⟨fun err herr => absurd herr (hexit err), h.skips_none, h.restarts_none⟩

/-- One pass after the first: the loop ends with every group covered, or goes on from a place that
the turns agree with. -/
theorem Retrying.pass (a : Accounts σ ℓ) (info : RelayInfo) (r : Round)
    (h : Retrying cfg.routing st t sel)
    (hnodup : (getUserAutoGroup cfg.routing).Nodup) (rest : List Turn)
    (hchain : ((relayRound cfg a info r st).1.turns ++ rest).IsChain KeepsPlace) :
    ((relayRound cfg a info r st).2 = none →
        ∃ t' sel', Retrying cfg.routing (relayRound cfg a info r st).1 t' sel') ∧
      TurnsCover cfg.routing (relayRound cfg a info r st).1.turns (relayRound cfg a info r st).2 := by
  rcases relayRound_cases cfg a info r st with ⟨e, he, hselects⟩ | ⟨st₁, hselects, hattempt⟩
  · rw [he]
    refine ⟨nofun, ?_⟩
    generalize relayRound cfg a info r st = result at hselects hchain ⊢
    obtain ⟨st', exit'⟩ := result
    dsimp only at hselects hchain ⊢
    generalize some e = exit at hselects ⊢
    cases hselects with
    | context first =>
      have := h.later
      simp [first] at this
    | refused => exact h.standing.covers nofun
    | nothing c t' p err later selection nothing =>
      obtain ⟨hturn, hcases⟩ := selection_turn h.auto selection
      have hkeep := keepsPlace_of_chain h.standing.last hchain
      rcases hcases with ⟨hnone, hemptied⟩ | ⟨sel', hsome, -⟩
      · obtain ⟨hall, hskips, hrestarts⟩ :=
          h.standing.exhausted h.resumes hturn hkeep hnodup hnone hemptied
        exact ⟨fun _ _ => hall, hskips, hrestarts⟩
      · rw [nothing] at hsome
        cases hsome
    | channel c t' p sel' exit later selection selected refused =>
      obtain ⟨hturn, hcases⟩ := selection_turn h.auto selection
      have hkeep := keepsPlace_of_chain h.standing.last hchain
      rcases hcases with ⟨hnone, -⟩ | ⟨sel'', hsome, hfound⟩
      · rw [selected] at hnone
        cases hnone
      · refine (h.standing.next h.resumes hturn hkeep hnodup hsome hfound).covers ?_
        rintro err rfl
        rcases refused with h | ⟨err', h⟩ <;> cases h
  · generalize relayRound cfg a info r st = result at hattempt hchain ⊢
    obtain ⟨st', exit'⟩ := result
    dsimp only at hattempt hchain ⊢
    rw [hattempt.turns] at hchain ⊢
    cases hselects with
    | context first =>
      have := h.later
      simp [first] at this
    | channel c t' p sel' exit later selection selected refused =>
      obtain ⟨hturn, hcases⟩ := selection_turn h.auto selection
      have hkeep := keepsPlace_of_chain h.standing.last hchain
      rcases hcases with ⟨hnone, -⟩ | ⟨sel'', hsome, hfound⟩
      · rw [selected] at hnone
        cases hnone
      · have hnext := h.standing.next h.resumes hturn hkeep hnodup hsome hfound
        refine ⟨fun hexit => ⟨t', sel'', ?_⟩, hnext.covers hattempt.not_empty⟩
        obtain ⟨-, hlt, hparam⟩ := hattempt.goes_on hexit
        dsimp only at hparam
        constructor
        · rw [hattempt.turns]
          exact hnext
        · rw [hparam, hfound.param]
          exact selectedParam_resumes h.reset ..
        · rw [hparam, increaseRetry_tokenGroup, hfound.param, selectedParam_tokenGroup]
          exact h.auto
        · rw [hparam]
          exact increaseRetry_resetNextTry _
        · exact hattempt.channelMeta

/-- The loop after the first pass. -/
theorem Retrying.loop (rounds : List Round) (h : Retrying cfg.routing st t sel)
    (hnodup : (getUserAutoGroup cfg.routing).Nodup)
    (hchain : (relayLoop cfg a info rounds st).1.turns.IsChain KeepsPlace) :
    TurnsCover cfg.routing (relayLoop cfg a info rounds st).1.turns
      (relayLoop cfg a info rounds st).2 := by
  induction rounds generalizing st t sel with
  | nil => exact h.standing.covers (by simp [relayLoop])
  | cons r rounds ih =>
    have hpass := h.pass a info r hnodup
    unfold relayLoop at hchain ⊢
    split at hchain
    next hretry =>
      rw [if_pos hretry]
      generalize relayRound cfg a info r st = result at hpass hchain
      obtain ⟨st', exit⟩ := result
      cases exit with
      | some e => exact (hpass [] (by simpa using hchain)).2
      | none =>
        dsimp only at hchain hpass ⊢
        obtain ⟨rest, hrest⟩ := relayLoop_turns cfg a info rounds st'
        obtain ⟨t', sel', hnext⟩ := (hpass rest (by rw [hrest]; exact hchain)).1 rfl
        exact ih hnext hchain
    next hretry =>
      rw [if_neg hretry]
      exact h.standing.covers (by simp)

end Run

section Claim

variable {σ ℓ : Type} {cfg : Config} {a : Accounts σ ℓ} {info : RelayInfo} {r : Round}
  {st : RelayState σ} {s : Settings} {modelName : String} {crossGroupRetry : Bool}
  {circuits : Circuits} {billing : RelayBilling σ} {first : First}

/-- The state that the middleware leaves, with its selection as the only turn. -/
structure Distributed (s : Settings) (st : RelayState σ) (t : Turn) (sel : Selected) : Prop where
  turns : st.turns = [t]
  standing : Standing s [t] t sel
  auto : st.retryParam.tokenGroup = autoGroupName
  param : st.retryParam.retry = 0 ∧ st.retryParam.resetNextTry = false
  first : st.channelMeta = false ∧ st.usedChannels = 0
  priority : sel.priorityRetry = 0
  index : 0 < s.retryTimes → st.retryParam.startGroupIndex = sel.position
  permitted : 0 < (getUserAutoGroup s).length

/-- The first selection has no turns before it. -/
theorem standing_first {t : Turn} {sel : Selected} (hsel : t.selected = some sel)
    (hat : t.ranking[sel.position]? = some sel.group)
    (hranking : t.ranking.Perm (getUserAutoGroup s) ∨ sel.position = 0 ∧ t.ranking = [sel.group])
    (hahead : ∀ group ∈ t.ranking.take sel.position, Covered [t] group) : Standing s [t] t sel where
  last := rfl
  selected := hsel
  at_position := hat
  ranking := hranking
  ahead := hahead
  tried := by
    intro e he
    have : e = sel := by simpa [attempts, hsel] using he
    rw [this, List.take_add_one, hat]
    simp
  skips_none := by
    apply eachAfter_singleton
    intro e he
    obtain rfl : sel = e := Option.some.inj (hsel.symm.trans he)
    exact hahead
  restarts_none := by
    have : attempts [t] = [sel] := by simp [attempts, hsel]
    rw [this]
    exact eachAfter_singleton (.inl nofun)

theorem distribute_distributed
    (h : distribute s modelName crossGroupRetry circuits billing first = some st) :
    ∃ t sel, Distributed s st t sel := by
  cases first with
  | selected now health =>
    rw [distribute] at h
    split at h
    next => cases h
    next t p hselection =>
      obtain ⟨sel, hsel, rfl⟩ := Option.map_eq_some_iff.1 h
      obtain ⟨hturn, hcases⟩ := selection_turn rfl hselection
      rcases hcases with ⟨hnone, -⟩ | ⟨sel', hsome, hfound⟩
      · rw [hsel] at hnone
        cases hnone
      · obtain rfl : sel = sel' := Option.some.inj (hsel.symm.trans hsome)
        have hprio : sel.priorityRetry = 0 := by
          rw [hfound.priority, askedFor]
          split <;> rfl
        have hlt := (List.getElem?_eq_some_iff.1 hfound.at_position).1
        refine ⟨t, sel, rfl, standing_first hsel hfound.at_position (.inl hturn.ranking) ?_, rfl,
          ⟨rfl, rfl⟩, ⟨rfl, rfl⟩, hprio, fun hpos => ?_, ?_⟩
        · intro group hgroup
          obtain ⟨k, hk, hat⟩ := List.mem_take_iff_getElem.1 hgroup
          have hpick := hfound.emptied k group (Nat.zero_le _) (by omega)
            (List.getElem?_eq_some_iff.2 ⟨_, hat⟩)
          have hzero : askedFor { ctx := { crossGroupRetry }, tokenGroup := autoGroupName, modelName }
              0 k = 0 := by
            unfold askedFor
            split <;> rfl
          rw [show RetryParam.startGroupIndex _ = 0 from rfl, hzero, ← hturn.health] at hpick
          exact .inr ⟨t, by simp, Availability.none_at_first hpick⟩
        · have hstay : ¬ (crossGroupRetry = true ∧ s.retryTimes ≤ (sel.priorityRetry : Int)) := by
            rw [hprio]
            intro h
            omega
          rw [hfound.param, selectedParam, RetryParam.selectGroup, if_neg hstay]
          rfl
        · rw [← hturn.ranking.length_eq]
          omega
  | affinity group channel health =>
    rw [distribute] at h
    split at h
    next hmem =>
      cases h
      refine ⟨_, _, rfl, standing_first rfl rfl (.inr ⟨rfl, rfl⟩) (by simp), rfl, ⟨rfl, rfl⟩,
        ⟨rfl, rfl⟩, rfl, fun _ => rfl, List.length_pos_of_mem hmem⟩
    next => cases h

/-- The state after the first pass. -/
theorem Distributed.retrying {t : Turn} {sel : Selected} (h : Distributed cfg.routing st t sel)
    (hround : (relayRound cfg a info r st).2 = none) :
    Retrying cfg.routing (relayRound cfg a info r st).1 t sel ∧
      (relayRound cfg a info r st).1.usedChannels = 1 ∧
      1 ≤ slot cfg.routing (relayRound cfg a info r st).1.retryParam ∧
      slots cfg.routing (relayRound cfg a info r st).1.retryParam =
        (getUserAutoGroup cfg.routing).length * slotWidth cfg.routing := by
  obtain ⟨hturns, hmeta, hused, hlt, hparam⟩ := relayRound_first cfg a info r h.first.1 h.param.2 hround
  rw [h.param.1] at hlt
  have hindex := h.index hlt
  refine ⟨⟨?_, ?_, ?_, ?_, hmeta⟩, ?_, ?_, ?_⟩
  · rw [hturns, h.turns]
    exact h.standing
  · right
    rw [hparam, h.priority]
    exact ⟨hindex, by rw [h.param.1]⟩
  · rw [hparam]
    exact h.auto
  · rw [hparam]
    exact h.param.2
  · rw [hused, h.first.2]
  · rw [hparam, slot]
    split <;> dsimp only <;> omega
  · rw [hparam, slots, if_pos h.auto]

/-- What a first pass that ends the loop leaves. -/
theorem Distributed.ended {t : Turn} {sel : Selected} (h : Distributed cfg.routing st t sel)
    {e : Exit} (hround : (relayRound cfg a info r st).2 = some e) :
    (relayRound cfg a info r st).1.usedChannels ≤ 1 ∧
      TurnsCover cfg.routing (relayRound cfg a info r st).1.turns (some e) := by
  rcases relayRound_cases cfg a info r st with ⟨e', he, hselects⟩ | ⟨st₁, hselects, hattempt⟩
  · generalize some e' = exit at he hselects
    generalize relayRound cfg a info r st = result at hround he hselects
    obtain ⟨st', exit'⟩ := result
    have hfirst := h.first.1
    cases hselects with
    | context =>
      rw [he] at hround
      cases hround
    | refused c err later => simp [hfirst] at later
    | nothing c t' p err later => simp [hfirst] at later
    | channel c t' p sel' exit later => simp [hfirst] at later
  · rw [hround] at hattempt
    have hfirst := h.first
    cases hselects with
    | context =>
      constructor
      · rcases hattempt.used with hu | hu <;> omega
      · rw [hattempt.turns, h.turns]
        exact h.standing.covers hattempt.not_empty
    | channel c t' p sel' exit later => simp [hfirst.1] at later

theorem coversGroups_of_turns {exit : Option Exit}
    (hused : st.usedChannels ≤ (getUserAutoGroup s).length * slotWidth s)
    (h : TurnsCover s st.turns exit) : CoversGroups s st exit :=
  ⟨hused, h.exhaustive, h.skips_none, h.restarts_none⟩

/-- The loop of a request from the state that the middleware leaves. -/
theorem Distributed.loop (a : Accounts σ ℓ) (info : RelayInfo) {t : Turn} {sel : Selected}
    (h : Distributed cfg.routing st t sel) (rounds : List Round) :
    (relayLoop cfg a info rounds st).1.usedChannels ≤
        (getUserAutoGroup cfg.routing).length * slotWidth cfg.routing ∧
      ((getUserAutoGroup cfg.routing).length * slotWidth cfg.routing < rounds.length →
        (relayLoop cfg a info rounds st).2.isSome = true) ∧
      ((getUserAutoGroup cfg.routing).Nodup →
        (relayLoop cfg a info rounds st).1.turns.IsChain KeepsPlace →
        TurnsCover cfg.routing (relayLoop cfg a info rounds st).1.turns
          (relayLoop cfg a info rounds st).2) := by
  have hstart : ∀ exit : Option Exit, (∀ err, exit ≠ some (.noChannel err)) →
      TurnsCover cfg.routing st.turns exit := by
    intro exit hexit
    rw [h.turns]
    exact h.standing.covers hexit
  have hzero : st.usedChannels ≤ (getUserAutoGroup cfg.routing).length * slotWidth cfg.routing := by
    rw [h.first.2]
    exact Nat.zero_le _
  cases rounds with
  | nil => exact ⟨hzero, fun hlt => absurd hlt (Nat.not_lt_zero _), fun _ _ => hstart _ (by simp [relayLoop])⟩
  | cons r rounds =>
    unfold relayLoop
    split
    next hretry =>
      have hpos : (0 : Int) ≤ cfg.routing.retryTimes := by
        have := h.param.1
        omega
      have htries : 1 ≤ (getUserAutoGroup cfg.routing).length * slotWidth cfg.routing := by
        have hwidth : 0 < slotWidth cfg.routing := by
          unfold slotWidth
          omega
        exact Nat.mul_pos h.permitted hwidth
      have hended := @Distributed.ended _ _ _ a info r _ _ _ h
      have hnext := @Distributed.retrying _ _ _ a info r _ _ _ h
      generalize relayRound cfg a info r st = result at hended hnext
      obtain ⟨st', exit⟩ := result
      cases exit with
      | some e =>
        obtain ⟨hused, hcovers⟩ := hended rfl
        exact ⟨hused.trans htries, fun _ => rfl, fun _ _ => hcovers⟩
      | none =>
        obtain ⟨hretrying, hused, hslot, hslots⟩ := hnext rfl
        dsimp only at hretrying hused hslot hslots ⊢
        obtain ⟨hbound, hends⟩ := relayLoop_later a info rounds hretrying.later
          hretrying.reset (hused.trans_le hslot)
        rw [hslots] at hbound hends
        refine ⟨by omega, fun hlen => hends ?_, fun hnodup hchain =>
          hretrying.loop rounds hnodup hchain⟩
        rw [List.length_cons] at hlen
        omega
    next => exact ⟨hzero, fun _ => rfl, fun _ _ => hstart _ (by simp)⟩

/-- From the state that the middleware leaves, the retries of a request end after at most as many
attempts as the permitted groups have tries. When no group is permitted twice and the re-rankings
between the selections keep the place of the request, they get to every group with a channel
before they give up, skip none and restart none. -/
theorem retries_cover_groups (cfg : Config) (a : Accounts σ ℓ) (info : RelayInfo)
    (rounds : List Round)
    (hst : distribute cfg.routing modelName true circuits billing first = some st) :
    let result := relayLoop cfg a info rounds st
    let tries := (getUserAutoGroup cfg.routing).length * (cfg.routing.retryTimes + 1).toNat
    result.1.usedChannels ≤ tries ∧ (tries < rounds.length → result.2.isSome = true) ∧
      ((getUserAutoGroup cfg.routing).Nodup → result.1.turns.IsChain KeepsPlace →
        CoversGroups cfg.routing result.1 result.2) := by
  obtain ⟨t, sel, h⟩ := distribute_distributed hst
  obtain ⟨hbound, hends, hcovers⟩ := h.loop a info rounds
  exact ⟨hbound, hends, fun hnodup hchain =>
    coversGroups_of_turns hbound (hcovers hnodup hchain)⟩

end Claim

instance (turns : List Turn) (group : String) : Decidable (Covered turns group) := by
  unfold Covered
  infer_instance

/-- Two groups, of which `low` is the cheaper one. -/
def sampleSettings (retryTimes : Int) : Settings where
  autoGroups := ["low", "high"]
  usable _ := true
  groupRatio group := if group = "low" then 4 / 5 else 6 / 5
  retryTimes

def sampleConfig (retryTimes : Int) : Config where
  routing := sampleSettings retryTimes

/-- Accounts that accept every call. -/
def freeAccounts : Accounts Unit Unit where
  getUserQuota _ := .ret 0
  newFunding _ _ := .ret ()
  funding _ := ⟨fun _ => .ret (), fun _ => .ret (), .ret ()⟩
  preConsumed _ := 0
  reserveAdditional _ := .ret ()
  preConsumeTokenQuota _ := .ret ()
  adjustTokenQuota _ := .ret ()
  adjustWalletQuota _ := .ret ()
  postSubscriptionUsageDelta _ := .ret ()

def sampleInfo : RelayInfo where
  tokenUnlimited := true
  isPlayground := false
  forcePreConsume := false
  billingPreference := "wallet_only"
  fundingSourceOrder := []
  tokenQuota := 0
  trustQuota := 5000000

/-- Each group has a channel all the time. -/
def sampleHealth : Availability :=
  .first fun group => if group = "low" then [⟨1, 5⟩] else [⟨2, 5⟩]

/-- An attempt that fails upstream, with no other request around. -/
def failingRound : Round where
  others := id
  selectedAt := 0
  health := sampleHealth
  lookupErr := none
  setup := none
  price := .ok ⟨true, 0⟩
  body := none
  claude := false
  answer := .error (newErrorWithStatusCode (some "upstream failed") "bad_response_status_code" 500)
  skipRetryAfterAffinity := false
  specificChannel := false
  responseBodyDelivered := false
  modelUnavailableWithAlternative := false
  failedAt := 0

def sampleStart (retryTimes : Int) : Option (RelayState Unit) :=
  distribute (sampleSettings retryTimes) "gpt-test" true (fun _ _ => none) { accounts := () }
    (.selected 0 sampleHealth)

theorem sampleStart_two : (sampleStart 2).isSome = true := by decide +kernel
theorem sampleStart_one : (sampleStart 1).isSome = true := by decide +kernel

/-- What the loop of a request leaves whose attempts all fail. -/
def sampleRun (retryTimes : Int) (h : (sampleStart retryTimes).isSome = true) :
    RelayState Unit × Option Exit :=
  relayLoop (sampleConfig retryTimes) freeAccounts sampleInfo (List.replicate 7 failingRound)
    ((sampleStart retryTimes).get h)

def gaveUp : Option Exit → Bool
  | some (.noChannel _) => true
  | _ => false

theorem gaveUp_iff {exit : Option Exit} :
    gaveUp exit = true ↔ ∃ err, exit = some (.noChannel err) := by
  rcases exit with - | (- | - | - | -) <;> simp [gaveUp]

/-- Three failures in `low` rank it behind `high`. The request goes on with the second group of
the ranking, which is `low` again, and gives up without an attempt in `high`. -/
theorem retries_skip_a_group : ¬ ∀ (cfg : Config) (rounds : List Round) (first : First)
    (st : RelayState Unit),
    distribute cfg.routing "gpt-test" true (fun _ _ => none) { accounts := () } first = some st →
    CoversGroups cfg.routing (relayLoop cfg freeAccounts sampleInfo rounds st).1
      (relayLoop cfg freeAccounts sampleInfo rounds st).2 := by
  intro h
  have hcovers := h (sampleConfig 2) (List.replicate 7 failingRound) (.selected 0 sampleHealth) _
    (Option.some_get sampleStart_two).symm
  have hgaveUp : gaveUp (sampleRun 2 sampleStart_two).2 = true := by decide +kernel
  obtain ⟨err, herr⟩ := gaveUp_iff.1 hgaveUp
  have hhigh : Covered (sampleRun 2 sampleStart_two).1.turns "high" :=
    hcovers.exhaustive err herr "high" (by decide)
  revert hhigh
  decide +kernel

/-- With one retry a group fails twice, which keeps its rank: both groups have their turns. -/
theorem retries_cover_groups_sample :
    (sampleRun 1 sampleStart_one).1.usedChannels ≤ 4 ∧
      (sampleRun 1 sampleStart_one).2.isSome = true ∧
      CoversGroups (sampleSettings 1) (sampleRun 1 sampleStart_one).1
        (sampleRun 1 sampleStart_one).2 := by
  obtain ⟨hbound, hends, hcovers⟩ := retries_cover_groups (sampleConfig 1) freeAccounts sampleInfo
    (List.replicate 7 failingRound) (show distribute (sampleSettings 1) "gpt-test" true
      (fun _ _ => none) { accounts := () } (.selected 0 sampleHealth) = some _ from
        (Option.some_get sampleStart_one).symm)
  refine ⟨?_, hends (by decide), hcovers (by decide) ?_⟩
  · exact hbound
  · show (sampleRun 1 sampleStart_one).1.turns.IsChain KeepsPlace
    decide +kernel

end CodeGo.Gateway.RelayRequest
