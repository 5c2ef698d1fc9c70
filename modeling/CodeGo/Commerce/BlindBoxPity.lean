import CodeGo.Commerce.BlindBoxRounds
import CodeGo.Lib.Streak

/-!
# The pity guarantee

The counter of a user is the number of low records at the end of their history, so a box is
guaranteed before as many low records as the threshold follow one another. Openings run one after
another here; what else happens between them leaves records and counters alone.
-/

namespace CodeGo.Commerce.BlindBox

open CodeGo.Lib CodeGo.Lib.Prog CodeGo.Lib.Lock

/-- The stores that openings lead to with these settings, whatever is drawn. -/
inductive History (setting : Setting) (s₀ : Store) : Store → Prop where
  | start : History setting s₀ s₀
  | openBlindBoxes {s : Store} (moment : Moment) (draws : Nat → Draw) (userID count : Int) :
    History setting s₀ s →
      History setting s₀ ((openBlindBoxes setting moment draws userID count).commit s).2
  | openBlindBoxOrderByTradeNo {s : Store} (moment : Moment) (draws : Nat → Draw)
    (tradeNo : String) : History setting s₀ s →
      History setting s₀ ((openBlindBoxOrderByTradeNoTx setting moment draws tradeNo).commit s).2
  | other {s s' : Store} : History setting s₀ s → s'.records = s.records →
      s'.pityStates = s.pityStates → History setting s₀ s'

def Store.recordsOf (s : Store) (userID : Int) : List BlindBoxOpenRecord :=
  s.records.filter (·.userID = userID)

section Opened

variable {setting : Setting} {moment : Moment} {draws : Nat → Draw} {userID : Int} {s s' : Store}

/-- Some boxes of the user are opened, by a transaction of its own. -/
def Opened (setting : Setting) (userID : Int) (s s' : Store) : Prop :=
  ∃ l R l' w, l.consecutiveLowRewards = (s.pityStates userID).getD 0 ∧
    Rounds setting userID l R l' ∧ Commits userID R l' w ∧ s' = w s

theorem commit_openBlindBoxesTx {count : Nat} {orderID : Option Int} :
    ((openBlindBoxesTx setting moment draws userID count orderID).commit s).2 = s ∨
      Opened setting userID s
        ((openBlindBoxesTx setting moment draws userID count orderID).commit s).2 := by
  unfold commit
  match hrun : (openBlindBoxesTx setting moment draws userID count orderID).run s with
  | (.error e, s') => exact .inl rfl
  | (.ok a, s') =>
    apply Or.inr
    refine wp_run (P := fun _ c c' => c = s → Opened setting userID s c') (w := id)
      (I := fun _ => True) (F := fun c => c = s) ?_ trivial rfl hrun rfl
    apply wp_mono wp_openBlindBoxesTx
    rintro _ w F' ⟨c₀, c₁, l, R, l', rfl, rfl, -, -, hcounter, hrounds, hcommits⟩ c _ _ rfl
    exact ⟨l, R, l', w, hcounter, hrounds, hcommits, rfl⟩

theorem commit_openBlindBoxes {count : Int} :
    ((openBlindBoxes setting moment draws userID count).commit s).2 = s ∨
      Opened setting userID s ((openBlindBoxes setting moment draws userID count).commit s).2 := by
  unfold openBlindBoxes
  split
  · exact .inl rfl
  · split
    · exact .inl rfl
    · exact commit_openBlindBoxesTx

theorem commit_openBlindBoxOrderByTradeNoTx {tradeNo : String} :
    ((openBlindBoxOrderByTradeNoTx setting moment draws tradeNo).commit s).2 = s ∨
      ∃ userID, Opened setting userID s
        ((openBlindBoxOrderByTradeNoTx setting moment draws tradeNo).commit s).2 := by
  unfold openBlindBoxOrderByTradeNoTx
  split
  · exact .inl rfl
  · -- the order that the first statement reads
    have hread : ∀ k : Option BlindBoxOrder → Flow (List BlindBoxOpenRecord),
        (read (·.orderOf tradeNo) >>= k).commit s = (k (s.orderOf tradeNo)).commit s :=
      fun _ => rfl
    rw [hread]
    cases s.orderOf tradeNo with
    | none => exact .inl rfl
    | some order =>
      dsimp only
      split
      · exact .inl rfl
      · split
        · exact .inl rfl
        · exact commit_openBlindBoxesTx.imp id fun h => ⟨order.userID, h⟩

end Opened

section Pity

variable {setting : Setting} {userID : Int}

/-- What the records of a user say about the counter. -/
structure Pity (setting : Setting) (userID : Int) (s : Store) : Prop where
  streaks : StreaksBelow (·.low setting) setting.pityThreshold.toNat (s.recordsOf userID)
  counter : s.pityStates userID = some (trailing (·.low setting) (s.recordsOf userID) : Int) ∨
    s.pityStates userID = none ∧ s.recordsOf userID = []

theorem Pity.getD {s : Store} (h : Pity setting userID s) :
    (s.pityStates userID).getD 0 = trailing (·.low setting) (s.recordsOf userID) := by
  rcases h.counter with h | ⟨hnone, hnil⟩
  · rw [h]
    rfl
  · rw [hnone, hnil]
    rfl

/-- One box: the counter follows, and the guarantee comes before the streak is too long. -/
theorem Round.streaks (hset : setting.Guaranteed) {l l' : Opening} {r : BlindBoxOpenRecord}
    (h : Round setting userID l l' r) {xs : List BlindBoxOpenRecord}
    (hcounter : l.consecutiveLowRewards = trailing (·.low setting) xs)
    (hxs : StreaksBelow (·.low setting) setting.pityThreshold.toNat xs) :
    l'.consecutiveLowRewards = trailing (·.low setting) (xs ++ [r]) ∧
      StreaksBelow (·.low setting) setting.pityThreshold.toNat (xs ++ [r]) := by
  have hthreshold := hset.threshold
  have hstep := h.counter
  have hpity := h.pity hset
  have htrailing := trailing_concat (p := (·.low setting)) xs r
  cases hlow : r.low setting with
  | true =>
    simp only [hlow, if_true] at hstep htrailing
    refine ⟨by omega, hxs.concat ?_⟩
    have hbelow : ¬ setting.pityThreshold ≤ l.consecutiveLowRewards + 1 := by
      intro hle
      rw [hpity hle] at hlow
      cases hlow
    omega
  | false =>
    simp only [hlow, Bool.false_eq_true, if_false] at hstep htrailing
    refine ⟨by omega, hxs.concat ?_⟩
    omega

theorem Rounds.streaks (hset : setting.Guaranteed) {l l' : Opening} {R : List BlindBoxOpenRecord}
    (h : Rounds setting userID l R l') {xs : List BlindBoxOpenRecord}
    (hcounter : l.consecutiveLowRewards = trailing (·.low setting) xs)
    (hxs : StreaksBelow (·.low setting) setting.pityThreshold.toNat xs) :
    l'.consecutiveLowRewards = trailing (·.low setting) (xs ++ R) ∧
      StreaksBelow (·.low setting) setting.pityThreshold.toNat (xs ++ R) := by
  induction h generalizing xs with
  | refl l =>
    rw [List.append_nil]
    exact ⟨hcounter, hxs⟩
  | @cons l l₁ l' r R hround _ ih =>
    obtain ⟨hcounter₁, hxs₁⟩ := hround.streaks hset hcounter hxs
    have hrest := ih hcounter₁ hxs₁
    rwa [List.append_assoc] at hrest

theorem Rounds.userID_eq {l l' : Opening} {R : List BlindBoxOpenRecord}
    (h : Rounds setting userID l R l') : ∀ r ∈ R, r.userID = userID := by
  induction h with
  | refl l => exact fun r hr => absurd hr List.not_mem_nil
  | cons hround _ ih =>
    intro r hr
    rcases List.mem_cons.1 hr with rfl | hr
    · exact hround.userID
    · exact ih r hr

/-- An opening keeps it, for the user who opens and for any other. -/
theorem Pity.opened (hset : setting.Guaranteed) {s s' : Store} (h : Pity setting userID s)
    {opener : Int} (ho : Opened setting opener s s') : Pity setting userID s' := by
  obtain ⟨l, R, l', w, hcounter, hrounds, hcommits, rfl⟩ := ho
  have hpity := congrFun (hcommits.pityStates s) userID
  have hrecords : (w s).recordsOf userID = s.recordsOf userID ++ R.filter (·.userID = userID) := by
    simp only [Store.recordsOf, hcommits.records, List.filter_append]
  by_cases hopener : opener = userID
  · subst hopener
    have hall : R.filter (·.userID = opener) = R :=
      List.filter_eq_self.2 fun r hr => by simpa using hrounds.userID_eq r hr
    rw [hall] at hrecords
    rw [Function.update_self] at hpity
    obtain ⟨hend, hstreaks⟩ := hrounds.streaks hset (hcounter.trans h.getD) h.streaks
    constructor
    · rw [hrecords]
      exact hstreaks
    · rw [hrecords, hpity, hend]
      exact .inl rfl
  · have hnone : R.filter (·.userID = userID) = [] := by
      apply List.filter_eq_nil_iff.2
      intro r hr
      simp [hrounds.userID_eq r hr, hopener]
    rw [hnone, List.append_nil] at hrecords
    rw [Function.update_of_ne (Ne.symm hopener)] at hpity
    constructor
    · rw [hrecords]
      exact h.streaks
    · rw [hrecords, hpity]
      exact h.counter

theorem History.pity (hset : setting.Guaranteed) {s₀ s : Store} (h₀ : Pity setting userID s₀)
    (hs : History setting s₀ s) : Pity setting userID s := by
  induction hs with
  | start => exact h₀
  | openBlindBoxes moment draws opener count _ ih =>
    rcases commit_openBlindBoxes with hsame | hopened
    · rw [hsame]
      exact ih
    · exact ih.opened hset hopened
  | openBlindBoxOrderByTradeNo moment draws tradeNo _ ih =>
    rcases commit_openBlindBoxOrderByTradeNoTx with hsame | ⟨opener, hopened⟩
    · rw [hsame]
      exact ih
    · exact ih.opened hset hopened
  | @other s s' _ hrecords hpity ih =>
    have hof : s'.recordsOf userID = s.recordsOf userID := by
      simp only [Store.recordsOf, hrecords]
    constructor
    · rw [hof]
      exact ih.streaks
    · rw [hof, hpity]
      exact ih.counter

end Pity

/-- Of as many consecutive records of a user as the threshold one is not low, and the counter is
the number of low records at the end. -/
theorem pity_guarantee (setting : Setting) (hthreshold : 1 ≤ setting.pityThreshold)
    (hlow : 0 < setting.lowRewardThresholdUSD)
    (hguarantee : setting.lowRewardThresholdUSD ≤ setting.pityGuaranteeUSD) (userID : Int)
    {s₀ s : Store} (hrecords : s₀.recordsOf userID = []) (hpity : s₀.pityStates userID = none)
    (hs : History setting s₀ s) :
    (∀ records, records <:+: s.recordsOf userID → (records.length : Int) = setting.pityThreshold →
      ∃ r ∈ records, r.low setting = false) ∧
    (s.pityStates userID = some (trailing (·.low setting) (s.recordsOf userID) : Int) ∨
      s.pityStates userID = none ∧ s.recordsOf userID = []) := by
  have hset : setting.Guaranteed := ⟨hthreshold, hlow, hguarantee⟩
  have h₀ : Pity setting userID s₀ := by
    refine ⟨?_, .inr ⟨hpity, hrecords⟩⟩
    rw [hrecords]
    exact streaksBelow_nil (by omega)
  have h := hs.pity hset h₀
  refine ⟨fun records hinfix hlength => ?_, h.counter⟩
  exact h.streaks.exists_not hinfix (by omega)

/-- One tier of low rewards, and a guarantee at the third box. -/
def smallTier : Setting where
  enabled := true
  dailyOpenLimit := 100
  firstPurchaseGuaranteeUSD := 0
  pityThreshold := 3
  pityGuaranteeUSD := 10
  lowRewardThresholdUSD := 5
  subscriptionPrizeProbability := 0
  subscriptionPlanTitle := ""
  tiers := [{ name := "small", minUSD := 1, maxUSD := 1, probability := 1 }]
  quotaPerUnit := 500000

def paidOrder (quantity : Int) : BlindBoxOrder where
  id := 1
  userID := 1
  quantity := quantity
  money := 5
  tradeNo := "BB1"
  status := .success

def fourBoxes : Store where
  orders := ⟨[paidOrder 4], List.pairwise_singleton _ _⟩

def noon : Moment := ⟨50, 0, 100⟩

theorem pity_guarantee_sample :
    let s := ((openBlindBoxes smallTier noon (fun _ => {}) 1 4).commit fourBoxes).2
    (s.recordsOf 1).map (·.low smallTier) = [true, true, false, true] ∧
      (∀ records, records <:+: s.recordsOf 1 → (records.length : Int) = 3 →
        ∃ r ∈ records, r.low smallTier = false) ∧
      (s.pityStates 1 = some (trailing (·.low smallTier) (s.recordsOf 1) : Int) ∨
        s.pityStates 1 = none ∧ s.recordsOf 1 = []) := by
  refine ⟨by decide +kernel, ?_⟩
  exact pity_guarantee smallTier (by decide) (by decide) (by decide) 1 rfl rfl
    (.openBlindBoxes noon (fun _ => {}) 1 4 .start)

end CodeGo.Commerce.BlindBox
