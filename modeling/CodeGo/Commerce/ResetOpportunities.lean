import CodeGo.Commerce.OrderRules
import Mathlib.Data.List.Nodup

/-!
# The accounts of reset opportunities

An account against its ledger, over all interleavings of awards and uses. Both read the account,
count in memory and save all of it: the account reconciles as long as nobody commits a change of
an account that a transaction in flight has read.
-/

namespace CodeGo.Commerce.Orders

open CodeGo.Lib CodeGo.Lib.Prog CodeGo.Lib.Lock

/-- The rows of a user of one kind. -/
def Store.changes (s : Store) (userID : Int) (changeType : ChangeType) : Nat :=
  s.ledger.countP fun row => row.userID = userID ∧ row.changeType = changeType

def balance (userID : Int) (rows : List SubscriptionResetOpportunityLedger) : Int :=
  ((rows.filter (·.userID = userID)).map (·.delta)).sum

/-- The law of the accounts. A user without an account has no rows. -/
structure Reconciled (s : Store) : Prop where
  available : ∀ u, ((s.accounts u).getD {}).availableTotal =
    ((s.accounts u).getD {}).earnedTotal - ((s.accounts u).getD {}).usedTotal
  nonneg : ∀ u, 0 ≤ ((s.accounts u).getD {}).availableTotal
  earned : ∀ u, ((s.accounts u).getD {}).earnedTotal = s.changes u .earn
  used : ∀ u, ((s.accounts u).getD {}).usedTotal = s.changes u .use
  balanceAfter : ∀ pre row post, s.ledger = pre ++ row :: post →
    row.balanceAfter = balance row.userID (pre ++ [row])
  monthly : ∀ u month,
    s.ledger.countP (fun row => row.userID = u ∧ row.changeType = .use ∧ row.usedMonth = month) ≤ 1

/-- What a row of the ledger says about itself. -/
def SubscriptionResetOpportunityLedger.Proper (row : SubscriptionResetOpportunityLedger) : Prop :=
  match row.changeType with
  | .earn => row.delta = 1
  | .use => row.delta = -1 ∧ row.eventKey = useEventKey row.userID row.usedMonth

/-- The law, with what keeps it. -/
structure Audited (s : Store) : Prop where
  earned : ∀ u, ((s.accounts u).getD {}).earnedTotal = s.changes u .earn
  used : ∀ u, ((s.accounts u).getD {}).usedTotal = s.changes u .use
  available : ∀ u, ((s.accounts u).getD {}).availableTotal = balance u s.ledger
  nonneg : ∀ u, 0 ≤ ((s.accounts u).getD {}).availableTotal
  proper : ∀ row ∈ s.ledger, row.Proper
  balanceAfter : ∀ pre row post, s.ledger = pre ++ row :: post →
    row.balanceAfter = balance row.userID (pre ++ [row])
  keys : (s.ledger.map (·.eventKey)).Nodup

theorem balance_concat (u : Int) (rows : List SubscriptionResetOpportunityLedger)
    (row : SubscriptionResetOpportunityLedger) :
    balance u (rows ++ [row]) = balance u rows + if row.userID = u then row.delta else 0 := by
  unfold balance
  by_cases h : row.userID = u <;> simp [List.filter_append, h]

theorem balance_eq {s : Store} {rows : List SubscriptionResetOpportunityLedger}
    (h : ∀ row ∈ rows, row.Proper) (u : Int) (hs : s.ledger = rows) :
    balance u rows = s.changes u .earn - s.changes u .use := by
  unfold Store.changes
  rw [hs]
  clear hs
  induction rows with
  | nil => rfl
  | cons row rows ih =>
    have hrest := ih fun r hr => h r (List.mem_cons_of_mem row hr)
    have hrow := h row List.mem_cons_self
    unfold balance at hrest ⊢
    unfold SubscriptionResetOpportunityLedger.Proper at hrow
    by_cases hu : row.userID = u
    · cases hchange : row.changeType with
      | earn =>
        rw [hchange] at hrow
        simp [hu, hchange, hrow] at hrest ⊢
        omega
      | use =>
        rw [hchange] at hrow
        simp [hu, hchange, hrow.1] at hrest ⊢
        omega
    · simp [hu] at hrest ⊢
      omega

theorem countP_le_one {α β : Type} [DecidableEq β] {key : α → β} {k : β} {p : α → Bool}
    {xs : List α} (hkeys : (xs.map key).Nodup) (hp : ∀ x ∈ xs, p x = true → key x = k) :
    xs.countP p ≤ 1 := by
  calc xs.countP p ≤ xs.countP (fun x => decide (key x = k)) :=
        List.countP_mono_left fun x hx hpx => by simpa using hp x hx hpx
    _ = (xs.map key).count k := by
        rw [List.count, List.countP_map]
        congr 1
    _ ≤ 1 := List.nodup_iff_count_le_one.1 hkeys k

theorem Audited.reconciled {s : Store} (h : Audited s) : Reconciled s where
  available u := by
    rw [h.available, h.earned, h.used]
    exact balance_eq h.proper u rfl
  nonneg := h.nonneg
  earned := h.earned
  used := h.used
  balanceAfter := h.balanceAfter
  monthly u month := by
    -- the rows of one user and month have one event key
    refine countP_le_one (k := useEventKey u month) h.keys fun row hrow hp => ?_
    simp only [decide_eq_true_eq] at hp
    obtain ⟨hu, hchange, hmonth⟩ := hp
    have hproper := h.proper row hrow
    unfold SubscriptionResetOpportunityLedger.Proper at hproper
    rw [hchange] at hproper
    rw [hproper.2, hu, hmonth]

section Entries

variable {userID : Int} {a a' : SubscriptionResetOpportunityAccount}
  {row : SubscriptionResetOpportunityLedger}

/-- A row of the ledger with the account that goes with it. -/
structure Entry (userID : Int) (a a' : SubscriptionResetOpportunityAccount)
    (row : SubscriptionResetOpportunityLedger) : Prop where
  userID : row.userID = userID
  proper : row.Proper
  earned : a'.earnedTotal = a.earnedTotal + if row.changeType = .earn then 1 else 0
  used : a'.usedTotal = a.usedTotal + if row.changeType = .use then 1 else 0
  available : a'.availableTotal = a.availableTotal + row.delta
  balanceAfter : row.balanceAfter = a'.availableTotal
  nonneg : 0 ≤ a.availableTotal → 0 ≤ a'.availableTotal

theorem split_concat {α : Type} {xs pre post : List α} {x y : α}
    (h : xs ++ [x] = pre ++ y :: post) :
    (pre = xs ∧ y = x) ∨ ∃ post', xs = pre ++ y :: post' := by
  rcases List.eq_nil_or_concat post with rfl | ⟨post', z, rfl⟩
  · obtain ⟨hxs, hx⟩ := List.append_inj' h rfl
    cases hx
    exact .inl ⟨hxs.symm, rfl⟩
  · have hends : xs ++ [x] = (pre ++ y :: post') ++ [z] := by simpa using h
    exact .inr ⟨post', (List.append_inj' hends rfl).1⟩

/-- One more row, of a new event, for an account that is still as it was read. -/
theorem Audited.entry {c c' : Store} (h : Audited c) (he : Entry userID a a' row)
    (hread : (c.accounts userID).getD {} = a)
    (hnew : c.ledger.any (·.eventKey = row.eventKey) = false)
    (haccounts : c'.accounts = Function.update c.accounts userID (some a'))
    (hledger : c'.ledger = c.ledger ++ [row]) : Audited c' := by
  have haccount : ∀ u, (c'.accounts u).getD {} =
      if u = userID then a' else (c.accounts u).getD {} := by
    intro u
    rw [haccounts]
    by_cases hu : u = userID
    · subst hu
      simp
    · simp [hu]
  have hchanges : ∀ u k, (c'.changes u k : Int) =
      c.changes u k + if u = userID ∧ row.changeType = k then 1 else 0 := by
    intro u k
    unfold Store.changes
    rw [hledger, List.countP_append]
    by_cases hu : u = userID <;> by_cases hk : row.changeType = k <;>
      simp [he.userID, hu, hk, Ne.symm, eq_comm]
  constructor
  case earned =>
    intro u
    have hbefore := h.earned u
    have hcount := hchanges u .earn
    rw [haccount]
    by_cases hu : u = userID
    · subst hu
      have := he.earned
      rw [hread] at hbefore
      simp only [if_true, true_and] at hcount ⊢
      omega
    · simp only [hu, if_false, false_and] at hcount ⊢
      omega
  case used =>
    intro u
    have hbefore := h.used u
    have hcount := hchanges u .use
    rw [haccount]
    by_cases hu : u = userID
    · subst hu
      have := he.used
      rw [hread] at hbefore
      simp only [if_true, true_and] at hcount ⊢
      omega
    · simp only [hu, if_false, false_and] at hcount ⊢
      omega
  case available =>
    intro u
    have hbefore := h.available u
    rw [haccount, hledger, balance_concat, he.userID]
    by_cases hu : u = userID
    · subst hu
      have := he.available
      rw [hread] at hbefore
      simp only [if_true]
      omega
    · simp only [hu, Ne.symm hu, if_false]
      omega
  case nonneg =>
    intro u
    have hbefore := h.nonneg u
    rw [haccount]
    by_cases hu : u = userID
    · subst hu
      rw [hread] at hbefore
      simp only [if_true]
      exact he.nonneg hbefore
    · simp only [hu, if_false]
      exact hbefore
  case proper =>
    intro r hr
    rw [hledger, List.mem_append, List.mem_singleton] at hr
    rcases hr with hr | rfl
    · exact h.proper r hr
    · exact he.proper
  case balanceAfter =>
    intro pre r post hsplit
    rw [hledger] at hsplit
    rcases split_concat hsplit with ⟨rfl, rfl⟩ | ⟨post', hpost⟩
    · have hbefore := h.available userID
      have := he.available
      rw [hread] at hbefore
      rw [he.balanceAfter, balance_concat, he.userID, if_pos rfl]
      omega
    · exact h.balanceAfter pre r post' hpost
  case keys =>
    rw [hledger, List.map_append, List.map_singleton, List.nodup_append]
    refine ⟨h.keys, List.nodup_singleton _, fun k hk k' hk' e => ?_⟩
    rw [List.mem_singleton] at hk'
    obtain ⟨r, hr, rfl⟩ := List.mem_map.1 hk
    have hdiffer := List.any_eq_false.1 hnew r hr
    exact hdiffer (by simp [e, hk'])

end Entries

section Transactions

/-- An account that was read is still as it was. -/
abbrev accountViews : Parts Store View where
  agree
    | .account u, s, s' => ∀ a, s.accounts u = some a → s'.accounts u = some a
    | _, _, _ => True
  agree_refl v s := by
    cases v with
    | account u => exact fun a h => h
    | order t => trivial
    | props u => trivial
    | purchases => trivial
  agree_trans v s s' s'' h h' := by
    cases v with
    | account u => exact fun a ha => h' a (h a ha)
    | order t => trivial
    | props u => trivial
    | purchases => trivial

attribute [local instance] accountViews

variable {userID : Int} {I F : Store → Prop}

/-- The account is the one that is committed, an empty one where there is none. -/
theorem wp_getOrCreateAccount :
    wp I (getOrCreateSubscriptionResetOpportunityAccountTx userID) id F fun a w F' =>
      (∀ c, F' c → F c ∧ (c.accounts userID).getD {} = a) ∧
        (∀ c, (w c).ledger = c.ledger) ∧
        ∀ c a', Function.update (w c).accounts userID (some a') =
          Function.update c.accounts userID (some a') := by
  unfold getOrCreateSubscriptionResetOpportunityAccountTx
  split
  next => trivial
  next =>
    apply wp_bind
    apply wp_step
    intro c₀ F₁ _ _ hF₁
    dsimp only [id]
    cases haccount : c₀.accounts userID with
    | some account =>
      refine ⟨fun c hc => ?_, fun _ => rfl, fun _ _ => rfl⟩
      obtain ⟨hF, -, hview⟩ := hF₁ c hc
      have hsame := hview (.account userID) (by simp) account haccount
      exact ⟨hF, by rw [hsame]; rfl⟩
    | none =>
      apply wp_bind
      apply wp_stepE
      intro c₁ _ F₂ _ _ hcreated hF₂
      have hnone : c₁.accounts userID = none := by
        by_contra hsome
        have hsome : (c₁.accounts userID).isSome = true := by
          rwa [Option.isSome_iff_ne_none]
        simp only [id, hsome, if_true] at hcreated
        cases hcreated
      refine ⟨fun c hc => ?_, fun c => ?_, fun c a' => ?_⟩
      · obtain ⟨hc₁, hlock, -⟩ := hF₂ c hc
        have hsame : c.accounts userID = c₁.accounts userID :=
          hlock (.account userID) (by simp)
        exact ⟨(hF₁ c hc₁).1, by rw [hsame, hnone]; rfl⟩
      · dsimp only
        split <;> rfl
      · dsimp only
        split
        · rfl
        · simp

/-- The account is saved and the row is created, both on what is committed. -/
theorem wp_entry {a a' : SubscriptionResetOpportunityAccount}
    {row : SubscriptionResetOpportunityLedger} {w : Store → Store} (he : Entry userID a a' row)
    (hread : ∀ c, F c → (c.accounts userID).getD {} = a)
    (hledger : ∀ c, (w c).ledger = c.ledger)
    (haccounts : ∀ c a', Function.update (w c).accounts userID (some a') =
      Function.update c.accounts userID (some a')) :
    wp Audited (saveAccount userID a' >>= fun _ => createLedger row) w F fun _ w F' =>
      ∀ c, Audited c → F' c → Audited (w c) := by
  apply wp_bind
  apply wp_step
  intro _ F₁ _ _ hF₁
  apply wp_stepE
  intro c₁ _ F₂ _ _ hcreated hF₂ c hc hF
  have hnew₁ : c₁.ledger.any (·.eventKey = row.eventKey) = false := by
    by_contra hany
    rw [Bool.not_eq_false] at hany
    simp only [hledger, hany, if_true] at hcreated
    cases hcreated
  have hnew : c.ledger.any (·.eventKey = row.eventKey) = false := by
    have hlock : c.ledger.any (·.eventKey = row.eventKey) =
        c₁.ledger.any (·.eventKey = row.eventKey) :=
      (hF₂ c hF).2.1 (.event row.eventKey) (by simp)
    rw [hlock, hnew₁]
  apply hc.entry he (hread c (hF₁ c (hF₂ c hF).1).1) hnew
  · simp only [hledger, hnew, Bool.false_eq_true, if_false]
    exact haccounts c a'
  · simp only [hledger, hnew, Bool.false_eq_true, if_false]

theorem ensures_award (inviteeID : Int) (purchaseType : ReferralPurchaseType)
    (orderSourceType orderSourceID : String) :
    Ensures Audited (awardReferralSubscriptionResetOpportunityTx inviteeID purchaseType
      orderSourceType orderSourceID) fun _ _ c => Audited c := by
  unfold Ensures awardReferralSubscriptionResetOpportunityTx
  split
  next => exact fun c hc _ => hc
  next =>
    apply wp_bind
    apply wp_step
    intro c₀ F₁ _ _ _
    dsimp only [id]
    cases c₀.users inviteeID with
    | none => trivial
    | some inviterID =>
      dsimp only
      split
      next => exact fun c hc _ => hc
      next =>
        apply wp_bind
        have hcount : Does Audited (countSuccessfulPaidPurchasesTx inviteeID)
            fun w _ w' => w' = w := .ite (fun _ => .ret fun _ => rfl) fun _ => .step fun _ _ => rfl
        apply wp_mono (hcount id F₁)
        rintro previousPaidCount _ F₂ ⟨rfl, -⟩
        split
        next => exact fun c hc _ => hc
        next =>
          apply wp_bind
          apply wp_step
          intro c₁ F₃ _ _ _
          show wp _ (if _ then _ else _) _ _ _
          split
          next => exact fun c hc _ => hc
          next =>
            apply wp_bind
            apply wp_mono wp_getOrCreateAccount
            rintro account w F₄ ⟨hread, hledger, haccounts⟩
            refine wp_entry ?_ (fun c hc => (hread c hc).2) hledger haccounts
            exact ⟨rfl, rfl, rfl, (add_zero _).symm, rfl, rfl, fun h => by dsimp only; omega⟩

theorem ensures_use (now : Int) (currentMonth : String) (explicitOrder : List Int)
    (restored : Bool) (userID : Int) :
    Ensures Audited (useUserSubscriptionResetOpportunity now currentMonth explicitOrder restored
      userID) fun _ _ c => Audited c := by
  unfold Ensures useUserSubscriptionResetOpportunity
  split
  next => trivial
  next =>
    apply wp_bind
    apply wp_mono wp_getOrCreateAccount
    rintro account w F₁ ⟨hread, hledger, haccounts⟩
    dsimp only
    split
    next => trivial
    next havailable =>
      split
      next => trivial
      next =>
        apply wp_bind
        apply wp_step
        intro c₀ F₂ _ _ hF₂
        dsimp only [id]
        cases (w c₀).activeSubscriptions userID now explicitOrder with
        | nil => trivial
        | cons sub subs =>
          apply wp_bind
          have hservice : Does Audited (service restored) fun w _ w' => w' = w :=
            .ite (fun _ => .ret fun _ => rfl) fun _ => .fail
          apply wp_mono (hservice w F₂)
          rintro _ _ F₃ ⟨rfl, hF₃⟩
          apply wp_bind
          apply wp_step
          intro _ F₄ _ _ hF₄
          refine wp_entry ?_ (fun c hc => (hread c (hF₂ c (hF₃ c (hF₄ c hc).1)).1).2)
            (fun c => hledger c) fun c a' => haccounts c a'
          exact ⟨rfl, ⟨rfl, rfl⟩, (add_zero _).symm, rfl, rfl, rfl, fun h => by dsimp only; omega⟩

/-- The transactions on the accounts. -/
inductive ResetRequest where
  | award (inviteeID : Int) (purchaseType : ReferralPurchaseType)
    (orderSourceType orderSourceID : String)
  | use (now : Int) (currentMonth : String) (explicitOrder : List Int) (restored : Bool)
    (userID : Int)

def ResetRequest.code : ResetRequest → Flow PUnit
  | .award inviteeID purchaseType orderSourceType orderSourceID =>
    awardReferralSubscriptionResetOpportunityTx inviteeID purchaseType orderSourceType
      orderSourceID
  | .use now currentMonth explicitOrder restored userID =>
    useUserSubscriptionResetOpportunity now currentMonth explicitOrder restored userID

theorem ResetRequest.sound (r : ResetRequest) :
    Framed r.code ∧ Ensures Audited r.code fun _ _ c => Audited c := by
  cases r with
  | award inviteeID purchaseType orderSourceType orderSourceID =>
    exact ⟨framed_award _ _ _ _, ensures_award _ _ _ _⟩
  | use now currentMonth explicitOrder restored userID =>
    exact ⟨framed_use _ _ _ _ _, ensures_use _ _ _ _ _⟩

/-- As long as no account that is in use changes, the accounts reconcile with the ledger. -/
theorem reset_accounts_reconcile {s₀ : Store} (haccounts : s₀.accounts = fun _ => none)
    (hledger : s₀.ledger = []) {s : System Store Cell View Error PUnit}
    (h : Reach ResetRequest.code Undisturbed s₀ s) : Reconciled s.committed := by
  have h₀ : Audited s₀ := by
    constructor <;> simp [haccounts, hledger, Store.changes, balance]
  exact (h.sound ResetRequest.sound h₀).committed.reconciled

/-- One user who has invited three others. -/
def inviter : Store where
  users := fun u => if u = 1 then some 0 else some 1

def monthCard (inviteeID : Int) : ResetRequest :=
  .award inviteeID .monthCard "subscription_order" "T"

/-- How many transactions and rows there are, and what the account of user 1 says. -/
def accountOf (s : System Store Cell View Error PUnit) :
    List Nat × Option SubscriptionResetOpportunityAccount :=
  ([s.txns.length, s.committed.ledger.length], s.committed.accounts 1)

theorem reset_accounts_reconcile_sample : ∃ s : System Store Cell View Error PUnit,
    Reach ResetRequest.code Undisturbed inviter s ∧
      accountOf s = ([0, 2], some ⟨2, 0, 2, ""⟩) ∧ Reconciled s.committed := by
  have hrun : (perform unread ResetRequest.code ⟨inviter, []⟩
      (.start (monthCard 2) :: List.replicate 7 (.act 0) ++ .commit 0 ::
        .start (monthCard 3) :: List.replicate 6 (.act 0) ++ [.commit 0])).map accountOf =
      some ([0, 2], some ⟨2, 0, 2, ""⟩) := by decide
  obtain ⟨s, hs, haccount⟩ := Option.map_eq_some_iff.1 hrun
  have hreach := Reach.init.perform undisturbed_of_unread hs
  exact ⟨s, hreach, haccount, reset_accounts_reconcile rfl rfl hreach⟩

/-- Two awards that read the account before either commits count as one. -/
theorem award_lost : ∃ s : System Store Cell View Error PUnit,
    Reach ResetRequest.code (fun _ _ => True) inviter s ∧
      accountOf s = ([0, 3], some ⟨2, 0, 2, ""⟩) ∧ ¬ Reconciled s.committed := by
  have hrun : (perform (fun _ _ => true) ResetRequest.code ⟨inviter, []⟩
      (.start (monthCard 2) :: List.replicate 7 (.act 0) ++ .commit 0 ::
        .start (monthCard 3) :: .start (monthCard 4) :: List.replicate 4 (.act 1) ++
          (List.replicate 6 (.act 0) ++ [.commit 0, .act 0, .act 0, .commit 0]))).map
        (fun s => (accountOf s, s.committed.changes 1 .earn)) =
      some (([0, 3], some ⟨2, 0, 2, ""⟩), 3) := by decide
  obtain ⟨s, hs, hobs⟩ := Option.map_eq_some_iff.1 hrun
  obtain ⟨haccount, hearn⟩ := Prod.mk.inj hobs
  refine ⟨s, Reach.init.perform (fun _ _ _ => trivial) hs, haccount, fun hreconciled => ?_⟩
  have hearned := hreconciled.earned 1
  rw [(Prod.mk.inj haccount).2, hearn] at hearned
  exact absurd hearned (by decide)

end Transactions

end CodeGo.Commerce.Orders
