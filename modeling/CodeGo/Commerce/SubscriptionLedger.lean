import CodeGo.Commerce.SubscriptionEffects

/-!
# The ledger account of a subscription

The sums of one account under the operations on it, and under those on the accounts
of other subscriptions, which leave it alone.
-/

namespace CodeGo.Commerce.SubscriptionLedger

open Lib Billing.Schema Billing.LedgerRuntime Billing.Aggregation Billing.Effects Billing.Invariant
  Billing.Preservation Billing.Recorded Schema SubscriptionRules SubscriptionFunding
  SubscriptionEffects

/-- The account has an entry. -/
def HasEntry (l : Ledger) (accountID : String) : Prop := ∃ e ∈ l.entries, e.accountID = accountID

/-- The sums of the account are the same in both ledgers. -/
structure SameAccount (l l' : Ledger) (accountID : String) : Prop where
  available : availableSum l' accountID = availableSum l accountID
  reserved : reservedSum l' accountID = reservedSum l accountID
  granted : grantedSum l' accountID = grantedSum l accountID
  entries : HasEntry l' accountID ↔ HasEntry l accountID

section Accounts

variable {l l' l'' : Ledger} {x : String}

theorem SameAccount.refl (l : Ledger) (x : String) : SameAccount l l x := ⟨rfl, rfl, rfl, Iff.rfl⟩

theorem SameAccount.trans (h : SameAccount l l' x) (h' : SameAccount l' l'' x) :
    SameAccount l l'' x :=
  ⟨h'.available.trans h.available, h'.reserved.trans h.reserved, h'.granted.trans h.granted,
    h'.entries.trans h.entries⟩

/-- The sums of an account move by nothing when another moves. -/
theorem same_of_moved {a : String} {d : BillingBalanceSnapshot} (hm : Moved l l' a d) (hne : a ≠ x)
    (he : HasEntry l' x ↔ HasEntry l x) : SameAccount l l' x := by
  refine ⟨?_, ?_, ?_, he⟩
  · rw [hm.available, if_neg hne, add_zero]
  · rw [hm.reserved, if_neg hne, add_zero]
  · rw [hm.granted, if_neg hne, add_zero]

theorem hasEntry_insert {t : Table BillingLedgerEntry} {e : BillingLedgerEntry}
    (h : l.entries.insert? e = some t) (ht : l'.entries = t) :
    HasEntry l' x ↔ HasEntry l x ∨ e.accountID = x := by
  unfold HasEntry
  rw [ht]
  constructor
  · rintro ⟨f, hf, hx⟩
    rcases (Table.mem_insert? h).1 hf with hf | rfl
    · exact .inl ⟨f, hf, hx⟩
    · exact .inr hx
  · rintro (⟨f, hf, hx⟩ | hx)
    · exact ⟨f, (Table.mem_insert? h).2 (.inl hf), hx⟩
    · exact ⟨e, (Table.mem_insert? h).2 (.inr rfl), hx⟩

theorem hasEntry_insert_ne {e : BillingLedgerEntry} (h : l.entries.insert? e = some l'.entries)
    (hne : e.accountID ≠ x) : HasEntry l' x ↔ HasEntry l x := by
  rw [hasEntry_insert h rfl]
  exact or_iff_left hne

theorem same_of_accountEnsured {a : BillingAccount} (h : AccountEnsured l l' a) (x : String) :
    SameAccount l l' x := by
  constructor
  · simp [availableSum, h.entries]
  · simp [reservedSum, h.reservations]
  · simp [grantedSum, h.entries]
  · simp [HasEntry, h.entries]

theorem same_of_creditRecorded {p : CreditAccountParams} {e : BillingLedgerEntry}
    (h : CreditRecorded l l' p e) (hne : p.accountID ≠ x) : SameAccount l l' x := by
  rcases h.outcome with ⟨-, rfl⟩ | ⟨hc, -⟩
  · exact .refl l' x
  · have hacc : e.accountID ≠ x := by
      rw [h.account]
      exact hne
    exact same_of_moved (moved_of_credited hc) hacc (hasEntry_insert_ne hc.entries hacc)

/-- The account belongs to the subscription. -/
def AccountOf (id : Int) (a : BillingAccount) : Prop := a.owner = ownerOf (subscriptionAccount id)

theorem AccountOf.id_eq {id id' : Int} {a : BillingAccount} (h : AccountOf id a)
    (h' : AccountOf id' a) : id = id' := by
  have howner : ownerOf (subscriptionAccount id) = ownerOf (subscriptionAccount id') :=
    h.symm.trans h'
  exact congrArg (fun owner => owner.2.1) howner

/-- Accounts of one number are one account. -/
theorem account_eq {a b : BillingAccount} (ha : a ∈ l.accounts) (hb : b ∈ l.accounts)
    (hid : a.accountID = b.accountID) : a = b :=
  Table.eq_of_clash ha hb (Indexed.clash_of_pk a b hid)

end Accounts

/-- An account without entries has nothing available. -/
theorem availableSum_of_no_entry {l : Ledger} {x : String} (h : ¬ HasEntry l x) :
    availableSum l x = 0 := by
  have hzero : availableSum l x = l.entries.sum fun _ => 0 := by
    apply Table.sum_congr
    intro e he
    rw [if_neg fun hx => h ⟨e, he, hx⟩]
  rw [hzero]
  simp [Table.sum]

/-- The grant that an account without entries gets. -/
theorem bootstrapped_sums {l l' : Ledger} {sub : UserSubscription} {x : String}
    (h : Bootstrapped l l' sub x) (hleft : sub.amountUsed < sub.amountTotal) :
    reservedSum l' x = reservedSum l x ∧ grantedSum l x ≤ grantedSum l' x ∧
      l'.accounts = l.accounts ∧ (HasEntry l x → availableSum l' x = availableSum l x) ∧
      (¬ HasEntry l x → availableSum l' x = sub.amountTotal - sub.amountUsed) := by
  cases h with
  | kept hcase hl =>
    subst hl
    rcases hcase with hentry | hle
    · exact ⟨rfl, le_refl _, rfl, fun _ => rfl, fun hn => absurd hentry hn⟩
    · omega
  | granted hnone p e hacc ham hkey hc =>
    have hno : ¬ HasEntry l x := fun ⟨f, hf, hx⟩ => hnone f hf hx
    rcases hc.outcome with ⟨⟨he, -⟩, -⟩ | ⟨hcredit, -⟩
    · exact absurd (hc.account.trans hacc) (hnone e he)
    · have hm := moved_of_credited hcredit
      have hx : e.accountID = x := hc.account.trans hacc
      refine ⟨?_, ?_, hcredit.accounts, fun hentry => absurd hentry hno, fun _ => ?_⟩
      · rw [hm.reserved]
        simp
      · rw [hm.granted, if_pos hx, hc.amount]
        dsimp only
        omega
      · rw [hm.available, if_pos hx, availableSum_of_no_entry hno, hc.amount, ham]
        dsimp only
        omega

section Owned

/-- The account of a subscription, once there is one. -/
def accountOf (id : Int) (l : Ledger) : Option BillingAccount :=
  l.accounts.find? fun a => a.owner = ownerOf (subscriptionAccount id)

/-- The account of the subscription has an entry. -/
def Entered (id : Int) (l : Ledger) : Prop := ∃ a ∈ l.accounts, AccountOf id a ∧ HasEntry l a.accountID

instance (id : Int) (l : Ledger) : Decidable (Entered id l) :=
  decidable_of_iff (∃ a ∈ l.accounts.rows, a.owner = ownerOf (subscriptionAccount id) ∧
    ∃ e ∈ l.entries.rows, e.accountID = a.accountID) Iff.rfl

def availableOf (id : Int) (l : Ledger) : Int :=
  ((accountOf id l).map fun a => availableSum l a.accountID).getD 0

def reservedOf (id : Int) (l : Ledger) : Int :=
  ((accountOf id l).map fun a => reservedSum l a.accountID).getD 0

variable {l : Ledger} {id : Int} {a : BillingAccount}

/-- A subscription has one account. -/
theorem accountOf_eq (hmem : a ∈ l.accounts) (howner : AccountOf id a) : accountOf id l = some a := by
  apply Table.find?_eq_some_of_mem hmem
  · exact decide_eq_true howner
  · intro b hb
    have hb := of_decide_eq_true hb
    exact decide_eq_true (.inr (hb.trans howner.symm))

theorem of_accountOf (h : accountOf id l = some a) : a ∈ l.accounts ∧ AccountOf id a := by
  unfold accountOf at h
  have howner := Table.prop_of_find? h
  rw [decide_eq_true_eq] at howner
  exact ⟨Table.mem_of_find? h, howner⟩

theorem availableOf_eq (hmem : a ∈ l.accounts) (howner : AccountOf id a) :
    availableOf id l = availableSum l a.accountID := by
  rw [availableOf, accountOf_eq hmem howner]
  rfl

theorem reservedOf_eq (hmem : a ∈ l.accounts) (howner : AccountOf id a) :
    reservedOf id l = reservedSum l a.accountID := by
  rw [reservedOf, accountOf_eq hmem howner]
  rfl

theorem entered_iff (hmem : a ∈ l.accounts) (howner : AccountOf id a) :
    Entered id l ↔ HasEntry l a.accountID := by
  constructor
  · rintro ⟨b, hb, hb', hentry⟩
    have hsame := (accountOf_eq hb hb').symm.trans (accountOf_eq hmem howner)
    rw [Option.some.inj hsame] at hentry
    exact hentry
  · exact fun hentry => ⟨a, hmem, howner, hentry⟩

/-- Nothing is known of a subscription without an account. -/
theorem accountOf_eq_none (h : accountOf id l = none) :
    ¬ Entered id l ∧ availableOf id l = 0 ∧ reservedOf id l = 0 := by
  refine ⟨?_, by rw [availableOf, h]; rfl, by rw [reservedOf, h]; rfl⟩
  rintro ⟨b, hb, howner, -⟩
  rw [accountOf_eq hb howner] at h
  cases h

/-- An account without entries has nothing on it. -/
theorem sums_of_no_entry {x : String} (hs : Sound l) (h : ¬ HasEntry l x) :
    availableSum l x = 0 ∧ reservedSum l x = 0 ∧ grantedSum l x = 0 := by
  have havailable := availableSum_of_no_entry h
  have hgranted : grantedSum l x = 0 := by
    have hzero : grantedSum l x = l.entries.sum fun _ => 0 := by
      apply Table.sum_congr
      intro e he
      rw [if_neg fun hx => h ⟨e, he, hx⟩]
    rw [hzero]
    simp [Table.sum]
  have hconserved := hs.conserved x
  have hreserved := reservedSum_nonneg hs.records x
  have hconsumed := consumedSum_nonneg hs.records x
  exact ⟨havailable, by omega, hgranted⟩

theorem availableOf_of_not_entered (h : ¬ Entered id l) : availableOf id l = 0 := by
  cases ha : accountOf id l with
  | none => exact (accountOf_eq_none ha).2.1
  | some a =>
    obtain ⟨hmem, howner⟩ := of_accountOf ha
    rw [entered_iff hmem howner] at h
    rw [availableOf_eq hmem howner, availableSum_of_no_entry h]

end Owned

section Elsewhere

variable {l l' l'' : Ledger} {id : Int}

/-- Accounts stay, and none but those of others than the subscription moved. -/
structure Elsewhere (id : Int) (l l' : Ledger) : Prop where
  accounts : ∀ a ∈ l.accounts, a ∈ l'.accounts
  same : ∀ x, (∀ a ∈ l'.accounts, a.accountID = x → AccountOf id a) → SameAccount l l' x

theorem Elsewhere.refl (id : Int) (l : Ledger) : Elsewhere id l l :=
  ⟨fun _ ha => ha, fun x _ => .refl l x⟩

theorem Elsewhere.trans (h : Elsewhere id l l') (h' : Elsewhere id l' l'') : Elsewhere id l l'' where
  accounts a ha := h'.accounts a (h.accounts a ha)
  same x hx := (h.same x fun a ha => hx a (h'.accounts a ha)).trans (h'.same x hx)

/-- A top-up of another subscription. -/
theorem elsewhere_of_toppedUp {other : Int} {key : String} {target : BillingBalanceSnapshot → Int}
    (h : ToppedUp l l' other key target) (hne : other ≠ id) : Elsewhere id l l' := by
  cases h with
  | enough a h hle => exact ⟨fun b hb => h.keeps hb, fun x _ => same_of_accountEnsured h.ensured x⟩
  | granted a l₁ p e h hacc ham hkey hc =>
    constructor
    · intro b hb
      rw [hc.accounts_eq]
      exact h.keeps hb
    · intro x hx
      apply (same_of_accountEnsured h.ensured x).trans
      apply same_of_creditRecorded hc
      intro hx'
      have hmem : a ∈ l'.accounts := by
        rw [hc.accounts_eq]
        exact h.mem
      have howner : AccountOf other a := h.owner
      exact hne (howner.id_eq (hx a hmem (hacc.symm.trans hx')))

variable {s s' : Store} {cal : Calendar} {plan : SubscriptionPlan} {sub sub' : UserSubscription}
  {now : Int}

theorem elsewhere_of_resetOutcome (h : ResetOutcome cal plan sub now sub' s s') (hne : sub.id ≠ id) :
    Elsewhere id s.ledger s'.ledger := by
  have hid := h.id_eq
  cases h with
  | kept hdue hsub hs =>
    rcases hs with ⟨rfl, -⟩ | rfl
    · exact .refl id _
    · exact .refl id _
  | reset hdue base next hlater hsub l hledger hs =>
    rw [hs]
    rcases hledger with ⟨-, rfl⟩ | ⟨-, hl⟩
    · exact .refl id _
    · exact elsewhere_of_toppedUp hl (by rw [hid]; exact hne)

theorem elsewhere_of_skipped (h : Skipped id cal now s s') : Elsewhere id s.ledger s'.ledger := by
  induction h with
  | refl s => exact .refl id _
  | step hplan hrow hne h rest ih => exact (elsewhere_of_resetOutcome h hne).trans ih

end Elsewhere

end CodeGo.Commerce.SubscriptionLedger
