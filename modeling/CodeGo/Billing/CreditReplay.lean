import CodeGo.Billing.Wallet

/-!
# A wallet credit repeated with its key

The ledger half of `CreditWalletQuotaTx` finds the recorded entry, the quota
column is increased all the same, and the next transactional operation moves the
ledger to the column.
-/

namespace CodeGo.Billing.CreditReplay

open Lib Schema Statements FundingAttribution Wallet Platform.Database Identity.Schema
  Identity.Store

/-- `CreditWalletQuotaTx` and `CreditClaudeWalletQuotaTx`. -/
def creditQuotaTx : Wallet → Uuids → Int → Int → String → String → App Unit
  | .wallet => creditWalletQuotaTx
  | .claudeWallet => creditClaudeWalletQuotaTx

/-- The available balance of the wallet account of a user. -/
def ledgerBalance (w : Wallet) (userID : Int) (s : DB) : Int :=
  match findAccount ownerTypeUser userID (accountType w) s.ledger with
  | some account => (s.ledger.stored account.accountID).availableBalance
  | none => 0

/-- Ledger statements leave the users alone. -/
theorem keepsUsers_ledgerTx {α : Type} (tx : Tx α) : (ledgerTx tx).Keeps DB.users :=
  keeps_ledgerTx (fun _ _ => rfl) tx

theorem keepsUsers_loadBalanceSnapshot (a : String) : (loadBalanceSnapshot a).Keeps DB.users :=
  keeps_readOrFail _

theorem keepsUsers_applyDeltaTx (u : Uuids) (a : String) (delta : Int) (sync : LedgerSync) :
    (applyDeltaVia ledgerTx u a delta sync).Keeps DB.users := by
  refine .ite trivial (.ite ?_ ?_)
  · exact .bind (keepsUsers_ledgerTx _) fun _ => trivial
  · refine .bind (keepsUsers_ledgerTx _) fun _ => ?_
    exact .bind (keepsUsers_ledgerTx _) fun _ => trivial

theorem keepsUsers_ensureMirroredUserAccountTx (u : Uuids) (userID : Int) (accountType : String)
    (legacyBalance : Int) :
    (ensureMirroredUserAccountTx u userID accountType legacyBalance).Keeps DB.users := by
  refine .bind (keepsUsers_ledgerTx _) fun account => ?_
  refine .bind (keepsUsers_loadBalanceSnapshot _) fun snapshot => .ite trivial ?_
  exact .bind (keepsUsers_ledgerTx _) fun _ => trivial

theorem keepsUsers_reconcileAccountBalanceTx (u : Uuids) (a : String) (userID legacyBalance : Int) :
    (reconcileAccountBalanceTx u a userID legacyBalance).Keeps DB.users := by
  refine .bind (keepsUsers_loadBalanceSnapshot _) fun snapshot => ?_
  exact .ite trivial (keepsUsers_applyDeltaTx _ _ _ _)

/-- A credit that commits adds its amount to the quota column, whatever the ledger does. -/
theorem column_of_credit (w : Wallet) (u : Uuids) (userID amount : Int) (key reason : String)
    (s : DB) (huser : (s.users.get? userID).isSome)
    (h : ((creditQuotaTx w u userID amount key reason).commit s).1 = .ok ()) :
    quotaColumn w userID ((creditQuotaTx w u userID amount key reason).commit s).2 =
      quotaColumn w userID s + amount := by
  have hprog : creditQuotaTx w u userID amount key reason =
      creditUserWalletQuotaTx u userID amount key reason (mirroredWalletTx w) := by
    cases w <;> rfl
  rw [hprog] at h ⊢
  match hc : (creditUserWalletQuotaTx u userID amount key reason (mirroredWalletTx w)).commit s with
  | (.error e, s') =>
    rw [hc] at h
    cases h
  | (.ok (), s') =>
    have hrun := Prog.commit_eq_ok.1 hc
    unfold creditUserWalletQuotaTx at hrun
    split at hrun
    next => cases hrun
    split at hrun
    next => cases hrun
    split at hrun
    next => cases hrun
    obtain ⟨legacy, s₁, h₁, hrun⟩ := Prog.run_bind_eq_ok hrun
    obtain ⟨account, s₂, h₂, hrun⟩ := Prog.run_bind_eq_ok hrun
    obtain ⟨_, s₃, h₃, hrun⟩ := Prog.run_bind_eq_ok hrun
    obtain ⟨entry, s₄, h₄, hrun⟩ := Prog.run_bind_eq_ok hrun
    obtain ⟨_, s₅, h₅, hrun⟩ := Prog.run_bind_eq_ok hrun
    -- nothing before the projection touches the users
    have k₁ := (keeps_read (f := DB.users) (quotaColumn w userID)).of_run h₁
    have k₂ := (keepsUsers_ensureMirroredUserAccountTx u userID (accountType w) legacy).of_run h₂
    have k₃ := (keepsUsers_reconcileAccountBalanceTx _ account.accountID userID legacy).of_run h₃
    have k₄ := (keepsUsers_ledgerTx _).of_run h₄
    have k₅ := congrArg (fun core => core.2.1) ((keeps_recordFundingLotTx _ _ _ _ _ _ _).of_run h₅)
    have husers : s₅.users = s.users := k₅.trans (k₄.trans (k₃.trans (k₂.trans k₁)))
    have hlast : s' = addToColumn w userID amount s₅ := congrArg Prod.snd hrun.symm
    have hcolumn : quotaColumn w userID s₅ = quotaColumn w userID s := by
      rw [quotaColumn, husers, quotaColumn]
    rw [hlast, quotaColumn_addToColumn, hcolumn, husers, if_pos ⟨rfl, rfl, huser⟩]

/-- Two credits, from `s₀` to `s₁` and from `s₂` to `s₃`, add the amount once to the quota column
and once to the ledger balance. -/
def CreditedOnce (w : Wallet) (userID amount : Int) (s₀ s₁ s₂ s₃ : DB) : Prop :=
  quotaColumn w userID s₁ - quotaColumn w userID s₀ +
      (quotaColumn w userID s₃ - quotaColumn w userID s₂) = amount ∧
    ledgerBalance w userID s₁ - ledgerBalance w userID s₀ +
      (ledgerBalance w userID s₃ - ledgerBalance w userID s₂) = amount

/-- Two credits of a user with one key, whatever happens in between, never count once. -/
theorem repeated_credit_counts_twice (w : Wallet) (u u' : Uuids) (userID amount : Int)
    (key reason : String) (s₀ s₂ : DB) (hpos : 0 < amount)
    (huser₀ : (s₀.users.get? userID).isSome) (huser₂ : (s₂.users.get? userID).isSome)
    (h₁ : ((creditQuotaTx w u userID amount key reason).commit s₀).1 = .ok ())
    (h₂ : ((creditQuotaTx w u' userID amount key reason).commit s₂).1 = .ok ()) :
    ¬ CreditedOnce w userID amount s₀ ((creditQuotaTx w u userID amount key reason).commit s₀).2
      s₂ ((creditQuotaTx w u' userID amount key reason).commit s₂).2 := by
  rintro ⟨hcolumn, -⟩
  rw [column_of_credit w u userID amount key reason s₀ huser₀ h₁,
    column_of_credit w u' userID amount key reason s₂ huser₂ h₂] at hcolumn
  omega

def oneUser : DB := { DB.empty with users := ((Table.empty).insert? { id := 1 }).getD Table.empty }

def firstCredit : DB := ((creditQuotaTx .wallet (sampleUuids "a") 1 100 "key" "gift").commit oneUser).2

def secondCredit : DB :=
  ((creditQuotaTx .wallet (sampleUuids "b") 1 100 "key" "gift").commit firstCredit).2

/-- A credit under another key, which reconciles the ledger first. -/
def laterCredit : DB :=
  ((creditQuotaTx .wallet (sampleUuids "c") 1 1 "other" "gift").commit secondCredit).2

/-- Both credits of the sample commit and count twice. -/
theorem repeated_credit_sample : ¬ CreditedOnce .wallet 1 100 oneUser firstCredit firstCredit
    secondCredit :=
  repeated_credit_counts_twice .wallet (sampleUuids "a") (sampleUuids "b") 1 100 "key" "gift"
    oneUser firstCredit (by decide) (by decide +kernel) (by decide +kernel) (by decide +kernel)
    (by decide +kernel)

/-- A user of quota 0 who is credited 100 twice under one key has 200 in the column at once, and in
the ledger as soon as another credit reconciles it. -/
theorem credit_not_idempotent :
    ¬ (∀ (w : Wallet) (u u' : Uuids) (userID amount : Int) (key reason : String) (s₀ : DB),
      0 < amount → (s₀.users.get? userID).isSome →
      ((creditQuotaTx w u userID amount key reason).commit s₀).1 = .ok () →
      ((creditQuotaTx w u' userID amount key reason).commit
        ((creditQuotaTx w u userID amount key reason).commit s₀).2).1 = .ok () →
      CreditedOnce w userID amount s₀ ((creditQuotaTx w u userID amount key reason).commit s₀).2
        ((creditQuotaTx w u userID amount key reason).commit s₀).2
        ((creditQuotaTx w u' userID amount key reason).commit
          ((creditQuotaTx w u userID amount key reason).commit s₀).2).2) ∧
    quotaColumn .wallet 1 secondCredit = 200 ∧ ledgerBalance .wallet 1 secondCredit = 100 ∧
    quotaColumn .wallet 1 laterCredit = 201 ∧ ledgerBalance .wallet 1 laterCredit = 201 := by
  refine ⟨fun h => ?_, by decide +kernel, by decide +kernel, by decide +kernel, by decide +kernel⟩
  have hcolumn := (h .wallet (sampleUuids "a") (sampleUuids "b") 1 100 "key" "gift" oneUser
    (by decide) (by decide +kernel) (by decide +kernel) (by decide +kernel)).1
  exact absurd hcolumn (by decide +kernel)

end CodeGo.Billing.CreditReplay
