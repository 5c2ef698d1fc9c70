import CodeGo.Lib.Lock
import CodeGo.Lib.Trim
import CodeGo.Lib.Wrap
import Mathlib.Logic.Function.Basic
import Mathlib.Data.List.Nodup

/-!
# Points

`points_store.go` in `internal/billing/app`: the balances of a user against the entries of the
ledger, over all interleavings of the transactions that add entries.
-/

namespace CodeGo.Billing.Points

open CodeGo.Lib CodeGo.Lib.Prog CodeGo.Lib.Lock CodeGo.Lib.Trim CodeGo.Lib.Wrap

/-- The account of a user, which starts empty. -/
structure PointAccount where
  balance : Int := 0
  frozenBalance : Int := 0
  deriving DecidableEq, Repr

structure PointLedger where
  userID : Int
  type : String
  delta : Int
  balanceAfter : Int
  frozenAfter : Int
  sourceType : String
  sourceID : String
  idempotencyKey : String
  note : String
  deriving DecidableEq, Repr

inductive Error where
  | invalidUserID
  | recordNotFound
  | invalidPointLedger
  | invalidType
  | insufficient
  | frozenInsufficient
  | duplicateKey
  deriving DecidableEq, Repr

def Error.message : Error → String
  | .invalidUserID => "invalid point account user id"
  | .recordNotFound => "record not found"
  | .invalidPointLedger => "invalid point ledger"
  | .invalidType => "invalid point ledger type"
  | .insufficient => "points balance is insufficient"
  | .frozenInsufficient => "frozen points balance is insufficient"
  | .duplicateKey => "duplicated key not allowed"

/-- The accounts of the users, and the entries from the first on. -/
structure Store where
  accounts : Int → Option PointAccount := fun _ => none
  ledger : List PointLedger := []

/-- Statements lock the idempotency keys they insert, and watch the accounts they read. The locks of
written accounts are left out: they only rule out runs. -/
abbrev Flow (α : Type) := Prog Store (Label String Int) Error α

def pointLedgerTypeEarn : String := "earn"
def pointLedgerTypeSpend : String := "spend"
def pointLedgerTypeFreeze : String := "freeze"
def pointLedgerTypeRelease : String := "release"
def pointLedgerTypeRefund : String := "refund"

def Store.hasKey (key : String) (s : Store) : Bool := s.ledger.any (·.idempotencyKey = key)

def findLedger (key : String) : Flow (Option PointLedger) :=
  .step {} fun s => (s.ledger.find? (·.idempotencyKey = key), s)

/-- With an empty account, where there is none. -/
def Store.withAccount (userID : Int) (s : Store) : Store :=
  match s.accounts userID with
  | some _ => s
  | none => { s with accounts := Function.update s.accounts userID (some {}) }

/-- Inserts an empty account, or does nothing where there is one. -/
def createAccount (userID : Int) : Flow Unit := .step {} fun s => ((), s.withAccount userID)

def firstAccount (userID : Int) : Flow PointAccount :=
  .stepE { watches := [userID] } fun s => match s.accounts userID with
    | some account => (.ok account, s)
    | none => (.error .recordNotFound, s)

def ensurePointAccountTx (userID : Int) : Flow PointAccount :=
  if userID ≤ 0 then .fail .invalidUserID
  else do
    createAccount userID
    firstAccount userID

/-- Saves the whole row. -/
def saveAccount (userID : Int) (account : PointAccount) : Flow Unit :=
  .step {} fun s => ((), { s with accounts := Function.update s.accounts userID (some account) })

def createLedger (ledger : PointLedger) : Flow Unit :=
  .stepE { locks := [ledger.idempotencyKey] } fun s =>
    if s.hasKey ledger.idempotencyKey then (.error .duplicateKey, s)
    else (.ok (), { s with ledger := s.ledger ++ [ledger] })

/-- What a type and an amount do to an account. -/
def applyDelta (account : PointAccount) (ledgerType : String) (delta : Int) :
    Except Error PointAccount :=
  if ledgerType = pointLedgerTypeEarn ∨ ledgerType = pointLedgerTypeRefund then
    .ok { account with balance := wrap64 (account.balance + delta) }
  else if ledgerType = pointLedgerTypeSpend then
    if wrap64 (account.balance + delta) < 0 then .error .insufficient
    else .ok { account with balance := wrap64 (account.balance + delta) }
  else if ledgerType = pointLedgerTypeFreeze then
    .ok { account with frozenBalance := wrap64 (account.frozenBalance + delta) }
  else if ledgerType = pointLedgerTypeRelease then
    if wrap64 (account.frozenBalance + delta) < 0 then .error .frozenInsufficient
    else .ok { account with
      frozenBalance := wrap64 (account.frozenBalance + delta)
      balance := wrap64 (account.balance - delta) }
  else .error .invalidType

def ofExcept {α : Type} : Except Error α → Flow α
  | .ok a => .ret a
  | .error e => .fail e

/-- The entry of the key, and whether it is new. -/
def addPointLedgerTx (userID : Int) (ledgerType : String) (delta : Int)
    (sourceType sourceID key note : String) : Flow (PointLedger × Bool) :=
  if userID ≤ 0 ∨ key = "" ∨ delta = 0 then .fail .invalidPointLedger
  else do
    match ← findLedger key with
    | some existing => pure (existing, false)
    | none =>
      let account ← ensurePointAccountTx userID
      let account ← ofExcept (applyDelta account ledgerType delta)
      saveAccount userID account
      let ledger : PointLedger := {
        userID := userID
        type := ledgerType
        delta := delta
        balanceAfter := account.balance
        frozenAfter := account.frozenBalance
        sourceType := sourceType
        sourceID := sourceID
        idempotencyKey := key
        note := trimSpace note }
      createLedger ledger
      pure (ledger, true)

section Law

/-- The entry that a request asks for. -/
structure PointRequest where
  userID : Int
  ledgerType : String
  delta : Int
  sourceType : String
  sourceID : String
  key : String
  note : String
  delta_inRange : InRange delta

/-- The request, with the entry of its key and whether it is new. -/
def PointRequest.code (r : PointRequest) : Flow (PointRequest × PointLedger × Bool) := do
  let out ← addPointLedgerTx r.userID r.ledgerType r.delta r.sourceType r.sourceID r.key r.note
  pure (r, out)

/-- The entry of a request that leaves the account `a`. -/
def PointRequest.row (r : PointRequest) (a : PointAccount) : PointLedger where
  userID := r.userID
  type := r.ledgerType
  delta := r.delta
  balanceAfter := a.balance
  frozenAfter := a.frozenBalance
  sourceType := r.sourceType
  sourceID := r.sourceID
  idempotencyKey := r.key
  note := trimSpace r.note

/-- The account of a user, an empty one where there is none. -/
def Store.account (s : Store) (userID : Int) : PointAccount := (s.accounts userID).getD {}

/-- What an entry adds to the balances. -/
def count (a : PointAccount) (row : PointLedger) : PointAccount :=
  if row.type = pointLedgerTypeFreeze then { a with frozenBalance := a.frozenBalance + row.delta }
  else if row.type = pointLedgerTypeRelease then
    { a with frozenBalance := a.frozenBalance + row.delta, balance := a.balance - row.delta }
  else { a with balance := a.balance + row.delta }

/-- The entries of a user, counted in order. -/
def folded (userID : Int) (rows : List PointLedger) : PointAccount :=
  (rows.filter (·.userID = userID)).foldl count {}

/-- The balances are not negative, and are those of the entries; each key has one entry. -/
structure Reconciled (s : Store) : Prop where
  nonneg : ∀ u, 0 ≤ (s.account u).balance ∧ 0 ≤ (s.account u).frozenBalance
  folded : ∀ u, s.account u = folded u s.ledger
  after : ∀ pre row, pre ++ [row] <+: s.ledger →
    (⟨row.balanceAfter, row.frozenAfter⟩ : PointAccount) = Points.folded row.userID (pre ++ [row])
  keys : (s.ledger.map (·.idempotencyKey)).Nodup

/-- The law, with balances of 64 bits. -/
structure Audited (s : Store) : Prop extends Reconciled s where
  bounded : ∀ u, (s.account u).balance < 2 ^ 63 ∧ (s.account u).frozenBalance < 2 ^ 63

/-- The request keeps the balances of an account within 64 bits and above zero, where the code does
not test it: an amount that is spent is tested, and so is the frozen balance that points are released
from. -/
def PointRequest.Fits (r : PointRequest) (a : PointAccount) : Prop :=
  if r.ledgerType = pointLedgerTypeEarn ∨ r.ledgerType = pointLedgerTypeRefund then
    0 ≤ a.balance + r.delta ∧ a.balance + r.delta < 2 ^ 63
  else if r.ledgerType = pointLedgerTypeFreeze then
    0 ≤ a.frozenBalance + r.delta ∧ a.frozenBalance + r.delta < 2 ^ 63
  else if r.ledgerType = pointLedgerTypeRelease then
    0 ≤ a.balance - r.delta ∧ a.balance - r.delta < 2 ^ 63
  else True

/-- A request finds its key and changes nothing, or adds its entry under a new key with the account
that goes with it. -/
inductive Added : PointRequest × PointLedger × Bool → Store → Store → Prop
  | found (r : PointRequest) (row : PointLedger) (c : Store) : Added (r, row, false) c c
  | entry (r : PointRequest) (c c' : Store) (a' : PointAccount) (hnew : c.hasKey r.key = false)
      (happlied : applyDelta (c.account r.userID) r.ledgerType r.delta = .ok a')
      (haccounts : c'.accounts = Function.update c.accounts r.userID (some a'))
      (hledger : c'.ledger = c.ledger ++ [r.row a']) : Added (r, r.row a', true) c c'

variable {c c' : Store} {r : PointRequest} {a a' : PointAccount}

theorem folded_concat (u : Int) (rows : List PointLedger) (row : PointLedger) :
    folded u (rows ++ [row]) = if row.userID = u then count (folded u rows) row else folded u rows := by
  unfold folded
  by_cases h : row.userID = u <;> simp [List.filter_append, h]

/-- A sum below zero stays below zero, and one that leaves the 64 bits ends there. -/
theorem add_of_wrap_nonneg {x delta : Int} (hx : 0 ≤ x) (hx' : x < 2 ^ 63) (hdelta : InRange delta)
    (h : 0 ≤ wrap64 (x + delta)) : 0 ≤ x + delta ∧ x + delta < 2 ^ 63 := by
  obtain ⟨hlo, hhi⟩ := hdelta
  by_cases hlt : x + delta < 2 ^ 63
  · rw [wrap64_of_inRange ⟨by omega, hlt⟩] at h
    exact ⟨h, hlt⟩
  · have hwrap : wrap64 (x + delta) = x + delta - 2 ^ 64 := by
      unfold wrap64
      rw [Int.bmod_eq_iff] <;> omega
    omega

/-- Within the balances, an entry is counted exactly. -/
theorem count_of_applied (hnonneg : 0 ≤ a.balance ∧ 0 ≤ a.frozenBalance)
    (hbounded : a.balance < 2 ^ 63 ∧ a.frozenBalance < 2 ^ 63) (hfits : r.Fits a)
    (h : applyDelta a r.ledgerType r.delta = .ok a') :
    a' = count a (r.row a') ∧ (0 ≤ a'.balance ∧ 0 ≤ a'.frozenBalance) ∧
      a'.balance < 2 ^ 63 ∧ a'.frozenBalance < 2 ^ 63 := by
  have hdelta := r.delta_inRange
  -- the types are told apart by their names
  have hfreeze : ∀ t, t = pointLedgerTypeEarn ∨ t = pointLedgerTypeRefund ∨ t = pointLedgerTypeSpend →
      t ≠ pointLedgerTypeFreeze ∧ t ≠ pointLedgerTypeRelease := by
    rintro t (rfl | rfl | rfl) <;> decide
  unfold applyDelta at h
  unfold PointRequest.Fits at hfits
  show a' = (if r.ledgerType = pointLedgerTypeFreeze then
      { a with frozenBalance := a.frozenBalance + r.delta }
    else if r.ledgerType = pointLedgerTypeRelease then
      { a with frozenBalance := a.frozenBalance + r.delta, balance := a.balance - r.delta }
    else { a with balance := a.balance + r.delta }) ∧ _
  by_cases hearn : r.ledgerType = pointLedgerTypeEarn ∨ r.ledgerType = pointLedgerTypeRefund
  · rw [if_pos hearn] at h hfits
    obtain ⟨hne, hne'⟩ := hfreeze r.ledgerType (hearn.imp_right .inl)
    rw [if_neg hne, if_neg hne']
    rw [wrap64_of_inRange ⟨by omega, hfits.2⟩] at h
    cases h
    exact ⟨rfl, ⟨hfits.1, hnonneg.2⟩, hfits.2, hbounded.2⟩
  rw [if_neg hearn] at h hfits
  by_cases hspend : r.ledgerType = pointLedgerTypeSpend
  · rw [if_pos hspend] at h
    obtain ⟨hne, hne'⟩ := hfreeze r.ledgerType (.inr (.inr hspend))
    rw [if_neg hne, if_neg hne']
    split at h
    · cases h
    next hguard =>
      obtain ⟨hlo, hhi⟩ := add_of_wrap_nonneg hnonneg.1 hbounded.1 hdelta (not_lt.1 hguard)
      rw [wrap64_of_inRange ⟨by omega, hhi⟩] at h
      cases h
      exact ⟨rfl, ⟨hlo, hnonneg.2⟩, hhi, hbounded.2⟩
  rw [if_neg hspend] at h
  by_cases hfrozen : r.ledgerType = pointLedgerTypeFreeze
  · rw [if_pos hfrozen] at h hfits
    rw [if_pos hfrozen]
    rw [wrap64_of_inRange ⟨by omega, hfits.2⟩] at h
    cases h
    exact ⟨rfl, ⟨hnonneg.1, hfits.1⟩, hbounded.1, hfits.2⟩
  rw [if_neg hfrozen] at h hfits
  by_cases hrelease : r.ledgerType = pointLedgerTypeRelease
  · rw [if_pos hrelease] at h hfits
    rw [if_neg hfrozen, if_pos hrelease]
    split at h
    · cases h
    next hguard =>
      obtain ⟨hlo, hhi⟩ := add_of_wrap_nonneg hnonneg.2 hbounded.2 hdelta (not_lt.1 hguard)
      rw [wrap64_of_inRange ⟨by omega, hhi⟩, wrap64_of_inRange ⟨by omega, hfits.2⟩] at h
      cases h
      exact ⟨rfl, ⟨hfits.1, hlo⟩, hfits.2, hhi⟩
  · rw [if_neg hrelease] at h
    cases h

theorem Audited.added {out : PointRequest × PointLedger × Bool} (h : Audited c)
    (hadded : Added out c c')
    (hfits : c.hasKey out.1.key = false → out.1.Fits (c.account out.1.userID)) : Audited c' := by
  cases hadded with
  | found r row => exact h
  | entry r _ _ a' hnew happlied haccounts hledger =>
    obtain ⟨hcount, hnonneg, hbounded⟩ := count_of_applied (h.nonneg r.userID)
      (h.bounded r.userID) (hfits hnew) happlied
    have haccount : ∀ u, c'.account u = if u = r.userID then a' else c.account u := by
      intro u
      unfold Store.account
      rw [haccounts]
      by_cases hu : u = r.userID
      · subst hu
        simp
      · simp [hu]
    have hfolded : ∀ u, c'.account u = folded u c'.ledger := by
      intro u
      rw [haccount, hledger, folded_concat]
      by_cases hu : u = r.userID
      · rw [if_pos hu, if_pos (show (r.row a').userID = u from hu.symm), hu, ← h.folded]
        exact hcount
      · rw [if_neg hu, if_neg (show ¬ (r.row a').userID = u from fun e => hu e.symm), h.folded]
    constructor
    case bounded =>
      intro u
      rw [haccount]
      split
      · exact hbounded
      · exact h.bounded u
    constructor
    case nonneg =>
      intro u
      rw [haccount]
      split
      · exact hnonneg
      · exact h.nonneg u
    case folded => exact hfolded
    case after =>
      intro pre row hpre
      rw [hledger, List.prefix_concat_iff] at hpre
      rcases hpre with heq | hpre
      · obtain ⟨rfl, hr⟩ := List.append_inj' heq rfl
        cases hr
        rw [← hledger, ← hfolded, haccount]
        exact (if_pos rfl).symm
      · exact h.after pre row hpre
    case keys =>
      rw [hledger, List.map_append, List.map_singleton, List.nodup_append]
      refine ⟨h.keys, List.nodup_singleton _, fun k hk k' hk' e => ?_⟩
      rw [List.mem_singleton] at hk'
      obtain ⟨row, hrow, rfl⟩ := List.mem_map.1 hk
      have hdiffer := List.any_eq_false.1 hnew row hrow
      exact hdiffer (by simp [e, hk', PointRequest.row])

end Law

section Transactions

/-- Keys that are locked stay in or out of use. -/
instance : Parts Store String where
  agree key s s' := s.hasKey key = s'.hasKey key
  agree_refl _ _ := rfl
  agree_trans _ _ _ _ h h' := h.trans h'

/-- An account that was read is as it was. -/
instance : Parts Store Int where
  agree u s s' := s.accounts u = s'.accounts u
  agree_refl _ _ := rfl
  agree_trans _ _ _ _ h h' := h.trans h'

variable {I F : Store → Prop} {userID : Int}

theorem withAccount_accounts (userID : Int) (c : Store) :
    (c.withAccount userID).accounts userID = some (c.account userID) := by
  unfold Store.withAccount Store.account
  cases h : c.accounts userID with
  | some account => simp [h]
  | none => simp

@[simp] theorem withAccount_ledger (userID : Int) (c : Store) :
    (c.withAccount userID).ledger = c.ledger := by
  unfold Store.withAccount
  split <;> rfl

@[simp] theorem update_withAccount (userID : Int) (c : Store) (a : Option PointAccount) :
    Function.update (c.withAccount userID).accounts userID a =
      Function.update c.accounts userID a := by
  unfold Store.withAccount
  split
  · rfl
  · simp

/-- The account is the one that is committed. -/
theorem wp_ensurePointAccountTx :
    wp I (ensurePointAccountTx userID) id F fun a w F' =>
      (∀ c, F' c → F c ∧ c.account userID = a) ∧ (∀ c, (w c).ledger = c.ledger) ∧
        ∀ c a', Function.update (w c).accounts userID (some a') =
          Function.update c.accounts userID (some a') := by
  unfold ensurePointAccountTx
  split
  next => trivial
  next =>
    apply wp_bind
    apply wp_step
    intro _ F₁ _ _ hF₁
    apply wp_stepE
    intro c₀ a F₂ _ _ hread hF₂
    have ha : c₀.account userID = a := by
      simp only [id, withAccount_accounts, Except.ok.injEq] at hread
      exact hread
    have hstate : ∀ c : Store, (match (c.withAccount userID).accounts userID with
        | some account => ((.ok account : Except Error PointAccount), c.withAccount userID)
        | none => (.error .recordNotFound, c.withAccount userID)).2 = c.withAccount userID := by
      intro c
      rw [withAccount_accounts]
    refine ⟨fun c hc => ?_, fun c => ?_, fun c a' => ?_⟩
    · obtain ⟨hF₁', -, hview⟩ := hF₂ c hc
      have hsame : c₀.accounts userID = c.accounts userID := hview userID (by simp)
      refine ⟨(hF₁ c hF₁').1, ?_⟩
      rw [← ha, Store.account, Store.account, hsame]
    · simp only [id, hstate, withAccount_ledger]
    · simp only [id, hstate, update_withAccount]

theorem PointRequest.ensures (r : PointRequest) :
    Ensures (fun _ => True) r.code Added := by
  unfold Ensures PointRequest.code addPointLedgerTx
  apply wp_bind
  split
  next => trivial
  next =>
    apply wp_bind
    apply wp_step
    intro c₀ F₁ _ _ _
    show wp _ (match c₀.ledger.find? (·.idempotencyKey = r.key) with
      | some existing => _ | none => _) _ _ _
    cases c₀.ledger.find? (·.idempotencyKey = r.key) with
    | some existing => exact fun c _ _ => .found r existing c
    | none =>
      apply wp_bind
      apply wp_mono wp_ensurePointAccountTx
      rintro account w F₂ ⟨hread, hledger, haccounts⟩
      cases happlied : applyDelta account r.ledgerType r.delta with
      | error e => trivial
      | ok a' =>
        show wp _ (saveAccount r.userID a' >>= fun _ => _) _ _ _
        apply wp_bind
        apply wp_step
        intro _ F₃ _ _ hF₃
        apply wp_bind
        apply wp_stepE
        intro c₁ _ F₄ _ _ hcreated hF₄ c _ hc
        obtain ⟨hc₃, hlock, -⟩ := hF₄ c hc
        have hnew₁ : c₁.hasKey r.key = false := by
          by_contra hany
          rw [Bool.not_eq_false] at hany
          simp only [Store.hasKey, hledger] at hany hcreated
          rw [if_pos hany] at hcreated
          cases hcreated
        have hnew : c.hasKey r.key = false := by
          have hsame : c₁.hasKey r.key = c.hasKey r.key := hlock r.key (by simp)
          rw [← hsame, hnew₁]
        have haccount := (hread c (hF₃ c hc₃).1).2
        subst haccount
        apply Added.entry r c _ a' hnew happlied
        · simp only [Store.hasKey, hledger] at hnew ⊢
          rw [if_neg (by simp [hnew])]
          exact haccounts c a'
        · simp only [Store.hasKey, hledger] at hnew ⊢
          rw [if_neg (by simp [hnew])]
          rfl

theorem framed_ensurePointAccountTx (userID : Int) : Framed (ensurePointAccountTx userID) := by
  apply Framed.ite
  · trivial
  refine .bind ⟨fun s x _ => ?_, fun _ => trivial⟩ fun _ => ⟨fun s x _ => ?_, fun b => ?_⟩
  · show s.hasKey x = (s.withAccount userID).hasKey x
    simp [Store.hasKey]
  · dsimp only
    split <;> rfl
  · cases b <;> trivial

theorem framed_createLedger (row : PointLedger) : Framed (createLedger row) := by
  refine ⟨fun s x hx => ?_, fun b => by cases b <;> trivial⟩
  have hdiffer : row.idempotencyKey ≠ x := by simpa [eq_comm] using hx
  show s.hasKey x = Store.hasKey x _
  dsimp only
  split
  · rfl
  · simp [Store.hasKey, hdiffer]

theorem PointRequest.framed (r : PointRequest) : Framed r.code := by
  refine .bind ?_ fun _ => trivial
  unfold addPointLedgerTx
  apply Framed.ite
  · trivial
  refine .bind ⟨fun s x _ => rfl, fun _ => trivial⟩ fun found => ?_
  cases found with
  | some existing => trivial
  | none =>
    refine .bind (framed_ensurePointAccountTx r.userID) fun account => ?_
    cases happlied : applyDelta account r.ledgerType r.delta with
    | error e => trivial
    | ok a' =>
      refine .bind (p := saveAccount r.userID a') ⟨fun s x _ => rfl, fun _ => trivial⟩ fun _ => ?_
      exact .bind (framed_createLedger _) fun _ => trivial

end Transactions

abbrev PointSystem :=
  System Store String Int Error (PointRequest × PointLedger × Bool)

/-- A request whose key has no entry yet commits only if it fits the account. -/
def Fitting (s : PointSystem) : Move PointRequest → Prop
  | .commit i => ∀ t r out, s.txns[i]? = some t → t.prog = .ret (r, out) →
      s.committed.hasKey r.key = false → r.Fits (s.committed.account r.userID)
  | _ => True

/-- No commit changes an account that a transaction in flight has read, and each request fits. -/
structure Fair (s : PointSystem) (m : Move PointRequest) : Prop where
  undisturbed : Undisturbed s m
  fitting : Fitting s m

theorem audited_fresh {s₀ : Store} (haccounts : s₀.accounts = fun _ => none)
    (hledger : s₀.ledger = []) : Audited s₀ := by
  have haccount : ∀ u, s₀.account u = {} := by
    intro u
    rw [Store.account, haccounts]
    rfl
  constructor
  case bounded => simp [haccount]
  constructor
  case nonneg => simp [haccount]
  case folded => simp [haccount, hledger, folded]
  case after => simp [hledger]
  case keys => simp [hledger]

/-- As long as no account that is in use changes and each request fits: the balances are not
negative and are those of the entries, and the commit of a request whose key has an entry changes
nothing. -/
theorem points_reconcile {s₀ : Store} (haccounts : s₀.accounts = fun _ => none)
    (hledger : s₀.ledger = []) {s : PointSystem} (h : Reach PointRequest.code Fair s₀ s) :
    Reconciled s.committed ∧ ∀ t ∈ s.txns, ∀ r out, t.prog = .ret (r, out) →
      s.committed.hasKey r.key = true → t.pending s.committed = s.committed ∧ out.2 = false := by
  obtain ⟨hsound, haudited⟩ := h.invariant (I := Audited) (fun r => ⟨r.framed, r.ensures⟩)
    (fun _ _ hok => hok.undisturbed)
    (fun s i t out hok ht hout hadded haudited =>
      haudited.added hadded (hok.fitting t out.1 out.2 ht hout))
    (audited_fresh haccounts hledger)
  refine ⟨haudited.toReconciled, fun t ht r out hout hkey => ?_⟩
  have hadded := ((hsound.txns t ht).commits trivial hout).2
  generalize t.pending s.committed = c' at hadded ⊢
  cases hadded with
  | found => exact ⟨rfl, rfl⟩
  | entry _ _ _ a' hnew =>
    rw [hnew] at hkey
    cases hkey

def earnOf (delta : Int) (key : String) (hdelta : InRange delta) : PointRequest :=
  ⟨1, pointLedgerTypeEarn, delta, "campaign", "7", key, "", hdelta⟩

def freezeOf (delta : Int) (key : String) (hdelta : InRange delta) : PointRequest :=
  ⟨1, pointLedgerTypeFreeze, delta, "campaign", "7", key, "", hdelta⟩

def fits (s : PointSystem) : Move PointRequest → Bool
  | .commit i => match s.txns[i]? with
    | some ⟨.ret (r, _), _, _, _⟩ =>
      (r.ledgerType = pointLedgerTypeEarn &&
          decide (0 ≤ (s.committed.account r.userID).balance + r.delta ∧
            (s.committed.account r.userID).balance + r.delta < 2 ^ 63)) ||
        (r.ledgerType = pointLedgerTypeFreeze &&
          decide (0 ≤ (s.committed.account r.userID).frozenBalance + r.delta ∧
            (s.committed.account r.userID).frozenBalance + r.delta < 2 ^ 63))
    | _ => true
  | _ => true

theorem fitting_of_fits (s : PointSystem) (m : Move PointRequest) (h : fits s m = true) :
    Fitting s m := by
  cases m with
  | start r => trivial
  | act i => trivial
  | abort i => trivial
  | commit i =>
    rintro ⟨p, w, held, watched⟩ r out ht hout -
    simp only at hout
    subst hout
    simp only [fits, ht, Bool.or_eq_true, Bool.and_eq_true, decide_eq_true_eq] at h
    unfold PointRequest.Fits
    rcases h with ⟨htype, hfits⟩ | ⟨htype, hfits⟩
    · rw [if_pos (.inl htype)]
      exact hfits
    · rw [htype, if_neg (by decide), if_pos rfl]
      exact hfits

/-- The transactions in flight, the account of user 1 and the balances its entries leave. -/
def seen (s : PointSystem) : Nat × PointAccount × List (Int × Int) :=
  (s.txns.length, s.committed.account 1,
    s.committed.ledger.map fun row => (row.balanceAfter, row.frozenAfter))

/-- Ten points, four of them frozen, and the first request again. -/
theorem points_reconcile_sample : ∃ s : PointSystem, Reach PointRequest.code Fair {} s ∧
    seen s = (0, ⟨10, 4⟩, [(10, 0), (10, 4)]) ∧ Reconciled s.committed := by
  have hrun : (perform (fun s m => unread s m && fits s m) PointRequest.code ⟨{}, []⟩
      (.start (earnOf 10 "a" (by decide)) :: List.replicate 5 (.act 0) ++ .commit 0 ::
        .start (freezeOf 4 "b" (by decide)) :: List.replicate 5 (.act 0) ++ .commit 0 ::
        .start (earnOf 10 "a" (by decide)) :: [.act 0, .commit 0])).map seen =
      some (0, ⟨10, 4⟩, [(10, 0), (10, 4)]) := by decide
  obtain ⟨s, hs, hseen⟩ := Option.map_eq_some_iff.1 hrun
  have hreach : Reach PointRequest.code Fair {} s := by
    refine Reach.init.perform (fun s m h => ?_) hs
    obtain ⟨hunread, hfits⟩ := Bool.and_eq_true_iff.1 h
    exact ⟨undisturbed_of_unread s m hunread, fitting_of_fits s m hfits⟩
  exact ⟨s, hreach, hseen, (points_reconcile rfl rfl hreach).1⟩

/-- Of two requests that read the account before either commits one is lost, and a negative amount
that is earned leaves a negative balance. -/
theorem points_overdrawn :
    (∃ s : PointSystem, Reach PointRequest.code (fun _ _ => True) {} s ∧
      seen s = (0, ⟨6, 0⟩, [(1, 0), (11, 0), (6, 0)]) ∧ ¬ Reconciled s.committed) ∧
    ∃ s : PointSystem, Reach PointRequest.code (fun _ _ => True) {} s ∧
      seen s = (0, ⟨-5, 0⟩, [(-5, 0)]) ∧ ¬ Reconciled s.committed := by
  constructor
  · have hrun : (perform (fun _ _ => true) PointRequest.code ⟨{}, []⟩
        (.start (earnOf 1 "z" (by decide)) :: List.replicate 5 (.act 0) ++ .commit 0 ::
          .start (earnOf 10 "a" (by decide)) :: .start (earnOf 5 "b" (by decide)) ::
          List.replicate 3 (.act 1) ++ List.replicate 5 (.act 0) ++ .commit 0 ::
          .act 0 :: .act 0 :: [.commit 0])).map
          (fun s => (seen s, folded 1 s.committed.ledger)) =
        some ((0, ⟨6, 0⟩, [(1, 0), (11, 0), (6, 0)]), ⟨16, 0⟩) := by decide
    obtain ⟨s, hs, hobs⟩ := Option.map_eq_some_iff.1 hrun
    obtain ⟨hseen, hfolded⟩ := Prod.mk.inj hobs
    refine ⟨s, Reach.init.perform (fun _ _ _ => trivial) hs, hseen, fun hreconciled => ?_⟩
    have haccount : s.committed.account 1 = ⟨6, 0⟩ := (Prod.mk.inj (Prod.mk.inj hseen).2).1
    have hsum := hreconciled.folded 1
    rw [haccount, hfolded] at hsum
    exact absurd hsum (by decide)
  · have hrun : (perform (fun _ _ => true) PointRequest.code ⟨{}, []⟩
        (.start (earnOf (-5) "a" (by decide)) :: List.replicate 5 (.act 0) ++ [.commit 0])).map
          seen = some (0, ⟨-5, 0⟩, [(-5, 0)]) := by decide
    obtain ⟨s, hs, hseen⟩ := Option.map_eq_some_iff.1 hrun
    refine ⟨s, Reach.init.perform (fun _ _ _ => trivial) hs, hseen, fun hreconciled => ?_⟩
    have haccount : s.committed.account 1 = ⟨-5, 0⟩ := (Prod.mk.inj (Prod.mk.inj hseen).2).1
    have hnonneg := (hreconciled.nonneg 1).1
    rw [haccount] at hnonneg
    exact absurd hnonneg (by decide)

end CodeGo.Billing.Points
