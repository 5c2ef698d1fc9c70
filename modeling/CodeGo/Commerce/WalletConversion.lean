import CodeGo.Billing.MirrorBalance
import CodeGo.Billing.Session

/-!
# Conversions between the wallets

`wallet_quota_conversion.go` in `internal/commerce/app`: quota of a user moved between
the standard and the Claude wallet, four standard units to one Claude unit. One call is
one transaction; `u` lists the identifiers that `GetUUID` hands out during it.
-/

namespace CodeGo.Commerce.WalletConversion

open Lib Lib.Prog Lib.Trim Lib.Wrap Billing.Schema Billing.Wallet Billing.CreditReplay
  Billing.MirrorBalance Billing.Names Billing.Session Platform.Database Identity.Schema
  Identity.Store

def walletQuotaConversionStandardToClaude : String := "standard_to_claude"
def walletQuotaConversionClaudeToStandard : String := "claude_to_standard"
def walletQuotaConversionStatusCompleted : String := "completed"
def walletQuotaStandardPerClaude : Int := 4

def errWalletQuotaConversionInvalid : Err := .message "额度转换参数无效"
def errWalletQuotaConversionInsufficient : Err := .message "可转换额度不足"
def errWalletQuotaConversionInexact : Err := .message "普通额度转 Claude 额度必须满足 4:1 的完整比例"

structure WalletQuotaConversion where
  userID : Int
  requestID : String
  direction : String
  status : String
  sourceQuota : Int
  targetQuota : Int
  standardQuotaBefore : Int
  standardQuotaAfter : Int
  claudeQuotaBefore : Int
  claudeQuotaAfter : Int
  deriving DecidableEq, Repr

/-- The unique index on the request stands for the primary key, which nothing reads. -/
instance : Indexed WalletQuotaConversion String where
  pk := WalletQuotaConversion.requestID
  clash c d := c.requestID = d.requestID
  clash_comm c d := by simp only [eq_comm]
  clash_of_pk c d h := by simp [h]

@[simp] theorem pk_conversion (c : WalletQuotaConversion) : pk c = c.requestID := rfl

structure CreateWalletQuotaConversionRequest where
  direction : String
  sourceQuota : Int
  requestID : String

/-- The records of conversions beside the tables of the other services. -/
structure Store where
  services : DB
  conversions : Table WalletQuotaConversion
  deriving DecidableEq

abbrev Flow (α : Type) := Prog Store Unit Err α

/-- Functions of the other services inside the transaction. -/
def onServices {α : Type} (p : App α) : Flow α :=
  p.zoom Store.services (fun db s => { s with services := db }) fun _ => ()

theorem run_onServices {α : Type} (p : App α) (s : Store) :
    (onServices p).run s = ((p.run s.services).1, { s with services := (p.run s.services).2 }) := by
  unfold onServices
  apply run_zoom
  · exact fun _ _ => rfl
  · exact fun _ => rfl
  · exact fun _ _ _ => rfl

/-- The text of an overflow is the invalid request's, followed by `: target overflow`. -/
def calculateWalletQuotaConversionTarget (direction : String) (sourceQuota : Int) :
    Except Err Int :=
  if sourceQuota ≤ 0 then .error errWalletQuotaConversionInvalid
  else if direction = walletQuotaConversionStandardToClaude then
    if sourceQuota % walletQuotaStandardPerClaude ≠ 0 then .error errWalletQuotaConversionInexact
    else .ok (sourceQuota / walletQuotaStandardPerClaude)
  else if sourceQuota > (2 ^ 63 - 1) / walletQuotaStandardPerClaude then
    .error (.wrap "target overflow" errWalletQuotaConversionInvalid)
  else .ok (sourceQuota * walletQuotaStandardPerClaude)

def mapWalletQuotaDebitError (err : Err) : Err :=
  if isInsufficientBalance err then errWalletQuotaConversionInsufficient else err

def operationID (requestID : String) : String := "wallet-conversion:" ++ requestID

/-- A case of the switch on the direction: a debit of one wallet, then a credit of the other. -/
def moveQuota (u : Uuids) (source target : Wallet) (userID sourceQuota targetQuota before : Int)
    (requestID : String) : Flow Unit :=
  if before < sourceQuota then .fail errWalletQuotaConversionInsufficient
  else do
    match ← (onServices (debitQuotaTx source u userID sourceQuota
        (operationID requestID ++ ":debit"))).attempt with
    | .error err => .fail (mapWalletQuotaDebitError err)
    | .ok () =>
      onServices (creditQuotaTx target (u.drop 16) userID targetQuota
        (operationID requestID ++ ":credit") "wallet_quota_conversion_credit")

def createConversion (conversion : WalletQuotaConversion) : Flow Unit :=
  .stepE () fun s => match s.conversions.insert? conversion with
    | some t => (.ok (), { s with conversions := t })
    | none => (.error .duplicateKey, s)

/-- The switch on the direction. -/
def moveByDirection (u : Uuids) (userID : Int) (user : User) (requestID : String)
    (req : CreateWalletQuotaConversionRequest) (targetQuota : Int) : Flow Unit :=
  if req.direction = walletQuotaConversionStandardToClaude then
    moveQuota u .wallet .claudeWallet userID req.sourceQuota targetQuota user.quota requestID
  else
    moveQuota u .claudeWallet .wallet userID req.sourceQuota targetQuota user.claudeQuota requestID

/-- The transaction of a request that has no record yet. -/
def createWalletQuotaConversionTx (u : Uuids) (userID : Int) (user : User) (requestID : String)
    (req : CreateWalletQuotaConversionRequest) (targetQuota : Int) : Flow WalletQuotaConversion := do
  moveByDirection u userID user requestID req targetQuota
  let standardAfter ← onServices (loadQuota .wallet userID)
  let claudeAfter ← onServices (loadQuota .claudeWallet userID)
  let conversion : WalletQuotaConversion := {
    userID := userID
    requestID := requestID
    direction := req.direction
    status := walletQuotaConversionStatusCompleted
    sourceQuota := req.sourceQuota
    targetQuota := targetQuota
    standardQuotaBefore := user.quota
    standardQuotaAfter := standardAfter
    claudeQuotaBefore := user.claudeQuota
    claudeQuotaAfter := claudeAfter }
  createConversion conversion
  return conversion

def convertWalletQuotaTx (u : Uuids) (userID : Int) (requestID : String)
    (req : CreateWalletQuotaConversionRequest) : Flow WalletQuotaConversion := do
  let user ← onServices (readOrFail .recordNotFound fun db => db.users.get? userID)
  match ← .step () fun s => (s.conversions.get? requestID, s) with
  | some existing =>
    if existing.userID ≠ userID ∨ existing.direction ≠ req.direction ∨
        existing.sourceQuota ≠ req.sourceQuota then .fail errWalletQuotaConversionInvalid
    else return existing
  | none =>
    match calculateWalletQuotaConversionTarget req.direction req.sourceQuota with
    | .error err => .fail err
    | .ok targetQuota => createWalletQuotaConversionTx u userID user requestID req targetQuota

/-- The checks of `ConvertWalletQuota`, and its transaction. -/
def convertWalletQuota (u : Uuids) (userID : Int) (req : CreateWalletQuotaConversionRequest) :
    Flow WalletQuotaConversion :=
  let requestID := trimSpace req.requestID
  if userID ≤ 0 ∨ requestID = "" ∨ requestID.utf8ByteSize > 128 ∨ req.sourceQuota ≤ 0 then
    .fail errWalletQuotaConversionInvalid
  else if req.direction ≠ walletQuotaConversionStandardToClaude ∧
      req.direction ≠ walletQuotaConversionClaudeToStandard then
    .fail errWalletQuotaConversionInvalid
  else convertWalletQuotaTx u userID requestID req

end CodeGo.Commerce.WalletConversion

/-!
# What a conversion is worth

A conversion moves one amount between the quota columns of a user, and leaves the ledger
of each wallet equal to its column. No other row bears the keys of a conversion, so the
one record of a request tells for good whether it was carried out.
-/

namespace CodeGo.Commerce.WalletConversion

open Lib Lib.Prog Lib.Trim Lib.Wrap Billing.Schema Billing.Wallet Billing.CreditReplay
  Billing.MirrorBalance Billing.Names Billing.Session Platform.Database Identity.Schema
  Identity.Store

section Keys

variable {R R' k o o' x : String} {u : Uuids} {userID : Int} {w : Wallet}

/-- The key of a ledger change that belongs to an operation. -/
def LedgerKey (o k : String) : Prop :=
  k = "ledger-credit:" ++ o ∨ k = "ledger-reservation:" ++ o ∨ k = "ledger-settlement:" ++ o

theorem LedgerKey.inj (h : LedgerKey o k) (h' : LedgerKey o' k) : o = o' := by
  have hcr : ∀ x y, "ledger-credit:" ++ x ≠ "ledger-reservation:" ++ y :=
    append_ne_append (by decide) (by decide)
  have hcs : ∀ x y, "ledger-credit:" ++ x ≠ "ledger-settlement:" ++ y :=
    append_ne_append (by decide) (by decide)
  have hrs : ∀ x y, "ledger-reservation:" ++ x ≠ "ledger-settlement:" ++ y :=
    append_ne_append (by decide) (by decide)
  rcases h with rfl | rfl | rfl <;> rcases h' with h' | h' | h'
  · exact append_inj_left h'
  · exact absurd h' (hcr _ _)
  · exact absurd h' (hcs _ _)
  · exact absurd h'.symm (hcr _ _)
  · exact append_inj_left h'
  · exact absurd h' (hrs _ _)
  · exact absurd h'.symm (hcs _ _)
  · exact absurd h'.symm (hrs _ _)
  · exact append_inj_left h'

theorem LedgerKey.head (h : LedgerKey o k) : k.toList.head? = some 'l' := by
  rcases h with rfl | rfl | rfl
  · exact head_append (by decide) o
  · exact head_append (by decide) o
  · exact head_append (by decide) o

theorem unlike_of_not_ledgerKey {reason : String} (h : ¬ LedgerKey o k) :
    Unlike (walletSync userID o reason) k :=
  ⟨fun heq => h (.inl heq), fun heq => h (.inr (.inl heq)), fun heq => h (.inr (.inr heq))⟩

/-- The keys that a ledger change writes are its own, but for the entry of the hold. -/
theorem ledgerKey_of_syncKey {reason : String} (ho : Solid o)
    (h : SyncKey (walletSync userID o reason) k) :
    LedgerKey o k ∨ k.toList.head? = some 'e' := by
  have hsolid : ∀ kind : String, solidHead kind = true → trimSpace (kind ++ o) = kind ++ o :=
    fun kind hkind => (ho.append_left hkind).trimSpace_eq
  rcases h with rfl | rfl | rfl | rfl
  · exact .inl (.inl (hsolid _ (by decide)))
  · exact .inl (.inr (.inl (hsolid _ (by decide))))
  · exact .inr (head_append (by decide) _)
  · exact .inl (.inr (.inr (hsolid _ (by decide))))

def debitOperation (requestID : String) : String := operationID requestID ++ ":debit"
def creditKey (requestID : String) : String := operationID requestID ++ ":credit"

/-- The keys that the conversion of a request is recorded under. -/
def Owns (requestID k : String) : Prop :=
  k = creditKey requestID ∨ LedgerKey (debitOperation requestID) k

theorem head_operationID (requestID t : String) :
    (operationID requestID ++ t).toList.head? = some 'w' :=
  head_append (head_append (by decide) requestID) t

theorem solid_debitOperation (requestID : String) : Solid (debitOperation requestID) := by
  have hlast : Solid ":debit" := by decide
  exact hlast.append_left (solidHead_append (by decide))

theorem solid_creditKey (requestID : String) : Solid (creditKey requestID) := by
  have hlast : Solid ":credit" := by decide
  exact hlast.append_left (solidHead_append (by decide))

theorem Owns.head (h : Owns R k) : k.toList.head? = some 'w' ∨ k.toList.head? = some 'l' := by
  rcases h with rfl | h
  · exact .inl (head_operationID R _)
  · exact .inr h.head

theorem not_owns_of_head {c : Char} (h : k.toList.head? = some c) (hw : c ≠ 'w') (hl : c ≠ 'l') :
    ¬ Owns R k := by
  intro howns
  rcases howns.head with hhead | hhead <;> rw [h, Option.some.injEq] at hhead
  · exact hw hhead
  · exact hl hhead

/-- No key belongs to two requests. -/
theorem Owns.inj (h : Owns R k) (h' : Owns R' k) : R = R' := by
  rcases h with rfl | h <;> rcases h' with h' | h'
  · exact append_inj_middle h'
  · have hhead := h'.head
    rw [creditKey, head_operationID] at hhead
    exact absurd hhead (by decide)
  · have hhead := h.head
    rw [h', creditKey, head_operationID] at hhead
    exact absurd hhead (by decide)
  · exact append_inj_middle (h.inj h')

/-- Bringing a wallet in line with its column writes keys of no conversion. -/
theorem not_owns_mirrorKey (huuid : IsUuid (u 3)) (h : MirrorKey u userID w k) : ¬ Owns R k := by
  rcases h with rfl | h
  · exact not_owns_of_head (head_bootstrapKey _ _) (by decide) (by decide)
  · have hsolid : Solid ("reconcile:" ++ u 3) := huuid.solid.append_left (by decide)
    rcases ledgerKey_of_syncKey hsolid h with hkey | hentry
    · rintro (rfl | howns)
      · have hhead := hkey.head
        rw [creditKey, head_operationID] at hhead
        exact absurd hhead (by decide)
      · have hsame := congrArg (fun s : String => s.toList.head?) (hkey.inj howns)
        rw [debitOperation, head_operationID, head_append (c := 'r') (by decide)] at hsame
        exact absurd hsame (by decide)
    · exact not_owns_of_head hentry (by decide) (by decide)

/-- What the debit of a request writes belongs to no other. -/
theorem owner_of_debitKey (h : SyncKey (debitSync userID (debitOperation R)) k)
    (h' : Owns R' k) : R' = R := by
  rcases ledgerKey_of_syncKey (solid_debitOperation R) h with hkey | hentry
  · exact h'.inj (.inr hkey)
  · exact absurd h' (not_owns_of_head hentry (by decide) (by decide))

/-- What the credit of a request writes belongs to no other. -/
theorem owner_of_creditKey (h : k = trimSpace (creditKey R)) (h' : Owns R' k) : R' = R := by
  rw [(solid_creditKey R).trimSpace_eq] at h
  exact h'.inj (.inl h)

/-- What a reconciliation is recorded under ends in the identifier drawn for it. -/
theorem unlike_reconcileSync {n i : Nat} {l : Ledger} (h : Fresh u n l) (hi : i < n) :
    KeysAll (Unlike (reconcileSync userID (u i))) l := by
  have hunused : ∀ kind : String, KeysAll (· ≠ kind ++ ("reconcile:" ++ u i)) l := by
    intro kind
    rw [← String.append_assoc]
    exact keysAll_of_namesAll (h.unused_append _ hi)
  have hc := hunused "ledger-credit:"
  have hr := hunused "ledger-reservation:"
  have hs := hunused "ledger-settlement:"
  exact ⟨fun e he => ⟨hc.entries e he, hr.entries e he, hs.entries e he⟩,
    fun r hmem => ⟨hc.reservations r hmem, hr.reservations r hmem, hs.reservations r hmem⟩,
    fun x hx => ⟨hc.settlements x hx, hr.settlements x hx, hs.settlements x hx⟩⟩

end Keys

/-- What happens elsewhere: it keeps the records of conversions and the rows of users, and writes
keys of no conversion. -/
structure Elsewhere (s s' : Store) : Prop where
  conversions : s'.conversions = s.conversions
  users : ∀ id, (s.services.users.get? id).isSome → (s'.services.users.get? id).isSome
  keys : ∀ P : String → Prop, KeysAll P s.services.ledger → (∀ k, (∀ R, ¬ Owns R k) → P k) →
    KeysAll P s'.services.ledger

/-- A call with identifiers that nothing bears yet, or a step of another service. -/
inductive Step : Store → Store → Prop where
  | convert (s : Store) (u : Uuids) (userID : Int) (req : CreateWalletQuotaConversionRequest)
      (fresh : Fresh u 29 s.services.ledger) : Step s ((convertWalletQuota u userID req).commit s).2
  | elsewhere (s s' : Store) (other : Elsewhere s s') : Step s s'

def Later : Store → Store → Prop := Relation.ReflTransGen Step

/-- Before the first conversion. -/
structure Start (s : Store) : Prop where
  conversions : s.conversions = Table.empty
  keys : KeysAll (fun k => ∀ R, ¬ Owns R k) s.services.ledger

def Reach (s : Store) : Prop := ∃ s₀, Start s₀ ∧ Later s₀ s

/-- Every key of a conversion in the ledger belongs to a recorded one. -/
def OwnersRecorded (s : Store) : Prop :=
  KeysAll (fun k => ∀ R, Owns R k → (s.conversions.get? R).isSome) s.services.ledger

/-- Two wallets counted in standard units. -/
def worth (standard claude : Int) : Int := standard + walletQuotaStandardPerClaude * claude

def columnWorth (userID : Int) (s : Store) : Int :=
  worth (quotaColumn .wallet userID s.services) (quotaColumn .claudeWallet userID s.services)

def ledgerWorth (userID : Int) (s : Store) : Int :=
  worth (ledgerBalance .wallet userID s.services) (ledgerBalance .claudeWallet userID s.services)

/-- The wallet that a conversion takes from, and the one it gives to. -/
def source (direction : String) : Wallet :=
  if direction = walletQuotaConversionStandardToClaude then .wallet else .claudeWallet

def target (direction : String) : Wallet :=
  if direction = walletQuotaConversionStandardToClaude then .claudeWallet else .wallet

/-- One amount went from wallet to wallet, and both ledger accounts are in line with the columns. -/
structure Moved (userID : Int) (direction : String) (sourceQuota targetQuota : Int) (s s' : Store) :
    Prop where
  positive : 0 < sourceQuota ∧ 0 < targetQuota
  toClaude : direction = walletQuotaConversionStandardToClaude →
    sourceQuota = walletQuotaStandardPerClaude * targetQuota
  toStandard : direction ≠ walletQuotaConversionStandardToClaude →
    targetQuota = walletQuotaStandardPerClaude * sourceQuota
  taken : quotaColumn (source direction) userID s'.services =
    quotaColumn (source direction) userID s.services - sourceQuota
  given : quotaColumn (target direction) userID s'.services =
    quotaColumn (target direction) userID s.services + targetQuota
  ledgers : ∀ w, ledgerBalance w userID s'.services = wrap64 (quotaColumn w userID s'.services)
  others : ∀ w id, id ≠ userID → quotaColumn w id s'.services = quotaColumn w id s.services ∧
    ledgerBalance w id s'.services = ledgerBalance w id s.services

/-- The record of a conversion that was carried out. -/
def recordOf (userID : Int) (req : CreateWalletQuotaConversionRequest) (targetQuota : Int)
    (s s' : Store) : WalletQuotaConversion where
  userID := userID
  requestID := trimSpace req.requestID
  direction := req.direction
  status := walletQuotaConversionStatusCompleted
  sourceQuota := req.sourceQuota
  targetQuota := targetQuota
  standardQuotaBefore := quotaColumn .wallet userID s.services
  standardQuotaAfter := quotaColumn .wallet userID s'.services
  claudeQuotaBefore := quotaColumn .claudeWallet userID s.services
  claudeQuotaAfter := quotaColumn .claudeWallet userID s'.services

section Calls

variable {u : Uuids} {userID : Int} {s s' : Store} {R : String} {w w' : Wallet}
  {amount amount' : Int}

theorem onServices_ok {α : Type} {p : App α} {a : α} (h : (onServices p).run s = (.ok a, s')) :
    ∃ db, p.run s.services = (.ok a, db) ∧ s' = { s with services := db } := by
  rw [run_onServices] at h
  obtain ⟨hr, rfl⟩ := Prod.mk.injEq .. ▸ h
  exact ⟨_, Prod.ext hr rfl, rfl⟩

/-- A debit and a credit of the two wallets of a user. -/
structure Switched (R : String) (w w' : Wallet) (userID amount amount' : Int) (db db' : DB) :
    Prop where
  user : (db.users.get? userID).isSome
  taken : quotaColumn w userID db' = quotaColumn w userID db - amount
  given : quotaColumn w' userID db' = quotaColumn w' userID db + amount'
  ledgers : ∀ v, ledgerBalance v userID db' = wrap64 (quotaColumn v userID db')
  others : ∀ v id, id ≠ userID → quotaColumn v id db' = quotaColumn v id db ∧
    ledgerBalance v id db' = ledgerBalance v id db
  users : ∀ id, (db.users.get? id).isSome → (db'.users.get? id).isSome
  keys : ∀ P : String → Prop, KeysAll P db.ledger → (∀ k, (∀ R', Owns R' k → R' = R) → P k) →
    KeysAll P db'.ledger

theorem isSome_addToColumn (w : Wallet) (userID amount id : Int) (db : DB) :
    ((addToColumn w userID amount db).users.get? id).isSome = (db.users.get? id).isSome := by
  unfold addToColumn
  rw [Table.get?_update]
  split
  next heq =>
    rw [heq]
    cases db.users.get? userID <;> rfl
  next => rfl

theorem quotaColumn_congr {db db' : DB} (h : db'.users = db.users) (v : Wallet) (id : Int) :
    quotaColumn v id db' = quotaColumn v id db := by
  rw [quotaColumn, h, quotaColumn]

/-- The keys of the debit are apart from the reconciliation that the credit makes. -/
theorem unlike_second (hfresh : Fresh u 29 s.services.ledger) {k : String}
    (h : MirrorKey u userID w k ∨ SyncKey (debitSync userID (debitOperation R)) k) :
    Unlike (reconcileSync userID (u 19)) k := by
  have hfirst : Solid ("reconcile:" ++ u 3) :=
    (hfresh.solid (by decide : 3 < 29)).append_left (by decide)
  apply unlike_of_not_ledgerKey
  intro hkey
  have hl := hkey.head
  rcases h with (rfl | h) | h
  · rw [head_bootstrapKey] at hl
    exact absurd hl (by decide)
  · rcases ledgerKey_of_syncKey hfirst h with hk | hk
    · have huuid := append_inj_left (hk.inj hkey)
      exact absurd (hfresh.inj 3 (by decide) 19 (by decide) huuid) (by decide)
    · rw [hk] at hl
      exact absurd hl (by decide)
  · rcases ledgerKey_of_syncKey (solid_debitOperation R) h with hk | hk
    · have hsame := congrArg (fun s : String => s.toList.head?) (hk.inj hkey)
      rw [debitOperation, head_operationID, head_append (c := 'r') (by decide)] at hsame
      exact absurd hsame (by decide)
    · rw [hk] at hl
      exact absurd hl (by decide)

theorem switched_of_run {db db₁ db₂ : DB} {reason : String} (hne : w ≠ w')
    (hfresh : Fresh u 29 db.ledger) (hunused : KeysAll (fun k => ¬ Owns R k) db.ledger)
    (hdebit : (debitQuotaTx w u userID amount (debitOperation R)).run db = (.ok (), db₁))
    (hcredit : (creditQuotaTx w' (u.drop 16) userID amount' (creditKey R) reason).run db₁ =
      (.ok (), db₂)) : Switched R w w' userID amount amount' db db₂ := by
  have hunlike : ∀ k, ¬ Owns R k → Unlike (debitSync userID (debitOperation R)) k :=
    fun k hk => unlike_of_not_ledgerKey fun hkey => hk (.inr hkey)
  have hmirror : ∀ k, MirrorKey u userID w k → ∀ R, ¬ Owns R k :=
    fun k hk R => not_owns_mirrorKey (hfresh.uuid 3 (by decide)) hk
  have hmirror' : ∀ k, MirrorKey (u.drop 16) userID w' k → ∀ R, ¬ Owns R k :=
    fun k hk R => not_owns_mirrorKey (hfresh.uuid 19 (by decide)) hk
  obtain ⟨⟨-, huser⟩, hfirst⟩ := debitQuotaTx_changed hdebit
    (unlike_reconcileSync hfresh (by decide)) (hunused.mono hunlike)
    fun k hk => hunlike k (hmirror k hk R)
  have hreconcile : KeysAll (Unlike (reconcileSync userID (u 19))) db₁.ledger :=
    hfirst.keys _ (unlike_reconcileSync hfresh (by decide)) fun k hk =>
      unlike_second (s := ⟨db, Table.empty⟩) hfresh hk
  have hnew : KeysAll (· ≠ creditKey R) db₁.ledger := by
    refine hfirst.keys _ (hunused.mono fun k hk heq => hk (.inl heq)) fun k hk heq => ?_
    rcases hk with hk | hk
    · exact hmirror k hk R (.inl heq)
    · rcases ledgerKey_of_syncKey (solid_debitOperation R) hk with hkey | hentry
      · have hhead := hkey.head
        rw [heq, creditKey, head_operationID] at hhead
        exact absurd hhead (by decide)
      · rw [heq, creditKey, head_operationID] at hentry
        exact absurd hentry (by decide)
  have hsecond := creditQuotaTx_changed hcredit hreconcile hnew
    fun k hk heq => hmirror' k hk R (.inl heq)
  -- the columns, of which the credit sees the debit already
  have hcolumn₁ : ∀ v id, quotaColumn v id db₁ =
      quotaColumn v id db + if v = w ∧ id = userID then -amount else 0 := by
    intro v id
    rw [quotaColumn_congr hfirst.users, quotaColumn_addToColumn]
    simp only [huser, and_true]
  have huser₁ : (db₁.users.get? userID).isSome := by
    rw [hfirst.users, isSome_addToColumn]
    exact huser
  have hcolumn₂ : ∀ v id, quotaColumn v id db₂ =
      quotaColumn v id db₁ + if v = w' ∧ id = userID then amount' else 0 := by
    intro v id
    rw [quotaColumn_congr hsecond.users, quotaColumn_addToColumn]
    simp only [huser₁, and_true]
  refine ⟨huser, ?_, ?_, fun v => ?_, fun v id hid => ⟨?_, ?_⟩, fun id hid => ?_, fun P hP hPk => ?_⟩
  · rw [hcolumn₂, hcolumn₁, if_pos ⟨rfl, rfl⟩, if_neg fun h => hne h.1]
    omega
  · rw [hcolumn₂, hcolumn₁, if_neg fun h => hne h.1.symm, if_pos ⟨rfl, rfl⟩]
    omega
  · by_cases hv : v = w'
    · rw [hv, hsecond.balance, hcolumn₂, if_pos ⟨rfl, rfl⟩]
    · have hvw : v = w := by
        cases v <;> cases w <;> cases w' <;> simp_all
      rw [hsecond.others v userID (.inl hv), hvw, hfirst.balance, hcolumn₂, hcolumn₁,
        if_pos ⟨rfl, rfl⟩, if_neg fun h => hne h.1, Int.add_zero]
  · rw [hcolumn₂, hcolumn₁, if_neg fun h => hid h.2, if_neg fun h => hid h.2]
    omega
  · rw [hsecond.others v id (.inr hid), hfirst.others v id (.inr hid)]
  · rw [hsecond.users, isSome_addToColumn, hfirst.users, isSome_addToColumn]
    exact hid
  · refine hsecond.keys P (hfirst.keys P hP fun k hk => hPk k fun R' hR' => ?_) fun k hk =>
      hPk k fun R' hR' => ?_
    · rcases hk with hk | hk
      · exact absurd hR' (hmirror k hk R')
      · exact owner_of_debitKey hk hR'
    · rcases hk with hk | hk
      · exact absurd hR' (hmirror' k hk R')
      · exact owner_of_creditKey hk hR'

end Calls

section Requests

variable {u : Uuids} {userID : Int} {req : CreateWalletQuotaConversionRequest} {s s' : Store}
  {row : WalletQuotaConversion} {R : String} {w w' : Wallet} {sourceQuota targetQuota before : Int}

theorem moveQuota_ok
    (h : (moveQuota u w w' userID sourceQuota targetQuota before R).run s = (.ok (), s')) :
    ∃ db₁ db₂, (debitQuotaTx w u userID sourceQuota (debitOperation R)).run s.services =
        (.ok (), db₁) ∧
      (creditQuotaTx w' (u.drop 16) userID targetQuota (creditKey R)
        "wallet_quota_conversion_credit").run db₁ = (.ok (), db₂) ∧
      s' = { s with services := db₂ } := by
  unfold moveQuota at h
  split at h
  next => cases h
  obtain ⟨outcome, s₁, hattempt, h⟩ := run_bind_eq_ok h
  have hran := run_of_attempt hattempt
  cases outcome with
  | error err => cases h
  | ok _ =>
    obtain ⟨db₁, hdebit, rfl⟩ := onServices_ok hran
    obtain ⟨db₂, hcredit, rfl⟩ := onServices_ok h
    exact ⟨db₁, db₂, hdebit, hcredit, rfl⟩

/-- A request that passes the checks. -/
structure Accepted (userID : Int) (req : CreateWalletQuotaConversionRequest) : Prop where
  checks : ¬ (userID ≤ 0 ∨ trimSpace req.requestID = "" ∨
    (trimSpace req.requestID).utf8ByteSize > 128 ∨ req.sourceQuota ≤ 0)
  direction : ¬ (req.direction ≠ walletQuotaConversionStandardToClaude ∧
    req.direction ≠ walletQuotaConversionClaudeToStandard)

theorem convertWalletQuota_accepted (h : Accepted userID req) (u : Uuids) :
    convertWalletQuota u userID req = convertWalletQuotaTx u userID (trimSpace req.requestID) req :=
  (if_neg h.checks).trans (if_neg h.direction)

/-- The record answers a request. -/
structure Answers (row : WalletQuotaConversion) (userID : Int)
    (req : CreateWalletQuotaConversionRequest) : Prop where
  request : row.requestID = trimSpace req.requestID
  user : row.userID = userID
  direction : row.direction = req.direction
  sourceQuota : row.sourceQuota = req.sourceQuota

/-- A conversion is carried out. -/
structure Carried (u : Uuids) (userID : Int) (req : CreateWalletQuotaConversionRequest)
    (row : WalletQuotaConversion) (s s' : Store) : Prop where
  unrecorded : s.conversions.get? (trimSpace req.requestID) = none
  calculated : calculateWalletQuotaConversionTarget req.direction req.sourceQuota =
    .ok row.targetQuota
  moved : ∃ db₁, (debitQuotaTx (source req.direction) u userID req.sourceQuota
      (debitOperation (trimSpace req.requestID))).run s.services = (.ok (), db₁) ∧
    (creditQuotaTx (target req.direction) (u.drop 16) userID row.targetQuota
      (creditKey (trimSpace req.requestID)) "wallet_quota_conversion_credit").run db₁ =
        (.ok (), s'.services)
  record : row = recordOf userID req row.targetQuota s s'
  recorded : s.conversions.insert? row = some s'.conversions

theorem convertWalletQuota_ok (h : (convertWalletQuota u userID req).run s = (.ok row, s')) :
    Accepted userID req ∧ (s.services.users.get? userID).isSome ∧ Answers row userID req ∧
      (s.conversions.get? (trimSpace req.requestID) = some row ∧ s' = s ∨
        Carried u userID req row s s') := by
  unfold convertWalletQuota at h
  dsimp only at h
  split at h
  next => cases h
  next hchecks =>
  split at h
  next => cases h
  next hdirection =>
  obtain ⟨user, s₁, ⟨db, hread, rfl⟩, h⟩ := run_bind_of_ok h onServices_ok
  obtain ⟨huser, rfl⟩ := readOrFail_ok hread
  have hsome : (s.services.users.get? userID).isSome := by
    rw [huser]
    rfl
  refine ⟨⟨hchecks, hdirection⟩, hsome, ?_⟩
  obtain ⟨found, s₂, hfind, h⟩ := run_bind_eq_ok h
  rw [run_step, Prod.mk.injEq, Except.ok.injEq] at hfind
  obtain ⟨hfound, rfl⟩ := hfind
  have hfound : s.conversions.get? (trimSpace req.requestID) = found := hfound
  split at h
  next existing =>
    split at h
    next => cases h
    next hsame =>
      cases h
      simp only [not_or, not_not] at hsame
      exact ⟨⟨Table.pk_of_get? hfound, hsame.1, hsame.2.1, hsame.2.2⟩, .inl ⟨hfound, rfl⟩⟩
  next =>
    split at h
    next => cases h
    next targetQuota hcalculated =>
    unfold createWalletQuotaConversionTx at h
    obtain ⟨_, s₃, hmove, h⟩ := run_bind_eq_ok h
    obtain ⟨db₁, db₂, hdebit, hcredit, rfl⟩ : ∃ db₁ db₂,
        (debitQuotaTx (source req.direction) u userID req.sourceQuota
          (debitOperation (trimSpace req.requestID))).run s.services = (.ok (), db₁) ∧
        (creditQuotaTx (target req.direction) (u.drop 16) userID targetQuota
          (creditKey (trimSpace req.requestID)) "wallet_quota_conversion_credit").run db₁ =
            (.ok (), db₂) ∧ s₃ = { s with services := db₂ } := by
      unfold source target
      unfold moveByDirection at hmove
      split at hmove
      next hclaude =>
        rw [if_pos hclaude, if_pos hclaude]
        exact moveQuota_ok hmove
      next hstandard =>
        rw [if_neg hstandard, if_neg hstandard]
        exact moveQuota_ok hmove
    obtain ⟨standardAfter, s₄, hstandard, h⟩ := run_bind_eq_ok h
    obtain ⟨_, hread, rfl⟩ := onServices_ok hstandard
    cases hread
    obtain ⟨claudeAfter, s₅, hclaude, h⟩ := run_bind_eq_ok h
    obtain ⟨_, hread, rfl⟩ := onServices_ok hclaude
    cases hread
    obtain ⟨_, s₆, hcreate, h⟩ := run_bind_eq_ok h
    cases h
    rw [createConversion, run_stepE] at hcreate
    split at hcreate
    next t hinsert =>
      cases hcreate
      refine ⟨⟨rfl, rfl, rfl, rfl⟩, .inr ⟨hfound, hcalculated, ⟨db₁, hdebit, hcredit⟩, ?_, hinsert⟩⟩
      have hstandard : user.quota = quotaColumn .wallet userID s.services := by
        rw [quotaColumn, huser]
        rfl
      have hclaude : user.claudeQuota = quotaColumn .claudeWallet userID s.services := by
        rw [quotaColumn, huser]
        rfl
      rw [hstandard, hclaude]
      rfl
    next => cases hcreate

end Requests

section Invariant

variable {u : Uuids} {userID : Int} {req : CreateWalletQuotaConversionRequest} {s s' : Store}
  {row : WalletQuotaConversion} {R : String}

theorem source_ne_target (direction : String) : source direction ≠ target direction := by
  unfold source target
  split <;> decide

theorem Carried.switched (h : Carried u userID req row s s') (hfresh : Fresh u 29 s.services.ledger)
    (hrecorded : OwnersRecorded s) : Switched (trimSpace req.requestID) (source req.direction)
      (target req.direction) userID req.sourceQuota row.targetQuota s.services s'.services := by
  obtain ⟨db₁, hdebit, hcredit⟩ := h.moved
  refine switched_of_run (source_ne_target _) hfresh (hrecorded.mono fun k hk howns => ?_) hdebit
    hcredit
  have hsome := hk _ howns
  rw [h.unrecorded] at hsome
  cases hsome

theorem requestID_of_carried (h : Carried u userID req row s s') :
    row.requestID = trimSpace req.requestID := by
  rw [h.record]
  rfl

theorem get?_carried (h : Carried u userID req row s s') (R : String) :
    s'.conversions.get? R =
      if R = trimSpace req.requestID then some row else s.conversions.get? R := by
  rw [Table.get?_insert? h.recorded, pk_conversion, requestID_of_carried h]

theorem ownersRecorded_carried (h : Carried u userID req row s s')
    (hfresh : Fresh u 29 s.services.ledger) (hrecorded : OwnersRecorded s) : OwnersRecorded s' := by
  refine (h.switched hfresh hrecorded).keys _ (hrecorded.mono fun k hk R hR => ?_) fun k hk R hR => ?_
  · rw [get?_carried h]
    split
    · rfl
    · exact hk R hR
  · rw [get?_carried h, if_pos (hk R hR)]
    rfl

/-- What a call leaves: nothing new, or a conversion carried out. -/
theorem commit_cases (u : Uuids) (userID : Int) (req : CreateWalletQuotaConversionRequest)
    (s : Store) : ((convertWalletQuota u userID req).commit s).2 = s ∨
      ∃ row, Carried u userID req row s ((convertWalletQuota u userID req).commit s).2 := by
  match hc : (convertWalletQuota u userID req).commit s with
  | (.error e, s') => exact .inl (commit_eq_error hc).1
  | (.ok row, s') =>
    obtain ⟨-, -, -, ⟨-, hsame⟩ | hcarried⟩ := convertWalletQuota_ok (commit_eq_ok.1 hc)
    · exact .inl hsame
    · exact .inr ⟨row, hcarried⟩

theorem ownersRecorded_step (h : Step s s') (hrecorded : OwnersRecorded s) : OwnersRecorded s' := by
  cases h with
  | convert u userID req fresh =>
    rcases commit_cases u userID req s with hsame | ⟨row, hcarried⟩
    · rwa [hsame]
    · exact ownersRecorded_carried hcarried fresh hrecorded
  | elsewhere _ other =>
    unfold OwnersRecorded
    rw [other.conversions]
    exact other.keys _ hrecorded fun k hk R hR => absurd hR (hk R)

theorem ownersRecorded_reach (h : Reach s) : OwnersRecorded s := by
  obtain ⟨s₀, hstart, hlater⟩ := h
  induction hlater with
  | refl => exact hstart.keys.mono fun k hk R hR => absurd hR (hk R)
  | tail _ hstep ih => exact ownersRecorded_step hstep ih

/-- A record stays, and so does the row of its user. -/
structure Recorded (row : WalletQuotaConversion) (userID : Int) (s : Store) : Prop where
  record : s.conversions.get? row.requestID = some row
  user : (s.services.users.get? userID).isSome

theorem recorded_step (h : Step s s') (hrecorded : OwnersRecorded s) (hrow : Recorded row userID s) :
    Recorded row userID s' := by
  cases h with
  | convert u userID' req fresh =>
    rcases commit_cases u userID' req s with hsame | ⟨row', hcarried⟩
    · rwa [hsame]
    · refine ⟨?_, (hcarried.switched fresh hrecorded).users _ hrow.user⟩
      rw [get?_carried hcarried, if_neg, hrow.record]
      intro heq
      have hnone := hcarried.unrecorded
      rw [← heq, hrow.record] at hnone
      cases hnone
  | elsewhere _ other =>
    refine ⟨?_, other.users _ hrow.user⟩
    rw [other.conversions, hrow.record]

theorem recorded_later (h : Later s s') (hrecorded : OwnersRecorded s) (hrow : Recorded row userID s) :
    Recorded row userID s' ∧ OwnersRecorded s' := by
  induction h with
  | refl => exact ⟨hrow, hrecorded⟩
  | tail _ hstep ih => exact ⟨recorded_step hstep ih.2 ih.1, ownersRecorded_step hstep ih.2⟩

/-- A request that a record answers is answered with it. -/
theorem convertWalletQuota_recorded (haccepted : Accepted userID req) (hanswers : Answers row userID req)
    (hrow : Recorded row userID s) (u : Uuids) :
    (convertWalletQuota u userID req).commit s = (.ok row, s) := by
  rw [commit_eq_ok, convertWalletQuota_accepted haccepted, convertWalletQuotaTx]
  obtain ⟨user, huser⟩ := Option.isSome_iff_exists.1 hrow.user
  have hfirst : (onServices (readOrFail .recordNotFound fun db => db.users.get? userID)).run s =
      (.ok user, s) := by
    rw [run_onServices, readOrFail, run_stepE, huser]
  have hfind : (Prog.step () fun s : Store =>
      (s.conversions.get? (trimSpace req.requestID), s) : Flow _).run s = (.ok (some row), s) := by
    rw [run_step, ← hanswers.request, hrow.record]
  rw [run_bind_ok hfirst, run_bind_ok hfind]
  simp only [hanswers.user, hanswers.direction, hanswers.sourceQuota, ne_eq, not_true_eq_false,
    or_self, if_false]
  rfl

end Invariant

section Conservation

variable {u : Uuids} {userID : Int} {req : CreateWalletQuotaConversionRequest} {s s' : Store}
  {row : WalletQuotaConversion} {direction : String} {sourceQuota targetQuota : Int}

theorem calculated_toClaude (h : calculateWalletQuotaConversionTarget direction sourceQuota =
    .ok targetQuota) : 0 < sourceQuota ∧ 0 < targetQuota ∧
      (direction = walletQuotaConversionStandardToClaude →
        sourceQuota = walletQuotaStandardPerClaude * targetQuota) ∧
      (direction ≠ walletQuotaConversionStandardToClaude →
        targetQuota = walletQuotaStandardPerClaude * sourceQuota) := by
  unfold calculateWalletQuotaConversionTarget at h
  unfold walletQuotaStandardPerClaude at *
  split at h
  next => cases h
  next hpos =>
  split at h
  next hclaude =>
    split at h
    next => cases h
    next hexact =>
      cases h
      refine ⟨by omega, by omega, fun _ => by omega, fun hne => absurd hclaude hne⟩
  next hstandard =>
    split at h
    next => cases h
    next =>
      cases h
      exact ⟨by omega, by omega, fun heq => absurd heq hstandard, fun _ => by omega⟩

theorem Carried.moves (h : Carried u userID req row s s') (hfresh : Fresh u 29 s.services.ledger)
    (hrecorded : OwnersRecorded s) :
    Moved userID req.direction req.sourceQuota row.targetQuota s s' := by
  have hswitched := h.switched hfresh hrecorded
  obtain ⟨hsource, htarget, hclaude, hstandard⟩ := calculated_toClaude h.calculated
  exact ⟨⟨hsource, htarget⟩, hclaude, hstandard, hswitched.taken, hswitched.given,
    hswitched.ledgers, hswitched.others⟩

/-- The two quotas of a user are worth the same after a conversion as before. -/
structure Conserved (userID : Int) (s s' : Store) : Prop where
  columns : columnWorth userID s' = columnWorth userID s
  ledgers : (∀ w, ledgerBalance w userID s.services = quotaColumn w userID s.services) →
    (∀ w, InRange (quotaColumn w userID s'.services)) → ledgerWorth userID s' = ledgerWorth userID s

theorem Moved.conserved (h : Moved userID direction sourceQuota targetQuota s s') :
    Conserved userID s s' := by
  have hcolumns : columnWorth userID s' = columnWorth userID s := by
    have htaken := h.taken
    have hgiven := h.given
    unfold columnWorth worth
    by_cases hd : direction = walletQuotaConversionStandardToClaude
    · have hrate := h.toClaude hd
      rw [source, if_pos hd] at htaken
      rw [target, if_pos hd] at hgiven
      rw [htaken, hgiven, hrate]
      ring
    · have hrate := h.toStandard hd
      rw [source, if_neg hd] at htaken
      rw [target, if_neg hd] at hgiven
      rw [htaken, hgiven, hrate]
      ring
  refine ⟨hcolumns, fun hagree hrange => ?_⟩
  have hafter : ∀ w, ledgerBalance w userID s'.services = quotaColumn w userID s'.services :=
    fun w => (h.ledgers w).trans (wrap64_of_inRange (hrange w))
  unfold ledgerWorth
  rw [hafter, hafter, hagree, hagree]
  exact hcolumns

/-- A call that fails changes nothing. One that succeeds for the first time moves one amount between
the wallets, and every later one with the same request returns the record and changes nothing. -/
theorem conversion_conserves_value (hreach : Reach s) (u : Uuids)
    (hfresh : Fresh u 29 s.services.ledger) (userID : Int)
    (req : CreateWalletQuotaConversionRequest) :
    match (convertWalletQuota u userID req).commit s with
    | (.error _, s') => s' = s
    | (.ok row, s') =>
      (s.conversions.get? (trimSpace req.requestID) = some row ∧ s' = s ∨
        s.conversions.get? (trimSpace req.requestID) = none ∧
          Moved userID req.direction req.sourceQuota row.targetQuota s s' ∧
          row = recordOf userID req row.targetQuota s s' ∧ Conserved userID s s') ∧
      ∀ s'' u', Later s' s'' → (convertWalletQuota u' userID req).commit s'' = (.ok row, s'') := by
  have hrecorded := ownersRecorded_reach hreach
  match hc : (convertWalletQuota u userID req).commit s with
  | (.error e, s') => exact (commit_eq_error hc).1
  | (.ok row, s') =>
    obtain ⟨haccepted, huser, hanswers, hcase⟩ := convertWalletQuota_ok (commit_eq_ok.1 hc)
    have hafter : Recorded row userID s' ∧ OwnersRecorded s' := by
      rcases hcase with ⟨hrow, rfl⟩ | hcarried
      · exact ⟨⟨by rwa [hanswers.request], huser⟩, hrecorded⟩
      · refine ⟨⟨?_, (hcarried.switched hfresh hrecorded).users _ huser⟩,
          ownersRecorded_carried hcarried hfresh hrecorded⟩
        rw [get?_carried hcarried, if_pos hanswers.request]
    refine ⟨?_, fun s'' u' hlater => ?_⟩
    · rcases hcase with ⟨hrow, hsame⟩ | hcarried
      · exact .inl ⟨hrow, hsame⟩
      · have hmoves := hcarried.moves hfresh hrecorded
        exact .inr ⟨hcarried.unrecorded, hmoves, hcarried.record, hmoves.conserved⟩
    · obtain ⟨hrow, -⟩ := recorded_later hlater hafter.2 hafter.1
      exact convertWalletQuota_recorded haccepted hanswers hrow u'

/-- Identifiers of one digit `base` that end in their number. -/
def longUuids (base : Char) : Uuids := fun i =>
  String.ofList (List.replicate 30 base ++ [Nat.digitChar (i / 10), Nat.digitChar (i % 10)])

/-- A user whose column has 200 and whose ledger has 100, after a credit was repeated. -/
def drifted : Store := ⟨secondCredit, Table.empty⟩

def sampleRequest : CreateWalletQuotaConversionRequest where
  direction := walletQuotaConversionStandardToClaude
  sourceQuota := 40
  requestID := "r"

theorem start_drifted : Start drifted where
  conversions := rfl
  keys := by
    have hheads : NamesAll (fun k => (k.toList.head?.all fun c => c ≠ 'w' ∧ c ≠ 'l') = true)
        drifted.services.ledger := by decide +kernel
    refine (keysAll_of_namesAll hheads).mono fun k hk R howns => ?_
    rcases howns.head with hhead | hhead <;> rw [hhead] at hk
    · exact absurd hk (by decide)
    · exact absurd hk (by decide)

theorem longUuids_inj {base : Char} {i j : Nat} (hi : i < 29) (hj : j < 29)
    (h : longUuids base i = longUuids base j) : i = j := by
  have hdigits : ∀ i < 29, ∀ j < 29, Nat.digitChar (i / 10) = Nat.digitChar (j / 10) →
      Nat.digitChar (i % 10) = Nat.digitChar (j % 10) → i = j := by decide
  have hlist := List.append_cancel_left (String.ofList_injective h)
  rw [List.cons.injEq, List.cons.injEq] at hlist
  exact hdigits i hi j hj hlist.1 hlist.2.1

theorem longUuids_isUuid {base : Char} {i : Nat} (hbase : isHexDigit base = true) (hi : i < 29) :
    IsUuid (longUuids base i) := by
  apply isUuid_ofList hbase rfl
  intro c hc
  rcases List.mem_pair.1 hc with rfl | rfl
  · exact isHexDigit_digitChar _ (by omega)
  · exact isHexDigit_digitChar _ (by omega)

theorem fresh_drifted : Fresh (longUuids 'd') 29 drifted.services.ledger where
  uuid _ hi := longUuids_isUuid (by decide) hi
  inj _ hi _ hj := longUuids_inj hi hj
  unused := by decide +kernel

/-- A conversion of the sample commits and brings the ledger in line. -/
theorem converts : ((convertWalletQuota (longUuids 'd') 1 sampleRequest).commit drifted).1.isOk = true ∧
    ledgerWorth 1 drifted = 100 ∧
    ledgerWorth 1 ((convertWalletQuota (longUuids 'd') 1 sampleRequest).commit drifted).2 = 200 := by
  decide +kernel

/-- The sample moves 40 standard units to 10 Claude units, once. -/
theorem conversion_conserves_value_sample : ∃ row converted,
    (convertWalletQuota (longUuids 'd') 1 sampleRequest).commit drifted = (.ok row, converted) ∧
      columnWorth 1 converted = columnWorth 1 drifted ∧
      (convertWalletQuota (longUuids 'e') 1 sampleRequest).commit converted = (.ok row, converted) := by
  have h := conversion_conserves_value ⟨drifted, start_drifted, .refl⟩ (longUuids 'd') fresh_drifted 1
    sampleRequest
  obtain ⟨row, hc⟩ := commit_of_isOk converts.1
  generalize ((convertWalletQuota (longUuids 'd') 1 sampleRequest).commit drifted).2 = converted at hc
  rw [hc] at h
  obtain ⟨⟨hold, -⟩ | ⟨-, -, -, hconserved⟩, hagain⟩ := h
  · cases hold
  · exact ⟨row, converted, hc, hconserved.columns, hagain converted (longUuids 'e') .refl⟩

/-- Where the ledger was behind the column before, the conversion brings it in line first, and the
ledgers are worth more after it. -/
theorem ledgers_not_conserved :
    ¬ ∀ (s : Store) (u : Uuids) (userID : Int) (req : CreateWalletQuotaConversionRequest)
      (row : WalletQuotaConversion) (s' : Store), Reach s → Fresh u 29 s.services.ledger →
      (convertWalletQuota u userID req).commit s = (.ok row, s') →
      columnWorth userID s' = columnWorth userID s ∧ ledgerWorth userID s' = ledgerWorth userID s := by
  intro h
  obtain ⟨hok, hbefore, hafter⟩ := converts
  obtain ⟨row, hc⟩ := commit_of_isOk hok
  have hworth := (h drifted _ 1 sampleRequest row _ ⟨drifted, start_drifted, .refl⟩ fresh_drifted hc).2
  rw [hbefore, hafter] at hworth
  exact absurd hworth (by decide)

end Conservation

end CodeGo.Commerce.WalletConversion
