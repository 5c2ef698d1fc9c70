import CodeGo.Commerce.SubscriptionLedger
import CodeGo.Commerce.SubscriptionNames

/-!
# What a subscription accepts

The amounts that `PreConsumeUserSubscription` charges to a subscription: the row and the
ledger account both have to cover them. The ledger grants the quota of a row when its
account has no entries yet, and a reset of the row restores the account.
-/

namespace CodeGo.Commerce.SubscriptionCapacity

open Lib Lib.Prog Lib.Trim Billing.Schema Billing.Statements Billing.LedgerRuntime
  Billing.Aggregation Billing.Effects Billing.Invariant Billing.Preservation Billing.Recorded
  Billing.Names Billing.Exec Billing.Success Schema SubscriptionRules SubscriptionFunding
  SubscriptionEffects SubscriptionNames SubscriptionLedger

/-- The subscription is charged for a request, as a candidate of `PreConsumeUserSubscription`. -/
def Accepts (cal : Calendar) (u : Uuids) (now : Int) (requestID : String) (userID : Int)
    (modelName : String) (sub : UserSubscription) (s : Store) (amount : Int) : Prop :=
  ∃ res s', (tryCandidate cal u now (newRecord requestID userID modelName amount) sub).commit s =
    (.ok (some res), s')

/-- What a row without a reset due can be charged. -/
def rowCapacity (sub : UserSubscription) (l : Ledger) : Int :=
  if Entered sub.id l then min (sub.amountTotal - sub.amountUsed) (availableOf sub.id l)
  else sub.amountTotal - sub.amountUsed

/-- The reset of the total is due: it sets the usage to zero and restores the account. -/
def refillDue (cal : Calendar) (plan : SubscriptionPlan) (sub : UserSubscription) (now : Int) : Bool :=
  usesLegacySubscriptionPeriodicQuota plan sub && resetDue cal plan sub now

/-- What a limited subscription can be charged. -/
def capacity (cal : Calendar) (plan : SubscriptionPlan) (sub : UserSubscription) (now : Int)
    (l : Ledger) : Int :=
  if refillDue cal plan sub now then
    min sub.amountTotal (max (availableOf sub.id l) (sub.amountTotal - reservedOf sub.id l))
  else rowCapacity sub l

section Accounts

variable {s : Store} {l l' : Ledger} {u : Uuids} {n : Nat} {id room : Int}

/-- Identifiers can be drawn for the account of a subscription, and `room` can be granted to it. -/
structure Drawable (l : Ledger) (u : Uuids) (n : Nat) (id room : Int) : Prop where
  sound : Sound l
  drawn : Fresh u n l
  owners : ∀ e ∈ l.entries, ∀ i < n, e.accountID ≠ u i
  named : ∀ a ∈ l.accounts, AccountOf id a → blank a.accountID = false
  granted : ∀ a ∈ l.accounts, AccountOf id a → grantedSum l a.accountID + room < 2 ^ 63
  room_nonneg : 0 ≤ room
  room_lt : room < 2 ^ 63

/-- The account of a subscription was found, or made with the first identifier. -/
structure Opened (l l' : Ledger) (u : Uuids) (id room : Int) (a : BillingAccount) : Prop where
  recorded : AccountRecorded l l' (subscriptionAccount id) a
  snapshot : (l'.snapshots.get? a.accountID).isSome
  origin : a ∈ l.accounts ∨ a.accountID = u 0
  names : ∀ P : String → Prop, NamesAll P l → P (u 0) → NamesAll P l' ∧ P a.accountID
  named : blank a.accountID = false
  granted : grantedSum l a.accountID + room < 2 ^ 63
  entered : Entered id l ↔ HasEntry l a.accountID
  available : availableOf id l = availableSum l a.accountID
  reserved : reservedOf id l = reservedSum l a.accountID

theorem Drawable.opened (s : Store) (h : Drawable s.ledger u n id room) (hid : 0 < id) (hn : 0 < n) :
    ∃ a l, (ledgerTx (ensureBillingAccount u (subscriptionAccount id))).run s =
        (.ok a, s.setLedger l) ∧ Opened s.ledger l u id room a := by
  have htype : Solid "subscription" := by decide
  have howner : Solid "user_subscription" := by decide
  obtain ⟨a, l, hrun, hsnap⟩ := ensureBillingAccount_succeeds (u := u)
    (p := subscriptionAccount id) hid howner.blank_eq htype.blank_eq
    (h.drawn.unused_uuid (i := 0) hn)
  have hflow : (ledgerTx (ensureBillingAccount u (subscriptionAccount id))).run s =
      (.ok a, s.setLedger l) := by
    rw [run_ledgerTx]
    show (((ensureBillingAccount u (subscriptionAccount id)).run s.ledger).1,
      s.setLedger ((ensureBillingAccount u (subscriptionAccount id)).run s.ledger).2) = _
    rw [hrun]
  have hrec := ensureBillingAccount_ok hrun
  have horigin : a ∈ s.ledger.accounts ∨ a.accountID = u 0 := by
    obtain ⟨-, hrun⟩ := checked hrun
    obtain ⟨-, hrun⟩ := checked hrun
    obtain ⟨-, -, hnew⟩ :=
      (ensureBillingAccountTx_ensures (· = s.ledger) u (subscriptionAccount id)).run rfl hrun
    rcases hnew with ⟨⟨c, rfl, ha⟩, -⟩ | ⟨-, ha⟩
    · exact .inl ha
    · exact .inr ha
  have hnames : ∀ P : String → Prop, NamesAll P s.ledger → P (u 0) → NamesAll P l ∧ P a.accountID :=
    fun P hP h₀ => names_ensureBillingAccount h₀ s a _ hflow hP
  refine ⟨a, l, hflow, ?_⟩
  by_cases hmem : a ∈ s.ledger.accounts
  · exact ⟨hrec, hsnap, .inl hmem, hnames, h.named a hmem hrec.owner, h.granted a hmem hrec.owner,
      entered_iff hmem hrec.owner, availableOf_eq hmem hrec.owner, reservedOf_eq hmem hrec.owner⟩
  · -- a new account has no entries, and the subscription had no other
    have hnew : a.accountID = u 0 := horigin.resolve_left hmem
    have hno : ¬ HasEntry s.ledger a.accountID := by
      rintro ⟨e, he, hx⟩
      exact h.owners e he 0 hn (hx.trans hnew)
    have hnone : accountOf id s.ledger = none := by
      cases hold : accountOf id s.ledger with
      | none => rfl
      | some b =>
        obtain ⟨hb, howner⟩ := of_accountOf hold
        have hsame : b = a := by
          apply Table.eq_of_clash (hrec.keeps hb) hrec.mem
          exact decide_eq_true (.inr (howner.trans hrec.owner.symm))
        rw [hsame] at hb
        exact absurd hb hmem
    obtain ⟨hentered, havailable, hreserved⟩ := accountOf_eq_none hnone
    obtain ⟨havailable', hreserved', hgranted⟩ := sums_of_no_entry h.sound hno
    have hroom := h.room_lt
    constructor
    case recorded => exact hrec
    case snapshot => exact hsnap
    case origin => exact .inr hnew
    case names => exact hnames
    case named =>
      rw [hnew]
      exact (h.drawn.solid hn).blank_eq
    case granted =>
      rw [hgranted]
      omega
    case entered => exact iff_of_false hentered hno
    case available => rw [havailable, havailable']
    case reserved => rw [hreserved, hreserved']

/-- The grant of a positive amount under a new key. -/
theorem credited (s : Store) {p : CreditAccountParams} (hfresh : Fresh u 2 s.ledger)
    (hacc : blank p.accountID = false) (hpos : 0 < p.amount) (hkey : Solid p.idempotencyKey)
    (hnew : Unused p.idempotencyKey s.ledger)
    (houtbox : Unused ("outbox:" ++ p.idempotencyKey) s.ledger) :
    ∃ e l, (ledgerTx (creditAccount u p)).run s = (.ok e, s.setLedger l) ∧
      CreditRecorded s.ledger l p e ∧ Credited s.ledger l e := by
  obtain ⟨e, l, hrun, -⟩ := creditAccount_succeeds hfresh hacc hpos hkey hnew houtbox
  have hrec := creditAccount_ok hrun
  refine ⟨e, l, ?_, hrec, ?_⟩
  · rw [run_ledgerTx]
    show (((creditAccount u p).run s.ledger).1,
      s.setLedger ((creditAccount u p).run s.ledger).2) = _
    rw [hrun]
  · rcases hrec.outcome with ⟨⟨he, hk⟩, -⟩ | ⟨hc, -⟩
    · exact absurd hk (hnew.entries e he).2
    · exact hc

end Accounts

section Reserve

variable {s s' : Store} {l l' : Ledger} {u : Uuids} {sub : UserSubscription}
  {record : SubscriptionPreConsumeRecord} {a : BillingAccount} {amount : Int}

theorem bootstrapKey_names {requestID name : String} (id : Int)
    (hname : name ∈ derived ("subscription:" ++ requestID ++ ":reserve")) :
    KeyNames (· ≠ name) (bootstrapKey id) := by
  have hkey : bootstrapKey id = "subscription-" ++ ("bootstrap:" ++ toString id) := by
    unfold bootstrapKey
    apply String.toList_injective
    simp [String.toList_append]
  rw [hkey]
  rw [String.append_assoc] at hname
  apply keyNames_dash_colon ?_ hname
  rw [← hkey]
  unfold bootstrapKey
  exact (Decimal.solid_toString id).append_left (by decide)

theorem colon_mem_bootstrapKey (id : Int) : ':' ∈ (bootstrapKey id).toList := by
  unfold bootstrapKey
  rw [String.toList_append]
  exact List.mem_append_left _ (by decide)

theorem colon_mem_outbox (t : String) : ':' ∈ ("outbox:" ++ t).toList := by
  rw [String.toList_append]
  exact List.mem_append_left _ (by decide)

/-- What the ledger needs for a hold of a new request. -/
structure Ready (l : Ledger) (u : Uuids) (sub : UserSubscription) (requestID : String) : Prop where
  ledger : Drawable l u 6 sub.id 0
  bootstrap : KeyNames (Apart u 6) (bootstrapKey sub.id)
  reserve : ∀ name ∈ derived ("subscription:" ++ requestID ++ ":reserve"), Unused name l
  left : sub.amountTotal - sub.amountUsed < 2 ^ 63
  grantNew : ¬ Entered sub.id l →
    Unused (bootstrapKey sub.id) l ∧ Unused ("outbox:" ++ bootstrapKey sub.id) l

/-- Identifiers differ from the names of the request. -/
theorem Ready.uuid_ne (h : Ready l u sub record.requestID) {i : Nat} (hi : i < 6) :
    ∀ name ∈ derived ("subscription:" ++ record.requestID ++ ":reserve"), u i ≠ name := by
  intro name hname
  rw [String.append_assoc] at hname
  exact ne_of_isUuid (h.ledger.drawn.uuid i hi) (colon_mem_derived hname)

/-- The look at the entries of the account leaves enough available for the request. -/
theorem Ready.bootstrap_run (h : Ready s.ledger u sub record.requestID)
    (ho : Opened s.ledger l u sub.id 0 a) (hpos : 0 < amount)
    (hle : amount ≤ rowCapacity sub s.ledger) :
    ∃ l', (bootstrapIfEmptyTx (u.drop 1) sub a.accountID record.requestID).run (s.setLedger l) =
        (.ok (), s.setLedger l') ∧ amount ≤ (l'.stored a.accountID).availableBalance ∧
      Fresh (u.drop 3) 3 l' ∧
      ∀ name ∈ derived ("subscription:" ++ record.requestID ++ ":reserve"), Unused name l' := by
  have hdrawn := h.ledger.drawn
  have hl : Sound l := ho.recorded.sound h.ledger.sound
  have hsame := same_of_accountEnsured ho.recorded.ensured a.accountID
  have hapart : NamesAll (Apart (u.drop 3) 3) l ∧ Apart (u.drop 3) 3 a.accountID :=
    ho.names _ (hdrawn.namesAll_drop 3) (hdrawn.apart_uuid (i := 0) (by omega))
  have hreserve : ∀ name ∈ derived ("subscription:" ++ record.requestID ++ ":reserve"),
      Unused name l ∧ a.accountID ≠ name :=
    fun name hname => ho.names _ (h.reserve name hname) (h.uuid_ne (by omega) name hname)
  have hcount : (ledgerTx (countLedgerEntries a.accountID)).run (s.setLedger l) =
      (.ok (l.entries.rows.countP fun e => e.accountID = a.accountID), s.setLedger l) := rfl
  unfold bootstrapIfEmptyTx
  rw [run_bind_ok hcount]
  unfold rowCapacity at hle
  by_cases hentry : HasEntry l a.accountID
  · -- an account with entries is left alone
    have hsome : (l.entries.rows.countP fun e => e.accountID = a.accountID) ≠ 0 := by
      rw [ne_eq, countP_eq_zero]
      intro hnone
      obtain ⟨e, he, hx⟩ := hentry
      exact hnone e he hx
    have hgranted := ho.granted
    rw [if_neg hsome]
    rw [if_pos (ho.entered.2 (hsame.entries.1 hentry)), ho.available] at hle
    refine ⟨l, rfl, ?_, hdrawn.drop 3 hapart.1, fun name hname => (hreserve name hname).1⟩
    rw [(stored_exact hl (by rw [hsame.granted]; omega)).1, hsame.available]
    omega
  · have hzero : (l.entries.rows.countP fun e => e.accountID = a.accountID) = 0 := by
      rw [countP_eq_zero]
      exact fun e he hx => hentry ⟨e, he, hx⟩
    have hnone : ¬ Entered sub.id s.ledger := fun he => hentry (hsame.entries.2 (ho.entered.1 he))
    rw [if_neg hnone] at hle
    obtain ⟨hkey, houtbox⟩ := h.grantNew hnone
    rw [if_pos hzero]
    unfold bootstrapSubscriptionLedgerTx
    rw [if_pos (by omega)]
    have hfresh : Fresh (u.drop 1) 2 l :=
      (hdrawn.drop 1 (ho.names _ (hdrawn.namesAll_drop 1)
        (hdrawn.apart_uuid (i := 0) (by omega))).1).mono (by omega)
    have huuid₀ : ∀ {name : String}, ':' ∈ name.toList → u 0 ≠ name :=
      fun hname => ne_of_isUuid (hdrawn.uuid 0 (by omega)) hname
    have hsolid : Solid (bootstrapKey sub.id) := by
      unfold bootstrapKey
      exact (Decimal.solid_toString sub.id).append_left (by decide)
    obtain ⟨e, l', hrun, hrec, hc⟩ := credited (s.setLedger l) (p := {
      accountID := a.accountID
      amount := sub.amountTotal - sub.amountUsed
      idempotencyKey := "subscription-bootstrap:" ++ toString sub.id
      reasonCode := "subscription_balance_bootstrap"
      referenceType := "user_subscription"
      referenceID := toString sub.id
      operatorType := "subscription_projection"
      operatorID := record.requestID }) hfresh ho.named (by dsimp only; omega) hsolid
      (ho.names _ hkey (huuid₀ (colon_mem_bootstrapKey sub.id))).1
      (ho.names _ houtbox (huuid₀ (colon_mem_outbox _))).1
    have hafter : ∀ P : String → Prop, NamesAll P l → (∀ i < 2, P (u (1 + i))) →
        P a.accountID → KeyNames P (bootstrapKey sub.id) → NamesAll P l' :=
      fun P hP huuids hacc hkey => (names_creditAccount huuids hacc hkey _ e _ hrun hP).1
    have hm : Moved l l' e.accountID _ := moved_of_credited hc
    have hacc : e.accountID = a.accountID := hrec.account
    have hamount : e.amount = sub.amountTotal - sub.amountUsed := hrec.amount
    obtain ⟨havailable, -, hgranted⟩ := sums_of_no_entry hl hentry
    refine ⟨l', ?_, ?_, ?_, ?_⟩
    · rw [run_bind_ok hrun]
      rfl
    · have hgranted' : grantedSum l' a.accountID = sub.amountTotal - sub.amountUsed := by
        rw [hm.granted, if_pos hacc, hgranted, hamount]
        simp
      rw [(stored_exact (hrec.sound hl) (by rw [hgranted']; exact h.left)).1, hm.available,
        if_pos hacc, havailable, hamount]
      dsimp only
      omega
    · apply hdrawn.drop 3
      apply hafter _ hapart.1
      · exact fun i hi => hdrawn.apart_uuid (by omega)
      · exact hapart.2
      · exact h.bootstrap.mono fun k hk => hk.drop 3
    · intro name hname
      exact hafter _ (hreserve name hname).1 (fun i hi => h.uuid_ne (i := 1 + i) (by omega) name hname)
        (hreserve name hname).2 (bootstrapKey_names sub.id hname)

/-- A hold within the capacity of the row is opened. -/
theorem Ready.reserve_succeeds (h : Ready s.ledger u sub record.requestID) (hid : 0 < sub.id)
    (hlimited : 0 < sub.amountTotal) (hpos : 0 < record.preConsumed)
    (hle : record.preConsumed ≤ rowCapacity sub s.ledger) :
    Succeeds (reserveSubscriptionLedgerTx u sub record) s fun _ s' => ∃ l, s' = s.setLedger l := by
  obtain ⟨a, l₁, hensure, ho⟩ := h.ledger.opened s hid (by omega)
  obtain ⟨l₂, hboot, hcovered, hfresh, hunused⟩ := h.bootstrap_run ho hpos hle
  have hkey : Solid ("subscription:" ++ record.requestID ++ ":reserve") :=
    solid_reserveKey record.requestID
  unfold reserveSubscriptionLedgerTx
  rw [if_neg (by omega)]
  apply succeeds_bind
  refine ⟨a, s.setLedger l₁, hensure, ?_⟩
  apply succeeds_bind
  refine ⟨(), s.setLedger l₂, hboot, ?_⟩
  apply succeeds_bind
  apply succeeds_ledgerTx
  apply (createReservation_succeeds (l := (s.setLedger l₂).ledger) hfresh ho.named hpos hcovered hkey
    (hunused _ (by simp [derived])) (hunused _ (by simp [derived]))
    (hunused _ (by simp [derived]))).mono
  intro r l₃ _
  exact succeeds_ret ⟨l₃, rfl⟩

/-- A hold of a new request is within the capacity of its row. -/
theorem Ready.reserved_le {id : String} (h : Ready l u sub record.requestID)
    (hleft : record.preConsumed ≤ sub.amountTotal - sub.amountUsed)
    (hres : LedgerReserved id l l' sub record) : record.preConsumed ≤ rowCapacity sub l := by
  unfold rowCapacity
  split
  next hentered =>
    obtain ⟨b, hb, howner, hentry⟩ := hentered
    obtain ⟨a, l₁, l₂, r, account, bootstrapped, reserved⟩ := hres
    -- the account was there, with entries, so nothing was granted
    have hsame : b = a := by
      apply Table.eq_of_clash (account.keeps hb) account.mem
      exact decide_eq_true (.inr (howner.trans account.owner.symm))
    subst hsame
    have hl₁ := account.sound h.ledger.sound
    have hold := same_of_accountEnsured account.ensured b.accountID
    have hl₂ : l₂ = l₁ := by
      cases bootstrapped with
      | kept hcase hl => exact hl.symm
      | granted hnone p e hacc ham hkey hc =>
        obtain ⟨e, he, hx⟩ := hold.entries.2 hentry
        exact absurd hx (hnone e he)
    rw [hl₂] at reserved
    have hrows : l₁.reservations = l.reservations := account.ensured.reservations
    rcases reserved.outcome with ⟨⟨hmem, hk⟩, -⟩ | ⟨e, hheld, -⟩
    · rw [hrows] at hmem
      exact absurd hk ((h.reserve _ (.head _)).reservations r hmem).2
    · have hgranted := h.ledger.granted b hb howner
      have hcovered := hheld.covered
      rw [reserved.account, reserved.amount] at hcovered
      replace hcovered : record.preConsumed ≤ (l₁.stored b.accountID).availableBalance := hcovered
      rw [(stored_exact hl₁ (by rw [hold.granted]; omega)).1, hold.available] at hcovered
      rw [availableOf_eq hb howner]
      omega
  next => exact hleft

end Reserve

section Refill

variable {s : Store} {l l₁ l' : Ledger} {u : Uuids} {n m : Nat} {id room : Int} {cal : Calendar}
  {plan : SubscriptionPlan} {sub sub' : UserSubscription} {now : Int} {requestID : String}
  {a : BillingAccount}

/-- What a request needs: the request and the identifiers drawn for it are new, and so are the
grants that the subscription may get on the way. -/
structure Prepared (cal : Calendar) (plan : SubscriptionPlan) (now : Int) (sub : UserSubscription)
    (u : Uuids) (requestID : String) (s : Store) : Prop where
  found : PlanFound s sub.planID plan
  request : s.preConsumes.get? requestID = none
  ledger : Drawable s.ledger u 9 sub.id sub.amountTotal
  bootstrap : KeyNames (Apart u 9) (bootstrapKey sub.id)
  due : KeyNames (Apart u 9) (dueKey cal plan sub now)
  reserve : ∀ name ∈ derived ("subscription:" ++ requestID ++ ":reserve"), Unused name s.ledger
  grantNew : ¬ Entered sub.id s.ledger →
    Unused (bootstrapKey sub.id) s.ledger ∧ Unused ("outbox:" ++ bootstrapKey sub.id) s.ledger
  dueNew : refillDue cal plan sub now = true →
    Unused (dueKey cal plan sub now) s.ledger ∧ Unused ("outbox:" ++ dueKey cal plan sub now) s.ledger

/-- Identifiers that are left can still be drawn. -/
theorem Drawable.drop (h : Drawable l u n id room) (m : Nat) : Drawable l (u.drop m) (n - m) id 0 where
  sound := h.sound
  drawn := h.drawn.drop m (h.drawn.namesAll_drop m)
  owners e he i hi := h.owners e he (m + i) (by omega)
  named := h.named
  granted b hb howner := by
    have hgranted := h.granted b hb howner
    have hroom := h.room_nonneg
    omega
  room_nonneg := le_refl 0
  room_lt := by decide

/-- The account of the subscription is the only one that moved. -/
theorem Drawable.moved (h : Drawable l u n id room) (ho : Opened l l₁ u id room a) (hs : Sound l')
    (hacc : l'.accounts = l₁.accounts)
    (hentries : ∀ e ∈ l'.entries, e ∈ l.entries ∨ e.accountID = a.accountID)
    (hgranted : grantedSum l' a.accountID < 2 ^ 63) (hm : 0 < m)
    (hnames : NamesAll (Apart (u.drop m) (n - m)) l') : Drawable l' (u.drop m) (n - m) id 0 := by
  have hapart : Apart (u.drop m) (n - m) a.accountID :=
    (ho.names _ (h.drawn.namesAll_drop m) (h.drawn.apart_uuid hm)).2
  have hone : ∀ b ∈ l'.accounts, AccountOf id b → b = a := by
    intro b hb howner
    rw [hacc] at hb
    apply Table.eq_of_clash hb ho.recorded.mem
    exact decide_eq_true (.inr (howner.trans ho.recorded.owner.symm))
  constructor
  case sound => exact hs
  case drawn => exact h.drawn.drop m hnames
  case owners =>
    intro e he i hi
    rcases hentries e he with he | hx
    · exact h.owners e he (m + i) (by omega)
    · intro heq
      exact hapart i hi ⟨[], by rw [List.nil_append, ← hx, heq]⟩
  case named =>
    intro b hb howner
    rw [hone b hb howner]
    exact ho.named
  case granted =>
    intro b hb howner
    rw [hone b hb howner]
    omega
  case room_nonneg => exact le_refl 0
  case room_lt => decide

theorem colon_mem_dueKey (cal : Calendar) (plan : SubscriptionPlan) (sub : UserSubscription) (now : Int) :
    ':' ∈ (dueKey cal plan sub now).toList := by
  unfold dueKey resetKey
  simp only [String.toList_append]
  simp

theorem solid_dueKey (cal : Calendar) (plan : SubscriptionPlan) (sub : UserSubscription) (now : Int) :
    Solid (dueKey cal plan sub now) := by
  unfold dueKey resetKey
  rw [← String.append_assoc]
  apply (Decimal.solid_toString _).append_left
  exact solidHead_append (solidHead_append (solidHead_append (by decide)))

theorem dueKey_names {name : String} (cal : Calendar) (plan : SubscriptionPlan)
    (sub : UserSubscription) (now : Int)
    (hname : name ∈ derived ("subscription:" ++ requestID ++ ":reserve")) :
    KeyNames (· ≠ name) (dueKey cal plan sub now) := by
  have hsolid := solid_dueKey cal plan sub now
  have hkey : ∀ key, resetKey sub key =
      "subscription-" ++ ("reset-balance:" ++ toString sub.id ++ ":" ++ key) := by
    intro key
    unfold resetKey
    apply String.toList_injective
    simp only [String.toList_append]
    rfl
  unfold dueKey at hsolid ⊢
  rw [hkey] at hsolid ⊢
  rw [String.append_assoc] at hname
  exact keyNames_dash_colon hsolid hname

/-- The grant of a reset. -/
def resetCredit (sub : UserSubscription) (accountID operationKey : String) (amount : Int) :
    CreditAccountParams where
  accountID := accountID
  amount := amount
  idempotencyKey := resetKey sub operationKey
  reasonCode := "subscription_quota_reset"
  reasonDetail := "subscription quota reset restored available balance"
  referenceType := "user_subscription"
  referenceID := toString sub.id
  operatorType := "subscription_reset"
  operatorID := operationKey

/-- The grant of a refill, to the account that was found or made. -/
theorem Prepared.refill_credited (h : Prepared cal plan now sub u requestID s)
    (hdue : refillDue cal plan sub now = true) (ho : Opened s.ledger l₁ u sub.id room a)
    {operationKey : String} (hkey : resetKey sub' operationKey = dueKey cal plan sub now)
    {amount : Int} (hpos : 0 < amount) :
    ∃ e l', (ledgerTx (creditAccount (u.drop 1) (resetCredit sub' a.accountID operationKey amount))).run
        (s.setLedger l₁) = (.ok e, s.setLedger l') ∧ Sound l' ∧ Credited l₁ l' e ∧
      e.accountID = a.accountID ∧ e.amount = amount ∧ NamesAll (Apart (u.drop 3) 6) l' := by
  have hdrawn := h.ledger.drawn
  have hl₁ := ho.recorded.sound h.ledger.sound
  have huuid₀ : ∀ {name : String}, ':' ∈ name.toList → u 0 ≠ name :=
    fun hname => ne_of_isUuid (hdrawn.uuid 0 (by omega)) hname
  obtain ⟨hnew, houtbox⟩ := h.dueNew hdue
  have hfresh : Fresh (u.drop 1) 2 l₁ :=
    (hdrawn.drop 1 (ho.names _ (hdrawn.namesAll_drop 1)
      (hdrawn.apart_uuid (i := 0) (by omega))).1).mono (by omega)
  have hsolid : Solid (resetKey sub' operationKey) := by
    rw [hkey]
    exact solid_dueKey cal plan sub now
  have hunused : Unused (resetKey sub' operationKey) l₁ := by
    rw [hkey]
    exact (ho.names _ hnew (huuid₀ (colon_mem_dueKey cal plan sub now))).1
  have hunused' : Unused ("outbox:" ++ resetKey sub' operationKey) l₁ := by
    rw [hkey]
    exact (ho.names _ houtbox (huuid₀ (colon_mem_outbox _))).1
  obtain ⟨e, l', hrun, hrec, hc⟩ := credited (s.setLedger l₁)
    (p := resetCredit sub' a.accountID operationKey amount) hfresh ho.named hpos hsolid hunused
    hunused'
  have hapart := ho.names _ (hdrawn.namesAll_drop 3) (hdrawn.apart_uuid (i := 0) (by omega))
  have hkeys : KeyNames (Apart (u.drop 3) 6) (resetKey sub' operationKey) := by
    rw [hkey]
    exact h.due.mono fun k hk => hk.drop 3
  have hnames := names_creditAccount (u := u.drop 1)
    (p := resetCredit sub' a.accountID operationKey amount)
    (fun i hi => hdrawn.apart_uuid (i := 1 + i) (by omega)) hapart.2 hkeys (s.setLedger l₁) e
    (s.setLedger l') hrun hapart.1
  exact ⟨e, l', hrun, hrec.sound hl₁, hc, hrec.account, hrec.amount, hnames.1⟩

/-- The refill leaves the account with what the row grants, but for the amounts reserved. -/
theorem Prepared.restore_run (h : Prepared cal plan now sub u requestID s) (hid : 0 < sub.id)
    (hdue : refillDue cal plan sub now = true) (hterms : terms sub' = terms sub)
    (hused : sub'.amountUsed = 0) {operationKey : String}
    (hkey : resetKey sub' operationKey = dueKey cal plan sub now) :
    ∃ l', (restoreSubscriptionLedgerBalanceAfterResetTx u sub' operationKey).run s =
        (.ok (), s.setLedger l') ∧ Drawable l' (u.drop 3) 6 sub.id 0 ∧ Entered sub.id l' ∧
      availableOf sub.id l' =
        max (availableOf sub.id s.ledger) (sub.amountTotal - reservedOf sub.id s.ledger) := by
  obtain ⟨hid', htotal, -⟩ := rules_of_terms plan hterms
  have hlimited : 0 < sub.amountTotal := by
    simp only [refillDue, usesLegacySubscriptionPeriodicQuota, Bool.and_eq_true,
      decide_eq_true_eq] at hdue
    exact hdue.1.2
  obtain ⟨a, l₁, hensure, ho⟩ := h.ledger.opened s hid (by omega)
  have hl₁ := ho.recorded.sound h.ledger.sound
  have hsame := same_of_accountEnsured ho.recorded.ensured a.accountID
  have hgranted := ho.granted
  have hdrawn := h.ledger.drawn
  have hexact := stored_exact hl₁ (a := a.accountID) (by rw [hsame.granted]; omega)
  have hlock : (ledgerTx (lockSnapshot a.accountID)).run (s.setLedger l₁) =
      (.ok (l₁.stored a.accountID), s.setLedger l₁) := by
    obtain ⟨row, hrow⟩ := Option.isSome_iff_exists.1 ho.snapshot
    rw [run_ledgerTx]
    show (((lockSnapshot a.accountID).run l₁).1,
      (s.setLedger l₁).setLedger ((lockSnapshot a.accountID).run l₁).2) = _
    rw [lockSnapshot, run_selectForUpdate, hrow, Ledger.stored, hrow]
    rfl
  have howner : AccountOf sub.id a := ho.recorded.owner
  have hensure' : (ledgerTx (ensureBillingAccount u (subscriptionAccount sub'.id))).run s =
      (.ok a, s.setLedger l₁) := by
    rw [hid']
    exact hensure
  unfold restoreSubscriptionLedgerBalanceAfterResetTx
  rw [if_neg (by omega), run_bind_ok hensure', run_bind_ok hlock, ho.available, ho.reserved]
  dsimp only
  rw [hexact.1, hexact.2.1, hsame.available, hsame.reserved, htotal, hused]
  split
  next hle =>
    -- enough is available, and so there is an entry
    have hentry : HasEntry s.ledger a.accountID := by
      by_contra hno
      obtain ⟨havailable, hreserved, -⟩ := sums_of_no_entry h.ledger.sound hno
      omega
    refine ⟨l₁, rfl, ?_, ?_, ?_⟩
    · apply h.ledger.moved ho hl₁ rfl _ (by rw [hsame.granted]; omega) (by omega)
      · exact (ho.names _ (hdrawn.namesAll_drop 3) (hdrawn.apart_uuid (by omega))).1
      · intro e he
        rw [ho.recorded.ensured.entries] at he
        exact .inl he
    · exact (entered_iff ho.recorded.mem howner).2 (hsame.entries.2 hentry)
    · rw [availableOf_eq ho.recorded.mem howner, hsame.available]
      omega
  next hlt =>
    have hmissing : 0 < sub.amountTotal - 0 - reservedSum s.ledger a.accountID -
        availableSum s.ledger a.accountID := by omega
    obtain ⟨e, l', hrun, hl', hc, hacc, hamount, hnames⟩ := h.refill_credited hdue ho hkey hmissing
    have hm : Moved l₁ l' e.accountID _ := moved_of_credited hc
    have hreserved := reservedSum_nonneg h.ledger.sound.records a.accountID
    have havailable := h.ledger.sound.solvent a.accountID
      (by have := h.ledger.room_nonneg; omega)
    have hmem : a ∈ l'.accounts := by
      rw [hc.accounts]
      exact ho.recorded.mem
    refine ⟨l', ?_, ?_, ?_, ?_⟩
    · unfold resetCredit resetKey at hrun
      rw [run_bind_ok hrun]
      rfl
    · apply h.ledger.moved ho hl' hc.accounts _ _ (by omega) hnames
      · intro f hf
        rcases (Table.mem_insert? hc.entries).1 hf with hf | rfl
        · rw [ho.recorded.ensured.entries] at hf
          exact .inl hf
        · exact .inr hacc
      · rw [hm.granted, if_pos hacc, hsame.granted, hamount]
        dsimp only
        omega
    · rw [entered_iff hmem howner]
      exact (hasEntry_insert hc.entries rfl).2 (.inr hacc)
    · rw [availableOf_eq hmem howner, hm.available, if_pos hacc, hsame.available, hamount]
      dsimp only
      omega

end Refill

section Acceptance

variable {s s₁ : Store} {u : Uuids} {cal : Calendar} {plan : SubscriptionPlan}
  {sub sub₁ : UserSubscription} {now amount userID : Int} {requestID modelName : String}

/-- The row and the ledger after a look at the reset of the row. -/
structure Refreshed (cal : Calendar) (plan : SubscriptionPlan) (now : Int) (sub : UserSubscription)
    (u : Uuids) (requestID : String) (s : Store) (sub₁ : UserSubscription) (s₁ : Store) : Prop where
  terms : terms sub₁ = terms sub
  request : s₁.preConsumes.get? requestID = none
  ready : Ready s₁.ledger (u.drop 3) sub₁ requestID
  capacity : rowCapacity sub₁ s₁.ledger = capacity cal plan sub now s.ledger

/-- A look that changes no usage and no account. -/
theorem Prepared.refreshed_of_kept (h : Prepared cal plan now sub u requestID s)
    (hdue : refillDue cal plan sub now = false) (hterms : SubscriptionRules.terms sub₁ = SubscriptionRules.terms sub)
    (hused : sub₁.amountUsed = sub.amountUsed) (hledger : s₁.ledger = s.ledger)
    (hrequest : s₁.preConsumes = s.preConsumes) :
    Refreshed cal plan now sub u requestID s sub₁ s₁ := by
  obtain ⟨hid, htotal, -⟩ := rules_of_terms plan hterms
  have hcapacity : rowCapacity sub₁ s₁.ledger = SubscriptionCapacity.capacity cal plan sub now s.ledger := by
    unfold SubscriptionCapacity.capacity
    rw [hdue, rowCapacity, rowCapacity, hid, htotal, hused, hledger]
    rfl
  refine ⟨hterms, by rw [hrequest]; exact h.request, ?_, hcapacity⟩
  rw [hledger]
  have hlt := h.ledger.room_lt
  have hnonneg := sub.amountUsed_nonneg
  constructor
  case ledger =>
    rw [hid]
    exact h.ledger.drop 3
  case bootstrap =>
    rw [hid]
    exact h.bootstrap.mono fun k hk => hk.drop 3
  case reserve => exact h.reserve
  case left => omega
  case grantNew =>
    rw [hid]
    exact h.grantNew

/-- The look at the reset of a row succeeds. -/
theorem Prepared.refresh (h : Prepared cal plan now sub u requestID s) (hid : 0 < sub.id) :
    ∃ sub₁ s₁, (maybeResetUserSubscriptionWithPlanTx cal u sub plan now).run s = (.ok sub₁, s₁) ∧
      Refreshed cal plan now sub u requestID s sub₁ s₁ := by
  cases hrefill : refillDue cal plan sub now with
  | false =>
    -- the account is left alone, whether a period of the row starts or not
    have hkept : ∃ sub₁ s₁, (maybeResetUserSubscriptionWithPlanTx cal u sub plan now).run s =
        (.ok sub₁, s₁) ∧ sub₁.amountUsed = sub.amountUsed ∧ s₁.ledger = s.ledger := by
      unfold maybeResetUserSubscriptionWithPlanTx
      split
      · exact ⟨sub, s, rfl, rfl, rfl⟩
      next hperiod =>
      split
      · unfold recordResetTimes
        split
        · exact ⟨_, _, rfl, rfl, rfl⟩
        · exact ⟨sub, s, rfl, rfl, rfl⟩
      next hnext =>
      split
      · exact ⟨sub, s, rfl, rfl, rfl⟩
      next hpos =>
      have hdue : resetDue cal plan sub now = true := by
        simp only [resetDue, Bool.and_eq_true, decide_eq_true_eq]
        exact ⟨⟨hperiod, by omega⟩, by omega⟩
      have hlegacy : usesLegacySubscriptionPeriodicQuota plan sub = false := by
        rw [refillDue, hdue, Bool.and_true] at hrefill
        exact hrefill
      rw [hlegacy]
      refine ⟨_, _, rfl, ?_, rfl⟩
      rw [resetUsage, hlegacy]
      rfl
    obtain ⟨sub₁, s₁, hrun, hused, hledger⟩ := hkept
    have hreset := maybeResetUserSubscriptionWithPlanTx_ok hrun
    exact ⟨sub₁, s₁, hrun, h.refreshed_of_kept hrefill hreset.terms_eq hused hledger
      hreset.preConsumes_eq⟩
  | true =>
    obtain ⟨hlegacy, hdue⟩ := Bool.and_eq_true_iff.1 hrefill
    simp only [resetDue, Bool.and_eq_true, decide_eq_true_eq] at hdue
    obtain ⟨⟨hperiod, hpos⟩, hnow⟩ := hdue
    obtain ⟨base, next, hadvance⟩ : ∃ base next, advanceReset cal plan sub.endTime now (resetBase sub)
        (nextReset cal plan sub) = (base, next) := ⟨_, _, rfl⟩
    have hterms : SubscriptionRules.terms (resetUsage plan sub base next) =
        SubscriptionRules.terms sub := resetUsage_terms _ _
    have hused : (resetUsage plan sub base next).amountUsed = 0 := by
      rw [resetUsage, if_pos hlegacy]
    generalize hsub₁ : resetUsage plan sub base next = sub₁ at hterms hused
    obtain ⟨hid₁, htotal, -⟩ := rules_of_terms plan hterms
    have hkey : resetKey sub₁ ("periodic:" ++ toString sub.id ++ ":" ++ toString base) =
        dueKey cal plan sub now := by
      unfold dueKey resetKey
      rw [hadvance, hid₁]
    obtain ⟨l', hrestore, hledger, hentered, havailable⟩ := h.restore_run hid hrefill hterms hused hkey
    have hrun : (maybeResetUserSubscriptionWithPlanTx cal u sub plan now).run s =
        (.ok sub₁, (s.setLedger l').setSubscription sub₁) := by
      unfold maybeResetUserSubscriptionWithPlanTx
      rw [if_neg hperiod, if_neg (by omega), if_neg (by omega), hadvance]
      dsimp only
      rw [if_pos hlegacy, hsub₁, run_bind_ok hrestore]
      rfl
    have hreset := maybeResetUserSubscriptionWithPlanTx_ok hrun
    have hnames : ∀ P : String → Prop, NamesAll P s.ledger → (∀ i < 3, P (u i)) →
        KeyNames P (dueKey cal plan sub now) → NamesAll P l' :=
      fun P hP huuids hkey => (names_maybeReset huuids (fun _ => hkey) s _ _ hrun hP).1
    have hlt := h.ledger.room_lt
    refine ⟨sub₁, _, hrun, hterms, by rw [hreset.preConsumes_eq]; exact h.request, ?_, ?_⟩
    · constructor
      case ledger =>
        rw [hid₁]
        exact hledger
      case bootstrap =>
        rw [hid₁]
        exact h.bootstrap.mono fun k hk => hk.drop 3
      case reserve =>
        intro name hname
        apply hnames (· ≠ name) (h.reserve name hname)
        · intro i hi
          rw [String.append_assoc] at hname
          exact ne_of_isUuid (h.ledger.drawn.uuid i (by omega)) (colon_mem_derived hname)
        · exact dueKey_names cal plan sub now hname
      case left =>
        rw [htotal, hused]
        omega
      case grantNew =>
        rw [hid₁]
        exact fun hno => absurd hentered hno
    · show rowCapacity _ l' = _
      rw [rowCapacity, SubscriptionCapacity.capacity, hrefill, hid₁, htotal, hused, if_pos hentered,
        havailable, if_pos rfl, Int.sub_zero]

/-- Without a limit of the period or the model, only the total bounds an amount. -/
theorem admits_iff {model : String} (hperiod : countsPeriod plan sub = false)
    (hmodel : ¬ limitsModel sub model) :
    admits plan sub model amount = true ↔
      (0 < sub.amountTotal → amount ≤ sub.amountTotal - sub.amountUsed) := by
  unfold limitsModel at hmodel
  simp only [admits, hperiod, Bool.and_eq_true, Bool.not_eq_true', Bool.and_eq_false_iff,
    decide_eq_false_iff_not, Bool.false_and, ne_eq, decide_not, Bool.not_eq_false']
  constructor
  · rintro ⟨⟨h, -⟩, -⟩ hpos
    rcases h with h | h <;> omega
  · intro h
    refine ⟨⟨?_, trivial⟩, ?_⟩
    · by_cases hpos : 0 < sub.amountTotal
      · have := h hpos
        exact .inr (by omega)
      · exact .inl hpos
    · simp only [decide_eq_true_eq]
      by_cases hne : model = ""
      · exact .inl (.inl hne)
      · exact .inl (.inr fun hlimit => hmodel ⟨hne, hlimit⟩)

/-- A candidate whose capacity covers the amount is charged. -/
theorem consumeCandidate_succeeds {record : SubscriptionPreConsumeRecord} {v : Uuids}
    (h : Ready s.ledger v sub record.requestID) (hid : 0 < sub.id)
    (hnew : s.preConsumes.get? record.requestID = none) (hpos : 0 < record.preConsumed)
    (hle : 0 < sub.amountTotal → record.preConsumed ≤ rowCapacity sub s.ledger)
    (hleft : 0 < sub.amountTotal → record.preConsumed ≤ sub.amountTotal - sub.amountUsed)
    (hperiod : countsPeriod plan sub = false)
    (hmodel : ¬ limitsModel sub (trimSpace record.modelName)) :
    Succeeds (consumeCandidate v plan sub record) s fun _ _ => True := by
  have hinsert : (s.preConsumes.insert? record).isSome := by
    rw [Table.insert?_isSome_iff]
    intro r hr
    exact decide_eq_false (Table.get?_eq_none.1 hnew r hr)
  obtain ⟨t, ht⟩ := Option.isSome_iff_exists.1 hinsert
  have hcreate : (createPreConsume record).attempt.run s =
      (.ok (.ok ()), { s with preConsumes := t }) := by
    rw [run_attempt, createPreConsume, writeTable, run_stepE, ht]
  have hreserve : Succeeds (reserveSubscriptionLedgerTx v sub record) { s with preConsumes := t }
      fun _ _ => True := by
    by_cases hlimited : 0 < sub.amountTotal
    · exact (Ready.reserve_succeeds (s := { s with preConsumes := t }) h hid hlimited hpos
        (hle hlimited)).mono fun _ _ _ => trivial
    · unfold reserveSubscriptionLedgerTx
      rw [if_pos (by omega)]
      exact succeeds_ret trivial
  obtain ⟨used, hused⟩ : ∃ used,
      applySubscriptionUsageDelta plan sub record.modelName record.preConsumed = .ok used := by
    apply applySubscriptionUsageDelta_succeeds
    · intro hlimited
      have hbound := hleft hlimited
      have hnonneg := sub.amountUsed_nonneg
      omega
    · intro hc
      rw [hperiod] at hc
      cases hc
    · exact fun hl => absurd hl hmodel
  unfold consumeCandidate
  apply succeeds_bind
  refine ⟨.ok (), _, hcreate, ?_⟩
  apply succeeds_bind
  apply hreserve.mono
  intro _ s₁ _
  apply succeeds_bind
  rw [hused]
  apply succeeds_ret
  apply succeeds_bind
  apply succeeds_step
  exact succeeds_ret trivial

/-- An unlimited subscription accepts every amount, a limited one what it has capacity for. -/
theorem Prepared.accepts_iff (h : Prepared cal plan now sub u requestID s) (hid : 0 < sub.id)
    (hperiod : countsPeriod plan sub = false) (hmodel : ¬ limitsModel sub (trimSpace modelName))
    (hpos : 0 < amount) :
    Accepts cal u now requestID userID modelName sub s amount ↔
      (0 < sub.amountTotal → amount ≤ capacity cal plan sub now s.ledger) := by
  obtain ⟨sub₁, s₁, hrefresh, hr⟩ := h.refresh hid
  obtain ⟨hid₁, htotal, hcounts, -, -, hlimit⟩ := rules_of_terms plan hr.terms
  have hperiod₁ : countsPeriod plan sub₁ = false := by rw [hcounts, hperiod]
  have hmodel₁ : ¬ limitsModel sub₁ (trimSpace modelName) := by
    unfold limitsModel at hmodel ⊢
    rw [hlimit]
    exact hmodel
  have hplan : (getSubscriptionPlanRecordTx sub.planID).run s = (.ok plan, s) := by
    unfold getSubscriptionPlanRecordTx
    rw [if_neg (not_le.2 h.found.1), readOrFail, run_stepE, h.found.2]
  have hadmits : admits plan sub₁ (trimSpace modelName) amount = true ↔ _ :=
    admits_iff hperiod₁ hmodel₁
  have hbound : rowCapacity sub₁ s₁.ledger ≤ sub₁.amountTotal - sub₁.amountUsed := by
    unfold rowCapacity
    split
    · exact min_le_left _ _
    · exact le_refl _
  rw [← hr.capacity, ← htotal]
  unfold Accepts
  simp only [commit_eq_ok]
  unfold tryCandidate
  constructor
  · rintro ⟨res, s', hrun⟩ hlimited
    rw [run_bind_ok hplan, run_bind_ok hrefresh] at hrun
    split at hrun
    next hadmitted =>
      obtain ⟨res', s₂, hconsume, -⟩ := run_bind_eq_ok hrun
      have hready : Ready s₁.ledger (u.drop 3) sub₁
          { newRecord requestID userID modelName amount with userSubscriptionID := sub₁.id }.requestID :=
        hr.ready
      cases consumeCandidate_ok hconsume hr.request with
      | mk t l used recorded reserved applied state result =>
        rcases reserved with ⟨hle, -⟩ | ⟨-, hres⟩
        · omega
        · exact hready.reserved_le (hadmits.1 hadmitted hlimited) hres
    next => cases hrun
  · intro hle
    have hadmitted : admits plan sub₁ (newRecord requestID userID modelName amount).modelName
        (newRecord requestID userID modelName amount).preConsumed = true :=
      hadmits.2 fun hlimited => (hle hlimited).trans hbound
    have hconsumed : Succeeds (consumeCandidate (u.drop 3) plan sub₁
        { newRecord requestID userID modelName amount with userSubscriptionID := sub₁.id }) s₁
        fun _ _ => True :=
      consumeCandidate_succeeds hr.ready (by omega) hr.request hpos hle
        (fun hlimited => (hle hlimited).trans hbound) hperiod₁
        (by rw [newRecord, trimSpace_trimSpace]; exact hmodel₁)
    obtain ⟨res, s', hconsume, -⟩ := hconsumed
    refine ⟨res, s', ?_⟩
    rw [run_bind_ok hplan, run_bind_ok hrefresh, if_pos hadmitted, run_bind_ok hconsume]
    rfl

end Acceptance

end CodeGo.Commerce.SubscriptionCapacity
