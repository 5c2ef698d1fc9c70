import CodeGo.Commerce.RefundUndo
import Mathlib.Algebra.BigOperators.Group.Finset.Basic
import Mathlib.Algebra.BigOperators.Group.Finset.Piecewise

/-!
# Settlement of a request over its holds

`settleSubscriptionReservationTx`: what each open reservation of a request is settled at, what
the accounts are left with, and when the settlement goes through.
-/

namespace CodeGo.Commerce.SettleSpread

open Lib Lib.Prog Lib.Trim Billing.Schema Billing.Statements Billing.LedgerRuntime
  Billing.Aggregation Billing.Effects Billing.Invariant Billing.Preservation Billing.Recorded
  Billing.Names Billing.Success Schema SubscriptionRules SubscriptionFunding SubscriptionEffects
  SubscriptionNames RefundUndo

section Shares

/-- Each reservation with what it is settled at. -/
def charges : List BillingReservation → Int → List (BillingReservation × Int)
  | [], _ => []
  | r :: rest, remaining =>
    let share := settledShare remaining r.reservedAmount rest.isEmpty
    (r, share) :: charges rest (max 0 (remaining - share))

/-- The amount is spread over the reservations from the first on: the last one takes what is above
the holds. -/
structure Spread (cs : List (BillingReservation × Int)) (amount : Int) : Prop where
  sum : (cs.map Prod.snd).sum = amount
  nonneg : ∀ c ∈ cs, 0 ≤ c.2
  earlier : ∀ pre c post, cs = pre ++ c :: post → post ≠ [] → c.2 ≤ c.1.reservedAmount
  exhausted : ∀ pre c post, cs = pre ++ c :: post → 0 < c.2 → ∀ b ∈ pre, b.2 = b.1.reservedAmount

variable {rs : List BillingReservation} {r : BillingReservation} {amount : Int}

theorem charges_map_fst (rs : List BillingReservation) (amount : Int) :
    (charges rs amount).map Prod.fst = rs := by
  induction rs generalizing amount with
  | nil => rfl
  | cons r rest ih => simp only [charges, List.map_cons, ih]

/-- Nothing is charged any more. -/
theorem charges_zero (hheld : ∀ r ∈ rs, 0 < r.reservedAmount) : ∀ c ∈ charges rs 0, c.2 = 0 := by
  induction rs with
  | nil =>
    intro c hc
    cases hc
  | cons r rest ih =>
    have hshare : settledShare 0 r.reservedAmount rest.isEmpty = 0 := by
      have hr := hheld r (.head _)
      unfold settledShare
      split_ifs <;> omega
    intro c hc
    rw [charges, hshare] at hc
    rcases List.mem_cons.1 hc with rfl | hc
    · rfl
    · exact ih (fun r hr => hheld r (.tail _ hr)) c hc

theorem settledShare_last : settledShare amount r.reservedAmount true = amount := by
  unfold settledShare
  simp only [Bool.true_and, decide_eq_true_eq]
  split_ifs <;> omega

theorem settledShare_earlier : settledShare amount r.reservedAmount false =
    min amount r.reservedAmount := by
  unfold settledShare
  simp only [Bool.false_and, Bool.false_eq_true, if_false]
  split_ifs <;> omega

theorem spread_last : Spread [(r, amount)] amount ↔ 0 ≤ amount := by
  constructor
  · exact fun h => h.nonneg _ (.head _)
  intro hamount
  -- the list has one place only
  have hplace : ∀ (pre : List (BillingReservation × Int)) c post,
      [(r, amount)] = pre ++ c :: post → pre = [] ∧ post = [] := by
    intro pre c post h
    have hlen := congrArg List.length h
    simp only [List.length_cons, List.length_nil, List.length_append] at hlen
    exact ⟨List.eq_nil_of_length_eq_zero (by omega), List.eq_nil_of_length_eq_zero (by omega)⟩
  constructor
  case sum => simp
  case nonneg => simpa using hamount
  case earlier => exact fun pre c post h hpost => absurd (hplace pre c post h).2 hpost
  case exhausted =>
    intro pre c post h _ b hb
    rw [(hplace pre c post h).1] at hb
    cases hb

/-- One more hold in front takes what it can, and leaves nothing to the others unless it is
exhausted. -/
theorem Spread.cons {cs : List (BillingReservation × Int)}
    (h : Spread cs (amount - min amount r.reservedAmount)) (hamount : 0 ≤ amount)
    (hr : 0 < r.reservedAmount)
    (hzero : amount ≤ r.reservedAmount → ∀ c ∈ cs, c.2 = 0) :
    Spread ((r, min amount r.reservedAmount) :: cs) amount := by
  constructor
  case sum =>
    rw [List.map_cons, List.sum_cons, h.sum]
    omega
  case nonneg =>
    intro c hc
    rcases List.mem_cons.1 hc with rfl | hc
    · show 0 ≤ min amount r.reservedAmount
      omega
    · exact h.nonneg c hc
  case earlier =>
    intro pre c post he hpost
    cases pre with
    | nil =>
      obtain ⟨rfl, rfl⟩ := List.cons.inj he
      exact min_le_right _ _
    | cons b pre =>
      obtain ⟨-, rfl⟩ := List.cons.inj he
      exact h.earlier pre c post rfl hpost
  case exhausted =>
    intro pre c post he hpos b hb
    cases pre with
    | nil => cases hb
    | cons b' pre =>
      obtain ⟨rfl, rfl⟩ := List.cons.inj he
      rcases List.mem_cons.1 hb with rfl | hb
      · have hall : ¬ amount ≤ r.reservedAmount := by
          intro hle
          have := hzero hle c (List.mem_append_right _ (.head _))
          omega
        show min amount r.reservedAmount = r.reservedAmount
        omega
      · exact h.exhausted pre c post rfl hpos b hb

theorem spread_charges (hne : rs ≠ []) (hheld : ∀ r ∈ rs, 0 < r.reservedAmount)
    (hamount : 0 ≤ amount) : Spread (charges rs amount) amount := by
  induction rs generalizing amount with
  | nil => exact absurd rfl hne
  | cons r rest ih =>
    cases rest with
    | nil =>
      simp only [charges, List.isEmpty_nil, settledShare_last]
      exact spread_last.2 hamount
    | cons r' rest =>
      have hheld' : ∀ r ∈ r' :: rest, 0 < r.reservedAmount := fun r hr => hheld r (.tail _ hr)
      rw [charges]
      simp only [List.isEmpty_cons, settledShare_earlier]
      rw [max_eq_right (by omega)]
      apply (ih (List.cons_ne_nil _ _) hheld' (by omega)).cons hamount (hheld r (.head _))
      intro hle
      rw [min_eq_left hle, sub_self]
      exact charges_zero hheld'

end Shares

section Effects

/-- Each reservation is settled at its charge, and the accounts get back what was held above it. -/
structure Charged (l l' : Ledger) (cs : List (BillingReservation × Int)) : Prop where
  reservations : ∀ c ∈ cs, l'.reservations.get? c.1.reservationID = some (withStatus .settled c.1)
  settlements : ∀ c ∈ cs, ∃ s ∈ l'.settlements, s.reservationID = c.1.reservationID ∧
    s.actualAmount = c.2 ∧ s.status = .completed
  available : ∀ a, availableSum l' a = availableSum l a +
    (cs.map fun c => if c.1.accountID = a then c.1.reservedAmount - c.2 else 0).sum
  granted : ∀ a, grantedSum l' a = grantedSum l a

variable {l l' : Ledger} {rs : List BillingReservation} {remaining left amount : Int}

/-- What the rest of the list does leaves a reservation that is not in it alone. -/
theorem others_of_settledAll (h : SettledAll l rs remaining l' left) {id : String}
    (hid : ∀ r ∈ rs, r.reservationID ≠ id) :
    l'.reservations.get? id = l.reservations.get? id := by
  induction h with
  | nil l => rfl
  | @cons l l₁ l' r rest s _ remaining left h he hs hrest ih =>
    rw [ih fun r' hr' => hid r' (.tail _ hr'), h.reservations, Table.get?_update, if_neg]
    exact (hid r (.head _)).symm

theorem mem_settlements_of_settledAll (h : SettledAll l rs remaining l' left) {s : BillingSettlement}
    (hs : s ∈ l.settlements) : s ∈ l'.settlements := by
  induction h with
  | nil l => exact hs
  | @cons l l₁ l' r rest s _ remaining left h he hact hrest ih =>
    exact ih ((Table.mem_insert? h.settlements).2 (.inl hs))

theorem charged_of_settledAll (h : SettledAll l rs remaining l' left)
    (hnodup : (rs.map BillingReservation.reservationID).Nodup) :
    Charged l l' (charges rs remaining) := by
  induction h with
  | nil l =>
    constructor
    case reservations => intro c hc; cases hc
    case settlements => intro c hc; cases hc
    case available => exact fun a => by simp [charges]
    case granted => exact fun a => rfl
  | @cons l l₁ l' r rest s id remaining left h he hs hrest ih =>
    obtain ⟨hhead, htail⟩ := List.nodup_cons.1 hnodup
    have hothers : ∀ r' ∈ rest, r'.reservationID ≠ r.reservationID :=
      fun r' hr' e => hhead (List.mem_map.2 ⟨r', hr', e⟩)
    have hrest' := ih htail
    have hmoved := moved_of_settled h he
    rw [charges, ← hs]
    constructor
    case reservations =>
      intro c hc
      rcases List.mem_cons.1 hc with rfl | hc
      · show l'.reservations.get? r.reservationID = _
        rw [others_of_settledAll hrest hothers, h.reservations, Table.get?_update, if_pos rfl, h.current]
        rfl
      · exact hrest'.reservations c hc
    case settlements =>
      intro c hc
      rcases List.mem_cons.1 hc with rfl | hc
      · exact ⟨s, mem_settlements_of_settledAll hrest ((Table.mem_insert? h.settlements).2 (.inr rfl)),
          h.reservation, rfl, h.completed⟩
      · exact hrest'.settlements c hc
    case available =>
      intro a
      have hdelta := h.delta
      rw [hrest'.available, hmoved.available, List.map_cons, List.sum_cons]
      simp only [settleMove]
      split <;> omega
    case granted =>
      intro a
      rw [hrest'.granted, hmoved.granted]
      simp [settleMove]

/-- The available balances of the accounts that the reservations are held on. -/
def availableIn (l : Ledger) (rs : List BillingReservation) : Int :=
  ∑ a ∈ (rs.map BillingReservation.accountID).toFinset, (l.stored a).availableBalance

/-- Over all accounts, what is charged is missing from what was held. -/
theorem sum_by_account (cs : List (BillingReservation × Int)) (accounts : Finset String)
    (h : ∀ c ∈ cs, c.1.accountID ∈ accounts) :
    ∑ a ∈ accounts, (cs.map fun c => if c.1.accountID = a then c.1.reservedAmount - c.2 else 0).sum =
      reservedTotal (cs.map Prod.fst) - (cs.map Prod.snd).sum := by
  induction cs with
  | nil => simp [reservedTotal]
  | cons c rest ih =>
    simp only [List.map_cons, List.sum_cons, reservedTotal] at ih ⊢
    rw [Finset.sum_add_distrib, Finset.sum_ite_eq, if_pos (h c (.head _)),
      ih fun c' hc' => h c' (.tail _ hc')]
    omega

theorem Charged.availableIn_eq (h : Charged l l' (charges rs amount)) (hs : Sound l) (hs' : Sound l')
    (hfit : ∀ r ∈ rs, grantedSum l r.accountID < 2 ^ 63) (hne : rs ≠ [])
    (hheld : ∀ r ∈ rs, 0 < r.reservedAmount) (hamount : 0 ≤ amount) :
    availableIn l' rs = availableIn l rs + (reservedTotal rs - amount) := by
  have hsum := sum_by_account (charges rs amount) (rs.map BillingReservation.accountID).toFinset
    (by
      intro c hc
      rw [List.mem_toFinset]
      have hr := List.mem_map_of_mem (f := Prod.fst) hc
      rw [charges_map_fst] at hr
      exact List.mem_map_of_mem hr)
  rw [charges_map_fst, (spread_charges hne hheld hamount).sum] at hsum
  rw [← hsum, availableIn, availableIn, ← Finset.sum_add_distrib]
  apply Finset.sum_congr rfl
  intro a ha
  obtain ⟨r, hr, rfl⟩ := List.mem_map.1 (List.mem_toFinset.1 ha)
  have hgranted := hfit r hr
  rw [(stored_exact hs hgranted).1, (stored_exact hs' (by rw [h.granted]; exact hgranted)).1,
    h.available]

end Effects

section Success

def settleKey (requestID reservationID : String) : String :=
  "subscription:" ++ requestID ++ ":settle:" ++ reservationID

/-- Only the identifier itself ends in the identifier. -/
def Sole (id name : String) : Prop := name = id ∨ ¬ id.toList <:+ name.toList

/-- An open reservation under an identifier of its own, on an account with a balance. -/
structure Hold (l : Ledger) (r : BillingReservation) : Prop where
  uuid : IsUuid r.reservationID
  sole : NamesAll (Sole r.reservationID) l
  account : blank r.accountID = false
  balance : ∃ s ∈ l.snapshots, s.accountID = r.accountID
  granted : grantedSum l r.accountID < 2 ^ 63

variable {l l' : Ledger} {u : Uuids} {n : Nat} {r r' : BillingReservation} {requestID x y : String}

theorem eq_of_suffix (hx : IsUuid x) (hy : IsUuid y) (s : String)
    (h : x.toList <:+ (s ++ y).toList) : x = y := by
  have hy' : y.toList <:+ (s ++ y).toList := by
    rw [String.toList_append]
    exact List.suffix_append _ _
  have hlen : x.toList.length = y.toList.length := hx.length.trans hy.length.symm
  exact String.toList_injective ((List.suffix_of_suffix_length_le h hy' hlen.le).eq_of_length hlen)

/-- The keys of a settlement end in the identifier of its reservation. -/
theorem settleKey_eq (requestID id : String) :
    settleKey requestID id = ("subscription:" ++ requestID ++ ":settle:") ++ id := rfl

theorem solid_settleKey (hid : Solid x) : Solid (settleKey requestID x) :=
  hid.append_left (solidHead_append (solidHead_append (by decide)))

/-- Names that end in `x` satisfy `P`, and so do the keys of its settlement. -/
theorem keyNames_settleKey {P : String → Prop} (hid : Solid x) (hP : ∀ s : String, P (s ++ x)) :
    KeyNames P (settleKey requestID x) := by
  have hsolid : Solid (settleKey requestID x) := solid_settleKey hid
  constructor
  · rw [hsolid.trimSpace_eq]
    exact hP _
  · rw [hsolid.trimSpace_eq, settleKey_eq, ← String.append_assoc]
    exact hP _
  · rw [hsolid.trimSpace_eq, (hsolid.append_left (by decide)).trimSpace_eq, settleKey_eq,
      ← String.append_assoc]
    exact hP _

/-- The settlement of a hold names nothing but its identifier. -/
theorem Hold.unused (h : Hold l r) (s : String) (hs : s.toList ≠ []) :
    Unused (s ++ r.reservationID) l := by
  apply h.sole.mono
  rintro name hname rfl
  rcases hname with he | hno
  · have hlen := congrArg (fun t : String => t.toList.length) he
    simp only [String.toList_append, List.length_append] at hlen
    exact hs (List.eq_nil_of_length_eq_zero (by omega))
  · apply hno
    rw [String.toList_append]
    exact List.suffix_append _ _

/-- How `settleSubscriptionReservationTx` settles one reservation. -/
def settleParams (requestID : String) (r : BillingReservation) (amount : Int) :
    SettleReservationParams where
  reservationID := r.reservationID
  usageEvidenceID := requestID
  actualAmount := amount
  idempotencyKey := settleKey requestID r.reservationID

variable {P : String → Prop} {amount : Int} {t : BillingSettlement}

theorem NamesAll.settleHold (hn : NamesAll P l) (hr : Hold l r)
    (hcurrent : l.reservations.get? r.reservationID = some r) (hP : ∀ i < 3, P (u i))
    (hkey : ∀ s : String, P (s ++ r.reservationID))
    (hrun : (settleReservation u (settleParams requestID r amount)).run l = (.ok t, l')) :
    NamesAll P l' := by
  obtain ⟨-, hrun⟩ := checked hrun
  obtain ⟨-, hrun⟩ := checked hrun
  have hkeys : KeyNames P (settleKey requestID r.reservationID) :=
    keyNames_settleKey hr.uuid.solid hkey
  apply NamesAll.settle hn hrun
  · intro r₀ hr₀ hid
    have hr₀' := Table.get?_of_mem hr₀
    change r₀.reservationID = r.reservationID at hid
    have heq : r₀ = r := by
      change l.reservations.get? r₀.reservationID = some r₀ at hr₀'
      rw [hid, hcurrent] at hr₀'
      exact (Option.some.inj hr₀').symm
    obtain ⟨s, hs, he⟩ := hr.balance
    rw [heq, ← he]
    exact hn.snapshots s hs
  · exact hP 0 (by omega)
  · exact hkeys.own
  · exact hP 1 (by omega)
  · exact hkeys.entry
  · exact hP 2 (by omega)
  · exact hkeys.outbox

/-- A hold of the ledger ends no identifier that is drawn later, and is none of them. -/
theorem Fresh.ne_hold (h : Fresh u n l) (hr : r ∈ l.reservations) {i : Nat} (hi : i < n) :
    u i ≠ r.reservationID := by
  intro he
  apply (h.unused.reservations r hr).1 i hi
  rw [he]

theorem Fresh.settleHold (h : Fresh u n l) (hn : 3 ≤ n) (hr : Hold l r)
    (hcurrent : l.reservations.get? r.reservationID = some r)
    (hrun : (settleReservation u (settleParams requestID r amount)).run l = (.ok t, l')) :
    Fresh (u.drop 3) (n - 3) l' := by
  apply h.drop 3
  apply NamesAll.settleHold (h.namesAll_drop 3) hr hcurrent ?_ ?_ hrun
  · exact fun i hi => h.apart_uuid hi
  · intro s i hi hsuffix
    have he := eq_of_suffix (h.uuid (3 + i) (by omega)) hr.uuid s hsuffix
    exact Fresh.ne_hold h (Table.mem_of_get? hcurrent) (by omega) he

/-- The other holds stay as they are. -/
theorem Hold.settled (h : Hold l r') (hmem : r' ∈ l.reservations) (hfresh : Fresh u 3 l)
    (hr : Hold l r) (hcurrent : l.reservations.get? r.reservationID = some r)
    (hne : r'.reservationID ≠ r.reservationID)
    (hrun : (settleReservation u (settleParams requestID r amount)).run l = (.ok t, l'))
    (hbalance : ∃ s ∈ l'.snapshots, s.accountID = r'.accountID)
    (hgranted : grantedSum l' r'.accountID = grantedSum l r'.accountID) : Hold l' r' where
  uuid := h.uuid
  sole := by
    apply NamesAll.settleHold h.sole hr hcurrent ?_ ?_ hrun
    · intro i hi
      refine .inr fun hsuffix => ?_
      have he := eq_of_suffix h.uuid (hfresh.uuid i hi) "" (by rwa [String.empty_append])
      exact Fresh.ne_hold hfresh hmem hi he.symm
    · exact fun s => .inr fun hsuffix => hne (eq_of_suffix h.uuid hr.uuid s hsuffix)
  account := h.account
  balance := hbalance
  granted := by
    rw [hgranted]
    exact h.granted

/-- A hold that was just opened under fresh identifiers. -/
theorem hold_of_created {p : CreateReservationParams} (hs : Sound l) (hfresh : Fresh u 3 l)
    (hacc : Apart u 3 p.accountID) (hkey : KeyNames (Apart u 3) p.idempotencyKey)
    (hgranted : grantedSum l p.accountID < 2 ^ 63) (hnew : r ∉ l.reservations)
    (hrun : (createReservation u p).run l = (.ok r, l')) : Hold l' r := by
  have hrec := createReservation_ok hrun
  rcases hrec.outcome with ⟨⟨hmem, -⟩, -⟩ | ⟨e, hheld, hid, -⟩
  · exact absurd hmem hnew
  have hsole : ∀ name, Apart u 3 name → Sole r.reservationID name := by
    intro name hname
    rw [hid]
    exact .inr (hname 0 (by omega))
  have hdrawn : ∀ i < 3, Sole r.reservationID (u i) := by
    intro i hi
    rw [hid]
    by_cases hzero : i = 0
    · exact .inl (by rw [hzero])
    · refine .inr fun hsuffix => hzero ?_
      have he := eq_of_suffix (hfresh.uuid 0 (by omega)) (hfresh.uuid i hi) ""
        (by rwa [String.empty_append])
      exact (hfresh.inj 0 (by omega) i hi he).symm
  constructor
  case uuid =>
    rw [hid]
    exact hfresh.uuid 0 (by omega)
  case sole =>
    obtain ⟨-, hrun⟩ := checked hrun
    exact (hfresh.unused.mono hsole).reserve hrun (hsole _ hacc) (hdrawn 0 (by omega))
      (hsole _ hkey.own) (hdrawn 1 (by omega)) (hsole _ hkey.entry) (hdrawn 2 (by omega))
      (hsole _ hkey.outbox)
  case account =>
    rw [hrec.account]
    exact hrec.named
  case balance =>
    have hrow := hheld.snapshots.row
    exact ⟨_, Table.mem_of_get? hrow, Table.pk_of_get? hrow⟩
  case granted =>
    have hmoved := moved_of_held hs.records hheld
    rw [hmoved.granted, hrec.account]
    simpa using hgranted

theorem available_nonneg (hs : Sound l) {a : String} (hgranted : grantedSum l a < 2 ^ 63) :
    0 ≤ (l.stored a).availableBalance := by
  rw [(stored_exact hs hgranted).1]
  exact hs.solvent a hgranted

theorem settleHold_succeeds (hs : Sound l) (hfresh : Fresh u 3 l) (hr : Hold l r)
    (hcurrent : l.reservations.get? r.reservationID = some r) (hopen : r.status = .open)
    (hamount : 0 ≤ amount)
    (hcovered : amount - r.reservedAmount ≤ (l.stored r.accountID).availableBalance) :
    Succeeds (settleReservation u (settleParams requestID r amount)) l fun _ _ => True := by
  have hkey : Solid (settleKey requestID r.reservationID) := solid_settleKey hr.uuid.solid
  have hhead : ∀ s t : String, s.toList ≠ [] → (s ++ t).toList ≠ [] := by
    intro s t hs h
    rw [String.toList_append] at h
    exact hs (List.append_eq_nil_iff.1 h).1
  apply settleReservation_succeeds hs hfresh hcurrent hopen hr.granted hr.uuid.solid hr.account
    hamount hcovered hkey
  · exact hr.unused _ (hhead _ _ (hhead _ _ (by decide)))
  · show Unused ("entry:" ++ settleKey requestID r.reservationID) l
    rw [settleKey_eq, ← String.append_assoc]
    exact hr.unused _ (hhead _ _ (by decide))
  · show Unused ("outbox:" ++ settleKey requestID r.reservationID) l
    rw [settleKey_eq, ← String.append_assoc]
    exact hr.unused _ (hhead _ _ (by decide))

theorem balance_of_settled (h : Settled l l' r t) {a : String}
    (ha : ∃ s ∈ l.snapshots, s.accountID = a) : ∃ s ∈ l'.snapshots, s.accountID = a := by
  by_cases hne : a = r.accountID
  · have hrow := h.snapshots.row
    exact ⟨_, Table.mem_of_get? hrow, by rw [hne]; exact Table.pk_of_get? hrow⟩
  · obtain ⟨s, hs, rfl⟩ := ha
    have hget := h.snapshots.others _ hne
    have hold : l.snapshots.get? s.accountID = some s := Table.get?_of_mem hs
    rw [hold] at hget
    exact ⟨s, Table.mem_of_get? hget, rfl⟩

/-- The account of the last reservation can pay what is above the holds. -/
def Covers (l : Ledger) (rs : List BillingReservation) (amount : Int) : Prop :=
  ∀ r ∈ rs.getLast?, amount - reservedTotal rs ≤ (l.stored r.accountID).availableBalance

variable {rs rest : List BillingReservation} {remaining : Int}

theorem Covers.share (h : Covers l (r :: rest) remaining) (hs : Sound l)
    (hgranted : grantedSum l r.accountID < 2 ^ 63) :
    settledShare remaining r.reservedAmount rest.isEmpty - r.reservedAmount ≤
      (l.stored r.accountID).availableBalance := by
  cases rest with
  | nil =>
    have hlast := h r rfl
    simp only [reservedTotal, List.map_cons, List.map_nil, List.sum_cons, List.sum_nil] at hlast
    rw [List.isEmpty_nil, settledShare_last]
    omega
  | cons r' rest =>
    have hnonneg := available_nonneg hs hgranted
    rw [List.isEmpty_cons, settledShare_earlier]
    omega

/-- A settlement below the hold leaves nothing to cover, one at the hold does not touch the
balance. -/
theorem Covers.tail (h : Covers l (r :: rest) remaining) (hs : Sound l) (hs' : Sound l')
    (hgranted : ∀ r ∈ rest, grantedSum l' r.accountID < 2 ^ 63)
    (hheld : ∀ r ∈ rest, 0 < r.reservedAmount)
    (ht : t.actualAmount = settledShare remaining r.reservedAmount rest.isEmpty)
    (hdelta : t.deltaAmount = t.actualAmount - r.reservedAmount)
    (hmoved : Moved l l' r.accountID (settleMove r t)) :
    Covers l' rest (max 0 (remaining - t.actualAmount)) := by
  intro last hlast
  have hmem : last ∈ rest := List.mem_of_getLast? hlast
  cases rest with
  | nil => cases hlast
  | cons r' rest =>
    have hcover := h last (by rw [List.getLast?_cons_cons]; exact hlast)
    have htotal : reservedTotal (r :: r' :: rest) = r.reservedAmount + reservedTotal (r' :: rest) := by
      simp [reservedTotal]
    rw [List.isEmpty_cons, settledShare_earlier] at ht
    by_cases hle : remaining ≤ r.reservedAmount
    · have hnonneg := available_nonneg hs' (hgranted last hmem)
      have hpos : 0 ≤ reservedTotal (r' :: rest) := by
        apply List.sum_nonneg
        intro x hx
        obtain ⟨r₀, hr₀, rfl⟩ := List.mem_map.1 hx
        exact (hheld r₀ hr₀).le
      omega
    · have hsame : availableSum l' last.accountID = availableSum l last.accountID := by
        rw [hmoved.available]
        simp only [settleMove]
        split <;> omega
      rw [hs'.snapshots.available, hsame, ← hs.snapshots.available]
      omega

theorem settleReservations_succeeds {s : Store} (hs : Sound s.ledger) (hopen : AllOpen s.ledger rs)
    (hholds : ∀ r ∈ rs, Hold s.ledger r) (hfresh : Fresh u (3 * rs.length) s.ledger)
    (hamount : 0 ≤ remaining) (hcovers : Covers s.ledger rs remaining) :
    Succeeds (settleReservations u requestID rs remaining) s fun _ _ => True := by
  induction rs generalizing s u remaining with
  | nil => exact succeeds_ret trivial
  | cons r rest ih =>
    have hr := hholds r (.head _)
    have hcurrent := hopen.current r (.head _)
    have hmem := Table.mem_of_get? hcurrent
    have hheld := hs.records.held r hmem
    have hlen : 3 ≤ 3 * (r :: rest).length := by
      rw [List.length_cons]
      omega
    have hfresh₃ := hfresh.mono hlen
    have hsettle : Succeeds (settleReservation u (settleParams requestID r
        (settledShare remaining r.reservedAmount rest.isEmpty))) s.ledger fun _ _ => True :=
      settleHold_succeeds hs hfresh₃ hr hcurrent (hopen.status r (.head _))
        (settledShare_nonneg hamount hheld rest.isEmpty) (hcovers.share hs hr.granted)
    obtain ⟨t, l₁, hrun, -⟩ := hsettle
    have hrec := settleReservation_ok hrun
    have hs₁ := hrec.sound hs
    rcases hrec.outcome with ⟨⟨ht, -⟩, -⟩ | ⟨r₀, id, hc, he⟩
    · exact absurd hrec.reservation (no_settlement_of_open hs.records hmem
        (hopen.status r (.head _)) t ht)
    · have hr₀ : r₀ = r := by
        have hid : r₀.reservationID = r.reservationID := hc.reservation.symm.trans hrec.reservation
        have hcurrent₀ := hc.current
        rw [hid, hcurrent] at hcurrent₀
        exact (Option.some.inj hcurrent₀).symm
      rw [hr₀] at hc he
      have hmoved := moved_of_settled hc he
      have hgranted : ∀ a, grantedSum l₁ a = grantedSum s.ledger a := by
        intro a
        rw [hmoved.granted]
        simp [settleMove]
      have hact : t.actualAmount = settledShare remaining r.reservedAmount rest.isEmpty := hrec.actual
      obtain ⟨hhead, -⟩ := List.nodup_cons.1 hopen.nodup
      have hholds₁ : ∀ r' ∈ rest, Hold l₁ r' := by
        intro r' hr'
        have hmem' := Table.mem_of_get? (hopen.current r' (.tail _ hr'))
        have hne : r'.reservationID ≠ r.reservationID :=
          fun e => hhead (List.mem_map.2 ⟨r', hr', e⟩)
        exact (hholds r' (.tail _ hr')).settled hmem' hfresh₃ hr hcurrent hne hrun
          (balance_of_settled hc (hholds r' (.tail _ hr')).balance) (hgranted _)
      have hcovers₁ := hcovers.tail hs hs₁ (fun r' hr' => (hholds₁ r' hr').granted)
        (fun r' hr' => hs.records.held r' (Table.mem_of_get? (hopen.current r' (.tail _ hr'))))
        hact hc.delta hmoved
      have hfresh₁ : Fresh (u.drop 3) (3 * rest.length) l₁ := by
        have h := Fresh.settleHold hfresh hlen hr hcurrent hrun
        rw [List.length_cons] at h
        exact h.mono (by omega)
      unfold settleReservations
      apply succeeds_bind
      apply succeeds_ledgerTx
      refine ⟨t, l₁, hrun, ?_⟩
      rw [hact] at hcovers₁
      exact ih (s := s.setLedger l₁) hs₁ (hopen.tail hc.reservations) hholds₁ hfresh₁
        (le_max_left _ _) hcovers₁

end Success

section Settlement

variable {s s' : Store} {u : Uuids} {record : SubscriptionPreConsumeRecord} {actual : Int}
variable {rs rs' : List BillingReservation} {l : Ledger}

/-- `settleSubscriptionReservationTx` after it found open reservations. -/
def settleFound (u : Uuids) (record : SubscriptionPreConsumeRecord) (actualAmount : Int)
    (reservations : List BillingReservation) : Flow Unit := do
  let remaining ← settleReservations u record.requestID reservations actualAmount
  if remaining > 0 then .fail (.message "subscription ledger reservation is insufficient")
  else if actualAmount ≠ reservedTotal reservations then
    postConsumeUserSubscriptionUsageDeltaTx record.userSubscriptionID record.modelName
      (actualAmount - reservedTotal reservations)
  else pure ()

/-- The row of the subscription takes a difference in its usage. -/
def Accepts (s : Store) (record : SubscriptionPreConsumeRecord) (delta : Int) : Prop :=
  delta = 0 ∨ ∃ sub plan sub', s.subscriptions.get? record.userSubscriptionID = some sub ∧
    PlanFound s sub.planID plan ∧
    applySubscriptionUsageDelta plan sub record.modelName delta = .ok sub'

/-- The holds are settled at what the amount comes to over them, and the rest is available again. -/
structure SettledOver (s s' : Store) (rs : List BillingReservation) (actual : Int) : Prop where
  charged : Charged s.ledger s'.ledger (charges rs actual)
  spread : Spread (charges rs actual) actual
  available : availableIn s'.ledger rs = availableIn s.ledger rs + (reservedTotal rs - actual)

theorem settleSubscriptionReservationTx_eq
    (hne : openReservations record.requestID s.ledger ≠ []) :
    (settleSubscriptionReservationTx u record actual).run s =
      (settleFound u record actual (openReservations record.requestID s.ledger)).run s := by
  unfold settleSubscriptionReservationTx
  have hfind : (ledgerTx (findOpenSubscriptionReservationsTx record.requestID)).run s =
      (.ok (openReservations record.requestID s.ledger), s) := rfl
  rw [run_bind_ok hfind]
  cases h : openReservations record.requestID s.ledger with
  | nil => exact absurd h hne
  | cons r rest => rfl

theorem allOpen_perm (h : AllOpen l rs) (hperm : rs'.Perm rs) : AllOpen l rs' where
  current r hr := h.current r (hperm.subset hr)
  status r hr := h.status r (hperm.subset hr)
  nodup := ((hperm.map _).nodup_iff).2 h.nodup

theorem reservedTotal_perm (hperm : rs'.Perm rs) : reservedTotal rs' = reservedTotal rs :=
  (hperm.map _).sum_eq

theorem settledOver_of_settledAll (hall : SettledAll s.ledger rs actual l 0) (hs : Sound s.ledger)
    (hl : Sound l) (hopen : AllOpen s.ledger rs) (hholds : ∀ r ∈ rs, Hold s.ledger r)
    (hne : rs ≠ []) (hactual : 0 ≤ actual) (hledger : s'.ledger = l) : SettledOver s s' rs actual := by
  have hheld : ∀ r ∈ rs, 0 < r.reservedAmount :=
    fun r hr => hs.records.held r (Table.mem_of_get? (hopen.current r hr))
  have hcharged := charged_of_settledAll hall hopen.nodup
  rw [← hledger] at hl hcharged
  exact ⟨hcharged, spread_charges hne hheld hactual,
    hcharged.availableIn_eq hs hl (fun r hr => (hholds r hr).granted) hne hheld hactual⟩

/-- Settling an amount that the ledger covers goes through exactly when the row of the subscription
takes the difference to the holds, whatever the order of the reservations. -/
theorem settleFound_spreads_iff (hs : Sound s.ledger) (hopen : AllOpen s.ledger rs)
    (hholds : ∀ r ∈ rs, Hold s.ledger r) (hfresh : Fresh u (3 * rs.length) s.ledger)
    (hne : rs ≠ []) (hactual : 0 ≤ actual) (hcovers : Covers s.ledger rs actual) :
    ((∃ s', (settleFound u record actual rs).run s = (.ok (), s')) ↔
        Accepts s record (actual - reservedTotal rs)) ∧
      ∀ s', (settleFound u record actual rs).run s = (.ok (), s') → SettledOver s s' rs actual := by
  obtain ⟨left, s₁, hrun, -⟩ : Succeeds (settleReservations u record.requestID rs actual) s
      fun _ _ => True := settleReservations_succeeds hs hopen hholds hfresh hactual hcovers
  obtain ⟨l, rfl, hall, hl⟩ := settleReservations_ok hs hopen hrun
  obtain rfl := hall.left_eq hne
  have hfound : (settleFound u record actual rs).run s =
      (if actual ≠ reservedTotal rs then
        postConsumeUserSubscriptionUsageDeltaTx record.userSubscriptionID record.modelName
          (actual - reservedTotal rs)
      else pure ()).run (s.setLedger l) := by
    unfold settleFound
    rw [run_bind_ok hrun, if_neg (by omega)]
  rw [hfound]
  by_cases heq : actual = reservedTotal rs
  · rw [if_neg (not_not.2 heq)]
    refine ⟨⟨fun _ => .inl (by omega), fun _ => ⟨_, rfl⟩⟩, fun s' h => ?_⟩
    cases h
    exact settledOver_of_settledAll hall hs hl hopen hholds hne hactual rfl
  · rw [if_pos heq]
    constructor
    · constructor
      · rintro ⟨s', h⟩
        obtain ⟨sub, sub', plan, hsaved⟩ := postConsumeUserSubscriptionUsageDeltaTx_ok h
        exact .inr ⟨sub, plan, sub', hsaved.current, hsaved.found, hsaved.applied⟩
      · rintro (hzero | ⟨sub, plan, sub', hsub, hplan, happly⟩)
        · omega
        · obtain ⟨a, s', h, -⟩ := succeeds_postConsume (s := s.setLedger l) hsub hplan happly
          exact ⟨s', h⟩
    · intro s' h
      obtain ⟨sub, sub', plan, hsaved⟩ := postConsumeUserSubscriptionUsageDeltaTx_ok h
      apply settledOver_of_settledAll hall hs hl hopen hholds hne hactual
      rw [hsaved.state]
      rfl

end Settlement

/-- An account of 100 with holds of 40 and 20 for a request. -/
def holdsRun : List Billing.Operations.LedgerOp := [
  .credit (hexUuids 'a') { accountID := "acc", amount := 100, idempotencyKey := "grant" },
  .reserve (hexUuids 'b')
    { accountID := "acc", requestID := "r", reservedAmount := 40, idempotencyKey := "k1" },
  .reserve (hexUuids 'c')
    { accountID := "acc", requestID := "r", reservedAmount := 20, idempotencyKey := "k2" }]

/-- A subscription that has used 60 of the 70 of its period. -/
def periodSub : UserSubscription :=
  { sampleSubscription 0 with periodAmount := 70, periodUsed := 60, periodUsed_nonneg := by decide }

def periodStore : Store :=
  (sampleStore samplePlan periodSub).setLedger (Billing.Operations.run holdsRun Ledger.empty)

def periodRecord : SubscriptionPreConsumeRecord :=
  { requestID := "r", userID := 7, userSubscriptionID := 3, modelName := "m", preConsumed := 40
    status := .consumed }

theorem periodStore_sound : Sound periodStore.ledger :=
  Billing.Operations.run_sound Sound.empty holdsRun

instance (l : Ledger) (rs : List BillingReservation) (amount : Int) :
    Decidable (Covers l rs amount) :=
  inferInstanceAs (Decidable (∀ r ∈ rs.getLast?, _))

instance (l : Ledger) (r : BillingReservation) : Decidable (Hold l r) :=
  decidable_of_iff (IsUuid r.reservationID ∧ NamesAll (fun name => name = r.reservationID ∨
      ¬ r.reservationID.toList <:+ name.toList) l ∧ blank r.accountID = false ∧
      (∃ s ∈ l.snapshots.rows, s.accountID = r.accountID) ∧ grantedSum l r.accountID < 2 ^ 63)
    ⟨fun ⟨huuid, hsole, haccount, hbalance, hgranted⟩ => ⟨huuid, hsole, haccount, hbalance, hgranted⟩,
      fun h => ⟨h.uuid, h.sole, h.account, h.balance, h.granted⟩⟩

theorem periodStore_holds : ∀ r ∈ openReservations "r" periodStore.ledger, Hold periodStore.ledger r := by
  decide +kernel

theorem periodStore_fresh : Fresh (hexUuids 'd') 6 periodStore.ledger :=
  fresh_hexUuids (by decide) (by decide) (by decide +kernel)

end CodeGo.Commerce.SettleSpread
