import CodeGo.Lib.Fifo
import CodeGo.Billing.FundingAttribution
import Mathlib.Data.String.Basic

/-!
# Funding lots in the order of their creation

`funding_attribution.go` with the times at which lots were created: a request takes its amount
from the lots of an account from the oldest on, and no quota of a lot is counted twice.
-/

namespace CodeGo.Billing.FundingLots

open Lib Lib.Prog Lib.Wrap Lib.Fifo Schema FundingSchema Platform.Database
open FundingAttribution (useLots createLot recordFundingLotTx)

section Model

-- the time at which the lot of an identifier was created
variable (createdAt : String → Int)

/-- `ORDER BY created_at asc, lot_id asc`. -/
def Precedes (a b : FundingLot) : Prop :=
  createdAt a.lotID < createdAt b.lotID ∨ createdAt a.lotID = createdAt b.lotID ∧ a.lotID < b.lotID

instance (a b : FundingLot) : Decidable (Precedes createdAt a b) :=
  inferInstanceAs (Decidable (_ ∨ _))

def openLots (accountID : String) (s : DB) : List FundingLot :=
  (s.fundingLots.rows.filter fun lot =>
      lot.accountID = accountID ∧ lot.remainingAmount > 0).mergeSort
    fun a b => !decide (Precedes createdAt b a)

/-- What the lots of an account have left. -/
def remainingTotal (accountID : String) (s : DB) : Int :=
  s.fundingLots.sum fun lot => if lot.accountID = accountID then lot.remainingAmount else 0

/-- The sum is scanned into an `int64`. -/
def sumRemaining (accountID : String) : App Int := do
  let total ← read (remainingTotal accountID)
  if total < 2 ^ 63 then pure total else .fail (.message "value out of range")

def ensureLegacyFundingLotTx (u : Uuids) (accountID : String) (minimumAmount : Int) : App Unit := do
  let snapshot ← readOrFail .recordNotFound fun s => s.ledger.snapshots.get? accountID
  let totalAvailable ← sumRemaining accountID
  let target := wrap64 (snapshot.availableBalance + minimumAmount)
  if totalAvailable ≥ target then pure ()
  else
    createLot <| FundingLot.beforeCreate {
      accountID := accountID
      source := .legacyUnattributed
      referenceType := "legacy_wallet"
      referenceID := accountID
      originalAmount := wrap64 (target - totalAvailable)
      remainingAmount := wrap64 (target - totalAvailable)
      idempotencyKey := "legacy-wallet:" ++ accountID ++ ":" ++ u 0 } (u 1)

def allocateSettledFundingFIFO (u : Uuids) (requestID accountID : String) (amount : Int) :
    App Unit :=
  if requestID = "" ∨ accountID = "" ∨ amount ≤ 0 then pure ()
  else Prog.transaction .statement (do
    if ← read fun s => s.fundingAllocations.has fun a => a.requestID = requestID then pure ()
    else
      ensureLegacyFundingLotTx u accountID amount
      let lots ← read (openLots createdAt accountID)
      let remaining ← useLots (u.drop 2) requestID accountID lots amount
      if remaining ≠ 0 then
        .fail (.message "funding lot balance is lower than settled wallet amount")
      else pure () : App Unit)

end Model

section Draws

/-- What was allocated to a request. -/
def allocated (requestID : String) (s : DB) : Int :=
  s.fundingAllocations.sum fun a => if a.requestID = requestID then a.amount else 0

/-- What was allocated from a lot. -/
def drawnFrom (lotID : String) (s : DB) : Int :=
  s.fundingAllocations.sum fun a => if a.lotID = lotID then a.amount else 0

/-- What is taken from the lot of an identifier. -/
def usedOf (lotID : String) (ds : List (FundingLot × Int)) : Int :=
  (ds.map fun d => if d.1.lotID = lotID then d.2 else 0).sum

/-- The allocation of what is taken from one lot. -/
def IsAllocation (requestID accountID : String) (d : FundingLot × Int) (a : FundingAllocation) :
    Prop :=
  a.requestID = requestID ∧ a.accountID = accountID ∧ a.lotID = d.1.lotID ∧ a.source = d.1.source ∧
    a.amount = d.2

/-- Amounts were taken from lots for a request. -/
structure Drawn (requestID accountID : String) (ds : List (FundingLot × Int)) (s s' : DB) : Prop where
  lots : ∀ id, s'.fundingLots.get? id = (s.fundingLots.get? id).map (FundingLot.use (usedOf id ds))
  kept : ∀ a ∈ s.fundingAllocations, a ∈ s'.fundingAllocations
  recorded : ∀ d ∈ ds, ∃ a ∈ s'.fundingAllocations, IsAllocation requestID accountID d a
  new : ∀ a ∈ s'.fundingAllocations, a ∈ s.fundingAllocations ∨
    ∃ d ∈ ds, IsAllocation requestID accountID d a
  requests : ∀ q, allocated q s' = allocated q s + if q = requestID then total ds else 0
  byLot : ∀ id, drawnFrom id s' = drawnFrom id s + usedOf id ds
  others : s' = { s with
    fundingLots := s'.fundingLots, fundingAllocations := s'.fundingAllocations }

variable {requestID accountID : String} {s s' : DB} {ds : List (FundingLot × Int)}
variable {lot : FundingLot} {u : Uuids} {lots : List FundingLot} {amount used left : Int}

@[simp] theorem usedOf_nil (id : String) : usedOf id [] = 0 := rfl

@[simp] theorem usedOf_cons (id : String) (d : FundingLot × Int) (ds : List (FundingLot × Int)) :
    usedOf id (d :: ds) = (if d.1.lotID = id then d.2 else 0) + usedOf id ds := by
  simp [usedOf]

theorem use_zero (lot : FundingLot) : FundingLot.use 0 lot = lot := by
  simp [FundingLot.use]

theorem use_use (used used' : Int) (lot : FundingLot) :
    FundingLot.use used' (FundingLot.use used lot) = FundingLot.use (used + used') lot := by
  simp only [FundingLot.use]
  congr 1
  omega

theorem Drawn.nil (requestID accountID : String) (s : DB) : Drawn requestID accountID [] s s where
  lots id := by
    rw [usedOf_nil]
    cases s.fundingLots.get? id with
    | none => rfl
    | some lot => rw [Option.map_some, use_zero]
  kept a ha := ha
  recorded d hd := by cases hd
  new a ha := .inl ha
  requests q := by simp
  byLot id := by simp
  others := rfl

/-- One lot in front. -/
theorem Drawn.cons {a : FundingAllocation} {t : Table FundingAllocation}
    (hinsert : s.fundingAllocations.insert? a = some t)
    (ha : IsAllocation requestID accountID (lot, used) a)
    (h : Drawn requestID accountID ds { s with
      fundingLots := s.fundingLots.update lot.lotID _ (keepsIndexes_use used)
      fundingAllocations := t } s') : Drawn requestID accountID ((lot, used) :: ds) s s' := by
  obtain ⟨hrequest, haccount, hlot, hsource, hamount⟩ := ha
  constructor
  case lots =>
    intro id
    rw [h.lots, usedOf_cons]
    show ((s.fundingLots.update lot.lotID _ (keepsIndexes_use used)).get? id).map _ = _
    rw [Table.get?_update]
    by_cases hid : id = lot.lotID
    · rw [if_pos hid, if_pos hid.symm, ← hid, Option.map_map]
      congr 1
      funext x
      exact use_use _ _ x
    · rw [if_neg hid, if_neg fun e => hid e.symm, zero_add]
  case kept =>
    intro b hb
    exact h.kept b ((Table.mem_insert? hinsert).2 (.inl hb))
  case recorded =>
    intro d hd
    rcases List.mem_cons.1 hd with rfl | hd
    · exact ⟨a, h.kept a ((Table.mem_insert? hinsert).2 (.inr rfl)), hrequest, haccount, hlot, hsource,
        hamount⟩
    · exact h.recorded d hd
  case new =>
    intro b hb
    rcases h.new b hb with hb | ⟨d, hd, hb⟩
    · rcases (Table.mem_insert? hinsert).1 hb with hb | rfl
      · exact .inl hb
      · exact .inr ⟨_, .head _, hrequest, haccount, hlot, hsource, hamount⟩
    · exact .inr ⟨d, .tail _ hd, hb⟩
  case requests =>
    intro q
    have hstep : allocated q { s with
        fundingLots := s.fundingLots.update lot.lotID _ (keepsIndexes_use used)
        fundingAllocations := t } = allocated q s + if requestID = q then used else 0 := by
      rw [allocated, Table.sum_insert? hinsert, hrequest, hamount]
      rfl
    rw [h.requests, hstep, total_cons]
    by_cases hq : q = requestID
    · rw [if_pos hq, if_pos hq.symm, if_pos hq]
      omega
    · rw [if_neg hq, if_neg fun e => hq e.symm, if_neg hq]
      omega
  case byLot =>
    intro id
    have hstep : drawnFrom id { s with
        fundingLots := s.fundingLots.update lot.lotID _ (keepsIndexes_use used)
        fundingAllocations := t } = drawnFrom id s + if lot.lotID = id then used else 0 := by
      rw [drawnFrom, Table.sum_insert? hinsert, hlot, hamount]
      rfl
    rw [h.byLot, hstep, usedOf_cons, add_assoc]
  case others =>
    rw [h.others]

theorem writeTable_ok {α κ : Type} [Indexed α κ] {get : DB → Table α} {set : Table α → DB → DB}
    {op : Table α → Option (Table α)} {a : Unit}
    (h : (writeTable get set op).run s = (.ok a, s')) : ∃ t, op (get s) = some t ∧ s' = set t s := by
  rw [writeTable, run_stepE] at h
  split at h
  next t hop =>
    cases h
    exact ⟨t, hop, rfl⟩
  next => cases h

/-- The lots are used first in, first out. -/
theorem useLots_ok (h : (useLots u requestID accountID lots amount).run s = (.ok left, s')) :
    Drawn requestID accountID (draw FundingLot.remainingAmount lots amount) s s' ∧
      left = amount - total (draw FundingLot.remainingAmount lots amount) := by
  induction lots generalizing s u amount with
  | nil =>
    cases h
    exact ⟨.nil _ _ _, by simp [draw]⟩
  | cons lot rest ih =>
    unfold useLots at h
    rw [draw]
    by_cases hzero : amount = 0
    · rw [if_pos hzero] at h ⊢
      cases h
      exact ⟨.nil _ _ _, by simp⟩
    · rw [if_neg hzero] at h ⊢
      have hused : (if lot.remainingAmount > amount then amount else lot.remainingAmount) =
          min lot.remainingAmount amount := by
        split <;> omega
      dsimp only at h
      rw [hused] at h
      obtain ⟨_, s₁, hupdate, h⟩ := run_bind_eq_ok h
      cases hupdate
      obtain ⟨_, s₂, ⟨t, hinsert, rfl⟩, h⟩ := run_bind_of_ok h writeTable_ok
      obtain ⟨hrest, rfl⟩ := ih h
      refine ⟨.cons hinsert ⟨rfl, rfl, rfl, rfl, rfl⟩ hrest, ?_⟩
      rw [total_cons]
      omega

theorem succeeds_writeTable {α κ : Type} [Indexed α κ] {get : DB → Table α}
    {set : Table α → DB → DB} {op : Table α → Option (Table α)} {Q : Unit → DB → Prop} {t : Table α}
    (hop : op (get s) = some t) (h : Q () (set t s)) : Succeeds (writeTable get set op) s Q :=
  ⟨(), set t s, by rw [writeTable, run_stepE, hop], h⟩

theorem useLots_succeeds (hids : ∀ a ∈ s.fundingAllocations, ∀ i, a.allocationID ≠ u i)
    (hinj : ∀ i j, u i = u j → i = j) (hnodup : (lots.map FundingLot.lotID).Nodup)
    (hfree : ∀ a ∈ s.fundingAllocations, a.requestID = requestID → ∀ lot ∈ lots,
      a.lotID ≠ lot.lotID) :
    Succeeds (useLots u requestID accountID lots amount) s fun _ _ => True := by
  induction lots generalizing s u amount with
  | nil => exact succeeds_ret trivial
  | cons lot rest ih =>
    obtain ⟨hhead, htail⟩ := List.nodup_cons.1 hnodup
    unfold useLots
    split
    next => exact succeeds_ret trivial
    next =>
      apply succeeds_bind
      apply succeeds_step
      apply succeeds_bind
      have hsome : (s.fundingAllocations.insert? (FundingAllocation.beforeCreate {
          requestID := requestID
          lotID := lot.lotID
          accountID := accountID
          source := lot.source
          amount := if lot.remainingAmount > amount then amount else lot.remainingAmount }
          (u 0))).isSome := by
        rw [Table.insert?_isSome_iff]
        intro a ha
        have hid := hids a ha 0
        have hlot : a.requestID = requestID → a.lotID ≠ lot.lotID :=
          fun hr => hfree a ha hr lot (.head _)
        simpa [Indexed.clash, FundingAllocation.beforeCreate, defaultID_empty, hid] using hlot
      obtain ⟨t, ht⟩ := Option.isSome_iff_exists.1 hsome
      apply succeeds_writeTable ht
      apply ih
      · intro a ha i
        rcases (Table.mem_insert? ht).1 ha with ha | rfl
        · exact hids a ha (1 + i)
        · show defaultID "" (u 0) ≠ u (1 + i)
          rw [defaultID_empty]
          intro he
          have := hinj 0 (1 + i) he
          omega
      · intro i j he
        have := hinj (1 + i) (1 + j) he
        omega
      · exact htail
      · intro a ha hr lot' hlot'
        rcases (Table.mem_insert? ht).1 ha with ha | rfl
        · exact hfree a ha hr lot' (.tail _ hlot')
        · exact fun he => hhead (List.mem_map.2 ⟨lot', hlot', he.symm⟩)

end Draws

section Balance

/-- Each lot still accounts for what it was created with, and is never overdrawn. -/
structure Balanced (s : DB) : Prop where
  remaining : ∀ lot ∈ s.fundingLots, 0 ≤ lot.remainingAmount
  conserved : ∀ lot ∈ s.fundingLots,
    lot.originalAmount = lot.remainingAmount + drawnFrom lot.lotID s
  known : ∀ a ∈ s.fundingAllocations, ∃ lot ∈ s.fundingLots, lot.lotID = a.lotID

variable {requestID accountID : String} {s s' : DB} {ds : List (FundingLot × Int)}
variable {lot : FundingLot} {t : Table FundingLot}

theorem Balanced.insertLot (h : Balanced s) (hinsert : s.fundingLots.insert? lot = some t)
    (hnonneg : 0 ≤ lot.remainingAmount) (hfull : lot.originalAmount = lot.remainingAmount) :
    Balanced { s with fundingLots := t } := by
  have hnew : ∀ a ∈ s.fundingAllocations, a.lotID ≠ lot.lotID := by
    intro a ha he
    obtain ⟨old, hold, hid⟩ := h.known a ha
    have hclash := (Table.insert?_eq_some hinsert).2 old hold
    rw [Indexed.clash_of_pk old lot (hid.trans he)] at hclash
    cases hclash
  have hzero : drawnFrom lot.lotID s = 0 := by
    rw [drawnFrom, Table.sum_congr fun a ha => if_neg (hnew a ha)]
    simp [Table.sum]
  constructor
  case remaining =>
    intro x hx
    rcases (Table.mem_insert? hinsert).1 hx with hx | rfl
    · exact h.remaining x hx
    · exact hnonneg
  case conserved =>
    intro x hx
    show x.originalAmount = x.remainingAmount + drawnFrom x.lotID s
    rcases (Table.mem_insert? hinsert).1 hx with hx | rfl
    · exact h.conserved x hx
    · omega
  case known =>
    intro a ha
    obtain ⟨old, hold, hid⟩ := h.known a ha
    exact ⟨old, (Table.mem_insert? hinsert).2 (.inl hold), hid⟩

/-- A lot is used at most once. -/
theorem usedOf_cases (hnodup : (ds.map fun d => d.1.lotID).Nodup) (id : String) :
    usedOf id ds = 0 ∨ ∃ d ∈ ds, d.1.lotID = id ∧ usedOf id ds = d.2 := by
  induction ds with
  | nil => exact .inl rfl
  | cons d rest ih =>
    obtain ⟨hhead, htail⟩ := List.nodup_cons.1 hnodup
    rw [usedOf_cons]
    by_cases hid : d.1.lotID = id
    · rw [if_pos hid]
      rcases ih htail with hzero | ⟨d', hd', hid', -⟩
      · exact .inr ⟨d, .head _, hid, by omega⟩
      · exact absurd (List.mem_map.2 ⟨d', hd', hid'.trans hid.symm⟩) hhead
    · rw [if_neg hid, zero_add]
      rcases ih htail with hzero | ⟨d', hd', hused⟩
      · exact .inl hzero
      · exact .inr ⟨d', .tail _ hd', hused⟩

theorem Balanced.drawn (h : Balanced s) (hd : Drawn requestID accountID ds s s')
    (hused : ∀ d ∈ ds, 0 < d.2 ∧ d.2 ≤ d.1.remainingAmount)
    (hcurrent : ∀ d ∈ ds, s.fundingLots.get? d.1.lotID = some d.1)
    (hnodup : (ds.map fun d => d.1.lotID).Nodup) : Balanced s' := by
  have hlot : ∀ x ∈ s'.fundingLots, ∃ lot ∈ s.fundingLots, lot.lotID = x.lotID ∧
      x = FundingLot.use (usedOf x.lotID ds) lot := by
    intro x hx
    have hget : s'.fundingLots.get? x.lotID = some x := Table.get?_of_mem hx
    rw [hd.lots, Option.map_eq_some_iff] at hget
    obtain ⟨lot, hold, hx⟩ := hget
    exact ⟨lot, Table.mem_of_get? hold, Table.pk_of_get? hold, hx.symm⟩
  constructor
  case remaining =>
    intro x hx
    obtain ⟨lot, hmem, hid, he⟩ := hlot x hx
    have hnonneg := h.remaining lot hmem
    rw [he]
    show 0 ≤ lot.remainingAmount - usedOf x.lotID ds
    rcases usedOf_cases hnodup x.lotID with hzero | ⟨d, hdmem, hdid, hdused⟩
    · omega
    · have hsame : d.1 = lot := by
        have hget := hcurrent d hdmem
        have hget' : s.fundingLots.get? lot.lotID = some lot := Table.get?_of_mem hmem
        rw [hdid, ← hid, hget'] at hget
        exact (Option.some.inj hget).symm
      have hle := (hused d hdmem).2
      rw [hsame] at hle
      omega
  case conserved =>
    intro x hx
    obtain ⟨lot, hmem, hid, he⟩ := hlot x hx
    have hbefore := h.conserved lot hmem
    rw [hd.byLot, ← hid]
    have horiginal := congrArg FundingLot.originalAmount he
    have hremaining := congrArg FundingLot.remainingAmount he
    simp only [FundingLot.use] at horiginal hremaining
    rw [← hid] at hremaining
    omega
  case known =>
    intro a ha
    have hkept : ∀ lot ∈ s.fundingLots, ∃ x ∈ s'.fundingLots, x.lotID = lot.lotID := by
      intro lot hmem
      have hget : s.fundingLots.get? lot.lotID = some lot := Table.get?_of_mem hmem
      have hget' := hd.lots lot.lotID
      rw [hget, Option.map_some] at hget'
      exact ⟨_, Table.mem_of_get? hget', rfl⟩
    rcases hd.new a ha with ha | ⟨d, hdmem, -, -, hid, -⟩
    · obtain ⟨lot, hmem, hid⟩ := h.known a ha
      obtain ⟨x, hx, hxid⟩ := hkept lot hmem
      exact ⟨x, hx, hxid.trans hid⟩
    · obtain ⟨x, hx, hxid⟩ := hkept d.1 (Table.mem_of_get? (hcurrent d hdmem))
      exact ⟨x, hx, hxid.trans hid.symm⟩

end Balance

section Open

variable {createdAt : String → Int} {accountID : String} {s : DB} {lot : FundingLot}

theorem Precedes.asymm (a b : FundingLot) (h : Precedes createdAt a b) :
    ¬ Precedes createdAt b a := by
  rintro h'
  rcases h with hlt | ⟨heq, hlt⟩
  · rcases h' with hlt' | ⟨heq', -⟩
    · omega
    · omega
  · rcases h' with hlt' | ⟨-, hlt'⟩
    · omega
    · exact absurd hlt' (lt_asymm hlt)

/-- Of two lots one precedes the other, unless they are the same. -/
theorem precedes_or (a b : FundingLot) :
    Precedes createdAt a b ∨ a.lotID = b.lotID ∨ Precedes createdAt b a := by
  unfold Precedes
  rcases lt_trichotomy a.lotID b.lotID with hlt | heq | hlt
  · rcases lt_trichotomy (createdAt a.lotID) (createdAt b.lotID) with h | h | h
    · exact .inl (.inl h)
    · exact .inl (.inr ⟨h, hlt⟩)
    · exact .inr (.inr (.inl h))
  · exact .inr (.inl heq)
  · rcases lt_trichotomy (createdAt a.lotID) (createdAt b.lotID) with h | h | h
    · exact .inl (.inl h)
    · exact .inr (.inr (.inr ⟨h.symm, hlt⟩))
    · exact .inr (.inr (.inl h))

theorem precedes_congr {a b c : FundingLot} (h : a.lotID = b.lotID) :
    Precedes createdAt c a ↔ Precedes createdAt c b := by
  unfold Precedes
  rw [h]

theorem Precedes.trans {a b c : FundingLot} (h : Precedes createdAt a b)
    (h' : Precedes createdAt b c) : Precedes createdAt a c := by
  unfold Precedes at h h' ⊢
  rcases h with hlt | ⟨heq, hlt⟩
  · rcases h' with hlt' | ⟨heq', -⟩
    · exact .inl (hlt.trans hlt')
    · exact .inl (by omega)
  · rcases h' with hlt' | ⟨heq', hlt'⟩
    · exact .inl (by omega)
    · exact .inr ⟨heq.trans heq', hlt.trans hlt'⟩

theorem mem_openLots : lot ∈ openLots createdAt accountID s ↔
    lot ∈ s.fundingLots ∧ lot.accountID = accountID ∧ 0 < lot.remainingAmount := by
  simp [openLots, List.mem_mergeSort, Table.mem_def]

theorem nodup_openLots : ((openLots createdAt accountID s).map FundingLot.lotID).Nodup := by
  have hrows : (s.fundingLots.rows.map FundingLot.lotID).Nodup := by
    rw [List.Nodup, List.pairwise_map]
    refine s.fundingLots.distinct.imp fun {a b} hclash e => ?_
    rw [Indexed.clash_of_pk a b e] at hclash
    cases hclash
  unfold openLots
  rw [((List.mergeSort_perm _ _).map _).nodup_iff]
  exact hrows.sublist (List.filter_sublist.map _)

theorem sorted_openLots : (openLots createdAt accountID s).Pairwise (Precedes createdAt) := by
  have hle : (openLots createdAt accountID s).Pairwise fun a b => ¬ Precedes createdAt b a := by
    have h := @List.pairwise_mergeSort _ (fun a b => !decide (Precedes createdAt b a)) ?_ ?_
      (s.fundingLots.rows.filter fun lot => lot.accountID = accountID ∧ lot.remainingAmount > 0)
    · exact h.imp fun hab => by simpa using hab
    · intro a b c hab hbc
      simp only [Bool.not_eq_true', decide_eq_false_iff_not] at hab hbc ⊢
      intro hca
      rcases precedes_or a b with h | h | h
      · exact hbc (hca.trans h)
      · exact hbc ((precedes_congr h).1 hca)
      · exact hab h
    · intro a b
      simp only [Bool.or_eq_true, Bool.not_eq_true', decide_eq_false_iff_not]
      by_cases h : Precedes createdAt b a
      · exact .inr (h.asymm)
      · exact .inl h
  have hne : (openLots createdAt accountID s).Pairwise fun a b => a.lotID ≠ b.lotID :=
    List.pairwise_map.1 nodup_openLots
  apply (hle.and hne).imp
  rintro a b ⟨hnot, hne⟩
  rcases precedes_or a b with h | h | h
  · exact h
  · exact absurd h hne
  · exact absurd h hnot

/-- The lots that are open hold all that the account has left. -/
theorem sum_openLots (h : Balanced s) :
    ((openLots createdAt accountID s).map FundingLot.remainingAmount).sum =
      remainingTotal accountID s := by
  have hrows : ∀ rows : List FundingLot, (∀ lot ∈ rows, 0 ≤ lot.remainingAmount) →
      ((rows.filter fun lot => lot.accountID = accountID ∧ lot.remainingAmount > 0).map
        FundingLot.remainingAmount).sum =
      (rows.map fun lot => if lot.accountID = accountID then lot.remainingAmount else 0).sum := by
    intro rows hnonneg
    induction rows with
    | nil => rfl
    | cons lot rest ih =>
      have hlot := hnonneg lot (.head _)
      have hrest := ih fun x hx => hnonneg x (.tail _ hx)
      rw [List.map_cons, List.sum_cons, ← hrest, List.filter_cons]
      by_cases haccount : lot.accountID = accountID
      · by_cases hpos : lot.remainingAmount > 0
        · rw [if_pos (by simp [haccount, hpos]), if_pos haccount, List.map_cons, List.sum_cons]
        · rw [if_neg (by simp [hpos]), if_pos haccount]
          omega
      · rw [if_neg (by simp [haccount]), if_neg haccount, zero_add]
  unfold openLots
  rw [((List.mergeSort_perm _ _).map _).sum_eq]
  exact hrows s.fundingLots.rows h.remaining

end Open

section Legacy

/-- The lots of the account come to at least `target`: where they did not, one was created for what
they lacked. -/
inductive LegacyEnsured (accountID : String) (target : Int) (s : DB) : DB → Prop
  | covered (h : target ≤ remainingTotal accountID s) : LegacyEnsured accountID target s s
  | created {lot : FundingLot} {t : Table FundingLot} (h : remainingTotal accountID s < target)
      (hinsert : s.fundingLots.insert? lot = some t) (haccount : lot.accountID = accountID)
      (hsource : lot.source = .legacyUnattributed)
      (horiginal : lot.originalAmount = target - remainingTotal accountID s)
      (hremaining : lot.remainingAmount = target - remainingTotal accountID s) :
      LegacyEnsured accountID target s { s with fundingLots := t }

variable {accountID : String} {target amount : Int} {s s₀ : DB} {u : Uuids}

theorem remainingTotal_nonneg (h : Balanced s) : 0 ≤ remainingTotal accountID s := by
  apply Table.sum_nonneg
  intro lot hlot
  split
  · exact h.remaining lot hlot
  · exact le_refl 0

theorem LegacyEnsured.balanced (h : LegacyEnsured accountID target s s₀) (hb : Balanced s) :
    Balanced s₀ := by
  cases h with
  | covered h => exact hb
  | created h hinsert haccount hsource horiginal hremaining =>
    exact hb.insertLot hinsert (by omega) (horiginal.trans hremaining.symm)

theorem LegacyEnsured.total (h : LegacyEnsured accountID target s s₀) :
    remainingTotal accountID s₀ = max (remainingTotal accountID s) target := by
  cases h with
  | covered h => exact (max_eq_left h).symm
  | created h hinsert haccount hsource horiginal hremaining =>
    show Table.sum _ _ = _
    rw [Table.sum_insert? hinsert, if_pos haccount, hremaining]
    show remainingTotal accountID s + _ = _
    omega

theorem LegacyEnsured.allocations (h : LegacyEnsured accountID target s s₀) :
    s₀.fundingAllocations = s.fundingAllocations := by
  cases h <;> rfl

theorem sumRemaining_ok {total : Int} (h : (sumRemaining accountID).run s = (.ok total, s₀)) :
    total = remainingTotal accountID s ∧ total < 2 ^ 63 ∧ s₀ = s := by
  obtain ⟨x, s₁, hread, h⟩ := run_bind_eq_ok h
  cases hread
  by_cases hlt : remainingTotal accountID s < 2 ^ 63
  · rw [if_pos hlt] at h
    cases h
    exact ⟨rfl, hlt, rfl⟩
  · rw [if_neg hlt] at h
    cases h

theorem ensureLegacyFundingLotTx_ok (hb : Balanced s)
    (h : (ensureLegacyFundingLotTx u accountID amount).run s = (.ok (), s₀)) :
    ∃ snapshot, s.ledger.snapshots.get? accountID = some snapshot ∧
      remainingTotal accountID s < 2 ^ 63 ∧
      LegacyEnsured accountID (wrap64 (snapshot.availableBalance + amount)) s s₀ := by
  obtain ⟨snapshot, s₁, ⟨hsnapshot, rfl⟩, h⟩ := run_bind_of_ok h readOrFail_ok
  obtain ⟨total, s₂, ⟨rfl, hlt, rfl⟩, h⟩ := run_bind_of_ok h sumRemaining_ok
  refine ⟨snapshot, hsnapshot, hlt, ?_⟩
  have hnonneg : 0 ≤ remainingTotal accountID s₂ := remainingTotal_nonneg hb
  dsimp only at h
  by_cases hcovered : remainingTotal accountID s₂ ≥ wrap64 (snapshot.availableBalance + amount)
  · rw [if_pos hcovered] at h
    cases h
    exact .covered hcovered
  · rw [if_neg hcovered] at h
    obtain ⟨t, hinsert, rfl⟩ := writeTable_ok h
    have hrange := wrap64_inRange (snapshot.availableBalance + amount)
    have hmissing : wrap64 (wrap64 (snapshot.availableBalance + amount) -
        remainingTotal accountID s₂) = wrap64 (snapshot.availableBalance + amount) -
          remainingTotal accountID s₂ :=
      wrap64_of_nonneg (by omega) (by have := hrange.2; omega)
    exact .created (not_le.1 hcovered) hinsert rfl rfl hmissing hmissing

/-- The identifiers that a call draws are new. -/
structure Unseen (u : Uuids) (accountID : String) (s : DB) : Prop where
  inj : ∀ i j, u i = u j → i = j
  lots : ∀ lot ∈ s.fundingLots, lot.lotID ≠ u 1 ∧
    lot.idempotencyKey ≠ "legacy-wallet:" ++ accountID ++ ":" ++ u 0
  allocations : ∀ a ∈ s.fundingAllocations, ∀ i, a.allocationID ≠ u i

theorem createLot_succeeds {lot : FundingLot} (hu : Unseen u accountID s) (hid : lot.lotID = u 1)
    (hkey : lot.idempotencyKey = "legacy-wallet:" ++ accountID ++ ":" ++ u 0) :
    Succeeds (createLot lot) s fun _ _ => True := by
  have hsome : (s.fundingLots.insert? lot).isSome := by
    rw [Table.insert?_isSome_iff]
    intro old hold
    obtain ⟨hid', hkey'⟩ := hu.lots old hold
    simp [Indexed.clash, hid, hkey, hid', hkey']
  obtain ⟨t, ht⟩ := Option.isSome_iff_exists.1 hsome
  exact succeeds_writeTable ht trivial

theorem ensureLegacyFundingLotTx_succeeds {snapshot : BillingBalanceSnapshot}
    (hu : Unseen u accountID s) (hsnapshot : s.ledger.snapshots.get? accountID = some snapshot)
    (hlt : remainingTotal accountID s < 2 ^ 63) :
    Succeeds (ensureLegacyFundingLotTx u accountID amount) s fun _ _ => True := by
  unfold ensureLegacyFundingLotTx
  apply succeeds_bind
  refine ⟨snapshot, s, ?_, ?_⟩
  · rw [readOrFail, run_stepE, hsnapshot]
  apply succeeds_bind
  apply succeeds_bind
  apply succeeds_step
  rw [if_pos hlt]
  apply succeeds_ret
  dsimp only
  split
  · exact succeeds_ret trivial
  · apply createLot_succeeds hu
    · exact defaultID_empty (u 1)
    · rfl

end Legacy

section Allocation

variable {createdAt : String → Int} {requestID accountID : String} {amount target : Int}
variable {s s₀ s₁ : DB} {u : Uuids} {ds : List (FundingLot × Int)}

/-- `s₁` is the state after the amount was taken from the lots of the account for the request; `s₀`
is the one in which the lots were read. -/
structure Attributed (createdAt : String → Int) (requestID accountID : String) (amount target : Int)
    (ds : List (FundingLot × Int)) (s s₀ s₁ : DB) : Prop where
  legacy : LegacyEnsured accountID target s s₀
  drawn : Drawn requestID accountID ds s₀ s₁
  fifo : FirstOut FundingLot.remainingAmount (openLots createdAt accountID s₀) ds
  earlier : ∀ pre d post, ds = pre ++ d :: post → ∀ lot ∈ openLots createdAt accountID s₀,
    Precedes createdAt lot d.1 → ∃ b ∈ pre, b.1 = lot ∧ b.2 = lot.remainingAmount
  sum : allocated requestID s₁ = amount
  balanced : Balanced s₁

/-- The transaction of `AllocateSettledFundingFIFO`. -/
def allocateTx (createdAt : String → Int) (u : Uuids) (requestID accountID : String) (amount : Int) :
    App Unit := do
  if ← read fun s => s.fundingAllocations.has fun a => a.requestID = requestID then pure ()
  else
    ensureLegacyFundingLotTx u accountID amount
    let lots ← read (openLots createdAt accountID)
    let remaining ← useLots (u.drop 2) requestID accountID lots amount
    if remaining ≠ 0 then
      .fail (.message "funding lot balance is lower than settled wallet amount")
    else pure ()

theorem commit_allocate (hrequest : requestID ≠ "") (haccount : accountID ≠ "") (hpos : 0 < amount) :
    (allocateSettledFundingFIFO createdAt u requestID accountID amount).commit s =
      (allocateTx createdAt u requestID accountID amount).commit s := by
  have hguard : ¬ (requestID = "" ∨ accountID = "" ∨ amount ≤ 0) := by
    rintro (h | h | h)
    · exact hrequest h
    · exact haccount h
    · omega
  have hrun : (allocateSettledFundingFIFO createdAt u requestID accountID amount).run s =
      (allocateTx createdAt u requestID accountID amount).commit s := by
    rw [allocateSettledFundingFIFO, if_neg hguard, run_transaction]
    rfl
  rw [commit, hrun]
  cases h : (allocateTx createdAt u requestID accountID amount).commit s with
  | mk r t =>
    cases r with
    | ok a => rfl
    | error e => rw [(commit_eq_error h).1]

theorem run_read {α : Type} (f : DB → α) (s : DB) : (read f).run s = (.ok (f s), s) := rfl

/-- A request that has allocations is left alone. -/
theorem allocate_again (h : ∃ a ∈ s.fundingAllocations, a.requestID = requestID)
    (hrequest : requestID ≠ "") (haccount : accountID ≠ "") (hpos : 0 < amount) (u : Uuids) :
    (allocateSettledFundingFIFO createdAt u requestID accountID amount).commit s = (.ok (), s) := by
  rw [commit_allocate hrequest haccount hpos, commit_eq_ok, allocateTx,
    run_bind_ok (run_read _ s), if_pos]
  · rfl
  · obtain ⟨a, ha, hid⟩ := h
    exact Table.has_eq_true.2 ⟨a, ha, decide_eq_true hid⟩

theorem allocated_eq_zero (h : ∀ a ∈ s.fundingAllocations, a.requestID ≠ requestID) :
    allocated requestID s = 0 := by
  rw [allocated, Table.sum_congr fun a ha => if_neg (h a ha)]
  simp [Table.sum]

theorem current_of_openLots {lot : FundingLot} (h : lot ∈ openLots createdAt accountID s) :
    s.fundingLots.get? lot.lotID = some lot := Table.get?_of_mem (mem_openLots.1 h).1

theorem nodup_of_firstOut
    (h : FirstOut FundingLot.remainingAmount (openLots createdAt accountID s) ds) :
    (ds.map fun d => d.1.lotID).Nodup := by
  have hnodup : ((ds.map Prod.fst).map FundingLot.lotID).Nodup :=
    nodup_openLots.sublist (h.order.sublist.map _)
  rwa [List.map_map] at hnodup

/-- What a call on lots that are balanced did. -/
theorem allocateTx_ok (hb : Balanced s) (hpos : 0 < amount)
    (hnew : ∀ a ∈ s.fundingAllocations, a.requestID ≠ requestID)
    (h : (allocateTx createdAt u requestID accountID amount).run s = (.ok (), s₁)) :
    ∃ snapshot s₀ ds, s.ledger.snapshots.get? accountID = some snapshot ∧
      remainingTotal accountID s < 2 ^ 63 ∧
      Attributed createdAt requestID accountID amount (wrap64 (snapshot.availableBalance + amount))
        ds s s₀ s₁ ∧ amount ≤ remainingTotal accountID s₀ := by
  have hfresh : ¬ (s.fundingAllocations.has fun a => a.requestID = requestID) = true := by
    rw [Table.has_eq_true]
    rintro ⟨a, ha, hid⟩
    exact hnew a ha (of_decide_eq_true hid)
  rw [allocateTx, run_bind_ok (run_read _ s), if_neg hfresh] at h
  obtain ⟨_, s₀, hlegacy, h⟩ := run_bind_eq_ok h
  obtain ⟨snapshot, hsnapshot, hlt, hlegacy⟩ := ensureLegacyFundingLotTx_ok hb hlegacy
  obtain ⟨lots, s₂, hread, h⟩ := run_bind_eq_ok h
  obtain ⟨rfl, rfl⟩ : openLots createdAt accountID s₀ = lots ∧ s₀ = s₂ := by
    cases hread
    exact ⟨rfl, rfl⟩
  obtain ⟨left, s₃, ⟨hdrawn, hleft⟩, h⟩ := run_bind_of_ok h useLots_ok
  by_cases hzero : left = 0
  · rw [if_neg (not_not.2 hzero)] at h
    cases h
    have hb₀ := hlegacy.balanced hb
    have hopen : ∀ lot ∈ openLots createdAt accountID s₀, 0 < lot.remainingAmount :=
      fun lot hlot => (mem_openLots.1 hlot).2.2
    have hfifo := firstOut_draw hopen hpos.le
    have htotal := total_draw hopen hpos.le
    rw [sum_openLots hb₀] at htotal
    refine ⟨snapshot, s₀, _, hsnapshot, hlt, ⟨hlegacy, hdrawn, hfifo, ?_, ?_, ?_⟩, by omega⟩
    · exact fun pre d post he lot hlot hlt =>
        hfifo.earlier sorted_openLots Precedes.asymm he hlot hlt
    · have hbefore : allocated requestID s₀ = 0 := by
        apply allocated_eq_zero
        rw [hlegacy.allocations]
        exact hnew
      rw [hdrawn.requests, if_pos rfl, hbefore]
      omega
    · apply hb₀.drawn hdrawn hfifo.positive
      · intro d hd
        exact current_of_openLots (hfifo.order.subset (List.mem_map_of_mem hd))
      · exact nodup_of_firstOut hfifo
  · rw [if_pos hzero] at h
    cases h

/-- The account has a balance, and its lots or the balance come to the amount in numbers of 64
bits. -/
def Payable (accountID : String) (amount : Int) (s : DB) : Prop :=
  ∃ snapshot, s.ledger.snapshots.get? accountID = some snapshot ∧
    remainingTotal accountID s < 2 ^ 63 ∧
    (amount ≤ remainingTotal accountID s ∨ amount ≤ wrap64 (snapshot.availableBalance + amount))

theorem allocateTx_succeeds (hb : Balanced s) (hpos : 0 < amount) (hu : Unseen u accountID s)
    (hnew : ∀ a ∈ s.fundingAllocations, a.requestID ≠ requestID)
    (h : Payable accountID amount s) :
    Succeeds (allocateTx createdAt u requestID accountID amount) s fun _ _ => True := by
  obtain ⟨snapshot, hsnapshot, hlt, henough⟩ := h
  have hfresh : ¬ (s.fundingAllocations.has fun a => a.requestID = requestID) = true := by
    rw [Table.has_eq_true]
    rintro ⟨a, ha, hid⟩
    exact hnew a ha (of_decide_eq_true hid)
  obtain ⟨_, s₀, hrun, -⟩ : Succeeds (ensureLegacyFundingLotTx u accountID amount) s
      fun _ _ => True := ensureLegacyFundingLotTx_succeeds hu hsnapshot hlt
  obtain ⟨snapshot', hsnapshot', -, hlegacy⟩ := ensureLegacyFundingLotTx_ok hb hrun
  obtain rfl : snapshot = snapshot' := Option.some.inj (hsnapshot.symm.trans hsnapshot')
  have hb₀ := hlegacy.balanced hb
  have htotal : amount ≤ remainingTotal accountID s₀ := by
    rw [hlegacy.total]
    omega
  obtain ⟨left, s₁, huse, -⟩ : Succeeds (useLots (u.drop 2) requestID accountID
      (openLots createdAt accountID s₀) amount) s₀ fun _ _ => True := by
    apply useLots_succeeds
    · rw [hlegacy.allocations]
      exact fun a ha i => hu.allocations a ha (2 + i)
    · intro i j he
      have := hu.inj (2 + i) (2 + j) he
      omega
    · exact nodup_openLots
    · rw [hlegacy.allocations]
      exact fun a ha hr => absurd hr (hnew a ha)
  have hopen : ∀ lot ∈ openLots createdAt accountID s₀, 0 < lot.remainingAmount :=
    fun lot hlot => (mem_openLots.1 hlot).2.2
  have hdrawn := total_draw hopen hpos.le
  rw [sum_openLots hb₀] at hdrawn
  have hleft : left = 0 := by
    have := (useLots_ok huse).2
    omega
  refine ⟨(), s₁, ?_, trivial⟩
  rw [allocateTx, run_bind_ok (run_read _ s), if_neg hfresh, run_bind_ok hrun,
    run_bind_ok (run_read _ s₀), run_bind_ok huse, if_neg (not_not.2 hleft)]
  rfl

/-- Any run of recordings and allocations, while everything else in the database changes. -/
inductive History (createdAt : String → Int) : DB → Prop
  | start {s : DB} (hlots : s.fundingLots = Table.empty)
      (hallocations : s.fundingAllocations = Table.empty) : History createdAt s
  | record {s s' : DB} {r : Except Err Unit} (h : History createdAt s)
      (uuid accountID : String) (amount : Int) (key reasonCode referenceType referenceID : String)
      (hrun : (recordFundingLotTx uuid accountID amount key reasonCode referenceType
        referenceID).commit s = (r, s')) : History createdAt s'
  | allocate {s s' : DB} {r : Except Err Unit} (h : History createdAt s) (u : Uuids)
      (requestID accountID : String) (amount : Int)
      (hrun : (allocateSettledFundingFIFO createdAt u requestID accountID amount).commit s = (r, s')) :
      History createdAt s'
  | other {s s' : DB} (h : History createdAt s) (hlots : s'.fundingLots = s.fundingLots)
      (hallocations : s'.fundingAllocations = s.fundingAllocations) : History createdAt s'

theorem Balanced.of_eq {s' : DB} (h : Balanced s) (hlots : s'.fundingLots = s.fundingLots)
    (hallocations : s'.fundingAllocations = s.fundingAllocations) : Balanced s' := by
  obtain ⟨hremaining, hconserved, hknown⟩ := h
  constructor
  case remaining => rwa [hlots]
  case conserved =>
    intro lot hlot
    rw [hlots] at hlot
    rw [hconserved lot hlot, drawnFrom, drawnFrom, hallocations]
  case known => rwa [hlots, hallocations]

theorem Balanced.record (hb : Balanced s) {uuid key reasonCode referenceType referenceID : String}
    (h : (recordFundingLotTx uuid accountID amount key reasonCode referenceType referenceID).run s =
      (.ok (), s₁)) : Balanced s₁ := by
  unfold recordFundingLotTx at h
  split at h
  next =>
    cases h
    exact hb
  next hguard =>
    simp only [Bool.or_eq_true, decide_eq_true_eq, not_or, not_le] at hguard
    obtain ⟨found, s', hread, h⟩ := run_bind_eq_ok h
    obtain rfl : s = s' := by
      cases hread
      rfl
    cases found with
    | some lot =>
      cases h
      exact hb
    | none =>
      obtain ⟨t, hinsert, rfl⟩ := writeTable_ok h
      exact hb.insertLot hinsert hguard.1.le rfl

/-- Every lot accounts for what it was created with, whatever calls came before. -/
theorem history_balanced (h : History createdAt s) : Balanced s := by
  induction h with
  | @start s hlots hallocations =>
    constructor
    · rw [hlots]
      exact fun lot hlot => nomatch hlot
    · rw [hlots]
      exact fun lot hlot => nomatch hlot
    · rw [hallocations]
      exact fun a ha => nomatch ha
  | @record s s' r h uuid accountID amount key reasonCode referenceType referenceID hrun ih =>
    cases r with
    | ok a => exact ih.record (commit_eq_ok.1 hrun)
    | error e =>
      rw [(commit_eq_error hrun).1]
      exact ih
  | @allocate s s' r h u requestID accountID amount hrun ih =>
    cases r with
    | error e =>
      rw [(commit_eq_error hrun).1]
      exact ih
    | ok a =>
      by_cases hguard : requestID = "" ∨ accountID = "" ∨ amount ≤ 0
      · rw [commit_eq_ok, allocateSettledFundingFIFO, if_pos hguard] at hrun
        cases hrun
        exact ih
      · simp only [not_or, not_le] at hguard
        by_cases hold : ∃ a ∈ s.fundingAllocations, a.requestID = requestID
        · rw [allocate_again hold hguard.1 hguard.2.1 hguard.2.2] at hrun
          cases hrun
          exact ih
        · rw [commit_allocate hguard.1 hguard.2.1 hguard.2.2, commit_eq_ok] at hrun
          obtain ⟨_, _, _, _, _, hattributed, _⟩ := allocateTx_ok ih hguard.2.2
            (fun a ha hid => hold ⟨a, ha, hid⟩) hrun
          exact hattributed.balanced
  | other h hlots hallocations ih => exact ih.of_eq hlots hallocations

/-- A call takes the amount for the request from the oldest lots on, and repeating it changes
nothing. -/
def Attributes (createdAt : String → Int) (u : Uuids) (requestID accountID : String) (amount : Int)
    (s : DB) : Prop :=
  ∃ target s₀ s₁ ds,
    (allocateSettledFundingFIFO createdAt u requestID accountID amount).commit s = (.ok (), s₁) ∧
      Attributed createdAt requestID accountID amount target ds s s₀ s₁ ∧
      ∀ u', (allocateSettledFundingFIFO createdAt u' requestID accountID amount).commit s₁ =
        (.ok (), s₁)

/-- After any history, a request is attributed to the lots of its account exactly when the lots or
the balance come to the amount. -/
theorem allocation_fifo_iff (createdAt : String → Int) (u : Uuids) (requestID accountID : String)
    (amount : Int) (s : DB) (h : History createdAt s) (hrequest : requestID ≠ "")
    (haccount : accountID ≠ "") (hpos : 0 < amount)
    (hnew : ∀ a ∈ s.fundingAllocations, a.requestID ≠ requestID) (hu : Unseen u accountID s) :
    Attributes createdAt u requestID accountID amount s ↔ Payable accountID amount s := by
  have hb := history_balanced h
  constructor
  · rintro ⟨target, s₀, s₁, ds, hrun, -, -⟩
    rw [commit_allocate hrequest haccount hpos, commit_eq_ok] at hrun
    obtain ⟨snapshot, s₀, ds, hsnapshot, hlt, hattributed, hle⟩ := allocateTx_ok hb hpos hnew hrun
    rw [hattributed.legacy.total] at hle
    exact ⟨snapshot, hsnapshot, hlt, le_max_iff.1 hle⟩
  · intro hpayable
    obtain ⟨_, s₁, hrun, -⟩ : Succeeds (allocateTx createdAt u requestID accountID amount) s
      fun _ _ => True := allocateTx_succeeds hb hpos hu hnew hpayable
    obtain ⟨snapshot, s₀, ds, -, -, hattributed, -⟩ := allocateTx_ok hb hpos hnew hrun
    refine ⟨_, s₀, s₁, ds, ?_, hattributed, fun u' => allocate_again ?_ hrequest haccount hpos u'⟩
    · rw [commit_allocate hrequest haccount hpos, commit_eq_ok]
      exact hrun
    · -- a positive amount was taken from some lot
      have hsome : ds ≠ [] := by
        rintro rfl
        have hzero : allocated requestID s₀ = 0 := by
          apply allocated_eq_zero
          rw [hattributed.legacy.allocations]
          exact hnew
        have hsum := hattributed.sum
        rw [hattributed.drawn.requests, if_pos rfl, total_nil] at hsum
        omega
      obtain ⟨d, hd⟩ := List.exists_mem_of_ne_nil ds hsome
      obtain ⟨a, ha, hallocation⟩ := hattributed.drawn.recorded d hd
      exact ⟨a, ha, hallocation.1⟩

def sampleTimes : String → Int := fun id => if id = "lot-1" then 10 else if id = "lot-2" then 20 else 30

/-- An account with a balance. -/
def sampleStart (available : Int) : DB :=
  { DB.empty with ledger := { Ledger.empty with
      snapshots := ⟨[{ accountID := "acc", availableBalance := available }], List.pairwise_singleton _ _⟩ } }

/-- Lots of 40 and 25, recorded the younger one first. -/
def sampleLots : DB :=
  ((recordFundingLotTx "lot-1" "acc" 40 "credit:lot-1" "topup" "user" "7").commit
    ((recordFundingLotTx "lot-2" "acc" 25 "credit:lot-2" "topup" "user" "7").commit
      (sampleStart 20)).2).2

theorem sampleLots_history : History sampleTimes sampleLots :=
  .record (.record (.start rfl rfl) _ _ _ _ _ _ _ rfl) _ _ _ _ _ _ _ rfl

theorem sampleUuids_injective {base : String} {i j : Nat}
    (h : sampleUuids base i = sampleUuids base j) : i = j := by
  have hlen := congrArg (fun x : String => x.toList.length) h
  simpa [sampleUuids, String.toList_append, String.toList_ofList] using hlen

/-- A request of 70 takes 40, 25 and 5 of a lot for the 25 that the balance has above the lots. -/
theorem allocation_fifo_sample :
    Attributes sampleTimes (sampleUuids "u") "r" "acc" 70 sampleLots := by
  apply (allocation_fifo_iff sampleTimes (sampleUuids "u") "r" "acc" 70 sampleLots sampleLots_history
    (by decide) (by decide) (by decide) (by decide +kernel) ?_).2
  · exact ⟨{ accountID := "acc", availableBalance := 20 }, by decide +kernel, by decide +kernel,
      .inr (by decide)⟩
  · exact ⟨fun i j he => sampleUuids_injective he, by decide +kernel, by
      have hnone : sampleLots.fundingAllocations.rows = [] := by decide +kernel
      intro a ha
      rw [Table.mem_def, hnone] at ha
      cases ha⟩

/-- With a balance of 1, the largest amount comes to a negative number of 64 bits. -/
theorem largest_amount_not_attributed :
    ¬ Attributes sampleTimes (sampleUuids "u") "r" "acc" (2 ^ 63 - 1) (sampleStart 1) := by
  rintro ⟨target, s₀, s₁, ds, hrun, -, -⟩
  have herror : ((allocateSettledFundingFIFO sampleTimes (sampleUuids "u") "r" "acc"
      (2 ^ 63 - 1)).commit (sampleStart 1)).1 =
        .error (.message "funding lot balance is lower than settled wallet amount") := by
    decide +kernel
  rw [hrun] at herror
  cases herror

end Allocation

end CodeGo.Billing.FundingLots
