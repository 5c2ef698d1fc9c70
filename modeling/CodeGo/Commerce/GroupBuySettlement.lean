import CodeGo.Commerce.GroupBuy
import CodeGo.Lib.Batch
import Mathlib.Data.Prod.Lex

/-!
# Settling the due group buys

`SettleDueGroupBuys` is called again and again. It takes the due orders by their expiry and stops at
the first that fails, so an order that keeps failing holds up every order behind it:
`due_group_buys_settled_iff`.
-/

namespace CodeGo.Commerce.GroupBuy

open Lib Lib.Prog Billing.Schema Schema

/-- A call of `SettleDueGroupBuys`: the seconds since the one before, its limit, and the identifiers
that each settlement is given. -/
structure BatchCall where
  elapsed : Nat
  limit : Int
  uuids : Int → Uuids

/-- Repeated calls, beginning with some tables. -/
structure Run where
  quotaPerUnit : ℚ
  start : Int
  first : GroupStore
  calls : Nat → BatchCall

/-- The time of a call. -/
def Run.time (run : Run) : Nat → Int
  | 0 => run.start + (run.calls 0).elapsed
  | n + 1 => run.time n + (run.calls (n + 1)).elapsed

/-- The tables before a call. -/
def Run.tables (run : Run) : Nat → GroupStore
  | 0 => run.first
  | n + 1 => (settleDueGroupBuys (run.calls n).uuids run.quotaPerUnit (run.time n)
      (run.calls n).limit (run.tables n)).2

/-- The tables before each settlement of a batch, and those it leaves. -/
def batchStates (u : Int → Uuids) (quotaPerUnit : ℚ) : List Int → GroupStore → List GroupStore
  | [], g => [g]
  | id :: ids, g => g ::
    match settleGroupBuyOrder (u id) quotaPerUnit id g with
    | (.error _, _) => []
    | (.ok (), g') => batchStates u quotaPerUnit ids g'

/-- The orders of a call. -/
def Run.batch (run : Run) (n : Nat) (g : GroupStore) : List Int :=
  let limit := if (run.calls n).limit ≤ 0 then 100 else (run.calls n).limit
  (dueGroupBuys (run.time n) limit g).map (·.id)

/-- The tables that a call passes. -/
def Run.passed (run : Run) (n : Nat) : List GroupStore :=
  batchStates (run.calls n).uuids run.quotaPerUnit (run.batch n (run.tables n)) (run.tables n)

/-- What the settlement of an order in a call does to some tables. -/
def Run.settle (run : Run) (n : Nat) (id : Int) (g : GroupStore) : Except Err Unit × GroupStore :=
  settleGroupBuyOrder ((run.calls n).uuids id) run.quotaPerUnit id g

/-- The order's own settlement would succeed. -/
def Run.Succeeds (run : Run) (id : Int) : Prop :=
  ∀ n, ∀ g ∈ run.passed n, (run.settle n id g).1 = .ok ()

/-- From a call on the settlement of the order fails. -/
def Run.FailsFrom (run : Run) (n : Nat) (id : Int) : Prop :=
  ∀ m, n ≤ m → ∀ g ∈ run.passed m, (run.settle m id g).1 ≠ .ok ()

/-- The order is due at a call. -/
def Run.DueAt (run : Run) (n : Nat) (o : GroupBuyOrder) : Prop :=
  (run.tables n).orders.get? o.id = some o ∧ o.status = .pending ∧ o.Due (run.time n)

/-- Every due order whose own settlement would succeed is settled in the end. -/
def Run.SettlesDue (run : Run) : Prop :=
  ∀ id, run.Succeeds id → (∃ n o, o.id = id ∧ run.DueAt n o) →
    ∃ n o, (run.tables n).orders.get? id = some o ∧ o.status ≠ .pending

/-- A settlement that fails leaves orders, members and subscriptions as they were. -/
def Run.FailuresLeaveNoTrace (run : Run) : Prop :=
  ∀ n, ∀ g ∈ run.passed n, ∀ id e g', run.settle n id g = (.error e, g') →
    g'.orders = g.orders ∧ g'.members = g.members ∧
      g'.services.subscriptions = g.services.subscriptions

section Settlement

variable {u : Uuids} {quotaPerUnit : ℚ} {id : Int} {g g' : GroupStore}

theorem keeps_onServices {α : Type} (p : Flow α) : Keeps GroupStore.orders (onServices p) := by
  unfold onServices
  apply Keeps.zoom
  intro s g
  rfl

theorem keeps_grantBonus (u : Uuids) (planID : Int) (bonusUSD : ℚ) (quota : Int)
    (member : GroupBuyMember) :
    Keeps GroupStore.orders (grantBonus u planID bonusUSD quota member) := by
  unfold grantBonus
  apply Keeps.ite
  · trivial
  · apply Keeps.bind
    · apply Keeps.stepE
      intro g
      dsimp only
      split <;> rfl
    · intro sub
      exact (keeps_onServices _).bind fun _ => .step fun _ => rfl

theorem keeps_grantBonuses (u : Uuids) (planID : Int) (bonusUSD : ℚ) (quota : Int)
    (members : List GroupBuyMember) :
    Keeps GroupStore.orders (grantBonuses u planID bonusUSD quota members) := by
  induction members generalizing u with
  | nil => trivial
  | cons member members ih => exact (keeps_grantBonus _ _ _ _ _).bind fun _ => ih _

/-- A settlement that succeeds leaves an order that is not pending as it is, and gives one that is
another status; the other orders stay. -/
theorem settleGroupBuyOrder_ok (h : settleGroupBuyOrder u quotaPerUnit id g = (.ok (), g')) :
    ∃ o, g.orders.get? id = some o ∧
      (o.status ≠ .pending ∧ g'.orders = g.orders ∨ o.status = .pending ∧
        ∃ status, status ≠ .pending ∧
          g'.orders = g.orders.update id _ (keepsIndexes_withStatus status)) := by
  rw [settleGroupBuyOrder, commit_eq_ok] at h
  obtain ⟨o, g₁, hread, h⟩ := run_bind_eq_ok h
  rw [run_stepE] at hread
  cases ho : g.orders.get? id with
  | none =>
    rw [ho] at hread
    cases hread
  | some order =>
    rw [ho] at hread
    cases hread
    refine ⟨o, rfl, ?_⟩
    have hid : o.id = id := Table.pk_of_get? ho
    by_cases hstatus : o.status = .pending
    · right
      refine ⟨hstatus, ?_⟩
      rw [if_neg (by simpa using hstatus)] at h
      obtain ⟨members, g₂, hmembers, h⟩ := run_bind_eq_ok h
      cases hmembers
      obtain ⟨plan, g₃, hplan, h⟩ := run_bind_eq_ok h
      have h₃ : g₃.orders = g.orders := (keeps_onServices _).of_run hplan
      obtain ⟨bonusUSD, g₄, hbonus, h⟩ := run_bind_eq_ok h
      cases hbonus
      obtain ⟨granted, g₅, hgrant, h⟩ := run_bind_eq_ok h
      have h₅ : g₅.orders = g₃.orders := by
        refine Keeps.of_run ?_ hgrant
        exact .ite (keeps_grantBonuses _ _ _ _ _) trivial
      cases h
      refine ⟨if 2 ≤ (g.members.rows.filter (·.groupBuyID = o.id)).length then .completed
        else .expired, ?_, ?_⟩
      · split <;> simp
      · show g₅.orders.update o.id _ (keepsIndexes_withStatus _) = _
        rw [h₅, h₃, hid]
    · left
      rw [if_pos hstatus] at h
      cases h
      exact ⟨hstatus, rfl⟩

theorem settleGroupBuyOrder_error {e : Err}
    (h : settleGroupBuyOrder u quotaPerUnit id g = (.error e, g')) : g' = g :=
  (commit_eq_error h).1

end Settlement

section Static

/-- The orders differ in their status at most. -/
def SameOrders (g₀ g : GroupStore) : Prop :=
  ∀ id, (g.orders.get? id).map (withStatus .pending) = (g₀.orders.get? id).map (withStatus .pending)

variable {g₀ g g' : GroupStore} {u : Uuids} {quotaPerUnit : ℚ} {id : Int} {o : GroupBuyOrder}

theorem SameOrders.settle (h : SameOrders g₀ g)
    (hrun : settleGroupBuyOrder u quotaPerUnit id g = (.ok (), g')) : SameOrders g₀ g' := by
  intro j
  rw [← h j]
  obtain ⟨o, ho, ⟨-, heq⟩ | ⟨-, status, -, heq⟩⟩ := settleGroupBuyOrder_ok hrun
  · rw [heq]
  · rw [heq, Table.get?_update]
    split_ifs with hj
    · rw [hj, Option.map_map]
      rfl
    · rfl

/-- The row of an order at the start. -/
theorem SameOrders.first (h : SameOrders g₀ g) (ho : g.orders.get? id = some o) :
    ∃ o₀, g₀.orders.get? id = some o₀ ∧ o₀.id = o.id ∧ o₀.expiresAt = o.expiresAt ∧
      ∀ now, o₀.Due now ↔ o.Due now := by
  have hid := h id
  rw [ho, Option.map_some] at hid
  obtain ⟨o₀, ho₀, heq⟩ := Option.map_eq_some_iff.1 hid.symm
  refine ⟨o₀, ho₀, congrArg (·.id) heq, congrArg (·.expiresAt) heq, fun now => ?_⟩
  have hexpires : o₀.expiresAt = o.expiresAt := congrArg (·.expiresAt) heq
  have htarget : o₀.targetCount = o.targetCount := congrArg (·.targetCount) heq
  have hcurrent : o₀.currentCount = o.currentCount := congrArg (·.currentCount) heq
  rw [GroupBuyOrder.Due, GroupBuyOrder.Due, hexpires, htarget, hcurrent]

end Static

section Rank

/-- The place of an order in the batches. -/
def rankOf (g₀ : GroupStore) (id : Int) : Int ×ₗ Int :=
  toLex (((g₀.orders.get? id).map (·.expiresAt)).getD 0, id)

variable {g₀ g : GroupStore} {o o' : GroupBuyOrder}

theorem rankOf_eq (h : SameOrders g₀ g) (ho : g.orders.get? o.id = some o) :
    rankOf g₀ o.id = toLex (o.expiresAt, o.id) := by
  obtain ⟨o₀, ho₀, -, hexpires, -⟩ := h.first ho
  rw [rankOf, ho₀, Option.map_some, Option.getD_some, hexpires]

theorem sooner_iff : o.Sooner o' ↔ toLex (o.expiresAt, o.id) ≤ toLex (o'.expiresAt, o'.id) := by
  rw [Prod.Lex.toLex_le_toLex]
  rfl

end Rank

section Batches

variable {g g₀ : GroupStore} {now limit : Int} {o : GroupBuyOrder}

theorem sooner_total (o o' : GroupBuyOrder) : o.Sooner o' ∨ o'.Sooner o := by
  rw [sooner_iff, sooner_iff]
  exact le_total _ _

theorem sooner_trans {o o' o'' : GroupBuyOrder} (h : o.Sooner o') (h' : o'.Sooner o'') :
    o.Sooner o'' := by
  rw [sooner_iff] at *
  exact h.trans h'

instance : Std.Total GroupBuyOrder.Sooner := ⟨sooner_total⟩

instance : IsTrans GroupBuyOrder GroupBuyOrder.Sooner := ⟨fun _ _ _ => sooner_trans⟩

theorem mem_dueGroupBuys (h : o ∈ dueGroupBuys now limit g) :
    g.orders.get? o.id = some o ∧ o.status = .pending ∧ o.Due now := by
  have hmem := List.mem_of_mem_take h
  rw [List.mem_insertionSort, List.mem_filter, decide_eq_true_eq] at hmem
  exact ⟨Table.get?_of_mem hmem.1, hmem.2⟩

/-- The orders of a table in the order of a batch. -/
theorem sorted_due (h : SameOrders g₀ g) (now : Int) :
    ((g.orders.rows.filter fun o => o.status = .pending ∧ o.Due now).insertionSort
      GroupBuyOrder.Sooner).Pairwise fun o o' => rankOf g₀ o.id < rankOf g₀ o'.id := by
  have hsorted := List.pairwise_insertionSort GroupBuyOrder.Sooner
    (g.orders.rows.filter fun o => o.status = .pending ∧ o.Due now)
  have hdistinct : ((g.orders.rows.filter fun o => o.status = .pending ∧ o.Due now).insertionSort
      GroupBuyOrder.Sooner).Pairwise fun o o' => o.id ≠ o'.id := by
    have hrows : (g.orders.rows.filter fun o => o.status = .pending ∧ o.Due now).Pairwise
        fun o o' => o.id ≠ o'.id :=
      (g.orders.distinct.imp fun hclash => of_decide_eq_false hclash).filter _
    exact ((List.perm_insertionSort _ _).pairwise_iff fun hne => hne.symm).2 hrows
  refine (hsorted.and hdistinct).imp_of_mem ?_
  intro o o' ho ho' ⟨hsooner, hne⟩
  have hrow : ∀ o, o ∈ (g.orders.rows.filter fun o => o.status = .pending ∧ o.Due now).insertionSort
      GroupBuyOrder.Sooner → g.orders.get? o.id = some o := by
    intro o ho
    rw [List.mem_insertionSort, List.mem_filter] at ho
    exact Table.get?_of_mem ho.1
  rw [rankOf_eq h (hrow o ho), rankOf_eq h (hrow o' ho')]
  refine lt_of_le_of_ne (sooner_iff.1 hsooner) fun heq => hne ?_
  exact congrArg (fun p => (ofLex p).2) heq

/-- A due order is in the batch, or the batch is full of orders before it. -/
theorem first_dueGroupBuys (h : SameOrders g₀ g) (hlimit : 0 < limit)
    (ho : g.orders.get? o.id = some o) (hstatus : o.status = .pending) (hdue : o.Due now) :
    o ∈ dueGroupBuys now limit g ∨ dueGroupBuys now limit g ≠ [] ∧
      ∀ o' ∈ dueGroupBuys now limit g, rankOf g₀ o'.id < rankOf g₀ o.id := by
  have hmem : o ∈ (g.orders.rows.filter fun o => o.status = .pending ∧ o.Due now).insertionSort
      GroupBuyOrder.Sooner := by
    rw [List.mem_insertionSort, List.mem_filter, decide_eq_true_eq]
    exact ⟨Table.mem_of_get? ho, hstatus, hdue⟩
  have hsorted := sorted_due h now
  rw [dueGroupBuys]
  rw [← List.take_append_drop limit.toNat (List.insertionSort _ _)] at hmem hsorted
  rcases List.mem_append.1 hmem with hin | hout
  · exact .inl hin
  · right
    constructor
    · have hpos : 0 < limit.toNat := by omega
      have hlong := List.length_pos_of_mem hout
      rw [List.length_drop] at hlong
      apply List.ne_nil_of_length_pos
      rw [List.length_take]
      omega
    · exact fun o' ho' => (List.pairwise_append.1 hsorted).2.2 o' ho' o hout

end Batches

section Worker

variable (run : Run)

/-- The pending orders. -/
def pendingIds (g : GroupStore) : Finset Int :=
  ((g.orders.rows.filter fun o => o.status = .pending).map (·.id)).toFinset

theorem mem_pendingIds {g : GroupStore} {id : Int} :
    id ∈ pendingIds g ↔ ∃ o, g.orders.get? id = some o ∧ o.status = .pending := by
  simp only [pendingIds, List.mem_toFinset, List.mem_map, List.mem_filter, decide_eq_true_eq]
  constructor
  · rintro ⟨o, ⟨ho, hstatus⟩, rfl⟩
    exact ⟨o, Table.get?_of_mem ho, hstatus⟩
  · rintro ⟨o, ho, hstatus⟩
    exact ⟨o, ⟨Table.mem_of_get? ho, hstatus⟩, Table.pk_of_get? ho⟩

def Run.attempt (n : Nat) (id : Int) (g : GroupStore) : Option GroupStore :=
  match run.settle n id g with
  | (.ok (), g') => some g'
  | (.error _, _) => none

theorem attempt_eq_some {n : Nat} {id : Int} {g g' : GroupStore} :
    run.attempt n id g = some g' ↔ run.settle n id g = (.ok (), g') := by
  rw [Run.attempt]
  rcases run.settle n id g with ⟨_ | _, g₁⟩ <;> simp

theorem time_mono {n m : Nat} (h : n ≤ m) : run.time n ≤ run.time m := by
  induction m, h using Nat.le_induction with
  | base => exact le_refl _
  | succ m _ ih =>
    rw [Run.time]
    omega

theorem pendingIds_settle {n : Nat} {id : Int} {g g' : GroupStore} (hid : id ∈ pendingIds g)
    (h : run.settle n id g = (.ok (), g')) : pendingIds g' = (pendingIds g).erase id := by
  obtain ⟨o, ho, hpending⟩ := mem_pendingIds.1 hid
  obtain ⟨o', ho', ⟨hne, -⟩ | ⟨-, status, hstatus, heq⟩⟩ := settleGroupBuyOrder_ok h
  · rw [ho, Option.some.injEq] at ho'
    exact absurd (ho' ▸ hpending) hne
  · ext j
    rw [Finset.mem_erase, mem_pendingIds, mem_pendingIds, heq]
    simp only [Table.get?_update]
    by_cases hj : j = id
    · subst hj
      simp [ho, withStatus, hstatus]
    · simp [hj]

/-- The due orders as the items of a worker. -/
def Run.worker : Batch.Worker GroupStore Int (Int ×ₗ Int) where
  pending := pendingIds
  rank := rankOf run.first
  due n id := ∃ o, run.first.orders.get? id = some o ∧ o.Due (run.time n)
  attempt := run.attempt
  batch := run.batch
  inv := SameOrders run.first
  rank_injective j k h := congrArg (fun p => (ofLex p).2) h
  due_mono := by
    rintro n m id hle ⟨o, ho, hdue⟩
    exact ⟨o, ho, hdue.imp (fun h => h.trans (time_mono run hle)) fun h => h⟩
  inv_attempt h ha := h.settle ((attempt_eq_some run).1 ha)
  pending_attempt _ hid ha := pendingIds_settle run hid ((attempt_eq_some run).1 ha)
  mem_batch := by
    intro n id g h hid
    obtain ⟨o, ho, rfl⟩ := List.mem_map.1 hid
    obtain ⟨hrow, hstatus, hdue⟩ := mem_dueGroupBuys ho
    obtain ⟨o₀, ho₀, -, -, hsame⟩ := h.first hrow
    exact ⟨mem_pendingIds.2 ⟨o, hrow, hstatus⟩, o₀, ho₀, (hsame _).2 hdue⟩
  sorted_batch := by
    intro n g h
    rw [Run.batch, List.pairwise_map]
    exact (sorted_due h _).sublist (List.take_sublist _ _)
  first_batch := by
    intro n id g h hid ⟨o₀, ho₀, hdue⟩
    obtain ⟨o, ho, hstatus⟩ := mem_pendingIds.1 hid
    obtain ⟨o₁, ho₁, -, -, hsame⟩ := h.first ho
    rw [ho₀, Option.some.injEq] at ho₁
    have hrow : o.id = id := Table.pk_of_get? ho
    have hlimit : 0 < if (run.calls n).limit ≤ 0 then 100 else (run.calls n).limit := by
      split <;> omega
    subst hrow
    rcases first_dueGroupBuys h hlimit ho hstatus ((hsame _).1 (ho₁ ▸ hdue)) with hin | ⟨hne, hall⟩
    · exact .inl (List.mem_map_of_mem hin)
    · refine .inr ⟨by simpa [Run.batch] using hne, ?_⟩
      intro j hj
      obtain ⟨o', ho', rfl⟩ := List.mem_map.1 hj
      exact hall o' ho'

theorem attempt_worker : run.worker.attempt = run.attempt := rfl

theorem serve_worker (n settled : Nat) (ids : List Int) (g : GroupStore) :
    run.worker.serve n ids g =
      (settleEach (run.calls n).uuids run.quotaPerUnit settled ids g).2 := by
  induction ids generalizing settled g with
  | nil => rfl
  | cons id ids ih =>
    rw [Batch.Worker.serve, settleEach]
    rw [attempt_worker, Run.attempt, Run.settle]
    rcases hrun : settleGroupBuyOrder ((run.calls n).uuids id) run.quotaPerUnit id g with ⟨e | _, g'⟩
    · exact (settleGroupBuyOrder_error hrun).symm
    · exact ih (settled + 1) g'

theorem state_worker (n : Nat) : run.worker.state run.first n = run.tables n := by
  induction n with
  | zero => rfl
  | succ n ih =>
    rw [Batch.Worker.state, ih, Run.tables, serve_worker run n 0]
    rfl

theorem visited_worker (n : Nat) (ids : List Int) (g : GroupStore) :
    run.worker.visited n ids g = batchStates (run.calls n).uuids run.quotaPerUnit ids g := by
  induction ids generalizing g with
  | nil => rfl
  | cons id ids ih =>
    rw [Batch.Worker.visited, batchStates]
    congr 1
    rw [attempt_worker, Run.attempt, Run.settle]
    rcases settleGroupBuyOrder ((run.calls n).uuids id) run.quotaPerUnit id g with ⟨e | _, g'⟩
    · rfl
    · exact ih g'

theorem passed_worker (n : Nat) : run.worker.passed run.first n = run.passed n := by
  rw [Batch.Worker.passed, state_worker, visited_worker]
  rfl

theorem sameOrders_tables (n : Nat) : SameOrders run.first (run.tables n) := by
  rw [← state_worker]
  exact Batch.inv_state (show run.worker.inv run.first from fun _ => rfl)

theorem attempt_eq_none {n : Nat} {id : Int} {g : GroupStore} :
    run.attempt n id g = none ↔ (run.settle n id g).1 ≠ .ok () := by
  rw [Run.attempt]
  rcases run.settle n id g with ⟨_ | _, g₁⟩ <;> simp

theorem able_iff (id : Int) : run.worker.Able run.first id ↔ run.Succeeds id := by
  simp only [Batch.Worker.Able, Run.Succeeds, passed_worker, attempt_worker, Option.isSome_iff_ne_none,
    ne_eq, attempt_eq_none, not_not]

theorem stuck_iff (n : Nat) (id : Int) :
    run.worker.Stuck run.first n id ↔ run.FailsFrom n id := by
  simp only [Batch.Worker.Stuck, Run.FailsFrom, passed_worker, attempt_worker, attempt_eq_none]

theorem waiting_iff (n : Nat) (id : Int) :
    run.worker.Waiting run.first n id ↔ ∃ o : GroupBuyOrder, o.id = id ∧ run.DueAt n o := by
  rw [Batch.Worker.Waiting, state_worker]
  constructor
  · rintro ⟨hpending, o₀, ho₀, hdue⟩
    obtain ⟨o, ho, hstatus⟩ := mem_pendingIds.1 hpending
    obtain ⟨o₁, ho₁, -, -, hsame⟩ := (sameOrders_tables run n).first ho
    rw [ho₀, Option.some.injEq] at ho₁
    have hid : o.id = id := Table.pk_of_get? ho
    exact ⟨o, hid, by rwa [hid], hstatus, (hsame _).1 (ho₁ ▸ hdue)⟩
  · rintro ⟨o, rfl, ho, hstatus, hdue⟩
    obtain ⟨o₀, ho₀, -, -, hsame⟩ := (sameOrders_tables run n).first ho
    exact ⟨mem_pendingIds.2 ⟨o, ho, hstatus⟩, o₀, ho₀, (hsame _).2 hdue⟩

/-- An order that was due once is settled when it is not pending any more. -/
theorem settled_iff {n m : Nat} {o : GroupBuyOrder} (h : run.DueAt n o) :
    o.id ∉ pendingIds (run.tables m) ↔
      ∃ o', (run.tables m).orders.get? o.id = some o' ∧ o'.status ≠ .pending := by
  have hrow := (sameOrders_tables run m o.id).trans (sameOrders_tables run n o.id).symm
  rw [h.1, Option.map_some] at hrow
  obtain ⟨o', ho', -⟩ := Option.map_eq_some_iff.1 hrow
  rw [mem_pendingIds, ho']
  simp

/-- The due orders whose own settlement would succeed are settled in the end exactly when no order
that keeps failing ever stands before one of them. -/
theorem settlesDue_iff : run.SettlesDue ↔ ∀ n o b, run.DueAt n o → run.Succeeds o.id →
    run.DueAt n b → run.FailsFrom n b.id → o.Sooner b := by
  have hinv : run.worker.inv run.first := fun _ => rfl
  have hdrained := Batch.drained_iff hinv
  have hserved : run.SettlesDue ↔ ∀ id, run.worker.Able run.first id →
      (∃ n, run.worker.Waiting run.first n id) →
        ∃ n, id ∉ run.worker.pending (run.worker.state run.first n) := by
    simp only [Run.SettlesDue, able_iff, waiting_iff, state_worker]
    apply forall_congr'
    intro id
    apply imp_congr_right
    intro _
    apply forall_congr'
    rintro ⟨n, o, rfl, ho⟩
    exact exists_congr fun m => (settled_iff run ho).symm
  rw [hserved, hdrained]
  have hrank : ∀ n (o b : GroupBuyOrder), run.DueAt n o → run.DueAt n b → o.id ≠ b.id →
      (run.worker.rank o.id < run.worker.rank b.id ↔ o.Sooner b) := by
    intro n o b ho hb hne
    show rankOf run.first o.id < rankOf run.first b.id ↔ _
    rw [rankOf_eq (sameOrders_tables run n) ho.1, rankOf_eq (sameOrders_tables run n) hb.1,
      sooner_iff]
    exact ⟨le_of_lt, fun h => lt_of_le_of_ne h fun heq => hne (congrArg (fun p => (ofLex p).2) heq)⟩
  have hapart : ∀ n (o b : GroupBuyOrder), run.Succeeds o.id → run.FailsFrom n b.id → o.id ≠ b.id := by
    intro n o b hable hfails heq
    have hself : run.tables n ∈ run.passed n := by
      rw [← passed_worker, ← state_worker]
      exact Batch.mem_visited_self _
    exact hfails n (le_refl n) _ hself (heq ▸ hable n _ hself)
  simp only [waiting_iff, stuck_iff, able_iff]
  constructor
  · intro h n o b ho hable hb hfails
    exact (hrank n o b ho hb (hapart n o b hable hfails)).1
      (h n b.id o.id ⟨b, rfl, hb⟩ hfails ⟨o, rfl, ho⟩ hable)
  · rintro h n _ _ ⟨b, rfl, hb⟩ hfails ⟨o, rfl, ho⟩ hable
    exact (hrank n o b ho hb (hapart n o b hable hfails)).2 (h n o b ho hable hb hfails)

theorem failuresLeaveNoTrace : run.FailuresLeaveNoTrace := by
  intro n g _ id e g' h
  rw [settleGroupBuyOrder_error h]
  exact ⟨rfl, rfl, rfl⟩

end Worker

def noServices : Store where
  base := .empty
  plans := ⟨[{ id := 7 }], by decide⟩
  subscriptions := .empty
  preConsumes := .empty
  subscriptionOrderIDs _ := []

/-- Two members without a subscription in the first group, one member in the second. -/
def twoGroups : GroupStore where
  services := noServices
  orders := ⟨[{ id := 1, planID := 7, expiresAt := 10 }, { id := 2, planID := 7, expiresAt := 20 }],
    by decide⟩
  members := ⟨[{ id := 1, groupBuyID := 1, userID := 1 }, { id := 2, groupBuyID := 1, userID := 2 },
    { id := 3, groupBuyID := 2, userID := 3 }], by decide⟩
  bonuses _ := { bonus2 := 1 }
  createdAt _ := 0

/-- A call every minute. -/
def everyMinute : Run where
  quotaPerUnit := 500000
  start := 100
  first := twoGroups
  calls _ := ⟨60, 100, fun _ => sampleUuids "u"⟩

theorem first_group_fails : (settleGroupBuyOrder (sampleUuids "u") 500000 1 twoGroups).1 =
    .error .recordNotFound := by decide

theorem second_group_succeeds : (settleGroupBuyOrder (sampleUuids "u") 500000 2 twoGroups).1 =
    .ok () := by decide

theorem settle_first_group : settleGroupBuyOrder (sampleUuids "u") 500000 1 twoGroups =
    (.error .recordNotFound, twoGroups) :=
  Prod.ext first_group_fails (settleGroupBuyOrder_error (Prod.ext first_group_fails rfl))

theorem batch_everyMinute (n : Nat) : everyMinute.batch n twoGroups = [1, 2] := by
  have htime : 20 ≤ everyMinute.time n := by
    calc (20 : Int) ≤ everyMinute.time 0 := by decide
      _ ≤ everyMinute.time n := time_mono everyMinute (Nat.zero_le n)
  have hall : twoGroups.orders.rows.filter (fun o => o.status = .pending ∧ o.Due (everyMinute.time n)) =
      twoGroups.orders.rows := by
    rw [List.filter_eq_self]
    intro o ho
    rw [decide_eq_true_eq]
    rcases List.mem_pair.1 ho with rfl | rfl
    · exact ⟨rfl, .inl (show (10 : Int) ≤ _ by omega)⟩
    · exact ⟨rfl, .inl htime⟩
  rw [Run.batch, dueGroupBuys, hall]
  show ((twoGroups.orders.rows.insertionSort GroupBuyOrder.Sooner).take 100).map (·.id) = [1, 2]
  decide

theorem tables_everyMinute (n : Nat) : everyMinute.tables n = twoGroups := by
  induction n with
  | zero => rfl
  | succ n ih =>
    rw [Run.tables, ih]
    show (settleEach (fun _ => sampleUuids "u") 500000 0 (everyMinute.batch n twoGroups) twoGroups).2 = _
    rw [batch_everyMinute, settleEach, settle_first_group]

theorem passed_everyMinute (n : Nat) : everyMinute.passed n = [twoGroups] := by
  rw [Run.passed, tables_everyMinute, batch_everyMinute]
  show batchStates (fun _ => sampleUuids "u") 500000 [1, 2] twoGroups = _
  rw [batchStates, settle_first_group]

end CodeGo.Commerce.GroupBuy
