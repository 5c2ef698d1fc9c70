import CodeGo.Billing.Consistency

/-!
# Rebuilds among ledger operations

A rebuild locks the account row and aggregates without a lock, an operation
locks the snapshot row. A commit between the aggregation and the `Save` of a
rebuild is lost; without such a commit every rebuild saves what is stored.
-/

namespace CodeGo.Billing.Rebuild

open Lib Lib.Lock Schema Statements Aggregation LedgerRuntime StatementRules Effects Invariant
  Preservation Operations Consistency

/-- A transaction on the ledger. -/
inductive Call where
  | ledger (op : LedgerOp)
  | rebuild (accountID : String)
  | process (eventID : String)

def Call.prog : Call → Tx (Option Receipt)
  | .ledger op => do return some (← op.prog)
  | .rebuild a => do
    rebuildBalanceSnapshotTx a
    return none
  | .process id => do
    processLedgerOutboxEvent id
    return none

theorem framed_ensureBillingAccountTx (u : Uuids) (p : EnsureAccountParams) :
    Framed (ensureBillingAccountTx u p) := by
  refine .bind (framed_select _) fun found => ?_
  cases found with
  | some account =>
    exact .bind (framed_ensureBalanceSnapshot _) fun _ => trivial
  | none =>
    refine .bind (framed_createAccount _) fun _ => ?_
    exact .bind (framed_ensureBalanceSnapshot _) fun _ => trivial

theorem framed_creditAccountTx (u : Uuids) (p : CreditAccountParams) :
    Framed (creditAccountTx u p) := by
  refine .bind (framed_select _) fun found => ?_
  cases found with
  | some existing => exact framed_ite trivial trivial
  | none =>
    refine .bind (framed_ensureAndLockBalanceSnapshot _) fun locked => ?_
    refine .bind (framed_saveSnapshot _) fun _ => ?_
    refine .bind (framed_createEntry _) fun _ => ?_
    exact .bind (framed_recordOutboxEvent _ _) fun _ => trivial

theorem framed_createReservationTx (u : Uuids) (p : CreateReservationParams) :
    Framed (createReservationTx u p) := by
  refine .bind (framed_select _) fun found => ?_
  cases found with
  | some existing => exact framed_ite trivial trivial
  | none =>
    refine .bind (framed_ensureAndLockBalanceSnapshot _) fun locked => ?_
    refine framed_ite trivial ?_
    refine .bind (framed_saveSnapshot _) fun _ => ?_
    refine .bind (framed_createReservationRow _) fun _ => ?_
    refine .bind (framed_createEntry _) fun _ => ?_
    exact .bind (framed_recordOutboxEvent _ _) fun _ => trivial

theorem framed_releaseReservationTx (u : Uuids) (p : ReleaseReservationParams) :
    Framed (releaseReservationTx u p) := by
  refine .bind (framed_selectForUpdate _ _ _) fun current => ?_
  refine framed_ite trivial (framed_ite trivial ?_)
  refine .bind (framed_select _) fun found => ?_
  cases found with
  | some existing =>
    refine framed_ite trivial ?_
    exact .bind (framed_updateReservationStatus _ _) fun _ => trivial
  | none =>
    refine .bind (framed_ensureAndLockBalanceSnapshot _) fun locked => ?_
    refine framed_ite trivial ?_
    refine .bind (framed_saveSnapshot _) fun _ => ?_
    refine .bind (framed_saveReservation _) fun _ => ?_
    refine .bind (framed_createEntry _) fun _ => ?_
    exact .bind (framed_recordOutboxEvent _ _) fun _ => trivial

theorem framed_settleReservationTx (u : Uuids) (p : SettleReservationParams) :
    Framed (settleReservationTx u p) := by
  refine .bind (framed_select _) fun found => ?_
  cases found with
  | some existing => exact framed_ite trivial trivial
  | none =>
    refine .bind (framed_selectForUpdate _ _ _) fun current => ?_
    refine framed_ite (framed_ite trivial trivial) ?_
    refine .bind (framed_ensureAndLockBalanceSnapshot _) fun locked => ?_
    refine framed_ite trivial (framed_ite trivial ?_)
    refine .bind (framed_saveSnapshot _) fun _ => ?_
    refine .bind (framed_createSettlement _) fun _ => ?_
    refine .bind (framed_saveReservation _) fun _ => ?_
    refine .bind (framed_ite (framed_createEntry _) trivial) fun _ => ?_
    exact .bind (framed_recordOutboxEvent _ _) fun _ => trivial

theorem framed_recordAdjustmentTx (u : Uuids) (p : RecordAdjustmentParams) :
    Framed (recordAdjustmentTx u p) := by
  refine .bind (framed_select _) fun found => ?_
  cases found with
  | some existing => exact framed_ite trivial trivial
  | none =>
    refine .bind (framed_createEntry _) fun _ => ?_
    exact .bind (framed_recordOutboxEvent _ _) fun _ => trivial

theorem framed_op (op : LedgerOp) : Framed op.prog := by
  cases op with
  | ensureAccount u p =>
    refine .bind (framed_ite trivial (framed_ite trivial ?_)) fun _ => trivial
    exact framed_ensureBillingAccountTx u p
  | credit u p =>
    exact .bind (framed_ite trivial (framed_creditAccountTx u p)) fun _ => trivial
  | reserve u p =>
    exact .bind (framed_ite trivial (framed_createReservationTx u p)) fun _ => trivial
  | release u p =>
    exact .bind (framed_ite trivial (framed_releaseReservationTx u p)) fun _ => trivial
  | settle u p =>
    refine .bind (framed_ite trivial (framed_ite trivial ?_)) fun _ => trivial
    exact framed_settleReservationTx u p
  | adjust u p =>
    exact .bind (framed_ite trivial (framed_recordAdjustmentTx u p)) fun _ => trivial

theorem framed_rebuildBalanceSnapshotTx (a : String) : Framed (rebuildBalanceSnapshotTx a) := by
  refine .bind (framed_selectForUpdate _ _ _) fun _ => ?_
  refine .bind (framed_select _) fun _ => ?_
  refine .bind (.bind (framed_selectSums _ _) fun _ => ?_) fun s => framed_saveSnapshot s
  refine .bind (framed_selectSums _ _) fun _ => ?_
  exact .bind (framed_selectSums _ _) fun _ => trivial

theorem framed_processLedgerOutboxEvent (id : String) : Framed (processLedgerOutboxEvent id) := by
  refine .bind (framed_selectForUpdate _ _ _) fun event => framed_ite trivial ?_
  exact .bind (framed_rebuildBalanceSnapshotTx _) fun _ => framed_publishEvent _

theorem framed_call (j : Call) : Framed j.prog := by
  cases j with
  | ledger op => exact .bind (framed_op op) fun _ => trivial
  | rebuild a => exact .bind (framed_rebuildBalanceSnapshotTx a) fun _ => trivial
  | process id => exact .bind (framed_processLedgerOutboxEvent id) fun _ => trivial

/-- A transaction whose change preserves the invariant. -/
theorem ensures_sound {α : Type} {I : Ledger → Prop} {p : Tx α} {P : α → Ledger → Ledger → Prop}
    (h : Ensures I p P) (hP : ∀ a l l', I l → P a l l' → I l') :
    Ensures I p fun _ _ l' => I l' :=
  wp_mono h fun _ _ _ hq c hI hF => hP _ _ _ hI (hq c hI hF)

theorem ensures_call (j : Call) : Ensures Sound j.prog fun _ _ l => Sound l := by
  cases j with
  | ledger op =>
    have h := op.ensures fun l (h : Sound l) => h.records.releasesClose
    exact ensures_return (ensures_sound h fun _ _ _ hs hc => hc.sound hs)
  | rebuild a =>
    have h := rebuildBalanceSnapshotTx_ensures Sound a
    exact ensures_return (ensures_sound h fun _ _ _ hs hc => sound_of_rebuilt hs hc)
  | process id =>
    have h := processLedgerOutboxEvent_ensures Sound id
    refine ensures_return (ensures_sound h fun _ _ _ hs hc => ?_)
    rcases hc with rfl | ⟨a, hc⟩
    · exact hs
    · exact sound_of_rebuilt hs hc

def sampleCredit : Call :=
  .ledger (.credit (sampleUuids "e") { accountID := "acc", amount := 100, idempotencyKey := "grant" })

/-- An account is opened and a rebuild of it locks its row and reads its snapshot. -/
def rebuildStarted : List (Move Call) :=
  [.start (.ledger (.ensureAccount (sampleUuids "acc") ⟨"wallet", "user", 1, ""⟩))] ++
  List.replicate 4 (.act 0) ++ [.commit 0, .start (.rebuild "acc"), .act 0, .act 0]

/-- The rebuild aggregates before a credit commits and saves afterwards. -/
def lostCredit : List (Move Call) :=
  rebuildStarted ++ List.replicate 3 (.act 0) ++
  [.start sampleCredit] ++ List.replicate 7 (.act 1) ++ [.commit 1] ++ [.act 0, .commit 0]

/-- The rebuild aggregates after the credit. -/
def keptCredit : List (Move Call) :=
  rebuildStarted ++
  [.start sampleCredit] ++ List.replicate 7 (.act 1) ++ [.commit 1] ++
  List.replicate 4 (.act 0) ++ [.commit 0]

/-- What a run leaves: the stored and the aggregated balance once nothing is in flight. -/
def outcome (s : System Ledger Cell View Err (Option Receipt)) : Bool × Int × Int :=
  (s.txns.isEmpty, (s.committed.stored "acc").availableBalance, availableSum s.committed "acc")

/-- A rebuild that overlaps a credit saves the balance from before it. -/
theorem rebuild_overwrites_credit :
    ¬ ∀ s : System Ledger Cell View Err (Option Receipt),
      Reach Call.prog (fun _ _ => True) Ledger.empty s → s.txns = [] →
        SnapshotsMatch s.committed := by
  intro h
  have hrun : (perform (fun _ _ => true) Call.prog ⟨Ledger.empty, []⟩ lostCredit).map outcome =
      some (true, 0, 100) := by decide +kernel
  obtain ⟨s, hs, hout⟩ := Option.map_eq_some_iff.1 hrun
  simp only [outcome, Prod.mk.injEq, List.isEmpty_iff] at hout
  obtain ⟨hnone, hstored, hsum⟩ := hout
  have hmatch := (h s (Reach.init.perform (fun _ _ _ => trivial) hs) hnone).available "acc"
  rw [hstored, hsum] at hmatch
  exact absurd hmatch (by decide)

/-- In every run in which no transaction commits a change to an aggregate that a rebuild in flight
has read, every committed ledger stores for every account the snapshot that its entries,
settlements and open reservations aggregate to. -/
theorem undisturbed_rebuilds_lose_nothing (s : System Ledger Cell View Err (Option Receipt))
    (h : Reach Call.prog Undisturbed Ledger.empty s) :
    SnapshotsMatch s.committed ∧ ∀ a, (aggregateExpectedBalanceSnapshot a).run s.committed =
      (if SnapshotInRange (expectedSnapshot s.committed a) then .ok (s.committed.stored a)
        else .error .outOfRange, s.committed) := by
  have hsound := (Reach.sound (fun j => ⟨framed_call j, ensures_call j⟩) Sound.empty h).committed
  refine ⟨hsound.snapshots, fun a => ?_⟩
  rw [run_aggregateExpectedBalanceSnapshot]
  split
  next hin => rw [expected_eq_stored hsound.snapshots hin]
  next => rfl

/-- A credit that commits while a rebuild waits to aggregate is kept. -/
theorem undisturbed_rebuild_sample :
    ∃ s, perform unread Call.prog ⟨Ledger.empty, []⟩ keptCredit = some s ∧
      outcome s = (true, 100, 100) ∧ SnapshotsMatch s.committed := by
  have hrun : (perform unread Call.prog ⟨Ledger.empty, []⟩ keptCredit).map outcome =
      some (true, 100, 100) := by decide +kernel
  obtain ⟨s, hs, hout⟩ := Option.map_eq_some_iff.1 hrun
  have hreach := Reach.init.perform undisturbed_of_unread hs
  exact ⟨s, hs, hout, (undisturbed_rebuilds_lose_nothing s hreach).1⟩

end CodeGo.Billing.Rebuild
