import CodeGo.Bounty.Review

/-!
# What a bounty operation does

Every committed operation changes the tasks, the balances and the open requests
in one of a few ways. All later results rest on these, not on the bodies of the
operations.
-/

namespace CodeGo.Bounty.Effects

open Lib Lib.Prog Billing.Schema Billing.LedgerRuntime Billing.Wallet Billing.CreditReplay
  Identity.Schema Identity.Store Platform.Database Status Schema Tasks Review

/-- A task that is published and not over. -/
def active (status : TaskStatus) : Bool := status ≠ .draft && !isTerminalStatus status

/-- The statuses in which a blocking request may be open. -/
def blockedStatus : TaskStatus → Bool
  | .waitingForPublisher | .publisherReplied | .disputed | .changesRequested | .suspended => true
  | _ => false

/-- What is held for a task and for whom. -/
def escrow (t : BountyTask) : String × Int × Wallet × Int × String :=
  (t.taskID, t.publisherUserID, t.rewardWalletType, t.rewardAmount, t.reservationID)

/-- The deadline of a task and its pauses. -/
def pauses (t : BountyTask) : Int × Option Int × Option Int × Option Int × Option TaskStatus :=
  (t.deadlineAt, t.pausedAt, t.suspendedAt, t.suspendedPreviousPausedAt, t.suspendedFromStatus)

/-- The row of `t` becomes `t'`, the other tasks stay. -/
structure Rewritten (s s' : Store) (t t' : BountyTask) : Prop where
  row : s.tasks.get? t.taskID = some t
  rows : ∀ id, s'.tasks.get? id = if id = t.taskID then some t' else s.tasks.get? id

/-- No task but the excepted one gets or loses its open blocking requests. -/
def SameBlocking (s s' : Store) (except : Option String) : Prop :=
  ∀ id, some id ≠ except → openBlocking id s' = openBlocking id s

/-- The ledger with the account of the user, `bounty:mirror-bootstrap` credited if it is new. -/
inductive AccountReady (u : Uuids) (userID : Int) (walletType : Wallet) (b : DB)
    (account : BillingAccount) (l : Ledger) : Prop where
  | kept (ensured : (ensureBillingAccount u (rewardAccount userID walletType)).run b.ledger =
        (.ok account, l))
      (used : (l.stored account.accountID).availableBalance ≠ 0 ∨
        (l.stored account.accountID).reservedBalance ≠ 0 ∨
        (l.stored account.accountID).consumedTotal ≠ 0 ∨
        (l.stored account.accountID).grantedTotal ≠ 0 ∨ quotaColumn walletType userID b ≤ 0)
  | bootstrapped (l₁ : Ledger) (e : BillingLedgerEntry)
      (ensured : (ensureBillingAccount u (rewardAccount userID walletType)).run b.ledger =
        (.ok account, l₁))
      (unused : (l₁.stored account.accountID).availableBalance = 0)
      (credited : (creditAccount (u.drop 1) (mirrorBootstrap account.accountID userID walletType
        (quotaColumn walletType userID b))).run l₁ = (.ok e, l))

/-- The reward of `t` is held by `r`. -/
structure RewardHeld (u : Uuids) (b b' : DB) (t : BountyTask) (r : BillingReservation) : Prop where
  reserved : ∃ account l l', AccountReady u t.publisherUserID t.rewardWalletType b account l ∧
    (createReservation (u.drop 3) (rewardHold account.accountID t)).run l = (.ok r, l') ∧
    b' = b.setLedger l'

/-- The hold of `t` is settled at `amount`, which the executor is credited. -/
inductive RewardPaid (u : Uuids) (b : DB) (t : BountyTask) (executor amount : Int) (b' : DB) :
    Prop where
  | intro (x : BillingSettlement) (submissionID : String) (l : Ledger)
      (settled : (settleReservation u (rewardSettlement t submissionID amount)).run b.ledger =
        (.ok x, l))
      (credited : 0 < amount ∧ (creditQuotaTx t.rewardWalletType (u.drop 3) executor amount
          (creditKey t.taskID) "bounty_reward").run (b.setLedger l) = (.ok (), b') ∨
        amount = 0 ∧ b' = b.setLedger l)

/-- The hold of `t` is released, where there is one. -/
inductive RewardReleased (u : Uuids) (b : DB) (t : BountyTask) (b' : DB) : Prop where
  | none (unheld : t.reservationID = "") (same : b' = b)
  | released (reason : String) (r : BillingReservation) (l : Ledger)
      (ran : (releaseReservation u (rewardRelease t reason)).run b.ledger = (.ok r, l))
      (base : b' = b.setLedger l)

/-- The task after its publication. -/
def publishedAs (now : Int) (reservationID : String) (t : BountyTask) : BountyTask :=
  { t with reservationID := reservationID, publishedAt := now, status := .published }

/-- The task after the pause ended. -/
def timerResumed (now : Int) (t : BountyTask) : BountyTask :=
  match t.pausedAt with
  | none => t
  | some pausedAt => { t with
    deadlineAt := if now - pausedAt > 0 then t.deadlineAt + (now - pausedAt) else t.deadlineAt
    pausedAt := none }

/-- The task after it was suspended. -/
def suspendedAs (now : Int) (t : BountyTask) : BountyTask := { t with
  suspendedFromStatus := some t.status
  suspendedAt := some now
  suspendedPreviousPausedAt := t.pausedAt
  pausedAt := some (t.pausedAt.getD now)
  status := .suspended }

/-- What an operation does; `resuming` is the task that a `ResumeTask` is for. -/
inductive Effect (now : Int) (u : Uuids) (resuming : Option String) (s s' : Store) : Prop where
  | quiet (tasks : s'.tasks = s.tasks) (base : s'.base = s.base)
      (blocking : SameBlocking s s' none)
  | drafted (t : BountyTask) (new : s.tasks.get? t.taskID = none)
      (rows : ∀ id, s'.tasks.get? id = if id = t.taskID then some t else s.tasks.get? id)
      (status : t.status = .draft) (unheld : t.reservationID = "")
      (unpaused : pauses t = (t.deadlineAt, none, none, none, none))
      (base : s'.base = s.base) (blocking : SameBlocking s s' none)
  | edited (t : BountyTask) (input : TaskInput) (h : Rewritten s s' t (withInput input t))
      (status : t.status = .draft) (base : s'.base = s.base) (blocking : SameBlocking s s' none)
  | published (v : Uuids) (n : Nat) (t : BountyTask) (r : BillingReservation) (drawn : v = u.drop n)
      (before : s.tasks.get? t.taskID = some t ∨ s.tasks.get? t.taskID = none ∧
        t.reservationID = "" ∧ pauses t = (t.deadlineAt, none, none, none, none))
      (rows : ∀ id, s'.tasks.get? id =
        if id = t.taskID then some (publishedAs now r.reservationID t) else s.tasks.get? id)
      (status : t.status = .draft) (positive : 0 < t.rewardAmount)
      (held : RewardHeld v s.base s'.base t r) (blocking : SameBlocking s s' none)
  | moved (t t' : BountyTask) (h : Rewritten s s' t t') (escrow : escrow t' = escrow t)
      (pauses : pauses t' = pauses t) (active : active t.status = true ∧ active t'.status = true)
      (unsuspended : t.status ≠ .suspended ∧ t'.status ≠ .suspended)
      (blocked : openBlocking t.taskID s = true → blockedStatus t.status = true →
        blockedStatus t'.status = true)
      (base : s'.base = s.base) (blocking : SameBlocking s s' none)
  | asked (t : BountyTask) (h : Rewritten s s' t
        { t with pausedAt := some (t.pausedAt.getD now), status := .waitingForPublisher })
      (status : t.status = .assigned ∨ t.status = .inProgress)
      (base : s'.base = s.base) (blocking : SameBlocking s s' (some t.taskID))
      (opened : openBlocking t.taskID s' = true)
  | unpaused (t : BountyTask) (h : Rewritten s s' t { timerResumed now t with status := .inProgress })
      (active : active t.status = true) (unsuspended : t.status ≠ .suspended)
      (base : s'.base = s.base) (blocking : SameBlocking s s' (some t.taskID))
      (was : openBlocking t.taskID s = true) (closed : openBlocking t.taskID s' = false)
  | suspended (t : BountyTask) (h : Rewritten s s' t (suspendedAs now t))
      (active : active t.status = true) (unsuspended : t.status ≠ .suspended)
      (base : s'.base = s.base) (blocking : SameBlocking s s' none)
  | resumed (t : BountyTask) (h : Rewritten s s' t (resumed now t t))
      (status : t.status = .suspended) (asked : resuming = some t.taskID) (base : s'.base = s.base)
      (blocking : SameBlocking s s' none)
  | paid (t t' : BountyTask) (executor amount : Int) (h : Rewritten s s' t t')
      (escrow : escrow t' = escrow t) (assignee : t.assigneeUserID = some executor ∧
        t'.assigneeUserID = some executor) (positive : 0 < executor)
      (bounded : 0 ≤ amount ∧ amount ≤ t.rewardAmount)
      (status : t.status = .reviewing ∧ t'.status = .completed ∧ amount = t.rewardAmount ∨
        t.status = .disputed ∧ t'.status = .resolved ∧ (amount = t.rewardAmount ∨ 0 < amount))
      (paid : RewardPaid u s.base t executor amount s'.base) (blocking : SameBlocking s s' none)
  | released (t t' : BountyTask) (h : Rewritten s s' t t') (escrow : escrow t' = escrow t)
      (active : active t.status = true ∨ t' = t ∧ t.status = .cancelled)
      (unsuspended : t.status ≠ .suspended)
      (status : t'.status = .cancelled ∨ t'.status = .expired ∨ t'.status = .resolved)
      (released : RewardReleased u s.base t s'.base)
      (blocking : SameBlocking s s' (some t.taskID))

section Statements

variable {s s' : Store} {taskID : String} {task t' : BountyTask} {next : TaskStatus}
  {f : BountyTask → BountyTask}

/-- The row that a call locks first. -/
theorem locked {α : Type} {p : BountyTask → Flow α} {a : α}
    (h : (lockTaskTx taskID >>= p).run s = (.ok a, s')) :
    ∃ task, s.tasks.get? task.taskID = some task ∧ taskID = task.taskID ∧
      (p task).run s = (.ok a, s') := by
  obtain ⟨task, s₁, ⟨hrow, rfl⟩, h⟩ := run_bind_of_ok h readOrFail_ok
  have hid : task.taskID = taskID := Table.pk_of_get? hrow
  exact ⟨task, by rw [hid, hrow], hid.symm, h⟩

theorem transitionTaskTx_ok (h : (transitionTaskTx task next f).run s = (.ok t', s')) :
    canTransition task.status next = true ∧ t' = { f task with status := next } ∧
      s' = s.updateTask task.taskID fun t => { f t with status := next } := by
  obtain ⟨_, s₁, hcheck, h⟩ := run_bind_eq_ok h
  obtain ⟨_, s₂, hwrite, h⟩ := run_bind_eq_ok h
  obtain ⟨hallowed, rfl⟩ := ofExcept_ok hcheck
  obtain rfl := modify_ok hwrite
  cases h
  refine ⟨?_, rfl, rfl⟩
  unfold requireTransition at hallowed
  split at hallowed
  next hcan => exact hcan
  next => cases hallowed

theorem rewritten_of_update (hrow : s.tasks.get? task.taskID = some task)
    (ht : taskColumns f task = t') (htasks : s'.tasks = (s.updateTask task.taskID f).tasks) :
    Rewritten s s' task t' := by
  refine ⟨hrow, fun id => ?_⟩
  rw [htasks, get?_updateTask hrow, ht]

/-- A rewritten row has the same key. -/
theorem Rewritten.key (h : Rewritten s s' task t') : t'.taskID = task.taskID := by
  have := h.rows task.taskID
  rw [if_pos rfl] at this
  exact Table.pk_of_get? this

theorem Rewritten.trans {s'' : Store} {t'' : BountyTask} (h : Rewritten s s' task t')
    (h' : Rewritten s' s'' t' t'') : Rewritten s s'' task t'' := by
  refine ⟨h.row, fun id => ?_⟩
  rw [h'.rows, h.rows, h.key]
  split <;> rfl

/-- The row that a transition writes. -/
theorem rewritten_of_transition (hrow : s.tasks.get? task.taskID = some task)
    (htr : (transitionTaskTx task next f).run s = (.ok t', s')) (hkeys : taskColumns f task = f task) :
    Rewritten s s' task t' := by
  obtain ⟨-, rfl, rfl⟩ := transitionTaskTx_ok htr
  have ht : taskColumns (fun t => { f t with status := next }) task =
      { taskColumns f task with status := next } := rfl
  rw [hkeys] at ht
  exact rewritten_of_update hrow ht rfl

theorem Rewritten.of_tasks {s₁ : Store} (h : Rewritten s₁ s' task t') (hs : s₁.tasks = s.tasks) :
    Rewritten s s' task t' := by
  obtain ⟨hrow, hrows⟩ := h
  rw [hs] at hrow hrows
  exact ⟨hrow, hrows⟩

theorem sameBlocking_of_requests (h : s'.requests = s.requests) (e : Option String) :
    SameBlocking s s' e := by
  intro id _
  unfold openBlocking
  rw [h]

theorem onLedger_ok {α : Type} {tx : Billing.Statements.Tx α} {a : α}
    (h : (onLedger tx).run s = (.ok a, s')) :
    ∃ l, tx.run s.base.ledger = (.ok a, l) ∧ s' = s.setBase (s.base.setLedger l) := by
  obtain ⟨b, hrun, rfl⟩ := onBase_ok h
  rw [Platform.Database.run_ledgerTx] at hrun
  obtain ⟨hr, rfl⟩ := Prod.mk.injEq .. ▸ hrun
  exact ⟨_, Prod.ext hr rfl, rfl⟩

end Statements

section Moves

variable {now : Int} {u : Uuids} {k : Option String} {s s₁ s' : Store} {task t' : BountyTask} {next : TaskStatus}
  {f : BountyTask → BountyTask}

/-- A transition between active statuses that touches neither reward nor pauses. -/
theorem moved_of_transition (hrow : s.tasks.get? task.taskID = some task)
    (htr : (transitionTaskTx task next f).run s₁ = (.ok t', s'))
    (hs₁ : s₁.tasks = s.tasks ∧ s₁.base = s.base) (hblocking : SameBlocking s s₁ none)
    (hkeys : taskColumns f task = f task) (hescrow : escrow (f task) = escrow task)
    (hpauses : pauses (f task) = pauses task) (hactive : active task.status = true)
    (hnext : active next = true) (hbefore : task.status ≠ .suspended) (hafter : next ≠ .suspended)
    (hblocked : openBlocking task.taskID s = true → blockedStatus task.status = true →
      blockedStatus next = true) : Effect now u k s s' := by
  have hrewritten := (rewritten_of_transition (hs₁.1 ▸ hrow) htr hkeys).of_tasks hs₁.1
  obtain ⟨-, rfl, rfl⟩ := transitionTaskTx_ok htr
  exact .moved task { f task with status := next } hrewritten hescrow hpauses ⟨hactive, hnext⟩
    ⟨hbefore, hafter⟩ hblocked hs₁.2 hblocking

theorem submitApplication_effect {taskID : String} {userID : Int}
    (h : (submitApplication u taskID userID).run s = (.ok (), s')) : Effect now u k s s' := by
  obtain ⟨task, hrow, hid, h⟩ := locked h
  obtain ⟨-, h⟩ := checked h
  obtain ⟨-, h⟩ := checked h
  obtain ⟨found, s₂, ⟨-, rfl⟩, h⟩ := run_bind_of_ok h read_ok
  cases found with
  | some _ => cases h
  | none =>
    obtain ⟨_, s₃, ⟨t, -, rfl⟩, h⟩ := run_bind_of_ok h insertRow_ok
    split at h
    next hstatus =>
      obtain ⟨t', s₄, htr, h⟩ := run_bind_eq_ok h
      cases h
      apply moved_of_transition hrow htr ⟨rfl, rfl⟩ (sameBlocking_of_requests rfl _) rfl rfl rfl <;>
        simp [hstatus, active, isTerminalStatus, blockedStatus]
    next =>
      cases h
      exact .quiet rfl rfl (sameBlocking_of_requests rfl _)

theorem rejectOthers_same (taskID applicationID : String) (s : Store) :
    (rejectOthers taskID applicationID s).tasks = s.tasks ∧
      (rejectOthers taskID applicationID s).base = s.base ∧
      (rejectOthers taskID applicationID s).requests = s.requests := by
  unfold rejectOthers
  generalize s.applications.rows.filter _ = rows
  induction rows generalizing s with
  | nil => exact ⟨rfl, rfl, rfl⟩
  | cons a rows ih => exact ih (s.updateApplication a.applicationID .rejected)

theorem assignApplication_effect {taskID applicationID : String} {publisherID : Int}
    (h : (assignApplication taskID publisherID applicationID).run s = (.ok (), s')) :
    Effect now u k s s' := by
  obtain ⟨-, h⟩ := checked h
  obtain ⟨task, hrow, hid, h⟩ := locked h
  obtain ⟨-, h⟩ := checked h
  obtain ⟨hstatus, h⟩ := checked h
  obtain ⟨application, s₂, ⟨-, rfl⟩, h⟩ := run_bind_of_ok h readOrFail_ok
  obtain ⟨-, h⟩ := checked h
  obtain ⟨_, s₃, rfl, h⟩ := run_bind_of_ok h modify_ok
  obtain ⟨_, s₄, rfl, h⟩ := run_bind_of_ok h modify_ok
  obtain ⟨t', s₅, htr, h⟩ := run_bind_eq_ok h
  cases h
  obtain ⟨htasks, hbase, hrequests⟩ := rejectOthers_same taskID applicationID s
  have hopen : task.status = .published ∨ task.status = .selecting :=
    or_iff_not_and_not.2 hstatus
  apply moved_of_transition hrow htr ⟨htasks, hbase⟩ (sameBlocking_of_requests hrequests _)
    rfl rfl rfl <;>
    rcases hopen with hopen | hopen <;>
    simp [hopen, active, isTerminalStatus, blockedStatus]

theorem startTask_effect {taskID : String} {userID : Int}
    (h : (startTask taskID userID).run s = (.ok (), s')) : Effect now u k s s' := by
  obtain ⟨task, hrow, hid, h⟩ := locked h
  obtain ⟨-, h⟩ := checked h
  obtain ⟨hstatus, h⟩ := checked h
  rw [not_not] at hstatus
  obtain ⟨t', s₂, htr, h⟩ := run_bind_eq_ok h
  cases h
  apply moved_of_transition hrow htr ⟨rfl, rfl⟩ (sameBlocking_of_requests rfl _) rfl rfl rfl <;>
    simp [hstatus, active, isTerminalStatus, blockedStatus]

theorem supersede_same (latest : Option BountySubmission) {a : PUnit}
    (h : (latest.forM supersede).run s = (.ok a, s')) :
    s'.tasks = s.tasks ∧ s'.base = s.base ∧ s'.requests = s.requests := by
  cases latest with
  | none =>
    cases h
    exact ⟨rfl, rfl, rfl⟩
  | some r =>
    obtain rfl := modify_ok h
    exact ⟨rfl, rfl, rfl⟩

theorem createSubmission_effect {taskID : String} {userID : Int} {effectImages : List String}
    (h : (createSubmission now u taskID userID effectImages).run s = (.ok (), s')) :
    Effect now u k s s' := by
  obtain ⟨task, hrow, hid, h⟩ := locked h
  obtain ⟨-, h⟩ := checked h
  obtain ⟨hstatus, h⟩ := checked h
  obtain ⟨blocking, s₂, ⟨rfl, rfl⟩, h⟩ := run_bind_of_ok h read_ok
  obtain ⟨hnone, h⟩ := checked h
  obtain ⟨-, h⟩ := checked h
  obtain ⟨latest, s₃, ⟨-, rfl⟩, h⟩ := run_bind_of_ok h read_ok
  obtain ⟨_, s₄, hsupersede, h⟩ := run_bind_eq_ok h
  obtain ⟨htasks, hbase, hrequests⟩ := supersede_same latest hsupersede
  obtain ⟨_, s₅, ⟨t, -, rfl⟩, h⟩ := run_bind_of_ok h insertRow_ok
  obtain ⟨task', s₆, hsubmit, h⟩ := run_bind_eq_ok h
  obtain ⟨t', s₇, hreview, h⟩ := run_bind_eq_ok h
  cases h
  have hrow₅ : { s₄ with submissions := t }.tasks.get? task.taskID = some task := by
    rw [← hrow, ← htasks]
  have hsubmitted := rewritten_of_transition hrow₅ hsubmit rfl
  have hrow₆ := hsubmitted.rows task.taskID
  rw [if_pos rfl, ← hsubmitted.key] at hrow₆
  have hrewritten := (hsubmitted.trans (rewritten_of_transition hrow₆ hreview rfl)).of_tasks htasks
  obtain ⟨-, rfl, rfl⟩ := transitionTaskTx_ok hsubmit
  obtain ⟨-, rfl, rfl⟩ := transitionTaskTx_ok hreview
  have hopen : active task.status = true ∧ task.status ≠ .suspended := by
    constructor <;> by_contra hno <;> apply hstatus <;> cases hcase : task.status <;>
      simp_all [active, isTerminalStatus]
  exact .moved task _ hrewritten rfl rfl ⟨hopen.1, rfl⟩ ⟨hopen.2, by simp⟩
    (fun hblocked => absurd (hid ▸ hblocked) hnone) hbase (sameBlocking_of_requests hrequests _)

end Moves

section Materials

variable {now : Int} {u : Uuids} {k : Option String} {s s₁ s' : Store} {task : BountyTask} {r : BountyMaterialRequest}
  {taskID requestID : String} {userID : Int}

theorem openBlocking_insert {t : Table BountyMaterialRequest} (h : s.requests.insert? r = some t)
    (id : String) : openBlocking id { s with requests := t } =
      (openBlocking id s || decide (r.taskID = id ∧ r.isBlocking ∧ r.status ≠ .closed)) := by
  unfold openBlocking
  exact Table.has_insert? h _

theorem openBlocking_update {f : BountyMaterialRequest → BountyMaterialRequest}
    (h : s.requests.get? requestID = some r) {id : String}
    (hf : ((f r).taskID = id ∧ (f r).isBlocking ∧ (f r).status ≠ .closed) ↔
      (r.taskID = id ∧ r.isBlocking ∧ r.status ≠ .closed)) :
    openBlocking id (s.updateRequest requestID f) = openBlocking id s := by
  unfold openBlocking
  apply Table.has_update_row (keepsIndexes_request f) h
  exact decide_eq_decide.2 hf

theorem findRequest_ok (h : (findRequest taskID requestID).run s = (.ok r, s')) :
    s.requests.get? requestID = some r ∧ r.taskID = taskID ∧ s = s' := by
  obtain ⟨hfind, rfl⟩ := readOrFail_ok h
  have hprop : r.requestID = requestID ∧ r.taskID = taskID := by
    simpa using Table.prop_of_find? hfind
  have hget := Table.get?_of_mem (Table.mem_of_find? hfind)
  rw [pk_request, hprop.1] at hget
  exact ⟨hget, hprop.2, rfl⟩

theorem openBlocking_of_row (h : s.requests.get? requestID = some r) (hblocking : r.isBlocking = true)
    (hopen : r.status ≠ .closed) : openBlocking r.taskID s = true := by
  unfold openBlocking
  exact Table.has_eq_true.2 ⟨r, Table.mem_of_get? h, decide_eq_true ⟨rfl, hblocking, hopen⟩⟩

theorem createMaterialRequest_effect {isBlocking : Bool}
    (h : (createMaterialRequest now u taskID userID isBlocking).run s = (.ok (), s')) :
    Effect now u k s s' := by
  obtain ⟨task, hrow, hid, h⟩ := locked h
  obtain ⟨-, h⟩ := checked h
  obtain ⟨hstatus, h⟩ := checked h
  obtain ⟨_, s₂, ⟨t, ht, rfl⟩, h⟩ := run_bind_of_ok h insertRow_ok
  have hblocking := openBlocking_insert ht
  split at h
  next hb =>
    obtain ⟨t', s₃, htr, h⟩ := run_bind_eq_ok h
    cases h
    have hrewritten := rewritten_of_transition (s := { s with requests := t }) hrow htr rfl
    obtain ⟨hcan, rfl, rfl⟩ := transitionTaskTx_ok htr
    refine .asked task (hrewritten.of_tasks rfl) ?_ rfl (fun id hne => ?_) ?_
    · -- of the four statuses, two lead to the waiting one
      revert hstatus hcan
      cases task.status <;> decide
    · have hne : taskID ≠ id := fun heq => hne (by rw [← heq, hid])
      refine (hblocking id).trans ?_
      simp [hne]
    · refine (hblocking task.taskID).trans ?_
      simp [hid, hb]
  next hb =>
    cases h
    refine .quiet rfl rfl fun id _ => (hblocking id).trans ?_
    simp [hb]

theorem replyMaterialRequest_effect
    (h : (replyMaterialRequest taskID requestID userID).run s = (.ok (), s')) :
    Effect now u k s s' := by
  obtain ⟨task, hrow, hid, h⟩ := locked h
  obtain ⟨hstatus, h⟩ := checked h
  obtain ⟨r, s₂, ⟨hr, hof, rfl⟩, h⟩ := run_bind_of_ok h findRequest_ok
  obtain ⟨hopen, h⟩ := checked h
  obtain ⟨-, h⟩ := checked h
  split at h
  next =>
    obtain ⟨_, s₃, rfl, h⟩ := run_bind_of_ok h modify_ok
    have hblocking : SameBlocking s (s.updateRequest requestID _) none := fun id _ =>
      openBlocking_update (f := fun r =>
        { r with status := .awaitingConfirmation, timeoutAt := none, timeoutNotifiedAt := none }) hr
        (by simp [hopen])
    split at h
    next hwaiting =>
      obtain ⟨t', s₄, htr, h⟩ := run_bind_eq_ok h
      cases h
      apply moved_of_transition hrow htr ⟨rfl, rfl⟩ hblocking rfl rfl rfl <;>
        simp [hwaiting, active, isTerminalStatus, blockedStatus]
    next =>
      cases h
      exact .quiet rfl rfl hblocking
  next =>
    split at h
    next =>
      obtain rfl := modify_ok h
      exact .quiet rfl rfl fun id _ =>
        openBlocking_update (f := fun r => { r with status := .replied }) hr (by simp [hopen])
    next =>
      cases h
      exact .quiet rfl rfl fun _ _ => rfl

theorem resumeTaskTimerTx_ok {t' : BountyTask}
    (h : (resumeTaskTimerTx now task).run s = (.ok t', s'))
    (hrow : s.tasks.get? task.taskID = some task) :
    t' = timerResumed now task ∧ Rewritten s s' task t' ∧ s'.base = s.base ∧
      s'.requests = s.requests := by
  unfold resumeTaskTimerTx at h
  unfold timerResumed
  cases hp : task.pausedAt with
  | none =>
    rw [hp] at h
    cases h
    refine ⟨rfl, ⟨hrow, fun id => ?_⟩, rfl, rfl⟩
    split
    next hid => rw [hid, hrow]
    next => rfl
  | some pausedAt =>
    rw [hp] at h
    obtain ⟨_, s₁, hwrite, h⟩ := run_bind_eq_ok h
    cases h
    obtain rfl := modify_ok hwrite
    exact ⟨rfl, rewritten_of_update hrow rfl rfl, rfl, rfl⟩

theorem resolveMaterialRequest_effect
    (h : (resolveMaterialRequest now taskID requestID userID).run s = (.ok (), s')) :
    Effect now u k s s' := by
  obtain ⟨task, hrow, hid, h⟩ := locked h
  obtain ⟨hstatus, h⟩ := checked h
  obtain ⟨-, h⟩ := checked h
  obtain ⟨r, s₂, ⟨hr, hof, rfl⟩, h⟩ := run_bind_of_ok h findRequest_ok
  split at h
  next =>
    cases h
    exact .quiet rfl rfl fun _ _ => rfl
  next hopen =>
  obtain ⟨_, s₃, rfl, h⟩ := run_bind_of_ok h modify_ok
  have hothers : SameBlocking s (s.updateRequest requestID fun r =>
      { r with status := .closed, resolvedAt := some now }) (some task.taskID) := by
    intro id hne
    have hne : taskID ≠ id := fun heq => hne (by rw [← heq, hid])
    exact openBlocking_update (f := fun r => { r with status := .closed, resolvedAt := some now }) hr
      (by simp [hof, hne])
  split at h
  next hb =>
    have hwas : openBlocking task.taskID s = true := by
      rw [← hid, ← hof]
      exact openBlocking_of_row hr hb hopen
    obtain ⟨still, s₄, ⟨rfl, rfl⟩, h⟩ := run_bind_of_ok h read_ok
    split at h
    next hstill =>
      cases h
      refine .quiet rfl rfl fun id _ => ?_
      by_cases heq : id = task.taskID
      · rw [heq, ← hid, hstill, hid, hwas]
      · exact hothers id (by simpa using heq)
    next hnone =>
      rw [Bool.not_eq_true] at hnone
      obtain ⟨t₁, s₅, htimer, h⟩ := run_bind_eq_ok h
      obtain ⟨t', s₆, htr, h⟩ := run_bind_eq_ok h
      cases h
      obtain ⟨ht₁, hrewritten, hbase, hrequests⟩ := resumeTaskTimerTx_ok htimer hrow
      have hrow₁ := hrewritten.rows task.taskID
      rw [if_pos rfl, ← hrewritten.key] at hrow₁
      have hboth := hrewritten.trans (rewritten_of_transition hrow₁ htr rfl)
      obtain ⟨hcan, rfl, rfl⟩ := transitionTaskTx_ok htr
      have hsame : ∀ x, openBlocking x (s₅.updateTask t₁.taskID fun t =>
          { id t with status := .inProgress }) = openBlocking x (s.updateRequest requestID fun r =>
          { r with status := .closed, resolvedAt := some now }) := by
        intro x
        unfold openBlocking
        rw [updateTask_requests, hrequests]
      subst ht₁
      have hactive : active task.status = true ∧ task.status ≠ .suspended := by
        have htimer : (timerResumed now task).status = task.status := by
          unfold timerResumed
          cases task.pausedAt <;> rfl
        rw [htimer] at hcan
        rw [not_or] at hstatus
        refine ⟨?_, hstatus.2⟩
        revert hcan
        have hterm := hstatus.1
        revert hterm
        cases task.status <;> decide
      refine .unpaused task (hboth.of_tasks rfl) hactive.1 hactive.2 hbase (fun id hne => ?_) hwas ?_
      · rw [hsame]
        exact hothers id hne
      · rw [hsame, ← hid]
        exact hnone
  next hb =>
    cases h
    refine .quiet rfl rfl fun id _ => ?_
    exact openBlocking_update (f := fun r => { r with status := .closed, resolvedAt := some now }) hr
      (by simp [hb])

end Materials

section Rewards

variable {now : Int} {u : Uuids} {k : Option String} {s s₁ s' : Store} {task t' : BountyTask} {taskID requestID : String}
  {userID amount executor : Int} {reason : String}

theorem executorOf_ok (h : executorOf task = .ok executor) :
    task.assigneeUserID = some executor ∧ 0 < executor := by
  unfold executorOf at h
  split at h
  next e he =>
    split at h
    next => cases h
    next hpos =>
      cases h
      exact ⟨he, by omega⟩
  next => cases h

/-- What a settlement does, short of the status. -/
structure SettledTask (u : Uuids) (s s' : Store) (task t' : BountyTask) (executor amount : Int) :
    Prop where
  assignee : task.assigneeUserID = some executor
  positive : 0 < executor
  bounded : 0 ≤ amount ∧ amount ≤ task.rewardAmount
  paid : RewardPaid u s.base task executor amount s'.base
  rewritten : Rewritten s s' task t'
  requests : s'.requests = s.requests
  row : t' = { reviewed task with status := t'.status }
  status : canTransition task.status .completed = true ∧ t'.status = .completed ∨
    task.status = .disputed ∧ t'.status = .disputed

theorem settleTaskTx_ok (h : (settleTaskTx u task amount).run s = (.ok t', s'))
    (hrow : s.tasks.get? task.taskID = some task) :
    ∃ executor, SettledTask u s s' task t' executor amount := by
  obtain ⟨executor, s₁, ⟨hexecutor, rfl⟩, h⟩ := run_bind_of_ok h ofExcept_ok
  obtain ⟨hassignee, hpos⟩ := executorOf_ok hexecutor
  obtain ⟨hbounded, h⟩ := checked h
  obtain ⟨latest, s₂, ⟨-, rfl⟩, h⟩ := run_bind_of_ok h readOrFail_ok
  obtain ⟨x, s₃, ⟨l, hsettled, rfl⟩, h⟩ := run_bind_of_ok h onLedger_ok
  obtain ⟨_, s₄, hcredit, h⟩ := run_bind_eq_ok h
  have hpaid : RewardPaid u s.base task executor amount s₄.base ∧ s₄.tasks = s.tasks ∧
      s₄.requests = s.requests := by
    unfold creditExecutor at hcredit
    split at hcredit
    next hamount =>
      obtain ⟨b, hcredited, rfl⟩ := onBase_ok hcredit
      exact ⟨.intro x latest.submissionID l hsettled (.inl ⟨hamount, hcredited⟩), rfl, rfl⟩
    next hamount =>
      cases hcredit
      exact ⟨.intro x latest.submissionID l hsettled (.inr ⟨by omega, rfl⟩), rfl, rfl⟩
  obtain ⟨hpaid, htasks, hrequests⟩ := hpaid
  rw [← htasks] at hrow
  refine ⟨executor, ?_⟩
  split at h
  next =>
    have hrewritten := (rewritten_of_transition hrow h rfl).of_tasks htasks
    obtain ⟨hcan, rfl, rfl⟩ := transitionTaskTx_ok h
    exact ⟨hassignee, hpos, by omega, hpaid, hrewritten, hrequests, rfl, .inl ⟨hcan, rfl⟩⟩
  next hdisputed =>
    rw [not_not] at hdisputed
    obtain ⟨_, s₅, hwrite, h⟩ := run_bind_eq_ok h
    cases h
    obtain rfl := modify_ok hwrite
    exact ⟨hassignee, hpos, by omega, hpaid, (rewritten_of_update hrow rfl rfl).of_tasks htasks,
      hrequests, rfl, .inr ⟨hdisputed, hdisputed⟩⟩

theorem releaseTaskRewardTx_ok (h : (releaseTaskRewardTx u task reason).run s = (.ok (), s')) :
    RewardReleased u s.base task s'.base ∧ s'.tasks = s.tasks ∧ s'.requests = s.requests := by
  unfold releaseTaskRewardTx at h
  split at h
  next hnone =>
    cases h
    exact ⟨.none hnone rfl, rfl, rfl⟩
  next =>
    obtain ⟨r, s₁, hrelease, h⟩ := run_bind_eq_ok h
    cases h
    obtain ⟨l, hreleased, rfl⟩ := onLedger_ok hrelease
    exact ⟨.released reason r l hreleased rfl, rfl, rfl⟩

/-- A release and the transition after it. -/
theorem released_of_transition {next : TaskStatus} {s₂ : Store}
    (hrow : s.tasks.get? task.taskID = some task)
    (hrelease : (releaseTaskRewardTx u task reason).run s₁ = (.ok (), s₂))
    (htr : (transitionTaskTx task next id).run s₂ = (.ok t', s'))
    (hs₁ : s₁.tasks = s.tasks ∧ s₁.base = s.base)
    (hblocking : SameBlocking s s₁ (some task.taskID))
    (hactive : active task.status = true ∨ next = task.status ∧ task.status = .cancelled)
    (hbefore : task.status ≠ .suspended)
    (hnext : next = .cancelled ∨ next = .expired ∨ next = .resolved) : Effect now u k s s' := by
  obtain ⟨hreleased, htasks, hrequests⟩ := releaseTaskRewardTx_ok hrelease
  rw [hs₁.2] at hreleased
  rw [hs₁.1] at htasks
  have hrewritten := (rewritten_of_transition (htasks ▸ hrow) htr rfl).of_tasks htasks
  obtain ⟨-, rfl, rfl⟩ := transitionTaskTx_ok htr
  have hactive : active task.status = true ∨
      { id task with status := next } = task ∧ task.status = .cancelled :=
    hactive.imp_right fun ⟨heq, hc⟩ => ⟨by rw [heq]; rfl, hc⟩
  refine .released task _ hrewritten rfl hactive hbefore hnext hreleased fun id hne => ?_
  rw [← hblocking id hne]
  have hsame : SameBlocking s₁ s₂ none := sameBlocking_of_requests hrequests none
  exact hsame id nofun

theorem cancelTask_effect (h : (cancelTask u taskID userID).run s = (.ok (), s')) :
    Effect now u k s s' := by
  obtain ⟨task, hrow, hid, h⟩ := locked h
  obtain ⟨-, h⟩ := checked h
  obtain ⟨hstatus, h⟩ := checked h
  obtain ⟨_, s₂, hrelease, h⟩ := run_bind_eq_ok h
  obtain ⟨t', s₃, htr, h⟩ := run_bind_eq_ok h
  cases h
  have hopen : active task.status = true ∧ task.status ≠ .suspended := by
    constructor <;> by_contra hno <;> apply hstatus <;> cases hcase : task.status <;>
      simp_all [active, isTerminalStatus]
  exact released_of_transition hrow hrelease htr ⟨rfl, rfl⟩ (fun _ _ => rfl) (.inl hopen.1) hopen.2
    (.inl rfl)

theorem handleMaterialTimeout_effect {action : TimeoutAction} {hours : Int}
    (h : (handleMaterialTimeout now u taskID requestID userID action hours).run s = (.ok (), s')) :
    Effect now u k s s' := by
  obtain ⟨-, h⟩ := checked h
  obtain ⟨task, hrow, hid, h⟩ := locked h
  obtain ⟨-, h⟩ := checked h
  obtain ⟨r, s₂, ⟨hr, hof, rfl⟩, h⟩ := run_bind_of_ok h findRequest_ok
  obtain ⟨hopen, h⟩ := checked h
  obtain ⟨-, h⟩ := checked h
  cases action with
  | extend =>
    obtain rfl := modify_ok h
    exact .quiet rfl rfl fun id _ => openBlocking_update hr Iff.rfl
  | cancel =>
    obtain ⟨_, s₃, rfl, h⟩ := run_bind_of_ok h modify_ok
    obtain ⟨_, s₄, hrelease, h⟩ := run_bind_eq_ok h
    obtain ⟨t', s₅, htr, h⟩ := run_bind_eq_ok h
    cases h
    have hcan := (transitionTaskTx_ok htr).1
    have hcase : (active task.status = true ∨ .cancelled = task.status ∧ task.status = .cancelled) ∧
        task.status ≠ .suspended := by
      revert hcan
      cases task.status <;> decide
    refine released_of_transition hrow hrelease htr ⟨rfl, rfl⟩ (fun id hne => ?_) hcase.1 hcase.2
      (.inl rfl)
    have hne : taskID ≠ id := fun heq => hne (by rw [← heq, hid])
    exact openBlocking_update (f := fun r =>
      { r with status := .closed, resolvedAt := some now, timeoutAction := "cancelled" }) hr
      (by simp [hof, hne])

theorem autoSettleReview_effect (h : (autoSettleReview now u taskID).run s = (.ok (), s')) :
    Effect now u k s s' := by
  obtain ⟨task, hrow, hid, h⟩ := locked h
  split at h
  next =>
    cases h
    exact .quiet rfl rfl fun _ _ => rfl
  next hstatus =>
    rw [not_or, not_not] at hstatus
    obtain ⟨t', s₂, hsettle, h⟩ := run_bind_eq_ok h
    cases h
    obtain ⟨executor, hs⟩ := settleTaskTx_ok hsettle hrow
    have hdone : t'.status = .completed := by
      rcases hs.status with ⟨-, hdone⟩ | ⟨hdisputed, -⟩
      · exact hdone
      · rw [hstatus.1] at hdisputed
        cases hdisputed
    refine .paid task t' executor _ hs.rewritten (by rw [hs.row]; rfl)
      ⟨hs.assignee, by rw [hs.row]; exact hs.assignee⟩ hs.positive hs.bounded
      (.inl ⟨hstatus.1, hdone, rfl⟩) hs.paid (sameBlocking_of_requests hs.requests _)

theorem expireTask_effect (h : (expireTask now u taskID).run s = (.ok (), s')) :
    Effect now u k s s' := by
  obtain ⟨task, hrow, hid, h⟩ := locked h
  split at h
  next =>
    cases h
    exact .quiet rfl rfl fun _ _ => rfl
  next hstatus =>
    simp only [not_or] at hstatus
    obtain ⟨_, s₂, hrelease, h⟩ := run_bind_eq_ok h
    obtain ⟨t', s₃, htr, h⟩ := run_bind_eq_ok h
    cases h
    have hcan := (transitionTaskTx_ok htr).1
    have hterm := hstatus.2.2
    have hcase : active task.status = true ∧ task.status ≠ .suspended := by
      revert hcan hterm
      cases task.status <;> decide
    exact released_of_transition hrow hrelease htr ⟨rfl, rfl⟩ (fun _ _ => rfl) (.inl hcase.1) hcase.2
      (.inr (.inl rfl))

end Rewards

section Disputes

variable {now : Int} {u : Uuids} {k : Option String} {s s' : Store} {task : BountyTask} {taskID disputeID : String}
  {userID amount paid : Int} {provider : Except Err Unit}

theorem openDisputeTx_effect (hrow : s.tasks.get? task.taskID = some task)
    (hdisputable : disputable task.status = true)
    (h : (openDisputeTx u provider task userID).run s = (.ok (), s')) : Effect now u k s s' := by
  obtain ⟨_, s₁, ⟨-, rfl⟩, h⟩ := run_bind_of_ok h read_ok
  obtain ⟨-, h⟩ := checked h
  obtain ⟨_, s₂, ⟨-, rfl⟩, h⟩ := run_bind_of_ok h ofExcept_ok
  obtain ⟨_, s₃, ⟨-, rfl⟩, h⟩ := run_bind_of_ok h ofExcept_ok
  obtain ⟨_, s₄, ⟨t, -, rfl⟩, h⟩ := run_bind_of_ok h insertRow_ok
  obtain ⟨t', s₅, htr, h⟩ := run_bind_eq_ok h
  cases h
  have hopen : active task.status = true ∧ task.status ≠ .suspended := by
    revert hdisputable
    cases task.status <;> decide
  exact moved_of_transition hrow htr ⟨rfl, rfl⟩ (sameBlocking_of_requests rfl _) rfl rfl rfl hopen.1
    rfl hopen.2 nofun fun _ _ => rfl

theorem openDispute_effect (h : (openDispute u provider taskID userID).run s = (.ok (), s')) :
    Effect now u k s s' := by
  obtain ⟨task, hrow, hid, h⟩ := locked h
  obtain ⟨-, h⟩ := checked h
  obtain ⟨hcan, h⟩ := checked h
  rw [Bool.not_eq_false, canOpenDispute, Bool.and_eq_true] at hcan
  exact openDisputeTx_effect hrow hcan.2 h

theorem reviewTask_effect {action : ReviewAction} {comment : String}
    (h : (reviewTask u provider taskID userID action comment).run s = (.ok (), s')) :
    Effect now u k s s' := by
  obtain ⟨-, h⟩ := checked h
  obtain ⟨task, hrow, hid, h⟩ := locked h
  obtain ⟨-, h⟩ := checked h
  obtain ⟨hstatus, h⟩ := checked h
  have hstatus : task.status = .reviewing ∨ task.status = .submitted :=
    or_iff_not_and_not.2 hstatus
  have hdisputable : disputable task.status = true := by
    rcases hstatus with hst | hst <;> rw [hst] <;> rfl
  cases action with
  | approve =>
    obtain ⟨t', s₂, hsettle, h⟩ := run_bind_eq_ok h
    cases h
    obtain ⟨executor, hs⟩ := settleTaskTx_ok hsettle hrow
    -- a task that is only submitted has no transition to the status `completed`
    have hdone : task.status = .reviewing ∧ t'.status = .completed := by
      rcases hs.status with ⟨hcan, hdone⟩ | ⟨hdisputed, -⟩
      · refine ⟨hstatus.resolve_right fun hst => ?_, hdone⟩
        rw [hst] at hcan
        exact absurd hcan (by decide)
      · rcases hstatus with hst | hst <;> rw [hst] at hdisputed <;> cases hdisputed
    exact .paid task t' executor _ hs.rewritten (by rw [hs.row]; rfl)
      ⟨hs.assignee, by rw [hs.row]; exact hs.assignee⟩ hs.positive hs.bounded
      (.inl ⟨hdone.1, hdone.2, rfl⟩) hs.paid (sameBlocking_of_requests hs.requests _)
  | requestChanges =>
    obtain ⟨-, h⟩ := checked h
    obtain ⟨t', s₂, htr, h⟩ := run_bind_eq_ok h
    cases h
    apply moved_of_transition hrow htr ⟨rfl, rfl⟩ (fun _ _ => rfl) rfl rfl rfl <;>
      rcases hstatus with hst | hst <;> simp [hst, active, isTerminalStatus, blockedStatus]
  | reject => exact openDisputeTx_effect hrow hdisputable h
  | dispute => exact openDisputeTx_effect hrow hdisputable h

theorem resolutionAmount_ok {resolution : DisputeResolution}
    (h : resolutionAmount task resolution amount = .ok paid) :
    resolution = .payFull ∧ paid = task.rewardAmount ∨ resolution = .payPartial ∧ 0 < paid ∨
      resolution = .release ∨ resolution = .changesRequested := by
  cases resolution with
  | payFull =>
    cases h
    exact .inl ⟨rfl, rfl⟩
  | payPartial =>
    unfold resolutionAmount at h
    dsimp only at h
    split at h
    next => cases h
    next hpos =>
      cases h
      exact .inr (.inl ⟨rfl, by omega⟩)
  | release => exact .inr (.inr (.inl rfl))
  | changesRequested => exact .inr (.inr (.inr rfl))

theorem applyResolution_effect {resolution : DisputeResolution}
    (hrow : s.tasks.get? task.taskID = some task) (hstatus : task.status = .disputed)
    (hamount : resolutionAmount task resolution amount = .ok paid)
    (h : (applyResolution u task resolution paid).run s = (.ok (), s')) : Effect now u k s s' := by
  have hpay : (resolution = .payFull ∨ resolution = .payPartial) →
      (do let t ← settleTaskTx u task paid
          let _ ← transitionTaskTx t .resolved id
          pure () : Flow Unit).run s = (.ok (), s') → Effect now u k s s' := by
    intro hresolution h
    obtain ⟨t₁, s₁, hsettle, h⟩ := run_bind_eq_ok h
    obtain ⟨t', s₂, htr, h⟩ := run_bind_eq_ok h
    cases h
    obtain ⟨executor, hs⟩ := settleTaskTx_ok hsettle hrow
    have hrow₁ := hs.rewritten.rows task.taskID
    rw [if_pos rfl, ← hs.rewritten.key] at hrow₁
    have hboth := hs.rewritten.trans (rewritten_of_transition hrow₁ htr rfl)
    obtain ⟨-, rfl, rfl⟩ := transitionTaskTx_ok htr
    have hpaid : paid = task.rewardAmount ∨ 0 < paid := by
      rcases resolutionAmount_ok hamount with ⟨-, heq⟩ | ⟨-, hpos⟩ | rfl | rfl
      · exact .inl heq
      · exact .inr hpos
      · simp at hresolution
      · simp at hresolution
    refine .paid task _ executor paid hboth ?_ ⟨hs.assignee, ?_⟩ hs.positive hs.bounded
      (.inr ⟨hstatus, rfl, hpaid⟩) hs.paid (sameBlocking_of_requests hs.requests _)
    · rw [hs.row]
      rfl
    · rw [hs.row]
      exact hs.assignee
  cases resolution with
  | changesRequested =>
    obtain ⟨-, h⟩ := checked h
    obtain ⟨t', s₁, htr, h⟩ := run_bind_eq_ok h
    cases h
    apply moved_of_transition hrow htr ⟨rfl, rfl⟩ (fun _ _ => rfl) rfl rfl rfl <;>
      simp [hstatus, active, isTerminalStatus, blockedStatus]
  | release =>
    obtain ⟨_, s₁, hrelease, h⟩ := run_bind_eq_ok h
    obtain ⟨t', s₂, htr, h⟩ := run_bind_eq_ok h
    cases h
    exact released_of_transition hrow hrelease htr ⟨rfl, rfl⟩ (fun _ _ => rfl)
      (.inl (by rw [hstatus]; rfl)) (by rw [hstatus]; exact nofun) (.inr (.inr rfl))
  | payFull => exact hpay (.inl rfl) h
  | payPartial => exact hpay (.inr rfl) h

theorem Rewritten.congr {t' : BountyTask} {s'' : Store} (h : Rewritten s s' task t')
    (htasks : s''.tasks = s'.tasks) : Rewritten s s'' task t' := by
  refine ⟨h.row, fun id => ?_⟩
  rw [htasks, h.rows]

theorem SameBlocking.congr {s'' : Store} {e : Option String} (h : SameBlocking s s' e)
    (hrequests : s''.requests = s'.requests) : SameBlocking s s'' e := by
  intro id hne
  rw [← h id hne]
  exact sameBlocking_of_requests hrequests none id nofun

/-- The disputes, the applications and the submissions do not matter to the effect. -/
theorem Effect.congr {s'' : Store} (h : Effect now u k s s') (htasks : s''.tasks = s'.tasks)
    (hbase : s''.base = s'.base) (hrequests : s''.requests = s'.requests) : Effect now u k s s'' := by
  have hopen (id : String) : openBlocking id s'' = openBlocking id s' :=
    sameBlocking_of_requests hrequests none id nofun
  cases h with
  | quiet tasks base blocking =>
    exact .quiet (htasks.trans tasks) (hbase.trans base) (blocking.congr hrequests)
  | drafted t new rows status unheld unpaused base blocking =>
    exact .drafted t new (htasks ▸ rows) status unheld unpaused (hbase.trans base)
      (blocking.congr hrequests)
  | edited t input h status base blocking =>
    exact .edited t input (h.congr htasks) status (hbase.trans base) (blocking.congr hrequests)
  | published v n t r drawn before rows status positive held blocking =>
    exact .published v n t r drawn before (htasks ▸ rows) status positive (hbase ▸ held)
      (blocking.congr hrequests)
  | moved t t' h escrow pauses active unsuspended blocked base blocking =>
    exact .moved t t' (h.congr htasks) escrow pauses active unsuspended blocked (hbase.trans base)
      (blocking.congr hrequests)
  | asked t h status base blocking opened =>
    exact .asked t (h.congr htasks) status (hbase.trans base) (blocking.congr hrequests)
      ((hopen _).trans opened)
  | unpaused t h active unsuspended base blocking was closed =>
    exact .unpaused t (h.congr htasks) active unsuspended (hbase.trans base)
      (blocking.congr hrequests) was ((hopen _).trans closed)
  | suspended t h active unsuspended base blocking =>
    exact .suspended t (h.congr htasks) active unsuspended (hbase.trans base)
      (blocking.congr hrequests)
  | resumed t h status asked base blocking =>
    exact .resumed t (h.congr htasks) status asked (hbase.trans base) (blocking.congr hrequests)
  | paid t t' executor amount h escrow assignee positive bounded status paid blocking =>
    exact .paid t t' executor amount (h.congr htasks) escrow assignee positive bounded status
      (hbase ▸ paid) (blocking.congr hrequests)
  | released t t' h escrow active unsuspended status released blocking =>
    exact .released t t' (h.congr htasks) escrow active unsuspended status (hbase ▸ released)
      (blocking.congr hrequests)

theorem resolveDispute_effect {resolution : DisputeResolution}
    (h : (resolveDispute now u taskID userID disputeID resolution amount).run s = (.ok (), s')) :
    Effect now u k s s' := by
  obtain ⟨-, h⟩ := checked h
  obtain ⟨task, hrow, hid, h⟩ := locked h
  obtain ⟨d, s₂, ⟨-, rfl⟩, h⟩ := run_bind_of_ok h readOrFail_ok
  split at h
  next =>
    cases h
    exact .quiet rfl rfl fun _ _ => rfl
  next =>
    obtain ⟨hstatus, h⟩ := checked h
    rw [not_not] at hstatus
    obtain ⟨paid, s₃, ⟨hamount, rfl⟩, h⟩ := run_bind_of_ok h ofExcept_ok
    obtain ⟨_, s₄, happly, h⟩ := run_bind_eq_ok h
    obtain rfl := modify_ok h
    exact (applyResolution_effect hrow hstatus hamount happly).congr rfl rfl rfl

end Disputes

section Publication

variable {now : Int} {u : Uuids} {k : Option String} {s s' : Store} {task : BountyTask} {taskID accountID : String}
  {userID : Int} {w : Wallet} {account : BillingAccount}

theorem onBase_loadQuota_ok {n : Int} (h : (onBase (loadQuota w userID)).run s = (.ok n, s')) :
    n = quotaColumn w userID s.base ∧ s = s' := by
  obtain ⟨b, hrun, rfl⟩ := onBase_ok h
  cases hrun
  exact ⟨rfl, rfl⟩

theorem onBase_loadBalanceSnapshot_ok {row : BillingBalanceSnapshot}
    (h : (onBase (loadBalanceSnapshot accountID)).run s = (.ok row, s')) :
    row = s.base.ledger.stored accountID ∧ s = s' := by
  obtain ⟨b, hrun, rfl⟩ := onBase_ok h
  obtain ⟨hrow, rfl⟩ := Platform.Database.readOrFail_ok hrun
  refine ⟨?_, rfl⟩
  rw [Ledger.stored, hrow, Option.getD_some]

theorem ensureUserAccountTx_ok (h : (ensureUserAccountTx u userID w).run s = (.ok account, s')) :
    ∃ l, AccountReady u userID w s.base account l ∧ s' = s.setBase (s.base.setLedger l) := by
  obtain ⟨legacy, s₁, ⟨rfl, rfl⟩, h⟩ := run_bind_of_ok h onBase_loadQuota_ok
  obtain ⟨account', s₂, ⟨l, hensured, rfl⟩, h⟩ := run_bind_of_ok h onLedger_ok
  obtain ⟨row, s₃, ⟨rfl, rfl⟩, h⟩ := run_bind_of_ok h onBase_loadBalanceSnapshot_ok
  split at h
  next hunused =>
    obtain ⟨e, s₄, hcredit, h⟩ := run_bind_eq_ok h
    cases h
    obtain ⟨l', hcredited, rfl⟩ := onLedger_ok hcredit
    exact ⟨l', .bootstrapped l e hensured hunused.1 hcredited, rfl⟩
  next hused =>
    cases h
    refine ⟨l, .kept hensured ?_, rfl⟩
    rw [← not_lt, or_iff_not_imp_left, or_iff_not_imp_left, or_iff_not_imp_left,
      or_iff_not_imp_left]
    simp only [not_not]
    exact fun h₁ h₂ h₃ h₄ hpos => hused ⟨h₁, h₂, h₃, h₄, hpos⟩

theorem createTaskRow_ok {a : Unit} (h : (createTaskRow task).run s = (.ok a, s')) :
    s.tasks.get? task.taskID = none ∧ s'.base = s.base ∧ s'.requests = s.requests ∧
      ∀ id, s'.tasks.get? id = if id = task.taskID then some task else s.tasks.get? id := by
  obtain ⟨t, ht, rfl⟩ := insertRow_ok h
  refine ⟨Table.get?_eq_none.2 fun r hr heq => ?_, rfl, rfl, Table.get?_insert? ht⟩
  have := (Table.insert?_eq_some ht).2 r hr
  rw [Indexed.clash_of_pk r task heq] at this
  cases this

theorem saveDraft_effect {input : TaskInput} {key : String} {id : String}
    (h : (saveDraft now u userID input key).run s = (.ok id, s')) : Effect now u k s s' := by
  obtain ⟨-, h⟩ := checked h
  obtain ⟨_, s₁, ⟨-, rfl⟩, h⟩ := run_bind_of_ok h ofExcept_ok
  obtain ⟨key, s₂, ⟨-, rfl⟩, h⟩ := run_bind_of_ok h ofExcept_ok
  obtain ⟨existing, s₃, ⟨-, rfl⟩, h⟩ := run_bind_of_ok h read_ok
  cases existing with
  | some existing =>
    dsimp only at h
    split at h
    · cases h
      exact .quiet rfl rfl fun _ _ => rfl
    · cases h
  | none =>
    obtain ⟨user, s₄, huser, h⟩ := run_bind_eq_ok h
    obtain ⟨-, huser⟩ := checked huser
    obtain ⟨-, rfl⟩ := readOrFail_ok huser
    obtain ⟨_, s₅, hrow, h⟩ := run_bind_eq_ok h
    cases h
    obtain ⟨hnew, hbase, hrequests, hrows⟩ := createTaskRow_ok hrow
    exact .drafted _ hnew hrows rfl rfl rfl hbase (sameBlocking_of_requests hrequests _)

theorem updateDraft_effect {input : TaskInput}
    (h : (updateDraft now userID taskID input).run s = (.ok (), s')) : Effect now u k s s' := by
  obtain ⟨-, h⟩ := checked h
  obtain ⟨_, s₁, ⟨-, rfl⟩, h⟩ := run_bind_of_ok h ofExcept_ok
  obtain ⟨task, hrow, hid, h⟩ := locked h
  obtain ⟨-, h⟩ := checked h
  obtain ⟨hstatus, h⟩ := checked h
  rw [not_not] at hstatus
  obtain rfl := modify_ok h
  rw [hid]
  exact .edited task input (rewritten_of_update hrow rfl rfl) hstatus rfl fun _ _ => rfl

theorem publishTx_ok (hrow : s.tasks.get? task.taskID = some task)
    (h : (publishTx now u accountID task).run s = (.ok (), s')) :
    ∃ r l, (createReservation u (rewardHold accountID task)).run s.base.ledger = (.ok r, l) ∧
      s'.base = s.base.setLedger l ∧ s'.requests = s.requests ∧
      Rewritten s s' task (publishedAs now r.reservationID task) := by
  obtain ⟨r, s₁, ⟨l, hheld, rfl⟩, h⟩ := run_bind_of_ok h onLedger_ok
  obtain ⟨t', s₂, htr, h⟩ := run_bind_eq_ok h
  cases h
  obtain ⟨-, rfl, rfl⟩ := transitionTaskTx_ok htr
  exact ⟨r, l, hheld, rfl, rfl, rewritten_of_update hrow rfl rfl⟩

theorem positive_of_checkTaskInput {input : TaskInput}
    (h : checkTaskInput now true input = .ok ()) : 0 < input.rewardAmount := by
  unfold checkTaskInput at h
  by_contra hno
  split at h
  · cases h
  split at h
  · cases h
  split at h
  · cases h
  split at h
  · cases h
  next hreward =>
    rw [not_or] at hreward
    exact hreward.2 ⟨rfl, by omega⟩

theorem publishDraft_effect (h : (publishDraft now u userID taskID).run s = (.ok (), s')) :
    Effect now u k s s' := by
  obtain ⟨-, h⟩ := checked h
  obtain ⟨task, hrow, hid, h⟩ := locked h
  obtain ⟨hpublisher, h⟩ := checked h
  rw [not_not] at hpublisher
  obtain ⟨hstatus, h⟩ := checked h
  rw [not_not] at hstatus
  obtain ⟨_, s₂, ⟨hchecked, rfl⟩, h⟩ := run_bind_of_ok h ofExcept_ok
  obtain ⟨account, s₃, ⟨l, hready, hs₃⟩, h⟩ := run_bind_of_ok h ensureUserAccountTx_ok
  rw [← hpublisher] at hready
  have hrow₃ : s₃.tasks.get? task.taskID = some task := by
    rw [hs₃, setBase_tasks, hrow]
  obtain ⟨r, l', hheld, hbase, hrequests, hrewritten⟩ := publishTx_ok hrow₃ h
  subst hs₃
  refine .published u 0 task r (funext fun i => by rw [Uuids.drop, Nat.zero_add]) (.inl hrow) hrewritten.rows hstatus
    (positive_of_checkTaskInput hchecked) ⟨account, l, l', hready, hheld, hbase⟩
    (sameBlocking_of_requests hrequests _)

theorem createTask_effect {req : CreateTaskRequest} {id : String}
    (h : (createTask now u userID req).run s = (.ok id, s')) : Effect now u k s s' := by
  obtain ⟨-, h⟩ := checked h
  obtain ⟨w, s₁, ⟨-, rfl⟩, h⟩ := run_bind_of_ok h ofExcept_ok
  obtain ⟨hpositive, h⟩ := checked h
  obtain ⟨-, h⟩ := checked h
  obtain ⟨key, s₂, ⟨-, rfl⟩, h⟩ := run_bind_of_ok h ofExcept_ok
  obtain ⟨existing, s₃, ⟨-, rfl⟩, h⟩ := run_bind_of_ok h read_ok
  cases existing with
  | some existing =>
    dsimp only at h
    split at h
    · cases h
      exact .quiet rfl rfl fun _ _ => rfl
    · cases h
  | none =>
    obtain ⟨user, s₄, huser, h⟩ := run_bind_eq_ok h
    obtain ⟨-, huser⟩ := checked huser
    obtain ⟨-, rfl⟩ := readOrFail_ok huser
    obtain ⟨account, s₅, ⟨l, hready, rfl⟩, h⟩ := run_bind_of_ok h ensureUserAccountTx_ok
    obtain ⟨_, s₆, ⟨hnew, hbase₆, hrequests₆, hrows⟩, h⟩ := run_bind_of_ok h createTaskRow_ok
    obtain ⟨_, s₇, hpublish, h⟩ := run_bind_eq_ok h
    cases h
    have hrow₆ := (hrows (u 1)).trans (if_pos rfl)
    obtain ⟨r, l', hheld, hbase, hrequests, hrewritten⟩ := publishTx_ok hrow₆ hpublish
    rw [hbase₆] at hheld hbase
    refine .published (u.drop 2) 2 _ r rfl (.inr ⟨hnew, rfl, rfl⟩) (fun x => ?_) rfl
      (not_le.1 hpositive) ⟨account, l, l', hready, hheld, hbase⟩
      (sameBlocking_of_requests (hrequests.trans hrequests₆) _)
    rw [hrewritten.rows, hrows]
    split <;> rfl

end Publication

section Suspension

variable {now cutoff : Int} {u : Uuids} {k : Option String} {s s' : Store} {task : BountyTask} {taskID requestID : String}

theorem suspendTask_effect (h : (suspendTask now taskID).run s = (.ok (), s')) :
    Effect now u k s s' := by
  obtain ⟨task, hrow, hid, h⟩ := locked h
  obtain ⟨hstatus, h⟩ := checked h
  obtain ⟨t', s₂, htr, h⟩ := run_bind_eq_ok h
  cases h
  have hrewritten := rewritten_of_transition hrow htr rfl
  obtain ⟨hcan, rfl, rfl⟩ := transitionTaskTx_ok htr
  have hopen : active task.status = true ∧ task.status ≠ .suspended := by
    revert hstatus hcan
    cases task.status <;> decide
  exact .suspended task hrewritten hopen.1 hopen.2 rfl fun _ _ => rfl

theorem taskColumns_resumed (now : Int) (t : BountyTask) :
    taskColumns (resumed now t) t = resumed now t t := by
  unfold resumed
  cases t.suspendedAt <;> rfl

theorem resumeTask_effect (h : (resumeTask now taskID).run s = (.ok (), s')) :
    Effect now u (some taskID) s s' := by
  obtain ⟨task, hrow, hid, h⟩ := locked h
  obtain ⟨hstatus, h⟩ := checked h
  rw [not_not] at hstatus
  obtain ⟨_, s₂, ⟨-, rfl⟩, h⟩ := run_bind_of_ok h ofExcept_ok
  obtain rfl := modify_ok h
  rw [hid]
  exact .resumed task (rewritten_of_update hrow (taskColumns_resumed now task) rfl) hstatus rfl rfl
    fun _ _ => rfl

theorem notifyReviewDeadline_effect
    (h : (notifyReviewDeadline cutoff now taskID).run s = (.ok (), s')) : Effect now u k s s' := by
  obtain ⟨task, hrow, hid, h⟩ := locked h
  split at h
  next =>
    cases h
    exact .quiet rfl rfl fun _ _ => rfl
  next hstatus =>
    rw [not_or, not_not] at hstatus
    obtain rfl := modify_ok h
    rw [hid]
    exact .moved task _ (rewritten_of_update hrow rfl rfl) rfl rfl
      ⟨by rw [hstatus.1]; rfl, by show active task.status = true; rw [hstatus.1]; rfl⟩
      ⟨by rw [hstatus.1]; exact nofun, by show task.status ≠ _; rw [hstatus.1]; exact nofun⟩
      (fun _ hb => hb) rfl fun _ _ => rfl

theorem notifyMaterialTimeout_effect
    (h : (notifyMaterialTimeout now requestID).run s = (.ok (), s')) : Effect now u k s s' := by
  obtain ⟨r, s₁, ⟨hr, rfl⟩, h⟩ := run_bind_of_ok h readOrFail_ok
  split at h
  next =>
    cases h
    exact .quiet rfl rfl fun _ _ => rfl
  next =>
    obtain ⟨task, -, -, h⟩ := locked h
    obtain rfl := modify_ok h
    exact .quiet rfl rfl fun id _ => openBlocking_update hr Iff.rfl

end Suspension

end CodeGo.Bounty.Effects
