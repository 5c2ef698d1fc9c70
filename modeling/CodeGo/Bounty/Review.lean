import CodeGo.Bounty.Tasks

/-!
# Materials, review, disputes and maintenance

`materials.go`, `review.go`, `admin.go` and `maintenance.go` in
`internal/bounty/app`, as the transactions of the operations. `now` is the time
of the transaction.
-/

namespace CodeGo.Bounty.Review

open Lib.Trim Billing.Schema Billing.LedgerRuntime Billing.CreditReplay Status Schema Tasks

/-- The statuses in which an executor may ask for materials. -/
def asksMaterials : TaskStatus → Bool
  | .assigned | .inProgress | .changesRequested | .publisherReplied => true
  | _ => false

def createMaterialRequest (now : Int) (u : Uuids) (taskID : String) (userID : Int)
    (isBlocking : Bool) : Flow Unit := do
  let task ← lockTaskTx taskID
  if task.assigneeUserID ≠ some userID then .fail errForbidden
  else if asksMaterials task.status = false then .fail errInvalidState
  else
    insertRow Store.requests (fun t s => { s with requests := t }) {
      requestID := u 0
      taskID := taskID
      requesterUserID := userID
      isBlocking := isBlocking
      timeoutAt := if isBlocking then some (now + materialReplyWindow) else none }
    if isBlocking then do
      let pausedAt := some (task.pausedAt.getD now)
      let _ ← transitionTaskTx task .waitingForPublisher fun t => { t with pausedAt := pausedAt }
      pure ()
    else pure ()

def findRequest (taskID requestID : String) : Flow BountyMaterialRequest :=
  readOrFail (.message "material request not found") fun s =>
    s.requests.find? fun r => r.requestID = requestID ∧ r.taskID = taskID

def replyMaterialRequest (taskID requestID : String) (userID : Int) : Flow Unit := do
  let task ← lockTaskTx taskID
  if isTerminalStatus task.status ∨ task.status = .suspended then .fail errInvalidState
  else
    let request ← findRequest taskID requestID
    if request.status = .closed then .fail (.message "material request is already closed")
    else if userID ≠ task.publisherUserID ∧ task.assigneeUserID ≠ some userID then
      .fail errForbidden
    else if userID = task.publisherUserID then do
      updateRequest requestID fun r =>
        { r with status := .awaitingConfirmation, timeoutAt := none, timeoutNotifiedAt := none }
      if request.isBlocking ∧ task.status = .waitingForPublisher then do
        let _ ← transitionTaskTx task .publisherReplied id
        pure ()
      else pure ()
    else if request.status = .open then
      updateRequest requestID fun r => { r with status := .replied }
    else pure ()

/-- The pause ends and the deadline moves by its length. -/
def resumeTaskTimerTx (now : Int) (task : BountyTask) : Flow BountyTask :=
  match task.pausedAt with
  | none => pure task
  | some pausedAt => do
    let pausedDuration := now - pausedAt
    let deadlineAt := if pausedDuration > 0 then task.deadlineAt + pausedDuration
      else task.deadlineAt
    updateTask task.taskID fun t => { t with deadlineAt := deadlineAt, pausedAt := none }
    pure { task with deadlineAt := deadlineAt, pausedAt := none }

def resolveMaterialRequest (now : Int) (taskID requestID : String) (userID : Int) : Flow Unit := do
  let task ← lockTaskTx taskID
  if isTerminalStatus task.status ∨ task.status = .suspended then .fail errInvalidState
  else if task.assigneeUserID ≠ some userID then .fail errForbidden
  else
    let request ← findRequest taskID requestID
    if request.status = .closed then pure ()
    else
      updateRequest requestID fun r => { r with status := .closed, resolvedAt := some now }
      if request.isBlocking then do
        if ← read (openBlocking taskID) then pure ()
        else
          let task ← resumeTaskTimerTx now task
          let _ ← transitionTaskTx task .inProgress id
          pure ()
      else pure ()

def rewardSettlement (task : BountyTask) (submissionID : String) (amount : Int) :
    SettleReservationParams where
  reservationID := task.reservationID
  usageEvidenceID := submissionID
  actualAmount := amount
  idempotencyKey := settleKey task.taskID

def rewardRelease (task : BountyTask) (reason : String) : ReleaseReservationParams where
  reservationID := task.reservationID
  idempotencyKey := releaseKey task.taskID
  reasonCode := reason

def executorOf (task : BountyTask) : Except Err Int :=
  match task.assigneeUserID with
  | some executor => if executor ≤ 0 then .error (.message "task has no executor") else .ok executor
  | none => .error (.message "task has no executor")

def creditExecutor (u : Uuids) (task : BountyTask) (executor amount : Int) : Flow Unit :=
  if amount > 0 then
    onBase (creditQuotaTx task.rewardWalletType u executor amount (creditKey task.taskID)
      "bounty_reward")
  else pure ()

def reviewed (t : BountyTask) : BountyTask :=
  { t with reviewDeadlineAt := none, reviewDeadlineNotifiedAt := none }

/-- The hold becomes consumption and the executor is credited, in one transaction. -/
def settleTaskTx (u : Uuids) (task : BountyTask) (amount : Int) : Flow BountyTask := do
  let executor ← ofExcept (executorOf task)
  if amount < 0 ∨ amount > task.rewardAmount then
    .fail (.message "settlement amount is outside the reward range")
  else
    let latest ← readOrFail (.message "task has no submission") (latestSubmission task.taskID)
    let _ ← onLedger (settleReservation u (rewardSettlement task latest.submissionID amount))
    creditExecutor (u.drop 3) task executor amount
    if task.status ≠ .disputed then transitionTaskTx task .completed reviewed
    else
      updateTask task.taskID reviewed
      pure (reviewed task)

def releaseTaskRewardTx (u : Uuids) (task : BountyTask) (reason : String) : Flow Unit :=
  if task.reservationID = "" then pure ()
  else do
    let _ ← onLedger (releaseReservation u (rewardRelease task reason))
    pure ()

def cancelTask (u : Uuids) (taskID : String) (publisherID : Int) : Flow Unit := do
  let task ← lockTaskTx taskID
  if task.publisherUserID ≠ publisherID then .fail errForbidden
  else if task.status ≠ .published ∧ task.status ≠ .selecting ∧ task.status ≠ .assigned then
    .fail errInvalidState
  else
    releaseTaskRewardTx u task "task_cancelled"
    let _ ← transitionTaskTx task .cancelled id
    pure ()

inductive TimeoutAction where
  | extend | cancel
  deriving DecidableEq, Repr

def handleMaterialTimeout (now : Int) (u : Uuids) (taskID requestID : String) (userID : Int)
    (action : TimeoutAction) (extensionHours : Int) : Flow Unit :=
  let hours := if extensionHours = 0 then 48 else extensionHours
  if hours < 1 ∨ hours > 168 then .fail (.message "extension_hours must be between 1 and 168")
  else do
    let task ← lockTaskTx taskID
    if task.assigneeUserID ≠ some userID then .fail errForbidden
    else
      let request ← findRequest taskID requestID
      if request.isBlocking = false ∨ request.status ≠ .open then
        .fail (.message "material request is not eligible for timeout handling")
      else if request.timeoutAt.all fun timeoutAt => timeoutAt > now then
        .fail (.message "material reply window has not elapsed")
      else match action with
      | .extend => updateRequest requestID fun r =>
        { r with
          timeoutAt := some (now + hours * hour)
          timeoutNotifiedAt := none
          timeoutAction := "extended" }
      | .cancel => do
        updateRequest requestID fun r =>
          { r with status := .closed, resolvedAt := some now, timeoutAction := "cancelled" }
        releaseTaskRewardTx u task "material_timeout_cancelled"
        let _ ← transitionTaskTx task .cancelled id
        pure ()

/-- `provider` is the outcome of reading the configuration of the analysis. -/
def openDisputeTx (u : Uuids) (provider : Except Err Unit) (task : BountyTask) (openedBy : Int) :
    Flow Unit := do
  if ← read fun s => s.disputes.has fun d => d.taskID = task.taskID ∧ d.status = .open then
    .fail (.message "task already has an open dispute")
  else
    ofExcept (requireTransition task.status .disputed)
    ofExcept provider
    insertRow Store.disputes (fun t s => { s with disputes := t })
      { disputeID := u 0, taskID := task.taskID, openedByUserID := openedBy }
    let _ ← transitionTaskTx task .disputed reviewed
    pure ()

def disputable : TaskStatus → Bool
  | .inProgress | .waitingForPublisher | .publisherReplied | .submitted | .reviewing
  | .changesRequested => true
  | _ => false

def canOpenDispute (task : BountyTask) (userID : Int) : Bool :=
  0 < userID && (task.publisherUserID = userID || task.assigneeUserID = some userID) &&
    disputable task.status

def openDispute (u : Uuids) (provider : Except Err Unit) (taskID : String) (userID : Int) :
    Flow Unit := do
  let task ← lockTaskTx taskID
  if task.publisherUserID ≠ userID ∧ task.assigneeUserID ≠ some userID then .fail errForbidden
  else if canOpenDispute task userID = false then .fail errInvalidState
  else openDisputeTx u provider task userID

inductive ReviewAction where
  | approve | requestChanges | reject | dispute
  deriving DecidableEq, Repr

def reviewTask (u : Uuids) (provider : Except Err Unit) (taskID : String) (publisherID : Int)
    (action : ReviewAction) (comment : String) : Flow Unit :=
  if action ≠ .approve ∧ blank comment then
    .fail (.message "comment is required for this review action")
  else do
    let task ← lockTaskTx taskID
    if task.publisherUserID ≠ publisherID then .fail errForbidden
    else if task.status ≠ .reviewing ∧ task.status ≠ .submitted then .fail errInvalidState
    else match action with
    | .approve => do
      let _ ← settleTaskTx u task task.rewardAmount
      pure ()
    | .requestChanges =>
      if task.revisionCount ≥ task.revisionLimit then
        .fail (.message "revision limit reached; open a dispute instead")
      else do
        let _ ← transitionTaskTx task .changesRequested fun t => { t with
          revisionCount := task.revisionCount + 1
          reviewDeadlineAt := none
          reviewDeadlineNotifiedAt := none }
        pure ()
    | .reject | .dispute => openDisputeTx u provider task publisherID

/-- The amount a resolution pays, where the task admits it. -/
def resolutionAmount (task : BountyTask) (resolution : DisputeResolution) (amount : Int) :
    Except Err Int :=
  match resolution with
  | .payFull => .ok task.rewardAmount
  | .release | .changesRequested => .ok 0
  | .payPartial =>
    if amount ≤ 0 ∨ amount ≥ task.rewardAmount then
      .error (.message "partial settlement amount must be between 0 and the reward")
    else .ok amount

/-- What the resolution does to the task and its reward. -/
def applyResolution (u : Uuids) (task : BountyTask) (resolution : DisputeResolution)
    (amount : Int) : Flow Unit :=
  match resolution with
  | .changesRequested =>
    if task.revisionCount ≥ task.revisionLimit then .fail (.message "revision limit reached")
    else do
      let _ ← transitionTaskTx task .changesRequested fun t =>
        { t with revisionCount := task.revisionCount + 1 }
      pure ()
  | .release => do
    releaseTaskRewardTx u task "admin_dispute_release"
    let _ ← transitionTaskTx task .resolved id
    pure ()
  | .payFull | .payPartial => do
    let task ← settleTaskTx u task amount
    let _ ← transitionTaskTx task .resolved id
    pure ()

def resolveDispute (now : Int) (u : Uuids) (taskID : String) (adminID : Int) (disputeID : String)
    (resolution : DisputeResolution) (amount : Int) : Flow Unit :=
  if blank disputeID then .fail (.message "dispute_id is required")
  else do
    let task ← lockTaskTx taskID
    let dispute ← readOrFail (.message "dispute not found") fun s =>
      s.disputes.find? fun d => d.disputeID = disputeID ∧ d.taskID = taskID
    if dispute.status = .resolved then pure ()
    else if task.status ≠ .disputed then .fail errInvalidState
    else
      let amount ← ofExcept (resolutionAmount task resolution amount)
      applyResolution u task resolution amount
      modify (·.updateDispute disputeID fun d => { d with
        status := .resolved
        resolutionType := some resolution
        resolutionAmount := amount
        resolvedByUserID := some adminID
        resolvedAt := some now })

def suspendTask (now : Int) (taskID : String) : Flow Unit := do
  let task ← lockTaskTx taskID
  if isTerminalStatus task.status ∨ task.status = .suspended then .fail errInvalidState
  else
    let _ ← transitionTaskTx task .suspended fun t => { t with
      suspendedFromStatus := some task.status
      suspendedAt := some now
      suspendedPreviousPausedAt := task.pausedAt
      pausedAt := some (task.pausedAt.getD now) }
    pure ()

/-- The columns that `ResumeTask` writes. -/
def resumed (now : Int) (task : BountyTask) : BountyTask → BountyTask :=
  match task.suspendedAt with
  | none => fun t =>
    { t with suspendedFromStatus := none, suspendedAt := none, suspendedPreviousPausedAt := none }
  | some suspendedAt =>
    let pausedDuration := now - suspendedAt
    let extended := fun at_ : Int => if pausedDuration > 0 then at_ + pausedDuration else at_
    fun t => { t with
      suspendedFromStatus := none
      suspendedAt := none
      suspendedPreviousPausedAt := none
      deadlineAt := extended task.deadlineAt
      reviewDeadlineAt := task.reviewDeadlineAt.map extended
      pausedAt := task.suspendedPreviousPausedAt.map (· + pausedDuration) }

def resumeTask (now : Int) (taskID : String) : Flow Unit := do
  let task ← lockTaskTx taskID
  if task.status ≠ .suspended then .fail errInvalidState
  else
    let previous := task.suspendedFromStatus.getD .published
    ofExcept (requireTransition task.status previous)
    -- the previous status is assigned to the task in memory alone
    updateTask taskID (resumed now task)

/-- One task of `notifyReviewDeadlines`, in its transaction. -/
def notifyReviewDeadline (cutoff now : Int) (taskID : String) : Flow Unit := do
  let task ← lockTaskTx taskID
  if task.status ≠ .reviewing ∨ task.reviewDeadlineAt.all (fun t => t > cutoff) ∨
      task.reviewDeadlineNotifiedAt ≠ none then pure ()
  else updateTask taskID fun t => { t with reviewDeadlineNotifiedAt := some now }

/-- One request of `notifyMaterialTimeouts`, in its transaction. -/
def notifyMaterialTimeout (now : Int) (requestID : String) : Flow Unit := do
  let request ← readOrFail .recordNotFound fun s => s.requests.get? requestID
  if request.timeoutNotifiedAt ≠ none ∨ request.status ≠ .open ∨
      request.timeoutAt.all (fun t => t > now) then pure ()
  else do
    let _ ← lockTaskTx request.taskID
    updateRequest requestID fun r => { r with timeoutNotifiedAt := some now }

/-- One task of `autoSettleReviews`, in its transaction. -/
def autoSettleReview (now : Int) (u : Uuids) (taskID : String) : Flow Unit := do
  let task ← lockTaskTx taskID
  if task.status ≠ .reviewing ∨ task.reviewDeadlineAt.all (fun t => t > now) then pure ()
  else do
    let _ ← settleTaskTx u task task.rewardAmount
    pure ()

/-- One task of `expireTasks`, in its transaction. -/
def expireTask (now : Int) (u : Uuids) (taskID : String) : Flow Unit := do
  let task ← lockTaskTx taskID
  if task.pausedAt ≠ none ∨ task.deadlineAt > now ∨ isTerminalStatus task.status then pure ()
  else do
    releaseTaskRewardTx u task "task_expired"
    let _ ← transitionTaskTx task .expired id
    pure ()

/-- One transaction for each row that a query finds, until one fails. -/
def sweep (candidates : Store → List String) (tx : String → Flow Unit) : Flow Unit := do
  let ids ← read candidates
  ids.forM fun id => .transaction () (tx id)

def taskIDs (p : BountyTask → Bool) (s : Store) : List String :=
  (s.tasks.rows.filter p).map BountyTask.taskID

def notifyReviewDeadlines (now : Int) : Flow Unit :=
  sweep (taskIDs fun t => t.status = .reviewing ∧
    (t.reviewDeadlineAt.any fun at_ => at_ ≤ now + 24 * hour ∧ now < at_) ∧
    t.reviewDeadlineNotifiedAt = none) (notifyReviewDeadline (now + 24 * hour) now)

def notifyMaterialTimeouts (now : Int) : Flow Unit :=
  sweep (fun s => (s.requests.rows.filter fun r => r.isBlocking ∧ r.status = .open ∧
    (r.timeoutAt.any fun at_ => at_ ≤ now) ∧ r.timeoutNotifiedAt = none).map
      BountyMaterialRequest.requestID) (notifyMaterialTimeout now)

def autoSettleReviews (now : Int) (u : String → Uuids) : Flow Unit :=
  sweep (taskIDs fun t => t.status = .reviewing ∧ t.reviewDeadlineAt.any fun at_ => at_ ≤ now)
    fun taskID => autoSettleReview now (u taskID) taskID

def expirable : List TaskStatus :=
  [.published, .selecting, .assigned, .inProgress, .publisherReplied, .changesRequested]

def expireTasks (now : Int) (u : String → Uuids) : Flow Unit :=
  sweep (taskIDs fun t => expirable.contains t.status ∧ t.deadlineAt ≤ now ∧ t.pausedAt = none)
    fun taskID => expireTask now (u taskID) taskID

/-- `u` lists for each task the identifiers that are handed out while it is settled or released. -/
def runBountyMaintenanceOnce (now : Int) (u : String → Uuids) : Flow Unit := do
  notifyReviewDeadlines now
  notifyMaterialTimeouts now
  autoSettleReviews now u
  expireTasks now u

end CodeGo.Bounty.Review
