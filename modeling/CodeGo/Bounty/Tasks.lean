import CodeGo.Billing.CreditReplay
import CodeGo.Bounty.Schema

/-!
# Publishing and assigning a task

`helpers.go`, `tasks.go`, `drafts.go`, `applications.go` and `submissions.go` in
`internal/bounty/app`, as the transactions of the operations. Texts come after
the checks that look at nothing else.
-/

namespace CodeGo.Bounty.Tasks

open Lib.Trim Billing.Schema Billing.Statements Billing.LedgerRuntime Billing.Wallet Identity.Schema
  Identity.Store Status Schema

def reviewWindow : Int := 72 * hour
def materialReplyWindow : Int := 48 * hour

def errTaskNotFound : Err := .message "bounty task not found"
def errApplicationFound : Err := .message "application already exists"
def errForbidden : Err := .message "you do not have permission to perform this bounty action"
def errInvalidState : Err := .message "bounty task is not in a valid state for this action"
def errIdempotencyConflict : Err := .message "bounty idempotency key conflict"

def lockTaskTx (taskID : String) : Flow BountyTask :=
  readOrFail errTaskNotFound fun s => s.tasks.get? taskID

/-- The columns `f` and the status, where the transition is allowed. -/
def transitionTaskTx (task : BountyTask) (next : TaskStatus) (f : BountyTask → BountyTask) :
    Flow BountyTask := do
  ofExcept (requireTransition task.status next)
  updateTask task.taskID fun t => { f t with status := next }
  pure { f task with status := next }

def loadUserTx (userID : Int) : Flow User :=
  if userID ≤ 0 then .fail (.message "invalid user id")
  else readOrFail .recordNotFound fun s => s.base.users.get? userID

def mirrorBootstrapKey (userID : Int) (walletType : Wallet) : String :=
  "bounty:mirror-bootstrap:" ++ toString userID ++ ":" ++ accountType walletType

/-- Ledger statements inside the transaction. -/
def onLedger {α : Type} (tx : Tx α) : Flow α := onBase (Platform.Database.ledgerTx tx)

def rewardAccount (userID : Int) (walletType : Wallet) : EnsureAccountParams where
  accountType := accountType walletType
  ownerType := ownerTypeUser
  ownerID := userID
  quotaUnit := quotaUnitQuota

def mirrorBootstrap (accountID : String) (userID : Int) (walletType : Wallet) (amount : Int) :
    CreditAccountParams where
  accountID := accountID
  amount := amount
  idempotencyKey := mirrorBootstrapKey userID walletType
  reasonCode := "mirror_bootstrap"
  referenceType := "user"
  referenceID := toString userID
  operatorType := "bounty"

def ensureUserAccountTx (u : Uuids) (userID : Int) (walletType : Wallet) : Flow BillingAccount := do
  let legacyBalance ← onBase (loadQuota walletType userID)
  let account ← onLedger (ensureBillingAccount u (rewardAccount userID walletType))
  let snapshot ← onBase (loadBalanceSnapshot account.accountID)
  if snapshot.availableBalance = 0 ∧ snapshot.reservedBalance = 0 ∧ snapshot.consumedTotal = 0 ∧
      snapshot.grantedTotal = 0 ∧ legacyBalance > 0 then do
    let _ ← onLedger (creditAccount (u.drop 1)
      (mirrorBootstrap account.accountID userID walletType legacyBalance))
    pure account
  else pure account

def reserveKey (taskID : String) : String := "bounty:" ++ taskID ++ ":reserve"
def settleKey (taskID : String) : String := "bounty:" ++ taskID ++ ":settle"
def creditKey (taskID : String) : String := "bounty:" ++ taskID ++ ":credit"
def releaseKey (taskID : String) : String := "bounty:" ++ taskID ++ ":release"

/-- The hold of the reward on the account of the publisher. -/
def rewardHold (accountID : String) (task : BountyTask) : CreateReservationParams where
  accountID := accountID
  requestID := task.taskID
  workflowID := "bounty:" ++ task.taskID
  reservedAmount := task.rewardAmount
  idempotencyKey := reserveKey task.taskID
  expiresAt := some (task.deadlineAt + reviewWindow)

/-- `normalizedTaskInput` -/
structure TaskInput where
  title : String
  description : String
  repoURL : String
  taskType : String
  tagsText : String
  walletType : Wallet
  rewardAmount : Int
  deadline : Int
  deriving DecidableEq, Repr

/-- `CreateTaskRequest`, the deadline parsed. -/
structure CreateTaskRequest where
  title : String
  description : String
  repoURL : String
  taskType : String
  tags : List String
  rewardWalletType : String
  rewardAmount : Int
  deadlineAt : Int
  idempotencyKey : String

def generatedKey (base key uuid : String) : Except Err String :=
  let key := if trimSpace key = "" then base ++ uuid else trimSpace key
  if key.utf8ByteSize > 255 then .error (.message "idempotency key is too long") else .ok key

def taskOf (taskID : String) (userID : Int) (input : TaskInput) (key : String) : BountyTask where
  taskID := taskID
  publisherUserID := userID
  title := input.title
  description := input.description
  repoURL := input.repoURL
  taskType := input.taskType
  tagsText := input.tagsText
  rewardWalletType := input.walletType
  rewardAmount := input.rewardAmount
  idempotencyKey := key
  deadlineAt := input.deadline

/-- Whether a request that repeats the key of `existing` asks for the same task. -/
def sameCreateRequest (existing : BountyTask) (userID : Int) (req : CreateTaskRequest)
    (walletType : Wallet) : Bool :=
  existing.publisherUserID = userID ∧ existing.title = trimSpace req.title ∧
    existing.description = trimSpace req.description ∧ existing.repoURL = trimSpace req.repoURL ∧
    (blank req.taskType ∨ existing.taskType = normalizeTaskType req.taskType) ∧
    (req.tags = [] ∨ existing.tagsText = tagsText req.tags) ∧
    existing.rewardAmount = req.rewardAmount ∧ existing.rewardWalletType = walletType ∧
    existing.deadlineAt = req.deadlineAt

/-- The hold, and the transition to the status `published`. -/
def publishTx (now : Int) (u : Uuids) (accountID : String) (task : BountyTask) : Flow Unit := do
  let reservation ← onLedger (createReservation u (rewardHold accountID task))
  let _ ← transitionTaskTx task .published fun t =>
    { t with reservationID := reservation.reservationID, publishedAt := now }
  pure ()

def createTask (now : Int) (u : Uuids) (userID : Int) (req : CreateTaskRequest) : Flow String :=
  if userID ≤ 0 then .fail errForbidden
  else do
    let walletType ← ofExcept (normalizeWalletType req.rewardWalletType)
    if req.rewardAmount ≤ 0 then .fail (.message "reward_amount must be positive")
    else if req.deadlineAt ≤ now then .fail (.message "deadline_at must be later than now")
    else
      let key ← ofExcept (generatedKey "bounty:create:" req.idempotencyKey (u 0))
      match ← read fun s => s.tasks.find? fun t => t.idempotencyKey = key with
      | some existing =>
        if sameCreateRequest existing userID req walletType then pure existing.taskID
        else .fail errIdempotencyConflict
      | none =>
        let task := taskOf (u 1) userID {
          title := trimSpace req.title
          description := trimSpace req.description
          repoURL := trimSpace req.repoURL
          taskType := normalizeTaskType req.taskType
          tagsText := tagsText req.tags
          walletType := walletType
          rewardAmount := req.rewardAmount
          deadline := req.deadlineAt } key
        let _ ← loadUserTx userID
        let account ← ensureUserAccountTx (u.drop 2) userID walletType
        createTaskRow task
        publishTx now (u.drop 5) account.accountID task
        pure task.taskID

/-- The checks of `normalizeTaskInput` that do not look at the texts alone. -/
def checkTaskInput (now : Int) (requirePublish : Bool) (input : TaskInput) : Except Err Unit :=
  if requirePublish ∧ input.title = "" then
    .error (.message "title must contain 4 to 80 characters")
  else if requirePublish ∧ input.description = "" then
    .error (.message "description is required and must not exceed 20000 characters")
  else if requirePublish ∧ input.repoURL = "" then .error (.message "repo_url is required")
  else if input.rewardAmount < 0 ∨ requirePublish ∧ input.rewardAmount ≤ 0 then
    .error (.message "reward_amount must be positive")
  else if input.deadline ≤ now ∧ (requirePublish ∨ input.deadline ≠ zeroTime) then
    .error (.message "deadline_at must be later than now")
  else .ok ()

def sameTaskInput (task : BountyTask) (input : TaskInput) : Bool :=
  task.title = input.title ∧ task.description = input.description ∧
    task.repoURL = input.repoURL ∧ task.taskType = input.taskType ∧
    task.tagsText = input.tagsText ∧ task.rewardWalletType = input.walletType ∧
    task.rewardAmount = input.rewardAmount ∧ task.deadlineAt = input.deadline

def saveDraft (now : Int) (u : Uuids) (userID : Int) (input : TaskInput) (idempotencyKey : String) :
    Flow String :=
  if userID ≤ 0 then .fail errForbidden
  else do
    ofExcept (checkTaskInput now false input)
    let key ← ofExcept (generatedKey "bounty:draft:" idempotencyKey (u 0))
    match ← read fun s => s.tasks.find? fun t => t.idempotencyKey = key with
    | some existing =>
      if existing.publisherUserID = userID ∧ sameTaskInput existing input then
        pure existing.taskID
      else .fail errIdempotencyConflict
    | none =>
      let _ ← loadUserTx userID
      createTaskRow (taskOf (u 1) userID input key)
      pure (u 1)

def withInput (input : TaskInput) (t : BountyTask) : BountyTask :=
  { t with
    title := input.title
    description := input.description
    repoURL := input.repoURL
    taskType := input.taskType
    tagsText := input.tagsText
    rewardWalletType := input.walletType
    rewardAmount := input.rewardAmount
    deadlineAt := input.deadline }

def updateDraft (now userID : Int) (taskID : String) (input : TaskInput) : Flow Unit :=
  if userID ≤ 0 then .fail errForbidden
  else do
    ofExcept (checkTaskInput now false input)
    let task ← lockTaskTx taskID
    if task.publisherUserID ≠ userID then .fail errForbidden
    else if task.status ≠ .draft then .fail errInvalidState
    else updateTask taskID (withInput input)

/-- What a draft says; the deadline as `time.RFC3339` writes it, in whole seconds. -/
def inputOf (task : BountyTask) : TaskInput where
  title := task.title
  description := task.description
  repoURL := task.repoURL
  taskType := task.taskType
  tagsText := task.tagsText
  walletType := task.rewardWalletType
  rewardAmount := task.rewardAmount
  deadline := task.deadlineAt / second * second

def publishDraft (now : Int) (u : Uuids) (userID : Int) (taskID : String) : Flow Unit :=
  if userID ≤ 0 then .fail errForbidden
  else do
    let task ← lockTaskTx taskID
    if task.publisherUserID ≠ userID then .fail errForbidden
    else if task.status ≠ .draft then .fail errInvalidState
    else
      ofExcept (checkTaskInput now true (inputOf task))
      let account ← ensureUserAccountTx u userID task.rewardWalletType
      publishTx now (u.drop 3) account.accountID task

def submitApplication (u : Uuids) (taskID : String) (userID : Int) : Flow Unit := do
  let task ← lockTaskTx taskID
  if task.publisherUserID = userID then .fail (.message "publisher cannot apply to own task")
  else if task.status ≠ .published ∧ task.status ≠ .selecting then .fail errInvalidState
  else
    match ← read fun s => s.applications.find? fun a =>
        a.taskID = taskID ∧ a.applicantUserID = userID with
    | some _ => .fail errApplicationFound
    | none =>
      insertRow Store.applications (fun t s => { s with applications := t })
        { applicationID := u 0, taskID := taskID, applicantUserID := userID }
      if task.status = .published then do
        let _ ← transitionTaskTx task .selecting id
        pure ()
      else pure ()

/-- `status = rejected` for the other pending applications of the task. -/
def rejectOthers (taskID applicationID : String) (s : Store) : Store :=
  (s.applications.rows.filter fun a =>
    a.taskID = taskID ∧ a.status = .pending ∧ a.applicationID ≠ applicationID).foldl
      (fun s a => s.updateApplication a.applicationID .rejected) s

def assignApplication (taskID : String) (publisherID : Int) (applicationID : String) : Flow Unit :=
  if blank applicationID then .fail (.message "application_id is required")
  else do
    let task ← lockTaskTx taskID
    if task.publisherUserID ≠ publisherID then .fail errForbidden
    else if task.status ≠ .published ∧ task.status ≠ .selecting then .fail errInvalidState
    else
      let application ← readOrFail (.message "application not found") fun s =>
        s.applications.find? fun a => a.applicationID = applicationID ∧ a.taskID = taskID
      if application.status ≠ .pending then
        .fail (.message "application is no longer pending")
      else
        modify (rejectOthers taskID applicationID)
        modify (·.updateApplication applicationID .accepted)
        let _ ← transitionTaskTx task .assigned fun t =>
          { t with assigneeUserID := some application.applicantUserID }
        pure ()

def startTask (taskID : String) (userID : Int) : Flow Unit := do
  let task ← lockTaskTx taskID
  if task.assigneeUserID ≠ some userID then .fail errForbidden
  else if task.status ≠ .assigned then .fail errInvalidState
  else
    let _ ← transitionTaskTx task .inProgress id
    pure ()

/-- Blocking requests of the task that are not closed. -/
def openBlocking (taskID : String) (s : Store) : Bool :=
  s.requests.has fun r => r.taskID = taskID ∧ r.isBlocking ∧ r.status ≠ .closed

/-- The submission of the highest version. -/
def latestSubmission (taskID : String) (s : Store) : Option BountySubmission :=
  (s.submissions.rows.filter fun r => r.taskID = taskID).foldl (fun best r => match best with
    | none => some r
    | some b => if b.version < r.version then some r else some b) none

def supersede (r : BountySubmission) : Flow Unit :=
  modify (·.updateSubmission r.submissionID .superseded)

def createSubmission (now : Int) (u : Uuids) (taskID : String) (userID : Int)
    (effectImages : List String) : Flow Unit := do
  let task ← lockTaskTx taskID
  if task.assigneeUserID ≠ some userID then .fail errForbidden
  else if task.status ≠ .inProgress ∧ task.status ≠ .changesRequested ∧
      task.status ≠ .publisherReplied then .fail errInvalidState
  else if ← read (openBlocking taskID) then
    .fail (.message "resolve all blocking material requests before submitting")
  else if isTaskTypeUI task.taskType (parseTags task.tagsText) ∧ effectImages = [] then
    .fail (.message "UI tasks require at least one GitHub effect image")
  else
    let latest ← read (latestSubmission taskID)
    latest.forM supersede
    insertRow Store.submissions (fun t s => { s with submissions := t }) {
      submissionID := u 0
      taskID := taskID
      executorUserID := userID
      version := (latest.map fun r => r.version + 1).getD 1 }
    let task ← transitionTaskTx task .submitted fun t =>
      { t with reviewDeadlineAt := some (now + reviewWindow), reviewDeadlineNotifiedAt := none }
    let _ ← transitionTaskTx task .reviewing id
    pure ()

end CodeGo.Bounty.Tasks
