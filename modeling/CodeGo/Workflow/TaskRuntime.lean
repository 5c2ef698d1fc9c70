import CodeGo.Lib.Weave
import CodeGo.Workflow.TaskLifecycle

/-!
# The task runtime

`task_cas.go`, `task_mutation.go` and `task_store.go` of `internal/workflow/domain`,
`task_billing_runtime.go` and `task_runtime.go` of `internal/workflow/app`. An
action is a database statement, a request to an upstream or a call of
`recordTaskRefund`. What upstreams answer, and whether the database and the
funding accept a change, are arguments of the programs.
-/

namespace CodeGo.Workflow.TaskRuntime

open Lib Lib.Prog Schema TaskLifecycle

inductive Caller where
  | sweepTimedOutTasks | pollSingleTask | updateSunoTasks | updateVideoTasks
  deriving DecidableEq, Repr

inductive Statement where
  | select
  | fetchTask (task : Task)
  | updateTaskWithStatus (task : Task) (fromStatus : TaskStatus)
  | saveTask (task : Task)
  | bulkUpdateTasksByID (ids : List Int)
  | recordTaskRefund (task : Task)
  | adjustFunding (task : Task) (delta : Int)
  | updateTaskQuota (task : Task)
  deriving DecidableEq, Repr

/-- An action, who takes it, and whether the database refuses it. -/
structure Label where
  caller : Caller
  statement : Statement
  refused : Bool := false
  deriving DecidableEq, Repr

/-- Functions of the task runtime. Their errors are only logged. -/
abbrev Flow (α : Type) := Prog DB Label Empty α

/-- Whether the database and the funding refuse the changes for one task. -/
structure Surroundings where
  databaseFails : Bool := false
  fundingFails : Bool := false
  deriving DecidableEq

theorem keepsIndexes_task {f : Task → Task} (h : ∀ t, (f t).id = t.id) : Table.KeepsIndexes f :=
  fun t => ⟨h t, fun s => by simp [clash, h t]⟩

/-- `UPDATE` of some columns of one task. -/
def updateTask (id : Int) (f : Task → Task) (s : DB) : DB :=
  { s with
    tasks := s.tasks.update id (fun t => { f t with id := t.id }) (keepsIndexes_task fun _ => rfl) }

def selectTasks {α : Type} (caller : Caller) (query : DB → α) : Flow α :=
  .step ⟨caller, .select, false⟩ fun s => (query s, s)

/-- `none` is an error of the database, `some won` tells whether a row was updated. -/
def updateTaskWithStatus (caller : Caller) (task : Task) (fromStatus : TaskStatus)
    (refused : Bool) : Flow (Option Bool) :=
  .step ⟨caller, .updateTaskWithStatus task fromStatus, refused⟩ fun s =>
    if refused then (none, s)
    else if (s.tasks.get? task.id).map Task.status = some fromStatus then
      (some true, updateTask task.id (fun _ => task) s)
    else (some false, s)

def saveTask (caller : Caller) (task : Task) (refused : Bool) : Flow Unit :=
  .step ⟨caller, .saveTask task, refused⟩ fun s =>
    if refused then ((), s)
    else match s.tasks.save? task with
      | some t => ((), { s with tasks := t })
      | none => ((), s)

/-- The bulk update of tasks whose channel is gone. -/
def failTask (failReason : String) (t : Task) : Task :=
  { t with failReason, status := .failure, progress := taskProgressComplete }

def bulkUpdateTasksByID (caller : Caller) (ids : List Int) (failReason : String)
    (refused : Bool) : Flow Unit :=
  if ids = [] then pure ()
  else .step ⟨caller, .bulkUpdateTasksByID ids, refused⟩ fun s =>
    if refused then ((), s)
    else ((), ids.foldl (fun s id => updateTask id (failTask failReason) s) s)

def unfinished (t : Task) : Bool :=
  t.progress ≠ taskProgressComplete && !isTaskTerminalStatus t.status

def getTimedOutUnfinishedTasks (cutoffUnix : Int) (limit : Nat) (s : DB) : List Task :=
  ((s.tasks.rows.filter fun t => unfinished t && t.submitTime < cutoffUnix).insertionSort
    fun a b => a.submitTime ≤ b.submitTime).take limit

def taskBillingIsSubscription (task : Task) : Bool :=
  task.privateData.billingSource = "subscription" && task.privateData.subscriptionID > 0

def fundingOf (task : Task) : Funding :=
  if taskBillingIsSubscription task then .subscription task.privateData.subscriptionID
  else .wallet task.userID

/-- `taskBillingAdjustFunding` and `taskBillingAdjustTokenQuota` that take effect. -/
def adjust (purpose : Purpose) (task : Task) (delta : Int) (s : DB) : DB :=
  { s with adjustments := s.adjustments ++
      [{ purpose, task := task.id, funding := fundingOf task, delta
         token := if task.privateData.tokenID > 0 then some task.privateData.tokenID else none }] }

def recordTaskRefund (caller : Caller) (task : Task) (around : Surroundings) : Flow Unit :=
  .step ⟨caller, .recordTaskRefund task, false⟩ fun s =>
    if task.quota = 0 ∨ around.fundingFails then ((), s)
    else ((), adjust .refund task (-task.quota) s)

def adjustFunding (caller : Caller) (task : Task) (delta : Int) (fails : Bool) : Flow Bool :=
  .step ⟨caller, .adjustFunding task delta, false⟩ fun s =>
    if fails then (false, s) else (true, adjust .settle task delta s)

def updateTaskQuota (caller : Caller) (task : Task) (refused : Bool) : Flow Unit :=
  .step ⟨caller, .updateTaskQuota task, refused⟩ fun s =>
    ((), if refused then s else updateTask task.id (fun t => { t with quota := task.quota }) s)

def settleTaskQuotaDelta (caller : Caller) (task : Task) (actualQuota : Int)
    (around : Surroundings) : Flow Task :=
  if actualQuota ≤ 0 ∨ actualQuota = task.quota then pure task
  else do
    let adjusted ← adjustFunding caller task (actualQuota - task.quota) around.fundingFails
    if adjusted then do
      updateTaskQuota caller { task with quota := actualQuota } around.databaseFails
      return { task with quota := actualQuota }
    else return task

/-- The adaptor's own quota comes first; `byTokens` is 0 where no token count or ratio applies. -/
def settleTaskBillingOnComplete (caller : Caller) (task : Task) (byAdaptor byTokens : Int)
    (around : Surroundings) : Flow Task :=
  if task.privateData.perCallBilling then pure task
  else if byAdaptor > 0 then settleTaskQuotaDelta caller task byAdaptor around
  else settleTaskQuotaDelta caller task byTokens around

def refundIf (shouldRefund : Bool) (caller : Caller) (task : Task) (around : Surroundings) :
    Flow Unit :=
  if shouldRefund then recordTaskRefund caller task around else pure ()

def settleIf (shouldSettle : Bool) (caller : Caller) (task : Task) (byAdaptor byTokens : Int)
    (around : Surroundings) : Flow Task :=
  if shouldSettle then settleTaskBillingOnComplete caller task byAdaptor byTokens around
  else pure task

structure Settings where
  taskTimeoutMinutes : Int := 30
  serverAddress : String := ""

def sweepTask (settings : Settings) (now : Int) (around : Task → Surroundings) (task : Task) :
    Flow Unit := do
  let (updated, decision) := applyTimeout task now settings.taskTimeoutMinutes 1740182400
  let won ← updateTaskWithStatus .sweepTimedOutTasks updated task.status (around task).databaseFails
  refundIf (won = some true && decision.shouldRefund) .sweepTimedOutTasks updated (around task)

def sweepTimedOutTasks (settings : Settings) (now : Int) (around : Task → Surroundings) :
    Flow Unit :=
  if settings.taskTimeoutMinutes ≤ 0 then pure ()
  else do
    let tasks ← selectTasks .sweepTimedOutTasks
      (getTimedOutUnfinishedTasks (now - settings.taskTimeoutMinutes * 60) 100)
    tasks.forM (sweepTask settings now around)

/-- The copies that a poller holds, by the id of the upstream. -/
abbrev TaskMap := String → Option Task

def TaskMap.set (taskM : TaskMap) (taskID : String) (task : Task) : TaskMap :=
  Function.update taskM taskID (some task)

def TaskMap.ofTasks (tasks : List Task) : TaskMap :=
  tasks.foldl (fun taskM task => taskM.set task.getUpstreamTaskID task) fun _ => none

/-- The ids of the tasks behind some ids of the upstream. -/
def TaskMap.ids (taskM : TaskMap) (taskIDs : List String) : List Int :=
  taskIDs.filterMap fun taskID => (taskM taskID).map Task.id

/-- What a poll of one Suno channel meets. `failed` are the errors of the request and its answer. -/
inductive SunoAnswer where
  | noChannel (refused : Bool)
  | failed
  | items (items : List (SunoDataResponse × Surroundings))

def updateSunoTask (taskM : TaskMap) (item : SunoDataResponse × Surroundings) : Flow TaskMap :=
  match taskM item.1.taskID with
  | none => pure taskM
  | some task =>
    if shouldApplySunoTaskUpdate task item.1 then do
      let (task, decision) := applySunoTaskUpdate task item.1
      refundIf decision.shouldRefund .updateSunoTasks task item.2
      saveTask .updateSunoTasks task item.2.databaseFails
      return taskM.set item.1.taskID task
    else pure taskM

def updateSunoChannel (answer : SunoAnswer) (channelID : Int) (taskIDs : List String)
    (taskM : TaskMap) : Flow TaskMap :=
  if taskIDs = [] then pure taskM
  else match answer with
    | .noChannel refused => do
      bulkUpdateTasksByID .updateSunoTasks (taskM.ids taskIDs)
        ("获取渠道信息失败，请联系管理员，渠道ID：" ++ toString channelID) refused
      return taskM
    | .failed => pure taskM
    | .items items => items.foldlM updateSunoTask taskM

def updateSunoTasks (answers : Int → SunoAnswer) (taskChannelM : List (Int × List String))
    (taskM : TaskMap) : Flow TaskMap :=
  taskChannelM.foldlM (fun taskM c => updateSunoChannel (answers c.1) c.1 c.2 taskM) taskM

/-- The error that a body without a status carries. -/
inductive UpstreamError where
  | unreadable
  | unrecognized
  | code (code : String)

/-- A body that was read and parsed, with what the services around answer to it. -/
structure VideoResult where
  data : String := ""
  taskResult : TaskInfo
  error : UpstreamError := .unrecognized
  now : Int := 0
  byAdaptor : Int := 0
  byTokens : Int := 0
  around : Surroundings := {}

/-- What a poll of one video task meets. `failed` are the errors of the request and its answer. -/
inductive VideoAnswer where
  | failed
  | parsed (result : VideoResult)

inductive VideoChannelAnswer where
  | noChannel (refused : Bool)
  | noAdaptor
  | tasks (answer : Nat → VideoAnswer)

/-- `none` is an upstream that asks to come back later. -/
def resolveTaskResult (taskResult : TaskInfo) (error : UpstreamError) : Option TaskInfo :=
  if taskResult.status ≠ "" then some taskResult
  else match error with
    | .unreadable => some taskResult
    | .unrecognized => some (failTaskInfo "upstream returned unrecognized message")
    | .code code =>
      if code = "429" then none else some (failTaskInfo "upstream returned error")

/-- Stores what an answer made of a copy; the result tells whether billing goes on. -/
def storeVideoTask (snap : TaskSnapshot) (task : Task) (refused : Bool) : Flow Bool :=
  if isTaskTerminalStatus task.status ∧ snap.status ≠ task.status then do
    let won ← updateTaskWithStatus .updateVideoTasks task snap.status refused
    return won = some true
  else if snap ≠ takeTaskSnapshot task then do
    let _ ← updateTaskWithStatus .updateVideoTasks task snap.status refused
    return true
  else pure true

def applyVideoResult (settings : Settings) (task : Task) (r : VideoResult) : Flow Task :=
  match resolveTaskResult r.taskResult r.error with
  | none => pure { task with data := r.data }
  | some taskResult =>
    match applyVideoTaskResult settings.serverAddress { task with data := r.data } taskResult r.now with
    | (updated, none) => pure updated
    | (updated, some decision) => do
      let billing ← storeVideoTask (takeTaskSnapshot task) updated r.around.databaseFails
      let settled ← settleIf (billing && decision.shouldSettle) .updateVideoTasks updated
        r.byAdaptor r.byTokens r.around
      refundIf (billing && decision.shouldRefund) .updateVideoTasks settled r.around
      return settled

def updateVideoSingleTask (settings : Settings) (answer : VideoAnswer) (taskID : String)
    (taskM : TaskMap) : Flow TaskMap :=
  match taskM taskID with
  | none => pure taskM
  | some task => do
    Prog.step ⟨.updateVideoTasks, .fetchTask task, false⟩ fun s => ((), s)
    match answer with
    | .failed => return taskM
    | .parsed result => return taskM.set taskID (← applyVideoResult settings task result)

def updateVideoChannel (settings : Settings) (answer : VideoChannelAnswer) (channelID : Int)
    (taskIDs : List String) (taskM : TaskMap) : Flow TaskMap :=
  if taskIDs = [] then pure taskM
  else match answer with
    | .noChannel refused => do
      bulkUpdateTasksByID .updateVideoTasks (taskM.ids taskIDs)
        ("Failed to get channel info, channel ID: " ++ toString channelID) refused
      return taskM
    | .noAdaptor => pure taskM
    | .tasks answer => taskIDs.zipIdx.foldlM
        (fun taskM t => updateVideoSingleTask settings (answer t.2) t.1 taskM) taskM

def updateVideoTasks (settings : Settings) (answers : Int → VideoChannelAnswer)
    (taskChannelM : List (Int × List String)) (taskM : TaskMap) : Flow TaskMap :=
  taskChannelM.foldlM (fun taskM c => updateVideoChannel settings (answers c.1) c.1 c.2 taskM) taskM

/-- What the services around a poller answer, channel by channel. -/
structure Answers where
  suno : Int → SunoAnswer := fun _ => .failed
  video : Int → VideoChannelAnswer := fun _ => .noAdaptor
  now : Int := 0
  databaseFails : Bool := false

def dispatchPlatformUpdate (settings : Settings) (answers : Answers) (platform : String)
    (taskChannelM : List (Int × List String)) (taskM : TaskMap) : Flow Unit :=
  if platform = "suno" then do
    let _ ← updateSunoTasks answers.suno taskChannelM taskM
    return ()
  else do
    let _ ← updateVideoTasks settings answers.video taskChannelM taskM
    return ()

def pollSingleTask (settings : Settings) (answers : Answers) (task : Task) : Flow Unit :=
  if task.getUpstreamTaskID = "" then
    saveTask .pollSingleTask
      { failTask "missing upstream task id" task with finishTime := answers.now }
      answers.databaseFails
  else
    dispatchPlatformUpdate settings answers task.platform
      [(task.channelID, [task.getUpstreamTaskID])] (.ofTasks [task])

/-- One of the processes that act on the tasks: it loads its copies and goes through them. -/
inductive Actor where
  | sweep (now : Int) (around : Task → Surroundings)
  | pollSingle (query : Task → Bool) (answers : Answers)
  | pollPlatform (query : Task → Bool) (platform : String)
      (taskChannelM : List Task → List (Int × List String)) (answers : Answers)

def Actor.program (settings : Settings) : Actor → Flow Unit
  | .sweep now around => sweepTimedOutTasks settings now around
  | .pollSingle query answers => do
    match ← selectTasks .pollSingleTask fun s => s.tasks.find? query with
    | some task => pollSingleTask settings answers task
    | none => return ()
  | .pollPlatform query platform taskChannelM answers => do
    let tasks ← selectTasks .pollSingleTask fun s => s.tasks.rows.filter query
    dispatchPlatformUpdate settings answers platform (taskChannelM tasks) (.ofTasks tasks)

end CodeGo.Workflow.TaskRuntime
