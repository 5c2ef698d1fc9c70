import CodeGo.Lib.Table
import Mathlib.Data.List.Sort

/-!
# Asynchronous tasks

The rows of `internal/workflow/schema/task.go` and the funding that tasks have
been given back or charged, with the answers of the services around them.
-/

namespace CodeGo.Workflow.Schema

open Lib

/-- `TaskStatus` is a text: an upstream may answer with any. -/
structure TaskStatus where
  text : String
  deriving DecidableEq, Repr

namespace TaskStatus

def notStart : TaskStatus := ⟨"NOT_START"⟩
def submitted : TaskStatus := ⟨"SUBMITTED"⟩
def queued : TaskStatus := ⟨"QUEUED"⟩
def inProgress : TaskStatus := ⟨"IN_PROGRESS"⟩
def failure : TaskStatus := ⟨"FAILURE"⟩
def success : TaskStatus := ⟨"SUCCESS"⟩
def unknown : TaskStatus := ⟨"UNKNOWN"⟩

end TaskStatus

structure TaskPrivateData where
  upstreamTaskID : String := ""
  resultURL : String := ""
  billingSource : String := ""
  subscriptionID : Int := 0
  tokenID : Int := 0
  /-- `BillingContext.PerCallBilling` -/
  perCallBilling : Bool := false
  deriving DecidableEq, Repr

structure Task where
  id : Int
  taskID : String := ""
  platform : String := ""
  userID : Int := 0
  channelID : Int := 0
  quota : Int := 0
  status : TaskStatus := .notStart
  failReason : String := ""
  submitTime : Int := 0
  startTime : Int := 0
  finishTime : Int := 0
  progress : String := ""
  privateData : TaskPrivateData := {}
  data : String := ""
  deriving DecidableEq, Repr

def Task.getUpstreamTaskID (t : Task) : String :=
  if t.privateData.upstreamTaskID ≠ "" then t.privateData.upstreamTaskID else t.taskID

instance : Indexed Task Int where
  pk := Task.id
  clash t s := t.id = s.id
  clash_comm t s := by simp only [eq_comm]
  clash_of_pk t s h := by simp [h]

@[simp] theorem pk_task (t : Task) : pk t = t.id := rfl

/-- Where the quota of a task came from. -/
inductive Funding where
  | wallet (userID : Int)
  | subscription (subscriptionID : Int)
  deriving DecidableEq, Repr

/-- What a change of the funding of a task was for. -/
inductive Purpose where
  | refund | settle
  deriving DecidableEq, Repr

/-- A change of the funding of a task that took effect, with the token it reached. -/
structure Adjustment where
  purpose : Purpose
  task : Int
  funding : Funding
  token : Option Int
  delta : Int
  deriving DecidableEq, Repr

structure DB where
  tasks : Table Task
  adjustments : List Adjustment := []

/-- `dto.SunoDataResponse` -/
structure SunoDataResponse where
  taskID : String
  status : String
  failReason : String := ""
  submitTime : Int := 0
  startTime : Int := 0
  finishTime : Int := 0
  data : String := ""
  deriving DecidableEq, Repr

/-- `relaycommon.TaskInfo` -/
structure TaskInfo where
  status : String
  reason : String := ""
  url : String := ""
  progress : String := ""
  deriving DecidableEq, Repr

def failTaskInfo (reason : String) : TaskInfo := { status := "FAILURE", reason }

end CodeGo.Workflow.Schema

/-!
# The life cycle of a task

`internal/workflow/domain`: `task_status.go`, `task_lifecycle.go` and the snapshots
of `task_cas.go`. What a timeout or an upstream answer makes of a copy of a task.
-/

namespace CodeGo.Workflow.TaskLifecycle

open Schema

def taskProgressSubmitted : String := "10%"
def taskProgressQueued : String := "20%"
def taskProgressInProgress : String := "30%"
def taskProgressComplete : String := "100%"

def parseTaskStatus (status : String) : TaskStatus := ⟨status⟩

def isTaskSuccessStatus (status : TaskStatus) : Bool := status = .success
def isTaskFailureStatus (status : TaskStatus) : Bool := status = .failure
def isTaskTerminalStatus (status : TaskStatus) : Bool :=
  isTaskSuccessStatus status || isTaskFailureStatus status

structure TimeoutDecision where
  reason : String := ""
  shouldRefund : Bool := false

structure VideoTransitionDecision where
  shouldRefund : Bool := false
  shouldSettle : Bool := false

def applyTimeout (task : Task) (now timeoutMinutes legacyTaskCutoff : Int) :
    Task × TimeoutDecision :=
  let reason := "任务超时（" ++ toString timeoutMinutes ++ "分钟）"
  let legacyReason := "任务超时（旧系统遗留任务，不进行退款，请联系管理员）"
  let isLegacy := task.submitTime > 0 ∧ task.submitTime < legacyTaskCutoff
  let task : Task := { task with status := .failure, progress := taskProgressComplete, finishTime := now }
  if isLegacy then ({ task with failReason := legacyReason }, { reason := legacyReason })
  else ({ task with failReason := reason }, { reason, shouldRefund := task.quota ≠ 0 })

/-- The JSON of a raw message; the messages at hand are valid and compact. -/
def marshal (data : String) : List Char := if data = "" then "null".toList else data.toList

/-- Whether a Suno answer says anything that the copy does not. -/
def shouldApplySunoTaskUpdate (oldTask : Task) (newTask : SunoDataResponse) : Bool :=
  oldTask.submitTime ≠ newTask.submitTime || oldTask.startTime ≠ newTask.startTime ||
  oldTask.finishTime ≠ newTask.finishTime || oldTask.status.text ≠ newTask.status ||
  oldTask.failReason ≠ newTask.failReason ||
  (isTaskTerminalStatus oldTask.status && oldTask.progress ≠ taskProgressComplete) ||
  (marshal oldTask.data).insertionSort (· ≤ ·) ≠ (marshal newTask.data).insertionSort (· ≤ ·)

/-- The fields that every Suno answer sets. -/
def sunoFields (task : Task) (response : SunoDataResponse) : Task :=
  { task with
    status := parseTaskStatus response.status
    failReason := if response.failReason ≠ "" then response.failReason else task.failReason
    submitTime := if response.submitTime ≠ 0 then response.submitTime else task.submitTime
    startTime := if response.startTime ≠ 0 then response.startTime else task.startTime
    finishTime := if response.finishTime ≠ 0 then response.finishTime else task.finishTime
    data := response.data }

def applySunoTaskUpdate (task : Task) (response : SunoDataResponse) : Task × TimeoutDecision :=
  let task := sunoFields task response
  if response.failReason ≠ "" ∨ isTaskFailureStatus task.status then
    ({ task with progress := taskProgressComplete },
      { reason := task.failReason, shouldRefund := task.quota ≠ 0 })
  else if response.status = TaskStatus.success.text then
    ({ task with progress := taskProgressComplete }, {})
  else (task, {})

def buildTaskProxyURL (serverAddress taskID : String) : String :=
  serverAddress ++ "/v1/videos/" ++ taskID ++ "/content"

/-- The progress of a copy whose task goes on. -/
def videoProgress (standard : String) (taskResult : TaskInfo) : String :=
  if taskResult.progress ≠ "" then taskResult.progress else standard

/-- `none` is the error "unknown task status"; the copy keeps the status it was given. -/
def applyVideoTaskResult (serverAddress : String) (task : Task) (taskResult : TaskInfo)
    (now : Int) : Task × Option VideoTransitionDecision :=
  let task : Task := { task with status := parseTaskStatus taskResult.status }
  if task.status = .submitted then
    ({ task with progress := videoProgress taskProgressSubmitted taskResult }, some {})
  else if task.status = .queued then
    ({ task with progress := videoProgress taskProgressQueued taskResult }, some {})
  else if task.status = .inProgress then
    ({ task with
        progress := videoProgress taskProgressInProgress taskResult
        startTime := if task.startTime = 0 then now else task.startTime }, some {})
  else if task.status = .success then
    ({ task with
        progress := taskProgressComplete
        finishTime := if task.finishTime = 0 then now else task.finishTime
        privateData.resultURL :=
          if taskResult.url.startsWith "data:" ∨ taskResult.url = "" then
            buildTaskProxyURL serverAddress task.taskID
          else taskResult.url }, some { shouldSettle := true })
  else if task.status = .failure then
    ({ task with
        progress := taskProgressComplete
        finishTime := if task.finishTime = 0 then now else task.finishTime
        failReason := taskResult.reason }, some { shouldRefund := task.quota ≠ 0 })
  else (task, none)

/-- The fields that decide whether a copy has changed. -/
structure TaskSnapshot where
  status : TaskStatus
  progress : String
  startTime : Int
  finishTime : Int
  failReason : String
  resultURL : String
  data : String
  deriving DecidableEq

def takeTaskSnapshot (task : Task) : TaskSnapshot where
  status := task.status
  progress := task.progress
  startTime := task.startTime
  finishTime := task.finishTime
  failReason := task.failReason
  resultURL := task.privateData.resultURL
  data := task.data

end CodeGo.Workflow.TaskLifecycle
