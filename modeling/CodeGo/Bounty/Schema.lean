import CodeGo.Bounty.Status
import CodeGo.Platform.Database

/-!
# Bounty tasks

The rows of `internal/bounty/schema` beside the tables of the other services.
Times are nanoseconds. Events, notifications and reports are left out, nothing
reads them back.
-/

namespace CodeGo.Bounty.Schema

open Lib Lib.Prog Billing.Schema Identity.Schema Platform.Database Status

def second : Int := 1000000000
def hour : Int := 3600 * second

/-- The zero value of `time.Time`. -/
def zeroTime : Int := -62135596800 * second

structure BountyTask where
  taskID : String
  publisherUserID : Int
  title : String := ""
  description : String := ""
  repoURL : String := ""
  taskType : String := ""
  tagsText : String := ""
  rewardWalletType : Wallet := .wallet
  rewardAmount : Int := 0
  reservationID : String := ""
  idempotencyKey : String
  status : TaskStatus := .draft
  deadlineAt : Int := zeroTime
  reviewDeadlineAt : Option Int := none
  reviewDeadlineNotifiedAt : Option Int := none
  assigneeUserID : Option Int := none
  revisionLimit : Int := 2
  revisionCount : Int := 0
  pausedAt : Option Int := none
  suspendedAt : Option Int := none
  suspendedPreviousPausedAt : Option Int := none
  suspendedFromStatus : Option TaskStatus := none
  publishedAt : Int := zeroTime
  deriving DecidableEq, Repr

structure BountyApplication where
  applicationID : String
  taskID : String
  applicantUserID : Int
  status : ApplicationStatus := .pending
  deriving DecidableEq, Repr

structure BountyMaterialRequest where
  requestID : String
  taskID : String
  requesterUserID : Int
  isBlocking : Bool
  status : MaterialStatus := .open
  resolvedAt : Option Int := none
  timeoutAt : Option Int := none
  timeoutNotifiedAt : Option Int := none
  timeoutAction : String := ""
  deriving DecidableEq, Repr

structure BountySubmission where
  submissionID : String
  taskID : String
  executorUserID : Int
  version : Int
  status : SubmissionStatus := .submitted
  deriving DecidableEq, Repr

inductive DisputeResolution where
  | payFull | payPartial | release | changesRequested
  deriving DecidableEq, Repr

structure BountyDispute where
  disputeID : String
  taskID : String
  openedByUserID : Int
  status : DisputeStatus := .open
  resolutionType : Option DisputeResolution := none
  resolutionAmount : Int := 0
  resolvedByUserID : Option Int := none
  resolvedAt : Option Int := none
  deriving DecidableEq, Repr

instance : Indexed BountyTask String where
  pk := BountyTask.taskID
  clash t s := t.taskID = s.taskID ∨ t.idempotencyKey = s.idempotencyKey
  clash_comm t s := by simp only [eq_comm]
  clash_of_pk t s h := by simp [h]

instance : Indexed BountyApplication String where
  pk := BountyApplication.applicationID
  clash a b := a.applicationID = b.applicationID
  clash_comm a b := by simp only [eq_comm]
  clash_of_pk a b h := by simp [h]

instance : Indexed BountyMaterialRequest String where
  pk := BountyMaterialRequest.requestID
  clash r s := r.requestID = s.requestID
  clash_comm r s := by simp only [eq_comm]
  clash_of_pk r s h := by simp [h]

instance : Indexed BountySubmission String where
  pk := BountySubmission.submissionID
  clash r s := r.submissionID = s.submissionID ∨ r.taskID = s.taskID ∧ r.version = s.version
  clash_comm r s := by simp only [eq_comm]
  clash_of_pk r s h := by simp [h]

instance : Indexed BountyDispute String where
  pk := BountyDispute.disputeID
  clash r s := r.disputeID = s.disputeID
  clash_comm r s := by simp only [eq_comm]
  clash_of_pk r s h := by simp [h]

@[simp] theorem pk_request (r : BountyMaterialRequest) : pk r = r.requestID := rfl

structure Store where
  base : DB
  tasks : Table BountyTask
  applications : Table BountyApplication
  requests : Table BountyMaterialRequest
  submissions : Table BountySubmission
  disputes : Table BountyDispute

def Store.setBase (b : DB) (s : Store) : Store := { s with base := b }

/-- Functions of the bounty service, as the statements of one transaction. -/
abbrev Flow (α : Type) := Prog Store Unit Err α

section Statements

variable {α κ : Type}

def read (f : Store → α) : Flow α := .step () fun s => (f s, s)

/-- The first row of a `SELECT`, which is expected to be there. -/
def readOrFail (missing : Err) (f : Store → Option α) : Flow α :=
  .stepE () fun s => match f s with
    | some a => (.ok a, s)
    | none => (.error missing, s)

def modify (f : Store → Store) : Flow Unit := .step () fun s => ((), f s)

/-- An `INSERT`, which a unique index may refuse. -/
def insertRow [Indexed α κ] (get : Store → Table α) (set : Table α → Store → Store) (r : α) :
    Flow Unit :=
  .stepE () fun s => match (get s).insert? r with
    | some t => (.ok (), set t s)
    | none => (.error .duplicateKey, s)

def ofExcept : Except Err α → Flow α
  | .ok a => .ret a
  | .error e => .fail e

/-- Functions of the other services inside the transaction. -/
def onBase (p : App α) : Flow α := p.zoom Store.base Store.setBase fun _ => ()

theorem run_onBase (p : App α) (s : Store) :
    (onBase p).run s = ((p.run s.base).1, s.setBase (p.run s.base).2) := by
  unfold onBase
  apply run_zoom
  · exact fun _ _ => rfl
  · exact fun _ => rfl
  · exact fun _ _ _ => rfl

end Statements

/-- A change of columns that leaves the keys. -/
def taskColumns (f : BountyTask → BountyTask) (t : BountyTask) : BountyTask :=
  { f t with taskID := t.taskID, idempotencyKey := t.idempotencyKey }

def requestColumns (f : BountyMaterialRequest → BountyMaterialRequest) (r : BountyMaterialRequest) :
    BountyMaterialRequest := { f r with requestID := r.requestID }

def withApplicationStatus (status : ApplicationStatus) (a : BountyApplication) :
    BountyApplication := { a with status := status }

def withSubmissionStatus (status : SubmissionStatus) (r : BountySubmission) : BountySubmission :=
  { r with status := status }

def disputeColumns (f : BountyDispute → BountyDispute) (r : BountyDispute) : BountyDispute :=
  { f r with disputeID := r.disputeID }

theorem keepsIndexes_task (f : BountyTask → BountyTask) : Table.KeepsIndexes (taskColumns f) :=
  fun _ => ⟨rfl, fun _ => rfl⟩

theorem keepsIndexes_request (f : BountyMaterialRequest → BountyMaterialRequest) :
    Table.KeepsIndexes (requestColumns f) := fun _ => ⟨rfl, fun _ => rfl⟩

theorem keepsIndexes_application (status : ApplicationStatus) :
    Table.KeepsIndexes (withApplicationStatus status) := fun _ => ⟨rfl, fun _ => rfl⟩

theorem keepsIndexes_submission (status : SubmissionStatus) :
    Table.KeepsIndexes (withSubmissionStatus status) := fun _ => ⟨rfl, fun _ => rfl⟩

theorem keepsIndexes_dispute (f : BountyDispute → BountyDispute) :
    Table.KeepsIndexes (disputeColumns f) := fun _ => ⟨rfl, fun _ => rfl⟩

def Store.updateTask (taskID : String) (f : BountyTask → BountyTask) (s : Store) : Store :=
  { s with tasks := s.tasks.update taskID _ (keepsIndexes_task f) }

def Store.updateRequest (requestID : String) (f : BountyMaterialRequest → BountyMaterialRequest)
    (s : Store) : Store :=
  { s with requests := s.requests.update requestID _ (keepsIndexes_request f) }

def Store.updateApplication (applicationID : String) (status : ApplicationStatus) (s : Store) :
    Store :=
  { s with applications := s.applications.update applicationID _ (keepsIndexes_application status) }

def Store.updateSubmission (submissionID : String) (status : SubmissionStatus) (s : Store) : Store :=
  { s with submissions := s.submissions.update submissionID _ (keepsIndexes_submission status) }

def Store.updateDispute (disputeID : String) (f : BountyDispute → BountyDispute) (s : Store) :
    Store :=
  { s with disputes := s.disputes.update disputeID _ (keepsIndexes_dispute f) }

def updateTask (taskID : String) (f : BountyTask → BountyTask) : Flow Unit :=
  modify (·.updateTask taskID f)

def updateRequest (requestID : String) (f : BountyMaterialRequest → BountyMaterialRequest) :
    Flow Unit := modify (·.updateRequest requestID f)

def createTaskRow (t : BountyTask) : Flow Unit :=
  insertRow Store.tasks (fun t s => { s with tasks := t }) t

section Fields

variable {s : Store} {taskID id : String} {f : BountyTask → BountyTask} {t : BountyTask}

@[simp] theorem setBase_tasks (b : DB) (s : Store) : (s.setBase b).tasks = s.tasks := rfl
@[simp] theorem updateTask_requests : (s.updateTask taskID f).requests = s.requests := rfl

theorem get?_updateTask (h : s.tasks.get? taskID = some t) :
    (s.updateTask taskID f).tasks.get? id =
      if id = taskID then some (taskColumns f t) else s.tasks.get? id := by
  rw [Store.updateTask, Table.get?_update, h, Option.map_some]

end Fields

section Runs

variable {α κ : Type} {s s' : Store} {a : α}

theorem read_ok {f : Store → α} (h : (read f).run s = (.ok a, s')) : a = f s ∧ s = s' := by
  cases h
  exact ⟨rfl, rfl⟩

theorem readOrFail_ok {missing : Err} {f : Store → Option α}
    (h : (readOrFail missing f).run s = (.ok a, s')) : f s = some a ∧ s = s' :=
  stepE_read_ok h

theorem modify_ok {f : Store → Store} {a : Unit} (h : (modify f).run s = (.ok a, s')) :
    s' = f s := by
  cases h
  rfl

theorem insertRow_ok [Indexed α κ] {get : Store → Table α} {set : Table α → Store → Store} {r : α}
    {a : Unit} (h : (insertRow get set r).run s = (.ok a, s')) :
    ∃ t, (get s).insert? r = some t ∧ s' = set t s := by
  rw [insertRow, run_stepE] at h
  split at h
  next t ht =>
    cases h
    exact ⟨t, ht, rfl⟩
  next => cases h

theorem ofExcept_ok {x : Except Err α} (h : (ofExcept x).run s = (.ok a, s')) :
    x = .ok a ∧ s = s' := by
  cases x with
  | ok b =>
    cases h
    exact ⟨rfl, rfl⟩
  | error e => cases h

theorem onBase_ok {p : App α} (h : (onBase p).run s = (.ok a, s')) :
    ∃ b, p.run s.base = (.ok a, b) ∧ s' = s.setBase b := by
  rw [run_onBase] at h
  obtain ⟨hr, rfl⟩ := Prod.mk.injEq .. ▸ h
  exact ⟨_, Prod.ext hr rfl, rfl⟩

end Runs

end CodeGo.Bounty.Schema
