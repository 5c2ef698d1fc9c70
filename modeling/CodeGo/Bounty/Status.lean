import CodeGo.Billing.Schema
import CodeGo.Identity.Schema

/-!
# The states of a bounty task

`internal/bounty/domain/status.go`: the statuses, the transitions between them
and the rules on the texts of a task. The rules on GitHub URLs and commit
hashes are left out, requests are taken after them.
-/

namespace CodeGo.Bounty.Status

open Lib.Trim Billing.Schema Identity.Schema

inductive TaskStatus where
  | draft | published | selecting | assigned | inProgress | waitingForPublisher | publisherReplied
  | submitted | reviewing | changesRequested | completed | expired | cancelled | disputed | resolved
  | suspended
  deriving DecidableEq, Repr

namespace TaskStatus

def text : TaskStatus → String
  | draft => "draft"
  | published => "published"
  | selecting => "selecting"
  | assigned => "assigned"
  | inProgress => "in_progress"
  | waitingForPublisher => "waiting_for_publisher"
  | publisherReplied => "publisher_replied"
  | submitted => "submitted"
  | reviewing => "reviewing"
  | changesRequested => "changes_requested"
  | completed => "completed"
  | expired => "expired"
  | cancelled => "cancelled"
  | disputed => "disputed"
  | resolved => "resolved"
  | suspended => "suspended"

end TaskStatus

inductive ApplicationStatus where
  | pending | accepted | rejected
  deriving DecidableEq, Repr

inductive MaterialStatus where
  | open | replied | awaitingConfirmation | closed
  deriving DecidableEq, Repr

inductive SubmissionStatus where
  | submitted | superseded
  deriving DecidableEq, Repr

inductive DisputeStatus where
  | open | resolved
  deriving DecidableEq, Repr

section Transitions

open TaskStatus

def taskTransitions : TaskStatus → List TaskStatus
  | draft => [published]
  | published => [selecting, assigned, cancelled, expired, suspended]
  | selecting => [assigned, cancelled, expired, suspended]
  | assigned => [inProgress, waitingForPublisher, cancelled, expired, suspended]
  | inProgress => [waitingForPublisher, submitted, expired, disputed, suspended]
  | waitingForPublisher => [publisherReplied, cancelled, disputed, expired, suspended]
  | publisherReplied => [inProgress, submitted, disputed, expired, suspended]
  | submitted => [reviewing, disputed, suspended]
  | reviewing => [completed, changesRequested, disputed, suspended]
  | changesRequested => [inProgress, submitted, disputed, expired, suspended]
  | disputed => [resolved, changesRequested, suspended]
  | completed => [resolved]
  | suspended => [published, selecting, assigned, inProgress, waitingForPublisher,
      publisherReplied, submitted, reviewing, changesRequested, disputed]
  | expired | cancelled | resolved => []

def canTransition (before after : TaskStatus) : Bool :=
  before = after || (taskTransitions before).contains after

def requireTransition (before after : TaskStatus) : Except Err Unit :=
  if canTransition before after then .ok ()
  else .error (.message
    ("invalid bounty task transition: " ++ before.text ++ " -> " ++ after.text))

def isTerminalStatus : TaskStatus → Bool
  | completed | expired | cancelled | resolved => true
  | _ => false

end Transitions

/-- `strings.ToLower`, as far as texts of ASCII letters and Chinese characters can tell. -/
def toLower (s : String) : String :=
  s.map fun c => if c.toNat = 0x130 then 'i' else if c.toNat = 0x212A then 'k' else c.toLower

def normalizeWalletType (value : String) : Except Err Wallet :=
  match toLower (trimSpace value) with
  | "wallet" | "default" | "ordinary" | "normal" => .ok .wallet
  | "claude" | "claude_wallet" => .ok .claudeWallet
  | _ => .error (.message "unsupported reward wallet type")

def normalizeTaskType (value : String) : String :=
  match toLower (trimSpace value) with
  | "ui" => "ui"
  | "frontend" => "frontend"
  | "backend" => "backend"
  | _ => "general"

/-- At most twelve tags, none of them blank, too long or there before. -/
def normalizeTags (values : List String) : List String :=
  values.foldl (fun result value =>
    let value := trimSpace value
    if value = "" ∨ value.length > 32 ∨ result.length = 12 ∨
        (result.map toLower).contains (toLower value) then result
    else result ++ [value]) []

def tagsText (values : List String) : String := ",".intercalate (normalizeTags values)

def parseTags (value : String) : List String :=
  if blank value then [] else normalizeTags (value.splitOn ",")

def isTaskTypeUI (taskType : String) (tags : List String) : Bool :=
  ["ui", "frontend"].contains (toLower (trimSpace taskType)) ||
    tags.any fun tag =>
      ["ui", "frontend", "前端", "界面", "交互", "设计"].contains (toLower (trimSpace tag))

end CodeGo.Bounty.Status
