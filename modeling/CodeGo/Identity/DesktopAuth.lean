import CodeGo.Lib.Table
import CodeGo.Lib.Trim
import CodeGo.Lib.Prog

/-!
# Desktop authorization

The calls of `desktop_auth.go` on a session. Each load gives a private copy of the row; the updates
name the row by its key and test nothing else. A clock reading is an action too, since time passes
between the statements.
-/

namespace CodeGo.Identity.DesktopAuth

open CodeGo.Lib CodeGo.Lib.Prog CodeGo.Lib.Trim

inductive SessionStatus where
  | pending | approved | expired | rejected
  deriving DecidableEq, Repr

inductive DeviceStatus where
  | active | revoked
  deriving DecidableEq, Repr

structure DesktopAuthSession where
  sessionID : String
  userCode : String
  userID : Int := 0
  deviceID : Int := 0
  deviceName : String := ""
  platform : String := ""
  appVersion : String := ""
  status : SessionStatus := .pending
  createdAt : Int := 0
  approvedAt : Int := 0
  expiresAt : Int
  deriving DecidableEq, Repr

structure DesktopAuthorizedDevice where
  id : Int
  userID : Int
  deviceName : String := ""
  platform : String := ""
  appVersion : String := ""
  accessToken : String
  scopes : String := ""
  status : DeviceStatus := .active
  createdAt : Int := 0
  lastUsedAt : Int := 0
  expiresAt : Int := 0
  /-- not a column: the session that the device was issued for -/
  issuedFor : String
  deriving DecidableEq, Repr

instance : Indexed DesktopAuthSession String where
  pk := DesktopAuthSession.sessionID
  clash r r' := r.sessionID = r'.sessionID ∨ r.userCode = r'.userCode
  clash_comm r r' := by simp only [eq_comm]
  clash_of_pk r r' h := by simp [h]

instance : Indexed DesktopAuthorizedDevice Int where
  pk := DesktopAuthorizedDevice.id
  clash d d' := d.id = d'.id ∨ d.accessToken = d'.accessToken
  clash_comm d d' := by simp only [eq_comm]
  clash_of_pk d d' h := by simp [h]

structure Store where
  sessions : Table DesktopAuthSession := Table.empty
  devices : Table DesktopAuthorizedDevice := Table.empty
  /-- the key of the next device -/
  nextDeviceID : Int := 1
  /-- the names of the users -/
  users : Int → Option String := fun _ => none
  now : Int := 0

def desktopDefaultScopes : List String :=
  ["desktop:account:read", "desktop:logs:read", "desktop:tokens:read", "desktop:tokens:write",
    "desktop:config:read", "desktop:config:write", "desktop:telemetry:write"]

/-- The first of each kind, trimmed. -/
def normalizeDesktopScopes (scopes : List String) : List String :=
  ((scopes.map trimSpace).filter (· ≠ "")).eraseDups

def serializeDesktopScopes (scopes : List String) : String :=
  ",".intercalate (normalizeDesktopScopes scopes)

def parseDesktopScopes (raw : String) : List String :=
  if blank raw then [] else normalizeDesktopScopes (raw.splitOn ",")

inductive Error where
  | sessionNotFound
  | codeMismatch
  | sessionExpired
  | alreadyHandled
  /-- no random key -/
  | keyRefused
  | duplicatedKey
  | deviceNotFound
  | userNotFound
  deriving DecidableEq, Repr

/-- The actions, each write with the copy of the session that the call has loaded. -/
inductive Action where
  | load
  | clock
  | expire (session : DesktopAuthSession)
  | approve (session : DesktopAuthSession)
  | reject (session : DesktopAuthSession)
  | device
  | user

abbrev Flow (α : Type) := Prog Store Action Error α

def fail {α : Type} (e : Error) : Flow α := .fail e

def orFail {α : Type} (e : Error) : Option α → Except Error α
  | some a => .ok a
  | none => .error e

def getDesktopAuthSessionByID (sessionID : String) : Flow DesktopAuthSession :=
  stepE .load fun s => (orFail .sessionNotFound (s.sessions.get? (trimSpace sessionID)), s)

/-- Time has moved on to some point. -/
def getTimestamp (time : Int) : Flow Int :=
  step .clock fun s => (max s.now time, { s with now := max s.now time })

def expiredColumns (row : DesktopAuthSession) : DesktopAuthSession := { row with status := .expired }

def decidedColumns (userID : Int) (deviceID : Option Int) (status : SessionStatus)
    (approvedAt : Int) (row : DesktopAuthSession) : DesktopAuthSession :=
  { row with
    userID := userID
    deviceID := deviceID.getD row.deviceID
    status := status
    approvedAt := approvedAt }

theorem keepsIndexes_expired : Table.KeepsIndexes expiredColumns := fun _ => ⟨rfl, fun _ => rfl⟩

theorem keepsIndexes_decided (userID : Int) (deviceID : Option Int) (status : SessionStatus)
    (approvedAt : Int) : Table.KeepsIndexes (decidedColumns userID deviceID status approvedAt) :=
  fun _ => ⟨rfl, fun _ => rfl⟩

def markExpired (session : DesktopAuthSession) : Flow PUnit :=
  step (.expire session) fun s =>
    ((), { s with sessions := s.sessions.update session.sessionID _ keepsIndexes_expired })

def desktopAuthDeviceTokenTTL : Int := 7 * 24 * 3600

def newDevice (id userID now : Int) (accessToken : String) (session : DesktopAuthSession) :
    DesktopAuthorizedDevice where
  id := id
  userID := userID
  deviceName := session.deviceName
  platform := session.platform
  appVersion := session.appVersion
  accessToken := accessToken
  scopes := serializeDesktopScopes desktopDefaultScopes
  createdAt := now
  lastUsedAt := now
  expiresAt := now + desktopAuthDeviceTokenTTL
  issuedFor := session.sessionID

/-- The transaction of an approval: the device is created and the session updated. -/
def saveApproval (session : DesktopAuthSession) (userID now : Int) (accessToken : String) :
    Flow DesktopAuthorizedDevice :=
  stepE (.approve session) fun s =>
    let device := newDevice s.nextDeviceID userID now accessToken session
    match s.devices.insert? device with
    | none => (.error .duplicatedKey, s)
    | some devices =>
      (.ok device, { s with
        devices := devices
        nextDeviceID := s.nextDeviceID + 1
        sessions := s.sessions.update session.sessionID _
          (keepsIndexes_decided userID (some device.id) .approved now) })

def saveRejection (session : DesktopAuthSession) (userID now : Int) : Flow PUnit :=
  step (.reject session) fun s =>
    ((), { s with
      sessions := s.sessions.update session.sessionID _
        (keepsIndexes_decided userID none .rejected now) })

def getDesktopAuthorizedDeviceByID (userID deviceID : Int) : Flow DesktopAuthorizedDevice :=
  stepE .device fun s =>
    (orFail .deviceNotFound ((s.devices.get? deviceID).filter (·.userID = userID)), s)

def loadUsername (userID : Int) : Flow String :=
  stepE .user fun s => (orFail .userNotFound (s.users userID), s)

structure DesktopAuthPollResponse where
  status : SessionStatus
  authenticated : Bool := false
  accessToken : String := ""
  userID : Int := 0
  serverAddress : String := ""
  lastUsername : String := ""
  deviceID : Int := 0
  scopes : List String := []
  deriving DecidableEq, Repr

inductive Answer where
  | view (session : DesktopAuthSession)
  | approved (device : DesktopAuthorizedDevice) (approvedAt : Int)
  | rejected (sessionID : String) (approvedAt : Int)
  | poll (response : DesktopAuthPollResponse)
  deriving DecidableEq, Repr

/-- `toUpper` is the upper case of the standard library. -/
def buildDesktopAuthSessionView (toUpper : String → String) (time : Int)
    (sessionID userCode : String) : Flow Answer := do
  let session ← getDesktopAuthSessionByID (trimSpace sessionID)
  if session.userCode ≠ toUpper (trimSpace userCode) then fail .codeMismatch
  else
    let now ← getTimestamp time
    if session.expiresAt ≤ now then
      markExpired session
      fail .sessionExpired
    else pure (.view session)

/-- The copy of a session that may be decided. -/
def loadUndecided (time : Int) (sessionID : String) : Flow DesktopAuthSession := do
  let session ← getDesktopAuthSessionByID (trimSpace sessionID)
  let now ← getTimestamp time
  if session.expiresAt ≤ now then
    markExpired session
    fail .sessionExpired
  else if session.status ≠ .pending then fail .alreadyHandled
  else pure session

/-- `accessToken` is the random token, `none` where the generator fails. -/
def approveDesktopAuthSession (time time' : Int) (accessToken : Option String) (userID : Int)
    (sessionID : String) : Flow Answer := do
  let session ← loadUndecided time sessionID
  match accessToken with
  | none => fail .keyRefused
  | some accessToken =>
    let now ← getTimestamp time'
    let device ← saveApproval session userID now accessToken
    pure (.approved device now)

def rejectDesktopAuthSession (time time' : Int) (userID : Int) (sessionID : String) :
    Flow Answer := do
  let session ← loadUndecided time sessionID
  let now ← getTimestamp time'
  saveRejection session userID now
  pure (.rejected session.sessionID now)

def pollDesktopAuthSession (serverAddress : String) (time : Int) (sessionID : String) :
    Flow Answer := do
  let session ← getDesktopAuthSessionByID (trimSpace sessionID)
  let now ← getTimestamp time
  let session ← (if session.expiresAt ≤ now ∧ session.status = .pending then do
      markExpired session
      pure { session with status := .expired }
    else pure session : Flow DesktopAuthSession)
  if session.status = .approved ∧ 0 < session.deviceID then
    let device ← getDesktopAuthorizedDeviceByID session.userID session.deviceID
    let username ← loadUsername session.userID
    pure (.poll
      { status := session.status
        authenticated := true
        accessToken := device.accessToken
        userID := session.userID
        serverAddress := serverAddress
        lastUsername := username
        deviceID := device.id
        scopes := parseDesktopScopes device.scopes })
  else pure (.poll { status := session.status })

inductive Call where
  | view (toUpper : String → String) (time : Int) (sessionID userCode : String)
  | approve (time time' : Int) (accessToken : Option String) (userID : Int) (sessionID : String)
  | reject (time time' : Int) (userID : Int) (sessionID : String)
  | poll (serverAddress : String) (time : Int) (sessionID : String)

def Call.code : Call → Flow Answer
  | .view toUpper time sessionID userCode =>
    buildDesktopAuthSessionView toUpper time sessionID userCode
  | .approve time time' accessToken userID sessionID =>
    approveDesktopAuthSession time time' accessToken userID sessionID
  | .reject time time' userID sessionID => rejectDesktopAuthSession time time' userID sessionID
  | .poll serverAddress time sessionID => pollDesktopAuthSession serverAddress time sessionID

end CodeGo.Identity.DesktopAuth
