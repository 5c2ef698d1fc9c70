import CodeGo.Lib.Weave
import Mathlib.Algebra.Ring.Int.Defs
import Mathlib.Algebra.Ring.Nat

/-!
# Two-factor codes

`twofa_store.go` and the calls of `twofa.go` that test a code, on the rows of one user. A call works
on its own copy of the record and saves all of it. What is outside of the repository is a
parameter: one-time passwords, password hashes and the upper case of Unicode.
-/

namespace CodeGo.Identity.TwoFactor

open CodeGo.Lib CodeGo.Lib.Prog

structure Security where
  /-- `totp.Validate` of a code, a secret and the time -/
  totpValidate : String → String → Int → Bool
  validatePasswordAndHash : String → String → Bool
  /-- `none` where hashing fails -/
  password2Hash : String → Option String
  /-- `unicode.ToUpper` beyond ASCII -/
  toUpper : Char → Char

def backupCodeLength : Nat := 8
def maxFailAttempts : Int := 5
/-- in nanoseconds -/
def lockoutDuration : Int := 300 * 10 ^ 9

/-- `len` of a string. -/
def byteLength (s : List Char) : Nat := (s.map Char.utf8Size).sum

def drop (c : Char) (s : List Char) : List Char := s.filter (· ≠ c)

def upperChar (sec : Security) (c : Char) : Char :=
  if c.val < 128 then c.toUpper else sec.toUpper c

/-- `strconv.Atoi` accepts the string, for strings of a few characters. -/
def atoiAccepts : List Char → Bool
  | [] => false
  | c :: s => if c = '+' ∨ c = '-' then !s.isEmpty && s.all Char.isDigit
    else (c :: s).all Char.isDigit

def validateNumericCode (code : List Char) : Option (List Char) :=
  let code := drop ' ' code
  if byteLength code ≠ 6 then none
  else if !atoiAccepts code then none
  else some code

def cleanBackupCode (sec : Security) (code : List Char) : List Char :=
  (drop '-' code).map (upperChar sec)

def validateBackupCode (sec : Security) (code : List Char) : Bool :=
  let cleanCode := cleanBackupCode sec code
  byteLength cleanCode = backupCodeLength ∧
    cleanCode.all fun c => 'A' ≤ c ∧ c ≤ 'Z' ∨ '0' ≤ c ∧ c ≤ '9'

/-- In the form `XXXX-XXXX`, for codes of ASCII letters and digits. -/
def normalizeBackupCode (sec : Security) (code : List Char) : List Char :=
  let cleanCode := cleanBackupCode sec code
  if byteLength cleanCode = backupCodeLength then cleanCode.take 4 ++ '-' :: cleanCode.drop 4
  else code

def validateTOTPCode (sec : Security) (secret : String) (code : List Char) (now : Int) : Bool :=
  let cleanCode := drop ' ' code
  byteLength cleanCode = 6 ∧ sec.totpValidate (String.ofList cleanCode) secret now

structure TwoFA where
  id : Int
  secret : String
  isEnabled : Bool
  failedAttempts : Int := 0
  lockedUntil : Option Int := none
  lastUsedAt : Option Int := none
  deriving DecidableEq, Repr

structure TwoFABackupCode where
  id : Int
  codeHash : String
  isUsed : Bool := false
  usedAt : Option Int := none
  deleted : Bool := false
  deriving DecidableEq, Repr

inductive Verdict where
  | wrong
  | totp
  /-- the stored code that matches -/
  | backup (id : Int)
  deriving DecidableEq, Repr

/-- A code that a call has submitted was tested. -/
structure Event (ι : Type) where
  call : ι
  time : Int
  verdict : Verdict
  deriving DecidableEq, Repr

/-- The rows of a user; `ι` are the calls. -/
structure Store (ι : Type) where
  userExists : Bool := true
  record : Option TwoFA
  codes : List TwoFABackupCode := []
  /-- the key of the next backup code -/
  nextCodeID : Int := 1
  now : Int := 0
  /-- not a table: what was tested, the newest first -/
  log : List (Event ι) := []

section Statements

inductive Error where
  | userNotFound
  | notEnabled
  | locked
  | malformed
  | invalidCode
  | generationFailed
  | saveFailed
  deriving DecidableEq, Repr

/-- Where an action stands in its call. -/
inductive Moment where
  | free
  /-- the call tests a code with this copy of the record -/
  | test (twoFA : TwoFA)
  /-- the call has tested a code and has not saved the record -/
  | held

abbrev Flow (ι α : Type) := Prog (Store ι) Moment Error α

variable {ι : Type}

def fail {α : Type} (e : Error) : Flow ι α := .fail e

/-- Time has moved on to some point. -/
def getTimestamp (moment : Moment) (time : Int) : Flow ι Int :=
  step moment fun s => (max s.now time, { s with now := max s.now time })

def loadTwoFA : Flow ι (Option TwoFA) := step .free fun s => (s.record, s)

/-- `Save` updates the row, or inserts it where it is gone. A row that was loaded has an id. -/
def updateTwoFA (twoFA : TwoFA) : Flow ι PUnit :=
  step .held fun s => ((), { s with record := some twoFA })

def isLocked (time : Int) (twoFA : TwoFA) : Flow ι Bool :=
  match twoFA.lockedUntil with
  | none => pure false
  | some lockedUntil => do
    let now ← getTimestamp .free time
    pure (now < lockedUntil)

def incrementTwoFAFailedAttempts (time : Int) (twoFA : TwoFA) : Flow ι TwoFA := do
  let twoFA := { twoFA with failedAttempts := twoFA.failedAttempts + 1 }
  let twoFA ← (if maxFailAttempts ≤ twoFA.failedAttempts then do
      let now ← getTimestamp .held time
      pure { twoFA with lockedUntil := some (now + lockoutDuration) }
    else pure twoFA : Flow ι TwoFA)
  updateTwoFA twoFA
  pure twoFA

def trackUsage (time : Int) (twoFA : TwoFA) : Flow ι TwoFA := do
  let now ← getTimestamp .held time
  let twoFA := { twoFA with failedAttempts := 0, lockedUntil := none, lastUsedAt := some now }
  updateTwoFA twoFA
  pure twoFA

def Store.tested (s : Store ι) (call : ι) (time : Int) (verdict : Verdict) : Store ι :=
  { s with now := max s.now time, log := ⟨call, max s.now time, verdict⟩ :: s.log }

def testTOTP (sec : Security) (call : ι) (time : Int) (twoFA : TwoFA) (code : List Char) :
    Flow ι Bool :=
  step (.test twoFA) fun s =>
    let valid := validateTOTPCode sec twoFA.secret code (max s.now time)
    (valid, s.tested call time (if valid then .totp else .wrong))

def Store.unusedCodes (s : Store ι) : List TwoFABackupCode :=
  s.codes.filter fun c => !c.isUsed ∧ !c.deleted

/-- The unused codes are read and compared. -/
def testBackupCode (sec : Security) (call : ι) (time : Int) (twoFA : TwoFA) (code : List Char) :
    Flow ι (Option TwoFABackupCode) :=
  step (.test twoFA) fun s =>
    let normalizedCode := String.ofList (normalizeBackupCode sec code)
    let found := s.unusedCodes.find? fun c => sec.validatePasswordAndHash normalizedCode c.codeHash
    (found, s.tested call time (match found with | none => .wrong | some c => .backup c.id))

def Store.saveCode (s : Store ι) (code : TwoFABackupCode) : Store ι :=
  { s with codes := if s.codes.any (·.id = code.id)
      then s.codes.map fun c => if c.id = code.id then code else c
      else s.codes ++ [code] }

def saveBackupCode (code : TwoFABackupCode) : Flow ι PUnit := step .held fun s => ((), s.saveCode code)

def newBackupCodes (next : Int) : List String → List TwoFABackupCode
  | [] => []
  | codeHash :: hashes => { id := next, codeHash := codeHash } :: newBackupCodes (next + 1) hashes

/-- The old codes are deleted softly. -/
def replaceTwoFABackupCodes (sec : Security) (codes : List String) : Flow ι PUnit :=
  match codes.mapM fun code => sec.password2Hash (String.ofList (normalizeBackupCode sec code.toList)) with
  | none => fail .saveFailed
  | some hashes =>
    step .free fun s =>
      ((), { s with
        codes := s.codes.map ({ · with deleted := true }) ++ newBackupCodes s.nextCodeID hashes
        nextCodeID := s.nextCodeID + hashes.length })

def deleteTwoFAByUserID : Flow ι PUnit := do
  match ← loadTwoFA with
  | none => fail .notEnabled
  | some _ => step .free fun s => ((), { s with record := none, codes := [] })

end Statements

section Calls

variable {ι : Type} (sec : Security) (call : ι) (time : Nat → Int)

/-- The result with the copy as it is left. -/
def validateTwoFATOTPAndTrackUsage (twoFA : TwoFA) (code : List Char) :
    Flow ι (Except Error Bool × TwoFA) := do
  if ← isLocked (time 0) twoFA then pure (.error .locked, twoFA)
  else if ← testTOTP sec call (time 1) twoFA code then
    let twoFA ← trackUsage (time 2) twoFA
    pure (.ok true, twoFA)
  else
    let twoFA ← incrementTwoFAFailedAttempts (time 2) twoFA
    pure (.ok false, twoFA)

def validateTwoFABackupCodeAndTrackUsage (twoFA : TwoFA) (code : List Char) :
    Flow ι (Except Error Bool × TwoFA) := do
  if ← isLocked (time 3) twoFA then pure (.error .locked, twoFA)
  else if !validateBackupCode sec code then pure (.error .malformed, twoFA)
  else
    match ← testBackupCode sec call (time 4) twoFA code with
    | none =>
      let twoFA ← incrementTwoFAFailedAttempts (time 6) twoFA
      pure (.ok false, twoFA)
    | some backupCode =>
      let now ← getTimestamp .held (time 5)
      saveBackupCode { backupCode with isUsed := true, usedAt := some now }
      let twoFA ← trackUsage (time 6) twoFA
      pure (.ok true, twoFA)

def validateTwoFACodeOrBackup (twoFA : TwoFA) (code : List Char) : Flow ι PUnit := do
  let (isValidTOTP, twoFA) ← (match validateNumericCode code with
    | some cleanCode => do
      let (result, twoFA) ← validateTwoFATOTPAndTrackUsage sec call time twoFA cleanCode
      pure (match result with | .ok valid => valid | .error _ => false, twoFA)
    | none => pure (false, twoFA) : Flow ι (Bool × TwoFA))
  if isValidTOTP then pure ()
  else
    let (result, _) ← validateTwoFABackupCodeAndTrackUsage sec call time twoFA code
    match result with
    | .error e => fail e
    | .ok isValidBackup => if isValidBackup then pure () else fail .invalidCode

/-- The record, where it is enabled. -/
def loadEnabled : Flow ι TwoFA := do
  match ← loadTwoFA with
  | none => fail .notEnabled
  | some twoFA => if twoFA.isEnabled then pure twoFA else fail .notEnabled

def verifyTwoFALogin (code : List Char) : Flow ι PUnit := do
  let userExists ← step .free fun s => (s.userExists, s)
  if !userExists then fail .userNotFound
  else
    let twoFA ← loadEnabled
    validateTwoFACodeOrBackup sec call time twoFA code

def disableTwoFA (code : List Char) : Flow ι PUnit := do
  let twoFA ← loadEnabled
  validateTwoFACodeOrBackup sec call time twoFA code
  deleteTwoFAByUserID

/-- `backupCodes` are the new random codes, `none` where the generator fails. -/
def regenerateTwoFABackupCodes (backupCodes : Option (List String)) (code : List Char) :
    Flow ι PUnit := do
  let twoFA ← loadEnabled
  match validateNumericCode code with
  | none => fail .malformed
  | some cleanCode =>
    let (result, _) ← validateTwoFATOTPAndTrackUsage sec call time twoFA cleanCode
    match result with
    | .error e => fail e
    | .ok valid =>
      if !valid then fail .invalidCode
      else
        match backupCodes with
        | none => fail .generationFailed
        | some codes => replaceTwoFABackupCodes sec codes

inductive Call where
  | verifyLogin (time : Nat → Int) (code : List Char)
  | disable (time : Nat → Int) (code : List Char)
  | regenerate (time : Nat → Int) (backupCodes : Option (List String)) (code : List Char)

def Call.code : Call → Flow ι PUnit
  | .verifyLogin time code => verifyTwoFALogin sec call time code
  | .disable time code => disableTwoFA sec call time code
  | .regenerate time backupCodes code => regenerateTwoFABackupCodes sec call time backupCodes code

end Calls

end CodeGo.Identity.TwoFactor
