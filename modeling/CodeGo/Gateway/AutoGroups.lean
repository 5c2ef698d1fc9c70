import CodeGo.Gateway.Circuit

/-!
# Selection over the groups of a user

`internal/gateway/routing/app`: the circuits of `auto_group_policy.go`, the ranking of the
groups by them, and the selection of `channel_selection.go`, whose position in the ranking is
kept in the context of the request.
-/

namespace CodeGo.Gateway.AutoGroups

open Circuit

def autoGroupName := "auto"

def autoGroupFailureThreshold : Nat := 3
def autoGroupCooldownDuration : Int := seconds 120

structure AutoGroupCircuit where
  consecutiveFailures : Nat := 0
  cooldownUntil : Int := 0
  deriving DecidableEq, Repr

/-- The entries of the cache, by group and model. -/
abbrev Circuits := String → String → Option AutoGroupCircuit

def Circuits.set (group model : String) (entry : Option AutoGroupCircuit) (c : Circuits) :
    Circuits :=
  fun g m => if g = group ∧ m = model then entry else c g m

def isAutoGroupCooling (group model : String) (now : Int) (c : Circuits) : Bool :=
  match c group model with
  | none => false
  | some state => now < state.cooldownUntil

def recordAutoGroupSuccess (group model : String) (c : Circuits) : Circuits :=
  if group = "" ∨ model = "" then c else c.set group model none

/-- One more failure; the third in a row opens the circuit. -/
def failedCircuit (now : Int) (state : AutoGroupCircuit) : AutoGroupCircuit :=
  if autoGroupFailureThreshold ≤ state.consecutiveFailures + 1 then
    { consecutiveFailures := 0, cooldownUntil := now + autoGroupCooldownDuration }
  else { state with consecutiveFailures := state.consecutiveFailures + 1 }

def recordAutoGroupFailure (group model : String) (now : Int) (c : Circuits) : Circuits :=
  if group = "" ∨ model = "" then c
  else
    let state := (c group model).getD {}
    if now < state.cooldownUntil then c else c.set group model (some (failedCircuit now state))

section Ranking

/-- The settings that routing reads, for one user. -/
structure Settings where
  autoGroups : List String
  /-- the groups of `GetUserUsableGroups` -/
  usable : String → Bool
  /-- `GetUserGroupRatio` -/
  groupRatio : String → ℚ
  retryTimes : Int

variable (s : Settings)

def getUserAutoGroup : List String := s.autoGroups.filter s.usable

/-- The comparison that the groups are sorted by. -/
def ranksBefore (model : String) (now : Int) (c : Circuits) (left right : String) : Bool :=
  let leftCooling := isAutoGroupCooling left model now c
  let rightCooling := isAutoGroupCooling right model now c
  if leftCooling ≠ rightCooling then !leftCooling
  else decide (s.groupRatio left < s.groupRatio right)

/-- A stable sort: a group stays behind an equal one. -/
def orderAutoGroups (model : String) (now : Int) (c : Circuits) : List String :=
  (getUserAutoGroup s).insertionSort fun left right => ranksBefore s model now c right left = false

/-- The ranking lists the permitted groups, each as often as they do. -/
theorem orderAutoGroups_perm (model : String) (now : Int) (c : Circuits) :
    (orderAutoGroups s model now c).Perm (getUserAutoGroup s) := List.perm_insertionSort ..

end Ranking

structure Channel where
  id : Int
  /-- the rank of its priority in its group -/
  level : Nat
  deriving DecidableEq, Repr

/-- What `getHealthySatisfiedChannelWithContext` finds for the model at one moment: some
available channel of the group, where one is at the level asked for or below it. -/
structure Availability where
  channels : String → List Channel
  pick : String → Nat → Option Channel
  pick_mem : ∀ group retry ch, pick group retry = some ch → ch ∈ channels group
  pick_none : ∀ group retry, pick group retry = none → ∀ ch ∈ channels group, ch.level < retry

/-- The first channel in the list that may be taken. -/
def Availability.first (channels : String → List Channel) : Availability where
  channels := channels
  pick group retry := (channels group).find? fun ch => retry ≤ ch.level
  pick_mem _ _ _ h := List.mem_of_find?_eq_some h
  pick_none group retry h ch hch := by
    have := List.find?_eq_none.1 h ch hch
    simpa using this

theorem Availability.none_at_first {health : Availability} {group : String}
    (h : health.pick group 0 = none) : health.channels group = [] := by
  apply List.eq_nil_iff_forall_not_mem.2
  intro ch hch
  have := health.pick_none group 0 h ch hch
  omega

/-- The keys of the request context that selection keeps. -/
structure RouteContext where
  crossGroupRetry : Bool
  autoGroup : String := ""
  autoGroupIndex : Option Nat := none
  deriving DecidableEq, Repr

structure RetryParam where
  ctx : RouteContext
  tokenGroup : String
  modelName : String
  retry : Nat := 0
  resetNextTry : Bool := false
  deriving DecidableEq, Repr

def RetryParam.increaseRetry (p : RetryParam) : RetryParam :=
  if p.resetNextTry then { p with resetNextTry := false } else { p with retry := p.retry + 1 }

/-- The position that the scan of the ranking starts from. -/
def RetryParam.startGroupIndex (p : RetryParam) : Nat := p.ctx.autoGroupIndex.getD 0

/-- A channel that was selected: its group, the position of the group in the ranking, and the
priority that was asked for. -/
structure Selected where
  position : Nat
  group : String
  priorityRetry : Nat
  channel : Channel
  deriving DecidableEq, Repr

/-- The group at `i` has no channel: the next one is tried from its first priority. -/
def RetryParam.leaveGroup (i : Nat) (p : RetryParam) : RetryParam :=
  { p with ctx := { p.ctx with autoGroupIndex := some (i + 1) }, retry := 0 }

/-- The group at `i` was selected; after its last retry the next attempt is for the next one. -/
def RetryParam.selectGroup (retryTimes : Int) (i : Nat) (group : String) (priorityRetry : Nat)
    (p : RetryParam) : RetryParam :=
  if p.ctx.crossGroupRetry ∧ (priorityRetry : Int) ≥ retryTimes then
    { p with
      ctx := { p.ctx with autoGroup := group, autoGroupIndex := some (i + 1) }
      retry := 0
      resetNextTry := true }
  else { p with ctx := { p.ctx with autoGroup := group, autoGroupIndex := some i } }

/-- The loop over the groups of the ranking from position `i` on. -/
def selectFrom (retryTimes : Int) (health : Availability) (startGroupIndex : Nat) :
    List String → Nat → RetryParam → Option Selected × RetryParam
  | [], _, p => (none, p)
  | group :: groups, i, p =>
    let priorityRetry := if i > startGroupIndex then 0 else p.retry
    match health.pick group priorityRetry with
    | none => selectFrom retryTimes health startGroupIndex groups (i + 1) (p.leaveGroup i)
    | some channel =>
      (some { position := i, group, priorityRetry, channel },
        p.selectGroup retryTimes i group priorityRetry)

/-- What one selection went by, and what it found. -/
structure Turn where
  ranking : List String
  start : Nat
  retry : Nat
  health : Availability
  selected : Option Selected

/-- The selection among the auto groups in the order of `ranking`. -/
def selectAutoGroup (s : Settings) (ranking : List String) (health : Availability)
    (p : RetryParam) : Turn × RetryParam :=
  let start := p.startGroupIndex
  let result := selectFrom s.retryTimes health start (ranking.drop start) start p
  ({ ranking, start, retry := p.retry, health, selected := result.1 }, result.2)

/-- The selection in the group that the token names. -/
def selectTokenGroup (health : Availability) (p : RetryParam) : Turn × RetryParam :=
  ({ ranking := [p.tokenGroup]
     start := 0
     retry := p.retry
     health
     selected := (health.pick p.tokenGroup p.retry).map fun channel =>
       { position := 0, group := p.tokenGroup, priorityRetry := p.retry, channel } }, p)

/-- `lookupErr` is the error of the channel lookup, which only a named group reports. -/
def cacheGetRandomSatisfiedChannel (s : Settings) (c : Circuits) (now : Int)
    (health : Availability) (lookupErr : Option String) (p : RetryParam) :
    Except String (Turn × RetryParam) :=
  if p.tokenGroup = autoGroupName then
    if s.autoGroups = [] then .error "auto groups is not enabled"
    else .ok (selectAutoGroup s (orderAutoGroups s p.modelName now c) health p)
  else match lookupErr with
    | some err => .error err
    | none => .ok (selectTokenGroup health p)

end CodeGo.Gateway.AutoGroups
