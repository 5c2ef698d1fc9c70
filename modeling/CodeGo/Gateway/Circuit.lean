import CodeGo.Lib.Decimal
import Mathlib.Algebra.Order.Ring.Rat
import Mathlib.Data.List.Sort

/-!
# Health of channels

`internal/gateway/runtime/channel_health.go`: the circuit that the relay keeps for each
pair of a channel and a model. Times are nanoseconds since the zero time of Go, and each
call updates its entry in one atomic step.
-/

namespace CodeGo.Gateway.Circuit

open Lib

/-- The operations of `float64`, of which nothing is assumed. -/
class Float64 (F : Type) where
  lit : ℚ → F
  add : F → F → F
  mul : F → F → F
  div : F → F → F
  le : F → F → Bool
  isZero : F → Bool

/-- Exact arithmetic, for samples. -/
instance : Float64 ℚ where
  lit := id
  add x y := x + y
  mul x y := x * y
  div x y := x / y
  le x y := x ≤ y
  isZero x := x = 0

def seconds (n : Int) : Int := n * 1000000000

def channelHealthFailureThreshold : Nat := 5
def channelHealthShortCooldown : Int := seconds 15
def channelHealthCooldownDuration : Int := seconds 120
def channelModelUnavailableTTL : Int := seconds 300
def channelModelUpstreamFailureTTL : Int := seconds 120
def channelHealthShortWindow : Int := seconds 120
def channelHealthShortMinRequests : Nat := 5
def channelHealthShortMaxSuccess : ℚ := 40
def channelHealthSlowTTFTSamples : Nat := 3
/-- in milliseconds -/
def channelHealthSlowTTFTThreshold : ℚ := 12000
def channelHealthTTFTWindow : Nat := 20
/-- in milliseconds -/
def channelHealthSlowTTFTP95 : ℚ := 15000

inductive HealthState where
  | unset | healthy | degraded | cooling
  deriving DecidableEq, Repr

structure ChannelHealth (F : Type) [Float64 F] where
  state : HealthState := .unset
  consecutiveRetryableFailures : Nat := 0
  recoveryProbeSuccesses : Nat := 0
  coolingUntil : Int := 0
  successRate2m : F := Float64.lit 0
  ttftEWMAMilliseconds : F := Float64.lit 0
  ttftSamples : Nat := 0
  ttftP95Milliseconds : F := Float64.lit 0
  ttftRecentMilliseconds : List Int := []
  lastFailureRequestID : String := ""
  window2StartedAt : Int := 0
  window2Requests : Nat := 0
  window2Successes : Nat := 0

variable {F : Type} [Float64 F]

def recordChannelHealthWindow (now : Int) (success : Bool) (state : ChannelHealth F) :
    ChannelHealth F :=
  let expired := state.window2StartedAt = 0 ∨ now - state.window2StartedAt ≥ channelHealthShortWindow
  let requests := (if expired then 0 else state.window2Requests) + 1
  let successes := (if expired then 0 else state.window2Successes) + if success then 1 else 0
  { state with
    window2StartedAt := if expired then now else state.window2StartedAt
    window2Requests := requests
    window2Successes := successes
    successRate2m := Float64.mul (Float64.div (Float64.lit successes) (Float64.lit requests))
      (Float64.lit 100) }

def shouldCoolForShortTermFailureRate (state : ChannelHealth F) : Bool :=
  if state.window2Requests < channelHealthShortMinRequests then false
  else 3 ≤ (state.window2Requests : Int) - state.window2Successes &&
    Float64.le state.successRate2m (Float64.lit channelHealthShortMaxSuccess)

def percentile (samples : List Int) (percentage : Nat) : F :=
  match samples with
  | [] => Float64.lit 0
  | samples =>
    let index := (samples.length * percentage + 99) / 100
    Float64.lit (samples.getD (index - 1) 0)

def recordChannelTTFT (value : Int) (state : ChannelHealth F) : ChannelHealth F :=
  if value ≤ 0 then state
  else
    let ewma := if Float64.isZero state.ttftEWMAMilliseconds then Float64.lit value
      else Float64.add (Float64.mul state.ttftEWMAMilliseconds (Float64.lit (8 / 10)))
        (Float64.mul (Float64.lit value) (Float64.lit (2 / 10)))
    let recent := state.ttftRecentMilliseconds ++ [value]
    let recent := recent.drop (recent.length - channelHealthTTFTWindow)
    { state with
      ttftSamples := state.ttftSamples + 1
      ttftEWMAMilliseconds := ewma
      ttftRecentMilliseconds := recent
      ttftP95Milliseconds := percentile (recent.insertionSort (· ≤ ·)) 95 }

def isSlowChannelTTFT (state : ChannelHealth F) : Bool :=
  (channelHealthSlowTTFTSamples ≤ state.ttftSamples &&
      Float64.le (Float64.lit channelHealthSlowTTFTThreshold) state.ttftEWMAMilliseconds) ||
    (5 ≤ state.ttftRecentMilliseconds.length &&
      Float64.le (Float64.lit channelHealthSlowTTFTP95) state.ttftP95Milliseconds)

/-- The update of `RecordChannelModelUnavailable`, and whether the pair is cooling. -/
def modelUnavailable (now : Int) (requestID : String) (state : ChannelHealth F) :
    ChannelHealth F × Bool :=
  let state := recordChannelHealthWindow now false state
  if state.coolingUntil > now then (state, true)
  else if requestID ≠ "" ∧ state.lastFailureRequestID = requestID then (state, false)
  else
    let failures := state.consecutiveRetryableFailures + 1
    let state := { state with
      lastFailureRequestID := requestID
      consecutiveRetryableFailures := failures
      recoveryProbeSuccesses := 0 }
    if channelHealthFailureThreshold ≤ failures then
      ({ state with state := .cooling, coolingUntil := now + channelModelUnavailableTTL }, true)
    else ({ state with state := .degraded }, false)

/-- The update of `CoolChannelModelForUpstreamFailure`. -/
def upstreamFailure (now : Int) (state : ChannelHealth F) : ChannelHealth F :=
  recordChannelHealthWindow now false { state with
    state := .cooling
    consecutiveRetryableFailures := 0
    recoveryProbeSuccesses := 0
    coolingUntil := now + channelModelUpstreamFailureTTL }

/-- A retryable failure was counted: the long cooldown is due. -/
def opensLong (state : ChannelHealth F) : Bool :=
  shouldCoolForShortTermFailureRate state ||
    channelHealthFailureThreshold ≤ state.consecutiveRetryableFailures

def countFailure (now : Int) (state : ChannelHealth F) : ChannelHealth F :=
  let state := recordChannelHealthWindow now false state
  { state with consecutiveRetryableFailures := state.consecutiveRetryableFailures + 1 }

/-- The update of `RecordChannelRetryableFailureWithCooldown`. -/
def retryableFailure (now shortCooldown : Int) (state : ChannelHealth F) : ChannelHealth F :=
  let shortCooldown := if shortCooldown ≤ 0 then channelHealthShortCooldown else shortCooldown
  let state := countFailure now state
  if opensLong state then
    { state with
      consecutiveRetryableFailures := 0
      coolingUntil := now + channelHealthCooldownDuration
      state := .cooling }
  else if state.coolingUntil > now then state
  else { state with coolingUntil := now + shortCooldown, state := .cooling }

/-- The success and its first token are on record. -/
def recordSuccess (now ttft : Int) (state : ChannelHealth F) : ChannelHealth F :=
  let state := recordChannelHealthWindow now true state
  if ttft > 0 then recordChannelTTFT (ttft / 1000000) state else state

/-- The circuit closes. -/
def close (state : ChannelHealth F) : ChannelHealth F :=
  { state with
    consecutiveRetryableFailures := 0
    recoveryProbeSuccesses := 0
    state := .healthy
    coolingUntil := 0 }

/-- The update of `RecordChannelSuccess`. -/
def success (now ttft : Int) (state : ChannelHealth F) : ChannelHealth F :=
  let state := recordSuccess now ttft state
  if isSlowChannelTTFT state then
    { state with
      state := .cooling
      coolingUntil := now + channelHealthShortCooldown
      recoveryProbeSuccesses := 0 }
  else if state.state = .cooling ∧ ¬ state.coolingUntil > now then
    let state := { state with recoveryProbeSuccesses := state.recoveryProbeSuccesses + 1 }
    if state.recoveryProbeSuccesses < 2 then state else close state
  else close state

section Cache

/-- The exported functions that update an entry. -/
inductive Call where
  | modelUnavailable (requestID : String)
  | upstreamFailure
  | retryableFailure (shortCooldown : Int)
  | success (ttft : Int)
  deriving DecidableEq, Repr

def Call.update (now : Int) : Call → ChannelHealth F → ChannelHealth F
  | .modelUnavailable requestID => fun state => (Circuit.modelUnavailable now requestID state).1
  | .upstreamFailure => Circuit.upstreamFailure now
  | .retryableFailure shortCooldown => Circuit.retryableFailure now shortCooldown
  | .success ttft => Circuit.success now ttft

def Call.IsFailure : Call → Prop
  | .success _ => False
  | _ => True

def channelHealthKey (channelID : Int) (model : String) : String :=
  toString channelID ++ ("\x00" ++ model)

/-- Entries by key, within their lifetime. -/
abbrev HealthCache (F : Type) [Float64 F] := String → ChannelHealth F

/-- A call at a time, on a channel and a model. -/
structure Recorded where
  now : Int
  channelID : Int
  model : String
  call : Call
  deriving DecidableEq, Repr

def record (cache : HealthCache F) (r : Recorded) : HealthCache F :=
  if r.channelID ≤ 0 ∨ r.model = "" then cache
  else
    let key := channelHealthKey r.channelID r.model
    Function.update cache key (r.call.update r.now (cache key))

/-- Every entry starts as the zero value. -/
def emptyCache : HealthCache F := fun _ => {}

/-- The entry of a pair after a history of calls. -/
def healthOf (channelID : Int) (model : String) (history : List Recorded) : ChannelHealth F :=
  history.foldl record emptyCache (channelHealthKey channelID model)

/-- Nothing but digits and a sign stands before the separator. -/
theorem channelHealthKey_injective {c c' : Int} {m m' : String}
    (h : channelHealthKey c m = channelHealthKey c' m') : c = c' ∧ m = m' := by
  have hhead : ∀ m : String, ∀ d ∈ ("\x00" ++ m).toList.head?, Decimal.isDecimal d = false := by
    intro m d hd
    rw [String.toList_append] at hd
    cases hd
    decide
  obtain ⟨hc, hm⟩ := Decimal.toString_append_injective (hhead m) (hhead m') h
  refine ⟨hc, String.toList_injective ?_⟩
  have hlist := congrArg String.toList hm
  rw [String.toList_append, String.toList_append] at hlist
  exact List.append_cancel_left hlist

variable {c : Int} {m : String} {history : List Recorded}

/-- Calls on other pairs leave the entry alone. -/
theorem healthOf_append_singleton (hc : 0 < c) (hm : m ≠ "") (r : Recorded) :
    (healthOf c m (history ++ [r]) : ChannelHealth F) =
      if r.channelID = c ∧ r.model = m then r.call.update r.now (healthOf c m history)
      else healthOf c m history := by
  unfold healthOf
  rw [List.foldl_append, List.foldl_cons, List.foldl_nil, record]
  split
  next hinvalid =>
    rw [if_neg]
    rintro ⟨rfl, rfl⟩
    rcases hinvalid with hle | hempty
    · omega
    · exact hm hempty
  next hvalid =>
    split
    next hpair =>
      obtain ⟨rfl, rfl⟩ := hpair
      exact Function.update_self _ _ _
    next hother =>
      apply Function.update_of_ne
      intro hkey
      obtain ⟨rfl, rfl⟩ := channelHealthKey_injective hkey
      exact hother ⟨rfl, rfl⟩

end Cache

section Histories

/-- `P` holds of every call of a history, with the calls before it. -/
def Along (P : List Recorded → Recorded → Prop) (history : List Recorded) : Prop :=
  ∀ before r after, history = before ++ r :: after → P before r

variable {P : List Recorded → Recorded → Prop} {history : List Recorded}

theorem Along.before {before after : List Recorded} {r : Recorded}
    (h : Along P (before ++ r :: after)) : Along P before := by
  intro first s rest hsplit
  exact h first s (rest ++ r :: after) (by rw [hsplit]; simp)

theorem Along.last {before : List Recorded} {r : Recorded} (h : Along P (before ++ [r])) :
    P before r := h before r [] rfl

/-- A history is checked call by call. -/
theorem along_of_get (h : ∀ i (hi : i < history.length),
    P (history.take i) (history.get ⟨i, hi⟩)) : Along P history := by
  intro before r after hsplit
  subst hsplit
  have hlt : before.length < (before ++ r :: after).length := by simp
  have hat := h before.length hlt
  simp only [List.get_eq_getElem, List.getElem_append_right (le_refl _), Nat.sub_self,
    List.getElem_cons_zero, List.take_left] at hat
  exact hat

end Histories

end CodeGo.Gateway.Circuit
