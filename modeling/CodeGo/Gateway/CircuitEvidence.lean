import CodeGo.Gateway.CircuitRecovery
import Mathlib.Data.List.Dedup

/-!
# Evidence that opens a circuit

The requests behind the failures that open the circuit of a model that is unavailable.
Only the last request is remembered, so what is counted are changes of the request.
-/

namespace CodeGo.Gateway.CircuitEvidence

open Circuit CircuitRecovery

variable {F : Type} [Float64 F]

/-- The entry of a pair, and the requests of the failures since the last success or opening. -/
structure Evidence (F : Type) [Float64 F] where
  health : ChannelHealth F := {}
  requests : List String := []

/-- The failure opens the circuit. -/
def Opens (h : ChannelHealth F) (now : Int) (requestID : String) : Prop :=
  h.coolingUntil ≤ now ∧ now < (modelUnavailable now requestID h).1.coolingUntil

instance (h : ChannelHealth F) (now : Int) (requestID : String) : Decidable (Opens h now requestID) :=
  inferInstanceAs (Decidable (_ ∧ _))

def Evidence.step (e : Evidence F) (now : Int) (call : Call) : Evidence F where
  health := call.update now e.health
  requests := match call with
    | .modelUnavailable requestID =>
      if Opens e.health now requestID then [] else requestID :: e.requests
    | _ => []

/-- The evidence about a pair over a history of calls. -/
def evidence (c : Int) (m : String) (history : List Recorded) : Evidence F :=
  history.foldl (fun e r => if r.channelID = c ∧ r.model = m then e.step r.now r.call else e) {}

/-- How many requests the failures come from. -/
def distinct (requests : List String) : Nat := requests.dedup.length

/-- The calls that the rule of independent evidence is about. -/
def EvidenceCall : Call → Prop
  | .modelUnavailable _ => True
  | .success _ => True
  | _ => False

/-- A failure that is counted starts from a count that the last opening or success left at zero,
and its request is the one counted last or one that did not fail since. -/
def Independent (e : Evidence F) (now : Int) : Call → Prop
  | .modelUnavailable requestID => now < e.health.coolingUntil ∨
      (e.health.state = .cooling → e.health.consecutiveRetryableFailures = 0) ∧
        (requestID ∉ e.requests ∨ requestID ≠ "" ∧ e.health.lastFailureRequestID = requestID)
  | _ => True

/-- Outside a cooldown the count is no more than the requests that failed. -/
def Backed (e : Evidence F) : Prop :=
  e.health.state ≠ .cooling → e.health.consecutiveRetryableFailures ≤ distinct e.requests

theorem distinct_cons_le (requestID : String) (requests : List String) :
    distinct requests ≤ distinct (requestID :: requests) := by
  unfold distinct
  by_cases hmem : requestID ∈ requests
  · rw [List.dedup_cons_of_mem hmem]
  · rw [List.dedup_cons_of_notMem hmem, List.length_cons]
    omega

theorem distinct_cons_new {requestID : String} {requests : List String} (h : requestID ∉ requests) :
    distinct (requestID :: requests) = distinct requests + 1 := by
  unfold distinct
  rw [List.dedup_cons_of_notMem h, List.length_cons]

variable {e : Evidence F} {now : Int} {call : Call} {requestID : String}

/-- What is counted on independent evidence comes from as many requests. -/
theorem Backed.counted (h : Backed e) (hnew : Independent e now (.modelUnavailable requestID))
    (hclosed : e.health.coolingUntil ≤ now)
    (hfresh : ¬ (requestID ≠ "" ∧ e.health.lastFailureRequestID = requestID)) :
    e.health.consecutiveRetryableFailures + 1 ≤ distinct (requestID :: e.requests) := by
  rcases hnew with hopen | ⟨hzero, hrequest⟩
  · omega
  have hcount : e.health.consecutiveRetryableFailures ≤ distinct e.requests := by
    by_cases hcooling : e.health.state = .cooling
    · have := hzero hcooling
      omega
    · exact h hcooling
  rw [distinct_cons_new (hrequest.resolve_right hfresh)]
  omega

theorem Backed.step (h : Backed e) (hcall : EvidenceCall call) (hnew : Independent e now call) :
    Backed (e.step now call) := by
  cases call with
  | upstreamFailure => exact hcall.elim
  | retryableFailure shortCooldown => exact hcall.elim
  | success ttft =>
    intro hstate
    show (success now ttft e.health).consecutiveRetryableFailures ≤ distinct []
    replace hstate : (success now ttft e.health).state ≠ .cooling := hstate
    cases success_effect now ttft e.health with
    | slow hslow hcooling => exact absurd hcooling hstate
    | probed hfast hbefore hclosed hfirst hcooling => exact absurd hcooling hstate
    | closed hfast hcase hhealthy hcooling hfailures => rw [hfailures]; exact Nat.zero_le _
  | modelUnavailable requestID =>
    intro hstate
    replace hstate : (modelUnavailable now requestID e.health).1.state ≠ .cooling := hstate
    show (modelUnavailable now requestID e.health).1.consecutiveRetryableFailures ≤
      distinct (if Opens e.health now requestID then [] else requestID :: e.requests)
    have heffect := modelUnavailable_effect now requestID e.health
    have hnot : ¬ Opens e.health now requestID := by
      rintro ⟨hclosed, hopened⟩
      cases heffect with
      | isOpen hopen => omega
      | repeated hclosed hlast hsame => rw [hsame.coolingUntil] at hopened; omega
      | counted hclosed hnew hlow hdegraded hcooling => rw [hcooling] at hopened; omega
      | opened hclosed hnew hhigh hcooling => exact hstate hcooling
    rw [if_neg hnot]
    cases heffect with
    | isOpen hopen hsame =>
      rw [hsame.state] at hstate
      rw [hsame.failures]
      exact (h hstate).trans (distinct_cons_le requestID e.requests)
    | repeated hclosed hlast hsame =>
      rw [hsame.state] at hstate
      rw [hsame.failures]
      exact (h hstate).trans (distinct_cons_le requestID e.requests)
    | counted hclosed hfresh hlow hdegraded hcooling hfailures =>
      rw [hfailures]
      exact h.counted hnew hclosed hfresh
    | opened hclosed hfresh hhigh hcooling => exact absurd hcooling hstate

/-- The failures that open the circuit come from as many requests as the threshold asks for. -/
theorem Backed.opens (h : Backed e) (hnew : Independent e now (.modelUnavailable requestID))
    (hopens : Opens e.health now requestID) :
    channelHealthFailureThreshold ≤ distinct (requestID :: e.requests) := by
  obtain ⟨hclosed, hopened⟩ := hopens
  cases modelUnavailable_effect now requestID e.health with
  | isOpen hopen => omega
  | repeated hclosed hlast hsame => rw [hsame.coolingUntil] at hopened; omega
  | counted hclosed hfresh hlow hdegraded hcooling => rw [hcooling] at hopened; omega
  | opened hclosed hfresh hhigh => exact hhigh.trans (h.counted hnew hclosed hfresh)

section Histories

variable {c : Int} {m : String} {history : List Recorded}

/-- The calls on the pair are of the two kinds, and every failure is independent. -/
def IndependentHistory (F : Type) [Float64 F] (c : Int) (m : String) : List Recorded → Prop :=
  Along fun before r => r.channelID = c → r.model = m →
    EvidenceCall r.call ∧ Independent (evidence c m before : Evidence F) r.now r.call

theorem evidence_append_singleton (c : Int) (m : String) (history : List Recorded) (r : Recorded) :
    (evidence c m (history ++ [r]) : Evidence F) =
      if r.channelID = c ∧ r.model = m then (evidence c m history).step r.now r.call
      else evidence c m history := by
  unfold evidence
  rw [List.foldl_append]
  rfl

/-- The entry beside the evidence is the one in the cache. -/
theorem evidence_health (hc : 0 < c) (hm : m ≠ "") (history : List Recorded) :
    (evidence c m history : Evidence F).health = healthOf c m history := by
  induction history using List.reverseRecOn with
  | nil => rfl
  | append_singleton before r ih =>
    rw [evidence_append_singleton, healthOf_append_singleton hc hm]
    split
    · rw [← ih]
      rfl
    · exact ih

theorem IndependentHistory.backed (h : IndependentHistory F c m history) :
    Backed (evidence c m history : Evidence F) := by
  induction history using List.reverseRecOn with
  | nil => exact fun _ => Nat.zero_le _
  | append_singleton before r ih =>
    rw [evidence_append_singleton]
    split
    next hpair =>
      obtain ⟨hcall, hnew⟩ := h.last hpair.1 hpair.2
      exact (ih h.before).step hcall hnew
    next => exact ih h.before

/-- Over a history of independent failures, a circuit opens only on failures of as many requests
as the threshold asks for. -/
theorem circuit_evidence (hc : 0 < c) (hm : m ≠ "") (h : IndependentHistory F c m history) :
    ∀ before r after requestID, history = before ++ r :: after → r.channelID = c → r.model = m →
      r.call = .modelUnavailable requestID →
      Opens (healthOf c m before : ChannelHealth F) r.now requestID →
      channelHealthFailureThreshold ≤
        distinct (requestID :: (evidence c m before : Evidence F).requests) := by
  intro before r after requestID hsplit hr hr' hcall hopens
  subst hsplit
  have hbacked : Backed (evidence c m before : Evidence F) := IndependentHistory.backed h.before
  obtain ⟨-, hnew⟩ := h before r after rfl hr hr'
  rw [hcall] at hnew
  rw [← evidence_health hc hm] at hopens
  exact hbacked.opens hnew hopens

end Histories

instance (e : Evidence F) (now : Int) : (call : Call) → Decidable (Independent e now call)
  | .modelUnavailable requestID => inferInstanceAs (Decidable (now < e.health.coolingUntil ∨
      (e.health.state = .cooling → e.health.consecutiveRetryableFailures = 0) ∧
        (requestID ∉ e.requests ∨ requestID ≠ "" ∧ e.health.lastFailureRequestID = requestID)))
  | .upstreamFailure => .isTrue trivial
  | .retryableFailure _ => .isTrue trivial
  | .success _ => .isTrue trivial

instance : (call : Call) → Decidable (EvidenceCall call)
  | .modelUnavailable _ => .isTrue trivial
  | .upstreamFailure => .isFalse id
  | .retryableFailure _ => .isFalse id
  | .success _ => .isTrue trivial

def failureAt (s : Int) (requestID : String) : Recorded :=
  callAt s (.modelUnavailable requestID)

/-- Five requests fail, the first of them twice. -/
def independentFailures : List Recorded :=
  [failureAt 1 "a", failureAt 2 "a", failureAt 3 "b", failureAt 4 "c", failureAt 5 "d",
    failureAt 6 "e"]

/-- Two requests fail in turns. -/
def alternating : List Recorded :=
  [failureAt 1 "a", failureAt 2 "b", failureAt 3 "a", failureAt 4 "b"]

theorem circuit_evidence_sample :
    channelHealthFailureThreshold ≤
      distinct ("e" :: (evidence 1 "m" (independentFailures.take 5) : Evidence ℚ).requests) :=
  circuit_evidence (by decide) (by decide) (along_of_get (by decide))
    (independentFailures.take 5) (failureAt 6 "e") [] "e" rfl rfl rfl rfl (by decide)

/-- The retries of two requests open the circuit. -/
theorem opened_by_two_requests :
    ¬ (∀ (c : Int) (m : String) (history : List Recorded), 0 < c → m ≠ "" →
      (∀ r ∈ history, EvidenceCall r.call) →
      ∀ before r after requestID, history = before ++ r :: after → r.channelID = c → r.model = m →
        r.call = .modelUnavailable requestID →
        Opens (healthOf c m before : ChannelHealth ℚ) r.now requestID →
        channelHealthFailureThreshold ≤
          distinct (requestID :: (evidence c m before : Evidence ℚ).requests)) := by
  intro h
  have hfive := h 1 "m" (alternating ++ [failureAt 5 "a"]) (by decide) (by decide) (by decide)
    alternating _ [] "a" rfl rfl rfl rfl (by decide)
  exact absurd hfive (by decide)

end CodeGo.Gateway.CircuitEvidence
