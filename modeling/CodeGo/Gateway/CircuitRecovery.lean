import CodeGo.Gateway.Circuit

/-!
# Recovery of a circuit

How a circuit closes over a history of calls: by the second success after the cooldown,
if no failure and no success slips in where the code forgets to start over.
-/

namespace CodeGo.Gateway.CircuitRecovery

open Circuit

variable {F : Type} [Float64 F]

/-- The part of an entry that decides whether the circuit is open. -/
structure SameCircuit (h h' : ChannelHealth F) : Prop where
  state : h'.state = h.state
  failures : h'.consecutiveRetryableFailures = h.consecutiveRetryableFailures
  probes : h'.recoveryProbeSuccesses = h.recoveryProbeSuccesses
  coolingUntil : h'.coolingUntil = h.coolingUntil
  lastRequest : h'.lastFailureRequestID = h.lastFailureRequestID

/-- The windows are on record beside the circuit. -/
theorem same_recordChannelHealthWindow (now : Int) (ok : Bool) (h : ChannelHealth F) :
    SameCircuit h (recordChannelHealthWindow now ok h) := ⟨rfl, rfl, rfl, rfl, rfl⟩

theorem same_recordSuccess (now ttft : Int) (h : ChannelHealth F) :
    SameCircuit h (recordSuccess now ttft h) := by
  unfold recordSuccess
  dsimp only
  split
  · unfold recordChannelTTFT
    split
    · exact same_recordChannelHealthWindow now true h
    · exact ⟨rfl, rfl, rfl, rfl, rfl⟩
  · exact same_recordChannelHealthWindow now true h

section Effects

variable {now : Int} {h : ChannelHealth F}

/-- What `RecordChannelModelUnavailable` does to a circuit. -/
inductive Unavailable (now : Int) (requestID : String) (h h' : ChannelHealth F) : Prop
  | isOpen (hopen : now < h.coolingUntil) (hsame : SameCircuit h h')
  | repeated (hclosed : h.coolingUntil ≤ now)
      (hlast : requestID ≠ "" ∧ h.lastFailureRequestID = requestID) (hsame : SameCircuit h h')
  | counted (hclosed : h.coolingUntil ≤ now)
      (hnew : ¬ (requestID ≠ "" ∧ h.lastFailureRequestID = requestID))
      (hlow : h.consecutiveRetryableFailures + 1 < channelHealthFailureThreshold)
      (hstate : h'.state = .degraded) (hcooling : h'.coolingUntil = h.coolingUntil)
      (hfailures : h'.consecutiveRetryableFailures = h.consecutiveRetryableFailures + 1)
      (hprobes : h'.recoveryProbeSuccesses = 0) (hid : h'.lastFailureRequestID = requestID)
  | opened (hclosed : h.coolingUntil ≤ now)
      (hnew : ¬ (requestID ≠ "" ∧ h.lastFailureRequestID = requestID))
      (hhigh : channelHealthFailureThreshold ≤ h.consecutiveRetryableFailures + 1)
      (hstate : h'.state = .cooling) (hcooling : h'.coolingUntil = now + channelModelUnavailableTTL)
      (hprobes : h'.recoveryProbeSuccesses = 0) (hid : h'.lastFailureRequestID = requestID)

theorem modelUnavailable_effect (now : Int) (requestID : String) (h : ChannelHealth F) :
    Unavailable now requestID h (modelUnavailable now requestID h).1 := by
  have hsame := same_recordChannelHealthWindow now false h
  unfold modelUnavailable
  dsimp only
  rw [hsame.coolingUntil, hsame.lastRequest]
  split
  next hopen => exact .isOpen hopen hsame
  next hclosed =>
  split
  next hlast => exact .repeated (not_lt.1 hclosed) hlast hsame
  next hnew =>
  split
  next hhigh => exact .opened (not_lt.1 hclosed) hnew hhigh rfl rfl rfl rfl
  next hlow => exact .counted (not_lt.1 hclosed) hnew (not_le.1 hlow) rfl rfl rfl rfl rfl

/-- What a retryable failure does to a circuit. -/
inductive Retryable (now : Int) (h h' : ChannelHealth F) : Prop
  | opened (hlong : opensLong (countFailure now h) = true) (hstate : h'.state = .cooling)
      (hcooling : h'.coolingUntil = now + channelHealthCooldownDuration)
      (hprobes : h'.recoveryProbeSuccesses = h.recoveryProbeSuccesses)
  | isOpen (hopen : now < h.coolingUntil) (hstate : h'.state = h.state)
      (hcooling : h'.coolingUntil = h.coolingUntil)
      (hprobes : h'.recoveryProbeSuccesses = h.recoveryProbeSuccesses)
  | cooled (hclosed : h.coolingUntil ≤ now) (hstate : h'.state = .cooling)
      (hcooling : now < h'.coolingUntil)
      (hprobes : h'.recoveryProbeSuccesses = h.recoveryProbeSuccesses)

theorem retryableFailure_effect (now shortCooldown : Int) (h : ChannelHealth F) :
    Retryable now h (retryableFailure now shortCooldown h) := by
  have hcooling : (countFailure now h).coolingUntil = h.coolingUntil := rfl
  unfold retryableFailure
  dsimp only
  rw [hcooling]
  split
  next hlong => exact .opened hlong rfl rfl rfl
  next =>
  split
  next hopen => exact .isOpen hopen rfl rfl rfl
  next hclosed =>
    refine .cooled (not_lt.1 hclosed) rfl ?_ rfl
    simp only [channelHealthShortCooldown, seconds]
    split <;> omega

/-- What a success does to a circuit. -/
inductive Succeeded (now ttft : Int) (h h' : ChannelHealth F) : Prop
  | slow (hslow : isSlowChannelTTFT (recordSuccess now ttft h) = true) (hstate : h'.state = .cooling)
      (hcooling : h'.coolingUntil = now + channelHealthShortCooldown)
      (hfailures : h'.consecutiveRetryableFailures = h.consecutiveRetryableFailures)
      (hprobes : h'.recoveryProbeSuccesses = 0)
  | probed (hfast : isSlowChannelTTFT (recordSuccess now ttft h) = false)
      (hbefore : h.state = .cooling) (hclosed : h.coolingUntil ≤ now)
      (hfirst : h.recoveryProbeSuccesses = 0) (hstate : h'.state = .cooling)
      (hcooling : h'.coolingUntil = h.coolingUntil)
      (hprobes : h'.recoveryProbeSuccesses = 1)
  | closed (hfast : isSlowChannelTTFT (recordSuccess now ttft h) = false)
      (hcase : h.state = .cooling → h.coolingUntil ≤ now → 1 ≤ h.recoveryProbeSuccesses)
      (hstate : h'.state = .healthy) (hcooling : h'.coolingUntil = 0)
      (hfailures : h'.consecutiveRetryableFailures = 0) (hprobes : h'.recoveryProbeSuccesses = 0)

theorem success_effect (now ttft : Int) (h : ChannelHealth F) :
    Succeeded now ttft h (success now ttft h) := by
  have hsame := same_recordSuccess now ttft h
  unfold success
  dsimp only
  rw [hsame.state, hsame.coolingUntil, hsame.probes]
  split
  next hslow => exact .slow hslow rfl rfl hsame.failures rfl
  next hfast =>
  rw [Bool.not_eq_true] at hfast
  split
  next hcooling =>
    split
    next hfirst =>
      exact .probed hfast hcooling.1 (not_lt.1 hcooling.2) (by omega) hcooling.1 rfl
        (by dsimp only; omega)
    next hsecond => exact .closed hfast (fun _ _ => by omega) rfl rfl rfl rfl
  next hother =>
    refine .closed hfast (fun hstate hclosed => ?_) rfl rfl rfl rfl
    exact absurd ⟨hstate, not_lt.2 hclosed⟩ hother

end Effects

section Recovery

/-- The successes at or after the end of the cooldown since the last failure or opening, with the
entry they were recorded in. -/
structure Tally (F : Type) [Float64 F] where
  health : ChannelHealth F := {}
  probes : Nat := 0

def Tally.step (t : Tally F) (now : Int) (call : Call) : Tally F where
  health := call.update now t.health
  probes := match call with
    | .success ttft =>
      if isSlowChannelTTFT (recordSuccess now ttft t.health) then 0
      else if t.health.coolingUntil ≤ now then t.probes + 1
      else t.probes
    | _ => 0

/-- The tally of a pair over a history of calls. -/
def tally (c : Int) (m : String) (history : List Recorded) : Tally F :=
  history.foldl (fun t r => if r.channelID = c ∧ r.model = m then t.step r.now r.call else t) {}

/-- The circuit opens and closes as the rule of recovery says. -/
structure Recovers (t : Tally F) (now : Int) (call : Call) : Prop where
  closes : t.health.state = .cooling → (t.step now call).health.state = .healthy →
    ¬ call.IsFailure ∧ t.health.coolingUntil ≤ now ∧ (t.step now call).probes = 2
  staysOpen : ¬ call.IsFailure → now < t.health.coolingUntil →
    (t.step now call).health.state = .cooling ∧
      t.health.coolingUntil ≤ (t.step now call).health.coolingUntil
  notShortened : call.IsFailure → now < t.health.coolingUntil →
    t.health.coolingUntil ≤ (t.step now call).health.coolingUntil

/-- No success is recorded before the end of the cooldown, unless its first token is slow; no
failure leaves a probe counted; and no cooldown that is shorter than what is left is set. -/
def Careful (h : ChannelHealth F) (now : Int) : Call → Prop
  | .success ttft => h.coolingUntil ≤ now ∨
      isSlowChannelTTFT (recordSuccess now ttft h) = true ∧
        h.coolingUntil ≤ now + channelHealthShortCooldown
  | .modelUnavailable requestID => h.recoveryProbeSuccesses = 0 ∨
      h.coolingUntil ≤ now ∧ (requestID = "" ∨ h.lastFailureRequestID ≠ requestID)
  | .upstreamFailure => h.coolingUntil ≤ now + channelModelUpstreamFailureTTL
  | .retryableFailure _ => h.recoveryProbeSuccesses = 0 ∧
      (opensLong (countFailure now h) = true → h.coolingUntil ≤ now + channelHealthCooldownDuration)

/-- The count of the entry is the tally, as long as the circuit is cooling. -/
structure Counted (t : Tally F) : Prop where
  cooling : t.health.state = .cooling → t.health.recoveryProbeSuccesses = t.probes
  others : t.health.state ≠ .cooling → t.health.recoveryProbeSuccesses = 0
  bound : t.health.recoveryProbeSuccesses ≤ 1

variable {t : Tally F} {now : Int} {call : Call}

/-- A careful call keeps the count. -/
theorem Counted.step (h : Counted t) (hcare : Careful t.health now call) :
    Counted (t.step now call) := by
  cases call with
  | modelUnavailable requestID =>
    have heffect := modelUnavailable_effect now requestID t.health
    unfold Tally.step Call.update
    dsimp only
    cases heffect with
    | isOpen hopen hsame =>
      have hzero : t.health.recoveryProbeSuccesses = 0 := by
        rcases hcare with hzero | ⟨hclosed, -⟩
        · exact hzero
        · omega
      exact ⟨fun _ => by rw [hsame.probes, hzero], fun _ => by rw [hsame.probes, hzero],
        by rw [hsame.probes]; exact h.bound⟩
    | repeated hclosed hlast hsame =>
      have hzero : t.health.recoveryProbeSuccesses = 0 := by
        rcases hcare with hzero | ⟨-, hempty | hne⟩
        · exact hzero
        · exact absurd hempty hlast.1
        · exact absurd hlast.2 hne
      exact ⟨fun _ => by rw [hsame.probes, hzero], fun _ => by rw [hsame.probes, hzero],
        by rw [hsame.probes]; exact h.bound⟩
    | counted hclosed hnew hlow hstate hcooling hfailures hprobes hid =>
      exact ⟨fun _ => hprobes, fun _ => hprobes, by rw [hprobes]; omega⟩
    | opened hclosed hnew hhigh hstate hcooling hprobes hid =>
      exact ⟨fun _ => hprobes, fun _ => hprobes, by rw [hprobes]; omega⟩
  | upstreamFailure => exact ⟨fun _ => rfl, fun _ => rfl, Nat.zero_le 1⟩
  | retryableFailure shortCooldown =>
    have hzero : (retryableFailure now shortCooldown t.health).recoveryProbeSuccesses = 0 := by
      obtain ⟨hzero, -⟩ := hcare
      cases retryableFailure_effect now shortCooldown t.health with
      | opened hlong hstate hcooling hprobes => rw [hprobes, hzero]
      | isOpen hopen hstate hcooling hprobes => rw [hprobes, hzero]
      | cooled hclosed hstate hcooling hprobes => rw [hprobes, hzero]
    exact ⟨fun _ => hzero, fun _ => hzero, by
      show (retryableFailure now shortCooldown t.health).recoveryProbeSuccesses ≤ 1
      omega⟩
  | success ttft =>
    unfold Tally.step Call.update
    dsimp only
    cases success_effect now ttft t.health with
    | slow hslow hstate hcooling hfailures hprobes =>
      rw [if_pos hslow]
      exact ⟨fun _ => hprobes, fun _ => hprobes, by rw [hprobes]; omega⟩
    | probed hfast hbefore hclosed hfirst hstate hcooling hprobes =>
      have hcount := h.cooling hbefore
      rw [hfast, if_neg Bool.false_ne_true, if_pos hclosed]
      exact ⟨fun _ => by rw [hprobes]; dsimp only; omega, fun hne => absurd hstate hne, by rw [hprobes]⟩
    | closed hfast hcase hstate hcooling hfailures hprobes =>
      refine ⟨fun hcooling' => ?_, fun _ => hprobes, by rw [hprobes]; omega⟩
      rw [hstate] at hcooling'
      cases hcooling'

/-- A careful call obeys the rule of recovery. -/
theorem Counted.recovers (h : Counted t) (hcare : Careful t.health now call) :
    Recovers t now call := by
  cases call with
  | modelUnavailable requestID =>
    have heffect := modelUnavailable_effect now requestID t.health
    constructor
    case closes =>
      intro hbefore hafter
      replace hafter : (modelUnavailable now requestID t.health).1.state = .healthy := hafter
      cases heffect with
      | isOpen hopen hsame => rw [hsame.state, hbefore] at hafter; cases hafter
      | repeated hclosed hlast hsame => rw [hsame.state, hbefore] at hafter; cases hafter
      | counted hclosed hnew hlow hstate => rw [hstate] at hafter; cases hafter
      | opened hclosed hnew hhigh hstate => rw [hstate] at hafter; cases hafter
    case staysOpen => exact fun hsuccess => absurd trivial hsuccess
    case notShortened =>
      intro _ hopen
      show _ ≤ (modelUnavailable now requestID t.health).1.coolingUntil
      cases heffect with
      | isOpen hopen hsame => rw [hsame.coolingUntil]
      | repeated hclosed hlast hsame => rw [hsame.coolingUntil]
      | counted hclosed hnew hlow hstate hcooling => rw [hcooling]
      | opened hclosed => omega
  | upstreamFailure =>
    constructor
    case closes => exact fun _ hafter => nomatch hafter
    case staysOpen => exact fun hsuccess => absurd trivial hsuccess
    case notShortened => exact fun _ _ => hcare
  | retryableFailure shortCooldown =>
    have heffect := retryableFailure_effect now shortCooldown t.health
    constructor
    case closes =>
      intro hbefore hafter
      replace hafter : (retryableFailure now shortCooldown t.health).state = .healthy := hafter
      cases heffect with
      | opened hlong hstate => rw [hstate] at hafter; cases hafter
      | isOpen hopen hstate => rw [hstate, hbefore] at hafter; cases hafter
      | cooled hclosed hstate => rw [hstate] at hafter; cases hafter
    case staysOpen => exact fun hsuccess => absurd trivial hsuccess
    case notShortened =>
      intro _ hopen
      show _ ≤ (retryableFailure now shortCooldown t.health).coolingUntil
      cases heffect with
      | opened hlong hstate hcooling => rw [hcooling]; exact hcare.2 hlong
      | isOpen hopen hstate hcooling => rw [hcooling]
      | cooled hclosed => omega
  | success ttft =>
    have heffect := success_effect now ttft t.health
    constructor
    case closes =>
      intro hbefore hafter
      replace hafter : (success now ttft t.health).state = .healthy := hafter
      cases heffect with
      | slow hslow hstate => rw [hstate] at hafter; cases hafter
      | probed hfast hbefore hclosed hfirst hstate => rw [hstate] at hafter; cases hafter
      | closed hfast hcase =>
        have hclosed : t.health.coolingUntil ≤ now := by
          rcases hcare with hclosed | ⟨hslow, -⟩
          · exact hclosed
          · rw [hfast] at hslow
            cases hslow
        have hsecond := hcase hbefore hclosed
        have hcount := h.cooling hbefore
        have hbound := h.bound
        refine ⟨fun hfailure => hfailure, hclosed, ?_⟩
        unfold Tally.step
        dsimp only
        rw [hfast, if_neg Bool.false_ne_true, if_pos hclosed]
        omega
    case staysOpen =>
      intro _ hopen
      show (success now ttft t.health).state = .cooling ∧
        _ ≤ (success now ttft t.health).coolingUntil
      rcases hcare with hclosed | ⟨hslow, hle⟩
      · omega
      · cases heffect with
        | slow hslow hstate hcooling => exact ⟨hstate, by rw [hcooling]; exact hle⟩
        | probed hfast => rw [hfast] at hslow; cases hslow
        | closed hfast => rw [hfast] at hslow; cases hslow
    case notShortened => exact fun hfailure => hfailure.elim

variable {c : Int} {m : String} {history : List Recorded}

/-- Every call on the pair is careful. -/
def CarefulHistory (F : Type) [Float64 F] (c : Int) (m : String) : List Recorded → Prop :=
  Along fun before r => r.channelID = c → r.model = m →
    Careful (healthOf c m before : ChannelHealth F) r.now r.call

theorem tally_append_singleton (c : Int) (m : String) (history : List Recorded) (r : Recorded) :
    (tally c m (history ++ [r]) : Tally F) =
      if r.channelID = c ∧ r.model = m then (tally c m history).step r.now r.call
      else tally c m history := by
  unfold tally
  rw [List.foldl_append]
  rfl

theorem tally_health (hc : 0 < c) (hm : m ≠ "") (history : List Recorded) :
    (tally c m history : Tally F).health = healthOf c m history := by
  induction history using List.reverseRecOn with
  | nil => rfl
  | append_singleton before r ih =>
    rw [tally_append_singleton, healthOf_append_singleton hc hm]
    split
    · rw [← ih]
      rfl
    · exact ih

theorem CarefulHistory.counted (hc : 0 < c) (hm : m ≠ "") (h : CarefulHistory F c m history) :
    Counted (tally c m history : Tally F) := by
  induction history using List.reverseRecOn with
  | nil => exact ⟨(fun hcooling => nomatch hcooling), fun _ => rfl, Nat.zero_le 1⟩
  | append_singleton before r ih =>
    rw [tally_append_singleton]
    split
    next hpair =>
      apply (ih h.before).step
      rw [tally_health hc hm]
      exact h.last hpair.1 hpair.2
    next => exact ih h.before

/-- Over a careful history, a circuit closes at the second success after its cooldown and no
sooner, and nothing shortens a cooldown that is left. -/
theorem circuit_recovery (hc : 0 < c) (hm : m ≠ "") (h : CarefulHistory F c m history) :
    ∀ before r after, history = before ++ r :: after → r.channelID = c → r.model = m →
      Recovers (tally c m before : Tally F) r.now r.call := by
  intro before r after hsplit hr hr'
  subst hsplit
  have hcounted : Counted (tally c m before : Tally F) := CarefulHistory.counted hc hm h.before
  apply hcounted.recovers
  rw [tally_health hc hm]
  exact h before r after rfl hr hr'

end Recovery

instance (h : ChannelHealth F) (now : Int) : (call : Call) → Decidable (Careful h now call)
  | .success ttft => inferInstanceAs (Decidable (h.coolingUntil ≤ now ∨
      isSlowChannelTTFT (recordSuccess now ttft h) = true ∧
        h.coolingUntil ≤ now + channelHealthShortCooldown))
  | .modelUnavailable requestID => inferInstanceAs (Decidable (h.recoveryProbeSuccesses = 0 ∨
      h.coolingUntil ≤ now ∧ (requestID = "" ∨ h.lastFailureRequestID ≠ requestID)))
  | .upstreamFailure =>
      inferInstanceAs (Decidable (h.coolingUntil ≤ now + channelModelUpstreamFailureTTL))
  | .retryableFailure _ => inferInstanceAs (Decidable (h.recoveryProbeSuccesses = 0 ∧
      (opensLong (countFailure now h) = true → h.coolingUntil ≤ now + channelHealthCooldownDuration)))

/-- A call on the model `m` of channel 1, so many seconds after the zero time. -/
def callAt (s : Int) (call : Call) : Recorded := ⟨seconds s, 1, "m", call⟩

/-- A failure, and two successes after its cooldown. -/
def recovered : List Recorded :=
  [callAt 100 (.retryableFailure 0), callAt 120 (.success 0), callAt 121 (.success 0)]

/-- A failure between the two successes. -/
def interrupted : List Recorded :=
  [callAt 100 (.retryableFailure 0), callAt 120 (.success 0), callAt 121 (.retryableFailure 0)]

theorem circuit_recovery_sample :
    Recovers (tally 1 "m" (recovered.take 2) : Tally ℚ) (seconds 121) (.success 0) :=
  circuit_recovery (by decide) (by decide) (along_of_get (by decide))
    (recovered.take 2) (callAt 121 (.success 0)) [] rfl rfl rfl

/-- One success closes a circuit that was opened again after a success. -/
theorem closed_by_one_success :
    ¬ (∀ (c : Int) (m : String) (history : List Recorded), 0 < c → m ≠ "" →
      history.Pairwise (fun r r' => r.now ≤ r'.now) →
      ∀ before r after, history = before ++ r :: after → r.channelID = c → r.model = m →
        Recovers (tally c m before : Tally ℚ) r.now r.call) := by
  intro h
  have hlast := h 1 "m" (interrupted ++ [callAt 140 (.success 0)]) (by decide) (by decide)
    (by decide) interrupted _ [] rfl rfl rfl
  have hclosed := hlast.closes (by decide) (by decide)
  have hone : ((tally 1 "m" interrupted : Tally ℚ).step (seconds 140) (.success 0)).probes = 1 := by
    decide
  exact absurd (hone.symm.trans hclosed.2.2) (by decide)

end CodeGo.Gateway.CircuitRecovery
