import CodeGo.Billing.SessionLog
import CodeGo.Gateway.GroupCoverage

/-!
# How a relay request leaves its billing

Every way out of the entry point, with the billing behind it. The session of a request is settled
by the handler that succeeds and refunded by the deferred cleanup; the record of the calls tells
what is still held when the accounts refuse one of them.
-/

namespace CodeGo.Gateway.RelayRequest

open Lib.Prog Billing.Session Types.ApiError
open Circuit hiding Call

variable {σ ℓ : Type} {cfg : Config} {a : Accounts σ ℓ} {info : RelayInfo}

section Billing

variable {b : RelayBilling σ}

/-- Between two steps of the loop: no call was made, or a session runs. -/
def Unspent (info : RelayInfo) (b : RelayBilling σ) : Prop :=
  b.refunds = 0 ∧ match b.billing with
    | none => b.calls = []
    | some s => Running info s b.calls

/-- After a step that failed: nothing is held, or a session runs. -/
def Refundable (info : RelayInfo) (b : RelayBilling σ) : Prop :=
  b.refunds = 0 ∧ match b.billing with
    | none => Books info 0 false b.calls
    | some s => Running info s b.calls

theorem Unspent.refundable (h : Unspent info b) : Refundable info b := by
  obtain ⟨hrefunds, h⟩ := h
  refine ⟨hrefunds, ?_⟩
  cases hbilling : b.billing with
  | none =>
    rw [hbilling] at h
    have h : b.calls = [] := h
    show Books info 0 false b.calls
    rw [h]
    exact books_nil
  | some s =>
    rw [hbilling] at h
    exact h

/-- A pre-consumption keeps or opens a session, or fails. -/
theorem preConsumeRelayBilling_unspent (a : Accounts σ ℓ) (claude : Bool) (quota : Int)
    (h : Unspent info b) :
    ((preConsumeRelayBilling a info claude quota b).1 = none →
        Unspent info (preConsumeRelayBilling a info claude quota b).2) ∧
      Refundable info (preConsumeRelayBilling a info claude quota b).2 := by
  obtain ⟨hrefunds, h⟩ := h
  unfold preConsumeRelayBilling
  cases hbilling : b.billing with
  | some s =>
    rw [hbilling] at h
    have hreserve : Post (reserve a info quota) (b.live s) _ := post_reserve h
    have hreserve := hreserve.2
    exact ⟨fun _ => ⟨hrefunds, hreserve⟩, ⟨hrefunds, hreserve⟩⟩
  | none =>
    rw [hbilling] at h
    have hcalls : b.calls = [] := h
    have hstart : Books info 0 false (b.live { funding := .wallet }).calls := by
      show Books info 0 false b.calls
      rw [hcalls]
      exact books_nil
    have hnew : Post (newBillingSession a info claude quota) _ _ := 
      post_newBillingSession hstart (Int.min_le_right quota 0) (Int.min_le_left quota 0)
    unfold Post at hnew
    dsimp only
    generalize (newBillingSession a info claude quota).run (b.live { funding := .wallet }) = r at hnew
    obtain ⟨e | _ | apiErr, t⟩ := r
    · exact hnew.elim
    · exact ⟨fun _ => ⟨hrefunds, hnew.1⟩, ⟨hrefunds, hnew.1⟩⟩
    · exact ⟨nofun, ⟨hrefunds, hnew⟩⟩

/-- A request that was refunded holds what the accounts did not take back. -/
structure Refunded (b : RelayBilling σ) : Prop where
  once : b.billing = none ∨ b.refunds = 1
  givenBack : GivenBack 0 b.calls

theorem refundRelayBilling_refunded (a : Accounts σ ℓ) (h : Refundable info b) :
    Refunded (refundRelayBilling a info b) := by
  obtain ⟨hrefunds, h⟩ := h
  unfold refundRelayBilling
  cases hbilling : b.billing with
  | none =>
    rw [hbilling] at h
    have hbooks : Books info 0 false b.calls := h
    exact ⟨.inl hbilling, hbooks.givenBack⟩
  | some s =>
    rw [hbilling] at h
    have hrefund := post_refund (a := a) (t := b.live s) h
    refine ⟨.inr ?_, hrefund⟩
    show b.refunds + 1 = 1
    omega

theorem chargeViolationFee_refunded (cfg : Config) (a : Accounts σ ℓ) (err : NewAPIError)
    (h : Refunded b) : Refunded (chargeViolationFeeIfNeeded cfg a info err b) := by
  unfold chargeViolationFeeIfNeeded
  split
  · exact ⟨h.once, h.givenBack.charge ..⟩
  · exact h

end Billing

section Closed

/-- The request ended without a panic, its session was settled or refunded once, and after an error
nothing is held. -/
structure Closed (b : RelayBilling σ) (resp : Response) : Prop where
  no_panic : resp ≠ .panic
  once : b.billing = none ∨ (settlements b.calls = 1 ∧ b.refunds = 0) ∨
    (b.refunds = 1 ∧ settlements b.calls = 0)
  no_hold : ∀ err, resp = .error err → fundingHeld b.calls = false ∧ tokenDebit b.calls = 0

/-- The accounts accepted what settles the request, and of an unsettled one what gives back. -/
structure Honoured (calls : List (Call × Bool)) : Prop where
  settled : ∀ x ∈ calls, x.1.settles = true → x.2 = true
  givenBack : settlements calls = 0 → ∀ x ∈ calls, x.1.compensates = true → x.2 = true

variable {b : RelayBilling σ}

/-- A request without a session has nothing to close. -/
theorem closed_iff_of_no_session {resp : Response} (hbilling : b.billing = none)
    (hcalls : ∀ x ∈ b.calls, ∃ quota, x.1 = .charge quota)
    (hresp : resp ≠ .panic ∧ ∀ err, resp ≠ .error err) : Closed b resp ↔ Honoured b.calls := by
  have hclosed : Closed b resp := ⟨hresp.1, .inl hbilling, fun err h => absurd h (hresp.2 err)⟩
  have hnone : ∀ x ∈ b.calls, x.1.settles = false ∧ x.1.compensates = false := by
    intro x hx
    obtain ⟨quota, hquota⟩ := hcalls x hx
    rw [hquota]
    exact ⟨rfl, rfl⟩
  refine ⟨fun _ => ⟨?_, ?_⟩, fun _ => hclosed⟩
  · intro x hx hs
    rw [(hnone x hx).1] at hs
    cases hs
  · intro _ x hx hc
    rw [(hnone x hx).2] at hc
    cases hc

/-- The handler that succeeds closes the session when the settlement is accepted. -/
theorem settled_closed_iff (a : Accounts σ ℓ) (quota : Int) (h : Unspent info b) :
    Closed (settleRelayBilling a info quota b).2 .served ↔
      Honoured (settleRelayBilling a info quota b).2.calls := by
  obtain ⟨hrefunds, h⟩ := h
  unfold settleRelayBilling
  cases hbilling : b.billing with
  | none =>
    rw [hbilling] at h
    have hcalls : b.calls = [] := h
    dsimp only
    split
    · refine closed_iff_of_no_session hbilling ?_ ⟨nofun, nofun⟩
      simp [hcalls]
    · refine closed_iff_of_no_session hbilling ?_ ⟨nofun, nofun⟩
      intro x hx
      have hx : x ∈ b.calls ++ [(.charge quota, (chargeQuota a info quota b).1.isOk)] := hx
      rw [hcalls, List.nil_append] at hx
      rw [List.mem_singleton.1 hx]
      exact ⟨quota, rfl⟩
  | some s =>
    rw [hbilling] at h
    have hdecided : Decided ((settle a info quota).run (b.live s)).2.calls :=
      post_settle (t := b.live s) h
    dsimp only
    generalize (settle a info quota).run (b.live s) = r at hdecided
    show Closed (b.keep r.2) .served ↔ Honoured r.2.calls
    constructor
    · rintro ⟨-, hbilling' | ⟨hsettled, -⟩ | ⟨hone, -⟩, -⟩
      · cases hbilling'
      · refine ⟨hdecided.1 hsettled, fun hzero => ?_⟩
        have hsettled : settlements r.2.calls = 1 := hsettled
        omega
      · have hone : b.refunds = 1 := hone
        omega
    · intro hhonoured
      exact ⟨nofun, .inr (.inl ⟨hdecided.2 hhonoured.settled, hrefunds⟩), nofun⟩

/-- The refund closes the session when the accounts take back what it took. -/
theorem Refunded.closed_iff (h : Refunded b) (err : NewAPIError) :
    Closed b (.error err) ↔ Honoured b.calls := by
  have hzero := settlements_of_givenBack h.givenBack
  have honce : b.billing = none ∨ (settlements b.calls = 1 ∧ b.refunds = 0) ∨
      (b.refunds = 1 ∧ settlements b.calls = 0) := by
    rcases h.once with hnone | hone
    · exact .inl hnone
    · exact .inr (.inr ⟨hone, hzero⟩)
  constructor
  · intro hclosed
    have hback := h.givenBack.closed_iff.1 (hclosed.no_hold err rfl)
    refine ⟨fun x hx hs => ?_, fun _ => hback⟩
    rcases h.givenBack.kinds x hx with hp | hf
    · rw [Call.not_settles_of_prepares hp] at hs
      cases hs
    · rw [Call.not_settles_of_cleansUp hf] at hs
      cases hs
  · intro hhonoured
    exact ⟨nofun, honce, fun _ _ => h.givenBack.closed_iff.2 (hhonoured.givenBack hzero)⟩

end Closed

section Loop

variable {st : RelayState σ} {r : Round}

/-- The state between two passes; before the first failure there is no session. -/
structure Going (info : RelayInfo) (st : RelayState σ) : Prop where
  unspent : Unspent info st.billing
  fresh : st.lastError = none → st.billing.billing = none

/-- The state behind an exit of the loop. -/
def Ended (info : RelayInfo) (st : RelayState σ) : Exit → Prop
  | .served => Closed st.billing .served ↔ Honoured st.billing.calls
  | .noChannel _ => Refundable info st.billing
  | .failed _ => Refundable info st.billing
  | .exhausted => Going info st

/-- The state behind a pass. -/
def Passed (info : RelayInfo) : RelayState σ × Option Exit → Prop
  | (st, none) => Going info st
  | (st, some exit) => Ended info st exit

theorem getChannel_going (cfg : Config) (r : Round) (h : Going info st) :
    Going info (getChannel cfg r st).1 ∧
      ((getChannel cfg r st).2 = none ∨
        (∃ err, (getChannel cfg r st).2 = some (.noChannel err)) ∨
        ∃ err, (getChannel cfg r st).2 = some (.failed err)) := by
  have hselects := getChannel_selects cfg r st
  generalize getChannel cfg r st = result at hselects
  obtain ⟨st', exit⟩ := result
  dsimp only at hselects ⊢
  cases hselects with
  | context => exact ⟨h, .inl rfl⟩
  | refused c err => exact ⟨⟨h.unspent, h.fresh⟩, .inr (.inr ⟨err, rfl⟩)⟩
  | nothing c turn p err => exact ⟨⟨h.unspent, h.fresh⟩, .inr (.inl ⟨err, rfl⟩)⟩
  | channel c turn p sel exit later selection selected refused =>
    refine ⟨⟨h.unspent, h.fresh⟩, ?_⟩
    rcases refused with h | h
    · exact .inl h
    · exact .inr (.inr h)

theorem handle_going (h : Unspent info st.billing) :
    Passed info (handle cfg a info r st) := by
  unfold handle
  cases r.answer with
  | ok quota => exact settled_closed_iff a quota h
  | error err =>
    show Passed info (handleFailure cfg r err st)
    unfold handleFailure
    dsimp only
    split
    · exact ⟨h, nofun⟩
    · exact h.refundable

theorem preConsumeRound_unspent (a : Accounts σ ℓ) (r : Round) (price : PriceData)
    (h : Unspent info st.billing) :
    ((preConsumeRound a info r price st).1 = none →
        Unspent info (preConsumeRound a info r price st).2.billing) ∧
      Refundable info (preConsumeRound a info r price st).2.billing := by
  unfold preConsumeRound
  split
  · exact ⟨fun _ => h, h.refundable⟩
  · exact preConsumeRelayBilling_unspent a r.claude price.quotaToPreConsume h

theorem attempt_going (h : Unspent info st.billing) :
    Passed info (attempt cfg a info r st) := by
  unfold attempt
  dsimp only
  cases r.price with
  | error err => exact h.refundable
  | ok price =>
    dsimp only
    cases r.body with
    | some err => exact h.refundable
    | none =>
      dsimp only
      generalize hused : { st with channelMeta := true, usedChannels := st.usedChannels + 1 } = st₁
      have h₁ : Unspent info st₁.billing := by
        rw [← hused]
        exact h
      have hpre := preConsumeRound_unspent a r price h₁
      generalize preConsumeRound a info r price st₁ = result at hpre ⊢
      obtain ⟨err | _, st'⟩ := result
      · exact handle_going (hpre.1 rfl)
      · exact hpre.2

/-- One pass goes on with nothing spent beside the session, or ends with it still refundable. -/
theorem relayRound_going (cfg : Config) (a : Accounts σ ℓ) (r : Round) (h : Going info st) :
    Passed info (relayRound cfg a info r st) := by
  obtain ⟨hgoing, hexit⟩ := getChannel_going cfg r h
  unfold relayRound
  generalize getChannel cfg r st = result at hgoing hexit
  obtain ⟨st', exit⟩ := result
  rcases hexit with rfl | ⟨err, rfl⟩ | ⟨err, rfl⟩
  · exact attempt_going hgoing.unspent
  · exact hgoing.unspent.refundable
  · exact hgoing.unspent.refundable

theorem relayLoop_ended (rounds : List Round) (h : Going info st) {st' : RelayState σ}
    {exit : Exit} (hend : relayLoop cfg a info rounds st = (st', some exit)) : Ended info st' exit := by
  induction rounds generalizing st with
  | nil => cases hend
  | cons r rounds ih =>
    rw [relayLoop] at hend
    have hround := relayRound_going cfg a r h
    split at hend
    · generalize relayRound cfg a info r st = result at hround hend
      obtain ⟨st₁, exit₁⟩ := result
      cases exit₁ with
      | none => exact ih hround hend
      | some e =>
        cases hend
        exact hround
    · cases hend
      exact h

end Loop

section Request

variable {req : Request} {rounds : List Round} {st : RelayState σ} {b : RelayBilling σ}
  {resp : Response}

/-- The state that the middleware leaves. -/
structure Arrived (st : RelayState σ) : Prop where
  channelMeta : st.channelMeta = false
  resetNextTry : st.retryParam.resetNextTry = false
  usedChannels : st.usedChannels = 0
  lastError : st.lastError = none
  billing : st.billing.billing = none
  calls : st.billing.calls = []
  refunds : st.billing.refunds = 0

theorem distribute_arrived {s m b c f} {a : σ}
    (h : distribute s m b c { accounts := a } f = some st) : Arrived st := by
  cases f <;> rw [distribute] at h <;> split at h
  · cases h
  · obtain ⟨_, _, rfl⟩ := Option.map_eq_some_iff.1 h
    exact ⟨rfl, rfl, rfl, rfl, rfl, rfl, rfl⟩
  · cases h
    exact ⟨rfl, rfl, rfl, rfl, rfl, rfl, rfl⟩
  · cases h

theorem Arrived.going (h : Arrived st) (info : RelayInfo) : Going info st := by
  refine ⟨⟨h.refunds, ?_⟩, fun _ => h.billing⟩
  rw [h.billing]
  exact h.calls

/-- The request reaches its relay info, or was answered before the cleanup was set up. -/
def Checked (req : Request) : Prop :=
  req.upgraded = false ∨ (req.invalid = none ∧ ∃ info, req.relayInfo = .ok info)

/-- The cleanup of a failed request with a relay info. -/
theorem cleanup_closed_iff (err : NewAPIError) (h : Refundable info b) :
    Closed (cleanup cfg a (some info) (some err) b).1 (cleanup cfg a (some info) (some err) b).2 ↔
      Honoured (cleanup cfg a (some info) (some err) b).1.calls :=
  (chargeViolationFee_refunded cfg a _ (refundRelayBilling_refunded a h)).closed_iff _

theorem finish_closed_iff (cfg : Config) (a : Accounts σ ℓ) {exit : Exit} (h : Ended info st exit) :
    Closed (finish cfg a info st exit).1 (finish cfg a info st exit).2 ↔
      Honoured (finish cfg a info st exit).1.calls := by
  cases exit with
  | served => exact h
  | noChannel err => exact cleanup_closed_iff err h
  | failed err => exact cleanup_closed_iff err h
  | exhausted =>
    have h : Going info st := h
    unfold finish exitError
    cases hlast : st.lastError with
    | some err => exact cleanup_closed_iff err h.unspent.refundable
    | none =>
      have hbilling := h.fresh hlast
      refine closed_iff_of_no_session hbilling ?_ ⟨nofun, nofun⟩
      have hunspent := h.unspent.2
      rw [hbilling] at hunspent
      have hcalls : st.billing.calls = [] := hunspent
      show ∀ x ∈ st.billing.calls, _
      simp [hcalls]

theorem not_closed_of_panic (hpanic : resp = .panic) : ¬ Closed b resp :=
  fun h => h.no_panic hpanic

theorem arrived_closed (resp : Response) (h : Arrived st)
    (hresp : resp ≠ .panic ∧ ∀ err, resp ≠ .error err) :
    Closed st.billing resp ↔ Honoured st.billing.calls :=
  closed_iff_of_no_session h.billing (by simp [h.calls]) hresp

/-- The response of a request, and when its billing is closed behind it. -/
theorem relayRequest_closed_iff (h : Arrived st)
    (hrun : relayRequest cfg a req rounds st = some (b, resp)) :
    Closed b resp ↔ Checked req ∧ Honoured b.calls := by
  unfold relayRequest at hrun
  split at hrun
  next hupgraded =>
    cases hrun
    rw [arrived_closed .notUpgraded h ⟨nofun, nofun⟩]
    exact ⟨fun hh => ⟨.inl hupgraded, hh⟩, And.right⟩
  next hupgraded =>
    have hchecked : Checked req ↔ req.invalid = none ∧ ∃ info, req.relayInfo = .ok info :=
      ⟨fun hc => hc.resolve_left hupgraded, .inr⟩
    rw [hchecked]
    cases hinvalid : req.invalid with
    | some e =>
      rw [hinvalid] at hrun
      cases hrun
      refine ⟨fun hclosed => absurd hclosed (not_closed_of_panic rfl), ?_⟩
      rintro ⟨⟨hnone, -⟩, -⟩
      cases hnone
    | none =>
      rw [hinvalid] at hrun
      cases hinfo : req.relayInfo with
      | error e =>
        rw [hinfo] at hrun
        cases hrun
        refine ⟨fun hclosed => absurd hclosed (not_closed_of_panic rfl), ?_⟩
        rintro ⟨⟨-, info, hok⟩, -⟩
        cases hok
      | ok info =>
        rw [hinfo] at hrun
        have hiff : (Closed b resp ↔ Honoured b.calls) := by
          have hgoing := h.going info
          dsimp only at hrun
          cases hcheck : checkRequest req with
          | some err =>
            rw [hcheck] at hrun
            cases hrun
            exact cleanup_closed_iff err hgoing.unspent.refundable
          | none =>
            rw [hcheck] at hrun
            dsimp only at hrun
            generalize hloop : relayLoop cfg a info rounds st = result at hrun
            obtain ⟨st', exit⟩ := result
            cases exit with
            | none => cases hrun
            | some exit =>
              have hfinish := finish_closed_iff cfg a (relayLoop_ended rounds hgoing hloop)
              rw [Option.some.inj hrun] at hfinish
              exact hfinish
        rw [hiff]
        exact ⟨fun hh => ⟨⟨rfl, info, rfl⟩, hh⟩, And.right⟩

/-- Every request is answered, or panics. -/
theorem relayRequest_isSome (cfg : Config) (a : Accounts σ ℓ) (req : Request) (h : Arrived st)
    (hlen : slots cfg.routing st.retryParam + 1 < rounds.length) :
    (relayRequest cfg a req rounds st).isSome = true := by
  unfold relayRequest
  split
  · rfl
  · cases req.invalid with
    | some e => rfl
    | none =>
      cases req.relayInfo with
      | error e => rfl
      | ok info =>
        dsimp only
        cases checkRequest req with
        | some err => rfl
        | none =>
          have hends := relayLoop_ends cfg a info rounds h.channelMeta h.resetNextTry
            h.usedChannels hlen
          generalize relayLoop cfg a info rounds st = result at hends ⊢
          obtain ⟨st', exit⟩ := result
          cases exit with
          | none => cases hends
          | some exit => rfl

end Request

/-- A request outside the automatic groups. -/
def plainStart : RelayState Unit where
  circuits _ _ := none
  retryParam := { ctx := { crossGroupRetry := false }, tokenGroup := "default",
                  modelName := "gpt-test" }
  billing := { accounts := () }

theorem plainStart_arrived : Arrived plainStart := ⟨rfl, rfl, rfl, rfl, rfl, rfl, rfl⟩

/-- A request whose body is not valid JSON. -/
def invalidBody : Request where
  invalid := some ("unexpected end of JSON input", false)
  relayInfo := .ok sampleInfo

/-- Accounts with a balance that accept every call. -/
def fundedAccounts : Accounts Unit Unit :=
  { freeAccounts with getUserQuota := fun _ => .ret 1000000 }

def pricedRound : Round := { failingRound with price := .ok ⟨false, 100⟩ }

def plainRequest : Request where
  relayInfo := .ok sampleInfo

theorem plainRun_isSome : (relayRequest (sampleConfig 0) fundedAccounts plainRequest
    [pricedRound, pricedRound, pricedRound] plainStart).isSome = true := by
  decide +kernel

def plainRun : RelayBilling Unit × Response :=
  (relayRequest (sampleConfig 0) fundedAccounts plainRequest
    [pricedRound, pricedRound, pricedRound] plainStart).get plainRun_isSome

end CodeGo.Gateway.RelayRequest
