import CodeGo.Billing.Session

/-!
# The calls of a session

What a request still holds is read off the record of its calls. Each operation of a session keeps
the record in line with the counters of the session, whatever the accounts answer.
-/

namespace CodeGo.Billing.Session

open Lib Lib.Prog Schema Types.ApiError

section Calls

/-- What an accepted call takes from the token. -/
def taken : Call × Bool → Int
  | (.tokenPreConsume amount, true) => amount
  | (.tokenSettle delta, true) => delta
  | (.tokenGiveBack amount, true) => -amount
  | (.trustedToken amount, true) => amount
  | _ => 0

/-- What an accepted charge beside the session takes. -/
def charged : Call × Bool → Int
  | (.charge quota, true) => quota
  | _ => 0

/-- What the token misses since it was not given back. -/
def leak : Call × Bool → Int
  | (.tokenGiveBack amount, false) => amount
  | _ => 0

/-- Whether the funding is held after a call. -/
def holdAfter (held : Bool) : Call × Bool → Bool
  | (.fundingPreConsume _ amount, true) => held || decide (0 < amount)
  | (.fundingReserve _, true) => true
  | (.trustedFunding _, true) => true
  | (.fundingSettle _, true) => false
  | (.fundingRefund, true) => false
  | _ => held

/-- What the funding misses after a call; the refund gives all of it back. -/
def drawAfter (drawn : Int) : Call × Bool → Int
  | (.fundingPreConsume _ amount, true) => drawn + max amount 0
  | (.fundingReserve amount, true) => drawn + amount
  | (.trustedFunding amount, true) => drawn + amount
  | (.fundingSettle delta, true) => drawn + delta
  | (.fundingRefund, true) => 0
  | _ => drawn

def isSettlement : Call × Bool → Bool
  | (.fundingSettle _, true) => true
  | _ => false

def tokenDebit (calls : List (Call × Bool)) : Int := (calls.map taken).sum

def leaked (calls : List (Call × Bool)) : Int := (calls.map leak).sum

def fundingHeld (calls : List (Call × Bool)) : Bool := calls.foldl holdAfter false

def fundingDebit (calls : List (Call × Bool)) : Int := calls.foldl drawAfter 0

def chargeDebit (calls : List (Call × Bool)) : Int := (calls.map charged).sum

def settlements (calls : List (Call × Bool)) : Nat := calls.countP isSettlement

variable {calls : List (Call × Bool)} {x : Call × Bool}

@[simp] theorem tokenDebit_snoc : tokenDebit (calls ++ [x]) = tokenDebit calls + taken x := by
  simp [tokenDebit]

@[simp] theorem leaked_snoc : leaked (calls ++ [x]) = leaked calls + leak x := by
  simp [leaked]

@[simp] theorem fundingHeld_snoc :
    fundingHeld (calls ++ [x]) = holdAfter (fundingHeld calls) x := by
  simp [fundingHeld]

@[simp] theorem fundingDebit_snoc :
    fundingDebit (calls ++ [x]) = drawAfter (fundingDebit calls) x := by
  simp [fundingDebit]

@[simp] theorem chargeDebit_snoc : chargeDebit (calls ++ [x]) = chargeDebit calls + charged x := by
  simp [chargeDebit]

@[simp] theorem settlements_snoc :
    settlements (calls ++ [x]) = settlements calls + if isSettlement x then 1 else 0 := by
  simp [settlements, List.countP_append, List.countP_cons]

/-- The calls that settle a session. -/
def Call.settles : Call → Bool
  | .fundingSettle _ => true
  | .trustedFunding _ => true
  | .trustedToken _ => true
  | _ => false

/-- The calls that give back what a session took. -/
def Call.compensates : Call → Bool
  | .fundingRefund => true
  | .tokenGiveBack _ => true
  | _ => false

/-- The calls that start a session or reserve more for it. -/
def Call.prepares : Call → Bool
  | .fundingPreConsume .. => true
  | .fundingReserve _ => true
  | .tokenPreConsume _ => true
  | .tokenGiveBack amount => decide (0 < amount)
  | _ => false

/-- The calls behind a failed request, beside the give-back to the token. -/
def Call.cleansUp : Call → Bool
  | .fundingRefund => true
  | .charge _ => true
  | _ => false

theorem Call.not_settles_of_prepares {c : Call} (h : c.prepares = true) : c.settles = false := by
  cases c <;> simp_all [Call.prepares, Call.settles]

theorem Call.not_settles_of_cleansUp {c : Call} (h : c.cleansUp = true) : c.settles = false := by
  cases c <;> simp_all [Call.cleansUp, Call.settles]

/-- Nothing is settled by the calls before the settlement. -/
theorem settlements_of_preparing (h : ∀ x ∈ calls, x.1.prepares = true) :
    settlements calls = 0 := by
  rw [settlements, List.countP_eq_zero]
  rintro ⟨c, accepted⟩ hx
  have := h _ hx
  cases c <;> simp_all [Call.prepares, isSettlement]

theorem chargeDebit_of_preparing (h : ∀ x ∈ calls, x.1.prepares = true) :
    chargeDebit calls = 0 := by
  apply List.sum_eq_zero
  intro n hn
  obtain ⟨⟨c, accepted⟩, hx, rfl⟩ := List.mem_map.1 hn
  have := h _ hx
  cases c <;> simp_all [Call.prepares, charged]

/-- The token misses nothing exactly when each give-back was accepted. -/
theorem leaked_eq_zero_iff (h : ∀ x ∈ calls, x.1.prepares = true ∨ x.1.cleansUp = true) :
    0 ≤ leaked calls ∧
      (leaked calls = 0 ↔ ∀ x ∈ calls, x.1.compensates = true → x.1 ≠ .fundingRefund →
        x.2 = true) := by
  induction calls using List.reverseRecOn with
  | nil => simp [leaked]
  | append_singleton calls x ih =>
    obtain ⟨hnonneg, hiff⟩ := ih fun y hy => h y (List.mem_append_left _ hy)
    have hx := h x (by simp)
    have hleak : 0 ≤ leak x ∧ (leak x = 0 ↔ (x.1.compensates = true → x.1 ≠ .fundingRefund →
        x.2 = true)) := by
      obtain ⟨c, accepted⟩ := x
      cases c <;> cases accepted <;> simp_all [leak, Call.prepares, Call.cleansUp, Call.compensates]
      omega
    rw [leaked_snoc]
    refine ⟨by omega, ?_⟩
    rw [show leaked calls + leak x = 0 ↔ leaked calls = 0 ∧ leak x = 0 by omega, hiff, hleak.2]
    constructor
    · rintro ⟨h1, h2⟩ y hy
      rcases List.mem_append.1 hy with hy | hy
      · exact h1 y hy
      · rw [List.mem_singleton.1 hy]
        exact h2
    · intro hall
      exact ⟨fun y hy => hall y (List.mem_append_left _ hy), hall x (by simp)⟩

end Calls

variable {σ ℓ : Type} {a : Accounts σ ℓ} {info : RelayInfo}

section Rules

variable {α : Type} {t : Live σ}

/-- The accounts after a call, and the record of it. -/
def Live.called (t : Live σ) (s : σ) (c : Call) (accepted : Bool) : Live σ :=
  { t with accounts := s, calls := t.calls ++ [(c, accepted)] }

@[simp] theorem called_calls (t : Live σ) (s : σ) (c : Call) (accepted : Bool) :
    (t.called s c accepted).calls = t.calls ++ [(c, accepted)] := rfl

theorem post_onAccounts {p : Prog σ ℓ Err α} {Q : Except Err α → Live σ → Prop}
    (h : ∀ r s, Q r { t with accounts := s }) : Post (onAccounts p) t Q := by
  unfold Post onAccounts
  rw [run_zoom]
  · exact h _ _
  · exact fun _ _ => rfl
  · exact fun _ => rfl
  · exact fun _ _ _ => rfl

theorem post_self {Q : Except Err BillingSession → Live σ → Prop} (h : Q (.ok t.session) t) :
    Post (self : SessionM σ ℓ BillingSession) t Q := h

theorem post_update {f : BillingSession → BillingSession} {Q : Except Err Unit → Live σ → Prop}
    (h : Q (.ok ()) { t with session := f t.session }) :
    Post (update f : SessionM σ ℓ Unit) t Q := h

/-- A call is accepted or refused, and nothing but the accounts knows why. -/
theorem post_call {c : Call} {p : Prog σ ℓ Err Unit} {Q : Except Err Unit → Live σ → Prop}
    (hok : ∀ s, Q (.ok ()) (t.called s c true))
    (herror : ∀ s e, Q (.error e) (t.called s c false)) :
    Post (call c p) t Q := by
  refine post_bind (post_attempt (post_onAccounts fun r s => ?_))
  cases r with
  | ok => exact hok s
  | error e => exact herror s e

theorem post_preConsumeTokenQuota {c : Int → Call} {quota : Int}
    {Q : Except Err Unit → Live σ → Prop} (hplayground : info.isPlayground = true → Q (.ok ()) t)
    (hok : info.isPlayground = false → ∀ s, Q (.ok ()) (t.called s (c quota) true))
    (herror : info.isPlayground = false → ∀ s e, Q (.error e) (t.called s (c quota) false)) :
    Post (preConsumeTokenQuota a info c quota) t Q := by
  unfold preConsumeTokenQuota
  apply post_ite
  · exact fun h => hplayground h
  · intro h
    have h : info.isPlayground = false := by simpa using h
    exact post_call (hok h) (herror h)

end Rules

section Books

/-- Before the settlement: the token misses what the session took and what was not given back, and
`held` tells whether the funding is held. -/
structure Books (info : RelayInfo) (consumed : Int) (held : Bool) (calls : List (Call × Bool)) :
    Prop where
  debit : tokenDebit calls = (if info.isPlayground then 0 else consumed) + leaked calls
  undrawn : held = false → fundingDebit calls = 0
  held : fundingHeld calls = held
  preparing : ∀ x ∈ calls, x.1.prepares = true

variable {consumed amount : Int} {held accepted : Bool} {calls : List (Call × Bool)}
  {source : BillingSource}

theorem books_nil : Books info 0 false [] where
  debit := by simp [tokenDebit, leaked]
  held := rfl
  undrawn _ := rfl
  preparing := nofun

theorem preparing_snoc {x : Call × Bool} (h : ∀ y ∈ calls, y.1.prepares = true)
    (hx : x.1.prepares = true) : ∀ y ∈ calls ++ [x], y.1.prepares = true := by
  intro y hy
  rcases List.mem_append.1 hy with hy | hy
  · exact h y hy
  · rw [List.mem_singleton.1 hy]
    exact hx

theorem Books.token (h : Books info consumed held calls) (hpg : info.isPlayground = false)
    (amount : Int) :
    Books info (consumed + amount) held (calls ++ [(.tokenPreConsume amount, true)]) where
  debit := by
    have := h.debit
    simp only [hpg, Bool.false_eq_true, if_false, tokenDebit_snoc, leaked_snoc, taken, leak]
      at this ⊢
    omega
  held := by
    rw [fundingHeld_snoc, ← h.held]
    rfl
  undrawn hheld := by
    rw [fundingDebit_snoc]
    exact h.undrawn hheld
  preparing := preparing_snoc h.preparing rfl

theorem Books.playground (h : Books info consumed held calls) (hpg : info.isPlayground = true)
    (amount : Int) : Books info amount held calls where
  debit := by
    have := h.debit
    rw [if_pos hpg] at this ⊢
    exact this
  held := h.held
  undrawn := h.undrawn
  preparing := h.preparing

theorem Books.tokenRefused (h : Books info consumed held calls) :
    Books info consumed held (calls ++ [(.tokenPreConsume amount, false)]) where
  debit := by
    simpa [taken, leak] using h.debit
  held := by
    rw [fundingHeld_snoc, ← h.held]
    rfl
  undrawn hheld := by
    rw [fundingDebit_snoc]
    exact h.undrawn hheld
  preparing := preparing_snoc h.preparing rfl

theorem Books.funding (h : Books info consumed held calls) (source : BillingSource) (amount : Int)
    (accepted : Bool) :
    Books info consumed (if accepted then held || decide (0 < amount) else held)
      (calls ++ [(.fundingPreConsume source amount, accepted)]) where
  debit := by
    cases accepted <;> simpa [taken, leak] using h.debit
  held := by
    rw [fundingHeld_snoc, h.held]
    cases accepted <;> rfl
  undrawn hheld := by
    rw [fundingDebit_snoc]
    cases accepted with
    | false => exact h.undrawn hheld
    | true =>
      rw [if_pos rfl, Bool.or_eq_false_iff] at hheld
      have hamount : amount ≤ 0 := by simpa using hheld.2
      have := h.undrawn hheld.1
      show fundingDebit calls + max amount 0 = 0
      omega
  preparing := preparing_snoc h.preparing rfl

theorem Books.reserve (h : Books info consumed true calls) :
    Books info consumed true (calls ++ [(.fundingReserve amount, accepted)]) where
  debit := by
    cases accepted <;> simpa [taken, leak] using h.debit
  held := by
    rw [fundingHeld_snoc, h.held]
    cases accepted <;> rfl
  undrawn := nofun
  preparing := preparing_snoc h.preparing rfl

theorem Books.giveBack (h : Books info consumed held calls) (hpg : info.isPlayground = false)
    (hamount : 0 < amount) (accepted : Bool) :
    Books info (consumed - amount) held (calls ++ [(.tokenGiveBack amount, accepted)]) where
  debit := by
    have := h.debit
    cases accepted <;>
      simp only [hpg, Bool.false_eq_true, if_false, tokenDebit_snoc, leaked_snoc, taken, leak]
        at this ⊢ <;> omega
  held := by
    rw [fundingHeld_snoc, ← h.held]
    cases accepted <;> rfl
  undrawn hheld := by
    rw [fundingDebit_snoc]
    cases accepted <;> exact h.undrawn hheld
  preparing := preparing_snoc h.preparing (by simpa [Call.prepares] using hamount)

end Books

section Operations

/-- A session that is neither settled nor refunded, whose counters the record agrees with. -/
structure Running (info : RelayInfo) (s : BillingSession) (calls : List (Call × Bool)) : Prop where
  books : Books info s.tokenConsumed (decide (0 < s.tokenConsumed)) calls
  nonneg : 0 ≤ s.tokenConsumed
  settled : s.settled = false
  refunded : s.refunded = false
  fundingSettled : s.fundingSettled = false
  /-- a subscription holds at least one unit -/
  subscription : s.funding = .subscription → 0 < s.tokenConsumed

/-- The funding and the token were drawn on for what the session pre-consumed, at least `m`. -/
structure Drawn (m : Int) (s : BillingSession) (calls : List (Call × Bool)) : Prop where
  least : m ≤ s.preConsumedQuota
  funding : fundingDebit calls = max s.preConsumedQuota 0
  token : s.tokenConsumed = max s.preConsumedQuota 0

/-- What starting a session ends in: a running session, or nothing taken. -/
def Started (info : RelayInfo) (m : Int) : Except Err (Option NewAPIError) → Live σ → Prop
  | .ok none, t => Running info t.session t.calls ∧ Drawn m t.session t.calls
  | .ok (some _), t => Books info 0 false t.calls
  | .error _, _ => False

variable {t : Live σ} {m quota userQuota : Int}

/-- A session before its pre-consumption. -/
structure Fresh (info : RelayInfo) (t : Live σ) : Prop where
  books : Books info 0 false t.calls
  tokenConsumed : t.session.tokenConsumed = 0
  settled : t.session.settled = false
  refunded : t.session.refunded = false
  fundingSettled : t.session.fundingSettled = false

theorem post_giveTokenBack {consumed : Int} {Q : Except Err Unit → Live σ → Prop}
    (hnone : consumed ≤ 0 ∨ info.isPlayground = true → Q (.ok ()) t)
    (hsome : 0 < consumed → info.isPlayground = false →
      ∀ s accepted, Q (.ok ()) (t.called s (.tokenGiveBack consumed) accepted)) :
    Post (giveTokenBack a info consumed) t Q := by
  unfold giveTokenBack
  apply post_ite
  · rintro ⟨hpos, hpg⟩
    apply post_bind
    exact post_attempt
      (post_call (fun s => hsome hpos hpg s true) fun s e => hsome hpos hpg s false)
  · intro hno
    refine hnone ?_
    by_cases hpg : info.isPlayground = true
    · exact .inr hpg
    · have hpg : info.isPlayground = false := by simpa using hpg
      left
      by_contra hpos
      exact hno ⟨by omega, hpg⟩

/-- The token gets back all that the session took. -/
theorem Books.post_giveTokenBack {consumed : Int} {held : Bool}
    (h : Books info consumed held t.calls) (hnonneg : 0 ≤ consumed) :
    Post (giveTokenBack a info consumed) t fun r t' =>
      r = .ok () ∧ t'.session = t.session ∧ Books info 0 held t'.calls := by
  apply Session.post_giveTokenBack
  · rintro (hzero | hpg)
    · obtain rfl : consumed = 0 := by omega
      exact ⟨rfl, rfl, h⟩
    · exact ⟨rfl, rfl, h.playground hpg 0⟩
  · intro hpos hpg s accepted
    refine ⟨rfl, rfl, ?_⟩
    have := h.giveBack hpg hpos accepted
    rwa [Int.sub_self] at this

/-- The funding side, after the token was charged with what the session will hold. -/
theorem post_preConsumeFunding {effectiveQuota : Int}
    (hbooks : Books info t.session.tokenConsumed false t.calls)
    (hconsumed : t.session.tokenConsumed = max effectiveQuota 0)
    (hunsettled : t.session.settled = false ∧ t.session.refunded = false ∧
      t.session.fundingSettled = false)
    (hsub : t.session.funding = .subscription → 0 < effectiveQuota) (hm : m ≤ effectiveQuota) :
    Post (preConsumeFunding a info effectiveQuota) t (Started info m) := by
  unfold preConsumeFunding
  apply post_bind
  apply post_self
  apply post_bind
  refine post_attempt (post_call (fun s => ?_) fun s e => ?_)
  · apply post_bind
    apply post_update
    apply post_ret
    have hfunding := hbooks.funding t.session.funding effectiveQuota true
    have hheld : (if true then false || decide (0 < effectiveQuota) else false) =
        decide (0 < t.session.tokenConsumed) := by
      rw [hconsumed]
      simp
    rw [hheld] at hfunding
    refine ⟨⟨hfunding, by show 0 ≤ t.session.tokenConsumed; omega, hunsettled.1, hunsettled.2.1,
      hunsettled.2.2, fun h => by have := hsub h; show 0 < t.session.tokenConsumed; omega⟩, hm, ?_, ?_⟩
    · have := hbooks.undrawn rfl
      rw [called_calls, fundingDebit_snoc]
      show fundingDebit t.calls + max effectiveQuota 0 = max effectiveQuota 0
      omega
    · exact hconsumed
  · have hfunding := hbooks.funding t.session.funding effectiveQuota false
    apply post_bind
    refine post_mono (hfunding.post_giveTokenBack (by omega)) ?_
    rintro r t' ⟨rfl, -, hback⟩
    apply post_bind
    apply post_update
    exact post_ret hback

theorem post_preConsumeEffective {effectiveQuota : Int} (h : Fresh info t)
    (hsub : t.session.funding = .subscription → 0 < effectiveQuota) (hm : m ≤ effectiveQuota) :
    Post (preConsumeEffective a info effectiveQuota) t (Started info m) := by
  unfold preConsumeEffective
  apply post_ite
  · intro hpos
    apply post_bind
    apply post_attempt
    have hnext : ∀ t' : Live σ, t'.session = t.session →
        Books info effectiveQuota false t'.calls →
        Post (update (fun s => { s with tokenConsumed := effectiveQuota }) >>= fun _ =>
          preConsumeFunding a info effectiveQuota) t' (Started info m) := by
      intro t' hsession hbooks
      apply post_bind
      apply post_update
      refine post_preConsumeFunding hbooks ?_ ?_ ?_ hm
      · show effectiveQuota = max effectiveQuota 0
        omega
      · rw [hsession]
        exact ⟨h.settled, h.refunded, h.fundingSettled⟩
      · rw [hsession]
        exact hsub
    refine post_preConsumeTokenQuota (fun hpg => ?_) (fun hpg s => ?_) fun hpg s e => ?_
    · exact hnext t rfl (h.books.playground hpg _)
    · have := h.books.token hpg effectiveQuota
      rw [Int.zero_add] at this
      exact hnext _ rfl this
    · exact post_ret h.books.tokenRefused
  · intro hneg
    refine post_preConsumeFunding ?_ ?_ ⟨h.settled, h.refunded, h.fundingSettled⟩ hsub hm
    · rw [h.tokenConsumed]
      exact h.books
    · rw [h.tokenConsumed]
      omega

theorem shouldTrust_source {source : BillingSource} (h : shouldTrust info source userQuota = true) :
    source = .wallet := by
  unfold shouldTrust at h
  split at h
  next => cases h
  next =>
    split at h
    next => cases h
    next =>
      split at h
      next => cases h
      next =>
        cases source with
        | wallet => rfl
        | claudeWallet => cases h
        | subscription => cases h

theorem post_preConsume (h : Fresh info t) (hsub : t.session.funding = .subscription → 0 < quota)
    (hzero : m ≤ 0) (hm : m ≤ quota) :
    Post (preConsume a info userQuota quota) t (Started info m) := by
  unfold preConsume
  apply post_bind
  apply post_self
  apply post_ite
  · intro htrust
    apply post_bind
    apply post_update
    refine post_preConsumeEffective ⟨h.books, h.tokenConsumed, h.settled, h.refunded,
      h.fundingSettled⟩ (fun hsource => ?_) hzero
    have hwallet := shouldTrust_source htrust
    have hsource : t.session.funding = .subscription := hsource
    rw [hwallet] at hsource
    cases hsource
  · intro _
    exact post_preConsumeEffective h hsub hm

theorem post_openSession {source : BillingSource} (hbooks : Books info 0 false t.calls)
    (hsub : source = .subscription → 0 < quota) (hzero : m ≤ 0) (hm : m ≤ quota) :
    Post (openSession a info source userQuota quota) t (Started info m) := by
  unfold openSession
  apply post_bind
  refine post_attempt (post_onAccounts fun r s => ?_)
  cases r with
  | error e => exact post_ret hbooks
  | ok =>
    apply post_bind
    apply post_update
    exact post_preConsume ⟨hbooks, rfl, rfl, rfl, rfl⟩ hsub hzero hm

theorem post_tryLedgerWallet {source : BillingSource} (hbooks : Books info 0 false t.calls)
    (hsource : source ≠ .subscription) (hzero : m ≤ 0) (hm : m ≤ quota) :
    Post (tryLedgerWallet a info source quota) t (Started info m) := by
  unfold tryLedgerWallet
  apply post_bind
  refine post_attempt (post_onAccounts fun r s => ?_)
  cases r with
  | error e => exact post_ret hbooks
  | ok userQuota =>
    apply post_ite
    · exact fun _ => post_ret hbooks
    · exact fun _ => post_openSession hbooks (fun h => absurd h hsource) hzero hm

theorem post_trySource {source : String} (hbooks : Books info 0 false t.calls) (hzero : m ≤ 0)
    (hm : m ≤ quota) :
    Post (trySource a info source quota) t (Started info m) := by
  unfold trySource
  apply post_ite
  · intro _
    refine post_openSession hbooks (fun _ => ?_) hzero ?_
    · split <;> omega
    · split <;> omega
  · exact fun _ => post_tryLedgerWallet hbooks nofun hzero hm

theorem post_trySources (sources : List String) (lastErr : NewAPIError)
    (hbooks : Books info 0 false t.calls) (hzero : m ≤ 0) (hm : m ≤ quota) :
    Post (trySources a info quota sources lastErr) t (Started info m) := by
  induction sources generalizing t lastErr with
  | nil => exact post_ret hbooks
  | cons source sources ih =>
    apply post_bind
    refine post_mono (post_trySource hbooks hzero hm) ?_
    rintro (e | _ | apiErr) t' hstarted
    · exact hstarted.elim
    · exact post_ret hstarted
    · apply post_ite
      · exact fun _ => ih apiErr hstarted
      · exact fun _ => post_ret hstarted

/-- A session is running, or nothing was taken. -/
theorem post_newBillingSession {claude : Bool} (hbooks : Books info 0 false t.calls)
    (hzero : m ≤ 0) (hm : m ≤ quota) :
    Post (newBillingSession a info claude quota) t (Started info m) := by
  unfold newBillingSession
  split
  · exact post_tryLedgerWallet hbooks nofun hzero hm
  · exact post_trySources _ _ hbooks hzero hm

theorem Running.congr {s : BillingSession} {calls : List (Call × Bool)} (h : Running info s calls)
    {calls' : List (Call × Bool)}
    (hbooks : Books info s.tokenConsumed (decide (0 < s.tokenConsumed)) calls') :
    Running info s calls' := { h with books := hbooks }

theorem post_reserveFunding {delta : Int} (h : Running info t.session t.calls) :
    Post (reserveFunding a delta) t fun r t' =>
      (∃ apiErr, r = .ok apiErr ∧ (apiErr = none → t'.session.funding = .subscription)) ∧
        t'.session = t.session ∧ Running info t'.session t'.calls := by
  unfold reserveFunding
  apply post_bind
  apply post_self
  apply post_ite
  · intro hsub
    have hheld : decide (0 < t.session.tokenConsumed) = true := by
      simpa using h.subscription hsub
    have hbooks := h.books
    rw [hheld] at hbooks
    have hrunning : ∀ accepted,
        Running info t.session (t.calls ++ [(.fundingReserve delta, accepted)]) := by
      intro accepted
      apply h.congr
      rw [hheld]
      exact hbooks.reserve
    apply post_bind
    refine post_attempt (post_call (fun s => ?_) fun s e => ?_)
    · exact post_ret ⟨⟨_, rfl, fun _ => hsub⟩, rfl, hrunning true⟩
    · exact post_ret ⟨⟨_, rfl, nofun⟩, rfl, hrunning false⟩
  · exact fun _ => post_ret ⟨⟨_, rfl, nofun⟩, rfl, h⟩

theorem post_reserveToken {delta : Int} (h : Running info t.session t.calls)
    (hsub : t.session.funding = .subscription) (hdelta : 0 < delta) :
    Post (reserveToken a info delta) t fun r t' =>
      (∃ apiErr, r = .ok apiErr) ∧ Running info t'.session t'.calls := by
  have hpos := h.subscription hsub
  have hheld : decide (0 < t.session.tokenConsumed) =
      decide (0 < t.session.tokenConsumed + delta) := by
    rw [decide_eq_true hpos, decide_eq_true (by omega)]
  have hnext : ∀ t' : Live σ, t'.session = t.session →
      Books info (t.session.tokenConsumed + delta) (decide (0 < t.session.tokenConsumed)) t'.calls →
      Running info { t'.session with
        preConsumedQuota := t'.session.preConsumedQuota + delta
        tokenConsumed := t'.session.tokenConsumed + delta
        extraReserved := t'.session.extraReserved + delta } t'.calls := by
    intro t' hsession hbooks
    rw [hheld] at hbooks
    rw [hsession]
    exact ⟨hbooks, by show 0 ≤ t.session.tokenConsumed + delta; omega, h.settled, h.refunded,
      h.fundingSettled, fun _ => by show 0 < t.session.tokenConsumed + delta; omega⟩
  unfold reserveToken
  apply post_bind
  apply post_attempt
  refine post_preConsumeTokenQuota (fun hpg => ?_) (fun hpg s => ?_) fun hpg s e => ?_
  · apply post_bind
    apply post_update
    exact post_ret ⟨⟨_, rfl⟩, hnext t rfl (h.books.playground hpg _)⟩
  · apply post_bind
    apply post_update
    exact post_ret ⟨⟨_, rfl⟩, hnext (t.called s _ true) rfl (h.books.token hpg _)⟩
  · exact post_ret ⟨⟨_, rfl⟩, h.congr h.books.tokenRefused⟩

/-- A session that is to reserve more is still running, whether it could or not. -/
theorem post_reserve (h : Running info t.session t.calls) :
    Post (reserve a info quota) t fun r t' =>
      (∃ apiErr, r = .ok apiErr) ∧ Running info t'.session t'.calls := by
  unfold reserve
  apply post_bind
  apply post_self
  apply post_ite
  · exact fun _ => post_ret ⟨⟨_, rfl⟩, h⟩
  · intro hmore
    have hdelta : 0 < max quota 0 - t.session.preConsumedQuota := by
      by_contra hle
      exact hmore (.inr (.inr (.inr (by omega))))
    apply post_bind
    refine post_mono (post_reserveFunding h) ?_
    rintro r t' ⟨⟨apiErr, rfl, hsub⟩, hsession, hrunning⟩
    cases apiErr with
    | some e => exact post_ret ⟨⟨_, rfl⟩, hrunning⟩
    | none => exact post_reserveToken hrunning (hsub rfl) hdelta

end Operations

section Refund

variable {calls : List (Call × Bool)} {t : Live σ}

/-- The record of a request that is not to be charged, when the token misses `missing` of it. -/
structure GivenBack (missing : Int) (calls : List (Call × Bool)) : Prop where
  debit : tokenDebit calls = missing + leaked calls
  held : fundingHeld calls = true ↔ (.fundingRefund, false) ∈ calls
  kinds : ∀ x ∈ calls, x.1.prepares = true ∨ x.1.cleansUp = true

variable {missing : Int}

theorem Books.givenBack (h : Books info 0 false calls) : GivenBack 0 calls where
  debit := by
    have := h.debit
    rwa [ite_self] at this
  held := by
    rw [h.held]
    refine ⟨nofun, fun hmem => ?_⟩
    have := h.preparing _ hmem
    cases this
  kinds x hx := .inl (h.preparing x hx)

/-- Nothing is left open exactly when the accounts accepted what was to be given back. -/
theorem GivenBack.closed_iff (h : GivenBack 0 calls) :
    (fundingHeld calls = false ∧ tokenDebit calls = 0) ↔
      ∀ x ∈ calls, x.1.compensates = true → x.2 = true := by
  obtain ⟨-, hleaked⟩ := leaked_eq_zero_iff h.kinds
  rw [h.debit, Int.zero_add, hleaked, ← Bool.not_eq_true, h.held]
  constructor
  · rintro ⟨hrefund, htoken⟩ x hx hc
    by_cases hf : x.1 = .fundingRefund
    · by_contra hx2
      apply hrefund
      have : x = (.fundingRefund, false) := Prod.ext hf (by simpa using hx2)
      rwa [← this]
    · exact htoken x hx hc hf
  · intro hall
    exact ⟨fun hmem => by simpa using hall _ hmem rfl, fun x hx hc _ => hall x hx hc⟩

theorem GivenBack.charge (h : GivenBack missing calls) (quota : Int) (accepted : Bool) :
    GivenBack missing (calls ++ [(.charge quota, accepted)]) where
  debit := by simpa [taken, leak] using h.debit
  held := by
    rw [fundingHeld_snoc]
    simpa [holdAfter] using h.held
  kinds x hx := by
    rcases List.mem_append.1 hx with hx | hx
    · exact h.kinds x hx
    · rw [List.mem_singleton.1 hx]
      exact .inr rfl

theorem GivenBack.giveBack (h : GivenBack missing calls) (hmissing : 0 < missing)
    (accepted : Bool) :
    GivenBack 0 (calls ++ [(.tokenGiveBack missing, accepted)]) where
  debit := by
    have := h.debit
    cases accepted <;> simp only [tokenDebit_snoc, leaked_snoc, taken, leak] <;> omega
  held := by
    rw [fundingHeld_snoc]
    cases accepted <;> simpa [holdAfter] using h.held
  kinds x hx := by
    rcases List.mem_append.1 hx with hx | hx
    · exact h.kinds x hx
    · rw [List.mem_singleton.1 hx]
      exact .inl (by simpa [Call.prepares] using hmissing)

/-- The funding of a running session is to be given back first. -/
theorem Running.refundFunding {s : BillingSession} (h : Running info s calls)
    (hpos : 0 < s.tokenConsumed) (accepted : Bool) :
    GivenBack (if info.isPlayground then 0 else s.tokenConsumed)
      (calls ++ [(.fundingRefund, accepted)]) where
  debit := by
    have := h.books.debit
    cases accepted <;> simpa [taken, leak] using this
  held := by
    have hheld := h.books.held
    rw [decide_eq_true hpos] at hheld
    have hnot : (.fundingRefund, false) ∉ calls := by
      intro hmem
      have := h.books.preparing _ hmem
      cases this
    rw [fundingHeld_snoc, hheld]
    cases accepted <;> simp [holdAfter, hnot]
  kinds x hx := by
    rcases List.mem_append.1 hx with hx | hx
    · exact .inl (h.books.preparing x hx)
    · rw [List.mem_singleton.1 hx]
      exact .inr rfl

theorem settlements_of_givenBack (h : GivenBack missing calls) : settlements calls = 0 := by
  rw [settlements, List.countP_eq_zero]
  rintro ⟨c, accepted⟩ hx
  rcases h.kinds _ hx with h | h
  · cases c <;> simp_all [Call.prepares, isSettlement]
  · cases c <;> simp_all [Call.cleansUp, isSettlement]

/-- A session that runs with nothing consumed has nothing to refund. -/
theorem Running.needsRefund_iff {s : BillingSession} (h : Running info s calls)
    (preConsumed : Int) :
    needsRefund s preConsumed = true ↔ 0 < s.tokenConsumed := by
  have hopen : ¬ (s.settled = true ∨ s.refunded = true ∨ s.fundingSettled = true) := by
    simp [h.settled, h.refunded, h.fundingSettled]
  rw [needsRefund, if_neg hopen]
  simp only [gt_iff_lt, Bool.or_eq_true, decide_eq_true_eq, Bool.and_eq_true]
  refine ⟨?_, .inl⟩
  rintro (hpos | ⟨hsub, -⟩)
  · exact hpos
  · exact h.subscription hsub

theorem post_refund (h : Running info t.session t.calls) :
    Post (refund a info) t fun _ t' => GivenBack 0 t'.calls := by
  unfold refund startRefund
  apply post_bind
  apply post_step
  have hneeds := h.needsRefund_iff (a.preConsumed t.accounts)
  by_cases hpos : 0 < t.session.tokenConsumed
  · rw [if_neg (by simp [h.settled, h.refunded, hneeds.2 hpos])]
    unfold compensate
    have hnext : ∀ (t' : Live σ) accepted, t'.calls = t.calls ++ [(.fundingRefund, accepted)] →
        Post (giveTokenBack a info t.session.tokenConsumed) t' fun _ t'' =>
          GivenBack 0 t''.calls := by
      intro t' accepted hcalls
      have hback := h.refundFunding hpos accepted
      apply post_giveTokenBack
      · rintro (hzero | hpg)
        · omega
        · rw [if_pos hpg] at hback
          rw [hcalls]
          exact hback
      · intro _ hpg s accepted'
        rw [if_neg (by simp [hpg])] at hback
        rw [called_calls, hcalls]
        exact hback.giveBack hpos accepted'
    apply post_bind
    refine post_attempt (post_call (fun s => ?_) fun s e => ?_)
    · exact hnext _ true rfl
    · exact hnext _ false rfl
  · have hzero : t.session.tokenConsumed = 0 := by
      have := h.nonneg
      omega
    rw [if_pos (by simp [← Bool.not_eq_true, hneeds, hpos])]
    apply post_ret
    have hbooks := h.books
    rw [hzero] at hbooks
    exact hbooks.givenBack

end Refund

section Settle

variable {calls : List (Call × Bool)} {t : Live σ}

/-- The record is one of a settled session exactly when the accounts accepted the settlement. -/
def Decided (calls : List (Call × Bool)) : Prop :=
  settlements calls = 1 ↔ ∀ x ∈ calls, x.1.settles = true → x.2 = true

/-- So many settlements, and nothing on the way to them was refused. -/
structure Accepted (n : Nat) (calls : List (Call × Bool)) : Prop where
  count : settlements calls = n
  accepted : ∀ x ∈ calls, x.1.settles = true → x.2 = true

variable {n : Nat}

theorem Accepted.snoc (h : Accepted n calls) {x : Call × Bool}
    (hx : x.1.settles = true → x.2 = true) (hother : isSettlement x = false) : Accepted n (calls ++ [x]) where
  count := by simp [hother, h.count]
  accepted y hy := by
    rcases List.mem_append.1 hy with hy | hy
    · exact h.accepted y hy
    · rw [List.mem_singleton.1 hy]
      exact hx

theorem Accepted.settle (h : Accepted 0 calls) (delta : Int) :
    Accepted 1 (calls ++ [(.fundingSettle delta, true)]) where
  count := by simp [h.count, isSettlement]
  accepted y hy := by
    rcases List.mem_append.1 hy with hy | hy
    · exact h.accepted y hy
    · rw [List.mem_singleton.1 hy]
      exact fun _ => rfl

theorem Accepted.decided (h : Accepted 1 calls) : Decided calls :=
  ⟨fun _ => h.accepted, fun _ => h.count⟩

/-- A refusal on the way to the settlement. -/
theorem Accepted.refused (h : Accepted 0 calls) {x : Call × Bool} (hx : x.1.settles = true)
    (hrefused : x.2 = false) : Decided (calls ++ [x]) := by
  have hzero : settlements (calls ++ [x]) = 0 := by
    obtain ⟨c, accepted⟩ := x
    obtain rfl : accepted = false := hrefused
    rw [settlements_snoc, h.count]
    cases c <;> rfl
  unfold Decided
  rw [hzero]
  refine ⟨nofun, fun hall => ?_⟩
  have := hall x (by simp) hx
  rw [hrefused] at this
  cases this

theorem Decided.snoc (h : Decided calls) {x : Call × Bool} (hx : x.1.settles = false) :
    Decided (calls ++ [x]) := by
  have hsame : settlements (calls ++ [x]) = settlements calls := by
    obtain ⟨c, accepted⟩ := x
    rw [settlements_snoc]
    cases c <;> simp_all [Call.settles, isSettlement]
  unfold Decided at h ⊢
  rw [hsame, h]
  constructor
  · intro hall y hy hs
    rcases List.mem_append.1 hy with hy | hy
    · exact hall y hy hs
    · rw [List.mem_singleton.1 hy, hx] at hs
      cases hs
  · exact fun hall y hy => hall y (List.mem_append_left _ hy)

theorem Running.accepted {s : BillingSession} (h : Running info s calls) : Accepted 0 calls where
  count := settlements_of_preparing h.books.preparing
  accepted x hx hs := by
    rw [Call.not_settles_of_prepares (h.books.preparing x hx)] at hs
    cases hs

theorem post_settleToken {delta : Int} {Q : Except Err (Except Err Unit) → Live σ → Prop}
    (h : ∀ r t', (t' = t ∨ ∃ s accepted, t' = t.called s (.tokenSettle delta) accepted) →
      Q (.ok r) t') :
    Post (settleToken a info delta) t Q := by
  unfold settleToken
  apply post_ite
  · exact fun _ => post_ret (h _ t (.inl rfl))
  · intro _
    exact post_attempt (post_call (fun s => h _ _ (.inr ⟨s, true, rfl⟩))
      fun s e => h _ _ (.inr ⟨s, false, rfl⟩))

theorem post_settleReserved {actualQuota : Int} (h : Accepted 0 t.calls)
    (hopen : t.session.fundingSettled = false) :
    Post (settleReserved a info actualQuota) t fun _ t' => Decided t'.calls := by
  unfold settleReserved
  apply post_bind
  apply post_self
  apply post_bind
  unfold settleFunding
  apply post_bind
  apply post_self
  dsimp only
  rw [if_neg (by simp [hopen])]
  apply post_bind
  refine post_call (fun s => ?_) fun s e => h.refused rfl rfl
  apply post_update
  have hsettled : Decided
      (t.calls ++ [(.fundingSettle (actualQuota - t.session.preConsumedQuota), true)]) :=
    (h.settle _).decided
  apply post_bind
  apply post_settleToken
  intro r t' ht'
  have hdecided : Decided t'.calls := by
    rcases ht' with rfl | ⟨s', accepted, rfl⟩
    · exact hsettled
    · exact hsettled.snoc rfl
  apply post_bind
  apply post_update
  cases r with
  | ok => exact post_ret hdecided
  | error e => exact post_fail hdecided

/-- The reservation of a trusted session: the settlement may go on, or is decided. -/
theorem post_reserveTrustedSettlement {actualQuota : Int} (h : Accepted 0 t.calls) :
    Post (reserveTrustedSettlement a info actualQuota) t fun r t' => match r with
      | .ok () => Accepted 0 t'.calls ∧ t'.session.fundingSettled = t.session.fundingSettled
      | .error _ => Decided t'.calls := by
  unfold reserveTrustedSettlement
  apply post_bind
  apply post_self
  apply post_bind
  refine post_call (fun s => ?_) fun s e => h.refused rfl rfl
  have hfunding : Accepted 0 (t.calls ++ [(.trustedFunding actualQuota, true)]) :=
    h.snoc (fun _ => rfl) rfl
  apply post_bind
  apply post_attempt
  refine post_preConsumeTokenQuota (fun hpg => ?_) (fun hpg s' => ?_) fun hpg s' e => ?_
  · exact post_update ⟨hfunding, rfl⟩
  · exact post_update ⟨hfunding.snoc (fun _ => rfl) rfl, rfl⟩
  · have hrefused : Decided (t.calls ++ [(.trustedFunding actualQuota, true)] ++
        [(.trustedToken actualQuota, false)]) := hfunding.refused rfl rfl
    apply post_bind
    refine post_attempt (post_call (fun s => ?_) fun s e => ?_)
    · exact post_fail (hrefused.snoc rfl)
    · exact post_fail (hrefused.snoc rfl)

theorem post_settle {actualQuota : Int} (h : Running info t.session t.calls) :
    Post (settle a info actualQuota) t fun _ t' => Decided t'.calls := by
  unfold settle
  apply post_bind
  apply post_self
  dsimp only
  rw [if_neg (by simp [h.settled])]
  apply post_ite
  · intro _
    apply post_bind
    refine post_mono (post_reserveTrustedSettlement h.accepted) ?_
    rintro (e | ⟨⟩) t' ht'
    · exact ht'
    · exact post_settleReserved ht'.1 (ht'.2.trans h.fundingSettled)
  · intro _
    exact post_settleReserved h.accepted h.fundingSettled

/-- The accounts were drawn on for `quota`, beside what the token misses anyway. -/
structure Paid (info : RelayInfo) (quota missing : Int) (calls : List (Call × Bool)) : Prop where
  funding : fundingDebit calls = quota
  token : tokenDebit calls = (if info.isPlayground then 0 else quota) + missing
  charges : chargeDebit calls = 0

/-- What a settlement of what is reserved takes. -/
theorem post_settleReserved_draws {actualQuota : Int} (hopen : t.session.fundingSettled = false) :
    Post (settleReserved a info actualQuota) t fun r t' => r = .ok () →
      fundingDebit t'.calls =
          fundingDebit t.calls + (actualQuota - t.session.preConsumedQuota) ∧
        tokenDebit t'.calls = tokenDebit t.calls +
          (if info.isPlayground then 0 else actualQuota - t.session.preConsumedQuota) ∧
        chargeDebit t'.calls = chargeDebit t.calls := by
  unfold settleReserved
  apply post_bind
  apply post_self
  apply post_bind
  unfold settleFunding
  apply post_bind
  apply post_self
  dsimp only
  rw [if_neg (by simp [hopen])]
  apply post_bind
  refine post_call (fun s => ?_) fun s e => nofun
  apply post_update
  apply post_bind
  unfold settleToken
  apply post_ite
  · intro hpg
    apply post_ret
    apply post_bind
    apply post_update
    apply post_ret
    intro _
    simp only [called_calls, fundingDebit_snoc, tokenDebit_snoc, chargeDebit_snoc, drawAfter, taken,
      charged, if_pos hpg, Int.add_zero, and_self]
  · intro hpg
    refine post_attempt (post_call (fun s' => ?_) fun s' e => ?_)
    · apply post_bind
      apply post_update
      apply post_ret
      intro _
      simp only [called_calls, fundingDebit_snoc, tokenDebit_snoc, chargeDebit_snoc, drawAfter,
        taken, charged, if_neg hpg, Int.add_zero, and_self]
    · apply post_bind
      apply post_update
      exact post_fail nofun

/-- The reservation of a trusted session takes what it is to be settled at. -/
theorem post_reserveTrustedSettlement_draws {actualQuota : Int} :
    Post (reserveTrustedSettlement a info actualQuota) t fun r t' => r = .ok () →
      (fundingDebit t'.calls = fundingDebit t.calls + actualQuota ∧
        tokenDebit t'.calls = tokenDebit t.calls + (if info.isPlayground then 0 else actualQuota) ∧
        chargeDebit t'.calls = chargeDebit t.calls) ∧
      t'.session.preConsumedQuota = actualQuota ∧
        t'.session.fundingSettled = t.session.fundingSettled := by
  unfold reserveTrustedSettlement
  apply post_bind
  apply post_self
  apply post_bind
  refine post_call (fun s => ?_) fun s e => nofun
  apply post_bind
  apply post_attempt
  refine post_preConsumeTokenQuota (fun hpg => ?_) (fun hpg s' => ?_) fun hpg s' e => ?_
  · apply post_update
    intro _
    simp only [Live.called, fundingDebit_snoc, tokenDebit_snoc, chargeDebit_snoc, drawAfter, taken,
      charged, if_pos hpg, Int.add_zero, and_self]
  · apply post_update
    intro _
    simp only [Live.called, fundingDebit_snoc, tokenDebit_snoc, chargeDebit_snoc, drawAfter, taken,
      charged, hpg, Bool.false_eq_true, if_false, Int.add_zero, and_self]
  · apply post_bind
    refine post_attempt (post_call (fun s => ?_) fun s e => ?_)
    · exact post_fail nofun
    · exact post_fail nofun

/-- A settlement that reports no error takes what was not pre-consumed. -/
theorem post_settle_draws {actualQuota : Int} (h : Running info t.session t.calls) :
    Post (settle a info actualQuota) t fun r t' => r = .ok () →
      fundingDebit t'.calls =
          fundingDebit t.calls + (max actualQuota 0 - t.session.preConsumedQuota) ∧
        tokenDebit t'.calls = tokenDebit t.calls +
          (if info.isPlayground then 0 else max actualQuota 0 - t.session.preConsumedQuota) ∧
        chargeDebit t'.calls = chargeDebit t.calls := by
  unfold settle
  apply post_bind
  apply post_self
  dsimp only
  rw [if_neg (by simp [h.settled])]
  apply post_ite
  · rintro ⟨-, hzero, -⟩
    apply post_bind
    refine post_mono post_reserveTrustedSettlement_draws ?_
    rintro (e | ⟨⟩) t' ht'
    · exact nofun
    · obtain ⟨⟨hfunding, htoken, hcharges⟩, hpre, hopen⟩ := ht' rfl
      refine post_mono (post_settleReserved_draws (hopen.trans h.fundingSettled)) ?_
      intro r t'' hsettled hr
      obtain ⟨hfunding', htoken', hcharges'⟩ := hsettled hr
      rw [hfunding', htoken', hcharges', hfunding, htoken, hcharges, hpre, hzero]
      simp
  · exact fun _ => post_settleReserved_draws h.fundingSettled

/-- A settlement that reports no error charges what it settles at, whatever was pre-consumed. -/
theorem post_settle_paid {actualQuota : Int} (h : Running info t.session t.calls)
    (hdrawn : Drawn 0 t.session t.calls) :
    Post (settle a info actualQuota) t fun r t' =>
      r = .ok () → Paid info (max actualQuota 0) (leaked t.calls) t'.calls := by
  have hleast := hdrawn.least
  have hdebit := h.books.debit
  rw [hdrawn.token] at hdebit
  refine post_mono (post_settle_draws h) fun r t' hsettled hr => ?_
  obtain ⟨hfunding, htoken, hcharges⟩ := hsettled hr
  constructor
  · rw [hfunding, hdrawn.funding]
    omega
  · rw [htoken, hdebit]
    split <;> omega
  · rw [hcharges, chargeDebit_of_preparing h.books.preparing]

end Settle

end CodeGo.Billing.Session
