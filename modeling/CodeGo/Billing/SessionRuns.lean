import CodeGo.Billing.SessionLog

/-!
# A session from its opening to its end

A request opens a session, asks for more while it runs, and settles or refunds it in the end. The
accounts accept and refuse what they like.
-/

namespace CodeGo.Billing.Session

open Lib.Prog

variable {σ ℓ : Type} (a : Accounts σ ℓ) (info : RelayInfo)

/-- The reservations of a running request, which goes on when one is refused. -/
def reserveAll : List Int → SessionM σ ℓ Unit
  | [] => pure ()
  | targetQuota :: targets => do
    let _ ← reserve a info targetQuota
    reserveAll targets

/-- What the funding was extended by. -/
def extension : Call × Bool → Int
  | (.fundingReserve delta, true) => delta
  | _ => 0

def extensions (calls : List (Call × Bool)) : Int := (calls.map extension).sum

/-- The extensions that the session does not know of: the funding made them, the token refused its
part, and nothing takes them back. -/
def stranded (t : Live σ) : Int := extensions t.calls - t.session.extraReserved

variable {a info} {t : Live σ} {quota kept : Int} {calls : List (Call × Bool)} {x : Call × Bool}

@[simp] theorem extensions_snoc : extensions (calls ++ [x]) = extensions calls + extension x := by
  simp [extensions]

/-- A running session whose funding misses what was pre-consumed, and what was stranded since it was
`kept`. -/
structure Extended (info : RelayInfo) (kept : Int) (t : Live σ) : Prop where
  running : Running info t.session t.calls
  least : 0 ≤ t.session.preConsumedQuota
  token : t.session.tokenConsumed = t.session.preConsumedQuota
  funding : fundingDebit t.calls = t.session.preConsumedQuota + (stranded t - kept)

theorem extended_of_drawn (hrunning : Running info t.session t.calls)
    (hdrawn : Drawn 0 t.session t.calls) : Extended info (stranded t) t where
  running := hrunning
  least := hdrawn.least
  token := by
    have := hdrawn.least
    rw [hdrawn.token]
    omega
  funding := by
    have := hdrawn.least
    rw [hdrawn.funding]
    omega

/-- One more reservation, accepted or refused on either side. -/
theorem Extended.reserve (h : Extended info kept t) :
    Post (reserve a info quota) t fun r t' => (∃ apiErr, r = .ok apiErr) ∧ Extended info kept t' := by
  have hrunning : Post (Session.reserve a info quota) t _ := post_reserve h.running
  have hcounts : Post (Session.reserve a info quota) t fun _ t' =>
      0 ≤ t'.session.preConsumedQuota ∧ t'.session.tokenConsumed = t'.session.preConsumedQuota ∧
        fundingDebit t'.calls = t'.session.preConsumedQuota + (stranded t' - kept) := by
    have hleast := h.least
    have htoken := h.token
    have hfunding := h.funding
    unfold stranded at hfunding ⊢
    unfold Session.reserve
    apply post_bind
    apply post_self
    apply post_ite
    · exact fun _ => post_ret ⟨hleast, htoken, hfunding⟩
    · intro hmore
      rw [not_or, not_or, not_or] at hmore
      apply post_bind
      unfold reserveFunding
      apply post_bind
      apply post_self
      apply post_ite
      · intro _
        apply post_bind
        refine post_attempt (post_call (fun s => ?_) fun s e => post_ret (post_ret ?_))
        · apply post_ret
          unfold reserveToken
          apply post_bind
          apply post_attempt
          refine post_preConsumeTokenQuota (fun _ => post_bind (post_update (post_ret ?_)))
            (fun _ s' => post_bind (post_update (post_ret ?_))) fun _ s' e => post_ret ?_
          all_goals
            simp only [Live.called, fundingDebit_snoc, extensions_snoc, drawAfter, extension]
            omega
        · simp only [Live.called, fundingDebit_snoc, extensions_snoc, drawAfter, extension]
          omega
      · exact fun _ => post_ret (post_ret ⟨hleast, htoken, hfunding⟩)
  exact ⟨hrunning.1, hrunning.2, hcounts.1, hcounts.2.1, hcounts.2.2⟩

theorem Extended.reserveAll (h : Extended info kept t) (targets : List Int) :
    Post (reserveAll a info targets) t fun r t' => r = .ok () ∧ Extended info kept t' := by
  induction targets generalizing t with
  | nil => exact post_ret ⟨rfl, h⟩
  | cons targetQuota targets ih =>
    apply post_bind
    refine post_mono h.reserve ?_
    rintro _ t' ⟨⟨_, rfl⟩, h'⟩
    exact ih h'

/-- A settlement that reports no error. -/
theorem Extended.settle (h : Extended info kept t) (actualQuota : Int) :
    Post (settle a info actualQuota) t fun r t' => r = .ok () →
      fundingDebit t'.calls = max actualQuota 0 + (stranded t - kept) ∧
        tokenDebit t'.calls =
          (if info.isPlayground then 0 else max actualQuota 0) + leaked t.calls := by
  have hdebit := h.running.books.debit
  rw [h.token] at hdebit
  refine post_mono (post_settle_draws h.running) fun r t' hsettled hr => ?_
  obtain ⟨hfunding, htoken, -⟩ := hsettled hr
  constructor
  · rw [hfunding, h.funding]
    omega
  · rw [htoken, hdebit]
    split <;> omega

/-- Nothing is held and nothing taken exactly when the accounts accepted all that was to be given
back. -/
def ClosesIff (calls : List (Call × Bool)) : Prop :=
  (fundingHeld calls = false ∧ tokenDebit calls = 0) ↔
    ∀ x ∈ calls, x.1.compensates = true → x.2 = true

/-- What a request draws in the end: a settlement without an error leaves the funding and the token
short of the actual quota, and of what is stranded since the session was opened; a refund closes the
hold unless an account refuses it, and so does an opening that was refused. -/
theorem session_draws (accounts : σ) (session : BillingSession) (claude : Bool) (quota : Nat)
    (targets : List Int) (actualQuota : Int) :
    Post (newBillingSession a info claude quota) ⟨accounts, session, []⟩ fun opened t₁ =>
      match opened with
      | .error _ => False
      | .ok (some _) => ClosesIff t₁.calls
      | .ok none =>
        Post (reserveAll a info targets) t₁ fun _ t₂ =>
          (Post (settle a info actualQuota) t₂ fun r t₃ => r = .ok () →
            fundingDebit t₃.calls = max actualQuota 0 + (stranded t₂ - stranded t₁) ∧
              tokenDebit t₃.calls =
                (if info.isPlayground then 0 else max actualQuota 0) + leaked t₂.calls) ∧
          Post (refund a info) t₂ fun _ t₃ => ClosesIff t₃.calls := by
  refine post_mono (post_newBillingSession books_nil le_rfl (Int.natCast_nonneg quota)) ?_
  rintro (e | _ | apiErr) t₁ hstarted
  · exact hstarted
  · refine post_mono ((extended_of_drawn hstarted.1 hstarted.2).reserveAll targets) ?_
    rintro _ t₂ ⟨-, h⟩
    exact ⟨h.settle actualQuota, post_mono (post_refund h.running) fun _ _ hback => hback.closed_iff⟩
  · exact hstarted.givenBack.closed_iff

end CodeGo.Billing.Session
