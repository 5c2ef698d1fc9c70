import CodeGo.Commerce.SubscriptionEffects

/-!
# Names that the operations of subscriptions draw and record

Which identifiers and idempotency keys each operation adds to the ledger, for any
property `P` of names.
-/

namespace CodeGo.Commerce.SubscriptionNames

open Lib.Prog Lib.Trim Billing.Schema Billing.Statements Billing.LedgerRuntime Billing.Names Schema
  SubscriptionRules SubscriptionFunding SubscriptionEffects

section Names

/-- The names of the ledger are not of the kind `P` excludes. -/
def LedgerNames (P : String → Prop) (s : Store) : Prop := NamesAll P s.ledger

/-- `P` holds of a key and of the keys that the ledger derives from it. -/
structure KeyNames (P : String → Prop) (key : String) : Prop where
  own : P (trimSpace key)
  entry : P ("entry:" ++ trimSpace key)
  outbox : P (trimSpace ("outbox:" ++ trimSpace key))

variable {P : String → Prop} {u : Uuids} {s s' : Store}

theorem KeyNames.mono {P' : String → Prop} {key : String} (h : KeyNames P key)
    (hP : ∀ k, P k → P' k) : KeyNames P' key :=
  ⟨hP _ h.own, hP _ h.entry, hP _ h.outbox⟩

theorem preserves_ledgerTx {α : Type} {tx : Tx α} {Q : α → Prop}
    (h : ∀ l a l', tx.run l = (.ok a, l') → NamesAll P l → NamesAll P l' ∧ Q a) :
    Preserves (LedgerNames P) (ledgerTx tx) Q := by
  intro s a s' hr hn
  obtain ⟨l, hl, rfl⟩ := ledgerTx_ok hr
  exact h s.ledger a l hl hn

theorem names_ensureBillingAccount {p : EnsureAccountParams} (hP : P (u 0)) :
    Preserves (LedgerNames P) (ledgerTx (ensureBillingAccount u p)) fun a => P a.accountID := by
  apply preserves_ledgerTx
  intro l a l' hr hn
  obtain ⟨-, hr⟩ := checked hr
  obtain ⟨-, hr⟩ := checked hr
  exact hn.ensureAccount hr hP

theorem names_creditAccount {p : CreditAccountParams} (hP : ∀ i < 2, P (u i)) (hacc : P p.accountID)
    (hkey : KeyNames P p.idempotencyKey) :
    Preserves (LedgerNames P) (ledgerTx (creditAccount u p)) fun _ => True := by
  apply preserves_ledgerTx
  intro l a l' hr hn
  obtain ⟨-, hr⟩ := checked hr
  exact ⟨hn.credit hr hacc (hP 0 (by omega)) hkey.own (hP 1 (by omega)) hkey.outbox, trivial⟩

theorem names_createReservation {p : CreateReservationParams} (hP : ∀ i < 3, P (u i))
    (hacc : P p.accountID) (hkey : KeyNames P p.idempotencyKey) :
    Preserves (LedgerNames P) (ledgerTx (createReservation u p)) fun _ => True := by
  apply preserves_ledgerTx
  intro l a l' hr hn
  obtain ⟨-, hr⟩ := checked hr
  exact ⟨hn.reserve hr hacc (hP 0 (by omega)) hkey.own (hP 1 (by omega)) hkey.entry
    (hP 2 (by omega)) hkey.outbox, trivial⟩

/-- A step that leaves the ledger alone. -/
theorem names_same {α : Type} {p : Flow α} (h : ∀ s a s', p.run s = (.ok a, s') → s'.ledger = s.ledger) :
    Preserves (LedgerNames P) p fun _ => True := by
  intro s a s' hr hn
  refine ⟨?_, trivial⟩
  rw [LedgerNames, h s a s' hr]
  exact hn

theorem names_getSubscriptionPlanRecordTx (planID : Int) :
    Preserves (LedgerNames P) (getSubscriptionPlanRecordTx planID) fun _ => True := by
  apply names_same
  intro s a s' hr
  rw [(getSubscriptionPlanRecordTx_ok hr).2]

theorem names_saveSubscription (sub : UserSubscription) :
    Preserves (LedgerNames P) (saveSubscription sub) fun _ => True := by
  apply names_same
  intro s a s' hr
  cases hr
  rfl

theorem names_restore {sub : UserSubscription} {operationKey : String} (hP : ∀ i < 3, P (u i))
    (hkey : KeyNames P (resetKey sub operationKey)) :
    Preserves (LedgerNames P) (restoreSubscriptionLedgerBalanceAfterResetTx u sub operationKey)
      fun _ => True := by
  unfold restoreSubscriptionLedgerBalanceAfterResetTx
  apply preserves_ite
  · exact fun _ => preserves_ret trivial
  intro _
  apply preserves_bind (names_ensureBillingAccount (hP 0 (by omega)))
  intro a ha
  apply preserves_bind (Q := fun _ => True)
  · apply preserves_ledgerTx
    intro l row l' hr hn
    rw [← (lockSnapshot_ok hr).2]
    exact ⟨hn, trivial⟩
  intro row _
  apply preserves_ite
  · exact fun _ => preserves_ret trivial
  intro _
  apply preserves_bind (names_creditAccount (fun i hi => hP (1 + i) (by omega)) ha hkey)
  exact fun _ _ => preserves_ret trivial

variable {cal : Calendar} {now : Int} {plan : SubscriptionPlan} {sub : UserSubscription}
  {record : SubscriptionPreConsumeRecord}

/-- The key of the grant that a due reset makes. -/
def dueKey (cal : Calendar) (plan : SubscriptionPlan) (sub : UserSubscription) (now : Int) : String :=
  resetKey sub ("periodic:" ++ toString sub.id ++ ":" ++ toString
    (advanceReset cal plan sub.endTime now (resetBase sub) (nextReset cal plan sub)).1)

theorem names_maybeReset (hP : ∀ i < 3, P (u i))
    (hkey : resetDue cal plan sub now = true → KeyNames P (dueKey cal plan sub now)) :
    Preserves (LedgerNames P) (maybeResetUserSubscriptionWithPlanTx cal u sub plan now)
      fun _ => True := by
  unfold maybeResetUserSubscriptionWithPlanTx
  apply preserves_ite
  · exact fun _ => preserves_ret trivial
  intro hperiod
  apply preserves_ite
  · intro _
    apply names_same
    intro s a s' hr
    rcases (recordResetTimes_ok hr).2 with ⟨rfl, -⟩ | rfl <;> rfl
  intro hnext
  apply preserves_ite
  · exact fun _ => preserves_ret trivial
  intro hpos
  have hdue : resetDue cal plan sub now = true := by
    simp only [resetDue, Bool.and_eq_true, decide_eq_true_eq]
    exact ⟨⟨hperiod, by omega⟩, by omega⟩
  dsimp only
  apply preserves_ite
  · intro _
    apply preserves_bind
    · apply names_restore hP
      have hid : (resetUsage plan sub _ _).id = sub.id := terms_id (resetUsage_terms
        (advanceReset cal plan sub.endTime now (resetBase sub) (nextReset cal plan sub)).1
        (advanceReset cal plan sub.endTime now (resetBase sub) (nextReset cal plan sub)).2)
      have hkey := hkey hdue
      unfold dueKey resetKey at hkey
      unfold resetKey
      rw [hid]
      exact hkey
    intro _ _
    apply preserves_bind (names_saveSubscription _)
    exact fun _ _ => preserves_ret trivial
  · intro _
    apply preserves_bind (names_saveSubscription _)
    exact fun _ _ => preserves_ret trivial

theorem names_reserve (hP : ∀ i < 6, P (u i)) (hboot : ∀ id, KeyNames P (bootstrapKey id))
    (hkey : KeyNames P ("subscription:" ++ record.requestID ++ ":reserve")) :
    Preserves (LedgerNames P) (reserveSubscriptionLedgerTx u sub record) fun _ => True := by
  unfold reserveSubscriptionLedgerTx
  apply preserves_ite
  · exact fun _ => preserves_ret trivial
  intro _
  apply preserves_bind (names_ensureBillingAccount (hP 0 (by omega)))
  intro a ha
  apply preserves_bind (Q := fun _ => True)
  · unfold bootstrapIfEmptyTx
    apply preserves_bind (Q := fun _ => True)
    · apply preserves_ledgerTx
      intro l n l' hr hn
      cases hr
      exact ⟨hn, trivial⟩
    intro n _
    apply preserves_ite
    · intro _
      unfold bootstrapSubscriptionLedgerTx
      apply preserves_ite
      · intro _
        apply preserves_bind
          (names_creditAccount (fun i hi => hP (1 + i) (by omega)) ha (hboot sub.id))
        exact fun _ _ => preserves_ret trivial
      · exact fun _ => preserves_ret trivial
    · exact fun _ => preserves_ret trivial
  intro _ _
  apply preserves_bind (names_createReservation (fun i hi => hP (3 + i) (by omega)) ha hkey)
  exact fun _ _ => preserves_ret trivial

theorem names_read {α : Type} (f : Store → α) :
    Preserves (LedgerNames P) (Schema.read f) fun _ => True := by
  apply names_same
  intro s a s' hr
  rw [(read_ok hr).2]

theorem names_replayed (sub : UserSubscription) :
    Preserves (LedgerNames P) (replayedPreConsume record sub) fun _ => True := by
  unfold replayedPreConsume
  apply preserves_ite
  · exact fun _ => preserves_fail
  · exact fun _ => preserves_ret trivial

theorem names_consumeCandidate (hP : ∀ i < 6, P (u i)) (hboot : ∀ id, KeyNames P (bootstrapKey id))
    (hkey : KeyNames P ("subscription:" ++ record.requestID ++ ":reserve")) :
    Preserves (LedgerNames P) (consumeCandidate u plan sub record) fun _ => True := by
  unfold consumeCandidate
  apply preserves_bind (Q := fun _ => True)
  · apply names_same
    intro s a s' hr
    rw [run_attempt, createPreConsume, writeTable, run_stepE] at hr
    cases ht : s.preConsumes.insert? record <;> rw [ht] at hr <;> cases hr <;> rfl
  intro r _
  cases r with
  | error e =>
    apply preserves_bind (names_read _)
    intro found _
    cases found with
    | some dup => exact names_replayed sub
    | none => exact preserves_fail
  | ok _ =>
    apply preserves_bind (names_reserve hP hboot hkey)
    intro _ _
    apply preserves_bind (Q := fun _ => True)
    · apply names_same
      intro s a s' hr
      rw [(ofExcept_ok hr).2]
    intro used _
    apply preserves_bind (names_saveSubscription used)
    exact fun _ _ => preserves_ret trivial

theorem names_tryCandidates {subs : List UserSubscription} (hP : ∀ i < 9 * subs.length, P (u i))
    (hkeys : ∀ (sub : UserSubscription) (base : Int),
      KeyNames P (resetKey sub ("periodic:" ++ toString sub.id ++ ":" ++ toString base)))
    (hboot : ∀ id, KeyNames P (bootstrapKey id))
    (hkey : KeyNames P ("subscription:" ++ record.requestID ++ ":reserve")) :
    Preserves (LedgerNames P) (tryCandidates cal u now record subs) fun _ => True := by
  induction subs generalizing u with
  | nil => exact preserves_fail
  | cons c rest ih =>
    rw [List.length_cons] at hP
    unfold tryCandidates
    apply preserves_bind (Q := fun _ => True)
    · unfold tryCandidate
      apply preserves_bind (names_getSubscriptionPlanRecordTx _)
      intro plan _
      apply preserves_bind (names_maybeReset (fun i hi => hP i (by omega)) fun _ => hkeys c _)
      intro sub _
      apply preserves_ite
      · intro _
        apply preserves_bind (Q := fun _ => True)
        · apply names_consumeCandidate (fun i hi => hP (3 + i) (by omega)) hboot
          exact hkey
        · exact fun _ _ => preserves_ret trivial
      · exact fun _ => preserves_ret trivial
    intro chosen _
    cases chosen with
    | some res => exact preserves_ret trivial
    | none => exact ih fun i hi => hP (9 + i) (by omega)

theorem names_preConsume {requestID modelName : String} {userID amount : Int}
    {res : SubscriptionPreConsumeResult} (hnew : s.preConsumes.get? requestID = none)
    (hP : ∀ i < 9 * (activeSubscriptions userID now s).length, P (u i))
    (hkeys : ∀ (sub : UserSubscription) (base : Int),
      KeyNames P (resetKey sub ("periodic:" ++ toString sub.id ++ ":" ++ toString base)))
    (hboot : ∀ id, KeyNames P (bootstrapKey id))
    (hkey : KeyNames P ("subscription:" ++ requestID ++ ":reserve"))
    (h : (preConsumeUserSubscription cal u now requestID userID modelName amount).run s =
      (.ok res, s')) (hn : NamesAll P s.ledger) : NamesAll P s'.ledger := by
  obtain ⟨-, h⟩ := checked h
  obtain ⟨-, h⟩ := checked h
  obtain ⟨-, h⟩ := checked h
  obtain ⟨found, s₁, ⟨rfl, rfl⟩, h⟩ := run_bind_of_ok h read_ok
  rw [findPreConsume, hnew] at h
  obtain ⟨subs, s₂, ⟨hsubs, rfl⟩, h⟩ := run_bind_of_ok h read_ok
  cases subs with
  | nil => cases h
  | cons first rest =>
    obtain ⟨ordered, s₃, ⟨hordered, rfl⟩, h⟩ := run_bind_of_ok h read_ok
    have hlen : ordered.length = (activeSubscriptions userID now s).length := by
      rw [hordered, ← hsubs, List.length_insertionSort]
    have htry : Preserves (LedgerNames P) (tryCandidates cal u now
        (newRecord requestID userID modelName amount) ordered) fun _ => True :=
      names_tryCandidates (by rw [hlen]; exact hP) hkeys hboot hkey
    exact (htry s res s' h hn).1

end Names

section Keys

variable {key name t t' x : String}

theorem ne_append (pre : String) {a b : String} (h : a ≠ b) : pre ++ a ≠ pre ++ b := by
  intro e
  have hlist := congrArg String.toList e
  rw [String.toList_append, String.toList_append] at hlist
  exact h (String.toList_injective (List.append_cancel_left hlist))

/-- An identifier that `GetUUID` draws is no key. -/
theorem ne_of_isUuid (h : IsUuid x) (hname : ':' ∈ name.toList) : x ≠ name := by
  rintro rfl
  have hdigit := h.digits ':' hname
  revert hdigit
  decide

/-- A key, and the names that the ledger derives from it. -/
def derived (key : String) : List String := [key, "entry:" ++ key, "outbox:" ++ key]

theorem colon_mem_derived (hname : name ∈ derived ("subscription:" ++ t)) : ':' ∈ name.toList := by
  simp only [derived, List.mem_cons, List.not_mem_nil, or_false] at hname
  rcases hname with rfl | rfl | rfl <;> simp [String.toList_append]

theorem dash_ne_colon : "subscription-" ++ t ≠ "subscription:" ++ t' := by
  intro e
  have hchar := congrArg (fun k : String => k.toList[12]?) e
  simp [String.toList_append] at hchar

/-- The names of a key of the one kind are none of those of the other. -/
theorem keyNames_dash_colon (hsolid : Solid ("subscription-" ++ t))
    (hname : name ∈ derived ("subscription:" ++ t')) :
    KeyNames (· ≠ name) ("subscription-" ++ t) := by
  have hsolid' : Solid ("outbox:" ++ ("subscription-" ++ t)) := hsolid.append_left (by decide)
  have hdash : ("subscription-" ++ t).toList.head? = some 's' := head_append (by decide) t
  have hcolon : ("subscription:" ++ t').toList.head? = some 's' := head_append (by decide) t'
  have hentry : ∀ k : String, ("entry:" ++ k).toList.head? = some 'e' :=
    fun k => head_append (by decide) k
  have houtbox : ∀ k : String, ("outbox:" ++ k).toList.head? = some 'o' :=
    fun k => head_append (by decide) k
  simp only [derived, List.mem_cons, List.not_mem_nil, or_false] at hname
  constructor
  case own =>
    rw [hsolid.trimSpace_eq]
    rcases hname with rfl | rfl | rfl
    · exact dash_ne_colon
    · exact ne_of_head (by rw [hdash, hentry]; decide)
    · exact ne_of_head (by rw [hdash, houtbox]; decide)
  case entry =>
    rw [hsolid.trimSpace_eq]
    rcases hname with rfl | rfl | rfl
    · exact ne_of_head (by rw [hentry, hcolon]; decide)
    · exact ne_append _ dash_ne_colon
    · exact ne_of_head (by rw [hentry, houtbox]; decide)
  case outbox =>
    rw [hsolid.trimSpace_eq, hsolid'.trimSpace_eq]
    rcases hname with rfl | rfl | rfl
    · exact ne_of_head (by rw [houtbox, hcolon]; decide)
    · exact ne_of_head (by rw [houtbox, hentry]; decide)
    · exact ne_append _ dash_ne_colon

end Keys

end CodeGo.Commerce.SubscriptionNames
