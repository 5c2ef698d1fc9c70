import CodeGo.Billing.Mirror
import CodeGo.Bounty.Effects

/-!
# The ledger rows of an escrow

The rows under the keys of a bounty task, and what the other functions of the
billing service leave of them.
-/

namespace CodeGo.Bounty.EscrowLedger

open Lib Lib.Prog Lib.Trim Billing.Schema Billing.Statements Billing.LedgerRuntime Billing.Effects
  Billing.Invariant Billing.Preservation Billing.Recorded Billing.Wallet Billing.Mirror
  Platform.Database Identity.Schema Tasks

section Keys

variable {k id id' : String}

/-- The key of a hold or of a credit of some task. -/
def EscrowKey (k : String) : Prop := ∃ id, k = reserveKey id ∨ k = creditKey id

theorem solid_reserveKey (id : String) : Solid (reserveKey id) := by
  have hlast : Solid ":reserve" := by decide
  exact hlast.append_left (solidHead_append (by decide))

theorem solid_creditKey (id : String) : Solid (creditKey id) := by
  have hlast : Solid ":credit" := by decide
  exact hlast.append_left (solidHead_append (by decide))

theorem head_escrowKey (h : EscrowKey k) : k.toList.head? = some 'b' := by
  obtain ⟨id, rfl | rfl⟩ := h
  · exact head_append (head_append (by decide) id) ":reserve"
  · exact head_append (head_append (by decide) id) ":credit"

theorem not_escrowKey_of_head {c : Char} (h : k.toList.head? = some c) (hc : c ≠ 'b') :
    ¬ EscrowKey k := by
  intro hk
  rw [head_escrowKey hk, Option.some.injEq] at h
  exact hc h.symm

/-- A key that starts like no escrow key, also after the trim. -/
theorem not_escrowKey_trim {c : Char} (h : k.toList.head? = some c) (hspace : isSpace c = false)
    (hc : c ≠ 'b') : ¬ EscrowKey (trimSpace k) :=
  not_escrowKey_of_head (head_trimSpace h hspace) hc

theorem ne_of_suffix {a x y : String} {n : Nat} (hx : x.toList.length = n) (hy : y.toList.length = n)
    (hne : x.toList ≠ y.toList) (b : String) : a ++ x ≠ b ++ y := by
  intro h
  have hlist := congrArg String.toList h
  rw [String.toList_append, String.toList_append] at hlist
  exact hne (List.append_inj_right' hlist (by rw [hx, hy]))

theorem reserveKey_inj (h : reserveKey id = reserveKey id') : id = id' := append_inj_middle h

theorem creditKey_inj (h : creditKey id = creditKey id') : id = id' := append_inj_middle h

theorem reserveKey_ends (id : String) : ∃ a, reserveKey id = a ++ "eserve" :=
  ⟨"bounty:" ++ id ++ ":r", by rw [String.append_assoc]; rfl⟩

theorem creditKey_ends (id : String) : ∃ a, creditKey id = a ++ "credit" :=
  ⟨"bounty:" ++ id ++ ":", by rw [String.append_assoc]; rfl⟩

theorem solid_releaseKey (id : String) : Solid (releaseKey id) := by
  have hlast : Solid ":release" := by decide
  exact hlast.append_left (solidHead_append (by decide))

/-- A release is recorded under another key. -/
theorem not_escrowKey_release (id : String) : ¬ EscrowKey (releaseKey id) := by
  have hends : releaseKey id = "bounty:" ++ id ++ ":r" ++ "elease" := by
    rw [String.append_assoc]
    rfl
  rw [hends]
  rintro ⟨id', h | h⟩
  · obtain ⟨b, hb⟩ := reserveKey_ends id'
    rw [hb] at h
    exact ne_of_suffix (n := 6) (by decide) (by decide) (by decide) b h
  · obtain ⟨b, hb⟩ := creditKey_ends id'
    rw [hb] at h
    exact ne_of_suffix (n := 6) (by decide) (by decide) (by decide) b h

theorem reserveKey_ne_creditKey : reserveKey id ≠ creditKey id' := by
  obtain ⟨a, ha⟩ := reserveKey_ends id
  obtain ⟨b, hb⟩ := creditKey_ends id'
  rw [ha, hb]
  exact ne_of_suffix (n := 6) (by decide) (by decide) (by decide) b

/-- The grant of a first balance ends in the name of a wallet. -/
theorem mirrorBootstrapKey_ends (userID : Int) (w : Wallet) :
    ∃ a, mirrorBootstrapKey userID w = a ++ "wallet" := by
  cases w with
  | wallet => exact ⟨_, rfl⟩
  | claudeWallet =>
    refine ⟨"bounty:mirror-bootstrap:" ++ toString userID ++ ":" ++ "claude_", ?_⟩
    rw [String.append_assoc]
    rfl

theorem solid_mirrorBootstrapKey (userID : Int) (w : Wallet) :
    Solid (mirrorBootstrapKey userID w) := by
  have hlast : Solid (accountType w) := by cases w <;> decide
  exact hlast.append_left (solidHead_append (solidHead_append (by decide)))

theorem not_escrowKey_mirrorBootstrap (userID : Int) (w : Wallet) :
    ¬ EscrowKey (mirrorBootstrapKey userID w) := by
  rintro ⟨id, h⟩
  obtain ⟨a, ha⟩ := mirrorBootstrapKey_ends userID w
  rcases h with h | h
  · obtain ⟨b, hb⟩ := reserveKey_ends id
    rw [ha, hb] at h
    exact ne_of_suffix (n := 6) (by decide) (by decide) (by decide) b h
  · obtain ⟨b, hb⟩ := creditKey_ends id
    rw [ha, hb] at h
    exact ne_of_suffix (n := 6) (by decide) (by decide) (by decide) b h

end Keys

section Spares

/-- The keys under which the ledger keeps the escrow of a task. -/
def TaskKey (id k : String) : Prop := k = reserveKey id ∨ k = creditKey id

theorem TaskKey.escrowKey {id k : String} (h : TaskKey id k) : EscrowKey k := ⟨id, h⟩

theorem TaskKey.id_eq {id id' k : String} (h : TaskKey id k) (h' : TaskKey id' k) : id = id' := by
  rcases h with rfl | rfl <;> rcases h' with h' | h'
  · exact reserveKey_inj h'
  · exact absurd h' reserveKey_ne_creditKey
  · exact absurd h'.symm reserveKey_ne_creditKey
  · exact creditKey_inj h'

/-- The ledger is still sound, and its rows under the keys `P` are the same. -/
structure Spares (P : String → Prop) (l l' : Ledger) : Prop where
  sound : Sound l → Sound l'
  accounts : ∀ a ∈ l.accounts, a ∈ l'.accounts
  entries : ∀ e : BillingLedgerEntry, P e.idempotencyKey → (e ∈ l'.entries ↔ e ∈ l.entries)
  reservations : ∀ r : BillingReservation, P r.idempotencyKey →
    (r ∈ l'.reservations ↔ r ∈ l.reservations)
  settlements : ∀ x ∈ l.settlements, x ∈ l'.settlements
  closed : ∀ r ∈ l.reservations, r.status ≠ .open → r ∈ l'.reservations

variable {P : String → Prop} {l l₁ l' : Ledger}

theorem Spares.refl (P : String → Prop) (l : Ledger) : Spares P l l :=
  ⟨fun h => h, fun _ h => h, fun _ _ => Iff.rfl, fun _ _ => Iff.rfl, fun _ h => h, fun _ h _ => h⟩

theorem Spares.trans (h : Spares P l l₁) (h' : Spares P l₁ l') : Spares P l l' where
  sound hs := h'.sound (h.sound hs)
  accounts a ha := h'.accounts a (h.accounts a ha)
  entries e he := (h'.entries e he).trans (h.entries e he)
  reservations r hr := (h'.reservations r hr).trans (h.reservations r hr)
  settlements x hx := h'.settlements x (h.settlements x hx)
  closed r hr hst := h'.closed r (h.closed r hr hst) hst

theorem Spares.mono {P' : String → Prop} (h : Spares P l l') (hP : ∀ k, P' k → P k) :
    Spares P' l l' where
  sound := h.sound
  accounts := h.accounts
  entries e he := h.entries e (hP _ he)
  reservations r hr := h.reservations r (hP _ hr)
  settlements := h.settlements
  closed := h.closed

/-- A new row under another key is none of those of `P`. -/
theorem mem_insert_other {α : Type} [Indexed α String] {t t' : Table α} {r : α} {f : α → String}
    (h : t.insert? r = some t') (hkey : ¬ P (f r)) {x : α} (hx : P (f x)) : x ∈ t' ↔ x ∈ t := by
  rw [Table.mem_insert? h]
  refine or_iff_left fun heq => hkey ?_
  rw [← heq]
  exact hx

theorem spares_of_account {p : EnsureAccountParams} {a : BillingAccount}
    (h : AccountRecorded l l' p a) : Spares P l l' where
  sound := h.sound
  accounts b hb := h.keeps hb
  entries e _ := by rw [h.ensured.entries]
  reservations r _ := by rw [h.ensured.reservations]
  settlements x hx := by rwa [h.ensured.settlements]
  closed r hr _ := by rwa [h.ensured.reservations]

theorem spares_of_credit {p : CreditAccountParams} {e : BillingLedgerEntry}
    (h : CreditRecorded l l' p e) (hkey : ¬ P (trimSpace p.idempotencyKey)) : Spares P l l' := by
  obtain ⟨hreservations, hsettlements⟩ := h.records_eq
  refine ⟨h.sound, fun b hb => ?_, fun f hf => ?_, fun r _ => ?_, fun x hx => ?_, fun r hr _ => ?_⟩
  · rwa [h.accounts_eq]
  · rcases h.outcome with ⟨-, rfl⟩ | ⟨hc, hk⟩
    · exact Iff.rfl
    · exact mem_insert_other (f := BillingLedgerEntry.idempotencyKey) hc.entries (by rwa [hk]) hf
  · rw [hreservations]
  · rwa [hsettlements]
  · rwa [hreservations]

/-- The key of an entry of a hold or of a settlement. -/
theorem not_escrowKey_entry (k : String) : ¬ EscrowKey ("entry:" ++ k) :=
  not_escrowKey_of_head (c := 'e') (head_append (by decide) k) (by decide)

theorem spares_of_reservation {id : String} {p : CreateReservationParams} {r : BillingReservation}
    (hP : ∀ k, P k → EscrowKey k) (h : ReservationRecorded id l l' p r)
    (hkey : ¬ P (trimSpace p.idempotencyKey)) : Spares P l l' := by
  rcases h.outcome with ⟨-, rfl⟩ | ⟨e, hc, -, hk, hentry⟩
  · exact .refl P l'
  · refine ⟨h.sound, fun b hb => ?_, fun f hf => ?_, fun x hx => ?_, fun x hx => ?_,
      fun x hx _ => (Table.mem_insert? hc.reservations).2 (.inl hx)⟩
    · rwa [hc.accounts]
    · refine mem_insert_other (f := BillingLedgerEntry.idempotencyKey) hc.entries (fun hke => ?_) hf
      rw [hentry] at hke
      exact not_escrowKey_entry _ (hP _ hke)
    · exact mem_insert_other (f := BillingReservation.idempotencyKey) hc.reservations (by rwa [hk]) hx
    · rwa [hc.settlements]

/-- A reservation under another key changes its status. -/
theorem mem_close_other {t : Table BillingReservation} {r x : BillingReservation}
    {st : ReservationStatus} (hr : t.get? r.reservationID = some r)
    (hkey : ¬ P r.idempotencyKey) (hx : P x.idempotencyKey) :
    x ∈ t.update r.reservationID _ (keepsIndexes_withStatus st) ↔ x ∈ t := by
  rw [mem_close hr]
  constructor
  · rintro (⟨hmem, -⟩ | rfl)
    · exact hmem
    · exact absurd hx hkey
  · intro hmem
    refine .inl ⟨hmem, fun hid => hkey ?_⟩
    have heq := Table.eq_of_clash hmem (Table.mem_of_get? hr) (Indexed.clash_of_pk x r hid)
    rwa [← heq]

/-- A reservation that was closed before is not the one that closes. -/
theorem mem_close_closed {t : Table BillingReservation} {r x : BillingReservation}
    {st : ReservationStatus} (hr : t.get? r.reservationID = some r) (hopen : r.status = .open)
    (hx : x ∈ t) (hst : x.status ≠ .open) :
    x ∈ t.update r.reservationID _ (keepsIndexes_withStatus st) := by
  rw [mem_close hr]
  refine .inl ⟨hx, fun hid => hst ?_⟩
  have heq := Table.eq_of_clash hx (Table.mem_of_get? hr) (Indexed.clash_of_pk x r hid)
  rw [heq, hopen]

theorem settleEntries_spares {t t' : Table BillingLedgerEntry} {id a : String}
    {x : BillingSettlement} {after : Int} (hP : ∀ k, P k → EscrowKey k)
    (h : SettleEntries t t' id a x after) {e : BillingLedgerEntry} (he : P e.idempotencyKey) :
    e ∈ t' ↔ e ∈ t := by
  rcases h with ⟨-, rfl⟩ | ⟨f, hf, -⟩
  · exact Iff.rfl
  · refine mem_insert_other (f := BillingLedgerEntry.idempotencyKey) hf.entries (fun hke => ?_) he
    rw [hf.key] at hke
    exact not_escrowKey_entry _ (hP _ hke)

theorem spares_of_settlement {p : SettleReservationParams} {x : BillingSettlement}
    (hP : ∀ k, P k → EscrowKey k) (h : SettlementRecorded l l' p x)
    (hkey : ∀ r, l.reservations.get? p.reservationID = some r → ¬ P r.idempotencyKey) :
    Spares P l l' := by
  rcases h.outcome with ⟨-, rfl⟩ | ⟨r, id, hc, he⟩
  · exact .refl P l'
  · have hid : r.reservationID = p.reservationID := by
      rw [← hc.reservation, h.reservation]
    have hother := hkey r (by rw [← hid]; exact hc.current)
    refine ⟨h.sound, fun b hb => ?_, fun f hf => settleEntries_spares hP he hf, fun y hy => ?_,
      fun y hy => ?_, fun y hy hst => ?_⟩
    · rwa [hc.accounts]
    · rw [hc.reservations]
      exact mem_close_other hc.current hother hy
    · exact (Table.mem_insert? hc.settlements).2 (.inl hy)
    · rw [hc.reservations]
      exact mem_close_closed hc.current hc.status hy hst

/-- The reservation that a release found, and the entry it wrote unless it was released before. -/
theorem releaseReservation_entry {u : Uuids} {p : ReleaseReservationParams} {r' : BillingReservation}
    (hclose : ReleasesClose l) (h : (releaseReservation u p).run l = (.ok r', l')) :
    ∃ r, l.reservations.get? p.reservationID = some r ∧ (r.status = .released ∧ l' = l ∨
      ∃ e, Released l l' r e ∧ e.idempotencyKey = trimSpace p.idempotencyKey) := by
  obtain ⟨-, h⟩ := checked h
  have hens := releaseReservationTx_ensures (I := ReleasesClose) (fun _ h => h) u p
  obtain ⟨hid, hst, hcase⟩ := hens.run hclose h
  rcases hcase with ⟨hl, hr⟩ | ⟨r, e, rfl, hc, -, hkey, -⟩
  · exact ⟨r', hr, .inl ⟨hst, hl⟩⟩
  · have hpk : r.reservationID = p.reservationID := hid
    exact ⟨r, by rw [← hpk]; exact hc.current, .inr ⟨e, hc, hkey⟩⟩

theorem spares_of_released {r : BillingReservation} {e : BillingLedgerEntry}
    (h : Released l l' r e) (hkey : ¬ P r.idempotencyKey) (hentry : ¬ P e.idempotencyKey) :
    Spares P l l' where
  sound hs := sound_of_released hs h
  accounts b hb := by rwa [h.accounts]
  entries f hf := mem_insert_other (f := BillingLedgerEntry.idempotencyKey) h.entries hentry hf
  reservations x hx := by
    rw [h.reservations]
    exact mem_close_other h.current hkey hx
  settlements x hx := by rwa [h.settlements]
  closed x hx hst := by
    rw [h.reservations]
    exact mem_close_closed h.current h.status hx hst

/-- The reservation that was recorded is in the ledger. -/
theorem mem_of_reservation {id : String} {p : CreateReservationParams} {r : BillingReservation}
    (h : ReservationRecorded id l l' p r) : r ∈ l'.reservations := by
  rcases h.outcome with ⟨⟨hr, -⟩, rfl⟩ | ⟨e, hc, -⟩
  · exact hr
  · exact (Table.mem_insert? hc.reservations).2 (.inr rfl)

theorem key_of_reservation {id : String} {p : CreateReservationParams} {r : BillingReservation}
    (h : ReservationRecorded id l l' p r) : r.idempotencyKey = p.idempotencyKey ∨
      r.idempotencyKey = trimSpace p.idempotencyKey := by
  rcases h.outcome with ⟨⟨-, hk⟩, -⟩ | ⟨e, -, -, hk, -⟩
  · exact .inl hk
  · exact .inr hk

theorem spares_of_delta {accountID : String} {delta userID : Int} {operationID reason : String}
    (h : DeltaApplied accountID delta (walletSync userID operationID reason) l l') :
    Spares EscrowKey l l' := by
  have hhead : ∀ (k : String), k.toList.head? = some 'l' → ¬ EscrowKey (trimSpace k) :=
    fun k hk => not_escrowKey_trim hk (by decide) (by decide)
  cases h with
  | same zero ledger =>
    rw [ledger]
    exact .refl _ l
  | credited q e negative account amount key recorded =>
    exact spares_of_credit recorded (by rw [key]; exact hhead _ (head_append (by decide) _))
  | debited id q p r x l₁ positive account amount key held reservation actual settlement settled =>
    have hfirst : ("ledger-reservation:" ++ operationID).toList.head? = some 'l' :=
      head_append (by decide) _
    have hkey : q.idempotencyKey = "ledger-reservation:" ++ operationID := key
    refine (spares_of_reservation (fun _ hk => hk) held (by rw [hkey]; exact hhead _ hfirst)).trans
      (spares_of_settlement (fun _ hk => hk) settled fun r' hr' => ?_)
    have hsame : r' = r := by
      have hget := Table.get?_of_mem (mem_of_reservation held)
      rw [pk_reservation, ← reservation, hr', Option.some.injEq] at hget
      exact hget
    rw [hsame]
    rcases key_of_reservation held with hk | hk
    · rw [hk, hkey]
      exact not_escrowKey_of_head hfirst (by decide)
    · rw [hk, hkey]
      exact hhead _ hfirst

theorem spares_of_reconciled {accountID : String} {userID legacy : Int}
    (h : Reconciled accountID userID legacy l l') : Spares EscrowKey l l' := by
  obtain ⟨id, h⟩ := h
  exact spares_of_delta h

theorem spares_of_ready {p : EnsureAccountParams} {legacy : Int} {k : String}
    {a : BillingAccount} (h : MirrorReady p legacy k l a l') (hkey : ¬ P (trimSpace k)) :
    Spares P l l' := by
  cases h with
  | kept ensured used => exact spares_of_account ensured
  | bootstrapped l₁ q e ensured unused positive account amount key credited =>
    exact (spares_of_account ensured).trans (spares_of_credit credited (by rw [key]; exact hkey))

theorem account_of_ready {p : EnsureAccountParams} {legacy : Int} {k : String}
    {a : BillingAccount} (h : MirrorReady p legacy k l a l') :
    a ∈ l'.accounts ∧ a.owner = ownerOf p := by
  cases h with
  | kept ensured used => exact ⟨ensured.mem, ensured.owner⟩
  | bootstrapped l₁ q e ensured unused positive account amount key credited =>
    rw [credited.accounts_eq]
    exact ⟨ensured.mem, ensured.owner⟩

theorem spares_of_mirrored {userID : Int} {w : Wallet} {s : DB} {a : BillingAccount}
    (h : Mirrored userID w s a l) : Spares EscrowKey s.ledger l := by
  obtain ⟨l₁, hready, hreconciled⟩ := h.reconciled
  refine (spares_of_ready hready ?_).trans (spares_of_reconciled hreconciled)
  exact not_escrowKey_trim (c := 'm') (head_append (head_append (head_append (by decide) _) _) _)
    (by decide) (by decide)

theorem account_of_mirrored {userID : Int} {w : Wallet} {s : DB} {a : BillingAccount}
    (h : Mirrored userID w s a l) :
    a ∈ l.accounts ∧ a.owner = ownerOf (walletAccount userID w) := by
  obtain ⟨l₁, hready, hreconciled⟩ := h.reconciled
  obtain ⟨hmem, howner⟩ := account_of_ready hready
  exact ⟨(spares_of_reconciled hreconciled).accounts a hmem, howner⟩

end Spares

end CodeGo.Bounty.EscrowLedger
