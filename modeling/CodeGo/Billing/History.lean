import CodeGo.Billing.Operations

/-!
# What stays in the ledger

Records are never removed or changed, but for the status of a reservation, which
leaves open once.
-/

namespace CodeGo.Billing.History

open Lib Schema Statements Invariant Preservation Operations

section Closed

variable {l l' : Ledger}

/-- A reservation that is not open any more keeps its row. -/
theorem keeps_closed (hc : Change l l') {r : BillingReservation} (hr : r ∈ l.reservations)
    (hst : r.status ≠ .open) : r ∈ l'.reservations := by
  cases hc with
  | same hc => rwa [hc]
  | account a hc => rwa [hc.reservations]
  | credit e hpos hkey hc => rwa [hc.reservations]
  | hold r' e hpos hkey hc => exact (Table.mem_insert? hc.reservations).2 (.inl hr)
  | release r' e hc =>
    rw [hc.reservations]
    exact closed_of_close hc.current hc.status hr hst
  | settle r' s id hact hkey hc he =>
    rw [hc.reservations]
    exact closed_of_close hc.current hc.status hr hst
  | adjust e hc => rwa [hc.reservations]

theorem run_keeps_closed (h : Sound l) (ops : List LedgerOp) {r : BillingReservation}
    (hr : r ∈ l.reservations) (hst : r.status ≠ .open) : r ∈ (run ops l).reservations := by
  induction ops generalizing l with
  | nil => exact hr
  | cons op ops ih =>
    have hc := op.exec_change h
    exact ih (hc.sound h) (keeps_closed hc hr hst)

end Closed

section Extends

/-- Entries and settlements stay as they are, reservations but for their status, which changes
only from open. -/
structure Extends (l l' : Ledger) : Prop where
  entries : ∀ e ∈ l.entries, e ∈ l'.entries
  settlements : ∀ s ∈ l.settlements, s ∈ l'.settlements
  reservations : ∀ r ∈ l.reservations, ∃ st, withStatus st r ∈ l'.reservations
  closed : ∀ r ∈ l.reservations, r.status ≠ .open → r ∈ l'.reservations

variable {l l' l'' : Ledger}

theorem Extends.refl (l : Ledger) : Extends l l where
  entries := fun _ he => he
  settlements := fun _ hs => hs
  reservations := fun r hr => ⟨r.status, hr⟩
  closed := fun _ hr _ => hr

theorem Extends.trans (h : Extends l l') (h' : Extends l' l'') : Extends l l'' where
  entries := fun e he => h'.entries e (h.entries e he)
  settlements := fun s hs => h'.settlements s (h.settlements s hs)
  reservations := fun r hr => by
    obtain ⟨st, hr'⟩ := h.reservations r hr
    obtain ⟨st', hr''⟩ := h'.reservations _ hr'
    exact ⟨st', hr''⟩
  closed := fun r hr hst => h'.closed r (h.closed r hr hst) hst

/-- Closing a reservation keeps every reservation but for the status of one. -/
theorem reservations_of_close {t : Table BillingReservation} {r₀ : BillingReservation}
    {st : ReservationStatus} (hr₀ : t.get? r₀.reservationID = some r₀) {r : BillingReservation}
    (hr : r ∈ t) :
    ∃ st', withStatus st' r ∈ t.update r₀.reservationID _ (keepsIndexes_withStatus st) := by
  by_cases h : r.reservationID = r₀.reservationID
  · have heq : r = r₀ := Table.eq_of_clash hr (Table.mem_of_get? hr₀) (Indexed.clash_of_pk r r₀ h)
    refine ⟨st, ?_⟩
    rw [heq]
    exact (mem_close hr₀).2 (.inr rfl)
  · exact ⟨r.status, (mem_close hr₀).2 (.inl ⟨hr, h⟩)⟩

theorem extends_of_change (h : Change l l') : Extends l l' := by
  constructor
  case entries =>
    intro e he
    cases h with
    | same hc => rwa [hc]
    | account a hc => rwa [hc.entries]
    | credit e' hpos hkey hc => exact (Table.mem_insert? hc.entries).2 (.inl he)
    | hold r e' hpos hkey hc => exact (Table.mem_insert? hc.entries).2 (.inl he)
    | release r e' hc => exact (Table.mem_insert? hc.entries).2 (.inl he)
    | settle r s id hact hkey hc hs =>
      rcases hs with ⟨-, hs⟩ | ⟨e', hs, -⟩
      · rwa [hs]
      · exact (Table.mem_insert? hs.entries).2 (.inl he)
    | adjust e' hc => exact (Table.mem_insert? hc.entries).2 (.inl he)
  case settlements =>
    intro s hs
    cases h with
    | same hc => rwa [hc]
    | account a hc => rwa [hc.settlements]
    | credit e hpos hkey hc => rwa [hc.settlements]
    | hold r e hpos hkey hc => rwa [hc.settlements]
    | release r e hc => rwa [hc.settlements]
    | settle r s' id hact hkey hc he => exact (Table.mem_insert? hc.settlements).2 (.inl hs)
    | adjust e hc => rwa [hc.settlements]
  case reservations =>
    intro r hr
    cases h with
    | same hc => exact ⟨r.status, by rwa [hc]⟩
    | account a hc => exact ⟨r.status, by rwa [hc.reservations]⟩
    | credit e hpos hkey hc => exact ⟨r.status, by rwa [hc.reservations]⟩
    | hold r' e hpos hkey hc => exact ⟨r.status, (Table.mem_insert? hc.reservations).2 (.inl hr)⟩
    | release r' e hc =>
      rw [hc.reservations]
      exact reservations_of_close hc.current hr
    | settle r' s id hact hkey hc he =>
      rw [hc.reservations]
      exact reservations_of_close hc.current hr
    | adjust e hc => exact ⟨r.status, by rwa [hc.reservations]⟩
  case closed => exact fun r hr hst => keeps_closed h hr hst

/-- Credits, reservations and settlements are stored under trimmed keys. -/
structure KeysTrimmed (l : Ledger) : Prop where
  entries : ∀ e ∈ l.entries, e.entryType = .grantCredit → Trimmed e.idempotencyKey
  reservations : ∀ r ∈ l.reservations, Trimmed r.idempotencyKey
  settlements : ∀ s ∈ l.settlements, Trimmed s.idempotencyKey

theorem KeysTrimmed.empty : KeysTrimmed Ledger.empty := by
  constructor <;> intro x hx <;> cases hx

theorem keysTrimmed_of_change (h : KeysTrimmed l) (hc : Change l l') : KeysTrimmed l' := by
  have hentry : ∀ {t : Table BillingLedgerEntry} {e : BillingLedgerEntry},
      l.entries.insert? e = some t → (e.entryType = .grantCredit → Trimmed e.idempotencyKey) →
      ∀ f ∈ t, f.entryType = .grantCredit → Trimmed f.idempotencyKey := by
    intro t e hi he f hf
    rcases (Table.mem_insert? hi).1 hf with hf | rfl
    · exact h.entries f hf
    · exact he
  have hclose : ∀ {r : BillingReservation} {st : ReservationStatus},
      l.reservations.get? r.reservationID = some r →
      ∀ s ∈ l.reservations.update r.reservationID _ (keepsIndexes_withStatus st),
        Trimmed s.idempotencyKey := by
    intro r st hr s hs
    rcases (mem_close hr).1 hs with ⟨hs, -⟩ | rfl
    · exact h.reservations s hs
    · exact h.reservations r (Table.mem_of_get? hr)
  cases hc with
  | same hc => rwa [hc]
  | account a hc => exact ⟨by rw [hc.entries]; exact h.entries,
      by rw [hc.reservations]; exact h.reservations, by rw [hc.settlements]; exact h.settlements⟩
  | credit e hpos hkey hc => exact ⟨hentry hc.entries fun _ => hkey,
      by rw [hc.reservations]; exact h.reservations, by rw [hc.settlements]; exact h.settlements⟩
  | hold r e hpos hkey hc =>
    refine ⟨hentry hc.entries fun htype => ?_, fun s hs => ?_,
      by rw [hc.settlements]; exact h.settlements⟩
    · rw [hc.entryType] at htype
      cases htype
    · rcases (Table.mem_insert? hc.reservations).1 hs with hs | rfl
      · exact h.reservations s hs
      · exact hkey
  | release r e hc =>
    refine ⟨hentry hc.entries fun htype => ?_, ?_, by rw [hc.settlements]; exact h.settlements⟩
    · rw [hc.entryType] at htype
      cases htype
    · rw [hc.reservations]
      exact hclose hc.current
  | settle r s id hact hkey hc he =>
    refine ⟨?_, ?_, fun s' hs' => ?_⟩
    · rcases he with ⟨-, he⟩ | ⟨e, he, -⟩
      · rw [he]
        exact h.entries
      · refine hentry he.entries fun htype => ?_
        rw [he.entryType] at htype
        split at htype <;> cases htype
    · rw [hc.reservations]
      exact hclose hc.current
    · rcases (Table.mem_insert? hc.settlements).1 hs' with hs' | rfl
      · exact h.settlements s' hs'
      · exact hkey
  | adjust e hc =>
    refine ⟨hentry hc.entries fun htype => ?_, by rw [hc.reservations]; exact h.reservations,
      by rw [hc.settlements]; exact h.settlements⟩
    rw [hc.entryType] at htype
    cases htype

theorem run_extends (h : Sound l) (ops : List LedgerOp) : Extends l (run ops l) := by
  induction ops generalizing l with
  | nil => exact .refl l
  | cons op ops ih =>
    have hc := op.exec_change h
    exact (extends_of_change hc).trans (ih (hc.sound h))

theorem run_keysTrimmed (h : Sound l) (hk : KeysTrimmed l) (ops : List LedgerOp) :
    KeysTrimmed (run ops l) := by
  induction ops generalizing l with
  | nil => exact hk
  | cons op ops ih =>
    have hc := op.exec_change h
    exact ih (hc.sound h) (keysTrimmed_of_change hk hc)

/-- What is recorded stays: whatever is called later, every entry and every settlement is still there,
and a reservation has changed in nothing but a status that was open. -/
theorem records_are_permanent (ops more : List LedgerOp) :
    Extends (run ops Ledger.empty) (run (ops ++ more) Ledger.empty) := by
  rw [run_append]
  exact run_extends (run_sound Sound.empty ops) more

end Extends

end CodeGo.Billing.History
