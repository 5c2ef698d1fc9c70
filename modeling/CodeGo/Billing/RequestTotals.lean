import CodeGo.Billing.Operations

/-!
# What a request holds and has settled

The reservations of a request, all of them and the open ones, and the actual
amounts of their settlements. An operation moves the totals of one request.
-/

namespace CodeGo.Billing.RequestTotals

open Lib Schema Statements Effects Invariant

/-- Everything that was ever reserved for a request. -/
def reservedFor (l : Ledger) (requestID : String) : Int :=
  l.reservations.sum fun r => if r.requestID = requestID then r.reservedAmount else 0

/-- What the request holds at present. -/
def heldFor (l : Ledger) (requestID : String) : Int :=
  l.reservations.sum fun r =>
    if r.requestID = requestID ∧ r.status = .open then r.reservedAmount else 0

/-- The settlement belongs to a reservation of the request. -/
def settles (reservations : Table BillingReservation) (requestID : String) (s : BillingSettlement) :
    Bool :=
  (reservations.get? s.reservationID).any fun r => r.requestID = requestID

/-- What the settlements of a request charge. -/
def actualFor (l : Ledger) (requestID : String) : Int :=
  l.settlements.sum fun s => if settles l.reservations requestID s then s.actualAmount else 0

/-- A change of the totals of one request. -/
structure Totals where
  reserved : Int := 0
  held : Int := 0
  actual : Int := 0

/-- The totals of the request moved by `d`, those of every other request stayed. -/
structure RequestMoved (l l' : Ledger) (requestID : String) (d : Totals) : Prop where
  reserved : ∀ q, reservedFor l' q = reservedFor l q + if requestID = q then d.reserved else 0
  held : ∀ q, heldFor l' q = heldFor l q + if requestID = q then d.held else 0
  actual : ∀ q, actualFor l' q = actualFor l q + if requestID = q then d.actual else 0

section Rules

variable {l l' l'' : Ledger} {r : BillingReservation}

theorem RequestMoved.refl (l : Ledger) (requestID : String) : RequestMoved l l requestID {} := by
  constructor <;> intro q <;> simp

/-- Neither reservations nor settlements changed. -/
theorem requestMoved_of_eq (hr : l'.reservations = l.reservations)
    (hs : l'.settlements = l.settlements) (requestID : String) : RequestMoved l l' requestID {} := by
  constructor <;> intro q <;> simp [reservedFor, heldFor, actualFor, hr, hs]

theorem RequestMoved.trans {requestID : String} {d d' : Totals} (h : RequestMoved l l' requestID d)
    (h' : RequestMoved l' l'' requestID d') :
    RequestMoved l l'' requestID {
      reserved := d.reserved + d'.reserved
      held := d.held + d'.held
      actual := d.actual + d'.actual } := by
  constructor <;> intro q
  · rw [h'.reserved, h.reserved, add_assoc, ite_add_ite, add_zero]
  · rw [h'.held, h.held, add_assoc, ite_add_ite, add_zero]
  · rw [h'.actual, h.actual, add_assoc, ite_add_ite, add_zero]

theorem settles_update {t : Table BillingReservation} {id : String} {st : ReservationStatus}
    (q : String) (s : BillingSettlement) :
    settles (t.update id _ (keepsIndexes_withStatus st)) q s = settles t q s := by
  unfold settles
  rw [Table.get?_update]
  split
  next e => rw [e]; cases t.get? id <;> rfl
  next => rfl

theorem settles_insert {t t' : Table BillingReservation} (h : t.insert? r = some t')
    {s : BillingSettlement} (hs : ∃ r' ∈ t, r'.reservationID = s.reservationID) (q : String) :
    settles t' q s = settles t q s := by
  unfold settles
  obtain ⟨r', hr', hid⟩ := hs
  have hne : s.reservationID ≠ r.reservationID := by
    intro e
    have hclash := (Table.insert?_eq_some h).2 r' hr'
    rw [Indexed.clash_of_pk r' r (hid.trans e)] at hclash
    cases hclash
  rw [Table.get?_insert? h, pk_reservation, if_neg hne]

theorem reservedFor_close {st : ReservationStatus}
    (hr : l.reservations.get? r.reservationID = some r)
    (h : l'.reservations = l.reservations.update r.reservationID _ (keepsIndexes_withStatus st))
    (q : String) : reservedFor l' q = reservedFor l q := by
  have hsum := Table.sum_update (keepsIndexes_withStatus st) hr fun r =>
    if r.requestID = q then r.reservedAmount else 0
  rw [← h] at hsum
  unfold reservedFor
  rw [hsum]
  exact sub_add_cancel _ _

theorem heldFor_close {st : ReservationStatus} (hr : l.reservations.get? r.reservationID = some r)
    (hopen : r.status = .open) (hst : st ≠ .open)
    (h : l'.reservations = l.reservations.update r.reservationID _ (keepsIndexes_withStatus st))
    (q : String) :
    heldFor l' q = heldFor l q + if r.requestID = q then -r.reservedAmount else 0 := by
  have hsum := Table.sum_update (keepsIndexes_withStatus st) hr fun r =>
    if r.requestID = q ∧ r.status = .open then r.reservedAmount else 0
  rw [← h] at hsum
  simp only [withStatus, hopen, hst, and_true, and_false, if_false, add_zero] at hsum
  unfold heldFor
  rw [hsum]
  split <;> omega

theorem requestMoved_of_held {e : BillingLedgerEntry} (h : RecordsAgree l) (hc : Held l l' r e) :
    RequestMoved l l' r.requestID { reserved := r.reservedAmount, held := r.reservedAmount } := by
  constructor <;> intro q
  · exact Table.sum_insert? hc.reservations _
  · have hsum := Table.sum_insert? hc.reservations fun r =>
      if r.requestID = q ∧ r.status = .open then r.reservedAmount else 0
    simp only [hc.status, and_true] at hsum
    exact hsum
  · unfold actualFor
    rw [hc.settlements]
    simp only [ite_self, add_zero]
    apply Table.sum_congr
    intro s hs
    obtain ⟨-, -, r', hr', hid, -⟩ := h.settlements s hs
    rw [settles_insert hc.reservations ⟨r', hr', hid⟩]

theorem requestMoved_of_released {e : BillingLedgerEntry} (hc : Released l l' r e) :
    RequestMoved l l' r.requestID { held := -r.reservedAmount } := by
  constructor <;> intro q
  · simp [reservedFor_close hc.current hc.reservations]
  · exact heldFor_close hc.current hc.status (by decide) hc.reservations q
  · simp [actualFor, hc.settlements, hc.reservations, settles_update]

theorem requestMoved_of_settled {s : BillingSettlement} (hc : Settled l l' r s) :
    RequestMoved l l' r.requestID { held := -r.reservedAmount, actual := s.actualAmount } := by
  constructor <;> intro q
  · simp [reservedFor_close hc.current hc.reservations]
  · exact heldFor_close hc.current hc.status (by decide) hc.reservations q
  · have howner : settles l.reservations q s = decide (r.requestID = q) := by
      unfold settles
      rw [hc.reservation, hc.current]
      rfl
    simp only [actualFor, hc.reservations, settles_update, Table.sum_insert? hc.settlements, howner,
      decide_eq_true_eq]

end Rules

section Bounds

variable {l : Ledger} {q : String}

theorem heldFor_nonneg (h : RecordsAgree l) (q : String) : 0 ≤ heldFor l q := by
  apply Table.sum_nonneg
  intro r hr
  split
  · exact (h.held r hr).le
  · exact le_refl 0

theorem actualFor_nonneg (h : RecordsAgree l) (q : String) : 0 ≤ actualFor l q := by
  apply Table.sum_nonneg
  intro s hs
  split
  · exact (h.settlements s hs).2.1
  · exact le_refl 0

/-- No reservation carries the request. -/
def Unknown (requestID : String) (l : Ledger) : Prop :=
  ∀ r ∈ l.reservations, r.requestID ≠ requestID

instance (requestID : String) (l : Ledger) : Decidable (Unknown requestID l) :=
  inferInstanceAs (Decidable (∀ r ∈ l.reservations.rows, r.requestID ≠ requestID))

theorem Unknown.totals (h : Unknown q l) :
    reservedFor l q = 0 ∧ heldFor l q = 0 ∧ actualFor l q = 0 := by
  have hzero : ∀ {α κ : Type} [Indexed α κ] {t : Table α} {f : α → Int}, (∀ x ∈ t, f x = 0) →
      t.sum f = 0 := by
    intro α κ _ t f hf
    rw [Table.sum_congr hf]
    simp [Table.sum]
  refine ⟨hzero fun r hr => if_neg (h r hr), hzero fun r hr => if_neg fun e => h r hr e.1,
    hzero fun s _ => if_neg ?_⟩
  unfold settles
  cases hg : l.reservations.get? s.reservationID with
  | none => simp
  | some r =>
    have hne := h r (Table.mem_of_get? hg)
    simpa using hne

end Bounds

end CodeGo.Billing.RequestTotals
