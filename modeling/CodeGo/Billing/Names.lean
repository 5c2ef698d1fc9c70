import CodeGo.Billing.Operations

/-!
# Identifiers and keys in use

Which identifiers and idempotency keys the tables hold, what each operation adds
to them, and identifiers that `GetUUID` draws apart from all of them.
-/

namespace CodeGo.Billing.Names

open Lib Lib.Trim Schema Statements LedgerRuntime StatementRules Effects Preservation

/-- Every identifier and every idempotency key in the tables satisfies `P`. -/
structure NamesAll (P : String → Prop) (l : Ledger) : Prop where
  accounts : ∀ a ∈ l.accounts, P a.accountID
  snapshots : ∀ s ∈ l.snapshots, P s.accountID
  entries : ∀ e ∈ l.entries, P e.entryID ∧ P e.idempotencyKey
  reservations : ∀ r ∈ l.reservations, P r.reservationID ∧ P r.idempotencyKey
  settlements : ∀ s ∈ l.settlements, P s.settlementID ∧ P s.idempotencyKey
  outbox : ∀ ev ∈ l.outbox, P ev.eventID ∧ P ev.idempotencyKey

section Preserved

variable {P : String → Prop} {l l' : Ledger}

theorem NamesAll.mono {P' : String → Prop} (h : NamesAll P l) (hP : ∀ k, P k → P' k) :
    NamesAll P' l where
  accounts a ha := hP _ (h.accounts a ha)
  snapshots s hs := hP _ (h.snapshots s hs)
  entries e he := ⟨hP _ (h.entries e he).1, hP _ (h.entries e he).2⟩
  reservations r hr := ⟨hP _ (h.reservations r hr).1, hP _ (h.reservations r hr).2⟩
  settlements s hs := ⟨hP _ (h.settlements s hs).1, hP _ (h.settlements s hs).2⟩
  outbox ev hev := ⟨hP _ (h.outbox ev hev).1, hP _ (h.outbox ev hev).2⟩

theorem names_insert {α κ : Type} [Indexed α κ] {t t' : Table α} {r : α} {Q : α → Prop}
    (h : ∀ s ∈ t, Q s) (hr : Q r) (hi : t.insert? r = some t') : ∀ s ∈ t', Q s := by
  intro s hs
  rcases (Table.mem_insert? hi).1 hs with hs | rfl
  · exact h s hs
  · exact hr

theorem names_snapshotSet {t t' : Table BillingBalanceSnapshot} {a : String}
    {row : BillingBalanceSnapshot} (h : ∀ s ∈ t, P s.accountID) (ha : P a)
    (hs : SnapshotSet t t' a row) : ∀ s ∈ t', P s.accountID := by
  intro s hmem
  by_cases hid : s.accountID = a
  · rw [hid]
    exact ha
  · have hget := Table.get?_of_mem hmem
    rw [pk_snapshot, hs.others _ hid] at hget
    exact h s (Table.mem_of_get? hget)

theorem names_zeroIfAbsent {t : Table BillingBalanceSnapshot} {a : String}
    (h : ∀ s ∈ t, P s.accountID) (ha : P a) : ∀ s ∈ zeroIfAbsent a t, P s.accountID := by
  unfold zeroIfAbsent
  cases hi : t.insert? { accountID := a } with
  | some t' => exact names_insert h ha hi
  | none => exact h

theorem names_outboxAdded {t t' : Table BillingOutboxEvent} {id key : String}
    (h : ∀ ev ∈ t, P ev.eventID ∧ P ev.idempotencyKey) (hid : P id) (hkey : P key)
    (ho : OutboxAdded id key t t') : ∀ ev ∈ t', P ev.eventID ∧ P ev.idempotencyKey := by
  rcases ho with rfl | ⟨ev, rfl, rfl, hi⟩
  · exact h
  · exact names_insert h ⟨hid, hkey⟩ hi

theorem names_close {t : Table BillingReservation} {r : BillingReservation} {st : ReservationStatus}
    (h : ∀ s ∈ t, P s.reservationID ∧ P s.idempotencyKey)
    (hr : t.get? r.reservationID = some r) :
    ∀ s ∈ t.update r.reservationID _ (keepsIndexes_withStatus st),
      P s.reservationID ∧ P s.idempotencyKey := by
  intro s hs
  rcases (mem_close hr).1 hs with ⟨hs, -⟩ | rfl
  · exact h s hs
  · exact h r (Table.mem_of_get? hr)

variable {u : Uuids}

theorem NamesAll.ensureAccount (h : NamesAll P l) {p : EnsureAccountParams} {a : BillingAccount}
    (hr : (ensureBillingAccountTx u p).run l = (.ok a, l')) (hP : P (u 0)) :
    NamesAll P l' ∧ P a.accountID := by
  obtain ⟨hc, -, hnew⟩ := (ensureBillingAccountTx_ensures (· = l) u p).run rfl hr
  have hid : P a.accountID := by
    rcases hnew with ⟨⟨c, rfl, ha⟩, -⟩ | ⟨-, hid⟩
    · exact h.accounts a ha
    · rw [hid]
      exact hP
  refine ⟨?_, hid⟩
  constructor
  case accounts =>
    rcases hc.accounts with hacc | hacc
    · rw [hacc]
      exact h.accounts
    · exact names_insert h.accounts hid hacc
  case snapshots =>
    rcases hc.snapshots with hs | hs
    · rw [hs]
      exact h.snapshots
    · rw [hs]
      exact names_zeroIfAbsent h.snapshots hid
  case entries => rw [hc.entries]; exact h.entries
  case reservations => rw [hc.reservations]; exact h.reservations
  case settlements => rw [hc.settlements]; exact h.settlements
  case outbox => rw [hc.outbox]; exact h.outbox

theorem NamesAll.credit (h : NamesAll P l) {p : CreditAccountParams} {e : BillingLedgerEntry}
    (hr : (creditAccountTx u p).run l = (.ok e, l')) (hacc : P p.accountID) (h₀ : P (u 0))
    (hkey : P (trimSpace p.idempotencyKey)) (h₁ : P (u 1))
    (houtbox : P (trimSpace ("outbox:" ++ trimSpace p.idempotencyKey))) : NamesAll P l' := by
  obtain ⟨ha, -, -, hcase⟩ := (creditAccountTx_ensures (· = l) u p).run rfl hr
  rcases hcase with ⟨-, rfl⟩ | ⟨hc, hid, hk, ho⟩
  · exact h
  rw [hk] at ho
  constructor
  case accounts => rw [hc.accounts]; exact h.accounts
  case snapshots => exact names_snapshotSet h.snapshots (by rw [ha]; exact hacc) hc.snapshots
  case entries =>
    exact names_insert h.entries ⟨by rw [hid]; exact h₀, by rw [hk]; exact hkey⟩ hc.entries
  case reservations => rw [hc.reservations]; exact h.reservations
  case settlements => rw [hc.settlements]; exact h.settlements
  case outbox => exact names_outboxAdded h.outbox h₁ houtbox ho

theorem NamesAll.reserve (h : NamesAll P l) {p : CreateReservationParams} {r : BillingReservation}
    (hr : (createReservationTx u p).run l = (.ok r, l')) (hacc : P p.accountID)
    (h₀ : P (u 0)) (hkey : P (trimSpace p.idempotencyKey)) (h₁ : P (u 1))
    (hentry : P ("entry:" ++ trimSpace p.idempotencyKey)) (h₂ : P (u 2))
    (houtbox : P (trimSpace ("outbox:" ++ trimSpace p.idempotencyKey))) : NamesAll P l' := by
  obtain ⟨⟨ha, -⟩, hcase⟩ := (createReservationTx_ensures (· = l) u p).run rfl hr
  rcases hcase with ⟨-, rfl⟩ | ⟨e, hc, hid, hk, heid, hek, ho⟩
  · exact h
  rw [hk] at hek ho
  constructor
  case accounts => rw [hc.accounts]; exact h.accounts
  case snapshots => exact names_snapshotSet h.snapshots (by rw [ha]; exact hacc) hc.snapshots
  case entries =>
    exact names_insert h.entries ⟨by rw [heid]; exact h₁, by rw [hek]; exact hentry⟩ hc.entries
  case reservations =>
    refine names_insert h.reservations ⟨?_, ?_⟩ hc.reservations
    · rw [hid]
      exact h₀
    · rw [hk]
      exact hkey
  case settlements => rw [hc.settlements]; exact h.settlements
  case outbox => exact names_outboxAdded h.outbox h₂ houtbox ho

theorem NamesAll.settle (h : NamesAll P l) {p : SettleReservationParams} {s : BillingSettlement}
    (hr : (settleReservationTx u p).run l = (.ok s, l'))
    (hacc : ∀ r ∈ l.reservations, r.reservationID = p.reservationID → P r.accountID) (h₀ : P (u 0))
    (hkey : P (trimSpace p.idempotencyKey)) (h₁ : P (u 1))
    (hentry : P ("entry:" ++ trimSpace p.idempotencyKey)) (h₂ : P (u 2))
    (houtbox : P (trimSpace ("outbox:" ++ trimSpace p.idempotencyKey))) : NamesAll P l' := by
  obtain ⟨hres, -, hcase⟩ := (settleReservationTx_ensures (· = l) u p).run rfl hr
  rcases hcase with ⟨-, rfl⟩ | ⟨r, hc, he, hid, hk, ho⟩
  · exact h
  rw [hk] at ho
  have hmem := Table.mem_of_get? hc.current
  have hname := hacc r hmem (hc.reservation.symm.trans hres)
  constructor
  case accounts => rw [hc.accounts]; exact h.accounts
  case snapshots => exact names_snapshotSet h.snapshots hname hc.snapshots
  case entries =>
    rcases he with ⟨-, he⟩ | ⟨e, he, heid⟩
    · rw [he]
      exact h.entries
    · refine names_insert h.entries ⟨?_, ?_⟩ he.entries
      · rw [heid]
        exact h₁
      · rw [he.key, hk]
        exact hentry
  case reservations =>
    rw [hc.reservations]
    exact names_close h.reservations hc.current
  case settlements =>
    exact names_insert h.settlements ⟨by rw [hid]; exact h₀, by rw [hk]; exact hkey⟩ hc.settlements
  case outbox => exact names_outboxAdded h.outbox h₂ houtbox ho

end Preserved

section Fresh

/-- No row has the name. -/
def Unused (name : String) (l : Ledger) : Prop := NamesAll (· ≠ name) l

def isHexDigit (c : Char) : Bool := c.isDigit || 'a' ≤ c && c ≤ 'f'

/-- What `GetUUID` returns: 32 hexadecimal digits. -/
structure IsUuid (x : String) : Prop where
  length : x.toList.length = 32
  digits : ∀ c ∈ x.toList, isHexDigit c = true

/-- The name does not end in one of the next `n` identifiers. -/
def Apart (u : Uuids) (n : Nat) (name : String) : Prop := ∀ i < n, ¬ (u i).toList <:+ name.toList

/-- The next `n` identifiers are apart from each other and from every name in the ledger. -/
structure Fresh (u : Uuids) (n : Nat) (l : Ledger) : Prop where
  uuid : ∀ i < n, IsUuid (u i)
  inj : ∀ i < n, ∀ j < n, u i = u j → i = j
  unused : NamesAll (Apart u n) l

variable {u : Uuids} {n m i : Nat} {l l' : Ledger} {x name : String}

theorem Apart.drop (h : Apart u n name) (m : Nat) : Apart (u.drop m) (n - m) name := by
  intro i hi
  apply h
  omega

/-- After `m` draws, in a ledger whose names are apart from the rest. -/
theorem Fresh.drop (h : Fresh u n l) (m : Nat) (h' : NamesAll (Apart (u.drop m) (n - m)) l') :
    Fresh (u.drop m) (n - m) l' where
  uuid i hi := h.uuid (m + i) (by omega)
  inj i hi j hj he := by
    have := h.inj (m + i) (by omega) (m + j) (by omega) he
    omega
  unused := h'

theorem Fresh.namesAll_drop (h : Fresh u n l) (m : Nat) : NamesAll (Apart (u.drop m) (n - m)) l :=
  h.unused.mono fun _ hk => hk.drop m

theorem Fresh.mono (h : Fresh u n l) (hm : m ≤ n) : Fresh u m l where
  uuid i hi := h.uuid i (by omega)
  inj i hi j hj := h.inj i (by omega) j (by omega)
  unused := h.unused.mono fun _ hk i hi => hk i (by omega)

/-- A name that ends in an identifier drawn before is apart from the later ones. -/
theorem Fresh.apart_append (h : Fresh u n l) (s : String) (hi : i < m) :
    Apart (u.drop m) (n - m) (s ++ u i) := by
  intro j hj hsuffix
  have hlen : (u (m + j)).toList.length = (u i).toList.length := by
    rw [(h.uuid (m + j) (by omega)).length, (h.uuid i (by omega)).length]
  have hi' : (u i).toList <:+ (s ++ u i).toList := by
    rw [String.toList_append]
    exact List.suffix_append _ _
  have hle := List.suffix_of_suffix_length_le hsuffix hi' hlen.le
  have heq : u (m + j) = u i := String.toList_injective (hle.eq_of_length hlen)
  have := h.inj (m + j) (by omega) i (by omega) heq
  omega

theorem Fresh.apart_uuid (h : Fresh u n l) (hi : i < m) : Apart (u.drop m) (n - m) (u i) := by
  have := h.apart_append "" hi
  rwa [String.empty_append] at this

/-- Names that end in a fresh identifier are unused. -/
theorem Fresh.unused_append (h : Fresh u n l) (s : String) (hi : i < n) : Unused (s ++ u i) l := by
  refine h.unused.mono fun k hk heq => hk i hi ?_
  rw [heq, String.toList_append]
  exact List.suffix_append _ _

theorem Fresh.unused_uuid (h : Fresh u n l) (hi : i < n) : Unused (u i) l := by
  have := h.unused_append "" hi
  rwa [String.empty_append] at this

theorem isSpace_of_isHexDigit {c : Char} (h : isHexDigit c = true) : isSpace c = false := by
  have hrange : (48 ≤ c.toNat ∧ c.toNat ≤ 57) ∨ (97 ≤ c.toNat ∧ c.toNat ≤ 102) := by
    simp only [isHexDigit, Char.isDigit, Bool.or_eq_true, Bool.and_eq_true, decide_eq_true_eq,
      ge_iff_le] at h
    exact h
  simp only [isSpace, Bool.or_eq_false_iff, Bool.and_eq_false_iff, decide_eq_false_iff_not,
    beq_eq_false_iff_ne]
  omega

theorem IsUuid.solid (h : IsUuid x) : Solid x := by
  have hne : x.toList ≠ [] := by
    intro hnil
    have := h.length
    rw [hnil] at this
    cases this
  constructor
  · rw [solidHead, List.head?_eq_some_head hne, Option.any_some,
      isSpace_of_isHexDigit (h.digits _ (List.head_mem hne))]
    rfl
  · rw [solidLast, List.getLast?_eq_some_getLast hne, Option.any_some,
      isSpace_of_isHexDigit (h.digits _ (List.getLast_mem hne))]
    rfl

theorem Fresh.solid (h : Fresh u n l) (hi : i < n) : Solid (u i) := (h.uuid i hi).solid

end Fresh

section Decide

variable {P : String → Prop} {u : Uuids} {n : Nat} {l : Ledger}

instance [DecidablePred P] : Decidable (NamesAll P l) :=
  decidable_of_iff ((∀ a ∈ l.accounts.rows, P a.accountID) ∧
      (∀ s ∈ l.snapshots.rows, P s.accountID) ∧
      (∀ e ∈ l.entries.rows, P e.entryID ∧ P e.idempotencyKey) ∧
      (∀ r ∈ l.reservations.rows, P r.reservationID ∧ P r.idempotencyKey) ∧
      (∀ s ∈ l.settlements.rows, P s.settlementID ∧ P s.idempotencyKey) ∧
      ∀ o ∈ l.outbox.rows, P o.eventID ∧ P o.idempotencyKey)
    ⟨fun ⟨ha, hs, he, hr, ht, ho⟩ => ⟨ha, hs, he, hr, ht, ho⟩,
      fun h => ⟨h.accounts, h.snapshots, h.entries, h.reservations, h.settlements, h.outbox⟩⟩

instance (name : String) : Decidable (Apart u n name) :=
  inferInstanceAs (Decidable (∀ i < n, ¬ (u i).toList <:+ name.toList))

instance (name : String) : Decidable (Unused name l) :=
  inferInstanceAs (Decidable (NamesAll (· ≠ name) l))

instance (x : String) : Decidable (IsUuid x) :=
  decidable_of_iff (x.toList.length = 32 ∧ x.toList.all isHexDigit = true)
    ⟨fun ⟨hlen, hdigits⟩ => ⟨hlen, List.all_eq_true.1 hdigits⟩,
      fun h => ⟨h.length, List.all_eq_true.2 h.digits⟩⟩

instance : Decidable (Fresh u n l) :=
  decidable_of_iff ((∀ i < n, IsUuid (u i)) ∧ (∀ i < n, ∀ j < n, u i = u j → i = j) ∧
      NamesAll (Apart u n) l)
    ⟨fun ⟨huuid, hinj, hunused⟩ => ⟨huuid, hinj, hunused⟩, fun h => ⟨h.uuid, h.inj, h.unused⟩⟩

/-- Identifiers of one digit `base` that end in their number, for samples. -/
def hexUuids (base : Char) : Uuids := fun i =>
  String.ofList (List.replicate 31 base ++ [Nat.digitChar i])

theorem isUuid_ofList {base : Char} {digits : List Char} {n : Nat} (hbase : isHexDigit base = true)
    (hlength : n + digits.length = 32) (hdigits : ∀ c ∈ digits, isHexDigit c = true) :
    IsUuid (String.ofList (List.replicate n base ++ digits)) := by
  constructor
  · rw [String.toList_ofList, List.length_append, List.length_replicate, hlength]
  · rw [String.toList_ofList]
    intro c hc
    rcases List.mem_append.1 hc with hc | hc
    · rw [List.eq_of_mem_replicate hc]
      exact hbase
    · exact hdigits c hc

theorem isHexDigit_digitChar : ∀ i < 10, isHexDigit (Nat.digitChar i) = true := by decide

theorem hexUuids_isUuid {base : Char} {i : Nat} (hbase : isHexDigit base = true) (hi : i < 10) :
    IsUuid (hexUuids base i) := by
  apply isUuid_ofList hbase rfl
  intro c hc
  rw [List.mem_singleton.1 hc]
  exact isHexDigit_digitChar i hi

theorem hexUuids_inj {base : Char} {i j : Nat} (hi : i < 10) (hj : j < 10)
    (h : hexUuids base i = hexUuids base j) : i = j := by
  have hdigit : ∀ i < 10, ∀ j < 10, Nat.digitChar i = Nat.digitChar j → i = j := by decide
  apply hdigit i hi j hj
  have hlist := List.append_cancel_left (String.ofList_injective h)
  exact List.head_eq_of_cons_eq hlist

theorem fresh_hexUuids {base : Char} (hbase : isHexDigit base = true) (hn : n ≤ 10)
    (h : NamesAll (Apart (hexUuids base) n) l) : Fresh (hexUuids base) n l where
  uuid _ hi := hexUuids_isUuid hbase (by omega)
  inj _ hi _ hj := hexUuids_inj (by omega) (by omega)
  unused := h

end Decide

end CodeGo.Billing.Names
