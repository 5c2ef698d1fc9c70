import CodeGo.Billing.Mirror
import CodeGo.Billing.Names

/-!
# Ledger balances behind a wallet change

The functions of `wallet_transfer.go` and `wallet_store.go` that change a wallet inside
a transaction first bring its ledger account in line with the quota column. Where
nothing is recorded under their keys yet, a call that succeeds changes the column, and
leaves the ledger balance equal to it.
-/

namespace CodeGo.Billing.MirrorBalance

open Lib Lib.Prog Lib.Trim Lib.Wrap Schema StatementRules LedgerRuntime FundingAttribution Effects
  Invariant Preservation Recorded Wallet Mirror CreditReplay Names Platform.Database Identity.Schema
  Identity.Store

section Keys

/-- Every idempotency key in the ledger satisfies `P`, the outbox apart. -/
structure KeysAll (P : String → Prop) (l : Ledger) : Prop where
  entries : ∀ e ∈ l.entries, P e.idempotencyKey
  reservations : ∀ r ∈ l.reservations, P r.idempotencyKey
  settlements : ∀ x ∈ l.settlements, P x.idempotencyKey

variable {P Q : String → Prop} {l : Ledger}

theorem KeysAll.mono (h : KeysAll P l) (hPQ : ∀ k, P k → Q k) : KeysAll Q l where
  entries e he := hPQ _ (h.entries e he)
  reservations r hr := hPQ _ (h.reservations r hr)
  settlements x hx := hPQ _ (h.settlements x hx)

theorem keysAll_of_namesAll (h : NamesAll P l) : KeysAll P l where
  entries e he := (h.entries e he).2
  reservations r hr := (h.reservations r hr).2
  settlements x hx := (h.settlements x hx).2

/-- The key is none that a change of a ledger balance is recorded under. -/
def Unlike (sync : LedgerSync) (k : String) : Prop :=
  k ≠ sync.creditKey ∧ k ≠ sync.reservationKey ∧ k ≠ sync.settlementKey

/-- The keys that a change of a ledger balance writes. -/
def SyncKey (sync : LedgerSync) (k : String) : Prop :=
  k = trimSpace sync.creditKey ∨ k = trimSpace sync.reservationKey ∨
    k = "entry:" ++ trimSpace sync.reservationKey ∨ k = trimSpace sync.settlementKey

end Keys

section Touches

/-- The balances of `a` may have changed, and new keys are among those of `K`. -/
structure Touches (a : BillingAccount) (K : String → Prop) (l l' : Ledger) : Prop where
  stored : ∀ id, id ≠ a.accountID → l'.stored id = l.stored id
  kept : ∀ b ∈ l.accounts, b ∈ l'.accounts
  accounts : ∀ b ∈ l'.accounts, b ∈ l.accounts ∨ b = a
  keys : ∀ P : String → Prop, KeysAll P l → (∀ k, K k → P k) → KeysAll P l'

variable {a : BillingAccount} {K K' : String → Prop} {l l₁ l' : Ledger}

theorem Touches.refl (a : BillingAccount) (K : String → Prop) (l : Ledger) : Touches a K l l :=
  ⟨fun _ _ => rfl, fun _ h => h, fun _ h => .inl h, fun _ h _ => h⟩

theorem Touches.trans (h : Touches a K l l₁) (h' : Touches a K l₁ l') : Touches a K l l' where
  stored id hid := (h'.stored id hid).trans (h.stored id hid)
  kept b hb := h'.kept b (h.kept b hb)
  accounts b hb := (h'.accounts b hb).elim (h.accounts b) .inr
  keys P hP hK := h'.keys P (h.keys P hP hK) hK

theorem Touches.mono (h : Touches a K l l') (hK : ∀ k, K k → K' k) : Touches a K' l l' :=
  ⟨h.stored, h.kept, h.accounts, fun P hP hK' => h.keys P hP fun k hk => hK' k (hK k hk)⟩

theorem stored_of_accountEnsured (h : AccountEnsured l l' a) (id : String) :
    l'.stored id = l.stored id := by
  unfold Ledger.stored
  rcases h.snapshots with hs | hs <;> rw [hs]
  rw [get?_zeroIfAbsent]
  split
  next e => rw [e, Option.getD_some]
  next => rfl

theorem touches_account {p : EnsureAccountParams} (h : AccountRecorded l l' p a) :
    Touches a K l l' where
  stored id _ := stored_of_accountEnsured h.ensured id
  kept b hb := h.keeps hb
  accounts b hb := by
    rcases h.outcome with ⟨-, hsame⟩ | hnew
    · rw [hsame] at hb
      exact .inl hb
    · exact (Table.mem_insert? hnew).1 hb
  keys P hP _ := by
    refine ⟨?_, ?_, ?_⟩
    · rw [h.ensured.entries]
      exact hP.entries
    · rw [h.ensured.reservations]
      exact hP.reservations
    · rw [h.ensured.settlements]
      exact hP.settlements

theorem touches_credited {e : BillingLedgerEntry} (h : Credited l l' e)
    (ha : e.accountID = a.accountID) (hK : K e.idempotencyKey) : Touches a K l l' where
  stored id hid := by rw [stored_of_set h.snapshots, if_neg (by rwa [ha])]
  kept b hb := by rwa [h.accounts]
  accounts b hb := .inl (by rwa [← h.accounts])
  keys P hP hPK := by
    refine ⟨names_insert hP.entries (hPK _ hK) h.entries, ?_, ?_⟩
    · rw [h.reservations]
      exact hP.reservations
    · rw [h.settlements]
      exact hP.settlements

theorem available_credited {e : BillingLedgerEntry} (h : Credited l l' e)
    (ha : e.accountID = a.accountID) : (l'.stored a.accountID).availableBalance =
      wrap64 ((l.stored a.accountID).availableBalance + e.amount) := by
  rw [stored_of_set h.snapshots, if_pos ha.symm, ha]

theorem touches_credit {q : CreditAccountParams} {e : BillingLedgerEntry}
    (h : CreditRecorded l l' q e) (ha : q.accountID = a.accountID)
    (hK : K (trimSpace q.idempotencyKey)) : Touches a K l l' := by
  rcases h.outcome with ⟨-, rfl⟩ | ⟨hc, hkey⟩
  · exact .refl a K l'
  · exact touches_credited hc (h.account.trans ha) (by rwa [hkey])

theorem available_credit {q : CreditAccountParams} {e : BillingLedgerEntry}
    (h : CreditRecorded l l' q e) (ha : q.accountID = a.accountID)
    (hnew : ∀ e ∈ l.entries, e.idempotencyKey ≠ q.idempotencyKey) :
    (l'.stored a.accountID).availableBalance =
      wrap64 ((l.stored a.accountID).availableBalance + q.amount) := by
  rcases h.outcome with ⟨⟨he, hkey⟩, -⟩ | ⟨hc, -⟩
  · exact absurd hkey (hnew e he)
  · rw [available_credited hc (h.account.trans ha), h.amount]

theorem touches_held {r : BillingReservation} {e : BillingLedgerEntry} (h : Held l l' r e)
    (ha : r.accountID = a.accountID) (hr : K r.idempotencyKey) (he : K e.idempotencyKey) :
    Touches a K l l' where
  stored id hid := by rw [stored_of_set h.snapshots, if_neg (by rwa [ha])]
  kept b hb := by rwa [h.accounts]
  accounts b hb := .inl (by rwa [← h.accounts])
  keys P hP hPK := by
    refine ⟨names_insert hP.entries (hPK _ he) h.entries,
      names_insert hP.reservations (hPK _ hr) h.reservations, ?_⟩
    rw [h.settlements]
    exact hP.settlements

/-- A settlement at the held amount. -/
theorem touches_settled {r : BillingReservation} {x : BillingSettlement} {id : String} {after : Int}
    (h : Settled l l' r x) (he : SettleEntries l.entries l'.entries id r.accountID x after)
    (hzero : x.deltaAmount = 0) (ha : r.accountID = a.accountID) (hx : K x.idempotencyKey) :
    Touches a K l l' where
  stored id hid := by rw [stored_of_set h.snapshots, if_neg (by rwa [ha])]
  kept b hb := by rwa [h.accounts]
  accounts b hb := .inl (by rwa [← h.accounts])
  keys P hP hPK := by
    refine ⟨?_, ?_, names_insert hP.settlements (hPK _ hx) h.settlements⟩
    · rcases he with ⟨-, hsame⟩ | ⟨e, he, -⟩
      · rw [hsame]
        exact hP.entries
      · exact absurd hzero he.nonzero
    · rw [h.reservations]
      intro y hy
      rcases (mem_close h.current).1 hy with ⟨hy, -⟩ | rfl
      · exact hP.reservations y hy
      · exact hP.reservations r (Table.mem_of_get? h.current)

theorem available_settled {r : BillingReservation} {x : BillingSettlement} (h : Settled l l' r x)
    (hzero : x.deltaAmount = 0) (ha : r.accountID = a.accountID) :
    (l'.stored a.accountID).availableBalance = (l.stored a.accountID).availableBalance := by
  rw [stored_of_set h.snapshots, if_pos ha.symm, hzero, settleSnapshot, ha]
  rfl

end Touches

section Deltas

variable {u : Uuids} {l l' : Ledger} {s s' : DB} {a : BillingAccount} {userID legacy delta : Int}
  {w : Wallet}

/-- A settlement under a key that none has yet closes the reservation that it names. -/
theorem settleReservation_new {p : SettleReservationParams} {x : BillingSettlement}
    (h : (settleReservation u p).run l = (.ok x, l'))
    (hnew : ∀ y ∈ l.settlements, y.idempotencyKey ≠ p.idempotencyKey) :
    ∃ r id after, Settled l l' r x ∧ SettleEntries l.entries l'.entries id r.accountID x after ∧
      x.reservationID = p.reservationID ∧ x.actualAmount = p.actualAmount ∧
      x.idempotencyKey = trimSpace p.idempotencyKey := by
  obtain ⟨-, h⟩ := checked h
  obtain ⟨-, h⟩ := checked h
  obtain ⟨hres, hact, hcase⟩ := (settleReservationTx_ensures (· = l) u p).run rfl h
  rcases hcase with ⟨⟨c, rfl, hx, hkey⟩, -⟩ | ⟨r, hc, he, -, hkey, -⟩
  · exact absurd hkey (hnew x hx)
  · exact ⟨r, _, _, hc, he, hres, hact, hkey⟩

/-- A hold that is settled in full takes its amount off the available balance. -/
theorem holdAndSettle_moves (K : String → Prop) {q : CreateReservationParams}
    {p : SettleReservationParams} {id : String} {r : BillingReservation} {x : BillingSettlement}
    {l₁ : Ledger}
    (hheld : ReservationRecorded id l l₁ q r) (haccount : q.accountID = a.accountID)
    (hfirst : ∀ r ∈ l.reservations, r.idempotencyKey ≠ q.idempotencyKey)
    (hsettled : (settleReservation u p).run l₁ = (.ok x, l'))
    (hreservation : p.reservationID = r.reservationID) (hactual : p.actualAmount = q.reservedAmount)
    (hnew : ∀ y ∈ l.settlements, y.idempotencyKey ≠ p.idempotencyKey)
    (hhold : K (trimSpace q.idempotencyKey)) (hentry : K ("entry:" ++ trimSpace q.idempotencyKey))
    (hsettle : K (trimSpace p.idempotencyKey)) :
    Touches a K l l' ∧ (l'.stored a.accountID).availableBalance =
      wrap64 ((l.stored a.accountID).availableBalance - q.reservedAmount) := by
  rcases hheld.outcome with ⟨⟨hr, hkey⟩, -⟩ | ⟨e, hc, -, hkey, hekey⟩
  · exact absurd hkey (hfirst r hr)
  have hra : r.accountID = a.accountID := hheld.account.trans haccount
  have hheld' : Touches a K l l₁ :=
    touches_held hc hra (by rwa [hkey]) (by rwa [hekey])
  rw [← hc.settlements] at hnew
  obtain ⟨r', id', after, hs, he, hres, hact, hxkey⟩ := settleReservation_new hsettled hnew
  -- the settlement closes the reservation that was just made
  have hsame : r' = r := by
    have hget := Table.get?_of_mem ((Table.mem_insert? hc.reservations).2 (.inr rfl))
    have hcurrent := hs.current
    rw [← hs.reservation, hres, hreservation] at hcurrent
    rw [pk_reservation, hcurrent, Option.some.injEq] at hget
    exact hget
  subst hsame
  have hzero : x.deltaAmount = 0 := by
    rw [hs.delta, hact, hactual, hheld.amount]
    omega
  refine ⟨hheld'.trans (touches_settled hs he hzero hra (by rwa [hxkey])), ?_⟩
  rw [available_settled hs hzero hra, stored_of_set hc.snapshots, if_pos hra.symm, hra, hheld.amount]

/-- A change of the ledger balance, under keys that no row has yet. -/
theorem applyDeltaTx_moves {sync : LedgerSync}
    (h : (applyDeltaVia ledgerTx u a.accountID delta sync).run s = (.ok (), s'))
    (hnew : KeysAll (Unlike sync) s.ledger) :
    ∃ l, s' = s.setLedger l ∧ Touches a (SyncKey sync) s.ledger l ∧
      (delta = 0 ∧ l = s.ledger ∨ (l.stored a.accountID).availableBalance =
        wrap64 ((s.ledger.stored a.accountID).availableBalance - delta)) := by
  unfold applyDeltaVia at h
  split at h
  next hzero =>
    cases h
    exact ⟨s.ledger, rfl, .refl a _ _, .inl ⟨hzero, rfl⟩⟩
  split at h
  next hneg =>
    obtain ⟨e, s₁, hcredit, h⟩ := run_bind_eq_ok h
    cases h
    obtain ⟨l, hcredited, rfl⟩ := onLedger_ledgerTx _ _ _ _ hcredit
    have hrecorded := creditAccount_ok hcredited
    refine ⟨l, rfl, touches_credit hrecorded rfl (.inl rfl), .inr ?_⟩
    rw [available_credit hrecorded rfl fun e he => (hnew.entries e he).1]
    rfl
  next hzero hneg =>
    obtain ⟨r, s₁, hhold, h⟩ := run_bind_eq_ok h
    obtain ⟨l₁, hheld, rfl⟩ := onLedger_ledgerTx _ _ _ _ hhold
    obtain ⟨x, s₂, hsettle, h⟩ := run_bind_eq_ok h
    cases h
    obtain ⟨l, hsettled, rfl⟩ := onLedger_ledgerTx _ _ _ _ hsettle
    obtain ⟨htouches, havailable⟩ := holdAndSettle_moves (a := a) (SyncKey sync)
      (createReservation_ok hheld) rfl (fun r hr => (hnew.reservations r hr).2.1) hsettled rfl rfl
      (fun y hy => (hnew.settlements y hy).2.2) (.inr (.inl rfl)) (.inr (.inr (.inl rfl)))
      (.inr (.inr (.inr rfl)))
    exact ⟨l, rfl, htouches, .inr havailable⟩

/-- The account of the wallet, with the quota credited to it if it never had a balance. -/
theorem ensureMirroredUserAccountTx_moves
    (h : (ensureMirroredUserAccountTx u userID (accountType w) legacy).run s = (.ok a, s')) :
    ∃ l, s' = s.setLedger l ∧ a ∈ l.accounts ∧ a.owner = ownerOf (walletAccount userID w) ∧
      Touches a (· = trimSpace (bootstrapKey userID (accountType w))) s.ledger l := by
  obtain ⟨l, hready, rfl⟩ := ensureMirroredAccountVia_ok onLedger_ledgerTx h
  refine ⟨l, rfl, ?_⟩
  cases hready with
  | kept ensured used => exact ⟨ensured.mem, ensured.owner, touches_account ensured⟩
  | bootstrapped l₁ q e ensured unused positive account amount key credited =>
    refine ⟨?_, ensured.owner, (touches_account ensured).trans (touches_credit credited account ?_)⟩
    · rw [credited.accounts_eq]
      exact ensured.mem
    · rw [key]

/-- What a reconciliation is recorded under. -/
def reconcileSync (userID : Int) (uuid : String) : LedgerSync :=
  walletSync userID ("reconcile:" ++ uuid) "ledger_sync_reconcile"

/-- The available balance becomes the quota that was read. -/
theorem reconcileAccountBalanceTx_moves
    (h : (reconcileAccountBalanceTx u a.accountID userID legacy).run s = (.ok (), s'))
    (hnew : KeysAll (Unlike (reconcileSync userID (u 0))) s.ledger) :
    ∃ l, s' = s.setLedger l ∧ Touches a (SyncKey (reconcileSync userID (u 0))) s.ledger l ∧
      wrap64 (l.stored a.accountID).availableBalance = wrap64 legacy := by
  obtain ⟨row, s₁, ⟨rfl, rfl⟩, h⟩ := run_bind_of_ok h loadBalanceSnapshot_ok
  dsimp only at h
  split at h
  next hzero =>
    cases h
    refine ⟨s.ledger, rfl, .refl a _ _, ?_⟩
    have heq : (s.ledger.stored a.accountID).availableBalance = legacy := by omega
    rw [heq]
  next hne =>
    obtain ⟨l, rfl, htouches, hcase⟩ := applyDeltaTx_moves h hnew
    refine ⟨l, rfl, htouches, ?_⟩
    rcases hcase with ⟨hzero, -⟩ | havailable
    · exact absurd (neg_eq_zero.1 hzero) hne
    · rw [havailable, wrap64_wrap64]
      congr 1
      omega

end Deltas

section Accounts

variable {l l' : Ledger} {a : BillingAccount} {userID : Int} {w : Wallet} {K : String → Prop}

theorem ownerOf_walletAccount (userID : Int) (w : Wallet) :
    ownerOf (walletAccount userID w) = (ownerTypeUser, userID, accountType w, quotaUnitQuota) := by
  have htype : Solid (accountType w) := by cases w <;> decide
  have howner : Solid ownerTypeUser := by decide
  have hunit : Solid quotaUnitQuota := by decide
  rw [ownerOf, walletAccount, howner.trimSpace_eq, htype.trimSpace_eq, unitOf, hunit.trimSpace_eq]
  rfl

theorem findAccount_of_mem (ha : a ∈ l.accounts)
    (howner : a.owner = ownerOf (walletAccount userID w)) :
    findAccount ownerTypeUser userID (accountType w) l = some a := by
  rw [ownerOf_walletAccount] at howner
  refine Table.find?_eq_some_of_mem ha (decide_eq_true howner) fun b hb => ?_
  have hsame : b.owner = a.owner := (of_decide_eq_true hb).trans howner.symm
  exact decide_eq_true (.inr hsame)

theorem accountType_injective {w w' : Wallet} (h : accountType w = accountType w') : w = w' := by
  cases w <;> cases w' <;> first | rfl | exact absurd h (by decide)

/-- The accounts of the other wallets are as they were. -/
theorem findAccount_other (h : Touches a K l l') (ha : a ∈ l'.accounts)
    (howner : a.owner = ownerOf (walletAccount userID w)) {w' : Wallet} {id : Int}
    (hother : w' ≠ w ∨ id ≠ userID) :
    findAccount ownerTypeUser id (accountType w') l' =
      findAccount ownerTypeUser id (accountType w') l ∧
    ∀ b, findAccount ownerTypeUser id (accountType w') l = some b → b.accountID ≠ a.accountID := by
  rw [ownerOf_walletAccount] at howner
  have hne : ∀ b : BillingAccount,
      b.owner = (ownerTypeUser, id, accountType w', quotaUnitQuota) → b ≠ a := by
    rintro b hb rfl
    rw [howner, Prod.mk.injEq, Prod.mk.injEq, Prod.mk.injEq] at hb
    obtain ⟨-, hid, htype, -⟩ := hb
    exact hother.elim (fun hw => hw (accountType_injective htype).symm) fun hn => hn hid.symm
  cases hfind : findAccount ownerTypeUser id (accountType w') l with
  | some b =>
    have hb : b.owner = (ownerTypeUser, id, accountType w', quotaUnitQuota) := by
      have hprop := Table.prop_of_find? hfind
      exact of_decide_eq_true hprop
    have hmem : b ∈ l'.accounts := h.kept b (Table.mem_of_find? hfind)
    refine ⟨findAccount_of_mem hmem (by rw [hb, ownerOf_walletAccount]), ?_⟩
    intro b' hb' hid
    rw [Option.some.injEq] at hb'
    subst hb'
    exact hne b hb (Table.eq_of_clash hmem ha (Indexed.clash_of_pk b a hid))
  | none =>
    refine ⟨Table.find?_eq_none.2 fun b hb => ?_, nofun⟩
    rw [decide_eq_false_iff_not]
    intro hbowner
    rcases h.accounts b hb with hold | rfl
    · have hnot := Table.find?_eq_none.1 hfind b hold
      exact of_decide_eq_false hnot hbowner
    · exact hne _ hbowner rfl

end Accounts

section Wallets

variable {u : Uuids} {s s₁ s' : DB} {a : BillingAccount} {w : Wallet} {userID legacy amount : Int}
  {operationID key reason : String}

/-- The keys that bringing a wallet in line with its column writes. -/
def MirrorKey (u : Uuids) (userID : Int) (w : Wallet) (k : String) : Prop :=
  k = trimSpace (bootstrapKey userID (accountType w)) ∨ SyncKey (reconcileSync userID (u 3)) k

theorem head_bootstrapKey (userID : Int) (accountType : String) :
    (trimSpace (bootstrapKey userID accountType)).toList.head? = some 'm' :=
  head_trimSpace (head_append (head_append (head_append (by decide) _) _) _) (by decide)

theorem unlike_of_head {c : Char} {k operationID : String} (h : k.toList.head? = some c)
    (hc : c ≠ 'l') : Unlike (walletSync userID operationID reason) k := by
  have hne : ∀ kind : String, kind.toList.head? = some 'l' → k ≠ kind ++ operationID := by
    intro kind hkind
    apply ne_of_head
    rw [h, head_append hkind]
    exact fun heq => hc (Option.some.inj heq)
  exact ⟨hne _ (by decide), hne _ (by decide), hne _ (by decide)⟩

/-- How the functions that change a wallet begin. -/
theorem mirror_moves
    (hensure : (ensureMirroredUserAccountTx u userID (accountType w) legacy).run s = (.ok a, s₁))
    (hreconcile : (reconcileAccountBalanceTx (u.drop 3) a.accountID userID legacy).run s₁ =
      (.ok (), s'))
    (hnew : KeysAll (Unlike (reconcileSync userID (u 3))) s.ledger) :
    ∃ l, s' = s.setLedger l ∧ a ∈ l.accounts ∧ a.owner = ownerOf (walletAccount userID w) ∧
      Touches a (MirrorKey u userID w) s.ledger l ∧
      wrap64 (l.stored a.accountID).availableBalance = wrap64 legacy := by
  obtain ⟨l₁, rfl, hmem, howner, hfirst⟩ := ensureMirroredUserAccountTx_moves hensure
  have hnew₁ : KeysAll (Unlike (reconcileSync userID (u 3))) l₁ := by
    refine hfirst.keys _ hnew ?_
    rintro _ rfl
    exact unlike_of_head (head_bootstrapKey _ _) (by decide)
  obtain ⟨l, rfl, hsecond, havailable⟩ := reconcileAccountBalanceTx_moves hreconcile hnew₁
  refine ⟨l, rfl, hsecond.kept a hmem, howner, ?_, havailable⟩
  exact (hfirst.mono fun _ => .inl).trans (hsecond.mono fun _ => .inr)

/-- A wallet of a user was changed, and its ledger balance is the column now. -/
structure Changed (w : Wallet) (userID amount : Int) (K : String → Prop) (s s' : DB) : Prop where
  users : s'.users = (addToColumn w userID amount s).users
  balance : ledgerBalance w userID s' = wrap64 (quotaColumn w userID s + amount)
  others : ∀ w' id, w' ≠ w ∨ id ≠ userID → ledgerBalance w' id s' = ledgerBalance w' id s
  keys : ∀ P : String → Prop, KeysAll P s.ledger → (∀ k, K k → P k) → KeysAll P s'.ledger

theorem changed_of_touches {K : String → Prop} (ha : a ∈ s'.ledger.accounts)
    (howner : a.owner = ownerOf (walletAccount userID w)) (h : Touches a K s.ledger s'.ledger)
    (husers : s'.users = (addToColumn w userID amount s).users)
    (havailable : (s'.ledger.stored a.accountID).availableBalance =
      wrap64 (quotaColumn w userID s + amount)) : Changed w userID amount K s s' where
  users := husers
  balance := by
    rw [ledgerBalance, findAccount_of_mem ha howner]
    exact havailable
  others w' id hother := by
    obtain ⟨hsame, hne⟩ := findAccount_other h ha howner hother
    rw [ledgerBalance, hsame, ledgerBalance]
    cases hfind : findAccount ownerTypeUser id (accountType w') s.ledger with
    | some b => exact congrArg BillingBalanceSnapshot.availableBalance (h.stored _ (hne b hfind))
    | none => rfl
  keys := h.keys

/-- `CreditWalletQuotaTx` under a key that no row has yet. -/
theorem creditQuotaTx_changed
    (h : (creditQuotaTx w u userID amount key reason).run s = (.ok (), s'))
    (hreconcile : KeysAll (Unlike (reconcileSync userID (u 3))) s.ledger)
    (hnew : KeysAll (· ≠ key) s.ledger) (hapart : ∀ k, MirrorKey u userID w k → k ≠ key) :
    Changed w userID amount (fun k => MirrorKey u userID w k ∨ k = trimSpace key) s s' := by
  have hprog : creditQuotaTx w u userID amount key reason =
      creditUserWalletQuotaTx u userID amount key reason (mirroredWalletTx w) := by
    cases w <;> rfl
  rw [hprog] at h
  unfold creditUserWalletQuotaTx at h
  split at h
  next => cases h
  split at h
  next => cases h
  split at h
  next => cases h
  obtain ⟨legacy, s₁, hlegacy, h⟩ := run_bind_eq_ok h
  cases hlegacy
  obtain ⟨a, s₂, hensure, h⟩ := run_bind_eq_ok h
  obtain ⟨_, s₃, hrec, h⟩ := run_bind_eq_ok h
  obtain ⟨l, rfl, hmem, howner, htouches, havailable⟩ := mirror_moves hensure hrec hreconcile
  obtain ⟨e, s₄, hcredit, h⟩ := run_bind_eq_ok h
  obtain ⟨l', hcredited, rfl⟩ := onLedger_ledgerTx _ _ _ _ hcredit
  have hrecorded := creditAccount_ok hcredited
  have hlast : Touches a (fun k => MirrorKey u userID w k ∨ k = trimSpace key) l l' :=
    touches_credit hrecorded rfl (.inr rfl)
  obtain ⟨_, s₅, hlot, h⟩ := run_bind_eq_ok h
  have hcore := (keeps_recordFundingLotTx _ _ _ _ _ _ _).of_run hlot
  have hledger : s₅.ledger = l' := congrArg (fun core => core.1) hcore
  have husers : s₅.users = s.users := congrArg (fun core => core.2.1) hcore
  have hfinal : s' = addToColumn w userID amount s₅ := congrArg Prod.snd h.symm
  have hledger' : s'.ledger = l' := by
    rw [hfinal]
    exact hledger
  refine changed_of_touches (a := a) ?_ howner ?_ ?_ ?_
  · rw [hledger']
    exact hlast.kept a hmem
  · rw [hledger']
    exact (htouches.mono fun _ => .inl).trans hlast
  · rw [hfinal]
    unfold addToColumn
    rw [husers]
  · have hfresh := (htouches.keys _ hnew hapart).entries
    rw [hledger', available_credit hrecorded rfl hfresh, ← wrap64_wrap64_add]
    show wrap64 (wrap64 (l.stored a.accountID).availableBalance + amount) = _
    rw [havailable, wrap64_wrap64_add]

/-- `DebitWalletQuotaTx` and `DebitClaudeWalletQuotaTx`. -/
def debitQuotaTx : Wallet → Uuids → Int → Int → String → App Unit
  | .wallet => debitWalletQuotaTx
  | .claudeWallet => debitClaudeWalletQuotaTx

/-- What a debit is recorded under. -/
def debitSync (userID : Int) (operationID : String) : LedgerSync :=
  walletSync userID operationID "wallet_quota_conversion_debit"

/-- The statement of a debit on the column. -/
theorem decreaseUserQuotaColumnTx_ok
    (h : (decreaseUserQuotaColumnTx w userID amount).run s = (.ok (), s')) :
    (s.users.get? userID).isSome ∧ s' = addToColumn w userID (-amount) s := by
  rw [decreaseUserQuotaColumnTx, run_stepE] at h
  split at h
  next hany =>
    cases h
    refine ⟨?_, rfl⟩
    cases hu : s.users.get? userID with
    | some user => rfl
    | none =>
      rw [hu] at hany
      cases hany
  next => cases h

/-- A debit under an operation that no row is recorded under yet. -/
theorem debitQuotaTx_changed
    (h : (debitQuotaTx w u userID amount operationID).run s = (.ok (), s'))
    (hreconcile : KeysAll (Unlike (reconcileSync userID (u 3))) s.ledger)
    (hnew : KeysAll (Unlike (debitSync userID operationID)) s.ledger)
    (hapart : ∀ k, MirrorKey u userID w k → Unlike (debitSync userID operationID) k) :
    (0 < amount ∧ (s.users.get? userID).isSome) ∧ Changed w userID (-amount)
      (fun k => MirrorKey u userID w k ∨ SyncKey (debitSync userID operationID) k) s s' := by
  obtain ⟨bonus, hprog⟩ : ∃ bonus, debitQuotaTx w u userID amount operationID =
      debitUserWalletQuotaTx u userID amount operationID (debitMirroredWalletTx w) bonus := by
    cases w
    · exact ⟨true, rfl⟩
    · exact ⟨false, rfl⟩
  rw [hprog] at h
  unfold debitUserWalletQuotaTx at h
  split at h
  next => cases h
  next hvalid =>
  obtain ⟨legacy, s₁, hlegacy, h⟩ := run_bind_eq_ok h
  cases hlegacy
  split at h
  next => cases h
  obtain ⟨a, s₂, hensure, h⟩ := run_bind_eq_ok h
  obtain ⟨_, s₃, hrec, h⟩ := run_bind_eq_ok h
  obtain ⟨l, rfl, hmem, howner, htouches, havailable⟩ := mirror_moves hensure hrec hreconcile
  obtain ⟨_, s₄, hdelta, h⟩ := run_bind_eq_ok h
  obtain ⟨l', rfl, hmoves, hcase⟩ := applyDeltaTx_moves hdelta (htouches.keys _ hnew hapart)
  obtain ⟨_, s₅, ⟨huser, rfl⟩, h⟩ := run_bind_of_ok h decreaseUserQuotaColumnTx_ok
  have hcore : s'.core = (addToColumn w userID (-amount) (s.setLedger l')).core := by
    split at h
    · exact (keeps_consumeBonusWalletQuotaCreditsTx userID amount).of_run h
    · cases h
      rfl
  have hledger : s'.ledger = l' := congrArg (fun core => core.1) hcore
  have husers : s'.users = (addToColumn w userID (-amount) s).users :=
    congrArg (fun core => core.2.1) hcore
  refine ⟨⟨by omega, huser⟩, changed_of_touches (a := a) ?_ howner ?_ husers ?_⟩
  · rw [hledger]
    exact hmoves.kept a hmem
  · rw [hledger]
    exact (htouches.mono fun _ => .inl).trans (hmoves.mono fun _ => .inr)
  · rcases hcase with ⟨hzero, -⟩ | havailable'
    · omega
    · rw [hledger, havailable', ← wrap64_wrap64_sub]
      show wrap64 (wrap64 (l.stored a.accountID).availableBalance - amount) = _
      rw [havailable, wrap64_wrap64_sub]
      rfl

end Wallets

end CodeGo.Billing.MirrorBalance
