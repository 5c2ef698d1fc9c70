import CodeGo.Bounty.Escrow

/-!
# Escrow over whole runs

From a store without bounty tasks, status and escrow agree after every run, and a
hold is closed at most once. A maintenance pass is one transaction for each task,
so it can fail after it closed the holds of other tasks.
-/

namespace CodeGo.Bounty.EscrowRuns

open Lib Lib.Prog Billing.Schema Billing.Aggregation Billing.Invariant Billing.Preservation
  Billing.Recorded Billing.Mirror Platform.Database Identity.Store Status Schema Tasks Review Effects EscrowLedger Escrow Runs

/-- No task yet, and nothing under the keys of one. -/
structure Start (s : Store) : Prop where
  tasks : ∀ id, s.tasks.get? id = none
  sound : Sound s.base.ledger
  reservations : ∀ r ∈ s.base.ledger.reservations, ¬ EscrowKey r.idempotencyKey
  entries : ∀ e ∈ s.base.ledger.entries, ¬ EscrowKey e.idempotencyKey

/-- The escrow of a task agrees with its status. -/
structure Follows (l : Ledger) (t : BountyTask) : Prop where
  openExactly : (∃ r, Holds l t r ∧ r.status = .open) ↔ active t.status = true
  completed : t.status = .completed → PaidOut l t t.rewardAmount
  resolved : t.status = .resolved →
    (∃ amount, (0 < amount ∧ amount ≤ t.rewardAmount) ∧ PaidOut l t amount) ∨ HoldReleased l t
  ended : t.status = .cancelled ∨ t.status = .expired → HoldReleased l t

/-- The call settles or releases the reservation. -/
def Closes (id : String) (c : Call) (s : Store) : Prop :=
  (∃ r ∈ s.base.ledger.reservations, r.reservationID = id ∧ r.status = .open) ∧
    ∃ r ∈ (c.exec s).2.base.ledger.reservations, r.reservationID = id ∧ r.status ≠ .open

/-- Quota columns change in a step that pays out a task, by the amount and for the executor. -/
def ColumnsFollow (s s' : Store) : Prop :=
  s'.base.users = s.base.users ∨ ∃ t t' executor amount,
    (s.tasks.get? t.taskID = some t ∧ active t.status = true ∧ t.assigneeUserID = some executor) ∧
    (s'.tasks.get? t.taskID = some t' ∧ PaidOut s'.base.ledger t' amount) ∧
    s'.base.users = (addToColumn t.rewardWalletType executor amount s.base).users

section Proof

variable {s s' : Store} {l : Ledger} {t : BountyTask} {now : Int} {u : Uuids} {k : Option String}

theorem Start.kept (h : Start s) : Kept s where
  sound := h.sound
  stages id t ht := by
    rw [h.tasks] at ht
    cases ht
  holds r hr id hkey := absurd ⟨id, .inl hkey⟩ (h.reservations r hr)
  credits e he id hkey := absurd ⟨id, .inr hkey⟩ (h.entries e he)

theorem Stage.follows (h : Stage l t) : Follows l t := by
  refine ⟨⟨?_, h.held_of_active⟩, ?_, ?_, ?_⟩
  · rintro ⟨r, hr, hopen⟩
    cases h with
    | draft status unheld unused => exact absurd (hr.id.trans unheld) hr.named
    | held r' status holds open_ => exact status
    | paid amount bounded status paid =>
      obtain ⟨r', hr', hst⟩ := paid.hold
      rw [hr.eq hr', hst] at hopen
      cases hopen
    | released status released =>
      obtain ⟨r', hr', hst⟩ := released
      rw [hr.eq hr', hst] at hopen
      cases hopen
  · intro hst
    cases h with
    | draft status unheld unused => simp [status] at hst
    | held r status holds open_ => simp [hst, active, isTerminalStatus] at status
    | paid amount bounded status paid =>
      rcases status with ⟨-, heq⟩ | hres
      · rwa [← heq]
      · rw [hst] at hres
        cases hres
    | released status released => simp [hst] at status
  · intro hst
    cases h with
    | draft status unheld unused => simp [status] at hst
    | held r status holds open_ => simp [hst, active, isTerminalStatus] at status
    | paid amount bounded status paid => exact .inl ⟨amount, bounded, paid⟩
    | released status released => exact .inr released
  · intro hst
    cases h with
    | draft status unheld unused => simp [status] at hst
    | held r status holds open_ =>
      rcases hst with hst | hst <;> simp [hst, active, isTerminalStatus] at status
    | paid amount bounded status paid =>
      rcases hst with hst | hst <;> simp [hst] at status
    | released status released => exact released

theorem run_kept (h : Kept s) {calls : List Call} (hids : ∀ c ∈ calls, ∀ i, c.u i ≠ "") :
    Kept (run calls s) :=
  run_invariant (fun _ _ _ hu hk he => hk.effect hu he) hids h

/-- Whatever an operation does, closed reservations stay. -/
theorem spares_of_effect (hs : Sound s.base.ledger) (h : Effect now u k s s') :
    Spares (fun _ => False) s.base.ledger s'.base.ledger := by
  have hsame : s'.base = s.base → Spares (fun _ => False) s.base.ledger s'.base.ledger := by
    intro hbase
    rw [hbase]
    exact .refl _ _
  cases h with
  | quiet tasks base blocking => exact hsame base
  | drafted t new rows status unheld unpaused base blocking => exact hsame base
  | edited t input hrw status base blocking => exact hsame base
  | published v n t r drawn before rows status positive held blocking =>
    obtain ⟨account, l, l', hready, hheld, hbase⟩ := held.reserved
    rw [hbase, setLedger_ledger]
    exact ((spares_of_accountReady hready).1.mono fun _ hk => hk.elim).trans
      (spares_of_reservation (fun _ hk => hk.elim) (createReservation_ok hheld) id)
  | moved t t' hrw escrow pauses active unsuspended blocked base blocking => exact hsame base
  | asked t hrw status base blocking opened => exact hsame base
  | unpaused t hrw active unsuspended base blocking was closed => exact hsame base
  | suspended t hrw active unsuspended base blocking => exact hsame base
  | resumed t hrw status asked base blocking => exact hsame base
  | paid t t' executor amount hrw escrow assignee positive bounded status paid blocking =>
    obtain ⟨x, submissionID, l, hsettled, hcredited⟩ := paid
    have hsettles : Spares (fun _ => False) s.base.ledger l :=
      spares_of_settlement (fun _ hk => hk.elim) (settleReservation_ok hsettled) fun _ _ => id
    rcases hcredited with ⟨-, hran⟩ | ⟨-, hbase⟩
    · obtain ⟨a, l₁, q, e, l', -, hmirrored, -, -, -, -, -, hcredit, rfl⟩ := creditQuotaTx_ok hran
      have hmirrors := spares_of_mirrored hmirrored
      rw [setLedger_ledger] at hmirrors
      exact hsettles.trans ((hmirrors.mono fun _ hk => hk.elim).trans (spares_of_credit hcredit id))
    · rw [hbase]
      exact hsettles
  | released t t' hrw escrow active unsuspended status released blocking =>
    cases released with
    | none unheld same => exact hsame same
    | released reason r l ran base =>
      obtain ⟨r₀, -, ⟨-, hl⟩ | ⟨e, hc, -⟩⟩ := releaseReservation_entry hs.records.releasesClose ran
      · rw [base, hl]
        exact .refl _ _
      · rw [base]
        exact spares_of_released hc id id

/-- A closed reservation is the same after every run. -/
theorem closed_stays (hs : Sound s.base.ledger) (calls : List Call) {r : BillingReservation}
    (hr : r ∈ s.base.ledger.reservations) (hst : r.status ≠ .open) :
    r ∈ (run calls s).base.ledger.reservations := by
  have hinv : Sound (run calls s).base.ledger ∧ r ∈ (run calls s).base.ledger.reservations :=
    run_invariant (I := fun s => Sound s.base.ledger ∧ r ∈ s.base.ledger.reservations)
      (P := fun _ => True) (fun c s s' _ hI he => ?_) (fun _ _ => trivial) ⟨hs, hr⟩
  · exact hinv.2
  · have hspares := spares_of_effect hI.1 he
    exact ⟨hspares.sound hI.1, hspares.closed r hI.2 hst⟩

theorem run_sound (hs : Sound s.base.ledger) (calls : List Call) :
    Sound (run calls s).base.ledger :=
  run_invariant (P := fun _ => True) (fun _ _ _ _ hI he => (spares_of_effect hI he).sound hI)
    (fun _ _ => trivial) hs

/-- No two calls close one reservation. -/
theorem closes_once (hs : Sound s.base.ledger) {pre mid : List Call} {c c' : Call} {id : String}
    (h : Closes id c (run pre s)) : ¬ Closes id c' (run (pre ++ c :: mid) s) := by
  rintro ⟨⟨r', hr', hid', hopen⟩, -⟩
  obtain ⟨-, r, hr, hid, hst⟩ := h
  have hpre := run_sound hs pre
  have hafter : Sound (c.exec (run pre s)).2.base.ledger := run_sound hpre [c]
  have hstays := closed_stays hafter mid hr hst
  rw [run_append] at hr'
  have heq : r' = r := Table.eq_of_clash hr' hstays (Indexed.clash_of_pk r' r (hid'.trans hid.symm))
  rw [heq] at hopen
  exact hst hopen

theorem columnsFollow_of_effect (hk : Kept s) (h : Effect now u k s s') :
    ColumnsFollow s s' := by
  have hsame : s'.base = s.base → ColumnsFollow s s' := fun hbase => .inl (by rw [hbase])
  cases h with
  | quiet tasks base blocking => exact hsame base
  | drafted t new rows status unheld unpaused base blocking => exact hsame base
  | edited t input hrw status base blocking => exact hsame base
  | published v n t r drawn before rows status positive held blocking =>
    obtain ⟨account, l, l', -, -, hbase⟩ := held.reserved
    exact .inl (by rw [hbase]; rfl)
  | moved t t' hrw escrow pauses active unsuspended blocked base blocking => exact hsame base
  | asked t hrw status base blocking opened => exact hsame base
  | unpaused t hrw active unsuspended base blocking was closed => exact hsame base
  | suspended t hrw active unsuspended base blocking => exact hsame base
  | resumed t hrw status asked base blocking => exact hsame base
  | paid t t' executor amount hrw escrow assignee positive bounded status paid blocking =>
    have hactive : Effects.active t.status = true := by
      rcases status with ⟨hst, -⟩ | ⟨hst, -⟩ <;> rw [hst] <;> rfl
    have hamount : amount = t.rewardAmount ∨ 0 < amount := by
      rcases status with ⟨-, -, heq⟩ | ⟨-, -, hamount⟩
      · exact .inl heq
      · exact hamount
    obtain ⟨hpositive, hpaidOut, -, -⟩ := hk.paidOut hrw escrow assignee.2 hactive hamount paid
    have hrow : s'.tasks.get? t.taskID = some t' := by rw [hrw.rows, if_pos rfl]
    refine .inr ⟨t, t', executor, amount, ⟨hrw.row, hactive, assignee.1⟩, ⟨hrow, hpaidOut⟩, ?_⟩
    obtain ⟨x, submissionID, l, -, ⟨-, hran⟩ | ⟨hzero, -⟩⟩ := paid
    · obtain ⟨a, l₁, q, e, l', -, -, husers, -⟩ := creditQuotaTx_ok hran
      exact husers
    · omega
  | released t t' hrw escrow active unsuspended status released blocking =>
    cases released with
    | none unheld same => exact hsame same
    | released reason r l ran base => exact .inl (by rw [base]; rfl)

end Proof

/-- After every run of operations, the maintenance taken task by task: the reservation of a task is
open exactly while it is published and not over; a completed task was settled at its reward and the
executor credited once, a resolved one that or at a smaller amount, or released; cancelled and
expired tasks were released. A reservation is closed by at most one call, quota columns follow the
payouts, a call that fails changes nothing, and a maintenance pass is such a run. -/
theorem escrow_follows_status {s : Store} (h : Start s) (calls : List Call)
    (hids : ∀ c ∈ calls, ∀ i, c.u i ≠ "") :
    (∀ id t, (run calls s).tasks.get? id = some t → Follows (run calls s).base.ledger t) ∧
    (∀ pre c mid c' post id, calls = pre ++ c :: mid ++ c' :: post → Closes id c (run pre s) →
      ¬ Closes id c' (run (pre ++ c :: mid) s)) ∧
    (∀ pre c post, calls = pre ++ c :: post →
      ColumnsFollow (run pre s) (c.exec (run pre s)).2 ∧
      ∀ e, (c.exec (run pre s)).1 = .error e → (c.exec (run pre s)).2 = run pre s) ∧
    ∀ now (u : String → Uuids), (∀ id i, u id i ≠ "") →
      ∃ pass, (∀ c ∈ pass, ∀ i, c.u i ≠ "") ∧
        ((runBountyMaintenanceOnce now u).run (run calls s)).2 = run (calls ++ pass) s := by
  refine ⟨fun id t ht => ?_, ?_, ?_, fun now u hu => ?_⟩
  · exact Stage.follows ((run_kept h.kept hids).stages id t ht)
  · rintro pre c mid c' post id rfl hcloses
    exact closes_once h.sound hcloses
  · rintro pre c post rfl
    have hpre : Kept (run pre s) :=
      run_kept h.kept fun d hd => hids d (List.mem_append_left _ hd)
    rcases c.exec_cases (run pre s) with ⟨hok, heffect⟩ | ⟨-, hsame⟩
    · refine ⟨columnsFollow_of_effect hpre heffect, fun e he => ?_⟩
      rw [hok] at he
      cases he
    · exact ⟨.inl (by rw [hsame]), fun _ _ => hsame⟩
  · obtain ⟨pass, hpass, hrun⟩ := maintenance_runsAs now u (run calls s)
    refine ⟨pass, fun c hc i => ?_, ?_⟩
    · obtain ⟨-, id, hid⟩ := hpass c hc
      rw [hid]
      exact hu id i
    · rw [hrun, run_append]

/-- A publisher, and two executors, one of them overdrawn. -/
def sampleStore : Store where
  base := { DB.empty with
    users := ((Table.empty.insert? { id := 1, quota := 1000 } >>= fun t =>
      t.insert? { id := 2 }) >>= fun t => t.insert? { id := 3, quota := -5 }).getD Table.empty }
  tasks := Table.empty
  applications := Table.empty
  requests := Table.empty
  submissions := Table.empty
  disputes := Table.empty

def sampleReward (key : String) : CreateTaskRequest where
  title := "title"
  description := "text"
  repoURL := "https://github.com/owner/repo"
  taskType := "backend"
  tags := []
  rewardWalletType := "wallet"
  rewardAmount := 200
  deadlineAt := 1000 * hour
  idempotencyKey := key

/-- A task of the publisher from its creation to the review. -/
def untilReview (a b : String) (executor : Int) : List Call := [
  ⟨0, sampleUuids a, .createTask 1 (sampleReward a)⟩,
  ⟨0, sampleUuids b, .submitApplication (a ++ "0") executor⟩,
  ⟨0, sampleUuids b, .assignApplication (a ++ "0") 1 b⟩,
  ⟨0, sampleUuids b, .startTask (a ++ "0") executor⟩,
  ⟨0, sampleUuids b, .createSubmission (a ++ "0") executor []⟩]

def sampleCalls : List Call := untilReview "a" "b" 2 ++ untilReview "c" "d" 3

theorem sampleStore_start : Start sampleStore where
  tasks _ := rfl
  sound := Sound.empty
  reservations _ hr := nomatch hr
  entries _ he := nomatch he

theorem append_ne {a : String} (h : a ≠ "") (b : String) : a ++ b ≠ "" := by
  intro he
  have hlist := congrArg String.toList he
  rw [String.toList_append] at hlist
  exact h (String.toList_injective (List.append_eq_nil_iff.1 hlist).1)

theorem sampleUuids_ne {base : String} (h : base ≠ "") (i : Nat) : sampleUuids base i ≠ "" :=
  append_ne h _

theorem sampleCalls_ids : ∀ c ∈ sampleCalls, ∀ i, c.u i ≠ "" := by
  intro c hc i
  simp only [sampleCalls, untilReview, List.cons_append, List.nil_append, List.mem_cons,
    List.not_mem_nil, or_false] at hc
  rcases hc with rfl | rfl | rfl | rfl | rfl | rfl | rfl | rfl | rfl | rfl
  all_goals exact sampleUuids_ne (by decide) i

/-- The first of the two tasks is under review, so its hold is open. -/
theorem escrow_follows_status_sample : ∃ t r,
    (run sampleCalls sampleStore).tasks.get? "a0" = some t ∧ t.status = .reviewing ∧
      Holds (run sampleCalls sampleStore).base.ledger t r ∧ r.status = .open := by
  have hsome : ((run sampleCalls sampleStore).tasks.get? "a0").map BountyTask.status =
      some .reviewing := by decide +kernel
  obtain ⟨t, ht, hst⟩ := Option.map_eq_some_iff.1 hsome
  have hfollows := (escrow_follows_status sampleStore_start sampleCalls sampleCalls_ids).1 "a0" t ht
  obtain ⟨r, hr, hopen⟩ := hfollows.openExactly.2 (by rw [hst]; rfl)
  exact ⟨t, r, ht, hst, hr, hopen⟩

/-- No effect touches the row of a task that is over. -/
theorem keeps_over {s s' : Store} {t : BountyTask} {now : Int} {u : Uuids} {k : Option String}
    {id : String} (he : Effect now u k s s') (ht : s.tasks.get? id = some t)
    (hover : isTerminalStatus t.status = true) : s'.tasks.get? id = some t := by
  have hother : ∀ {x : String} {t₂ : BountyTask},
      (∀ t₁, s.tasks.get? x = some t₁ → isTerminalStatus t₁.status = false) →
      (∀ y, s'.tasks.get? y = if y = x then some t₂ else s.tasks.get? y) →
      s'.tasks.get? id = some t := by
    intro x t₂ hrunning hrows
    rw [hrows, if_neg, ht]
    rintro rfl
    rw [hrunning t ht] at hover
    cases hover
  have hrow : ∀ {t₁ t₂ : BountyTask}, Rewritten s s' t₁ t₂ → isTerminalStatus t₁.status = false →
      s'.tasks.get? id = some t := by
    intro t₁ t₂ h hst
    refine hother (fun t' ht' => ?_) h.rows
    rw [h.row] at ht'
    cases ht'
    exact hst
  have hactive : ∀ {t₁ : BountyTask}, active t₁.status = true → isTerminalStatus t₁.status = false := by
    intro t₁ h
    simp only [active, Bool.and_eq_true, Bool.not_eq_true'] at h
    exact h.2
  cases he with
  | quiet tasks => rwa [tasks]
  | drafted t₁ new rows => exact hother (by simp [new]) rows
  | edited t₁ input h status => exact hrow h (by rw [status]; rfl)
  | published v n t₁ r drawn before rows status =>
    refine hother (fun t' ht' => ?_) rows
    rcases before with hbefore | ⟨hnone, -⟩
    · rw [hbefore] at ht'
      cases ht'
      rw [status]
      rfl
    · simp [hnone] at ht'
  | moved t₁ t₂ h escrow pauses active => exact hrow h (hactive active.1)
  | asked t₁ h status => exact hrow h (by rcases status with hst | hst <;> rw [hst] <;> rfl)
  | unpaused t₁ h active => exact hrow h (hactive active)
  | suspended t₁ h active => exact hrow h (hactive active)
  | resumed t₁ h status => exact hrow h (by rw [status]; rfl)
  | paid t₁ t₂ executor amount h escrow assignee positive bounded status =>
    exact hrow h (by rcases status with ⟨hst, -⟩ | ⟨hst, -⟩ <;> rw [hst] <;> rfl)
  | released t₁ t₂ h escrow active =>
    rcases active with hact | ⟨rfl, -⟩
    · exact hrow h (hactive hact)
    · -- cancelled again, it is written back as it was
      rw [h.rows]
      split
      next heq => rw [← ht, heq, h.row]
      next => exact ht

/-- A task that is over stays as it is, whatever is called later, and so does its hold, which is
closed. -/
theorem finished_task_is_final {s : Store} (h : Start s) (calls later : List Call)
    (hids : ∀ c ∈ calls, ∀ i, c.u i ≠ "") {id : String} {t : BountyTask}
    (ht : (run calls s).tasks.get? id = some t) (hover : isTerminalStatus t.status = true) :
    (run (calls ++ later) s).tasks.get? id = some t ∧
      ∃ r, Holds (run calls s).base.ledger t r ∧ r.status ≠ .open ∧
        r ∈ (run (calls ++ later) s).base.ledger.reservations := by
  have hsound := run_sound h.sound calls
  rw [run_append]
  constructor
  · exact run_invariant (I := fun s => s.tasks.get? id = some t) (P := fun _ => True)
      (fun _ _ _ _ hI he => keeps_over he hI hover) (fun _ _ => trivial) ht
  · have hhold : ∃ r, Holds (run calls s).base.ledger t r ∧ r.status ≠ .open := by
      cases (run_kept h.kept hids).stages id t ht with
      | draft status => rw [status] at hover; cases hover
      | held r status => simp [active, hover] at status
      | paid amount bounded status paid =>
        obtain ⟨r, hr, hst⟩ := paid.hold
        exact ⟨r, hr, by rw [hst]; decide⟩
      | released status released =>
        obtain ⟨r, hr, hst⟩ := released
        exact ⟨r, hr, by rw [hst]; decide⟩
    obtain ⟨r, hr, hst⟩ := hhold
    exact ⟨r, hr, hst, closed_stays hsound later hr.mem hst⟩

/-- Whatever bounty operations ran, no stored balance is negative, and those of an account are
together what it was granted. -/
theorem bounty_accounts_conserved {s : Store} (hs : Sound s.base.ledger) (calls : List Call)
    {a : String} (hfit : grantedSum (run calls s).base.ledger a < 2 ^ 63) :
    let x := (run calls s).base.ledger.stored a
    (0 ≤ x.availableBalance ∧ 0 ≤ x.reservedBalance ∧ 0 ≤ x.consumedTotal) ∧
      x.availableBalance + x.reservedBalance + x.consumedTotal = x.grantedTotal := by
  intro x
  have h := run_sound hs calls
  obtain ⟨havailable, hreserved, hconsumed, hgranted⟩ := stored_exact h hfit
  dsimp only [x]
  rw [havailable, hreserved, hconsumed, hgranted]
  exact ⟨⟨h.solvent a hfit, reservedSum_nonneg h.records a, consumedSum_nonneg h.records a⟩,
    h.conserved a⟩

theorem bounty_accounts_conserved_sample :
    ((run sampleCalls sampleStore).base.ledger.stored "a00").reservedBalance = 400 ∧
      0 ≤ ((run sampleCalls sampleStore).base.ledger.stored "a00").availableBalance :=
  ⟨by decide +kernel, (bounty_accounts_conserved sampleStore_start.sound sampleCalls
    (show grantedSum _ "a00" < 2 ^ 63 by decide +kernel)).1.1⟩

/-- The first of the two tasks is approved. -/
def reviewedCalls : List Call :=
  sampleCalls ++ [⟨1, sampleUuids "r", .reviewTask (.ok ()) "a0" 1 .approve ""⟩]

theorem finished_task_is_final_sample : ∃ t, t.status = .completed ∧
    (run (reviewedCalls ++ sampleCalls) sampleStore).tasks.get? "a0" = some t := by
  have hsome : ((run reviewedCalls sampleStore).tasks.get? "a0").map BountyTask.status =
      some .completed := by decide +kernel
  obtain ⟨t, ht, hst⟩ := Option.map_eq_some_iff.1 hsome
  have hids : ∀ c ∈ reviewedCalls, ∀ i, c.u i ≠ "" := by
    intro c hc
    rcases List.mem_append.1 hc with hc | hc
    · exact sampleCalls_ids c hc
    · rw [List.mem_singleton.1 hc]
      exact sampleUuids_ne (by decide)
  exact ⟨t, hst, (finished_task_is_final sampleStore_start reviewedCalls sampleCalls hids ht
    (by rw [hst]; rfl)).1⟩

/-- A pass settles the first task and fails at the second, whose executor is overdrawn. -/
theorem failed_pass_settles_a_task : ¬ ∀ (s : Store), Start s → ∀ acts : List Act,
    (∀ a ∈ acts, a.Identified) → ∀ pre a post, acts = pre ++ a :: post →
      ∀ e, (a.exec (runActs pre s)).1 = .error e →
        ∀ id, (a.exec (runActs pre s)).2.tasks.get? id = (runActs pre s).tasks.get? id := by
  intro hclaim
  have hcalls : ∀ a ∈ sampleCalls.map Act.call, a.Identified := by
    intro a ha
    obtain ⟨c, hc, rfl⟩ := List.mem_map.1 ha
    exact sampleCalls_ids c hc
  have hrun : runActs (sampleCalls.map Act.call) sampleStore = run sampleCalls sampleStore := rfl
  have hsame := hclaim sampleStore sampleStore_start
    (sampleCalls.map Act.call ++ [.maintenance (100 * hour) fun id => sampleUuids ("m" ++ id)])
    (fun a ha => ?_) _ _ [] rfl .insufficientBalance (by rw [hrun]; decide +kernel) "a0"
  · rw [hrun] at hsame
    revert hsame
    decide +kernel
  · rcases List.mem_append.1 ha with ha | ha
    · exact hcalls a ha
    · rw [List.mem_singleton.1 ha]
      exact fun id i => sampleUuids_ne (append_ne (by decide) id) i

end CodeGo.Bounty.EscrowRuns
