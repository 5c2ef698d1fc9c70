import CodeGo.Bounty.EscrowRuns

/-!
# A suspended task stays suspended

`ResumeTask` restores every column but the status, which it assigns to the row in
memory alone. The task then admits no operation that would end it.
-/

namespace CodeGo.Bounty.Suspension

open Lib Lib.Prog Billing.Schema Status Schema Tasks Review Effects Escrow Runs EscrowRuns

section Columns

/-- A task that is not over and not suspended. -/
def running (status : TaskStatus) : Bool := !isTerminalStatus status && status ≠ .suspended

/-- The columns of a suspension are empty. -/
def Clear (t : BountyTask) : Prop :=
  t.suspendedAt = none ∧ t.suspendedPreviousPausedAt = none ∧ t.suspendedFromStatus = none

def RunningClear (s : Store) : Prop :=
  ∀ id t, s.tasks.get? id = some t → running t.status = true → Clear t

variable {s s' : Store} {t t' : BountyTask} {now : Int} {u : Uuids} {k : Option String}

theorem clear_of_pauses (h : pauses t' = pauses t) (ht : Clear t) : Clear t' := by
  simp only [pauses, Prod.mk.injEq] at h
  obtain ⟨-, -, hat, hprevious, hfrom⟩ := h
  rwa [Clear, hat, hprevious, hfrom]

theorem clear_of_unpaused (h : pauses t = (t.deadlineAt, none, none, none, none)) : Clear t := by
  simp only [pauses, Prod.mk.injEq] at h
  exact ⟨h.2.2.1, h.2.2.2.1, h.2.2.2.2⟩

theorem running_of_active (h : active t.status = true) (hs : t.status ≠ .suspended) :
    running t.status = true := by
  revert h hs
  cases t.status <;> decide

theorem RunningClear.rows (h : RunningClear s) {id : String}
    (hrows : ∀ x, s'.tasks.get? x = if x = id then some t' else s.tasks.get? x)
    (ht : running t'.status = true → Clear t') : RunningClear s' := by
  intro x t₀ ht₀ hrunning
  rw [hrows] at ht₀
  split at ht₀
  next =>
    cases ht₀
    exact ht hrunning
  next => exact h x t₀ ht₀ hrunning

theorem RunningClear.effect (h : RunningClear s) (he : Effect now u k s s') : RunningClear s' := by
  cases he with
  | quiet tasks base blocking =>
    intro id t ht
    rw [tasks] at ht
    exact h id t ht
  | drafted t new rows status unheld unpaused base blocking =>
    exact h.rows rows fun _ => clear_of_unpaused unpaused
  | edited t input hrw status base blocking =>
    exact h.rows hrw.rows fun _ => h _ t hrw.row (by rw [status]; rfl)
  | published v n t r drawn before rows status positive held blocking =>
    refine h.rows rows fun _ => ?_
    rcases before with hrow | ⟨-, -, hunpaused⟩
    · exact h _ t hrow (by rw [status]; rfl)
    · exact clear_of_unpaused hunpaused
  | moved t t' hrw escrow pauses active unsuspended blocked base blocking =>
    exact h.rows hrw.rows fun _ =>
      clear_of_pauses pauses (h _ t hrw.row (running_of_active active.1 unsuspended.1))
  | asked t hrw status base blocking opened =>
    refine h.rows hrw.rows fun _ => h _ t hrw.row ?_
    rcases status with hst | hst <;> rw [hst] <;> rfl
  | unpaused t hrw active unsuspended base blocking was closed =>
    refine h.rows hrw.rows fun _ => ?_
    have hclear := h _ t hrw.row (running_of_active active unsuspended)
    unfold timerResumed
    cases t.pausedAt <;> exact hclear
  | suspended t hrw active unsuspended base blocking =>
    exact h.rows hrw.rows fun hrunning => nomatch hrunning
  | resumed t hrw status asked base blocking =>
    refine h.rows hrw.rows fun hrunning => ?_
    rw [(resumed_escrow now t).2, status] at hrunning
    cases hrunning
  | paid t t' executor amount hrw escrow assignee positive bounded status paid blocking =>
    refine h.rows hrw.rows fun hrunning => ?_
    rcases status with ⟨-, hst, -⟩ | ⟨-, hst, -⟩ <;> rw [hst] at hrunning <;> cases hrunning
  | released t t' hrw escrow active unsuspended status released blocking =>
    refine h.rows hrw.rows fun hrunning => ?_
    rcases status with hst | hst | hst <;> rw [hst] at hrunning <;> cases hrunning

theorem run_runningClear (h : Start s) (calls : List Call) : RunningClear (run calls s) :=
  run_invariant (P := fun _ => True) (fun _ _ _ _ hI he => hI.effect he) (fun _ _ => trivial)
    fun id t ht => by rw [h.tasks] at ht; cases ht

end Columns

section Stuck

variable {s s' : Store} {t : BountyTask} {now : Int} {u : Uuids} {k : Option String} {taskID : String}

/-- The task is suspended and its escrow is the one of `t`. -/
def Stuck (taskID : String) (t : BountyTask) (s : Store) : Prop :=
  ∃ t', s.tasks.get? taskID = some t' ∧ t'.status = .suspended ∧ escrow t' = escrow t

theorem Stuck.other (h : Stuck taskID t s) {id : String} {t₁ : BountyTask} (hne : taskID ≠ id)
    (hrows : ∀ x, s'.tasks.get? x = if x = id then some t₁ else s.tasks.get? x) :
    Stuck taskID t s' := by
  obtain ⟨t', ht', hrest⟩ := h
  refine ⟨t', ?_, hrest⟩
  rw [hrows, if_neg hne]
  exact ht'

/-- The row that an effect starts from is the suspended one, if it is the same task. -/
theorem Stuck.row_ne (h : Stuck taskID t s) {t₁ : BountyTask} (hrow : s.tasks.get? t₁.taskID = some t₁)
    (hst : t₁.status ≠ .suspended) : taskID ≠ t₁.taskID := by
  rintro rfl
  obtain ⟨t', ht', hstatus, -⟩ := h
  rw [hrow] at ht'
  cases ht'
  exact hst hstatus

theorem Stuck.rewritten (h : Stuck taskID t s) {t₁ t₂ : BountyTask} (hrw : Rewritten s s' t₁ t₂)
    (hst : t₁.status ≠ .suspended) : Stuck taskID t s' :=
  h.other (h.row_ne hrw.row hst) hrw.rows

theorem Stuck.effect (h : Stuck taskID t s) (he : Effect now u k s s') : Stuck taskID t s' := by
  cases he with
  | quiet tasks base blocking =>
    obtain ⟨t', ht', hrest⟩ := h
    exact ⟨t', by rwa [tasks], hrest⟩
  | drafted t₁ new rows status unheld unpaused base blocking =>
    refine h.other (fun heq => ?_) rows
    obtain ⟨t', ht', -⟩ := h
    rw [heq, new] at ht'
    cases ht'
  | edited t₁ input hrw status base blocking =>
    exact h.rewritten hrw (by rw [status]; exact nofun)
  | published v n t₁ r drawn before rows status positive held blocking =>
    refine h.other ?_ rows
    rcases before with hrow | ⟨hnew, -⟩
    · exact h.row_ne hrow (by rw [status]; exact nofun)
    · intro heq
      obtain ⟨t', ht', -⟩ := h
      rw [heq, hnew] at ht'
      cases ht'
  | moved t₁ t₂ hrw escrow pauses active unsuspended blocked base blocking =>
    exact h.rewritten hrw unsuspended.1
  | asked t₁ hrw status base blocking opened =>
    refine h.rewritten hrw ?_
    rcases status with hst | hst <;> rw [hst] <;> exact nofun
  | unpaused t₁ hrw active unsuspended base blocking was closed => exact h.rewritten hrw unsuspended
  | suspended t₁ hrw active unsuspended base blocking => exact h.rewritten hrw unsuspended
  | resumed t₁ hrw status asked base blocking =>
    by_cases heq : taskID = t₁.taskID
    · -- a task is resumed over and over, and keeps its status
      obtain ⟨t', ht', hst, hescrow⟩ := h
      rw [heq, hrw.row] at ht'
      cases ht'
      obtain ⟨hsame, hstatus⟩ := resumed_escrow now t₁
      refine ⟨resumed now t₁ t₁, ?_, hstatus.trans hst, hsame.trans hescrow⟩
      rw [hrw.rows, if_pos heq]
    · exact h.other heq hrw.rows
  | paid t₁ t₂ executor amount hrw escrow assignee positive bounded status paid blocking =>
    refine h.rewritten hrw ?_
    rcases status with ⟨hst, -⟩ | ⟨hst, -⟩ <;> rw [hst] <;> exact nofun
  | released t₁ t₂ hrw escrow active unsuspended status released blocking =>
    exact h.rewritten hrw unsuspended

theorem Stuck.run (h : Stuck taskID t s) (calls : List Call) : Stuck taskID t (run calls s) :=
  run_invariant (P := fun _ => True) (fun _ _ _ _ hI he => hI.effect he) (fun _ _ => trivial) h

end Stuck

section Resume

/-- A task that `SuspendTask` accepts. -/
def suspendable (status : TaskStatus) : Bool := status ≠ .draft && running status

/-- The task after a suspension of length `d`, as it should be. -/
def accounted (d : Int) (t : BountyTask) : BountyTask := { t with
  deadlineAt := t.deadlineAt + d
  reviewDeadlineAt := t.reviewDeadlineAt.map (· + d)
  pausedAt := t.pausedAt.map (· + d) }

variable {s : Store} {t : BountyTask} {at_ r : Int} {taskID : String}

theorem run_lockTaskTx (h : s.tasks.get? taskID = some t) :
    (lockTaskTx taskID).run s = (.ok t, s) := by
  rw [lockTaskTx, readOrFail, run_stepE, h]

variable (at_) in
theorem suspendTask_succeeds (h : s.tasks.get? taskID = some t) (hs : suspendable t.status = true) :
    ∃ s₁, (suspendTask at_ taskID).run s = (.ok (), s₁) ∧
      s₁.tasks.get? taskID = some (suspendedAs at_ t) := by
  have hid : t.taskID = taskID := Table.pk_of_get? h
  have hchecks : ¬ (isTerminalStatus t.status ∨ t.status = .suspended) ∧
      canTransition t.status .suspended = true := by
    revert hs
    cases t.status <;> decide
  refine ⟨s.updateTask t.taskID fun x => { x with
    suspendedFromStatus := some t.status
    suspendedAt := some at_
    suspendedPreviousPausedAt := t.pausedAt
    pausedAt := some (t.pausedAt.getD at_)
    status := .suspended }, ?_, ?_⟩
  · unfold suspendTask
    rw [run_bind_ok (run_lockTaskTx h), if_neg hchecks.1]
    unfold transitionTaskTx requireTransition
    rw [if_pos hchecks.2]
    rfl
  · rw [hid, get?_updateTask h, if_pos rfl]
    rfl

theorem resumeTask_succeeds (h : s.tasks.get? taskID = some (suspendedAs at_ t))
    (hs : suspendable t.status = true) (hle : at_ ≤ r) (hclear : Clear t) :
    ∃ s₁, (resumeTask r taskID).run s = (.ok (), s₁) ∧
      s₁.tasks.get? taskID = some { accounted (r - at_) t with status := .suspended } := by
  have hcan : canTransition .suspended t.status = true := by
    revert hs
    cases t.status <;> decide
  refine ⟨s.updateTask taskID (resumed r (suspendedAs at_ t)), ?_, ?_⟩
  · unfold resumeTask
    rw [run_bind_ok (run_lockTaskTx h), if_neg (by exact fun hne => hne rfl)]
    show (ofExcept (requireTransition .suspended t.status) >>= _).run s = _
    unfold requireTransition
    rw [if_pos hcan]
    rfl
  · rw [get?_updateTask h, if_pos rfl, taskColumns_resumed]
    have hextended : ∀ x : Int, (if r - at_ > 0 then x + (r - at_) else x) = x + (r - at_) := by
      intro x
      split <;> omega
    obtain ⟨hat, hprevious, hfrom⟩ := hclear
    simp only [resumed, suspendedAs, accounted, hextended, hat, hprevious, hfrom]

end Resume

/-- The task was suspended at `at_` and resumed at `r`, in between `mid` happened to other tasks,
and it is as before but for the time that passed. -/
def Undoes (taskID : String) (at_ r : Int) (mid : List Call) (s : Store) : Prop :=
  ∀ t, s.tasks.get? taskID = some t → ∃ s₁ s₂, (suspendTask at_ taskID).run s = (.ok (), s₁) ∧
    (resumeTask r taskID).run (run mid s₁) = (.ok (), s₂) ∧
    s₂.tasks.get? taskID = some (accounted (r - at_) t)

/-- The calls leave the row of the task alone, once it is suspended at `at_`. -/
def Elsewhere (taskID : String) (at_ : Int) (mid : List Call) (s : Store) : Prop :=
  ∀ s₁, (suspendTask at_ taskID).run s = (.ok (), s₁) →
    (run mid s₁).tasks.get? taskID = s₁.tasks.get? taskID

/-- Both calls succeed and everything but the status is as it should be. The status is `suspended`,
for good, with the hold open. -/
theorem resume_never_undoes {s : Store} (h : Start s) (calls mid : List Call)
    (hids : ∀ c ∈ calls ++ mid, ∀ i, c.u i ≠ "") {taskID : String} {t : BountyTask}
    (ht : (run calls s).tasks.get? taskID = some t) (hs : suspendable t.status = true)
    {at_ r : Int} (hle : at_ ≤ r) (hmid : Elsewhere taskID at_ mid (run calls s)) :
    ¬ Undoes taskID at_ r mid (run calls s) ∧
    ∃ s₁ s₂, (suspendTask at_ taskID).run (run calls s) = (.ok (), s₁) ∧
      (resumeTask r taskID).run (run mid s₁) = (.ok (), s₂) ∧
      s₂.tasks.get? taskID = some { accounted (r - at_) t with status := .suspended } ∧
      ∀ later : List Call, (∀ c ∈ later, ∀ i, c.u i ≠ "") →
        ∃ t', (run later s₂).tasks.get? taskID = some t' ∧ t'.status = .suspended ∧
          escrow t' = escrow t ∧
          ∃ hold, Holds (run later s₂).base.ledger t' hold ∧ hold.status = .open := by
  have hkept : Kept (run calls s) :=
    run_kept h.kept fun c hc => hids c (List.mem_append_left _ hc)
  have hrunning : running t.status = true := by
    revert hs
    cases t.status <;> decide
  have hclear := run_runningClear h calls taskID t ht hrunning
  obtain ⟨s₁, hsuspend, hrow₁⟩ := suspendTask_succeeds at_ ht hs
  have hrowmid : (run mid s₁).tasks.get? taskID = some (suspendedAs at_ t) :=
    (hmid s₁ hsuspend).trans hrow₁
  obtain ⟨s₂, hresume, hrow₂⟩ := resumeTask_succeeds hrowmid hs hle hclear
  have hids₀ := sampleUuids_ne (show "n" ≠ "" by decide)
  have hkept₁ : Kept s₁ := hkept.effect (k := none) hids₀ (suspendTask_effect hsuspend)
  have hkeptmid : Kept (run mid s₁) :=
    run_kept hkept₁ fun c hc => hids c (List.mem_append_right _ hc)
  have hkept₂ : Kept s₂ := hkeptmid.effect hids₀ (resumeTask_effect hresume)
  have hstuck : Stuck taskID t s₂ := ⟨_, hrow₂, rfl, rfl⟩
  refine ⟨fun hundoes => ?_, s₁, s₂, hsuspend, hresume, hrow₂, fun later hlater => ?_⟩
  · obtain ⟨s₁', s₂', hsuspend', hresume', hrow'⟩ := hundoes t ht
    rw [hsuspend] at hsuspend'
    cases hsuspend'
    rw [hresume] at hresume'
    cases hresume'
    rw [hrow₂, Option.some.injEq] at hrow'
    have hst : TaskStatus.suspended = t.status := congrArg BountyTask.status hrow'
    rw [← hst] at hrunning
    cases hrunning
  · obtain ⟨t', ht', hst, hescrow⟩ := hstuck.run later
    have hstage := (run_kept hkept₂ hlater).stages taskID t' ht'
    exact ⟨t', ht', hst, hescrow, hstage.held_of_active (by rw [hst]; rfl)⟩

/-- The first task of the sample, suspended during its review. -/
theorem resume_never_undoes_sample : ∃ t,
    (run sampleCalls sampleStore).tasks.get? "a0" = some t ∧ t.status = .reviewing ∧
      ¬ Undoes "a0" 5 8 [] (run sampleCalls sampleStore) := by
  have hsome : ((run sampleCalls sampleStore).tasks.get? "a0").map BountyTask.status =
      some .reviewing := by decide +kernel
  obtain ⟨t, ht, hst⟩ := Option.map_eq_some_iff.1 hsome
  have hundone := (resume_never_undoes sampleStore_start sampleCalls []
    (by rw [List.append_nil]; exact sampleCalls_ids) ht (by rw [hst]; rfl) (show (5 : Int) ≤ 8 by omega)
    fun _ _ => rfl).1
  exact ⟨t, ht, hst, hundone⟩

/-- Resuming is no undo. -/
theorem resume_does_not_undo : ¬ ∀ (s : Store), Start s → ∀ (calls mid : List Call),
    (∀ c ∈ calls ++ mid, ∀ i, c.u i ≠ "") → ∀ taskID t,
      (run calls s).tasks.get? taskID = some t → suspendable t.status = true →
      ∀ at_ r : Int, at_ ≤ r → Elsewhere taskID at_ mid (run calls s) →
        Undoes taskID at_ r mid (run calls s) := by
  intro hclaim
  obtain ⟨t, ht, hst⟩ := Option.map_eq_some_iff.1 (show
    ((run sampleCalls sampleStore).tasks.get? "a0").map BountyTask.status = some .reviewing by
      decide +kernel)
  obtain ⟨s₁, s₂, hsuspend, hresume, hrow⟩ := hclaim sampleStore sampleStore_start sampleCalls []
    (by rw [List.append_nil]; exact sampleCalls_ids) "a0" t ht (by rw [hst]; rfl) 5 8
    (by omega) (fun _ _ => rfl) t ht
  obtain ⟨s₁', hsuspend', hrow₁⟩ := suspendTask_succeeds 5 ht (by rw [hst]; rfl)
  rw [hsuspend] at hsuspend'
  cases hsuspend'
  obtain ⟨s₂', hresume', hrow₂⟩ := resumeTask_succeeds (r := 8) hrow₁ (by rw [hst]; rfl) (by omega)
    (run_runningClear sampleStore_start sampleCalls "a0" t ht (by rw [hst]; rfl))
  have hresumed : (resumeTask 8 "a0").run s₁ = (.ok (), s₂) := hresume
  rw [hresumed] at hresume'
  cases hresume'
  rw [hrow, Option.some.injEq] at hrow₂
  have hbefore : t.status = .suspended := congrArg BountyTask.status hrow₂
  rw [hst] at hbefore
  cases hbefore

end CodeGo.Bounty.Suspension
