import CodeGo.Workflow.TaskRuntime

/-!
# A task is refunded at most once

A process that wins the transition of a task to `FAILURE` holds the one licence
to refund it; a Suno poller refunds first and owes the save. `Orderly` are the
runs in which no poller acts on a finished task: there the pollers and the sweep
refund a task at most once, and not at all once it is stored as successful.
-/

namespace CodeGo.Workflow.RefundOnce

open Lib Lib.Prog Lib.Weave Schema TaskLifecycle TaskRuntime

def storedStatus (x : Int) (s : DB) : Option TaskStatus := (s.tasks.get? x).map Task.status

/-- How often the funding of task `x` was refunded. -/
def refunds (x : Int) (s : DB) : Nat :=
  s.adjustments.countP fun a => a.purpose = .refund ∧ a.task = x

/-- Task `x` is stored with a status that is not terminal. -/
def Unfinished (x : Int) (s : DB) : Prop :=
  ∃ st, storedStatus x s = some st ∧ isTaskTerminalStatus st = false

/-- The statement writes the status of task `x`, or refunds it. -/
def Touches (x : Int) : Statement → Prop
  | .updateTaskWithStatus t _ => t.id = x
  | .saveTask t => t.id = x
  | .bulkUpdateTasksByID ids => x ∈ ids
  | .recordTaskRefund t => t.id = x
  | _ => False

/-- The save of a Suno poller. -/
def SunoSave (x : Int) (l : Label) : Prop :=
  l.caller = .updateSunoTasks ∧ ∃ t, l.statement = .saveTask t ∧ t.id = x

/-- The action does not act on a finished task, as far as its process and the database show. -/
structure Careful (x : Int) (l : Label) (s : DB) : Prop where
  /-- a video poller asks about copies that are not terminal -/
  fetched : ∀ t, l.statement = .fetchTask t → t.id = x → isTaskTerminalStatus t.status = false
  /-- a Suno poller refunds for the status `FAILURE` and while the task is unfinished -/
  refunded : l.caller = .updateSunoTasks → ∀ t, l.statement = .recordTaskRefund t → t.id = x →
    t.status = .failure ∧ Unfinished x s
  /-- a Suno poller saves while the task is unfinished, and the save reaches the database -/
  saved : SunoSave x l → l.refused = false ∧ Unfinished x s

/-- Nobody acts on a finished task, or between the refund and the save of a Suno poller. -/
structure Orderly {ι ε α : Type} (x : Int) (c : System ι DB Label ε α) (i : ι) (l : Label) :
    Prop where
  careful : Careful x l c.state
  alone : Touches x l.statement → ∀ j, j ≠ i → ∀ l', (c.proc j).next? = some l' → ¬ SunoSave x l'

/-- Where a process stands with task `x`: it may hold the licence to refund it, or owe its save. -/
inductive Duty where
  | idle | licensed | owing
  deriving DecidableEq

/-- What an action does to task `x` and to the duty of its process. -/
inductive Does (x : Int) (l : Label) : Duty → DB → DB → Duty → Prop where
  | quiet {s s' : DB} (status : storedStatus x s' = storedStatus x s)
      (same : refunds x s' = refunds x s) : Does x l .idle s s' .idle
  /-- a finished task only ever becomes `FAILURE`, and a licence is won from an unfinished one -/
  | write {s s' : DB} {st : TaskStatus} {d : Duty} (touches : Touches x l.statement)
      (status : storedStatus x s' = some st) (same : refunds x s' = refunds x s)
      (from_ : st = .failure ∨ Unfinished x s)
      (licence : d = .idle ∨ d = .licensed ∧ st = .failure ∧ Unfinished x s) :
      Does x l .idle s s' d
  | refund {s s' : DB} (status : storedStatus x s' = storedStatus x s)
      (once : refunds x s' ≤ refunds x s + 1) : Does x l .licensed s s' .idle
  | advance {s s' : DB} (touches : Touches x l.statement) (unfinished : Unfinished x s)
      (status : storedStatus x s' = storedStatus x s)
      (once : refunds x s' ≤ refunds x s + 1) : Does x l .idle s s' .owing
  | complete {s s' : DB} (status : storedStatus x s' = some .failure)
      (same : refunds x s' = refunds x s) : Does x l .owing s s' .idle

/-- The protocol of the processes about task `x`. -/
def protocol (x : Int) : Protocol DB Label Duty where
  may l d := d = .owing → SunoSave x l
  assume l _ s := Careful x l s
  does l := Does x l

theorem may_idle {x : Int} (l : Label) : (protocol x).may l .idle := nofun

theorem may_licensed {x : Int} (l : Label) : (protocol x).may l .licensed := nofun

section Statements

variable {x : Int}

theorem storedStatus_updateTask (id : Int) (f : Task → Task) (s : DB) :
    storedStatus x (updateTask id f s) =
      if x = id then (s.tasks.get? id).map fun t => (f t).status else storedStatus x s := by
  unfold storedStatus updateTask
  simp only [Table.get?_update]
  split
  · simp only [Option.map_map]
    rfl
  · rfl

theorem storedStatus_updateTask_of_eq (id : Int) {f : Task → Task}
    (hf : ∀ t, (f t).status = t.status) (s : DB) :
    storedStatus x (updateTask id f s) = storedStatus x s := by
  rw [storedStatus_updateTask]
  split
  next h =>
    subst h
    simp only [hf]
    rfl
  next => rfl

theorem refunds_adjust (purpose : Purpose) (task : Task) (delta : Int) (s : DB) :
    refunds x (adjust purpose task delta s) =
      refunds x s + if purpose = .refund ∧ task.id = x then 1 else 0 := by
  simp [refunds, adjust, List.countP_append, List.countP_cons]

/-- A save over a stored task. -/
theorem storedStatus_save {s : DB} {task : Task} {t : Table Task} (h : s.tasks.save? task = some t) :
    storedStatus x { s with tasks := t } = if x = task.id then some task.status
      else storedStatus x s := by
  unfold storedStatus
  simp only [Table.get?_save? h, pk_task]
  split <;> rfl

theorem save?_of_unfinished {s : DB} {task : Task} (h : Unfinished task.id s) :
    ∃ t, s.tasks.save? task = some t := by
  obtain ⟨st, hst, -⟩ := h
  obtain ⟨row, hrow, -⟩ := Option.map_eq_some_iff.1 hst
  apply Option.isSome_iff_exists.1
  apply Table.save?_isSome (Table.mem_of_get? hrow)
  · exact (Table.pk_of_get? hrow).symm
  · intro r
    have hid : row.id = task.id := Table.pk_of_get? hrow
    simp [clash, hid]

theorem storedStatus_failTasks (failReason : String) (ids : List Int) (s : DB) :
    storedStatus x (ids.foldl (fun s id => updateTask id (failTask failReason) s) s) =
        storedStatus x s ∨
      x ∈ ids ∧
        storedStatus x (ids.foldl (fun s id => updateTask id (failTask failReason) s) s) =
          some .failure := by
  induction ids generalizing s with
  | nil => exact .inl rfl
  | cons id ids ih =>
    rcases ih (updateTask id (failTask failReason) s) with h | ⟨hx, h⟩
    · by_cases hid : x = id
      · subst hid
        cases hrow : s.tasks.get? x with
        | none =>
          left
          rw [List.foldl_cons, h, storedStatus_updateTask, if_pos rfl]
          simp [storedStatus, hrow]
        | some row =>
          right
          refine ⟨List.mem_cons_self, ?_⟩
          rw [List.foldl_cons, h, storedStatus_updateTask, if_pos rfl, hrow]
          rfl
      · left
        rw [List.foldl_cons, h, storedStatus_updateTask, if_neg hid]
    · exact .inr ⟨List.mem_cons_of_mem id hx, h⟩

theorem refunds_failTasks (failReason : String) (ids : List Int) (s : DB) :
    refunds x (ids.foldl (fun s id => updateTask id (failTask failReason) s) s) = refunds x s := by
  induction ids generalizing s with
  | nil => rfl
  | cons id ids ih => exact ih _

end Statements

section Contracts

variable {x : Int} {α : Type}

/-- The program keeps to the protocol and leaves its process without a duty. -/
def Settles (x : Int) (p : Flow α) (d : Duty) (Q : α → Prop) : Prop :=
  Meets (protocol x) p d fun r d' => d' = .idle ∧ ∀ a, r = .ok a → Q a

theorem settles_ret {Q : α → Prop} {a : α} (h : Q a) : Settles x (Prog.ret a) .idle Q :=
  ⟨rfl, fun a' ha => by cases ha; exact h⟩

theorem settles_bind {β : Type} {p : Flow α} {q : α → Flow β} {d : Duty} {Q : α → Prop}
    {Q' : β → Prop} (hp : Settles x p d Q) (hq : ∀ a, Q a → Settles x (q a) .idle Q') :
    Settles x (p >>= q) d Q' := by
  apply meets_bind
  apply Meets.mono hp
  rintro (e | a) d' ⟨rfl, h⟩
  · exact e.elim
  · exact hq a (h a rfl)

/-- An action that leaves task `x` alone. -/
theorem settles_quiet {l : Label} {f : DB → α × DB} {Q : α → Prop}
    (status : ∀ s, storedStatus x (f s).2 = storedStatus x s)
    (same : ∀ s, refunds x (f s).2 = refunds x s) (h : ∀ s, Careful x l s → Q (f s).1) :
    Settles x (Prog.step l f) .idle Q := by
  apply meets_step (may_idle _)
  intro s hs
  exact ⟨.idle, .quiet (status s) (same s), rfl, fun a ha => by cases ha; exact h s hs⟩

theorem settles_foldlM {β δ : Type} {f : β → δ → Flow β} {xs : List δ} {b : β}
    (hf : ∀ b, ∀ y ∈ xs, Settles x (f b y) .idle fun _ => True) :
    Settles x (xs.foldlM f b) .idle fun _ => True := by
  induction xs generalizing b with
  | nil => exact settles_ret trivial
  | cons y ys ih =>
    exact settles_bind (hf b y List.mem_cons_self) fun b _ =>
      ih fun b z hz => hf b z (List.mem_cons_of_mem y hz)

theorem selectTasks_settles (caller : Caller) (query : DB → α) :
    Settles x (selectTasks caller query) .idle fun a => ∃ s, a = query s := by
  apply settles_quiet
  · exact fun _ => rfl
  · exact fun _ => rfl
  · exact fun s _ => ⟨s, rfl⟩

/-- Who wins the transition of a task that is due a refund holds the licence. -/
theorem updateTaskWithStatus_meets {caller : Caller} {task : Task} {fromStatus : TaskStatus}
    {refused : Bool} (due : Prop) [Decidable due]
    (hfrom : task.id = x → isTaskTerminalStatus fromStatus = false)
    (hdue : due → task.id = x ∧ task.status = .failure) :
    Meets (protocol x) (updateTaskWithStatus caller task fromStatus refused) .idle fun r d =>
      d = if r = .ok (some true) ∧ due then .licensed else .idle := by
  apply meets_step (may_idle _)
  intro s _
  by_cases hr : refused = true
  · exact ⟨.idle, .quiet (by simp [hr]) (by simp [hr]), by simp [hr]⟩
  by_cases hst : (s.tasks.get? task.id).map Task.status = some fromStatus
  · simp only [hr, hst, Bool.false_eq_true, if_false, if_true, true_and]
    by_cases hx : task.id = x
    · -- the transition is from an unfinished status
      subst hx
      have hu : Unfinished task.id s := ⟨fromStatus, hst, hfrom rfl⟩
      have hstored : storedStatus task.id (updateTask task.id (fun _ => task) s) =
          some task.status := by
        obtain ⟨row, hrow, -⟩ := Option.map_eq_some_iff.1 hst
        rw [storedStatus_updateTask, if_pos rfl, hrow]
        rfl
      refine ⟨if due then .licensed else .idle, .write rfl hstored rfl (.inr hu) ?_, rfl⟩
      split
      next h => exact .inr ⟨rfl, (hdue h).2, hu⟩
      next => exact .inl rfl
    · have hnot : ¬ due := fun h => hx (hdue h).1
      refine ⟨.idle, .quiet ?_ rfl, by simp [hnot]⟩
      rw [storedStatus_updateTask, if_neg (Ne.symm hx)]
  · simp only [hr, hst, Bool.false_eq_true, if_false]
    exact ⟨.idle, .quiet rfl rfl, by simp⟩

theorem storedStatus_recordTaskRefund (caller : Caller) (task : Task) (around : Surroundings)
    (s : DB) : storedStatus x ((recordTaskRefund caller task around).run s).2 = storedStatus x s := by
  simp only [recordTaskRefund, run_step]
  split <;> rfl

theorem refunds_recordTaskRefund (caller : Caller) (task : Task) (around : Surroundings) (s : DB) :
    refunds x ((recordTaskRefund caller task around).run s).2 ≤
      refunds x s + if task.id = x then 1 else 0 := by
  simp only [recordTaskRefund, run_step]
  split
  · exact Nat.le_add_right _ _
  · simp [refunds_adjust]

/-- The refund of the process that holds the licence. -/
theorem recordTaskRefund_settles (caller : Caller) (task : Task) (around : Surroundings) :
    Settles x (recordTaskRefund caller task around) (if task.id = x then .licensed else .idle)
      fun _ => True := by
  have hstatus := storedStatus_recordTaskRefund (x := x) caller task around
  have honce := refunds_recordTaskRefund (x := x) caller task around
  by_cases hx : task.id = x
  · rw [if_pos hx]
    apply meets_step (may_licensed _)
    intro s _
    have h := honce s
    rw [if_pos hx] at h
    exact ⟨.idle, .refund (hstatus s) h, rfl, fun _ _ => trivial⟩
  · rw [if_neg hx]
    apply settles_quiet
    · exact hstatus
    · intro s
      split
      · rfl
      · simp [refunds_adjust, hx]
    · exact fun _ _ => trivial

theorem refundIf_settles {due : Bool} {caller : Caller} {task : Task} {around : Surroundings}
    {d : Duty} (h : d = if due ∧ task.id = x then .licensed else .idle) :
    Settles x (refundIf due caller task around) d fun _ => True := by
  unfold refundIf
  rw [h]
  cases due with
  | true => simpa using recordTaskRefund_settles caller task around
  | false => exact settles_ret trivial

end Contracts

section Sweep

variable {x : Int} (settings : Settings)

theorem applyTimeout_status (task : Task) (now timeoutMinutes legacyTaskCutoff : Int) :
    (applyTimeout task now timeoutMinutes legacyTaskCutoff).1.status = .failure := by
  unfold applyTimeout
  dsimp only
  split <;> rfl

theorem sweepTask_settles {now : Int} {around : Task → Surroundings} {task : Task}
    (h : isTaskTerminalStatus task.status = false) :
    Settles x (sweepTask settings now around task) .idle fun _ => True := by
  unfold sweepTask
  dsimp only
  generalize hd : applyTimeout task now settings.taskTimeoutMinutes 1740182400 = d
  have hstatus : d.1.status = .failure := by rw [← hd, applyTimeout_status]
  apply meets_bind
  apply (updateTaskWithStatus_meets (d.2.shouldRefund = true ∧ d.1.id = x) (fun _ => h)
    fun h => ⟨h.2, hstatus⟩).mono
  rintro (e | won) g hg
  · exact e.elim
  · apply refundIf_settles
    rw [hg]
    simp [and_assoc]

theorem getTimedOutUnfinishedTasks_unfinished {cutoff : Int} {limit : Nat} {s : DB} {task : Task}
    (h : task ∈ getTimedOutUnfinishedTasks cutoff limit s) :
    isTaskTerminalStatus task.status = false := by
  unfold getTimedOutUnfinishedTasks at h
  have hmem := (List.mem_insertionSort _).1 (List.mem_of_mem_take h)
  have hu := List.of_mem_filter hmem
  simp only [unfinished, Bool.and_eq_true, Bool.not_eq_true'] at hu
  exact hu.1.2

theorem sweepTimedOutTasks_settles (now : Int) (around : Task → Surroundings) :
    Settles x (sweepTimedOutTasks settings now around) .idle fun _ => True := by
  unfold sweepTimedOutTasks
  split
  · exact settles_ret trivial
  · apply settles_bind (selectTasks_settles _ _)
    rintro tasks ⟨s, rfl⟩
    apply (meets_forM _).mono
    · rintro r d rfl
      exact ⟨rfl, fun _ _ => trivial⟩
    · intro task htask
      apply Meets.mono (sweepTask_settles settings (getTimedOutUnfinishedTasks_unfinished htask))
      exact fun _ _ h => h.1

end Sweep

section Suno

variable {x : Int}

theorem bulkUpdateTasksByID_settles (caller : Caller) (ids : List Int) (failReason : String)
    (refused : Bool) : Settles x (bulkUpdateTasksByID caller ids failReason refused) .idle
      fun _ => True := by
  unfold bulkUpdateTasksByID
  split
  · exact settles_ret trivial
  · apply meets_step (may_idle _)
    intro s _
    refine ⟨.idle, ?_, rfl, fun _ _ => trivial⟩
    split
    · exact .quiet rfl rfl
    · rcases storedStatus_failTasks (x := x) failReason ids s with h | ⟨hx, h⟩
      · exact .quiet h (refunds_failTasks failReason ids s)
      · exact .write hx h (refunds_failTasks failReason ids s) (.inl rfl) (.inl rfl)

/-- A Suno poller refunds on account of the save that follows. -/
theorem refundIf_suno (due : Bool) (task : Task) (around : Surroundings) :
    Meets (protocol x) (refundIf due .updateSunoTasks task around) .idle fun _ d =>
      d = .idle ∨ d = .owing ∧ task.id = x ∧ task.status = .failure := by
  unfold refundIf
  split
  · apply meets_step (may_idle _)
    intro s hs
    have hstatus := storedStatus_recordTaskRefund (x := x) .updateSunoTasks task around s
    have honce := refunds_recordTaskRefund (x := x) .updateSunoTasks task around s
    by_cases hx : task.id = x
    · obtain ⟨hf, hu⟩ := hs.refunded rfl task rfl hx
      rw [if_pos hx] at honce
      exact ⟨.owing, .advance hx hu hstatus honce, .inr ⟨rfl, hx, hf⟩⟩
    · refine ⟨.idle, .quiet hstatus ?_, .inl rfl⟩
      split
      · rfl
      · simp [refunds_adjust, hx]
  · exact .inl rfl

theorem saveTask_suno {task : Task} {refused : Bool} {d : Duty}
    (h : d = .idle ∨ d = .owing ∧ task.id = x ∧ task.status = .failure) :
    Settles x (saveTask .updateSunoTasks task refused) d fun _ => True := by
  by_cases hx : task.id = x
  · subst hx
    have hsave : SunoSave task.id ⟨.updateSunoTasks, .saveTask task, refused⟩ := ⟨rfl, task, rfl, rfl⟩
    apply meets_step fun _ => hsave
    intro s hs
    obtain ⟨hr, hu⟩ := hs.saved hsave
    obtain ⟨t, ht⟩ := save?_of_unfinished hu
    have hr : refused = false := hr
    have hstatus := storedStatus_save (x := task.id) ht
    simp only [hr, ht, Bool.false_eq_true, if_false]
    rw [if_pos rfl] at hstatus
    refine ⟨.idle, ?_, rfl, fun _ _ => trivial⟩
    rcases h with rfl | ⟨rfl, -, hf⟩
    · exact .write rfl hstatus rfl (.inr hu) (.inl rfl)
    · rw [hf] at hstatus
      exact .complete hstatus rfl
  · obtain rfl : d = .idle := by
      rcases h with rfl | ⟨-, hid, -⟩
      · rfl
      · exact absurd hid hx
    apply settles_quiet
    · intro s
      split
      · rfl
      · split
        next t ht => rw [storedStatus_save ht, if_neg (Ne.symm hx)]
        next => rfl
    · intro s
      split
      · rfl
      · split <;> rfl
    · exact fun _ _ => trivial

theorem updateSunoTask_settles (taskM : TaskMap) (item : SunoDataResponse × Surroundings) :
    Settles x (updateSunoTask taskM item) .idle fun _ => True := by
  unfold updateSunoTask
  split
  · exact settles_ret trivial
  · split
    · apply meets_bind
      apply (refundIf_suno _ _ _).mono
      rintro (e | -) d hd
      · exact e.elim
      · exact settles_bind (saveTask_suno hd) fun _ _ => settles_ret trivial
    · exact settles_ret trivial

theorem updateSunoChannel_settles (answer : SunoAnswer) (channelID : Int) (taskIDs : List String)
    (taskM : TaskMap) : Settles x (updateSunoChannel answer channelID taskIDs taskM) .idle
      fun _ => True := by
  unfold updateSunoChannel
  split
  · exact settles_ret trivial
  · cases answer with
    | noChannel refused =>
      exact settles_bind (bulkUpdateTasksByID_settles ..) fun _ _ => settles_ret trivial
    | failed => exact settles_ret trivial
    | items items => exact settles_foldlM fun taskM item _ => updateSunoTask_settles taskM item

theorem updateSunoTasks_settles (answers : Int → SunoAnswer)
    (taskChannelM : List (Int × List String)) (taskM : TaskMap) :
    Settles x (updateSunoTasks answers taskChannelM taskM) .idle fun _ => True :=
  settles_foldlM fun taskM c _ => updateSunoChannel_settles (answers c.1) c.1 c.2 taskM

end Suno

section Video

variable {x : Int} (settings : Settings)

theorem adjustFunding_settles (caller : Caller) (task : Task) (delta : Int) (fails : Bool) :
    Settles x (adjustFunding caller task delta fails) .idle fun _ => True := by
  apply settles_quiet
  · intro s
    split <;> rfl
  · intro s
    split
    · rfl
    · simp [refunds_adjust]
  · exact fun _ _ => trivial

theorem updateTaskQuota_settles (caller : Caller) (task : Task) (refused : Bool) :
    Settles x (updateTaskQuota caller task refused) .idle fun _ => True := by
  apply settles_quiet
  · intro s
    dsimp only
    split
    · rfl
    · apply storedStatus_updateTask_of_eq
      exact fun _ => rfl
  · intro s
    dsimp only
    split <;> rfl
  · exact fun _ _ => trivial

theorem settleTaskQuotaDelta_settles (caller : Caller) (task : Task) (actualQuota : Int)
    (around : Surroundings) :
    Settles x (settleTaskQuotaDelta caller task actualQuota around) .idle fun _ => True := by
  unfold settleTaskQuotaDelta
  split
  · exact settles_ret trivial
  · apply settles_bind (adjustFunding_settles ..)
    intro adjusted _
    split
    · exact settles_bind (updateTaskQuota_settles ..) fun _ _ => settles_ret trivial
    · exact settles_ret trivial

theorem settleIf_settles (shouldSettle : Bool) (caller : Caller) (task : Task)
    (byAdaptor byTokens : Int) (around : Surroundings) :
    Settles x (settleIf shouldSettle caller task byAdaptor byTokens around) .idle
      fun _ => True := by
  unfold settleIf settleTaskBillingOnComplete
  split
  · split
    · exact settles_ret trivial
    · split
      · exact settleTaskQuotaDelta_settles ..
      · exact settleTaskQuotaDelta_settles ..
  · exact settles_ret trivial

/-- A video answer leads to a refund only with the status `FAILURE`, and never with a settlement. -/
theorem applyVideoTaskResult_decides {serverAddress : String} {task updated : Task}
    {taskResult : TaskInfo} {now : Int} {decision : VideoTransitionDecision}
    (h : applyVideoTaskResult serverAddress task taskResult now = (updated, some decision)) :
    updated.id = task.id ∧
      (decision.shouldRefund = true → updated.status = .failure ∧ decision.shouldSettle = false) := by
  unfold applyVideoTaskResult at h
  dsimp only at h
  split at h
  · cases h
    exact ⟨rfl, nofun⟩
  split at h
  · cases h
    exact ⟨rfl, nofun⟩
  split at h
  · cases h
    exact ⟨rfl, nofun⟩
  split at h
  · cases h
    exact ⟨rfl, nofun⟩
  split at h
  next hf =>
    cases h
    exact ⟨rfl, fun _ => ⟨hf, rfl⟩⟩
  next => cases h

/-- Storing a copy that was not terminal wins the licence to refund, when a refund is due. -/
theorem storeVideoTask_meets {snap : TaskSnapshot} {task : Task} {refused : Bool} (due : Prop)
    [Decidable due] (hsnap : task.id = x → isTaskTerminalStatus snap.status = false)
    (hdue : due → task.id = x ∧ task.status = .failure) :
    Meets (protocol x) (storeVideoTask snap task refused) .idle fun r d =>
      d = if r = .ok true ∧ due then .licensed else .idle := by
  unfold storeVideoTask
  split
  · apply meets_bind
    apply (updateTaskWithStatus_meets due hsnap hdue).mono
    rintro (e | won) d rfl
    · exact e.elim
    · change _ = if Except.ok (decide (won = some true)) = Except.ok true ∧ due then _ else _
      simp
  next hnot =>
    have hn : ¬ due := by
      intro h
      obtain ⟨hx, hf⟩ := hdue h
      apply hnot
      rw [hf]
      refine ⟨by decide, fun hs => ?_⟩
      have hterminal := hsnap hx
      rw [hs] at hterminal
      exact absurd hterminal (by decide)
    split
    · apply meets_bind
      apply (updateTaskWithStatus_meets due hsnap hdue).mono
      rintro (e | won) d rfl
      · exact e.elim
      · change _ = if _ then _ else _
        simp [hn]
    · change _ = if _ then _ else _
      simp [hn]

theorem applyVideoResult_settles {task : Task} (r : VideoResult)
    (h : task.id = x → isTaskTerminalStatus task.status = false) :
    Settles x (applyVideoResult settings task r) .idle fun _ => True := by
  unfold applyVideoResult
  split
  · exact settles_ret trivial
  · split
    · exact settles_ret trivial
    next updated decision hd =>
      obtain ⟨hid, hrefund⟩ := applyVideoTaskResult_decides hd
      apply meets_bind
      apply (storeVideoTask_meets (x := x) (decision.shouldRefund = true ∧ updated.id = x)
        (fun hx => h (hid ▸ hx)) fun hdue => ⟨hdue.2, (hrefund hdue.1).1⟩).mono
      rintro (e | billing) d rfl
      · exact e.elim
      · change Settles x _ _ _
        cases hr : decision.shouldRefund with
        | true =>
          rw [(hrefund hr).2, Bool.and_false]
          apply settles_bind (refundIf_settles (by simp))
          exact fun _ _ => settles_ret trivial
        | false =>
          simp only [Bool.false_eq_true, false_and, and_false, if_false, Bool.and_false]
          apply settles_bind (settleIf_settles ..)
          intro settled _
          exact settles_bind (refundIf_settles (by simp)) fun _ _ => settles_ret trivial

theorem updateVideoSingleTask_settles (answer : VideoAnswer) (taskID : String) (taskM : TaskMap) :
    Settles x (updateVideoSingleTask settings answer taskID taskM) .idle fun _ => True := by
  unfold updateVideoSingleTask
  split
  · exact settles_ret trivial
  next task htask =>
    have hfetch : Settles x (Prog.step ⟨.updateVideoTasks, .fetchTask task, false⟩ fun s => ((), s))
        .idle fun _ => task.id = x → isTaskTerminalStatus task.status = false := by
      apply settles_quiet
      · exact fun _ => rfl
      · exact fun _ => rfl
      · exact fun s hs => hs.fetched task rfl
    apply settles_bind hfetch
    intro _ h
    cases answer with
    | failed => exact settles_ret trivial
    | parsed result =>
      exact settles_bind (applyVideoResult_settles settings result h) fun _ _ => settles_ret trivial

theorem updateVideoChannel_settles (answer : VideoChannelAnswer) (channelID : Int)
    (taskIDs : List String) (taskM : TaskMap) :
    Settles x (updateVideoChannel settings answer channelID taskIDs taskM) .idle fun _ => True := by
  unfold updateVideoChannel
  split
  · exact settles_ret trivial
  · cases answer with
    | noChannel refused =>
      exact settles_bind (bulkUpdateTasksByID_settles ..) fun _ _ => settles_ret trivial
    | noAdaptor => exact settles_ret trivial
    | tasks answer =>
      exact settles_foldlM fun taskM t _ => updateVideoSingleTask_settles settings _ t.1 taskM

theorem updateVideoTasks_settles (answers : Int → VideoChannelAnswer)
    (taskChannelM : List (Int × List String)) (taskM : TaskMap) :
    Settles x (updateVideoTasks settings answers taskChannelM taskM) .idle fun _ => True :=
  settles_foldlM fun taskM c _ =>
    updateVideoChannel_settles settings (answers c.1) c.1 c.2 taskM

end Video

section Actors

variable {x : Int} (settings : Settings)

theorem dispatchPlatformUpdate_settles (answers : Answers) (platform : String)
    (taskChannelM : List (Int × List String)) (taskM : TaskMap) :
    Settles x (dispatchPlatformUpdate settings answers platform taskChannelM taskM) .idle
      fun _ => True := by
  unfold dispatchPlatformUpdate
  split
  · exact settles_bind (updateSunoTasks_settles ..) fun _ _ => settles_ret trivial
  · exact settles_bind (updateVideoTasks_settles ..) fun _ _ => settles_ret trivial

theorem saveTask_pollSingleTask {task : Task} {refused : Bool} (h : task.status = .failure) :
    Settles x (saveTask .pollSingleTask task refused) .idle fun _ => True := by
  apply meets_step (may_idle _)
  intro s _
  refine ⟨.idle, ?_, rfl, fun _ _ => trivial⟩
  split
  · exact .quiet rfl rfl
  · split
    next t ht =>
      have hstatus := storedStatus_save (x := x) ht
      by_cases hx : x = task.id
      · rw [if_pos hx, h] at hstatus
        exact .write hx.symm hstatus rfl (.inl rfl) (.inl rfl)
      · rw [if_neg hx] at hstatus
        exact .quiet hstatus rfl
    next => exact .quiet rfl rfl

theorem pollSingleTask_settles (answers : Answers) (task : Task) :
    Settles x (pollSingleTask settings answers task) .idle fun _ => True := by
  unfold pollSingleTask
  split
  · exact saveTask_pollSingleTask rfl
  · exact dispatchPlatformUpdate_settles ..

theorem program_settles (actor : Actor) :
    Settles x (actor.program settings) .idle fun _ => True := by
  cases actor with
  | sweep now around => exact sweepTimedOutTasks_settles settings now around
  | pollSingle query answers =>
    apply settles_bind (selectTasks_settles ..)
    rintro task -
    cases task with
    | some task => exact pollSingleTask_settles settings answers task
    | none => exact settles_ret trivial
  | pollPlatform query platform taskChannelM answers =>
    apply settles_bind (selectTasks_settles ..)
    exact fun tasks _ => dispatchPlatformUpdate_settles ..

end Actors

section Runs

variable {x : Int} {ι : Type}

/-- At most one process has a duty; the refunds on record and the stored status agree with it. -/
structure Accounted (x : Int) (s : DB) (d : ι → Duty) : Prop where
  one : ∀ i j, d i ≠ .idle → d j ≠ .idle → i = j
  most : refunds x s ≤ 1
  licence : ∀ i, d i = .licensed → refunds x s = 0 ∧ storedStatus x s = some .failure
  debt : ∀ i, d i = .owing → Unfinished x s
  clean : (∀ i, d i = .idle) → storedStatus x s ≠ some .failure → refunds x s = 0

/-- Task `x` is finished without a refund, and nobody is about to make one. -/
structure Finished (x : Int) (s : DB) (d : ι → Duty) : Prop where
  idle : ∀ i, d i = .idle
  none : refunds x s = 0
  terminal : ¬ Unfinished x s
  stored : storedStatus x s ≠ Option.none

theorem not_unfinished_of_eq {s : DB} {st : TaskStatus} (h : storedStatus x s = some st)
    (hst : isTaskTerminalStatus st = true) : ¬ Unfinished x s := by
  rintro ⟨st', h', hfalse⟩
  rw [h] at h'
  cases h'
  rw [hst] at hfalse
  cases hfalse

theorem ne_failure_of_unfinished {s : DB} (h : Unfinished x s) : storedStatus x s ≠ some .failure :=
  fun hf => not_unfinished_of_eq hf (by decide) h

/-- A task that is stored as successful has not been refunded, and will not be. -/
theorem Accounted.finished {s : DB} {d : ι → Duty} (h : Accounted x s d)
    (hs : storedStatus x s = some .success) : Finished x s d := by
  have hidle : ∀ i, d i = .idle := by
    intro i
    cases hd : d i with
    | idle => rfl
    | licensed =>
      have hf := (h.licence i hd).2
      rw [hs] at hf
      exact absurd hf (by decide)
    | owing => exact absurd (h.debt i hd) (not_unfinished_of_eq hs (by decide))
  refine ⟨hidle, h.clean hidle ?_, not_unfinished_of_eq hs (by decide), by simp [hs]⟩
  rw [hs]
  decide

/-- The rule of the processes: each may take any action, and ends without a duty. -/
abbrev Rested (_ : ι) (_ : Except Empty Unit) (d : Duty) : Prop := d = .idle

theorem not_owing_of_alone {c : System ι DB Label Empty Unit} {d : ι → Duty} {i : ι} {l : Label}
    (hkeep : Keeping (protocol x) Rested c d) (hok : Orderly x c i l)
    (ht : Touches x l.statement) (j : ι) (hj : j ≠ i) : d j ≠ .owing := by
  intro hd
  have hmeets := hkeep j
  rw [hd] at hmeets
  obtain ⟨l', hnext, hmay⟩ := hmeets.has_next fun _ => nofun
  exact hok.alone ht j hj l' hnext (hmay rfl)

variable [DecidableEq ι]

theorem update_ne_idle {d : ι → Duty} {i j : ι} {di : Duty}
    (hj : Function.update d i di j ≠ .idle) : j = i ∨ d j ≠ .idle := by
  by_cases h : j = i
  · exact .inl h
  · rw [Function.update_of_ne h] at hj
    exact .inr hj

/-- After its last duty is done, nobody has one. -/
theorem Accounted.all_idle {s : DB} {d : ι → Duty} (h : Accounted x s d) {i : ι}
    (hi : d i ≠ .idle) (j : ι) : Function.update d i .idle j = .idle := by
  by_cases hj : j = i
  · rw [hj, Function.update_self]
  · rw [Function.update_of_ne hj]
    by_contra hne
    exact hj (h.one j i hne hi)

/-- Each action that the protocol allows keeps the account, where nobody else owes a save of a
task that it touches. -/
theorem Accounted.step {s s' : DB} {d : ι → Duty} {i : ι} {di : Duty} {l : Label}
    (h : Accounted x s d) (hdoes : Does x l (d i) s s' di)
    (halone : Touches x l.statement → ∀ j, j ≠ i → d j ≠ .owing) :
    Accounted x s' (Function.update d i di) := by
  generalize hi : d i = d₀ at hdoes
  cases hdoes with
  | quiet status same =>
    rw [← hi, Function.update_eq_self]
    refine ⟨h.one, same ▸ h.most, fun j hj => ?_, fun j hj => ?_, fun hall hne => ?_⟩
    · rw [same, status]
      exact h.licence j hj
    · unfold Unfinished
      rw [status]
      exact h.debt j hj
    · rw [same]
      exact h.clean hall (status ▸ hne)
  | @write _ _ st _ touches status same from_ licence =>
    have howing : ∀ j, d j ≠ .owing := by
      intro j
      by_cases hj : j = i
      · rw [hj, hi]
        exact nofun
      · exact halone touches j hj
    by_cases hlic : ∃ j, d j = .licensed
    · -- the task is refundable and stays `FAILURE`
      obtain ⟨j, hj⟩ := hlic
      obtain ⟨hnone, hfail⟩ := h.licence j hj
      have hfin : ¬ Unfinished x s := not_unfinished_of_eq hfail (by decide)
      obtain rfl : di = .idle := by
        rcases licence with rfl | ⟨-, -, hu⟩
        · rfl
        · exact absurd hu hfin
      obtain rfl : st = .failure := from_.resolve_right hfin
      rw [← hi, Function.update_eq_self]
      refine ⟨h.one, same ▸ h.most, fun _ _ => ⟨same.trans hnone, status⟩,
        fun k hk => absurd hk (howing k), fun _ hne => absurd status hne⟩
    · have hidle : ∀ j, d j = .idle := by
        intro j
        cases hd : d j with
        | idle => rfl
        | licensed => exact absurd ⟨j, hd⟩ hlic
        | owing => exact absurd hd (howing j)
      have hclean : Unfinished x s → refunds x s' = 0 := fun hu =>
        same.trans (h.clean hidle (ne_failure_of_unfinished hu))
      have honly : ∀ j, Function.update d i di j ≠ .idle → j = i := fun j hj =>
        (update_ne_idle hj).resolve_right fun hne => hne (hidle j)
      refine ⟨fun j k hj hk => (honly j hj).trans (honly k hk).symm, same ▸ h.most,
        fun j hj => ?_, fun j hj => ?_, fun _ hne => ?_⟩
      · have hji := honly j (by rw [hj]; exact nofun)
        rw [hji, Function.update_self] at hj
        rcases licence with hd | ⟨-, hst, hu⟩
        · rw [hd] at hj
          cases hj
        · exact ⟨hclean hu, by rw [status, hst]⟩
      · have hji := honly j (by rw [hj]; exact nofun)
        rw [hji, Function.update_self] at hj
        rcases licence with hd | ⟨hd, -, -⟩
        · rw [hd] at hj
          cases hj
        · rw [hd] at hj
          cases hj
      · rcases from_ with rfl | hu
        · exact absurd status hne
        · exact hclean hu
  | refund status once =>
    obtain ⟨hnone, hfail⟩ := h.licence i hi
    have hidle := h.all_idle (i := i) (by rw [hi]; exact nofun)
    refine ⟨fun j _ hj => absurd (hidle j) hj, by omega, fun j hj => ?_, fun j hj => ?_,
      fun _ hne => absurd (status.trans hfail) hne⟩
    · rw [hidle j] at hj
      cases hj
    · rw [hidle j] at hj
      cases hj
  | advance touches unfinished status once =>
    have hidle : ∀ j, d j = .idle := by
      intro j
      cases hd : d j with
      | idle => rfl
      | licensed => exact absurd (h.licence j hd).2 (ne_failure_of_unfinished unfinished)
      | owing =>
        have hne : j ≠ i := by
          intro hji
          rw [hji, hi] at hd
          cases hd
        exact absurd hd (halone touches j hne)
    have hnone := h.clean hidle (ne_failure_of_unfinished unfinished)
    have honly : ∀ j, Function.update d i .owing j ≠ .idle → j = i := fun j hj =>
      (update_ne_idle hj).resolve_right fun hne => hne (hidle j)
    refine ⟨fun j k hj hk => (honly j hj).trans (honly k hk).symm, by omega, fun j hj => ?_,
      fun j hj => ?_, fun hall _ => ?_⟩
    · have hji := honly j (by rw [hj]; exact nofun)
      rw [hji, Function.update_self] at hj
      cases hj
    · unfold Unfinished
      rw [status]
      exact unfinished
    · have hown := hall i
      rw [Function.update_self] at hown
      cases hown
  | complete status same =>
    have hidle := h.all_idle (i := i) (by rw [hi]; exact nofun)
    refine ⟨fun j _ hj => absurd (hidle j) hj, same ▸ h.most, fun j hj => ?_, fun j hj => ?_,
      fun _ hne => absurd status hne⟩
    · rw [hidle j] at hj
      cases hj
    · rw [hidle j] at hj
      cases hj

/-- A task that is finished without a refund stays so. -/
theorem Finished.step {s s' : DB} {d : ι → Duty} {i : ι} {di : Duty} {l : Label}
    (h : Finished x s d) (hdoes : Does x l (d i) s s' di) :
    Finished x s' (Function.update d i di) := by
  rw [h.idle i] at hdoes
  cases hdoes with
  | quiet status same =>
    rw [← h.idle i, Function.update_eq_self]
    refine ⟨h.idle, same.trans h.none, fun hu => h.terminal ?_, status ▸ h.stored⟩
    unfold Unfinished at hu ⊢
    rwa [status] at hu
  | @write _ _ st _ touches status same from_ licence =>
    obtain rfl : st = .failure := from_.resolve_right h.terminal
    obtain rfl : di = .idle := by
      rcases licence with rfl | ⟨-, -, hu⟩
      · rfl
      · exact absurd hu h.terminal
    rw [← h.idle i, Function.update_eq_self]
    exact ⟨h.idle, same.trans h.none, not_unfinished_of_eq status (by decide), by simp [status]⟩
  | advance touches unfinished => exact absurd unfinished h.terminal

/-- In every run in which nobody acts on a finished task, the pollers and the sweep refund a task
at most once, and a task that has been stored as successful never. -/
theorem task_refunded_at_most_once (settings : Settings) (actors : ι → Actor) (s₀ : DB)
    (h₀ : refunds x s₀ = 0) (c : System ι DB Label Empty Unit)
    (hrun : Reach (Orderly x) ⟨s₀, fun i => (actors i).program settings⟩ c) :
    refunds x c.state ≤ 1 ∧
      (storedStatus x c.state = some .success →
        ∀ c', Reach (Orderly x) c c' → refunds x c'.state = 0) := by
  have hinit : Accounted x s₀ fun _ : ι => Duty.idle :=
    ⟨fun _ _ h => absurd rfl h, by omega, nofun, nofun, fun _ _ => h₀⟩
  have hprograms : Keeping (protocol x) Rested
      ⟨s₀, fun i => (actors i).program settings⟩ fun _ : ι => Duty.idle := fun i =>
    Meets.mono (program_settles settings (actors i)) fun _ _ h => h.1
  obtain ⟨d, hkeep, hacc⟩ := hrun.meets hprograms hinit
    (fun _ _ _ _ _ _ hok => hok.careful)
    (fun _ _ _ _ _ _ hkeep hI hok _ hd => hI.step hd (not_owing_of_alone hkeep hok))
  refine ⟨hacc.most, fun hs c' hrun' => ?_⟩
  obtain ⟨d', -, hfin⟩ := hrun'.meets hkeep (hacc.finished hs)
    (fun _ _ _ _ _ _ hok => hok.careful)
    (fun _ _ _ _ _ _ _ hI _ _ hd => hI.step hd)
  exact hfin.none

end Runs

/-- Two copies of a failed Suno task, loaded before either poller stores the failure. -/
def sunoTask : Task :=
  { id := 1, taskID := "song", platform := "suno", userID := 1, channelID := 7, quota := 100,
    status := .inProgress }

def sunoFailure : Answers where
  suno _ := .items [({ taskID := "song", status := "FAILURE", failReason := "rejected" }, {})]

def tasksOf (task : Task) : DB := { tasks := ⟨[task], List.pairwise_singleton _ _⟩ }

def twoPollers (answers : Answers) (task : Task) : System Bool DB Label Empty Unit :=
  ⟨tasksOf task, fun _ => (Actor.pollSingle (fun _ => true) answers).program {}⟩

theorem suno_task_refunded_twice :
    ¬ ∀ (x : Int) (settings : Settings) (actors : Bool → Actor) (s₀ : DB), refunds x s₀ = 0 →
      ∀ c, Reach (fun _ _ _ => True) ⟨s₀, fun i => (actors i).program settings⟩ c →
        refunds x c.state ≤ 1 := by
  intro h
  have hrun : (perform (fun _ _ _ => true) (twoPollers sunoFailure sunoTask)
      [false, true, false, false, true, true]).map (fun c => refunds 1 c.state) = some 2 := by
    decide
  obtain ⟨c, hc, htwo⟩ := Option.map_eq_some_iff.1 hrun
  have hle := h 1 {} (fun _ => .pollSingle (fun _ => true) sunoFailure) (tasksOf sunoTask) rfl c
    (Reach.init.perform (fun _ _ _ _ => trivial) hc)
  omega

/-- Whether task `x` is stored with a status that is not terminal. -/
def unfinishedCheck (x : Int) (s : DB) : Bool :=
  (storedStatus x s).any fun st => !isTaskTerminalStatus st

def carefulCheck (x : Int) (l : Label) (s : DB) : Bool :=
  match l.statement with
  | .fetchTask t => t.id ≠ x || !isTaskTerminalStatus t.status
  | .recordTaskRefund t => l.caller ≠ .updateSunoTasks || t.id ≠ x ||
      t.status = .failure && unfinishedCheck x s
  | .saveTask t => l.caller ≠ .updateSunoTasks || t.id ≠ x ||
      !l.refused && unfinishedCheck x s
  | _ => true

/-- The step is careful and no process is about to make the save of a Suno poller. -/
def orderlyCheck (x : Int) (c : System Bool DB Label Empty Unit) (_ : Bool) (l : Label) : Bool :=
  carefulCheck x l c.state && [false, true].all fun j =>
    (c.proc j).next?.all fun l' => l'.caller ≠ .updateSunoTasks

theorem unfinished_of_check {x : Int} {s : DB} (h : unfinishedCheck x s = true) :
    Unfinished x s := by
  unfold unfinishedCheck at h
  cases hst : storedStatus x s with
  | none => simp [hst] at h
  | some st => exact ⟨st, hst, by simpa [hst] using h⟩

theorem careful_of_check {x : Int} {l : Label} {s : DB} (h : carefulCheck x l s = true) :
    Careful x l s := by
  obtain ⟨caller, statement, refused⟩ := l
  refine ⟨?_, ?_, ?_⟩
  · rintro t rfl hid
    simpa [carefulCheck, hid] using h
  · rintro rfl t rfl hid
    simp only [carefulCheck, hid] at h
    simp at h
    exact ⟨h.1, unfinished_of_check h.2⟩
  · rintro ⟨rfl, t, rfl, hid⟩
    simp only [carefulCheck, hid] at h
    simp at h
    exact ⟨h.1, unfinished_of_check h.2⟩

theorem orderly_of_check {x : Int} (c : System Bool DB Label Empty Unit) (i : Bool) (l : Label)
    (h : orderlyCheck x c i l = true) : Orderly x c i l := by
  simp only [orderlyCheck, Bool.and_eq_true, List.all_eq_true] at h
  refine ⟨careful_of_check h.1, fun _ j _ l' hl' hsave => ?_⟩
  have hj := h.2 j (by cases j <;> simp)
  rw [hl'] at hj
  simp [hsave.1] at hj

def videoFailure : Answers where
  video _ := .tasks fun _ => .parsed { taskResult := { status := "FAILURE", reason := "rejected" } }

/-- The sweep against a video poller that holds a copy. -/
def sweepAndPoller : Bool → Actor
  | false => .sweep 1740300000 fun _ => {}
  | true => .pollSingle (fun _ => true) videoFailure

def videoTask : Task :=
  { sunoTask with platform := "kling", submitTime := 1740200000 }

/-- Both find the task unfinished, the sweep wins its transition, and it alone refunds it. -/
theorem task_refunded_at_most_once_sample :
    ∃ c : System Bool DB Label Empty Unit, refunds 1 c.state = 1 ∧
      (refunds 1 c.state ≤ 1 ∧ (storedStatus 1 c.state = some .success →
        ∀ c', Reach (Orderly 1) c c' → refunds 1 c'.state = 0)) := by
  have hrun : (perform (orderlyCheck 1)
      ⟨tasksOf videoTask, fun i => (sweepAndPoller i).program {}⟩
      [true, true, false, false, false, true]).map (fun c => refunds 1 c.state) = some 1 := by
    decide
  obtain ⟨c, hc, hone⟩ := Option.map_eq_some_iff.1 hrun
  exact ⟨c, hone, task_refunded_at_most_once {} sweepAndPoller (tasksOf videoTask) rfl c
    (Reach.init.perform orderly_of_check hc)⟩

end CodeGo.Workflow.RefundOnce
