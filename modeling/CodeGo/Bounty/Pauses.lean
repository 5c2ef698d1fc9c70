import CodeGo.Bounty.EscrowRuns

/-!
# Pauses of a task

Open blocking requests and suspensions share the column `paused_at`. What the
deadline has gained at a time is the length of the pauses up to then, less the
part of the current pause that is still to be added.
-/

namespace CodeGo.Bounty.Pauses

open Lib Billing.Schema Status Schema Tasks Review Effects Escrow Runs EscrowRuns

section Ticking

/-- The columns of a task that is not over, where the deadline without the current pause is `D` at
the time `now`; `blocked` tells whether a blocking request is open. -/
structure Ticking (D now : Int) (blocked : Bool) (t : BountyTask) : Prop where
  status : blocked = true → blockedStatus t.status = true
  free : t.pausedAt = none → t.status ≠ .suspended ∧ blocked = false ∧ t.deadlineAt = D
  paused : ∀ p, t.pausedAt = some p → (t.status = .suspended ∨ blocked = true) ∧ p ≤ now ∧
    t.deadlineAt = D - (now - p)
  suspension : ∀ a, t.status = .suspended → t.suspendedAt = some a → a ≤ now ∧
    ∀ p, t.suspendedPreviousPausedAt = some p → t.pausedAt = some p ∧ p ≤ a

/-- The task is published, and its columns tick unless it is over. -/
def Timed (taskID : String) (D now : Int) (s : Store) : Prop :=
  ∃ t, s.tasks.get? taskID = some t ∧ t.status ≠ .draft ∧
    (isTerminalStatus t.status = false → Ticking D now (openBlocking taskID s) t)

/-- The task is suspended or has an open blocking request. -/
def isPaused (taskID : String) (s : Store) : Bool :=
  openBlocking taskID s || (s.tasks.get? taskID).any fun t => t.status = .suspended

/-- Whether a resumption of the task ends a pause that only the suspension began. -/
def Harmless (taskID : String) (resuming : Option String) (s : Store) : Prop :=
  resuming = some taskID → ∀ t, s.tasks.get? taskID = some t → t.status = .suspended →
    t.suspendedAt.isSome → t.suspendedPreviousPausedAt.isSome

variable {D now now' p : Int} {blocked : Bool} {s : Store} {t t' : BountyTask} {taskID : String}

/-- Time passes. -/
theorem Ticking.advance (h : Ticking D now blocked t) (hle : now ≤ now') :
    Ticking (D + if blocked || t.status = .suspended then now' - now else 0) now' blocked t := by
  refine ⟨h.status, fun hnone => ?_, fun p hp => ?_, fun a hst ha => ?_⟩
  · obtain ⟨hsuspended, hblocked, hdeadline⟩ := h.free hnone
    refine ⟨hsuspended, hblocked, ?_⟩
    rw [if_neg (by simp [hsuspended, hblocked])]
    omega
  · obtain ⟨hwhy, hbefore, hdeadline⟩ := h.paused p hp
    refine ⟨hwhy, by omega, ?_⟩
    rw [if_pos (by rcases hwhy with hst | hb <;> simp [*])]
    omega
  · obtain ⟨hbefore, hprevious⟩ := h.suspension a hst ha
    exact ⟨by omega, hprevious⟩

theorem Timed.advance (h : Timed taskID D now s) (hle : now ≤ now') :
    Timed taskID (D + if isPaused taskID s then now' - now else 0) now' s := by
  obtain ⟨t, ht, hdraft, hticking⟩ := h
  refine ⟨t, ht, hdraft, fun hterm => ?_⟩
  have hadvanced := (hticking hterm).advance hle
  have hpaused : isPaused taskID s = (openBlocking taskID s || t.status = .suspended) := by
    rw [isPaused, ht]
    rfl
  rwa [hpaused]

theorem Ticking.pauses (h : Ticking D now blocked t) (hpauses : pauses t' = pauses t)
    (hbefore : t.status ≠ .suspended) (hafter : t'.status ≠ .suspended)
    (hblocked : blocked = true → blockedStatus t'.status = true) : Ticking D now blocked t' := by
  simp only [Effects.pauses, Prod.mk.injEq] at hpauses
  obtain ⟨hdeadline, hpausedAt, -, -, -⟩ := hpauses
  refine ⟨hblocked, fun hnone => ?_, fun p hp => ?_, fun a hst => absurd hst hafter⟩
  · rw [hpausedAt] at hnone
    obtain ⟨-, hb, hd⟩ := h.free hnone
    exact ⟨hafter, hb, by rw [hdeadline, hd]⟩
  · rw [hpausedAt] at hp
    obtain ⟨hwhy, hle, hd⟩ := h.paused p hp
    exact ⟨.inr (hwhy.resolve_left hbefore), hle, by rw [hdeadline, hd]⟩

theorem Ticking.ask (h : Ticking D now blocked t) (hst : t.status = .assigned ∨ t.status = .inProgress) :
    Ticking D now true
      { t with pausedAt := some (t.pausedAt.getD now), status := .waitingForPublisher } := by
  have hunblocked : blocked = false := by
    by_contra hb
    have := h.status (Bool.of_not_eq_false hb)
    rcases hst with hst | hst <;> rw [hst] at this <;> cases this
  have hnone : t.pausedAt = none := by
    by_contra hne
    obtain ⟨p, hp⟩ := Option.ne_none_iff_exists'.1 hne
    obtain ⟨hwhy, -⟩ := h.paused p hp
    rcases hwhy with hsus | hb
    · rcases hst with hst | hst <;> rw [hst] at hsus <;> cases hsus
    · rw [hunblocked] at hb
      cases hb
  obtain ⟨-, -, hdeadline⟩ := h.free hnone
  refine ⟨fun _ => rfl, nofun, fun p hp => ⟨.inr rfl, ?_⟩, nofun⟩
  have hnow : now = p := by simpa [hnone] using hp
  show p ≤ now ∧ t.deadlineAt = _
  omega

theorem Ticking.unpause (h : Ticking D now true t) :
    Ticking D now false { timerResumed now t with status := .inProgress } := by
  cases hp : t.pausedAt with
  | none =>
    obtain ⟨-, hb, -⟩ := h.free hp
    cases hb
  | some p =>
    obtain ⟨-, hle, hdeadline⟩ := h.paused p hp
    unfold timerResumed
    rw [hp]
    refine ⟨nofun, fun _ => ⟨nofun, rfl, ?_⟩, nofun, nofun⟩
    dsimp only
    split <;> omega

theorem Ticking.suspend (h : Ticking D now blocked t) :
    Ticking D now blocked (suspendedAs now t) := by
  refine ⟨fun _ => rfl, nofun, fun p hp => ?_, fun a _ ha => ?_⟩
  · refine ⟨.inl rfl, ?_⟩
    show p ≤ now ∧ t.deadlineAt = _
    cases hpaused : t.pausedAt with
    | none =>
      obtain ⟨-, -, hdeadline⟩ := h.free hpaused
      have hnow : now = p := by simpa [suspendedAs, hpaused] using hp
      omega
    | some p₀ =>
      obtain ⟨-, hle, hdeadline⟩ := h.paused p₀ hpaused
      have hsame : p₀ = p := by simpa [suspendedAs, hpaused] using hp
      omega
  · have hnow : now = a := by simpa [suspendedAs] using ha
    refine ⟨by omega, fun p hp => ?_⟩
    have hpaused : t.pausedAt = some p := hp
    obtain ⟨-, hle, -⟩ := h.paused p hpaused
    refine ⟨?_, by omega⟩
    show some (t.pausedAt.getD now) = _
    rw [hpaused]
    rfl

theorem Ticking.resume (h : Ticking D now blocked t) (hst : t.status = .suspended)
    (hharmless : t.suspendedAt.isSome → t.suspendedPreviousPausedAt.isSome) :
    Ticking D now blocked (resumed now t t) := by
  unfold resumed
  cases ha : t.suspendedAt with
  | none => exact ⟨h.status, h.free, h.paused, nofun⟩
  | some a =>
    rw [ha] at hharmless
    obtain ⟨p, hp⟩ := Option.isSome_iff_exists.1 (hharmless rfl)
    obtain ⟨hle, hprevious⟩ := h.suspension a hst ha
    obtain ⟨hpaused, hpa⟩ := hprevious p hp
    obtain ⟨-, hpn, hdeadline⟩ := h.paused p hpaused
    refine ⟨h.status, fun hnone => ?_, fun p' hp' => ⟨.inl hst, ?_⟩, nofun⟩
    · simp [hp] at hnone
    · have hsame : p + (now - a) = p' := by simpa [hp] using hp'
      refine ⟨by omega, ?_⟩
      dsimp only
      split <;> omega

end Ticking

section Steps

variable {D now : Int} {s s' : Store} {t t' : BountyTask} {taskID : String} {u : Uuids}
  {k : Option String}

/-- Another task changes. -/
theorem Timed.other (h : Timed taskID D now s) {id : String} (hne : taskID ≠ id)
    (hrows : ∀ x, s'.tasks.get? x = if x = id then some t' else s.tasks.get? x)
    (hblocking : openBlocking taskID s' = openBlocking taskID s) : Timed taskID D now s' := by
  obtain ⟨t, ht, hdraft, hticking⟩ := h
  refine ⟨t, ?_, hdraft, by rwa [hblocking]⟩
  rw [hrows, if_neg hne]
  exact ht

/-- The row of the task, or of another one, is rewritten. -/
theorem Timed.rewrite (h : Timed taskID D now s) (hrw : Rewritten s s' t t')
    (hblocking : SameBlocking s s' (some t.taskID)) (hdraft' : t'.status ≠ .draft)
    (hticking' : taskID = t.taskID → (isTerminalStatus t.status = false →
      Ticking D now (openBlocking taskID s) t) → isTerminalStatus t'.status = false →
      Ticking D now (openBlocking taskID s') t') : Timed taskID D now s' := by
  by_cases heq : taskID = t.taskID
  · obtain ⟨t₀, ht₀, hdraft, hticking⟩ := h
    rw [heq, hrw.row] at ht₀
    cases ht₀
    refine ⟨t', ?_, hdraft', hticking' heq hticking⟩
    rw [hrw.rows, if_pos heq]
  · exact h.other heq hrw.rows (hblocking taskID fun hsome => heq (Option.some.inj hsome))

theorem SameBlocking.weaken (h : SameBlocking s s' none) (e : Option String) :
    SameBlocking s s' e := fun id _ => h id nofun

theorem nonterminal_of_active (h : active t.status = true) : isTerminalStatus t.status = false := by
  revert h
  cases t.status <;> decide

theorem Timed.effect (h : Timed taskID D now s) (hharmless : Harmless taskID k s)
    (he : Effect now u k s s') : Timed taskID D now s' := by
  cases he with
  | quiet tasks base blocking =>
    obtain ⟨t, ht, hdraft, hticking⟩ := h
    exact ⟨t, by rwa [tasks], hdraft, by rwa [blocking taskID nofun]⟩
  | drafted t new rows status unheld unpaused base blocking =>
    refine h.other (fun heq => ?_) rows (blocking taskID nofun)
    obtain ⟨t₀, ht₀, -⟩ := h
    rw [heq, new] at ht₀
    cases ht₀
  | edited t input hrw status base blocking =>
    refine h.other (fun heq => ?_) hrw.rows (blocking taskID nofun)
    obtain ⟨t₀, ht₀, hdraft, -⟩ := h
    rw [heq, hrw.row] at ht₀
    cases ht₀
    exact hdraft status
  | published v n t r drawn before rows status positive held blocking =>
    refine h.other (fun heq => ?_) rows (blocking taskID nofun)
    obtain ⟨t₀, ht₀, hdraft, -⟩ := h
    rcases before with hrow | ⟨hnew, -⟩
    · rw [heq, hrow] at ht₀
      cases ht₀
      exact hdraft status
    · rw [heq, hnew] at ht₀
      cases ht₀
  | moved t t' hrw escrow pauses active unsuspended blocked base blocking =>
    refine h.rewrite hrw (SameBlocking.weaken blocking _) ?_ fun heq hticking hterm => ?_
    · exact ne_draft_of_active active.2
    · have hbefore := hticking (nonterminal_of_active active.1)
      rw [blocking taskID nofun]
      refine hbefore.pauses pauses unsuspended.1 unsuspended.2 fun hb => ?_
      exact blocked (heq ▸ hb) (hbefore.status hb)
  | asked t hrw status base blocking opened =>
    refine h.rewrite hrw blocking nofun fun heq hticking hterm => ?_
    have hbefore := hticking (by rcases status with hst | hst <;> rw [hst] <;> rfl)
    have hopened : openBlocking taskID s' = true := by rw [heq, opened]
    rw [hopened]
    exact hbefore.ask status
  | unpaused t hrw active unsuspended base blocking was closed =>
    refine h.rewrite hrw blocking nofun fun heq hticking hterm => ?_
    have hbefore := hticking (nonterminal_of_active active)
    have hwas : openBlocking taskID s = true := by rw [heq, was]
    have hclosed : openBlocking taskID s' = false := by rw [heq, closed]
    rw [hwas] at hbefore
    rw [hclosed]
    exact hbefore.unpause
  | suspended t hrw active unsuspended base blocking =>
    refine h.rewrite hrw (SameBlocking.weaken blocking _) nofun fun heq hticking hterm => ?_
    rw [blocking taskID nofun]
    exact (hticking (nonterminal_of_active active)).suspend
  | resumed t hrw status asked base blocking =>
    have hstatus := (resumed_escrow now t).2
    refine h.rewrite hrw (SameBlocking.weaken blocking _) ?_ fun heq hticking hterm => ?_
    · rw [hstatus, status]
      exact nofun
    · rw [blocking taskID nofun]
      refine (hticking (by rw [status]; rfl)).resume status ?_
      exact hharmless (by rw [asked, heq]) t (by rw [heq]; exact hrw.row) status
  | paid t t' executor amount hrw escrow assignee positive bounded status paid blocking =>
    have hover : isTerminalStatus t'.status = true := by
      rcases status with ⟨-, hst, -⟩ | ⟨-, hst, -⟩ <;> rw [hst] <;> rfl
    refine h.rewrite hrw (SameBlocking.weaken blocking _) ?_ fun _ _ hterm => ?_
    · intro hdraft
      rw [hdraft] at hover
      cases hover
    · rw [hover] at hterm
      cases hterm
  | released t t' hrw escrow active unsuspended status released blocking =>
    have hover : isTerminalStatus t'.status = true := by
      rcases status with hst | hst | hst <;> rw [hst] <;> rfl
    refine h.rewrite hrw blocking ?_ fun _ _ hterm => ?_
    · intro hdraft
      rw [hdraft] at hover
      cases hover
    · rw [hover] at hterm
      cases hterm

end Steps

section Runs

/-- How long the task was paused since `now`: between two calls it is or it is not. -/
def pausedFor (taskID : String) : Int → Store → List Call → Int
  | _, _, [] => 0
  | now, s, c :: calls =>
    (if isPaused taskID s then c.now - now else 0) + pausedFor taskID c.now (c.exec s).2 calls

/-- The time of the last call. -/
def lastTime (now : Int) (calls : List Call) : Int := calls.foldl (fun _ c => c.now) now

/-- The calls come at times that do not decrease. -/
def InOrder (now : Int) (calls : List Call) : Prop := (now :: calls.map Call.now).Pairwise (· ≤ ·)

instance (now : Int) (calls : List Call) : Decidable (InOrder now calls) :=
  inferInstanceAs (Decidable (List.Pairwise _ _))

variable {D now : Int} {s : Store} {taskID : String}

theorem Timed.exec (h : Timed taskID D now s) (c : Call) (hle : now ≤ c.now)
    (hharmless : Harmless taskID c.resuming s) :
    Timed taskID (D + if isPaused taskID s then c.now - now else 0) c.now (c.exec s).2 := by
  have hadvanced := h.advance hle
  rcases c.exec_cases s with ⟨-, heffect⟩ | ⟨-, hsame⟩
  · exact hadvanced.effect hharmless heffect
  · rwa [hsame]

theorem Timed.run (h : Timed taskID D now s) (calls : List Call) (horder : InOrder now calls)
    (hharmless : ∀ pre c post, calls = pre ++ c :: post →
      Harmless taskID c.resuming (Runs.run pre s)) :
    Timed taskID (D + pausedFor taskID now s calls) (lastTime now calls) (Runs.run calls s) := by
  induction calls generalizing D now s with
  | nil =>
    rw [pausedFor, add_zero]
    exact h
  | cons c calls ih =>
    rw [InOrder, List.map_cons, List.pairwise_cons] at horder
    obtain ⟨hfirst, hrest⟩ := horder
    have hexec := h.exec c (hfirst c.now (List.mem_cons_self ..)) (hharmless [] c calls rfl)
    have hrun := ih hexec hrest fun pre c' post heq => hharmless (c :: pre) c' post (by rw [heq]; rfl)
    rw [pausedFor, ← add_assoc]
    exact hrun

end Runs

/-- The task is paused exactly while it is suspended or a blocking request is open, and where it is
not paused its deadline moved by the length of the pauses. -/
def PausesCount (taskID : String) (original total : Int) (s : Store) : Prop :=
  ∃ t, s.tasks.get? taskID = some t ∧ (isTerminalStatus t.status = false →
    (t.pausedAt.isSome ↔ t.status = .suspended ∨ openBlocking taskID s = true) ∧
    (t.pausedAt = none → t.deadlineAt = original + total))

/-- A task that is open, not paused and without open blocking requests. -/
structure Unpaused (taskID : String) (t : BountyTask) (s : Store) : Prop where
  row : s.tasks.get? taskID = some t
  active : active t.status = true
  unsuspended : t.status ≠ .suspended
  unpaused : t.pausedAt = none
  unblocked : openBlocking taskID s = false

/-- From there on, pauses count in every run in which a task that was not paused when it was
suspended is not resumed. -/
theorem pauses_count {taskID : String} {t : BountyTask} {s : Store} (h : Unpaused taskID t s)
    (now : Int) (calls : List Call) (horder : InOrder now calls)
    (hharmless : ∀ pre c post, calls = pre ++ c :: post →
      Harmless taskID c.resuming (run pre s)) :
    PausesCount taskID t.deadlineAt (pausedFor taskID now s calls) (run calls s) := by
  have hstart : Timed taskID t.deadlineAt now s := by
    refine ⟨t, h.row, ne_draft_of_active h.active, fun _ => ⟨?_, ?_, ?_, ?_⟩⟩
    · rw [h.unblocked]
      exact nofun
    · exact fun _ => ⟨h.unsuspended, h.unblocked, rfl⟩
    · rw [h.unpaused]
      exact nofun
    · exact fun a hst => absurd hst h.unsuspended
  obtain ⟨t', ht', -, hticking⟩ := hstart.run calls horder hharmless
  refine ⟨t', ht', fun hterm => ⟨⟨fun hsome => ?_, fun hwhy => ?_⟩, fun hnone => ?_⟩⟩
  · obtain ⟨p, hp⟩ := Option.isSome_iff_exists.1 hsome
    exact ((hticking hterm).paused p hp).1
  · by_contra hnone
    obtain ⟨hst, hb, -⟩ := (hticking hterm).free (by simpa using hnone)
    rcases hwhy with hsuspended | hblocked
    · exact hst hsuspended
    · rw [hb] at hblocked
      cases hblocked
  · exact ((hticking hterm).free hnone).2.2

/-- A task that its executor works on. -/
def inProgress : Store := run ((untilReview "a" "b" 2).take 4) sampleStore

/-- The executor asks at 10 and takes the answer at 30. -/
def askedAndAnswered : List Call := [
  ⟨10, sampleUuids "m", .createMaterialRequest "a0" 2 true⟩,
  ⟨20, sampleUuids "n", .replyMaterialRequest "a0" "m" 1⟩,
  ⟨30, sampleUuids "n", .resolveMaterialRequest "a0" "m" 2⟩]

/-- The task is suspended at 5 and resumed at 8. -/
def suspendedAndResumed : List Call := [
  ⟨5, sampleUuids "n", .suspendTask "a0"⟩, ⟨8, sampleUuids "n", .resumeTask "a0"⟩]

theorem inProgress_unpaused : ∃ t, t.deadlineAt = 1000 * hour ∧ Unpaused "a0" t inProgress := by
  have hsome : (inProgress.tasks.get? "a0").map (fun t => (t.status, t.deadlineAt, t.pausedAt)) =
      some (.inProgress, 1000 * hour, none) := by decide +kernel
  obtain ⟨t, ht, hcolumns⟩ := Option.map_eq_some_iff.1 hsome
  simp only [Prod.mk.injEq] at hcolumns
  obtain ⟨hst, hdeadline, hpaused⟩ := hcolumns
  exact ⟨t, hdeadline, ht, by rw [hst]; rfl, by rw [hst]; exact nofun, hpaused, by decide +kernel⟩

theorem harmless_of_none {taskID : String} {k : Option String} {s : Store} (h : k = none) :
    Harmless taskID k s := by
  intro hk
  rw [h] at hk
  cases hk

/-- The request of the sample moves the deadline by 20. -/
theorem pauses_count_sample :
    PausesCount "a0" (1000 * hour) 20 (run askedAndAnswered inProgress) := by
  obtain ⟨t, hdeadline, ht⟩ := inProgress_unpaused
  have hcount := pauses_count ht 0 askedAndAnswered (by decide) fun pre c post heq => by
    have hc : c ∈ askedAndAnswered := by simp [heq]
    simp only [askedAndAnswered, List.mem_cons, List.not_mem_nil, or_false] at hc
    rcases hc with rfl | rfl | rfl <;> exact harmless_of_none rfl
  have htotal : pausedFor "a0" 0 inProgress askedAndAnswered = 20 := by decide +kernel
  rwa [hdeadline, htotal] at hcount

/-- A task that is resumed is not paused, though it is still suspended. -/
theorem resumed_pauses_do_not_count : ¬ ∀ (taskID : String) (t : BountyTask) (s : Store),
    Unpaused taskID t s → ∀ (now : Int) (calls : List Call), InOrder now calls →
      PausesCount taskID t.deadlineAt (pausedFor taskID now s calls) (run calls s) := by
  intro hclaim
  obtain ⟨t, -, ht⟩ := inProgress_unpaused
  obtain ⟨t', ht', hcounts⟩ := hclaim "a0" t inProgress ht 0 suspendedAndResumed (by decide)
  have hsome : ((run suspendedAndResumed inProgress).tasks.get? "a0").map
      (fun t => (t.status, t.pausedAt)) = some (.suspended, none) := by decide +kernel
  rw [ht', Option.map_some, Option.some.injEq, Prod.mk.injEq] at hsome
  obtain ⟨hst, hpaused⟩ := hsome
  have hset := (hcounts (by rw [hst]; rfl)).1.2 (.inl hst)
  rw [hpaused] at hset
  cases hset

end CodeGo.Bounty.Pauses
