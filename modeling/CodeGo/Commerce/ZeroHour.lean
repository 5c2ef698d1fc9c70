import CodeGo.Commerce.BlindBox
import CodeGo.Lib.Wrap
import Mathlib.Data.PNat.Defs

/-!
# The zero-hour progress of one user

`blind_box_zero_hour.go` of `internal/commerce/app`, with the openings of
`blind_box_open_runtime.go` that change the progress. The goroutines `G` take atomic steps in any
order: a statement reads the last committed row, and a write waits until no other transaction holds
the row. `FOR UPDATE`, set by `tx.Set`, adds no lock.
-/

namespace CodeGo.Commerce.ZeroHour

open Lib.Wrap
open BlindBox (BlindBoxZeroHourState zeroHourProgressCap)

variable {G : Type}

section Model

/-- An opening that has its state. -/
structure Opening where
  /-- The row as it was read, or the new one. -/
  loaded : BlindBoxZeroHourState
  state : BlindBoxZeroHourState
  /-- The transaction wrote `state` and holds the row. -/
  saved : Bool := false
  reset : Bool := false
  /-- The points added, since the reset if there was one. -/
  added : Int := 0

/-- Where a goroutine stands: in front of the statement that is named. -/
inductive Proc where
  | idle
  /-- `RecordBlindBoxZeroHourUsage`: the first `incrementZeroHourUsageProgress` -/
  | increment (quota : Int)
  | create (quota : Int)
  | retry (quota : Int)
  /-- `getOrCreateZeroHourStateTx`: `First` -/
  | first
  | insert
  | opening (o : Opening)

structure System (G : Type) where
  /-- The row as it is committed. -/
  row : Option BlindBoxZeroHourState := none
  lock : Option G := none
  proc : G → Proc := fun _ => .idle
  /-- The quota of the calls that have returned, since the last reset. -/
  recorded : Int := 0
  /-- The points that openings added since the last reset. -/
  added : Int := 0

/-- A user without a row has no progress. -/
def System.current (s : System G) : BlindBoxZeroHourState := s.row.getD {}

inductive Act where
  | record (quota : Int)
  | openBox
  /-- The next statement of a call. -/
  | step
  | add (points : Int)
  | reset
  | commit
  | rollback

variable [DecidableEq G]

def System.goto (s : System G) (g : G) (p : Proc) : System G :=
  { s with proc := Function.update s.proc g p }

def System.free (s : System G) (g : G) : Bool := s.lock = none || s.lock = some g

/-- Every sum of the statement is a 64-bit integer. -/
def fits (Q : ℕ+) (state : BlindBoxZeroHourState) (quotaDelta : Int) : Bool :=
  state.usageQuota + quotaDelta < 2 ^ 63 &&
    state.points + (state.usageQuota + quotaDelta).tdiv Q < 2 ^ 63

/-- `incrementZeroHourUsageProgress` on the row; a sum that is out of range is an error of the
database. -/
def incrementZeroHourUsageProgress (Q : ℕ+) (quotaDelta : Int) (state : BlindBoxZeroHourState) :
    Option BlindBoxZeroHourState :=
  if fits Q state quotaDelta then
    let points := state.points + (state.usageQuota + quotaDelta).tdiv Q - state.usageQuota.tdiv Q
    some { state with
      usageQuota := state.usageQuota + quotaDelta
      points := if zeroHourProgressCap < points then zeroHourProgressCap else points }
  else none

def newState (Q : ℕ+) (quotaDelta : Int) : BlindBoxZeroHourState :=
  { usageQuota := quotaDelta, points := min (quotaDelta.tdiv Q) zeroHourProgressCap }

/-- The call returns, and the row is `row`. -/
def System.return (s : System G) (g : G) (quota : Int) (row : Option BlindBoxZeroHourState) :
    System G :=
  { s.goto g .idle with row := row, recorded := s.recorded + quota }

def Opening.add (o : Opening) (points : Int) : Opening :=
  { o with
    state := { o.state with points := min (wrap64 (o.state.points + points)) zeroHourProgressCap }
    saved := true
    added := o.added + points }

def Opening.clear (o : Opening) : Opening :=
  { o with
    state := { points := 0, usageQuota := 0, hitCount := o.state.hitCount + 1 }
    saved := true
    reset := true
    added := 0 }

/-- The next statement of the call that the goroutine is in. -/
def next (Q : ℕ+) (s : System G) (g : G) : Option (System G) :=
  match s.proc g with
  | .increment quota =>
    match s.row with
    | none => some (s.goto g (.create quota))
    | some row =>
      if s.free g then
        some (s.return g quota (some ((incrementZeroHourUsageProgress Q quota row).getD row)))
      else none
  | .create quota =>
    if s.free g then
      match s.row with
      | some _ => some (s.goto g (.retry quota))
      | none => some (s.return g quota (some (newState Q quota)))
    else none
  | .retry quota =>
    match s.row with
    | none => some (s.return g quota none)
    | some row =>
      if s.free g then
        some (s.return g quota (some ((incrementZeroHourUsageProgress Q quota row).getD row)))
      else none
  | .first =>
    match s.row with
    | some row => some (s.goto g (.opening { loaded := row, state := row }))
    | none => some (s.goto g .insert)
  | .insert =>
    if s.free g then
      match s.row with
      -- a duplicate key: the transaction fails
      | some _ => some (s.goto g .idle)
      | none =>
        some { s.goto g (.opening { loaded := {}, state := {}, saved := true }) with lock := some g }
    else none
  | .idle | .opening _ => none

def move (Q : ℕ+) (s : System G) (g : G) (act : Act) : Option (System G) :=
  match act, s.proc g with
  | .record quota, .idle => some (if 0 < quota then s.goto g (.increment quota) else s)
  | .openBox, .idle => some (s.goto g .first)
  | .step, _ => next Q s g
  | .add points, .opening o =>
    if points ≤ 0 then some s
    else if s.free g then some { s.goto g (.opening (o.add points)) with lock := some g }
    else none
  | .reset, .opening o =>
    if s.free g then some { s.goto g (.opening o.clear) with lock := some g } else none
  | .commit, .opening o =>
    if o.saved then
      some { s.goto g .idle with
        row := some o.state
        lock := none
        recorded := if o.reset then 0 else s.recorded
        added := if o.reset then o.added else s.added + o.added }
    else some (s.goto g .idle)
  | .rollback, .opening o =>
    some { s.goto g .idle with lock := if o.saved then none else s.lock }
  | _, _ => none

/-- The run that a schedule leads to; a move that is not enabled is no move. -/
def run (Q : ℕ+) : System G → List (G × Act) → System G
  | s, [] => s
  | s, m :: schedule => run Q ((move Q s m.1 m.2).getD s) schedule

end Model

section Law

/-- What the progress is to be, of the quota recorded and the points added since the last reset. -/
def Exact (Q : ℕ+) (s : System G) : Prop :=
  s.current.usageQuota = s.recorded ∧
    (0 ≤ s.current.points ∧ s.current.points ≤ zeroHourProgressCap) ∧
    s.current.points = min zeroHourProgressCap (s.current.usageQuota / Q + s.added)

/-- The row that the opening saves is the committed one with its points: nothing was recorded, and
no points below the cap were added, after it read the row. -/
def Opening.upToDate (o : Opening) (current : BlindBoxZeroHourState) : Bool :=
  o.loaded.usageQuota = current.usageQuota &&
    min (o.loaded.points + o.added) zeroHourProgressCap =
      min (current.points + o.added) zeroHourProgressCap

/-- No sum leaves the 64 bits, and no opening saves a row that is out of date, unless it has reset
the progress. -/
def kept (Q : ℕ+) (s : System G) (g : G) (act : Act) : Bool :=
  match act, s.proc g with
  | .step, .increment quota | .step, .retry quota => s.row.all (fits Q · quota)
  | .add points, .opening o => o.state.points + points < 2 ^ 63
  | .commit, .opening o => !o.saved || o.reset || o.upToDate s.current
  | _, _ => true

variable [DecidableEq G]

/-- Every step of the run meets the condition. -/
def keptAlong (Q : ℕ+) : System G → List (G × Act) → Bool
  | _, [] => true
  | s, m :: schedule => kept Q s m.1 m.2 && keptAlong Q ((move Q s m.1 m.2).getD s) schedule

end Law

section Row

variable {Q : ℕ+}

/-- A row that is exact for what was recorded and added. -/
structure Tracks (Q : ℕ+) (state : BlindBoxZeroHourState) (recorded added : Int) : Prop where
  usage : state.usageQuota = recorded
  recorded_nonneg : 0 ≤ recorded
  added_nonneg : 0 ≤ added
  points : state.points = min zeroHourProgressCap (recorded / Q + added)

theorem cap_pos : 0 < zeroHourProgressCap := by decide

theorem quotient_nonneg {u : Int} (h : 0 ≤ u) : 0 ≤ u / (Q : Int) :=
  Int.ediv_nonneg h (Int.natCast_nonneg _)

theorem quotient_mono {u v : Int} (h : u ≤ v) : u / (Q : Int) ≤ v / (Q : Int) :=
  Int.ediv_le_ediv (by exact_mod_cast Q.pos) h

theorem Tracks.bounds {state : BlindBoxZeroHourState} {recorded added : Int}
    (h : Tracks Q state recorded added) :
    0 ≤ state.points ∧ state.points ≤ zeroHourProgressCap := by
  have hcap := cap_pos
  have hq := quotient_nonneg (Q := Q) h.recorded_nonneg
  have hadded := h.added_nonneg
  rw [h.points]
  omega

theorem tracks_empty : Tracks Q {} 0 0 := by
  refine ⟨rfl, le_rfl, le_rfl, ?_⟩
  have hcap := cap_pos
  simp only [Int.zero_ediv]
  omega

theorem tracks_newState {quota : Int} (hquota : 0 < quota) : Tracks Q (newState Q quota) quota 0 := by
  refine ⟨rfl, hquota.le, le_rfl, ?_⟩
  simp only [newState, Int.tdiv_eq_ediv_of_nonneg hquota.le]
  omega

/-- A user without a row has recorded nothing. -/
theorem Tracks.of_empty {recorded added : Int} (h : Tracks Q {} recorded added) :
    recorded = 0 ∧ added = 0 := by
  have hrec : 0 = recorded := h.usage
  have hadded := h.added_nonneg
  have hpoints : 0 = min zeroHourProgressCap (recorded / Q + added) := h.points
  have hcap := cap_pos
  subst hrec
  rw [Int.zero_ediv] at hpoints
  omega

/-- The differences of the quotients telescope, also over rows that are at the cap. -/
theorem Tracks.increment {state : BlindBoxZeroHourState} {recorded added quota : Int}
    (h : Tracks Q state recorded added) (hquota : 0 < quota) (hfits : fits Q state quota) :
    ∃ state', incrementZeroHourUsageProgress Q quota state = some state' ∧
      Tracks Q state' (recorded + quota) added := by
  have hrec := h.recorded_nonneg
  have hmono := quotient_mono (Q := Q) (show recorded ≤ recorded + quota by omega)
  refine ⟨_, if_pos hfits, ?_, by omega, h.added_nonneg, ?_⟩
  · show state.usageQuota + quota = recorded + quota
    rw [h.usage]
  · show (if zeroHourProgressCap < _ then zeroHourProgressCap else _) =
      min zeroHourProgressCap ((recorded + quota) / Q + added)
    rw [h.usage, h.points, Int.tdiv_eq_ediv_of_nonneg hrec,
      Int.tdiv_eq_ediv_of_nonneg (show 0 ≤ recorded + quota by omega)]
    split <;> omega

end Row

section Openings

variable {Q : ℕ+}

/-- What an opening holds: the row that it read with its points, or after a reset its points. -/
structure Opening.Sound (o : Opening) : Prop where
  added_nonneg : 0 ≤ o.added
  loaded : 0 ≤ o.loaded.points ∧ o.loaded.points ≤ zeroHourProgressCap
  state : o.state.usageQuota = (if o.reset then 0 else o.loaded.usageQuota) ∧
    o.state.points =
      min ((if o.reset then 0 else o.loaded.points) + o.added) zeroHourProgressCap

theorem Opening.upToDate_iff {o : Opening} {current : BlindBoxZeroHourState} :
    o.upToDate current ↔
      o.loaded.usageQuota = current.usageQuota ∧
        min (o.loaded.points + o.added) zeroHourProgressCap =
          min (current.points + o.added) zeroHourProgressCap := by
  simp only [upToDate, Bool.and_eq_true, decide_eq_true_eq]

theorem Opening.sound_loaded {row : BlindBoxZeroHourState} {saved : Bool}
    (h : 0 ≤ row.points ∧ row.points ≤ zeroHourProgressCap) :
    Opening.Sound { loaded := row, state := row, saved := saved } := by
  refine ⟨le_rfl, h, rfl, ?_⟩
  show row.points = min (row.points + 0) zeroHourProgressCap
  omega

theorem Opening.Sound.add {o : Opening} {points : Int} (h : o.Sound) (hpoints : 0 < points)
    (hfits : o.state.points + points < 2 ^ 63) : (o.add points).Sound := by
  have hadded := h.added_nonneg
  obtain ⟨hloaded, -⟩ := h.loaded
  obtain ⟨husage, hstate⟩ := h.state
  have hcap := cap_pos
  have hwrap : wrap64 (o.state.points + points) = o.state.points + points :=
    wrap64_of_inRange ⟨by omega, hfits⟩
  refine ⟨show 0 ≤ o.added + points by omega, h.loaded, husage, ?_⟩
  show min (wrap64 (o.state.points + points)) zeroHourProgressCap =
    min ((if o.reset then 0 else o.loaded.points) + (o.added + points)) zeroHourProgressCap
  rw [hwrap]
  omega

theorem Opening.Sound.clear {o : Opening} (h : o.Sound) : o.clear.Sound :=
  ⟨le_rfl, h.loaded, rfl, rfl⟩

/-- What the opening commits is exact when the row that it read is up to date. -/
theorem Opening.Sound.tracks {o : Opening} {current : BlindBoxZeroHourState} {recorded added : Int}
    (h : o.Sound) (hcurrent : Tracks Q current recorded added)
    (hkept : o.reset ∨ o.upToDate current) :
    Tracks Q o.state (if o.reset then 0 else recorded)
      (if o.reset then o.added else added + o.added) := by
  obtain ⟨husage, hpoints⟩ := h.state
  have hadded := h.added_nonneg
  cases hreset : o.reset with
  | true =>
    simp only [hreset, if_true] at husage hpoints ⊢
    refine ⟨husage, le_rfl, hadded, ?_⟩
    rw [hpoints, Int.zero_ediv]
    omega
  | false =>
    simp only [hreset, Bool.false_eq_true, if_false, false_or] at husage hpoints hkept ⊢
    obtain ⟨hsame, hsum⟩ := Opening.upToDate_iff.mp hkept
    have hbefore := hcurrent.added_nonneg
    refine ⟨?_, hcurrent.recorded_nonneg, by omega, ?_⟩
    · rw [husage, hsame, hcurrent.usage]
    · rw [hpoints, hsum, hcurrent.points]
      omega

end Openings

section Runs

variable {Q : ℕ+}

/-- What holds of a goroutine by where it stands; a row that is there stays there. -/
def Proc.Sound (row : Option BlindBoxZeroHourState) : Proc → Prop
  | .increment quota | .create quota => 0 < quota
  | .retry quota => 0 < quota ∧ row.isSome
  | .opening o => o.Sound
  | _ => True

structure Inv (Q : ℕ+) (s : System G) : Prop where
  row : Tracks Q s.current s.recorded s.added
  proc : ∀ g, (s.proc g).Sound s.row

theorem inv_init : Inv Q ({} : System G) := ⟨tracks_empty, fun _ => trivial⟩

theorem Inv.exact {s : System G} (h : Inv Q s) : Exact Q s := by
  refine ⟨h.row.usage, h.row.bounds, ?_⟩
  rw [h.row.usage]
  exact h.row.points

variable [DecidableEq G]

theorem sound_update {row row' : Option BlindBoxZeroHourState} {proc : G → Proc} {g : G} {p : Proc}
    (h : ∀ g', (proc g').Sound row) (hrow : row.isSome → row'.isSome) (hp : p.Sound row') (g' : G) :
    (Function.update proc g p g').Sound row' := by
  by_cases hg : g' = g
  · subst hg
    rwa [Function.update_self]
  · rw [Function.update_of_ne hg]
    have hother := h g'
    cases hproc : proc g' with
    | retry quota =>
      rw [hproc] at hother
      exact ⟨hother.1, hrow hother.2⟩
    | _ =>
      rw [hproc] at hother
      exact hother

theorem Inv.goto {s : System G} {g : G} (h : Inv Q s) {p : Proc} (hp : p.Sound s.row) :
    Inv Q (s.goto g p) :=
  ⟨h.row, sound_update h.proc id hp⟩

theorem Inv.opening {s : System G} {g : G} (h : Inv Q s) {o : Opening} (ho : o.Sound)
    (lock : Option G) : Inv Q { s.goto g (.opening o) with lock := lock } :=
  ⟨h.row, sound_update h.proc id ho⟩

theorem Inv.return {s : System G} {g : G} {quota : Int} {row : Option BlindBoxZeroHourState}
    (h : Inv Q s) (hsome : s.row.isSome → row.isSome)
    (hrow : Tracks Q (row.getD {}) (s.recorded + quota) s.added) :
    Inv Q (s.return g quota row) :=
  ⟨hrow, sound_update h.proc hsome trivial⟩

/-- The statement of `incrementZeroHourUsageProgress`, from either place of its call. -/
theorem Inv.increment {s : System G} {g : G} {quota : Int} {row : BlindBoxZeroHourState}
    (h : Inv Q s) (hrow : s.row = some row) (hquota : 0 < quota)
    (hkept : s.row.all (fits Q · quota)) :
    Inv Q (s.return g quota (some ((incrementZeroHourUsageProgress Q quota row).getD row))) := by
  have htracks : Tracks Q row s.recorded s.added := by simpa [System.current, hrow] using h.row
  rw [hrow] at hkept
  obtain ⟨row', hrun, hrow'⟩ := htracks.increment hquota hkept
  apply h.return fun _ => rfl
  rw [hrun]
  exact hrow'

theorem Inv.create {s : System G} {g : G} {quota : Int} (h : Inv Q s) (hrow : s.row = none)
    (hquota : 0 < quota) : Inv Q (s.return g quota (some (newState Q quota))) := by
  have htracks : Tracks Q {} s.recorded s.added := by simpa [System.current, hrow] using h.row
  obtain ⟨hrecorded, hadded⟩ := htracks.of_empty
  apply h.return fun _ => rfl
  rw [hrecorded, hadded, zero_add]
  exact tracks_newState hquota

theorem Inv.next {s s' : System G} {g : G} (h : Inv Q s) (hkept : kept Q s g .step)
    (hnext : next Q s g = some s') : Inv Q s' := by
  have hproc := h.proc g
  unfold ZeroHour.next at hnext
  simp only [kept] at hkept
  split at hnext <;> rename_i hpc <;> rw [hpc] at hproc
  case h_1 quota =>
    rw [hpc] at hkept
    split at hnext
    case h_1 =>
      cases hnext
      exact h.goto hproc
    case h_2 row hrow =>
      split at hnext
      · cases hnext
        exact h.increment hrow hproc hkept
      · cases hnext
  case h_2 quota =>
    split at hnext
    · split at hnext
      · rename_i hrow
        cases hnext
        exact h.goto ⟨hproc, by rw [hrow]; rfl⟩
      · rename_i hrow
        cases hnext
        exact h.create hrow hproc
    · cases hnext
  case h_3 quota =>
    rw [hpc] at hkept
    split at hnext
    case h_1 hrow =>
      rw [hrow] at hproc
      cases hproc.2
    case h_2 row hrow =>
      split at hnext
      · cases hnext
        exact h.increment hrow hproc.1 hkept
      · cases hnext
  case h_4 =>
    split at hnext
    · rename_i row hrow
      cases hnext
      have htracks : Tracks Q row s.recorded s.added := by
        simpa [System.current, hrow] using h.row
      apply h.goto
      exact Opening.sound_loaded htracks.bounds
    · cases hnext
      exact h.goto trivial
  case h_5 =>
    split at hnext
    · split at hnext
      · cases hnext
        exact h.goto trivial
      · cases hnext
        apply h.opening
        exact Opening.sound_loaded (tracks_empty (Q := Q)).bounds
    · cases hnext
  case h_6 => cases hnext
  case h_7 => cases hnext

theorem Inv.move {s s' : System G} {g : G} {act : Act} (h : Inv Q s) (hkept : kept Q s g act)
    (hmove : move Q s g act = some s') : Inv Q s' := by
  have hproc := h.proc g
  unfold ZeroHour.move at hmove
  unfold kept at hkept
  split at hmove <;> rename_i hpc <;> try rw [hpc] at hproc hkept
  case h_1 quota =>
    cases hmove
    split
    · rename_i hquota
      exact h.goto hquota
    · exact h
  case h_2 =>
    cases hmove
    exact h.goto trivial
  case h_3 => exact h.next hkept hmove
  case h_4 points o =>
    split at hmove
    · cases hmove
      exact h
    · rename_i hpoints
      split at hmove
      · cases hmove
        apply h.opening
        exact hproc.add (by omega) (by simpa using hkept)
      · cases hmove
  case h_5 o =>
    split at hmove
    · cases hmove
      exact h.opening hproc.clear _
    · cases hmove
  case h_6 o =>
    split at hmove
    · rename_i hsaved
      cases hmove
      refine ⟨hproc.tracks h.row ?_, sound_update h.proc (fun _ => rfl) trivial⟩
      simpa [hsaved] using hkept
    · cases hmove
      exact h.goto trivial
  case h_7 o =>
    cases hmove
    exact ⟨h.row, sound_update h.proc id trivial⟩
  case h_8 => cases hmove

/-- The condition on a commit leaves nothing else out: an opening that has not reset the progress and
saves a row that is out of date breaks the law. -/
theorem Inv.exact_commit_iff {s : System G} {g : G} {o : Opening} (h : Inv Q s)
    (hproc : s.proc g = .opening o) (hsaved : o.saved) (hreset : o.reset = false) :
    (∃ s', ZeroHour.move Q s g .commit = some s' ∧ Exact Q s') ↔ o.upToDate s.current := by
  have hrow := h.row
  have hsound := h.proc g
  rw [hproc] at hsound
  obtain ⟨husage, hpoints⟩ := hsound.state
  simp only [hreset, Bool.false_eq_true, if_false] at husage hpoints
  constructor
  · rintro ⟨s', hmove, hexact⟩
    simp only [ZeroHour.move, hproc, hsaved, hreset, if_true, Bool.false_eq_true, if_false] at hmove
    cases hmove
    obtain ⟨hsame, -, hsum⟩ := hexact
    simp only [System.current, Option.getD_some] at hsame hsum
    rw [hsame, hpoints] at hsum
    have hnow := hrow.points
    have hadded := hsound.added_nonneg
    refine Opening.upToDate_iff.mpr ⟨?_, ?_⟩
    · rw [← husage, hsame, hrow.usage]
    · rw [hsum, hnow]
      omega
  · intro hcurrent
    have hkept : kept Q s g .commit := by simp only [kept, hproc, hcurrent, Bool.or_true]
    have hmove : ∃ s', ZeroHour.move Q s g .commit = some s' := by
      simp only [ZeroHour.move, hproc, hsaved, if_true, Option.some.injEq, exists_eq']
    obtain ⟨s', hmove⟩ := hmove
    exact ⟨s', hmove, (h.move hkept hmove).exact⟩

theorem Inv.run {s : System G} (h : Inv Q s) :
    ∀ schedule, keptAlong Q s schedule → Inv Q (run Q s schedule) := by
  intro schedule
  induction schedule generalizing s with
  | nil => exact fun _ => h
  | cons m schedule ih =>
    intro hschedule
    obtain ⟨hkept, hrest⟩ := Bool.and_eq_true_iff.mp hschedule
    refine ih ?_ hrest
    cases hmove : ZeroHour.move Q s m.1 m.2 with
    | none => exact h
    | some s' => exact h.move hkept hmove

/-- In every run in which no opening saves a row that is out of date, the progress is that of the
quota recorded and of the points added since the last reset, also while calls are in flight. -/
theorem progress_exact (Q : ℕ+) (schedule : List (G × Act)) (hkept : keptAlong Q {} schedule) :
    Exact Q (ZeroHour.run Q {} schedule) :=
  (inv_init.run schedule hkept).exact

end Runs

/-- Two calls make the row and add to it; an opening in between is done before the second. -/
def turns : List (Bool × Act) :=
  [(true, .record 750000), (true, .step), (false, .openBox), (true, .step), (false, .step),
    (false, .step), (false, .rollback), (false, .openBox), (false, .step), (false, .add 5),
    (true, .record 250000), (false, .commit), (true, .step)]

theorem progress_exact_turns :
    (run 500000 {} turns).current = { usageQuota := 1000000, points := 7 } ∧
      Exact 500000 (run 500000 {} turns) :=
  ⟨by decide, progress_exact 500000 turns (by decide)⟩

/-- A call that returns between the read and the write of an opening. -/
def overtaken : List (Bool × Act) :=
  [(true, .record 500000), (true, .step), (true, .step), (false, .openBox), (false, .step),
    (true, .record 1000000), (true, .step), (false, .add 5), (false, .commit)]

/-- The opening writes back the usage that it read: the second dollar and the third are lost. -/
theorem usage_lost :
    ∃ schedule : List (Bool × Act),
      (∀ g, (run 500000 {} schedule).proc g = .idle) ∧ ¬ Exact 500000 (run 500000 {} schedule) := by
  refine ⟨overtaken, ?_, ?_⟩
  · intro g
    cases g <;> rfl
  · rintro ⟨husage, -⟩
    revert husage
    decide

end CodeGo.Commerce.ZeroHour
