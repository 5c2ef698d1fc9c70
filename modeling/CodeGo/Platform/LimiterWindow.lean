import CodeGo.Lib.Binary64
import CodeGo.Platform.ModelRateLimit

/-!
# The windows of the limiter in memory

`inmemory_rate_limiter.go` over whole histories: requests at any keys, and passes of the cleaner
that `Init` starts. Times are seconds of the clock.
-/

namespace CodeGo.Platform.LimiterWindow

open CodeGo.Lib CodeGo.Lib.Window CodeGo.Platform.ModelRateLimit

/-- `Duration.Seconds` of nanoseconds, as an integer. -/
def durationSeconds (d : Int) : Int :=
  Binary64.toInt (Binary64.add (Binary64.ofRat (d.tdiv 1000000000))
    (Binary64.div (Binary64.ofRat (d.tmod 1000000000)) (Binary64.ofRat 1000000000)))

/-- The limiter that `Init` makes for a duration in nanoseconds. -/
def init (expirationDuration : Int) : InMemoryRateLimiter :=
  { expirationDuration := durationSeconds expirationDuration }

inductive Move where
  | request (key : String) (maxRequestNum : Nat) (duration now : Int)
  | clear (now : Int)
  deriving DecidableEq, Repr

def Move.now : Move → Int
  | .request _ _ _ now => now
  | .clear now => now

/-- The times and answers of the requests at a key. -/
def outcomes (key : String) (l : InMemoryRateLimiter) : List Move → List (Int × Bool)
  | [] => []
  | .request key' maxRequestNum duration now :: moves =>
    let x := l.request key' maxRequestNum duration now
    if key' = key then (now, x.1) :: outcomes key x.2 moves else outcomes key x.2 moves
  | .clear now :: moves => outcomes key (l.clearExpiredItems now) moves

/-- The moves after `now`: time does not go back, requests at the key have its limit and duration,
and the cleaner runs if `Init` started it. -/
def History (expirationDuration : Int) (key : String) (n : Nat) (d : Int) : Int → List Move → Prop
  | _, [] => True
  | now, m :: moves => now ≤ m.now ∧
      (match m with
        | .request key' maxRequestNum duration _ => key' = key → maxRequestNum = n ∧ duration = d
        | .clear _ => 0 < expirationDuration) ∧
      History expirationDuration key n d m.now moves

/-- The times of the requests that were admitted. -/
def admitted (os : List (Int × Bool)) : List Int := (os.filter (·.2)).map (·.1)

/-- At most `n` requests are admitted in an interval shorter than `d`, and a request is rejected
only if `n` were admitted in the `d` seconds before it. -/
structure Limited (n : Nat) (d : Int) (os : List (Int × Bool)) : Prop where
  bounded : ∀ a b, b - a < d → (admitted os).countP (fun t => a ≤ t ∧ t ≤ b) ≤ n
  justified : ∀ pre now post, os = pre ++ (now, false) :: post →
    n ≤ (admitted pre).countP (now - d < ·)

section Invariant

variable {key : String} {n : Nat} {d now now' : Int} {l : InMemoryRateLimiter}
  {os : List (Int × Bool)}

/-- The queue of the key is a log of the admissions that may still be in the window. -/
structure Logged (key : String) (n : Nat) (d now : Int) (l : InMemoryRateLimiter)
    (os : List (Int × Bool)) : Prop where
  sorted : (admitted os).reverse.Pairwise (· ≥ ·)
  past : ∀ t ∈ (admitted os).reverse, t ≤ now
  spaced : Spaced n d (admitted os).reverse
  justified : ∀ pre t post, os = pre ++ (t, false) :: post →
    n ≤ (admitted pre).countP (t - d < ·)
  log : ∃ live old, (admitted os).reverse = live ++ old ∧ (∀ t ∈ old, t ≤ now - d) ∧
    LogOf n live (l.store key)

theorem admitted_concat (os : List (Int × Bool)) (now : Int) (ok : Bool) :
    admitted (os ++ [(now, ok)]) = admitted os ++ if ok then [now] else [] := by
  cases ok <;> simp [admitted]

theorem Logged.limited (h : Logged key n d now l os) : Limited n d os where
  bounded a b hab := by
    rw [← List.countP_reverse]
    exact h.spaced.countP_le h.sorted hab
  justified := h.justified

theorem Logged.later (h : Logged key n d now l os) (hnow : now ≤ now') :
    Logged key n d now' l os where
  sorted := h.sorted
  past t ht := le_trans (h.past t ht) hnow
  spaced := h.spaced
  justified := h.justified
  log := by
    obtain ⟨live, old, heq, hold, hlog⟩ := h.log
    exact ⟨live, old, heq, fun t ht => le_trans (hold t ht) (by omega), hlog⟩

theorem logged_empty (key : String) (n : Nat) (d now : Int) (expirationDuration : Int) :
    Logged key n d now (init expirationDuration) [] where
  sorted := .nil
  past := nofun
  spaced := trivial
  justified pre t post h := by simp at h
  log := ⟨[], [], rfl, nofun, rfl⟩

/-- A request at another key. -/
theorem Logged.request_other (h : Logged key n d now l os) {key' : String} (hkey : key' ≠ key)
    (maxRequestNum : Nat) (duration now' : Int) :
    Logged key n d now (l.request key' maxRequestNum duration now').2 os where
  sorted := h.sorted
  past := h.past
  spaced := h.spaced
  justified := h.justified
  log := by
    rw [l.request_other (Ne.symm hkey)]
    exact h.log

/-- A request at the key is admitted exactly when the window has room, and joins the log then. -/
theorem Logged.request_log (h : Logged key n d now l os) (hn : 1 ≤ n) :
    (l.request key n d now).1 = !decide (Reached n (now - d) (admitted os).reverse) ∧
      ∃ live old, (admitted os).reverse = live ++ old ∧ (∀ t ∈ old, t ≤ now - d) ∧
        LogOf n (if Reached n (now - d) (admitted os).reverse then live else now :: live)
          ((l.request key n d now).2.store key) := by
  obtain ⟨live, old, heq, hold, hlog⟩ := h.log
  have hsorted : live.Pairwise (· ≥ ·) := by
    have hsorted := h.sorted
    rw [heq, List.pairwise_append] at hsorted
    exact hsorted.1
  have hmax : max n 1 = n := by omega
  have hlog' : LogOf (max n 1) live (l.store key) := by rwa [hmax]
  obtain ⟨hanswer, hafter⟩ := l.request_log key n d now hsorted hlog'
  rw [hmax] at hanswer hafter
  have hwindow : Reached n (now - d) (admitted os).reverse ↔ Reached n (now - d) live := by
    rw [heq]
    exact reached_append_old hold
  simp only [hwindow]
  exact ⟨hanswer, live, old, heq, hold, hafter⟩

theorem Logged.justified_concat (h : Logged key n d now l os) {ok : Bool}
    (hok : ok = false → n ≤ (admitted os).countP (now - d < ·)) (pre : List (Int × Bool)) (t : Int)
    (post : List (Int × Bool)) (hsplit : os ++ [(now, ok)] = pre ++ (t, false) :: post) :
    n ≤ (admitted pre).countP (t - d < ·) := by
  rcases List.eq_nil_or_concat post with rfl | ⟨post', o, rfl⟩
  · obtain ⟨rfl, ht⟩ := List.append_inj' hsplit rfl
    cases ht
    exact hok rfl
  · have hends : os ++ [(now, ok)] = (pre ++ (t, false) :: post') ++ [o] := by simpa using hsplit
    exact h.justified pre t post' (List.append_inj' hends rfl).1

theorem Logged.request (h : Logged key n d now l os) (hn : 1 ≤ n) :
    Logged key n d now (l.request key n d now).2 (os ++ [(now, (l.request key n d now).1)]) := by
  obtain ⟨hanswer, live, old, heq, hold, hafter⟩ := h.request_log hn
  by_cases hfull : Reached n (now - d) (admitted os).reverse
  · have hfalse : (l.request key n d now).1 = false := by simp [hanswer, hfull]
    rw [if_pos hfull] at hafter
    rw [hfalse]
    constructor
    case justified =>
      apply h.justified_concat
      intro _
      rw [← List.countP_reverse]
      exact hfull
    all_goals rw [admitted_concat, if_neg Bool.false_ne_true, List.append_nil]
    · exact h.sorted
    · exact h.past
    · exact h.spaced
    · exact ⟨live, old, heq, hold, hafter⟩
  · have htrue : (l.request key n d now).1 = true := by simp [hanswer, hfull]
    rw [if_neg hfull] at hafter
    rw [htrue]
    constructor
    case justified => exact h.justified_concat nofun
    all_goals
      rw [admitted_concat, if_pos rfl, List.reverse_append, List.reverse_singleton,
        List.singleton_append]
    · exact List.pairwise_cons.2 ⟨h.past, h.sorted⟩
    · exact List.forall_mem_cons.2 ⟨le_refl now, h.past⟩
    · exact ⟨hfull, h.spaced⟩
    · exact ⟨now :: live, old, by rw [heq, List.cons_append], hold, hafter⟩

/-- The cleaner forgets only admissions that have left the window. -/
theorem Logged.clear (h : Logged key n d now l os) (hn : 1 ≤ n) (hd : d ≤ l.expirationDuration + 1) :
    Logged key n d now (l.clearExpiredItems now) os where
  sorted := h.sorted
  past := h.past
  spaced := h.spaced
  justified := h.justified
  log := by
    obtain ⟨live, old, heq, hold, hlog⟩ := h.log
    have hafter := remembered_log l.expirationDuration now (by omega) hlog
    by_cases hkept : remembered l.expirationDuration now live = live
    · rw [hkept] at hafter
      exact ⟨live, old, heq, hold, hafter⟩
    · have hsorted := h.sorted
      rw [heq, List.pairwise_append] at hsorted
      rw [remembered] at hafter hkept
      split at hafter
      next hrecent => exact absurd (if_pos hrecent) hkept
      next hexpired =>
        refine ⟨[], live ++ old, heq, fun t ht => ?_, hafter⟩
        rcases List.mem_append.1 ht with ht | ht
        · -- the newest is old, and so are the others
          push Not at hexpired
          obtain ⟨newest, hhead, hlate⟩ := hexpired
          have hle : t ≤ newest := by
            obtain ⟨rest, rfl⟩ := List.head?_eq_some_iff.1 hhead
            rcases List.mem_cons.1 ht with rfl | ht
            · exact le_refl t
            · exact List.rel_of_pairwise_cons hsorted.1 ht
          omega
        · exact hold t ht

end Invariant

section Runs

variable {key : String} {n : Nat} {d now : Int} {expirationDuration : Int}
  {l : InMemoryRateLimiter} {os : List (Int × Bool)} {moves : List Move}

/-- Over a whole history, as long as the cleaner waits for the window to pass. -/
theorem logged_outcomes (hn : 1 ≤ n)
    (hd : 0 < expirationDuration → d ≤ l.expirationDuration + 1)
    (hmoves : History expirationDuration key n d now moves) (h : Logged key n d now l os) :
    Limited n d (os ++ outcomes key l moves) := by
  induction moves generalizing now l os with
  | nil => rw [outcomes, List.append_nil]; exact h.limited
  | cons m moves ih =>
    obtain ⟨hnow, hmove, hrest⟩ := hmoves
    have hlater := h.later hnow
    cases m with
    | request key' maxRequestNum duration t =>
      have hd' : 0 < expirationDuration →
          d ≤ (l.request key' maxRequestNum duration t).2.expirationDuration + 1 := by
        rw [l.request_expirationDuration]
        exact hd
      rw [outcomes]
      split
      next hkey =>
        obtain ⟨rfl, rfl⟩ := hmove hkey
        subst hkey
        have hnext := ih hd' hrest (hlater.request hn)
        rwa [List.append_assoc, List.singleton_append] at hnext
      next hkey => exact ih hd' hrest (hlater.request_other hkey _ _ _)
    | clear t =>
      have hclear := hlater.clear hn (hd hmove)
      exact ih hd hrest hclear

/-- Requests at one time fill the queue. -/
theorem outcomes_burst (rest : List Move) (m k : Nat) (hk : m + 1 + k ≤ n)
    (hl : l.store key = some ⟨now, List.replicate m now⟩) :
    ∃ l', outcomes key l (List.replicate k (.request key n d now) ++ rest) =
        List.replicate k (now, true) ++ outcomes key l' rest ∧
      l'.store key = some ⟨now, List.replicate (m + k) now⟩ ∧
      l'.expirationDuration = l.expirationDuration := by
  induction k generalizing m l with
  | zero => exact ⟨l, rfl, hl, rfl⟩
  | succ k ih =>
    have hroom : (Queue.toList ⟨now, List.replicate m now⟩).length < n := by
      simp only [Queue.toList, List.length_cons, List.length_replicate]
      omega
    have hrequest : l.request key n d now =
        (true, l.put key ⟨now, List.replicate (m + 1) now⟩) := by
      rw [InMemoryRateLimiter.request, hl]
      dsimp only
      rw [if_pos hroom, List.replicate_succ']
    obtain ⟨l', houtcomes, hstore, hexpiration⟩ := ih (m + 1) (by omega)
      (l.put_self key ⟨now, List.replicate (m + 1) now⟩)
    refine ⟨l', ?_, ?_, hexpiration⟩
    · rw [List.replicate_succ, List.cons_append, outcomes, if_pos rfl, hrequest, houtcomes]
      rfl
    · rw [hstore]
      congr 3
      omega

/-- As many requests as are allowed, a pass of the cleaner, and one more request. -/
def forgotten (key : String) (n : Nat) (d t : Int) : List Move :=
  List.replicate n (.request key n d 0) ++ [.clear t, .request key n d t]

theorem outcomes_forgotten (hn : 1 ≤ n) (key : String) (d : Int) {t : Int}
    (ht : durationSeconds expirationDuration < t) :
    outcomes key (init expirationDuration) (forgotten key n d t) =
      List.replicate n (0, true) ++ [(t, true)] := by
  obtain ⟨m, rfl⟩ : ∃ m, n = m + 1 := ⟨n - 1, by omega⟩
  have hfirst : (init expirationDuration).request key (m + 1) d 0 =
      (true, (init expirationDuration).put key ⟨0, []⟩) := rfl
  obtain ⟨l', houtcomes, hstore, hexpiration⟩ := outcomes_burst (n := m + 1) (d := d)
    [.clear t, .request key (m + 1) d t] 0 m (by omega)
    ((init expirationDuration).put_self key ⟨0, []⟩)
  have hexpired : l'.expirationDuration = durationSeconds expirationDuration := hexpiration
  have hnewest : (⟨0, List.replicate (0 + m) 0⟩ : Queue).newest = 0 := by
    cases m with
    | zero => rfl
    | succ m => simp [Queue.newest, List.replicate_succ']
  have hcleared : (l'.clearExpiredItems t).store key = none := by
    rw [InMemoryRateLimiter.clearExpiredItems]
    dsimp only
    rw [hstore, Option.filter_some, hnewest, if_neg]
    simp only [decide_eq_true_eq, not_not]
    omega
  rw [forgotten, List.replicate_succ, List.cons_append, outcomes, if_pos rfl, hfirst]
  dsimp only
  rw [houtcomes, outcomes, outcomes, if_pos rfl, InMemoryRateLimiter.request, hcleared]
  rfl

/-- The limiter keeps to its windows in every history if and only if the cleaner does not run or
waits for the window to pass. -/
theorem limited_iff (key : String) (n : Nat) (d expirationDuration : Int) (hn : 1 ≤ n)
    (hd : 1 ≤ d) :
    (∀ now moves, History expirationDuration key n d now moves →
        Limited n d (outcomes key (init expirationDuration) moves)) ↔
      (0 < expirationDuration → d ≤ durationSeconds expirationDuration + 1) := by
  constructor
  · intro h hpos
    by_contra hshort
    have hmax : max 0 (durationSeconds expirationDuration + 1) < d := by omega
    generalize ht : max 0 (durationSeconds expirationDuration + 1) = t at hmax
    have hhistory : History expirationDuration key n d 0 (forgotten key n d t) := by
      have hend : History expirationDuration key n d 0 [.clear t, .request key n d t] :=
        ⟨by simp only [Move.now]; omega, hpos, le_refl t, fun _ => ⟨rfl, rfl⟩, trivial⟩
      have hburst : ∀ k, History expirationDuration key n d 0
          (List.replicate k (.request key n d 0) ++ [.clear t, .request key n d t]) := by
        intro k
        induction k with
        | zero => exact hend
        | succ k ih => exact ⟨le_refl 0, fun _ => ⟨rfl, rfl⟩, ih⟩
      exact hburst n
    have hbound := (h 0 _ hhistory).bounded 0 t (by omega)
    rw [outcomes_forgotten hn key d (by omega)] at hbound
    have hcount : (admitted (List.replicate n (0, true) ++ [(t, true)])).countP
        (fun u => 0 ≤ u ∧ u ≤ t) = n + 1 := by
      have hnonneg : 0 ≤ t := by omega
      simp [admitted, List.countP_append, List.countP_replicate, hnonneg]
    omega
  · intro hwait now moves hmoves
    exact logged_outcomes hn hwait hmoves (logged_empty key n d now expirationDuration)

/-- Three requests at one key, the last one after a pass of a cleaner that waits for twenty
minutes. -/
def spread : List Move :=
  [.request "GA:1" 1 60 0, .request "GA:1" 1 60 3, .clear 1300, .request "GA:1" 1 60 1301]

theorem limited_spread : outcomes "GA:1" (init 1200000000000) spread =
      [(0, true), (3, false), (1301, true)] ∧
    Limited 1 60 (outcomes "GA:1" (init 1200000000000) spread) :=
  ⟨by decide +kernel, (limited_iff "GA:1" 1 60 1200000000000 (by decide) (by decide)).2
    (fun _ => by decide +kernel) 0 spread (by simp [spread, History, Move.now])⟩

/-- A cleaner that waits for one second forgets a request that was admitted three seconds ago. -/
theorem forgotten_admission :
    History 1000000000 "GA:1" 1 60 0
        [.request "GA:1" 1 60 0, .clear 2, .request "GA:1" 1 60 3] ∧
      outcomes "GA:1" (init 1000000000)
        [.request "GA:1" 1 60 0, .clear 2, .request "GA:1" 1 60 3] = [(0, true), (3, true)] ∧
      ¬ Limited 1 60 (outcomes "GA:1" (init 1000000000)
        [.request "GA:1" 1 60 0, .clear 2, .request "GA:1" 1 60 3]) := by
  have houtcomes : outcomes "GA:1" (init 1000000000)
      [.request "GA:1" 1 60 0, .clear 2, .request "GA:1" 1 60 3] = [(0, true), (3, true)] := by
    decide +kernel
  refine ⟨by simp [History, Move.now], houtcomes, fun h => ?_⟩
  have hbound := h.bounded 0 3 (by decide)
  rw [houtcomes] at hbound
  exact absurd hbound (by decide)

end Runs

end CodeGo.Platform.LimiterWindow
