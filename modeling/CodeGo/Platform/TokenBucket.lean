import CodeGo.Lib.Bucket
import CodeGo.Lib.Lists
import Mathlib.Algebra.Order.Floor.Ring
import Mathlib.Data.Rat.Floor

/-!
# The token bucket in Redis

`rate_limit.lua`, with the numbers of the script as rationals: the executions on one key at any
times, and the deletion of the key after it has expired.
-/

namespace CodeGo.Platform.TokenBucket

open CodeGo.Lib.Bucket

/-- The fields of the hash, and when it expires. -/
structure Hash where
  tokens : ℚ
  lastTime : ℚ
  expiresAt : ℚ
  deriving DecidableEq, Repr

structure Config where
  requested : ℚ
  rate : ℚ
  capacity : ℚ
  deriving DecidableEq, Repr

def Config.ttl (c : Config) : ℤ := ⌈c.capacity / c.rate * 2⌉

/-- `rate_limit.lua` at a time of the server. -/
def rateLimit (c : Config) (current : ℚ) (key : Option Hash) : Bool × Option Hash :=
  let tokens := (key.map (·.tokens)).getD c.capacity
  let lastTime := (key.map (·.lastTime)).getD current
  let tokens := min c.capacity (tokens + (current - lastTime) * c.rate)
  if tokens < c.requested then (false, key)
  -- an expiration that is not in the future deletes the key
  else if c.ttl ≤ 0 then (true, none)
  else (true, some ⟨tokens - c.requested, current, current + c.ttl⟩)

inductive Move where
  | exec (current : ℚ)
  | expire (current : ℚ)
  deriving DecidableEq, Repr

def Move.current : Move → ℚ
  | .exec current => current
  | .expire current => current

/-- The times and answers of the executions. Redis deletes the key at times of its own, if they are
not before the key expires. -/
def outcomes (c : Config) (key : Option Hash) : List Move → List (ℚ × Bool)
  | [] => []
  | .exec current :: moves =>
    let x := rateLimit c current key
    (current, x.1) :: outcomes c x.2 moves
  | .expire current :: moves => outcomes c (key.filter (current < ·.expiresAt)) moves

/-- The times of the executions that admitted their request. -/
def admitted (os : List (ℚ × Bool)) : List ℚ := (os.filter (·.2)).map (·.1)

/-- An interval admits what its bucket holds, and a request is admitted exactly when its tokens have
accrued in a bucket that never expires. -/
structure Limited (c : Config) (os : List (ℚ × Bool)) : Prop where
  bounded : 0 ≤ c.capacity → ∀ a b, a ≤ b →
    ((admitted os).countP (fun t => a ≤ t ∧ t ≤ b) : ℚ) * c.requested ≤ c.capacity + c.rate * (b - a)
  starved : c.capacity < c.requested → admitted os = []
  accrued : ∀ pre t ok post, os = pre ++ (t, ok) :: post →
    (ok = true ↔ c.requested ≤
      Lib.Bucket.accrued c.capacity c.rate c.requested (admitted pre).reverse t)

section Invariant

variable {c : Config} {now now' : ℚ} {key : Option Hash} {os : List (ℚ × Bool)}

/-- The key holds what the last admission left; without it, the bucket is full from now on. -/
def Holds (c : Config) (now : ℚ) (times : List ℚ) : Option Hash → Prop
  | none => ∀ t, now ≤ t → accrued c.capacity c.rate c.requested times t = c.capacity
  | some hash => ∃ before, times = hash.lastTime :: before ∧
      hash.tokens = accrued c.capacity c.rate c.requested before hash.lastTime - c.requested ∧
      hash.expiresAt = hash.lastTime + c.ttl

structure Filled (c : Config) (now : ℚ) (key : Option Hash) (os : List (ℚ × Bool)) : Prop where
  sorted : (admitted os).reverse.Pairwise (· ≥ ·)
  past : ∀ t ∈ (admitted os).reverse, t ≤ now
  covered : Covered c.capacity c.rate c.requested (admitted os).reverse
  accrued : ∀ pre t ok post, os = pre ++ (t, ok) :: post →
    (ok = true ↔ c.requested ≤
      Lib.Bucket.accrued c.capacity c.rate c.requested (admitted pre).reverse t)
  holds : Holds c now (admitted os).reverse key

theorem admitted_concat (os : List (ℚ × Bool)) (now : ℚ) (ok : Bool) :
    admitted (os ++ [(now, ok)]) = admitted os ++ if ok then [now] else [] := by
  cases ok <;> simp [admitted]

theorem filled_fresh (c : Config) (now : ℚ) : Filled c now none [] where
  sorted := .nil
  past := nofun
  covered := trivial
  accrued pre t ok post h := by simp at h
  holds := fun _ _ => rfl

theorem Filled.limited (h : Filled c now key os) (hrate : 0 < c.rate) : Limited c os where
  bounded hcapacity a b hab := by
    have hle := withdrawn_le hcapacity hrate.le h.sorted h.covered hab
    rwa [List.countP_reverse] at hle
  starved hsmall := by
    have hcovered := h.covered
    cases hlist : (admitted os).reverse with
    | nil => exact List.reverse_eq_nil_iff.1 hlist
    | cons t times =>
      rw [hlist] at hcovered
      exact absurd (hcovered.1.trans (accrued_le_capacity times t)) (not_le.2 hsmall)
  accrued := h.accrued

theorem Filled.later (h : Filled c now key os) (hnow : now ≤ now') : Filled c now' key os where
  sorted := h.sorted
  past t ht := (h.past t ht).trans hnow
  covered := h.covered
  accrued := h.accrued
  holds := by
    have hholds := h.holds
    cases key with
    | none => exact fun t ht => hholds t (hnow.trans ht)
    | some hash => exact hholds

/-- The script computes the tokens that have accrued. -/
theorem Filled.tokens (h : Filled c now key os) :
    min c.capacity ((key.map (·.tokens)).getD c.capacity +
      (now - (key.map (·.lastTime)).getD now) * c.rate) =
        Lib.Bucket.accrued c.capacity c.rate c.requested (admitted os).reverse now := by
  have hholds := h.holds
  cases key with
  | none =>
    rw [hholds now (le_refl now)]
    simp
  | some hash =>
    obtain ⟨before, heq, htokens, -⟩ := hholds
    rw [heq, Lib.Bucket.accrued, ← htokens]
    rfl

theorem Filled.accrued_concat (h : Filled c now key os) {ok : Bool}
    (hok : ok = true ↔ c.requested ≤
      Lib.Bucket.accrued c.capacity c.rate c.requested (admitted os).reverse now)
    (pre : List (ℚ × Bool)) (t : ℚ) (ok' : Bool) (post : List (ℚ × Bool))
    (hsplit : os ++ [(now, ok)] = pre ++ (t, ok') :: post) :
    (ok' = true ↔ c.requested ≤
      Lib.Bucket.accrued c.capacity c.rate c.requested (admitted pre).reverse t) :=
  (Lib.Lists.forall_split_concat (P := fun pre o => (o.2 = true ↔ c.requested ≤
    Lib.Bucket.accrued c.capacity c.rate c.requested (admitted pre).reverse o.1))).2
    ⟨fun pre o => h.accrued pre o.1 o.2, hok⟩ pre (t, ok') post hsplit

/-- What can be withdrawn lies in a bucket that has a time to live. -/
theorem ttl_pos (hrate : 0 < c.rate) (hcapacity : 0 < c.capacity) : 0 < c.ttl := by
  apply Int.ceil_pos.2
  positivity

theorem Filled.exec (h : Filled c now key os) (hrate : 0 < c.rate) (hrequested : 0 < c.requested) :
    Filled c now (rateLimit c now key).2 (os ++ [(now, (rateLimit c now key).1)]) := by
  rw [rateLimit]
  simp only [h.tokens]
  by_cases hfew : Lib.Bucket.accrued c.capacity c.rate c.requested (admitted os).reverse now <
      c.requested
  · rw [if_pos hfew]
    constructor
    case accrued => exact h.accrued_concat (by simpa using hfew)
    all_goals rw [admitted_concat, if_neg Bool.false_ne_true, List.append_nil]
    · exact h.sorted
    · exact h.past
    · exact h.covered
    · exact h.holds
  · have hcapacity : 0 < c.capacity :=
      (hrequested.trans_le (not_lt.1 hfew)).trans_le (accrued_le_capacity _ _)
    rw [if_neg hfew, if_neg (not_le.2 (ttl_pos hrate hcapacity))]
    constructor
    case accrued => exact h.accrued_concat (by simpa using hfew)
    all_goals
      rw [admitted_concat, if_pos rfl, List.reverse_append, List.reverse_singleton,
        List.singleton_append]
    · exact List.pairwise_cons.2 ⟨h.past, h.sorted⟩
    · exact List.forall_mem_cons.2 ⟨le_refl now, h.past⟩
    · exact ⟨not_lt.1 hfew, h.covered⟩
    · exact ⟨_, rfl, rfl, rfl⟩

/-- When the key expires, the bucket has been full for long. -/
theorem Filled.expire (h : Filled c now key os) (hrate : 0 < c.rate) (hrequested : 0 < c.requested) :
    Filled c now (key.filter (now < ·.expiresAt)) os where
  sorted := h.sorted
  past := h.past
  covered := h.covered
  accrued := h.accrued
  holds := by
    have hholds := h.holds
    cases key with
    | none => exact hholds
    | some hash =>
      obtain ⟨before, heq, htokens, hexpires⟩ := hholds
      by_cases hlive : now < hash.expiresAt
      · rw [Option.filter_some, decide_eq_true hlive]
        exact ⟨before, heq, htokens, hexpires⟩
      · rw [Option.filter_some, decide_eq_false hlive]
        intro t ht
        have hcovered := h.covered
        rw [heq] at hcovered
        have hcapacity : 0 < c.capacity :=
          (hrequested.trans_le hcovered.1).trans_le (accrued_le_capacity _ _)
        have hwait : c.capacity / c.rate * 2 ≤ t - hash.lastTime := by
          have hceil : c.capacity / c.rate * 2 ≤ c.ttl := Int.le_ceil _
          rw [hexpires] at hlive
          linarith
        have hgain : c.capacity ≤ (t - hash.lastTime) * c.rate := by
          calc c.capacity ≤ c.capacity * 2 := by linarith
            _ = c.capacity / c.rate * 2 * c.rate := by
              field_simp
            _ ≤ (t - hash.lastTime) * c.rate := mul_le_mul_of_nonneg_right hwait hrate.le
        have hleft := sub_nonneg.2 hcovered.1
        rw [heq, Lib.Bucket.accrued]
        exact min_eq_left (by linarith)

end Invariant

section Runs

variable {c : Config} {now : ℚ} {key : Option Hash} {os : List (ℚ × Bool)}

/-- The server clock does not go back. -/
def InOrder : ℚ → List Move → Prop
  | _, [] => True
  | now, m :: moves => now ≤ m.current ∧ InOrder m.current moves

theorem limited_outcomes (hrate : 0 < c.rate) (hrequested : 0 < c.requested) {moves : List Move}
    (horder : InOrder now moves) (h : Filled c now key os) :
    Limited c (os ++ outcomes c key moves) := by
  induction moves generalizing now key os with
  | nil =>
    rw [outcomes, List.append_nil]
    exact h.limited hrate
  | cons m moves ih =>
    obtain ⟨hnow, horder⟩ := horder
    have hlater := h.later hnow
    cases m with
    | exec t =>
      have hnext := ih horder (hlater.exec hrate hrequested)
      rwa [List.append_assoc, List.singleton_append] at hnext
    | expire t => exact ih horder (hlater.expire hrate hrequested)

/-- The bucket in Redis admits what a bucket that never expires holds. -/
theorem bucket_limited (c : Config) (hrate : 0 < c.rate) (hrequested : 0 < c.requested) (now : ℚ)
    (moves : List Move) (horder : InOrder now moves) : Limited c (outcomes c none moves) :=
  limited_outcomes hrate hrequested horder (filled_fresh c now)

/-- Two requests of five tokens, one too many, and one more after the key has expired. -/
def fourRequests : List Move := [.exec 0, .exec 1, .exec (3 / 2), .expire 21, .exec 21]

theorem bucket_limited_sample :
    outcomes ⟨5, 1, 10⟩ none fourRequests = [(0, true), (1, true), (3 / 2, false), (21, true)] ∧
      Limited ⟨5, 1, 10⟩ (outcomes ⟨5, 1, 10⟩ none fourRequests) :=
  ⟨by decide +kernel, bucket_limited ⟨5, 1, 10⟩ (by decide) (by decide) 0 fourRequests
    ⟨by decide +kernel, by decide +kernel, by decide +kernel, by decide +kernel, by decide +kernel,
      trivial⟩⟩

end Runs

end CodeGo.Platform.TokenBucket
