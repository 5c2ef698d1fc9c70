import CodeGo.Lib.Window
import Mathlib.Data.Int.Order.Basic

/-!
# The model request rate limit

`model-rate-limit.go` and `inmemory_rate_limiter.go` of the HTTP middleware, with the total limit
off. Times are milliseconds; the Redis lists keep them, the limiter in memory keeps whole seconds.
-/

namespace CodeGo.Platform.ModelRateLimit

/-- The times of the requests of a key in seconds, the oldest first; a queue is never empty. -/
structure Queue where
  oldest : Int
  newer : List Int
  deriving DecidableEq, Repr

def Queue.toList (q : Queue) : List Int := q.oldest :: q.newer

def Queue.newest (q : Queue) : Int := q.newer.getLast?.getD q.oldest

/-- The queue without its oldest time. -/
def Queue.shift (q : Queue) (now : Int) : Queue :=
  match q.newer with
  | [] => ⟨now, []⟩
  | oldest :: newer => ⟨oldest, newer ++ [now]⟩

structure InMemoryRateLimiter where
  store : String → Option Queue := fun _ => none
  expirationDuration : Int

def InMemoryRateLimiter.put (l : InMemoryRateLimiter) (key : String) (queue : Queue) :
    InMemoryRateLimiter :=
  { l with store := fun k => if k = key then some queue else l.store k }

/-- Without a queue the first request is always taken. -/
def InMemoryRateLimiter.request (l : InMemoryRateLimiter) (key : String) (maxRequestNum : Nat)
    (duration now : Int) : Bool × InMemoryRateLimiter :=
  match l.store key with
  | some queue =>
    if queue.toList.length < maxRequestNum then
      (true, l.put key { queue with newer := queue.newer ++ [now] })
    else if now - queue.oldest ≥ duration then (true, l.put key (queue.shift now))
    else (false, l)
  | none => (true, l.put key ⟨now, []⟩)

/-- One pass of `clearExpiredItems`. -/
def InMemoryRateLimiter.clearExpiredItems (l : InMemoryRateLimiter) (now : Int) :
    InMemoryRateLimiter :=
  { l with store := fun key => (l.store key).filter fun queue =>
      ¬ now - queue.newest > l.expirationDuration }

structure RedisKey where
  items : List Int
  expiresAt : Option Int := none
  deriving DecidableEq, Repr

def RedisKey.Live (key : RedisKey) (now : Int) : Prop := ∀ t ∈ key.expiresAt, now < t

instance (key : RedisKey) (now : Int) : Decidable (key.Live now) :=
  inferInstanceAs (Decidable (∀ t ∈ key.expiresAt, now < t))

abbrev Redis := String → Option RedisKey

def Redis.put (rdb : Redis) (key : String) (value : Option RedisKey) : Redis :=
  fun k => if k = key then value else rdb k

/-- The key, unless it has expired. -/
def Redis.live (rdb : Redis) (key : String) (now : Int) : Option RedisKey :=
  (rdb key).filter fun value => value.Live now

def Redis.items (rdb : Redis) (key : String) (now : Int) : List Int :=
  ((rdb.live key now).map (·.items)).getD []

def Redis.lPush (rdb : Redis) (key : String) (value now : Int) : Redis :=
  rdb.put key <| match rdb.live key now with
    | some k => some { k with items := value :: k.items }
    | none => some { items := [value] }

/-- `LTRIM 0 stop`. -/
def Redis.lTrim (rdb : Redis) (key : String) (stop : Nat) (now : Int) : Redis :=
  rdb.put key ((rdb.live key now).map fun k => { k with items := k.items.take (stop + 1) })

/-- An expiration that is not in the future deletes the key. -/
def Redis.expire (rdb : Redis) (key : String) (seconds now : Int) : Redis :=
  rdb.put key <| (rdb.live key now).bind fun k =>
    if seconds ≤ 0 then none else some { k with expiresAt := some (now + 1000 * seconds) }

/-- A request of the user: its times at both ends of the handler, and whether its status is below
400. -/
structure Request where
  start : Int
  finish : Int
  ok : Bool
  deriving DecidableEq, Repr

/-- The limits of the user's group. -/
structure Settings where
  durationMinutes : Int
  successMaxCount : Nat
  deriving DecidableEq, Repr

/-- `ModelRequestRateLimit` gives the handlers the duration in seconds. -/
def Settings.duration (s : Settings) : Int := s.durationMinutes * 60

def checkRedisRateLimit (s : Settings) (rdb : Redis) (key : String) (maxCount : Nat)
    (duration now : Int) : Bool × Redis :=
  if maxCount = 0 then (true, rdb)
  else if (rdb.items key now).length < maxCount then (true, rdb)
  else match (rdb.items key now).getLast? with
    -- an element that is missing is not a time
    | none => (false, rdb)
    | some oldTime =>
      if (now - oldTime).tdiv 1000 < duration then
        (false, rdb.expire key (s.durationMinutes * 60) now)
      else (true, rdb)

def recordRedisRequest (s : Settings) (rdb : Redis) (key : String) (maxCount : Nat) (now : Int) :
    Redis :=
  if maxCount = 0 then rdb
  else ((rdb.lPush key now now).lTrim key (maxCount - 1) now).expire key (s.durationMinutes * 60) now

def redisSuccessKey (userId : String) : String := "rateLimit:MRRLS:" ++ userId

/-- Whether the request is rejected, and the store after it. -/
def redisRateLimitHandler (s : Settings) (userId : String) (r : Request) (rdb : Redis) :
    Bool × Redis :=
  let key := redisSuccessKey userId
  match checkRedisRateLimit s rdb key s.successMaxCount s.duration r.start with
  | (false, rdb) => (true, rdb)
  | (true, rdb) =>
    (false, if r.ok then recordRedisRequest s rdb key s.successMaxCount r.finish else rdb)

/-- `time.Unix` of a time in milliseconds. -/
def unix (ms : Int) : Int := ms / 1000

def memorySuccessKey (userId : String) : String := "MRRLS" ++ userId

def memoryCheckKey (userId : String) : String := memorySuccessKey userId ++ "_check"

def memoryRateLimitHandler (s : Settings) (userId : String) (r : Request)
    (l : InMemoryRateLimiter) : Bool × InMemoryRateLimiter :=
  match l.request (memoryCheckKey userId) s.successMaxCount s.duration (unix r.start) with
  | (false, l) => (true, l)
  | (true, l) =>
    (false, if r.ok then
      (l.request (memorySuccessKey userId) s.successMaxCount s.duration (unix r.finish)).2 else l)

/-- What happens to the limiters: a request, or a pass of the cleaner in memory. -/
inductive Event where
  | request (r : Request)
  | clear (now : Int)
  deriving DecidableEq, Repr

/-- The requests come one after the other. -/
def InOrder : Int → List Event → Prop
  | _, [] => True
  | now, .request r :: events => now ≤ r.start ∧ r.start ≤ r.finish ∧ InOrder r.finish events
  | now, .clear t :: events => now ≤ t ∧ InOrder t events

/-- Which requests are rejected. -/
def memoryRejections (s : Settings) (userId : String) :
    InMemoryRateLimiter → List Event → List Bool
  | _, [] => []
  | l, .request r :: events =>
    let x := memoryRateLimitHandler s userId r l
    x.1 :: memoryRejections s userId x.2 events
  | l, .clear now :: events => memoryRejections s userId (l.clearExpiredItems (unix now)) events

def redisRejections (s : Settings) (userId : String) : Redis → List Event → List Bool
  | _, [] => []
  | rdb, .request r :: events =>
    let x := redisRateLimitHandler s userId r rdb
    x.1 :: redisRejections s userId x.2 events
  | rdb, .clear _ :: events => redisRejections s userId rdb events

end CodeGo.Platform.ModelRateLimit

/-!
# Whether the two limiters agree

The list in Redis is a log of the successes, and the queue that the limiter in memory checks is one
of all requests that were let through, failed or not.
-/

namespace CodeGo.Platform.ModelRateLimit

open CodeGo.Lib.Window

/-- So many requests succeeded within the last `duration` seconds, and no more are allowed. -/
def rejects (s : Settings) (successes : List Int) (r : Request) : Bool :=
  0 < s.successMaxCount ∧
    Reached s.successMaxCount (r.start - 1000 * s.duration) successes

def succeed (r : Request) (successes : List Int) : List Int :=
  if r.ok then r.finish :: successes else successes

/-- The requests to reject; the successes are listed by their end, the newest first. -/
def rejections (s : Settings) : List Int → List Event → List Bool
  | _, [] => []
  | successes, .request r :: events =>
    rejects s successes r ::
      rejections s (if rejects s successes r then successes else succeed r successes) events
  | successes, .clear _ :: events => rejections s successes events

/-- The attempts that the cleaner leaves. -/
def remembered (expirationDuration now : Int) (attempts : List Int) : List Int :=
  if ∀ t ∈ attempts.head?, ¬ now - t > expirationDuration then attempts else []

/-- As many attempts as successes are allowed, and at least one, within the last `duration`
seconds. -/
def attempted (s : Settings) (attempts : List Int) (r : Request) : Bool :=
  Reached (max s.successMaxCount 1) (unix r.start - s.duration) attempts

/-- Whenever the attempts fill the window, counted in whole seconds, so do the successes. -/
def Proportionate (s : Settings) (expirationDuration : Int) :
    List Int → List Int → List Event → Prop
  | _, _, [] => True
  | successes, attempts, .request r :: events =>
    attempted s attempts r = rejects s successes r ∧
      if rejects s successes r then Proportionate s expirationDuration successes attempts events
      else Proportionate s expirationDuration (succeed r successes) (unix r.start :: attempts) events
  | successes, attempts, .clear now :: events =>
    Proportionate s expirationDuration successes
      (remembered expirationDuration (unix now) attempts) events

@[simp] theorem InMemoryRateLimiter.put_self (l : InMemoryRateLimiter) (key : String)
    (queue : Queue) : (l.put key queue).store key = some queue := by simp [put]

@[simp] theorem InMemoryRateLimiter.put_other (l : InMemoryRateLimiter) {key key' : String}
    (h : key' ≠ key) (queue : Queue) : (l.put key queue).store key' = l.store key' := by
  simp [put, h]

theorem InMemoryRateLimiter.request_other (l : InMemoryRateLimiter) {key key' : String}
    (h : key' ≠ key) (maxRequestNum : Nat) (duration now : Int) :
    (l.request key maxRequestNum duration now).2.store key' = l.store key' := by
  rw [request]
  split
  · split_ifs <;> simp [h]
  · simp [h]

theorem InMemoryRateLimiter.request_expirationDuration (l : InMemoryRateLimiter) (key : String)
    (maxRequestNum : Nat) (duration now : Int) :
    (l.request key maxRequestNum duration now).2.expirationDuration = l.expirationDuration := by
  rw [request]
  split
  · split_ifs <;> rfl
  · rfl

theorem memoryCheckKey_ne (userId : String) : memoryCheckKey userId ≠ memorySuccessKey userId := by
  intro h
  have hlength := congrArg String.length h
  rw [memoryCheckKey, String.length_append] at hlength
  have hmark : "_check".length = 6 := rfl
  omega

/-- The queue is a log of the last attempts. -/
def LogOf (n : Nat) (attempts : List Int) : Option Queue → Prop
  | none => attempts = []
  | some queue => attempts ≠ [] ∧ queue.toList = (attempts.take n).reverse

theorem Queue.shift_toList (q : Queue) (now : Int) : (q.shift now).toList = q.newer ++ [now] := by
  obtain ⟨oldest, newer⟩ := q
  cases newer <;> rfl

theorem Queue.newest_eq (q : Queue) : q.toList.getLast? = some q.newest := by
  obtain ⟨oldest, newer⟩ := q
  rw [toList, newest, List.getLast?_cons]

/-- A request at a key whose queue is a log: it is taken unless the window is full. -/
theorem InMemoryRateLimiter.request_log (l : InMemoryRateLimiter) (key : String) (maxRequestNum : Nat)
    (duration now : Int) {attempts : List Int} (hsorted : attempts.Pairwise (· ≥ ·))
    (hlog : LogOf (max maxRequestNum 1) attempts (l.store key)) :
    (l.request key maxRequestNum duration now).1 =
        !decide (Reached (max maxRequestNum 1) (now - duration) attempts) ∧
      LogOf (max maxRequestNum 1)
        (if Reached (max maxRequestNum 1) (now - duration) attempts then attempts
          else now :: attempts)
        ((l.request key maxRequestNum duration now).2.store key) := by
  obtain ⟨m, hm⟩ : ∃ m, max maxRequestNum 1 = m + 1 := ⟨max maxRequestNum 1 - 1, by omega⟩
  rw [hm] at hlog ⊢
  rw [request]
  cases hqueue : l.store key with
  | none =>
    rw [hqueue] at hlog
    have hattempts : attempts = [] := hlog
    subst hattempts
    simp [Reached, LogOf, Queue.toList]
  | some queue =>
    rw [hqueue] at hlog
    obtain ⟨hne, hlist⟩ := hlog
    have hlength := congrArg List.length hlist
    rw [List.length_reverse, List.length_take] at hlength
    have hpos : 0 < queue.toList.length := by simp [Queue.toList]
    simp only
    split
    next hroom =>
      have hfew : attempts.length ≤ m := by omega
      have hnot : ¬ Reached (m + 1) (now - duration) attempts := by
        rw [reached_succ_iff hsorted, List.getElem?_eq_none (by omega)]
        simp
      rw [if_neg hnot]
      refine ⟨by simp [hnot], ?_⟩
      rw [put_self]
      refine ⟨by simp, ?_⟩
      have hnewer : queue.oldest :: (queue.newer ++ [now]) = queue.toList ++ [now] := rfl
      rw [Queue.toList, hnewer, hlist, List.take_succ_cons, List.reverse_cons,
        List.take_of_length_le (by omega), List.take_of_length_le hfew]
    next hfull =>
      have hmany : m < attempts.length := by omega
      have holdest : attempts[m]? = some queue.oldest := by
        rw [← getLast?_take_succ attempts m hmany, ← List.head?_reverse, ← hlist]
        rfl
      have hreached : Reached (m + 1) (now - duration) attempts ↔
          ¬ now - queue.oldest ≥ duration := by
        rw [reached_succ_iff hsorted, holdest]
        simp only [Option.some.injEq, exists_eq_left']
        omega
      split
      next hold =>
        have hnot : ¬ Reached (m + 1) (now - duration) attempts := fun h => hreached.1 h hold
        rw [if_neg hnot]
        refine ⟨by simp [hnot], ?_⟩
        rw [put_self]
        refine ⟨by simp, ?_⟩
        have htail : queue.newer = (attempts.take m).reverse := by
          rw [List.take_add_one, holdest, List.reverse_append] at hlist
          exact (List.cons.inj hlist).2
        rw [Queue.shift_toList, htail, List.take_succ_cons, List.reverse_cons]
      next hrecent =>
        have hyes : Reached (m + 1) (now - duration) attempts := hreached.2 hrecent
        rw [if_pos hyes, hqueue]
        exact ⟨by simp [hyes], hne, hlist⟩

theorem remembered_log (expirationDuration now : Int) {m : Nat} {attempts : List Int}
    {queue : Option Queue} (hm : m ≠ 0) (h : LogOf m attempts queue) :
    LogOf m (remembered expirationDuration now attempts)
      (queue.filter fun queue => ¬ now - queue.newest > expirationDuration) := by
  cases queue with
  | none =>
    have hattempts : attempts = [] := h
    subst hattempts
    simp [remembered, LogOf]
  | some queue =>
    obtain ⟨hne, hlist⟩ := h
    have hhead : attempts.head? = some queue.newest := by
      rw [← Queue.newest_eq, hlist, List.getLast?_reverse, List.head?_take, if_neg hm]
    rw [remembered, hhead]
    by_cases hold : now - queue.newest > expirationDuration
    · have hforgotten : ¬ ∀ t ∈ some queue.newest, ¬ now - t > expirationDuration :=
        fun h => h _ rfl hold
      have hdecide : decide (¬ now - queue.newest > expirationDuration) = false :=
        decide_eq_false (not_not_intro hold)
      rw [Option.filter_some, hdecide, if_neg hforgotten]
      rfl
    · simp only [Option.mem_some_iff, forall_eq', hold, not_false_eq_true, ↓reduceIte,
        Option.filter_some, decide_true]
      exact ⟨hne, hlist⟩

theorem remembered_subset {expirationDuration now : Int} {attempts : List Int} {t : Int}
    (h : t ∈ remembered expirationDuration now attempts) : t ∈ attempts := by
  rw [remembered] at h
  split at h
  · exact h
  · cases h

theorem remembered_sorted (expirationDuration now : Int) {attempts : List Int}
    (h : attempts.Pairwise (· ≥ ·)) :
    (remembered expirationDuration now attempts).Pairwise (· ≥ ·) := by
  rw [remembered]
  split
  · exact h
  · exact .nil

theorem unix_mono {a b : Int} (h : a ≤ b) : unix a ≤ unix b := by
  rw [unix, unix]
  omega

/-- A request at the limiter in memory. -/
theorem memoryRateLimitHandler_log (s : Settings) (userId : String) (r : Request)
    (l : InMemoryRateLimiter) {attempts : List Int} (hsorted : attempts.Pairwise (· ≥ ·))
    (hlog : LogOf (max s.successMaxCount 1) attempts (l.store (memoryCheckKey userId))) :
    (memoryRateLimitHandler s userId r l).1 = attempted s attempts r ∧
      (memoryRateLimitHandler s userId r l).2.expirationDuration = l.expirationDuration ∧
      LogOf (max s.successMaxCount 1)
        (if attempted s attempts r then attempts else unix r.start :: attempts)
        ((memoryRateLimitHandler s userId r l).2.store (memoryCheckKey userId)) := by
  obtain ⟨hallowed, hafter⟩ := l.request_log (memoryCheckKey userId) s.successMaxCount s.duration
    (unix r.start) hsorted hlog
  have hexpiration := l.request_expirationDuration (memoryCheckKey userId) s.successMaxCount
    s.duration (unix r.start)
  have hattempted : attempted s attempts r =
      decide (Reached (max s.successMaxCount 1) (unix r.start - s.duration) attempts) := rfl
  rw [memoryRateLimitHandler]
  generalize l.request (memoryCheckKey userId) s.successMaxCount s.duration (unix r.start) = x
    at hallowed hafter hexpiration
  obtain ⟨allowed, l'⟩ := x
  simp only at hallowed hafter hexpiration
  simp only [hattempted, decide_eq_true_eq]
  cases allowed with
  | false => exact ⟨by simpa using hallowed, hexpiration, hafter⟩
  | true =>
    refine ⟨by simpa using hallowed, ?_, ?_⟩
    · simp only
      split
      · rw [InMemoryRateLimiter.request_expirationDuration, hexpiration]
      · exact hexpiration
    · have hrecord : (if r.ok then (l'.request (memorySuccessKey userId) s.successMaxCount s.duration
          (unix r.finish)).2 else l').store (memoryCheckKey userId) =
          l'.store (memoryCheckKey userId) := by
        split
        · exact l'.request_other (memoryCheckKey_ne userId) _ _ _
        · rfl
      simp only [hrecord]
      exact hafter

/-- The limiter in memory rejects what the attempts fill. -/
theorem memoryRejections_iff (s : Settings) (userId : String) (events : List Event) {now : Int}
    (horder : InOrder now events) {l : InMemoryRateLimiter} {successes attempts : List Int}
    (hsorted : attempts.Pairwise (· ≥ ·)) (hpast : ∀ t ∈ attempts, t ≤ unix now)
    (hlog : LogOf (max s.successMaxCount 1) attempts (l.store (memoryCheckKey userId))) :
    memoryRejections s userId l events = rejections s successes events ↔
      Proportionate s l.expirationDuration successes attempts events := by
  induction events generalizing now l successes attempts with
  | nil => simp [memoryRejections, rejections, Proportionate]
  | cons e events ih =>
    cases e with
    | clear t =>
      obtain ⟨hnow, horder⟩ := horder
      rw [memoryRejections, rejections, Proportionate]
      apply ih (l := l.clearExpiredItems (unix t)) horder (remembered_sorted _ _ hsorted)
      · intro u hu
        exact le_trans (hpast u (remembered_subset hu)) (unix_mono hnow)
      · exact remembered_log _ _ (by omega) hlog
    | request r =>
      obtain ⟨hnow, hfinish, horder⟩ := horder
      obtain ⟨hrejected, hexpiration, hafter⟩ :=
        memoryRateLimitHandler_log s userId r l hsorted hlog
      rw [memoryRejections, rejections, Proportionate, List.cons.injEq, hrejected]
      apply and_congr_right
      intro heq
      rw [heq] at hafter
      cases hrejects : rejects s successes r with
      | true =>
        rw [hrejects, if_pos rfl] at hafter
        rw [if_pos rfl, if_pos rfl, ← hexpiration]
        apply ih horder hsorted _ hafter
        intro u hu
        exact le_trans (hpast u hu) (unix_mono (le_trans hnow hfinish))
      | false =>
        rw [hrejects, if_neg Bool.false_ne_true] at hafter
        rw [if_neg Bool.false_ne_true, if_neg Bool.false_ne_true, ← hexpiration]
        have hstart : ∀ t ∈ attempts, t ≤ unix r.start := fun t ht =>
          le_trans (hpast t ht) (unix_mono hnow)
        apply ih horder (List.pairwise_cons.2 ⟨hstart, hsorted⟩) _ hafter
        intro u hu
        rcases List.mem_cons.1 hu with rfl | hu
        · exact unix_mono hfinish
        · exact le_trans (hstart u hu) (unix_mono hfinish)

theorem Redis.live_some {rdb : Redis} {key : String} {now : Int} {k : RedisKey}
    (h : rdb key = some k) (hlive : k.Live now) : rdb.live key now = some k := by
  rw [live, h, Option.filter_some, if_pos (decide_eq_true hlive)]

theorem Redis.live_expired {rdb : Redis} {key : String} {now : Int} {k : RedisKey}
    (h : rdb key = some k) (hlive : ¬ k.Live now) : rdb.live key now = none := by
  rw [live, h, Option.filter_some, if_neg (by simp [hlive])]

theorem Redis.live_eq_none_of {rdb : Redis} {key : String} {now : Int} (h : rdb key = none) :
    rdb.live key now = none := by rw [live, h, Option.filter_none]

@[simp] theorem Redis.put_self (rdb : Redis) (key : String) (value : Option RedisKey) :
    rdb.put key value key = value := by simp [put]

theorem Redis.live_spec {rdb : Redis} {key : String} {now : Int} {k : RedisKey}
    (h : rdb.live key now = some k) : rdb key = some k ∧ k.Live now := by
  rw [live, Option.filter_eq_some_iff] at h
  exact ⟨h.1, by simpa using h.2⟩

/-- The key after a success was recorded. -/
theorem recordRedisRequest_key (s : Settings) (rdb : Redis) (key : String) {maxCount : Nat}
    (hcount : maxCount ≠ 0) (now : Int) :
    recordRedisRequest s rdb key maxCount now key =
      if s.duration ≤ 0 then none
      else some ⟨(now :: rdb.items key now).take maxCount, some (now + 1000 * s.duration)⟩ := by
  have hpush : ∃ e, (rdb.lPush key now now).live key now = some ⟨now :: rdb.items key now, e⟩ ∧
      RedisKey.Live ⟨now :: rdb.items key now, e⟩ now := by
    rw [Redis.lPush, Redis.items]
    cases hkey : rdb.live key now with
    | none => exact ⟨none, Redis.live_some (Redis.put_self ..) nofun, nofun⟩
    | some k =>
      have hlive := (Redis.live_spec hkey).2
      exact ⟨k.expiresAt, Redis.live_some (Redis.put_self ..) hlive, hlive⟩
  obtain ⟨e, hpushed, hlive⟩ := hpush
  have htrim : ((rdb.lPush key now now).lTrim key (maxCount - 1) now).live key now =
      some ⟨(now :: rdb.items key now).take maxCount, e⟩ := by
    have hsucc : maxCount - 1 + 1 = maxCount := by omega
    have hlive' : RedisKey.Live ⟨(now :: rdb.items key now).take maxCount, e⟩ now := hlive
    apply Redis.live_some _ hlive'
    rw [Redis.lTrim, hpushed, Redis.put_self, hsucc]
    rfl
  rw [recordRedisRequest, if_neg hcount, Redis.expire, htrim, Redis.put_self, Option.bind_some]
  rfl

theorem Redis.expire_key (rdb : Redis) (key : String) (now : Int) {seconds : Int}
    (hitems : rdb.items key now ≠ []) (hseconds : 0 < seconds) :
    rdb.expire key seconds now key =
      some ⟨rdb.items key now, some (now + 1000 * seconds)⟩ := by
  rw [expire, put_self]
  rw [items] at hitems ⊢
  cases hlive : rdb.live key now with
  | none => simp [hlive] at hitems
  | some k =>
    rw [Option.bind_some, if_neg (not_le.2 hseconds)]
    rfl

/-- The list at the success key: a log of the successes since the key was made; those before are out
of the window. -/
structure SuccessLog (s : Settings) (now : Int) (successes : List Int) (key : Option RedisKey) :
    Prop where
  sorted : successes.Pairwise (· ≥ ·)
  past : ∀ t ∈ successes, t ≤ now
  log : s.successMaxCount ≠ 0 → ∃ live old, successes = live ++ old ∧
    (∀ t ∈ old, t + 1000 * s.duration ≤ now) ∧
    match key with
    | none => live = []
    | some key => key.items = live.take s.successMaxCount ∧
        ∃ e, key.expiresAt = some e ∧ ∀ t ∈ live, t + 1000 * s.duration ≤ e

theorem SuccessLog.later {s : Settings} {now now' : Int} {successes : List Int}
    {key : Option RedisKey} (h : SuccessLog s now successes key) (hnow : now ≤ now') :
    SuccessLog s now' successes key where
  sorted := h.sorted
  past t ht := le_trans (h.past t ht) hnow
  log hcount := by
    obtain ⟨live, old, heq, hold, hkey⟩ := h.log hcount
    exact ⟨live, old, heq, fun t ht => le_trans (hold t ht) hnow, hkey⟩

/-- The list of the live key is a log of successes that, with none left out, may be in the window. -/
theorem SuccessLog.items {s : Settings} {now : Int} {successes : List Int} {rdb : Redis}
    {key : String} (h : SuccessLog s now successes (rdb key)) (hcount : s.successMaxCount ≠ 0) :
    ∃ live old, successes = live ++ old ∧ (∀ t ∈ old, t + 1000 * s.duration ≤ now) ∧
      rdb.items key now = live.take s.successMaxCount := by
  obtain ⟨live, old, heq, hold, hkey⟩ := h.log hcount
  cases hk : rdb key with
  | none =>
    rw [hk] at hkey
    have hlive : live = [] := hkey
    refine ⟨live, old, heq, hold, ?_⟩
    rw [Redis.items, Redis.live_eq_none_of hk, hlive, List.take_nil]
    rfl
  | some k =>
    rw [hk] at hkey
    obtain ⟨hitems, e, he, hlive⟩ := hkey
    by_cases hnow : now < e
    · refine ⟨live, old, heq, hold, ?_⟩
      rw [Redis.items, Redis.live_some hk (by simpa [RedisKey.Live, he] using hnow)]
      exact hitems
    · refine ⟨[], live ++ old, heq, ?_, ?_⟩
      · intro t ht
        rcases List.mem_append.1 ht with ht | ht
        · exact le_trans (hlive t ht) (not_lt.1 hnow)
        · exact hold t ht
      · rw [Redis.items, Redis.live_expired hk (by simpa [RedisKey.Live, he] using hnow), List.take_nil]
        rfl

/-- The check at the success key. -/
theorem checkRedisRateLimit_log (s : Settings) {rdb : Redis} (key : String) {now : Int}
    {successes : List Int} (h : SuccessLog s now successes (rdb key)) :
    (checkRedisRateLimit s rdb key s.successMaxCount s.duration now).1 =
        !decide (0 < s.successMaxCount ∧
          Reached s.successMaxCount (now - 1000 * s.duration) successes) ∧
      SuccessLog s now successes
        ((checkRedisRateLimit s rdb key s.successMaxCount s.duration now).2 key) := by
  rw [checkRedisRateLimit]
  by_cases hcount : s.successMaxCount = 0
  · rw [if_pos hcount]
    exact ⟨by simp [hcount], h⟩
  rw [if_neg hcount]
  obtain ⟨live, old, heq, hold, hitems⟩ := h.items hcount
  obtain ⟨n, hn⟩ := Nat.exists_eq_succ_of_ne_zero hcount
  have hsorted : live.Pairwise (· ≥ ·) := by
    have hsorted := h.sorted
    rw [heq, List.pairwise_append] at hsorted
    exact hsorted.1
  have hreached : Reached s.successMaxCount (now - 1000 * s.duration) successes ↔
      s.successMaxCount ≤ (rdb.items key now).length ∧
        ∃ t, (rdb.items key now).getLast? = some t ∧ now - 1000 * s.duration < t := by
    rw [heq, reached_append_old fun t ht => by have := hold t ht; omega, hitems, hn]
    exact reached_iff_log hsorted _ n
  by_cases hroom : (rdb.items key now).length < s.successMaxCount
  · have hnot : ¬ Reached s.successMaxCount (now - 1000 * s.duration) successes := by
      rw [hreached]
      omega
    rw [if_pos hroom]
    exact ⟨by simp [hnot], h⟩
  rw [if_neg hroom]
  cases hlast : (rdb.items key now).getLast? with
  | none =>
    rw [List.getLast?_eq_none_iff] at hlast
    rw [hlast] at hroom
    simp at hroom
    omega
  | some oldTime =>
    have hmem : oldTime ∈ successes := by
      have hlog := List.mem_of_getLast? hlast
      rw [hitems] at hlog
      rw [heq]
      exact List.mem_append_left _ (List.mem_of_mem_take hlog)
    have hpast := h.past oldTime hmem
    have htime : (now - oldTime).tdiv 1000 < s.duration ↔
        Reached s.successMaxCount (now - 1000 * s.duration) successes := by
      rw [hreached, hlast, Int.tdiv_eq_ediv_of_nonneg (by omega)]
      simp only [Option.some.injEq, exists_eq_left']
      omega
    simp only
    split
    next hrecent =>
      have hyes := htime.1 hrecent
      have hpositive : 0 < s.duration := by
        rw [Int.tdiv_eq_ediv_of_nonneg (by omega)] at hrecent
        omega
      refine ⟨?_, h.sorted, h.past, fun _ => ⟨live, old, heq, hold, ?_⟩⟩
      · have hallowed : 0 < s.successMaxCount := by omega
        simp [hyes, hallowed]
      · have hexpire := rdb.expire_key key now (by rintro hnil; simp [hnil] at hlast) hpositive
        rw [hitems] at hexpire
        simp only [Settings.duration] at hexpire
        simp only [hexpire]
        refine ⟨trivial, _, rfl, fun t ht => ?_⟩
        have ht := h.past t (heq ▸ List.mem_append_left _ ht)
        simp only [Settings.duration]
        omega
    next hpassed =>
      have hnot := mt htime.2 hpassed
      exact ⟨by simp [hnot], h⟩

theorem recordRedisRequest_log (s : Settings) {rdb : Redis} (key : String) {now : Int}
    {successes : List Int} (h : SuccessLog s now successes (rdb key)) :
    SuccessLog s now (now :: successes)
      (recordRedisRequest s rdb key s.successMaxCount now key) where
  sorted := List.pairwise_cons.2 ⟨h.past, h.sorted⟩
  past t ht := by
    rcases List.mem_cons.1 ht with rfl | ht
    · exact le_refl t
    · exact h.past t ht
  log hcount := by
    obtain ⟨live, old, heq, hold, hitems⟩ := h.items hcount
    have hpast : ∀ t ∈ now :: successes, t ≤ now := by
      intro t ht
      rcases List.mem_cons.1 ht with rfl | ht
      · exact le_refl t
      · exact h.past t ht
    rw [recordRedisRequest_key s rdb key hcount, hitems]
    by_cases hduration : s.duration ≤ 0
    · rw [if_pos hduration]
      refine ⟨[], now :: successes, rfl, ?_, rfl⟩
      intro t ht
      have hle := hpast t ht
      omega
    · rw [if_neg hduration]
      refine ⟨now :: live, old, by rw [heq, List.cons_append], hold, ?_, _, rfl, ?_⟩
      · obtain ⟨n, hn⟩ := Nat.exists_eq_succ_of_ne_zero hcount
        rw [hn, List.take_succ_cons, List.take_succ_cons, List.take_take,
          Nat.min_eq_left (Nat.le_succ n)]
      · intro t ht
        have hle := hpast t (by
          rw [heq]
          exact List.mem_append_left old ht)
        omega

/-- A request at the limiter in Redis. -/
theorem redisRateLimitHandler_log (s : Settings) (userId : String) (r : Request) {rdb : Redis}
    {now : Int} (hnow : now ≤ r.start) (hfinish : r.start ≤ r.finish) {successes : List Int}
    (h : SuccessLog s now successes (rdb (redisSuccessKey userId))) :
    (redisRateLimitHandler s userId r rdb).1 = rejects s successes r ∧
      SuccessLog s r.finish (if rejects s successes r then successes else succeed r successes)
        ((redisRateLimitHandler s userId r rdb).2 (redisSuccessKey userId)) := by
  obtain ⟨hallowed, hafter⟩ := checkRedisRateLimit_log s (redisSuccessKey userId) (h.later hnow)
  have hrejects : rejects s successes r = decide (0 < s.successMaxCount ∧
      Reached s.successMaxCount (r.start - 1000 * s.duration) successes) := rfl
  rw [redisRateLimitHandler]
  generalize checkRedisRateLimit s rdb (redisSuccessKey userId) s.successMaxCount s.duration r.start =
    x at hallowed hafter
  obtain ⟨allowed, rdb'⟩ := x
  rw [← hrejects] at hallowed
  simp only at hallowed hafter
  cases allowed with
  | false =>
    have hyes : rejects s successes r = true := by simpa using hallowed
    rw [hyes]
    exact ⟨rfl, hafter.later hfinish⟩
  | true =>
    have hno : rejects s successes r = false := by simpa using hallowed
    rw [hno]
    refine ⟨rfl, ?_⟩
    simp only [succeed, Bool.false_eq_true, ↓reduceIte]
    split
    next hok => exact recordRedisRequest_log s (redisSuccessKey userId) (hafter.later hfinish)
    next => exact hafter.later hfinish

theorem redisRejections_eq (s : Settings) (userId : String) (events : List Event) {now : Int}
    (horder : InOrder now events) {rdb : Redis} {successes : List Int}
    (h : SuccessLog s now successes (rdb (redisSuccessKey userId))) :
    redisRejections s userId rdb events = rejections s successes events := by
  induction events generalizing now rdb successes with
  | nil => rfl
  | cons e events ih =>
    cases e with
    | clear t =>
      obtain ⟨hnow, horder⟩ := horder
      exact ih horder (h.later hnow)
    | request r =>
      obtain ⟨hnow, hfinish, horder⟩ := horder
      obtain ⟨hrejected, hafter⟩ := redisRateLimitHandler_log s userId r hnow hfinish h
      rw [redisRejections, rejections, hrejected, ih horder hafter]

end CodeGo.Platform.ModelRateLimit
