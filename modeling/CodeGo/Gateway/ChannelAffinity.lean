import CodeGo.Lib.Trim

/-!
# Channel affinity

`channel_affinity_cache.go` of the gateway runtime over `HybridCache`: which channel a client
prefers, with an index of the keys of each channel that every replica keeps for itself, and that
Redis keeps for all of them. Times are milliseconds.
-/

namespace CodeGo.Gateway.ChannelAffinity

open CodeGo.Lib.Trim

def channelAffinityCacheNamespace : String := "new-api:channel_affinity:v1"

def namespacePrefix : String := channelAffinityCacheNamespace ++ ":"

/-- `Namespace.FullKey`; a key without a full key is not stored. -/
def fullKey (key : String) : String :=
  let key := trimSpace key
  if key = "" then ""
  else if namespacePrefix.toList.isPrefixOf key.toList then key
  else namespacePrefix ++ String.ofList (key.toList.dropWhile (· = ':'))

/-- The gateway replicas; without Redis there is only one. -/
structure Cluster where
  Replica : Type
  [decEq : DecidableEq Replica]
  redisEnabled : Bool
  single : redisEnabled = false → ∀ r r' : Replica, r = r'

instance (k : Cluster) : DecidableEq k.Replica := k.decEq

structure Entry where
  channelID : Int
  expiresAt : Nat
  deriving DecidableEq, Repr

/-- The index of a channel in Redis, with one expiration for all its keys. -/
structure IndexSet where
  keys : List String
  expiresAt : Nat
  deriving DecidableEq, Repr

structure State (k : Cluster) where
  now : Nat := 0
  cache : String → Option Entry := fun _ => none
  channelAffinityIndex : k.Replica → Int → List String := fun _ _ => []
  redisIndex : Int → Option IndexSet := fun _ => none

section Operations

variable {k : Cluster}

/-- `GetPreferredChannel` by the full key. -/
def State.get (s : State k) (full : String) : Option Int :=
  ((s.cache full).filter fun e => s.now < e.expiresAt).map (·.channelID)

def setWithTTL (key : String) (channelID : Int) (ttl : Nat) (s : State k) : State k :=
  if fullKey key = "" then s
  else { s with cache := fun full =>
    if full = fullKey key then some ⟨channelID, s.now + ttl⟩ else s.cache full }

/-- `SMEMBERS`. -/
def State.redisKeys (s : State k) (channelID : Int) : List String :=
  (((s.redisIndex channelID).filter fun i => s.now < i.expiresAt).map (·.keys)).getD []

def recordChannelAffinityIndex (r : k.Replica) (channelID : Int) (cacheKey : String) (ttl : Nat)
    (s : State k) : State k :=
  if channelID ≤ 0 ∨ trimSpace cacheKey = "" then s
  else { s with
    channelAffinityIndex := fun r' c =>
      if r' = r ∧ c = channelID then cacheKey :: s.channelAffinityIndex r' c
      else s.channelAffinityIndex r' c
    -- the expiration of the whole set becomes that of the key
    redisIndex := fun c =>
      if k.redisEnabled ∧ c = channelID then
        some ⟨cacheKey :: s.redisKeys channelID, s.now + ttl⟩
      else s.redisIndex c }

def ttlOf (ttlSeconds : Int) : Nat := 1000 * (if ttlSeconds ≤ 0 then 3600 else ttlSeconds.toNat)

def recordPreferredChannel (r : k.Replica) (cacheKey : String) (channelID ttlSeconds : Int)
    (s : State k) : State k :=
  recordChannelAffinityIndex r channelID cacheKey (ttlOf ttlSeconds)
    (setWithTTL cacheKey channelID (ttlOf ttlSeconds) s)

def fullKeys (keys : List String) : List String := (keys.map fullKey).filter (· ≠ "")

def deleteMany (keys : List String) (s : State k) : State k :=
  { s with cache := fun full => if full ∈ fullKeys keys then none else s.cache full }

/-- The keys that a replica finds for a channel. -/
def State.indexKeys (s : State k) (r : k.Replica) (channelID : Int) : List String :=
  s.channelAffinityIndex r channelID ++ if k.redisEnabled then s.redisKeys channelID else []

def invalidateChannelAffinityForChannel (r : k.Replica) (channelID : Int) (s : State k) : State k :=
  if channelID ≤ 0 then s
  else deleteMany (s.indexKeys r channelID) { s with
    channelAffinityIndex := fun r' c =>
      if r' = r ∧ c = channelID then [] else s.channelAffinityIndex r' c
    redisIndex := fun c =>
      if k.redisEnabled ∧ c = channelID then none else s.redisIndex c }

def invalidatePreferredChannel (cacheKey : String) (s : State k) : State k :=
  if trimSpace cacheKey = "" then s else deleteMany [cacheKey] s

end Operations

section Runs

variable {k : Cluster}

inductive Op (k : Cluster) where
  | record (r : k.Replica) (cacheKey : String) (channelID ttlSeconds : Int)
  | invalidatePreferred (cacheKey : String)
  | wait (ms : Nat)
  /-- The memory cache is full and drops an entry. -/
  | evict (full : String)
  | invalidate (r : k.Replica) (channelID : Int)

def step (s : State k) : Op k → State k
  | .record r cacheKey channelID ttlSeconds =>
    recordPreferredChannel r cacheKey channelID ttlSeconds s
  | .invalidatePreferred cacheKey => invalidatePreferredChannel cacheKey s
  | .wait ms => { s with now := s.now + ms }
  | .evict full =>
    if k.redisEnabled then s
    else { s with cache := fun f => if f = full then none else s.cache f }
  | .invalidate r channelID => invalidateChannelAffinityForChannel r channelID s

/-- The invalidations of a run, each with the state before it. -/
def invalidations : State k → List (Op k) → List (State k × k.Replica × Int)
  | _, [] => []
  | s, op :: ops =>
    match op with
    | .invalidate r channelID => (s, r, channelID) :: invalidations (step s op) ops
    | _ => invalidations (step s op) ops

/-- The channel has no live entry any more, and those of the others are still there. -/
structure Exact (s : State k) (r : k.Replica) (channelID : Int) : Prop where
  gone : ∀ full, (invalidateChannelAffinityForChannel r channelID s).get full ≠ some channelID
  kept : ∀ full c, s.get full = some c → c ≠ channelID →
    (invalidateChannelAffinityForChannel r channelID s).get full = some c

end Runs

end CodeGo.Gateway.ChannelAffinity

/-!
# Whether an invalidation is exact

An invalidation deletes what the index names. It is exact while the index names the entries of the
channel and no others.
-/

namespace CodeGo.Gateway.ChannelAffinity

open CodeGo.Lib.Trim

variable {k : Cluster}

/-- The entries that an invalidation deletes. -/
def State.named (s : State k) (r : k.Replica) (channelID : Int) : List String :=
  if channelID ≤ 0 then [] else fullKeys (s.indexKeys r channelID)

theorem get_eq_some_iff {s : State k} {full : String} {c : Int} :
    s.get full = some c ↔ ∃ e, s.cache full = some e ∧ s.now < e.expiresAt ∧ e.channelID = c := by
  rw [State.get]
  cases s.cache full with
  | none => simp
  | some e =>
    by_cases hlive : s.now < e.expiresAt <;> simp [Option.filter_some, hlive]

theorem get_deleteMany (keys : List String) (s : State k) (full : String) :
    (deleteMany keys s).get full = if full ∈ fullKeys keys then none else s.get full := by
  rw [State.get, deleteMany]
  split <;> simp_all [State.get]

theorem get_invalidate (s : State k) (r : k.Replica) (channelID : Int) (full : String) :
    (invalidateChannelAffinityForChannel r channelID s).get full =
      if full ∈ s.named r channelID then none else s.get full := by
  rw [invalidateChannelAffinityForChannel, State.named]
  split
  · simp
  · exact get_deleteMany ..

/-- No entry of another channel is named. -/
def Fresh (s : State k) (r : k.Replica) (channelID : Int) : Prop :=
  ∀ full ∈ s.named r channelID, ∀ c, s.get full = some c → c = channelID

/-- Every live entry of the channel is named. -/
def Complete (s : State k) (r : k.Replica) (channelID : Int) : Prop :=
  ∀ full, s.get full = some channelID → full ∈ s.named r channelID

theorem exact_iff (s : State k) (r : k.Replica) (channelID : Int) :
    Exact s r channelID ↔ Fresh s r channelID ∧ Complete s r channelID := by
  constructor
  · intro h
    constructor
    · intro full hfull c hc
      by_contra hne
      have hkept := h.kept full c hc hne
      rw [get_invalidate, if_pos hfull] at hkept
      cases hkept
    · intro full hget
      by_contra hfull
      apply h.gone full
      rw [get_invalidate, if_neg hfull, hget]
  · rintro ⟨hfresh, hcomplete⟩
    constructor
    · intro full hget
      rw [get_invalidate] at hget
      split at hget
      · cases hget
      next hfull => exact hfull (hcomplete full hget)
    · intro full c hc hne
      rw [get_invalidate, if_neg fun hfull => hne (hfresh full hfull c hc), hc]

theorem fullKey_eq_empty_iff (key : String) : fullKey key = "" ↔ trimSpace key = "" := by
  show (if trimSpace key = "" then "" else if _ then _ else _) = "" ↔ _
  split
  next h => simp [h]
  next h =>
    split
    · exact Iff.rfl
    · constructor
      · intro happend
        have hlength := congrArg String.length happend
        rw [String.length_append] at hlength
        have hprefix : namespacePrefix.length = 28 := rfl
        have hempty : "".length = 0 := rfl
        omega
      · intro hkey
        exact absurd hkey h

theorem mem_fullKeys {full : String} {keys : List String} :
    full ∈ fullKeys keys ↔ full ≠ "" ∧ ∃ key ∈ keys, fullKey key = full := by
  rw [fullKeys, List.mem_filter, List.mem_map]
  simp [and_comm]

/-- A key is only recorded for a channel that has an index, while no index of another channel names
it, and for as long as the entries of the channel live. -/
def Careful (s : State k) : Op k → Prop
  | .record _ cacheKey channelID ttlSeconds =>
    fullKey cacheKey = "" ∨ 0 < channelID ∧
      (∀ r c, c ≠ channelID → fullKey cacheKey ∉ s.named r c) ∧
      (k.redisEnabled → ∀ full e, s.cache full = some e → s.now < e.expiresAt →
        e.channelID = channelID → e.expiresAt ≤ s.now + ttlOf ttlSeconds)
  | _ => True

/-- The index holds the entry, and for as long as the entry lives. -/
def Indexed (s : State k) (full : String) (e : Entry) : Prop :=
  if k.redisEnabled then ∃ i, s.redisIndex e.channelID = some i ∧
    full ∈ fullKeys i.keys ∧ e.expiresAt ≤ i.expiresAt
  else ∀ r, full ∈ fullKeys (s.channelAffinityIndex r e.channelID)

structure Inv (s : State k) : Prop where
  positive : ∀ full e, s.cache full = some e → s.now < e.expiresAt → 0 < e.channelID
  indexed : ∀ full e, s.cache full = some e → s.now < e.expiresAt → Indexed s full e
  fresh : ∀ r c, Fresh s r c

theorem Inv.complete {s : State k} (h : Inv s) (r : k.Replica) (channelID : Int) :
    Complete s r channelID := by
  intro full hget
  obtain ⟨e, hcache, hlive, rfl⟩ := get_eq_some_iff.1 hget
  have hpositive := h.positive full e hcache hlive
  have hindexed := h.indexed full e hcache hlive
  rw [State.named, if_neg (by omega), State.indexKeys]
  rw [Indexed] at hindexed
  split at hindexed
  next hredis =>
    obtain ⟨i, hi, hmem, hexpires⟩ := hindexed
    have hkeys : s.redisKeys e.channelID = i.keys := by
      rw [State.redisKeys, hi, Option.filter_some, if_pos (by simp; omega)]
      rfl
    rw [if_pos hredis, hkeys, mem_fullKeys]
    obtain ⟨hne, key, hkey, hfull⟩ := mem_fullKeys.1 hmem
    exact ⟨hne, key, List.mem_append_right _ hkey, hfull⟩
  next hredis =>
    rw [if_neg hredis, List.append_nil]
    exact hindexed r

theorem Inv.exact {s : State k} (h : Inv s) (r : k.Replica) (channelID : Int) :
    Exact s r channelID :=
  (exact_iff s r channelID).2 ⟨h.fresh r channelID, h.complete r channelID⟩

theorem mem_named {s : State k} {r : k.Replica} {c : Int} {full : String} :
    full ∈ s.named r c ↔ 0 < c ∧ full ≠ "" ∧ ∃ key, fullKey key = full ∧
      (key ∈ s.channelAffinityIndex r c ∨ k.redisEnabled ∧ key ∈ s.redisKeys c) := by
  rw [State.named]
  split
  next h =>
    simp only [List.not_mem_nil, false_iff]
    omega
  next h =>
    rw [mem_fullKeys, State.indexKeys]
    have hpositive : 0 < c := by omega
    simp only [hpositive, true_and, List.mem_append]
    apply and_congr_right
    intro _
    apply exists_congr
    intro key
    cases k.redisEnabled <;> simp [and_comm]

theorem mem_redisKeys {s : State k} {c : Int} {key : String} :
    key ∈ s.redisKeys c ↔ ∃ i, s.redisIndex c = some i ∧ s.now < i.expiresAt ∧ key ∈ i.keys := by
  rw [State.redisKeys]
  cases s.redisIndex c with
  | none => simp
  | some i => by_cases hlive : s.now < i.expiresAt <;> simp [Option.filter_some, hlive]

/-- Entries that are dropped or expire take nothing from the index. -/
theorem Inv.shrunk {s s' : State k} (h : Inv s) (hnow : s.now ≤ s'.now)
    (hcache : ∀ full e, s'.cache full = some e → s.cache full = some e)
    (hindex : s'.channelAffinityIndex = s.channelAffinityIndex)
    (hredis : s'.redisIndex = s.redisIndex) : Inv s' where
  positive full e he hlive := h.positive full e (hcache full e he) (by omega)
  indexed full e he hlive := by
    have hindexed := h.indexed full e (hcache full e he) (by omega)
    rw [Indexed] at hindexed ⊢
    rw [hindex, hredis]
    exact hindexed
  fresh r c full hfull c' hc' := by
    obtain ⟨e, he, hlive, hchannel⟩ := get_eq_some_iff.1 hc'
    obtain ⟨hpositive, hne, key, hkey, hwhere⟩ := mem_named.1 hfull
    apply h.fresh r c full
    · rw [mem_named, ← hindex]
      refine ⟨hpositive, hne, key, hkey, hwhere.imp id ?_⟩
      rintro ⟨henabled, hmem⟩
      obtain ⟨i, hi, hindexLive, hmem⟩ := mem_redisKeys.1 hmem
      exact ⟨henabled, mem_redisKeys.2 ⟨i, by rw [← hredis, hi], by omega, hmem⟩⟩
    · exact get_eq_some_iff.2 ⟨e, hcache full e he, by omega, hchannel⟩

theorem Inv.deleteMany {s : State k} (h : Inv s) (keys : List String) :
    Inv (ChannelAffinity.deleteMany keys s) := by
  refine h.shrunk (Nat.le_refl _) ?_ rfl rfl
  intro full e he
  simp only [ChannelAffinity.deleteMany] at he
  split at he
  · cases he
  · exact he

/-- What is left of the index of another channel, or of another replica. -/
theorem invalidate_index (s : State k) (r : k.Replica) (channelID : Int) :
    (∀ c, c ≠ channelID →
      (invalidateChannelAffinityForChannel r channelID s).redisIndex c = s.redisIndex c ∧
        ∀ r', (invalidateChannelAffinityForChannel r channelID s).channelAffinityIndex r' c =
          s.channelAffinityIndex r' c) ∧
    (∀ r' c, ∀ key ∈ (invalidateChannelAffinityForChannel r channelID s).channelAffinityIndex r' c,
      key ∈ s.channelAffinityIndex r' c) ∧
    ∀ c i, (invalidateChannelAffinityForChannel r channelID s).redisIndex c = some i →
      s.redisIndex c = some i := by
  rw [invalidateChannelAffinityForChannel]
  split
  · exact ⟨fun _ _ => ⟨rfl, fun _ => rfl⟩, fun _ _ _ h => h, fun _ _ h => h⟩
  · refine ⟨?_, ?_, ?_⟩
    · intro c hc
      simp [deleteMany, hc]
    · intro r' c key hkey
      simp only [deleteMany] at hkey
      split at hkey
      · cases hkey
      · exact hkey
    · intro c i hi
      simp only [deleteMany] at hi
      split at hi
      · cases hi
      · exact hi

theorem invalidate_cache {s : State k} {r : k.Replica} {channelID : Int} {full : String} {e : Entry}
    (h : (invalidateChannelAffinityForChannel r channelID s).cache full = some e) :
    s.cache full = some e := by
  rw [invalidateChannelAffinityForChannel] at h
  split at h
  · exact h
  · simp only [deleteMany] at h
    split at h
    · cases h
    · exact h

theorem invalidate_now (s : State k) (r : k.Replica) (channelID : Int) :
    (invalidateChannelAffinityForChannel r channelID s).now = s.now := by
  rw [invalidateChannelAffinityForChannel]
  split <;> rfl

theorem Inv.invalidate {s : State k} (h : Inv s) (r : k.Replica) (channelID : Int) :
    Inv (invalidateChannelAffinityForChannel r channelID s) where
  positive full e he hlive :=
    h.positive full e (invalidate_cache he) (by rwa [invalidate_now] at hlive)
  indexed full e he hlive := by
    have hne : e.channelID ≠ channelID := by
      intro heq
      exact (h.exact r channelID).gone full (get_eq_some_iff.2 ⟨e, he, hlive, heq⟩)
    have hindexed := h.indexed full e (invalidate_cache he) (by rwa [invalidate_now] at hlive)
    obtain ⟨hother, -, -⟩ := invalidate_index s r channelID
    obtain ⟨hredis, hindex⟩ := hother e.channelID hne
    rw [Indexed] at hindexed ⊢
    simp only [hredis, hindex]
    exact hindexed
  fresh r' c full hfull c' hc' := by
    obtain ⟨e, he, hlive, hchannel⟩ := get_eq_some_iff.1 hc'
    obtain ⟨hpositive, hne, key, hkey, hwhere⟩ := mem_named.1 hfull
    obtain ⟨-, hindex, hredis⟩ := invalidate_index s r channelID
    rw [invalidate_now] at hlive
    apply h.fresh r' c full
    · refine mem_named.2 ⟨hpositive, hne, key, hkey, hwhere.imp (hindex r' c key) ?_⟩
      rintro ⟨henabled, hmem⟩
      obtain ⟨i, hi, hindexLive, hmem⟩ := mem_redisKeys.1 hmem
      rw [invalidate_now] at hindexLive
      exact ⟨henabled, mem_redisKeys.2 ⟨i, hredis c i hi, hindexLive, hmem⟩⟩
    · exact get_eq_some_iff.2 ⟨e, invalidate_cache he, hlive, hchannel⟩

/-- What a record leaves behind. -/
structure Recorded (s s' : State k) (r : k.Replica) (cacheKey : String) (channelID : Int)
    (ttl : Nat) : Prop where
  now : s'.now = s.now
  cache : ∀ full, s'.cache full =
    if full = fullKey cacheKey then some ⟨channelID, s.now + ttl⟩ else s.cache full
  index : ∀ r' c, s'.channelAffinityIndex r' c =
    if r' = r ∧ c = channelID then cacheKey :: s.channelAffinityIndex r' c
    else s.channelAffinityIndex r' c
  redisIndex : ∀ c, s'.redisIndex c =
    if k.redisEnabled ∧ c = channelID then some ⟨cacheKey :: s.redisKeys channelID, s.now + ttl⟩
    else s.redisIndex c

theorem recorded (s : State k) (r : k.Replica) {cacheKey : String} {channelID : Int}
    (ttlSeconds : Int) (hkey : fullKey cacheKey ≠ "") (hpositive : 0 < channelID) :
    Recorded s (recordPreferredChannel r cacheKey channelID ttlSeconds s) r cacheKey channelID
      (ttlOf ttlSeconds) := by
  have htrim : trimSpace cacheKey ≠ "" := mt (fullKey_eq_empty_iff cacheKey).2 hkey
  have hindexed : ¬ (channelID ≤ 0 ∨ trimSpace cacheKey = "") := by
    rintro (hle | hempty)
    · omega
    · exact htrim hempty
  rw [recordPreferredChannel, recordChannelAffinityIndex, setWithTTL, if_neg hkey, if_neg hindexed]
  exact ⟨rfl, fun _ => rfl, fun _ _ => rfl, fun _ => rfl⟩

section Record

variable {s s' : State k} {r : k.Replica} {cacheKey : String} {channelID : Int} {ttl : Nat}

/-- Only the channel itself is named for the key, and a key of another entry was named before. -/
theorem Recorded.named_before (h : Recorded s s' r cacheKey channelID ttl) {r' : k.Replica} {c : Int}
    {full : String} (hnamed : full ∈ s'.named r' c)
    (hother : full ≠ fullKey cacheKey ∨ c ≠ channelID) : full ∈ s.named r' c := by
  obtain ⟨hpositive, hne, key, hkey, hwhere⟩ := mem_named.1 hnamed
  refine mem_named.2 ⟨hpositive, hne, key, hkey, hwhere.imp ?_ ?_⟩
  · intro hmem
    rw [h.index] at hmem
    split at hmem
    next hsame =>
      rcases List.mem_cons.1 hmem with rfl | hmem
      · exact absurd hkey (Ne.symm (hother.resolve_right (not_not_intro hsame.2)))
      · exact hmem
    next => exact hmem
  · rintro ⟨henabled, hmem⟩
    refine ⟨henabled, ?_⟩
    obtain ⟨i, hi, hlive, hmem⟩ := mem_redisKeys.1 hmem
    rw [h.now] at hlive
    rw [h.redisIndex] at hi
    split at hi
    next hsame =>
      cases hi
      rcases List.mem_cons.1 hmem with rfl | hmem
      · exact absurd hkey (Ne.symm (hother.resolve_right (not_not_intro hsame.2)))
      · rw [hsame.2]
        exact hmem
    next => exact mem_redisKeys.2 ⟨i, hi, hlive, hmem⟩

theorem Recorded.get_self (h : Recorded s s' r cacheKey channelID ttl) {c : Int}
    (hget : s'.get (fullKey cacheKey) = some c) : c = channelID := by
  obtain ⟨e, he, -, rfl⟩ := get_eq_some_iff.1 hget
  rw [h.cache, if_pos rfl] at he
  cases he
  rfl

theorem Recorded.get_other (h : Recorded s s' r cacheKey channelID ttl) {full : String}
    (hne : full ≠ fullKey cacheKey) : s'.get full = s.get full := by
  rw [State.get, State.get, h.cache, if_neg hne, h.now]

end Record

/-- A key that is recorded with care. -/
theorem Inv.record {s : State k} (h : Inv s) (r : k.Replica) (cacheKey : String)
    (channelID ttlSeconds : Int) (hcareful : Careful s (.record r cacheKey channelID ttlSeconds)) :
    Inv (recordPreferredChannel r cacheKey channelID ttlSeconds s) := by
  by_cases hblank : fullKey cacheKey = ""
  · have hsame : recordPreferredChannel r cacheKey channelID ttlSeconds s = s := by
      have htrim := (fullKey_eq_empty_iff cacheKey).1 hblank
      rw [recordPreferredChannel, recordChannelAffinityIndex, setWithTTL, if_pos (.inr htrim),
        if_pos hblank]
    rw [hsame]
    exact h
  obtain ⟨hpositive, hfresh, hcovered⟩ := hcareful.resolve_left hblank
  have hrecorded := recorded s r ttlSeconds hblank hpositive
  generalize recordPreferredChannel r cacheKey channelID ttlSeconds s = s' at hrecorded
  constructor
  · intro full e he hlive
    rw [hrecorded.cache] at he
    rw [hrecorded.now] at hlive
    split at he
    · cases he
      exact hpositive
    · exact h.positive full e he hlive
  · intro full e he hlive
    rw [hrecorded.cache] at he
    rw [hrecorded.now] at hlive
    rw [Indexed]
    simp only [hrecorded.redisIndex, hrecorded.index]
    split at he
    next hfull =>
      cases he
      have hmem : ∀ keys, full ∈ fullKeys (cacheKey :: keys) := fun keys =>
        mem_fullKeys.2 ⟨hfull ▸ hblank, cacheKey, List.mem_cons_self .., hfull.symm⟩
      split
      next henabled =>
        rw [if_pos ⟨henabled, rfl⟩]
        exact ⟨_, rfl, hmem _, Nat.le_refl _⟩
      next henabled =>
        intro r'
        rw [if_pos ⟨k.single (by simpa using henabled) r' r, rfl⟩]
        exact hmem _
    next hfull =>
      have hindexed := h.indexed full e he hlive
      rw [Indexed] at hindexed
      split at hindexed
      next henabled =>
        rw [if_pos henabled]
        obtain ⟨i, hi, hmem, hexpires⟩ := hindexed
        split
        next hsame =>
          have hkeys : s.redisKeys channelID = i.keys := by
            rw [State.redisKeys, ← hsame.2, hi, Option.filter_some, if_pos (by simp; omega)]
            rfl
          refine ⟨_, rfl, ?_, hcovered henabled full e he hlive hsame.2⟩
          obtain ⟨hne, key, hkey, hfull⟩ := mem_fullKeys.1 hmem
          rw [hkeys]
          exact mem_fullKeys.2 ⟨hne, key, List.mem_cons_of_mem _ hkey, hfull⟩
        next => exact ⟨i, hi, hmem, hexpires⟩
      next henabled =>
        rw [if_neg henabled]
        intro r'
        obtain ⟨hne, key, hkey, hfull⟩ := mem_fullKeys.1 (hindexed r')
        split
        · exact mem_fullKeys.2 ⟨hne, key, List.mem_cons_of_mem _ hkey, hfull⟩
        · exact hindexed r'
  · intro r' c full hnamed c' hget
    by_cases hfull : full = fullKey cacheKey
    · subst hfull
      by_contra hne
      have hother : c ≠ channelID := by
        rintro rfl
        exact hne (hrecorded.get_self hget)
      exact hfresh r' c hother (hrecorded.named_before hnamed (.inr hother))
    · rw [hrecorded.get_other hfull] at hget
      exact h.fresh r' c full (hrecorded.named_before hnamed (.inl hfull)) c' hget

theorem Inv.step {s : State k} (h : Inv s) (op : Op k) (hcareful : Careful s op) :
    Inv (ChannelAffinity.step s op) := by
  cases op with
  | record r cacheKey channelID ttlSeconds => exact h.record r cacheKey channelID ttlSeconds hcareful
  | invalidatePreferred cacheKey =>
    show Inv (invalidatePreferredChannel cacheKey s)
    rw [invalidatePreferredChannel]
    split
    · exact h
    · exact h.deleteMany _
  | wait ms => exact h.shrunk (Nat.le_add_right ..) (fun _ _ he => he) rfl rfl
  | evict full =>
    rw [ChannelAffinity.step]
    split
    · exact h
    · refine h.shrunk (Nat.le_refl _) ?_ rfl rfl
      intro f e he
      simp only at he
      split at he
      · cases he
      · exact he
  | invalidate r channelID => exact h.invalidate r channelID

/-- Every step of the run is careful. -/
def AllCareful : State k → List (Op k) → Prop
  | _, [] => True
  | s, op :: ops => Careful s op ∧ AllCareful (step s op) ops

theorem Inv.invalidations {s : State k} (h : Inv s) (ops : List (Op k)) (hcareful : AllCareful s ops) :
    ∀ x ∈ ChannelAffinity.invalidations s ops, Inv x.1 := by
  induction ops generalizing s with
  | nil => exact fun _ hx => nomatch hx
  | cons op ops ih =>
    obtain ⟨hop, hrest⟩ := hcareful
    have hnext := ih (h.step op hop) hrest
    intro x hx
    cases op with
    | invalidate r channelID =>
      rcases List.mem_cons.1 hx with rfl | hx
      · exact h
      · exact hnext x hx
    | _ => exact hnext x hx

def twoReplicas : Cluster where
  Replica := Bool
  redisEnabled := true
  single := nofun

end CodeGo.Gateway.ChannelAffinity
