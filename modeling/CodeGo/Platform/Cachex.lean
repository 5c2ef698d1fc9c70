import CodeGo.Lib.Expiring
import CodeGo.Lib.Glob
import CodeGo.Lib.Strip
import Mathlib.Data.List.DropRight
import Mathlib.Data.PNat.Notation

/-!
# The hybrid cache

`HybridCache` keeps its entries in Redis when it is enabled, and in a cache of the process
otherwise. A key is trimmed and put under the namespace of the cache (`fullKey`). A batch is
deleted key by key; `deleteByPrefix` first looks for the keys under a prefix. The process' cache
compares the prefix as text, Redis reads it as a glob pattern (`found`).

Strings are lists of bytes. Times and TTLs count in one unit, and an entry is gone from the moment
its TTL has passed, in both backends.
-/

namespace CodeGo.Platform.Cachex

open Lib.Expiring Lib.Glob

/-- A string. -/
abbrev Bytes := List UInt8

def colon : UInt8 := 58

/-- The UTF-8 encodings of the code points with the White_Space property. -/
def spaces : List Bytes :=
  [[9], [10], [11], [12], [13], [32], [0xC2, 0x85], [0xC2, 0xA0], [0xE1, 0x9A, 0x80],
    [0xE2, 0x80, 0x80], [0xE2, 0x80, 0x81], [0xE2, 0x80, 0x82], [0xE2, 0x80, 0x83],
    [0xE2, 0x80, 0x84], [0xE2, 0x80, 0x85], [0xE2, 0x80, 0x86], [0xE2, 0x80, 0x87],
    [0xE2, 0x80, 0x88], [0xE2, 0x80, 0x89], [0xE2, 0x80, 0x8A], [0xE2, 0x80, 0xA8],
    [0xE2, 0x80, 0xA9], [0xE2, 0x80, 0xAF], [0xE2, 0x81, 0x9F], [0xE3, 0x80, 0x80]]

/-- `strings.TrimSpace`. -/
def trimSpace (s : Bytes) : Bytes := Lib.Strip.strip spaces s

/-- `strings.TrimLeft` of colons. -/
def trimLeft (s : Bytes) : Bytes := s.dropWhile (· == colon)

/-- `strings.TrimRight` of colons. -/
def trimRight (s : Bytes) : Bytes := s.rdropWhile (· == colon)

/-- `Namespace.prefix`. -/
def keyPrefix (n : Bytes) : Bytes :=
  let ns := trimRight (trimSpace n)
  if ns = [] then [] else ns ++ [colon]

/-- `Namespace.FullKey`. -/
def fullKey (n key : Bytes) : Bytes :=
  let key := trimSpace key
  if key = [] then []
  else
    let p := keyPrefix n
    if p = [] then trimLeft key
    else if p.isPrefixOf key then key
    else p ++ trimLeft key

/-- The namespaced prefix with a colon at its end. -/
def fullPrefix (n p : Bytes) : Bytes :=
  let full := fullKey n p
  if [colon].isSuffixOf full then full else full ++ [colon]

/-- `ValueCodec`, when decoding gives back what was encoded. -/
structure Codec (V ε : Type) where
  encode : V → Except ε Bytes
  decode : Bytes → Except ε V
  lossless : ∀ v, ∃ raw, encode v = .ok raw ∧ decode raw = .ok v

/-- A Redis keyspace. -/
abbrev Keyspace := Store Bytes Bytes

/-- `SCAN` with a pattern: the pages up to the one whose cursor is zero. A key that is there and
matches is in some page, perhaps in several; no other key is. -/
structure Scan where
  pages : Keyspace → Nat → Bytes → List (List Bytes)
  mem_pages : ∀ ks now pattern key, key ∈ (pages ks now pattern).flatten ↔
    (live ks now key).isSome ∧ glob pattern key = true

/-- `hot.HotCache`, which is not part of the repository: the operations used of it, and what each
does to the entries that are there. Its documentation leaves open what `DeleteMany` answers for a
key that is there and is listed more than once; `repeated` is that answer. -/
structure HotCache (M V : Type) where
  new : M
  get : M → Nat → Bytes → Option V
  setWithTTL : M → Nat → Bytes → V → ℕ+ → M
  keys : M → Nat → List Bytes
  deleteMany : M → Nat → List Bytes → (Finmap fun _ : Bytes => Bool) × M
  repeated : Bool
  get_new : ∀ now key, get new now key = none
  get_set : ∀ m now later key other v ttl, now ≤ later →
    get (setWithTTL m now key v ttl) later other =
      if other = key then (if later < now + ttl then some v else none) else get m later other
  mem_keys : ∀ m now key, key ∈ keys m now ↔ (get m now key).isSome
  nodup_keys : ∀ m now, (keys m now).Nodup
  get_deleteMany : ∀ m now later keys key, now ≤ later →
    get (deleteMany m now keys).2 later key = if key ∈ keys then none else get m later key
  lookup_deleteMany : ∀ m now keys key, (deleteMany m now keys).1.lookup key =
    if key ∈ keys then some ((get m now key).isSome && (decide (keys.count key = 1) || repeated))
    else none

/-- What a cache is built from. -/
structure HybridCache (M V ε : Type) where
  ns : Bytes
  redisCodec : Codec V ε
  redis : Scan
  memory : HotCache M V

/-- Where a cache keeps its entries. -/
inductive Backend (M : Type) where
  | redis (keyspace : Keyspace)
  | memory (cache : M)

/-- A call of the cache. -/
inductive Call (V ε : Type) where
  | get (key : Bytes)
  | setWithTTL (key : Bytes) (v : V) (ttl : ℕ+)
  | updateWithTTL (key : Bytes) (ttl : ℕ+) (update : V → Bool → Except ε V)
  | deleteMany (keys : List Bytes)
  | deleteByPrefix (p : Bytes)

/-- What a call returns. -/
inductive Result (V ε : Type) where
  | got (r : Except ε (V × Bool))
  | done (r : Except ε Unit)
  | report (res : Finmap fun _ : Bytes => Bool)
  | deleted (count : Nat)

/-- A value and whether it was found; the zero value when it was not. -/
def found? {V : Type} [Inhabited V] : Option V → V × Bool
  | some v => (v, true)
  | none => (default, false)

section Cache

variable {M V ε : Type} [Inhabited V] (c : HybridCache M V ε)

/-- Reads the entry of a full key. -/
def HybridCache.read (now : Nat) (full : Bytes) : Backend M → Except ε (V × Bool)
  | .redis ks =>
    match live ks now full with
    | some raw => (c.redisCodec.decode raw).map fun v => (v, true)
    | none => .ok (default, false)
  | .memory m => .ok (found? (c.memory.get m now full))

/-- Writes the entry of a full key. -/
def HybridCache.write (now : Nat) (full : Bytes) (v : V) (ttl : ℕ+) :
    Backend M → Except ε Unit × Backend M
  | .redis ks =>
    match c.redisCodec.encode v with
    | .error e => (.error e, .redis ks)
    | .ok raw => (.ok (), .redis (put ks now full raw ttl))
  | .memory m => (.ok (), .memory (c.memory.setWithTTL m now full v ttl))

def HybridCache.get (now : Nat) (b : Backend M) (key : Bytes) : Except ε (V × Bool) :=
  let full := fullKey c.ns key
  if full = [] then .ok (default, false) else c.read now full b

def HybridCache.setWithTTL (now : Nat) (b : Backend M) (key : Bytes) (v : V) (ttl : ℕ+) :
    Except ε Unit × Backend M :=
  let full := fullKey c.ns key
  if full = [] then (.ok (), b) else c.write now full v ttl b

/-- The calls come one after the other: nobody writes the key between the read and the write, and
the first attempt of the Redis transaction goes through. -/
def HybridCache.updateWithTTL (now : Nat) (b : Backend M) (key : Bytes) (ttl : ℕ+)
    (update : V → Bool → Except ε V) : Except ε Unit × Backend M :=
  let full := fullKey c.ns key
  if full = [] then (.ok (), b)
  else
    match c.read now full b with
    | .error e => (.error e, b)
    | .ok (current, found) =>
      match update current found with
      | .error e => (.error e, b)
      | .ok next => c.write now full next ttl b

def HybridCache.fullKeys (keys : List Bytes) : List Bytes :=
  (keys.map (fullKey c.ns)).filter (· ≠ [])

def HybridCache.deleteMany (now : Nat) (b : Backend M) (keys : List Bytes) :
    (Finmap fun _ : Bytes => Bool) × Backend M :=
  let fullKeys := c.fullKeys keys
  if fullKeys = [] then (∅, b)
  else
    match b with
    | .redis ks =>
      let (answers, ks') := removeAll ks now fullKeys
      (record fullKeys answers, .redis ks')
    | .memory m =>
      let (res, m') := c.memory.deleteMany m now fullKeys
      (res, .memory m')

/-- The keys `DeleteByPrefix` looks up: `SCAN` reads the prefix and a star as a pattern, the keys of
the process' cache are compared with the prefix. -/
def HybridCache.found (now : Nat) (full : Bytes) : Backend M → List Bytes
  | .redis ks => (c.redis.pages ks now (full ++ [star])).flatten
  | .memory m => (c.memory.keys m now).filter fun k => full.isPrefixOf k

/-- The answers that are true. -/
def countTrue (res : Finmap fun _ : Bytes => Bool) : Nat :=
  (res.keys.filter fun key => res.lookup key = some true).card

def HybridCache.deleteByPrefix (now : Nat) (b : Backend M) (p : Bytes) : Nat × Backend M :=
  if fullKey c.ns p = [] then (0, b)
  else
    let keys := c.found now (fullPrefix c.ns p) b
    if keys = [] then (0, b)
    else
      let (res, b') := c.deleteMany now b keys
      (countTrue res, b')

def HybridCache.perform (now : Nat) (b : Backend M) : Call V ε → Result V ε × Backend M
  | .get key => (.got (c.get now b key), b)
  | .setWithTTL key v ttl =>
    let (err, b') := c.setWithTTL now b key v ttl
    (.done err, b')
  | .updateWithTTL key ttl update =>
    let (err, b') := c.updateWithTTL now b key ttl update
    (.done err, b')
  | .deleteMany keys =>
    let (res, b') := c.deleteMany now b keys
    (.report res, b')
  | .deleteByPrefix p =>
    let (count, b') := c.deleteByPrefix now b p
    (.deleted count, b')

end Cache

section Spec

variable {M V ε : Type} [Inhabited V] (c : HybridCache M V ε)

/-- The value a key holds at a time. -/
def HybridCache.contents (t : Nat) (key : Bytes) : Backend M → Option V
  | .redis ks => (live ks t key).bind fun raw => (c.redisCodec.decode raw).toOption
  | .memory m => c.memory.get m t key

/-- The key starts with the namespaced prefix followed by a colon. -/
def Within (n p key : Bytes) : Prop := fullKey n p ≠ [] ∧ fullPrefix n p <+: key

instance (n p key : Bytes) : Decidable (Within n p key) := inferInstanceAs (Decidable (_ ∧ _))

/-- `DeleteByPrefix` removes the entries under the prefix and no other. -/
def HybridCache.RemovesWithin (now : Nat) (b : Backend M) (p : Bytes) : Prop :=
  ∀ key, c.contents now key (c.deleteByPrefix now b p).2 =
    if Within c.ns p key then none else c.contents now key b

/-- A call returns the same from both backends, and removes what it has to. -/
def HybridCache.Agrees (now : Nat) (r m : Backend M) (call : Call V ε) : Prop :=
  (c.perform now r call).1 = (c.perform now m call).1 ∧
    match call with
    | .deleteByPrefix p => c.RemovesWithin now r p ∧ c.RemovesWithin now m p
    | _ => True

/-- A deletion is one that both backends carry out alike: no stored key is listed twice in a batch
(unless the process' cache, too, answers no for it); and the keys under a prefix stay as they are
when they are put under the namespace, are just those the pattern leads to, and are listed once by
`SCAN`. -/
def HybridCache.Careful (now : Nat) (r _m : Backend M) : Call V ε → Prop
  | .deleteMany keys => c.memory.repeated = false ∨
    ∀ key, (c.contents now key r).isSome → (c.fullKeys keys).count key ≤ 1
  | .deleteByPrefix p => fullKey c.ns p ≠ [] →
    let full := fullPrefix c.ns p
    (∀ key, (c.contents now key r).isSome → full <+: key → fullKey c.ns key = key) ∧
    (∀ key, (c.contents now key r).isSome →
      ((∃ k, (c.contents now k r).isSome ∧ glob (full ++ [star]) k = true ∧ fullKey c.ns k = key) ↔
        full <+: key)) ∧
    ∀ key, (c.contents now key r).isSome → full <+: key →
      (c.fullKeys (c.found now full r)).count key ≤ 1
  | _ => True

/-- What holds of every call of a run, each made some time after the one before, and of the two
backends it finds. -/
def HybridCache.Along (P : Nat → Backend M → Backend M → Call V ε → Prop) :
    Nat → Backend M → Backend M → List (Nat × Call V ε) → Prop
  | _, _, _, [] => True
  | now, r, m, (elapsed, call) :: calls =>
    P (now + elapsed) r m call ∧
      Along P (now + elapsed) (c.perform (now + elapsed) r call).2
        (c.perform (now + elapsed) m call).2 calls

end Spec

section Laws

variable {M V ε : Type} {c : HybridCache M V ε} {now t : Nat} {key full : Bytes}
  {ks : Keyspace} {b : Backend M}

/-- Every text in Redis is the encoding of a value. -/
def HybridCache.Sound (c : HybridCache M V ε) : Backend M → Prop
  | .redis ks => ∀ t key raw, live ks t key = some raw → ∃ v, c.redisCodec.decode raw = .ok v
  | .memory _ => True

/-- What the backend answers for a key that is there and listed more than once. -/
def HybridCache.again (c : HybridCache M V ε) : Backend M → Bool
  | .redis _ => false
  | .memory _ => c.memory.repeated

theorem read_eq [Inhabited V] (hsound : c.Sound b) : c.read now full b = .ok (found? (c.contents now full b)) := by
  cases b with
  | memory m => rfl
  | redis ks =>
    rw [HybridCache.read, HybridCache.contents]
    cases hl : live ks now full with
    | none => rfl
    | some raw =>
      obtain ⟨v, hv⟩ := hsound now full raw hl
      simp [hv, found?, Except.map, Except.toOption]

theorem isSome_contents_redis (hsound : c.Sound (.redis ks : Backend M)) :
    (c.contents t key (.redis ks : Backend M)).isSome = (live ks t key).isSome := by
  rw [HybridCache.contents]
  cases hl : live ks t key with
  | none => rfl
  | some raw =>
    obtain ⟨v, hv⟩ := hsound t key raw hl
    simp [hv, Except.toOption]

variable (now full) in
/-- A write puts the value under the key, up to its TTL, and changes nothing else. -/
theorem write_spec (hsound : c.Sound b) (v : V) (ttl : ℕ+) :
    ∃ b', c.write now full v ttl b = (.ok (), b') ∧ c.Sound b' ∧
      ∀ t, now ≤ t → ∀ key, c.contents t key b' =
        if key = full then (if t < now + ttl then some v else none) else c.contents t key b := by
  cases b with
  | memory m => exact ⟨_, rfl, trivial, fun t ht key => c.memory.get_set m now t full key v ttl ht⟩
  | redis ks =>
    obtain ⟨raw, hencode, hdecode⟩ := c.redisCodec.lossless v
    refine ⟨.redis (put ks now full raw ttl), by rw [HybridCache.write, hencode], ?_, ?_⟩
    · intro t key text hlive
      rw [live_put] at hlive
      split_ifs at hlive with hkey hrun
      · cases hlive
        exact ⟨v, hdecode⟩
      · exact hsound t key text hlive
    · intro t _ key
      rw [HybridCache.contents, live_put]
      split_ifs with hkey hrun
      · simp [hdecode, Except.toOption]
      · rfl
      · rfl

theorem contents_deleteMany (h : now ≤ t) (keys : List Bytes) :
    c.contents t key (c.deleteMany now b keys).2 =
      if key ∈ c.fullKeys keys then none else c.contents t key b := by
  rw [HybridCache.deleteMany.eq_def]
  by_cases hnil : c.fullKeys keys = []
  · simp [hnil]
  · cases b with
    | redis ks =>
      simp only [hnil, if_false]
      show (live (removeAll ks now (c.fullKeys keys)).2 t key).bind _ = _
      rw [live_removeAll]
      split_ifs
      · rfl
      · rfl
    | memory m =>
      simp only [hnil, if_false]
      exact c.memory.get_deleteMany m now t (c.fullKeys keys) key h

theorem lookup_deleteMany (hsound : c.Sound b) (keys : List Bytes) :
    (c.deleteMany now b keys).1.lookup key =
      if key ∈ c.fullKeys keys then
        some ((c.contents now key b).isSome &&
          (decide ((c.fullKeys keys).count key = 1) || c.again b))
      else none := by
  rw [HybridCache.deleteMany.eq_def]
  by_cases hnil : c.fullKeys keys = []
  · simp [hnil]
  · cases b with
    | redis ks =>
      simp only [hnil, if_false]
      rw [isSome_contents_redis hsound, HybridCache.again, Bool.or_false]
      exact lookup_record_removeAll (c.fullKeys keys)
    | memory m =>
      simp only [hnil, if_false]
      exact c.memory.lookup_deleteMany m now (c.fullKeys keys) key

theorem sound_deleteMany (hsound : c.Sound b) (keys : List Bytes) :
    c.Sound (c.deleteMany now b keys).2 := by
  rw [HybridCache.deleteMany.eq_def]
  by_cases hnil : c.fullKeys keys = []
  · simpa [hnil] using hsound
  · cases b with
    | memory m => simp only [hnil, if_false]; trivial
    | redis ks =>
      simp only [hnil, if_false]
      intro t key raw hlive
      change live (removeAll ks now (c.fullKeys keys)).2 t key = some raw at hlive
      rw [live_removeAll] at hlive
      split_ifs at hlive
      exact hsound t key raw hlive

/-- The keys of a batch that are there and whose deletion is answered with yes. -/
def HybridCache.removed (c : HybridCache M V ε) (now : Nat) (b : Backend M) (keys : List Bytes) :
    Finset Bytes :=
  (c.fullKeys keys).toFinset.filter fun key =>
    (c.contents now key b).isSome ∧ ((c.fullKeys keys).count key = 1 ∨ c.again b = true)

theorem countTrue_deleteMany (hsound : c.Sound b) (keys : List Bytes) :
    countTrue (c.deleteMany now b keys).1 = (c.removed now b keys).card := by
  rw [countTrue, HybridCache.removed]
  congr 1
  ext key
  rw [Finset.mem_filter, Finset.mem_filter, Finmap.mem_keys, List.mem_toFinset,
    lookup_deleteMany hsound, ← Finmap.lookup_isSome, lookup_deleteMany hsound]
  by_cases hmem : key ∈ c.fullKeys keys <;> simp [hmem]

variable (now) in
/-- Looking up the keys under a prefix and deleting them. -/
theorem deleteByPrefix_spec (hsound : c.Sound b) {p : Bytes} (hp : fullKey c.ns p ≠ []) :
    (c.deleteByPrefix now b p).1 =
        (c.removed now b (c.found now (fullPrefix c.ns p) b)).card ∧
      c.Sound (c.deleteByPrefix now b p).2 ∧
      ∀ t, now ≤ t → ∀ key, c.contents t key (c.deleteByPrefix now b p).2 =
        if key ∈ c.fullKeys (c.found now (fullPrefix c.ns p) b) then none
        else c.contents t key b := by
  rw [HybridCache.deleteByPrefix, if_neg hp]
  by_cases hnil : c.found now (fullPrefix c.ns p) b = []
  · simp [hnil, HybridCache.removed, HybridCache.fullKeys, hsound]
  · simp only [hnil, if_false]
    exact ⟨countTrue_deleteMany hsound _, sound_deleteMany hsound _,
      fun t ht key => contents_deleteMany ht _⟩

end Laws

end CodeGo.Platform.Cachex
