import CodeGo.Platform.Cachex
import Mathlib.Data.Finset.Max
import Mathlib.Data.PNat.Defs

/-!
# The two backends of the hybrid cache

Reads and writes treat the backends alike. A batch of deletions answers differently when a stored
key is listed twice and the process' cache answers yes for it; a deletion by prefix leads Redis to
other keys when the prefix reads differently as a pattern. `backends_agree_iff` says that nothing
else parts the two.
-/

namespace CodeGo.Platform.Cachex

open Lib.Expiring Lib.Glob

section Keys

variable {n key : Bytes}

theorem trimLeft_suffix (s : Bytes) : trimLeft s <:+ s := List.dropWhile_suffix _

theorem trimRight_isPrefix (s : Bytes) : trimRight s <+: s := List.rdropWhile_prefix _ _

theorem colon_not_mem_spaces : ∀ word ∈ spaces, colon ∉ word := by decide

theorem bare_trimSpace (s : Bytes) : Lib.Strip.Bare spaces (trimSpace s) :=
  Lib.Strip.bare_strip spaces s

/-- Under a namespace with a name a full key is its own full key. -/
theorem fullKey_fullKey (hn : keyPrefix n ≠ []) : fullKey n (fullKey n key) = fullKey n key := by
  by_cases hkey : trimSpace key = []
  · simp [fullKey, hkey, show trimSpace [] = [] from Lib.Strip.strip_eq_self
      ⟨fun w _ hne h => hne (List.prefix_nil.1 h), fun w _ hne h => hne (List.suffix_nil.1 h)⟩]
  · obtain ⟨name, hname, hfront⟩ : ∃ name, keyPrefix n = name ++ [colon] ∧
        ∀ word ∈ spaces, word ≠ [] → ¬ word <+: name := by
      refine ⟨trimRight (trimSpace n), ?_, ?_⟩
      · rw [keyPrefix] at hn ⊢
        exact if_neg fun h => hn (if_pos h)
      · intro word hword hne h
        exact (bare_trimSpace n).front word hword hne (h.trans (trimRight_isPrefix _))
    -- what follows the name is a suffix of the trimmed key, with the colon before it
    have hfull : ∀ rest, rest <:+ trimSpace key →
        trimSpace (keyPrefix n ++ rest) = keyPrefix n ++ rest := by
      intro rest hrest
      have hbare : Lib.Strip.Bare spaces (name ++ colon :: rest) :=
        Lib.Strip.bare_append_mark colon_not_mem_spaces hfront fun word hword hne h =>
          (bare_trimSpace key).back word hword hne (h.trans hrest)
      rw [hname, List.append_assoc]
      exact Lib.Strip.strip_eq_self hbare
    have hfixed : ∀ rest, rest <:+ trimSpace key →
        fullKey n (keyPrefix n ++ rest) = keyPrefix n ++ rest := by
      intro rest hrest
      simp [fullKey, hfull rest hrest, hn]
    rw [show fullKey n key = if (keyPrefix n).isPrefixOf (trimSpace key) then trimSpace key
      else keyPrefix n ++ trimLeft (trimSpace key) by simp [fullKey, hkey, hn]]
    split_ifs with hprefix
    · obtain ⟨rest, hrest⟩ := List.isPrefixOf_iff_prefix.1 hprefix
      rw [← hrest]
      exact hfixed rest ⟨_, hrest⟩
    · exact hfixed _ (trimLeft_suffix _)

/-- Without a namespace a full key is a part of the key. -/
theorem length_fullKey_lt (hn : keyPrefix n = []) (h : fullKey n key ≠ key) :
    (fullKey n key).length < key.length := by
  have hpart : fullKey n key <:+: key := by
    rw [fullKey]
    simp only [hn, if_true]
    split_ifs
    · exact List.nil_infix
    · refine (trimLeft_suffix _).isInfix.trans ?_
      exact Lib.Strip.stripRight_prefix.isInfix.trans (Lib.Strip.stripLeft_suffix _ _).isInfix
  exact lt_of_le_of_ne hpart.length_le fun heq => h (hpart.eq_of_length heq)

/-- A map that reaches every element of a finite set, and shortens those it moves, moves none. -/
theorem fixed_of_onto {s : Finset Bytes} {f : Bytes → Bytes}
    (hshort : ∀ k, f k ≠ k → (f k).length < k.length) (honto : ∀ k ∈ s, ∃ j ∈ s, f j = k) :
    ∀ k ∈ s, f k = k := by
  by_contra hmoved
  push Not at hmoved
  obtain ⟨k, hk, hne⟩ := hmoved
  obtain ⟨longest, hmem, hmax⟩ := (s.filter fun k => f k ≠ k).exists_max_image List.length
    ⟨k, Finset.mem_filter.2 ⟨hk, hne⟩⟩
  obtain ⟨hs, hlongest⟩ := Finset.mem_filter.1 hmem
  obtain ⟨j, hj, rfl⟩ := honto longest hs
  have hjne : f j ≠ j := fun h => hlongest (congrArg f h)
  have := hmax j (Finset.mem_filter.2 ⟨hj, hjne⟩)
  have := hshort j hjne
  omega

end Keys

section Pairs

variable {M V ε : Type} {c : HybridCache M V ε} {now later : Nat} {r m r' m' : Backend M}
  {full : Bytes}

def Backend.isRedis : Backend M → Bool
  | .redis _ => true
  | .memory _ => false

/-- Redis and the process' cache hold the same entries, under full keys. -/
structure Paired (c : HybridCache M V ε) (now : Nat) (r m : Backend M) : Prop where
  redis : r.isRedis = true
  memory : m.isRedis = false
  sound : c.Sound r
  same : ∀ t, now ≤ t → ∀ key, c.contents t key r = c.contents t key m
  full : ∀ t, now ≤ t → ∀ key, (c.contents t key r).isSome → key ≠ [] ∧ ∃ k, fullKey c.ns k = key

theorem Paired.sound_memory (h : Paired c now r m) : c.Sound m := by
  have hkind := h.memory
  cases m with
  | redis ks => cases hkind
  | memory cache => trivial

theorem Paired.mono (h : Paired c now r m) (hle : now ≤ later) : Paired c later r m where
  redis := h.redis
  memory := h.memory
  sound := h.sound
  same t ht := h.same t (hle.trans ht)
  full t ht := h.full t (hle.trans ht)

/-- An entry that still runs later runs now. -/
theorem Paired.isSome_of_le (h : Paired c now r m) {t : Nat} (ht : now ≤ t) {key : Bytes}
    (hlater : (c.contents t key r).isSome) : (c.contents now key r).isSome := by
  have hsound := h.sound
  have hkind := h.redis
  cases r with
  | memory cache => cases hkind
  | redis ks =>
    rw [isSome_contents_redis hsound] at hlater ⊢
    exact isSome_live_of_le ht hlater

theorem isRedis_write {v : V} {ttl : ℕ+} : (c.write now full v ttl r).2.isRedis = r.isRedis := by
  cases r with
  | memory cache => rfl
  | redis ks =>
    rw [HybridCache.write]
    cases c.redisCodec.encode v <;> rfl

theorem isRedis_deleteMany {keys : List Bytes} :
    (c.deleteMany now r keys).2.isRedis = r.isRedis := by
  rw [HybridCache.deleteMany.eq_def]
  by_cases hnil : c.fullKeys keys = []
  · simp [hnil]
  · cases r <;> simp [hnil, Backend.isRedis]

theorem isRedis_deleteByPrefix {p : Bytes} :
    (c.deleteByPrefix now r p).2.isRedis = r.isRedis := by
  rw [HybridCache.deleteByPrefix]
  split_ifs
  · rfl
  · by_cases hnil : c.found now (fullPrefix c.ns p) r = []
    · simp [hnil]
    · simp only [hnil, if_false]
      exact isRedis_deleteMany

theorem Paired.write (h : Paired c now r m) (hne : full ≠ []) (hfull : ∃ k, fullKey c.ns k = full)
    (v : V) (ttl : ℕ+) :
    (c.write now full v ttl r).1 = (c.write now full v ttl m).1 ∧
      Paired c now (c.write now full v ttl r).2 (c.write now full v ttl m).2 := by
  have hkindr : (c.write now full v ttl r).2.isRedis = true := isRedis_write.trans h.redis
  have hkindm : (c.write now full v ttl m).2.isRedis = false := isRedis_write.trans h.memory
  obtain ⟨r', hr, hsound, hcr⟩ := write_spec now full h.sound v ttl
  obtain ⟨m', hm, -, hcm⟩ := write_spec now full h.sound_memory v ttl
  rw [hr] at hkindr
  rw [hm] at hkindm
  rw [hr, hm]
  refine ⟨rfl, hkindr, hkindm, hsound, ?_, ?_⟩
  · intro t ht key
    rw [hcr t ht, hcm t ht, h.same t ht]
  · intro t ht key hsome
    rw [hcr t ht] at hsome
    by_cases hkey : key = full
    · rw [hkey]
      exact ⟨hne, hfull⟩
    · rw [if_neg hkey] at hsome
      exact h.full t ht key hsome

/-- Removing the same stored keys from both keeps them the same. -/
theorem Paired.remove (h : Paired c now r m) {xs ys : List Bytes} (hr : r'.isRedis = true)
    (hm : m'.isRedis = false) (hsound : c.Sound r')
    (hxs : ∀ t, now ≤ t → ∀ key,
      c.contents t key r' = if key ∈ xs then none else c.contents t key r)
    (hys : ∀ t, now ≤ t → ∀ key,
      c.contents t key m' = if key ∈ ys then none else c.contents t key m)
    (hstored : ∀ key, (c.contents now key r).isSome → (key ∈ xs ↔ key ∈ ys)) :
    Paired c now r' m' where
  redis := hr
  memory := hm
  sound := hsound
  same t ht key := by
    rw [hxs t ht, hys t ht, ← h.same t ht]
    cases hcontents : c.contents t key r with
    | none => simp
    | some v =>
      have hnow := h.isSome_of_le ht (by rw [hcontents]; rfl)
      simp [hstored key hnow]
  full t ht key hsome := by
    rw [hxs t ht] at hsome
    split_ifs at hsome
    · cases hsome
    · exact h.full t ht key hsome

end Pairs

section Steps

variable {M V ε : Type} {c : HybridCache M V ε} {now : Nat} {r m : Backend M}

theorem Paired.get [Inhabited V] (h : Paired c now r m) (key : Bytes) : c.get now r key = c.get now m key := by
  rw [HybridCache.get, HybridCache.get, read_eq h.sound, read_eq h.sound_memory,
    h.same now (le_refl now)]

theorem Paired.setWithTTL (h : Paired c now r m) (key : Bytes) (v : V) (ttl : ℕ+) :
    (c.setWithTTL now r key v ttl).1 = (c.setWithTTL now m key v ttl).1 ∧
      Paired c now (c.setWithTTL now r key v ttl).2 (c.setWithTTL now m key v ttl).2 := by
  rw [HybridCache.setWithTTL, HybridCache.setWithTTL]
  by_cases hfull : fullKey c.ns key = []
  · simpa [hfull] using h
  · simp only [hfull, if_false]
    exact h.write hfull ⟨key, rfl⟩ v ttl

theorem Paired.updateWithTTL [Inhabited V] (h : Paired c now r m) (key : Bytes) (ttl : ℕ+)
    (update : V → Bool → Except ε V) :
    (c.updateWithTTL now r key ttl update).1 = (c.updateWithTTL now m key ttl update).1 ∧
      Paired c now (c.updateWithTTL now r key ttl update).2
        (c.updateWithTTL now m key ttl update).2 := by
  rw [HybridCache.updateWithTTL, HybridCache.updateWithTTL]
  by_cases hfull : fullKey c.ns key = []
  · simpa [hfull] using h
  · simp only [hfull, if_false]
    rw [read_eq h.sound, read_eq h.sound_memory, h.same now (le_refl now)]
    cases hupdate : update (found? (c.contents now (fullKey c.ns key) m)).1
        (found? (c.contents now (fullKey c.ns key) m)).2 with
    | error e => simpa [hupdate] using h
    | ok next =>
      simp only [hupdate]
      exact h.write hfull ⟨key, rfl⟩ next ttl

theorem Paired.deleteMany (h : Paired c now r m) (keys : List Bytes) :
    Paired c now (c.deleteMany now r keys).2 (c.deleteMany now m keys).2 :=
  h.remove (isRedis_deleteMany.trans h.redis) (isRedis_deleteMany.trans h.memory)
    (sound_deleteMany h.sound keys) (fun _ ht _ => contents_deleteMany ht keys)
    (fun _ ht _ => contents_deleteMany ht keys) fun _ _ => Iff.rfl

theorem again_redis (h : r.isRedis = true) : c.again r = false := by
  cases r with
  | redis ks => rfl
  | memory cache => cases h

theorem again_memory (h : m.isRedis = false) : c.again m = c.memory.repeated := by
  cases m with
  | redis ks => cases h
  | memory cache => rfl

/-- A batch is answered alike when no stored key is listed twice, or hot says no to it as well. -/
theorem Paired.deleteMany_eq_iff (h : Paired c now r m) (keys : List Bytes) :
    (c.deleteMany now r keys).1 = (c.deleteMany now m keys).1 ↔
      c.memory.repeated = false ∨
        ∀ key, (c.contents now key r).isSome → (c.fullKeys keys).count key ≤ 1 := by
  have hlookup : (c.deleteMany now r keys).1 = (c.deleteMany now m keys).1 ↔
      ∀ key, (c.deleteMany now r keys).1.lookup key = (c.deleteMany now m keys).1.lookup key :=
    ⟨fun heq key => by rw [heq], fun heq => Finmap.ext_lookup heq⟩
  have hboth : ∀ key, (c.deleteMany now r keys).1.lookup key =
        (c.deleteMany now m keys).1.lookup key ↔
      ((c.contents now key r).isSome → c.memory.repeated = true →
        (c.fullKeys keys).count key ≤ 1) := by
    intro key
    rw [lookup_deleteMany h.sound, lookup_deleteMany h.sound_memory,
      again_redis h.redis, again_memory h.memory, h.same now (le_refl now)]
    by_cases hmem : key ∈ c.fullKeys keys
    · have hpos : 0 < (c.fullKeys keys).count key := List.count_pos_iff.2 hmem
      have hone : (c.fullKeys keys).count key ≤ 1 ↔ (c.fullKeys keys).count key = 1 := by omega
      rw [hone]
      cases (c.contents now key m).isSome <;> cases c.memory.repeated <;> simp [hmem]
    · simp [hmem, List.count_eq_zero.2 hmem]
  rw [hlookup]
  simp only [hboth]
  cases c.memory.repeated <;> simp

theorem mem_found_redis (hr : r.isRedis = true) (hsound : c.Sound r) {full key : Bytes} :
    key ∈ c.found now full r ↔
      (c.contents now key r).isSome ∧ glob (full ++ [star]) key = true := by
  cases r with
  | memory cache => cases hr
  | redis ks =>
    rw [isSome_contents_redis hsound]
    exact c.redis.mem_pages ks now (full ++ [star]) key

theorem mem_found_memory (hm : m.isRedis = false) {full key : Bytes} :
    key ∈ c.found now full m ↔ (c.contents now key m).isSome ∧ full <+: key := by
  cases m with
  | redis ks => cases hm
  | memory cache =>
    rw [HybridCache.found, List.mem_filter, c.memory.mem_keys, List.isPrefixOf_iff_prefix]
    rfl

theorem nodup_found_memory (hm : m.isRedis = false) {full : Bytes} :
    (c.found now full m).Nodup := by
  cases m with
  | redis ks => cases hm
  | memory cache => exact (c.memory.nodup_keys cache now).filter _

theorem mem_fullKeys {keys : List Bytes} {key : Bytes} :
    key ∈ c.fullKeys keys ↔ key ≠ [] ∧ ∃ k ∈ keys, fullKey c.ns k = key := by
  rw [HybridCache.fullKeys, List.mem_filter, List.mem_map, and_comm]
  simp

/-- A deletion by prefix removes what it has to when it lists, of the stored keys, those under the
prefix. -/
theorem removesWithin_iff {b : Backend M} (hsound : c.Sound b) {p : Bytes}
    (hp : fullKey c.ns p ≠ []) :
    c.RemovesWithin now b p ↔ ∀ key, (c.contents now key b).isSome →
      (key ∈ c.fullKeys (c.found now (fullPrefix c.ns p) b) ↔ fullPrefix c.ns p <+: key) := by
  obtain ⟨-, -, hcontents⟩ := deleteByPrefix_spec now hsound hp
  rw [HybridCache.RemovesWithin]
  apply forall_congr'
  intro key
  rw [hcontents now (le_refl now)]
  have hwithin : Within c.ns p key ↔ fullPrefix c.ns p <+: key := and_iff_right hp
  cases hkey : c.contents now key b with
  | none => simp
  | some v =>
    by_cases hlisted : key ∈ c.fullKeys (c.found now (fullPrefix c.ns p) b) <;>
      by_cases hprefix : fullPrefix c.ns p <+: key <;> simp [hwithin, hlisted, hprefix]

/-- In the process' cache a deletion by prefix removes what it has to when the keys under the prefix
are their own full keys. -/
theorem Paired.removesWithin_memory_iff (h : Paired c now r m) {p : Bytes}
    (hp : fullKey c.ns p ≠ []) :
    c.RemovesWithin now m p ↔ ∀ key, (c.contents now key r).isSome →
      fullPrefix c.ns p <+: key → fullKey c.ns key = key := by
  have hsame : ∀ key, c.contents now key m = c.contents now key r :=
    fun key => (h.same now (le_refl now) key).symm
  rw [removesWithin_iff h.sound_memory hp]
  simp only [mem_fullKeys, mem_found_memory h.memory, hsame]
  constructor
  · intro honto
    by_cases hn : keyPrefix c.ns = []
    · -- every key under the prefix comes from one, and those that move get shorter
      have hfixed := fixed_of_onto (fun k => @length_fullKey_lt _ k hn)
        (s := (c.found now (fullPrefix c.ns p) m).toFinset) (fun k hk => ?_)
      · intro key hsome hprefix
        exact hfixed key (List.mem_toFinset.2 ((mem_found_memory h.memory).2
          ⟨by rwa [hsame], hprefix⟩))
      · obtain ⟨hsome, hprefix⟩ := (mem_found_memory h.memory).1 (List.mem_toFinset.1 hk)
        rw [hsame] at hsome
        obtain ⟨-, j, hj, heq⟩ := (honto k hsome).2 hprefix
        exact ⟨j, List.mem_toFinset.2 ((mem_found_memory h.memory).2 ⟨by rw [hsame]; exact hj.1,
          hj.2⟩), heq⟩
    · intro key hsome _
      obtain ⟨-, k, rfl⟩ := h.full now (le_refl now) key hsome
      exact fullKey_fullKey hn
  · intro hfixed key hsome
    constructor
    · rintro ⟨-, k, ⟨hk, hprefix⟩, rfl⟩
      rwa [hfixed k hk hprefix]
    · intro hprefix
      exact ⟨(h.full now (le_refl now) key hsome).1, key, ⟨hsome, hprefix⟩,
        hfixed key hsome hprefix⟩

theorem Paired.removesWithin_redis_iff (h : Paired c now r m) {p : Bytes}
    (hp : fullKey c.ns p ≠ []) :
    c.RemovesWithin now r p ↔ ∀ key, (c.contents now key r).isSome →
      ((∃ k, (c.contents now k r).isSome ∧ glob (fullPrefix c.ns p ++ [star]) k = true ∧
        fullKey c.ns k = key) ↔ fullPrefix c.ns p <+: key) := by
  rw [removesWithin_iff h.sound hp]
  apply forall_congr'
  intro key
  apply forall_congr'
  intro hsome
  rw [mem_fullKeys]
  simp only [mem_found_redis h.redis h.sound, (h.full now (le_refl now) key hsome).1, ne_eq,
    not_false_eq_true, true_and, and_assoc]

/-- When both remove what they have to, they report the same number when `SCAN` lists each of the
keys once. -/
theorem Paired.count_eq_iff (h : Paired c now r m) {p : Bytes} (hp : fullKey c.ns p ≠ [])
    (hr : c.RemovesWithin now r p) (hm : c.RemovesWithin now m p) :
    (c.deleteByPrefix now r p).1 = (c.deleteByPrefix now m p).1 ↔
      ∀ key, (c.contents now key r).isSome → fullPrefix c.ns p <+: key →
        (c.fullKeys (c.found now (fullPrefix c.ns p) r)).count key ≤ 1 := by
  have hfixed := (h.removesWithin_memory_iff hp).1 hm
  rw [removesWithin_iff h.sound hp] at hr
  rw [removesWithin_iff h.sound_memory hp] at hm
  have hsame : ∀ key, c.contents now key m = c.contents now key r :=
    fun key => (h.same now (le_refl now) key).symm
  rw [(deleteByPrefix_spec now h.sound hp).1, (deleteByPrefix_spec now h.sound_memory hp).1]
  -- what the process' cache looks up are full keys already, each listed once
  have hlist : c.fullKeys (c.found now (fullPrefix c.ns p) m) =
      c.found now (fullPrefix c.ns p) m := by
    have hkeys : ∀ key ∈ c.found now (fullPrefix c.ns p) m,
        fullKey c.ns key = key ∧ key ≠ [] := by
      intro key hkey
      obtain ⟨hsome, hprefix⟩ := (mem_found_memory h.memory).1 hkey
      rw [hsame] at hsome
      exact ⟨hfixed key hsome hprefix, (h.full now (le_refl now) key hsome).1⟩
    rw [HybridCache.fullKeys, List.map_congr_left fun key hkey => (hkeys key hkey).1, List.map_id',
      List.filter_eq_self]
    intro key hkey
    simpa using (hkeys key hkey).2
  have hremoved : c.removed now m (c.found now (fullPrefix c.ns p) m) =
      (c.fullKeys (c.found now (fullPrefix c.ns p) r)).toFinset.filter fun key =>
        (c.contents now key r).isSome := by
    ext key
    rw [HybridCache.removed, Finset.mem_filter, Finset.mem_filter, List.mem_toFinset,
      List.mem_toFinset, hsame]
    constructor
    · rintro ⟨hmem, hsome, -⟩
      exact ⟨(hr key hsome).2 ((hm key (by rwa [hsame])).1 hmem), hsome⟩
    · rintro ⟨hmem, hsome⟩
      have hmemory := (hm key (by rwa [hsame])).2 ((hr key hsome).1 hmem)
      refine ⟨hmemory, hsome, Or.inl ?_⟩
      rw [hlist] at hmemory ⊢
      exact List.count_eq_one_of_mem (nodup_found_memory h.memory) hmemory
  have hfilter : c.removed now r (c.found now (fullPrefix c.ns p) r) =
      ((c.fullKeys (c.found now (fullPrefix c.ns p) r)).toFinset.filter fun key =>
        (c.contents now key r).isSome).filter fun key =>
          (c.fullKeys (c.found now (fullPrefix c.ns p) r)).count key = 1 := by
    rw [HybridCache.removed, again_redis h.redis, Finset.filter_filter]
    simp
  rw [hremoved, hfilter, Finset.card_filter_eq_iff]
  constructor
  · intro hone key hsome hprefix
    have := hone key (Finset.mem_filter.2 ⟨List.mem_toFinset.2 ((hr key hsome).2 hprefix), hsome⟩)
    omega
  · intro hle key hkey
    obtain ⟨hmem, hsome⟩ := Finset.mem_filter.1 hkey
    have hlisted := List.mem_toFinset.1 hmem
    have hpos := List.count_pos_iff.2 hlisted
    have := hle key hsome ((hr key hsome).1 hlisted)
    omega

theorem removesWithin_of_nil {b : Backend M} {p : Bytes} (hp : fullKey c.ns p = []) :
    c.RemovesWithin now b p := by
  intro key
  rw [HybridCache.deleteByPrefix, if_pos hp, if_neg fun h : Within c.ns p key => h.1 hp]

theorem Paired.deleteByPrefix (h : Paired c now r m) {p : Bytes}
    (hr : c.RemovesWithin now r p) (hm : c.RemovesWithin now m p) :
    Paired c now (c.deleteByPrefix now r p).2 (c.deleteByPrefix now m p).2 := by
  by_cases hp : fullKey c.ns p = []
  · simpa [HybridCache.deleteByPrefix, hp] using h
  · obtain ⟨-, hsound, hcr⟩ := deleteByPrefix_spec now h.sound hp
    obtain ⟨-, -, hcm⟩ := deleteByPrefix_spec now h.sound_memory hp
    apply h.remove (isRedis_deleteByPrefix.trans h.redis) (isRedis_deleteByPrefix.trans h.memory)
      hsound hcr hcm
    intro key hsome
    rw [(removesWithin_iff h.sound hp).1 hr key hsome,
      (removesWithin_iff h.sound_memory hp).1 hm key
        (by rwa [← h.same now (le_refl now)])]

end Steps

section Runs

variable {M V ε : Type} {c : HybridCache M V ε} {now : Nat} {r m : Backend M}

theorem paired_new (c : HybridCache M V ε) :
    Paired c 0 (.redis ∅) (.memory c.memory.new) where
  redis := rfl
  memory := rfl
  sound := by
    intro t key raw h
    rw [live_empty] at h
    cases h
  same t _ key := by
    simp [HybridCache.contents, c.memory.get_new]
  full t _ key h := by simp [HybridCache.contents] at h

variable [Inhabited V]

theorem Paired.agrees_iff (h : Paired c now r m) (call : Call V ε) :
    c.Agrees now r m call ↔ c.Careful now r m call := by
  cases call with
  | get key => simp [HybridCache.Agrees, HybridCache.Careful, HybridCache.perform, h.get key]
  | setWithTTL key v ttl =>
    simp [HybridCache.Agrees, HybridCache.Careful, HybridCache.perform,
      (h.setWithTTL key v ttl).1]
  | updateWithTTL key ttl update =>
    simp [HybridCache.Agrees, HybridCache.Careful, HybridCache.perform,
      (h.updateWithTTL key ttl update).1]
  | deleteMany keys =>
    simp only [HybridCache.Agrees, HybridCache.perform, Result.report.injEq, and_true]
    exact h.deleteMany_eq_iff keys
  | deleteByPrefix p =>
    simp only [HybridCache.Agrees, HybridCache.perform, Result.deleted.injEq, HybridCache.Careful]
    by_cases hp : fullKey c.ns p = []
    · simp [hp, removesWithin_of_nil hp, HybridCache.deleteByPrefix]
    · rw [imp_iff_right hp]
      constructor
      · rintro ⟨hcount, hr, hm⟩
        exact ⟨(h.removesWithin_memory_iff hp).1 hm, (h.removesWithin_redis_iff hp).1 hr,
          (h.count_eq_iff hp hr hm).1 hcount⟩
      · rintro ⟨hm, hr, hcount⟩
        have hm := (h.removesWithin_memory_iff hp).2 hm
        have hr := (h.removesWithin_redis_iff hp).2 hr
        exact ⟨(h.count_eq_iff hp hr hm).2 hcount, hr, hm⟩

/-- Backends that agree on a call hold the same entries after it. -/
theorem Paired.step (h : Paired c now r m) {call : Call V ε} (hagrees : c.Agrees now r m call) :
    Paired c now (c.perform now r call).2 (c.perform now m call).2 := by
  cases call with
  | get key => exact h
  | setWithTTL key v ttl => exact (h.setWithTTL key v ttl).2
  | updateWithTTL key ttl update => exact (h.updateWithTTL key ttl update).2
  | deleteMany keys => exact h.deleteMany keys
  | deleteByPrefix p => exact h.deleteByPrefix hagrees.2.1 hagrees.2.2

theorem Paired.along_iff (h : Paired c now r m) (calls : List (Nat × Call V ε)) :
    c.Along c.Agrees now r m calls ↔ c.Along c.Careful now r m calls := by
  induction calls generalizing now r m with
  | nil => exact Iff.rfl
  | cons first calls ih =>
    obtain ⟨elapsed, call⟩ := first
    have hlater := h.mono (Nat.le_add_right now elapsed)
    rw [HybridCache.Along, HybridCache.Along, ← hlater.agrees_iff call]
    exact and_congr_right fun hagrees => ih (hlater.step hagrees)

/-- Along a run from an empty cache the two backends return the same and remove what they have to
exactly when every deletion of the run is careful. -/
theorem backends_agree_iff (c : HybridCache M V ε) (calls : List (Nat × Call V ε)) :
    c.Along c.Agrees 0 (.redis ∅) (.memory c.memory.new) calls ↔
      c.Along c.Careful 0 (.redis ∅) (.memory c.memory.new) calls :=
  (paired_new c).along_iff calls

end Runs

/-- `SCAN` in one page. -/
def onePage : Scan where
  pages ks now pattern := [(liveKeys ks now).filter (glob pattern)]
  mem_pages ks now pattern key := by
    simp [mem_liveKeys]

/-- A cache of the process that deletes the keys of a batch one by one. -/
def mapCache : HotCache (Store Bytes Bytes) Bytes where
  new := ∅
  get m now key := live m now key
  setWithTTL m now key v ttl := put m now key v ttl
  keys m now := liveKeys m now
  deleteMany m now keys := (record keys (removeAll m now keys).1, (removeAll m now keys).2)
  repeated := false
  get_new now key := live_empty
  get_set m now later key other v ttl _ := live_put
  mem_keys m now key := mem_liveKeys
  nodup_keys m now := nodup_liveKeys
  get_deleteMany m now later keys key _ := by
    rw [live_removeAll]
    congr
  lookup_deleteMany m now keys key := by
    rw [Bool.or_false]
    exact lookup_record_removeAll keys

def ascii (s : String) : Bytes := s.toList.map fun ch => UInt8.ofNat ch.toNat

/-- Strings under the namespace `ns`. -/
def sampleCache : HybridCache (Store Bytes Bytes) Bytes Unit where
  ns := ascii "ns"
  redisCodec := ⟨.ok, .ok, fun v => ⟨v, rfl, rfl⟩⟩
  redis := onePage
  memory := mapCache

/-- How many entries a deletion by prefix reports when one key is stored. -/
def deletedAfter (key p : Bytes) (b : Backend (Store Bytes Bytes)) : Nat :=
  (sampleCache.deleteByPrefix 1 (sampleCache.setWithTTL 0 b key [] 60).2 p).1

/-- A question mark deletes a key in Redis only, brackets in the process' cache only. -/
theorem pattern_reads_otherwise :
    deletedAfter (ascii "user1:a") (ascii "user?") (.redis ∅) = 1 ∧
      deletedAfter (ascii "user1:a") (ascii "user?") (.memory ∅) = 0 ∧
      deletedAfter (ascii "a[1]:x") (ascii "a[1]") (.redis ∅) = 0 ∧
      deletedAfter (ascii "a[1]:x") (ascii "a[1]") (.memory ∅) = 1 ∧
      ¬ sampleCache.Along sampleCache.Agrees 0 (.redis ∅) (.memory sampleCache.memory.new)
        [(0, .setWithTTL (ascii "user1:a") [] 60), (1, .deleteByPrefix (ascii "user?"))] := by
  have hredis : deletedAfter (ascii "user1:a") (ascii "user?") (.redis ∅) = 1 := by decide +kernel
  have hmemory : deletedAfter (ascii "user1:a") (ascii "user?") (.memory ∅) = 0 := by
    decide +kernel
  refine ⟨hredis, hmemory, by decide +kernel, by decide +kernel, ?_⟩
  rintro ⟨-, ⟨hcount, -⟩, -⟩
  have hcount : deletedAfter (ascii "user1:a") (ascii "user?") (.redis ∅) =
      deletedAfter (ascii "user1:a") (ascii "user?") (.memory ∅) := Result.deleted.inj hcount
  rw [hredis, hmemory] at hcount
  cases hcount

end CodeGo.Platform.Cachex
