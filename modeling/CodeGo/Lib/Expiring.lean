import Mathlib.Data.Finmap

/-!
# Maps whose entries run out

A key holds a value up to a time. A batch of removals answers, for each key, whether it was
there; in the record of the answers a later one replaces an earlier one.
-/

namespace CodeGo.Lib.Expiring

/-- A value and the time from which it is gone. -/
structure Entry (β : Type) where
  value : β
  expires : Nat

abbrev Store (κ β : Type) := AList fun _ : κ => Entry β

section Operations

variable {κ β : Type} [DecidableEq κ]

/-- The value a key holds at a time. -/
def live (s : Store κ β) (now : Nat) (key : κ) : Option β :=
  match s.lookup key with
  | some e => if now < e.expires then some e.value else none
  | none => none

def put (s : Store κ β) (now : Nat) (key : κ) (value : β) (ttl : Nat) : Store κ β :=
  s.insert key ⟨value, now + ttl⟩

/-- The keys that hold a value. -/
def liveKeys (s : Store κ β) (now : Nat) : List κ := s.keys.filter fun key => (live s now key).isSome

def removeAll (s : Store κ β) (now : Nat) : List κ → List Bool × Store κ β
  | [] => ([], s)
  | key :: keys =>
    let (answers, s') := removeAll (s.erase key) now keys
    ((live s now key).isSome :: answers, s')

end Operations

/-- Each key with its answer. -/
def record {κ : Type} [DecidableEq κ] (keys : List κ) (answers : List Bool) :
    Finmap fun _ : κ => Bool :=
  (keys.zip answers).foldl (fun m e => m.insert e.1 e.2) ∅

section Laws

variable {κ β : Type} [DecidableEq κ] {s : Store κ β} {now later : Nat} {key other : κ}

@[simp] theorem live_empty : live (∅ : Store κ β) now key = none := by
  simp [live]

/-- An entry that still runs later runs now. -/
theorem isSome_live_of_le (h : now ≤ later) (hlater : (live s later key).isSome) :
    (live s now key).isSome := by
  rw [live] at hlater ⊢
  cases hl : s.lookup key with
  | none => simp [hl] at hlater
  | some e =>
    rw [hl] at hlater
    have hrun : later < e.expires := by
      by_contra hover
      simp [hover] at hlater
    simp [show now < e.expires by omega]

theorem live_put {ttl : Nat} {value : β} :
    live (put s now key value ttl) later other =
      if other = key then (if later < now + ttl then some value else none)
      else live s later other := by
  unfold live put
  split_ifs with heq hlt
  · subst heq
    simp [hlt]
  · subst heq
    simp [hlt]
  · rw [AList.lookup_insert_ne heq]

theorem live_erase :
    live (s.erase other) now key = if key = other then none else live s now key := by
  unfold live
  split_ifs with heq
  · subst heq
    simp
  · rw [AList.lookup_erase_ne heq]

theorem live_removeAll {keys : List κ} :
    live (removeAll s now keys).2 later key = if key ∈ keys then none else live s later key := by
  induction keys generalizing s with
  | nil => simp [removeAll]
  | cons first keys ih =>
    show live (removeAll (s.erase first) now keys).2 later key = _
    rw [ih, live_erase]
    by_cases hfirst : key = first <;> by_cases hmem : key ∈ keys <;> simp [hfirst, hmem]

theorem mem_liveKeys : key ∈ liveKeys s now ↔ (live s now key).isSome := by
  rw [liveKeys, List.mem_filter, and_iff_right_iff_imp]
  intro h
  rw [live] at h
  cases hl : s.lookup key with
  | none => simp [hl] at h
  | some e => exact AList.lookup_isSome.1 (by rw [hl]; rfl)

theorem nodup_liveKeys : (liveKeys s now).Nodup := s.keys_nodup.filter _

/-- A key is answered for when it is listed, and the answer is yes when it was there and is listed
only once: the second removal of a key finds nothing. -/
theorem lookup_record_removeAll [BEq κ] [LawfulBEq κ] (keys : List κ) :
    (record keys (removeAll s now keys).1).lookup key =
      if key ∈ keys then some ((live s now key).isSome && decide (keys.count key = 1)) else none := by
  have hfold : ∀ m : Finmap fun _ : κ => Bool,
      ((keys.zip (removeAll s now keys).1).foldl (fun m e => m.insert e.1 e.2) m).lookup key =
        if key ∈ keys then some ((live s now key).isSome && decide (keys.count key = 1))
        else m.lookup key := by
    induction keys generalizing s with
    | nil => simp
    | cons first keys ih =>
      intro m
      show (((keys.zip (removeAll (s.erase first) now keys).1)).foldl _
        (m.insert first (live s now first).isSome)).lookup key = _
      rw [ih, live_erase]
      by_cases hfirst : key = first
      · subst hfirst
        by_cases hmem : key ∈ keys
        · have hcount : 0 < keys.count key := List.count_pos_iff.2 hmem
          simp [hmem]
          omega
        · simp [hmem, List.count_eq_zero.2 hmem]
      · by_cases hmem : key ∈ keys
        · simp [hmem, hfirst, List.count_cons_of_ne (Ne.symm hfirst)]
        · simp [hmem, hfirst, Finmap.lookup_insert_of_ne]
  rw [record, hfold]
  simp

end Laws

end CodeGo.Lib.Expiring
