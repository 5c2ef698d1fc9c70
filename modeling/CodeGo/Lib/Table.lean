import Mathlib.Algebra.BigOperators.Group.List.Basic
import Mathlib.Algebra.Order.BigOperators.Group.List
import Mathlib.Data.List.Pairwise
import Mathlib.Tactic.Ring

/-!
# Tables with unique indexes

A table is a list of rows no two of which violate a unique index. Inserting a
row that clashes with a stored one fails, saving a row overwrites the row with
its primary key.
-/

namespace CodeGo.Lib

/-- Rows with a primary key and, through `clash`, further unique indexes. -/
class Indexed (α : Type) (κ : outParam Type) where
  pk : α → κ
  /-- Storing both rows would violate a unique index. -/
  clash : α → α → Bool
  clash_comm : ∀ r s, clash r s = clash s r
  clash_of_pk : ∀ r s, pk r = pk s → clash r s = true

export Indexed (pk clash)

structure Table (α : Type) {κ : Type} [Indexed α κ] where
  rows : List α
  distinct : rows.Pairwise fun r s => clash r s = false

namespace Table

variable {α κ : Type} [Indexed α κ]

def empty : Table α := ⟨[], .nil⟩

instance : Membership α (Table α) := ⟨fun t r => r ∈ t.rows⟩

theorem mem_def {t : Table α} {r : α} : r ∈ t ↔ r ∈ t.rows := Iff.rfl

@[ext] theorem ext {t t' : Table α} (h : t.rows = t'.rows) : t = t' := by
  cases t; cases t'; cases h; rfl

instance [DecidableEq α] : DecidableEq (Table α) :=
  fun _ _ => decidable_of_iff _ ⟨ext, congrArg rows⟩

/-- The first row that satisfies the condition. -/
def find? (t : Table α) (p : α → Bool) : Option α := t.rows.find? p

/-- The row with a primary key. -/
def get? [DecidableEq κ] (t : Table α) (k : κ) : Option α := t.find? fun r => pk r = k

/-- `INSERT`: fails when a unique index refuses the row. -/
def insert? (t : Table α) (r : α) : Option (Table α) :=
  if h : ∀ s ∈ t.rows, clash s r = false then
    some ⟨t.rows ++ [r], List.pairwise_append.2
      ⟨t.distinct, List.pairwise_singleton _ _, by simpa using h⟩⟩
  else none

/-- The rows that share a primary key are replaced by `r`. -/
def replace [DecidableEq κ] (rows : List α) (r : α) : List α :=
  rows.map fun s => if pk s = pk r then r else s

theorem mem_replace [DecidableEq κ] {rows : List α} {r s : α} :
    s ∈ replace rows r ↔
      (s ∈ rows ∧ pk s ≠ pk r) ∨ (s = r ∧ ∃ r₀ ∈ rows, pk r₀ = pk r) := by
  simp only [replace, List.mem_map]
  constructor
  · rintro ⟨x, hx, rfl⟩
    by_cases e : pk x = pk r
    · exact .inr ⟨by simp [e], x, hx, e⟩
    · exact .inl (by simp [e, hx])
  · rintro (⟨hs, hne⟩ | ⟨rfl, r₀, h₀, e⟩)
    · exact ⟨s, hs, by simp [hne]⟩
    · exact ⟨r₀, h₀, by simp [e]⟩

theorem replace_eq_self [DecidableEq κ] {rows : List α} {r : α}
    (h : ∀ s ∈ rows, pk s ≠ pk r) : replace rows r = rows := by
  refine (List.map_congr_left fun s hs => ?_).trans (List.map_id _)
  simp [h s hs]

theorem sum_replace [DecidableEq κ] {rows : List α} {r r₀ : α} (f : α → Int)
    (hd : rows.Pairwise fun s s' => clash s s' = false) (h₀ : r₀ ∈ rows) (hpk : pk r = pk r₀) :
    ((replace rows r).map f).sum = (rows.map f).sum - f r₀ + f r := by
  induction rows with
  | nil => cases h₀
  | cons s rest ih =>
    obtain ⟨hs, hrest⟩ := List.pairwise_cons.1 hd
    have hne : ∀ s' ∈ rest, pk s ≠ pk s' := fun s' hs' e => by
      have := hs s' hs'
      rw [Indexed.clash_of_pk s s' e] at this
      cases this
    have hcons : replace (s :: rest) r = (if pk s = pk r then r else s) :: replace rest r := rfl
    cases h₀ with
    | head =>
      -- no row of the rest has the key
      rw [hcons, replace_eq_self fun s' hs' e => hne s' hs' (hpk.symm.trans e.symm)]
      simp only [hpk, if_true, List.map_cons, List.sum_cons]
      ring
    | tail _ h₀ =>
      rw [hcons, if_neg (fun e => hne r₀ h₀ (e.trans hpk))]
      simp only [List.map_cons, List.sum_cons, ih hrest h₀]
      ring

theorem eq_of_clash_rows {rows : List α} {r s : α}
    (hd : rows.Pairwise fun s s' => clash s s' = false) (hr : r ∈ rows) (hs : s ∈ rows)
    (hc : clash r s = true) : r = s := by
  by_contra hne
  have : Std.Symm fun r s : α => clash r s = false := ⟨fun a b h => by rwa [Indexed.clash_comm]⟩
  rw [hd.forall hr hs hne] at hc
  cases hc

theorem pairwise_replace [DecidableEq κ] {rows : List α} {r : α}
    (hd : rows.Pairwise fun s s' => clash s s' = false)
    (h : ∀ s ∈ rows, pk s ≠ pk r → clash s r = false) :
    (replace rows r).Pairwise fun s s' => clash s s' = false := by
  rw [replace, List.pairwise_map]
  refine hd.imp_of_mem fun {s s'} hs hs' hss => ?_
  have hne : pk s ≠ pk s' := fun e => by
    rw [Indexed.clash_of_pk s s' e] at hss
    cases hss
  by_cases e : pk s = pk r <;> by_cases e' : pk s' = pk r <;> simp only [e, e', if_true, if_false]
  · exact absurd (e.trans e'.symm) hne
  · rw [Indexed.clash_comm]
    exact h s' hs' e'
  · exact h s hs e
  · exact hss

/-- `UPDATE` of every column by primary key, `INSERT` when no row has it. -/
def save? [DecidableEq κ] (t : Table α) (r : α) : Option (Table α) :=
  if t.rows.any (fun s => pk s = pk r) then
    if h : ∀ s ∈ t.rows, pk s ≠ pk r → clash s r = false then
      some ⟨replace t.rows r, pairwise_replace t.distinct h⟩
    else none
  else t.insert? r

/-- A change of the columns that no unique index covers. -/
def KeepsIndexes (f : α → α) : Prop := ∀ r, pk (f r) = pk r ∧ ∀ s, clash s (f r) = clash s r

/-- `UPDATE` by primary key of columns that no unique index covers. -/
def update [DecidableEq κ] (t : Table α) (k : κ) (f : α → α) (hf : KeepsIndexes f) : Table α :=
  match h : t.get? k with
  | some r => ⟨replace t.rows (f r), pairwise_replace t.distinct fun s hs hne => by
      have hr := List.mem_of_find?_eq_some h
      rw [(hf r).2]
      by_contra hc
      rw [Bool.not_eq_false] at hc
      exact hne (by rw [(hf r).1, eq_of_clash_rows t.distinct hs hr hc])⟩
  | none => t

/-- `DELETE` of the rows that satisfy the condition. -/
def delete (t : Table α) (p : α → Bool) : Table α :=
  ⟨t.rows.filter fun r => !p r, t.distinct.filter _⟩

theorem mem_delete {t : Table α} {p : α → Bool} {r : α} :
    r ∈ t.delete p ↔ r ∈ t ∧ p r = false := by
  simp [mem_def, delete]

/-- Some row satisfies the condition. -/
def has (t : Table α) (p : α → Bool) : Bool := t.rows.any p

/-- The sum of a column over the whole table. -/
def sum (t : Table α) (f : α → Int) : Int := (t.rows.map f).sum

theorem sum_congr {t : Table α} {f g : α → Int} (h : ∀ r ∈ t, f r = g r) : t.sum f = t.sum g := by
  simp only [sum]
  exact congrArg List.sum (List.map_congr_left h)

theorem sum_nonneg {t : Table α} {f : α → Int} (h : ∀ r ∈ t, 0 ≤ f r) : 0 ≤ t.sum f := by
  refine List.sum_nonneg fun x hx => ?_
  obtain ⟨r, hr, rfl⟩ := List.mem_map.1 hx
  exact h r hr

theorem le_sum_of_mem {t : Table α} {f : α → Int} (h : ∀ r ∈ t, 0 ≤ f r) {r : α} (hr : r ∈ t) :
    f r ≤ t.sum f := by
  refine List.single_le_sum (fun x hx => ?_) _ (List.mem_map_of_mem hr)
  obtain ⟨s, hs, rfl⟩ := List.mem_map.1 hx
  exact h s hs

section Insert

variable {t t' : Table α} {r : α}

theorem insert?_eq_some (h : t.insert? r = some t') :
    t'.rows = t.rows ++ [r] ∧ ∀ s ∈ t, clash s r = false := by
  unfold insert? at h
  split at h
  next hc =>
    cases h
    exact ⟨rfl, hc⟩
  next => cases h

theorem insert?_isSome_iff : (t.insert? r).isSome ↔ ∀ s ∈ t, clash s r = false := by
  unfold insert?
  split
  next hc => exact ⟨fun _ => hc, fun _ => rfl⟩
  next hc => exact ⟨fun h => by simp at h, fun h => absurd h hc⟩

theorem insert?_eq_none_of_clash {s : α} (hs : s ∈ t) (hc : clash s r = true) :
    t.insert? r = none := by
  rw [← Option.not_isSome_iff_eq_none, insert?_isSome_iff]
  intro h
  rw [h s hs] at hc
  cases hc

theorem mem_insert? (h : t.insert? r = some t') {s : α} : s ∈ t' ↔ s ∈ t ∨ s = r := by
  simp only [mem_def, (insert?_eq_some h).1, List.mem_append, List.mem_singleton]

theorem sum_insert? (h : t.insert? r = some t') (f : α → Int) : t'.sum f = t.sum f + f r := by
  simp [sum, (insert?_eq_some h).1]

theorem find?_insert? (h : t.insert? r = some t') (p : α → Bool) :
    t'.find? p = (t.find? p).or (if p r then some r else none) := by
  simp only [find?, (insert?_eq_some h).1, List.find?_append, List.find?_singleton]

theorem has_insert? (h : t.insert? r = some t') (p : α → Bool) :
    t'.has p = (t.has p || p r) := by
  simp [has, (insert?_eq_some h).1]

theorem get?_insert? [DecidableEq κ] (h : t.insert? r = some t') (k : κ) :
    t'.get? k = if k = pk r then some r else t.get? k := by
  rw [get?, find?_insert? h]
  by_cases hk : k = pk r
  · have hnone : t.find? (fun s => decide (pk s = k)) = none := by
      rw [find?, List.find?_eq_none]
      intro s hs
      have hc := (insert?_eq_some h).2 s hs
      simp only [decide_eq_true_eq]
      intro e
      rw [Indexed.clash_of_pk s r (e.trans hk)] at hc
      cases hc
    rw [hnone, if_pos hk, if_pos (by simp [hk]), Option.none_or]
  · have : ¬ pk r = k := fun e => hk e.symm
    simp [get?, hk, this]

end Insert

section Lookup

variable {t : Table α} {r : α}

theorem mem_of_find? {p : α → Bool} (h : t.find? p = some r) : r ∈ t := List.mem_of_find?_eq_some h

theorem prop_of_find? {p : α → Bool} (h : t.find? p = some r) : p r = true := List.find?_some h

theorem find?_eq_none {p : α → Bool} : t.find? p = none ↔ ∀ s ∈ t, p s = false := by
  simp only [find?, List.find?_eq_none, Bool.not_eq_true]
  exact Iff.rfl

theorem eq_of_clash {s : α} (hr : r ∈ t) (hs : s ∈ t) (hc : clash r s = true) : r = s :=
  eq_of_clash_rows t.distinct hr hs hc

theorem has_eq_true {p : α → Bool} : t.has p = true ↔ ∃ s ∈ t, p s = true := List.any_eq_true

theorem has_eq_false {p : α → Bool} : t.has p = false ↔ ∀ s ∈ t, p s = false := by
  simp only [has, List.any_eq_false, Bool.not_eq_true]
  exact Iff.rfl

/-- A condition that identifies rows finds the row that meets it. -/
theorem find?_eq_some_of_mem {p : α → Bool} (hr : r ∈ t) (hp : p r = true)
    (hu : ∀ s, p s = true → clash s r = true) : t.find? p = some r := by
  cases hf : t.find? p with
  | none => rw [find?_eq_none.1 hf r hr] at hp; cases hp
  | some s => rw [eq_of_clash (mem_of_find? hf) hr (hu s (prop_of_find? hf))]

variable [DecidableEq κ]

theorem mem_of_get? {k : κ} (h : t.get? k = some r) : r ∈ t := mem_of_find? h

theorem pk_of_get? {k : κ} (h : t.get? k = some r) : pk r = k := by
  simpa using prop_of_find? h

theorem get?_of_mem (h : r ∈ t) : t.get? (pk r) = some r :=
  find?_eq_some_of_mem h (by simp) fun s hs => Indexed.clash_of_pk s r (by simpa using hs)

theorem get?_eq_none {k : κ} : t.get? k = none ↔ ∀ s ∈ t, pk s ≠ k := by
  simp [get?, find?_eq_none]

end Lookup

section Save

variable [DecidableEq κ] {t t' : Table α} {r r₀ : α}

/-- Saving over a stored row with the same unique columns succeeds. -/
theorem save?_isSome (h₀ : r₀ ∈ t) (hpk : pk r = pk r₀) (hc : ∀ s, clash s r = clash s r₀) :
    (t.save? r).isSome := by
  have hany : t.rows.any (fun s => pk s = pk r) = true :=
    List.any_eq_true.2 ⟨r₀, h₀, by simp [hpk]⟩
  have hall : ∀ s ∈ t.rows, pk s ≠ pk r → clash s r = false := by
    intro s hs hne
    by_contra hcl
    rw [hc, Bool.not_eq_false] at hcl
    exact hne (by rw [eq_of_clash hs h₀ hcl, hpk])
  simp only [save?, hany, if_true, dif_pos hall, Option.isSome_some]

theorem save?_eq_some_of_mem (h₀ : r₀ ∈ t) (hpk : pk r = pk r₀) (h : t.save? r = some t') :
    t'.rows = replace t.rows r := by
  have hany : t.rows.any (fun s => pk s = pk r) = true :=
    List.any_eq_true.2 ⟨r₀, h₀, by simp [hpk]⟩
  simp only [save?, hany, if_true] at h
  split at h
  · cases h; rfl
  · cases h

theorem save?_eq_insert? (h₀ : ∀ s ∈ t, pk s ≠ pk r) : t.save? r = t.insert? r := by
  have hany : t.rows.any (fun s => pk s = pk r) = false := by
    rw [List.any_eq_false]
    intro s hs
    simpa using h₀ s hs
  simp only [save?, hany, Bool.false_eq_true, if_false]

theorem get?_save? (h : t.save? r = some t') (k : κ) :
    t'.get? k = if k = pk r then some r else t.get? k := by
  by_cases hmem : ∃ r₀ ∈ t, pk r = pk r₀
  · obtain ⟨r₀, h₀, hpk⟩ := hmem
    have hrows := save?_eq_some_of_mem h₀ hpk h
    by_cases hk : k = pk r
    · rw [if_pos hk, hk]
      apply get?_of_mem
      rw [mem_def, hrows]
      exact List.mem_map.2 ⟨r₀, h₀, by simp [hpk]⟩
    · rw [if_neg hk]
      cases hg : t.get? k with
      | none =>
        rw [get?_eq_none] at hg ⊢
        intro s hs
        rw [mem_def, hrows, mem_replace] at hs
        rcases hs with ⟨hs, -⟩ | ⟨rfl, -⟩
        · exact hg s hs
        · exact Ne.symm hk
      | some s =>
        have hs : pk s = k := pk_of_get? hg
        rw [← hs]
        apply get?_of_mem
        rw [mem_def, hrows, mem_replace]
        exact .inl ⟨mem_of_get? hg, hs ▸ hk⟩
  · have hne : ∀ s ∈ t, pk s ≠ pk r := fun s hs e => hmem ⟨s, hs, e.symm⟩
    exact get?_insert? (save?_eq_insert? hne ▸ h) k

end Save

section Update

variable [DecidableEq κ] {t : Table α} {k : κ} {f : α → α} (hf : KeepsIndexes f) {r : α}

theorem rows_update (h : t.get? k = some r) : (t.update k f hf).rows = replace t.rows (f r) := by
  unfold update
  split
  next r' hr' => rw [h] at hr'; cases hr'; rfl
  next hn => rw [h] at hn; cases hn

theorem update_of_none (h : t.get? k = none) : t.update k f hf = t := by
  unfold update
  split
  next r' hr' => rw [h] at hr'; cases hr'
  next => rfl

theorem sum_update (h : t.get? k = some r) (g : α → Int) :
    (t.update k f hf).sum g = t.sum g - g r + g (f r) := by
  rw [sum, rows_update hf h]
  exact sum_replace g t.distinct (mem_of_get? h) (hf r).1

theorem mem_update (h : t.get? k = some r) {s : α} :
    s ∈ t.update k f hf ↔ (s ∈ t ∧ pk s ≠ k) ∨ s = f r := by
  have hk : pk (f r) = k := by rw [(hf r).1, pk_of_get? h]
  have : ∃ x ∈ t.rows, pk x = k := ⟨r, mem_of_get? h, pk_of_get? h⟩
  rw [mem_def, rows_update hf h, mem_replace, hk]
  simp [this, mem_def]

theorem get?_update (k' : κ) :
    (t.update k f hf).get? k' = if k' = k then (t.get? k).map f else t.get? k' := by
  cases h : t.get? k with
  | none =>
    rw [update_of_none hf h]
    split
    next e => rw [e, h]; rfl
    next => rfl
  | some r =>
    have hk : pk (f r) = k := by rw [(hf r).1, pk_of_get? h]
    split
    next e =>
      have hmem : f r ∈ t.update k f hf := (mem_update hf h).2 (.inr rfl)
      have hget := get?_of_mem hmem
      rw [hk] at hget
      rw [e, hget, Option.map_some]
    next e =>
      cases hg : t.get? k' with
      | none =>
        rw [get?_eq_none] at hg ⊢
        intro s hs
        rcases (mem_update hf h).1 hs with ⟨hs, -⟩ | rfl
        · exact hg s hs
        · rw [hk]
          exact Ne.symm e
      | some s =>
        have hs : pk s = k' := pk_of_get? hg
        rw [← hs]
        exact get?_of_mem ((mem_update hf h).2 (.inl ⟨mem_of_get? hg, hs ▸ e⟩))

theorem has_update_row {p : α → Bool} (h : t.get? k = some r) (hp : p (f r) = p r) :
    (t.update k f hf).has p = t.has p := by
  rw [Bool.eq_iff_iff, has_eq_true, has_eq_true]
  constructor
  · rintro ⟨s, hs, hps⟩
    rcases (mem_update hf h).1 hs with ⟨hs, -⟩ | rfl
    · exact ⟨s, hs, hps⟩
    · exact ⟨r, mem_of_get? h, by rwa [← hp]⟩
  · rintro ⟨s, hs, hps⟩
    by_cases e : pk s = k
    · have : s = r := by rw [← e, get?_of_mem hs] at h; exact Option.some.inj h
      exact ⟨f r, (mem_update hf h).2 (.inr rfl), by rw [hp, ← this, hps]⟩
    · exact ⟨s, (mem_update hf h).2 (.inl ⟨hs, e⟩), hps⟩

theorem has_update {p : α → Bool} (hp : ∀ s, p (f s) = p s) : (t.update k f hf).has p = t.has p := by
  cases h : t.get? k with
  | none => rw [update_of_none hf h]
  | some r => exact has_update_row hf h (hp r)

end Update

end Table

end CodeGo.Lib
