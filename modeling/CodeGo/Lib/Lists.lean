import Mathlib.Data.List.Forall2
import Mathlib.Data.List.Basic

/-!
# Lists

Selections and groups of two lists that are compared element by element, lists that are read
element by element, and pairs of elements in their order.
-/

namespace CodeGo.Lib.Lists

section Orders

variable {α : Type}

/-- A relation between all earlier and later elements, said of the splits of the list. -/
theorem pairwise_iff_append {R : α → α → Prop} {l : List α} :
    l.Pairwise R ↔ ∀ before b after, l = before ++ b :: after → ∀ a ∈ before, R a b := by
  constructor
  · rintro h before b after rfl a ha
    exact (List.pairwise_append.1 h).2.2 a ha b List.mem_cons_self
  · intro h
    rw [List.pairwise_iff_forall_sublist]
    intro a b hab
    obtain ⟨r₁, r₂, rfl, ha, hb⟩ := List.cons_sublist_iff.1 hab
    obtain ⟨p, q, rfl⟩ := List.append_of_mem (List.singleton_sublist.1 hb)
    exact h (r₁ ++ p) b q (by rw [List.append_assoc]) a (List.mem_append_left _ ha)

/-- What holds at every place of two lists one after another. -/
theorem forall_split_append {P : List α → α → Prop} {l k : List α} :
    (∀ before x after, l ++ k = before ++ x :: after → P before x) ↔
      (∀ before x after, l = before ++ x :: after → P before x) ∧
        ∀ before x after, k = before ++ x :: after → P (l ++ before) x := by
  constructor
  · intro h
    refine ⟨fun before x after hl => h before x (after ++ k) ?_, fun before x after hk => ?_⟩
    · rw [hl, List.append_assoc, List.cons_append]
    · exact h (l ++ before) x after (by rw [hk, List.append_assoc])
  · rintro ⟨hl, hk⟩ before x after hsplit
    rcases List.append_eq_append_iff.1 hsplit with ⟨middle, rfl, htail⟩ | ⟨middle, rfl, htail⟩
    · exact hk middle x after htail
    · cases middle with
      | nil =>
        simpa using hk [] x after htail.symm
      | cons z middle =>
        obtain ⟨rfl, rfl⟩ := List.cons.inj htail
        exact hl before x middle rfl

theorem forall_split_nil {P : List α → α → Prop} :
    ∀ before x after, [] = before ++ x :: after → P before x := by
  intro before x after hsplit
  simp at hsplit

theorem forall_split_singleton {P : List α → α → Prop} {y : α} :
    (∀ before x after, [y] = before ++ x :: after → P before x) ↔ P [] y := by
  constructor
  · exact fun h => h [] y [] rfl
  · rintro h (_ | ⟨z, before⟩) x after hsplit
    · obtain ⟨rfl, -⟩ := List.cons.inj hsplit
      exact h
    · simp at hsplit

/-- What holds at every place of a list with one more element. -/
theorem forall_split_concat {P : List α → α → Prop} {l : List α} {y : α} :
    (∀ before x after, l ++ [y] = before ++ x :: after → P before x) ↔
      (∀ before x after, l = before ++ x :: after → P before x) ∧ P l y := by
  rw [forall_split_append, forall_split_singleton (P := fun before x => P (l ++ before) x),
    List.append_nil]

theorem forall_split_cons {P : List α → α → Prop} {l : List α} {y : α} :
    (∀ before x after, y :: l = before ++ x :: after → P before x) ↔
      P [] y ∧ ∀ before x after, l = before ++ x :: after → P (y :: before) x := by
  rw [← List.singleton_append, forall_split_append, forall_split_singleton]
  rfl

end Orders

section Reading

variable {α β ε : Type}

/-- A list is read as another one exactly where its elements are. -/
theorem mapM_ok_iff {f : α → Except ε β} {xs : List α} {ys : List β} :
    xs.mapM f = .ok ys ↔ List.Forall₂ (fun x y => f x = .ok y) xs ys := by
  induction xs generalizing ys with
  | nil =>
    constructor
    · intro h
      obtain rfl := Except.ok.inj h
      exact List.Forall₂.nil
    · intro h
      cases h
      rfl
  | cons x xs ih =>
    rw [List.mapM_cons]
    constructor
    · intro h
      cases hx : f x with
      | error e =>
        rw [hx] at h
        cases h
      | ok y =>
        rw [hx] at h
        replace h : (xs.mapM f >>= fun bs => .ok (y :: bs)) = Except.ok ys := h
        cases hxs : xs.mapM f with
        | error e =>
          rw [hxs] at h
          cases h
        | ok bs =>
          rw [hxs] at h
          obtain rfl := Except.ok.inj h
          exact List.Forall₂.cons hx (ih.1 hxs)
    · rintro (_ | ⟨hx, hxs⟩)
      rw [hx, ih.2 hxs]
      rfl

/-- Whatever is read was read from an element. -/
theorem mem_of_mapM_ok {f : α → Except ε β} {xs : List α} {ys : List β}
    (h : xs.mapM f = .ok ys) {y : β} (hy : y ∈ ys) : ∃ x, f x = .ok y := by
  rw [mapM_ok_iff] at h
  induction h with
  | nil => cases hy
  | @cons x z xs zs hx _ ih =>
    rcases List.mem_cons.1 hy with rfl | hy
    · exact ⟨x, hx⟩
    · exact ih hy

/-- The last step of a loop that ends. -/
theorem foldlM_concat_ok {σ : Type} {g : σ → α → Except ε σ} {xs : List α} {x : α} {s s' : σ}
    (h : (xs ++ [x]).foldlM g s = .ok s') : ∃ m, xs.foldlM g s = .ok m ∧ g m x = .ok s' := by
  rw [List.foldlM_append] at h
  cases hxs : xs.foldlM g s with
  | error e =>
    rw [hxs] at h
    cases h
  | ok m =>
    rw [hxs] at h
    refine ⟨m, rfl, ?_⟩
    replace h : (g m x >>= fun s => pure s) = .ok s' := h
    rwa [bind_pure] at h

end Reading

section Selections

variable {α β γ δ : Type} {R : β → γ → Prop}

theorem filterMap_cons_toList (f : α → Option β) (a : α) (l : List α) :
    (a :: l).filterMap f = (f a).toList ++ l.filterMap f := by
  cases h : f a <;> simp [h]

/-- Two selections from one list that select at the same places. -/
theorem forall₂_filterMap {l : List α} {f : α → Option β} {g : α → Option γ}
    (h : ∀ a ∈ l, (f a).isSome = (g a).isSome) :
    (l.filterMap g).length = (l.filterMap f).length ∧
      (List.Forall₂ R (l.filterMap f) (l.filterMap g) ↔
        ∀ a ∈ l, ∀ x, f a = some x → ∀ y, g a = some y → R x y) := by
  induction l with
  | nil => simp
  | cons a l ih =>
    obtain ⟨ha, hl⟩ := List.forall_mem_cons.1 h
    obtain ⟨hlength, hiff⟩ := ih hl
    cases hf : f a with
    | none =>
      have hg : g a = none := by simpa [hf] using ha.symm
      rw [List.filterMap_cons_none hf, List.filterMap_cons_none hg, hiff]
      refine ⟨hlength, ?_⟩
      simp [hf]
    | some x =>
      obtain ⟨y, hg⟩ : ∃ y, g a = some y := Option.isSome_iff_exists.1 (by rw [← ha, hf]; rfl)
      rw [List.filterMap_cons_some hf, List.filterMap_cons_some hg, List.forall₂_cons, hiff]
      refine ⟨by simp [hlength], ?_⟩
      simp [hf, hg]

theorem forall₂_append_iff {l₁ l₂ : List β} {k₁ k₂ : List γ} (h : k₁.length = l₁.length) :
    List.Forall₂ R (l₁ ++ l₂) (k₁ ++ k₂) ↔ List.Forall₂ R l₁ k₁ ∧ List.Forall₂ R l₂ k₂ := by
  induction l₁ generalizing k₁ with
  | nil =>
    rw [List.length_nil, List.length_eq_zero_iff] at h
    subst h
    simp
  | cons b l₁ ih =>
    obtain ⟨c, k₁, rfl⟩ := List.exists_cons_of_length_eq_add_one h
    rw [List.cons_append, List.cons_append, List.forall₂_cons, List.forall₂_cons,
      ih (by simpa using h), and_assoc]

/-- Where no group is longer than what it is for, all of it can be represented only if each group
represents what it is for. -/
theorem forall₂_flatMap {l : List α} {k : List δ} {f : α → List β} {g : δ → List γ}
    (h : List.Forall₂ (fun a d => (g d).length ≤ (f a).length) l k) :
    List.Forall₂ R (l.flatMap f) (k.flatMap g) ↔
      List.Forall₂ (fun a d => List.Forall₂ R (f a) (g d)) l k := by
  induction h with
  | nil => simp
  | @cons a d l k hle hrest ih =>
    rw [List.flatMap_cons, List.flatMap_cons, List.forall₂_cons, ← ih]
    constructor
    · intro hall
      have hlength := hall.length_eq
      have htail : (k.flatMap g).length ≤ (l.flatMap f).length := by
        clear ih hall hlength
        induction hrest with
        | nil => exact Nat.le_refl _
        | cons hle' _ ih =>
          rw [List.flatMap_cons, List.flatMap_cons, List.length_append, List.length_append]
          omega
      rw [List.length_append, List.length_append] at hlength
      exact (forall₂_append_iff (by omega)).1 hall
    · rintro ⟨hhead, htail⟩
      exact (forall₂_append_iff hhead.length_eq.symm).2 ⟨hhead, htail⟩

end Selections

end CodeGo.Lib.Lists
