import Mathlib.Data.List.Rotate

/-!
# Taking turns

The indices of a list in a circle, of which some may be taken: whoever looks for the next one from
behind the last one that was taken gets each of them once before any of them again.
-/

namespace CodeGo.Lib.Rotation

variable {α : Type} {p : α → Bool} {xs : List α} {x : α}

/-- Behind the first element that satisfies `p`, those that do are as before, up to a rotation. -/
theorem filter_rotate_of_find (h : xs.find? p = some x) :
    ∃ i, xs[i]? = some x ∧ ∃ rest, xs.filter p = x :: rest ∧
      (xs.rotate (i + 1)).filter p = rest ++ [x] := by
  obtain ⟨hx, before, after, hsplit, hbefore⟩ := List.find?_eq_some_iff_append.1 h
  have hnone : before.filter p = [] := by
    rw [List.filter_eq_nil_iff]
    intro a ha
    simpa using hbefore a ha
  have hrotate : xs.rotate (before.length + 1) = after ++ (before ++ [x]) := by
    have hlength : before.length + 1 = (before ++ [x]).length := by simp
    rw [hsplit, hlength, List.append_cons, List.rotate_append_length_eq]
  refine ⟨before.length, ?_, after.filter p, ?_, ?_⟩
  · rw [hsplit, List.getElem?_append_right (le_refl _), Nat.sub_self, List.getElem?_cons_zero]
  · rw [hsplit, List.filter_append, hnone, List.nil_append, List.filter_cons_of_pos hx]
  · rw [hrotate, List.filter_append, List.filter_append, hnone, List.nil_append,
      List.filter_cons_of_pos hx, List.filter_nil]

variable (p : Nat → Bool) (n : Nat)

/-- The next index from `start` on. -/
def next (start : Nat) : Option Nat := ((List.range n).rotate start).find? p

/-- The indices that are taken one after another. -/
def turns : Nat → Nat → List Nat
  | _, 0 => []
  | start, k + 1 => match next p n start with
    | none => []
    | some i => i :: turns ((i + 1) % n) k

variable {p n}

theorem next_isSome {start i : Nat} (hi : i < n) (hp : p i = true) : (next p n start).isSome := by
  rw [next, List.find?_isSome]
  exact ⟨i, List.mem_rotate.2 (List.mem_range.2 hi), hp⟩

theorem next_eq_some {start i : Nat} (h : next p n start = some i) : i < n ∧ p i = true :=
  ⟨List.mem_range.1 (List.mem_rotate.1 (List.mem_of_find?_eq_some h)), List.find?_some h⟩

/-- Where the search goes on. -/
theorem rotate_next {start i j : Nat} (h : ((List.range n).rotate start)[i]? = some j) :
    ((List.range n).rotate start).rotate (i + 1) = (List.range n).rotate ((j + 1) % n) := by
  obtain ⟨hi, hj⟩ := List.getElem?_eq_some_iff.1 h
  rw [List.getElem_rotate, List.getElem_range, List.length_range] at hj
  have hmod : (j + 1) % n = (start + (i + 1)) % (List.range n).length := by
    rw [List.length_range, ← hj, Nat.mod_add_mod]
    congr 1
    omega
  rw [hmod, List.rotate_mod, List.rotate_rotate]

theorem turns_eq (start k : Nat) (hk : k ≤ ((List.range n).filter p).length) :
    turns p n start k = (((List.range n).rotate start).filter p).take k := by
  induction k generalizing start with
  | zero => rfl
  | succ k ih =>
    have hperm : (((List.range n).rotate start).filter p).Perm ((List.range n).filter p) :=
      (List.rotate_perm (List.range n) start).filter p
    rw [turns]
    cases hnext : next p n start with
    | none =>
      rw [next, List.find?_eq_none] at hnext
      have hempty : ((List.range n).rotate start).filter p = [] := List.filter_eq_nil_iff.2 hnext
      rw [← hperm.length_eq, hempty, List.length_nil] at hk
      omega
    | some j =>
      obtain ⟨i, hi, rest, hfilter, hrotated⟩ := filter_rotate_of_find hnext
      rw [rotate_next hi] at hrotated
      have hrest : k ≤ rest.length := by
        rw [← hperm.length_eq, hfilter, List.length_cons] at hk
        omega
      dsimp only
      rw [ih ((j + 1) % n) (by omega), hrotated, hfilter, List.take_succ_cons,
        List.take_append_of_le_length hrest]

/-- In as many turns as there are indices to take, each of them is taken once. -/
theorem turns_perm (start : Nat) :
    (turns p n start ((List.range n).filter p).length).Perm ((List.range n).filter p) := by
  have hperm : (((List.range n).rotate start).filter p).Perm ((List.range n).filter p) :=
    (List.rotate_perm (List.range n) start).filter p
  rw [turns_eq start _ (le_refl _), ← hperm.length_eq, List.take_length]
  exact hperm

end CodeGo.Lib.Rotation
