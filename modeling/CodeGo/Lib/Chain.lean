import Mathlib.Data.List.Nodup
import Mathlib.Data.List.Infix

/-!
# Chains of a partial function

What is met when a partial function is followed from a start, until it ends or comes back.
-/

namespace CodeGo.Lib.Chain

variable {α : Type} {next : α → Option α} {x y z w : α} {ys zs : List α}

/-- From `x` over `ys` to `z`, the last one of `x :: ys`. -/
inductive Follows (next : α → Option α) : α → List α → α → Prop
  | stop (x : α) : Follows next x [] x
  | move {x y z : α} {ys : List α} (hnext : next x = some y) (h : Follows next y ys z) :
      Follows next x (y :: ys) z

/-- The chain from `x` ends at `z` and meets nothing twice. -/
structure Ends (next : α → Option α) (x : α) (ys : List α) (z : α) : Prop where
  follows : Follows next x ys z
  nodup : (x :: ys).Nodup
  ends : next z = none

def Revisits (next : α → Option α) (x : α) : Prop :=
  ∃ ys z, Follows next x ys z ∧ ¬ (x :: ys).Nodup

theorem Follows.concat (h : Follows next x ys z) (hnext : next z = some w) :
    Follows next x (ys ++ [w]) w := by
  induction h with
  | stop x => exact .move hnext (.stop w)
  | move hfirst h ih => exact .move hfirst (ih hnext)

theorem Follows.mem (h : Follows next x ys z) : z ∈ x :: ys := by
  induction h with
  | stop x => exact List.mem_cons_self
  | move hfirst h ih => exact List.mem_cons_of_mem _ ih

/-- A chain that has ended goes over everything the function leads to. -/
theorem Follows.isPrefix (h : Follows next x ys z) (hend : next z = none)
    (h' : Follows next x zs w) : zs <+: ys := by
  induction h' generalizing ys with
  | stop x => exact List.nil_prefix
  | move hfirst' h' ih =>
    cases h with
    | stop x =>
      rw [hend] at hfirst'
      cases hfirst'
    | move hfirst h =>
      rw [hfirst] at hfirst'
      cases hfirst'
      exact List.cons_prefix_cons.2 ⟨rfl, ih h⟩

theorem Follows.last_eq (h : Follows next x ys z) (h' : Follows next x ys w) : z = w := by
  induction h with
  | stop x =>
    cases h'
    rfl
  | move hfirst h ih =>
    cases h' with
    | move hfirst' h' => exact ih h'

theorem Ends.unique (h : Ends next x ys z) (h' : Ends next x zs w) : ys = zs ∧ z = w := by
  have heq : ys = zs := (h'.follows.isPrefix h'.ends h.follows).eq_of_length_le
    (h.follows.isPrefix h.ends h'.follows).length_le
  subst heq
  exact ⟨rfl, h.follows.last_eq h'.follows⟩

theorem Ends.not_revisits (h : Ends next x ys z) : ¬ Revisits next x := by
  rintro ⟨zs, w, h', hdup⟩
  have hprefix : x :: zs <+: x :: ys :=
    List.cons_prefix_cons.2 ⟨rfl, h.follows.isPrefix h.ends h'⟩
  exact hdup (h.nodup.sublist hprefix.sublist)

/-- A step back to something that was met. -/
theorem Follows.revisits (h : Follows next x ys z) (hnext : next z = some w) (hw : w ∈ x :: ys) :
    Revisits next x := by
  refine ⟨ys ++ [w], w, h.concat hnext, fun hnodup => ?_⟩
  rw [← List.cons_append, List.nodup_append] at hnodup
  exact hnodup.2.2 w hw w (List.mem_singleton_self w) rfl

end CodeGo.Lib.Chain
