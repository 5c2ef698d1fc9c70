import Mathlib.Algebra.BigOperators.Group.List.Basic
import Mathlib.Algebra.Order.BigOperators.Group.List
import Mathlib.Data.Int.Order.Basic
import Mathlib.Data.List.Infix
import Mathlib.Algebra.Ring.Int.Defs

/-!
# First in, first out

An amount is taken from a list of sources, each up to what it holds, from the first on.
-/

namespace CodeGo.Lib.Fifo

variable {α : Type} {cap : α → Int} {xs : List α} {amount : Int}

/-- What is taken from each source; those that are not reached are left out. -/
def draw (cap : α → Int) : List α → Int → List (α × Int)
  | [], _ => []
  | x :: rest, amount =>
    if amount = 0 then []
    else (x, min (cap x) amount) :: draw cap rest (amount - min (cap x) amount)

/-- All that is taken. -/
def total (ds : List (α × Int)) : Int := (ds.map Prod.snd).sum

@[simp] theorem total_nil : total ([] : List (α × Int)) = 0 := rfl

@[simp] theorem total_cons (d : α × Int) (ds : List (α × Int)) : total (d :: ds) = d.2 + total ds := by
  simp [total]

/-- The sources are used in their order: none before those in front of it are exhausted. -/
structure FirstOut (cap : α → Int) (xs : List α) (ds : List (α × Int)) : Prop where
  order : ds.map Prod.fst <+: xs
  positive : ∀ d ∈ ds, 0 < d.2 ∧ d.2 ≤ cap d.1
  exhausted : ∀ pre d post, ds = pre ++ d :: post → ∀ b ∈ pre, b.2 = cap b.1

theorem FirstOut.nil (cap : α → Int) (xs : List α) : FirstOut cap xs [] where
  order := List.nil_prefix
  positive d hd := by cases hd
  exhausted pre d post h := by
    have := congrArg List.length h
    simp at this

/-- One more source in front, which is exhausted unless nothing else is used. -/
theorem FirstOut.cons {ds : List (α × Int)} {x : α} {used : Int} (h : FirstOut cap xs ds)
    (hused : 0 < used) (hle : used ≤ cap x) (hall : ds ≠ [] → used = cap x) :
    FirstOut cap (x :: xs) ((x, used) :: ds) where
  order := List.cons_prefix_cons.2 ⟨rfl, h.order⟩
  positive d hd := by
    rcases List.mem_cons.1 hd with rfl | hd
    · exact ⟨hused, hle⟩
    · exact h.positive d hd
  exhausted pre d post he b hb := by
    cases pre with
    | nil => cases hb
    | cons b' pre =>
      obtain ⟨rfl, rfl⟩ := List.cons.inj he
      rcases List.mem_cons.1 hb with rfl | hb
      · exact hall (List.append_ne_nil_of_right_ne_nil _ (List.cons_ne_nil _ _))
      · exact h.exhausted pre d post rfl b hb

theorem draw_zero (cap : α → Int) (xs : List α) : draw cap xs 0 = [] := by
  cases xs with
  | nil => rfl
  | cons x rest => rw [draw, if_pos rfl]

theorem firstOut_draw (hpos : ∀ x ∈ xs, 0 < cap x) (hamount : 0 ≤ amount) :
    FirstOut cap xs (draw cap xs amount) := by
  induction xs generalizing amount with
  | nil => exact .nil cap []
  | cons x rest ih =>
    have hx := hpos x (.head _)
    rw [draw]
    split
    next => exact .nil cap _
    next hne =>
      apply FirstOut.cons (ih (fun y hy => hpos y (.tail _ hy)) (by omega)) (by omega)
        (min_le_left _ _)
      intro hrest
      -- something is left only if the source is exhausted
      by_contra hlt
      have hzero : amount - min (cap x) amount = 0 := by omega
      rw [hzero, draw_zero] at hrest
      exact hrest rfl

theorem sum_nonneg_of_pos (hpos : ∀ x ∈ xs, 0 < cap x) : 0 ≤ (xs.map cap).sum := by
  apply List.sum_nonneg
  intro y hy
  obtain ⟨x, hx, rfl⟩ := List.mem_map.1 hy
  exact (hpos x hx).le

/-- The amount is taken as far as there is something to take. -/
theorem total_draw (hpos : ∀ x ∈ xs, 0 < cap x) (hamount : 0 ≤ amount) :
    total (draw cap xs amount) = min amount (xs.map cap).sum := by
  induction xs generalizing amount with
  | nil =>
    simp only [draw, total_nil, List.map_nil, List.sum_nil]
    omega
  | cons x rest ih =>
    have hx := hpos x (.head _)
    have hrest : 0 ≤ (rest.map cap).sum := sum_nonneg_of_pos fun y hy => hpos y (.tail _ hy)
    rw [draw, List.map_cons, List.sum_cons]
    split
    next hzero =>
      rw [total_nil]
      omega
    next =>
      rw [total_cons, ih (fun y hy => hpos y (.tail _ hy)) (by omega)]
      omega

/-- In a sorted list, what comes before a source that is used was exhausted before it. -/
theorem FirstOut.earlier {ds : List (α × Int)} {lt : α → α → Prop} (h : FirstOut cap xs ds)
    (hsorted : xs.Pairwise lt) (hasymm : ∀ x y, lt x y → ¬ lt y x) {pre post : List (α × Int)}
    {d : α × Int} (he : ds = pre ++ d :: post) {x : α} (hx : x ∈ xs) (hlt : lt x d.1) :
    ∃ b ∈ pre, b.1 = x ∧ b.2 = cap x := by
  obtain ⟨tail, htail⟩ := h.order
  rw [he, List.map_append, List.map_cons, List.append_assoc, List.cons_append] at htail
  rw [← htail] at hx hsorted
  rcases List.mem_append.1 hx with hpre | hpost
  · obtain ⟨b, hb, rfl⟩ := List.mem_map.1 hpre
    exact ⟨b, hb, rfl, h.exhausted pre d post he b hb⟩
  · have hlater := (List.pairwise_append.1 hsorted).2.1
    rcases List.mem_cons.1 hpost with rfl | hpost
    · exact absurd hlt (hasymm _ _ hlt)
    · exact absurd hlt (hasymm _ _ ((List.pairwise_cons.1 hlater).1 x hpost))

end CodeGo.Lib.Fifo
