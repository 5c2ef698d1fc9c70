import Mathlib.Data.List.Infix

/-!
# Streaks

How many elements at the end of a list satisfy a predicate, and lists in which
no streak of such elements is long. A history grows at its end, so both are
given one element at a time.
-/

namespace CodeGo.Lib

variable {α : Type} {p : α → Bool}

/-- The length of the longest suffix whose elements all satisfy `p`. -/
def trailing (p : α → Bool) (xs : List α) : Nat := (xs.reverse.takeWhile p).length

/-- Fewer than `n` consecutive elements satisfy `p`. -/
def StreaksBelow (p : α → Bool) (n : Nat) (xs : List α) : Prop :=
  ∀ ys, ys <:+: xs → (∀ y ∈ ys, p y = true) → ys.length < n

@[simp] theorem trailing_nil : trailing p [] = 0 := rfl

theorem trailing_concat (xs : List α) (x : α) :
    trailing p (xs ++ [x]) = if p x then trailing p xs + 1 else 0 := by
  simp only [trailing, List.reverse_append, List.reverse_singleton, List.singleton_append,
    List.takeWhile_cons]
  split <;> rfl

/-- A suffix whose elements all satisfy `p` is within the longest one. -/
theorem length_le_trailing {xs ys : List α} (h : ys <:+ xs) (hp : ∀ y ∈ ys, p y = true) :
    ys.length ≤ trailing p xs := by
  obtain ⟨zs, rfl⟩ := h
  have htake : (ys.reverse ++ zs.reverse).takeWhile p =
      ys.reverse ++ zs.reverse.takeWhile p :=
    List.takeWhile_append_of_pos fun y hy => hp y (List.mem_reverse.1 hy)
  simp only [trailing, List.reverse_append, htake, List.length_append, List.length_reverse]
  omega

theorem streaksBelow_nil {n : Nat} (hn : 0 < n) : StreaksBelow p n [] := by
  intro ys hys _
  rw [List.infix_nil.1 hys]
  exact hn

theorem StreaksBelow.concat {n : Nat} {xs : List α} {x : α} (h : StreaksBelow p n xs)
    (hx : trailing p (xs ++ [x]) < n) : StreaksBelow p n (xs ++ [x]) := by
  intro ys hys hp
  rcases List.infix_concat_iff.1 hys with hsuffix | hinfix
  · have := length_le_trailing hsuffix hp
    omega
  · exact h ys hinfix hp

/-- Of `n` consecutive elements one does not satisfy `p`. -/
theorem StreaksBelow.exists_not {n : Nat} {xs ys : List α} (h : StreaksBelow p n xs)
    (hys : ys <:+: xs) (hn : n ≤ ys.length) : ∃ y ∈ ys, p y = false := by
  by_contra hall
  have hlt : ys.length < n := by
    apply h ys hys
    intro y hy
    by_contra hpy
    exact hall ⟨y, hy, by simpa using hpy⟩
  omega

end CodeGo.Lib
