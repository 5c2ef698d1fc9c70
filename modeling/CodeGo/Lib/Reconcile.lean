import Mathlib.Data.Set.Basic

/-!
# Reconciling a set with an upstream one

A local set follows an upstream one: what upstream has more is added unless it is ignored or covered
by an alias, what upstream lacks is removed unless it is pinned. One round reaches a set that the
next round leaves alone.
-/

namespace CodeGo.Lib.Reconcile

variable {α : Type}

structure Rules (α : Type) where
  upstream : Set α
  ignored : Set α
  pinned : Set α
  covered : Set α

namespace Rules

variable (r : Rules α) (l : Set α)

def additions : Set α := {m | m ∈ r.upstream ∧ m ∉ l ∧ m ∉ r.covered ∧ m ∉ r.ignored}

def removals : Set α := {m | m ∈ l ∧ m ∉ r.pinned ∧ m ∉ r.upstream}

def next : Set α := (l ∪ r.additions l) \ r.removals l

variable {r l} {m : α}

/-- Nothing is added and removed at once. -/
theorem not_mem_removals_of_addition (h : m ∈ r.additions l) : m ∉ r.removals l :=
  fun hrem => h.2.1 hrem.1

theorem mem_next :
    m ∈ r.next l ↔ m ∈ l ∧ (m ∈ r.pinned ∨ m ∈ r.upstream) ∨ m ∈ r.additions l := by
  constructor
  · rintro ⟨hl | hadd, hrem⟩
    · refine .inl ⟨hl, ?_⟩
      by_contra hnot
      rw [not_or] at hnot
      exact hrem ⟨hl, hnot⟩
    · exact .inr hadd
  · rintro (⟨hl, hkept⟩ | hadd)
    · exact ⟨.inl hl, fun hrem => hkept.elim hrem.2.1 hrem.2.2⟩
    · exact ⟨.inr hadd, not_mem_removals_of_addition hadd⟩

theorem additions_next : r.additions (r.next l) = ∅ := by
  ext m
  simp only [Set.mem_empty_iff_false, iff_false]
  rintro ⟨hup, hnext, hfree⟩
  by_cases hl : m ∈ l
  · exact hnext (mem_next.2 (.inl ⟨hl, .inr hup⟩))
  · exact hnext (mem_next.2 (.inr ⟨hup, hl, hfree⟩))

theorem removals_next : r.removals (r.next l) = ∅ := by
  ext m
  simp only [Set.mem_empty_iff_false, iff_false]
  rintro ⟨hnext, hpinned, hup⟩
  rcases mem_next.1 hnext with ⟨-, hkept⟩ | hadd
  · exact hkept.elim hpinned hup
  · exact hup hadd.1

theorem pinned_subset_next (hl : m ∈ l) (hpinned : m ∈ r.pinned) : m ∈ r.next l :=
  mem_next.2 (.inl ⟨hl, .inl hpinned⟩)

end Rules

end CodeGo.Lib.Reconcile
