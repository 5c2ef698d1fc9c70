import Mathlib.Data.List.TakeWhile
import Mathlib.Data.List.Basic

/-!
# Patterns

The pieces of a regular expression of which every run of characters is followed by a character
outside it: such a pattern has one way to match.
-/

namespace CodeGo.Lib.Pattern

variable {α : Type}

theorem takeWhile_run {p : α → Bool} {a r : List α} (ha : ∀ c ∈ a, p c = true)
    (hr : ∀ c, r.head? = some c → p c = false) :
    (a ++ r).takeWhile p = a ∧ (a ++ r).dropWhile p = r := by
  have hnil : r.takeWhile p = [] ∧ r.dropWhile p = r := by
    cases r with
    | nil => exact ⟨rfl, rfl⟩
    | cons c r =>
      have hc := hr c rfl
      simp [hc]
  constructor
  · rw [List.takeWhile_append_of_pos ha, hnil.1, List.append_nil]
  · rw [List.dropWhile_append_of_pos ha, hnil.2]

variable [DecidableEq α]

/-- What follows `l` at the start of a text. -/
def expect (l t : List α) : Option (List α) :=
  if l.isPrefixOf t then some (t.drop l.length) else none

/-- A run of at least one character, and what follows it. -/
def run (p : α → Bool) (t : List α) : Option (List α × List α) :=
  if t.takeWhile p = [] then none else some (t.takeWhile p, t.dropWhile p)

/-- What stands in front of `l` at the end of a text. -/
def expectEnd (l t : List α) : Option (List α) := (expect l.reverse t.reverse).map List.reverse

/-- A run at the end, and what stands in front of it. -/
def runEnd (p : α → Bool) (t : List α) : Option (List α × List α) :=
  (run p t.reverse).map fun r => (r.2.reverse, r.1.reverse)

theorem expect_iff {l t r : List α} : expect l t = some r ↔ t = l ++ r := by
  unfold expect
  constructor
  · intro h
    split at h
    · rename_i hprefix
      obtain ⟨s, rfl⟩ := List.isPrefixOf_iff_prefix.1 hprefix
      rw [List.drop_left] at h
      rw [Option.some.inj h]
    · cases h
  · rintro rfl
    rw [if_pos (List.isPrefixOf_iff_prefix.2 (List.prefix_append l r)), List.drop_left]

@[simp] theorem expect_append (l r : List α) : expect l (l ++ r) = some r := expect_iff.2 rfl

theorem run_iff {p : α → Bool} {t a r : List α} : run p t = some (a, r) ↔
    t = a ++ r ∧ a ≠ [] ∧ (∀ c ∈ a, p c = true) ∧ ∀ c, r.head? = some c → p c = false := by
  unfold run
  constructor
  · intro h
    split at h
    · cases h
    · rename_i hne
      obtain ⟨rfl, rfl⟩ := Prod.mk.inj (Option.some.inj h)
      refine ⟨(List.takeWhile_append_dropWhile ..).symm, hne, ?_, ?_⟩
      · intro c hc
        exact List.mem_takeWhile_imp hc
      · intro c hc
        have hdrop := List.head?_dropWhile_not p t
        rw [hc] at hdrop
        simpa using hdrop
  · rintro ⟨rfl, hne, ha, hr⟩
    obtain ⟨htake, hdrop⟩ := takeWhile_run ha hr
    rw [htake, hdrop, if_neg hne]

theorem expectEnd_iff {l t r : List α} : expectEnd l t = some r ↔ t = r ++ l := by
  unfold expectEnd
  simp only [Option.map_eq_some_iff, expect_iff]
  constructor
  · rintro ⟨s, hs, rfl⟩
    have h := congrArg List.reverse hs
    simpa using h
  · rintro rfl
    exact ⟨r.reverse, by simp, by simp⟩

theorem runEnd_iff {p : α → Bool} {t r a : List α} : runEnd p t = some (r, a) ↔
    t = r ++ a ∧ a ≠ [] ∧ (∀ c ∈ a, p c = true) ∧ ∀ c, r.getLast? = some c → p c = false := by
  unfold runEnd
  simp only [Option.map_eq_some_iff, Prod.exists, Prod.mk.injEq]
  constructor
  · rintro ⟨b, s, h, rfl, rfl⟩
    obtain ⟨ht, hne, hb, hs⟩ := run_iff.1 h
    have hsplit := congrArg List.reverse ht
    simp only [List.reverse_reverse, List.reverse_append] at hsplit
    refine ⟨hsplit, by simpa using hne, ?_, ?_⟩
    · intro c hc
      exact hb c (List.mem_reverse.1 hc)
    · intro c hc
      rw [List.getLast?_reverse] at hc
      exact hs c hc
  · rintro ⟨rfl, hne, ha, hr⟩
    refine ⟨a.reverse, r.reverse, run_iff.2 ⟨by simp, by simpa using hne, ?_, ?_⟩, by simp, by simp⟩
    · intro c hc
      exact ha c (List.mem_reverse.1 hc)
    · intro c hc
      rw [List.head?_reverse] at hc
      exact hr c hc

end CodeGo.Lib.Pattern
