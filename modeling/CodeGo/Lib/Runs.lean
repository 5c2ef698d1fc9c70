import Mathlib.Data.List.Basic

/-!
# Runs

The maximal stretches of a list in which a relation holds between neighbours. A loop that extends
its last entry while the relation holds, and starts a new entry otherwise, makes one entry of each
run.
-/

namespace CodeGo.Lib.Runs

section Runs

variable {α : Type} (r : α → α → Bool)

/-- What continues the run of the element, and the runs after it. -/
def runTail : α → List α → List α × List (List α)
  | _, [] => ([], [])
  | a, b :: l =>
    if r a b then (b :: (runTail b l).1, (runTail b l).2)
    else ([], (b :: (runTail b l).1) :: (runTail b l).2)

def runs : List α → List (List α)
  | [] => []
  | a :: l => (a :: (runTail r a l).1) :: (runTail r a l).2

variable {r} {a b : α} {l : List α}

theorem runTail_cons_pos (h : r a b = true) :
    runTail r a (b :: l) = (b :: (runTail r b l).1, (runTail r b l).2) := by
  rw [runTail, if_pos h]

theorem runTail_cons_neg (h : r a b = false) :
    runTail r a (b :: l) = ([], (b :: (runTail r b l).1) :: (runTail r b l).2) := by
  rw [runTail, if_neg (by simp [h])]

theorem append_runTail : (runTail r a l).1 ++ (runTail r a l).2.flatten = l := by
  induction l generalizing a with
  | nil => rfl
  | cons b l ih =>
    cases h : r a b with
    | true => rw [runTail_cons_pos h, List.cons_append, ih]
    | false => rw [runTail_cons_neg h, List.nil_append, List.flatten_cons, List.cons_append, ih]

theorem flatten_runs : (runs r l).flatten = l := by
  cases l with
  | nil => rfl
  | cons a l => rw [runs, List.flatten_cons, List.cons_append, append_runTail]

theorem ne_nil_of_mem_runs {run : List α} (h : run ∈ runs r l) : run ≠ [] := by
  cases l with
  | nil => cases h
  | cons a l =>
    rcases List.mem_cons.1 h with rfl | h
    · exact List.cons_ne_nil _ _
    · induction l generalizing a with
      | nil => cases h
      | cons b l ih =>
        cases hr : r a b with
        | true =>
          rw [runTail_cons_pos hr] at h
          exact ih b (List.mem_cons_of_mem _ h) h
        | false =>
          rw [runTail_cons_neg hr] at h
          rcases List.mem_cons.1 h with rfl | h
          · exact List.cons_ne_nil _ _
          · exact ih b (List.mem_cons_of_mem _ h) h

theorem isChain_runTail :
    (a :: (runTail r a l).1).IsChain (fun a b => r a b = true) ∧
      ∀ run ∈ (runTail r a l).2, run.IsChain fun a b => r a b = true := by
  induction l generalizing a with
  | nil => exact ⟨.singleton a, nofun⟩
  | cons b l ih =>
    obtain ⟨hrun, hothers⟩ := @ih b
    cases h : r a b with
    | true =>
      rw [runTail_cons_pos h]
      exact ⟨.cons_cons h hrun, hothers⟩
    | false =>
      rw [runTail_cons_neg h]
      refine ⟨.singleton a, fun run hmem => ?_⟩
      rcases List.mem_cons.1 hmem with rfl | hmem
      · exact hrun
      · exact hothers run hmem

/-- In a run the relation holds between neighbours. -/
theorem isChain_of_mem_runs {run : List α} (h : run ∈ runs r l) :
    run.IsChain fun a b => r a b = true := by
  cases l with
  | nil => cases h
  | cons a l =>
    rcases List.mem_cons.1 h with rfl | h
    · exact isChain_runTail.1
    · exact isChain_runTail.2 run h

end Runs

section Loops

variable {α β : Type} (r : α → α → Bool) (start : α → β) (extend : β → α → β)

/-- A loop over the elements: the entry of the run it is in, and what it sees next. -/
def collect : β → α → List α → List β
  | e, _, [] => [e]
  | e, a, b :: l => if r a b then collect (extend e b) b l else e :: collect (start b) b l

/-- What a run becomes. -/
def entry : List α → Option β
  | [] => none
  | a :: run => some (run.foldl extend (start a))

theorem collect_eq (e : β) (a : α) (l : List α) :
    collect r start extend e a l =
      (runTail r a l).1.foldl extend e :: (runTail r a l).2.filterMap (entry start extend) := by
  induction l generalizing e a with
  | nil => rfl
  | cons b l ih =>
    rw [collect]
    cases h : r a b with
    | true =>
      rw [if_pos rfl, ih, runTail_cons_pos h]
      rfl
    | false =>
      rw [if_neg (by simp), ih, runTail_cons_neg h]
      rfl

end Loops

end CodeGo.Lib.Runs
