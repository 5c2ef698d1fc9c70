import Mathlib.Data.Finset.Card
import Mathlib.Data.Set.Finite.Lemmas

/-!
# Batches that stop at the first failure

A worker is called again and again. Each call takes the first of the pending items that are due, in
their order, and attempts one after the other up to the first that fails. `drained_iff` says that
the items which would succeed are all served exactly when none of them ever waits behind an item
that keeps failing.
-/

namespace CodeGo.Lib.Batch

/-- Pending items in states of type `σ`, and what a call of the worker does to them. The number of
the call stands for what a call brings with it: its time, its size, its choices. -/
structure Worker (σ κ γ : Type) [DecidableEq κ] [LinearOrder γ] where
  pending : σ → Finset κ
  rank : κ → γ
  due : Nat → κ → Prop
  attempt : Nat → κ → σ → Option σ
  batch : Nat → σ → List κ
  inv : σ → Prop
  rank_injective : ∀ j k, rank j = rank k → j = k
  due_mono : ∀ {n m k}, n ≤ m → due n k → due m k
  inv_attempt : ∀ {n k s s'}, inv s → attempt n k s = some s' → inv s'
  pending_attempt : ∀ {n k s s'}, inv s → k ∈ pending s → attempt n k s = some s' →
    pending s' = (pending s).erase k
  mem_batch : ∀ {n k s}, inv s → k ∈ batch n s → k ∈ pending s ∧ due n k
  sorted_batch : ∀ {n s}, inv s → (batch n s).Pairwise fun j k => rank j < rank k
  first_batch : ∀ {n k s}, inv s → k ∈ pending s → due n k →
    k ∈ batch n s ∨ batch n s ≠ [] ∧ ∀ j ∈ batch n s, rank j < rank k

section Definitions

variable {σ κ γ : Type} [DecidableEq κ] [LinearOrder γ] (w : Worker σ κ γ)

/-- The attempts of a call, up to the first that fails. -/
def Worker.serve (n : Nat) : List κ → σ → σ
  | [], s => s
  | k :: ks, s =>
    match w.attempt n k s with
    | some s' => Worker.serve n ks s'
    | none => s

/-- The states in which a call makes its attempts, and the one it leaves. -/
def Worker.visited (n : Nat) : List κ → σ → List σ
  | [], s => [s]
  | k :: ks, s => s ::
    match w.attempt n k s with
    | some s' => Worker.visited n ks s'
    | none => []

/-- The state before each call. -/
def Worker.state (s₀ : σ) : Nat → σ
  | 0 => s₀
  | n + 1 => w.serve n (w.batch n (Worker.state s₀ n)) (Worker.state s₀ n)

/-- The states that a call passes. -/
def Worker.passed (s₀ : σ) (n : Nat) : List σ := w.visited n (w.batch n (w.state s₀ n)) (w.state s₀ n)

/-- The item would succeed in every state that the calls pass. -/
def Worker.Able (s₀ : σ) (k : κ) : Prop := ∀ n, ∀ s ∈ w.passed s₀ n, (w.attempt n k s).isSome

/-- From a call on the item fails in every state that the calls pass. -/
def Worker.Stuck (s₀ : σ) (n : Nat) (k : κ) : Prop :=
  ∀ m, n ≤ m → ∀ s ∈ w.passed s₀ m, w.attempt m k s = none

/-- The item waits for a call. -/
def Worker.Waiting (s₀ : σ) (n : Nat) (k : κ) : Prop := k ∈ w.pending (w.state s₀ n) ∧ w.due n k

end Definitions

section Calls

variable {σ κ γ : Type} [DecidableEq κ] [LinearOrder γ] {w : Worker σ κ γ} {s₀ s : σ} {n m : Nat}
  {j k : κ}

theorem mem_visited_self (ks : List κ) : s ∈ w.visited n ks s := by
  cases ks <;> simp [Worker.visited]

theorem inv_serve {ks : List κ} (h : w.inv s) : w.inv (w.serve n ks s) := by
  induction ks generalizing s with
  | nil => exact h
  | cons k ks ih =>
    rw [Worker.serve]
    cases ha : w.attempt n k s with
    | none => exact h
    | some s' => exact ih (w.inv_attempt h ha)

theorem inv_state (h : w.inv s₀) : w.inv (w.state s₀ n) := by
  induction n with
  | zero => exact h
  | succ n ih => exact inv_serve ih

theorem pending_serve_subset {ks : List κ} (h : w.inv s) (hks : ks.Nodup)
    (hpending : ∀ k ∈ ks, k ∈ w.pending s) : w.pending (w.serve n ks s) ⊆ w.pending s := by
  induction ks generalizing s with
  | nil => exact Finset.Subset.refl _
  | cons k ks ih =>
    rw [List.nodup_cons] at hks
    rw [Worker.serve]
    cases ha : w.attempt n k s with
    | none => exact Finset.Subset.refl _
    | some s' =>
      have herase := w.pending_attempt h (hpending k List.mem_cons_self) ha
      have hrest := ih (w.inv_attempt h ha) hks.2 fun j hj => by
        rw [herase]
        exact Finset.mem_erase.2 ⟨fun heq => hks.1 (heq ▸ hj), hpending j (List.mem_cons_of_mem k hj)⟩
      rw [herase] at hrest
      exact hrest.trans (Finset.erase_subset _ _)

theorem nodup_batch (h : w.inv s) : (w.batch n s).Nodup :=
  (w.sorted_batch h).imp fun hlt heq => absurd (congrArg w.rank heq) hlt.ne

theorem pending_state_subset (h : w.inv s₀) (hle : n ≤ m) :
    w.pending (w.state s₀ m) ⊆ w.pending (w.state s₀ n) := by
  induction m, hle using Nat.le_induction with
  | base => exact Finset.Subset.refl _
  | succ m _ ih =>
    refine (pending_serve_subset (inv_state h) (nodup_batch (inv_state h)) ?_).trans ih
    exact fun k hk => (w.mem_batch (inv_state h) hk).1

/-- An item that keeps failing keeps the items behind it pending. -/
theorem serve_keeps {ks : List κ} (h : w.inv s) (hsorted : ks.Pairwise fun i l => w.rank i < w.rank l)
    (hpending : ∀ i ∈ ks, i ∈ w.pending s) (hfails : ∀ t ∈ w.visited n ks s, w.attempt n j t = none)
    (hrank : w.rank j < w.rank k) (hbefore : k ∈ ks → j ∈ ks)
    (hj : j ∈ w.pending s) (hk : k ∈ w.pending s) :
    j ∈ w.pending (w.serve n ks s) ∧ k ∈ w.pending (w.serve n ks s) := by
  induction ks generalizing s with
  | nil => exact ⟨hj, hk⟩
  | cons i ks ih =>
    rw [List.pairwise_cons] at hsorted
    rw [Worker.serve]
    cases ha : w.attempt n i s with
    | none => exact ⟨hj, hk⟩
    | some s' =>
      rw [Worker.visited, ha] at hfails
      have hij : i ≠ j := by
        rintro rfl
        rw [hfails s List.mem_cons_self] at ha
        cases ha
      have hik : i ≠ k := by
        rintro rfl
        rcases List.mem_cons.1 (hbefore List.mem_cons_self) with heq | hmem
        · exact hij heq.symm
        · exact absurd (hsorted.1 j hmem) hrank.asymm
      have herase := w.pending_attempt h (hpending i List.mem_cons_self) ha
      refine ih (w.inv_attempt h ha) hsorted.2 ?_ ?_ ?_ ?_ ?_
      · intro l hl
        rw [herase]
        exact Finset.mem_erase.2 ⟨(fun heq => (hsorted.1 l hl).ne (congrArg w.rank heq.symm)),
          hpending l (List.mem_cons_of_mem i hl)⟩
      · exact fun t ht => hfails t (List.mem_cons_of_mem s ht)
      · intro hmem
        exact (List.mem_cons.1 (hbefore (List.mem_cons_of_mem i hmem))).resolve_left hij.symm
      · rw [herase]
        exact Finset.mem_erase.2 ⟨hij.symm, hj⟩
      · rw [herase]
        exact Finset.mem_erase.2 ⟨hik.symm, hk⟩

/-- An item behind one that keeps failing is never served. -/
theorem never_served (h : w.inv s₀) (hj : w.Waiting s₀ n j) (hstuck : w.Stuck s₀ n j)
    (hk : k ∈ w.pending (w.state s₀ n)) (hrank : w.rank j < w.rank k) (hle : n ≤ m) :
    j ∈ w.pending (w.state s₀ m) ∧ k ∈ w.pending (w.state s₀ m) := by
  induction m, hle using Nat.le_induction with
  | base => exact ⟨hj.1, hk⟩
  | succ m hm ih =>
    have hinv : w.inv (w.state s₀ m) := inv_state h
    refine serve_keeps hinv (w.sorted_batch hinv) (fun i hi => (w.mem_batch hinv hi).1)
      (hstuck m hm) hrank ?_ ih.1 ih.2
    intro hmem
    rcases w.first_batch hinv ih.1 (w.due_mono hm hj.2) with hin | ⟨-, hbefore⟩
    · exact hin
    · exact absurd (hbefore k hmem) hrank.asymm

end Calls

section Rest

variable {σ κ γ : Type} [DecidableEq κ] [LinearOrder γ] {w : Worker σ κ γ} {s₀ : σ} {n m : Nat}
  {j k : κ}

/-- From some call on nothing is served any more. -/
theorem exists_quiet (h : w.inv s₀) (n : Nat) :
    ∃ N, n ≤ N ∧ ∀ m, N ≤ m → w.pending (w.state s₀ m) = w.pending (w.state s₀ N) := by
  obtain ⟨N, hN, hmin⟩ := wellFounded_lt.has_min
    {c : Nat | ∃ m, n ≤ m ∧ (w.pending (w.state s₀ m)).card = c} ⟨_, n, le_refl n, rfl⟩
  obtain ⟨N, hle, rfl⟩ := hN
  refine ⟨N, hle, fun m hm => Finset.eq_of_subset_of_card_le (pending_state_subset h hm) ?_⟩
  exact not_lt.1 (hmin _ ⟨m, hle.trans hm, rfl⟩)

/-- A call that serves nothing fails on the first item of its batch. -/
theorem first_fails (h : w.inv s₀) (hk : w.Waiting s₀ n k)
    (hquiet : w.pending (w.state s₀ (n + 1)) = w.pending (w.state s₀ n)) :
    ∃ i rest, w.batch n (w.state s₀ n) = i :: rest ∧ w.attempt n i (w.state s₀ n) = none := by
  have hinv : w.inv (w.state s₀ n) := inv_state h
  cases hb : w.batch n (w.state s₀ n) with
  | nil =>
    rcases w.first_batch hinv hk.1 hk.2 with hin | ⟨hne, -⟩
    · simp [hb] at hin
    · exact absurd hb hne
  | cons i rest =>
    refine ⟨i, rest, rfl, ?_⟩
    have hmem : ∀ l ∈ i :: rest, l ∈ w.pending (w.state s₀ n) :=
      fun l hl => (w.mem_batch hinv (hb ▸ hl)).1
    have hnodup : (i :: rest).Nodup := hb ▸ nodup_batch hinv
    rw [List.nodup_cons] at hnodup
    cases ha : w.attempt n i (w.state s₀ n) with
    | none => rfl
    | some s' =>
      have herase := w.pending_attempt hinv (hmem i List.mem_cons_self) ha
      have hsub : w.pending (w.serve n rest s') ⊆ w.pending s' :=
        pending_serve_subset (w.inv_attempt hinv ha) hnodup.2 fun l hl => by
          rw [herase]
          exact Finset.mem_erase.2 ⟨fun heq => hnodup.1 (heq ▸ hl), hmem l (List.mem_cons_of_mem i hl)⟩
      have hnext : w.state s₀ (n + 1) = w.serve n rest s' := by
        rw [Worker.state, hb, Worker.serve, ha]
      rw [← hnext, hquiet, herase] at hsub
      exact absurd (hsub (hmem i List.mem_cons_self)) (Finset.notMem_erase i _)

/-- An item that is never served waits, in the end, behind one that keeps failing. -/
theorem exists_stuck (h : w.inv s₀) (hdue : w.due n k) (hk : ∀ m, k ∈ w.pending (w.state s₀ m)) :
    ∃ N j, w.Waiting s₀ N k ∧ w.Waiting s₀ N j ∧ w.Stuck s₀ N j ∧ w.rank j ≤ w.rank k := by
  obtain ⟨N, hnN, hquiet⟩ := exists_quiet h n
  have hwait : ∀ m, N ≤ m → w.Waiting s₀ m k := fun m hm =>
    ⟨hk m, w.due_mono (hnN.trans hm) hdue⟩
  have hfirst : ∀ m, N ≤ m → ∃ i rest,
      w.batch m (w.state s₀ m) = i :: rest ∧ w.attempt m i (w.state s₀ m) = none := fun m hm =>
    first_fails h (hwait m hm) ((hquiet (m + 1) (by omega)).trans (hquiet m hm).symm)
  -- among the items that calls fail on, the one with the least rank
  let Failing (i : κ) : Prop := ∃ m rest, N ≤ m ∧ w.batch m (w.state s₀ m) = i :: rest
  have hpending : ∀ i, Failing i → i ∈ w.pending (w.state s₀ N) := by
    rintro i ⟨m, rest, hm, hb⟩
    rw [← hquiet m hm]
    exact (w.mem_batch (inv_state h) (hb ▸ List.mem_cons_self)).1
  have hfinite : {i | Failing i}.Finite :=
    (w.pending (w.state s₀ N)).finite_toSet.subset fun i hi => hpending i hi
  obtain ⟨i₀, rest₀, hb₀, -⟩ := hfirst N (le_refl N)
  obtain ⟨j, ⟨M, rest, hM, hbatch⟩, hleast⟩ :=
    Set.exists_min_image _ w.rank hfinite ⟨i₀, N, rest₀, le_refl N, hb₀⟩
  have hjdue : w.due M j := (w.mem_batch (inv_state h) (hbatch ▸ List.mem_cons_self)).2
  have hjpending : ∀ m, M ≤ m → j ∈ w.pending (w.state s₀ m) := by
    intro m hm
    rw [hquiet m (hM.trans hm)]
    exact hpending j ⟨M, rest, hM, hbatch⟩
  -- it is first in every later batch
  have hlead : ∀ m, M ≤ m → ∃ rest, w.batch m (w.state s₀ m) = j :: rest ∧
      w.attempt m j (w.state s₀ m) = none := by
    intro m hm
    obtain ⟨i, rest, hb, hnone⟩ := hfirst m (hM.trans hm)
    have hle : w.rank j ≤ w.rank i := hleast i ⟨m, rest, hM.trans hm, hb⟩
    have hsorted := w.sorted_batch (n := m) (inv_state (n := m) h)
    have hji : j = i := by
      rcases w.first_batch (inv_state h) (hjpending m hm) (w.due_mono hm hjdue) with
        hin | ⟨-, hbefore⟩
      · rw [hb] at hin hsorted
        rcases List.mem_cons.1 hin with heq | hin
        · exact heq
        · exact absurd ((List.pairwise_cons.1 hsorted).1 j hin) hle.not_gt
      · exact absurd (hbefore i (hb ▸ List.mem_cons_self)) hle.not_gt
    exact ⟨rest, hji ▸ hb, hji ▸ hnone⟩
  refine ⟨M, j, hwait M hM, ⟨hjpending M (le_refl M), hjdue⟩, ?_, ?_⟩
  · intro m hm s hs
    obtain ⟨rest, hb, hnone⟩ := hlead m hm
    rw [Worker.passed, hb, Worker.visited, hnone, List.mem_singleton] at hs
    rw [hs, hnone]
  · have hsorted := w.sorted_batch (n := M) (inv_state (n := M) h)
    rcases w.first_batch (inv_state h) (hk M) (hwait M hM).2 with hin | ⟨-, hbefore⟩
    · rw [hbatch] at hin hsorted
      rcases List.mem_cons.1 hin with heq | hin
      · rw [heq]
      · exact ((List.pairwise_cons.1 hsorted).1 k hin).le
    · exact (hbefore j (hbatch ▸ List.mem_cons_self)).le

/-- Every item that would succeed is served exactly when none of them ever waits behind an item that
keeps failing. -/
theorem drained_iff (h : w.inv s₀) :
    (∀ k, w.Able s₀ k → (∃ n, w.Waiting s₀ n k) → ∃ n, k ∉ w.pending (w.state s₀ n)) ↔
      ∀ n j k, w.Waiting s₀ n j → w.Stuck s₀ n j → w.Waiting s₀ n k → w.Able s₀ k →
        w.rank k < w.rank j := by
  constructor
  · intro hserved n j k hj hstuck hk hable
    by_contra hnot
    have hne : j ≠ k := by
      rintro rfl
      have hself : w.state s₀ n ∈ w.passed s₀ n := mem_visited_self _
      have := hable n _ hself
      rw [hstuck n (le_refl n) _ hself] at this
      cases this
    have hrank : w.rank j < w.rank k :=
      lt_of_le_of_ne (not_lt.1 hnot) fun heq => hne (w.rank_injective j k heq)
    obtain ⟨m, hm⟩ := hserved k hable ⟨n, hk⟩
    apply hm
    rcases le_total n m with hle | hle
    · exact (never_served h hj hstuck hk.1 hrank hle).2
    · exact pending_state_subset h hle hk.1
  · intro hahead k hable ⟨n, hwait⟩
    by_contra hnever
    push Not at hnever
    obtain ⟨N, j, hk, hj, hstuck, hle⟩ := exists_stuck h hwait.2 hnever
    exact absurd (hahead N j k hj hstuck hk hable) hle.not_gt

end Rest

end CodeGo.Lib.Batch
