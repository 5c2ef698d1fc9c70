import Mathlib.Data.Int.Order.Basic
import Mathlib.Data.List.Sort

/-!
# Lists of ranges

Closed ranges of integers, sorted by where they start, and merged in one pass: a range that
overlaps the last one or follows it without a gap extends it. The merged list covers the same
integers with the fewest ranges, and a search in it may stop at the first range that starts too
late.
-/

namespace CodeGo.Lib.Ranges

structure Range where
  start : Int
  stop : Int
  deriving DecidableEq, Repr

def Range.Has (r : Range) (x : Int) : Prop := r.start ≤ x ∧ x ≤ r.stop

/-- Some range of the list has the integer. -/
def Covers (rs : List Range) (x : Int) : Prop := ∃ r ∈ rs, r.Has x

/-- By where they start, then by where they stop. -/
def Range.le (a b : Range) : Prop := a.start < b.start ∨ a.start = b.start ∧ a.stop ≤ b.stop

instance : DecidableRel Range.le := fun a b =>
  inferInstanceAs (Decidable (a.start < b.start ∨ a.start = b.start ∧ a.stop ≤ b.stop))

instance : Std.Total Range.le := ⟨fun a b => by unfold Range.le; omega⟩

instance : IsTrans Range Range.le := ⟨fun a b c hab hbc => by unfold Range.le at *; omega⟩

/-- Sorted, disjoint, and with a gap between neighbours. -/
structure Separated (rs : List Range) : Prop where
  gaps : rs.Pairwise fun a b => a.stop + 1 < b.start
  proper : ∀ r ∈ rs, r.start ≤ r.stop

/-- One pass over sorted ranges, `last` being the range that may still grow. -/
def merge (last : Range) : List Range → List Range
  | [] => [last]
  | r :: rs =>
    if r.start ≤ last.stop + 1 then
      merge (if r.stop > last.stop then { last with stop := r.stop } else last) rs
    else last :: merge r rs

/-- A search that stops at the first range after the integer. -/
def search (x : Int) : List Range → Bool
  | [] => false
  | r :: rs => if x < r.start then false else if x ≤ r.stop then true else search x rs

variable {last r : Range} {rs : List Range} {x : Int}

/-- What is merged is bounded by what the ranges are bounded by. -/
theorem merge_within {lo hi : Int} (hlast : lo ≤ last.start ∧ last.stop ≤ hi)
    (hrs : ∀ r ∈ rs, lo ≤ r.start ∧ r.stop ≤ hi) :
    ∀ r ∈ merge last rs, lo ≤ r.start ∧ r.stop ≤ hi := by
  induction rs generalizing last with
  | nil =>
    intro r hr
    rw [merge, List.mem_singleton] at hr
    rw [hr]
    exact hlast
  | cons r rs ih =>
    have hr := hrs r List.mem_cons_self
    have hrest : ∀ r' ∈ rs, lo ≤ r'.start ∧ r'.stop ≤ hi := fun r' h => hrs r' (List.mem_cons_of_mem _ h)
    rw [merge]
    split
    · apply ih _ hrest
      split
      · exact ⟨hlast.1, hr.2⟩
      · exact hlast
    · intro r' hr'
      rcases List.mem_cons.1 hr' with rfl | hr'
      · exact hlast
      · exact ih hr hrest r' hr'

/-- The ranges start no earlier than `last`. -/
def After (last : Range) (rs : List Range) : Prop := ∀ r ∈ rs, last.start ≤ r.start

theorem separated_merge (hlast : last.start ≤ last.stop) (hproper : ∀ r ∈ rs, r.start ≤ r.stop)
    (hsorted : rs.Pairwise fun a b => a.start ≤ b.start) (hafter : After last rs) :
    Separated (merge last rs) ∧ After last (merge last rs) := by
  induction rs generalizing last with
  | nil =>
    refine ⟨⟨List.pairwise_singleton _ _, ?_⟩, ?_⟩
    · simpa [merge] using hlast
    · simp [merge, After]
  | cons r rs ih =>
    obtain ⟨hfirst, hsorted⟩ := List.pairwise_cons.1 hsorted
    have hr := hproper r List.mem_cons_self
    have hrest : ∀ r' ∈ rs, r'.start ≤ r'.stop := fun r' h => hproper r' (List.mem_cons_of_mem _ h)
    rw [merge]
    split
    next htouch =>
      have hgrown : After last rs := fun r' h => hafter r' (List.mem_cons_of_mem _ h)
      split
      next => exact ih (by simp only; omega) hrest hsorted hgrown
      next => exact ih hlast hrest hsorted hgrown
    next hgap =>
      obtain ⟨hsep, hstart⟩ := ih hr hrest hsorted hfirst
      refine ⟨⟨List.pairwise_cons.2 ⟨fun r' h => ?_, hsep.gaps⟩, fun r' h => ?_⟩, fun r' h => ?_⟩
      · have := hstart r' h
        omega
      · rcases List.mem_cons.1 h with rfl | h
        · exact hlast
        · exact hsep.proper r' h
      · rcases List.mem_cons.1 h with rfl | h
        · exact le_refl _
        · have := hstart r' h
          omega

theorem covers_cons : Covers (r :: rs) x ↔ r.Has x ∨ Covers rs x := by
  simp only [Covers, List.exists_mem_cons_iff]

/-- Merging keeps what is covered. -/
theorem covers_merge (hsorted : rs.Pairwise fun a b => a.start ≤ b.start)
    (hafter : After last rs) : Covers (merge last rs) x ↔ last.Has x ∨ Covers rs x := by
  induction rs generalizing last with
  | nil => exact covers_cons
  | cons r rs ih =>
    obtain ⟨hfirst, hsorted⟩ := List.pairwise_cons.1 hsorted
    have hle := hafter r List.mem_cons_self
    have hrest : After last rs := fun r' h => hafter r' (List.mem_cons_of_mem _ h)
    rw [covers_cons, ← or_assoc, merge]
    split
    next htouch =>
      -- the two ranges touch, so their union is the range that grew
      split
      next hlonger =>
        have hgrown := @ih { last with stop := r.stop } hsorted hrest
        rw [hgrown]
        apply or_congr_left
        simp only [Range.Has]
        omega
      next hshorter =>
        rw [ih hsorted hrest]
        apply or_congr_left
        simp only [Range.Has]
        omega
    next hgap => rw [covers_cons, ih hsorted hfirst, or_assoc]

/-- A list that is separated has nothing to merge. -/
theorem merge_of_separated (h : Separated (last :: rs)) : merge last rs = last :: rs := by
  induction rs generalizing last with
  | nil => rfl
  | cons r rs ih =>
    have hgap := (List.pairwise_cons.1 h.gaps).1 r List.mem_cons_self
    have htail : Separated (r :: rs) :=
      ⟨(List.pairwise_cons.1 h.gaps).2, fun r' h' => h.proper r' (List.mem_cons_of_mem _ h')⟩
    rw [merge, if_neg (by omega), ih htail]

theorem sorted_of_separated (h : Separated rs) : rs.Pairwise Range.le := by
  refine h.gaps.imp_of_mem fun {a b} ha _ hgap => .inl ?_
  have := h.proper a ha
  omega

/-- The search finds what the ranges cover, for it stops where all the rest starts too late. -/
theorem search_iff (h : Separated rs) : search x rs = true ↔ Covers rs x := by
  induction rs with
  | nil => simp [search, Covers]
  | cons r rs ih =>
    obtain ⟨hgaps, htail⟩ := List.pairwise_cons.1 h.gaps
    have hproper := h.proper r List.mem_cons_self
    rw [covers_cons, search]
    split
    next hbefore =>
      constructor
      · intro hfalse
        cases hfalse
      · rintro (hr | ⟨r', hr', hx⟩)
        · exact absurd hr.1 (by omega)
        · have := hgaps r' hr'
          exact absurd hx.1 (by omega)
    next hfrom =>
      split
      next hin => exact ⟨fun _ => .inl ⟨by omega, hin⟩, fun _ => rfl⟩
      next hpast =>
        rw [ih ⟨htail, fun r' h' => h.proper r' (List.mem_cons_of_mem _ h')⟩]
        exact (or_iff_right fun hr => hpast hr.2).symm

/-- Sort and merge. -/
def normalize (rs : List Range) : List Range :=
  match rs.insertionSort Range.le with
  | [] => []
  | r :: rest => merge r rest

theorem le_start {a b : Range} (h : Range.le a b) : a.start ≤ b.start := by
  rcases h with h | h <;> omega

theorem normalize_spec (hproper : ∀ r ∈ rs, r.start ≤ r.stop) :
    Separated (normalize rs) ∧ ∀ x, Covers (normalize rs) x ↔ Covers rs x := by
  have hmem : ∀ r, r ∈ rs.insertionSort Range.le ↔ r ∈ rs := fun r => List.mem_insertionSort _
  have hsorted := List.pairwise_insertionSort Range.le rs
  unfold normalize
  cases hsort : rs.insertionSort Range.le with
  | nil =>
    rw [hsort] at hmem
    refine ⟨⟨.nil, nofun⟩, fun x => ?_⟩
    simp only [Covers, ← hmem]
  | cons r rest =>
    rw [hsort] at hmem hsorted
    obtain ⟨hfirst, hsorted⟩ := List.pairwise_cons.1 hsorted
    have hafter : After r rest := fun r' h => le_start (hfirst r' h)
    have hstarts : rest.Pairwise fun a b => a.start ≤ b.start := hsorted.imp le_start
    refine ⟨(separated_merge (hproper r ((hmem r).1 List.mem_cons_self)) (fun r' h => ?_) hstarts
      hafter).1, fun x => ?_⟩
    · exact hproper r' ((hmem r').1 (List.mem_cons_of_mem _ h))
    · show Covers (merge r rest) x ↔ _
      rw [covers_merge hstarts hafter, ← covers_cons]
      simp only [Covers, hmem]

theorem normalize_within {lo hi : Int} (h : ∀ r ∈ rs, lo ≤ r.start ∧ r.stop ≤ hi) :
    ∀ r ∈ normalize rs, lo ≤ r.start ∧ r.stop ≤ hi := by
  have hmem : ∀ r, r ∈ rs.insertionSort Range.le ↔ r ∈ rs := fun r => List.mem_insertionSort _
  unfold normalize
  cases hsort : rs.insertionSort Range.le with
  | nil => exact nofun
  | cons r rest =>
    rw [hsort] at hmem
    exact merge_within (h r ((hmem r).1 List.mem_cons_self))
      fun r' h' => h r' ((hmem r').1 (List.mem_cons_of_mem _ h'))

theorem normalize_of_separated (h : Separated rs) : normalize rs = rs := by
  unfold normalize
  rw [(sorted_of_separated h).insertionSort_eq]
  cases rs with
  | nil => rfl
  | cons r rest => exact merge_of_separated h

end CodeGo.Lib.Ranges
