import Mathlib.Algebra.BigOperators.Group.List.Basic
import Mathlib.Data.List.Basic
import Mathlib.Data.Int.Basic
import Mathlib.Algebra.Ring.Int.Defs

/-!
# Splitting at a separator outside of parentheses

A text is cut wherever the separator stands at depth zero; `delta` says what a character adds to the
depth.
-/

namespace CodeGo.Lib.DepthSplit

variable {α : Type}

section Depth

def depth (delta : α → Int) (t : List α) : Int := (t.map delta).sum

variable {delta : α → Int}

@[simp] theorem depth_nil : depth delta [] = 0 := rfl

@[simp] theorem depth_cons (c : α) (t : List α) : depth delta (c :: t) = delta c + depth delta t := by
  simp [depth]

@[simp] theorem depth_append (s t : List α) :
    depth delta (s ++ t) = depth delta s + depth delta t := by
  simp [depth]

end Depth

section Cuts

/-- Somewhere in the text the separator stands where the depth is zero again. -/
def Cuts (delta : α → Int) (sep : List α) (d : Int) (t : List α) : Prop :=
  ∃ a b, t = a ++ sep ++ b ∧ d + depth delta a = 0

variable {delta : α → Int} {sep : List α}

theorem Cuts.append_right {d : Int} {s : List α} (h : Cuts delta sep d s) (t : List α) :
    Cuts delta sep d (s ++ t) := by
  obtain ⟨a, b, rfl, hd⟩ := h
  exact ⟨a, b ++ t, by simp, hd⟩

theorem Cuts.append_left {d : Int} {s t : List α} (h : Cuts delta sep (d + depth delta s) t) :
    Cuts delta sep d (s ++ t) := by
  obtain ⟨a, b, rfl, hd⟩ := h
  exact ⟨s ++ a, b, by simp, by rw [depth_append]; omega⟩

/-- A separator in two parts of a text is in one of them, or across both. -/
theorem Cuts.split {d : Int} {s t : List α} (h : Cuts delta sep d (s ++ t)) :
    Cuts delta sep d s ∨ Cuts delta sep (d + depth delta s) t ∨
      ∃ c e, s.getLast? = some c ∧ c ∈ sep ∧ t.head? = some e ∧ e ∈ sep := by
  obtain ⟨a, b, h, hd⟩ := h
  rw [List.append_assoc] at h
  rcases List.append_eq_append_iff.1 h with ⟨x, rfl, rfl⟩ | ⟨x, rfl, hx⟩
  · right
    left
    exact ⟨x, b, by simp, by rw [depth_append] at hd; omega⟩
  · rcases List.append_eq_append_iff.1 hx with ⟨y, rfl, rfl⟩ | ⟨y, rfl, rfl⟩
    · left
      exact ⟨a, y, by simp, hd⟩
    · rcases List.eq_nil_or_concat x with rfl | ⟨x, c, rfl⟩
      · right
        left
        exact ⟨[], b, by simp, by simpa using hd⟩
      · cases y with
        | nil =>
          left
          exact ⟨a, [], by simp, hd⟩
        | cons e y =>
          right
          right
          exact ⟨c, e, by simp, by simp, by simp, by simp⟩

/-- A text that lacks a character of the separator is not cut. -/
theorem not_cuts_of_not_mem {d : Int} {t : List α} {c : α} (hc : c ∈ sep) (h : c ∉ t) :
    ¬ Cuts delta sep d t := by
  rintro ⟨a, b, rfl, -⟩
  exact h (by simp [hc])

/-- The pieces with the separator between them. -/
def join (sep : List α) (ts : List (List α)) : List α := (ts.intersperse sep).flatten

@[simp] theorem join_nil : join sep [] = [] := rfl

@[simp] theorem join_singleton (t : List α) : join sep [t] = t := by simp [join]

theorem join_cons (t : List α) {ts : List (List α)} (h : ts ≠ []) :
    join sep (t :: ts) = t ++ (sep ++ join sep ts) := by
  cases ts with
  | nil => exact absurd rfl h
  | cons u ts => simp [join]

end Cuts

variable [DecidableEq α]

section Splitting

variable (delta : α → Int) (sep : List α)

/-- The pieces of a text, where `acc` is what was read of the current one, and the next `skip`
characters are the rest of a separator. -/
def scan : Nat → Int → List α → List α → List (List α)
  | _, _, acc, [] => [acc]
  | skip + 1, d, acc, _ :: t => scan skip d acc t
  | 0, d, acc, c :: t =>
    let d := d + delta c
    if d = 0 ∧ sep.isPrefixOf (c :: t) then acc :: scan (sep.length - 1) d [] t
    else scan 0 d (acc ++ [c]) t

def split (t : List α) : List (List α) := scan delta sep 0 0 [] t

end Splitting

section Facts

variable {delta : α → Int} {sep : List α}

theorem scan_skip (d : Int) (acc s t : List α) :
    scan delta sep s.length d acc (s ++ t) = scan delta sep 0 d acc t := by
  induction s with
  | nil => rfl
  | cons c s ih => simpa [scan] using ih

/-- A separator at depth zero ends a piece. -/
theorem scan_sep (hflat : ∀ c ∈ sep, delta c = 0) (hne : sep ≠ []) (acc t : List α) :
    scan delta sep 0 0 acc (sep ++ t) = acc :: scan delta sep 0 0 [] t := by
  cases sep with
  | nil => exact absurd rfl hne
  | cons c s =>
    have hc : delta c = 0 := hflat c (by simp)
    have hprefix : (c :: s).isPrefixOf (c :: (s ++ t)) = true :=
      List.isPrefixOf_iff_prefix.2 (List.prefix_append (c :: s) t)
    have hlen : (c :: s).length - 1 = s.length := by simp
    rw [List.cons_append, scan]
    simp only [hc, hprefix, add_zero, true_and, if_true, hlen, scan_skip]

/-- A text of which the end is no start of a separator, and which is not cut, is read as a whole. -/
theorem scan_append (hflat : ∀ c ∈ sep, delta c = 0) {d : Int} {acc t r : List α}
    (hcuts : ¬ Cuts delta sep d t) (hend : ∀ c, t.getLast? = some c → c ∉ sep) :
    scan delta sep 0 d acc (t ++ r) = scan delta sep 0 (d + depth delta t) (acc ++ t) r := by
  induction t generalizing d acc with
  | nil => simp
  | cons c t ih =>
    have hno : ¬ (d + delta c = 0 ∧ sep.isPrefixOf (c :: (t ++ r)) = true) := by
      rintro ⟨hd, hprefix⟩
      rw [List.isPrefixOf_iff_prefix] at hprefix
      have hctext : c :: t <+: c :: (t ++ r) := List.prefix_append (c :: t) r
      rcases List.prefix_or_prefix_of_prefix hprefix hctext with h | h
      · obtain ⟨b, hb⟩ := h
        cases sep with
        | nil => exact hcuts ⟨[c], t, by simp, by simpa using hd⟩
        | cons e s =>
          obtain ⟨rfl, -⟩ := List.cons.inj hb
          have he : delta e = 0 := hflat e (by simp)
          exact hcuts ⟨[], b, by simpa using hb.symm, by rw [depth_nil]; omega⟩
      · have hne : (c :: t).getLast? = some ((c :: t).getLast (by simp)) :=
          List.getLast?_eq_some_getLast (by simp)
        exact hend _ hne (h.subset (List.getLast_mem _))
    rw [List.cons_append, scan]
    simp only [if_neg hno]
    have hcuts' : ¬ Cuts delta sep (d + delta c) t := by
      rintro ⟨a, b, rfl, hd⟩
      exact hcuts ⟨c :: a, b, by simp, by rw [depth_cons]; omega⟩
    have hend' : ∀ e, t.getLast? = some e → e ∉ sep := by
      intro e he
      apply hend
      cases t with
      | nil => cases he
      | cons x t => simpa using he
    rw [ih hcuts' hend', depth_cons, List.append_assoc, List.singleton_append]
    congr 1
    omega

/-- A text is read as a whole, or up to the first separator at depth zero. -/
theorem scan_cases (hne : sep ≠ []) (hflat : ∀ c ∈ sep, delta c = 0) (d : Int) (acc t : List α) :
    (scan delta sep 0 d acc t = [acc ++ t] ∧ ¬ Cuts delta sep d t) ∨
      ∃ a b, t = a ++ (sep ++ b) ∧ d + depth delta a = 0 ∧ ¬ Cuts delta sep d a ∧
        scan delta sep 0 d acc t = (acc ++ a) :: split delta sep b := by
  have hlen : 0 < sep.length := List.length_pos_iff.2 hne
  have hshort : ∀ d, ¬ Cuts delta sep d [] := by
    rintro d ⟨a, b, h, -⟩
    have := congrArg List.length h
    simp only [List.length_nil, List.length_append] at this
    omega
  induction t generalizing d acc with
  | nil => exact .inl ⟨by simp [scan], hshort d⟩
  | cons c t ih =>
    by_cases hcut : d + delta c = 0 ∧ sep.isPrefixOf (c :: t) = true
    · right
      obtain ⟨hd, hprefix⟩ := hcut
      obtain ⟨b, hb⟩ := List.isPrefixOf_iff_prefix.1 hprefix
      cases sep with
      | nil => exact absurd rfl hne
      | cons e s =>
        obtain ⟨rfl, hrest⟩ := List.cons.inj hb
        have he : delta e = 0 := hflat e (by simp)
        refine ⟨[], b, by simpa using hb.symm, by simp; omega, hshort d, ?_⟩
        have hd0 : d = 0 := by omega
        rw [List.append_nil, hd0, ← hb, scan_sep hflat hne]
        rfl
    · have hscan : scan delta sep 0 d acc (c :: t) =
          scan delta sep 0 (d + delta c) (acc ++ [c]) t := by
        rw [scan]
        simp only [if_neg hcut]
      have hstep : ∀ s, s <+: c :: t → Cuts delta sep d s → s ≠ [] →
          ∃ u, s = c :: u ∧ Cuts delta sep (d + delta c) u := by
        rintro s hs ⟨a, b, rfl, hd⟩ -
        cases a with
        | nil =>
          exfalso
          apply hcut
          have hsep : sep <+: c :: t := by
            refine List.IsPrefix.trans ⟨b, ?_⟩ hs
            simp
          obtain ⟨u, hu⟩ := hsep
          cases sep with
          | nil => exact absurd rfl hne
          | cons e s' =>
            obtain ⟨rfl, -⟩ := List.cons.inj hu
            have he : delta e = 0 := hflat e (by simp)
            rw [depth_nil] at hd
            exact ⟨by omega, List.isPrefixOf_iff_prefix.2 ⟨u, hu⟩⟩
        | cons x a =>
          obtain ⟨r, hr⟩ := hs
          obtain ⟨rfl, -⟩ := List.cons.inj hr
          rw [depth_cons] at hd
          exact ⟨a ++ sep ++ b, by simp, a, b, rfl, by omega⟩
      rcases ih (d + delta c) (acc ++ [c]) with ⟨hwhole, hno⟩ | ⟨a, b, rfl, hd, hno, hfirst⟩
      · refine .inl ⟨by rw [hscan, hwhole, List.append_assoc, List.singleton_append], ?_⟩
        intro hc
        obtain ⟨u, hu, hcuts⟩ := hstep _ (List.prefix_refl _) hc (by simp)
        obtain ⟨-, rfl⟩ := List.cons.inj hu
        exact hno hcuts
      · refine .inr ⟨c :: a, b, rfl, by rw [depth_cons]; omega, ?_, ?_⟩
        · intro hc
          obtain ⟨u, hu, hcuts⟩ := hstep _ ⟨sep ++ b, rfl⟩ hc (by simp)
          obtain ⟨-, rfl⟩ := List.cons.inj hu
          exact hno hcuts
        · rw [hscan, hfirst, List.append_assoc, List.singleton_append]

/-- Pieces that are not cut themselves, and of which all but the last are balanced, come back. -/
theorem split_join (hne : sep ≠ []) (hflat : ∀ c ∈ sep, delta c = 0) {ts : List (List α)}
    (hts : ts ≠ []) (hcuts : ∀ t ∈ ts, ¬ Cuts delta sep 0 t)
    (hend : ∀ t ∈ ts, ∀ c, t.getLast? = some c → c ∉ sep)
    (hdepth : ∀ t ∈ ts.dropLast, depth delta t = 0) : split delta sep (join sep ts) = ts := by
  induction ts with
  | nil => exact absurd rfl hts
  | cons t ts ih =>
    have hcut := hcuts t (by simp)
    have hlast := hend t (by simp)
    by_cases hmore : ts = []
    · subst hmore
      have h : scan delta sep 0 0 [] (t ++ []) =
          scan delta sep 0 (0 + depth delta t) ([] ++ t) [] := scan_append hflat hcut hlast
      rw [List.append_nil] at h
      rw [join_singleton, split, h]
      simp [scan]
    · have hzero : depth delta t = 0 := by
        apply hdepth
        cases ts with
        | nil => exact absurd rfl hmore
        | cons u ts => simp
      have hdepth' : ∀ u ∈ ts.dropLast, depth delta u = 0 := by
        intro u hu
        apply hdepth
        rw [List.dropLast_cons_of_ne_nil hmore]
        exact List.mem_cons_of_mem _ hu
      rw [join_cons t hmore, split, scan_append hflat hcut hlast, hzero, add_zero, List.nil_append,
        scan_sep hflat hne]
      congr 1
      exact ih hmore (fun u hu => hcuts u (by simp [hu])) (fun u hu => hend u (by simp [hu])) hdepth'

end Facts

end CodeGo.Lib.DepthSplit
