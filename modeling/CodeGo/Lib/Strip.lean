import Mathlib.Data.List.Find
import Mathlib.Data.List.Infix

/-!
# Stripping code words

Text that is stored in units (the bytes of an encoding) has words of several units at its ends
removed: white space that an encoding spells with two or three bytes, for one.
-/

namespace CodeGo.Lib.Strip

section Operations

variable {α : Type} [DecidableEq α]

/-- Removes words from the front of the text while one stands there. -/
def stripLeft (words : List (List α)) (text : List α) : List α :=
  match _hfind : words.find? fun word => word ≠ [] && word.isPrefixOf text with
  | none => text
  | some word => stripLeft words (text.drop word.length)
termination_by text.length
decreasing_by
  have hfound := List.find?_some _hfind
  simp only [ne_eq, decide_not, Bool.and_eq_true, Bool.not_eq_true', decide_eq_false_iff_not,
    List.isPrefixOf_iff_prefix] at hfound
  have hpos : 0 < word.length := List.length_pos_iff.2 hfound.1
  have hle := hfound.2.length_le
  rw [List.length_drop]
  omega

def stripRight (words : List (List α)) (text : List α) : List α :=
  (stripLeft (words.map List.reverse) text.reverse).reverse

def strip (words : List (List α)) (text : List α) : List α := stripRight words (stripLeft words text)

end Operations

/-- No word stands at either end of the text. -/
structure Bare {α : Type} (words : List (List α)) (text : List α) : Prop where
  front : ∀ word ∈ words, word ≠ [] → ¬ word <+: text
  back : ∀ word ∈ words, word ≠ [] → ¬ word <:+ text

section Laws

variable {α : Type} [DecidableEq α] {words : List (List α)} {text : List α}

theorem stripLeft_of_front (h : ∀ word ∈ words, word ≠ [] → ¬ word <+: text) :
    stripLeft words text = text := by
  rw [stripLeft.eq_def]
  split
  · rfl
  · next word hfind =>
    have hfound := List.find?_some hfind
    simp only [ne_eq, decide_not, Bool.and_eq_true, Bool.not_eq_true', decide_eq_false_iff_not,
      List.isPrefixOf_iff_prefix] at hfound
    exact absurd hfound.2 (h word (List.mem_of_find?_eq_some hfind) hfound.1)

variable (words text) in
theorem stripLeft_suffix : stripLeft words text <:+ text := by
  fun_induction stripLeft words text with
  | case1 text hfind => exact List.suffix_refl text
  | case2 text word hfind ih => exact ih.trans (List.drop_suffix _ _)

variable (words text) in
theorem stripLeft_front : ∀ word ∈ words, word ≠ [] → ¬ word <+: stripLeft words text := by
  fun_induction stripLeft words text with
  | case1 text hfind =>
    intro word hword hne hprefix
    have := List.find?_eq_none.1 hfind word hword
    simp [hne, hprefix] at this
  | case2 text word hfind ih => exact ih

theorem stripRight_prefix : stripRight words text <+: text := by
  have h := stripLeft_suffix (words.map List.reverse) text.reverse
  rwa [← List.reverse_prefix, List.reverse_reverse] at h

theorem stripRight_back : ∀ word ∈ words, word ≠ [] → ¬ word <:+ stripRight words text := by
  intro word hword hne hsuffix
  have hback := stripLeft_front (words.map List.reverse) text.reverse
    word.reverse (List.mem_map_of_mem hword) (by simpa using hne)
  apply hback
  rw [← List.reverse_suffix, List.reverse_reverse]
  exact hsuffix

theorem stripRight_of_back (h : ∀ word ∈ words, word ≠ [] → ¬ word <:+ text) :
    stripRight words text = text := by
  rw [stripRight, stripLeft_of_front, List.reverse_reverse]
  intro word hword hne hprefix
  obtain ⟨w, hw, rfl⟩ := List.mem_map.1 hword
  exact h w hw (by simpa using hne) (List.reverse_prefix.1 hprefix)

theorem bare_strip (words : List (List α)) (text : List α) : Bare words (strip words text) where
  front := by
    intro word hword hne hstart
    exact stripLeft_front _ _ word hword hne (hstart.trans stripRight_prefix)
  back := stripRight_back

theorem strip_eq_self (h : Bare words text) : strip words text = text := by
  rw [strip, stripLeft_of_front h.front, stripRight_of_back h.back]

end Laws

section Marks

variable {α : Type} {words : List (List α)} {mark : α} {before after : List α}

/-- A word without the mark that stands before a text with the mark stands before the mark. -/
theorem prefix_of_prefix_append_mark {word : List α} (hmark : mark ∉ word)
    (h : word <+: before ++ mark :: after) : word <+: before := by
  by_cases hlen : word.length ≤ before.length
  · exact List.prefix_of_prefix_length_le h (List.prefix_append _ _) hlen
  · obtain ⟨rest, rfl⟩ := List.prefix_of_prefix_length_le (List.prefix_append before (mark :: after)) h
      (by omega)
    rw [List.prefix_append_right_inj] at h
    cases rest with
    | nil => simp
    | cons first rest =>
      rw [List.cons_prefix_cons] at h
      simp [h.1] at hmark

theorem suffix_of_suffix_append_mark {word : List α} (hmark : mark ∉ word)
    (h : word <:+ before ++ mark :: after) : word <:+ after := by
  rw [← List.reverse_prefix] at h ⊢
  rw [List.reverse_append, List.reverse_cons, List.append_assoc] at h
  exact prefix_of_prefix_append_mark (by simpa using hmark) h

/-- Two texts that are bare at their outer ends stay so with a mark between them. -/
theorem bare_append_mark (hmark : ∀ word ∈ words, mark ∉ word)
    (hbefore : ∀ word ∈ words, word ≠ [] → ¬ word <+: before)
    (hafter : ∀ word ∈ words, word ≠ [] → ¬ word <:+ after) :
    Bare words (before ++ mark :: after) where
  front word hword hne h :=
    hbefore word hword hne (prefix_of_prefix_append_mark (hmark word hword) h)
  back word hword hne h :=
    hafter word hword hne (suffix_of_suffix_append_mark (hmark word hword) h)

/-- Stripping stops at the mark. -/
theorem stripLeft_append_mark [DecidableEq α] (hmark : ∀ word ∈ words, mark ∉ word) :
    stripLeft words (before ++ mark :: after) = stripLeft words before ++ mark :: after := by
  fun_induction stripLeft words before with
  | case1 before hfind =>
    apply stripLeft_of_front
    intro word hword hne hprefix
    have := List.find?_eq_none.1 hfind word hword
    simp [hne, prefix_of_prefix_append_mark (hmark word hword) hprefix] at this
  | case2 before word hfind ih =>
    have hfound := List.find?_some hfind
    simp only [ne_eq, decide_not, Bool.and_eq_true, Bool.not_eq_true', decide_eq_false_iff_not,
      List.isPrefixOf_iff_prefix] at hfound
    have hfind' : (words.find? fun word => word ≠ [] && word.isPrefixOf (before ++ mark :: after)) =
        some word := by
      rw [← hfind]
      apply List.find?_congr
      intro w hw
      congr 1
      rw [Bool.eq_iff_iff, List.isPrefixOf_iff_prefix, List.isPrefixOf_iff_prefix]
      exact ⟨prefix_of_prefix_append_mark (hmark w hw), fun h => h.trans (List.prefix_append _ _)⟩
    rw [stripLeft.eq_def]
    split
    · next hnone =>
      rw [hfind'] at hnone
      cases hnone
    · next w hw =>
      rw [hfind'] at hw
      obtain rfl := Option.some.inj hw
      rw [List.drop_append_of_le_length hfound.2.length_le, ih]

theorem stripRight_append_mark [DecidableEq α] (hmark : ∀ word ∈ words, mark ∉ word) :
    stripRight words (before ++ mark :: after) = before ++ mark :: stripRight words after := by
  have hreverse : ∀ word ∈ words.map List.reverse, mark ∉ word := by
    intro word hword
    obtain ⟨w, hw, rfl⟩ := List.mem_map.1 hword
    rw [List.mem_reverse]
    exact hmark w hw
  have htext : (before ++ mark :: after).reverse = after.reverse ++ mark :: before.reverse := by
    rw [List.reverse_append, List.reverse_cons, List.append_assoc, List.singleton_append]
  rw [stripRight, htext, stripLeft_append_mark hreverse, List.reverse_append, List.reverse_cons,
    List.reverse_reverse, List.append_assoc, List.singleton_append, stripRight]

/-- A text that starts with a mark keeps it. -/
theorem strip_cons_mark [DecidableEq α] (hmark : ∀ word ∈ words, mark ∉ word) :
    strip words (mark :: after) = mark :: stripRight words after := by
  have hleft : stripLeft words (mark :: after) = mark :: after := by
    apply stripLeft_of_front
    intro word hword hne hprefix
    exact hne (List.prefix_nil.1
      (@prefix_of_prefix_append_mark _ _ [] _ _ (hmark word hword) hprefix))
  rw [strip, hleft]
  exact @stripRight_append_mark _ _ _ [] _ _ hmark

end Marks

end CodeGo.Lib.Strip
