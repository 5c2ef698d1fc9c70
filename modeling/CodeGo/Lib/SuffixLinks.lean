import Mathlib.Data.List.Infix

/-!
# Suffix links

A set of texts that has every beginning of its members, the nodes. The suffixes of a text that are
nodes, longest first, are what an automaton that reads the text has to keep: they are the longest of
them, and what the links from it lead to.
-/

namespace CodeGo.Lib.SuffixLinks

variable {α : Type}

section Definitions

variable (node : List α → Bool)

/-- The suffixes that are nodes, longest first. -/
def suffixes (s : List α) : List (List α) := s.tails.filter node

/-- The longest suffix that is a node. -/
def longest (s : List α) : List α := (suffixes node s).headD []

/-- The longest proper suffix that is a node. -/
def link (s : List α) : List α := longest node s.tail

end Definitions

/-- Every beginning of a node is one. -/
structure Closed (node : List α → Bool) : Prop where
  root : node [] = true
  init : ∀ s a, node (s ++ [a]) = true → node s = true

section Laws

variable {node : List α → Bool} {p s t : List α} {a : α}

theorem Closed.of_prefix (h : Closed node) (hs : node s = true) (hp : p <+: s) : node p = true := by
  obtain ⟨t, rfl⟩ := hp
  induction t using List.reverseRecOn with
  | nil => rwa [List.append_nil] at hs
  | append_singleton t a ih =>
    rw [← List.append_assoc] at hs
    exact ih (h.init _ _ hs)

theorem mem_suffixes : p ∈ suffixes node s ↔ p <:+ s ∧ node p = true := by
  rw [suffixes, List.mem_filter, List.mem_tails]

theorem suffixes_nil (h : Closed node) : suffixes node [] = [[]] := by
  simp [suffixes, h.root]

theorem suffixes_ne_nil (h : Closed node) : suffixes node s ≠ [] :=
  List.ne_nil_of_mem (mem_suffixes.2 ⟨List.nil_suffix, h.root⟩)

theorem longest_mem (h : Closed node) : longest node s ∈ suffixes node s := by
  obtain ⟨first, rest, hcons⟩ := List.exists_cons_of_ne_nil (suffixes_ne_nil h (s := s))
  rw [longest, hcons]
  exact List.mem_cons_self

theorem node_longest (h : Closed node) : node (longest node s) = true :=
  (mem_suffixes.1 (longest_mem h)).2

theorem longest_suffix (h : Closed node) : longest node s <:+ s :=
  (mem_suffixes.1 (longest_mem h)).1

/-- No node among the suffixes is longer than the longest. -/
theorem suffixes_longest (h : Closed node) : suffixes node (longest node s) = suffixes node s := by
  induction s with
  | nil =>
    rw [longest, suffixes_nil h]
    exact suffixes_nil h
  | cons a s ih =>
    by_cases hnode : node (a :: s) = true
    · have hself : suffixes node (a :: s) = (a :: s) :: suffixes node s := by
        rw [suffixes, List.tails_cons, List.filter_cons, if_pos hnode]
        rfl
      rw [longest, hself]
      exact hself
    · have hsame : suffixes node (a :: s) = suffixes node s := by
        rw [suffixes, List.tails_cons, List.filter_cons, if_neg hnode]
        rfl
      rw [longest, hsame]
      exact ih

/-- The links lead to all suffixes of a node that are nodes. -/
theorem suffixes_of_node (h : Closed node) (hs : node s = true) (hne : s ≠ []) :
    suffixes node s = s :: suffixes node (link node s) := by
  cases s with
  | nil => exact absurd rfl hne
  | cons a s =>
    rw [link, suffixes_longest h, suffixes, List.tails_cons, List.filter_cons, if_pos hs]
    rfl

theorem length_link (h : Closed node) (hne : s ≠ []) : (link node s).length < s.length := by
  cases s with
  | nil => exact absurd rfl hne
  | cons a s =>
    have := (longest_suffix h (s := s)).length_le
    rw [link, List.length_cons]
    exact Nat.lt_succ_of_le this

theorem node_link (h : Closed node) : node (link node s) = true := node_longest h

/-- The next symbol turns the nodes that it leads on from into nodes. -/
theorem suffixes_concat (h : Closed node) :
    suffixes node (s ++ [a]) =
      ((suffixes node s).filter fun q => node (q ++ [a])).map (· ++ [a]) ++ [[]] := by
  have hroot : List.filter node [[]] = [[]] := by
    rw [List.filter_cons, if_pos h.root, List.filter_nil]
  have htails : (s ++ [a]).tails = s.tails.map (· ++ [a]) ++ [[]] := by
    rw [List.tails_append]
    rfl
  rw [suffixes, htails, List.filter_append, hroot, List.filter_map, suffixes, List.filter_filter]
  congr 2
  apply List.filter_congr
  intro q _
  rw [Function.comp_apply, Bool.eq_iff_iff, Bool.and_eq_true]
  exact ⟨fun hq => ⟨hq, h.init _ _ hq⟩, And.left⟩

/-- The longest node after another symbol is found along the links. -/
theorem longest_concat (h : Closed node) :
    longest node (s ++ [a]) =
      (((suffixes node s).find? fun q => node (q ++ [a])).map (· ++ [a])).getD [] := by
  rw [longest, suffixes_concat h, ← List.head?_filter]
  cases (suffixes node s).filter fun q => node (q ++ [a]) <;> rfl

theorem link_concat (h : Closed node) (hne : s ≠ []) :
    link node (s ++ [a]) =
      (((suffixes node (link node s)).find? fun q => node (q ++ [a])).map (· ++ [a])).getD [] := by
  rw [link, List.tail_append_of_ne_nil hne, longest_concat h, link, suffixes_longest h]

theorem nodup_suffixes : (suffixes node s).Nodup := by
  apply List.Pairwise.filter
  show s.tails.Nodup
  induction s with
  | nil => simp
  | cons a s ih =>
    rw [List.tails_cons, List.nodup_cons]
    refine ⟨?_, ih⟩
    intro hmem
    have := ((List.mem_tails _ _).1 hmem).length_le
    rw [List.length_cons] at this
    omega

end Laws

end CodeGo.Lib.SuffixLinks
