import Mathlib.Data.List.DropRight
import Mathlib.Data.List.TakeWhile

/-!
# Trimming white space

`trimSpace` removes the leading and trailing Unicode white space of a string,
as Go's `strings.TrimSpace` does.
-/

namespace CodeGo.Lib.Trim

/-- The code points with the White_Space property. -/
def isSpace (c : Char) : Bool :=
  let n := c.toNat
  (9 ≤ n && n ≤ 13) || n == 32 || n == 0x85 || n == 0xA0 || n == 0x1680 ||
    (0x2000 ≤ n && n ≤ 0x200A) || n == 0x2028 || n == 0x2029 || n == 0x202F ||
    n == 0x205F || n == 0x3000

/-- The list without its leading and trailing elements that satisfy `p`. -/
def trimList {α : Type} (p : α → Bool) (xs : List α) : List α := (xs.dropWhile p).rdropWhile p

@[irreducible] def trimSpace (s : String) : String := String.ofList (trimList isSpace s.toList)

/-- The string has nothing but white space. -/
def blank (s : String) : Bool := trimSpace s == ""

section Lists

variable {α : Type} {p : α → Bool}

/-- A list is its own trim exactly when neither end satisfies `p`. -/
theorem trimList_eq_self_iff {xs : List α} :
    trimList p xs = xs ↔
      (∀ x, xs.head? = some x → p x = false) ∧ ∀ x, xs.getLast? = some x → p x = false := by
  have hleft : xs.dropWhile p = xs ↔ ∀ x, xs.head? = some x → p x = false := by
    rw [List.dropWhile_eq_self_iff]
    cases xs <;> simp
  have hright : xs.rdropWhile p = xs ↔ ∀ x, xs.getLast? = some x → p x = false := by
    rw [List.rdropWhile_eq_self_iff]
    constructor
    · intro h x hx
      have hne : xs ≠ [] := by rintro rfl; simp at hx
      rw [List.getLast?_eq_some_getLast hne, Option.some.injEq] at hx
      simpa [hx] using h hne
    · intro h hne
      simpa using h _ (List.getLast?_eq_some_getLast hne)
  constructor
  · intro h
    have hlen : xs.length ≤ (xs.dropWhile p).length :=
      calc xs.length = (trimList p xs).length := by rw [h]
        _ ≤ _ := (List.rdropWhile_prefix p _).length_le
    have hd : xs.dropWhile p = xs := (List.dropWhile_suffix p).eq_of_length_le hlen
    exact ⟨hleft.1 hd, hright.1 (by rwa [trimList, hd] at h)⟩
  · rintro ⟨hh, hl⟩
    rw [trimList, hleft.2 hh, hright.2 hl]

theorem trimList_idem (xs : List α) : trimList p (trimList p xs) = trimList p xs := by
  rw [trimList_eq_self_iff]
  constructor
  · intro x hx
    -- trimming the right end leaves a prefix of what the left trim left
    obtain ⟨t, ht⟩ := List.rdropWhile_prefix p (xs.dropWhile p)
    have hhead : (xs.dropWhile p).head? = some x := by
      rw [← ht, List.head?_append]
      rw [trimList] at hx
      rw [hx]
      rfl
    have := List.head?_dropWhile_not p xs
    rw [hhead] at this
    simpa using this
  · intro x hx
    have hne : (xs.dropWhile p).rdropWhile p ≠ [] := by
      rintro h
      rw [trimList, h] at hx
      simp at hx
    have hlast := List.rdropWhile_last_not p _ hne
    rw [trimList, List.getLast?_eq_some_getLast hne, Option.some.injEq] at hx
    rw [hx] at hlast
    simpa using hlast

/-- What stands between separators has none. -/
theorem not_mem_of_mem_splitOn [BEq α] [LawfulBEq α] {c : α} {cs line : List α} (h : line ∈ cs.splitOn c) :
    c ∉ line := by
  induction cs generalizing line with
  | nil =>
    rw [List.splitOn_nil, List.mem_singleton] at h
    rw [h]
    exact List.not_mem_nil
  | cons d cs ih =>
    rw [List.splitOn_cons_eq_if_modifyHead] at h
    split at h
    · rcases List.mem_cons.1 h with rfl | h
      · exact List.not_mem_nil
      · exact ih h
    next hd =>
      obtain ⟨first, rest, hcons⟩ := List.exists_cons_of_ne_nil (List.splitOn_ne_nil c cs)
      rw [hcons] at h ih
      rcases List.mem_cons.1 h with rfl | h
      · rw [List.mem_cons, not_or]
        exact ⟨fun hc => hd (by simp [hc]), ih List.mem_cons_self⟩
      · exact ih (List.mem_cons_of_mem _ h)

/-- Trimming takes away elements that satisfy `p` only. -/
theorem filter_trimList (xs : List α) : (trimList p xs).filter (fun x => !p x) = xs.filter fun x => !p x := by
  have hdrop (ys : List α) : (ys.dropWhile p).filter (fun x => !p x) = ys.filter fun x => !p x := by
    induction ys with
    | nil => rfl
    | cons y ys ih =>
      rw [List.dropWhile_cons]
      split
      · next hy => rw [ih, List.filter_cons_of_neg (by simp [hy])]
      · rfl
  have hreverse (ys : List α) : (ys.rdropWhile p).filter (fun x => !p x) = ys.filter fun x => !p x := by
    rw [List.rdropWhile, List.filter_reverse, hdrop, List.filter_reverse, List.reverse_reverse]
  rw [trimList, hreverse, hdrop]

theorem dropWhile_append_cons {x : α} (hx : p x = false) (xs ys : List α) :
    (xs ++ x :: ys).dropWhile p = xs.dropWhile p ++ x :: ys := by
  induction xs with
  | nil => simp [hx]
  | cons y xs ih =>
    rw [List.cons_append, List.dropWhile_cons, List.dropWhile_cons]
    split
    · exact ih
    · rfl

theorem rdropWhile_append_cons {x : α} (hx : p x = false) (xs ys : List α) :
    (xs ++ x :: ys).rdropWhile p = xs ++ x :: ys.rdropWhile p := by
  have hreverse : (xs ++ x :: ys).reverse = ys.reverse ++ x :: xs.reverse := by simp
  rw [List.rdropWhile, hreverse, dropWhile_append_cons hx, List.rdropWhile]
  simp

/-- What a list holds it holds trimmed when it is trimmed itself. -/
theorem infix_trimList {xs ys : List α} (h : xs <:+: ys) : trimList p xs <:+: trimList p ys := by
  by_cases hne : trimList p xs = []
  · rw [hne]
    exact List.nil_infix
  · obtain ⟨hhead, hlast⟩ := trimList_eq_self_iff.1 (trimList_idem (p := p) xs)
    have hinfix : trimList p xs <:+: ys :=
      ((List.rdropWhile_prefix p _).isInfix.trans (List.dropWhile_suffix p).isInfix).trans h
    generalize trimList p xs = core at hne hhead hlast hinfix
    obtain ⟨before, after, rfl⟩ := hinfix
    obtain ⟨first, rest, rfl⟩ := List.exists_cons_of_ne_nil hne
    have hleft : (before ++ (first :: rest) ++ after).dropWhile p =
        before.dropWhile p ++ (first :: rest) ++ after := by
      rw [List.append_assoc, List.cons_append, dropWhile_append_cons (hhead first rfl),
        List.append_assoc, List.cons_append]
    obtain ⟨init, last, hconcat⟩ : ∃ init last, first :: rest = init ++ [last] :=
      ⟨_, _, (List.dropLast_append_getLast (List.cons_ne_nil first rest)).symm⟩
    have hsolid : p last = false := hlast last (by rw [hconcat, List.getLast?_concat])
    have hright : (before.dropWhile p ++ (first :: rest) ++ after).rdropWhile p =
        before.dropWhile p ++ (first :: rest) ++ after.rdropWhile p := by
      rw [hconcat]
      have := rdropWhile_append_cons hsolid (before.dropWhile p ++ init) after
      simpa using this
    rw [trimList, hleft, hright]
    exact ⟨_, _, rfl⟩

end Lists

@[simp] theorem trimSpace_trimSpace (s : String) : trimSpace (trimSpace s) = trimSpace s := by
  simp only [trimSpace, String.toList_ofList, trimList_idem]

/-- A string is its own trim when it starts and ends outside white space. -/
theorem trimSpace_eq_self {s : String}
    (hh : ∀ c, s.toList.head? = some c → isSpace c = false)
    (hl : ∀ c, s.toList.getLast? = some c → isSpace c = false) : trimSpace s = s := by
  rw [trimSpace, trimList_eq_self_iff.2 ⟨hh, hl⟩, String.ofList_toList]

section Solid

/-- The string starts outside white space. -/
def solidHead (s : String) : Bool := s.toList.head?.any fun c => !isSpace c

/-- The string ends outside white space. -/
def solidLast (s : String) : Bool := s.toList.getLast?.any fun c => !isSpace c

variable {s t : String}

theorem solidHead_append (h : solidHead s = true) : solidHead (s ++ t) = true := by
  unfold solidHead at h ⊢
  rw [String.toList_append, List.head?_append]
  cases hs : s.toList.head? with
  | some c =>
    rw [hs] at h
    exact h
  | none =>
    rw [hs] at h
    cases h

theorem solidLast_append (h : solidLast t = true) : solidLast (s ++ t) = true := by
  unfold solidLast at h ⊢
  rw [String.toList_append, List.getLast?_append]
  cases ht : t.toList.getLast? with
  | some c =>
    rw [ht] at h
    exact h
  | none =>
    rw [ht] at h
    cases h

theorem trimSpace_of_solid (hh : solidHead s = true) (hl : solidLast s = true) :
    trimSpace s = s := by
  apply trimSpace_eq_self
  · intro c hc
    simpa [solidHead, hc] using hh
  · intro c hc
    simpa [solidLast, hc] using hl

theorem blank_of_solid (hh : solidHead s = true) (hl : solidLast s = true) : blank s = false := by
  have hne : s ≠ "" := by
    rintro rfl
    cases hh
  rw [blank, trimSpace_of_solid hh hl]
  exact beq_false_of_ne hne

/-- The string neither starts nor ends in white space, and is not empty. -/
structure Solid (s : String) : Prop where
  head : solidHead s = true
  last : solidLast s = true

instance : Decidable (Solid s) := decidable_of_iff (solidHead s = true ∧ solidLast s = true)
  ⟨fun h => ⟨h.1, h.2⟩, fun h => ⟨h.head, h.last⟩⟩

theorem Solid.trimSpace_eq (h : Solid s) : trimSpace s = s := trimSpace_of_solid h.head h.last

theorem Solid.blank_eq (h : Solid s) : blank s = false := blank_of_solid h.head h.last

theorem Solid.append_left (h : Solid s) (ht : solidHead t = true) : Solid (t ++ s) where
  head := solidHead_append ht
  last := solidLast_append h.last

end Solid

section Heads

variable {s : String} {c : Char}

theorem ne_of_head {a b : String} (h : a.toList.head? ≠ b.toList.head?) : a ≠ b :=
  fun e => h (by rw [e])

theorem head_append (h : s.toList.head? = some c) (t : String) :
    (s ++ t).toList.head? = some c := by
  rw [String.toList_append, List.head?_append, h]
  rfl

/-- A trim does not touch a start outside white space. -/
theorem head_trimSpace (h : s.toList.head? = some c) (hc : isSpace c = false) :
    (trimSpace s).toList.head? = some c := by
  obtain ⟨cs, hs⟩ := List.head?_eq_some_iff.1 h
  have hdrop : s.toList.dropWhile isSpace = s.toList := by
    rw [hs, List.dropWhile_cons_of_neg (by rw [hc]; exact Bool.false_ne_true)]
  have hne : s.toList.rdropWhile isSpace ≠ [] := by
    intro hnil
    have := List.rdropWhile_eq_nil_iff.1 hnil c (by rw [hs]; exact List.mem_cons_self ..)
    rw [hc] at this
    cases this
  obtain ⟨d, ds, hcons⟩ := List.exists_cons_of_ne_nil hne
  have hprefix := List.rdropWhile_prefix isSpace s.toList
  rw [hcons, hs, List.cons_prefix_cons] at hprefix
  rw [trimSpace, String.toList_ofList, trimList, hdrop, hcons, hprefix.1]
  rfl

theorem append_inj_middle {a x y b : String} (h : a ++ x ++ b = a ++ y ++ b) : x = y := by
  have hlist := congrArg String.toList h
  simp only [String.toList_append, List.append_assoc] at hlist
  exact String.toList_injective (List.append_cancel_right (List.append_cancel_left hlist))

theorem append_inj_left {a x y : String} (h : a ++ x = a ++ y) : x = y := by
  have hlist := congrArg String.toList h
  simp only [String.toList_append] at hlist
  exact String.toList_injective (List.append_cancel_left hlist)

/-- Texts that start differently, though neither start is a prefix of the other. -/
theorem append_ne_append {a b : String} (h : ¬ a.toList <+: b.toList) (h' : ¬ b.toList <+: a.toList)
    (x y : String) : a ++ x ≠ b ++ y := by
  intro heq
  have hlist := congrArg String.toList heq
  rw [String.toList_append, String.toList_append] at hlist
  have ha : a.toList <+: a.toList ++ x.toList := List.prefix_append _ _
  have hb : b.toList <+: a.toList ++ x.toList := by
    rw [hlist]
    exact List.prefix_append _ _
  exact (List.prefix_or_prefix_of_prefix ha hb).elim h h'

end Heads

end CodeGo.Lib.Trim
