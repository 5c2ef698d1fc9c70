import CodeGo.Lib.Trim

/-!
# Integers in decimal

`toString` writes an integer as `strconv.FormatInt` does. Different integers are
written differently, and no white space stands at either end.
-/

namespace CodeGo.Lib.Decimal

open Trim

/-- The characters that integers are written with. -/
def isDecimal (c : Char) : Bool := c.isDigit || c = '-'

theorem mem_toDigits {n : Nat} {c : Char} (h : c ∈ Nat.toDigits 10 n) : c.isDigit = true :=
  Nat.isDigit_of_mem_toDigits (by decide) (by decide) h

theorem toList_toString (a : Int) :
    (toString a).toList =
      if 0 ≤ a then Nat.toDigits 10 a.toNat else '-' :: Nat.toDigits 10 (-a).toNat := by
  rw [Int.toString_eq_repr, Int.repr_eq_if]
  split
  · exact Nat.toList_repr
  · rw [String.toList_append, Nat.toList_repr]
    rfl

theorem isDecimal_of_mem {a : Int} {c : Char} (h : c ∈ (toString a).toList) :
    isDecimal c = true := by
  rw [toList_toString] at h
  split at h
  · simp [isDecimal, mem_toDigits h]
  · rcases List.mem_cons.1 h with rfl | h
    · decide
    · simp [isDecimal, mem_toDigits h]

theorem toDigits_injective {m n : Nat} (h : Nat.toDigits 10 m = Nat.toDigits 10 n) : m = n := by
  have hm := Nat.ofDigitChars_toDigits (b := 10) (n := m) (by decide) (by decide)
  have hn := Nat.ofDigitChars_toDigits (b := 10) (n := n) (by decide) (by decide)
  rw [← hm, ← hn, h]

theorem toString_injective {a b : Int} (h : toString a = toString b) : a = b := by
  have hlist := congrArg String.toList h
  rw [toList_toString, toList_toString] at hlist
  have hminus : ∀ {m n : Nat}, Nat.toDigits 10 m ≠ '-' :: Nat.toDigits 10 n := by
    intro m n e
    have hmem : '-' ∈ Nat.toDigits 10 m := by
      rw [e]
      exact .head _
    have hdigit := mem_toDigits hmem
    revert hdigit
    decide
  split at hlist <;> split at hlist
  · have := toDigits_injective hlist
    omega
  · exact absurd hlist hminus
  · exact absurd hlist.symm hminus
  · have := toDigits_injective (List.cons.inj hlist).2
    omega

/-- An integer ends where other characters begin. -/
theorem toString_append_injective {a b : Int} {x y : String}
    (hx : ∀ d ∈ x.toList.head?, isDecimal d = false) (hy : ∀ d ∈ y.toList.head?, isDecimal d = false)
    (h : toString a ++ x = toString b ++ y) : a = b ∧ x = y := by
  have hnone : ∀ {z : String}, (∀ d ∈ z.toList.head?, isDecimal d = false) →
      z.toList.takeWhile isDecimal = [] := by
    intro z hz
    cases hlist : z.toList with
    | nil => rfl
    | cons d rest =>
      rw [hlist] at hz
      rw [List.takeWhile_cons, hz d rfl]
      rfl
  have htake : ∀ (a : Int) {z : String}, (∀ d ∈ z.toList.head?, isDecimal d = false) →
      (toString a ++ z).toList.takeWhile isDecimal = (toString a).toList := by
    intro a z hz
    rw [String.toList_append, List.takeWhile_append_of_pos fun c hc => isDecimal_of_mem hc, hnone hz,
      List.append_nil]
  have hab : a = b := by
    apply toString_injective
    apply String.toList_injective
    rw [← htake a hx, ← htake b hy, h]
  subst hab
  refine ⟨rfl, String.toList_injective ?_⟩
  have hlist := congrArg String.toList h
  rw [String.toList_append, String.toList_append] at hlist
  exact List.append_cancel_left hlist

theorem isSpace_of_isDecimal {c : Char} (h : isDecimal c = true) : isSpace c = false := by
  have hrange : (48 ≤ c.toNat ∧ c.toNat ≤ 57) ∨ c.toNat = 45 := by
    simp only [isDecimal, Char.isDigit, Bool.or_eq_true, Bool.and_eq_true, decide_eq_true_eq,
      ge_iff_le] at h
    rcases h with h | rfl
    · exact .inl h
    · exact .inr rfl
  simp only [isSpace, Bool.or_eq_false_iff, Bool.and_eq_false_iff, decide_eq_false_iff_not,
    beq_eq_false_iff_ne]
  omega

theorem toList_toString_ne_nil (a : Int) : (toString a).toList ≠ [] := by
  rw [toList_toString]
  split
  · exact Nat.toDigits_ne_nil
  · exact List.cons_ne_nil _ _

theorem solid_toString (a : Int) : Solid (toString a) := by
  have hne := toList_toString_ne_nil a
  constructor
  · rw [solidHead, List.head?_eq_some_head hne, Option.any_some,
      isSpace_of_isDecimal (isDecimal_of_mem (List.head_mem hne))]
    rfl
  · rw [solidLast, List.getLast?_eq_some_getLast hne, Option.any_some,
      isSpace_of_isDecimal (isDecimal_of_mem (List.getLast_mem hne))]
    rfl

end CodeGo.Lib.Decimal
