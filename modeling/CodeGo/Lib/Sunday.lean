import Mathlib.Data.List.Basic

/-!
# Sunday's substring search

A window as long as the pattern moves over the text. Where it does not match, the element right
after it says by how much it may move, and a table of shifts holds what the pattern knows of that
element.
-/

namespace CodeGo.Lib.Sunday

section Search

variable {α : Type} [DecidableEq α]

/-- A search answers, or reads past an end, or is still under way. -/
inductive Outcome where
  | found (b : Bool)
  | outOfRange
  | outOfFuel
  deriving DecidableEq, Repr

/-- How many elements of the pattern agree with the window, from the `j`th on. -/
def agree (text pattern : List α) (i : Nat) : Nat → Nat → Option Nat
  | 0, j => some j
  | k + 1, j =>
    match text[i + j]?, pattern[j]? with
    | some a, some b => if a = b then agree text pattern i k (j + 1) else some j
    | _, _ => none

/-- An element that is not in the table moves the window past itself. -/
def scan (shift : α → Option Nat) (text pattern : List α) : Nat → Nat → Outcome
  | 0, _ => .outOfFuel
  | fuel + 1, i =>
    if i + pattern.length ≤ text.length then
      match agree text pattern i pattern.length 0 with
      | none => .outOfRange
      | some j =>
        if j = pattern.length then .found true
        else if i + pattern.length < text.length then
          match text[i + pattern.length]? with
          | none => .outOfRange
          | some next =>
            scan shift text pattern fuel (i + (shift next).getD (pattern.length + 1))
        else .found false
    else .found false

def search (shift : α → Option Nat) (text pattern : List α) : Outcome :=
  scan shift text pattern (text.length + 1) 0

end Search

section Occurrences

variable {α : Type} {shift : α → Option Nat} {text pattern : List α} {i : Nat}

/-- The pattern stands in the text from `i` on. -/
def At (text pattern : List α) (i : Nat) : Prop :=
  i + pattern.length ≤ text.length ∧ ∀ t < pattern.length, text[i + t]? = pattern[t]?

theorem at_iff_drop : At text pattern i ↔ i ≤ text.length ∧ pattern <+: text.drop i := by
  rw [List.prefix_iff_getElem?]
  constructor
  · rintro ⟨hi, hat⟩
    refine ⟨by omega, fun t ht => ?_⟩
    rw [List.getElem?_drop, hat t ht, List.getElem?_eq_getElem ht]
  · rintro ⟨hi, hprefix⟩
    have hat : ∀ t < pattern.length, text[i + t]? = pattern[t]? := fun t ht => by
      rw [← List.getElem?_drop, hprefix t ht, List.getElem?_eq_getElem ht]
    refine ⟨?_, hat⟩
    by_contra hlong
    have hlast := hat (text.length - i) (by omega)
    rw [List.getElem?_eq_none (by omega), List.getElem?_eq_getElem (by omega)] at hlast
    cases hlast

theorem infix_iff_at : pattern <:+: text ↔ ∃ i, At text pattern i := by
  simp only [at_iff_drop]
  constructor
  · rintro ⟨before, after, rfl⟩
    refine ⟨before.length, by simp, ?_⟩
    rw [List.append_assoc, List.drop_left]
    exact List.prefix_append pattern after
  · rintro ⟨i, -, hprefix⟩
    exact hprefix.isInfix.trans (List.drop_suffix i text).isInfix

/-- Every shift moves the window, and not past what it has not seen. -/
structure Shifts (shift : α → Option Nat) (pattern : List α) : Prop where
  pos : ∀ a v, shift a = some v → 0 < v
  bounded : ∀ a v, shift a = some v → v ≤ pattern.length + 1

/-- No shift jumps over an element of the pattern. -/
def Sound (shift : α → Option Nat) (pattern : List α) : Prop :=
  ∀ (a : α) (j : Nat), pattern[j]? = some a → ∃ v, shift a = some v ∧ v + j ≤ pattern.length

theorem not_at_of_jump (hshifts : Shifts shift pattern) (hsound : Sound shift pattern) {next : α}
    (hnext : text[i + pattern.length]? = some next) {i' : Nat} (hlt : i < i')
    (hjump : i' < i + (shift next).getD (pattern.length + 1)) : ¬ At text pattern i' := by
  rintro ⟨-, hat⟩
  have hle : (shift next).getD (pattern.length + 1) ≤ pattern.length + 1 := by
    cases hshift : shift next with
    | none => exact Nat.le_refl _
    | some v => exact hshifts.bounded next v hshift
  -- the element after the window is then an element of the pattern
  have hown := hat (i + pattern.length - i') (by omega)
  rw [show i' + (i + pattern.length - i') = i + pattern.length by omega, hnext] at hown
  obtain ⟨v, hv, hbound⟩ := hsound next _ hown.symm
  rw [hv, Option.getD_some] at hjump
  omega

end Occurrences

section Correctness

variable {α : Type} [DecidableEq α] {shift : α → Option Nat} {text pattern : List α} {i j k : Nat}

/-- The window is read inside the text, and all of it agrees exactly where the pattern stands. -/
theorem agree_spec (hi : i + pattern.length ≤ text.length) (hk : j + k = pattern.length) :
    ∃ j', agree text pattern i k j = some j' ∧
      (j' = pattern.length ↔ ∀ t, j ≤ t → t < pattern.length → text[i + t]? = pattern[t]?) := by
  induction k generalizing j with
  | zero =>
    refine ⟨j, rfl, iff_of_true hk fun t hj ht => ?_⟩
    omega
  | succ k ih =>
    have hjlt : j < pattern.length := by omega
    have htext : text[i + j]? = some text[i + j] := List.getElem?_eq_getElem (by omega)
    have hpattern : pattern[j]? = some pattern[j] := List.getElem?_eq_getElem hjlt
    rw [agree, htext, hpattern]
    by_cases heq : text[i + j] = pattern[j]
    · obtain ⟨j', hagree, hiff⟩ := ih (j := j + 1) (by omega)
      simp only [if_pos heq]
      refine ⟨j', hagree, hiff.trans ⟨fun h t hjt ht => ?_, fun h t hjt ht => h t (by omega) ht⟩⟩
      rcases Nat.eq_or_lt_of_le hjt with rfl | hlt
      · rw [htext, hpattern, heq]
      · exact h t hlt ht
    · simp only [if_neg heq]
      refine ⟨j, rfl, iff_of_false (by omega) fun h => heq ?_⟩
      have := h j (Nat.le_refl j) hjlt
      rw [htext, hpattern] at this
      exact Option.some.inj this

theorem agree_eq (hi : i + pattern.length ≤ text.length) :
    ∃ j, agree text pattern i pattern.length 0 = some j ∧
      (j = pattern.length ↔ At text pattern i) := by
  obtain ⟨j, hagree, hiff⟩ := agree_spec hi (Nat.zero_add pattern.length)
  refine ⟨j, hagree, hiff.trans ⟨fun h => ⟨hi, fun t ht => h t (Nat.zero_le t) ht⟩, ?_⟩⟩
  exact fun h t _ ht => h.2 t ht

/-- The scan ends inside the text; what it finds is there, and with sound shifts it finds what is
still ahead. -/
theorem scan_spec (hshifts : Shifts shift pattern) {fuel : Nat} (hfuel : text.length ≤ i + fuel) :
    ∃ b, scan shift text pattern (fuel + 1) i = .found b ∧
      (b = true → ∃ i, At text pattern i) ∧
      (Sound shift pattern → (∃ i', i ≤ i' ∧ At text pattern i') → b = true) := by
  induction fuel generalizing i with
  | zero =>
    rw [scan]
    by_cases hi : i + pattern.length ≤ text.length
    · obtain ⟨j, hagree, hiff⟩ := agree_eq hi
      have hat : At text pattern i := ⟨hi, fun t ht => by omega⟩
      simp only [if_pos hi, hagree, if_pos (hiff.2 hat)]
      exact ⟨true, rfl, fun _ => ⟨i, hat⟩, fun _ _ => rfl⟩
    · simp only [if_neg hi]
      refine ⟨false, rfl, nofun, ?_⟩
      rintro - ⟨i', hi', hat⟩
      have := hat.1
      omega
  | succ fuel ih =>
    rw [scan]
    by_cases hi : i + pattern.length ≤ text.length
    · obtain ⟨j, hagree, hiff⟩ := agree_eq hi
      simp only [if_pos hi, hagree]
      by_cases hj : j = pattern.length
      · simp only [if_pos hj]
        exact ⟨true, rfl, fun _ => ⟨i, hiff.1 hj⟩, fun _ _ => rfl⟩
      · simp only [if_neg hj]
        have hnot : ¬ At text pattern i := fun hat => hj (hiff.2 hat)
        by_cases hmore : i + pattern.length < text.length
        · have hnext := List.getElem?_eq_getElem hmore
          simp only [if_pos hmore, hnext]
          have hmoves : 0 < (shift text[i + pattern.length]).getD (pattern.length + 1) := by
            cases hshift : shift text[i + pattern.length] with
            | none => exact Nat.succ_pos _
            | some v => exact hshifts.pos _ v hshift
          obtain ⟨b, hscan, hfound, hahead⟩ :=
            @ih (i + (shift text[i + pattern.length]).getD (pattern.length + 1)) (by omega)
          refine ⟨b, hscan, hfound, ?_⟩
          rintro hsound ⟨i', hi', hat⟩
          refine hahead hsound ⟨i', ?_, hat⟩
          by_contra hjump
          have hne : i' ≠ i := fun heq => hnot (heq ▸ hat)
          exact not_at_of_jump hshifts hsound hnext (by omega) (by omega) hat
        · simp only [if_neg hmore]
          refine ⟨false, rfl, nofun, ?_⟩
          rintro - ⟨i', hi', hat⟩
          have heq : i' = i := by
            have := hat.1
            omega
          exact absurd (heq ▸ hat) hnot
    · simp only [if_neg hi]
      refine ⟨false, rfl, nofun, ?_⟩
      rintro - ⟨i', hi', hat⟩
      have := hat.1
      omega

/-- The search ends inside the text, and finds nothing that is not there. -/
theorem search_found (hshifts : Shifts shift pattern) :
    ∃ b, search shift text pattern = .found b ∧ (b = true → pattern <:+: text) := by
  obtain ⟨b, hscan, hfound, -⟩ :=
    @scan_spec _ _ shift text pattern 0 hshifts text.length (by omega)
  exact ⟨b, hscan, fun hb => infix_iff_at.2 (hfound hb)⟩

/-- With sound shifts it finds the pattern wherever it is. -/
theorem search_iff (hshifts : Shifts shift pattern) (hsound : Sound shift pattern) :
    ∃ b, search shift text pattern = .found b ∧ (b = true ↔ pattern <:+: text) := by
  obtain ⟨b, hscan, hfound, hahead⟩ :=
    @scan_spec _ _ shift text pattern 0 hshifts text.length (by omega)
  refine ⟨b, hscan, ?_⟩
  rw [infix_iff_at]
  exact ⟨hfound, fun ⟨i, hat⟩ => hahead hsound ⟨i, Nat.zero_le i, hat⟩⟩

/-- A first jump over the only place that is left finds nothing. -/
theorem search_jump {before : List α} {next : α} (hbefore : 0 < before.length)
    (hpattern : 0 < pattern.length) (hfirst : (before ++ pattern)[0]? ≠ pattern[0]?)
    (hnext : (before ++ pattern)[pattern.length]? = some next)
    (hjump : before.length < (shift next).getD (pattern.length + 1)) :
    search shift (before ++ pattern) pattern = .found false := by
  have hlength : (before ++ pattern).length = before.length + pattern.length :=
    List.length_append
  obtain ⟨fuel, hfuel⟩ := Nat.exists_eq_succ_of_ne_zero (n := (before ++ pattern).length) (by omega)
  obtain ⟨j, hagree, hiff⟩ := @agree_eq _ _ (before ++ pattern) pattern 0 (by omega)
  have hj : ¬ j = pattern.length := by
    intro heq
    have := (hiff.1 heq).2 0 hpattern
    rw [Nat.zero_add] at this
    exact hfirst this
  rw [search, hfuel, scan, if_pos (by omega)]
  simp only [hagree, if_neg hj]
  rw [if_pos (by omega), Nat.zero_add, hnext]
  simp only
  rw [scan, if_neg (by omega)]

end Correctness

end CodeGo.Lib.Sunday
