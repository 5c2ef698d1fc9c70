import Mathlib.Algebra.Order.Floor.Ring
import Mathlib.Algebra.BigOperators.Group.List.Basic
import Mathlib.Algebra.Order.BigOperators.GroupWithZero.List
import Mathlib.Data.List.Perm.Subperm
import Mathlib.Tactic.FieldSimp
import Mathlib.Tactic.Linarith

/-!
# Products that are cut after every factor

A whole number is multiplied by the factors of a list, and the product is cut to a whole
number after every factor. What is cut depends on the order of the factors. Undoing such a
product factor by factor gives the number back only where no division leaves a rest.
-/

namespace CodeGo.Lib.Truncation

variable {K : Type*} [Field K] [LinearOrder K] [FloorRing K]
variable {q d b : ℤ} {l o s : List K}

/-- The product of `q` and the factors, cut after every factor. -/
def scale (q : ℤ) (l : List K) : ℤ := l.foldl (fun q r => ⌊(q : K) * r⌋) q

/-- The value is a whole number. -/
def Whole (x : K) : Prop := ∃ n : ℤ, (n : K) = x

/-- The least number of which the product is not cut to zero. -/
def least : List K → ℤ
  | [] => 1
  | r :: l => ⌈(least l : K) / r⌉

@[simp] theorem scale_nil : scale q ([] : List K) = q := rfl

@[simp] theorem scale_cons {r : K} : scale q (r :: l) = scale ⌊(q : K) * r⌋ l := rfl

variable [IsStrictOrderedRing K]

theorem scale_nonneg (hpos : ∀ r ∈ l, 0 < r) (hq : 0 ≤ q) : 0 ≤ scale q l := by
  induction l generalizing q with
  | nil => exact hq
  | cons r l ih =>
    rw [scale_cons]
    apply ih (fun r hr => hpos r (.tail _ hr))
    apply Int.floor_nonneg.2
    have hr : 0 < r := hpos r (.head _)
    positivity

theorem scale_le (hpos : ∀ r ∈ l, 0 < r) : (scale q l : K) ≤ q * l.prod := by
  induction l generalizing q with
  | nil => simp
  | cons r l ih =>
    have hrest := ih (q := ⌊(q : K) * r⌋) (fun r hr => hpos r (.tail _ hr))
    have hprod := List.prod_pos fun r hr => hpos r (.tail _ hr)
    have hfloor := Int.floor_le ((q : K) * r)
    rw [scale_cons, List.prod_cons, ← mul_assoc]
    exact hrest.trans (mul_le_mul_of_nonneg_right hfloor hprod.le)

theorem scale_pos_iff (hpos : ∀ r ∈ l, 0 < r) : 0 < scale q l ↔ least l ≤ q := by
  induction l generalizing q with
  | nil =>
    simp only [scale_nil, least]
    omega
  | cons r l ih =>
    have hr : 0 < r := hpos r (.head _)
    rw [scale_cons, ih fun r hr => hpos r (.tail _ hr), Int.le_floor, least, Int.ceil_le,
      div_le_iff₀ hr]

theorem scale_eq_zero_iff (hpos : ∀ r ∈ l, 0 < r) (hq : 0 ≤ q) :
    scale q l = 0 ↔ q < least l := by
  have hnonneg := scale_nonneg hpos hq
  have hiff := scale_pos_iff (q := q) hpos
  omega

theorem floor_eq_iff_whole {x : K} : (⌊x⌋ : K) = x ↔ Whole x := by
  constructor
  · intro h
    exact ⟨⌊x⌋, h⟩
  · rintro ⟨n, rfl⟩
    simp

/-- Nothing is cut if and only if the product is whole after each of the factors. -/
theorem scale_eq_iff (hpos : ∀ r ∈ l, 0 < r) :
    (scale q l : K) = q * l.prod ↔ ∀ s, s <+: l → Whole ((q : K) * s.prod) := by
  induction l generalizing q with
  | nil => simp [Whole]
  | cons r l ih =>
    have htail : ∀ r ∈ l, 0 < r := fun r hr => hpos r (.tail _ hr)
    have hprod := List.prod_pos htail
    rw [scale_cons, List.prod_cons, ← mul_assoc]
    constructor
    · intro h
      have hle := scale_le (q := ⌊(q : K) * r⌋) htail
      have hfloor := Int.floor_le ((q : K) * r)
      have hwhole : (⌊(q : K) * r⌋ : K) = q * r := by
        apply le_antisymm hfloor
        rw [h] at hle
        exact le_of_mul_le_mul_right hle hprod
      intro s hs
      rcases List.prefix_cons_iff.1 hs with rfl | ⟨t, rfl, ht⟩
      · simp [Whole]
      · have hrest : (scale ⌊(q : K) * r⌋ l : K) = (⌊(q : K) * r⌋ : K) * l.prod := by
          rw [h, hwhole]
        rw [List.prod_cons, ← mul_assoc, ← hwhole]
        exact (ih htail).1 hrest t ht
    · intro h
      have hwhole : (⌊(q : K) * r⌋ : K) = q * r := by
        apply floor_eq_iff_whole.2
        have hone := h [r] (by simp)
        rwa [List.prod_singleton] at hone
      have hrest : (scale ⌊(q : K) * r⌋ l : K) = (⌊(q : K) * r⌋ : K) * l.prod := by
        apply (ih htail).2
        intro t ht
        have hmore := h (r :: t) (by simpa using ht)
        rwa [List.prod_cons, ← mul_assoc, ← hwhole] at hmore
      rw [hrest, hwhole]

/-- What is whole throughout passes the cuts untouched. -/
theorem scale_add (hwhole : ∀ s, s <+: l → Whole ((b : K) * s.prod)) :
    (scale (d + b) l : K) = scale d l + b * l.prod := by
  induction l generalizing d b with
  | nil => simp
  | cons r l ih =>
    obtain ⟨n, hn⟩ := hwhole [r] (by simp)
    rw [List.prod_singleton] at hn
    have hfloor : ⌊((d + b : ℤ) : K) * r⌋ = ⌊(d : K) * r⌋ + n := by
      rw [← Int.floor_add_intCast, hn, Int.cast_add, add_mul]
    rw [scale_cons, scale_cons, hfloor, List.prod_cons, ← mul_assoc, ← hn]
    apply ih
    intro t ht
    have hmore := hwhole (r :: t) (by simpa using ht)
    rwa [List.prod_cons, ← mul_assoc, ← hn] at hmore

section Orders

/-- The product with each part of the factors is whole. -/
def WholeParts (b : ℤ) (l : List K) : Prop := ∀ s : List K, s.Sublist l → Whole ((b : K) * s.prod)

omit [LinearOrder K] [FloorRing K] [IsStrictOrderedRing K] in
theorem WholeParts.of_append {t : List K} (h : WholeParts b l) (ho : (s ++ t).Perm l) :
    Whole ((b : K) * s.prod) := by
  have hsub : List.Subperm s l := (List.sublist_append_left s t).subperm.trans ho.subperm
  obtain ⟨s', hperm, hs'⟩ := hsub
  rw [← hperm.prod_eq]
  exact h s' hs'

omit [LinearOrder K] [FloorRing K] [IsStrictOrderedRing K] in
theorem WholeParts.of_prefix (h : WholeParts b l) (ho : o.Perm l) (hs : s <+: o) :
    Whole ((b : K) * s.prod) := by
  obtain ⟨t, rfl⟩ := hs
  exact h.of_append ho

omit [LinearOrder K] [FloorRing K] [IsStrictOrderedRing K] in
theorem prod_inv (l : List K) : (l.map (·⁻¹)).prod = l.prod⁻¹ := by
  induction l with
  | nil => simp
  | cons r l ih => simp [ih, mul_comm]

omit [FloorRing K] in
theorem inv_pos_of_mem (hpos : ∀ r ∈ l, 0 < r) : ∀ r ∈ l.map (·⁻¹), 0 < r := by
  intro r hr
  obtain ⟨x, hx, rfl⟩ := List.mem_map.1 hr
  exact inv_pos.2 (hpos x hx)

/-- The number divided by the factors one after the other, multiplied by all of them at once. -/
def restored (q : ℤ) (o : List K) : ℤ := ⌊(scale q (o.map (·⁻¹)) : K) * o.prod⌋

theorem restored_eq_iff (hpos : ∀ r ∈ o, 0 < r) :
    restored q o = q ↔ (scale q (o.map (·⁻¹)) : K) * o.prod = q := by
  have hprod := List.prod_pos hpos
  have hle := scale_le (q := q) (inv_pos_of_mem hpos)
  rw [prod_inv, ← div_eq_mul_inv, le_div_iff₀ hprod] at hle
  constructor
  · intro h
    apply le_antisymm hle
    have hfloor := Int.floor_le ((scale q (o.map (·⁻¹)) : K) * o.prod)
    rwa [show ⌊(scale q (o.map (·⁻¹)) : K) * o.prod⌋ = q from h] at hfloor
  · intro h
    rw [restored, h, Int.floor_intCast]

/-- The product is the same in every order of the factors and is undone in every order, if and
only if the number is one of which no product is cut, up to a rest that is always cut. -/
theorem orders_agree_iff (hpos : ∀ r ∈ l, 0 < r) :
    ((∀ o o' : List K, o.Perm l → o'.Perm l → scale q o = scale q o') ∧
      ∀ o o' : List K, o.Perm l → o'.Perm l → restored (scale q o) o' = scale q o) ↔
    ∃ b, WholeParts b l ∧ b ≤ q ∧ ∀ o : List K, o.Perm l → q < b + least o := by
  have hposOf : ∀ o : List K, o.Perm l → ∀ r ∈ o, 0 < r :=
    fun o ho r hr => hpos r (ho.mem_iff.1 hr)
  have hprod := List.prod_pos hpos
  constructor
  · rintro ⟨hsame, hback⟩
    have hall : ∀ o : List K, o.Perm l →
        (scale (scale q l) (o.map (·⁻¹)) : K) = scale q l * l.prod⁻¹ := by
      intro o ho
      have h := (restored_eq_iff (hposOf o ho)).1 (hback l o (.refl l) ho)
      rw [ho.prod_eq] at h
      rw [← h, mul_assoc, mul_inv_cancel₀ hprod.ne', mul_one]
    have hb := hall l (.refl l)
    generalize scale (scale q l) (l.map (·⁻¹)) = b at hb
    have hbl : (b : K) * l.prod = scale q l := by
      rw [hb, mul_assoc, inv_mul_cancel₀ hprod.ne', mul_one]
    have hwhole : WholeParts b l := by
      intro s hs
      obtain ⟨t, ht⟩ := hs.exists_perm_append
      have ho : (t ++ s).Perm l := (List.perm_append_comm.trans ht.symm)
      have h := hall (t ++ s) ho
      rw [← ho.prod_eq, ← prod_inv] at h
      have hpart := (scale_eq_iff (inv_pos_of_mem (hposOf _ ho))).1 h (t.map (·⁻¹))
        (by simp)
      have htprod : t.prod ≠ 0 :=
        (List.prod_pos fun r hr => hposOf _ ho r (List.mem_append_left _ hr)).ne'
      rw [prod_inv, ← hbl, ← ho.prod_eq, List.prod_append] at hpart
      rwa [show (b : K) * (t.prod * s.prod) * t.prod⁻¹ = b * s.prod by field_simp] at hpart
    refine ⟨b, hwhole, ?_, ?_⟩
    · have hle := scale_le (q := q) hpos
      rw [← hbl] at hle
      exact_mod_cast le_of_mul_le_mul_right hle hprod
    · intro o ho
      have hle := scale_le (q := q) hpos
      rw [← hbl] at hle
      have hbq : b ≤ q := by exact_mod_cast le_of_mul_le_mul_right hle hprod
      have hsum := scale_add (d := q - b) fun s hs => hwhole.of_prefix ho hs
      rw [sub_add_cancel, hsame o l ho (.refl l), ho.prod_eq, hbl] at hsum
      have hzero : scale (q - b) o = 0 := by
        have : (scale (q - b) o : K) = 0 := by linarith
        exact_mod_cast this
      have := (scale_eq_zero_iff (hposOf o ho) (by omega)).1 hzero
      omega
  · rintro ⟨b, hwhole, hbq, hleast⟩
    have hscale : ∀ o : List K, o.Perm l → (scale q o : K) = b * l.prod := by
      intro o ho
      have hsum := scale_add (d := q - b) fun s hs => hwhole.of_prefix ho hs
      have hlt := hleast o ho
      have hzero := (scale_eq_zero_iff (hposOf o ho) (q := q - b) (by omega)).2 (by omega)
      rw [sub_add_cancel, hzero, Int.cast_zero, zero_add, ho.prod_eq] at hsum
      exact hsum
    constructor
    · intro o o' ho ho'
      have h := (hscale o ho).trans (hscale o' ho').symm
      exact_mod_cast h
    · intro o o' ho ho'
      apply (restored_eq_iff (hposOf o' ho')).2
      have hexact : (scale (scale q o) (o'.map (·⁻¹)) : K) =
          scale q o * (o'.map (·⁻¹)).prod := by
        apply (scale_eq_iff (inv_pos_of_mem (hposOf o' ho'))).2
        intro s hs
        obtain ⟨t, ht⟩ := hs
        obtain ⟨u, v, huv, rfl, rfl⟩ := List.append_eq_map_iff.1 ht
        subst huv
        have hu : u.prod ≠ 0 :=
          (List.prod_pos fun r hr => hposOf _ ho' r (List.mem_append_left _ hr)).ne'
        have hv := hwhole.of_append (List.perm_append_comm.trans ho')
        rw [hscale o ho, ← ho'.prod_eq, List.prod_append, prod_inv]
        rwa [show (b : K) * (u.prod * v.prod) * u.prod⁻¹ = b * v.prod by field_simp]
      have hne : o'.prod ≠ 0 := by
        rw [ho'.prod_eq]
        exact hprod.ne'
      rw [hexact, prod_inv, mul_assoc, inv_mul_cancel₀ hne, mul_one]

end Orders

end CodeGo.Lib.Truncation
