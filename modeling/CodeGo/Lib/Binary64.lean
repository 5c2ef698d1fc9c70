import Mathlib.Algebra.Order.Field.Power
import Mathlib.Data.Int.Log
import Mathlib.Data.Rat.Floor
import Mathlib.Tactic.Linarith
import Mathlib.Tactic.Positivity
import Mathlib.Tactic.FieldSimp
import Mathlib.Tactic.Ring

/-!
# 64-bit floating point

The values of `float64` as rational numbers, rounded to the nearest with ties to even, and the
conversions to and from integers as a 64-bit processor makes them.
-/

namespace CodeGo.Lib.Binary64

inductive Value where
  | finite (x : ℚ)
  | posInf
  | negInf
  | nan
  deriving DecidableEq, Repr

def roundHalfEven (q : ℚ) : ℤ :=
  if q - ⌊q⌋ < 1 / 2 then ⌊q⌋
  else if 1 / 2 < q - ⌊q⌋ then ⌊q⌋ + 1
  else if ⌊q⌋ % 2 = 0 then ⌊q⌋ else ⌊q⌋ + 1

theorem roundHalfEven_nonneg {q : ℚ} (h : 0 ≤ q) : 0 ≤ roundHalfEven q := by
  have hfloor : 0 ≤ ⌊q⌋ := Int.floor_nonneg.2 h
  unfold roundHalfEven
  split_ifs <;> omega

/-- Rounding at most doubles a number. -/
theorem roundHalfEven_le {q : ℚ} (h : 0 ≤ q) : (roundHalfEven q : ℚ) ≤ 2 * q := by
  have hle := Int.floor_le q
  have hfloor : (0 : ℚ) ≤ ⌊q⌋ := by exact_mod_cast Int.floor_nonneg.2 h
  unfold roundHalfEven
  split_ifs with hlow hhigh heven
  · linarith
  · push_cast
    linarith
  · linarith
  · push_cast
    linarith

/-- What is rounded to a positive number is at most twice that. -/
theorem le_two_mul_roundHalfEven {q : ℚ} (h : 0 < roundHalfEven q) :
    q ≤ 2 * (roundHalfEven q : ℚ) := by
  have hlt := Int.lt_floor_add_one q
  have hone : (1 : ℚ) ≤ roundHalfEven q := by exact_mod_cast h
  have hnear : q - 1 / 2 ≤ roundHalfEven q := by
    unfold roundHalfEven
    split_ifs with hlow hhigh heven
    · linarith
    · push_cast
      linarith
    · linarith
    · push_cast
      linarith
  linarith

/-- The exponent of the last bit of a number of 53 bits. -/
def exponent (q : ℚ) : ℤ := max (Int.log 2 q - 52) (-1074)

def nearest (q : ℚ) : ℚ := roundHalfEven (q / 2 ^ exponent q) * 2 ^ exponent q

theorem ulp_pos (q : ℚ) : (0 : ℚ) < 2 ^ exponent q := by positivity

theorem nearest_nonneg {q : ℚ} (h : 0 ≤ q) : 0 ≤ nearest q := by
  have hscaled : 0 ≤ q / 2 ^ exponent q := div_nonneg h (ulp_pos q).le
  have hround : (0 : ℚ) ≤ roundHalfEven (q / 2 ^ exponent q) := by
    exact_mod_cast roundHalfEven_nonneg hscaled
  exact mul_nonneg hround (ulp_pos q).le

theorem nearest_le {q : ℚ} (h : 0 ≤ q) : nearest q ≤ 2 * q := by
  have hulp := ulp_pos q
  have hscaled : 0 ≤ q / 2 ^ exponent q := div_nonneg h hulp.le
  calc nearest q ≤ 2 * (q / 2 ^ exponent q) * 2 ^ exponent q :=
        mul_le_mul_of_nonneg_right (roundHalfEven_le hscaled) hulp.le
    _ = 2 * q := by field_simp

theorem le_two_mul_nearest {q : ℚ} (h : 0 < nearest q) : q ≤ 2 * nearest q := by
  have hulp := ulp_pos q
  have hround : 0 < roundHalfEven (q / 2 ^ exponent q) := by
    have hcast : (0 : ℚ) < roundHalfEven (q / 2 ^ exponent q) := by
      by_contra hneg
      have := mul_nonpos_of_nonpos_of_nonneg (not_lt.1 hneg) hulp.le
      unfold nearest at h
      linarith
    exact_mod_cast hcast
  calc q = q / 2 ^ exponent q * 2 ^ exponent q := by field_simp
    _ ≤ 2 * (roundHalfEven (q / 2 ^ exponent q) : ℚ) * 2 ^ exponent q :=
        mul_le_mul_of_nonneg_right (le_two_mul_roundHalfEven hround) hulp.le
    _ = 2 * nearest q := by
        unfold nearest
        ring

theorem lt_pow_exponent (q : ℚ) : q < 2 ^ (exponent q + 53) := by
  have hlog : q < (2 : ℚ) ^ (Int.log 2 q + 1) := by
    exact_mod_cast Int.lt_zpow_succ_log_self (by norm_num : 1 < 2) q
  have hle : Int.log 2 q + 1 ≤ exponent q + 53 := by
    have := le_max_left (Int.log 2 q - 52) (-1074)
    unfold exponent
    omega
  exact hlog.trans_le (zpow_le_zpow_right₀ (by norm_num) hle)

theorem roundHalfEven_intCast_le {q : ℚ} {n : ℤ} (h : q < n) : roundHalfEven q ≤ n := by
  have hfloor : ⌊q⌋ < n := Int.floor_lt.2 h
  unfold roundHalfEven
  split_ifs <;> omega

/-- An integer is rounded to itself. -/
theorem roundHalfEven_intCast (n : ℤ) : roundHalfEven n = n := by
  unfold roundHalfEven
  rw [Int.floor_intCast]
  norm_num

/-- A multiple of the last bit is not rounded any more. -/
theorem nearest_of_multiple {x : ℚ} {m : ℤ} (h : x = m * 2 ^ exponent x) : nearest x = x := by
  have hulp := ulp_pos x
  have hscaled : x / 2 ^ exponent x = m := by
    rw [div_eq_iff hulp.ne']
    exact h
  unfold nearest
  rw [hscaled, roundHalfEven_intCast]
  exact h.symm

/-- Rounding twice is rounding once. -/
theorem nearest_nearest {q : ℚ} (h : 0 ≤ q) : nearest (nearest q) = nearest q := by
  have hulp := ulp_pos q
  obtain hzero | hpos := (nearest_nonneg h).eq_or_lt
  · rw [← hzero]
    exact nearest_of_multiple (m := 0) (by simp)
  have hm : roundHalfEven (q / 2 ^ exponent q) ≤ 2 ^ 53 := by
    apply roundHalfEven_intCast_le
    rw [div_lt_iff₀ hulp]
    calc q < 2 ^ (exponent q + 53) := lt_pow_exponent q
      _ = ((2 ^ 53 : ℤ) : ℚ) * 2 ^ exponent q := by
          rw [zpow_add₀ (by norm_num)]
          push_cast
          ring
  have hx : nearest q = roundHalfEven (q / 2 ^ exponent q) * 2 ^ exponent q := rfl
  have hlow : -1074 ≤ exponent q := le_max_right _ _
  rcases hm.eq_or_lt with htop | hlt
  · -- the number is the next power of two, of which the last bit is one place higher
    have hpow : nearest q = 2 ^ (exponent q + 53) := by
      rw [hx, htop, zpow_add₀ (by norm_num)]
      push_cast
      ring
    have hlog : Int.log 2 (nearest q) = exponent q + 53 := by
      rw [hpow]
      have hlogpow := Int.log_zpow (R := ℚ) (by norm_num : 1 < 2) (exponent q + 53)
      rwa [Nat.cast_ofNat] at hlogpow
    have hexp : exponent (nearest q) = exponent q + 1 := by
      unfold exponent at hlow hlog ⊢
      omega
    apply nearest_of_multiple (m := 2 ^ 52)
    rw [hexp, hpow, show exponent q + 53 = 52 + (exponent q + 1) by ring, zpow_add₀ (by norm_num)]
    norm_num
  · have hbelow : nearest q < 2 ^ (exponent q + 53) := by
      have hcast : (roundHalfEven (q / 2 ^ exponent q) : ℚ) < 2 ^ 53 := by exact_mod_cast hlt
      calc nearest q < 2 ^ 53 * 2 ^ exponent q := mul_lt_mul_of_pos_right hcast hulp
        _ = 2 ^ (exponent q + 53) := by
            rw [zpow_add₀ (by norm_num)]
            norm_num
            ring
    have hlog : Int.log 2 (nearest q) < exponent q + 53 := by
      have hle := Int.zpow_log_le_self (by norm_num : 1 < 2) hpos
      have hpow : (2 : ℚ) ^ Int.log 2 (nearest q) < 2 ^ (exponent q + 53) := by
        refine lt_of_le_of_lt ?_ hbelow
        exact_mod_cast hle
      exact (zpow_lt_zpow_iff_right₀ (by norm_num)).1 hpow
    have hexp : exponent (nearest q) ≤ exponent q := by
      have hmax : exponent (nearest q) = max (Int.log 2 (nearest q) - 52) (-1074) := rfl
      omega
    obtain ⟨k, hk⟩ := Int.eq_ofNat_of_zero_le (sub_nonneg.2 hexp)
    apply nearest_of_multiple (m := roundHalfEven (q / 2 ^ exponent q) * 2 ^ k)
    have hsplit : exponent q = k + exponent (nearest q) := by omega
    calc nearest q = roundHalfEven (q / 2 ^ exponent q) * 2 ^ exponent q := hx
      _ = roundHalfEven (q / 2 ^ exponent q) * 2 ^ ((k : ℤ) + exponent (nearest q)) := by
          rw [← hsplit]
      _ = _ := by
          rw [zpow_add₀ (by norm_num), zpow_natCast]
          push_cast
          ring

/-- Numbers from here on are infinite. -/
def limit : ℚ := 2 ^ 1024

theorem limit_pos : 0 < limit := by
  unfold limit
  positivity

/-- The value nearest to a rational number. -/
def ofRat (q : ℚ) : Value :=
  let x := if 0 ≤ q then nearest q else -nearest (-q)
  if limit ≤ x then .posInf else if x ≤ -limit then .negInf else .finite x

theorem ofRat_of_nonneg {q : ℚ} (h : 0 ≤ q) :
    ofRat q = if limit ≤ nearest q then .posInf else .finite (nearest q) := by
  have hpos := nearest_nonneg h
  have hlimit := limit_pos
  have hneg : ¬ nearest q ≤ -limit := by
    intro hle
    linarith
  simp only [ofRat, if_pos h, if_neg hneg]

/-- Integers of 53 bits are values. -/
theorem ofRat_intCast {n : ℤ} (h0 : 0 ≤ n) (h : n < 2 ^ 53) : ofRat n = .finite n := by
  have hexp : exponent (n : ℚ) ≤ 0 := by
    apply max_le _ (by norm_num)
    rcases h0.eq_or_lt with rfl | hpos
    · simp
    · have hpos' : (0 : ℚ) < n := by exact_mod_cast hpos
      have hlt : (n : ℚ) < (2 : ℕ) ^ (53 : ℤ) := by
        have hn : (n : ℚ) < (2 : ℚ) ^ 53 := by exact_mod_cast h
        exact_mod_cast hn
      have := (Int.lt_zpow_iff_log_lt (by norm_num) hpos').1 hlt
      omega
  have hnearest : nearest (n : ℚ) = n := by
    apply nearest_of_multiple (m := n * 2 ^ (-exponent (n : ℚ)).toNat)
    push_cast
    rw [mul_assoc, ← zpow_natCast, ← zpow_add₀ (by norm_num),
      show ((-exponent (n : ℚ)).toNat : ℤ) + exponent (n : ℚ) = 0 by omega, zpow_zero, mul_one]
  have hlimit : ¬ limit ≤ (n : ℚ) := by
    have hn : (n : ℚ) < (2 : ℚ) ^ 53 := by exact_mod_cast h
    have hbig : (2 : ℚ) ^ 53 ≤ limit := by
      unfold limit
      exact pow_le_pow_right₀ (by norm_num) (by norm_num)
    exact not_le.2 (hn.trans_le hbig)
  have h0' : (0 : ℚ) ≤ n := by exact_mod_cast h0
  rw [ofRat_of_nonneg h0', hnearest, if_neg hlimit]

/-- A value is the nearest one to itself. -/
theorem ofRat_ofRat {q x : ℚ} (h : ofRat q = .finite x) : ofRat x = .finite x := by
  have hsame : ∀ y, (if limit ≤ y then Value.posInf else if y ≤ -limit then .negInf else .finite y) =
      .finite x → y = x ∧ ¬ limit ≤ x ∧ ¬ x ≤ -limit := by
    intro y hy
    split_ifs at hy with h₁ h₂
    obtain rfl := Value.finite.inj hy
    exact ⟨rfl, h₁, h₂⟩
  obtain ⟨hx, h₁, h₂⟩ := hsame _ h
  have hround : (if 0 ≤ x then nearest x else -nearest (-x)) = x := by
    split_ifs at hx with hq
    · have hnonneg : 0 ≤ x := hx ▸ nearest_nonneg hq
      rw [if_pos hnonneg, ← hx]
      exact nearest_nearest hq
    · have hopp : 0 ≤ -q := by linarith
      have hneg : -x = nearest (-q) := by linarith
      split_ifs with hzero
      · have : x = 0 := by linarith [nearest_nonneg hopp]
        rw [this]
        decide +kernel
      · rw [hneg, nearest_nearest hopp, ← hneg, neg_neg]
  unfold ofRat
  dsimp only
  rw [hround, if_neg h₁, if_neg h₂]

/-- Products; signs of zero are left out. -/
def mul : Value → Value → Value
  | .finite x, .finite y => ofRat (x * y)
  | .finite x, .posInf => if x = 0 then .nan else if 0 < x then .posInf else .negInf
  | .finite x, .negInf => if x = 0 then .nan else if 0 < x then .negInf else .posInf
  | .posInf, .finite x => if x = 0 then .nan else if 0 < x then .posInf else .negInf
  | .negInf, .finite x => if x = 0 then .nan else if 0 < x then .negInf else .posInf
  | .posInf, .posInf | .negInf, .negInf => .posInf
  | .posInf, .negInf | .negInf, .posInf => .negInf
  | .nan, _ | _, .nan => .nan

def neg : Value → Value
  | .finite x => .finite (-x)
  | .posInf => .negInf
  | .negInf => .posInf
  | .nan => .nan

def add : Value → Value → Value
  | .finite x, .finite y => ofRat (x + y)
  | .posInf, .negInf | .negInf, .posInf => .nan
  | .nan, _ | _, .nan => .nan
  | .posInf, _ | _, .posInf => .posInf
  | .negInf, _ | _, .negInf => .negInf

def sub (x y : Value) : Value := add x (neg y)

/-- Quotients; a zero below has the sign of a difference of equal values. -/
def div : Value → Value → Value
  | .finite x, .finite y =>
    if y ≠ 0 then ofRat (x / y) else if x = 0 then .nan else if 0 < x then .posInf else .negInf
  | .finite _, .posInf | .finite _, .negInf => .finite 0
  | .posInf, .finite y => if 0 ≤ y then .posInf else .negInf
  | .negInf, .finite y => if 0 ≤ y then .negInf else .posInf
  | _, _ => .nan

def isNegative : Value → Bool
  | .finite x => x < 0
  | .negInf => true
  | _ => false

def truncate (x : ℚ) : ℤ := if 0 ≤ x then ⌊x⌋ else ⌈x⌉

/-- Conversion to a signed 64-bit integer; values that do not fit give the least one. -/
def toInt : Value → ℤ
  | .finite x => if -2 ^ 63 ≤ truncate x ∧ truncate x < 2 ^ 63 then truncate x else -2 ^ 63
  | _ => -2 ^ 63

/-- The values of which the integer part is a natural number of 63 bits. -/
def Fits : Value → Prop
  | .finite x => -1 < x ∧ x < 2 ^ 63
  | _ => False

theorem toInt_nonneg_iff (v : Value) : 0 ≤ toInt v ↔ Fits v := by
  cases v with
  | finite x =>
    simp only [toInt, Fits, truncate]
    constructor
    · intro h
      split_ifs at h with hx hrange hrange
      · have hlt : ⌊x⌋ < (2 : ℤ) ^ 63 := hrange.2
        have hx63 : x < ((2 : ℤ) ^ 63 : ℤ) := Int.floor_lt.1 hlt
        push_cast at hx63
        exact ⟨by linarith, hx63⟩
      · exact absurd h (by norm_num)
      · have hceil : (-1 : ℤ) < ⌈x⌉ := by omega
        have hlow := Int.lt_ceil.1 hceil
        push_cast at hlow
        exact ⟨hlow, by linarith⟩
      · exact absurd h (by norm_num)
    · rintro ⟨hlow, hhigh⟩
      split_ifs with hx hrange hrange
      · exact Int.floor_nonneg.2 hx
      · exfalso
        apply hrange
        have hfloor := Int.floor_nonneg.2 hx
        have hlt : ⌊x⌋ < (2 : ℤ) ^ 63 := Int.floor_lt.2 (by push_cast; exact hhigh)
        exact ⟨by omega, hlt⟩
      · have hceil : (-1 : ℤ) < ⌈x⌉ := Int.lt_ceil.2 (by push_cast; exact hlow)
        omega
      · exfalso
        apply hrange
        have hceil : (-1 : ℤ) < ⌈x⌉ := Int.lt_ceil.2 (by push_cast; exact hlow)
        have hneg : ⌈x⌉ ≤ 0 := Int.ceil_le.2 (by push_cast; linarith)
        exact ⟨by omega, by omega⟩
  | posInf => simp [toInt, Fits]
  | negInf => simp [toInt, Fits]
  | nan => simp [toInt, Fits]

end CodeGo.Lib.Binary64
