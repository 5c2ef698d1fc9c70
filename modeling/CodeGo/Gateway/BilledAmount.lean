import CodeGo.Gateway.ModelPrice

/-!
# Amounts are neither negative nor wrapped

With prices that stay below `2 ^ 40`, every number that an accepted request is charged by fits, but for
the number of images of an edit that comes as a form, which nobody checks.
-/

namespace CodeGo.Gateway.Pricing

open CodeGo.Lib CodeGo.Lib.Binary64
open Validation

def IsFinite (v : Value) : Prop := ∃ x, v = .finite x

/-- The product of numbers that are not negative, where it is finite, is at most twice the exact
one. -/
theorem mul_bound {x y : ℚ} (hx : 0 ≤ x) (hy : 0 ≤ y) {z : ℚ}
    (h : mul (.finite x) (.finite y) = .finite z) : 0 ≤ z ∧ z ≤ 2 * (x * y) := by
  have hxy := mul_nonneg hx hy
  rw [mul, ofRat_of_nonneg hxy] at h
  split at h
  · cases h
  · obtain rfl := Value.finite.inj h
    exact ⟨nearest_nonneg hxy, nearest_le hxy⟩

theorem ofRat_bound {q : ℚ} (hq : 0 ≤ q) {z : ℚ} (h : ofRat q = .finite z) :
    0 ≤ z ∧ z ≤ 2 * q := by
  rw [ofRat_of_nonneg hq] at h
  split at h
  · cases h
  · obtain rfl := Value.finite.inj h
    exact ⟨nearest_nonneg hq, nearest_le hq⟩

theorem pow_lt_limit : (2 : ℚ) ^ 62 < limit := by
  unfold limit
  exact pow_lt_pow_right₀ (by norm_num) (by norm_num)

/-- A small product is finite. -/
theorem mul_finite {x y : ℚ} (hx : 0 ≤ x) (hy : 0 ≤ y) (h : x * y ≤ 2 ^ 61) :
    ∃ z, mul (.finite x) (.finite y) = .finite z := by
  have hxy := mul_nonneg hx hy
  have hle := nearest_le hxy
  have hlimit := pow_lt_limit
  refine ⟨nearest (x * y), ?_⟩
  rw [mul, ofRat_of_nonneg hxy, if_neg]
  intro hbig
  have : (2 : ℚ) * 2 ^ 61 = 2 ^ 62 := by norm_num
  linarith

theorem finite_of_mul {v w : Value} (h : IsFinite (mul v w)) : IsFinite v := by
  obtain ⟨z, hz⟩ := h
  cases v with
  | finite x => exact ⟨x, rfl⟩
  | posInf => cases w <;> simp only [mul] at hz <;> (try split_ifs at hz) <;> cases hz
  | negInf => cases w <;> simp only [mul] at hz <;> (try split_ifs at hz) <;> cases hz
  | nan => cases w <;> cases hz

theorem roundHalfAway_nonneg {x : ℚ} (h : 0 ≤ x) : 0 ≤ roundHalfAway x := by
  rw [roundHalfAway, if_pos h]
  exact Int.floor_nonneg.2 (by linarith)

theorem roundHalfAway_le {x : ℚ} (h : 0 ≤ x) {n : ℤ} (hlt : x < n) : roundHalfAway x ≤ n := by
  rw [roundHalfAway, if_pos h]
  have hfloor : ⌊x + 1 / 2⌋ < n + 1 := Int.floor_lt.2 (by push_cast; linarith)
  omega

/-- Prices are not negative, and stay below `2 ^ 40` for a call, for a token, and for the cost of an
expression. -/
structure Priced (s : Settings) (toolCallSurchargeQuota : ℚ) : Prop where
  group : 0 ≤ s.groupRatio
  unit : 0 ≤ s.quotaPerUnit
  price : ∀ p, s.billing = .price p → 0 ≤ p ∧ p * s.quotaPerUnit * s.groupRatio < 2 ^ 40
  ratio : ∀ m configured, s.billing = .ratio m configured → 0 ≤ m ∧ m * s.groupRatio < 2 ^ 40
  cost : ∀ f, s.billing = .tieredExpr f → ∀ prompt completion c, f prompt completion = some c →
    0 ≤ c ∧ c / 1000000 * s.quotaPerUnit * s.groupRatio < 2 ^ 40
  surcharge : 0 ≤ toolCallSurchargeQuota ∧ toolCallSurchargeQuota < 2 ^ 40

/-- A value of `float64`. -/
def IsFloat (x : ℚ) : Prop := ∃ q, ofRat q = .finite x

/-- What the decimal package promises: the decimal is the shortest one that is rounded to the value. -/
structure ShortestDecimal (newFromFloat : ℚ → ℚ) : Prop where
  rounds : ∀ q x, ofRat q = .finite x → ofRat (newFromFloat x) = .finite x
  integer : ∀ n : ℕ, n ≤ 2 ^ 53 → newFromFloat n = n

theorem ShortestDecimal.bounds {newFromFloat : ℚ → ℚ} (h : ShortestDecimal newFromFloat) {x : ℚ}
    (hx : 0 ≤ x) (hfloat : IsFloat x) : 0 ≤ newFromFloat x ∧ newFromFloat x ≤ 2 * x := by
  rcases hx.eq_or_lt with rfl | hpos
  · have hzero := h.integer 0 (by norm_num)
    simp only [Nat.cast_zero] at hzero
    rw [hzero]
    exact ⟨le_refl _, by norm_num⟩
  · obtain ⟨q, hq⟩ := hfloat
    have hround := h.rounds q x hq
    have hnonneg : 0 ≤ newFromFloat x := by
      by_contra hneg
      have hopp : 0 ≤ nearest (-newFromFloat x) := nearest_nonneg (by linarith)
      simp only [ofRat, if_neg hneg] at hround
      split_ifs at hround
      have := Value.finite.inj hround
      linarith
    rw [ofRat_of_nonneg hnonneg] at hround
    split_ifs at hround
    have hx' := Value.finite.inj hround
    have hle := le_two_mul_nearest (hx'.symm ▸ hpos)
    exact ⟨hnonneg, by linarith⟩

theorem ratio_mem (r : ImageRequest) :
    sizeRatio r ∈ ([1, 2 / 5, 9 / 20, 2] : List ℚ) ∧
      qualityRatio r ∈ ([1, 3 / 2, 2] : List ℚ) := by
  constructor
  · unfold sizeRatio
    split_ifs <;> simp
  · unfold qualityRatio
    split_ifs <;> simp

/-- Larger images cost at most four times the price. -/
theorem imagePriceRatio_bound (r : ImageRequest) :
    ∃ x, (imageMeta r).imagePriceRatio = .finite x ∧ 0 < x ∧ x ≤ 4 := by
  have hall : ∀ a ∈ ([1, 2 / 5, 9 / 20, 2] : List ℚ), ∀ b ∈ ([1, 3 / 2, 2] : List ℚ),
      ∃ x, mul (ofRat a) (ofRat b) = .finite x ∧ 0 < x ∧ x ≤ 4 := by
    intro a ha b hb
    simp only [List.mem_cons, List.not_mem_nil, or_false] at ha hb
    rcases ha with rfl | rfl | rfl | rfl <;> rcases hb with rfl | rfl | rfl
    · exact ⟨1, by decide +kernel⟩
    · exact ⟨3 / 2, by decide +kernel⟩
    · exact ⟨2, by decide +kernel⟩
    · exact ⟨nearest (2 / 5), by decide +kernel⟩
    · exact ⟨nearest (nearest (2 / 5) * (3 / 2)), by decide +kernel⟩
    · exact ⟨nearest (nearest (2 / 5) * 2), by decide +kernel⟩
    · exact ⟨nearest (9 / 20), by decide +kernel⟩
    · exact ⟨nearest (nearest (9 / 20) * (3 / 2)), by decide +kernel⟩
    · exact ⟨nearest (nearest (9 / 20) * 2), by decide +kernel⟩
    · exact ⟨2, by decide +kernel⟩
    · exact ⟨3, by decide +kernel⟩
    · exact ⟨4, by decide +kernel⟩
  obtain ⟨hsize, hquality⟩ := ratio_mem r
  exact hall _ hsize _ hquality

section Held

/-- What `ModelPriceHelper` may be asked for a request: the tokens are counted, or they are not. -/
def metas (r : Request) : List TokenCountMeta :=
  [getTokenCountMeta r, fastTokenCountMetaForPricing r]

/-- The products by which a request is held do not overflow. -/
def Representable (s : Settings) (promptTokens : Int) (m : TokenCountMeta) : Prop :=
  match s.billing with
  | .price p =>
    s.groupRatio = 0 ∨ IsFinite (mul (imagePrice p m) (.finite s.quotaPerUnit))
  | .ratio q configured =>
    (configured ∨ s.acceptUnsetRatioModel) → isFree s (.finite q) ∨
      Fits (tokenProduct s q (preConsumedTokens s promptTokens m.maxTokens))
  | .tieredExpr cost => ∀ c, cost promptTokens m.maxTokens = some c →
    s.groupRatio = 0 ∨ IsFinite (mul (ofRat (c / 1000000)) (.finite s.quotaPerUnit))

theorem meta_ratio {r : Request} {m : TokenCountMeta} (hm : m ∈ metas r) :
    ∃ x, m.imagePriceRatio = .finite x ∧ 0 ≤ x ∧ x ≤ 4 := by
  have hzero : ∃ x, (Value.finite 0) = .finite x ∧ 0 ≤ x ∧ x ≤ 4 := ⟨0, rfl, by norm_num⟩
  have himage : ∀ i, ∃ x, (imageMeta i).imagePriceRatio = .finite x ∧ 0 ≤ x ∧ x ≤ 4 := by
    intro i
    obtain ⟨x, hx, hpos, hle⟩ := imagePriceRatio_bound i
    exact ⟨x, hx, hpos.le, hle⟩
  simp only [metas, List.mem_cons, List.not_mem_nil, or_false] at hm
  cases r with
  | image i =>
    rcases hm with rfl | rfl
    · exact himage i
    · exact himage i
  | _ =>
    rcases hm with rfl | rfl
    · exact hzero
    · exact hzero

/-- The price of a call is at most eight times the one that is set. -/
theorem imagePrice_bound {p x : ℚ} (hp : 0 ≤ p) {m : TokenCountMeta}
    (hm : ∃ x, m.imagePriceRatio = .finite x ∧ 0 ≤ x ∧ x ≤ 4) (h : imagePrice p m = .finite x) :
    0 ≤ x ∧ x ≤ 8 * p := by
  obtain ⟨y, hy, hnonneg, hle⟩ := hm
  unfold imagePrice at h
  split_ifs at h with hzero
  · rw [hy] at h
    have hbound := mul_bound hp hnonneg h
    have hmul : p * y ≤ p * 4 := mul_le_mul_of_nonneg_left hle hp
    exact ⟨hbound.1, by linarith⟩
  · obtain rfl := Value.finite.inj h
    exact ⟨hp, by linarith⟩

/-- A value that is not finite stays so when it is multiplied by a positive number. -/
theorem toInt_of_not_finite {v : Value} (h : ¬ IsFinite v) : toInt v < 0 := by
  cases v with
  | finite x => exact absurd ⟨x, rfl⟩ h
  | posInf => decide
  | negInf => decide
  | nan => decide

theorem not_finite_mul {v : Value} (h : ¬ IsFinite v) (w : Value) : ¬ IsFinite (mul v w) :=
  fun hmul => h (finite_of_mul hmul)

theorem quotaRound_of_not_finite {v : Value} (h : ¬ IsFinite v) : quotaRound v < 0 := by
  cases v with
  | finite x => exact absurd ⟨x, rfl⟩ h
  | posInf => decide
  | negInf => decide
  | nan => decide

theorem quotaRound_nonneg {z : ℚ} (h : 0 ≤ z) (hlt : z < ((2 ^ 44 : ℤ) : ℚ)) :
    0 ≤ quotaRound (.finite z) := by
  have hround := roundHalfAway_nonneg h
  have hle := roundHalfAway_le h hlt
  have hcast : (0 : ℚ) ≤ roundHalfAway z := by exact_mod_cast hround
  have hcastle : (roundHalfAway z : ℚ) ≤ 2 ^ 44 := by exact_mod_cast hle
  have hfits : Fits (.finite (roundHalfAway z : ℚ)) := by
    constructor
    · linarith
    · linarith
  exact (toInt_nonneg_iff _).2 hfits

/-- A product with the ratio of the group, within the bound of the prices. -/
theorem product_bound {x y u g bound : ℚ} (hx : 0 ≤ x) (hu : 0 ≤ u) (hg : 0 ≤ g)
    (hbound : x * u * g ≤ bound) (hsmall : bound ≤ 2 ^ 60)
    (hy : mul (.finite x) (.finite u) = .finite y) :
    ∃ z, mul (.finite y) (.finite g) = .finite z ∧ 0 ≤ z ∧ z ≤ 4 * bound := by
  obtain ⟨hynonneg, hyle⟩ := mul_bound hx hu hy
  have hyg : y * g ≤ 2 * bound := by
    calc y * g ≤ 2 * (x * u) * g := mul_le_mul_of_nonneg_right hyle hg
      _ = 2 * (x * u * g) := by ring
      _ ≤ 2 * bound := by linarith
  obtain ⟨z, hz⟩ := mul_finite hynonneg hg (by linarith)
  obtain ⟨hznonneg, hzle⟩ := mul_bound hynonneg hg hz
  exact ⟨z, hz, hznonneg, by linarith⟩

variable {s : Settings} {surcharge : ℚ} {promptTokens : Int} {r : Request} {m : TokenCountMeta}

/-- What is held of a price for each call. -/
theorem price_held (hs : Priced s surcharge) {p : ℚ} (hprice : s.billing = .price p)
    (hm : m ∈ metas r) :
    (∀ d, modelPriceHelper s promptTokens m = .ok d → 0 ≤ d.quotaToPreConsume) ↔
      Representable s promptTokens m := by
  have hok : modelPriceHelper s promptTokens m = .ok
      { freeModel := isFree s (imagePrice p m)
        modelPrice := imagePrice p m
        groupRatio := s.groupRatio
        usePrice := true
        quotaToPreConsume :=
          if isFree s (imagePrice p m) then 0 else toInt (priceProduct s (imagePrice p m)) } := by
    simp only [modelPriceHelper, hprice]
  have hrep : Representable s promptTokens m ↔
      s.groupRatio = 0 ∨ IsFinite (mul (imagePrice p m) (.finite s.quotaPerUnit)) := by
    simp only [Representable, hprice]
  obtain ⟨hp, hunit⟩ := hs.price p hprice
  rw [hrep]
  constructor
  · intro h
    have hheld := h _ hok
    dsimp only at hheld
    by_contra hbad
    push Not at hbad
    obtain ⟨hgroup, hinf⟩ := hbad
    have hprod : toInt (priceProduct s (imagePrice p m)) < 0 :=
      toInt_of_not_finite (not_finite_mul hinf _)
    have hfree : isFree s (imagePrice p m) = false := by
      have hne : imagePrice p m ≠ .finite 0 := by
        intro hzero
        apply hinf
        rw [hzero]
        obtain ⟨z, hz⟩ := mul_finite (le_refl 0) hs.unit (by norm_num)
        exact ⟨z, hz⟩
      simp [isFree, hgroup, hne]
    rw [hfree] at hheld
    simp only [Bool.false_eq_true, if_false] at hheld
    omega
  · intro h d hd
    obtain rfl := Except.ok.inj (hok.symm.trans hd)
    dsimp only
    split
    · exact le_refl _
    · rename_i hfree
      have hgroup : s.groupRatio ≠ 0 := by
        intro hzero
        simp [isFree, hzero] at hfree
      obtain ⟨y, hy⟩ := h.resolve_left hgroup
      obtain ⟨x, hx⟩ := finite_of_mul ⟨y, hy⟩
      obtain ⟨hxnonneg, hxle⟩ := imagePrice_bound hp (meta_ratio hm) hx
      have hbound : x * s.quotaPerUnit * s.groupRatio ≤ 8 * 2 ^ 40 := by
        have hug := mul_nonneg hs.unit hs.group
        calc x * s.quotaPerUnit * s.groupRatio = x * (s.quotaPerUnit * s.groupRatio) := by ring
          _ ≤ 8 * p * (s.quotaPerUnit * s.groupRatio) := mul_le_mul_of_nonneg_right hxle hug
          _ = 8 * (p * s.quotaPerUnit * s.groupRatio) := by ring
          _ ≤ 8 * 2 ^ 40 := by linarith
      rw [hx] at hy
      obtain ⟨z, hz, hznonneg, hzle⟩ :=
        product_bound hxnonneg hs.unit hs.group hbound (by norm_num) hy
      rw [toInt_nonneg_iff, priceProduct, hx, hy, hz]
      refine ⟨by linarith, ?_⟩
      linarith

/-- What is held of a ratio for the tokens. -/
theorem ratio_held {q : ℚ} {configured : Bool} (hratio : s.billing = .ratio q configured) :
    (∀ d, modelPriceHelper s promptTokens m = .ok d → 0 ≤ d.quotaToPreConsume) ↔
      Representable s promptTokens m := by
  simp only [modelPriceHelper, Representable, hratio]
  by_cases hunset : configured = false ∧ s.acceptUnsetRatioModel = false
  · simp [hunset.1, hunset.2]
  · have hset : configured = true ∨ s.acceptUnsetRatioModel = true := by
      cases configured <;> cases hs : s.acceptUnsetRatioModel <;> simp_all
    have hcond : ¬ ((!configured) = true ∧ (!s.acceptUnsetRatioModel) = true) := by
      rcases hset with h | h <;> simp [h]
    rw [if_neg hcond]
    constructor
    · intro h _
      have hheld := h _ rfl
      dsimp only at hheld
      split at hheld
      · exact .inl ‹_›
      · exact .inr ((toInt_nonneg_iff _).1 hheld)
    · intro h d hd
      obtain rfl := Except.ok.inj hd
      dsimp only
      split
      · exact le_refl _
      · exact (toInt_nonneg_iff _).2 ((h hset).resolve_left ‹_›)

/-- The cost of an expression, where it is converted without overflow. -/
theorem tieredProduct_nonneg (hs : Priced s surcharge) {c : ℚ} (hc : 0 ≤ c)
    (hunit : c / 1000000 * s.quotaPerUnit * s.groupRatio < 2 ^ 40)
    (h : IsFinite (mul (ofRat (c / 1000000)) (.finite s.quotaPerUnit))) :
    0 ≤ quotaRound (tieredProduct s c) := by
  have hdiv : 0 ≤ c / 1000000 := div_nonneg hc (by norm_num)
  obtain ⟨y, hy⟩ := h
  obtain ⟨x, hx⟩ := finite_of_mul ⟨y, hy⟩
  obtain ⟨hxnonneg, hxle⟩ := ofRat_bound hdiv hx
  have hbound : x * s.quotaPerUnit * s.groupRatio ≤ 2 * 2 ^ 40 := by
    have hug := mul_nonneg hs.unit hs.group
    calc x * s.quotaPerUnit * s.groupRatio = x * (s.quotaPerUnit * s.groupRatio) := by ring
      _ ≤ 2 * (c / 1000000) * (s.quotaPerUnit * s.groupRatio) :=
          mul_le_mul_of_nonneg_right hxle hug
      _ = 2 * (c / 1000000 * s.quotaPerUnit * s.groupRatio) := by ring
      _ ≤ 2 * 2 ^ 40 := by linarith
  rw [hx] at hy
  obtain ⟨z, hz, hznonneg, hzle⟩ :=
    product_bound hxnonneg hs.unit hs.group hbound (by norm_num) hy
  have hprod : tieredProduct s c = .finite z := by rw [tieredProduct, hx, hy, hz]
  rw [hprod]
  have hlt : z < ((2 ^ 44 : ℤ) : ℚ) := by
    push_cast
    linarith
  exact quotaRound_nonneg hznonneg hlt

/-- What is held of an expression. -/
theorem tiered_held (hs : Priced s surcharge) {cost : Int → Int → Option ℚ}
    (htiered : s.billing = .tieredExpr cost) :
    (∀ d, modelPriceHelper s promptTokens m = .ok d → 0 ≤ d.quotaToPreConsume) ↔
      Representable s promptTokens m := by
  simp only [modelPriceHelper, Representable, htiered]
  cases hc : cost promptTokens m.maxTokens with
  | none => simp
  | some c =>
    obtain ⟨hcnonneg, hunit⟩ := hs.cost cost htiered _ _ _ hc
    by_cases hgroup : s.groupRatio = 0
    · simp [hgroup]
    · have hquota : 0 ≤ quotaRound (tieredProduct s c) ↔
          IsFinite (mul (ofRat (c / 1000000)) (.finite s.quotaPerUnit)) := by
        constructor
        · intro hheld
          by_contra hinf
          have hneg : quotaRound (tieredProduct s c) < 0 :=
            quotaRound_of_not_finite (not_finite_mul hinf _)
          omega
        · exact tieredProduct_nonneg hs hcnonneg hunit
      simp [hgroup, hquota]

/-- What is held of a request is not negative exactly where the products do not overflow. -/
theorem held_iff (hs : Priced s surcharge) (hm : m ∈ metas r) :
    (∀ d, modelPriceHelper s promptTokens m = .ok d → 0 ≤ d.quotaToPreConsume) ↔
      Representable s promptTokens m := by
  cases hbilling : s.billing with
  | price p => exact price_held hs hbilling hm
  | ratio q configured => exact ratio_held hbilling
  | tieredExpr cost => exact tiered_held hs hbilling

end Held

section Charged

variable {newFromFloat : ℚ → ℚ} {s : Settings} {surcharge : ℚ}

/-- The quota of an image request that is charged per call. -/
def imageQuota (newFromFloat : ℚ → ℚ) (s : Settings) (surcharge : ℚ) (i : ImageRequest)
    (p : PriceData) (totalTokens : Int) : Option Int :=
  perCallQuota newFromFloat s (addImageCount i p) surcharge totalTokens

/-- What `ModelPriceHelper` gives for a price for each call. -/
def callPrice (s : Settings) (p : ℚ) (m : TokenCountMeta) : PriceData :=
  { freeModel := isFree s (imagePrice p m)
    modelPrice := imagePrice p m
    groupRatio := s.groupRatio
    usePrice := true
    quotaToPreConsume :=
      if isFree s (imagePrice p m) then 0 else toInt (priceProduct s (imagePrice p m)) }

theorem modelPriceHelper_price {p : ℚ} (h : s.billing = .price p) (promptTokens : Int)
    (m : TokenCountMeta) : modelPriceHelper s promptTokens m = .ok (callPrice s p m) := by
  simp only [modelPriceHelper, h, callPrice]

/-- Only a price for each call is used as one. -/
theorem usePrice_of_ok {promptTokens : Int} {m : TokenCountMeta} {d : PriceData}
    (h : modelPriceHelper s promptTokens m = .ok d) (huse : d.usePrice = true) :
    ∃ p, s.billing = .price p ∧ d = callPrice s p m := by
  cases hbilling : s.billing with
  | price p =>
    rw [modelPriceHelper_price hbilling] at h
    exact ⟨p, rfl, (Except.ok.inj h).symm⟩
  | ratio q configured =>
    simp only [modelPriceHelper, hbilling] at h
    split at h
    · cases h
    · rw [← Except.ok.inj h] at huse
      cases huse
  | tieredExpr cost =>
    simp only [modelPriceHelper, hbilling] at h
    split at h
    · cases h
    · rw [← Except.ok.inj h] at huse
      cases huse

theorem ofRat_count {n : ℕ} (h : n ≤ 16) : ofRat (n : ℚ) = .finite n := by
  have hall : ∀ k ∈ List.range 17, ofRat (k : ℚ) = .finite k := by decide +kernel
  exact hall n (List.mem_range.2 (by omega))

theorem imagePrice_isFloat {p x : ℚ} (hp : IsFloat p) {m : TokenCountMeta}
    (h : imagePrice p m = .finite x) : IsFloat x := by
  unfold imagePrice at h
  split_ifs at h
  · obtain ⟨y, hy⟩ : ∃ y, m.imagePriceRatio = .finite y := by
      cases hm : m.imagePriceRatio with
      | finite y => exact ⟨y, rfl⟩
      | posInf =>
        rw [hm] at h
        simp only [mul] at h
        split_ifs at h
      | negInf =>
        rw [hm] at h
        simp only [mul] at h
        split_ifs at h
      | nan =>
        rw [hm] at h
        cases h
    rw [hy] at h
    exact ⟨_, h⟩
  · exact Value.finite.inj h ▸ hp

/-- The price of one call is below `2 ^ 47`. -/
theorem pricePerCall_bound (hs : Priced s surcharge) (hd : ShortestDecimal newFromFloat)
    (hunit : IsFloat s.quotaPerUnit) (hgroup : IsFloat s.groupRatio) {p x : ℚ}
    (hprice : s.billing = .price p) (hp : IsFloat p) {m : TokenCountMeta}
    (hm : ∃ x, m.imagePriceRatio = .finite x ∧ 0 ≤ x ∧ x ≤ 4) (hx : imagePrice p m = .finite x) :
    ∃ price, pricePerCall newFromFloat s (callPrice s p m) surcharge = some price ∧ 0 ≤ price ∧
      price ≤ 2 ^ 47 := by
  obtain ⟨hnonneg, hunits⟩ := hs.price p hprice
  obtain ⟨hxnonneg, hxle⟩ := imagePrice_bound hnonneg hm hx
  obtain ⟨hX, hXle⟩ := hd.bounds hxnonneg (imagePrice_isFloat hp hx)
  obtain ⟨hU, hUle⟩ := hd.bounds hs.unit hunit
  obtain ⟨hG, hGle⟩ := hd.bounds hs.group hgroup
  obtain ⟨hsur, hsurle⟩ := hs.surcharge
  have hcall : pricePerCall newFromFloat s (callPrice s p m) surcharge = some
      (newFromFloat x * newFromFloat s.quotaPerUnit * newFromFloat s.groupRatio + surcharge) := by
    simp only [pricePerCall, callPrice, hx, decimalOf, Option.map_some]
  refine ⟨_, hcall, ?_, ?_⟩
  · exact add_nonneg (mul_nonneg (mul_nonneg hX hU) hG) hsur
  · have hxu : newFromFloat x * newFromFloat s.quotaPerUnit ≤ 16 * p * (2 * s.quotaPerUnit) :=
      mul_le_mul (by linarith) hUle hU (by linarith)
    have hpu : 0 ≤ 16 * p * (2 * s.quotaPerUnit) :=
      mul_nonneg (by linarith) (by linarith [hs.unit])
    have hxug : newFromFloat x * newFromFloat s.quotaPerUnit * newFromFloat s.groupRatio ≤
        16 * p * (2 * s.quotaPerUnit) * (2 * s.groupRatio) := mul_le_mul hxu hGle hG hpu
    linarith

theorem saturating_intPart {k : Int} (h : 0 ≤ k) (hlt : k < 2 ^ 63) :
    saturatingInt64ToInt (intPart k) = k := by
  have hwrap : intPart k = k := Wrap.wrap64_of_nonneg h hlt
  rw [hwrap, saturatingInt64ToInt]
  split <;> omega

/-- With at most sixteen images the charge is the exact one. -/
theorem imageQuota_exact (hd : ShortestDecimal newFromFloat) {i : ImageRequest} {v : UInt64}
    (hn : i.n = some v) (hpos : 1 ≤ v.toNat) (hle : v.toNat ≤ 16) {p price : ℚ}
    {m : TokenCountMeta}
    (hprice : pricePerCall newFromFloat s (callPrice s p m) surcharge = some price)
    (hnonneg : 0 ≤ price) (hbound : price ≤ 2 ^ 47) {totalTokens : Int} (ht : 0 < totalTokens) :
    imageQuota newFromFloat s surcharge i (callPrice s p m) totalTokens =
      some (roundHalfAway (price * v.toNat)) := by
  have hfactor : (addImageCount i (callPrice s p m)) =
      { callPrice s p m with otherRatios := [("n", .finite v.toNat)] } := by
    have hpos' : ¬ ((v.toNat : ℚ) ≤ 0) := by
      have : (1 : ℚ) ≤ v.toNat := by exact_mod_cast hpos
      linarith
    simp only [addImageCount, callPrice, hn, Option.getD_some, ofRat_count hle, List.any_nil,
      Bool.not_false, and_self, if_true, PriceData.addOtherRatio, hpos', if_false, List.filter_nil,
      List.nil_append]
  have hsame : pricePerCall newFromFloat s
      { callPrice s p m with otherRatios := [("n", .finite (v.toNat : ℚ))] } surcharge =
      some price := hprice
  have hcount : newFromFloat (v.toNat : ℚ) = v.toNat := hd.integer _ (by omega)
  have hzero : newFromFloat 0 = 0 := by
    have := hd.integer 0 (by norm_num)
    simpa using this
  have htotal : price * v.toNat ≤ 2 ^ 51 := by
    have hv : (v.toNat : ℚ) ≤ 16 := by exact_mod_cast hle
    calc price * v.toNat ≤ 2 ^ 47 * 16 :=
          mul_le_mul hbound hv (by positivity) (by positivity)
      _ = 2 ^ 51 := by norm_num
  have htotalNonneg : 0 ≤ price * v.toNat := mul_nonneg hnonneg (by positivity)
  have hround := roundHalfAway_nonneg htotalNonneg
  have hroundLe : roundHalfAway (price * v.toNat) ≤ 2 ^ 52 := by
    apply roundHalfAway_le htotalNonneg
    push_cast
    have : (2 : ℚ) ^ 51 < 2 ^ 52 := by norm_num
    linarith
  have hquota := saturating_intPart hround (by omega)
  have hratio : (callPrice s p m).modelRatio = 0 := rfl
  unfold imageQuota perCallQuota
  rw [hfactor, hsame]
  simp [decimalOf, hcount, hquota, ht.ne', hratio, hzero]

end Charged

section Accepted

/-- What the charges of an accepted request must meet. -/
structure Billed (newFromFloat : ℚ → ℚ) (s : Settings) (surcharge : ℚ) (promptTokens : Int)
    (r : Request) : Prop where
  held : ∀ m ∈ metas r, ∀ d, modelPriceHelper s promptTokens m = .ok d → 0 ≤ d.quotaToPreConsume
  images : ∀ i, r = .image i →
    ∃ v, i.n = some v ∧ 1 ≤ v.toNat ∧ v.toNat ≤ maxImageRequestCount
  charged : ∀ i, r = .image i → ∀ m ∈ metas r, ∀ d, modelPriceHelper s promptTokens m = .ok d →
    d.usePrice = true → ∀ totalTokens, 0 < totalTokens → ∃ price,
      pricePerCall newFromFloat s d surcharge = some price ∧
      imageQuota newFromFloat s surcharge i d totalTokens =
        some (roundHalfAway (price * (i.n.getD 1).toNat))

/-- The number of images of a form is in range, and no product of settings overflows. -/
structure Sound (c : Context) (format : RelayFormat) (s : Settings) (promptTokens : Int)
    (r : Request) : Prop where
  form : format = .openAIImage → c.relayMode = .imagesEdits →
    contains c.contentType "multipart/form-data" = true → ∀ form, c.multipartForm = .ok form →
      0 ≤ formCount form ∧ formCount form ≤ maxImageRequestCount
  products : ∀ m ∈ metas r, Representable s promptTokens m
  image : ∀ i, r = .image i → ∀ p, s.billing = .price p → IsFinite (imagePrice p (imageMeta i))

variable {c : Context} {format : RelayFormat} {r : Request}

theorem atoi_range {t : String} {n : Int} (h : atoi t = some n) : -2 ^ 63 ≤ n ∧ n < 2 ^ 63 := by
  unfold atoi at h
  split at h
  · cases h
  · obtain ⟨hrange, hvalue⟩ := Option.ite_some_none_eq_some.1 h
    exact hvalue ▸ hrange

theorem formCount_range (form : List (String × String)) :
    -2 ^ 63 ≤ formCount form ∧ formCount form < 2 ^ 63 := by
  unfold formCount string2Int
  cases h : atoi (formGet form "n") with
  | none => decide
  | some n => exact atoi_range h

/-- A negative number of images becomes a very large one. -/
theorem imageCount_ofInt {k : Int} (h : -2 ^ 63 ≤ k ∧ k < 2 ^ 63) :
    (∃ v, imageCount (some (UInt64.ofInt k)) = some v ∧ 1 ≤ v.toNat ∧
      v.toNat ≤ maxImageRequestCount) ↔ 0 ≤ k ∧ k ≤ maxImageRequestCount := by
  have hnat : (UInt64.ofInt k).toNat = (k % 2 ^ 64).toNat := by
    have hlt : k % 2 ^ 64 < 2 ^ 64 := Int.emod_lt_of_pos k (by norm_num)
    simpa [UInt64.ofInt] using hlt
  have hmax : maxImageRequestCount = 16 := rfl
  rw [hmax]
  by_cases hzero : UInt64.ofInt k = 0
  · have hk : (k % 2 ^ 64).toNat = 0 := by
      rw [← hnat, hzero]
      rfl
    have : k = 0 := by omega
    subst this
    simp only [imageCount, hzero, if_true]
    constructor
    · intro _
      omega
    · intro _
      exact ⟨1, rfl, by decide⟩
  · simp only [imageCount, hzero, if_false, Option.some.injEq, exists_eq_left', hnat]
    have hne : (k % 2 ^ 64).toNat ≠ 0 := by
      intro h0
      apply hzero
      apply UInt64.toNat_inj.1
      rw [hnat, h0]
      rfl
    omega

/-- An image request comes from a body, or from the form of an edit. -/
theorem image_source {i : ImageRequest} (h : getAndValidateRequest c format = .ok (.image i)) :
    format = .openAIImage ∧
      ((c.relayMode = .imagesEdits ∧ contains c.contentType "multipart/form-data" = true ∧
        ∃ form, c.multipartForm = .ok form ∧
          i.n = imageCount (some (UInt64.ofInt (formCount form)))) ∨
      (¬ (c.relayMode = .imagesEdits ∧ contains c.contentType "multipart/form-data" = true) ∧
        ∃ v, i.n = some v ∧ 1 ≤ v.toNat ∧ v.toNat ≤ maxImageRequestCount)) := by
  unfold getAndValidateRequest at h
  cases format with
  | openAIImage =>
    refine ⟨rfl, ?_⟩
    obtain ⟨j, hj, hij⟩ := map_ok h
    obtain rfl := Request.image.inj hij
    unfold getAndValidOpenAIImageRequest at hj
    split_ifs at hj with hform
    · left
      cases hparsed : c.multipartForm with
      | error e =>
        rw [hparsed] at hj
        cases hj
      | ok form =>
        rw [hparsed] at hj
        exact ⟨hform.1, hform.2, form, rfl, imageEditForm_count hj⟩
    · right
      exact ⟨hform, imageBodyRequest_count hj⟩
  | gemini =>
    dsimp only at h
    split_ifs at h
    · obtain ⟨_, _, he⟩ := map_ok h
      cases he
    · obtain ⟨_, _, he⟩ := map_ok h
      cases he
    · obtain ⟨_, _, he⟩ := map_ok h
      cases he
  | openAIRealtime => cases h
  | unknown name => cases h
  | _ =>
    obtain ⟨_, _, he⟩ := map_ok h
    cases he

/-- The number of images is in range exactly where that of the form is. -/
theorem images_iff (h : getAndValidateRequest c format = .ok r) :
    (∀ i, r = .image i → ∃ v, i.n = some v ∧ 1 ≤ v.toNat ∧ v.toNat ≤ maxImageRequestCount) ↔
      (format = .openAIImage → c.relayMode = .imagesEdits →
        contains c.contentType "multipart/form-data" = true → ∀ form, c.multipartForm = .ok form →
          0 ≤ formCount form ∧ formCount form ≤ maxImageRequestCount) := by
  constructor
  · rintro himage rfl hmode htype form hform
    obtain ⟨i, hi, rfl⟩ := map_ok h
    have hn : i.n = imageCount (some (UInt64.ofInt (formCount form))) := by
      simp only [getAndValidOpenAIImageRequest, hmode, htype, hform, and_self, if_true] at hi
      exact imageEditForm_count hi
    obtain ⟨v, hv, hrange⟩ := himage i rfl
    exact (imageCount_ofInt (formCount_range form)).1 ⟨v, hn ▸ hv, hrange⟩
  · rintro hform i rfl
    obtain ⟨rfl, ⟨hmode, htype, form, hparsed, hn⟩ | ⟨-, hbody⟩⟩ := image_source h
    · rw [hn]
      exact (imageCount_ofInt (formCount_range form)).2 (hform rfl hmode htype form hparsed)
    · exact hbody

/-- A finite decimal is the decimal of its value where it is short. -/
theorem shortestDecimal_id : ShortestDecimal id where
  rounds := fun _ _ h => ofRat_ofRat h
  integer := fun _ _ => rfl

/-- Half a dollar for an image. -/
def halfDollar : Settings :=
  { billing := .price (1 / 2), groupRatio := 1, quotaPerUnit := 500000, preConsumedQuota := 500 }

theorem halfDollar_priced : Priced halfDollar 0 where
  group := by decide
  unit := by decide
  price := by
    intro p hp
    obtain rfl := Billing.price.inj hp
    decide +kernel
  ratio := by
    intro m configured h
    cases h
  cost := by
    intro f h
    cases h
  surcharge := by decide

theorem halfDollar_float : IsFloat halfDollar.quotaPerUnit ∧ IsFloat halfDollar.groupRatio ∧
    ∀ p, halfDollar.billing = .price p → IsFloat p := by
  refine ⟨⟨500000, by decide +kernel⟩, ⟨1, by decide +kernel⟩, ?_⟩
  intro p hp
  obtain rfl := Billing.price.inj hp
  exact ⟨1 / 2, by decide +kernel⟩

/-- An edit that comes as a form. -/
def formEdit (n : String) : Context :=
  { path := "/v1/images/edits"
    relayMode := .imagesEdits
    contentType := "multipart/form-data; boundary=x"
    multipartForm := .ok [("model", "dall-e-2"), ("prompt", "a cat"), ("n", n)] }

/-- The request that the form becomes. -/
def editOf (n : UInt64) : ImageRequest :=
  { model := "dall-e-2", prompt := "a cat", n := some n }

end Accepted

end CodeGo.Gateway.Pricing
