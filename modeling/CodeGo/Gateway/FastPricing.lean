import CodeGo.Gateway.ModelPrice

/-!
# The fast pricing path

`relayRequest` reads the limits of a request by `fastTokenCountMetaForPricing` when neither tokens
are counted nor sensitive words are checked, and by `GetTokenCountMeta` otherwise. With the count
off, `EstimateRequestToken` gives no tokens for the prompt.
-/

namespace CodeGo.Gateway.Pricing

open CodeGo.Lib CodeGo.Lib.Binary64
open Validation

/-- The quota that is held, where no token is counted. -/
def held (s : Settings) (tokenMeta : TokenCountMeta) : Except String Int :=
  (modelPriceHelper s 0 tokenMeta).map PriceData.quotaToPreConsume

/-- Checking sensitive words or not is the same for the quota, under any settings. -/
def Agrees (r : Request) : Prop :=
  ∀ s, held s (fastTokenCountMetaForPricing r) = held s (getTokenCountMeta r)

/-- `generationConfig.maxOutputTokens` of a chat request in Gemini's format. -/
def geminiLimit : Request → UInt64
  | .gemini r => r.maxOutputTokens.getD 0
  | _ => 0

/-- The two case distinctions differ in one type. -/
theorem fast_eq_of_not_gemini {r : Request} (h : ∀ g, r ≠ .gemini g) :
    fastTokenCountMetaForPricing r = getTokenCountMeta r := by
  cases r with
  | gemini g => exact absurd rfl (h g)
  | _ => simp only [fastTokenCountMetaForPricing, getTokenCountMeta]

theorem intOfUint_zero : intOfUint 0 = 0 := by decide

theorem intOfUint_getD (limit : Option UInt64) :
    (limit.map intOfUint).getD 0 = intOfUint (limit.getD 0) := by
  cases limit with
  | none => rw [Option.map_none, Option.getD_none, Option.getD_none, intOfUint_zero]
  | some v => rw [Option.map_some, Option.getD_some, Option.getD_some]

theorem meta_gemini (g : GeminiChatRequest) :
    getTokenCountMeta (.gemini g) = { maxTokens := intOfUint (geminiLimit (.gemini g)) } := by
  show ({ maxTokens := (g.maxOutputTokens.map intOfUint).getD 0 } : TokenCountMeta) = _
  rw [intOfUint_getD]
  rfl

theorem fast_gemini (g : GeminiChatRequest) : fastTokenCountMetaForPricing (.gemini g) = {} := rfl

theorem fast_eq_of_limit_zero {r : Request} (h : geminiLimit r = 0) :
    fastTokenCountMetaForPricing r = getTokenCountMeta r := by
  cases r with
  | gemini g =>
    rw [meta_gemini, h, intOfUint_zero]
    rfl
  | _ => exact fast_eq_of_not_gemini fun g hg => by cases hg

/-- A call that has a price of its own is charged that price, whatever the limit. -/
theorem held_price {s : Settings} {price : ℚ} (h : s.billing = .price price) (r : Request) :
    held s (fastTokenCountMetaForPricing r) = held s (getTokenCountMeta r) := by
  cases r with
  | gemini g =>
    rw [meta_gemini, fast_gemini]
    simp only [held, modelPriceHelper, h, imagePrice]
  | _ => rw [fast_eq_of_not_gemini fun g hg => by cases hg]

/-- A token costs one unit of the quota, and nothing is held beyond the limit. -/
def unit : Settings :=
  { billing := .ratio 1 true, groupRatio := 1, quotaPerUnit := 500000, preConsumedQuota := 0 }

theorem held_unit {n : Int} (h0 : 0 ≤ n) (h : n < 2 ^ 53) : held unit { maxTokens := n } = .ok n := by
  have htokens : preConsumedTokens unit 0 n = n := by
    have hbase : max 0 unit.preConsumedQuota = 0 := rfl
    simp only [preConsumedTokens, hbase, zero_add]
    split
    · exact Wrap.wrap64_of_inRange ⟨by omega, by omega⟩
    · omega
  have hproduct : tokenProduct unit 1 n = .finite n := by
    have hone : ofRat (1 * unit.groupRatio) = .finite 1 := by decide +kernel
    rw [tokenProduct, hone, ofRat_intCast h0 h, mul, mul_one, ofRat_intCast h0 h]
  have htruncate : toInt (.finite (n : ℚ)) = n := by
    have h0' : (0 : ℚ) ≤ n := by exact_mod_cast h0
    have hfloor : truncate (n : ℚ) = n := by rw [truncate, if_pos h0', Int.floor_intCast]
    simp only [toInt, hfloor]
    exact if_pos ⟨by omega, by omega⟩
  have hfree : isFree unit (.finite 1) = false := by decide
  simp only [held, modelPriceHelper, unit] at htokens hproduct hfree ⊢
  simp only [htokens, hproduct, htruncate, hfree, Bool.false_eq_true, if_false, Except.map]
  rfl

theorem accepted_gemini {c : Context} {format : RelayFormat} {g : GeminiChatRequest}
    (h : getAndValidateRequest c format = .ok (.gemini g)) :
    (geminiLimit (.gemini g)).toNat ≤ safeMaxRequestTokens := by
  unfold getAndValidateRequest at h
  have hchat : ∃ g', getAndValidateGeminiRequest c = .ok g' ∧ Request.gemini g = .gemini g' := by
    cases format with
    | gemini =>
      dsimp only at h
      split_ifs at h
      · obtain ⟨_, _, he⟩ := map_ok h
        cases he
      · obtain ⟨_, _, he⟩ := map_ok h
        cases he
      · exact map_ok h
    | openAIRealtime => cases h
    | unknown name => cases h
    | _ =>
      obtain ⟨_, _, he⟩ := map_ok h
      cases he
  obtain ⟨g', hg', he⟩ := hchat
  obtain rfl := Request.gemini.inj he
  obtain ⟨body, -, hrest⟩ := bind_ok hg'
  obtain ⟨_, -, hrest⟩ := bind_ok hrest
  obtain ⟨_, hlimit, hrest⟩ := bind_ok hrest
  obtain ⟨_, -, hrest⟩ := bind_ok hrest
  obtain rfl := Except.ok.inj hrest
  have hrange := require_ok hlimit
  unfold validateOptionalUintWithinRange at hrange
  show (body.maxOutputTokens.getD 0).toNat ≤ safeMaxRequestTokens
  cases hmax : body.maxOutputTokens with
  | none => exact Nat.zero_le _
  | some v =>
    rw [hmax] at hrange
    exact of_decide_eq_true hrange

/-- Of a request that is accepted, the fast path holds what the full one holds exactly when no limit
of Gemini is left out. -/
theorem accepted_agrees_iff {c : Context} {format : RelayFormat} {r : Request}
    (h : getAndValidateRequest c format = .ok r) :
    (Agrees r ↔ geminiLimit r = 0) ∧
      ∀ s price, s.billing = .price price →
        held s (fastTokenCountMetaForPricing r) = held s (getTokenCountMeta r) := by
  refine ⟨⟨?_, ?_⟩, fun s price hprice => held_price hprice r⟩
  · intro hagrees
    cases r with
    | gemini g =>
      have hlimit := accepted_gemini h
      have hnat : intOfUint (geminiLimit (.gemini g)) = (geminiLimit (.gemini g)).toNat :=
        Wrap.wrap64_of_inRange ⟨by omega, by unfold safeMaxRequestTokens at hlimit; omega⟩
      have hunit := hagrees unit
      rw [meta_gemini, fast_gemini, hnat,
        held_unit (Int.natCast_nonneg _) (by unfold safeMaxRequestTokens at hlimit; omega)] at hunit
      have hzero : held unit {} = .ok 0 := held_unit le_rfl (by decide)
      rw [hzero] at hunit
      have := Except.ok.inj hunit
      apply UInt64.toNat_inj.1
      show _ = 0
      omega
    | _ => rfl
  · intro hlimit s
    rw [fast_eq_of_limit_zero hlimit]

/-- A chat request in Gemini's format. -/
def chat (maxOutputTokens : Option UInt64) : Context :=
  { path := "/v1beta/models/gemini-2.5-pro:generateContent"
    relayMode := .other
    geminiBody := .ok { contents := 1, maxOutputTokens := maxOutputTokens } }

theorem accepted_agrees_iff_chat :
    ∃ r, getAndValidateRequest (chat none) .gemini = .ok r ∧ Agrees r := by
  have haccepted : getAndValidateRequest (chat none) .gemini =
      .ok (.gemini { contents := 1 }) := by decide
  exact ⟨_, haccepted, (accepted_agrees_iff haccepted).1.2 rfl⟩

/-- With the check of sensitive words 8192 more units are held than without. -/
theorem gemini_limit_not_held :
    ∃ r, getAndValidateRequest (chat (some 8192)) .gemini = .ok r ∧
      held unit (getTokenCountMeta r) = .ok 8192 ∧
      held unit (fastTokenCountMetaForPricing r) = .ok 0 ∧ ¬ Agrees r := by
  let r : Request := .gemini { contents := 1, maxOutputTokens := some 8192 }
  have haccepted : getAndValidateRequest (chat (some 8192)) .gemini = .ok r := by decide
  have hmeta : getTokenCountMeta r = { maxTokens := 8192 } := by decide
  have hfull : held unit (getTokenCountMeta r) = .ok 8192 := by
    rw [hmeta]
    exact held_unit (by decide) (by decide)
  have hfast : held unit (fastTokenCountMetaForPricing r) = .ok 0 := held_unit le_rfl (by decide)
  refine ⟨r, haccepted, hfull, hfast, ?_⟩
  intro hagrees
  have hunit := (hfast.symm.trans (hagrees unit)).trans hfull
  exact absurd (Except.ok.inj hunit) (by decide)

end CodeGo.Gateway.Pricing
