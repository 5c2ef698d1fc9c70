import CodeGo.Lib.Wrap

/-!
# Claude usages in the OpenAI shape

A Claude usage counts the input without what was read from or written to a cache. The OpenAI shape
counts everything in its prompt tokens, and a Claude client is told what is read out of it again.
-/

namespace CodeGo.Gateway.UsageShapes

open Lib.Wrap

structure ClaudeCacheCreationUsage where
  ephemeral5mInputTokens : Int
  ephemeral1hInputTokens : Int
  deriving DecidableEq, Repr

structure ClaudeUsage where
  inputTokens : Int := 0
  cacheCreationInputTokens : Int := 0
  cacheReadInputTokens : Int := 0
  outputTokens : Int := 0
  cacheCreation : Option ClaudeCacheCreationUsage := none
  deriving DecidableEq, Repr

def ClaudeUsage.getCacheCreation5mTokens (u : ClaudeUsage) : Int :=
  match u.cacheCreation with
  | some split => split.ephemeral5mInputTokens
  | none => 0

def ClaudeUsage.getCacheCreation1hTokens (u : ClaudeUsage) : Int :=
  match u.cacheCreation with
  | some split => split.ephemeral1hInputTokens
  | none => 0

structure InputTokenDetails where
  cachedTokens : Int := 0
  cachedCreationTokens : Int := 0
  cacheCreationTokens : Int := 0
  cacheCreationInputTokens : Int := 0
  cacheWriteTokens : Int := 0
  cacheWriteInputTokens : Int := 0
  deriving DecidableEq, Repr

def InputTokenDetails.getCachedCreationTokens (details : InputTokenDetails) : Int :=
  let values := [details.cachedCreationTokens, details.cacheCreationTokens,
    details.cacheCreationInputTokens, details.cacheWriteTokens, details.cacheWriteInputTokens]
  (values.find? fun value => decide (value > 0)).getD 0

structure Usage where
  promptTokens : Int := 0
  completionTokens : Int := 0
  totalTokens : Int := 0
  usageSemantic : String := ""
  usageSource : String := ""
  promptTokensDetails : InputTokenDetails := {}
  inputTokens : Int := 0
  claudeCacheCreation5mTokens : Int := 0
  claudeCacheCreation1hTokens : Int := 0
  deriving DecidableEq, Repr

/-- Tokens that are in no part of the split are taken for those of five minutes. -/
def normalizeCacheCreationSplit (totalTokens tokens5m tokens1h : Int) : Int × Int :=
  (wrap64 (tokens5m + max (wrap64 (totalTokens - tokens5m - tokens1h)) 0), tokens1h)

def cacheCreationTokensForOpenAIUsage (usage : Usage) : Int :=
  let split := wrap64 (usage.claudeCacheCreation5mTokens + usage.claudeCacheCreation1hTokens)
  if split = 0 then usage.promptTokensDetails.cachedCreationTokens
  else if usage.promptTokensDetails.cachedCreationTokens > split then
    usage.promptTokensDetails.cachedCreationTokens
  else split

def buildOpenAIStyleUsageFromClaudeUsage : Option Usage → Usage
  | none => {}
  | some usage =>
    let split := normalizeCacheCreationSplit usage.promptTokensDetails.cachedCreationTokens
      usage.claudeCacheCreation5mTokens usage.claudeCacheCreation1hTokens
    let totalInputTokens := wrap64 (usage.promptTokens + usage.promptTokensDetails.cachedTokens +
      cacheCreationTokensForOpenAIUsage usage)
    { usage with
      claudeCacheCreation5mTokens := split.1
      claudeCacheCreation1hTokens := split.2
      promptTokens := totalInputTokens
      inputTokens := totalInputTokens
      totalTokens := wrap64 (totalInputTokens + usage.completionTokens)
      usageSemantic := "openai"
      usageSource := "anthropic" }

def buildClaudeUsageFromOpenAIUsage : Option Usage → Option ClaudeUsage
  | none => none
  | some usage =>
    let split := normalizeCacheCreationSplit usage.promptTokensDetails.getCachedCreationTokens
      usage.claudeCacheCreation5mTokens usage.claudeCacheCreation1hTokens
    some {
      inputTokens := usage.promptTokens
      outputTokens := usage.completionTokens
      cacheCreationInputTokens := usage.promptTokensDetails.getCachedCreationTokens
      cacheReadInputTokens := usage.promptTokensDetails.cachedTokens
      cacheCreation := if split.1 > 0 ∨ split.2 > 0 then some ⟨split.1, split.2⟩ else none }

/-- What is kept of the usage in a Claude response. -/
def usageOfResponse (u : ClaudeUsage) : Usage where
  promptTokens := u.inputTokens
  completionTokens := u.outputTokens
  totalTokens := wrap64 (u.inputTokens + u.outputTokens)
  usageSemantic := "anthropic"
  promptTokensDetails :=
    { cachedTokens := u.cacheReadInputTokens, cachedCreationTokens := u.cacheCreationInputTokens }
  claudeCacheCreation5mTokens := u.getCacheCreation5mTokens
  claudeCacheCreation1hTokens := u.getCacheCreation1hTokens

/-- A 64-bit count. -/
def Count (x : Int) : Prop := 0 ≤ x ∧ x < 2 ^ 63

instance (x : Int) : Decidable (Count x) := inferInstanceAs (Decidable (_ ∧ _))

/-- A usage as it is reported, all of whose counts are counts. -/
structure Reported where
  usage : ClaudeUsage
  input : Count usage.inputTokens
  output : Count usage.outputTokens
  read : Count usage.cacheReadInputTokens
  creation : Count usage.cacheCreationInputTokens
  fiveMinutes : Count usage.getCacheCreation5mTokens
  oneHour : Count usage.getCacheCreation1hTokens

/-- The client is told the counts that were reported, and the split where it covers the total. -/
structure SameCounts (reported told : ClaudeUsage) : Prop where
  input : told.inputTokens = reported.inputTokens
  output : told.outputTokens = reported.outputTokens
  read : told.cacheReadInputTokens = reported.cacheReadInputTokens
  creation : told.cacheCreationInputTokens = reported.cacheCreationInputTokens
  split : reported.getCacheCreation5mTokens + reported.getCacheCreation1hTokens =
      reported.cacheCreationInputTokens →
    told.getCacheCreation5mTokens = reported.getCacheCreation5mTokens ∧
      told.getCacheCreation1hTokens = reported.getCacheCreation1hTokens

/-- The tokens read from and written to a cache, as they are added to the input. -/
def cacheTokens (u : ClaudeUsage) : Int :=
  wrap64 (u.cacheReadInputTokens + cacheCreationTokensForOpenAIUsage (usageOfResponse u))

def told (u : ClaudeUsage) : Option ClaudeUsage :=
  buildClaudeUsageFromOpenAIUsage
    (some (buildOpenAIStyleUsageFromClaudeUsage (some (usageOfResponse u))))

theorem getCachedCreationTokens_eq {x y : Int} (h : 0 ≤ x) :
    InputTokenDetails.getCachedCreationTokens { cachedTokens := y, cachedCreationTokens := x } =
      x := by
  by_cases hx : x > 0
  · simp [InputTokenDetails.getCachedCreationTokens, hx]
  · have hzero : x = 0 := by omega
    subst hzero
    rfl

/-- A split that covers the total is left as it is. -/
theorem normalizeCacheCreationSplit_eq {total a b : Int} (ha : Count a) (h : a + b = total) :
    normalizeCacheCreationSplit total a b = (a, b) := by
  have hzero : total - a - b = 0 := by omega
  rw [normalizeCacheCreationSplit, hzero]
  simp only [wrap64_zero, max_self, Int.add_zero]
  rw [wrap64_of_nonneg ha.1 ha.2]

theorem wrap64_add_eq_self_iff {a x : Int} (h : InRange a) : wrap64 (a + x) = a ↔ wrap64 x = 0 := by
  obtain ⟨hlo, hhi⟩ := h
  simp only [wrap64, Int.bmod_def]
  omega

theorem told_input (r : Reported) :
    wrap64 (r.usage.inputTokens + r.usage.cacheReadInputTokens +
        cacheCreationTokensForOpenAIUsage (usageOfResponse r.usage)) = r.usage.inputTokens ↔
      cacheTokens r.usage = 0 := by
  have hrange : InRange r.usage.inputTokens := ⟨by have := r.input.1; omega, r.input.2⟩
  rw [Int.add_assoc]
  exact wrap64_add_eq_self_iff hrange

/-- A split is left out only where both parts are nothing. -/
theorem read_split {a b : Int} {u : ClaudeUsage} (ha : 0 ≤ a) (hb : 0 ≤ b)
    (h : u.cacheCreation = if a > 0 ∨ b > 0 then some ⟨a, b⟩ else none) :
    u.getCacheCreation5mTokens = a ∧ u.getCacheCreation1hTokens = b := by
  unfold ClaudeUsage.getCacheCreation5mTokens ClaudeUsage.getCacheCreation1hTokens
  rw [h]
  by_cases hany : a > 0 ∨ b > 0
  · simp only [if_pos hany, and_self]
  · simp only [if_neg hany]
    omega

theorem told_split (r : Reported)
    (h : r.usage.getCacheCreation5mTokens + r.usage.getCacheCreation1hTokens =
      r.usage.cacheCreationInputTokens) {u : ClaudeUsage} (hu : told r.usage = some u) :
    u.getCacheCreation5mTokens = r.usage.getCacheCreation5mTokens ∧
      u.getCacheCreation1hTokens = r.usage.getCacheCreation1hTokens := by
  have hsplit := normalizeCacheCreationSplit_eq r.fiveMinutes h
  have hcreation := getCachedCreationTokens_eq (y := r.usage.cacheReadInputTokens) r.creation.1
  unfold told buildClaudeUsageFromOpenAIUsage buildOpenAIStyleUsageFromClaudeUsage
    usageOfResponse at hu
  simp only [hsplit, hcreation] at hu
  obtain rfl := Option.some.inj hu
  exact read_split r.fiveMinutes.1 r.oneHour.1 rfl

/-- A client is told what the upstream reported exactly when no token came from or went to a
cache: those are added to the prompt and never taken off again. -/
theorem usage_survives_iff (r : Reported) :
    (∃ u, told r.usage = some u ∧ SameCounts r.usage u) ↔ cacheTokens r.usage = 0 := by
  constructor
  · rintro ⟨u, hu, hsame⟩
    obtain rfl := Option.some.inj hu
    exact (told_input r).1 hsame.input
  · intro h
    refine ⟨_, rfl, (told_input r).2 h, rfl, rfl, ?_, fun hsplit => told_split r hsplit rfl⟩
    exact getCachedCreationTokens_eq r.creation.1

/-- Ten tokens of input after five that were read from a cache. -/
def cachedPrompt : Reported where
  usage := { inputTokens := 10, cacheReadInputTokens := 5, outputTokens := 3 }
  input := by decide
  output := by decide
  read := by decide
  creation := by decide
  fiveMinutes := by decide
  oneHour := by decide

theorem cached_prompt_counted_twice :
    ¬ ∃ u, told cachedPrompt.usage = some u ∧ SameCounts cachedPrompt.usage u := by
  rintro ⟨u, hu, hsame⟩
  obtain rfl := Option.some.inj hu
  exact absurd hsame.input (by decide)

end CodeGo.Gateway.UsageShapes
