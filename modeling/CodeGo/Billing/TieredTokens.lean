import CodeGo.Billing.TextQuota

/-!
# Token parameters of tiered expressions

`tiered_settle.go`: the values that a usage gives to the variables of a pricing expression.
`p` and `c` stand for the tokens that no other variable of the expression counts.
-/

namespace CodeGo.Billing.TieredTokens

open Lib.Binary64
open TextQuota

structure TokenParams where
  p : Value
  c : Value
  len : Value
  cr : Value
  cc : Value
  cc1h : Value
  img : Value
  imgO : Value
  ai : Value
  ao : Value
  deriving DecidableEq, Repr

/-- `float64` of an integer. -/
def float64 (n : Int) : Value := ofRat n

/-- The cache writes: all of them, or those of five minutes and of one hour. -/
def cacheCreation (usage : Usage) : Int × Int :=
  if usage.usageSemantic = "anthropic" then
    (usage.claudeCacheCreation5mTokens, usage.claudeCacheCreation1hTokens)
  else (usage.promptTokensDetails.cachedCreationTokens, 0)

/-- The rest of the tokens after a category that the expression counts apart. -/
def exclude (used : Bool) (tokens category : Value) : Value :=
  if used then sub tokens category else tokens

def clamp (tokens : Value) : Value := if isNegative tokens then Value.finite 0 else tokens

def buildTieredTokenParams (usage : Usage) (isClaudeUsageSemantic : Bool)
    (usedVars : String → Bool) : TokenParams :=
  let p := float64 usage.promptTokens
  let c := float64 usage.completionTokens
  let cr := float64 usage.promptTokensDetails.cachedTokens
  let cc5m := float64 (cacheCreation usage).1
  let cc1h := float64 (cacheCreation usage).2
  let img := float64 usage.promptTokensDetails.imageTokens
  let ai := float64 usage.promptTokensDetails.audioTokens
  let imgO := float64 usage.completionTokenDetails.imageTokens
  let ao := float64 usage.completionTokenDetails.audioTokens
  let inputLen := if isClaudeUsageSemantic then add (add (add p cr) cc5m) cc1h else p
  let excludes (name : String) := !isClaudeUsageSemantic && usedVars name
  let p := exclude (excludes "cr") p cr
  let p := exclude (excludes "cc") p cc5m
  let p := exclude (excludes "cc1h") p cc1h
  let p := exclude (excludes "img") p img
  let p := exclude (excludes "ai") p ai
  let c := exclude (excludes "img_o") c imgO
  let c := exclude (excludes "ao") c ao
  { p := clamp p, c := clamp c, len := inputLen, cr, cc := cc5m, cc1h, img, imgO, ai, ao }

/-- The exact sum of values. -/
def total : List Value → Option ℚ
  | [] => some 0
  | .finite x :: values => (total values).map (x + ·)
  | _ :: _ => none

/-- The values of the variables that an expression uses. -/
def counted (usedVars : String → Bool) (vars : List (String × Value)) : List Value :=
  (vars.filter fun v => usedVars v.1).map (·.2)

def TokenParams.inputVars (t : TokenParams) : List (String × Value) :=
  [("cr", t.cr), ("cc", t.cc), ("cc1h", t.cc1h), ("img", t.img), ("ai", t.ai)]

def TokenParams.outputVars (t : TokenParams) : List (String × Value) :=
  [("img_o", t.imgO), ("ao", t.ao)]

/-- The counts of a usage: none is negative, and a double holds all of them together. -/
structure Counted (usage : Usage) : Prop where
  promptTokens : 0 ≤ usage.promptTokens
  completionTokens : 0 ≤ usage.completionTokens
  cachedTokens : 0 ≤ usage.promptTokensDetails.cachedTokens
  cachedCreationTokens : 0 ≤ usage.promptTokensDetails.cachedCreationTokens
  imageTokens : 0 ≤ usage.promptTokensDetails.imageTokens
  audioTokens : 0 ≤ usage.promptTokensDetails.audioTokens
  imageOutput : 0 ≤ usage.completionTokenDetails.imageTokens
  audioOutput : 0 ≤ usage.completionTokenDetails.audioTokens
  fiveMinutes : 0 ≤ usage.claudeCacheCreation5mTokens
  oneHour : 0 ≤ usage.claudeCacheCreation1hTokens
  inputExact : usage.promptTokens + usage.promptTokensDetails.cachedTokens +
    usage.promptTokensDetails.cachedCreationTokens + usage.claudeCacheCreation5mTokens +
    usage.claudeCacheCreation1hTokens + usage.promptTokensDetails.imageTokens +
    usage.promptTokensDetails.audioTokens < 2 ^ 53
  outputExact : usage.completionTokens + usage.completionTokenDetails.imageTokens +
    usage.completionTokenDetails.audioTokens < 2 ^ 53

/-- The categories lie within the prompt and the completion. -/
structure WithinTotals (usage : Usage) : Prop where
  input : usage.promptTokensDetails.cachedTokens + (cacheCreation usage).1 +
    (cacheCreation usage).2 + usage.promptTokensDetails.imageTokens +
    usage.promptTokensDetails.audioTokens ≤ usage.promptTokens
  output : usage.completionTokenDetails.imageTokens + usage.completionTokenDetails.audioTokens ≤
    usage.completionTokens

/-- The cache writes that the ratios of a model charge. -/
def chargedWrites (c : Counts) : Int :=
  remainingCreation c + c.cacheCreationTokens5m + c.cacheCreationTokens1h

/-- Every token is priced once. -/
structure PricedOnce (usage : Usage) (isClaudeUsageSemantic : Bool) (usedVars : String → Bool)
    (t : TokenParams) : Prop where
  input : isClaudeUsageSemantic = false → WithinTotals usage →
    total (t.p :: counted usedVars t.inputVars) = some usage.promptTokens
  output : isClaudeUsageSemantic = false → WithinTotals usage →
    total (t.c :: counted usedVars t.outputVars) = some usage.completionTokens
  claude : isClaudeUsageSemantic = true →
    total [t.p, t.cr, t.cc, t.cc1h] = total [t.len] ∧
      total [t.len] = some ((usage.promptTokens + usage.promptTokensDetails.cachedTokens +
        chargedWrites (countsOf usage) : Int) : ℚ) ∧
      chargedWrites (countsOf usage) = max usage.promptTokensDetails.cachedCreationTokens
        (usage.claudeCacheCreation5mTokens + usage.claudeCacheCreation1hTokens)

section Exact

variable {usedVars : String → Bool}

/-- A natural number that a double holds. -/
def Exact (n : Int) : Prop := 0 ≤ n ∧ n < 2 ^ 53

theorem Exact.float64 {n : Int} (h : Exact n) : float64 n = .finite n := ofRat_intCast h.1 h.2

theorem Exact.add {m n : Int} (h : Exact (m + n)) :
    add (.finite m) (.finite n) = .finite ((m + n : Int) : ℚ) := by
  show ofRat ((m : ℚ) + n) = _
  rw [← Int.cast_add]
  exact ofRat_intCast h.1 h.2

theorem Exact.exclude {m n : Int} (used : Bool) (h : Exact (m - n)) :
    exclude used (.finite m) (.finite n) = .finite ((m - if used then n else 0 : Int) : ℚ) := by
  cases used with
  | false => simp [TieredTokens.exclude]
  | true =>
    show ofRat ((m : ℚ) + -n) = _
    rw [← sub_eq_add_neg, ← Int.cast_sub]
    exact ofRat_intCast h.1 h.2

theorem clamp_of_nonneg {n : Int} (h : 0 ≤ n) : clamp (.finite n) = .finite n := by
  have : ¬ (n : ℚ) < 0 := by
    have : (0 : ℚ) ≤ n := by exact_mod_cast h
    exact not_lt.2 this
  simp [clamp, isNegative, this]

@[simp] theorem total_nil : total [] = some 0 := rfl

@[simp] theorem total_cons (x : ℚ) (values : List Value) :
    total (.finite x :: values) = (total values).map (x + ·) := rfl

theorem total_counted_cons (name : String) (n : Int) (vars : List (String × Value)) :
    total (counted usedVars ((name, .finite n) :: vars)) =
      (total (counted usedVars vars)).map (((if usedVars name then n else 0 : Int) : ℚ) + ·) := by
  unfold counted
  rw [List.filter_cons]
  cases usedVars name with
  | false => simp
  | true => rfl

/-- The larger of both counts, as `cacheWriteTokensTotal` has it. -/
theorem chargedWrites_eq (c : Counts) :
    chargedWrites c =
      max c.cacheCreationTokens (c.cacheCreationTokens5m + c.cacheCreationTokens1h) := by
  unfold chargedWrites remainingCreation
  dsimp only
  split_ifs <;> omega

end Exact

section Results

variable {usage : Usage} (usedVars : String → Bool)

theorem cacheCreation_nonneg (h : Counted usage) :
    0 ≤ (cacheCreation usage).1 ∧ 0 ≤ (cacheCreation usage).2 := by
  unfold cacheCreation
  split
  · exact ⟨h.fiveMinutes, h.oneHour⟩
  · exact ⟨h.cachedCreationTokens, Int.le_refl 0⟩

theorem cacheCreation_le (h : Counted usage) :
    (cacheCreation usage).1 + (cacheCreation usage).2 ≤
      usage.promptTokensDetails.cachedCreationTokens + usage.claudeCacheCreation5mTokens +
        usage.claudeCacheCreation1hTokens := by
  obtain ⟨-, -, -, h₁, -, -, -, -, h₂, h₃, -, -⟩ := h
  unfold cacheCreation
  split <;> dsimp only <;> omega

theorem Counted.exact (h : Counted usage) :
    Exact usage.promptTokens ∧ Exact usage.completionTokens := by
  obtain ⟨h₁, h₂, h₃, h₄, h₅, h₆, h₇, h₈, h₉, h₁₀, hin, hout⟩ := h
  exact ⟨⟨h₁, by omega⟩, h₂, by omega⟩

/-- The categories are the counts themselves. -/
theorem categories_eq (h : Counted usage) (isClaude : Bool) :
    let t := buildTieredTokenParams usage isClaude usedVars
    t.cr = .finite usage.promptTokensDetails.cachedTokens ∧
      t.cc = .finite (cacheCreation usage).1 ∧ t.cc1h = .finite (cacheCreation usage).2 ∧
      t.img = .finite usage.promptTokensDetails.imageTokens ∧
      t.ai = .finite usage.promptTokensDetails.audioTokens ∧
      t.imgO = .finite usage.completionTokenDetails.imageTokens ∧
      t.ao = .finite usage.completionTokenDetails.audioTokens := by
  have hcreated := cacheCreation_nonneg h
  have hle := cacheCreation_le h
  obtain ⟨h₁, h₂, h₃, h₄, h₅, h₆, h₇, h₈, h₉, h₁₀, hin, hout⟩ := h
  refine ⟨?_, ?_, ?_, ?_, ?_, ?_, ?_⟩ <;> exact Exact.float64 ⟨by omega, by omega⟩

/-- What is left of the prompt is what no used variable counts. -/
theorem prompt_eq (h : Counted usage) (hwithin : WithinTotals usage) :
    (buildTieredTokenParams usage false usedVars).p = .finite ((usage.promptTokens
      - (if usedVars "cr" then usage.promptTokensDetails.cachedTokens else 0)
      - (if usedVars "cc" then (cacheCreation usage).1 else 0)
      - (if usedVars "cc1h" then (cacheCreation usage).2 else 0)
      - (if usedVars "img" then usage.promptTokensDetails.imageTokens else 0)
      - (if usedVars "ai" then usage.promptTokensDetails.audioTokens else 0) : Int) : ℚ) := by
  have hcategories := categories_eq usedVars h false
  have hprompt := h.exact.1.float64
  have hcreated := cacheCreation_nonneg h
  have hwithin := hwithin.input
  obtain ⟨h₁, h₂, h₃, h₄, h₅, h₆, h₇, h₈, h₉, h₁₀, hin, hout⟩ := h
  dsimp only [buildTieredTokenParams] at hcategories ⊢
  obtain ⟨hcr, hcc, hcc1h, himg, hai, -, -⟩ := hcategories
  rw [hprompt, hcr, hcc, hcc1h, himg, hai]
  simp only [Bool.not_false, Bool.true_and]
  rw [Exact.exclude _ ⟨by omega, by omega⟩,
    Exact.exclude _ ⟨by split_ifs <;> omega, by split_ifs <;> omega⟩,
    Exact.exclude _ ⟨by split_ifs <;> omega, by split_ifs <;> omega⟩,
    Exact.exclude _ ⟨by split_ifs <;> omega, by split_ifs <;> omega⟩,
    Exact.exclude _ ⟨by split_ifs <;> omega, by split_ifs <;> omega⟩]
  exact clamp_of_nonneg (by split_ifs <;> omega)

theorem completion_eq (h : Counted usage) (hwithin : WithinTotals usage) :
    (buildTieredTokenParams usage false usedVars).c = .finite ((usage.completionTokens
      - (if usedVars "img_o" then usage.completionTokenDetails.imageTokens else 0)
      - (if usedVars "ao" then usage.completionTokenDetails.audioTokens else 0) : Int) : ℚ) := by
  have hcategories := categories_eq usedVars h false
  have hcompletion := h.exact.2.float64
  have hwithin := hwithin.output
  obtain ⟨h₁, h₂, h₃, h₄, h₅, h₆, h₇, h₈, h₉, h₁₀, hin, hout⟩ := h
  dsimp only [buildTieredTokenParams] at hcategories ⊢
  obtain ⟨-, -, -, -, -, himgO, hao⟩ := hcategories
  rw [hcompletion, himgO, hao]
  simp only [Bool.not_false, Bool.true_and]
  rw [Exact.exclude _ ⟨by omega, by omega⟩,
    Exact.exclude _ ⟨by split_ifs <;> omega, by split_ifs <;> omega⟩]
  exact clamp_of_nonneg (by split_ifs <;> omega)

theorem priced_input (h : Counted usage) (hwithin : WithinTotals usage) :
    total ((buildTieredTokenParams usage false usedVars).p ::
      counted usedVars (buildTieredTokenParams usage false usedVars).inputVars) =
        some usage.promptTokens := by
  obtain ⟨hcr, hcc, hcc1h, himg, hai, -, -⟩ := categories_eq usedVars h false
  unfold TokenParams.inputVars
  rw [prompt_eq usedVars h hwithin, hcr, hcc, hcc1h, himg, hai, total_cons, total_counted_cons,
    total_counted_cons, total_counted_cons, total_counted_cons, total_counted_cons]
  show some _ = _
  congr 1
  push_cast
  ring

theorem priced_output (h : Counted usage) (hwithin : WithinTotals usage) :
    total ((buildTieredTokenParams usage false usedVars).c ::
      counted usedVars (buildTieredTokenParams usage false usedVars).outputVars) =
        some usage.completionTokens := by
  obtain ⟨-, -, -, -, -, himgO, hao⟩ := categories_eq usedVars h false
  unfold TokenParams.outputVars
  rw [completion_eq usedVars h hwithin, himgO, hao, total_cons, total_counted_cons,
    total_counted_cons]
  show some _ = _
  congr 1
  push_cast
  ring

/-- Under the other semantics the prompt and the length are sums of what is read of the usage. -/
theorem claude_eq (h : Counted usage) :
    (buildTieredTokenParams usage true usedVars).p = .finite usage.promptTokens ∧
      (buildTieredTokenParams usage true usedVars).len =
        .finite ((usage.promptTokens + usage.promptTokensDetails.cachedTokens +
          (cacheCreation usage).1 + (cacheCreation usage).2 : Int) : ℚ) := by
  have hcategories := categories_eq usedVars h true
  have hprompt := h.exact.1.float64
  have hcreated := cacheCreation_nonneg h
  have hle := cacheCreation_le h
  obtain ⟨h₁, h₂, h₃, h₄, h₅, h₆, h₇, h₈, h₉, h₁₀, hin, hout⟩ := h
  dsimp only [buildTieredTokenParams] at hcategories ⊢
  obtain ⟨hcr, hcc, hcc1h, -, -, -, -⟩ := hcategories
  rw [hprompt, hcr, hcc, hcc1h]
  simp only [Bool.not_true, Bool.false_and, if_true]
  constructor
  · exact clamp_of_nonneg h₁
  · rw [Exact.add ⟨by omega, by omega⟩, Exact.add ⟨by omega, by omega⟩,
      Exact.add ⟨by omega, by omega⟩]

/-- The cache writes that are read of a usage are all that it reports. -/
def ReadsAllWrites (usage : Usage) : Prop :=
  if usage.usageSemantic = "anthropic" then
    usage.promptTokensDetails.cachedCreationTokens ≤
      usage.claudeCacheCreation5mTokens + usage.claudeCacheCreation1hTokens
  else
    usage.claudeCacheCreation5mTokens + usage.claudeCacheCreation1hTokens ≤
      usage.promptTokensDetails.cachedCreationTokens

theorem readsAllWrites_iff :
    ReadsAllWrites usage ↔
      (cacheCreation usage).1 + (cacheCreation usage).2 = chargedWrites (countsOf usage) := by
  rw [chargedWrites_eq]
  unfold ReadsAllWrites cacheCreation countsOf
  dsimp only
  split <;> omega

/-- Every token is priced once if and only if the usage reports no more cache writes than the
count that the semantics picks. -/
theorem buildTieredTokenParams_pricedOnce_iff (h : Counted usage) (isClaude : Bool) :
    PricedOnce usage isClaude usedVars (buildTieredTokenParams usage isClaude usedVars) ↔
      (isClaude = true → ReadsAllWrites usage) := by
  cases isClaude with
  | false =>
    constructor
    · exact fun _ => nofun
    · exact fun _ => ⟨fun _ => priced_input usedVars h, fun _ => priced_output usedVars h, nofun⟩
  | true =>
    obtain ⟨hcr, hcc, hcc1h, -, -, -, -⟩ := categories_eq usedVars h true
    obtain ⟨hp, hlen⟩ := claude_eq usedVars h
    rw [readsAllWrites_iff]
    constructor
    · intro hpriced _
      have htotal := (hpriced.claude rfl).2.1
      rw [hlen, total_cons, total_nil, Option.map_some, Option.some.injEq, add_zero] at htotal
      have : usage.promptTokens + usage.promptTokensDetails.cachedTokens +
          (cacheCreation usage).1 + (cacheCreation usage).2 =
            usage.promptTokens + usage.promptTokensDetails.cachedTokens +
              chargedWrites (countsOf usage) := by exact_mod_cast htotal
      omega
    · intro hall
      refine ⟨nofun, nofun, fun _ => ⟨?_, ?_, chargedWrites_eq _⟩⟩
      · rw [hp, hcr, hcc, hcc1h, hlen]
        simp only [total_cons, total_nil, Option.map_some]
        congr 1
        push_cast
        ring
      · rw [hlen, total_cons, total_nil, Option.map_some, ← hall rfl]
        congr 1
        push_cast
        ring

end Results

/-- A hundred tokens besides fifty written to the cache, without their lifetimes. -/
def unsplit (usageSemantic : String) : Usage where
  promptTokens := 100
  usageSemantic
  promptTokensDetails := { cachedCreationTokens := 50 }

theorem unsplit_counted (usageSemantic : String) : Counted (unsplit usageSemantic) := by
  constructor <;> simp [unsplit]

theorem pricedOnce_unsplit :
    PricedOnce (unsplit "") true (fun _ => true)
      (buildTieredTokenParams (unsplit "") true fun _ => true) :=
  (buildTieredTokenParams_pricedOnce_iff _ (unsplit_counted "") true).2 fun _ => by
    unfold ReadsAllWrites
    decide

/-- The same usage with the semantics named: the cache writes are not priced at all. -/
theorem unsplit_not_priced :
    Counted (unsplit "anthropic") ∧
    (buildTieredTokenParams (unsplit "anthropic") true fun _ => true).len = .finite 100 ∧
      ¬ PricedOnce (unsplit "anthropic") true (fun _ => true)
        (buildTieredTokenParams (unsplit "anthropic") true fun _ => true) := by
  have hlen : (buildTieredTokenParams (unsplit "anthropic") true fun _ => true).len =
      .finite 100 := by decide +kernel
  refine ⟨unsplit_counted _, hlen, fun h => ?_⟩
  have htotal := (h.claude rfl).2.1
  rw [hlen] at htotal
  revert htotal
  decide +kernel

end CodeGo.Billing.TieredTokens
