import CodeGo.BillingExpr.RequestRules

/-!
# What the patterns of a condition match

For each pattern, the texts that it matches and what it finds in them.
-/

namespace CodeGo.BillingExpr

open CodeGo.Lib CodeGo.Lib.JsText CodeGo.Lib.Pattern

/-- A text of at least one character, all of a kind. -/
def Run (p : UInt16 → Bool) (t : Text) : Prop := t ≠ [] ∧ ∀ c ∈ t, p c = true

theorem run_append {p : UInt16 → Bool} {a r : Text} (ha : Run p a) {c : UInt16}
    (hr : r.head? = some c) (hc : p c = false) : run p (a ++ r) = some (a, r) := by
  refine run_iff.2 ⟨rfl, ha.1, ha.2, ?_⟩
  intro d hd
  obtain rfl := Option.some.inj (hr.symm.trans hd)
  exact hc

theorem run_all {p : UInt16 → Bool} {a : Text} (ha : Run p a) : run p a = some (a, []) :=
  run_iff.2 ⟨by simp, ha.1, ha.2, by simp⟩

theorem run_sound {p : UInt16 → Bool} {t a r : Text} (h : run p t = some (a, r)) :
    t = a ++ r ∧ Run p a := by
  obtain ⟨ht, hne, ha, -⟩ := run_iff.1 h
  exact ⟨ht, hne, ha⟩

theorem timeName_append (f : TimeFunc) (t : Text) : timeName (f.name ++ t) = some (f, t) := by
  cases f <;> simp [timeName, expect, TimeFunc.name, lit]

theorem timeName_sound {t r : Text} {f : TimeFunc} (h : timeName t = some (f, r)) :
    t = f.name ++ r := by
  obtain ⟨g, -, hg⟩ := List.exists_of_findSome?_eq_some h
  obtain ⟨s, hs, hfs⟩ := Option.map_eq_some_iff.1 hg
  obtain ⟨rfl, rfl⟩ := Prod.mk.inj hfs
  exact expect_iff.1 hs

theorem sourceName_append (s : Source) (t : Text) : sourceName (s.name ++ t) = some (s, t) := by
  cases s <;> simp [sourceName, expect, Source.name, lit]

theorem sourceName_sound {t r : Text} {s : Source} (h : sourceName t = some (s, r)) :
    t = s.name ++ r := by
  obtain ⟨g, -, hg⟩ := List.exists_of_findSome?_eq_some h
  obtain ⟨u, hu, hfs⟩ := Option.map_eq_some_iff.1 hg
  obtain ⟨rfl, rfl⟩ := Prod.mk.inj hfs
  exact expect_iff.1 hu

theorem operator_sound {modes : List MatchMode} {text : MatchMode → Text} {t r : Text}
    {mode : MatchMode} (h : operator modes text t = some (mode, r)) :
    mode ∈ modes ∧ t = text mode ++ (lit " " ++ r) := by
  obtain ⟨g, hmem, hg⟩ := List.exists_of_findSome?_eq_some h
  obtain ⟨u, hu, hfs⟩ := Option.map_eq_some_iff.1 hg
  obtain ⟨rfl, rfl⟩ := Prod.mk.inj hfs
  exact ⟨hmem, by rw [expect_iff.1 hu, List.append_assoc]⟩

theorem timeOperator_append {mode : MatchMode} (h : mode ∈ [MatchMode.eq, .gte, .lt]) (t : Text) :
    operator [.eq, .gte, .lt] timeOperator (timeOperator mode ++ (lit " " ++ t)) =
      some (mode, t) := by
  simp only [List.mem_cons, List.not_mem_nil, or_false] at h
  rcases h with rfl | rfl | rfl <;> simp [operator, expect, timeOperator, lit]

theorem compareOperator_append {mode : MatchMode} (h : mode ∈ [MatchMode.gt, .gte, .lt, .lte])
    (t : Text) : operator [.gt, .gte, .lt, .lte] compareOperator
      (compareOperator mode ++ (lit " " ++ t)) = some (mode, t) := by
  simp only [List.mem_cons, List.not_mem_nil, or_false] at h
  rcases h with rfl | rfl | rfl | rfl <;> simp [operator, expect, compareOperator, lit]

/-- The text of a range of times. -/
def rangeText (f : TimeFunc) (tz s e : Text) : Text :=
  f.name ++ (lit "(\"" ++ (tz ++ (lit "\") >= " ++ (s ++ (lit " || " ++ (f.name ++ (lit "(\"" ++
    (tz ++ (lit "\") < " ++ e)))))))))

theorem timeRange_iff {t : Text} {c : RequestCondition} : timeRange t = some c ↔
    ∃ f tz s e, Run notQuote tz ∧ Run numeric s ∧ Run numeric e ∧ t = rangeText f tz s e ∧
      c = .time { timeFunc := f, timezone := tz, mode := .range, value := [],
                  rangeStart := s, rangeEnd := e } := by
  constructor
  · intro h
    simp only [timeRange, Option.bind_eq_bind, Option.bind_eq_some_iff, Prod.exists,
      expect_iff] at h
    obtain ⟨f, t₁, hf, t₂, rfl, tz, t₃, htz, t₄, rfl, s, t₅, hs, t₆, rfl, t₇, rfl, t₈, rfl, t₉, rfl,
      t₁₀, rfl, e, t₁₁, he, hc⟩ := h
    have h₁ := timeName_sound hf
    obtain ⟨rfl, hzone⟩ := run_sound htz
    obtain ⟨rfl, hstart⟩ := run_sound hs
    obtain ⟨rfl, hend⟩ := run_sound he
    obtain ⟨rfl, rfl⟩ := Option.ite_some_none_eq_some.1 hc
    rw [List.append_nil] at h₁
    exact ⟨f, tz, s, e, hzone, hstart, hend, h₁, rfl⟩
  · rintro ⟨f, tz, s, e, htz, hs, he, rfl, rfl⟩
    simp only [timeRange, rangeText, timeName_append, Option.bind_eq_bind, Option.bind_some,
      expect_append]
    rw [run_append htz rfl (by decide)]
    simp only [Option.bind_some, expect_append]
    rw [run_append hs rfl (by decide)]
    simp only [Option.bind_some, expect_append]
    rw [run_all he]
    rfl

theorem timeRangeInParens_iff {t : Text} {c : RequestCondition} : timeRangeInParens t = some c ↔
    ∃ u, timeRange u = some c ∧ t = lit "(" ++ (u ++ lit ")") := by
  simp only [timeRangeInParens, Option.bind_eq_bind, Option.bind_eq_some_iff, expect_iff,
    expectEnd_iff]
  constructor
  · rintro ⟨t₁, rfl, u, rfl, hu⟩
    exact ⟨u, hu, rfl⟩
  · rintro ⟨u, hu, rfl⟩
    exact ⟨_, rfl, u, rfl, hu⟩

/-- The text of a comparison of a time. -/
def compareText (f : TimeFunc) (tz : Text) (mode : MatchMode) (v : Text) : Text :=
  f.name ++ (lit "(\"" ++ (tz ++ (lit "\") " ++ (timeOperator mode ++ (lit " " ++ v)))))

theorem timeCompare_iff {t : Text} {c : RequestCondition} : timeCompare t = some c ↔
    ∃ f tz mode v, Run notQuote tz ∧ mode ∈ [MatchMode.eq, .gte, .lt] ∧ Run numeric v ∧
      t = compareText f tz mode v ∧
      c = .time { timeFunc := f, timezone := tz, mode, value := v,
                  rangeStart := [], rangeEnd := [] } := by
  constructor
  · intro h
    simp only [timeCompare, Option.bind_eq_bind, Option.bind_eq_some_iff, Prod.exists,
      expect_iff] at h
    obtain ⟨f, t₁, hf, t₂, rfl, tz, t₃, htz, t₄, rfl, mode, t₅, hmode, v, t₆, hv, hc⟩ := h
    have h₁ := timeName_sound hf
    obtain ⟨rfl, hzone⟩ := run_sound htz
    obtain ⟨hmem, rfl⟩ := operator_sound hmode
    obtain ⟨rfl, hvalue⟩ := run_sound hv
    obtain ⟨rfl, rfl⟩ := Option.ite_some_none_eq_some.1 hc
    rw [List.append_nil] at h₁
    exact ⟨f, tz, mode, v, hzone, hmem, hvalue, h₁, rfl⟩
  · rintro ⟨f, tz, mode, v, htz, hmode, hv, rfl, rfl⟩
    simp only [timeCompare, compareText, timeName_append, Option.bind_eq_bind, Option.bind_some,
      expect_append]
    rw [run_append htz rfl (by decide)]
    simp only [Option.bind_some, expect_append, timeOperator_append hmode]
    rw [run_all hv]
    rfl

/-- The text of a condition on the presence of a value. -/
def existsText (s : Source) (path : Text) : Text :=
  s.name ++ (lit "(\"" ++ (path ++ (if s = .header then lit "\") != \"\"" else lit "\") != nil")))

def existsCondition (s : Source) (path : Text) : RequestCondition :=
  .paramHeader { source := s, path, mode := .exist, value := [] }

/-- A path between two fixed texts, the second of which a quote begins. -/
theorem pathBetween_iff {before after t : Text} (hquote : after.head? = some 34)
    {f : Text → RequestCondition} {c : RequestCondition} :
    ((expect before t).bind fun t => (run notQuote t).bind fun (path, t) =>
      if t = after then some (f path) else none) = some c ↔
    ∃ path, Run notQuote path ∧ t = before ++ (path ++ after) ∧ c = f path := by
  simp only [Option.bind_eq_some_iff, Prod.exists, expect_iff]
  constructor
  · rintro ⟨t₁, rfl, path, t₂, hpath, hc⟩
    obtain ⟨rfl, hrun⟩ := run_sound hpath
    obtain ⟨rfl, rfl⟩ := Option.ite_some_none_eq_some.1 hc
    exact ⟨path, hrun, rfl, rfl⟩
  · rintro ⟨path, hrun, rfl, rfl⟩
    exact ⟨_, rfl, path, after, run_append hrun hquote (by decide), if_pos rfl⟩

theorem headerExists_iff {t : Text} {c : RequestCondition} : headerExists t = some c ↔
    ∃ path, Run notQuote path ∧ t = existsText .header path ∧ c = existsCondition .header path :=
  @pathBetween_iff (lit "header(\"") (lit "\") != \"\"") t rfl (existsCondition .header) c

theorem paramExists_iff {t : Text} {c : RequestCondition} : paramExists t = some c ↔
    ∃ path, Run notQuote path ∧ t = existsText .param path ∧ c = existsCondition .param path :=
  @pathBetween_iff (lit "param(\"") (lit "\") != nil") t rfl (existsCondition .param) c

/-- The text of a header that contains a string, of which `body` is the inside. -/
def headerContainsText (path body : Text) : Text :=
  lit "has(header(\"" ++ (path ++ (lit "\"), \"" ++ (body ++ lit "\")")))

def paramContainsText (path body : Text) : Text :=
  lit "param(\"" ++ (path ++ (lit "\") != nil && has(param(\"" ++ (path ++ (lit "\"), \"" ++
    (body ++ lit "\")")))))

def paramCompareText (path : Text) (mode : MatchMode) (v : Text) : Text :=
  lit "param(\"" ++ (path ++ (lit "\") != nil && param(\"" ++ (path ++ (lit "\") " ++
    (compareOperator mode ++ (lit " " ++ v))))))

def equalsText (s : Source) (path raw : Text) : Text :=
  s.name ++ (lit "(\"" ++ (path ++ (lit "\") == " ++ raw)))

theorem headerContains_iff {t path body : Text} : headerContains t = some (path, body) ↔
    Run notQuote path ∧ IsBody body ∧ t = headerContainsText path body := by
  constructor
  · intro h
    simp only [headerContains, Option.bind_eq_bind, Option.bind_eq_some_iff, Prod.exists,
      expect_iff] at h
    obtain ⟨t₁, rfl, p, t₂, hpath, t₃, rfl, b, t₄, hb, hc⟩ := h
    obtain ⟨rfl, hrun⟩ := run_sound hpath
    obtain ⟨rfl, hbody⟩ := literalBody_sound hb
    obtain ⟨rfl, heq⟩ := Option.ite_some_none_eq_some.1 hc
    obtain ⟨rfl, rfl⟩ := Prod.mk.inj heq
    exact ⟨hrun, hbody, rfl⟩
  · rintro ⟨hrun, hbody, rfl⟩
    simp only [headerContains, headerContainsText, Option.bind_eq_bind, expect_append,
      Option.bind_some]
    rw [run_append hrun rfl (by decide)]
    have hlit : literalBody (body ++ lit "\")") = some (body, lit ")") := hbody _
    simp only [Option.bind_some, expect_append, hlit, if_true]

theorem paramContains_iff {t path body : Text} : paramContains t = some (path, body) ↔
    Run notQuote path ∧ IsBody body ∧ t = paramContainsText path body := by
  constructor
  · intro h
    simp only [paramContains, Option.bind_eq_bind, Option.bind_eq_some_iff, Prod.exists,
      expect_iff] at h
    obtain ⟨t₁, rfl, p, t₂, hpath, t₃, rfl, q, t₄, hagain, t₅, rfl, b, t₆, hb, hc⟩ := h
    obtain ⟨rfl, hrun⟩ := run_sound hpath
    obtain ⟨rfl, -⟩ := run_sound hagain
    obtain ⟨rfl, hbody⟩ := literalBody_sound hb
    obtain ⟨⟨rfl, rfl⟩, heq⟩ := Option.ite_some_none_eq_some.1 hc
    obtain ⟨rfl, rfl⟩ := Prod.mk.inj heq
    exact ⟨hrun, hbody, rfl⟩
  · rintro ⟨hrun, hbody, rfl⟩
    simp only [paramContains, paramContainsText, Option.bind_eq_bind, expect_append,
      Option.bind_some]
    rw [run_append hrun rfl (by decide)]
    simp only [Option.bind_some, expect_append]
    rw [run_append hrun rfl (by decide)]
    have hlit : literalBody (body ++ lit "\")") = some (body, lit ")") := hbody _
    simp only [Option.bind_some, expect_append, hlit, and_self, if_true]

theorem paramCompare_iff {t : Text} {c : RequestCondition} : paramCompare t = some c ↔
    ∃ path mode v, Run notQuote path ∧ mode ∈ [MatchMode.gt, .gte, .lt, .lte] ∧ Run numeric v ∧
      t = paramCompareText path mode v ∧
      c = .paramHeader { source := .param, path, mode, value := v } := by
  constructor
  · intro h
    simp only [paramCompare, Option.bind_eq_bind, Option.bind_eq_some_iff, Prod.exists,
      expect_iff] at h
    obtain ⟨t₁, rfl, p, t₂, hpath, t₃, rfl, q, t₄, hagain, t₅, rfl, mode, t₆, hmode, v, t₇, hv,
      hc⟩ := h
    obtain ⟨rfl, hrun⟩ := run_sound hpath
    obtain ⟨rfl, -⟩ := run_sound hagain
    obtain ⟨hmem, rfl⟩ := operator_sound hmode
    obtain ⟨rfl, hvalue⟩ := run_sound hv
    obtain ⟨⟨rfl, rfl⟩, rfl⟩ := Option.ite_some_none_eq_some.1 hc
    exact ⟨p, mode, v, hrun, hmem, hvalue, by rw [List.append_nil]; rfl, rfl⟩
  · rintro ⟨path, mode, v, hrun, hmode, hv, rfl, rfl⟩
    simp only [paramCompare, paramCompareText, Option.bind_eq_bind, expect_append,
      Option.bind_some]
    rw [run_append hrun rfl (by decide)]
    simp only [Option.bind_some, expect_append]
    rw [run_append hrun rfl (by decide)]
    simp only [Option.bind_some, expect_append, compareOperator_append hmode]
    rw [run_all hv]
    simp only [Option.bind_some, and_self, if_true]

theorem equals_iff {t path raw : Text} {s : Source} : equals t = some (s, path, raw) ↔
    Run notQuote path ∧ raw ≠ [] ∧ (∀ c ∈ raw, isLineTerminator c = false) ∧
      t = equalsText s path raw := by
  constructor
  · intro h
    simp only [equals, Option.bind_eq_bind, Option.bind_eq_some_iff, Prod.exists,
      expect_iff] at h
    obtain ⟨s', t₁, hs, t₂, rfl, p, t₃, hpath, r, rfl, hc⟩ := h
    have h₁ := sourceName_sound hs
    obtain ⟨rfl, hrun⟩ := run_sound hpath
    obtain ⟨⟨hne, hall⟩, heq⟩ := Option.ite_some_none_eq_some.1 hc
    obtain ⟨rfl, hpair⟩ := Prod.mk.inj heq
    obtain ⟨rfl, rfl⟩ := Prod.mk.inj hpair
    exact ⟨hrun, hne, by simpa using hall, h₁⟩
  · rintro ⟨hrun, hne, hall, rfl⟩
    simp only [equals, equalsText, sourceName_append, Option.bind_eq_bind, expect_append,
      Option.bind_some]
    rw [run_append hrun rfl (by decide)]
    have hcond : raw ≠ [] ∧ raw.all (!isLineTerminator ·) = true := ⟨hne, by simpa using hall⟩
    simp only [Option.bind_some, expect_append, if_pos hcond]

theorem factorParts_iff {part cond multiplier : Text} :
    factorParts part = some (cond, multiplier) ↔ cond ≠ [] ∧ Run numeric multiplier ∧
      part = lit "(" ++ (cond ++ (lit " ? " ++ (multiplier ++ lit " : 1)"))) := by
  constructor
  · intro h
    simp only [factorParts, Option.bind_eq_bind, Option.bind_eq_some_iff, Prod.exists,
      expect_iff, expectEnd_iff, runEnd_iff] at h
    obtain ⟨t₁, rfl, t₂, rfl, t₃, m, ⟨rfl, hne, hall, -⟩, c, rfl, hc⟩ := h
    split at hc
    · cases hc
    · obtain ⟨rfl, rfl⟩ := Prod.mk.inj (Option.some.inj hc)
      exact ⟨‹_›, ⟨hne, hall⟩, by simp only [List.append_assoc]⟩
  · rintro ⟨hne, hrun, rfl⟩
    have hend : expectEnd (lit " : 1)") (cond ++ (lit " ? " ++ (multiplier ++ lit " : 1)"))) =
        some (cond ++ lit " ? " ++ multiplier) :=
      expectEnd_iff.2 (by simp only [List.append_assoc])
    have hrunEnd : runEnd numeric (cond ++ lit " ? " ++ multiplier) =
        some (cond ++ lit " ? ", multiplier) := by
      refine runEnd_iff.2 ⟨rfl, hrun.1, hrun.2, ?_⟩
      intro c hc
      have hlast : (cond ++ lit " ? ").getLast? = some 32 := by
        rw [List.getLast?_append]
        rfl
      obtain rfl := Option.some.inj (hlast.symm.trans hc)
      decide
    have hcond : expectEnd (lit " ? ") (cond ++ lit " ? ") = some cond := expectEnd_iff.2 rfl
    simp only [factorParts, Option.bind_eq_bind, expect_append, Option.bind_some, hend, hrunEnd,
      hcond, if_neg hne]

end CodeGo.BillingExpr
