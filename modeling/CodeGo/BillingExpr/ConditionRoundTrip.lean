import CodeGo.BillingExpr.RulePatterns

/-!
# Conditions that are read back

The text that is printed for a complete condition, and when it is read as that condition.
-/

namespace CodeGo.BillingExpr

open CodeGo.Lib CodeGo.Lib.JsText CodeGo.Lib.Pattern

theorem numeric_of_isDigit {c : UInt16} (h : isDigit c = true) : numeric c = true := by
  simp [numeric, h]

theorem exponentPart_numeric {t : Text} (h : exponentPart t = true) : ∀ c ∈ t, numeric c = true := by
  cases t with
  | nil => simp
  | cons e t =>
    simp only [exponentPart] at h
    split at h
    · rename_i he
      have hstart : numeric e = true := by rcases he with rfl | rfl <;> decide
      simp only [Bool.and_eq_true, List.all_eq_true] at h
      intro c hc
      rcases List.mem_cons.1 hc with rfl | hc
      · exact hstart
      · cases t with
        | nil => cases hc
        | cons s r =>
          dsimp only at h
          split at h
          · rename_i hs
            rcases List.mem_cons.1 hc with rfl | hc
            · rcases hs with rfl | rfl <;> decide
            · exact numeric_of_isDigit (h.2 c hc)
          · exact numeric_of_isDigit (h.2 c hc)
    · cases h

theorem takeWhile_numeric {t : Text} (h : ∀ c ∈ t.dropWhile isDigit, numeric c = true) :
    ∀ c ∈ t, numeric c = true := by
  intro c hc
  rw [← List.takeWhile_append_dropWhile (p := isDigit) (l := t)] at hc
  rcases List.mem_append.1 hc with hc | hc
  · exact numeric_of_isDigit (List.mem_takeWhile_imp hc)
  · exact h c hc

theorem unsignedLiteral_numeric {t : Text} (h : unsignedLiteral t = true) :
    t ≠ [] ∧ ∀ c ∈ t, numeric c = true := by
  constructor
  · rintro rfl
    revert h
    decide
  · apply takeWhile_numeric
    unfold unsignedLiteral at h
    cases hrest : t.dropWhile isDigit with
    | nil => simp
    | cons c r =>
      rw [hrest] at h
      simp only [fractionPart] at h
      split at h
      · rename_i hpoint
        rw [Bool.and_eq_true] at h
        intro d hd
        rcases List.mem_cons.1 hd with rfl | hd
        · subst hpoint
          decide
        · exact takeWhile_numeric (exponentPart_numeric h.2) d hd
      · rw [Bool.and_eq_true] at h
        exact exponentPart_numeric h.2

theorem numericLiteral_run {t : Text} (h : numericLiteral t = true) : Run numeric t := by
  cases t with
  | nil => cases h
  | cons c t =>
    simp only [numericLiteral] at h
    split at h
    · rename_i hminus
      obtain ⟨-, hall⟩ := unsignedLiteral_numeric h
      refine ⟨by simp, ?_⟩
      intro d hd
      rcases List.mem_cons.1 hd with rfl | hd
      · subst hminus
        decide
      · exact hall d hd
    · exact unsignedLiteral_numeric h

theorem trim_eq_self_iff {t : Text} : trim t = t ↔
    (∀ c, t.head? = some c → isSpace c = false) ∧ ∀ c, t.getLast? = some c → isSpace c = false :=
  Trim.trimList_eq_self_iff

theorem numeric_not_space {c : UInt16} (h : numeric c = true) : isSpace c = false := by
  have hlow : 43 ≤ c.toNat ∧ c.toNat ≤ 101 := by
    simp only [numeric, isDigit, Bool.or_eq_true, Bool.and_eq_true, decide_eq_true_eq] at h
    rcases h with ⟨hlo, hhi⟩ | h
    · have h48 : 48 ≤ c.toNat := UInt16.le_iff_toNat_le.1 hlo
      have h57 : c.toNat ≤ 57 := UInt16.le_iff_toNat_le.1 hhi
      omega
    · simp only [List.contains_iff_mem] at h
      have hmem : c ∈ [(46 : UInt16), 101, 69, 43, 45] := h
      simp only [List.mem_cons, List.not_mem_nil, or_false] at hmem
      rcases hmem with rfl | rfl | rfl | rfl | rfl <;> decide
  simp only [isSpace]
  simp
  omega

theorem trim_run_numeric {t : Text} (h : Run numeric t) : trim t = t := by
  rw [trim_eq_self_iff]
  exact ⟨fun c hc => numeric_not_space (h.2 c (List.mem_of_mem_head? hc)),
    fun c hc => numeric_not_space (h.2 c (List.mem_of_getLast? hc))⟩

/-- A condition that the editor saves: normalized, with a path or a time zone and with a value that
its mode takes. -/
def Complete (c : RequestCondition) : Prop :=
  normalizeCondition c = c ∧
  match c with
  | .paramHeader c => c.path ≠ [] ∧ trim c.path = c.path ∧ trim c.value = c.value ∧
    (c.mode ∈ [MatchMode.gt, .gte, .lt, .lte] → numericLiteral c.value = true)
  | .time c => c.timezone ≠ [] ∧ trim c.timezone = c.timezone ∧
    if c.mode = .range then numericLiteral c.rangeStart = true ∧ numericLiteral c.rangeEnd = true
    else numericLiteral c.value = true

instance (c : RequestCondition) : Decidable (Complete c) :=
  match c with
  | .paramHeader _ => inferInstanceAs (Decidable (_ ∧ _ ∧ _ ∧ _ ∧ (_ → _)))
  | .time c => inferInstanceAs (Decidable (_ ∧ _ ∧ _ ∧
      if c.mode = .range then numericLiteral c.rangeStart = true ∧ numericLiteral c.rangeEnd = true
      else numericLiteral c.value = true))

/-- No character of the path needs an escape, no field is set that the mode does not use, and the
value of a comparison has none of the line separators that are printed as they are. -/
def Readable : RequestCondition → Prop
  | .paramHeader c => escape c.path = c.path ∧ (c.mode = .exist → c.value = []) ∧
    (c.mode = .eq → 0x2028 ∉ c.value ∧ 0x2029 ∉ c.value)
  | .time c => escape c.timezone = c.timezone ∧
    if c.mode = .range then c.value = [] else c.rangeStart = [] ∧ c.rangeEnd = []

/-- What is printed after the operator of an equality. -/
def equalsLiteral (value : Text) : Text := buildExprLiteral .eq value

/-- The ways in which a complete condition is printed. -/
inductive Printed : RequestCondition → Text → Prop where
  | exist {s path value} : Printed (.paramHeader ⟨s, path, .exist, value⟩) (existsText s (escape path))
  | headerContains {path value} : Printed (.paramHeader ⟨.header, path, .contains, value⟩)
      (headerContainsText (escape path) (escape value))
  | paramContains {path value} : Printed (.paramHeader ⟨.param, path, .contains, value⟩)
      (paramContainsText (escape path) (escape value))
  | compare {path mode value} (hmode : mode ∈ [MatchMode.gt, .gte, .lt, .lte])
      (hvalue : numericLiteral value = true) :
      Printed (.paramHeader ⟨.param, path, mode, value⟩)
        (paramCompareText (escape path) mode value)
  | equals {s path value} (hvalue : trim value = value) :
      Printed (.paramHeader ⟨s, path, .eq, value⟩)
        (equalsText s (escape path) (equalsLiteral value))
  | range {f tz value s e} (hs : numericLiteral s = true) (he : numericLiteral e = true) :
      Printed (.time ⟨f, tz, .range, value, s, e⟩) (rangeText f (escape tz) s e)
  | time {f tz mode value s e} (hmode : mode ∈ [MatchMode.eq, .gte, .lt])
      (hvalue : numericLiteral value = true) :
      Printed (.time ⟨f, tz, mode, value, s, e⟩) (compareText f (escape tz) mode value)

theorem printed_paramHeader {c : ParamHeaderCondition} (h : Complete (.paramHeader c)) :
    Printed (.paramHeader c) (buildParamHeaderExpr c) := by
  obtain ⟨hnormal, hpath, htrim, hvalue, hnumeric⟩ := h
  have hnormal := RequestCondition.paramHeader.inj hnormal
  obtain ⟨s, path, mode, value⟩ := c
  have hmode : mode ∈ matchOptions s := by
    by_contra hno
    have heq : mode = .eq := by
      have := congrArg ParamHeaderCondition.mode hnormal
      simpa [normalizeParamHeader, hno] using this.symm
    apply hno
    rw [heq]
    cases s <;> decide
  dsimp only at hpath htrim hvalue hnumeric
  simp only [buildParamHeaderExpr, hnormal, htrim, if_neg hpath]
  cases s with
  | header =>
    simp only [matchOptions, List.mem_cons, List.not_mem_nil, or_false] at hmode
    rcases hmode with rfl | rfl | rfl
    · simp only [Source.name, quote, List.append_assoc, List.cons_append]
      exact Printed.equals hvalue
    · simp only [buildExprLiteral, hvalue, if_true, Source.name, quote, List.append_assoc,
        List.cons_append]
      exact Printed.headerContains
    · simp only [if_true, Source.name, quote, List.append_assoc, List.cons_append]
      exact Printed.exist
  | param =>
    simp only [matchOptions, List.mem_cons, List.not_mem_nil, or_false] at hmode
    have hparam : ¬ Source.param = Source.header := by decide
    rcases hmode with rfl | rfl | rfl | rfl | rfl | rfl | rfl
    · simp only [Source.name, quote, List.append_assoc, List.cons_append]
      exact Printed.equals hvalue
    · simp only [buildExprLiteral, hvalue, if_true, if_neg hparam, Source.name, quote,
        List.append_assoc, List.cons_append]
      exact Printed.paramContains
    · simp only [if_neg hparam, Source.name, quote, List.append_assoc, List.cons_append]
      exact Printed.exist
    all_goals
      have hnum := hnumeric (by decide)
      simp only [hvalue, hnum, if_true, Source.name, quote, List.append_assoc, List.cons_append]
      exact Printed.compare (by decide) hnum

theorem printed_time {c : TimeCondition} (h : Complete (.time c)) :
    Printed (.time c) (buildTimeConditionExpr c) := by
  obtain ⟨hnormal, -, -, hvalue⟩ := h
  have hnormal := RequestCondition.time.inj hnormal
  obtain ⟨f, tz, mode, value, s, e⟩ := c
  have hmode : mode ∈ timeMatchOptions := by
    by_contra hno
    have heq : mode = .gte := by
      have := congrArg TimeCondition.mode hnormal
      simpa [normalizeTime, hno] using this.symm
    apply hno
    rw [heq]
    decide
  dsimp only at hvalue
  simp only [timeMatchOptions, List.mem_cons, List.not_mem_nil, or_false] at hmode
  have hsingle : ∀ m, mode = m → m ∈ [MatchMode.eq, .gte, .lt] →
      Printed (.time ⟨f, tz, mode, value, s, e⟩)
        (buildTimeConditionExpr ⟨f, tz, mode, value, s, e⟩) := by
    rintro m rfl hm
    have hrange : ¬ mode = .range := by
      rintro rfl
      revert hm
      decide
    rw [if_neg hrange] at hvalue
    simp only [buildTimeConditionExpr, hnormal, if_neg hrange,
      trim_run_numeric (numericLiteral_run hvalue), hvalue, if_true, quote, List.append_assoc,
      List.cons_append]
    exact Printed.time hm hvalue
  rcases hmode with rfl | rfl | rfl | rfl
  · exact hsingle _ rfl (by decide)
  · exact hsingle _ rfl (by decide)
  · exact hsingle _ rfl (by decide)
  · rw [if_pos rfl] at hvalue
    simp only [buildTimeConditionExpr, hnormal, if_true,
      trim_run_numeric (numericLiteral_run hvalue.1),
      trim_run_numeric (numericLiteral_run hvalue.2), hvalue.1, hvalue.2, Bool.and_self, quote,
      List.append_assoc, List.cons_append]
    exact Printed.range hvalue.1 hvalue.2

theorem printed {c : RequestCondition} (h : Complete c) :
    Printed c (buildRequestConditionExpr c) := by
  cases c with
  | paramHeader c => exact printed_paramHeader h
  | time c => exact printed_time h

/-- A character that is part of no separator and that `trim` keeps. -/
def Firm (c : UInt16) : Prop := isSpace c = false ∧ c ≠ 38 ∧ c ≠ 42

instance (c : UInt16) : Decidable (Firm c) := inferInstanceAs (Decidable (_ ∧ _ ∧ _))

def Starts (t : Text) : Prop := ∃ c, t.head? = some c ∧ Firm c

def Stops (t : Text) : Prop := ∃ c, t.getLast? = some c ∧ Firm c

theorem Starts.append {s : Text} (h : Starts s) (t : Text) : Starts (s ++ t) := by
  obtain ⟨c, hc, hfirm⟩ := h
  exact ⟨c, by rw [List.head?_append, hc]; rfl, hfirm⟩

theorem Stops.append {t : Text} (h : Stops t) (s : Text) : Stops (s ++ t) := by
  obtain ⟨c, hc, hfirm⟩ := h
  exact ⟨c, by rw [List.getLast?_append, hc]; rfl, hfirm⟩

theorem trim_of_ends {t : Text} (hs : Starts t) (he : Stops t) : trim t = t := by
  obtain ⟨c, hc, hfirm⟩ := hs
  obtain ⟨d, hd, hlast⟩ := he
  rw [trim_eq_self_iff]
  constructor
  · intro x hx
    obtain rfl := Option.some.inj (hc.symm.trans hx)
    exact hfirm.1
  · intro x hx
    obtain rfl := Option.some.inj (hd.symm.trans hx)
    exact hlast.1

theorem Starts.ne_nil {t : Text} (h : Starts t) : t ≠ [] := by
  rintro rfl
  obtain ⟨c, hc, -⟩ := h
  cases hc

theorem stops_of_run {t : Text} (h : Run numeric t) : Stops t := by
  have hlast := List.getLast?_eq_some_getLast h.1
  have hnum := h.2 _ (List.getLast_mem h.1)
  refine ⟨_, hlast, numeric_not_space hnum, ?_, ?_⟩
  · intro heq
    rw [heq] at hnum
    revert hnum
    decide
  · intro heq
    rw [heq] at hnum
    revert hnum
    decide

theorem timeName_starts (f : TimeFunc) : Starts f.name := by
  cases f
  · exact ⟨104, rfl, by decide⟩
  · exact ⟨109, rfl, by decide⟩
  · exact ⟨119, rfl, by decide⟩
  · exact ⟨109, rfl, by decide⟩
  · exact ⟨100, rfl, by decide⟩

theorem sourceName_starts (s : Source) : Starts s.name := by
  cases s
  · exact ⟨112, rfl, by decide⟩
  · exact ⟨104, rfl, by decide⟩

/-- A value is printed as a word, as a number, or as a string. -/
theorem equalsLiteral_cases {v : Text} (h : trim v = v) :
    (equalsLiteral v = v ∧ (v = lit "true" ∨ v = lit "false" ∨ numericLiteral v = true)) ∨
      equalsLiteral v = quote v := by
  unfold equalsLiteral buildExprLiteral
  rw [h]
  have hmode : ¬ (MatchMode.eq = MatchMode.contains) := by decide
  simp only [if_neg hmode]
  split
  · rename_i hword
    rcases hword with hword | hword
    · exact .inl ⟨rfl, .inl hword⟩
    · exact .inl ⟨rfl, .inr (.inl hword)⟩
  · split
    · exact .inl ⟨rfl, .inr (.inr ‹_›)⟩
    · exact .inr rfl

theorem quote_stops (v : Text) : Stops (quote v) := by
  refine ⟨quotationMark, ?_, by decide⟩
  unfold quote
  exact List.getLast?_concat

theorem equalsLiteral_stops {v : Text} (h : trim v = v) : Stops (equalsLiteral v) := by
  rcases equalsLiteral_cases h with ⟨heq, hv⟩ | heq
  · rw [heq]
    rcases hv with rfl | rfl | hnum
    · exact ⟨101, rfl, by decide⟩
    · exact ⟨101, rfl, by decide⟩
    · exact stops_of_run (numericLiteral_run hnum)
  · rw [heq]
    exact quote_stops v

theorem Printed.starts {c : RequestCondition} {t : Text} (h : Printed c t) : Starts t := by
  cases h with
  | exist => exact (sourceName_starts _).append _
  | headerContains => exact ⟨104, rfl, by decide⟩
  | paramContains => exact ⟨112, rfl, by decide⟩
  | compare => exact ⟨112, rfl, by decide⟩
  | equals => exact (sourceName_starts _).append _
  | range => exact (timeName_starts _).append _
  | time => exact (timeName_starts _).append _

theorem Printed.stops {c : RequestCondition} {t : Text} (h : Printed c t) : Stops t := by
  have hparen : Stops (lit "\")") := ⟨41, rfl, by decide⟩
  cases h with
  | @exist s =>
    have hend : Stops (if s = .header then lit "\") != \"\"" else lit "\") != nil") := by
      cases s
      · exact ⟨108, rfl, by decide⟩
      · exact ⟨34, rfl, by decide⟩
    unfold existsText
    simp only [← List.append_assoc]
    exact hend.append _
  | headerContains =>
    unfold headerContainsText
    simp only [← List.append_assoc]
    exact hparen.append _
  | paramContains =>
    unfold paramContainsText
    simp only [← List.append_assoc]
    exact hparen.append _
  | compare _ hvalue =>
    unfold paramCompareText
    simp only [← List.append_assoc]
    exact (stops_of_run (numericLiteral_run hvalue)).append _
  | equals hvalue =>
    unfold equalsText
    simp only [← List.append_assoc]
    exact (equalsLiteral_stops hvalue).append _
  | range _ he =>
    unfold rangeText
    simp only [← List.append_assoc]
    exact (stops_of_run (numericLiteral_run he)).append _
  | time _ hvalue =>
    unfold compareText
    simp only [← List.append_assoc]
    exact (stops_of_run (numericLiteral_run hvalue)).append _

theorem literal_not_quoted {v : Text} (h : numericLiteral v = true) :
    v.head? ≠ some quotationMark := by
  intro hq
  have hnum := (numericLiteral_run h).2 _ (List.mem_of_mem_head? hq)
  revert hnum
  decide

theorem quote_head (v : Text) : (quote v).head? = some quotationMark := rfl

/-- What is printed for a value is read as the value. -/
theorem parseExprLiteral_equalsLiteral {v : Text} (h : trim v = v)
    (parseOther : Text → Option Text) :
    parseExprLiteral parseOther (equalsLiteral v) = some v := by
  rcases equalsLiteral_cases h with ⟨heq, hv⟩ | heq
  · rw [heq]
    unfold parseExprLiteral
    rw [h]
    rcases hv with hv | hv | hv
    · rw [if_pos (.inl hv)]
    · rw [if_pos (.inr hv)]
    · simp only [hv, if_true]
      split <;> rfl
  · have htrim : trim (quote v) = quote v :=
      trim_of_ends ⟨quotationMark, rfl, by decide⟩ (quote_stops v)
    have hword : ¬ (quote v = lit "true" ∨ quote v = lit "false") := by
      rintro (hw | hw)
      · have := congrArg List.head? hw
        rw [quote_head] at this
        revert this
        decide
      · have := congrArg List.head? hw
        rw [quote_head] at this
        revert this
        decide
    have hnum : ¬ numericLiteral (quote v) = true := fun hn => literal_not_quoted hn (quote_head v)
    rw [heq]
    unfold parseExprLiteral
    simp only [htrim, if_neg hword, if_neg hnum, quote_head, if_true]
    exact parseString_quote v

/-- Only two of the line separators are printed as they are. -/
theorem equalsLiteral_terminator {v : Text} (h : trim v = v) :
    (∀ c ∈ equalsLiteral v, isLineTerminator c = false) ↔ 0x2028 ∉ v ∧ 0x2029 ∉ v := by
  rcases equalsLiteral_cases h with ⟨heq, hv⟩ | heq
  · have hplain : ∀ c ∈ v, isLineTerminator c = false ∧ c ≠ 0x2028 ∧ c ≠ 0x2029 := by
      rcases hv with rfl | rfl | hnum
      · exact forall_mem_of_all (by decide)
      · exact forall_mem_of_all (by decide)
      · intro c hc
        have hspace := numeric_not_space ((numericLiteral_run hnum).2 c hc)
        refine ⟨?_, ?_, ?_⟩
        · by_contra hterm
          rw [Bool.not_eq_false] at hterm
          simp only [isLineTerminator, Bool.or_eq_true, beq_iff_eq] at hterm
          rcases hterm with ((rfl | rfl) | rfl) | rfl <;> revert hspace <;> decide
        · rintro rfl
          revert hspace
          decide
        · rintro rfl
          revert hspace
          decide
    rw [heq]
    constructor
    · intro _
      exact ⟨fun hmem => (hplain _ hmem).2.1 rfl, fun hmem => (hplain _ hmem).2.2 rfl⟩
    · intro _ c hc
      exact (hplain c hc).1
  · rw [heq]
    constructor
    · intro hno
      have hraw : ∀ x : UInt16, x ∈ v → escapeAlone x = [x] → isHigh x = false ∧ isLow x = false →
          x ∈ quote v := by
        intro x hx hself hpair
        have := mem_escape_of_mem hx hself hpair
        simp [quote, this]
      constructor
      · intro hmem
        exact absurd (hno _ (hraw _ hmem (by decide) (by decide))) (by decide)
      · intro hmem
        exact absurd (hno _ (hraw _ hmem (by decide) (by decide))) (by decide)
    · rintro ⟨h28, h29⟩ c hc
      have hmem : c = quotationMark ∨ c ∈ escape v := by
        simp only [quote, List.cons_append, List.mem_cons, List.mem_append, List.not_mem_nil,
          or_false] at hc
        tauto
      rcases hmem with rfl | hmem
      · decide
      · by_contra hterm
        rw [Bool.not_eq_false] at hterm
        simp only [isLineTerminator, Bool.or_eq_true, beq_iff_eq] at hterm
        rcases mem_escape hmem with hesc | ⟨hv, hle⟩
        · rcases hterm with ((rfl | rfl) | rfl) | rfl <;> revert hesc <;> decide
        · rcases hterm with ((rfl | rfl) | rfl) | rfl
          · revert hle
            decide
          · revert hle
            decide
          · exact h28 hv
          · exact h29 hv

section Reading

/-- A path that is printed as it is can be found again. -/
theorem plain_run {t : Text} (h : escape t = t) (hne : t ≠ []) : Run notQuote t := by
  refine ⟨hne, ?_⟩
  intro c hc
  have hquote := quote_not_mem_of_escape_eq h
  simp only [notQuote, decide_eq_true_eq]
  rintro rfl
  exact hquote hc

/-- The text cannot go on as expected. -/
theorem expect_none {l w r : Text} (h : l.isPrefixOf w = false) (hw : w.isPrefixOf l = false) :
    expect l (w ++ r) = none := by
  unfold expect
  rw [if_neg]
  intro hprefix
  rw [List.isPrefixOf_iff_prefix] at hprefix
  rcases List.prefix_or_prefix_of_prefix hprefix (List.prefix_append w r) with hp | hp
  · rw [List.isPrefixOf_iff_prefix.2 hp] at h
    cases h
  · rw [List.isPrefixOf_iff_prefix.2 hp] at hw
    cases hw

theorem time_none {w r : Text} (hw : w ∈ [lit "param(\"", lit "header(\"", lit "has(header(\""]) :
    tryParseTimeCondition (w ++ r) = none := by
  simp only [List.mem_cons, List.not_mem_nil, or_false] at hw
  have hname : timeName (w ++ r) = none := by
    rcases hw with rfl | rfl | rfl <;> simp [timeName, expect, TimeFunc.name, lit]
  have hparens : expect (lit "(") (w ++ r) = none := by
    rcases hw with rfl | rfl | rfl <;> simp [expect, lit]
  simp [tryParseTimeCondition, timeRange, timeRangeInParens, timeCompare, hname, hparens]

theorem headerExists_none {w r : Text} (hw : w ∈ [lit "param(\"", lit "has(header(\""]) :
    headerExists (w ++ r) = none := by
  simp only [List.mem_cons, List.not_mem_nil, or_false] at hw
  have hstart : expect (lit "header(\"") (w ++ r) = none := by
    rcases hw with rfl | rfl
    · exact expect_none (by decide) (by decide)
    · exact expect_none (by decide) (by decide)
  simp [headerExists, hstart]

theorem param_none {w r : Text} (hw : w ∈ [lit "header(\"", lit "has(header(\""]) :
    paramExists (w ++ r) = none ∧ paramContains (w ++ r) = none ∧ paramCompare (w ++ r) = none := by
  simp only [List.mem_cons, List.not_mem_nil, or_false] at hw
  have hstart : expect (lit "param(\"") (w ++ r) = none := by
    rcases hw with rfl | rfl
    · exact expect_none (by decide) (by decide)
    · exact expect_none (by decide) (by decide)
  simp [paramExists, paramContains, paramCompare, hstart]

theorem headerContains_none {w r : Text} (hw : w ∈ [lit "header(\"", lit "param(\""]) :
    headerContains (w ++ r) = none := by
  simp only [List.mem_cons, List.not_mem_nil, or_false] at hw
  have hstart : expect (lit "has(header(\"") (w ++ r) = none := by
    rcases hw with rfl | rfl
    · exact expect_none (by decide) (by decide)
    · exact expect_none (by decide) (by decide)
  simp [headerContains, hstart]

variable {path : Text} (hrun : Run notQuote path)

include hrun in
theorem read_exist (s : Source) (parseOther : Text → Option Text) :
    tryParseRequestCondition parseOther (existsText s path) = .ok (existsCondition s path) := by
  cases s with
  | header =>
    have htime : tryParseTimeCondition (existsText .header path) = none :=
      time_none (w := lit "header(\"") (by simp)
    have hheader := headerExists_iff.2 ⟨path, hrun, rfl, rfl⟩
    simp only [tryParseRequestCondition, htime, hheader]
    rfl
  | param =>
    have htime : tryParseTimeCondition (existsText .param path) = none :=
      time_none (w := lit "param(\"") (by simp)
    have hheader : headerExists (existsText .param path) = none :=
      headerExists_none (w := lit "param(\"") (by simp)
    have hparam := paramExists_iff.2 ⟨path, hrun, rfl, rfl⟩
    simp only [tryParseRequestCondition, htime, hheader, hparam]
    rfl

include hrun in
theorem read_headerContains (value : Text) (parseOther : Text → Option Text) :
    tryParseRequestCondition parseOther (headerContainsText path (escape value)) =
      .ok (.paramHeader ⟨.header, path, .contains, value⟩) := by
  have htime : tryParseTimeCondition (headerContainsText path (escape value)) = none :=
    time_none (w := lit "has(header(\"") (by simp)
  have hheader : headerExists (headerContainsText path (escape value)) = none :=
    headerExists_none (w := lit "has(header(\"") (by simp)
  have hparam : paramExists (headerContainsText path (escape value)) = none :=
    (param_none (w := lit "has(header(\"") (by simp)).1
  have hfound := headerContains_iff.2 ⟨hrun, isBody_escape value, rfl⟩
  simp only [tryParseRequestCondition, htime, hheader, hparam, hfound]
  simp [containsCondition, unescape_escape]

/-- What the patterns in front of those of a parameter find. -/
theorem param_first (r : Text) :
    tryParseTimeCondition (lit "param(\"" ++ r) = none ∧ headerExists (lit "param(\"" ++ r) = none ∧
      headerContains (lit "param(\"" ++ r) = none :=
  ⟨time_none (by simp), headerExists_none (by simp), headerContains_none (by simp)⟩

include hrun in
theorem paramExists_none {w : Text} (hw : w ≠ lit "\") != nil") (hhead : w.head? = some 34) :
    paramExists (lit "param(\"" ++ (path ++ w)) = none := by
  simp only [paramExists, Option.bind_eq_bind, expect_append, Option.bind_some]
  rw [run_append hrun hhead (by decide)]
  simp only [Option.bind_some, if_neg hw]

include hrun in
theorem read_paramContains (value : Text) (parseOther : Text → Option Text) :
    tryParseRequestCondition parseOther (paramContainsText path (escape value)) =
      .ok (.paramHeader ⟨.param, path, .contains, value⟩) := by
  obtain ⟨htime, hheader, hcontains⟩ := param_first (path ++ (lit "\") != nil && has(param(\"" ++
    (path ++ (lit "\"), \"" ++ (escape value ++ lit "\")")))))
  have hexists := paramExists_none hrun (w := lit "\") != nil && has(param(\"" ++
    (path ++ (lit "\"), \"" ++ (escape value ++ lit "\")")))) (by simp [lit]) rfl
  have hfound := paramContains_iff.2 ⟨hrun, isBody_escape value, rfl⟩
  have htext : paramContainsText path (escape value) = lit "param(\"" ++
    (path ++ (lit "\") != nil && has(param(\"" ++ (path ++ (lit "\"), \"" ++
      (escape value ++ lit "\")"))))) := rfl
  rw [htext] at hfound ⊢
  simp only [tryParseRequestCondition, htime, hheader, hexists, hcontains, hfound]
  simp [containsCondition, unescape_escape]

include hrun in
theorem read_compare {mode : MatchMode} {v : Text}
    (hmode : mode ∈ [MatchMode.gt, .gte, .lt, .lte]) (hv : Run numeric v)
    (parseOther : Text → Option Text) :
    tryParseRequestCondition parseOther (paramCompareText path mode v) =
      .ok (.paramHeader ⟨.param, path, mode, v⟩) := by
  obtain ⟨htime, hheader, hcontains⟩ := param_first (path ++ (lit "\") != nil && param(\"" ++
    (path ++ (lit "\") " ++ (compareOperator mode ++ (lit " " ++ v))))))
  have hexists := paramExists_none hrun (w := lit "\") != nil && param(\"" ++
    (path ++ (lit "\") " ++ (compareOperator mode ++ (lit " " ++ v))))) (by simp [lit]) rfl
  have hparam : paramContains (lit "param(\"" ++ (path ++ (lit "\") != nil && param(\"" ++
      (path ++ (lit "\") " ++ (compareOperator mode ++ (lit " " ++ v))))))) = none := by
    simp only [paramContains, Option.bind_eq_bind, expect_append, Option.bind_some]
    rw [run_append hrun rfl (by decide)]
    simp only [Option.bind_some]
    rw [expect_none (by decide) (by decide)]
    rfl
  have hfound := paramCompare_iff.2 ⟨path, mode, v, hrun, hmode, hv, rfl, rfl⟩
  have htext : paramCompareText path mode v = lit "param(\"" ++ (path ++
    (lit "\") != nil && param(\"" ++ (path ++ (lit "\") " ++ (compareOperator mode ++
      (lit " " ++ v)))))) := rfl
  rw [htext] at hfound ⊢
  simp only [tryParseRequestCondition, htime, hheader, hexists, hcontains, hparam, hfound]
  rfl

include hrun in
/-- Before an equality no other pattern matches. -/
theorem equals_first (s : Source) (raw : Text) (parseOther : Text → Option Text) :
    tryParseRequestCondition parseOther (equalsText s path raw) =
      equalsCondition parseOther (equalsText s path raw) := by
  cases s with
  | header =>
    have htext : equalsText .header path raw =
      lit "header(\"" ++ (path ++ (lit "\") == " ++ raw)) := rfl
    have htime : tryParseTimeCondition (equalsText .header path raw) = none :=
      time_none (w := lit "header(\"") (by simp)
    have hheader : headerExists (equalsText .header path raw) = none := by
      rw [htext]
      simp only [headerExists, Option.bind_eq_bind, expect_append, Option.bind_some]
      rw [run_append hrun rfl (by decide)]
      have hne : ¬ lit "\") == " ++ raw = lit "\") != \"\"" := by simp [lit]
      simp only [Option.bind_some, if_neg hne]
    have hcontains : headerContains (equalsText .header path raw) = none :=
      headerContains_none (w := lit "header(\"") (by simp)
    obtain ⟨hexists, hparam, hcompare⟩ : paramExists (equalsText .header path raw) = none ∧
        paramContains (equalsText .header path raw) = none ∧
        paramCompare (equalsText .header path raw) = none :=
      param_none (w := lit "header(\"") (by simp)
    simp only [tryParseRequestCondition, htime, hheader, hcontains, hexists, hparam, hcompare]
    rfl
  | param =>
    have htext : equalsText .param path raw =
      lit "param(\"" ++ (path ++ (lit "\") == " ++ raw)) := rfl
    obtain ⟨htime, hheader, hcontains⟩ := param_first (path ++ (lit "\") == " ++ raw))
    have hexists := paramExists_none hrun (w := lit "\") == " ++ raw) (by simp [lit]) rfl
    have hparam : paramContains (lit "param(\"" ++ (path ++ (lit "\") == " ++ raw))) = none := by
      simp only [paramContains, Option.bind_eq_bind, expect_append, Option.bind_some]
      rw [run_append hrun rfl (by decide)]
      simp only [Option.bind_some]
      rw [expect_none (by decide) (by decide)]
      rfl
    have hcompare : paramCompare (lit "param(\"" ++ (path ++ (lit "\") == " ++ raw))) = none := by
      simp only [paramCompare, Option.bind_eq_bind, expect_append, Option.bind_some]
      rw [run_append hrun rfl (by decide)]
      simp only [Option.bind_some]
      rw [expect_none (by decide) (by decide)]
      rfl
    rw [htext]
    simp only [tryParseRequestCondition, htime, hheader, hexists, hcontains, hparam, hcompare]
    rfl

include hrun in
theorem read_equals {s : Source} {v : Text} (hv : trim v = v) (hsep : 0x2028 ∉ v ∧ 0x2029 ∉ v)
    (parseOther : Text → Option Text) :
    tryParseRequestCondition parseOther (equalsText s path (equalsLiteral v)) =
      .ok (.paramHeader ⟨s, path, .eq, v⟩) := by
  have hne : equalsLiteral v ≠ [] := by
    obtain ⟨c, hc, -⟩ := equalsLiteral_stops hv
    intro hnil
    rw [hnil] at hc
    cases hc
  have hfound : equals (equalsText s path (equalsLiteral v)) =
      some (s, path, equalsLiteral v) :=
    equals_iff.2 ⟨hrun, hne, (equalsLiteral_terminator hv).2 hsep, rfl⟩
  rw [equals_first hrun]
  simp only [equalsCondition, hfound, parseExprLiteral_equalsLiteral hv]

theorem read_range {f : TimeFunc} {s e : Text} (hrun : Run notQuote path) (hs : Run numeric s)
    (he : Run numeric e) (parseOther : Text → Option Text) :
    tryParseRequestCondition parseOther (rangeText f path s e) =
        .ok (.time ⟨f, path, .range, [], s, e⟩) ∧
      tryParseRequestCondition parseOther (lit "(" ++ (rangeText f path s e ++ lit ")")) =
        .ok (.time ⟨f, path, .range, [], s, e⟩) := by
  have hfound := timeRange_iff.2 ⟨f, path, s, e, hrun, hs, he, rfl, rfl⟩
  constructor
  · simp only [tryParseRequestCondition, tryParseTimeCondition, hfound]
    rfl
  · have hparens := timeRangeInParens_iff.2 ⟨_, hfound, rfl⟩
    have hbare : timeRange (lit "(" ++ (rangeText f path s e ++ lit ")")) = none := by
      have hname : timeName (lit "(" ++ (rangeText f path s e ++ lit ")")) = none := by
        simp [timeName, expect, TimeFunc.name, lit]
      simp [timeRange, hname]
    simp only [tryParseRequestCondition, tryParseTimeCondition, hbare, hparens]
    rfl

theorem read_time {f : TimeFunc} {mode : MatchMode} {v : Text} (hrun : Run notQuote path)
    (hmode : mode ∈ [MatchMode.eq, .gte, .lt]) (hv : Run numeric v)
    (parseOther : Text → Option Text) :
    tryParseRequestCondition parseOther (compareText f path mode v) =
      .ok (.time ⟨f, path, mode, v, [], []⟩) := by
  have hfound := timeCompare_iff.2 ⟨f, path, mode, v, hrun, hmode, hv, rfl, rfl⟩
  have hrange : timeRange (compareText f path mode v) = none := by
    simp only [timeRange, compareText, timeName_append, Option.bind_eq_bind, Option.bind_some,
      expect_append]
    rw [run_append hrun rfl (by decide)]
    simp only [List.mem_cons, List.not_mem_nil, or_false] at hmode
    simp only [Option.bind_some]
    rcases hmode with rfl | rfl | rfl
    · simp [timeOperator, expect, lit]
    · have hge : lit "\") " ++ (timeOperator .gte ++ (lit " " ++ v)) = lit "\") >= " ++ v := rfl
      rw [hge, expect_append, Option.bind_some, run_all hv]
      rfl
    · simp [timeOperator, expect, lit]
  have hparens : timeRangeInParens (compareText f path mode v) = none := by
    have hstart : expect (lit "(") (compareText f path mode v) = none := by
      cases f <;> simp [compareText, TimeFunc.name, expect, lit]
    simp [timeRangeInParens, hstart]
  simp only [tryParseRequestCondition, tryParseTimeCondition, hrange, hparens, hfound]
  rfl

/-- A condition that can be read is read as what it was. -/
theorem Printed.read {c : RequestCondition} {t : Text} (h : Printed c t) (hc : Complete c)
    (hr : Readable c) (parseOther : Text → Option Text) :
    tryParseRequestCondition parseOther t = .ok c := by
  obtain ⟨-, hrest⟩ := hc
  cases h with
  | @exist s path value =>
    obtain ⟨hpath, hvalue, -⟩ := hr
    obtain rfl := hvalue rfl
    dsimp only at hpath
    rw [hpath]
    exact read_exist (plain_run hpath hrest.1) s parseOther
  | headerContains =>
    have hpath := hr.1
    dsimp only at hpath
    rw [hpath]
    exact read_headerContains (plain_run hpath hrest.1) _ parseOther
  | paramContains =>
    have hpath := hr.1
    dsimp only at hpath
    rw [hpath]
    exact read_paramContains (plain_run hpath hrest.1) _ parseOther
  | compare hmode hvalue =>
    have hpath := hr.1
    dsimp only at hpath
    rw [hpath]
    exact read_compare (plain_run hpath hrest.1) hmode (numericLiteral_run hvalue) parseOther
  | equals hvalue =>
    obtain ⟨hpath, -, hsep⟩ := hr
    dsimp only at hpath
    rw [hpath]
    exact read_equals (plain_run hpath hrest.1) hvalue (hsep rfl) parseOther
  | range hs he =>
    obtain ⟨hpath, hunused⟩ := hr
    rw [if_pos rfl] at hunused
    dsimp only at hpath hunused
    rw [hpath, hunused]
    exact (read_range (plain_run hpath hrest.1) (numericLiteral_run hs) (numericLiteral_run he)
      parseOther).1
  | time hmode hvalue =>
    obtain ⟨hpath, hunused⟩ := hr
    have hrange : ∀ m : MatchMode, m ∈ [MatchMode.eq, .gte, .lt] → m ≠ .range := by
      rintro m hm rfl
      revert hm
      decide
    rw [if_neg (hrange _ hmode)] at hunused
    dsimp only at hpath hunused
    rw [hpath, hunused.1, hunused.2]
    exact read_time (plain_run hpath hrest.1) hmode (numericLiteral_run hvalue) parseOther

end Reading

end CodeGo.BillingExpr
