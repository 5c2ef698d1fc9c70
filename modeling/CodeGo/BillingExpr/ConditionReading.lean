import CodeGo.BillingExpr.ConditionRoundTrip

/-!
# Reading a piece of a rule

A piece that is read as a condition, and that starts where the condition was printed, is the text of
the condition.
-/

namespace CodeGo.BillingExpr

open CodeGo.Lib.JsText CodeGo.Lib.Pattern

section Read

/-- The texts that are read as a condition. -/
inductive ReadAs (parseOther : Text → Option Text) : Text → RequestCondition → Prop where
  | exist {s path} (hpath : Run notQuote path) :
      ReadAs parseOther (existsText s path) (existsCondition s path)
  | headerContains {path body value} (hpath : Run notQuote path) (hbody : IsBody body)
      (hvalue : unescape body = some value) :
      ReadAs parseOther (headerContainsText path body)
        (.paramHeader ⟨.header, path, .contains, value⟩)
  | paramContains {path body value} (hpath : Run notQuote path) (hbody : IsBody body)
      (hvalue : unescape body = some value) :
      ReadAs parseOther (paramContainsText path body)
        (.paramHeader ⟨.param, path, .contains, value⟩)
  | compare {path mode value} (hpath : Run notQuote path)
      (hmode : mode ∈ [MatchMode.gt, .gte, .lt, .lte]) :
      ReadAs parseOther (paramCompareText path mode value)
        (.paramHeader ⟨.param, path, mode, value⟩)
  | equals {s path raw value} (hpath : Run notQuote path) (hne : raw ≠ [])
      (hraw : ∀ c ∈ raw, isLineTerminator c = false)
      (hvalue : parseExprLiteral parseOther raw = some value) :
      ReadAs parseOther (equalsText s path raw) (.paramHeader ⟨s, path, .eq, value⟩)
  | range {f tz s e} (hpath : Run notQuote tz) :
      ReadAs parseOther (rangeText f tz s e) (.time ⟨f, tz, .range, [], s, e⟩)
  | rangeInParens {f tz s e} (hpath : Run notQuote tz) :
      ReadAs parseOther (lit "(" ++ (rangeText f tz s e ++ lit ")"))
        (.time ⟨f, tz, .range, [], s, e⟩)
  | time {f tz mode value} (hpath : Run notQuote tz) (hmode : mode ∈ [MatchMode.eq, .gte, .lt]) :
      ReadAs parseOther (compareText f tz mode value) (.time ⟨f, tz, mode, value, [], []⟩)

variable {parseOther : Text → Option Text}

theorem readAs_time {t : Text} {c : RequestCondition} (h : tryParseTimeCondition t = some c) :
    ReadAs parseOther t c := by
  unfold tryParseTimeCondition at h
  cases hrange : timeRange t with
  | some d =>
    rw [hrange] at h
    obtain rfl := Option.some.inj h
    obtain ⟨f, tz, s, e, htz, -, -, rfl, rfl⟩ := timeRange_iff.1 hrange
    exact ReadAs.range htz
  | none =>
    cases hparens : timeRangeInParens t with
    | some d =>
      rw [hrange, hparens] at h
      obtain rfl := Option.some.inj h
      obtain ⟨u, hu, rfl⟩ := timeRangeInParens_iff.1 hparens
      obtain ⟨f, tz, s, e, htz, -, -, rfl, rfl⟩ := timeRange_iff.1 hu
      exact ReadAs.rangeInParens htz
    | none =>
      rw [hrange, hparens] at h
      obtain ⟨f, tz, mode, v, htz, hmode, -, rfl, rfl⟩ := timeCompare_iff.1 h
      exact ReadAs.time htz hmode

theorem containsCondition_ok {s : Source} {path body : Text} {c : RequestCondition}
    (h : containsCondition s path body = .ok c) :
    ∃ value, unescape body = some value ∧ c = .paramHeader ⟨s, path, .contains, value⟩ := by
  unfold containsCondition at h
  split at h
  · exact ⟨_, ‹_›, (Except.ok.inj h).symm⟩
  · cases h

/-- What is read as a condition has one of the texts. -/
theorem readAs {t : Text} {c : RequestCondition}
    (h : tryParseRequestCondition parseOther t = .ok c) : ReadAs parseOther t c := by
  unfold tryParseRequestCondition at h
  cases htime : tryParseTimeCondition t with
  | some d =>
    rw [htime] at h
    obtain rfl := Except.ok.inj h
    exact readAs_time htime
  | none =>
    cases hheader : headerExists t with
    | some d =>
      rw [htime, hheader] at h
      obtain rfl := Except.ok.inj h
      obtain ⟨path, hpath, rfl, rfl⟩ := headerExists_iff.1 hheader
      exact ReadAs.exist hpath
    | none =>
      cases hparam : paramExists t with
      | some d =>
        rw [htime, hheader, hparam] at h
        obtain rfl := Except.ok.inj h
        obtain ⟨path, hpath, rfl, rfl⟩ := paramExists_iff.1 hparam
        exact ReadAs.exist hpath
      | none =>
        rw [htime, hheader, hparam] at h
        rw [show (none <|> none <|> none : Option RequestCondition) = none from rfl] at h
        dsimp only at h
        split at h
        · rename_i path body hfound
          obtain ⟨hpath, hbody, rfl⟩ := headerContains_iff.1 hfound
          obtain ⟨value, hvalue, rfl⟩ := containsCondition_ok h
          exact ReadAs.headerContains hpath hbody hvalue
        · split at h
          · rename_i path body hfound
            obtain ⟨hpath, hbody, rfl⟩ := paramContains_iff.1 hfound
            obtain ⟨value, hvalue, rfl⟩ := containsCondition_ok h
            exact ReadAs.paramContains hpath hbody hvalue
          · split at h
            · rename_i d hfound
              obtain rfl := Except.ok.inj h
              obtain ⟨path, mode, v, hpath, hmode, -, rfl, rfl⟩ := paramCompare_iff.1 hfound
              exact ReadAs.compare hpath hmode
            · unfold equalsCondition at h
              split at h
              · cases h
              · rename_i s path raw hfound
                obtain ⟨hpath, hne, hraw, rfl⟩ := equals_iff.1 hfound
                split at h
                · cases h
                · obtain rfl := Except.ok.inj h
                  exact ReadAs.equals hpath hne hraw ‹_›

/-- What `JSON.parse` takes beside strings: an object or a list, or a word or a number without white
space. -/
def ParsesScalars (parseOther : Text → Option Text) : Prop :=
  ∀ t v, parseOther t = some v →
    t.head? = some 123 ∨ t.head? = some 91 ∨ ∀ c ∈ t, isSpace c = false

/-- A path that is found in the print of itself was printed as it is. -/
theorem path_unique {p r r' : Text} (hp : Run notQuote p) (hr : r.head? = some quotationMark)
    (hr' : r'.head? = some quotationMark) (h : p ++ r = escape p ++ r') :
    escape p = p ∧ r = r' := by
  have hquote : quotationMark ∉ p := by
    intro hmem
    have := hp.2 _ hmem
    revert this
    decide
  have hescaped : ∀ c ∈ escape p, notQuote c = true := by
    intro c hc
    simp only [notQuote, decide_eq_true_eq]
    rintro rfl
    exact quote_not_mem_escape hquote hc
  have hstop : ∀ s : Text, s.head? = some quotationMark →
      ∀ c, s.head? = some c → notQuote c = false := by
    intro s hs c hc
    obtain rfl := Option.some.inj (hs.symm.trans hc)
    decide
  obtain ⟨htake, hdrop⟩ := takeWhile_run hp.2 (hstop r hr)
  obtain ⟨htake', hdrop'⟩ := takeWhile_run hescaped (hstop r' hr')
  rw [h] at htake hdrop
  exact ⟨htake'.symm.trans htake, hdrop.symm.trans hdrop'⟩

/-- A run without white space in front of white space. -/
theorem word_unique {a b y z : Text} (ha : ∀ c ∈ a, isSpace c = false)
    (hb : ∀ c ∈ b, isSpace c = false) (hy : ∀ c, y.head? = some c → isSpace c = true)
    (hz : ∀ c, z.head? = some c → isSpace c = true) (h : a ++ y = b ++ z) : a = b := by
  have ha' : ∀ c ∈ a, (fun c => !isSpace c) c = true := by
    intro c hc
    simp [ha c hc]
  have hb' : ∀ c ∈ b, (fun c => !isSpace c) c = true := by
    intro c hc
    simp [hb c hc]
  have hy' : ∀ c, y.head? = some c → (fun c => !isSpace c) c = false := by
    intro c hc
    simp [hy c hc]
  have hz' : ∀ c, z.head? = some c → (fun c => !isSpace c) c = false := by
    intro c hc
    simp [hz c hc]
  have htake := (takeWhile_run ha' hy').1
  have htake' := (takeWhile_run hb' hz').1
  rw [h] at htake
  exact htake.symm.trans htake'

/-- What is read as the value of an equality, in front of white space, is what was printed. -/
theorem raw_unique {raw v y tail : Text} (hother : ParsesScalars parseOther) (hv : trim v = v)
    (hread : parseExprLiteral parseOther raw = some v) (hraw : raw ≠ [])
    (hend : ∀ c, raw.getLast? = some c → isSpace c = false)
    (hy : ∀ c, y.head? = some c → isSpace c = true)
    (htail : ∀ c, tail.head? = some c → isSpace c = true)
    (h : raw ++ y = equalsLiteral v ++ tail) : raw = equalsLiteral v := by
  have hhead : raw.head? = (equalsLiteral v).head? := by
    have hne : equalsLiteral v ≠ [] := by
      obtain ⟨c, hc, -⟩ := equalsLiteral_stops hv
      intro hnil
      rw [hnil] at hc
      cases hc
    have := congrArg List.head? h
    rwa [List.head?_append_of_ne_nil _ hraw, List.head?_append_of_ne_nil _ hne] at this
  rcases equalsLiteral_cases hv with ⟨heq, hword⟩ | heq
  · rw [heq] at h hhead ⊢
    have hvspace : ∀ c ∈ v, isSpace c = false := by
      rcases hword with rfl | rfl | hnum
      · exact forall_mem_of_all (by decide)
      · exact forall_mem_of_all (by decide)
      · exact fun c hc => numeric_not_space ((numericLiteral_run hnum).2 c hc)
    have hstart : ∀ c, v.head? = some c → isSpace c = false ∧ c ≠ 123 ∧ c ≠ 91 ∧
        c ≠ quotationMark := by
      rcases hword with rfl | rfl | hnum
      · intro c hc
        obtain rfl : 116 = c := Option.some.inj hc
        decide
      · intro c hc
        obtain rfl : 102 = c := Option.some.inj hc
        decide
      · intro c hc
        have hc' := (numericLiteral_run hnum).2 c (List.mem_of_mem_head? hc)
        refine ⟨numeric_not_space hc', ?_, ?_, ?_⟩
        · rintro rfl
          revert hc'
          decide
        · rintro rfl
          revert hc'
          decide
        · rintro rfl
          revert hc'
          decide
    have htrim : trim raw = raw := by
      rw [trim_eq_self_iff]
      exact ⟨fun c hc => (hstart c (hhead ▸ hc)).1, hend⟩
    have hrawspace : ∀ c ∈ raw, isSpace c = false := by
      unfold parseExprLiteral at hread
      simp only [htrim] at hread
      split at hread
      · rw [Option.some.inj hread]
        exact hvspace
      · split at hread
        · rw [Option.some.inj hread]
          exact hvspace
        · split at hread
          · rename_i hq
            exact absurd rfl (hstart _ (hhead ▸ hq)).2.2.2
          · rcases hother _ _ hread with hbrace | hbracket | hspace
            · exact absurd rfl (hstart _ (hhead ▸ hbrace)).2.1
            · exact absurd rfl (hstart _ (hhead ▸ hbracket)).2.2.1
            · exact hspace
    exact word_unique hrawspace hvspace hy htail h
  · rw [heq] at h hhead ⊢
    have hquote : raw.head? = some quotationMark := hhead
    have htrim : trim raw = raw := by
      rw [trim_eq_self_iff]
      refine ⟨?_, hend⟩
      intro c hc
      obtain rfl := Option.some.inj (hquote.symm.trans hc)
      decide
    unfold parseExprLiteral at hread
    simp only [htrim] at hread
    have hword : ¬ (raw = lit "true" ∨ raw = lit "false") := by
      rintro (hw | hw) <;> (rw [hw] at hquote; revert hquote; decide)
    have hnum : ¬ numericLiteral raw = true := fun hn => literal_not_quoted hn hquote
    rw [if_neg hword, if_neg hnum, if_pos hquote] at hread
    cases raw with
    | nil => exact absurd rfl hraw
    | cons q r =>
      obtain rfl := Option.some.inj hquote
      simp only [parseString, true_and] at hread
      split at hread
      · rename_i hlast
        obtain ⟨b, rfl⟩ : ∃ b, r = b ++ [quotationMark] := by
          have hne : r ≠ [] := by
            rintro rfl
            cases hlast
          refine ⟨r.dropLast, ?_⟩
          have hget := List.getLast?_eq_some_getLast hne
          rw [hlast] at hget
          rw [Option.some.inj hget, List.dropLast_append_getLast]
        rw [List.dropLast_concat] at hread
        have hbody := isBody_of_unescape hread
        have hsame : b ++ quotationMark :: y = escape v ++ quotationMark :: tail := by
          simpa [quote] using h
        rw [(hbody.unique (isBody_escape v) hsame).1]
        rfl
      · cases hread

end Read

section Same

variable {parseOther : Text → Option Text}

theorem Printed.head_ne {c : RequestCondition} {t : Text} (h : Printed c t) :
    t.head? ≠ some 40 := by
  have hsource : ∀ (s : Source) (r : Text), (s.name ++ r).head? ≠ some 40 := by
    intro s r
    cases s <;> simp [Source.name, lit]
  have htime : ∀ (f : TimeFunc) (r : Text), (f.name ++ r).head? ≠ some 40 := by
    intro f r
    cases f <;> simp [TimeFunc.name, lit]
  cases h with
  | exist => exact hsource _ _
  | headerContains => simp [headerContainsText, lit]
  | paramContains => simp [paramContainsText, lit]
  | compare => simp [paramCompareText, lit]
  | equals => exact hsource _ _
  | range => exact htime _ _
  | time => exact htime _ _

/-- The operator of a time shows its mode. -/
theorem mode_not_range {mode : MatchMode} (h : mode ∈ [MatchMode.eq, .gte, .lt]) :
    mode ≠ .range := by
  rintro rfl
  revert h
  decide

theorem mode_not_other {mode : MatchMode} (h : mode ∈ [MatchMode.gt, .gte, .lt, .lte]) :
    mode ≠ .exist ∧ mode ≠ .contains ∧ mode ≠ .eq := by
  refine ⟨?_, ?_, ?_⟩
  · rintro rfl
    revert h
    decide
  · rintro rfl
    revert h
    decide
  · rintro rfl
    revert h
    decide

/-- What is read as a condition where the condition was printed is the whole print of it. -/
theorem Printed.same {c : RequestCondition} {t a y tail : Text} (hother : ParsesScalars parseOther)
    (h : Printed c t) (hread : ReadAs parseOther a c)
    (hend : ∀ d, a.getLast? = some d → isSpace d = false)
    (hy : ∀ d, y.head? = some d → isSpace d = true)
    (htail : ∀ d, tail.head? = some d → isSpace d = true) (heq : a ++ y = t ++ tail) :
    a = t ∧ Readable c := by
  cases hread with
  | @exist s path hpath =>
    cases h with
    | exist =>
      simp only [existsText, List.append_assoc, List.append_cancel_left_eq] at heq
      have hquote : ∀ z : Text, ((if s = .header then lit "\") != \"\"" else lit "\") != nil") ++
          z).head? = some quotationMark := by
        intro z
        cases s <;> rfl
      obtain ⟨hsame, -⟩ := path_unique hpath (hquote y) (hquote tail) heq
      refine ⟨by rw [hsame], hsame, fun _ => rfl, ?_⟩
      intro he
      cases he
    | compare hmode => exact absurd rfl (mode_not_other hmode).1
  | @headerContains path body value hpath hbody hvalue =>
    cases h with
    | headerContains =>
      simp only [headerContainsText, List.append_assoc, List.append_cancel_left_eq] at heq
      obtain ⟨hsame, hrest⟩ := path_unique hpath rfl rfl heq
      have hrest := List.append_cancel_left hrest
      have hb := (hbody.unique (isBody_escape value) hrest).1
      refine ⟨by rw [hsame, hb], hsame, ?_, ?_⟩
      · intro he
        cases he
      · intro he
        cases he
  | @paramContains path body value hpath hbody hvalue =>
    cases h with
    | paramContains =>
      simp only [paramContainsText, List.append_assoc, List.append_cancel_left_eq] at heq
      obtain ⟨hsame, hrest⟩ := path_unique hpath rfl rfl heq
      rw [hsame] at hrest
      simp only [List.append_cancel_left_eq] at hrest
      have hb := (hbody.unique (isBody_escape value) hrest).1
      refine ⟨by rw [hsame, hb], hsame, ?_, ?_⟩
      · intro he
        cases he
      · intro he
        cases he
    | compare hmode => exact absurd rfl (mode_not_other hmode).2.1
  | @compare path mode value hpath hmode =>
    cases h with
    | exist => exact absurd rfl (mode_not_other hmode).1
    | paramContains => exact absurd rfl (mode_not_other hmode).2.1
    | equals => exact absurd rfl (mode_not_other hmode).2.2
    | compare =>
      simp only [paramCompareText, List.append_assoc, List.append_cancel_left_eq] at heq
      obtain ⟨hsame, -⟩ := path_unique hpath rfl rfl heq
      refine ⟨by rw [hsame], hsame, ?_, ?_⟩
      · intro he
        exact absurd he (mode_not_other hmode).1
      · intro he
        exact absurd he (mode_not_other hmode).2.2
  | @equals s path raw value hpath hne hraw hvalue =>
    cases h with
    | compare hmode => exact absurd rfl (mode_not_other hmode).2.2
    | equals hv =>
      simp only [equalsText, List.append_assoc, List.append_cancel_left_eq] at heq
      obtain ⟨hsame, hrest⟩ := path_unique hpath rfl rfl heq
      have hrest := List.append_cancel_left hrest
      have hlast : ∀ d, raw.getLast? = some d → isSpace d = false := by
        intro d hd
        apply hend
        simp only [equalsText, ← List.append_assoc]
        rw [List.getLast?_append, hd]
        rfl
      have hsameRaw := raw_unique hother hv hvalue hne hlast hy htail hrest
      refine ⟨by rw [hsame, hsameRaw], hsame, ?_, ?_⟩
      · intro he
        cases he
      · intro _
        rw [hsameRaw] at hraw
        exact (equalsLiteral_terminator hv).1 hraw
  | @range f tz s e hpath =>
    cases h with
    | range =>
      simp only [rangeText, List.append_assoc, List.append_cancel_left_eq] at heq
      obtain ⟨hsame, -⟩ := path_unique hpath rfl rfl heq
      exact ⟨by rw [hsame], hsame, by rw [if_pos rfl]⟩
    | time hmode => exact absurd rfl (mode_not_range hmode)
  | rangeInParens hpath =>
    exfalso
    obtain ⟨d, hd, -⟩ := h.starts
    have hhead := congrArg List.head? heq
    rw [List.head?_append_of_ne_nil _ h.starts.ne_nil] at hhead
    exact h.head_ne hhead.symm
  | @time f tz mode value hpath hmode =>
    cases h with
    | range => exact absurd rfl (mode_not_range hmode)
    | time =>
      simp only [compareText, List.append_assoc, List.append_cancel_left_eq] at heq
      obtain ⟨hsame, -⟩ := path_unique hpath rfl rfl heq
      refine ⟨by rw [hsame], hsame, ?_⟩
      rw [if_neg (mode_not_range hmode)]
      exact ⟨rfl, rfl⟩

/-- In parentheses only a range is read. -/
theorem Printed.same_wrapped {c : RequestCondition} {t a y tail : Text} (h : Printed c t)
    (hread : ReadAs parseOther a c) (heq : a ++ y = lit "(" ++ (t ++ lit ")") ++ tail) :
    a = lit "(" ++ (t ++ lit ")") ∧ Readable c ∧ ∃ d, c = .time d ∧ d.mode = .range := by
  have hhead : a ≠ [] → a.head? = some 40 := by
    intro hne
    have := congrArg List.head? heq
    rwa [List.head?_append_of_ne_nil _ hne] at this
  have hsource : ∀ (s : Source) (r : Text), (s.name ++ r).head? = some 40 → False := by
    intro s r
    cases s <;> simp [Source.name, lit]
  have htime : ∀ (f : TimeFunc) (r : Text), (f.name ++ r).head? = some 40 → False := by
    intro f r
    cases f <;> simp [TimeFunc.name, lit]
  cases hread with
  | @rangeInParens f tz s e hpath =>
    cases h with
    | range =>
      simp only [rangeText, List.append_assoc, List.append_cancel_left_eq] at heq
      obtain ⟨hsame, -⟩ := path_unique hpath rfl rfl heq
      exact ⟨by rw [hsame], ⟨hsame, by rw [if_pos rfl]⟩, _, rfl, rfl⟩
    | time hmode => exact absurd rfl (mode_not_range hmode)
  | exist => exact (hsource _ _ (hhead ((sourceName_starts _).append _).ne_nil)).elim
  | headerContains => exact absurd (hhead (by simp [headerContainsText, lit])) (by simp [headerContainsText, lit])
  | paramContains => exact absurd (hhead (by simp [paramContainsText, lit])) (by simp [paramContainsText, lit])
  | compare => exact absurd (hhead (by simp [paramCompareText, lit])) (by simp [paramCompareText, lit])
  | equals => exact (hsource _ _ (hhead ((sourceName_starts _).append _).ne_nil)).elim
  | range => exact (htime _ _ (hhead ((timeName_starts _).append _).ne_nil)).elim
  | time => exact (htime _ _ (hhead ((timeName_starts _).append _).ne_nil)).elim

end Same

end CodeGo.BillingExpr
