import CodeGo.BillingExpr.ConditionReading
import CodeGo.Lib.Lists

/-!
# Rules that are read back

`tryParseRequestRuleExpr` reads what `buildRequestRuleExpr` prints exactly where no separator stands
in the text of a condition at the depth at which the splitters look for it, and every condition can
be read by itself.
-/

namespace CodeGo.BillingExpr

open CodeGo.Lib CodeGo.Lib.JsText CodeGo.Lib.DepthSplit CodeGo.Lib.Lists

def CompleteGroup (g : RequestRuleGroup) : Prop :=
  numericLiteral g.multiplier = true ∧ ∀ c ∈ g.conditions, Complete c

instance (g : RequestRuleGroup) : Decidable (CompleteGroup g) :=
  inferInstanceAs (Decidable (_ ∧ ∀ c ∈ g.conditions, Complete c))

def IsRange (c : RequestCondition) : Prop := ∃ d, c = .time d ∧ d.mode = .range

/-- The text of a condition in its group. -/
def pieceOf (alone : Bool) (c : RequestCondition) : Text :=
  if alone then buildRequestConditionExpr c else wrapAlternative (buildRequestConditionExpr c)

def isAlone (g : RequestRuleGroup) : Bool := g.conditions.length = 1

def conditionTexts (g : RequestRuleGroup) : List Text := g.conditions.map (pieceOf (isAlone g))

def Balanced (t : Text) : Prop := depth delta t = 0

/-- A condition can be read in its group. -/
def ReadableIn (alone : Bool) (c : RequestCondition) : Prop :=
  Readable c ∧
    (alone = false → includes (buildRequestConditionExpr c) (lit " || ") = true → IsRange c)

structure GroupSurvives (g : RequestRuleGroup) : Prop where
  conditions : g.conditions ≠ []
  readable : ∀ c ∈ g.conditions, ReadableIn (isAlone g) c
  uncut : ∀ w ∈ conditionTexts g, ¬ Cuts delta (lit " && ") 0 w ∧ ¬ Cuts delta (lit " * ") 1 w
  balanced : ∀ w ∈ (conditionTexts g).dropLast, Balanced w

structure Survives (groups : List RequestRuleGroup) : Prop where
  each : ∀ g ∈ groups, GroupSurvives g
  balanced : ∀ g ∈ groups.dropLast, ∀ w ∈ conditionTexts g, Balanced w

theorem wrapAlternative_cases (t : Text) :
    (wrapAlternative t = t ∧ includes t (lit " || ") = false) ∨
      (wrapAlternative t = lit "(" ++ (t ++ lit ")") ∧ includes t (lit " || ") = true) := by
  unfold wrapAlternative
  split
  · exact .inr ⟨by rw [List.append_assoc], ‹_›⟩
  · rename_i hno
    exact .inl ⟨rfl, Bool.not_eq_true _ ▸ hno⟩

/-- A piece is the text of its condition, or the text in parentheses. -/
theorem pieceOf_cases (alone : Bool) (c : RequestCondition) :
    (pieceOf alone c = buildRequestConditionExpr c ∧
        (alone = false → includes (buildRequestConditionExpr c) (lit " || ") = false)) ∨
      (pieceOf alone c = lit "(" ++ (buildRequestConditionExpr c ++ lit ")") ∧ alone = false ∧
        includes (buildRequestConditionExpr c) (lit " || ") = true) := by
  unfold pieceOf
  cases alone with
  | true => exact .inl ⟨rfl, fun h => by cases h⟩
  | false =>
    rcases wrapAlternative_cases (buildRequestConditionExpr c) with ⟨h, hno⟩ | ⟨h, hyes⟩
    · exact .inl ⟨by simpa using h, fun _ => hno⟩
    · exact .inr ⟨by simpa using h, rfl, hyes⟩

theorem pieceOf_starts {c : RequestCondition} (h : Complete c) (alone : Bool) :
    Starts (pieceOf alone c) := by
  rcases pieceOf_cases alone c with ⟨heq, -⟩ | ⟨heq, -⟩
  · rw [heq]
    exact (printed h).starts
  · rw [heq]
    exact ⟨40, rfl, by decide⟩

theorem pieceOf_stops {c : RequestCondition} (h : Complete c) (alone : Bool) :
    Stops (pieceOf alone c) := by
  rcases pieceOf_cases alone c with ⟨heq, -⟩ | ⟨heq, -⟩
  · rw [heq]
    exact (printed h).stops
  · rw [heq]
    have hclose : Stops (lit ")") := ⟨41, rfl, by decide⟩
    exact (hclose.append _).append _

theorem pieceOf_trim {c : RequestCondition} (h : Complete c) (alone : Bool) :
    trim (pieceOf alone c) = pieceOf alone c :=
  trim_of_ends (pieceOf_starts h alone) (pieceOf_stops h alone)

/-- A readable piece is read as its condition. -/
theorem pieceOf_read {c : RequestCondition} (h : Complete c) {alone : Bool}
    (hr : ReadableIn alone c) (parseOther : Text → Option Text) :
    tryParseRequestCondition parseOther (pieceOf alone c) = .ok c := by
  obtain ⟨hread, hrange⟩ := hr
  rcases pieceOf_cases alone c with ⟨heq, -⟩ | ⟨heq, halone, hincl⟩
  · rw [heq]
    exact (printed h).read h hread parseOther
  · rw [heq]
    obtain ⟨d, rfl, hmode⟩ := hrange halone hincl
    obtain ⟨f, tz, mode, value, s, e⟩ := d
    obtain rfl : mode = .range := hmode
    have hprinted := printed h
    obtain ⟨-, htz, -, hnum⟩ := h
    obtain ⟨hplain, hunused⟩ := hread
    rw [if_pos rfl] at hunused hnum
    dsimp only at hplain hunused hnum
    subst hunused
    generalize buildRequestConditionExpr (.time ⟨f, tz, .range, [], s, e⟩) = t at hprinted ⊢
    cases hprinted with
    | range hs he =>
      rw [hplain]
      exact (read_range (plain_run hplain htz) (numericLiteral_run hs) (numericLiteral_run he)
        parseOther).2
    | time hm => exact absurd rfl (mode_not_range hm)

theorem splitTopLevel_of_split {sep t : Text} {ts : List Text} (h : split delta sep t = ts)
    (hts : ∀ u ∈ ts, trim u = u ∧ u ≠ []) : splitTopLevel sep t = ts := by
  unfold splitTopLevel
  have hmap : ts.map trim = ts := by
    conv_rhs => rw [← List.map_id ts]
    exact List.map_congr_left fun u hu => (hts u hu).1
  rw [h, hmap, List.filter_eq_self]
  intro u hu
  simpa using (hts u hu).2

theorem and_flat : ∀ c ∈ lit " && ", delta c = 0 :=
  forall_mem_of_all (by decide)

theorem multiply_flat : ∀ c ∈ lit " * ", delta c = 0 :=
  forall_mem_of_all (by decide)

theorem firm_not_mem {c : UInt16} (h : Firm c) : c ∉ lit " && " ∧ c ∉ lit " * " := by
  obtain ⟨hspace, hand, hstar⟩ := h
  have hne : c ≠ 32 := by
    rintro rfl
    revert hspace
    decide
  constructor
  · intro hmem
    have hmem : c ∈ [(32 : UInt16), 38, 38, 32] := hmem
    simp only [List.mem_cons, List.not_mem_nil, or_false] at hmem
    tauto
  · intro hmem
    have hmem : c ∈ [(32 : UInt16), 42, 32] := hmem
    simp only [List.mem_cons, List.not_mem_nil, or_false] at hmem
    tauto

theorem stops_not_mem {t : Text} (h : Stops t) {c : UInt16} (hc : t.getLast? = some c) :
    c ∉ lit " && " ∧ c ∉ lit " * " := by
  obtain ⟨d, hd, hfirm⟩ := h
  obtain rfl := Option.some.inj (hd.symm.trans hc)
  exact firm_not_mem hfirm

theorem numeric_delta {t : Text} (h : Run numeric t) : depth delta t = 0 := by
  obtain ⟨-, hall⟩ := h
  induction t with
  | nil => rfl
  | cons c t ih =>
    have hc : delta c = 0 := by
      have hnum := hall c (by simp)
      unfold delta
      split
      · rename_i h
        subst h
        revert hnum
        decide
      · split
        · rename_i h
          subst h
          revert hnum
          decide
        · rfl
    rw [depth_cons, hc, ih fun d hd => hall d (by simp [hd])]
    rfl

section Factors

/-- What follows the conditions in a factor. -/
def factorTail (multiplier : Text) : Text := lit " ? " ++ (multiplier ++ lit " : 1)")

def factorOf (g : RequestRuleGroup) : Text :=
  lit "(" ++ (join (lit " && ") (conditionTexts g) ++ factorTail g.multiplier)

variable {g : RequestRuleGroup}

theorem buildRuleGroupFactor_eq (h : CompleteGroup g) (hne : g.conditions ≠ []) :
    buildRuleGroupFactor g = factorOf g := by
  obtain ⟨hmult, hcomplete⟩ := h
  have hfilter : (g.conditions.map buildRequestConditionExpr).filter (· ≠ []) =
      g.conditions.map buildRequestConditionExpr := by
    rw [List.filter_eq_self]
    intro t ht
    obtain ⟨c, hc, rfl⟩ := List.mem_map.1 ht
    simpa using (printed (hcomplete c hc)).starts.ne_nil
  have hcombine : combineConditions (g.conditions.map buildRequestConditionExpr) =
      join (lit " && ") (conditionTexts g) := by
    unfold conditionTexts isAlone
    cases hcs : g.conditions with
    | nil => exact absurd hcs hne
    | cons c cs =>
      cases cs with
      | nil => simp [combineConditions, pieceOf]
      | cons d ds =>
        have hlen : decide ((c :: d :: ds).length = 1) = false := by simp
        rw [hlen]
        simp [combineConditions, pieceOf]
        rfl
  have hempty : (g.conditions.map buildRequestConditionExpr).isEmpty = false := by
    cases hcs : g.conditions with
    | nil => exact absurd hcs hne
    | cons c cs => rfl
  simp only [buildRuleGroupFactor, trim_run_numeric (numericLiteral_run hmult), hfilter, hmult,
    hempty, hcombine, factorOf, factorTail, List.append_assoc]
  rfl

theorem factorOf_starts (g : RequestRuleGroup) : Starts (factorOf g) := ⟨40, rfl, by decide⟩

theorem factorOf_stops (g : RequestRuleGroup) : Stops (factorOf g) := by
  have hclose : Stops (lit " : 1)") := ⟨41, rfl, by decide⟩
  unfold factorOf factorTail
  exact (((hclose.append _).append _).append _).append _

end Factors

section Enough

variable {g : RequestRuleGroup} {parseOther : Text → Option Text}

theorem join_stops {sep : Text} {ts : List Text} (hne : ts ≠ []) (h : ∀ t ∈ ts, Stops t) :
    Stops (join sep ts) := by
  induction ts with
  | nil => exact absurd rfl hne
  | cons t ts ih =>
    by_cases hts : ts = []
    · subst hts
      rw [join_singleton]
      exact h t (by simp)
    · rw [join_cons t hts]
      exact ((ih hts fun u hu => h u (by simp [hu])).append _).append _

theorem join_starts {sep : Text} {ts : List Text} (hne : ts ≠ []) (h : ∀ t ∈ ts, Starts t) :
    Starts (join sep ts) := by
  cases ts with
  | nil => exact absurd rfl hne
  | cons t ts =>
    have ht := h t (by simp)
    by_cases hts : ts = []
    · subst hts
      rwa [join_singleton]
    · rw [join_cons t hts]
      exact ht.append _

/-- A cut in the conditions of a factor is one in the text of a condition. -/
theorem not_cuts_join {ts : List Text} (hstart : ∀ t ∈ ts, Starts t) (hstop : ∀ t ∈ ts, Stops t)
    (hcuts : ∀ t ∈ ts, ¬ Cuts delta (lit " * ") 1 t) (hbal : ∀ t ∈ ts.dropLast, Balanced t) :
    ¬ Cuts delta (lit " * ") 1 (join (lit " && ") ts) := by
  induction ts with
  | nil => exact not_cuts_of_not_mem (c := 42) (by decide) (by simp)
  | cons t ts ih =>
    by_cases hts : ts = []
    · subst hts
      rw [join_singleton]
      exact hcuts t (by simp)
    · have hzero : depth delta t = 0 := by
        apply hbal
        rw [List.dropLast_cons_of_ne_nil hts]
        simp
      have hrest : ¬ Cuts delta (lit " * ") 1 (join (lit " && ") ts) := by
        apply ih (fun u hu => hstart u (by simp [hu])) (fun u hu => hstop u (by simp [hu]))
          (fun u hu => hcuts u (by simp [hu]))
        intro u hu
        apply hbal
        rw [List.dropLast_cons_of_ne_nil hts]
        simp [hu]
      rw [join_cons t hts]
      intro h
      rcases h.split with h | h | ⟨c, e, hc, hmem, -, -⟩
      · exact hcuts t (by simp) h
      · rw [hzero] at h
        rcases h.split with h | h | ⟨c, e, -, -, he, hmem⟩
        · exact not_cuts_of_not_mem (c := 42) (by decide) (by decide) h
        · exact hrest h
        · obtain ⟨d, hd, hfirm⟩ := join_starts hts fun u hu => hstart u (by simp [hu])
          obtain rfl := Option.some.inj (hd.symm.trans he)
          exact (firm_not_mem hfirm).2 hmem
      · exact (stops_not_mem (hstop t (by simp)) hc).2 hmem

theorem depth_join {ts : List Text} (hbal : ∀ t ∈ ts, Balanced t) :
    depth delta (join (lit " && ") ts) = 0 := by
  induction ts with
  | nil => rfl
  | cons t ts ih =>
    have ht := hbal t (by simp)
    by_cases hts : ts = []
    · subst hts
      rwa [join_singleton]
    · have hsep : depth delta (lit " && ") = 0 := by decide
      have hrest := ih fun u hu => hbal u (by simp [hu])
      rw [join_cons t hts, depth_append, depth_append, ht, hsep, hrest]
      rfl

theorem factorTail_depth {m : Text} (h : Run numeric m) : depth delta (factorTail m) = -1 := by
  have hstart : depth delta (lit " ? ") = 0 := by decide
  have hend : depth delta (lit " : 1)") = -1 := by decide
  unfold factorTail
  rw [depth_append, depth_append, numeric_delta h, hstart, hend]
  rfl

theorem factorOf_depth {g : RequestRuleGroup} (h : numericLiteral g.multiplier = true) :
    depth delta (factorOf g) = depth delta (join (lit " && ") (conditionTexts g)) := by
  have hopen : depth delta (lit "(") = 1 := by decide
  unfold factorOf
  rw [depth_append, depth_append, factorTail_depth (numericLiteral_run h), hopen]
  omega

theorem conditionTexts_ne_nil (h : g.conditions ≠ []) : conditionTexts g ≠ [] := by
  simpa [conditionTexts] using h

theorem conditionTexts_ends (h : CompleteGroup g) :
    ∀ t ∈ conditionTexts g, Starts t ∧ Stops t := by
  intro t ht
  obtain ⟨c, hc, rfl⟩ := List.mem_map.1 ht
  exact ⟨pieceOf_starts (h.2 c hc) _, pieceOf_stops (h.2 c hc) _⟩

theorem star_not_mem_tail {m : Text} (h : Run numeric m) : (42 : UInt16) ∉ factorTail m := by
  intro hmem
  unfold factorTail at hmem
  rcases List.mem_append.1 hmem with hmem | hmem
  · revert hmem
    decide
  rcases List.mem_append.1 hmem with hmem | hmem
  · have hnum := h.2 _ hmem
    revert hnum
    decide
  · revert hmem
    decide

/-- A factor is not cut where its conditions are not. -/
theorem factorOf_not_cuts (h : CompleteGroup g) (hg : GroupSurvives g) :
    ¬ Cuts delta (lit " * ") 0 (factorOf g) := by
  have hends := conditionTexts_ends h
  have hconds := not_cuts_join (fun t ht => (hends t ht).1) (fun t ht => (hends t ht).2)
    (fun t ht => (hg.uncut t ht).2) hg.balanced
  unfold factorOf
  intro hcut
  rcases hcut.split with hcut | hcut | ⟨c, e, hc, hmem, -, -⟩
  · exact not_cuts_of_not_mem (c := 42) (by decide) (by decide) hcut
  · rcases hcut.split with hcut | hcut | ⟨c, e, hc, hmem, -, -⟩
    · exact hconds hcut
    · exact not_cuts_of_not_mem (c := 42) (by decide)
        (star_not_mem_tail (numericLiteral_run h.1)) hcut
    · have hstops : Stops (join (lit " && ") (conditionTexts g)) :=
        join_stops (conditionTexts_ne_nil hg.conditions) fun t ht => (hends t ht).2
      exact (stops_not_mem hstops hc).2 hmem
  · obtain rfl := Option.some.inj (hc : some 40 = some c)
    revert hmem
    decide

/-- The text between the parentheses of a factor is not empty. -/
theorem factorOf_parts (h : CompleteGroup g) (hne : g.conditions ≠ []) :
    factorParts (factorOf g) =
      some (join (lit " && ") (conditionTexts g), g.multiplier) := by
  have hstarts : Starts (join (lit " && ") (conditionTexts g)) :=
    join_starts (conditionTexts_ne_nil hne) fun t ht => (conditionTexts_ends h t ht).1
  exact factorParts_iff.2 ⟨hstarts.ne_nil, numericLiteral_run h.1, rfl⟩

/-- A group is read from its factor. -/
theorem factorOf_read (h : CompleteGroup g) (hg : GroupSurvives g) :
    tryParseRuleGroupFactor parseOther (factorOf g) = .ok g := by
  have hends := conditionTexts_ends h
  have hsplit : splitTopLevelAnd (join (lit " && ") (conditionTexts g)) = conditionTexts g := by
    apply splitTopLevel_of_split
    · exact split_join (by decide) and_flat (conditionTexts_ne_nil hg.conditions)
        (fun t ht => (hg.uncut t ht).1)
        (fun t ht c hc => (stops_not_mem (hends t ht).2 hc).1) hg.balanced
    · intro u hu
      exact ⟨trim_of_ends (hends u hu).1 (hends u hu).2, (hends u hu).1.ne_nil⟩
  have hread : (conditionTexts g).mapM
      (fun t => tryParseRequestCondition parseOther (trim t)) = .ok g.conditions := by
    rw [mapM_ok_iff]
    unfold conditionTexts
    rw [List.forall₂_map_left_iff, List.forall₂_same]
    intro c hc
    rw [pieceOf_trim (h.2 c hc)]
    exact pieceOf_read (h.2 c hc) (hg.readable c hc) parseOther
  simp only [tryParseRuleGroupFactor, factorOf_parts h hg.conditions, hsplit, hread]
  show (if g.conditions = [] then _ else _) = _
  rw [if_neg hg.conditions]

theorem dropLast_factors {groups : List RequestRuleGroup} (hs : Survives groups)
    (hc : ∀ g ∈ groups, CompleteGroup g) :
    ∀ t ∈ (groups.map factorOf).dropLast, depth delta t = 0 := by
  intro t ht
  rw [← List.map_dropLast] at ht
  obtain ⟨g, hg, rfl⟩ := List.mem_map.1 ht
  have hmem := List.dropLast_subset groups hg
  rw [factorOf_depth (hc g hmem).1]
  exact depth_join (hs.balanced g hg)

/-- The print of groups with conditions. -/
theorem buildRequestRuleExpr_eq {groups : List RequestRuleGroup}
    (hc : ∀ g ∈ groups, CompleteGroup g) (hne : ∀ g ∈ groups, g.conditions ≠ []) :
    buildRequestRuleExpr groups = join (lit " * ") (groups.map factorOf) := by
  have hmap : groups.map buildRuleGroupFactor = groups.map factorOf :=
    List.map_congr_left fun g hg => buildRuleGroupFactor_eq (hc g hg) (hne g hg)
  have hfilter : (groups.map factorOf).filter (· ≠ []) = groups.map factorOf := by
    rw [List.filter_eq_self]
    intro t ht
    obtain ⟨g, -, rfl⟩ := List.mem_map.1 ht
    simpa using (factorOf_starts g).ne_nil
  unfold buildRequestRuleExpr
  rw [hmap, hfilter]

theorem factors_trim {groups : List RequestRuleGroup} (hne : groups ≠ []) :
    trim (join (lit " * ") (groups.map factorOf)) = join (lit " * ") (groups.map factorOf) ∧
      join (lit " * ") (groups.map factorOf) ≠ [] := by
  have hmap : groups.map factorOf ≠ [] := by simpa using hne
  have hstarts : Starts (join (lit " * ") (groups.map factorOf)) := by
    apply join_starts hmap
    intro t ht
    obtain ⟨g, -, rfl⟩ := List.mem_map.1 ht
    exact factorOf_starts g
  have hstops : Stops (join (lit " * ") (groups.map factorOf)) := by
    apply join_stops hmap
    intro t ht
    obtain ⟨g, -, rfl⟩ := List.mem_map.1 ht
    exact factorOf_stops g
  exact ⟨trim_of_ends hstarts hstops, hstarts.ne_nil⟩

/-- Groups that survive are read back. -/
theorem Survives.read {groups : List RequestRuleGroup} (hs : Survives groups)
    (hc : ∀ g ∈ groups, CompleteGroup g) :
    tryParseRequestRuleExpr parseOther (buildRequestRuleExpr groups) = .ok groups := by
  rw [buildRequestRuleExpr_eq hc fun g hg => (hs.each g hg).conditions]
  by_cases hne : groups = []
  · subst hne
    rfl
  · obtain ⟨htrim, htext⟩ := factors_trim hne
    have hsplit : splitTopLevelMultiply (join (lit " * ") (groups.map factorOf)) =
        groups.map factorOf := by
      apply splitTopLevel_of_split
      · apply split_join (by decide) multiply_flat (by simpa using hne)
        · intro t ht
          obtain ⟨g, hg, rfl⟩ := List.mem_map.1 ht
          exact factorOf_not_cuts (hc g hg) (hs.each g hg)
        · intro t ht c hlast
          obtain ⟨g, -, rfl⟩ := List.mem_map.1 ht
          exact (stops_not_mem (factorOf_stops g) hlast).2
        · exact dropLast_factors hs hc
      · intro u hu
        obtain ⟨g, -, rfl⟩ := List.mem_map.1 hu
        exact ⟨trim_of_ends (factorOf_starts g) (factorOf_stops g), (factorOf_starts g).ne_nil⟩
    simp only [tryParseRequestRuleExpr, htrim, if_neg htext, hsplit]
    rw [mapM_ok_iff, List.forall₂_map_left_iff, List.forall₂_same]
    intro g hg
    exact factorOf_read (hc g hg) (hs.each g hg)

end Enough

end CodeGo.BillingExpr
