import CodeGo.BillingExpr.RuleRoundTrip

/-!
# What reading back requires

The first piece at which a splitter cuts is read as the first group or condition, so it is its whole
text; what follows it is read as the rest.
-/

namespace CodeGo.BillingExpr

open CodeGo.Lib CodeGo.Lib.JsText CodeGo.Lib.DepthSplit CodeGo.Lib.Lists

section Pieces

variable {parseOther : Text → Option Text}

/-- What `trim` removes at the end of a text. -/
theorem trim_split {t : Text} (h : ∀ c, t.head? = some c → isSpace c = false) :
    ∃ s, t = trim t ++ s ∧ (∀ c ∈ s, isSpace c = true) ∧
      ∀ c, (trim t).getLast? = some c → isSpace c = false := by
  have hdrop : t.dropWhile isSpace = t := by
    cases t with
    | nil => rfl
    | cons c t =>
      have hc := h c rfl
      simp [hc]
  have htrim : trim t = (t.reverse.dropWhile isSpace).reverse := by
    unfold trim Trim.trimList
    rw [hdrop]
    rfl
  refine ⟨(t.reverse.takeWhile isSpace).reverse, ?_, ?_, ?_⟩
  · rw [htrim, ← List.reverse_append, List.takeWhile_append_dropWhile, List.reverse_reverse]
  · intro c hc
    exact List.mem_takeWhile_imp (List.mem_reverse.1 hc)
  · intro c hc
    rw [htrim, List.getLast?_reverse] at hc
    have hno := List.head?_dropWhile_not isSpace t.reverse
    rw [hc] at hno
    simpa using hno

/-- White space in front of a separator is part of no separator. -/
theorem no_gap {s r r' : Text} {d : UInt16} (hs : ∀ c ∈ s, isSpace c = true)
    (hd : isSpace d = false) (h : s ++ 32 :: r = 32 :: d :: r') : s = [] := by
  cases s with
  | nil => rfl
  | cons x s =>
    exfalso
    obtain ⟨-, hrest⟩ := List.cons.inj h
    cases s with
    | nil =>
      obtain ⟨hspace, -⟩ := List.cons.inj hrest
      subst hspace
      revert hd
      decide
    | cons z s =>
      obtain ⟨hz, -⟩ := List.cons.inj hrest
      have := hs z (by simp)
      rw [hz, hd] at this
      cases this

theorem space_head {s r : Text} (hs : ∀ c ∈ s, isSpace c = true) :
    ∀ c, (s ++ 32 :: r).head? = some c → isSpace c = true := by
  intro c hc
  cases s with
  | nil =>
    obtain rfl := Option.some.inj (hc : some 32 = some c)
    decide
  | cons x s =>
    obtain rfl := Option.some.inj (hc : some x = some c)
    exact hs _ (by simp)

/-- A piece that starts where a condition was printed, and is read as it, is its text. -/
theorem piece_same {c : RequestCondition} {alone : Bool} {q y tail : Text}
    (hother : ParsesScalars parseOther) (hc : Complete c)
    (hread : tryParseRequestCondition parseOther (trim q) = .ok c)
    (heq : q ++ 32 :: y = pieceOf alone c ++ 32 :: tail) :
    (∃ s, q = pieceOf alone c ++ s ∧ ∀ d ∈ s, isSpace d = true) ∧ ReadableIn alone c := by
  obtain ⟨w, hw, hfirm⟩ := pieceOf_starts hc alone
  have hne := (pieceOf_starts hc alone).ne_nil
  have hhead : ∀ d, q.head? = some d → isSpace d = false := by
    intro d hd
    have hq : q ≠ [] := by
      rintro rfl
      cases hd
    have hheads := congrArg List.head? heq
    rw [List.head?_append_of_ne_nil _ hq, List.head?_append_of_ne_nil _ hne, hd, hw] at hheads
    exact Option.some.inj hheads ▸ hfirm.1
  obtain ⟨s, hs, hspace, hend⟩ := trim_split hhead
  have hread := readAs hread
  have heq' : trim q ++ (s ++ 32 :: y) = pieceOf alone c ++ 32 :: tail := by
    rw [← List.append_assoc, ← hs, heq]
  have htail : ∀ d, ((32 : UInt16) :: tail).head? = some d → isSpace d = true :=
    space_head (s := []) (by simp)
  rcases pieceOf_cases alone c with ⟨hpiece, hno⟩ | ⟨hpiece, halone, hyes⟩
  · rw [hpiece] at heq' ⊢
    obtain ⟨hsame, hreadable⟩ :=
      (printed hc).same hother hread hend (space_head hspace) htail heq'
    refine ⟨⟨s, by rw [← hsame]; exact hs, hspace⟩, hreadable, ?_⟩
    intro h hincl
    rw [hno h] at hincl
    cases hincl
  · rw [hpiece] at heq' ⊢
    obtain ⟨hsame, hreadable, hrange⟩ := (printed hc).same_wrapped hread heq'
    exact ⟨⟨s, by rw [← hsame]; exact hs, hspace⟩, hreadable, fun _ _ => hrange⟩

theorem trim_ne_nil {t : Text} (hne : t ≠ []) (h : ∀ c, t.head? = some c → isSpace c = false) :
    trim t ≠ [] := by
  obtain ⟨s, hs, hspace, -⟩ := trim_split h
  intro hnil
  rw [hnil, List.nil_append] at hs
  cases t with
  | nil => exact hne rfl
  | cons c t =>
    have hc := h c rfl
    rw [hspace c (by rw [← hs]; simp)] at hc
    cases hc

/-- What a splitter finds first. -/
theorem splitTopLevel_cases {sep X : Text} (hsep : sep.head? = some 32)
    (hflat : ∀ c ∈ sep, delta c = 0) (hne : X ≠ [])
    (hX : ∀ c, X.head? = some c → isSpace c = false) :
    (splitTopLevel sep X = [trim X] ∧ ¬ Cuts delta sep 0 X) ∨
      ∃ a b, X = a ++ (sep ++ b) ∧ depth delta a = 0 ∧ ¬ Cuts delta sep 0 a ∧
        splitTopLevel sep X = trim a :: splitTopLevel sep b := by
  have hsepne : sep ≠ [] := by
    rintro rfl
    cases hsep
  rcases scan_cases hsepne hflat 0 [] X with ⟨hwhole, hno⟩ | ⟨a, b, rfl, hd, hno, hfirst⟩
  · left
    refine ⟨?_, hno⟩
    have htrim := trim_ne_nil hne hX
    simp only [splitTopLevel, split, hwhole, List.nil_append, List.map_cons, List.map_nil]
    simp [htrim]
  · right
    refine ⟨a, b, rfl, by omega, hno, ?_⟩
    have ha : a ≠ [] := by
      rintro rfl
      have := hX 32 (by rw [List.nil_append, List.head?_append, hsep]; rfl)
      revert this
      decide
    have htrim : trim a ≠ [] := by
      apply trim_ne_nil ha
      intro c hc
      apply hX
      rw [List.head?_append_of_ne_nil _ ha]
      exact hc
    have hsplit : split delta sep (a ++ (sep ++ b)) = a :: split delta sep b := hfirst
    simp only [splitTopLevel, hsplit, List.map_cons]
    simp [htrim]

theorem trim_trim (t : Text) : trim (trim t) = trim t := Trim.trimList_idem t

/-- The conditions of a group are read from the whole of their text. -/
theorem conditions_same {cs : List RequestCondition} {alone : Bool} {X y tail : Text}
    (hother : ParsesScalars parseOther) (hne : cs ≠ []) (hc : ∀ c ∈ cs, Complete c)
    (hread : (splitTopLevelAnd X).mapM
      (fun t => tryParseRequestCondition parseOther (trim t)) = .ok cs)
    (heq : X ++ (lit " ? " ++ y) =
      join (lit " && ") (cs.map (pieceOf alone)) ++ (lit " ? " ++ tail)) :
    X = join (lit " && ") (cs.map (pieceOf alone)) ∧ (∀ c ∈ cs, ReadableIn alone c) ∧
      (∀ w ∈ cs.map (pieceOf alone), ¬ Cuts delta (lit " && ") 0 w) ∧
      ∀ w ∈ (cs.map (pieceOf alone)).dropLast, Balanced w := by
  induction cs generalizing X with
  | nil => exact absurd rfl hne
  | cons c cs ih =>
    have hcc := hc c (by simp)
    obtain ⟨w, hw, hfirm⟩ := pieceOf_starts hcc alone
    have hwne := (pieceOf_starts hcc alone).ne_nil
    have hX : X ≠ [] := by
      rintro rfl
      rw [mapM_ok_iff] at hread
      cases hread
    have hheads : X.head? = some w := by
      have hjoin : (join (lit " && ") ((c :: cs).map (pieceOf alone))).head? = some w := by
        rw [List.map_cons]
        by_cases hcs : cs.map (pieceOf alone) = []
        · rw [hcs, join_singleton]
          exact hw
        · rw [join_cons _ hcs, List.head?_append_of_ne_nil _ hwne]
          exact hw
      have hjoinne : join (lit " && ") ((c :: cs).map (pieceOf alone)) ≠ [] := by
        intro hnil
        rw [hnil] at hjoin
        cases hjoin
      have := congrArg List.head? heq
      rwa [List.head?_append_of_ne_nil _ hX, List.head?_append_of_ne_nil _ hjoinne, hjoin] at this
    have hstart : ∀ d, X.head? = some d → isSpace d = false := by
      intro d hd
      obtain rfl := Option.some.inj (hheads.symm.trans hd)
      exact hfirm.1
    rw [mapM_ok_iff] at hread
    rcases splitTopLevel_cases (show (lit " && ").head? = some 32 from rfl) and_flat hX hstart with
      ⟨hparts, hno⟩ | ⟨a, b, rfl, hdepth, hno, hparts⟩
    · rw [splitTopLevelAnd, hparts] at hread
      cases hread with
      | cons hfirst hrest =>
        cases hrest
        rw [trim_trim] at hfirst
        rw [List.map_cons, List.map_nil, join_singleton] at heq ⊢
        obtain ⟨⟨s, rfl, hspace⟩, hreadable⟩ := piece_same hother hcc hfirst heq
        rw [List.append_assoc, List.append_cancel_left_eq] at heq
        obtain rfl := no_gap hspace (by decide) heq
        rw [List.append_nil] at hno ⊢
        refine ⟨rfl, ?_, ?_, ?_⟩
        · intro d hd
          obtain rfl := List.mem_singleton.1 hd
          exact hreadable
        · intro v hv
          obtain rfl := List.mem_singleton.1 hv
          exact hno
        · simp
    · rw [splitTopLevelAnd, hparts] at hread
      cases hread with
      | cons hfirst hrest =>
        rw [trim_trim] at hfirst
        simp only [List.append_assoc] at heq
        rw [List.map_cons] at heq ⊢
        by_cases hcs : cs = []
        · subst hcs
          exfalso
          rw [List.map_nil, join_singleton] at heq
          obtain ⟨⟨s, rfl, hspace⟩, -⟩ := piece_same hother hcc hfirst heq
          rw [List.append_assoc, List.append_cancel_left_eq] at heq
          obtain rfl := no_gap hspace (by decide) heq
          rw [List.nil_append] at heq
          have := (List.cons.inj (List.cons.inj heq).2).1
          revert this
          decide
        · have hmap : cs.map (pieceOf alone) ≠ [] := by simpa using hcs
          rw [join_cons _ hmap] at heq ⊢
          simp only [List.append_assoc] at heq
          obtain ⟨⟨s, rfl, hspace⟩, hreadable⟩ := piece_same hother hcc hfirst heq
          rw [List.append_assoc, List.append_cancel_left_eq] at heq
          obtain rfl := no_gap hspace (by decide) heq
          rw [List.nil_append, List.append_cancel_left_eq] at heq
          rw [List.append_nil] at hno hdepth ⊢
          obtain ⟨rfl, hreads, hcuts, hbal⟩ := ih hcs (fun d hd => hc d (by simp [hd]))
            (mapM_ok_iff.2 hrest) heq
          refine ⟨rfl, ?_, ?_, ?_⟩
          · intro d hd
            rcases List.mem_cons.1 hd with rfl | hd
            · exact hreadable
            · exact hreads d hd
          · intro v hv
            rcases List.mem_cons.1 hv with rfl | hv
            · exact hno
            · exact hcuts v hv
          · intro v hv
            rw [List.dropLast_cons_of_ne_nil hmap] at hv
            rcases List.mem_cons.1 hv with rfl | hv
            · exact hdepth
            · exact hbal v hv

end Pieces

section Groups

variable {parseOther : Text → Option Text}

/-- What a group must meet for its factor alone. -/
structure Conditions (g : RequestRuleGroup) : Prop where
  readable : ∀ c ∈ g.conditions, ReadableIn (isAlone g) c
  cuts : ∀ w ∈ conditionTexts g, ¬ Cuts delta (lit " && ") 0 w
  balanced : ∀ w ∈ (conditionTexts g).dropLast, Balanced w

/-- A piece that starts where a group was printed, and is read as it, is its factor. -/
theorem factor_same {g : RequestRuleGroup} {q x rest : Text} (hother : ParsesScalars parseOther)
    (hc : CompleteGroup g) (hne : g.conditions ≠ [])
    (hread : tryParseRuleGroupFactor parseOther (trim q) = .ok g)
    (hq : ∀ c, q.head? = some c → isSpace c = false) (heq : q ++ x = factorOf g ++ rest) :
    (∃ s, q = factorOf g ++ s ∧ ∀ c ∈ s, isSpace c = true) ∧ Conditions g := by
  obtain ⟨s, hs, hspace, -⟩ := trim_split hq
  unfold tryParseRuleGroupFactor at hread
  cases hparts : factorParts (trim q) with
  | none =>
    rw [hparts] at hread
    cases hread
  | some parts =>
    obtain ⟨X, m⟩ := parts
    rw [hparts] at hread
    cases hconds : (splitTopLevelAnd X).mapM
        (fun t => tryParseRequestCondition parseOther (trim t)) with
    | error e =>
      simp only [hconds] at hread
      cases hread
    | ok cs =>
      simp only [hconds] at hread
      replace hread : (if cs = [] then Except.error Failure.null
        else .ok { conditions := cs, multiplier := m }) = Except.ok g := hread
      split at hread
      · cases hread
      · obtain rfl := Except.ok.inj hread
        obtain ⟨-, hrun, htrim⟩ := factorParts_iff.1 hparts
        have htext : X ++ (lit " ? " ++ (m ++ (lit " : 1)" ++ (s ++ x)))) =
            join (lit " && ") (cs.map (pieceOf (isAlone ⟨cs, m⟩))) ++
              (lit " ? " ++ (m ++ (lit " : 1)" ++ rest))) := by
          rw [hs, htrim] at heq
          simp only [factorOf, factorTail, conditionTexts, List.append_assoc,
            List.append_cancel_left_eq] at heq
          exact heq
        obtain ⟨hX, hreads, hcuts, hbal⟩ := conditions_same hother hne hc.2 hconds htext
        refine ⟨⟨s, ?_, hspace⟩, hreads, hcuts, hbal⟩
        have hfactor : trim q = factorOf ⟨cs, m⟩ := by
          rw [htrim, hX]
          rfl
        rw [← hfactor]
        exact hs

/-- A text of a condition in its group, with balanced ones in front of it. -/
theorem cuts_join {ts : List Text} {w : Text} (hw : w ∈ ts)
    (hbal : ∀ t ∈ ts.dropLast, Balanced t) (h : Cuts delta (lit " * ") 1 w) :
    Cuts delta (lit " * ") 1 (join (lit " && ") ts) := by
  induction ts with
  | nil => cases hw
  | cons t ts ih =>
    by_cases hts : ts = []
    · subst hts
      obtain rfl := List.mem_singleton.1 hw
      rwa [join_singleton]
    · rw [join_cons t hts]
      rw [List.dropLast_cons_of_ne_nil hts] at hbal
      rcases List.mem_cons.1 hw with rfl | hw
      · exact h.append_right _
      · have ht : depth delta t = 0 := hbal t (by simp)
        have hsep : depth delta (lit " && ") = 0 := by decide
        apply Cuts.append_left
        rw [ht]
        apply Cuts.append_left
        rw [hsep]
        exact ih hw fun u hu => hbal u (by simp [hu])

/-- Where a factor is not cut, its conditions are not. -/
theorem Conditions.survives {g : RequestRuleGroup} (h : Conditions g) (hne : g.conditions ≠ [])
    (hno : ¬ Cuts delta (lit " * ") 0 (factorOf g)) : GroupSurvives g := by
  refine ⟨hne, h.readable, ?_, h.balanced⟩
  intro w hw
  refine ⟨h.cuts w hw, fun hcut => hno ?_⟩
  have hopen : depth delta (lit "(") = 1 := by decide
  unfold factorOf
  apply Cuts.append_left
  rw [hopen]
  exact (cuts_join hw h.balanced hcut).append_right _

/-- Where all but the last texts are balanced, the whole is only if the last is. -/
theorem balanced_of_join {ts : List Text} (hbal : ∀ t ∈ ts.dropLast, Balanced t)
    (h : depth delta (join (lit " && ") ts) = 0) : ∀ t ∈ ts, Balanced t := by
  induction ts with
  | nil => simp
  | cons t ts ih =>
    by_cases hts : ts = []
    · subst hts
      rw [join_singleton] at h
      intro u hu
      obtain rfl := List.mem_singleton.1 hu
      exact h
    · rw [List.dropLast_cons_of_ne_nil hts] at hbal
      have ht : depth delta t = 0 := hbal t (by simp)
      have hsep : depth delta (lit " && ") = 0 := by decide
      rw [join_cons t hts, depth_append, depth_append, ht, hsep] at h
      intro u hu
      rcases List.mem_cons.1 hu with rfl | hu
      · exact ht
      · exact ih (fun v hv => hbal v (by simp [hv])) (by omega) u hu

/-- Groups that are read from their factors survive. -/
theorem factors_survive {groups : List RequestRuleGroup} (hother : ParsesScalars parseOther)
    (hc : ∀ g ∈ groups, CompleteGroup g) (hne : ∀ g ∈ groups, g.conditions ≠ [])
    (hread : (splitTopLevelMultiply (join (lit " * ") (groups.map factorOf))).mapM
      (tryParseRuleGroupFactor parseOther) = .ok groups) : Survives groups := by
  induction groups with
  | nil => exact ⟨by simp, by simp⟩
  | cons g gs ih =>
    have hcg := hc g (by simp)
    have hcond := hne g (by simp)
    have hstart : ∀ rest c, (factorOf g ++ rest).head? = some c → isSpace c = false := by
      intro rest c h
      obtain rfl := Option.some.inj (h : some 40 = some c)
      decide
    rw [mapM_ok_iff, List.map_cons] at hread
    by_cases hgs : gs = []
    · subst hgs
      rw [List.map_nil, join_singleton] at hread
      have htext : factorOf g = factorOf g ++ [] := (List.append_nil _).symm
      have hfstart : ∀ c, (factorOf g).head? = some c → isSpace c = false := by
        rw [htext]
        exact hstart []
      rcases splitTopLevel_cases (show (lit " * ").head? = some 32 from rfl) multiply_flat
          (factorOf_starts g).ne_nil hfstart with ⟨hparts, hno⟩ | ⟨a, b, hab, -, -, hparts⟩
      · rw [splitTopLevelMultiply, hparts] at hread
        cases hread with
        | cons hfirst _ =>
          obtain ⟨-, hconds⟩ := factor_same hother hcg hcond hfirst hfstart
            (show factorOf g ++ [] = factorOf g ++ [] from rfl)
          refine ⟨?_, by simp⟩
          intro d hd
          obtain rfl := List.mem_singleton.1 hd
          exact hconds.survives hcond hno
      · exfalso
        rw [splitTopLevelMultiply, hparts] at hread
        cases hread with
        | cons hfirst _ =>
          have hastart : ∀ c, a.head? = some c → isSpace c = false := by
            intro c h
            apply hfstart
            rw [hab, List.head?_append, h]
            rfl
          obtain ⟨⟨s, hs, -⟩, -⟩ := factor_same hother hcg hcond hfirst hastart
            (show a ++ (lit " * " ++ b) = factorOf g ++ [] by rw [List.append_nil, hab])
          have hlen := congrArg List.length hab
          have hlen' := congrArg List.length hs
          have hsep : (lit " * ").length = 3 := by decide
          simp only [List.length_append, hsep] at hlen hlen'
          omega
    · have hmap : gs.map factorOf ≠ [] := by simpa using hgs
      rw [join_cons _ hmap] at hread
      have hXne : factorOf g ++ (lit " * " ++ join (lit " * ") (gs.map factorOf)) ≠ [] := by
        simp [(factorOf_starts g).ne_nil]
      rcases splitTopLevel_cases (show (lit " * ").head? = some 32 from rfl) multiply_flat hXne
          (hstart _) with
        ⟨hparts, -⟩ | ⟨a, b, hab, hdepth, hno, hparts⟩
      · exfalso
        rw [splitTopLevelMultiply, hparts] at hread
        cases hread with
        | cons _ hrest =>
          cases hrest
          exact hgs rfl
      · rw [splitTopLevelMultiply, hparts] at hread
        cases hread with
        | cons hfirst hrest =>
          have hastart : ∀ c, a.head? = some c → isSpace c = false := by
            intro c h
            apply hstart _ c
            rw [hab, List.head?_append, h]
            rfl
          obtain ⟨⟨s, rfl, hspace⟩, hconds⟩ := factor_same hother hcg hcond hfirst hastart hab.symm
          rw [List.append_assoc, List.append_cancel_left_eq] at hab
          obtain rfl := no_gap hspace (by decide) hab.symm
          rw [List.nil_append, List.append_cancel_left_eq] at hab
          subst hab
          rw [List.append_nil] at hno hdepth
          have hsurvives := ih (fun d hd => hc d (by simp [hd])) (fun d hd => hne d (by simp [hd]))
            (mapM_ok_iff.2 hrest)
          rw [factorOf_depth hcg.1] at hdepth
          refine ⟨?_, ?_⟩
          · intro d hd
            rcases List.mem_cons.1 hd with rfl | hd
            · exact hconds.survives hcond hno
            · exact hsurvives.each d hd
          · intro d hd
            rw [List.dropLast_cons_of_ne_nil hgs] at hd
            rcases List.mem_cons.1 hd with rfl | hd
            · exact balanced_of_join hconds.balanced hdepth
            · exact hsurvives.balanced d hd

theorem conditions_of_read {part : Text} {g : RequestRuleGroup}
    (h : tryParseRuleGroupFactor parseOther part = .ok g) : g.conditions ≠ [] := by
  unfold tryParseRuleGroupFactor at h
  split at h
  · cases h
  · rename_i X m _
    cases hconds : (splitTopLevelAnd X).mapM
        (fun t => tryParseRequestCondition parseOther (trim t)) with
    | error e =>
      simp only [hconds] at h
      cases h
    | ok cs =>
      simp only [hconds] at h
      replace h : (if cs = [] then Except.error Failure.null
        else .ok { conditions := cs, multiplier := m }) = Except.ok g := h
      split at h
      · cases h
      · obtain rfl := Except.ok.inj h
        assumption

/-- Every group that is read has a condition. -/
theorem conditions_of_readAll {t : Text} {groups : List RequestRuleGroup}
    (h : tryParseRequestRuleExpr parseOther t = .ok groups) :
    ∀ g ∈ groups, g.conditions ≠ [] := by
  unfold tryParseRequestRuleExpr at h
  dsimp only at h
  split at h
  · obtain rfl := Except.ok.inj h
    simp
  · intro g hg
    obtain ⟨part, hpart⟩ := mem_of_mapM_ok h hg
    exact conditions_of_read hpart

/-- Complete groups are read back exactly where they survive. -/
theorem requestRules_roundTrip_iff (hother : ParsesScalars parseOther)
    {groups : List RequestRuleGroup} (hc : ∀ g ∈ groups, CompleteGroup g) :
    tryParseRequestRuleExpr parseOther (buildRequestRuleExpr groups) = .ok groups ↔
      Survives groups := by
  constructor
  · intro h
    have hne := conditions_of_readAll h
    rw [buildRequestRuleExpr_eq hc hne] at h
    by_cases hgroups : groups = []
    · subst hgroups
      exact ⟨by simp, by simp⟩
    · obtain ⟨htrim, htext⟩ := factors_trim hgroups
      simp only [tryParseRequestRuleExpr, htrim, if_neg htext] at h
      exact factors_survive hother hc hne h
  · intro hs
    exact hs.read hc

/-- No text but a string literal is parsed. -/
def noOther (_ : Text) : Option Text := none

/-- A rule for a model name in quotes, and one for a header at night. -/
def quotedGroups : List RequestRuleGroup :=
  [{ conditions := [.paramHeader ⟨.param, lit "model", .eq, lit "say \"hi\" (\\o/)"⟩,
       .time ⟨.hour, lit "Asia/Shanghai", .range, [], lit "22", lit "6"⟩]
     multiplier := lit "0.5" },
   { conditions := [.paramHeader ⟨.header, lit "X-Tier", .contains, lit "a && b"⟩]
     multiplier := lit "2" }]

theorem requestRules_roundTrip_iff_quoted :
    tryParseRequestRuleExpr noOther (buildRequestRuleExpr quotedGroups) = .ok quotedGroups ∧
      Survives quotedGroups := by
  have hread : tryParseRequestRuleExpr noOther (buildRequestRuleExpr quotedGroups) =
      .ok quotedGroups := by
    decide +kernel
  have hother : ParsesScalars noOther := by
    intro t v h
    cases h
  have hcomplete : ∀ g ∈ quotedGroups, CompleteGroup g := by
    decide +kernel
  exact ⟨hread, (requestRules_roundTrip_iff hother hcomplete).1 hread⟩

/-- A comparison of a parameter is printed with a conjunction, at which it is cut. -/
theorem comparison_lost : ∃ groups, (∀ g ∈ groups, CompleteGroup g) ∧
    buildRequestRuleExpr groups =
      lit "(param(\"max_tokens\") != nil && param(\"max_tokens\") > 1000 ? 2 : 1)" ∧
    tryParseRequestRuleExpr noOther (buildRequestRuleExpr groups) = .error .null :=
  ⟨[{ conditions := [.paramHeader ⟨.param, lit "max_tokens", .gt, lit "1000"⟩]
      multiplier := lit "2" }], by decide +kernel, by decide +kernel, by decide +kernel⟩

end Groups

end CodeGo.BillingExpr
