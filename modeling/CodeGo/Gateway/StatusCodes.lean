import CodeGo.Gateway.RequestValidation
import CodeGo.Lib.Ranges

/-!
# Status code rules

A rule such as `401-407, 413` is read into sorted ranges of status codes, and the ranges are
written back the same way. The ranges that are read match exactly the codes that some token of
the rule stands for, and a rule with one bad token is refused.
-/

namespace CodeGo.Gateway.StatusCodes

open Lib.Trim Lib.Ranges
open Validation (atoi digits digit? splitSign)

abbrev StatusCodeRange := Range

/-- The token without the spaces in it. -/
def body (seg : List Char) : List Char := (trimList isSpace seg).filter (· ≠ ' ')

def parseCode (token : List Char) : Except String StatusCodeRange :=
  match atoi (String.ofList token) with
  | none => .error ("invalid status code: " ++ String.ofList token)
  | some code =>
    if code < 100 ∨ code > 599 then
      .error ("status code out of bounds: " ++ String.ofList token)
    else .ok ⟨code, code⟩

def parseBounds (token first last : List Char) : Except String StatusCodeRange :=
  match atoi (String.ofList first) with
  | none => .error ("invalid range start: " ++ String.ofList token)
  | some start =>
    match atoi (String.ofList last) with
    | none => .error ("invalid range end: " ++ String.ofList token)
    | some stop =>
      if start > stop then .error ("range start > end: " ++ String.ofList token)
      else if start < 100 ∨ stop > 599 then
        .error ("range out of bounds: " ++ String.ofList token)
      else .ok ⟨start, stop⟩

def parseHTTPStatusCodeToken (seg : List Char) : Except String StatusCodeRange :=
  let token := body seg
  if token = [] then .error "empty token"
  else if '-' ∈ token then
    match token.splitOn '-' with
    | [first, last] =>
      if first = [] ∨ last = [] then .error ("invalid range token: " ++ String.ofList token)
      else parseBounds token first last
    | _ => .error ("invalid range token: " ++ String.ofList token)
  else parseCode token

/-- What stands between the commas of a rule, of either width. -/
def segments (input : List Char) : List (List Char) :=
  ((input.map fun c => if c = '，' then ',' else c).splitOn ',').map (trimList isSpace)

def tokens (input : String) : List (List Char) :=
  (segments (trimList isSpace input.toList)).filter (· ≠ [])

def rejected (seg : List Char) : Bool := !(parseHTTPStatusCodeToken seg).isOk

def accepted (seg : List Char) : Option StatusCodeRange := (parseHTTPStatusCodeToken seg).toOption

def parseHTTPStatusCodeRanges (input : String) : Except String (List StatusCodeRange) :=
  if trimList isSpace input.toList = [] then .ok []
  else
    let invalid := (tokens input).filter rejected
    if invalid ≠ [] then
      .error ("invalid http status code rules: " ++
        String.intercalate ", " (invalid.map String.ofList))
    else .ok (normalize ((tokens input).filterMap accepted))

def renderRange (r : StatusCodeRange) : String :=
  if r.start = r.stop then toString r.start else toString r.start ++ "-" ++ toString r.stop

def statusCodeRangesToString (ranges : List StatusCodeRange) : String :=
  String.intercalate "," (ranges.map renderRange)

def shouldMatchStatusCodeRanges (ranges : List StatusCodeRange) (code : Int) : Bool :=
  if code < 100 ∨ code > 599 then false else search code ranges

section Numerals

/-- A number as a rule may write it: digits, with a plus sign allowed in front. -/
def Numeral (cs : List Char) (n : Int) : Prop :=
  ∃ ds, (cs = ds ∨ cs = '+' :: ds) ∧ ds ≠ [] ∧ ds.all Char.isDigit = true ∧
    n = (Nat.ofDigitChars 10 ds 0 : Nat)

variable {cs : List Char} {n : Int}

theorem foldl_digits (cs : List Char) (a : Nat) :
    cs.foldl (fun n c => n.bind fun n => (digit? c).map (n * 10 + ·)) (some a) =
      if cs.all Char.isDigit then some (Nat.ofDigitChars 10 cs a) else none := by
  induction cs generalizing a with
  | nil => simp
  | cons c cs ih =>
    rw [List.foldl_cons, List.all_cons]
    cases hc : c.isDigit with
    | true =>
      have hd : digit? c = some (c.toNat - '0'.toNat) := by rw [digit?, if_pos hc]
      simp only [hd, Option.bind_some, Option.map_some, Bool.true_and]
      rw [ih, Nat.ofDigitChars_cons, Nat.mul_comm]
    | false =>
      have hd : digit? c = none := by rw [digit?, if_neg (by simp [hc])]
      simp only [hd, Option.bind_some, Option.map_none, Bool.false_and]
      clear ih
      induction cs with
      | nil => rfl
      | cons c cs ih => exact ih

theorem digits_eq (hcs : cs ≠ []) :
    digits cs = if cs.all Char.isDigit then some (Nat.ofDigitChars 10 cs 0) else none := by
  rw [digits, if_neg hcs, foldl_digits]

/-- Without a minus sign only a plus sign is split off. -/
theorem splitSign_of_no_minus (h : '-' ∉ cs) :
    ∃ ds, (cs = ds ∨ cs = '+' :: ds) ∧ splitSign cs = (false, ds) := by
  unfold splitSign
  split
  next ds => exact absurd List.mem_cons_self h
  next ds => exact ⟨ds, .inr rfl, rfl⟩
  next => exact ⟨cs, .inl rfl, rfl⟩

theorem numeral_of_atoi (hm : '-' ∉ cs) (h : atoi (String.ofList cs) = some n) : Numeral cs n := by
  obtain ⟨ds, hcs, hsplit⟩ := splitSign_of_no_minus hm
  rw [atoi, String.toList_ofList, hsplit] at h
  by_cases hne : ds = []
  · simp [digits, hne] at h
  · cases hall : ds.all Char.isDigit with
    | false => simp [digits_eq hne, hall] at h
    | true =>
      rw [digits_eq hne, hall] at h
      simp only [if_true, Bool.false_eq_true, if_false] at h
      split at h
      · exact ⟨ds, hcs, hne, hall, (Option.some.inj h).symm⟩
      · cases h

theorem isDigit_ne_sign {c : Char} (h : c.isDigit = true) : c ≠ '-' ∧ c ≠ '+' := by
  constructor <;> (rintro rfl; exact absurd h (by decide))

theorem Numeral.no_minus (h : Numeral cs n) : '-' ∉ cs := by
  obtain ⟨ds, hcs, -, hall, -⟩ := h
  have hds : '-' ∉ ds := fun hmem => (isDigit_ne_sign (List.all_eq_true.1 hall _ hmem)).1 rfl
  rcases hcs with rfl | rfl
  · exact hds
  · simpa using hds

theorem Numeral.ne_nil (h : Numeral cs n) : cs ≠ [] := by
  obtain ⟨ds, rfl | rfl, hne, -⟩ := h
  · exact hne
  · exact List.cons_ne_nil _ _

theorem splitSign_digits {ds : List Char} (hall : ds.all Char.isDigit = true) :
    splitSign ds = (false, ds) := by
  unfold splitSign
  split
  next ds => exact absurd rfl (isDigit_ne_sign (List.all_eq_true.1 hall _ List.mem_cons_self)).1
  next ds => exact absurd rfl (isDigit_ne_sign (List.all_eq_true.1 hall _ List.mem_cons_self)).2
  next => rfl

theorem atoi_of_numeral (h : Numeral cs n) (hn : n < 2 ^ 63) :
    atoi (String.ofList cs) = some n := by
  obtain ⟨ds, hcs, hne, hall, hval⟩ := h
  have hsplit : splitSign cs = (false, ds) := by
    rcases hcs with rfl | rfl
    · exact splitSign_digits hall
    · rfl
  rw [atoi, String.toList_ofList, hsplit]
  simp only [digits_eq hne, hall, if_true, Bool.false_eq_true, if_false]
  rw [← hval, if_pos ⟨by omega, hn⟩]

end Numerals

section Tokens

/-- The codes a token stands for: one code, or the codes between two bounds. -/
def Denotes (seg : List Char) (r : StatusCodeRange) : Prop :=
  100 ≤ r.start ∧ r.start ≤ r.stop ∧ r.stop ≤ 599 ∧
    ((Numeral (body seg) r.start ∧ r.stop = r.start) ∨
      ∃ first last, body seg = first ++ '-' :: last ∧ Numeral first r.start ∧ Numeral last r.stop)

variable {seg token first last : List Char} {r : StatusCodeRange}

theorem parseCode_iff (hm : '-' ∉ token) :
    parseCode token = .ok r ↔
      100 ≤ r.start ∧ r.start ≤ 599 ∧ Numeral token r.start ∧ r.stop = r.start := by
  unfold parseCode
  constructor
  · intro h
    cases hcode : atoi (String.ofList token) with
    | none => simp [hcode] at h
    | some code =>
      simp only [hcode] at h
      split at h
      · cases h
      · injection h with h
        subst h
        exact ⟨by simp only; omega, by simp only; omega, numeral_of_atoi hm hcode, rfl⟩
  · rintro ⟨hlow, hhigh, hnum, hstop⟩
    simp only [atoi_of_numeral hnum (by omega)]
    rw [if_neg (by omega)]
    cases r
    simp_all

theorem parseBounds_iff (hf : '-' ∉ first) (hl : '-' ∉ last) :
    parseBounds token first last = .ok r ↔
      100 ≤ r.start ∧ r.start ≤ r.stop ∧ r.stop ≤ 599 ∧ Numeral first r.start ∧
        Numeral last r.stop := by
  unfold parseBounds
  constructor
  · intro h
    cases hstart : atoi (String.ofList first) with
    | none => simp [hstart] at h
    | some start =>
      cases hstop : atoi (String.ofList last) with
      | none => simp [hstart, hstop] at h
      | some stop =>
        simp only [hstart, hstop] at h
        split at h
        · cases h
        · split at h
          · cases h
          · injection h with h
            subst h
            exact ⟨by simp only; omega, by simp only; omega, by simp only; omega,
              numeral_of_atoi hf hstart, numeral_of_atoi hl hstop⟩
  · rintro ⟨hlow, hle, hhigh, hfirst, hlast⟩
    simp only [atoi_of_numeral hfirst (by omega), atoi_of_numeral hlast (by omega)]
    rw [if_neg (by omega), if_neg (by omega)]

theorem splitOn_eq_pair (h : token.splitOn '-' = [first, last]) :
    token = first ++ '-' :: last := by
  have := @List.intercalate_splitOn _ token _ _ '-'
  rw [h] at this
  simpa [List.intercalate] using this.symm

/-- A token is accepted exactly when it stands for some codes. -/
theorem parseToken_iff : parseHTTPStatusCodeToken seg = .ok r ↔ Denotes seg r := by
  unfold parseHTTPStatusCodeToken Denotes
  simp only
  by_cases hempty : body seg = []
  · rw [if_pos hempty, hempty]
    constructor
    · exact nofun
    · rintro ⟨-, -, -, ⟨hnum, -⟩ | ⟨first, last, hsplit, -⟩⟩
      · exact absurd rfl hnum.ne_nil
      · exact absurd hsplit (by simp)
  rw [if_neg hempty]
  by_cases hminus : '-' ∈ body seg
  · rw [if_pos hminus]
    have hcode : ∀ n, ¬ Numeral (body seg) n := fun n h => h.no_minus hminus
    constructor
    · intro h
      split at h
      next first last hsplit =>
        split at h
        · cases h
        · have hf := not_mem_of_mem_splitOn (hsplit ▸ List.mem_cons_self : first ∈ _)
          have hl := not_mem_of_mem_splitOn
            (hsplit ▸ List.mem_cons_of_mem _ List.mem_cons_self : last ∈ _)
          obtain ⟨hlow, hle, hhigh, hfirst, hlast⟩ := (parseBounds_iff hf hl).1 h
          exact ⟨hlow, hle, hhigh, .inr ⟨first, last, splitOn_eq_pair hsplit, hfirst, hlast⟩⟩
      next => cases h
    · rintro ⟨hlow, hle, hhigh, ⟨hnum, -⟩ | ⟨first, last, hsplit, hfirst, hlast⟩⟩
      · exact absurd hnum (hcode _)
      · have hpair : (body seg).splitOn '-' = [first, last] := by
          rw [hsplit, List.splitOn_append_cons_self_of_not_mem hfirst.no_minus,
            List.splitOn_eq_singleton hlast.no_minus]
        rw [hpair]
        show (if first = [] ∨ last = [] then _ else parseBounds (body seg) first last) = _
        rw [if_neg (by simp [hfirst.ne_nil, hlast.ne_nil])]
        exact (parseBounds_iff hfirst.no_minus hlast.no_minus).2 ⟨hlow, hle, hhigh, hfirst, hlast⟩
  · rw [if_neg hminus, parseCode_iff hminus]
    constructor
    · rintro ⟨hlow, hhigh, hnum, hstop⟩
      exact ⟨hlow, by omega, by omega, .inl ⟨hnum, hstop⟩⟩
    · rintro ⟨hlow, hle, hhigh, ⟨hnum, hstop⟩ | ⟨first, last, hsplit, -⟩⟩
      · exact ⟨hlow, by omega, hnum, hstop⟩
      · exact absurd (hsplit ▸ by simp) hminus

theorem Denotes.proper (h : Denotes seg r) : r.start ≤ r.stop := h.2.1

theorem accepted_iff : accepted seg = some r ↔ Denotes seg r := by
  rw [← parseToken_iff, accepted]
  cases parseHTTPStatusCodeToken seg with
  | ok r' => simp [Except.toOption]
  | error e => simp [Except.toOption]

theorem rejected_iff : rejected seg = true ↔ ∀ r, ¬ Denotes seg r := by
  simp only [← parseToken_iff, rejected]
  cases parseHTTPStatusCodeToken seg with
  | ok r => simp [Except.isOk, Except.toBool]
  | error e => simp [Except.isOk, Except.toBool]

end Tokens

section Rules

variable {input : String} {ranges : List StatusCodeRange}

theorem tokens_of_blank (h : trimList isSpace input.toList = []) : tokens input = [] := by
  rw [tokens, h]
  rfl

/-- A rule is accepted exactly when every token stands for something, and it is then read into the
ranges of its tokens, sorted and merged. -/
theorem parse_iff :
    parseHTTPStatusCodeRanges input = .ok ranges ↔
      (∀ seg ∈ tokens input, ∃ r, Denotes seg r) ∧
        ranges = normalize ((tokens input).filterMap accepted) := by
  unfold parseHTTPStatusCodeRanges
  by_cases hblank : trimList isSpace input.toList = []
  · rw [if_pos hblank, tokens_of_blank hblank]
    simp [Lib.Ranges.normalize, eq_comm]
  rw [if_neg hblank]
  have hgood : (tokens input).filter rejected = [] ↔ ∀ seg ∈ tokens input, ∃ r, Denotes seg r := by
    rw [List.filter_eq_nil_iff]
    simp only [rejected_iff, not_forall, not_not]
  simp only
  split
  next hbad =>
    rw [ne_eq, hgood] at hbad
    constructor
    · simp
    · exact fun h => absurd h.1 hbad
  next hnone =>
    rw [ne_eq, not_not, hgood] at hnone
    rw [Except.ok.injEq]
    constructor
    · exact fun h => ⟨hnone, h.symm⟩
    · exact fun h => h.2.symm

/-- The codes of HTTP. -/
def Within (r : StatusCodeRange) : Prop := 100 ≤ r.start ∧ r.stop ≤ 599

theorem covers_accepted {segs : List (List Char)} {code : Int} :
    Covers (segs.filterMap accepted) code ↔ ∃ seg ∈ segs, ∃ r, Denotes seg r ∧ r.Has code := by
  unfold Covers
  constructor
  · rintro ⟨r, hr, hcode⟩
    obtain ⟨seg, hseg, haccepted⟩ := List.mem_filterMap.1 hr
    exact ⟨seg, hseg, r, accepted_iff.1 haccepted, hcode⟩
  · rintro ⟨seg, hseg, r, hdenotes, hcode⟩
    exact ⟨r, List.mem_filterMap.2 ⟨seg, hseg, accepted_iff.2 hdenotes⟩, hcode⟩

theorem shouldMatch_iff (hsep : Separated ranges) (hwithin : ∀ r ∈ ranges, Within r) {code : Int} :
    shouldMatchStatusCodeRanges ranges code = true ↔ Covers ranges code := by
  unfold shouldMatchStatusCodeRanges
  split
  next hout =>
    constructor
    · exact nofun
    · rintro ⟨r, hr, hstart, hstop⟩
      have := hwithin r hr
      unfold Within at this
      omega
  next hin => exact search_iff hsep

/-- What a rule is read into. -/
theorem parse_spec (h : parseHTTPStatusCodeRanges input = .ok ranges) :
    Separated ranges ∧ (∀ r ∈ ranges, Within r) ∧
      ∀ code, Covers ranges code ↔ ∃ seg ∈ tokens input, ∃ r, Denotes seg r ∧ r.Has code := by
  obtain ⟨-, rfl⟩ := parse_iff.1 h
  have hdenotes : ∀ r ∈ (tokens input).filterMap accepted, ∃ seg, Denotes seg r := by
    intro r hr
    obtain ⟨seg, -, haccepted⟩ := List.mem_filterMap.1 hr
    exact ⟨seg, accepted_iff.1 haccepted⟩
  have hspec := @normalize_spec ((tokens input).filterMap accepted) fun r hr => by
    obtain ⟨seg, hseg⟩ := hdenotes r hr
    exact hseg.proper
  refine ⟨hspec.1, normalize_within fun r hr => ?_, fun code => ?_⟩
  · obtain ⟨seg, hlow, -, hhigh, -⟩ := hdenotes r hr
    exact ⟨hlow, hhigh⟩
  · rw [hspec.2, covers_accepted]

end Rules

section Rendering

variable {r : StatusCodeRange} {ranges : List StatusCodeRange}

theorem toList_itoa {n : Int} (h : 0 ≤ n) : (toString n).toList = Nat.toDigits 10 n.toNat := by
  obtain ⟨m, rfl⟩ := Int.eq_ofNat_of_zero_le h
  rw [Int.toNat_natCast, ← Nat.toList_repr]
  rfl

theorem numeral_itoa {n : Int} (h : 0 ≤ n) : Numeral (toString n).toList n := by
  refine ⟨_, .inl rfl, ?_, ?_, ?_⟩
  · rw [toList_itoa h]
    exact Nat.toDigits_ne_nil
  · rw [toList_itoa h, List.all_eq_true]
    exact fun c hc => Nat.isDigit_of_mem_toDigits (by decide) (by decide) hc
  · rw [toList_itoa h, Nat.ofDigitChars_ten_toDigits]
    omega

/-- The characters a range is written in. -/
def plain (c : Char) : Bool := c.isDigit || c == '-'

theorem plain_itoa {n : Int} (h : 0 ≤ n) : ∀ c ∈ (toString n).toList, plain c = true := by
  intro c hc
  rw [toList_itoa h] at hc
  have := Nat.isDigit_of_mem_toDigits (by decide) (by decide) hc
  rw [plain, this, Bool.true_or]

theorem not_space_of_plain {c : Char} (h : plain c = true) :
    isSpace c = false ∧ c ≠ ' ' ∧ c ≠ ',' ∧ c ≠ '，' := by
  have hrange : 45 ≤ c.toNat ∧ c.toNat ≤ 57 := by
    rw [plain, Bool.or_eq_true, beq_iff_eq] at h
    rcases h with h | rfl
    · obtain ⟨hlow, hhigh⟩ := Char.isDigit_iff_toNat.1 h
      have : '0'.toNat = 48 ∧ '9'.toNat = 57 := ⟨rfl, rfl⟩
      omega
    · decide
  refine ⟨?_, ?_, ?_, ?_⟩
  · simp only [isSpace, Bool.or_eq_false_iff, Bool.and_eq_false_iff, beq_eq_false_iff_ne,
      decide_eq_false_iff_not]
    omega
  all_goals
    rintro rfl
    exact absurd hrange (by decide)

theorem mem_intercalate {sep : Char} {pieces : List (List Char)} {c : Char}
    (h : c ∈ [sep].intercalate pieces) : c = sep ∨ ∃ piece ∈ pieces, c ∈ piece := by
  induction pieces with
  | nil => simp [List.intercalate] at h
  | cons piece pieces ih =>
    cases pieces with
    | nil => exact .inr ⟨piece, List.mem_cons_self, by simpa [List.intercalate] using h⟩
    | cons next rest =>
      rw [List.intercalate_cons_cons, List.mem_append, List.mem_append, List.mem_singleton] at h
      rcases h with (h | h) | h
      · exact .inr ⟨piece, List.mem_cons_self, h⟩
      · exact .inl h
      · rcases ih h with h | ⟨p, hp, hc⟩
        · exact .inl h
        · exact .inr ⟨p, List.mem_cons_of_mem _ hp, hc⟩

theorem trimList_of_not_space {cs : List Char} (h : ∀ c ∈ cs, isSpace c = false) :
    trimList isSpace cs = cs :=
  trimList_eq_self_iff.2 ⟨fun c hc => h c (List.mem_of_head? hc),
    fun c hc => h c (List.mem_of_getLast? hc)⟩

theorem plain_render (h : Within r) (hr : r.start ≤ r.stop) :
    ∀ c ∈ (renderRange r).toList, plain c = true := by
  obtain ⟨hlow, hhigh⟩ := h
  unfold renderRange
  split
  · exact plain_itoa (by omega)
  · simp only [String.toList_append, List.mem_append]
    rintro c ((hc | hc) | hc)
    · exact plain_itoa (by omega) c hc
    · rw [show "-".toList = ['-'] from rfl, List.mem_singleton] at hc
      rw [hc]
      decide
    · exact plain_itoa (by omega) c hc

theorem body_of_plain {cs : List Char} (h : ∀ c ∈ cs, plain c = true) : body cs = cs := by
  rw [body, trimList_of_not_space fun c hc => (not_space_of_plain (h c hc)).1, List.filter_eq_self]
  intro c hc
  simpa using (not_space_of_plain (h c hc)).2.1

theorem denotes_render (h : Within r) (hr : r.start ≤ r.stop) :
    Denotes (renderRange r).toList r := by
  have hbody := body_of_plain (plain_render h hr)
  obtain ⟨hlow, hhigh⟩ := h
  refine ⟨hlow, hr, hhigh, ?_⟩
  rw [hbody]
  unfold renderRange
  split
  next hsame => exact .inl ⟨numeral_itoa (by omega), hsame.symm⟩
  next =>
    refine .inr ⟨_, _, ?_, numeral_itoa (by omega), numeral_itoa (by omega)⟩
    simp only [String.toList_append, List.append_assoc]
    rfl

theorem render_ne_nil (h : Within r) (hr : r.start ≤ r.stop) : (renderRange r).toList ≠ [] := by
  intro hnil
  obtain ⟨-, -, -, ⟨hnum, -⟩ | ⟨first, last, hsplit, -⟩⟩ := denotes_render h hr
  · rw [hnil] at hnum
    exact hnum.ne_nil rfl
  · rw [hnil] at hsplit
    exact absurd hsplit (by simp [body, trimList])

/-- The tokens of the written ranges are the ranges as they are written. -/
theorem tokens_render (hwithin : ∀ r ∈ ranges, Within r) (hproper : ∀ r ∈ ranges, r.start ≤ r.stop) :
    tokens (statusCodeRangesToString ranges) = ranges.map fun r => (renderRange r).toList := by
  by_cases hne : ranges = []
  · rw [hne]
    rfl
  have hplain : ∀ piece ∈ ranges.map fun r => (renderRange r).toList, ∀ c ∈ piece,
      plain c = true := by
    intro piece hpiece
    obtain ⟨r, hr, rfl⟩ := List.mem_map.1 hpiece
    exact plain_render (hwithin r hr) (hproper r hr)
  have hfull : ∀ piece ∈ ranges.map fun r => (renderRange r).toList, piece ≠ [] := by
    intro piece hpiece
    obtain ⟨r, hr, rfl⟩ := List.mem_map.1 hpiece
    exact render_ne_nil (hwithin r hr) (hproper r hr)
  have htext : (statusCodeRangesToString ranges).toList =
      [','].intercalate (ranges.map fun r => (renderRange r).toList) := by
    rw [statusCodeRangesToString, String.toList_intercalate, List.map_map]
    rfl
  have hpieces : ranges.map (fun r => (renderRange r).toList) ≠ [] := by
    rwa [ne_eq, List.map_eq_nil_iff]
  generalize ranges.map (fun r => (renderRange r).toList) = pieces at *
  have hchars : ∀ c ∈ [','].intercalate pieces, isSpace c = false ∧ c ≠ '，' := by
    intro c hc
    rcases mem_intercalate hc with rfl | ⟨piece, hpiece, hc⟩
    · decide
    · have hns := not_space_of_plain (hplain piece hpiece c hc)
      exact ⟨hns.1, hns.2.2.2⟩
  have hnarrow : ([','].intercalate pieces).map (fun c => if c = '，' then ',' else c) =
      [','].intercalate pieces := by
    rw [List.map_congr_left fun c hc => if_neg (hchars c hc).2, List.map_id']
  have htrim : pieces.map (trimList isSpace) = pieces := by
    rw [List.map_congr_left fun piece hpiece => trimList_of_not_space fun c hc =>
      (not_space_of_plain (hplain piece hpiece c hc)).1, List.map_id']
  have hcomma : ∀ piece ∈ pieces, ',' ∉ piece := fun piece hpiece hc =>
    (not_space_of_plain (hplain piece hpiece _ hc)).2.2.1 rfl
  rw [tokens, htext, trimList_of_not_space fun c hc => (hchars c hc).1, segments, hnarrow,
    List.splitOn_intercalate ',' hcomma hpieces, htrim, List.filter_eq_self]
  intro piece hpiece
  simpa using hfull piece hpiece

/-- Ranges that are written and read again stay the same. -/
theorem parse_render (hsep : Separated ranges) (hwithin : ∀ r ∈ ranges, Within r) :
    parseHTTPStatusCodeRanges (statusCodeRangesToString ranges) = .ok ranges := by
  have htokens := tokens_render hwithin hsep.proper
  apply parse_iff.2
  rw [htokens]
  constructor
  · intro seg hseg
    obtain ⟨r, hr, rfl⟩ := List.mem_map.1 hseg
    exact ⟨r, denotes_render (hwithin r hr) (hsep.proper r hr)⟩
  · have hback : (ranges.map fun r => (renderRange r).toList).filterMap accepted = ranges := by
      rw [List.filterMap_map]
      exact (List.filterMap_congr fun r hr =>
        accepted_iff.2 (denotes_render (hwithin r hr) (hsep.proper r hr))).trans
          List.filterMap_some
    rw [hback, normalize_of_separated hsep]

end Rendering

/-- A rule that is accepted gives sorted ranges with gaps between them, which match exactly the
codes its tokens stand for and are read back from what they are written as. A rule is refused
exactly when one of its tokens stands for no codes. -/
theorem status_code_ranges (input : String) :
    match parseHTTPStatusCodeRanges input with
    | .ok ranges =>
      Separated ranges ∧
        (∀ code, shouldMatchStatusCodeRanges ranges code = true ↔
          ∃ seg ∈ tokens input, ∃ r, Denotes seg r ∧ r.Has code) ∧
        parseHTTPStatusCodeRanges (statusCodeRangesToString ranges) = .ok ranges ∧
        ∀ seg ∈ tokens input, ∃ r, Denotes seg r
    | .error _ => ∃ seg ∈ tokens input, ∀ r, ¬ Denotes seg r := by
  cases hparse : parseHTTPStatusCodeRanges input with
  | ok ranges =>
    obtain ⟨hsep, hwithin, hcovers⟩ := parse_spec hparse
    have hmatch : ∀ code, shouldMatchStatusCodeRanges ranges code = true ↔
        ∃ seg ∈ tokens input, ∃ r, Denotes seg r ∧ r.Has code := fun code => by
      rw [shouldMatch_iff hsep hwithin, hcovers]
    exact ⟨hsep, hmatch, parse_render hsep hwithin, (parse_iff.1 hparse).1⟩
  | error e =>
    show ∃ seg ∈ tokens input, ∀ r, ¬ Denotes seg r
    by_contra hall
    have hgood : ∀ seg ∈ tokens input, ∃ r, Denotes seg r := by
      intro seg hseg
      by_contra hnone
      exact hall ⟨seg, hseg, fun r hr => hnone ⟨r, hr⟩⟩
    have hok := parse_iff.2 ⟨hgood, rfl⟩
    rw [hparse] at hok
    cases hok

example : (parseHTTPStatusCodeRanges " 500-503, 413，401 - 404,405 ").map statusCodeRangesToString =
    .ok "401-405,413,500-503" := by
  decide

end CodeGo.Gateway.StatusCodes
