import CodeGo.Lib.Trim
import Mathlib.Data.List.Basic

/-!
# Texts of a browser

A text is a list of UTF-16 code units, which need not pair up. `quote` prints one as a JSON string
and `unescape` reads the inside of such a string.
-/

namespace CodeGo.Lib.JsText

abbrev Text := List UInt16

/-- The code units of a text of the source. -/
def lit (s : String) : Text := s.toList.map fun c => UInt16.ofNat c.toNat

/-- A property of the units of a text is checked unit by unit, not over the type. -/
theorem forall_mem_of_all {p : UInt16 → Prop} [DecidablePred p] {t : Text}
    (h : t.all (fun c => decide (p c)) = true) : ∀ c ∈ t, p c :=
  fun c hc => of_decide_eq_true (List.all_eq_true.1 h c hc)

def quotationMark : UInt16 := 34

def backslash : UInt16 := 92

/-- What `trim` removes: the white space and the line terminators of the language. -/
def isSpace (c : UInt16) : Bool :=
  let n := c.toNat
  (9 ≤ n && n ≤ 13) || n == 32 || n == 0xA0 || n == 0x1680 || (0x2000 ≤ n && n ≤ 0x200A) ||
    n == 0x2028 || n == 0x2029 || n == 0x202F || n == 0x205F || n == 0x3000 || n == 0xFEFF

/-- What the dot of a pattern does not match. -/
def isLineTerminator (c : UInt16) : Bool := c == 10 || c == 13 || c == 0x2028 || c == 0x2029

def isHigh (c : UInt16) : Bool := 0xD800 ≤ c && c ≤ 0xDBFF

def isLow (c : UInt16) : Bool := 0xDC00 ≤ c && c ≤ 0xDFFF

def trim (t : Text) : Text := Trim.trimList isSpace t

def hexDigit (n : Nat) : UInt16 := UInt16.ofNat (if n < 10 then 48 + n else 87 + n)

/-- A code unit as its number. -/
def unicodeEscape (c : UInt16) : Text :=
  [backslash, 117, hexDigit (c.toNat / 4096), hexDigit (c.toNat / 256 % 16),
    hexDigit (c.toNat / 16 % 16), hexDigit (c.toNat % 16)]

/-- A code unit that is no surrogate. -/
def escapeUnit (c : UInt16) : Text :=
  if c = quotationMark ∨ c = backslash then [backslash, c]
  else if c = 8 then [backslash, 98]
  else if c = 9 then [backslash, 116]
  else if c = 10 then [backslash, 110]
  else if c = 12 then [backslash, 102]
  else if c = 13 then [backslash, 114]
  else if c < 32 then unicodeEscape c
  else [c]

def escapeAlone (c : UInt16) : Text :=
  if isHigh c || isLow c then unicodeEscape c else escapeUnit c

/-- The inside of a JSON string; surrogates that do not pair up are escaped. -/
def escape : Text → Text
  | [] => []
  | [c] => escapeAlone c
  | c :: d :: t =>
    if isHigh c && isLow d then c :: d :: escape t else escapeAlone c ++ escape (d :: t)

/-- `JSON.stringify` of a text. -/
def quote (t : Text) : Text := quotationMark :: escape t ++ [quotationMark]

def hexValue (c : UInt16) : Option Nat :=
  let n := c.toNat
  if 48 ≤ n ∧ n ≤ 57 then some (n - 48)
  else if 97 ≤ n ∧ n ≤ 102 then some (n - 87)
  else if 65 ≤ n ∧ n ≤ 70 then some (n - 55)
  else none

def unicodeValue (a b c d : UInt16) : Option UInt16 := do
  let w ← hexValue a
  let x ← hexValue b
  let y ← hexValue c
  let z ← hexValue d
  some (UInt16.ofNat (4096 * w + 256 * x + 16 * y + z))

/-- What stands for a code unit after a backslash. -/
def simpleEscape (e : UInt16) : Option UInt16 :=
  if e = quotationMark ∨ e = backslash ∨ e = 47 then some e
  else if e = 98 then some 8
  else if e = 116 then some 9
  else if e = 110 then some 10
  else if e = 102 then some 12
  else if e = 114 then some 13
  else none

def unescape : Text → Option Text
  | [] => some []
  | c :: t =>
    if c = backslash then
      match t with
      | [] => none
      | e :: t =>
        if e = 117 then
          match t with
          | w :: x :: y :: z :: t => do
            let u ← unicodeValue w x y z
            let rest ← unescape t
            some (u :: rest)
          | _ => none
        else do
          let u ← simpleEscape e
          let rest ← unescape t
          some (u :: rest)
    else if c = quotationMark ∨ c < 32 then none
    else do
      let rest ← unescape t
      some (c :: rest)

/-- The inside of a string literal as a pattern finds it, behind its first quotation mark, and what
follows the literal. -/
def literalBody : Text → Option (Text × Text)
  | [] => none
  | c :: t =>
    if c = quotationMark then some ([], t)
    else if c = backslash then
      match t with
      | [] => none
      | e :: t =>
        if isLineTerminator e then none
        else (literalBody t).map fun r => (backslash :: e :: r.1, r.2)
    else (literalBody t).map fun r => (c :: r.1, r.2)

/-- `JSON.parse` of a text that starts with a quotation mark. -/
def parseString : Text → Option Text
  | [] => none
  | c :: t =>
    if c = quotationMark ∧ t.getLast? = some quotationMark then unescape t.dropLast else none

theorem unescape_unicodeEscape (c : UInt16) (t : Text) :
    unescape (unicodeEscape c ++ t) = (unescape t).map (c :: ·) := by
  have hhex : ∀ n, n < 16 → hexValue (hexDigit n) = some n := by decide
  have hlt : c.toNat < 65536 := c.toNat_lt
  have hvalue : unicodeValue (hexDigit (c.toNat / 4096)) (hexDigit (c.toNat / 256 % 16))
      (hexDigit (c.toNat / 16 % 16)) (hexDigit (c.toNat % 16)) = some c := by
    unfold unicodeValue
    rw [hhex _ (by omega), hhex _ (by omega), hhex _ (by omega), hhex _ (by omega)]
    have hsum : 4096 * (c.toNat / 4096) + 256 * (c.toNat / 256 % 16) + 16 * (c.toNat / 16 % 16) +
        c.toNat % 16 = c.toNat := by omega
    simp only [Option.bind_eq_bind, Option.bind_some, hsum, UInt16.ofNat_toNat]
  unfold unicodeEscape
  simp only [List.cons_append, List.nil_append, unescape, if_true, hvalue, Option.bind_eq_bind,
    Option.bind_some]
  cases unescape t <;> rfl

theorem unescape_escapeUnit (c : UInt16) (t : Text) :
    unescape (escapeUnit c ++ t) = (unescape t).map (c :: ·) := by
  have hsimple : ∀ e u, e ≠ 117 → simpleEscape e = some u →
      unescape ([backslash, e] ++ t) = (unescape t).map (u :: ·) := by
    intro e u hne hu
    rw [List.cons_append, List.singleton_append, unescape.eq_def]
    simp only [if_true, hne, if_false, hu, Option.bind_eq_bind, Option.bind_some]
    cases unescape t <;> rfl
  unfold escapeUnit
  split_ifs with hquoted h8 h9 h10 h12 h13 hlow
  · rcases hquoted with rfl | rfl
    · exact hsimple _ _ (by decide) (by decide)
    · exact hsimple _ _ (by decide) (by decide)
  · subst h8
    exact hsimple _ _ (by decide) (by decide)
  · subst h9
    exact hsimple _ _ (by decide) (by decide)
  · subst h10
    exact hsimple _ _ (by decide) (by decide)
  · subst h12
    exact hsimple _ _ (by decide) (by decide)
  · subst h13
    exact hsimple _ _ (by decide) (by decide)
  · exact unescape_unicodeEscape c t
  · push Not at hquoted
    rw [List.singleton_append, unescape.eq_def]
    simp only [hquoted.1, hquoted.2, hlow, or_self, if_false, Option.bind_eq_bind]
    cases unescape t <;> rfl

theorem unescape_escapeAlone (c : UInt16) (t : Text) :
    unescape (escapeAlone c ++ t) = (unescape t).map (c :: ·) := by
  unfold escapeAlone
  split
  · exact unescape_unicodeEscape c t
  · exact unescape_escapeUnit c t

theorem surrogate_plain {c : UInt16} (h : isHigh c = true ∨ isLow c = true) :
    c ≠ quotationMark ∧ c ≠ backslash ∧ ¬ c < 32 := by
  have hge : 0xD800 ≤ c.toNat := by
    rcases h with h | h
    · simp only [isHigh, Bool.and_eq_true, decide_eq_true_eq] at h
      exact UInt16.le_iff_toNat_le.1 h.1
    · simp only [isLow, Bool.and_eq_true, decide_eq_true_eq] at h
      have := UInt16.le_iff_toNat_le.1 h.1
      exact le_trans (by decide) this
  refine ⟨?_, ?_, ?_⟩
  · rintro rfl
    exact absurd hge (by decide)
  · rintro rfl
    exact absurd hge (by decide)
  · intro hlt
    have : c.toNat < 32 := UInt16.lt_iff_toNat_lt.1 hlt
    omega

/-- Surrogates need no escape of their own. -/
theorem unescape_surrogate {c : UInt16} (h : isHigh c = true ∨ isLow c = true) (t : Text) :
    unescape (c :: t) = (unescape t).map (c :: ·) := by
  obtain ⟨hquote, hback, hlow⟩ := surrogate_plain h
  rw [unescape.eq_def]
  simp only [hquote, hback, hlow, or_self, if_false, Option.bind_eq_bind]
  cases unescape t <;> rfl

/-- What is printed is read back. -/
theorem unescape_escape (t : Text) : unescape (escape t) = some t := by
  induction t using escape.induct with
  | case1 => rfl
  | case2 c =>
    have h := unescape_escapeAlone c []
    rw [List.append_nil] at h
    rw [escape, h]
    rfl
  | case3 c d t h ih =>
    rw [escape, if_pos h]
    rw [Bool.and_eq_true] at h
    rw [unescape_surrogate (.inl h.1), unescape_surrogate (.inr h.2), ih]
    rfl
  | case4 c d t h ih =>
    rw [escape, if_neg h, unescape_escapeAlone, ih]
    rfl

theorem parseString_quote (t : Text) : parseString (quote t) = some t := by
  unfold quote
  simp only [List.cons_append, parseString, List.getLast?_append, List.getLast?_singleton,
    Option.some_or, and_self, if_true, List.dropLast_concat]
  exact unescape_escape t

theorem literalBody_quote (t : Text) : literalBody (quotationMark :: t) = some ([], t) := by
  rw [literalBody.eq_def]
  simp only [if_true]

theorem literalBody_escaped {e : UInt16} (h : isLineTerminator e = false) (t : Text) :
    literalBody (backslash :: e :: t) =
      (literalBody t).map fun r => (backslash :: e :: r.1, r.2) := by
  have hne : backslash ≠ quotationMark := by decide
  rw [literalBody.eq_def]
  simp only [hne, if_false, if_true, h, Bool.false_eq_true]

theorem literalBody_terminator {e : UInt16} (h : isLineTerminator e = true) (t : Text) :
    literalBody (backslash :: e :: t) = none := by
  have hne : backslash ≠ quotationMark := by decide
  rw [literalBody.eq_def]
  simp only [hne, if_false, if_true, h]

theorem literalBody_char {c : UInt16} (hq : c ≠ quotationMark) (hb : c ≠ backslash) (t : Text) :
    literalBody (c :: t) = (literalBody t).map fun r => (c :: r.1, r.2) := by
  rw [literalBody.eq_def]
  simp only [hq, hb, if_false]

/-- The inside of a string literal: the first quotation mark behind it ends the literal. -/
def IsBody (body : Text) : Prop := ∀ t, literalBody (body ++ quotationMark :: t) = some (body, t)

theorem IsBody.nil : IsBody [] := literalBody_quote

theorem IsBody.char {c : UInt16} {body : Text} (hq : c ≠ quotationMark) (hb : c ≠ backslash)
    (h : IsBody body) : IsBody (c :: body) := by
  intro t
  rw [List.cons_append, literalBody_char hq hb, h t]
  rfl

theorem IsBody.escaped {e : UInt16} {body : Text} (he : isLineTerminator e = false)
    (h : IsBody body) : IsBody (backslash :: e :: body) := by
  intro t
  rw [List.cons_append, List.cons_append, literalBody_escaped he, h t]
  rfl

theorem literalBody_sound {t body r : Text} (h : literalBody t = some (body, r)) :
    t = body ++ quotationMark :: r ∧ IsBody body := by
  induction t using literalBody.induct generalizing body with
  | case1 => cases h
  | case2 t =>
    rw [literalBody_quote] at h
    obtain ⟨rfl, rfl⟩ := Prod.mk.inj (Option.some.inj h)
    exact ⟨rfl, IsBody.nil⟩
  | case3 => cases h
  | case4 e t he =>
    rw [literalBody_terminator he] at h
    cases h
  | case5 e t he _ ih =>
    have he' : isLineTerminator e = false := by simpa using he
    rw [literalBody_escaped he', Option.map_eq_some_iff] at h
    obtain ⟨⟨b, u⟩, hb, heq⟩ := h
    obtain ⟨rfl, rfl⟩ := Prod.mk.inj heq
    obtain ⟨rfl, hbody⟩ := ih hb
    exact ⟨rfl, hbody.escaped he'⟩
  | case6 c t hq hback ih =>
    rw [literalBody_char hq hback, Option.map_eq_some_iff] at h
    obtain ⟨⟨b, u⟩, hb, heq⟩ := h
    obtain ⟨rfl, rfl⟩ := Prod.mk.inj heq
    obtain ⟨rfl, hbody⟩ := ih hb
    exact ⟨rfl, hbody.char hq hback⟩

theorem hexDigit_plain (n : Nat) (h : n < 16) :
    hexDigit n ≠ quotationMark ∧ hexDigit n ≠ backslash := by
  have hall : ∀ k ∈ List.range 16, hexDigit k ≠ quotationMark ∧ hexDigit k ≠ backslash := by
    decide
  exact hall n (List.mem_range.2 h)

theorem IsBody.unicodeEscape {c : UInt16} {body : Text} (h : IsBody body) :
    IsBody (unicodeEscape c ++ body) := by
  have hlt : c.toNat < 65536 := c.toNat_lt
  have h₁ := hexDigit_plain (c.toNat / 4096) (by omega)
  have h₂ := hexDigit_plain (c.toNat / 256 % 16) (by omega)
  have h₃ := hexDigit_plain (c.toNat / 16 % 16) (by omega)
  have h₄ := hexDigit_plain (c.toNat % 16) (by omega)
  exact ((((h.char h₄.1 h₄.2).char h₃.1 h₃.2).char h₂.1 h₂.2).char h₁.1 h₁.2).escaped (by decide)

theorem IsBody.escapeUnit {c : UInt16} {body : Text} (h : IsBody body) :
    IsBody (escapeUnit c ++ body) := by
  unfold JsText.escapeUnit
  split_ifs with hquoted
  · rcases hquoted with rfl | rfl
    · exact h.escaped (by decide)
    · exact h.escaped (by decide)
  · exact h.escaped (by decide)
  · exact h.escaped (by decide)
  · exact h.escaped (by decide)
  · exact h.escaped (by decide)
  · exact h.escaped (by decide)
  · exact h.unicodeEscape
  · push Not at hquoted
    exact h.char hquoted.1 hquoted.2

theorem IsBody.escapeAlone {c : UInt16} {body : Text} (h : IsBody body) :
    IsBody (escapeAlone c ++ body) := by
  unfold JsText.escapeAlone
  split
  · exact h.unicodeEscape
  · exact h.escapeUnit

/-- What is printed is the inside of a literal. -/
theorem isBody_escape (t : Text) : IsBody (escape t) := by
  induction t using escape.induct with
  | case1 => exact IsBody.nil
  | case2 c =>
    have h := IsBody.nil.escapeAlone (c := c)
    rwa [List.append_nil] at h
  | case3 c d t h ih =>
    rw [escape, if_pos h]
    rw [Bool.and_eq_true] at h
    have hc := surrogate_plain (.inl h.1)
    have hd := surrogate_plain (.inr h.2)
    exact (ih.char hd.1 hd.2.1).char hc.1 hc.2.1
  | case4 c d t h ih =>
    rw [escape, if_neg h]
    exact ih.escapeAlone

/-- The characters that an escape is made of. -/
def escapeCharacters : Text := lit "\\ubtnfr0123456789abcdef"

theorem mem_unicodeEscape {c x : UInt16} (h : x ∈ unicodeEscape c) : x ∈ escapeCharacters := by
  have hall : ∀ n, n < 16 → hexDigit n ∈ escapeCharacters := by decide
  have hlt : c.toNat < 65536 := c.toNat_lt
  simp only [unicodeEscape, List.mem_cons, List.not_mem_nil, or_false] at h
  rcases h with rfl | rfl | rfl | rfl | rfl | rfl
  · decide
  · decide
  · exact hall _ (by omega)
  · exact hall _ (by omega)
  · exact hall _ (by omega)
  · exact hall _ (by omega)

theorem mem_escapeUnit {c x : UInt16} (h : x ∈ escapeUnit c) :
    x ∈ escapeCharacters ∨ x = c ∧ 32 ≤ c := by
  have hshort : ∀ e, e ∈ escapeCharacters → x ∈ [backslash, e] → x ∈ escapeCharacters := by
    intro e he hx
    simp only [List.mem_cons, List.not_mem_nil, or_false] at hx
    rcases hx with rfl | rfl
    · decide
    · exact he
  unfold escapeUnit at h
  split_ifs at h with hquoted h8 h9 h10 h12 h13 hlow
  · simp only [List.mem_cons, List.not_mem_nil, or_false] at h
    rcases h with rfl | rfl
    · exact .inl (by decide)
    · exact .inr ⟨rfl, by rcases hquoted with rfl | rfl <;> decide⟩
  · exact .inl (hshort _ (by decide) h)
  · exact .inl (hshort _ (by decide) h)
  · exact .inl (hshort _ (by decide) h)
  · exact .inl (hshort _ (by decide) h)
  · exact .inl (hshort _ (by decide) h)
  · exact .inl (mem_unicodeEscape h)
  · exact .inr ⟨List.mem_singleton.1 h, UInt16.not_lt.1 hlow⟩

theorem mem_escapeAlone {c x : UInt16} (h : x ∈ escapeAlone c) :
    x ∈ escapeCharacters ∨ x = c ∧ 32 ≤ c := by
  unfold escapeAlone at h
  split at h
  · exact .inl (mem_unicodeEscape h)
  · exact mem_escapeUnit h

/-- A printed text has characters of escapes, and characters of the text from the space on. -/
theorem mem_escape {t : Text} {x : UInt16} (h : x ∈ escape t) :
    x ∈ escapeCharacters ∨ x ∈ t ∧ 32 ≤ x := by
  induction t using escape.induct with
  | case1 => cases h
  | case2 c =>
    rcases mem_escapeAlone h with h | ⟨rfl, hle⟩
    · exact .inl h
    · exact .inr ⟨by simp, hle⟩
  | case3 c d t hpair ih =>
    rw [escape, if_pos hpair] at h
    rw [Bool.and_eq_true] at hpair
    rcases List.mem_cons.1 h with rfl | h
    · exact .inr ⟨by simp, UInt16.not_lt.1 (surrogate_plain (.inl hpair.1)).2.2⟩
    rcases List.mem_cons.1 h with rfl | h
    · exact .inr ⟨by simp, UInt16.not_lt.1 (surrogate_plain (.inr hpair.2)).2.2⟩
    rcases ih h with h | h
    · exact .inl h
    · exact .inr ⟨by simp [h.1], h.2⟩
  | case4 c d t hpair ih =>
    rw [escape, if_neg hpair] at h
    rcases List.mem_append.1 h with h | h
    · rcases mem_escapeAlone h with h | ⟨rfl, hle⟩
      · exact .inl h
      · exact .inr ⟨by simp, hle⟩
    · rcases ih h with h | h
      · exact .inl h
      · exact .inr ⟨List.mem_cons_of_mem _ h.1, h.2⟩

theorem quote_not_mem_escape {t : Text} (h : quotationMark ∉ t) : quotationMark ∉ escape t := by
  intro hmem
  rcases mem_escape hmem with hesc | htext
  · revert hesc
    decide
  · exact h htext.1

/-- A character that stands for itself. -/
theorem mem_escape_of_mem {t : Text} {x : UInt16} (h : x ∈ t) (hself : escapeAlone x = [x])
    (hpair : isHigh x = false ∧ isLow x = false) : x ∈ escape t := by
  induction t using escape.induct with
  | case1 => cases h
  | case2 c =>
    obtain rfl := List.mem_singleton.1 h
    rw [escape, hself]
    exact h
  | case3 c d t hcd ih =>
    rw [escape, if_pos hcd]
    rw [Bool.and_eq_true] at hcd
    rcases List.mem_cons.1 h with rfl | h
    · rw [hpair.1] at hcd
      cases hcd.1
    rcases List.mem_cons.1 h with rfl | h
    · rw [hpair.2] at hcd
      cases hcd.2
    · exact List.mem_cons_of_mem _ (List.mem_cons_of_mem _ (ih h))
  | case4 c d t hcd ih =>
    rw [escape, if_neg hcd]
    rcases List.mem_cons.1 h with rfl | h
    · rw [hself]
      exact List.mem_append_left _ (by simp)
    · exact List.mem_append_right _ (ih h)

theorem escapeAlone_cases (c : UInt16) :
    escapeAlone c = [c] ∧ c ≠ quotationMark ∨ 2 ≤ (escapeAlone c).length := by
  have hunicode : 2 ≤ (unicodeEscape c).length := by simp [unicodeEscape]
  unfold escapeAlone
  split
  · exact .inr hunicode
  · unfold escapeUnit
    split_ifs with hquoted
    · exact .inr (by simp)
    · exact .inr (by simp)
    · exact .inr (by simp)
    · exact .inr (by simp)
    · exact .inr (by simp)
    · exact .inr (by simp)
    · exact .inr hunicode
    · push Not at hquoted
      exact .inl ⟨rfl, hquoted.1⟩

theorem escapeAlone_length (c : UInt16) :
    1 + (if c = quotationMark then 1 else 0) ≤ (escapeAlone c).length := by
  rcases escapeAlone_cases c with ⟨h, hne⟩ | h
  · rw [h, if_neg hne]
    simp
  · split <;> omega

/-- Every quotation mark makes a text longer. -/
theorem escape_length (t : Text) : t.length + t.count quotationMark ≤ (escape t).length := by
  induction t using escape.induct with
  | case1 => simp [escape]
  | case2 c =>
    have h := escapeAlone_length c
    rw [escape, List.length_singleton, List.count_singleton]
    simpa only [beq_iff_eq] using h
  | case3 c d t h ih =>
    rw [escape, if_pos h]
    rw [Bool.and_eq_true] at h
    have hc := (surrogate_plain (.inl h.1)).1
    have hd := (surrogate_plain (.inr h.2)).1
    simp only [List.length_cons, List.count_cons_of_ne hc, List.count_cons_of_ne hd]
    omega
  | case4 c d t h ih =>
    have hc := escapeAlone_length c
    have hcount : (c :: d :: t).count quotationMark =
        (d :: t).count quotationMark + if c = quotationMark then 1 else 0 := by
      rw [List.count_cons]
      simp only [beq_iff_eq]
    rw [escape, if_neg h, List.length_append, List.length_cons, hcount]
    omega

/-- A text that is printed as it is has no quotation mark. -/
theorem quote_not_mem_of_escape_eq {t : Text} (h : escape t = t) : quotationMark ∉ t := by
  have hlen := escape_length t
  rw [h] at hlen
  exact List.count_eq_zero.1 (by omega)

theorem IsBody.unique {a b s t : Text} (ha : IsBody a) (hb : IsBody b)
    (h : a ++ quotationMark :: s = b ++ quotationMark :: t) : a = b ∧ s = t := by
  have hs := ha s
  rw [h, hb t] at hs
  obtain ⟨rfl, rfl⟩ := Prod.mk.inj (Option.some.inj hs)
  exact ⟨rfl, rfl⟩

theorem hexValue_plain {c : UInt16} {n : Nat} (h : hexValue c = some n) :
    c ≠ quotationMark ∧ c ≠ backslash := by
  constructor
  · rintro rfl
    revert h
    decide +revert
  · rintro rfl
    revert h
    decide +revert

theorem simpleEscape_plain {e u : UInt16} (h : simpleEscape e = some u) :
    isLineTerminator e = false := by
  by_contra hterm
  rw [Bool.not_eq_false] at hterm
  have hnone : simpleEscape e = none := by
    simp only [isLineTerminator, Bool.or_eq_true, beq_iff_eq] at hterm
    rcases hterm with ((rfl | rfl) | rfl) | rfl <;> decide
  rw [hnone] at h
  cases h

/-- What can be read is the inside of a literal. -/
theorem isBody_of_unescape {b v : Text} (h : unescape b = some v) : IsBody b := by
  induction b using unescape.induct generalizing v with
  | case1 => exact IsBody.nil
  | case2 => cases h
  | case3 w x y z t ih =>
    rw [unescape.eq_def] at h
    simp only [if_true, Option.bind_eq_bind, Option.bind_eq_some_iff] at h
    obtain ⟨u, hu, rest, hrest, -⟩ := h
    simp only [unicodeValue, Option.bind_eq_bind, Option.bind_eq_some_iff] at hu
    obtain ⟨_, hw, _, hx, _, hy, _, hz, -⟩ := hu
    have hw := hexValue_plain hw
    have hx := hexValue_plain hx
    have hy := hexValue_plain hy
    have hz := hexValue_plain hz
    exact (((((ih hrest).char hz.1 hz.2).char hy.1 hy.2).char hx.1 hx.2).char hw.1 hw.2).escaped
      (by decide)
  | case4 t ht =>
    rw [unescape.eq_def] at h
    simp only [if_true] at h
    cases h
  | case5 e t he ih =>
    rw [unescape.eq_def] at h
    simp only [if_true, he, if_false, Option.bind_eq_bind, Option.bind_eq_some_iff] at h
    obtain ⟨u, hu, rest, hrest, -⟩ := h
    exact (ih hrest).escaped (simpleEscape_plain hu)
  | case6 c t hb hq =>
    rw [unescape.eq_def] at h
    simp only [hb, hq, if_false, if_true] at h
    cases h
  | case7 c t hb hq ih =>
    rw [unescape.eq_def] at h
    simp only [hb, hq, if_false, Option.bind_eq_bind, Option.bind_eq_some_iff] at h
    obtain ⟨rest, hrest, -⟩ := h
    push Not at hq
    exact (ih hrest).char hq.1 hb

end CodeGo.Lib.JsText
