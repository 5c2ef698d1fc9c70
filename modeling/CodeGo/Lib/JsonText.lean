import CodeGo.Lib.Decimal
import CodeGo.Lib.Json

/-!
# Reading JSON text

The decoder's reading of a text, and that it reads back what the encoder writes.
-/

namespace CodeGo.Lib.Json

def dropSign : List Char → List Char
  | '+' :: s => s
  | '-' :: s => s
  | s => s

def isExponent : List Char → Bool
  | [] => true
  | c :: s => (c == 'e' || c == 'E') && !(dropSign s).isEmpty && (dropSign s).all Char.isDigit

def isFraction : List Char → Bool
  | [] => true
  | c :: s =>
    if c = '.' then (s.head?.any Char.isDigit) && isExponent (s.dropWhile Char.isDigit)
    else isExponent (c :: s)

def isUnsigned : List Char → Bool
  | [] => false
  | c :: s => if c = '0' then isFraction s else c.isDigit && isFraction (s.dropWhile Char.isDigit)

/-- The text is a number literal. -/
def isNumber : List Char → Bool
  | [] => false
  | c :: s => if c = '-' then isUnsigned s else isUnsigned (c :: s)

/-- The characters that number literals are made of. -/
def isNumeral (c : Char) : Bool :=
  c.isDigit || c == '-' || c == '+' || c == '.' || c == 'e' || c == 'E'

theorem digit_head_ne_zero {n : Nat} (h : 0 < n) :
    ∃ c s, Nat.toDigits 10 n = c :: s ∧ c ≠ '0' := by
  induction n using Nat.strongRecOn with
  | ind n ih =>
    by_cases hn : n < 10
    · use n.digitChar, [], Nat.toDigits_of_lt_base hn
      have hall : ∀ m < 10, 0 < m → Nat.digitChar m ≠ '0' := by decide
      exact hall n hn h
    · obtain ⟨c, s, hs, hc⟩ := ih (n / 10) (by omega) (by omega)
      use c, s ++ [(n % 10).digitChar]
      rw [Nat.toDigits_of_base_le (by decide) (by omega), hs]
      exact ⟨rfl, hc⟩

theorem isUnsigned_toDigits (n : Nat) : isUnsigned (Nat.toDigits 10 n) = true := by
  rcases Nat.eq_zero_or_pos n with rfl | h
  · rfl
  · obtain ⟨c, s, hs, hc⟩ := digit_head_ne_zero h
    have hdigit : ∀ d ∈ c :: s, d.isDigit = true := by
      intro d hd
      rw [← hs] at hd
      exact Decimal.mem_toDigits hd
    have hrest : s.dropWhile Char.isDigit = [] :=
      List.dropWhile_eq_nil_iff.2 fun d hd => hdigit d (List.mem_cons_of_mem _ hd)
    rw [hs, isUnsigned, if_neg hc, hdigit c List.mem_cons_self, hrest]
    rfl

/-- Integers are written as number literals. -/
theorem isNumber_toString (n : Int) : isNumber (toString n).toList = true := by
  rw [Decimal.toList_toString]
  split
  · have hunsigned := isUnsigned_toDigits n.toNat
    cases h : Nat.toDigits 10 n.toNat with
    | nil => exact absurd h Nat.toDigits_ne_nil
    | cons c s =>
      have hc : c ≠ '-' := by
        rintro rfl
        have hdigit := Decimal.mem_toDigits (h ▸ List.mem_cons_self : '-' ∈ Nat.toDigits 10 n.toNat)
        revert hdigit
        decide
      rw [isNumber, if_neg hc, ← h]
      exact hunsigned
  · exact isUnsigned_toDigits _

theorem isNumeral_of_isDigit {c : Char} (h : c.isDigit = true) : isNumeral c = true := by
  simp [isNumeral, h]

theorem forall_of_dropWhile {p q : Char → Bool} (hpq : ∀ c, p c = true → q c = true)
    {s : List Char} (h : (s.dropWhile p).all q = true) : s.all q = true := by
  rw [← List.takeWhile_append_dropWhile (p := p) (l := s), List.all_append, h, Bool.and_true,
    List.all_eq_true]
  intro c hc
  exact hpq c (List.all_eq_true.1 List.all_takeWhile c hc)

theorem all_isNumeral_dropSign {s : List Char} (h : (dropSign s).all isNumeral = true) :
    s.all isNumeral = true := by
  unfold dropSign at h
  split at h
  · rw [List.all_cons, h]
    decide
  · rw [List.all_cons, h]
    decide
  · exact h

theorem isNumeral_of_isExponent {s : List Char} (h : isExponent s = true) :
    s.all isNumeral = true := by
  cases s with
  | nil => rfl
  | cons c s =>
    rw [isExponent, Bool.and_eq_true, Bool.and_eq_true, Bool.or_eq_true] at h
    obtain ⟨⟨hc, -⟩, hdigits⟩ := h
    have hrest : (dropSign s).all isNumeral = true := by
      rw [List.all_eq_true] at hdigits ⊢
      intro d hd
      exact isNumeral_of_isDigit (hdigits d hd)
    rw [List.all_cons, all_isNumeral_dropSign hrest, Bool.and_true]
    rcases hc with hc | hc
    · simp [isNumeral, beq_iff_eq.1 hc]
    · simp [isNumeral, beq_iff_eq.1 hc]

theorem isNumeral_of_isFraction {s : List Char} (h : isFraction s = true) :
    s.all isNumeral = true := by
  cases s with
  | nil => rfl
  | cons c s =>
    rw [isFraction] at h
    split at h
    · next hc =>
      rw [Bool.and_eq_true] at h
      rw [List.all_cons, hc,
        forall_of_dropWhile (fun _ => isNumeral_of_isDigit) (isNumeral_of_isExponent h.2)]
      decide
    · exact isNumeral_of_isExponent h

theorem isNumeral_of_isUnsigned {s : List Char} (h : isUnsigned s = true) :
    s.all isNumeral = true := by
  cases s with
  | nil => cases h
  | cons c s =>
    rw [isUnsigned] at h
    split at h
    · next hc =>
      rw [List.all_cons, hc, isNumeral_of_isFraction h]
      decide
    · rw [Bool.and_eq_true] at h
      rw [List.all_cons, isNumeral_of_isDigit h.1,
        forall_of_dropWhile (fun _ => isNumeral_of_isDigit) (isNumeral_of_isFraction h.2)]
      rfl

theorem isNumeral_of_isNumber {s : List Char} (h : isNumber s = true) :
    s.all isNumeral = true := by
  cases s with
  | nil => rfl
  | cons c s =>
    rw [isNumber] at h
    split at h
    · next hc =>
      rw [List.all_cons, hc, isNumeral_of_isUnsigned h]
      decide
    · exact isNumeral_of_isUnsigned h

/-- How a number literal begins. -/
theorem head_of_isNumber {c : Char} {s : List Char} (h : isNumber (c :: s) = true) :
    c = '-' ∨ c.isDigit = true := by
  rw [isNumber] at h
  split at h
  · next hc => exact .inl hc
  · rw [isUnsigned] at h
    split at h
    · next hc =>
      rw [hc]
      exact .inr (by decide)
    · exact .inr (Bool.and_eq_true _ _ ▸ h).1

/-- A piece of a string as it is written: a character, or a code unit in hexadecimal. -/
inductive Piece where
  | char (c : Char)
  | unit (n : Nat)
  deriving DecidableEq, Repr

def hexValue (c : Char) : Option Nat :=
  if '0' ≤ c ∧ c ≤ '9' then some (c.toNat - 48)
  else if 'a' ≤ c ∧ c ≤ 'f' then some (c.toNat - 87)
  else if 'A' ≤ c ∧ c ≤ 'F' then some (c.toNat - 55)
  else none

def hexUnit (a b c d : Char) : Option Nat := do
  let a ← hexValue a
  let b ← hexValue b
  let c ← hexValue c
  let d ← hexValue d
  return 4096 * a + 256 * b + 16 * c + d

def shortEscape (c : Char) : Option Char :=
  if c = '"' ∨ c = '\\' ∨ c = '/' then some c
  else if c = 'b' then some (Char.ofNat 8)
  else if c = 'f' then some (Char.ofNat 12)
  else if c = 'n' then some '\n'
  else if c = 'r' then some '\r'
  else if c = 't' then some '\t'
  else none

/-- The pieces up to the closing quotation mark, and the text after it. -/
def readPieces : List Char → Option (List Piece × List Char)
  | [] => none
  | '"' :: s => some ([], s)
  | '\\' :: 'u' :: a :: b :: c :: d :: s => do
    let n ← hexUnit a b c d
    let (pieces, rest) ← readPieces s
    return (.unit n :: pieces, rest)
  | '\\' :: c :: s => do
    let c ← shortEscape c
    let (pieces, rest) ← readPieces s
    return (.char c :: pieces, rest)
  | c :: s =>
    if c.toNat < 32 ∨ c = '\\' then none
    else do
      let (pieces, rest) ← readPieces s
      return (.char c :: pieces, rest)

def isHighUnit (n : Nat) : Bool := 0xD800 ≤ n && n < 0xDC00

def isLowUnit (n : Nat) : Bool := 0xDC00 ≤ n && n < 0xE000

/-- A surrogate on its own is replaced. -/
def ofUnit (n : Nat) : Char := if isHighUnit n || isLowUnit n then Char.ofNat 0xFFFD else Char.ofNat n

/-- A high surrogate and a low one are one character. -/
def joinPieces : List Piece → List Char
  | [] => []
  | .char c :: pieces => c :: joinPieces pieces
  | .unit n :: .unit m :: pieces =>
    if isHighUnit n && isLowUnit m then
      Char.ofNat (0x10000 + (n - 0xD800) * 1024 + (m - 0xDC00)) :: joinPieces pieces
    else ofUnit n :: joinPieces (.unit m :: pieces)
  | .unit n :: pieces => ofUnit n :: joinPieces pieces

theorem joinPieces_unit {n : Nat} (h : isHighUnit n = false) (pieces : List Piece) :
    joinPieces (.unit n :: pieces) = ofUnit n :: joinPieces pieces := by
  cases pieces with
  | nil => rfl
  | cons piece pieces =>
    cases piece with
    | char c => rfl
    | unit m => rw [joinPieces, h, Bool.false_and, if_neg (by decide)]

/-- The piece that the encoder writes for a character. -/
def pieceOf (c : Char) : Piece :=
  if c.toNat < 32 ∧ c.toNat ≠ 8 ∧ c.toNat ≠ 12 ∧ c ≠ '\n' ∧ c ≠ '\r' ∧ c ≠ '\t' ∨ c = '<' ∨ c = '>' ∨
    c = '&' ∨ c.toNat = 0x2028 ∨ c.toNat = 0x2029 then .unit c.toNat
  else .char c

theorem joinPieces_pieceOf (cs : List Char) : joinPieces (cs.map pieceOf) = cs := by
  induction cs with
  | nil => rfl
  | cons c cs ih =>
    rw [List.map_cons]
    by_cases h : c.toNat < 32 ∧ c.toNat ≠ 8 ∧ c.toNat ≠ 12 ∧ c ≠ '\n' ∧ c ≠ '\r' ∧ c ≠ '\t' ∨
        c = '<' ∨ c = '>' ∨ c = '&' ∨ c.toNat = 0x2028 ∨ c.toNat = 0x2029
    · have hsmall : c.toNat < 0xD800 := by
        rcases h with ⟨h, -⟩ | rfl | rfl | rfl | h | h
        · omega
        · decide
        · decide
        · decide
        · omega
        · omega
      have hhigh : isHighUnit c.toNat = false := by
        rw [isHighUnit, Bool.and_eq_false_iff]
        exact .inl (decide_eq_false (by omega))
      have hlow : isLowUnit c.toNat = false := by
        rw [isLowUnit, Bool.and_eq_false_iff]
        exact .inl (decide_eq_false (by omega))
      rw [pieceOf, if_pos h, joinPieces_unit hhigh, ih, ofUnit, hhigh, hlow, if_neg (by decide),
        Char.ofNat_toNat]
    · rw [pieceOf, if_neg h, joinPieces, ih]

theorem hexValue_hexDigit : ∀ n < 16, hexValue (hexDigit n) = some n := by decide

theorem hexUnit_hexDigit {n : Nat} (h : n < 65536) :
    hexUnit (hexDigit (n / 4096 % 16)) (hexDigit (n / 256 % 16)) (hexDigit (n / 16 % 16))
      (hexDigit (n % 16)) = some n := by
  rw [hexUnit, hexValue_hexDigit _ (by omega), hexValue_hexDigit _ (by omega),
    hexValue_hexDigit _ (by omega), hexValue_hexDigit _ (by omega)]
  simp only [Option.bind_eq_bind, Option.bind_some, Option.pure_def, Option.some.injEq]
  omega

/-- A piece in front of what is read. -/
def addPiece (piece : Piece) : List Piece × List Char → List Piece × List Char
  | (pieces, rest) => (piece :: pieces, rest)

theorem readPieces_short {e c : Char} (h : shortEscape e = some c) (he : e ≠ 'u') (s : List Char) :
    readPieces ('\\' :: e :: s) = (readPieces s).map (addPiece (.char c)) := by
  rw [readPieces, h]
  · cases readPieces s <;> rfl
  · rintro a b c d s' rfl
    exact absurd rfl he

theorem readPieces_unicode {n : Nat} {a b c d : Char} (h : hexUnit a b c d = some n)
    (s : List Char) :
    readPieces ('\\' :: 'u' :: a :: b :: c :: d :: s) =
      (readPieces s).map (addPiece (.unit n)) := by
  rw [readPieces, h]
  cases readPieces s <;> rfl

theorem readPieces_plain {c : Char} (hlarge : ¬ c.toNat < 32) (hquote : c ≠ '"') (hslash : c ≠ '\\')
    (s : List Char) : readPieces (c :: s) = (readPieces s).map (addPiece (.char c)) := by
  rw [readPieces, if_neg (by simp [hlarge, hslash])]
  · cases readPieces s <;> rfl
  all_goals simp_all

theorem readPieces_escapeChar (c : Char) (s : List Char) :
    readPieces (escapeChar c ++ s) = (readPieces s).map (addPiece (pieceOf c)) := by
  rw [escapeChar]
  split
  · next h =>
    subst h
    exact readPieces_short rfl (by decide) s
  split
  · next h =>
    subst h
    exact readPieces_short rfl (by decide) s
  split
  · next h =>
    have hc : c = Char.ofNat 8 := Char.toNat_inj.1 h
    subst hc
    exact readPieces_short rfl (by decide) s
  split
  · next h =>
    have hc : c = Char.ofNat 12 := Char.toNat_inj.1 h
    subst hc
    exact readPieces_short rfl (by decide) s
  split
  · next h =>
    subst h
    exact readPieces_short rfl (by decide) s
  split
  · next h =>
    subst h
    exact readPieces_short rfl (by decide) s
  split
  · next h =>
    subst h
    exact readPieces_short rfl (by decide) s
  next hquote hslash hback hfeed hline hreturn htab =>
  split
  · next h =>
    have hpiece : pieceOf c = .unit c.toNat := by
      rw [pieceOf, if_pos]
      tauto
    have hsmall : c.toNat < 65536 := by
      rcases h with h | rfl | rfl | rfl | h | h
      · omega
      · decide
      · decide
      · decide
      · omega
      · omega
    rw [hpiece]
    exact readPieces_unicode (hexUnit_hexDigit hsmall) s
  · next h =>
    have hpiece : pieceOf c = .char c := by
      rw [pieceOf, if_neg]
      tauto
    rw [hpiece]
    exact readPieces_plain (by tauto) hquote hslash s

theorem readPieces_quote (cs rest : List Char) :
    readPieces (cs.flatMap escapeChar ++ '"' :: rest) = some (cs.map pieceOf, rest) := by
  induction cs with
  | nil => rw [List.flatMap_nil, List.nil_append, readPieces, List.map_nil]
  | cons c cs ih =>
    rw [List.flatMap_cons, List.append_assoc, readPieces_escapeChar, ih]
    rfl

def isBlank (c : Char) : Bool := c == ' ' || c == '\t' || c == '\n' || c == '\r'

/-- The next character that is not blank. -/
def next (s : List Char) : Option (Char × List Char) :=
  match s.dropWhile isBlank with
  | [] => none
  | c :: rest => some (c, rest)

def readString (s : List Char) : Option (String × List Char) :=
  (readPieces s).map fun (pieces, rest) => (String.ofList (joinPieces pieces), rest)

def readNumber (s : List Char) : Option (Json × List Char) :=
  if isNumber (s.takeWhile isNumeral) then
    some (.num (String.ofList (s.takeWhile isNumeral)), s.dropWhile isNumeral)
  else none

def keywords : List (List Char × Json) :=
  [("null".toList, .null), ("true".toList, .bool true), ("false".toList, .bool false)]

def readKeyword (s : List Char) : Option (Json × List Char) :=
  keywords.findSome? fun (word, value) =>
    if word.isPrefixOf s then some (value, s.drop word.length) else none

mutual

/-- A value in front of a text; the number bounds the depth and the length of what is read. -/
def readValue : Nat → List Char → Option (Json × List Char)
  | 0, _ => none
  | n + 1, s => do
    let (c, rest) ← next s
    if c = '"' then (readString rest).map fun (text, rest) => (.str text, rest)
    else if c = '[' then
      match next rest with
      | some (']', rest) => some (.arr [], rest)
      | _ => (readItems n rest).map fun (items, rest) => (.arr items, rest)
    else if c = '\x7b' then
      match next rest with
      | some ('\x7d', rest) => some (.obj [], rest)
      | _ => (readMembers n rest).map fun (members, rest) => (.obj members, rest)
    else if c == '-' || c.isDigit then readNumber (c :: rest)
    else readKeyword (c :: rest)

def readItems : Nat → List Char → Option (List Json × List Char)
  | 0, _ => none
  | n + 1, s => do
    let (item, rest) ← readValue n s
    let (c, rest) ← next rest
    if c = ',' then (readItems n rest).map fun (items, rest) => (item :: items, rest)
    else if c = ']' then some ([item], rest)
    else none

def readMembers : Nat → List Char → Option (List (String × Json) × List Char)
  | 0, _ => none
  | n + 1, s => do
    let (quotation, rest) ← next s
    let (key, rest) ← if quotation = '"' then readString rest else none
    let (colon, rest) ← next rest
    let (value, rest) ← if colon = ':' then readValue n rest else none
    let (c, rest) ← next rest
    if c = ',' then (readMembers n rest).map fun (members, rest) => ((key, value) :: members, rest)
    else if c = '\x7d' then some ([(key, value)], rest)
    else none

end

/-- The value that a text stands for. -/
def parse (s : String) : Option Json :=
  match readValue (s.toList.length + 1) s.toList with
  | some (value, rest) => if rest.all isBlank then some value else none
  | none => none

example : (parse " \x7b\"a\" : [1, -2.5e3, \"\\u00e9\\n\"]\x7d ").map encode =
    some "\x7b\"a\":[1,-2.5e3,\"é\\n\"]\x7d" := by
  decide +kernel

example : (parse "[1,]").isNone ∧ (parse "01").isNone ∧ (parse "nul").isNone := by decide +kernel

mutual

/-- All numbers are number literals. -/
def wellFormed : Json → Bool
  | .num text => isNumber text.toList
  | .arr items => wellFormedItems items
  | .obj members => wellFormedMembers members
  | _ => true

def wellFormedItems : List Json → Bool
  | [] => true
  | item :: rest => wellFormed item && wellFormedItems rest

def wellFormedMembers : List (String × Json) → Bool
  | [] => true
  | (_, value) :: rest => wellFormed value && wellFormedMembers rest

end

mutual

/-- A bound for the reading of a value. -/
def steps : Json → Nat
  | .arr items => 1 + stepsItems items
  | .obj members => 1 + stepsMembers members
  | _ => 1

def stepsItems : List Json → Nat
  | [] => 0
  | item :: rest => 1 + steps item + stepsItems rest

def stepsMembers : List (String × Json) → Nat
  | [] => 0
  | (_, value) :: rest => 1 + steps value + stepsMembers rest

end

/-- The parts with commas between them. -/
def joined (parts : List String) : List Char := [','].intercalate (parts.map String.toList)

theorem joined_singleton (part : String) : joined [part] = part.toList := by simp [joined]

theorem joined_cons_cons (part next : String) (parts : List String) :
    joined (part :: next :: parts) = part.toList ++ ',' :: joined (next :: parts) := by
  simp [joined]

theorem toList_quote (s : String) :
    (quote s).toList = '"' :: (s.toList.flatMap escapeChar ++ ['"']) := by
  rw [quote, String.toList_ofList]
  rfl

theorem toList_encode_arr (items : List Json) :
    (encode (.arr items)).toList = '[' :: (joined (encodeItems items) ++ [']']) := by
  rw [encode, String.toList_append, String.toList_append, String.toList_intercalate]
  rfl

theorem toList_encode_obj (members : List (String × Json)) :
    (encode (.obj members)).toList = '\x7b' :: (joined (encodeMembers members) ++ ['\x7d']) := by
  rw [encode, String.toList_append, String.toList_append, String.toList_intercalate]
  rfl

theorem next_cons {c : Char} (h : isBlank c = false) (s : List Char) : next (c :: s) = some (c, s) := by
  rw [next, List.dropWhile_cons, h]
  rfl

theorem readString_quote (s : String) (rest : List Char) :
    readString (s.toList.flatMap escapeChar ++ '"' :: rest) = some (s, rest) := by
  rw [readString, readPieces_quote, Option.map_some]
  dsimp only
  rw [joinPieces_pieceOf, String.ofList_toList]

/-- The text does not go on with a number. -/
def Stops (s : List Char) : Prop := ∀ c ∈ s.head?, isNumeral c = false

theorem stops_cons {c : Char} (h : isNumeral c = false) (s : List Char) : Stops (c :: s) := by
  intro d hd
  obtain rfl := Option.some.inj hd
  exact h

theorem readNumber_append {text rest : List Char} (h : isNumber text = true) (hrest : Stops rest) :
    readNumber (text ++ rest) = some (.num (String.ofList text), rest) := by
  have hall := List.all_eq_true.1 (isNumeral_of_isNumber h)
  have hnone : rest.takeWhile isNumeral = [] ∧ rest.dropWhile isNumeral = rest := by
    cases rest with
    | nil => exact ⟨rfl, rfl⟩
    | cons c rest =>
      have hc := hrest c rfl
      rw [List.takeWhile_cons, List.dropWhile_cons, hc]
      exact ⟨rfl, rfl⟩
  have htake : (text ++ rest).takeWhile isNumeral = text := by
    rw [List.takeWhile_append_of_pos hall, hnone.1, List.append_nil]
  have hdrop : (text ++ rest).dropWhile isNumeral = rest := by
    rw [List.dropWhile_append_of_pos hall, hnone.2]
  rw [readNumber, htake, hdrop, if_pos h]

theorem isBlank_of_number {c : Char} (h : c = '-' ∨ c.isDigit = true) :
    isBlank c = false ∧ c ≠ '"' ∧ c ≠ '[' ∧ c ≠ '\x7b' := by
  refine ⟨?_, ?_, ?_, ?_⟩
  · rw [isBlank, Bool.or_eq_false_iff, Bool.or_eq_false_iff, Bool.or_eq_false_iff]
    refine ⟨⟨⟨?_, ?_⟩, ?_⟩, ?_⟩ <;>
    · rw [beq_eq_false_iff_ne]
      rintro rfl
      revert h
      decide
  all_goals
    rintro rfl
    revert h
    decide

theorem readValue_number {n : Nat} {text rest : List Char} (h : isNumber text = true)
    (hrest : Stops rest) :
    readValue (n + 1) (text ++ rest) = some (.num (String.ofList text), rest) := by
  cases text with
  | nil => cases h
  | cons c s =>
    have hhead := head_of_isNumber h
    obtain ⟨hblank, hquote, harr, hobj⟩ := isBlank_of_number hhead
    have hbool : (c == '-' || c.isDigit) = true := by
      rw [Bool.or_eq_true, beq_iff_eq]
      exact hhead
    rw [List.cons_append, readValue, next_cons hblank, Option.bind_eq_bind, Option.bind_some]
    dsimp only
    rw [if_neg hquote, if_neg harr, if_neg hobj, if_pos hbool]
    exact readNumber_append h hrest

theorem readValue_string {n : Nat} (s : String) (rest : List Char) :
    readValue (n + 1) ((quote s).toList ++ rest) = some (.str s, rest) := by
  rw [toList_quote, List.cons_append, List.append_assoc, List.singleton_append, readValue,
    next_cons (by decide), Option.bind_eq_bind, Option.bind_some]
  dsimp only
  rw [if_pos rfl, readString_quote, Option.map_some]

theorem readValue_keyword {n : Nat} {word : List Char} {value : Json}
    (h : (word, value) ∈ keywords) (rest : List Char) :
    readValue (n + 1) (word ++ rest) = some (value, rest) := by
  have hcases : (word = "null".toList ∧ value = .null) ∨ (word = "true".toList ∧ value = .bool true) ∨
      (word = "false".toList ∧ value = .bool false) := by
    simpa [keywords] using h
  rcases hcases with ⟨rfl, rfl⟩ | ⟨rfl, rfl⟩ | ⟨rfl, rfl⟩ <;>
  · rw [readValue]
    rfl

/-- The start of a written value: no blank, and no closing bracket. -/
theorem encode_head (value : Json) (h : wellFormed value = true) :
    ∃ c s, (encode value).toList = c :: s ∧ isBlank c = false ∧ c ≠ ']' ∧ c ≠ '\x7d' := by
  cases value with
  | null => exact ⟨'n', "ull".toList, rfl, by decide⟩
  | bool b => cases b with
    | true => exact ⟨'t', "rue".toList, rfl, by decide⟩
    | false => exact ⟨'f', "alse".toList, rfl, by decide⟩
  | num text =>
    rw [wellFormed] at h
    cases hs : text.toList with
    | nil =>
      rw [hs] at h
      cases h
    | cons c s =>
      rw [hs] at h
      have hhead := head_of_isNumber h
      refine ⟨c, s, by rw [encode, hs], (isBlank_of_number hhead).1, ?_, ?_⟩
      all_goals
        rintro rfl
        revert hhead
        decide
  | str s => exact ⟨'"', _, by rw [encode, toList_quote], by decide⟩
  | arr items => exact ⟨'[', _, toList_encode_arr items, by decide⟩
  | obj members => exact ⟨'\x7b', _, toList_encode_obj members, by decide⟩

theorem joined_head {part : String} {c : Char} {s : List Char} (h : part.toList = c :: s)
    (parts : List String) : ∃ t, joined (part :: parts) = c :: t := by
  cases parts with
  | nil => exact ⟨s, by rw [joined_singleton, h]⟩
  | cons next parts => exact ⟨_, by rw [joined_cons_cons, h, List.cons_append]⟩

mutual

theorem readValue_encode (value : Json) (h : wellFormed value = true) {n : Nat}
    (hn : steps value ≤ n) {rest : List Char} (hrest : Stops rest) :
    readValue n ((encode value).toList ++ rest) = some (value, rest) := by
  cases n with
  | zero =>
    exfalso
    revert hn
    cases value <;> simp [steps]
  | succ n =>
    cases value with
    | null => exact readValue_keyword List.mem_cons_self rest
    | bool b => cases b with
      | true => exact readValue_keyword (List.mem_cons_of_mem _ List.mem_cons_self) rest
      | false =>
        exact readValue_keyword (List.mem_cons_of_mem _ (List.mem_cons_of_mem _ List.mem_cons_self)) rest
    | num text =>
      rw [wellFormed] at h
      rw [encode, readValue_number h hrest, String.ofList_toList]
    | str s => exact readValue_string s rest
    | arr items =>
      rw [toList_encode_arr, List.cons_append, List.append_assoc, readValue, next_cons (by decide),
        Option.bind_eq_bind, Option.bind_some]
      dsimp only
      rw [if_neg (by decide), if_pos rfl]
      cases items with
      | nil => rfl
      | cons item items =>
        rw [wellFormed] at h
        have hfuel : stepsItems (item :: items) ≤ n := by
          rw [steps] at hn
          omega
        have hread := readItems_encode item items h hfuel rest
        have hitem : wellFormed item = true := by
          rw [wellFormedItems, Bool.and_eq_true] at h
          exact h.1
        obtain ⟨c, s, hs, hblank, hclose, -⟩ := encode_head item hitem
        obtain ⟨t, ht⟩ := joined_head hs (encodeItems items)
        rw [encodeItems, ht, List.singleton_append, List.cons_append] at hread
        rw [encodeItems, ht, List.singleton_append, List.cons_append, next_cons hblank]
        split
        · next heq => exact absurd (congrArg Prod.fst (Option.some.inj heq)) hclose
        · rw [hread, Option.map_some]
    | obj members =>
      rw [toList_encode_obj, List.cons_append, List.append_assoc, readValue, next_cons (by decide),
        Option.bind_eq_bind, Option.bind_some]
      dsimp only
      rw [if_neg (by decide), if_neg (by decide), if_pos rfl]
      cases members with
      | nil => rfl
      | cons member members =>
        rw [wellFormed] at h
        have hfuel : stepsMembers (member :: members) ≤ n := by
          rw [steps] at hn
          omega
        have hread := readMembers_encode member members h hfuel rest
        have hquote : (quote member.1 ++ ":" ++ encode member.2).toList =
            '"' :: (member.1.toList.flatMap escapeChar ++ ['"'] ++ ':' :: (encode member.2).toList) := by
          rw [String.toList_append, String.toList_append, toList_quote]
          simp
        obtain ⟨t, ht⟩ := joined_head hquote (encodeMembers members)
        rw [encodeMembers, ht, List.singleton_append, List.cons_append] at hread
        rw [encodeMembers, ht, List.singleton_append, List.cons_append, next_cons (by decide)]
        split
        · next heq =>
          have hclose : '"' = '\x7d' := congrArg Prod.fst (Option.some.inj heq)
          exact absurd hclose (by decide)
        · rw [hread, Option.map_some]
termination_by n

theorem readItems_encode (item : Json) (items : List Json)
    (h : wellFormedItems (item :: items) = true) {n : Nat}
    (hn : stepsItems (item :: items) ≤ n) (rest : List Char) :
    readItems n (joined (encodeItems (item :: items)) ++ ([']'] ++ rest)) =
      some (item :: items, rest) := by
  rw [wellFormedItems, Bool.and_eq_true] at h
  rw [stepsItems] at hn
  cases n with
  | zero => omega
  | succ n =>
    cases items with
    | nil =>
      rw [encodeItems, encodeItems, joined_singleton, List.singleton_append, readItems,
        readValue_encode item h.1 (by omega) (stops_cons (by decide) rest)]
      rfl
    | cons item' items =>
      have hread := readItems_encode item' items h.2 (n := n) (by omega) rest
      rw [encodeItems] at hread
      rw [encodeItems, encodeItems, joined_cons_cons, List.append_assoc, List.cons_append, readItems,
        readValue_encode item h.1 (by omega) (stops_cons (by decide) _), Option.bind_eq_bind,
        Option.bind_some]
      dsimp only
      rw [next_cons (by decide), Option.bind_eq_bind, Option.bind_some]
      dsimp only
      rw [if_pos rfl, hread, Option.map_some]
termination_by n

theorem readMembers_encode (member : String × Json) (members : List (String × Json))
    (h : wellFormedMembers (member :: members) = true) {n : Nat}
    (hn : stepsMembers (member :: members) ≤ n) (rest : List Char) :
    readMembers n (joined (encodeMembers (member :: members)) ++ (['\x7d'] ++ rest)) =
      some (member :: members, rest) := by
  obtain ⟨key, value⟩ := member
  rw [wellFormedMembers, Bool.and_eq_true] at h
  rw [stepsMembers] at hn
  cases n with
  | zero => omega
  | succ n =>
    have hkey (s : List Char) : (quote key ++ ":" ++ encode value).toList ++ s =
        '"' :: (key.toList.flatMap escapeChar ++ '"' :: ':' :: ((encode value).toList ++ s)) := by
      rw [String.toList_append, String.toList_append, toList_quote]
      simp
    have hstep {s : List Char} (hs : Stops s) :
        readMembers (n + 1) ((quote key ++ ":" ++ encode value).toList ++ s) = (do
          let (c, rest) ← next s
          if c = ',' then
            (readMembers n rest).map fun (members, rest) => ((key, value) :: members, rest)
          else if c = '\x7d' then some ([(key, value)], rest)
          else none) := by
      rw [hkey, readMembers, next_cons (by decide), Option.bind_eq_bind, Option.bind_some]
      dsimp only
      rw [if_pos rfl, readString_quote, Option.bind_eq_bind, Option.bind_some]
      dsimp only
      rw [next_cons (by decide), Option.bind_eq_bind, Option.bind_some]
      dsimp only
      rw [if_pos rfl, readValue_encode value h.1 (by omega) hs]
      rfl
    cases members with
    | nil =>
      rw [encodeMembers, encodeMembers, joined_singleton, List.singleton_append,
        hstep (stops_cons (by decide) rest)]
      rfl
    | cons member' members =>
      obtain ⟨key', value'⟩ := member'
      have hread := readMembers_encode (key', value') members h.2 (n := n) (by omega) rest
      rw [encodeMembers] at hread
      rw [encodeMembers, encodeMembers, joined_cons_cons, List.append_assoc, List.cons_append,
        hstep (stops_cons (by decide) _), next_cons (by decide), Option.bind_eq_bind,
        Option.bind_some]
      dsimp only
      rw [if_pos rfl, hread, Option.map_some]
termination_by n

end

mutual

/-- A written value is as long as its reading takes. -/
theorem steps_le_length : (value : Json) → wellFormed value = true →
    steps value ≤ (encode value).toList.length
  | .null, _ => by decide
  | .bool true, _ => by decide
  | .bool false, _ => by decide
  | .num text, h => by
    rw [wellFormed] at h
    rw [encode]
    apply List.length_pos_iff.2
    intro hnil
    rw [hnil] at h
    cases h
  | .str s, _ => by
    rw [encode, toList_quote, List.length_cons]
    exact Nat.succ_le_succ (Nat.zero_le _)
  | .arr items, h => by
    have hitems := stepsItems_le_length items h
    rw [steps, toList_encode_arr, List.length_cons, List.length_append, List.length_singleton]
    omega
  | .obj members, h => by
    have hmembers := stepsMembers_le_length members h
    rw [steps, toList_encode_obj, List.length_cons, List.length_append, List.length_singleton]
    omega

theorem stepsItems_le_length : (items : List Json) → wellFormedItems items = true →
    stepsItems items ≤ (joined (encodeItems items)).length + 1
  | [], _ => by simp [stepsItems]
  | [item], h => by
    rw [wellFormedItems, Bool.and_eq_true] at h
    have hitem := steps_le_length item h.1
    rw [stepsItems, stepsItems, encodeItems, encodeItems, joined_singleton]
    omega
  | item :: item' :: items, h => by
    rw [wellFormedItems, Bool.and_eq_true] at h
    have hitem := steps_le_length item h.1
    have hitems := stepsItems_le_length (item' :: items) h.2
    rw [encodeItems] at hitems
    rw [stepsItems, encodeItems, encodeItems, joined_cons_cons, List.length_append, List.length_cons]
    omega

theorem stepsMembers_le_length : (members : List (String × Json)) →
    wellFormedMembers members = true →
    stepsMembers members ≤ (joined (encodeMembers members)).length + 1
  | [], _ => by simp [stepsMembers]
  | [(key, value)], h => by
    rw [wellFormedMembers, Bool.and_eq_true] at h
    have hvalue := steps_le_length value h.1
    rw [stepsMembers, stepsMembers, encodeMembers, encodeMembers, joined_singleton,
      String.toList_append, List.length_append]
    omega
  | (key, value) :: (key', value') :: members, h => by
    rw [wellFormedMembers, Bool.and_eq_true] at h
    have hvalue := steps_le_length value h.1
    have hmembers := stepsMembers_le_length ((key', value') :: members) h.2
    rw [encodeMembers] at hmembers
    rw [stepsMembers, encodeMembers, encodeMembers, joined_cons_cons, List.length_append,
      List.length_cons, String.toList_append, List.length_append]
    omega

end

/-- The decoder reads what the encoder writes. -/
theorem parse_encode {value : Json} (h : wellFormed value = true) :
    parse (encode value) = some value := by
  have hsteps := steps_le_length value h
  have hread : readValue ((encode value).toList.length + 1) ((encode value).toList ++ []) =
      some (value, []) := readValue_encode value h (by omega) (by simp [Stops])
  rw [List.append_nil] at hread
  rw [parse, hread]
  rfl

theorem encode_injective {a b : Json} (ha : wellFormed a = true) (hb : wellFormed b = true)
    (h : encode a = encode b) : a = b := by
  have hparse := parse_encode ha
  rw [h, parse_encode hb] at hparse
  exact (Option.some.inj hparse).symm

end CodeGo.Lib.Json
