import Mathlib.Data.List.Infix

/-!
# Glob patterns

The glob-style patterns of key-value stores over bytes: `?` is any one byte, `*` any bytes,
`[ae]`, `[^e]` and `[a-b]` are one byte of a class, and a backslash takes the next byte as it is.
-/

namespace CodeGo.Lib.Glob

def star : UInt8 := 42
def question : UInt8 := 63
def openBracket : UInt8 := 91
def backslash : UInt8 := 92
def closeBracket : UInt8 := 93
def caret : UInt8 := 94
def dash : UInt8 := 45

/-- One part of a pattern. A class lists the ranges of its bytes. -/
inductive Token where
  | literal (b : UInt8)
  | anyByte
  | anyBytes
  | oneOf (negated : Bool) (ranges : List (UInt8 × UInt8))
  deriving DecidableEq

/-- The ranges of a class and what follows its closing bracket; a class that is not closed ends
with the pattern. -/
def classRanges : List UInt8 → List (UInt8 × UInt8) × List UInt8
  | [] => ([], [])
  | [b] => if b = closeBracket then ([], []) else ([(b, b)], [])
  | b :: c :: rest =>
    if b = backslash then
      let (ranges, after) := classRanges rest
      ((c, c) :: ranges, after)
    else if b = closeBracket then ([], c :: rest)
    else match rest with
      | d :: rest =>
        if c = dash then
          let (ranges, after) := classRanges rest
          ((min b d, max b d) :: ranges, after)
        else
          let (ranges, after) := classRanges (c :: d :: rest)
          ((b, b) :: ranges, after)
      | [] =>
        let (ranges, after) := classRanges [c]
        ((b, b) :: ranges, after)
termination_by pattern => pattern.length

theorem length_classRanges_le (pattern : List UInt8) :
    (classRanges pattern).2.length ≤ pattern.length := by
  fun_induction classRanges pattern <;> simp_all <;> omega

/-- The parts of a pattern. -/
def tokens : List UInt8 → List Token
  | [] => []
  | b :: rest =>
    if b = star then .anyBytes :: tokens rest
    else if b = question then .anyByte :: tokens rest
    else if b = openBracket then
      match rest with
      | c :: inner =>
        if c = caret then
          .oneOf true (classRanges inner).1 :: tokens (classRanges inner).2
        else
          .oneOf false (classRanges (c :: inner)).1 :: tokens (classRanges (c :: inner)).2
      | [] => [.oneOf false []]
    else if b = backslash then
      match rest with
      | c :: rest => .literal c :: tokens rest
      | [] => [.literal b]
    else .literal b :: tokens rest
termination_by pattern => pattern.length
decreasing_by
  all_goals simp only [List.length_cons]
  · omega
  · omega
  · have := length_classRanges_le inner
    omega
  · have := length_classRanges_le (c :: inner)
    simp only [List.length_cons] at this
    omega
  · omega
  · omega

def Token.admits (b : UInt8) : Token → Bool
  | .literal c => b == c
  | .anyByte => true
  | .anyBytes => false
  | .oneOf negated ranges => (ranges.any fun r => decide (r.1 ≤ b) && decide (b ≤ r.2)) != negated

/-- The parts describe the text. -/
def fits : List Token → List UInt8 → Bool
  | [], text => text.isEmpty
  | .anyBytes :: parts, text => text.tails.any fun rest => fits parts rest
  | part :: parts, b :: text => part.admits b && fits parts text
  | _ :: _, [] => false

/-- The pattern describes the text. -/
def glob (pattern text : List UInt8) : Bool := fits (tokens pattern) text

end CodeGo.Lib.Glob
