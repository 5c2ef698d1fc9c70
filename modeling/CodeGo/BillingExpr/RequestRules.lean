import CodeGo.Lib.JsText
import CodeGo.Lib.Pattern
import CodeGo.Lib.DepthSplit
import Mathlib.Data.List.Infix

/-!
# Request rules of a price

`features/pricing/lib/billing-expr.ts`: the editor keeps the rules of a price as groups of
conditions, prints them into the expression and reads them back from it. `parseOther` is what
`JSON.parse` gives, as a text, for a text that is no string literal.
-/

namespace CodeGo.BillingExpr

open CodeGo.Lib CodeGo.Lib.JsText CodeGo.Lib.Pattern
open CodeGo.Lib.DepthSplit (join)

inductive Source where
  | param | header
  deriving DecidableEq, Repr

inductive TimeFunc where
  | hour | minute | weekday | month | day
  deriving DecidableEq, Repr

inductive MatchMode where
  | eq | contains | gt | gte | lt | lte | exist | range
  | other (mode : String)
  deriving DecidableEq, Repr

structure ParamHeaderCondition where
  source : Source
  path : Text
  mode : MatchMode
  value : Text
  deriving DecidableEq, Repr

structure TimeCondition where
  timeFunc : TimeFunc
  timezone : Text
  mode : MatchMode
  value : Text
  rangeStart : Text
  rangeEnd : Text
  deriving DecidableEq, Repr

inductive RequestCondition where
  | paramHeader (c : ParamHeaderCondition)
  | time (c : TimeCondition)
  deriving DecidableEq, Repr

structure RequestRuleGroup where
  conditions : List RequestCondition
  multiplier : Text
  deriving DecidableEq, Repr

def timeMatchOptions : List MatchMode := [.eq, .gte, .lt, .range]

def matchOptions : Source → List MatchMode
  | .header => [.eq, .contains, .exist]
  | .param => [.eq, .contains, .exist, .gt, .gte, .lt, .lte]

def normalizeParamHeader (c : ParamHeaderCondition) : ParamHeaderCondition :=
  { c with mode := if c.mode ∈ matchOptions c.source then c.mode else .eq }

def normalizeTime (c : TimeCondition) : TimeCondition :=
  { c with
    timezone := if c.timezone = [] then lit "Asia/Shanghai" else c.timezone
    mode := if c.mode ∈ timeMatchOptions then c.mode else .gte }

def normalizeCondition : RequestCondition → RequestCondition
  | .paramHeader c => .paramHeader (normalizeParamHeader c)
  | .time c => .time (normalizeTime c)

def isDigit (c : UInt16) : Bool := 48 ≤ c && c ≤ 57

/-- The characters of a number. -/
def numeric (c : UInt16) : Bool := isDigit c || (lit ".eE+-").contains c

/-- The exponent of a number, if it has one. -/
def exponentPart : Text → Bool
  | [] => true
  | c :: t =>
    if c = 101 ∨ c = 69 then
      let digits := match t with
        | s :: r => if s = 43 ∨ s = 45 then r else t
        | [] => []
      digits ≠ [] && digits.all isDigit
    else false

/-- What may follow the digits in front of the point. -/
def fractionPart (digits : Bool) : Text → Bool
  | [] => digits
  | c :: t =>
    if c = 46 then (digits || t.takeWhile isDigit ≠ []) && exponentPart (t.dropWhile isDigit)
    else digits && exponentPart (c :: t)

def unsignedLiteral (t : Text) : Bool :=
  fractionPart (t.takeWhile isDigit ≠ []) (t.dropWhile isDigit)

/-- `NUMERIC_LITERAL_REGEX`. -/
def numericLiteral : Text → Bool
  | [] => false
  | c :: t => if c = 45 then unsignedLiteral t else unsignedLiteral (c :: t)

def TimeFunc.name : TimeFunc → Text
  | .hour => lit "hour"
  | .minute => lit "minute"
  | .weekday => lit "weekday"
  | .month => lit "month"
  | .day => lit "day"

def Source.name : Source → Text
  | .param => lit "param"
  | .header => lit "header"

def buildExprLiteral (mode : MatchMode) (value : Text) : Text :=
  let text := trim value
  if mode = .contains then quote text
  else if text = lit "true" ∨ text = lit "false" then text
  else if numericLiteral text then text
  else quote text

def timeOperator : MatchMode → Text
  | .gte => lit ">="
  | .lt => lit "<"
  | _ => lit "=="

def buildTimeConditionExpr (cond : TimeCondition) : Text :=
  let c := normalizeTime cond
  let fn := c.timeFunc.name ++ lit "(" ++ quote c.timezone ++ lit ")"
  if c.mode = .range then
    let s := trim c.rangeStart
    let e := trim c.rangeEnd
    if numericLiteral s && numericLiteral e then
      fn ++ lit " >= " ++ s ++ lit " || " ++ fn ++ lit " < " ++ e
    else []
  else
    let v := trim c.value
    if numericLiteral v then fn ++ lit " " ++ timeOperator c.mode ++ lit " " ++ v else []

def compareOperator : MatchMode → Text
  | .gt => lit ">"
  | .gte => lit ">="
  | .lt => lit "<"
  | _ => lit "<="

def buildParamHeaderExpr (cond : ParamHeaderCondition) : Text :=
  let c := normalizeParamHeader cond
  let path := trim c.path
  if path = [] then []
  else
    let sourceExpr := c.source.name ++ lit "(" ++ quote path ++ lit ")"
    match c.mode with
    | .exist =>
      if c.source = .header then sourceExpr ++ lit " != \"\"" else sourceExpr ++ lit " != nil"
    | .contains =>
      if c.source = .header then
        lit "has(" ++ sourceExpr ++ lit ", " ++ buildExprLiteral c.mode c.value ++ lit ")"
      else
        sourceExpr ++ lit " != nil && has(" ++ sourceExpr ++ lit ", " ++
          buildExprLiteral c.mode c.value ++ lit ")"
    | .gt | .gte | .lt | .lte =>
      let numText := trim c.value
      if numericLiteral numText then
        sourceExpr ++ lit " != nil && " ++ sourceExpr ++ lit " " ++ compareOperator c.mode ++
          lit " " ++ numText
      else []
    | _ => sourceExpr ++ lit " == " ++ buildExprLiteral c.mode c.value

def buildRequestConditionExpr : RequestCondition → Text
  | .time c => buildTimeConditionExpr c
  | .paramHeader c => buildParamHeaderExpr c

def includes (t sep : Text) : Bool := decide (sep <:+: t)

/-- An alternative is put in parentheses where it stands between others. -/
def wrapAlternative (t : Text) : Text :=
  if includes t (lit " || ") then lit "(" ++ t ++ lit ")" else t

def combineConditions : List Text → Text
  | [t] => t
  | ts => join (lit " && ") (ts.map wrapAlternative)

def buildRuleGroupFactor (group : RequestRuleGroup) : Text :=
  let multiplier := trim group.multiplier
  let condExprs := (group.conditions.map buildRequestConditionExpr).filter (· ≠ [])
  if !numericLiteral multiplier || condExprs.isEmpty then []
  else lit "(" ++ combineConditions condExprs ++ lit " ? " ++ multiplier ++ lit " : 1)"

def buildRequestRuleExpr (groups : List RequestRuleGroup) : Text :=
  join (lit " * ") ((groups.map buildRuleGroupFactor).filter (· ≠ []))

/-- What a character adds to the depth of parentheses. -/
def delta (c : UInt16) : Int := if c = 40 then 1 else if c = 41 then -1 else 0

def splitTopLevel (sep t : Text) : List Text :=
  ((DepthSplit.split delta sep t).map trim).filter (· ≠ [])

def splitTopLevelMultiply (t : Text) : List Text := splitTopLevel (lit " * ") t

def splitTopLevelAnd (t : Text) : List Text := splitTopLevel (lit " && ") t

section Parsing

/-- How reading a rule fails: it is no rule, or `JSON.parse` throws. -/
inductive Failure where
  | null | thrown
  deriving DecidableEq, Repr

def notQuote (c : UInt16) : Bool := c ≠ quotationMark

def timeName (t : Text) : Option (TimeFunc × Text) :=
  [TimeFunc.hour, .minute, .weekday, .month, .day].findSome? fun f => (expect f.name t).map (f, ·)

def sourceName (t : Text) : Option (Source × Text) :=
  [Source.param, .header].findSome? fun s => (expect s.name t).map (s, ·)

def timeRange (t : Text) : Option RequestCondition := do
  let (timeFunc, t) ← timeName t
  let t ← expect (lit "(\"") t
  let (timezone, t) ← run notQuote t
  let t ← expect (lit "\") >= ") t
  let (rangeStart, t) ← run numeric t
  let t ← expect (lit " || ") t
  let t ← expect timeFunc.name t
  let t ← expect (lit "(\"") t
  let t ← expect timezone t
  let t ← expect (lit "\") < ") t
  let (rangeEnd, t) ← run numeric t
  if t = [] then some (.time { timeFunc, timezone, mode := .range, value := [], rangeStart, rangeEnd })
  else none

def timeRangeInParens (t : Text) : Option RequestCondition := do
  let t ← expect (lit "(") t
  let t ← expectEnd (lit ")") t
  timeRange t

def operator (modes : List MatchMode) (text : MatchMode → Text) (t : Text) :
    Option (MatchMode × Text) :=
  modes.findSome? fun mode => (expect (text mode ++ lit " ") t).map (mode, ·)

def timeCompare (t : Text) : Option RequestCondition := do
  let (timeFunc, t) ← timeName t
  let t ← expect (lit "(\"") t
  let (timezone, t) ← run notQuote t
  let t ← expect (lit "\") ") t
  let (mode, t) ← operator [.eq, .gte, .lt] timeOperator t
  let (value, t) ← run numeric t
  if t = [] then some (.time { timeFunc, timezone, mode, value, rangeStart := [], rangeEnd := [] })
  else none

def tryParseTimeCondition (t : Text) : Option RequestCondition :=
  timeRange t <|> timeRangeInParens t <|> timeCompare t

def headerExists (t : Text) : Option RequestCondition := do
  let t ← expect (lit "header(\"") t
  let (path, t) ← run notQuote t
  if t = lit "\") != \"\"" then
    some (.paramHeader { source := .header, path, mode := .exist, value := [] })
  else none

def paramExists (t : Text) : Option RequestCondition := do
  let t ← expect (lit "param(\"") t
  let (path, t) ← run notQuote t
  if t = lit "\") != nil" then
    some (.paramHeader { source := .param, path, mode := .exist, value := [] })
  else none

/-- The path of a header and the inside of the string that it contains. -/
def headerContains (t : Text) : Option (Text × Text) := do
  let t ← expect (lit "has(header(\"") t
  let (path, t) ← run notQuote t
  let t ← expect (lit "\"), \"") t
  let (body, t) ← literalBody t
  if t = lit ")" then some (path, body) else none

def paramContains (t : Text) : Option (Text × Text) := do
  let t ← expect (lit "param(\"") t
  let (path, t) ← run notQuote t
  let t ← expect (lit "\") != nil && has(param(\"") t
  let (again, t) ← run notQuote t
  let t ← expect (lit "\"), \"") t
  let (body, t) ← literalBody t
  if t = lit ")" ∧ path = again then some (path, body) else none

def paramCompare (t : Text) : Option RequestCondition := do
  let t ← expect (lit "param(\"") t
  let (path, t) ← run notQuote t
  let t ← expect (lit "\") != nil && param(\"") t
  let (again, t) ← run notQuote t
  let t ← expect (lit "\") ") t
  let (mode, t) ← operator [.gt, .gte, .lt, .lte] compareOperator t
  let (value, t) ← run numeric t
  if t = [] ∧ path = again then some (.paramHeader { source := .param, path, mode, value })
  else none

/-- What a source is compared to. -/
def equals (t : Text) : Option (Source × Text × Text) := do
  let (source, t) ← sourceName t
  let t ← expect (lit "(\"") t
  let (path, t) ← run notQuote t
  let raw ← expect (lit "\") == ") t
  if raw ≠ [] ∧ raw.all (!isLineTerminator ·) then some (source, path, raw) else none

variable (parseOther : Text → Option Text)

def parseExprLiteral (raw : Text) : Option Text :=
  let text := trim raw
  if text = lit "true" ∨ text = lit "false" then some text
  else if numericLiteral text then some text
  else if text.head? = some quotationMark then parseString text
  else parseOther text

/-- A string that a pattern has found is parsed outside of any `catch`. -/
def containsCondition (source : Source) (path body : Text) : Except Failure RequestCondition :=
  match unescape body with
  | some value => .ok (.paramHeader { source, path, mode := .contains, value })
  | none => .error .thrown

def equalsCondition (t : Text) : Except Failure RequestCondition :=
  match equals t with
  | none => .error .null
  | some (source, path, raw) =>
    match parseExprLiteral parseOther raw with
    | none => .error .null
    | some value => .ok (.paramHeader { source, path, mode := .eq, value })

def tryParseRequestCondition (t : Text) : Except Failure RequestCondition :=
  match tryParseTimeCondition t <|> headerExists t <|> paramExists t with
  | some c => .ok c
  | none =>
    match headerContains t with
    | some (path, body) => containsCondition .header path body
    | none =>
      match paramContains t with
      | some (path, body) => containsCondition .param path body
      | none =>
        match paramCompare t with
        | some c => .ok c
        | none => equalsCondition parseOther t

/-- The text of the conditions and the multiplier of a factor. -/
def factorParts (part : Text) : Option (Text × Text) := do
  let t ← expect (lit "(") part
  let t ← expectEnd (lit " : 1)") t
  let (t, multiplier) ← runEnd numeric t
  let conditionStr ← expectEnd (lit " ? ") t
  if conditionStr = [] then none else some (conditionStr, multiplier)

def tryParseRuleGroupFactor (part : Text) : Except Failure RequestRuleGroup :=
  match factorParts part with
  | none => .error .null
  | some (conditionStr, multiplier) => do
    let conditions ←
      (splitTopLevelAnd conditionStr).mapM fun t => tryParseRequestCondition parseOther (trim t)
    if conditions = [] then .error .null else .ok { conditions, multiplier }

def tryParseRequestRuleExpr (expr : Text) : Except Failure (List RequestRuleGroup) :=
  let trimmed := trim expr
  if trimmed = [] then .ok []
  else (splitTopLevelMultiply trimmed).mapM (tryParseRuleGroupFactor parseOther)

end Parsing

end CodeGo.BillingExpr
