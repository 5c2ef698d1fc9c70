import Mathlib.Data.List.Sort

/-!
# JSON values

Decoded JSON, and the text the encoder writes for it. Numbers are kept as the text they are
written as, and an object keeps its members in the order in which they are written.
-/

namespace CodeGo.Lib

inductive Json where
  | null
  | bool (b : Bool)
  | num (text : String)
  | str (s : String)
  | arr (items : List Json)
  | obj (members : List (String × Json))
  deriving Repr, Inhabited

namespace Json

def hexDigit (n : Nat) : Char := if n < 10 then Char.ofNat (48 + n) else Char.ofNat (87 + n)

def unicodeEscape (c : Char) : List Char :=
  ['\\', 'u', hexDigit (c.toNat / 4096 % 16), hexDigit (c.toNat / 256 % 16),
    hexDigit (c.toNat / 16 % 16), hexDigit (c.toNat % 16)]

/-- The encoder also escapes what could end a script element and the two line separators. -/
def escapeChar (c : Char) : List Char :=
  if c = '"' then ['\\', '"']
  else if c = '\\' then ['\\', '\\']
  else if c.toNat = 8 then ['\\', 'b']
  else if c.toNat = 12 then ['\\', 'f']
  else if c = '\n' then ['\\', 'n']
  else if c = '\r' then ['\\', 'r']
  else if c = '\t' then ['\\', 't']
  else if c.toNat < 32 ∨ c = '<' ∨ c = '>' ∨ c = '&' ∨ c.toNat = 0x2028 ∨ c.toNat = 0x2029 then
    unicodeEscape c
  else [c]

def quote (s : String) : String :=
  String.ofList ('"' :: s.toList.flatMap escapeChar ++ ['"'])

mutual

def encode : Json → String
  | .null => "null"
  | .bool b => if b then "true" else "false"
  | .num text => text
  | .str s => quote s
  | .arr items => "[" ++ String.intercalate "," (encodeItems items) ++ "]"
  | .obj members => "\x7b" ++ String.intercalate "," (encodeMembers members) ++ "\x7d"

def encodeItems : List Json → List String
  | [] => []
  | item :: rest => encode item :: encodeItems rest

def encodeMembers : List (String × Json) → List String
  | [] => []
  | (key, value) :: rest => (quote key ++ ":" ++ encode value) :: encodeMembers rest

end

example : encode (.obj [("a<b", .arr [.num "1", .null]), ("q", .str "\"x\"\n")]) =
    "\x7b\"a\\u003cb\":[1,null],\"q\":\"\\\"x\\\"\\n\"\x7d" := by
  decide

/-- Letters that the decoder takes for one another when it matches a key with a field. -/
def foldChar (c : Char) : Char :=
  if c.toNat = 0x17F then 's' else if c.toNat = 0x212A then 'k' else c.toLower

def fieldMatches (field key : String) : Bool :=
  key.toList.map foldChar == field.toList.map foldChar

/-- The value a field of a structure is decoded from: the last member whose key matches it. -/
def field (name : String) (members : List (String × Json)) : Json :=
  match members.reverse.find? fun m => fieldMatches name m.1 with
  | some (_, value) => value
  | none => .null

/-- A text field: every member whose key matches sets it, null leaves it as it is, and any other
value that is no string is an error. -/
def textField? (name : String) (members : List (String × Json)) : Option String :=
  (members.filter fun m => fieldMatches name m.1).foldl (fun acc m => acc.bind fun text =>
    match m.2 with
    | .str s => some s
    | .null => some text
    | _ => none) (some "")

/-- A text field behind a pointer, which null clears. -/
def pointerField? (name : String) (members : List (String × Json)) : Option (Option String) :=
  (members.filter fun m => fieldMatches name m.1).foldl (fun acc m => acc.bind fun _ =>
    match m.2 with
    | .str s => some (some s)
    | .null => some none
    | _ => none) (some none)

/-- A field that keeps what stands there. -/
def rawField (name : String) (members : List (String × Json)) : Option Json :=
  (members.reverse.find? fun m => fieldMatches name m.1).map Prod.snd

/-- What a key of a decoded map is bound to. -/
def get? (key : String) (members : List (String × Json)) : Option Json := members.lookup key

mutual

/-- The value with the members of every object in the order of their keys. -/
def sorted : Json → Json
  | .arr items => .arr (sortedItems items)
  | .obj members => .obj ((sortedMembers members).insertionSort fun a b => a.1 ≤ b.1)
  | v => v

def sortedItems : List Json → List Json
  | [] => []
  | item :: rest => sorted item :: sortedItems rest

def sortedMembers : List (String × Json) → List (String × Json)
  | [] => []
  | (key, value) :: rest => (key, sorted value) :: sortedMembers rest

end

/-- Two values that differ in the order of members only. -/
def Same (a b : Json) : Prop := a.sorted = b.sorted

end Json

end CodeGo.Lib
