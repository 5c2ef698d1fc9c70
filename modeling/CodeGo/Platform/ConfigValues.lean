import CodeGo.Lib.JsonText
import CodeGo.Platform.HashObjects
import Mathlib.Data.List.AList

/-!
# Values of the configuration types

The types that configuration structs are made of, their values, and how `encoding/json` writes them
and decodes a text into a value that is there already.

What a text decodes to and whether it fits the type are two functions: where a part does not fit,
`json.Unmarshal` goes on with the other parts and returns the error at the end.
-/

namespace CodeGo.Platform.Config

open Lib Lib.Json
open Gateway.Validation (atoi digits)

section Types

inductive Width where
  | w8 | w16 | w32 | w64
  deriving DecidableEq, Repr

def Width.bits : Width → Nat
  | .w8 => 8
  | .w16 => 16
  | .w32 => 32
  | .w64 => 64

inductive FloatSize where
  | f32 | f64
  deriving DecidableEq, Repr

/-- The floats of one size and the texts they are written as. -/
structure Floating where
  Val : Type
  zero : Val
  isZero : Val → Bool
  /-- Neither infinite nor not a number. -/
  finite : Val → Bool
  /-- `strconv.FormatFloat` with the shortest digits. -/
  format : Val → String
  parse : String → Option Val
  /-- The number in JSON. -/
  literal : Val → String
  parseLiteral : String → Option Val
  isNegative : Val → Bool
  toInt : Val → Int
  parse_format : ∀ x, parse (format x) = some x
  parse_literal : ∀ x, finite x = true → parseLiteral (literal x) = some x
  isNumber_literal : ∀ x, finite x = true → isNumber (literal x).toList = true

inductive KeyKind where
  | string | int
  deriving DecidableEq, Repr

def KeyKind.Val : KeyKind → Type
  | .string => String
  | .int => HashObjects.Word

instance (k : KeyKind) : DecidableEq k.Val :=
  match k with
  | .string => inferInstanceAs (DecidableEq String)
  | .int => inferInstanceAs (DecidableEq HashObjects.Word)

def KeyKind.print : (k : KeyKind) → k.Val → String
  | .string, s => s
  | .int, n => toString n.1

def KeyKind.read : (k : KeyKind) → String → Option k.Val
  | .string, s => some s
  | .int, s => match atoi s with
    | some n => if h : -2 ^ 63 ≤ n ∧ n < 2 ^ 63 then some ⟨n, h⟩ else none
    | none => none

mutual

inductive Ty where
  | string
  | bool
  | int (w : Width)
  | uint (w : Width)
  | float (size : FloatSize)
  /-- `interface{}` -/
  | any
  | ptr (elem : Ty)
  | map (key : KeyKind) (elem : Ty)
  /-- `*types.RWMap`, which has its own encoding. -/
  | rwMap (key : KeyKind) (elem : Ty)
  | slice (elem : Ty)
  | struct (fields : Fields)

inductive Fields where
  | nil
  | cons (name : String) (omitEmpty : Bool) (t : Ty) (rest : Fields)

end

/-- The elements of a slice, and those that its array still holds behind them. -/
structure Backing (α : Type) where
  items : List α
  spare : List α

abbrev Entries (k : KeyKind) (α : Type) := AList fun _ : k.Val => α

variable (floats : FloatSize → Floating)

mutual

@[reducible] def Ty.Val : Ty → Type
  | .string => String
  | .bool => Bool
  | .int w => BitVec w.bits
  | .uint w => BitVec w.bits
  | .float size => (floats size).Val
  | .any => { j : Json // j.wellFormed = true }
  | .ptr t => Option t.Val
  | .map k t => Option (Entries k t.Val)
  | .rwMap k t => Option (Option (Entries k t.Val))
  | .slice t => Option (Backing t.Val)
  | .struct fs => fs.Val

@[reducible] def Fields.Val : Fields → Type
  | .nil => Unit
  | .cons _ _ t rest => t.Val × rest.Val

end

mutual

def Ty.zero : (t : Ty) → t.Val floats
  | .string => ""
  | .bool => false
  | .int w => 0#w.bits
  | .uint w => 0#w.bits
  | .float size => (floats size).zero
  | .any => ⟨.null, rfl⟩
  | .ptr _ => none
  | .map _ _ => none
  | .rwMap _ _ => none
  | .slice _ => none
  | .struct fs => fs.zero

def Fields.zero : (fs : Fields) → fs.Val floats
  | .nil => ()
  | .cons _ _ t rest => (t.zero, rest.zero)

end

end Types

section Encoding

variable {floats : FloatSize → Floating}

/-- What `omitempty` leaves out. -/
def Ty.isEmpty : (t : Ty) → t.Val floats → Bool
  | .string, s => String.isEmpty s
  | .bool, b => !b
  | .int _, n => BitVec.toNat n == 0
  | .uint _, n => BitVec.toNat n == 0
  | .float size, x => (floats size).isZero x
  | .any, j => match j.1 with
    | .null => true
    | _ => false
  | .ptr _, p => Option.isNone p
  | .map _ _, none => true
  | .map _ _, some m => m.entries.isEmpty
  | .rwMap _ _, p => Option.isNone p
  | .slice _, none => true
  | .slice _, some s => s.items.isEmpty
  | .struct _, _ => false

/-- The members of a map, in the order of their keys. -/
def members {k : KeyKind} {α : Type} (encode : α → Json) (m : Entries k α) : List (String × Json) :=
  (m.entries.insertionSort fun a b => k.print a.1 ≤ k.print b.1).map fun e =>
    (k.print e.1, encode e.2)

mutual

/-- `json.Marshal`, of a value without infinite floats. -/
def Ty.encode : (t : Ty) → t.Val floats → Json
  | .string, s => .str s
  | .bool, b => .bool b
  | .int _, n => .num (toString n.toInt)
  | .uint _, n => .num (toString n.toNat)
  | .float size, x => .num ((floats size).literal x)
  | .any, j => j.1
  | .ptr _, none => .null
  | .ptr t, some x => t.encode x
  | .map _ _, none => .null
  | .map _ t, some m => .obj (members t.encode m)
  | .rwMap _ _, none => .null
  | .rwMap _ _, some none => .null
  | .rwMap _ t, some (some m) => .obj (members t.encode m)
  | .slice _, none => .null
  | .slice t, some s => .arr (s.items.map t.encode)
  | .struct fs, v => .obj (fs.encode v)

def Fields.encode : (fs : Fields) → fs.Val floats → List (String × Json)
  | .nil, _ => []
  | .cons name omitEmpty t rest, (v, vs) =>
    if omitEmpty && t.isEmpty v then rest.encode vs else (name, t.encode v) :: rest.encode vs

end

mutual

/-- `json.Marshal` returns no error: no float in the value is infinite. -/
def Ty.finite : (t : Ty) → t.Val floats → Bool
  | .float size, x => (floats size).finite x
  | .ptr t, p => Option.all t.finite p
  | .map _ t, m => Option.all (fun m => m.entries.all fun e => t.finite e.2) m
  | .rwMap _ t, p => Option.all (Option.all fun m => m.entries.all fun e => t.finite e.2) p
  | .slice t, s => Option.all (fun s => s.items.all t.finite) s
  | .struct fs, v => fs.finite v
  | .string, _ => true
  | .bool, _ => true
  | .int _, _ => true
  | .uint _, _ => true
  | .any, _ => true

def Fields.finite : (fs : Fields) → fs.Val floats → Bool
  | .nil, _ => true
  | .cons _ omitEmpty t rest, (v, vs) => (omitEmpty && t.isEmpty v || t.finite v) && rest.finite vs

end

end Encoding

section Decoding

def readInt (w : Width) (text : String) : Option (BitVec w.bits) :=
  match atoi text with
  | some n => if (BitVec.ofInt w.bits n).toInt = n then some (BitVec.ofInt w.bits n) else none
  | none => none

/-- `strconv.ParseUint`, of 64 bits. -/
def parseUint (text : String) : Option Nat :=
  match digits text.toList with
  | some n => if n < 2 ^ 64 then some n else none
  | none => none

def readUint (w : Width) (text : String) : Option (BitVec w.bits) :=
  match parseUint text with
  | some n => if n < 2 ^ w.bits then some (BitVec.ofNat w.bits n) else none
  | none => none

def Fields.names : Fields → List String
  | .nil => []
  | .cons name _ _ rest => name :: rest.names

/-- The field that a key stands for: the one with this name, or else the first whose name differs in
the case of its letters only. -/
def Fields.resolve (fs : Fields) (key : String) : Option String :=
  if key ∈ fs.names then some key else fs.names.find? fun name => fieldMatches name key

/-- The elements are decoded into those that are there, as far as these reach. -/
def decodeItems {α : Type} (decode : Json → α → α) (zero : α) : List Json → List α → Backing α
  | [], old => ⟨[], old⟩
  | j :: js, old =>
    let rest := decodeItems decode zero js old.tail
    ⟨decode j (old.headD zero) :: rest.items, rest.spare⟩

def Backing.all {α : Type} (s : Backing α) : List α := s.items ++ s.spare

/-- The members are added to those that are there. -/
def decodeEntries {k : KeyKind} {α : Type} (decode : Json → α) :
    List (String × Json) → Entries k α → Entries k α
  | [], m => m
  | (text, j) :: rest, m => match k.read text with
    | some key => decodeEntries decode rest (m.insert key (decode j))
    | none => decodeEntries decode rest m

def decodeMap {k : KeyKind} {α : Type} (decode : Json → α) (j : Json) (old : Option (Entries k α)) :
    Option (Entries k α) :=
  match j with
  | .null => none
  | .obj ms => some (decodeEntries decode ms (old.getD ∅))
  | _ => old

variable {floats : FloatSize → Floating}

mutual

/-- What `json.Unmarshal` leaves in a value. -/
def Ty.decode : (t : Ty) → Json → t.Val floats → t.Val floats
  | .string, j, v => match j with
    | .str s => s
    | _ => v
  | .bool, j, v => match j with
    | .bool b => b
    | _ => v
  | .int w, j, v => match j with
    | .num text => (readInt w text).getD v
    | _ => v
  | .uint w, j, v => match j with
    | .num text => (readUint w text).getD v
    | _ => v
  | .float size, j, v => match j with
    | .num text => ((floats size).parseLiteral text).getD v
    | _ => v
  | .any, j, v => if h : j.wellFormed = true then ⟨j, h⟩ else v
  | .ptr t, j, v => match j with
    | .null => none
    | j => some (t.decode j (Option.getD v (t.zero floats)))
  | .map _ t, j, v => decodeMap (fun j => t.decode j (t.zero floats)) j v
  | .rwMap _ t, j, _ => match j with
    | .null => none
    | j => some (decodeMap (fun j => t.decode j (t.zero floats)) j (some ∅))
  | .slice t, j, v => match j with
    | .null => none
    | .arr [] => some ⟨[], []⟩
    | .arr js => some (decodeItems t.decode (t.zero floats) js (Option.elim v [] Backing.all))
    | _ => v
  | .struct fs, j, v => match j with
    | .obj ms => ms.foldl (fun v m => match fs.resolve m.1 with
      | some name => fs.decodeField name m.2 v
      | none => v) v
    | _ => v

/-- The field with this name is decoded into. -/
def Fields.decodeField : (fs : Fields) → String → Json → fs.Val floats → fs.Val floats
  | .nil, _, _, v => v
  | .cons name _ t rest, key, j, (v, vs) =>
    if key = name then (t.decode j v, vs) else (v, rest.decodeField key j vs)

end

mutual

/-- `json.Unmarshal` returns no error. -/
def Ty.fits (floats : FloatSize → Floating) : Ty → Json → Bool
  | .string, j => match j with
    | .str _ => true
    | .null => true
    | _ => false
  | .bool, j => match j with
    | .bool _ => true
    | .null => true
    | _ => false
  | .int w, j => match j with
    | .num text => (readInt w text).isSome
    | .null => true
    | _ => false
  | .uint w, j => match j with
    | .num text => (readUint w text).isSome
    | .null => true
    | _ => false
  | .float size, j => match j with
    | .num text => ((floats size).parseLiteral text).isSome
    | .null => true
    | _ => false
  | .any, j => j.wellFormed
  | .ptr t, j => t.fits floats j
  | .map k t, j => match j with
    | .obj ms => ms.all fun m => (k.read m.1).isSome && t.fits floats m.2
    | .null => true
    | _ => false
  | .rwMap k t, j => match j with
    | .obj ms => ms.all fun m => (k.read m.1).isSome && t.fits floats m.2
    | .null => true
    | _ => false
  | .slice t, j => match j with
    | .arr js => js.all (t.fits floats)
    | .null => true
    | _ => false
  | .struct fs, j => match j with
    | .obj ms => ms.all fun m => match fs.resolve m.1 with
      | some name => fs.fitsField floats name m.2
      | none => true
    | .null => true
    | _ => false

def Fields.fitsField (floats : FloatSize → Floating) : Fields → String → Json → Bool
  | .nil, _, _ => true
  | .cons name _ t rest, key, j => if key = name then t.fits floats j else rest.fitsField floats key j

end

/-! The cases of what a written value is decoded by. -/

theorem Ty.decode_int (w : Width) (text : String) (v : BitVec w.bits) :
    @Ty.decode floats (.int w) (.num text) v = (readInt w text).getD v := rfl

theorem Ty.decode_uint (w : Width) (text : String) (v : BitVec w.bits) :
    @Ty.decode floats (.uint w) (.num text) v = (readUint w text).getD v := rfl

theorem Ty.decode_float (size : FloatSize) (text : String) (v : (floats size).Val) :
    Ty.decode (.float size) (.num text) v = ((floats size).parseLiteral text).getD v := rfl

theorem Ty.decode_ptr {t : Ty} {j : Json} (h : j ≠ .null) (v : Option (t.Val floats)) :
    Ty.decode (.ptr t) j v = some (t.decode j (v.getD (t.zero floats))) := by
  cases j with
  | null => exact absurd rfl h
  | bool _ => rfl
  | num _ => rfl
  | str _ => rfl
  | arr _ => rfl
  | obj _ => rfl

theorem Ty.decode_rwMap_of_ne_null (k : KeyKind) (t : Ty) {j : Json} (h : j ≠ .null)
    (v : Option (Option (Entries k (t.Val floats)))) :
    Ty.decode (.rwMap k t) j v =
      some (decodeMap (fun j => t.decode j (t.zero floats)) j (some ∅)) := by
  cases j with
  | null => exact absurd rfl h
  | bool _ => rfl
  | num _ => rfl
  | str _ => rfl
  | arr _ => rfl
  | obj _ => rfl

theorem Ty.decode_obj (fs : Fields) (ms : List (String × Json)) (v : fs.Val floats) :
    Ty.decode (.struct fs) (.obj ms) v = ms.foldl (fun v m => match fs.resolve m.1 with
      | some name => fs.decodeField name m.2 v
      | none => v) v := rfl

theorem Fields.decodeField_self (name : String) (omitEmpty : Bool) (t : Ty) (rest : Fields) (j : Json)
    (v : t.Val floats) (vs : rest.Val floats) :
    (Fields.cons name omitEmpty t rest).decodeField name j (v, vs) = (t.decode j v, vs) := if_pos rfl

theorem Fields.decodeField_ne {name key : String} (h : key ≠ name) (omitEmpty : Bool) (t : Ty)
    (rest : Fields) (j : Json) (v : t.Val floats) (vs : rest.Val floats) :
    (Fields.cons name omitEmpty t rest).decodeField key j (v, vs) =
      (v, rest.decodeField key j vs) := if_neg h

end Decoding

end CodeGo.Platform.Config

/-!
# A value written and read back

When the text of a value, decoded into the value that is there, gives the first one again. Decoding
merges: fields that were left out, keys of inner maps and elements of slices keep what stood there.
-/

namespace CodeGo.Platform.Config

open Lib Lib.Json
open Gateway.Validation (digits)

variable {floats : FloatSize → Floating}

/-- The same bindings, up to a relation of the values. -/
def SameEntries {k : KeyKind} {α : Type} (same : α → α → Prop) (m m' : Entries k α) : Prop :=
  ∀ key, Option.Rel same (m.lookup key) (m'.lookup key)

mutual

/-- Two values look the same; what lies behind a slice is not seen. -/
def Ty.Same : (t : Ty) → t.Val floats → t.Val floats → Prop
  | .string, v, w => v = w
  | .bool, v, w => v = w
  | .int _, v, w => v = w
  | .uint _, v, w => v = w
  | .float _, v, w => v = w
  | .any, v, w => v = w
  | .ptr t, v, w => Option.Rel t.Same v w
  | .map _ t, v, w => Option.Rel (SameEntries t.Same) v w
  | .rwMap _ t, v, w => Option.Rel (Option.Rel (SameEntries t.Same)) v w
  | .slice t, v, w => Option.Rel (fun s s' => List.Forall₂ t.Same s.items s'.items) v w
  | .struct fs, v, w => fs.Same v w

def Fields.Same : (fs : Fields) → fs.Val floats → fs.Val floats → Prop
  | .nil, _, _ => True
  | .cons _ _ t rest, (v, vs), (w, ws) => t.Same v w ∧ rest.Same vs ws

end

/-- The value is written as null. -/
def Ty.isNull : (t : Ty) → t.Val floats → Bool
  | .ptr _, none => true
  | .ptr t, some x => t.isNull x
  | .map _ _, v => Option.isNone v
  | .rwMap _ _, none => true
  | .rwMap _ _, some m => Option.isNone m
  | .slice _, v => Option.isNone v
  | .any, j => match j.1 with
    | .null => true
    | _ => false
  | _, _ => false

/-- Each item goes with the element it is decoded into. -/
def ItemsSurvive {α : Type} (survives : α → α → Prop) (zero : α) : List α → List α → Prop
  | [], _ => True
  | x :: xs, old => survives x (old.headD zero) ∧ ItemsSurvive survives zero xs old.tail

mutual

/-- The first value comes back when its text is decoded into the second. -/
def Ty.Survives : (t : Ty) → t.Val floats → t.Val floats → Prop
  | .ptr t, v, w => Option.elim v True fun x =>
    t.isNull x = false ∧ t.Survives x (Option.getD w (t.zero floats))
  | .map _ t, v, w => Option.elim v True fun m =>
    (∀ key x, m.lookup key = some x → t.Survives x (t.zero floats)) ∧
      ∀ key ∈ Option.getD w ∅, key ∈ m
  | .rwMap _ t, v, _ => Option.elim v True fun m => Option.elim m False fun m =>
    ∀ key x, m.lookup key = some x → t.Survives x (t.zero floats)
  | .slice t, v, w => Option.elim v True fun s =>
    ItemsSurvive t.Survives (t.zero floats) s.items (Option.elim w [] Backing.all)
  | .struct fs, v, w => fs.Survives v w
  | .string, _, _ => True
  | .bool, _, _ => True
  | .int _, _, _ => True
  | .uint _, _, _ => True
  | .float _, _, _ => True
  | .any, _, _ => True

def Fields.Survives : (fs : Fields) → fs.Val floats → fs.Val floats → Prop
  | .nil, _, _ => True
  | .cons _ omitEmpty t rest, (v, vs), (w, ws) =>
    (if omitEmpty && t.isEmpty v then t.Same w v else t.Survives v w) ∧ rest.Survives vs ws

end

mutual

/-- The fields of each struct have different names. -/
def Ty.Distinct : Ty → Prop
  | .ptr t => t.Distinct
  | .map _ t => t.Distinct
  | .rwMap _ t => t.Distinct
  | .slice t => t.Distinct
  | .struct fs => fs.Distinct
  | .string => True
  | .bool => True
  | .int _ => True
  | .uint _ => True
  | .float _ => True
  | .any => True

def Fields.Distinct : Fields → Prop
  | .nil => True
  | .cons name _ t rest => name ∉ rest.names ∧ t.Distinct ∧ rest.Distinct

end

theorem readInt_toString {w : Width} (n : BitVec w.bits) :
    readInt w (toString n.toInt) = some n := by
  have hrange : -2 ^ 63 ≤ n.toInt ∧ n.toInt < 2 ^ 63 := by
    have hlow := n.le_toInt
    have hhigh := n.toInt_lt
    have hpow : (2 : Int) ^ (w.bits - 1) ≤ 2 ^ 63 := by cases w <;> decide
    omega
  rw [readInt, HashObjects.atoi_toString hrange]
  dsimp only
  rw [BitVec.ofInt_toInt, if_pos rfl]

theorem parseUint_toString {n : Nat} (h : n < 2 ^ 64) : parseUint (toString n) = some n := by
  have hdigits : digits (Nat.toDigits 10 n) = some n := by
    rw [Gateway.StatusCodes.digits_eq Nat.toDigits_ne_nil, if_pos, Nat.ofDigitChars_ten_toDigits]
    rw [List.all_eq_true]
    exact fun c hc => Decimal.mem_toDigits hc
  have hlist : (toString n).toList = Nat.toDigits 10 n := Nat.toList_repr
  rw [parseUint, hlist, hdigits]
  exact if_pos h

theorem readUint_toString {w : Width} (n : BitVec w.bits) :
    readUint w (toString n.toNat) = some n := by
  have hsmall : n.toNat < 2 ^ 64 :=
    Nat.lt_of_lt_of_le n.isLt (Nat.pow_le_pow_right (by decide) (by cases w <;> decide))
  rw [readUint, parseUint_toString hsmall]
  dsimp only
  rw [if_pos n.isLt, BitVec.ofNat_toNat, BitVec.setWidth_eq]

theorem isNumber_toString_nat (n : Nat) : isNumber (toString n).toList = true :=
  isNumber_toString n

theorem read_print {k : KeyKind} (key : k.Val) : k.read (k.print key) = some key := by
  cases k with
  | string => rfl
  | int =>
    obtain ⟨n, hn⟩ := key
    have hread : Gateway.Validation.atoi (KeyKind.int.print ⟨n, hn⟩) = some n :=
      HashObjects.atoi_toString hn
    rw [KeyKind.read, hread]
    exact dif_pos hn

section Items

variable {α : Type} {decode : Json → α → α} {encode : α → Json} {same survives : α → α → Prop}
  {zero : α}

theorem decodeItems_encode {xs : List α}
    (h : ∀ x ∈ xs, ∀ w, same (decode (encode x) w) x ↔ survives x w) (old : List α) :
    List.Forall₂ same (decodeItems decode zero (xs.map encode) old).items xs ↔
      ItemsSurvive survives zero xs old := by
  induction xs generalizing old with
  | nil => simp [decodeItems, ItemsSurvive]
  | cons x xs ih =>
    rw [List.map_cons, decodeItems, List.forall₂_cons, ItemsSurvive, h x List.mem_cons_self,
      ih fun y hy => h y (List.mem_cons_of_mem _ hy)]

end Items

section Maps

variable {k : KeyKind} {α : Type} {decode : Json → α} {encode : α → Json}

theorem lookup_decodeEntries {es : List (Sigma fun _ : k.Val => α)} (h : es.NodupKeys)
    (m : Entries k α) (key : k.Val) :
    (decodeEntries decode (es.map fun e => (k.print e.1, encode e.2)) m).lookup key =
      match es.dlookup key with
      | some x => some (decode (encode x))
      | none => m.lookup key := by
  induction es generalizing m with
  | nil => rfl
  | cons e es ih =>
    obtain ⟨key', x⟩ := e
    rw [List.nodupKeys_cons] at h
    rw [List.map_cons, decodeEntries, read_print, ih h.2]
    by_cases hkey : key = key'
    · subst hkey
      have hnone : es.dlookup key = none := List.dlookup_eq_none.2 h.1
      rw [hnone, List.dlookup_cons_eq]
      exact AList.lookup_insert m
    · have hcons : List.dlookup key (⟨key', x⟩ :: es) = es.dlookup key :=
        List.dlookup_cons_ne es ⟨key', x⟩ hkey
      rw [hcons]
      cases es.dlookup key with
      | some y => rfl
      | none => exact AList.lookup_insert_ne hkey

theorem lookup_decode_members (m base : Entries k α) (key : k.Val) :
    (decodeEntries decode (members encode m) base).lookup key =
      match m.lookup key with
      | some x => some (decode (encode x))
      | none => base.lookup key := by
  have hperm := List.perm_insertionSort (fun a b : Sigma fun _ : k.Val => α =>
    k.print a.1 ≤ k.print b.1) m.entries
  have hnodup := (List.perm_nodupKeys hperm).2 m.nodupKeys
  rw [members, lookup_decodeEntries hnodup, List.perm_dlookup key hnodup hperm]
  rfl

theorem sameEntries_refl {same : α → α → Prop} (h : ∀ x, same x x) (m : Entries k α) :
    SameEntries same m m := by
  intro key
  cases m.lookup key with
  | none => exact .none
  | some x => exact .some (h x)

/-- The decoded bindings are those of the map, unless others were there. -/
theorem sameEntries_decode {same : α → α → Prop} (m base : Entries k α) :
    SameEntries same (decodeEntries decode (members encode m) base) m ↔
      (∀ key x, m.lookup key = some x → same (decode (encode x)) x) ∧ ∀ key ∈ base, key ∈ m := by
  constructor
  · intro h
    constructor
    · intro key x hx
      have hkey := h key
      rw [lookup_decode_members, hx] at hkey
      exact Option.rel_some_some.1 hkey
    · intro key hbase
      by_contra hnot
      have hnone := AList.lookup_eq_none.2 hnot
      have hkey := h key
      rw [lookup_decode_members, hnone] at hkey
      obtain ⟨y, hy⟩ := Option.isSome_iff_exists.1 (AList.lookup_isSome.2 hbase)
      dsimp only at hkey
      rw [hy] at hkey
      cases hkey
  · rintro ⟨hsame, hkeys⟩ key
    rw [lookup_decode_members]
    cases hx : m.lookup key with
    | some x => exact .some (hsame key x hx)
    | none =>
      have hnone : base.lookup key = none := by
        rw [AList.lookup_eq_none]
        intro hbase
        exact AList.lookup_eq_none.1 hx (hkeys key hbase)
      dsimp only
      rw [hnone]
      exact .none

end Maps

theorem wellFormedItems_iff {items : List Json} :
    wellFormedItems items = true ↔ ∀ j ∈ items, j.wellFormed = true := by
  induction items with
  | nil => simp [wellFormedItems]
  | cons j items ih => rw [wellFormedItems, Bool.and_eq_true, ih, List.forall_mem_cons]

theorem wellFormedMembers_iff {ms : List (String × Json)} :
    wellFormedMembers ms = true ↔ ∀ m ∈ ms, m.2.wellFormed = true := by
  induction ms with
  | nil => simp [wellFormedMembers]
  | cons m ms ih => rw [wellFormedMembers, Bool.and_eq_true, ih, List.forall_mem_cons]

theorem mem_members {k : KeyKind} {α : Type} {encode : α → Json} {m : Entries k α}
    {e : String × Json} (h : e ∈ members encode m) :
    ∃ e' ∈ m.entries, e = (k.print e'.1, encode e'.2) := by
  obtain ⟨e', he', rfl⟩ := List.mem_map.1 h
  exact ⟨e', (List.perm_insertionSort _ _).subset he', rfl⟩

mutual

/-- What is written is JSON. -/
theorem Ty.wellFormed_encode : (t : Ty) → (v : t.Val floats) → t.finite v = true →
    (t.encode v).wellFormed = true
  | .string, _, _ => rfl
  | .bool, _, _ => rfl
  | .int _, n, _ => isNumber_toString (BitVec.toInt n)
  | .uint _, n, _ => isNumber_toString_nat (BitVec.toNat n)
  | .float size, x, h => (floats size).isNumber_literal x h
  | .any, j, _ => j.2
  | .ptr _, none, _ => rfl
  | .ptr t, some x, h => t.wellFormed_encode x h
  | .map _ _, none, _ => rfl
  | .map _ t, some m, h => by
    apply wellFormedMembers_iff.2
    intro e he
    obtain ⟨e', he', rfl⟩ := mem_members he
    exact t.wellFormed_encode e'.2 (List.all_eq_true.1 h e' he')
  | .rwMap _ _, none, _ => rfl
  | .rwMap _ _, some none, _ => rfl
  | .rwMap _ t, some (some m), h => by
    apply wellFormedMembers_iff.2
    intro e he
    obtain ⟨e', he', rfl⟩ := mem_members he
    exact t.wellFormed_encode e'.2 (List.all_eq_true.1 h e' he')
  | .slice _, none, _ => rfl
  | .slice t, some s, h => by
    apply wellFormedItems_iff.2
    intro j hj
    obtain ⟨x, hx, rfl⟩ := List.mem_map.1 hj
    exact t.wellFormed_encode x (List.all_eq_true.1 h x hx)
  | .struct fs, v, h => fs.wellFormed_encode v h

theorem Fields.wellFormed_encode : (fs : Fields) → (v : fs.Val floats) → fs.finite v = true →
    wellFormedMembers (fs.encode v) = true
  | .nil, _, _ => rfl
  | .cons name omitEmpty t rest, (v, vs), h => by
    rw [Fields.finite, Bool.and_eq_true, Bool.or_eq_true] at h
    rw [Fields.encode]
    split
    · exact rest.wellFormed_encode vs h.2
    · next hkeep =>
      rw [wellFormedMembers, Bool.and_eq_true]
      exact ⟨t.wellFormed_encode v (h.1.resolve_left hkeep), rest.wellFormed_encode vs h.2⟩

end

theorem Ty.encode_eq_null : (t : Ty) → (v : t.Val floats) →
    (t.encode v = .null ↔ t.isNull v = true)
  | .string, _ => by simp [Ty.encode, Ty.isNull]
  | .bool, _ => by simp [Ty.encode, Ty.isNull]
  | .int _, _ => by simp [Ty.encode, Ty.isNull]
  | .uint _, _ => by simp [Ty.encode, Ty.isNull]
  | .float _, _ => by simp [Ty.encode, Ty.isNull]
  | .any, ⟨j, _⟩ => by cases j <;> simp [Ty.encode, Ty.isNull]
  | .ptr _, none => by simp [Ty.encode, Ty.isNull]
  | .ptr t, some x => t.encode_eq_null x
  | .map _ _, none => by simp [Ty.encode, Ty.isNull]
  | .map _ _, some _ => by simp [Ty.encode, Ty.isNull]
  | .rwMap _ _, none => by simp [Ty.encode, Ty.isNull]
  | .rwMap _ _, some none => by simp [Ty.encode, Ty.isNull]
  | .rwMap _ _, some (some _) => by simp [Ty.encode, Ty.isNull]
  | .slice _, none => by simp [Ty.encode, Ty.isNull]
  | .slice _, some _ => by simp [Ty.encode, Ty.isNull]
  | .struct _, _ => by simp [Ty.encode, Ty.isNull]

/-- What a struct is decoded into, where every key is the name of a field. -/
def Fields.decodeMembers (fs : Fields) (ms : List (String × Json)) (v : fs.Val floats) :
    fs.Val floats :=
  ms.foldl (fun v m => fs.decodeField m.1 m.2 v) v

theorem Fields.mem_names_of_mem_encode : (fs : Fields) → (v : fs.Val floats) →
    ∀ m ∈ fs.encode v, m.1 ∈ fs.names
  | .nil, _ => by simp [Fields.encode]
  | .cons name omitEmpty t rest, (v, vs) => by
    intro m hm
    rw [Fields.encode] at hm
    rw [Fields.names]
    split at hm
    · exact List.mem_cons_of_mem _ (rest.mem_names_of_mem_encode vs m hm)
    · rcases List.mem_cons.1 hm with rfl | hm
      · exact List.mem_cons_self
      · exact List.mem_cons_of_mem _ (rest.mem_names_of_mem_encode vs m hm)

theorem Fields.resolve_of_mem {fs : Fields} {key : String} (h : key ∈ fs.names) :
    fs.resolve key = some key := if_pos h

theorem Ty.decode_struct {fs : Fields} {ms : List (String × Json)} (h : ∀ m ∈ ms, m.1 ∈ fs.names)
    (v : fs.Val floats) : Ty.decode (.struct fs) (.obj ms) v = fs.decodeMembers ms v := by
  rw [Ty.decode_obj, Fields.decodeMembers]
  induction ms generalizing v with
  | nil => rfl
  | cons m ms ih =>
    rw [List.foldl_cons, List.foldl_cons, Fields.resolve_of_mem (h m List.mem_cons_self)]
    exact ih (fun m hm => h m (List.mem_cons_of_mem _ hm)) _

/-- Members of other fields leave the first one as it is. -/
theorem Fields.decodeMembers_cons {name : String} (omitEmpty : Bool) (t : Ty) {rest : Fields}
    {ms : List (String × Json)} (h : ∀ m ∈ ms, m.1 ≠ name) (v : t.Val floats)
    (vs : rest.Val floats) :
    (Fields.cons name omitEmpty t rest).decodeMembers ms (v, vs) = (v, rest.decodeMembers ms vs) := by
  induction ms generalizing vs with
  | nil => rfl
  | cons m ms ih =>
    have hfield := Fields.decodeField_ne (h m List.mem_cons_self) omitEmpty t rest m.2 v vs
    have hstep : (Fields.cons name omitEmpty t rest).decodeMembers (m :: ms) (v, vs) =
        (Fields.cons name omitEmpty t rest).decodeMembers ms (v, rest.decodeField m.1 m.2 vs) :=
      congrArg (fun u : (Fields.cons name omitEmpty t rest).Val floats =>
        (Fields.cons name omitEmpty t rest).decodeMembers ms u) hfield
    exact hstep.trans (ih (fun m hm => h m (List.mem_cons_of_mem _ hm)) _)

theorem Fields.ne_of_mem_encode {name : String} {rest : Fields} (h : name ∉ rest.names)
    (vs : rest.Val floats) : ∀ m ∈ rest.encode vs, m.1 ≠ name := by
  rintro m hm rfl
  exact h (rest.mem_names_of_mem_encode vs m hm)

theorem survives_entries {k : KeyKind} {t : Ty} {m : Entries k (t.Val floats)}
    (h : ∀ x, t.finite x = true →
      (t.Same (t.decode (t.encode x) (t.zero floats)) x ↔ t.Survives x (t.zero floats)))
    (hfinite : (m.entries.all fun e => t.finite e.2) = true) :
    (∀ key x, m.lookup key = some x → t.Same (t.decode (t.encode x) (t.zero floats)) x) ↔
      ∀ key x, m.lookup key = some x → t.Survives x (t.zero floats) := by
  apply forall_congr'
  intro key
  apply forall_congr'
  intro x
  apply imp_congr_right
  intro hx
  exact h x (List.all_eq_true.1 hfinite _ (AList.mem_lookup_iff.1 hx))

mutual

/-- A written value comes back exactly when it survives what stood there. -/
theorem Ty.decode_encode : (t : Ty) → t.Distinct → (v w : t.Val floats) → t.finite v = true →
    (t.Same (t.decode (t.encode v) w) v ↔ t.Survives v w)
  | .string, _, _, _, _ => iff_of_true rfl trivial
  | .bool, _, _, _, _ => iff_of_true rfl trivial
  | .int width, _, n, w, _ => by
    have hread : @Ty.decode floats (.int width) (.num (toString (BitVec.toInt n))) w = n := by
      rw [Ty.decode_int, readInt_toString, Option.getD_some]
    exact iff_of_true hread trivial
  | .uint width, _, n, w, _ => by
    have hread : @Ty.decode floats (.uint width) (.num (toString (BitVec.toNat n))) w = n := by
      rw [Ty.decode_uint, readUint_toString, Option.getD_some]
    exact iff_of_true hread trivial
  | .float size, _, x, w, h => by
    have hread : Ty.decode (.float size) (.num ((floats size).literal x)) w = x := by
      rw [Ty.decode_float, (floats size).parse_literal x h, Option.getD_some]
    exact iff_of_true hread trivial
  | .any, _, ⟨j, hj⟩, _, _ => iff_of_true (dif_pos hj) trivial
  | .ptr _, _, none, _, _ => iff_of_true .none trivial
  | .ptr t, hd, some x, w, h => by
    have hx := t.decode_encode hd x (Option.getD w (t.zero floats)) h
    show Option.Rel t.Same (Ty.decode (.ptr t) (t.encode x) w) (some x) ↔
      t.isNull x = false ∧ t.Survives x (Option.getD w (t.zero floats))
    by_cases hnull : t.encode x = .null
    · have htrue := (t.encode_eq_null x).1 hnull
      rw [hnull, htrue]
      exact iff_of_false (by rintro ⟨⟩) (by simp)
    · have hfalse : t.isNull x = false := by
        rw [← Bool.not_eq_true, ← t.encode_eq_null]
        exact hnull
      rw [Ty.decode_ptr hnull, Option.rel_some_some, hx, and_iff_right hfalse]
  | .map _ _, _, none, _, _ => iff_of_true .none trivial
  | .map k t, hd, some m, w, h => by
    have hentries := survives_entries (fun x hx => t.decode_encode hd x _ hx) h
    have hmap : SameEntries t.Same (decodeEntries (fun j => t.decode j (t.zero floats))
        (members t.encode m) (Option.getD w ∅)) m ↔ _ := sameEntries_decode m (Option.getD w ∅)
    rw [hentries] at hmap
    exact Option.rel_some_some.trans hmap
  | .rwMap _ _, _, none, _, _ => iff_of_true .none trivial
  | .rwMap _ _, _, some none, _, _ => iff_of_false (by rintro ⟨⟨⟩⟩) id
  | .rwMap k t, hd, some (some m), w, h => by
    have hentries := survives_entries (fun x hx => t.decode_encode hd x _ hx) h
    have hmap : SameEntries t.Same (decodeEntries (fun j => t.decode j (t.zero floats))
        (members t.encode m) ∅) m ↔ _ := sameEntries_decode m ∅
    rw [hentries, and_iff_left (by simp)] at hmap
    exact (Option.rel_some_some.trans Option.rel_some_some).trans hmap
  | .slice _, _, none, _, _ => iff_of_true .none trivial
  | .slice t, hd, some ⟨[], _⟩, w, h => iff_of_true (.some .nil) trivial
  | .slice t, hd, some ⟨x :: xs, _⟩, w, h => by
    have hitems : List.Forall₂ t.Same (decodeItems t.decode (t.zero floats)
        ((x :: xs).map t.encode) (Option.elim w [] Backing.all)).items (x :: xs) ↔
          ItemsSurvive t.Survives (t.zero floats) (x :: xs) (Option.elim w [] Backing.all) :=
      decodeItems_encode (fun y hy w => t.decode_encode hd y w (List.all_eq_true.1 h y hy)) _
    exact Option.rel_some_some.trans hitems
  | .struct fs, hd, v, w, h => by
    have hstruct := Ty.decode_struct (fs.mem_names_of_mem_encode v) w
    show fs.Same (Ty.decode (.struct fs) (.obj (fs.encode v)) w) v ↔ fs.Survives v w
    rw [hstruct]
    exact fs.decode_encode hd v w h

theorem Fields.decode_encode : (fs : Fields) → fs.Distinct → (v w : fs.Val floats) →
    fs.finite v = true → (fs.Same (fs.decodeMembers (fs.encode v) w) v ↔ fs.Survives v w)
  | .nil, _, _, _, _ => iff_of_true trivial trivial
  | .cons name omitEmpty t rest, hd, (v, vs), (w, ws), h => by
    obtain ⟨hname, ht, hrest⟩ := hd
    rw [Fields.finite, Bool.and_eq_true, Bool.or_eq_true] at h
    have hne := Fields.ne_of_mem_encode hname vs
    have hvs := rest.decode_encode hrest vs ws h.2
    rw [Fields.encode, Fields.Survives]
    split
    · next homit =>
      rw [Fields.decodeMembers_cons omitEmpty t hne, Fields.Same, hvs]
    · next hkeep =>
      have hv := t.decode_encode ht v w (h.1.resolve_left hkeep)
      have hfirst : (Fields.cons name omitEmpty t rest).decodeMembers
          ((name, t.encode v) :: rest.encode vs) (w, ws) =
            (t.decode (t.encode v) w, rest.decodeMembers (rest.encode vs) ws) := by
        have hfield := Fields.decodeField_self name omitEmpty t rest (t.encode v) w ws
        rw [Fields.decodeMembers, List.foldl_cons, hfield]
        exact Fields.decodeMembers_cons omitEmpty t hne _ _
      rw [hfirst, Fields.Same, hvs, hv]

end

theorem fits_members {k : KeyKind} {t : Ty} {m : Entries k (t.Val floats)}
    (h : ∀ x : t.Val floats, t.finite x = true → t.fits floats (t.encode x) = true)
    (hfinite : (m.entries.all fun e => t.finite e.2) = true) :
    ((members t.encode m).all fun e => (k.read e.1).isSome && t.fits floats e.2) = true := by
  rw [List.all_eq_true]
  intro e he
  obtain ⟨e', he', rfl⟩ := mem_members he
  rw [read_print, Option.isSome_some, Bool.true_and]
  exact h e'.2 (List.all_eq_true.1 hfinite e' he')

theorem Ty.fits_null : (t : Ty) → t.fits floats .null = true
  | .ptr t => t.fits_null
  | .string => rfl
  | .bool => rfl
  | .int _ => rfl
  | .uint _ => rfl
  | .float _ => rfl
  | .any => rfl
  | .map _ _ => rfl
  | .rwMap _ _ => rfl
  | .slice _ => rfl
  | .struct _ => rfl

mutual

/-- What is written fits its type. -/
theorem Ty.fits_encode : (t : Ty) → t.Distinct → (v : t.Val floats) → t.finite v = true →
    t.fits floats (t.encode v) = true
  | .string, _, _, _ => rfl
  | .bool, _, _, _ => rfl
  | .int _, _, n, _ => Option.isSome_iff_exists.2 ⟨n, readInt_toString n⟩
  | .uint _, _, n, _ => Option.isSome_iff_exists.2 ⟨n, readUint_toString n⟩
  | .float size, _, x, h => Option.isSome_iff_exists.2 ⟨x, (floats size).parse_literal x h⟩
  | .any, _, ⟨_, hj⟩, _ => hj
  | .ptr t, _, none, _ => t.fits_null
  | .ptr t, hd, some x, h => t.fits_encode hd x h
  | .map _ _, _, none, _ => rfl
  | .map _ t, hd, some _, h => fits_members (fun x hx => t.fits_encode hd x hx) h
  | .rwMap _ _, _, none, _ => rfl
  | .rwMap _ _, _, some none, _ => rfl
  | .rwMap _ t, hd, some (some _), h => fits_members (fun x hx => t.fits_encode hd x hx) h
  | .slice _, _, none, _ => rfl
  | .slice t, hd, some s, h => by
    apply List.all_eq_true.2
    intro j hj
    obtain ⟨x, hx, rfl⟩ := List.mem_map.1 hj
    exact t.fits_encode hd x (List.all_eq_true.1 h x hx)
  | .struct fs, hd, v, h => by
    apply List.all_eq_true.2
    intro m hm
    rw [Fields.resolve_of_mem (fs.mem_names_of_mem_encode v m hm)]
    exact fs.fits_encode hd v h m hm

theorem Fields.fits_encode : (fs : Fields) → fs.Distinct → (v : fs.Val floats) →
    fs.finite v = true → ∀ m ∈ fs.encode v, fs.fitsField floats m.1 m.2 = true
  | .nil, _, _, _ => by simp [Fields.encode]
  | .cons name omitEmpty t rest, hd, (v, vs), h => by
    obtain ⟨hname, ht, hrest⟩ := hd
    rw [Fields.finite, Bool.and_eq_true, Bool.or_eq_true] at h
    have htail : ∀ m ∈ rest.encode vs,
        (Fields.cons name omitEmpty t rest).fitsField floats m.1 m.2 = true := by
      intro m hm
      rw [Fields.fitsField, if_neg (Fields.ne_of_mem_encode hname vs m hm)]
      exact rest.fits_encode hrest vs h.2 m hm
    intro m hm
    rw [Fields.encode] at hm
    split at hm
    · exact htail m hm
    · next hkeep =>
      rcases List.mem_cons.1 hm with rfl | hm
      · rw [Fields.fitsField, if_pos rfl]
        exact t.fits_encode ht v (h.1.resolve_left hkeep)
      · exact htail m hm

end

mutual

theorem Ty.same_refl : (t : Ty) → (v : t.Val floats) → t.Same v v
  | .string, _ => rfl
  | .bool, _ => rfl
  | .int _, _ => rfl
  | .uint _, _ => rfl
  | .float _, _ => rfl
  | .any, _ => rfl
  | .ptr _, none => .none
  | .ptr t, some x => .some (t.same_refl x)
  | .map _ _, none => .none
  | .map _ t, some m => .some (sameEntries_refl t.same_refl m)
  | .rwMap _ _, none => .none
  | .rwMap _ _, some none => .some .none
  | .rwMap _ t, some (some m) => .some (.some (sameEntries_refl t.same_refl m))
  | .slice _, none => .none
  | .slice t, some _ => .some (List.forall₂_same.2 fun x _ => t.same_refl x)
  | .struct fs, v => fs.same_refl v

theorem Fields.same_refl : (fs : Fields) → (v : fs.Val floats) → fs.Same v v
  | .nil, _ => trivial
  | .cons _ _ t rest, (v, vs) => ⟨t.same_refl v, rest.same_refl vs⟩

end

end CodeGo.Platform.Config
