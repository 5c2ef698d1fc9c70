import CodeGo.Gateway.StatusCodes
import CodeGo.Lib.Decimal
import CodeGo.Lib.Lists

/-!
# Objects as Redis hashes

`RedisHSetObj` writes the fields of a struct as the fields of a hash, `RedisHGetObj` reads them
back. Both go over the fields by reflection. An object is the list of its fields, each with its
type and its value.
-/

namespace CodeGo.Platform.HashObjects

open Gateway.Validation (atoi digits splitSign)
open Gateway.StatusCodes (digits_eq splitSign_digits)

inductive Kind where
  | string | int | int64 | bool
  deriving DecidableEq, Repr

/-- An integer of 64 bits. -/
abbrev Word := { n : Int // -2 ^ 63 ≤ n ∧ n < 2 ^ 63 }

def Kind.Val : Kind → Type
  | .string => String
  | .int => Word
  | .int64 => Word
  | .bool => Bool

def Kind.zero : (k : Kind) → k.Val
  | .string => ""
  | .int => ⟨0, by decide⟩
  | .int64 => ⟨0, by decide⟩
  | .bool => false

/-- A type of one of the kinds. A named type may have a `String` method of its own. -/
structure ScalarType where
  kind : Kind
  method : Option (kind.Val → String) := none

/-- A field of a struct with its value. `T` is the type of a time. -/
inductive Entry (T : Type) where
  | plain (name : String) (exported : Bool) (t : ScalarType) (v : t.kind.Val)
  | pointer (name : String) (exported : Bool) (t : ScalarType) (v : Option t.kind.Val)
  | deletedAt (name : String) (exported : Bool) (time : Option T)

def Entry.name {T : Type} : Entry T → String
  | .plain name _ _ _ => name
  | .pointer name _ _ _ => name
  | .deletedAt name _ _ => name

/-- The field in a zero value of its struct. -/
def Entry.zeroed {T : Type} : Entry T → Entry T
  | .plain name exported t _ => .plain name exported t t.kind.zero
  | .pointer name exported t _ => .pointer name exported t none
  | .deletedAt name exported _ => .deletedAt name exported none

section Model

variable {T : Type}

inductive Failure where
  /-- The panic of `reflect` on a field that is not exported. -/
  | unexported (name : String)
  | emptyHash
  | notFound
  | parse (name : String)
  deriving DecidableEq, Repr

/-- `fmt.Sprintf("%v", value)`, for a type without a method. -/
def Kind.print : (k : Kind) → k.Val → String
  | .string, s => s
  | .int, n => toString n.1
  | .int64, n => toString n.1
  | .bool, (b : Bool) => if b then "true" else "false"

/-- What is stored of a value. A `bool` is formatted without its method. -/
def ScalarType.text (t : ScalarType) (v : t.kind.Val) : String :=
  if t.kind = .bool then t.kind.print v
  else match t.method with
    | some method => method v
    | none => t.kind.print v

def storeScalar (name : String) (exported : Bool) (t : ScalarType) (v : t.kind.Val) :
    Except Failure (List (String × String)) :=
  if t.kind ≠ .bool ∧ exported = false then .error (.unexported name)
  else .ok [(name, t.text v)]

def storeField : Entry T → Except Failure (List (String × String))
  | .deletedAt _ _ _ => .ok []
  | .pointer name _ _ none => .ok [(name, "")]
  | .pointer name exported t (some v) => storeScalar name exported t v
  | .plain name exported t v => storeScalar name exported t v

/-- The hash that is stored. Redis refuses a hash without fields. -/
def redisHSetObj (obj : List (Entry T)) : Except Failure (List (String × String)) := do
  let data ← obj.mapM storeField
  if data.flatten = [] then .error .emptyHash else .ok data.flatten

def parseBool (s : String) : Option Bool :=
  if s ∈ ["1", "t", "T", "TRUE", "true", "True"] then some true
  else if s ∈ ["0", "f", "F", "FALSE", "false", "False"] then some false
  else none

def parseInt (s : String) : Option Word :=
  match atoi s with
  | some n => if h : -2 ^ 63 ≤ n ∧ n < 2 ^ 63 then some ⟨n, h⟩ else none
  | none => none

def Kind.parse : (k : Kind) → String → Option k.Val
  | .string, s => some s
  | .int, s => parseInt s
  | .int64, s => parseInt s
  | .bool, s => parseBool s

def loadScalar (name : String) (exported : Bool) (k : Kind) (value : String) : Except Failure k.Val :=
  match k.parse value with
  | none => .error (.parse name)
  | some v => if exported then .ok v else .error (.unexported name)

/-- A value read into a field. `parseTime` is `time.Parse` of RFC 3339. -/
def loadValue (parseTime : String → Option T) (value : String) : Entry T → Except Failure (Entry T)
  | .plain name exported t _ => do
    let v ← loadScalar name exported t.kind value
    .ok (.plain name exported t v)
  | .pointer name exported t current =>
    if value = "" then .ok (.pointer name exported t current)
    else if exported = false then .error (.unexported name)
    else do
      let v ← loadScalar name exported t.kind value
      .ok (.pointer name exported t (some v))
  | .deletedAt name exported current =>
    if value = "" then .ok (.deletedAt name exported current)
    else match parseTime value with
      | none => .error (.parse name)
      | some time =>
        if exported then .ok (.deletedAt name exported (some time)) else .error (.unexported name)

def loadField (parseTime : String → Option T) (result : List (String × String)) (e : Entry T) :
    Except Failure (Entry T) :=
  match result.lookup e.name with
  | none => .ok e
  | some value => loadValue parseTime value e

def redisHGetObj (parseTime : String → Option T) (result : List (String × String))
    (obj : List (Entry T)) : Except Failure (List (Entry T)) :=
  if result = [] then .error .notFound else obj.mapM (loadField parseTime result)

end Model

section Specification

variable {T : Type}

/-- A value of a struct type, whose fields have different names. -/
structure Object (T : Type) where
  entries : List (Entry T)
  names : (entries.map Entry.name).Nodup

/-- The field as it should be read back. A time of deletion is not stored. -/
def remembered : Entry T → Entry T
  | .deletedAt name exported _ => .deletedAt name exported none
  | e => e

/-- The object is stored, and its hash read into a zero value of its type. -/
def roundTrip (parseTime : String → Option T) (obj : List (Entry T)) : Except Failure (List (Entry T)) := do
  let hash ← redisHSetObj obj
  redisHGetObj parseTime hash (obj.map Entry.zeroed)

/-- The type has no `String` method that prints the value as something else. -/
def PrintsItself (t : ScalarType) (v : t.kind.Val) : Prop :=
  t.method = none ∨ t.kind = .bool ∨ t.kind.parse (t.text v) = some v

def Survives : Entry T → Prop
  | .deletedAt _ _ _ => True
  | .pointer _ _ _ none => True
  | .pointer _ exported t (some v) => exported = true ∧ t.text v ≠ "" ∧ PrintsItself t v
  | .plain _ exported t v => exported = true ∧ PrintsItself t v

/-- The field is not a time of deletion. -/
def Entry.isStored : Entry T → Bool
  | .deletedAt _ _ _ => false
  | _ => true

end Specification

theorem atoi_toString {n : Int} (h : -2 ^ 63 ≤ n ∧ n < 2 ^ 63) : atoi (toString n) = some n := by
  have hdigits (m : Nat) : digits (Nat.toDigits 10 m) = some m := by
    rw [digits_eq Nat.toDigits_ne_nil, if_pos, Nat.ofDigitChars_ten_toDigits]
    rw [List.all_eq_true]
    exact fun c hc => Lib.Decimal.mem_toDigits hc
  rw [atoi, Lib.Decimal.toList_toString]
  by_cases hn : 0 ≤ n
  · have hall : (Nat.toDigits 10 n.toNat).all Char.isDigit = true :=
      List.all_eq_true.2 fun c hc => Lib.Decimal.mem_toDigits hc
    rw [if_pos hn, splitSign_digits hall]
    simp only [hdigits]
    have hvalue : ((n.toNat : Nat) : Int) = n := Int.toNat_of_nonneg hn
    simp only [Bool.false_eq_true, if_false, hvalue]
    exact if_pos h
  · rw [if_neg hn]
    have hsplit : splitSign ('-' :: Nat.toDigits 10 (-n).toNat) = (true, Nat.toDigits 10 (-n).toNat) :=
      rfl
    have hvalue : -(((-n).toNat : Nat) : Int) = n := by omega
    rw [hsplit]
    simp only [hdigits, if_true, hvalue]
    exact if_pos h

theorem parseInt_toString (n : Word) : parseInt (toString n.1) = some n := by
  rw [parseInt, atoi_toString n.2]
  exact dif_pos n.2

theorem parse_print (k : Kind) (v : k.Val) : k.parse (k.print v) = some v := by
  cases k with
  | string => rfl
  | int => exact parseInt_toString v
  | int64 => exact parseInt_toString v
  | bool =>
    cases v
    · show parseBool "false" = some false
      decide
    · show parseBool "true" = some true
      decide

theorem parse_text_iff {t : ScalarType} {v : t.kind.Val} :
    t.kind.parse (t.text v) = some v ↔ PrintsItself t v := by
  constructor
  · exact fun h => .inr (.inr h)
  · rintro (hmethod | hbool | h)
    · have htext : t.text v = t.kind.print v := by
        rw [ScalarType.text, hmethod]
        split <;> rfl
      rw [htext, parse_print]
    · rw [ScalarType.text, if_pos hbool, parse_print]
    · exact h

section Fields

variable {T : Type} {parseTime : String → Option T} {result : List (String × String)} {e : Entry T}

/-- What is stored for a field. -/
def storedText : Entry T → Option String
  | .deletedAt _ _ _ => none
  | .pointer _ _ _ none => some ""
  | .pointer _ _ t (some v) => some (t.text v)
  | .plain _ _ t v => some (t.text v)

def pairs (e : Entry T) : List (String × String) := (storedText e).toList.map fun text => (e.name, text)

theorem storeScalar_ok {name : String} {exported : Bool} {t : ScalarType} {v : t.kind.Val}
    {stored : List (String × String)} (h : storeScalar name exported t v = .ok stored) :
    stored = [(name, t.text v)] := by
  rw [storeScalar] at h
  split at h
  · cases h
  · exact (Except.ok.inj h).symm

theorem storeScalar_of_exported {name : String} {exported : Bool} {t : ScalarType} {v : t.kind.Val}
    (h : exported = true) : storeScalar name exported t v = .ok [(name, t.text v)] := by
  rw [storeScalar, h, if_neg]
  exact fun hfalse => absurd hfalse.2 Bool.noConfusion

theorem storeField_ok {stored : List (String × String)} (h : storeField e = .ok stored) :
    stored = pairs e := by
  cases e with
  | plain name exported t v => exact storeScalar_ok h
  | pointer name exported t v =>
    cases v with
    | none => exact (Except.ok.inj h).symm
    | some v => exact storeScalar_ok h
  | deletedAt name exported time => exact (Except.ok.inj h).symm

theorem storeField_of_survives (h : Survives e) : storeField e = .ok (pairs e) := by
  cases e with
  | plain name exported t v => exact storeScalar_of_exported h.1
  | pointer name exported t v =>
    cases v with
    | none => rfl
    | some v => exact storeScalar_of_exported h.1
  | deletedAt name exported time => rfl

theorem loadScalar_eq_ok {name : String} {exported : Bool} {k : Kind} {value : String} {v : k.Val} :
    loadScalar name exported k value = .ok v ↔ exported = true ∧ k.parse value = some v := by
  rw [loadScalar]
  cases k.parse value with
  | none => simp
  | some w => cases exported <;> simp

theorem bind_ok_iff {α β : Type} {x : Except Failure α} {g : α → β} (hg : ∀ a b, g a = g b → a = b)
    {a : α} :
    (do
      let v ← x
      .ok (g v)) = (.ok (g a) : Except Failure β) ↔ x = .ok a := by
  cases x with
  | error f =>
    apply iff_of_false
    · exact fun h => by cases h
    · exact fun h => by cases h
  | ok v =>
    show Except.ok (g v) = Except.ok (g a) ↔ _
    rw [Except.ok.injEq, Except.ok.injEq]
    exact ⟨hg v a, congrArg g⟩

/-- A field is read back as it was exactly when it survives. -/
theorem loadField_iff (h : result.lookup e.name = storedText e) :
    loadField parseTime result e.zeroed = .ok (remembered e) ↔ Survives e := by
  have hname : e.zeroed.name = e.name := by cases e <;> rfl
  rw [loadField, hname, h]
  cases e with
  | plain name exported t v =>
    show (do
      let w ← loadScalar name exported t.kind (t.text v)
      .ok (Entry.plain name exported t w : Entry T)) = .ok (.plain name exported t v) ↔ _
    rw [@bind_ok_iff _ _ _ (Entry.plain name exported t) fun a b h => by cases h; rfl,
      loadScalar_eq_ok, parse_text_iff]
    rfl
  | pointer name exported t v =>
    cases v with
    | none => exact iff_of_true rfl trivial
    | some v =>
      show (if t.text v = "" then .ok (Entry.pointer name exported t none : Entry T)
        else if exported = false then .error (.unexported name)
        else do
          let w ← loadScalar name exported t.kind (t.text v)
          .ok (Entry.pointer name exported t (some w))) = .ok (.pointer name exported t (some v)) ↔
        exported = true ∧ t.text v ≠ "" ∧ PrintsItself t v
      by_cases hempty : t.text v = ""
      · rw [if_pos hempty]
        apply iff_of_false
        · intro heq
          cases heq
        · exact fun hall => hall.2.1 hempty
      · rw [if_neg hempty]
        by_cases hexported : exported = false
        · rw [if_pos hexported, hexported]
          apply iff_of_false
          · exact fun h => by cases h
          · exact fun hall => Bool.noConfusion hall.1
        · rw [if_neg hexported]
          rw [@bind_ok_iff _ _ _ (fun w => Entry.pointer name exported t (some w))
            fun a b h => by cases h; rfl, loadScalar_eq_ok, parse_text_iff]
          exact and_congr_right fun _ => (and_iff_right hempty).symm
  | deletedAt name exported time => exact iff_of_true rfl trivial

end Fields

section Objects

variable {T : Type} {parseTime : String → Option T}

theorem mapM_storeField_ok {obj : List (Entry T)} {data : List (List (String × String))}
    (h : obj.mapM storeField = .ok data) : data = obj.map pairs := by
  rw [Lib.Lists.mapM_ok_iff] at h
  induction h with
  | nil => rfl
  | cons hfirst _ ih => rw [List.map_cons, storeField_ok hfirst, ih]

theorem redisHSetObj_ok {obj : List (Entry T)} {hash : List (String × String)}
    (h : redisHSetObj obj = .ok hash) : hash = obj.flatMap pairs ∧ hash ≠ [] := by
  rw [redisHSetObj] at h
  cases hdata : obj.mapM storeField with
  | error f =>
    rw [hdata] at h
    cases h
  | ok data =>
    rw [hdata] at h
    replace h : (if data.flatten = [] then .error .emptyHash else .ok data.flatten) =
      Except.ok (ε := Failure) hash := h
    split at h
    · cases h
    · next hne =>
      obtain rfl := Except.ok.inj h
      refine ⟨?_, hne⟩
      rw [mapM_storeField_ok hdata, List.flatMap_def]

theorem flatMap_pairs_ne_nil {obj : List (Entry T)} :
    obj.flatMap pairs ≠ [] ↔ ∃ e ∈ obj, e.isStored = true := by
  have hpairs (e : Entry T) : pairs e ≠ [] ↔ e.isStored = true := by
    cases e with
    | plain name exported t v => simp [pairs, storedText, Entry.isStored]
    | pointer name exported t v => cases v <;> simp [pairs, storedText, Entry.isStored]
    | deletedAt name exported time => simp [pairs, storedText, Entry.isStored]
  simp only [ne_eq, List.flatMap_eq_nil_iff, not_forall, ← hpairs, exists_prop]

theorem redisHSetObj_of_survives {obj : List (Entry T)} (h : ∀ e ∈ obj, Survives e)
    (hstored : ∃ e ∈ obj, e.isStored = true) : redisHSetObj obj = .ok (obj.flatMap pairs) := by
  have hdata : obj.mapM storeField = .ok (obj.map pairs) := by
    rw [Lib.Lists.mapM_ok_iff, List.forall₂_map_right_iff, List.forall₂_same]
    exact fun e he => storeField_of_survives (h e he)
  rw [redisHSetObj, hdata]
  show (if (obj.map pairs).flatten = [] then Except.error Failure.emptyHash
    else Except.ok (obj.map pairs).flatten) = _
  rw [← List.flatMap_def, if_neg (flatMap_pairs_ne_nil.2 hstored)]

/-- With different names each field finds its own text. -/
theorem lookup_pairs {obj : List (Entry T)} (hnames : (obj.map Entry.name).Nodup) {e : Entry T}
    (he : e ∈ obj) : (obj.flatMap pairs).lookup e.name = storedText e := by
  induction obj with
  | nil => cases he
  | cons first obj ih =>
    rw [List.map_cons, List.nodup_cons] at hnames
    rw [List.flatMap_cons, List.lookup_append]
    rcases List.mem_cons.1 he with rfl | he
    · have hnone : (obj.flatMap pairs).lookup e.name = none := by
        rw [List.lookup_eq_none_iff]
        rintro ⟨name, text⟩ hmem
        obtain ⟨other, hother, hpair⟩ := List.mem_flatMap.1 hmem
        rw [pairs, List.mem_map] at hpair
        obtain ⟨_, -, heq⟩ := hpair
        rw [← (Prod.mk.inj heq).1]
        rw [bne_iff_ne]
        intro hname
        exact hnames.1 (hname ▸ List.mem_map_of_mem hother)
      rw [hnone, pairs]
      cases storedText e <;> simp
    · have hne : e.name ≠ first.name := fun heq => hnames.1 (heq ▸ List.mem_map_of_mem he)
      have hfirst : (pairs first).lookup e.name = none := by
        rw [pairs]
        cases storedText first with
        | none => rfl
        | some text => simp [hne]
      rw [hfirst, ih hnames.2 he]
      rfl

/-- An object is read from its hash as it was stored exactly when one of its fields is stored and
each survives. -/
theorem roundTrip_iff (parseTime : String → Option T) (obj : Object T) :
    roundTrip parseTime obj.entries = .ok (obj.entries.map remembered) ↔
      (∃ e ∈ obj.entries, e.isStored = true) ∧ ∀ e ∈ obj.entries, Survives e := by
  have hload (hne : obj.entries.flatMap pairs ≠ []) :
      redisHGetObj parseTime (obj.entries.flatMap pairs) (obj.entries.map Entry.zeroed) =
        .ok (obj.entries.map remembered) ↔ ∀ e ∈ obj.entries, Survives e := by
    rw [redisHGetObj, if_neg hne, Lib.Lists.mapM_ok_iff, List.forall₂_map_left_iff,
      List.forall₂_map_right_iff, List.forall₂_same]
    exact forall₂_congr fun e he => loadField_iff (lookup_pairs obj.names he)
  constructor
  · intro h
    rw [roundTrip] at h
    cases hset : redisHSetObj obj.entries with
    | error f =>
      rw [hset] at h
      cases h
    | ok hash =>
      rw [hset] at h
      obtain ⟨rfl, hne⟩ := redisHSetObj_ok hset
      exact ⟨flatMap_pairs_ne_nil.1 hne, (hload hne).1 h⟩
  · rintro ⟨hstored, h⟩
    rw [roundTrip, redisHSetObj_of_survives h hstored]
    exact (hload (flatMap_pairs_ne_nil.2 hstored)).2 h

/-- A pointer to an empty string is read back as no pointer. -/
theorem empty_string_lost :
    ¬ roundTrip (fun _ => none) [Entry.pointer "AllowIps" true ⟨.string, none⟩ (some "")] =
      Except.ok (([Entry.pointer "AllowIps" true ⟨.string, none⟩ (some "")] :
        List (Entry Nat)).map remembered) := by
  intro h
  have hload : roundTrip (fun _ => none) [Entry.pointer "AllowIps" true ⟨.string, none⟩ (some "")] =
    Except.ok ([Entry.pointer "AllowIps" true ⟨.string, none⟩ none] : List (Entry Nat)) := rfl
  rw [hload] at h
  cases h

end Objects

end CodeGo.Platform.HashObjects
