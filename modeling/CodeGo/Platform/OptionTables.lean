import CodeGo.Platform.ConfigReload
import Mathlib.Logic.Function.Basic

/-!
# The options that are tables

`UpdateOption` of `internal/platform/store` for the options of which the value is a table of prices,
ratios or groups: it writes the row, then `OptionMap`, then the table that bills. The keys of
configuration structs, which have a dot, go another way.
-/

namespace CodeGo.Platform.Options

open Lib Lib.Json Config

variable (floats : FloatSize → Floating)

section Model

inductive TableKey where
  | topupGroupRatio | modelRatio | groupRatio | groupGroupRatio | userUsableGroups | completionRatio
  | modelPrice | cacheRatio | createCacheRatio | imageRatio | audioRatio | audioCompletionRatio
  deriving DecidableEq

def TableKey.all : List TableKey :=
  [.topupGroupRatio, .modelRatio, .groupRatio, .groupGroupRatio, .userUsableGroups,
    .completionRatio, .modelPrice, .cacheRatio, .createCacheRatio, .imageRatio, .audioRatio,
    .audioCompletionRatio]

/-- The type of the map. -/
def TableKey.ty : TableKey → Ty
  | .userUsableGroups => .map .string .string
  | .groupGroupRatio => .map .string (.map .string (.float .f64))
  | _ => .map .string (.float .f64)

abbrev TableKey.Table (k : TableKey) : Type := k.ty.Val floats

structure State where
  /-- The rows of the table `options`. -/
  options : TableKey → Option String
  optionMap : TableKey → Option String
  tables : (k : TableKey) → k.Table floats

inductive OptionError where
  | database
  | unmarshal

variable {floats}

def TableKey.empty : (k : TableKey) → k.Table floats
  | .userUsableGroups => some ∅
  | .groupGroupRatio => some ∅
  | .topupGroupRatio | .modelRatio | .groupRatio | .completionRatio | .modelPrice | .cacheRatio
  | .createCacheRatio | .imageRatio | .audioRatio | .audioCompletionRatio => some ∅

/-- What `json.Unmarshal` leaves in a new table. -/
def TableKey.decoded (k : TableKey) (value : String) : k.Table floats :=
  match parse value with
  | some j => k.ty.decode j k.empty
  | none => k.empty

variable (floats) in
/-- `json.Unmarshal` returns no error. -/
def TableKey.reads (k : TableKey) (value : String) : Bool := (parse value).any (k.ty.fits floats)

variable (floats) in
def TableKey.unmarshal (k : TableKey) (value : String) : Except OptionError Unit :=
  if k.reads floats value then .ok () else .error .unmarshal

/-- `LoadFromJsonString`: the text is read into the table itself, which is emptied before. -/
def loadFromJsonString (k : TableKey) (value : String) : Except OptionError Unit × k.Table floats :=
  (k.unmarshal floats value, k.decoded value)

/-- The text is read into a new map, which becomes the table when there was no error. -/
def updateUserUsableGroupsByJSONString (k : TableKey) (value : String) (table : k.Table floats) :
    Except OptionError Unit × k.Table floats :=
  (k.unmarshal floats value, if k.reads floats value then k.decoded value else table)

/-- The update function of the key in `applyOptionValue`. -/
def TableKey.update (k : TableKey) (value : String) (table : k.Table floats) :
    Except OptionError Unit × k.Table floats :=
  if k = .userUsableGroups then updateUserUsableGroupsByJSONString k value table
  else loadFromJsonString k value

def applyOptionValue (k : TableKey) (value : String) (s : State floats) :
    Except OptionError Unit × State floats :=
  let updated := k.update value (s.tables k)
  (updated.1, { s with
    optionMap := Function.update s.optionMap k (some value)
    tables := Function.update s.tables k updated.2 })

/-- The statement that the database fails at. -/
inductive Fault where
  | firstOrCreate | save
  deriving DecidableEq

def updateOption (fault : Option Fault) (k : TableKey) (value : String) (s : State floats) :
    Except OptionError Unit × State floats :=
  let created := { s with options := Function.update s.options k (some ((s.options k).getD "")) }
  match fault with
  | some .firstOrCreate => (.error .database, s)
  | some .save => (.error .database, created)
  | none => applyOptionValue k value
      { s with options := Function.update s.options k (some value) }

/-- One row of `loadOptionsFromDatabase`; an error is logged. -/
def loadRow (s : State floats) (k : TableKey) : State floats :=
  match s.options k with
  | some value => (applyOptionValue k value s).2
  | none => s

/-- The rows have different keys, so their order does not matter. -/
def loadOptionsFromDatabase (s : State floats) : State floats := TableKey.all.foldl loadRow s

structure Update where
  fault : Option Fault
  key : TableKey
  value : String

def run (s : State floats) (updates : List Update) : State floats :=
  updates.foldl (fun s u => (updateOption u.fault u.key u.value s).2) s

end Model

section Law

variable {floats}

/-- An error leaves everything as it was; without one the table is the value. -/
def Atomic (fault : Option Fault) (k : TableKey) (value : String) (s : State floats) : Prop :=
  match updateOption fault k value s with
  | (.error _, s') => s' = s
  | (.ok _, s') => k.reads floats value ∧ s'.tables k = k.decoded value

/-- The running tables are those of a process that starts with the default tables and the rows. -/
def Rebuilt (defaults : (k : TableKey) → k.Table floats) (s : State floats) : Prop :=
  s.tables = (loadOptionsFromDatabase { s with tables := defaults }).tables

/-- The value can be decoded, or the row cannot be touched, or all of this is there already. -/
def Safe (fault : Option Fault) (k : TableKey) (value : String) (s : State floats) : Prop :=
  match fault with
  | some .firstOrCreate => True
  | some .save => (s.options k).isSome
  | none => k.reads floats value ∨
    s.options k = some value ∧ s.optionMap k = some value ∧
      (k.update value (s.tables k)).2 = s.tables k

def SafeAlong : State floats → List Update → Prop
  | _, [] => True
  | s, u :: updates => Safe u.fault u.key u.value s ∧
    SafeAlong (updateOption u.fault u.key u.value s).2 updates

end Law

section Updates

variable {floats} {k : TableKey} {value : String} {s : State floats}

theorem update_error (table : k.Table floats) :
    (k.update value table).1 = k.unmarshal floats value := by
  unfold TableKey.update
  split <;> rfl

theorem update_of_reads (h : k.reads floats value) (table : k.Table floats) :
    (k.update value table).2 = k.decoded value := by
  unfold TableKey.update
  split
  · exact if_pos h
  · rfl

/-- What an update writes is there already. -/
theorem update_eq_self_iff :
    (applyOptionValue k value { s with options := Function.update s.options k (some value) }).2 = s ↔
      s.options k = some value ∧ s.optionMap k = some value ∧
        (k.update value (s.tables k)).2 = s.tables k := by
  constructor
  · intro h
    have hoptions := congrFun (congrArg State.options h) k
    have hmap := congrFun (congrArg State.optionMap h) k
    have htables := congrFun (congrArg State.tables h) k
    simp only [applyOptionValue, Function.update_self] at hoptions hmap htables
    exact ⟨hoptions.symm, hmap.symm, htables⟩
  · rintro ⟨hoptions, hmap, htables⟩
    simp only [applyOptionValue, htables, ← hoptions, Function.update_eq_self]
    rw [hoptions, ← hmap, Function.update_eq_self]

theorem atomic_iff (fault : Option Fault) : Atomic fault k value s ↔ Safe fault k value s := by
  match fault with
  | some .firstOrCreate => simp [Atomic, Safe, updateOption]
  | some .save =>
    show { s with options := Function.update s.options k (some ((s.options k).getD "")) } = s ↔
      (s.options k).isSome
    constructor
    · intro h
      have hoptions := congrFun (congrArg State.options h) k
      simp only [Function.update_self] at hoptions
      rw [← hoptions]
      rfl
    · intro h
      obtain ⟨old, hold⟩ := Option.isSome_iff_exists.1 h
      rw [hold, Option.getD_some, ← hold, Function.update_eq_self]
  | none =>
    have hresult := @update_error floats k value (s.tables k)
    cases hreads : k.reads floats value with
    | true =>
      rw [TableKey.unmarshal, if_pos hreads] at hresult
      simp only [Atomic, Safe, updateOption, applyOptionValue, hresult, hreads, true_or, iff_true,
        Function.update_self, true_and]
      exact update_of_reads hreads _
    | false =>
      rw [TableKey.unmarshal, if_neg (by simp [hreads])] at hresult
      have hsame := @update_eq_self_iff floats k value s
      simp only [Atomic, Safe, updateOption, hreads, Bool.false_eq_true, false_or, ← hsame]
      simp only [applyOptionValue, hresult]

end Updates

section Runs

variable {floats} {k : TableKey} {value : String} {s : State floats}

theorem tables_foldl_loadRow (rows : List TableKey) (hrows : rows.Nodup) :
    (rows.foldl loadRow s).tables k =
      match s.options k with
      | some value => if k ∈ rows then (k.update value (s.tables k)).2 else s.tables k
      | none => s.tables k := by
  induction rows generalizing s with
  | nil => cases s.options k <;> rfl
  | cons row rows ih =>
    obtain ⟨hrow, hrows⟩ := List.nodup_cons.1 hrows
    have hoptions : (loadRow s row).options = s.options := by
      unfold loadRow
      split <;> rfl
    rw [List.foldl_cons, ih hrows, hoptions]
    by_cases hk : k = row
    · subst hk
      cases hvalue : s.options k with
      | none => simp only [loadRow, hvalue]
      | some value => simp [loadRow, hvalue, hrow, applyOptionValue]
    · have hother : (loadRow s row).tables k = s.tables k := by
        unfold loadRow
        split
        · exact Function.update_of_ne hk _ _
        · rfl
      simp only [hother, List.mem_cons, hk, false_or]

/-- What a table is after the rows are loaded over others. -/
theorem tables_loadOptionsFromDatabase :
    (loadOptionsFromDatabase s).tables k =
      match s.options k with
      | some value => (k.update value (s.tables k)).2
      | none => s.tables k := by
  have hall : k ∈ TableKey.all := by cases k <;> decide
  unfold loadOptionsFromDatabase
  rw [tables_foldl_loadRow _ (by decide)]
  simp only [if_pos hall]

/-- An update that is safe leaves everything alone, or it was read. -/
theorem Safe.cases {fault : Option Fault} (h : Safe fault k value s) :
    (updateOption fault k value s).2 = s ∨ fault = none ∧ k.reads floats value := by
  match fault with
  | some .firstOrCreate => exact .inl rfl
  | some .save => exact .inl ((atomic_iff (some .save)).2 h)
  | none => exact h.symm.imp update_eq_self_iff.2 fun hreads => ⟨rfl, hreads⟩

theorem Rebuilt.updateOption {defaults : (k : TableKey) → k.Table floats} {fault : Option Fault}
    (h : Rebuilt defaults s) (hsafe : Safe fault k value s) :
    Rebuilt defaults (updateOption fault k value s).2 := by
  rcases hsafe.cases with hsame | ⟨rfl, hreads⟩
  · rwa [hsame]
  · funext other
    have hother := congrFun h other
    rw [tables_loadOptionsFromDatabase] at hother ⊢
    show Function.update s.tables k _ other = match Function.update s.options k (some value) other with
      | some value => (other.update value (defaults other)).2
      | none => defaults other
    by_cases hk : other = k
    · subst hk
      rw [Function.update_self, Function.update_self]
      exact (update_of_reads hreads _).trans (update_of_reads hreads _).symm
    · rw [Function.update_of_ne hk, Function.update_of_ne hk]
      exact hother

theorem Rebuilt.run {defaults : (k : TableKey) → k.Table floats} (h : Rebuilt defaults s) :
    ∀ updates, SafeAlong s updates → Rebuilt defaults (run s updates) := by
  intro updates
  induction updates generalizing s with
  | nil => exact fun _ => h
  | cons u updates ih =>
    intro hsafe
    exact ih (h.updateOption hsafe.1) hsafe.2

end Runs

/-- A process without rows that has one price. -/
def priced : State fun _ => zeroOnly where
  options _ := none
  optionMap _ := none
  tables := Function.update TableKey.empty .modelRatio (some (AList.singleton "gpt-4o" ()))

end CodeGo.Platform.Options
