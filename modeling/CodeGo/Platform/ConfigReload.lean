import CodeGo.Platform.ConfigValues
import Mathlib.Data.List.FinRange

/-!
# Saving and loading a configuration

`configToMap` writes a configuration struct as one text for each field, `updateConfigFromMap` reads
the texts back into a struct that holds values already. The types are registered once; the keys of
their fields differ.
-/

namespace CodeGo.Platform.Config

open Lib Lib.Json
open Gateway.Validation (atoi parseBool)

variable {floats : FloatSize → Floating}

section Model

/-- The text of a field. A kind that is not supported is skipped. -/
def Ty.text : (t : Ty) → t.Val floats → Option String
  | .string, s => some s
  | .bool, b => some (if b = true then "true" else "false")
  | .int _, n => some (toString n.toInt)
  | .uint _, n => some (toString n.toNat)
  | .float size, x => some ((floats size).format x)
  | .ptr _, none => some "null"
  | .ptr t, some x => some (t.encode x).encode
  | .rwMap _ _, none => some "null"
  | .rwMap k t, some m => some (Ty.encode (.rwMap k t) (some m)).encode
  | .map k t, m => some (Ty.encode (.map k t) m).encode
  | .slice t, s => some (Ty.encode (.slice t) s).encode
  | .struct fs, v => some (Ty.encode (.struct fs) v).encode
  | .any, _ => none

/-- The field can be written. -/
def Ty.marshals : (t : Ty) → t.Val floats → Bool
  | .string, _ => true
  | .bool, _ => true
  | .int _, _ => true
  | .uint _, _ => true
  | .float _, _ => true
  | .any, _ => true
  | .ptr t, p => Ty.finite (.ptr t) p
  | .rwMap k t, m => Ty.finite (.rwMap k t) m
  | .map k t, m => Ty.finite (.map k t) m
  | .slice t, s => Ty.finite (.slice t) s
  | .struct fs, v => Ty.finite (.struct fs) v

/-- What a text makes of a field. -/
def Ty.updateField : (t : Ty) → String → t.Val floats → t.Val floats
  | .string, s, _ => s
  | .bool, s, v => (parseBool s).getD v
  | .int w, s, v => match atoi s with
    | some n => BitVec.ofInt w.bits n
    | none => match (floats .f64).parse s with
      | some x => BitVec.ofInt w.bits ((floats .f64).toInt x)
      | none => v
  | .uint w, s, v => match parseUint s with
    | some n => BitVec.ofNat w.bits n
    | none => match (floats .f64).parse s with
      | some x =>
        if (floats .f64).isNegative x then v else BitVec.ofInt w.bits ((floats .f64).toInt x)
      | none => v
  | .float size, s, v => ((floats size).parse s).getD v
  | .ptr t, s, v =>
    if s = "null" then none
    -- a nil pointer is initialised before the text is read
    else some (match parse s with
      | some j => t.decode j (v.getD (t.zero floats))
      | none => v.getD (t.zero floats))
  | .rwMap _ t, s, v =>
    if s = "null" then none
    else some (match parse s with
      | some j => decodeMap (fun j => t.decode j (t.zero floats)) j (some ∅)
      | none => v.getD none)
  | .map k t, s, v => match parse s with
    -- into a fresh map
    | some j => if Ty.fits floats (.map k t) j then Ty.decode (.map k t) j none else v
    | none => v
  | .slice t, s, v => match parse s with
    | some j => Ty.decode (.slice t) j v
    | none => v
  | .struct fs, s, v => match parse s with
    | some j => Ty.decode (.struct fs) j v
    | none => v
  | .any, _, v => v

/-- The text decodes. -/
def Ty.reads (floats : FloatSize → Floating) : Ty → String → Bool
  | .string, _ => true
  | .bool, s => (parseBool s).isSome
  | .int _, s => (atoi s).isSome || ((floats .f64).parse s).isSome
  | .uint _, s => (parseUint s).isSome || ((floats .f64).parse s).any fun x =>
    !(floats .f64).isNegative x
  | .float size, s => ((floats size).parse s).isSome
  | .any, _ => true
  | .ptr t, s => s == "null" || (parse s).any (t.fits floats)
  | .rwMap k t, s => s == "null" || (parse s).any (Ty.fits floats (.rwMap k t))
  | .map k t, s => (parse s).any (Ty.fits floats (.map k t))
  | .slice t, s => (parse s).any (Ty.fits floats (.slice t))
  | .struct fs, s => (parse s).any (Ty.fits floats (.struct fs))

structure ConfigField where
  goName : String
  /-- The whole tag under `json`. -/
  tag : String
  exported : Bool
  t : Ty

def ConfigField.key (f : ConfigField) : String :=
  if f.tag = "" ∨ f.tag = "-" then f.goName else f.tag

structure ConfigType where
  fields : List ConfigField
  keys : ∀ i j : Fin fields.length, (fields.get i).exported = true →
    (fields.get j).exported = true → (fields.get i).key = (fields.get j).key → i = j
  distinct : ∀ i : Fin fields.length, (fields.get i).t.Distinct

abbrev ConfigType.Index (c : ConfigType) := Fin c.fields.length

def ConfigType.field (c : ConfigType) (i : c.Index) : ConfigField := c.fields.get i

variable (floats) in
/-- A configuration struct, field by field. -/
def ConfigType.Val (c : ConfigType) : Type := (i : c.Index) → (c.field i).t.Val floats

abbrev ConfigMap := AList fun _ : String => String

variable {c : ConfigType}

def ConfigType.Val.store (v : c.Val floats) (m : ConfigMap) (i : c.Index) : ConfigMap :=
  if (c.field i).exported then match (c.field i).t.text (v i) with
    | some s => m.insert (c.field i).key s
    | none => m
  else m

/-- There is nothing where a field cannot be written. -/
def configToMap (v : c.Val floats) : Option ConfigMap :=
  if ∀ i : c.Index, (c.field i).exported = true → (c.field i).t.marshals (v i) = true then
    some ((List.finRange c.fields.length).foldl v.store ∅)
  else none

def updateConfigFromMap (w : c.Val floats) (m : ConfigMap) : c.Val floats := fun i =>
  if (c.field i).exported then match m.lookup (c.field i).key with
    | some s => (c.field i).t.updateField s (w i)
    | none => w i
  else w i

end Model

section Specification

/-- The value of a field comes back over another value of it. -/
def Ty.Restored : (t : Ty) → t.Val floats → t.Val floats → Prop
  | .any, v, w => w = v
  | .map _ t, v, _ => Option.elim v True fun m =>
    ∀ key x, m.lookup key = some x → t.Survives x (t.zero floats)
  | t, v, w => t.Survives v w

/-- What of the text fits is there already, and there is no nil pointer to be initialised. -/
def Ty.Holds : (t : Ty) → String → t.Val floats → Prop
  | .ptr t, s, v => ∃ x, v = some x ∧ ∀ j, parse s = some j → t.Same (t.decode j x) x
  | .rwMap k t, s, v => ∃ m, v = some m ∧
    ∀ j, parse s = some j → Ty.Same (.rwMap k t) (Ty.decode (.rwMap k t) j v) v
  | .slice t, s, v => ∀ j, parse s = some j → Ty.Same (.slice t) (Ty.decode (.slice t) j v) v
  | .struct fs, s, v => ∀ j, parse s = some j → Ty.Same (.struct fs) (Ty.decode (.struct fs) j v) v
  | _, _, _ => True

variable {c : ConfigType}

/-- What `configToMap` writes of the first, read over the second, gives the first. -/
def Reloads (v w : c.Val floats) : Prop :=
  ∃ m, configToMap v = some m ∧ ∀ i, (c.field i).t.Same (updateConfigFromMap w m i) (v i)

def Restorable (v w : c.Val floats) : Prop :=
  ∀ i : c.Index, if (c.field i).exported then
      (c.field i).t.marshals (v i) = true ∧ (c.field i).t.Restored (v i) (w i)
    else (c.field i).t.Same (w i) (v i)

/-- A text that does not decode leaves the field as it is. -/
def KeepsUnread (t : Ty) (s : String) (v : t.Val floats) : Prop :=
  t.reads floats s = false → t.Same (t.updateField s v) v

end Specification

theorem parse_text {t : Ty} {v : t.Val floats} (h : t.finite v = true) :
    parse (t.encode v).encode = some (t.encode v) :=
  parse_encode (t.wellFormed_encode v h)

theorem parse_null : parse "null" = some .null := @parse_encode .null rfl

/-- Only null is written as `null`. -/
theorem encode_eq_null_text {t : Ty} {v : t.Val floats} (h : t.finite v = true) :
    (t.encode v).encode = "null" ↔ t.encode v = .null := by
  constructor
  · intro htext
    exact encode_injective (b := .null) (t.wellFormed_encode v h) rfl htext
  · intro hnull
    rw [hnull]
    rfl

/-- The text of a field gives its value back exactly when that survives. -/
theorem Ty.updateField_text : (t : Ty) → t.Distinct → (v w : t.Val floats) → t.marshals v = true →
    ((match t.text v with
      | some s => t.Same (t.updateField s w) v
      | none => t.Same w v) ↔ t.Restored v w)
  | .string, _, _, _, _ => iff_of_true rfl trivial
  | .bool, _, b, w, _ => by
    apply iff_of_true _ trivial
    cases b <;> rfl
  | .int width, _, n, w, _ => by
    have hrange := HashObjects.atoi_toString (n := BitVec.toInt n) (by
      have hlow := BitVec.le_toInt n
      have hhigh := BitVec.toInt_lt (x := n)
      have hpow : (2 : Int) ^ (width.bits - 1) ≤ 2 ^ 63 := by cases width <;> decide
      omega)
    have hread : @Ty.updateField floats (.int width) (toString (BitVec.toInt n)) w = n := by
      rw [Ty.updateField, hrange]
      exact BitVec.ofInt_toInt
    exact iff_of_true hread trivial
  | .uint width, _, n, w, _ => by
    have hsmall : BitVec.toNat n < 2 ^ 64 := Nat.lt_of_lt_of_le (BitVec.isLt n)
      (Nat.pow_le_pow_right (by decide) (by cases width <;> decide))
    have hread : @Ty.updateField floats (.uint width) (toString (BitVec.toNat n)) w = n := by
      rw [Ty.updateField, parseUint_toString hsmall]
      simp
    exact iff_of_true hread trivial
  | .float size, _, x, w, _ => by
    have hread : Ty.updateField (.float size) ((floats size).format x) w = x := by
      rw [Ty.updateField, (floats size).parse_format, Option.getD_some]
    exact iff_of_true hread trivial
  | .any, _, _, _, _ => Iff.rfl
  | .ptr _, _, none, _, _ => iff_of_true .none trivial
  | .ptr t, hd, some x, w, h => by
    have hx := t.decode_encode hd x (Option.getD w (t.zero floats)) h
    have htext := encode_eq_null_text (t := t) h
    show Option.Rel t.Same (Ty.updateField (.ptr t) (t.encode x).encode w) (some x) ↔
      t.isNull x = false ∧ t.Survives x (Option.getD w (t.zero floats))
    rw [Ty.updateField]
    by_cases hnull : t.encode x = .null
    · rw [if_pos (htext.2 hnull), (t.encode_eq_null x).1 hnull]
      exact iff_of_false (by rintro ⟨⟩) (by simp)
    · have hfalse : t.isNull x = false := by
        rw [← Bool.not_eq_true, ← t.encode_eq_null]
        exact hnull
      rw [if_neg (mt htext.1 hnull), parse_text (t := t) h, Option.rel_some_some, hx,
        and_iff_right hfalse]
  | .rwMap _ _, _, none, _, _ => iff_of_true .none trivial
  | .rwMap _ _, _, some none, _, _ => iff_of_false (by rintro ⟨⟩) id
  | .rwMap k t, hd, some (some m), w, h => by
    have hsame := Ty.decode_encode (.rwMap k t) hd (some (some m)) w h
    have hnull : Ty.encode (.rwMap k t) (some (some m)) ≠ .null := nofun
    have hread : Ty.updateField (.rwMap k t) (Ty.encode (.rwMap k t) (some (some m))).encode w =
        Ty.decode (.rwMap k t) (Ty.encode (.rwMap k t) (some (some m))) w := by
      rw [Ty.updateField, if_neg (mt (encode_eq_null_text h).1 hnull), parse_text h]
      rfl
    rw [← hread] at hsame
    exact hsame
  | .map k t, _, none, w, _ => by
    have hread : Ty.updateField (.map k t) "null" w = none := by
      rw [Ty.updateField, parse_null]
      rfl
    apply iff_of_true _ trivial
    show Ty.Same (.map k t) (Ty.updateField (.map k t) "null" w) none
    rw [hread]
    exact .none
  | .map k t, hd, some m, w, h => by
    have hsame := Ty.decode_encode (.map k t) hd (some m) none h
    have hread : Ty.updateField (.map k t) (Ty.encode (.map k t) (some m)).encode w =
        Ty.decode (.map k t) (Ty.encode (.map k t) (some m)) none := by
      rw [Ty.updateField, parse_text h]
      exact if_pos (Ty.fits_encode (.map k t) hd (some m) h)
    rw [← hread] at hsame
    apply hsame.trans
    exact and_iff_left (by simp)
  | .slice t, hd, s, w, h => by
    have hread : Ty.updateField (.slice t) (Ty.encode (.slice t) s).encode w =
        Ty.decode (.slice t) (Ty.encode (.slice t) s) w := by
      rw [Ty.updateField, parse_text (t := .slice t) h]
    show Ty.Same (.slice t) (Ty.updateField (.slice t) (Ty.encode (.slice t) s).encode w) s ↔ _
    rw [hread]
    exact Ty.decode_encode (.slice t) hd s w h
  | .struct fs, hd, v, w, h => by
    have hread : Ty.updateField (.struct fs) (Ty.encode (.struct fs) v).encode w =
        Ty.decode (.struct fs) (Ty.encode (.struct fs) v) w := by
      rw [Ty.updateField, parse_text (t := .struct fs) h]
    show Ty.Same (.struct fs) (Ty.updateField (.struct fs) (Ty.encode (.struct fs) v).encode w) v ↔ _
    rw [hread]
    exact Ty.decode_encode (.struct fs) hd v w h

theorem ne_null_of_reads_ptr {t : Ty} {s : String} (h : Ty.reads floats (.ptr t) s = false) :
    s ≠ "null" := by
  rintro rfl
  cases h

theorem ne_null_of_reads_rwMap {k : KeyKind} {t : Ty} {s : String}
    (h : Ty.reads floats (.rwMap k t) s = false) : s ≠ "null" := by
  rintro rfl
  cases h

/-- A merge keeps a field where the text does not decode or says what is there. -/
theorem same_merge_iff {t : Ty} {s : String} {v : t.Val floats} {update : t.Val floats}
    (h : update = match parse s with
      | some j => t.decode j v
      | none => v) :
    t.Same update v ↔ ∀ j, parse s = some j → t.Same (t.decode j v) v := by
  rw [h]
  cases parse s with
  | none => exact iff_of_true (t.same_refl v) nofun
  | some j =>
    constructor
    · rintro hsame j' ⟨⟩
      exact hsame
    · intro hall
      exact hall j rfl

theorem imp_iff_or {b : Bool} {P Q : Prop} (h : b = false → (P ↔ Q)) :
    (b = false → P) ↔ b = true ∨ Q := by
  cases b with
  | true => simp
  | false => simpa using h rfl

/-- A text that is not read changes a field only by what of it fits. -/
theorem keepsUnread_iff : (t : Ty) → (s : String) → (v : t.Val floats) →
    (KeepsUnread t s v ↔ t.reads floats s = true ∨ t.Holds s v)
  | .string, s, v => iff_of_true nofun (.inl rfl)
  | .any, _, _ => iff_of_true nofun (.inl rfl)
  | .bool, s, v => by
    apply iff_of_true _ (.inr trivial)
    intro h
    have hnone : parseBool s = none := by simpa [Ty.reads] using h
    show Ty.updateField .bool s v = v
    rw [Ty.updateField, hnone, Option.getD_none]
  | .int w, s, v => by
    apply iff_of_true _ (.inr trivial)
    intro h
    obtain ⟨hint, hfloat⟩ : atoi s = none ∧ (floats .f64).parse s = none := by
      simpa [Ty.reads] using h
    show Ty.updateField (.int w) s v = v
    rw [Ty.updateField, hint]
    dsimp only
    rw [hfloat]
  | .uint w, s, v => by
    apply iff_of_true _ (.inr trivial)
    intro h
    rw [Ty.reads, Bool.or_eq_false_iff] at h
    have hint : parseUint s = none := by simpa using h.1
    show Ty.updateField (.uint w) s v = v
    rw [Ty.updateField, hint]
    dsimp only
    cases hfloat : (floats .f64).parse s with
    | none => rfl
    | some x =>
      have hnegative : (floats .f64).isNegative x = true := by simpa [hfloat] using h.2
      exact if_pos hnegative
  | .float size, s, v => by
    apply iff_of_true _ (.inr trivial)
    intro h
    have hnone : (floats size).parse s = none := by simpa [Ty.reads] using h
    show Ty.updateField (.float size) s v = v
    rw [Ty.updateField, hnone, Option.getD_none]
  | .map k t, s, v => by
    apply iff_of_true _ (.inr trivial)
    intro h
    have hkeep : Ty.updateField (.map k t) s v = v := by
      rw [Ty.updateField]
      cases hparse : parse s with
      | none => rfl
      | some j =>
        rw [Ty.reads, hparse] at h
        exact if_neg (ne_true_of_eq_false h)
    rw [hkeep]
    exact Ty.same_refl _ v
  | .slice t, s, v => imp_iff_or fun _ => @same_merge_iff _ (.slice t) s v _ rfl
  | .struct fs, s, v => imp_iff_or fun _ => @same_merge_iff _ (.struct fs) s v _ rfl
  | .ptr t, s, v => by
    apply imp_iff_or
    intro h
    have hnull := ne_null_of_reads_ptr h
    cases v with
    | none =>
      rw [Ty.updateField, if_neg hnull]
      apply iff_of_false
      · rintro ⟨⟩
      · rintro ⟨x, hx, -⟩
        cases hx
    | some x =>
      rw [Ty.updateField, if_neg hnull]
      have hmerge := @same_merge_iff _ t s x _ rfl
      apply Option.rel_some_some.trans
      apply hmerge.trans
      constructor
      · intro hall
        exact ⟨x, rfl, hall⟩
      · rintro ⟨_, ⟨⟩, hall⟩
        exact hall
  | .rwMap k t, s, v => by
    apply imp_iff_or
    intro h
    have hnull := ne_null_of_reads_rwMap h
    cases v with
    | none =>
      rw [Ty.updateField, if_neg hnull]
      apply iff_of_false
      · rintro ⟨⟩
      · rintro ⟨x, hx, -⟩
        cases hx
    | some m =>
      have hdecode : Ty.updateField (.rwMap k t) s (some m) = match parse s with
          | some j => Ty.decode (.rwMap k t) j (some m)
          | none => some m := by
        rw [Ty.updateField, if_neg hnull]
        cases hparse : parse s with
        | none => rfl
        | some j =>
          rw [Ty.reads, hparse, Bool.or_eq_false_iff] at h
          have hj : j ≠ .null := by
            rintro rfl
            cases h.2
          exact (Ty.decode_rwMap_of_ne_null k t hj (some m)).symm
      apply (same_merge_iff hdecode).trans
      constructor
      · intro hall
        exact ⟨m, rfl, hall⟩
      · rintro ⟨_, -, hall⟩
        exact hall

section Structs

variable {c : ConfigType}

theorem lookup_foldl_store (v : c.Val floats) {i : c.Index} (hi : (c.field i).exported = true)
    (is : List c.Index) (m : ConfigMap) :
    (is.foldl v.store m).lookup (c.field i).key =
      if i ∈ is then ((c.field i).t.text (v i)).or (m.lookup (c.field i).key)
      else m.lookup (c.field i).key := by
  induction is generalizing m with
  | nil => simp
  | cons j is ih =>
    rw [List.foldl_cons, ih]
    by_cases hj : j = i
    · subst hj
      have hstore : (v.store m j).lookup (c.field j).key =
          ((c.field j).t.text (v j)).or (m.lookup (c.field j).key) := by
        rw [ConfigType.Val.store, if_pos hi]
        cases (c.field j).t.text (v j) with
        | none => rfl
        | some s => exact AList.lookup_insert m
      rw [hstore, if_pos List.mem_cons_self]
      cases (c.field j).t.text (v j) <;> simp
    · have hstore : (v.store m j).lookup (c.field i).key = m.lookup (c.field i).key := by
        rw [ConfigType.Val.store]
        split
        · next hexported =>
          split
          · apply AList.lookup_insert_ne
            intro hkey
            exact hj (c.keys j i hexported hi hkey.symm)
          · rfl
        · rfl
      rw [hstore]
      simp [List.mem_cons, Ne.symm hj]

/-- The text of a field stands under its key. -/
theorem lookup_configToMap {v : c.Val floats} {m : ConfigMap} (h : configToMap v = some m)
    {i : c.Index} (hi : (c.field i).exported = true) :
    m.lookup (c.field i).key = (c.field i).t.text (v i) := by
  rw [configToMap] at h
  split at h
  · obtain rfl := Option.some.inj h
    rw [lookup_foldl_store v hi, if_pos (List.mem_finRange i)]
    cases (c.field i).t.text (v i) <;> rfl
  · cases h

theorem updateConfigFromMap_same_iff {v w : c.Val floats} {m : ConfigMap}
    (h : configToMap v = some m) (i : c.Index) :
    (c.field i).t.Same (updateConfigFromMap w m i) (v i) ↔
      if (c.field i).exported then
        (c.field i).t.marshals (v i) = true ∧ (c.field i).t.Restored (v i) (w i)
      else (c.field i).t.Same (w i) (v i) := by
  rw [updateConfigFromMap]
  split
  · next hi =>
    have hmarshals : (c.field i).t.marshals (v i) = true := by
      rw [configToMap] at h
      split at h
      · next hall => exact hall i hi
      · cases h
    have hfield := (c.field i).t.updateField_text (c.distinct i) (v i) (w i) hmarshals
    rw [lookup_configToMap h hi, and_iff_right hmarshals, ← hfield]
    cases (c.field i).t.text (v i) <;> rfl
  · rfl

theorem reloads_iff (v w : c.Val floats) : Reloads v w ↔ Restorable v w := by
  constructor
  · rintro ⟨m, hm, hsame⟩ i
    exact (updateConfigFromMap_same_iff hm i).1 (hsame i)
  · intro h
    have hmarshals : ∀ i : c.Index, (c.field i).exported = true →
        (c.field i).t.marshals (v i) = true := by
      intro i hi
      have hfield := h i
      rw [if_pos hi] at hfield
      exact hfield.1
    have hm : configToMap v = some ((List.finRange c.fields.length).foldl v.store ∅) :=
      if_pos hmarshals
    exact ⟨_, hm, fun i => (updateConfigFromMap_same_iff hm i).2 (h i)⟩

/-- Saving and loading restore a configuration exactly where every field survives, and a text that
does not decode changes a field only by what of it fits. -/
theorem reload_keeps_iff (v w : c.Val floats) :
    (Reloads v w ↔ Restorable v w) ∧
      ∀ (i : c.Index) (s : String), KeepsUnread (c.field i).t s (w i) ↔
        (c.field i).t.reads floats s = true ∨ (c.field i).t.Holds s (w i) :=
  ⟨reloads_iff v w, fun i s => keepsUnread_iff (c.field i).t s (w i)⟩

end Structs

/-- `ChatCompletionsToResponsesPolicy` -/
def policyFields : Fields :=
  .cons "enabled" false .bool <|
  .cons "all_channels" false .bool <|
  .cons "channel_ids" true (.slice (.int .w64)) <|
  .cons "channel_types" true (.slice (.int .w64)) <|
  .cons "model_patterns" true (.slice .string) .nil

def globalSettings : ConfigType where
  fields :=
    [⟨"PassThroughRequestEnabled", "pass_through_request_enabled", true, .bool⟩,
      ⟨"ThinkingModelBlacklist", "thinking_model_blacklist", true, .slice .string⟩,
      ⟨"ChatCompletionsToResponsesPolicy", "chat_completions_to_responses_policy", true,
        .struct policyFields⟩]
  keys := by decide
  distinct := by
    intro i
    match i with
    | ⟨0, _⟩ => trivial
    | ⟨1, _⟩ => trivial
    | ⟨2, _⟩ =>
      show policyFields.Distinct
      simp [Ty.Distinct, Fields.Distinct, policyFields, Fields.names]

/-- Floats of which only zero is used. -/
def zeroOnly : Floating where
  Val := Unit
  zero := ()
  isZero _ := true
  finite _ := true
  format _ := "0"
  parse s := if s = "0" then some () else none
  literal _ := "0"
  parseLiteral s := if s = "0" then some () else none
  isNegative _ := false
  toInt _ := 0
  parse_format _ := rfl
  parse_literal _ _ := rfl
  isNumber_literal _ _ := by decide

/-- The policy applies to these channels only. -/
def policy (ids : Option (Backing (BitVec 64))) : globalSettings.Val fun _ => zeroOnly
  | ⟨0, _⟩ => false
  | ⟨1, _⟩ => none
  | ⟨2, _⟩ => (true, false, ids, none, none, ())

/-- The channels that a policy was restricted to stay after the restriction is lifted. -/
theorem lifted_restriction_stays : ¬ Reloads (policy none) (policy (some ⟨[7#64], []⟩)) := by
  rw [reloads_iff]
  intro h
  obtain ⟨-, -, hids, -⟩ := (h ⟨2, by decide⟩).2
  cases hids

end CodeGo.Platform.Config
