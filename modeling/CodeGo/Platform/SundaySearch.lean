import CodeGo.Lib.Sunday

/-!
# `SundaySearch`

The text is walked by bytes. The table of shifts is built from the runes of the pattern and read
with bytes of the text.
-/

namespace CodeGo.Platform.SundaySearch

open Lib.Sunday

/-- The bytes of a string. -/
def bytes (cs : List Char) : List UInt8 := cs.flatMap String.utf8EncodeChar

/-- The runes of the pattern with what is left of it from there on, the last rune first. -/
def offsets (m : Nat) : Nat → List Char → List (Nat × Nat)
  | _, [] => []
  | i, c :: cs => offsets m (i + (String.utf8EncodeChar c).length) cs ++ [(c.toNat, m - i)]

/-- `offset[rune(b)]`. -/
def offset (pattern : List Char) (b : UInt8) : Option Nat :=
  (offsets (bytes pattern).length 0 pattern).lookup b.toNat

def sundaySearch (text pattern : String) : Outcome :=
  search (offset pattern.toList) (bytes text.toList) (bytes pattern.toList)

section Bytes

variable {c : Char} {cs ds : List Char}

@[simp] theorem bytes_nil : bytes [] = [] := rfl

@[simp] theorem bytes_cons : bytes (c :: cs) = String.utf8EncodeChar c ++ bytes cs := rfl

@[simp] theorem bytes_append : bytes (cs ++ ds) = bytes cs ++ bytes ds := List.flatMap_append

theorem encode_ascii (h : c.toNat < 128) :
    String.utf8EncodeChar c = [UInt8.ofNat c.toNat] := by
  have hle : c.val.toNat ≤ 0x7f := Nat.le_of_lt_succ h
  rw [String.utf8EncodeChar]
  exact if_pos hle

theorem length_encode_pos (c : Char) : 0 < (String.utf8EncodeChar c).length := by
  rw [String.length_utf8EncodeChar]
  exact c.utf8Size_pos

/-- Another character ends in a byte that begins none. -/
theorem encode_wide (h : 128 ≤ c.toNat) :
    ∃ front b, String.utf8EncodeChar c = front ++ [b] ∧ front ≠ [] ∧ 128 ≤ b.toNat := by
  have hlast : 128 ≤ (UInt8.ofNat (c.val.toNat % 64 + 128)).toNat := by
    rw [UInt8.toNat_ofNat']
    omega
  have hwide : ¬ c.val.toNat ≤ 0x7f := fun hle => absurd (Nat.lt_succ_of_le hle) (Nat.not_lt.2 h)
  unfold String.utf8EncodeChar
  simp only [if_neg hwide]
  split
  · exact ⟨[_], _, rfl, by simp, hlast⟩
  · split
    · exact ⟨[_, _], _, rfl, by simp, hlast⟩
    · exact ⟨[_, _, _], _, rfl, by simp, hlast⟩

theorem bytes_ascii (h : ∀ c ∈ cs, c.toNat < 128) :
    bytes cs = cs.map fun c => UInt8.ofNat c.toNat := by
  induction cs with
  | nil => rfl
  | cons c cs ih =>
    obtain ⟨hc, hcs⟩ := List.forall_mem_cons.1 h
    rw [bytes_cons, encode_ascii hc, ih hcs]
    rfl

end Bytes

section Table

variable {pattern cs : List Char} {m i b v : Nat}

theorem lookup_single : [(m, v)].lookup b = if b = m then some v else none := by
  by_cases hb : b = m
  · rw [if_pos hb, List.lookup_cons, hb, beq_self_eq_true]
  · rw [if_neg hb, List.lookup_cons, beq_eq_false_iff_ne.2 hb]
    rfl

theorem lookup_offsets_eq_none :
    (offsets m i cs).lookup b = none ↔ ∀ d ∈ cs, d.toNat ≠ b := by
  induction cs generalizing i with
  | nil => simp [offsets]
  | cons c cs ih =>
    rw [offsets, List.lookup_append, Option.or_eq_none_iff, ih, lookup_single,
      List.forall_mem_cons, and_comm]
    refine and_congr_left fun _ => ?_
    by_cases hb : b = c.toNat
    · simp [hb]
    · simp [hb, Ne.symm hb]

/-- An entry is the last occurrence of a rune. -/
theorem lookup_offsets (h : (offsets m i cs).lookup b = some v) :
    ∃ before c after, cs = before ++ c :: after ∧ c.toNat = b ∧
      v = m - (i + (bytes before).length) ∧ ∀ d ∈ after, d.toNat ≠ b := by
  induction cs generalizing i with
  | nil => simp [offsets] at h
  | cons c cs ih =>
    rw [offsets, List.lookup_append, Option.or_eq_some_iff, lookup_single] at h
    rcases h with h | ⟨hnone, h⟩
    · obtain ⟨before, d, after, rfl, hd, hv, hafter⟩ := ih h
      refine ⟨c :: before, d, after, rfl, hd, ?_, hafter⟩
      rw [hv, bytes_cons, List.length_append]
      omega
    · obtain ⟨hb, hv⟩ : b = c.toNat ∧ m - i = v := by simpa using h
      refine ⟨[], c, cs, rfl, hb.symm, ?_, lookup_offsets_eq_none.1 hnone⟩
      rw [bytes_nil, List.length_nil, Nat.add_zero, hv]

theorem shifts_offset (pattern : List Char) : Shifts (offset pattern) (bytes pattern) := by
  have hspec : ∀ a v, offset pattern a = some v → 0 < v ∧ v ≤ (bytes pattern).length := by
    intro a v h
    obtain ⟨before, c, after, hpattern, -, rfl, -⟩ := lookup_offsets h
    have hlength : (bytes pattern).length = (bytes before).length +
        ((String.utf8EncodeChar c).length + (bytes after).length) := by
      rw [hpattern, bytes_append, bytes_cons, List.length_append, List.length_append]
    have := length_encode_pos c
    omega
  exact ⟨fun a v h => (hspec a v h).1, fun a v h => Nat.le_succ_of_le (hspec a v h).2⟩

/-- The runes of an ASCII pattern are its bytes, and no shift is too far. -/
theorem sound_offset (h : ∀ c ∈ pattern, c.toNat < 128) : Sound (offset pattern) (bytes pattern) := by
  intro a j hj
  have hbytes := bytes_ascii h
  obtain ⟨c, hc, rfl⟩ : ∃ c, pattern[j]? = some c ∧ UInt8.ofNat c.toNat = a := by
    rw [hbytes, List.getElem?_map, Option.map_eq_some_iff] at hj
    exact hj
  have hcode : (UInt8.ofNat c.toNat).toNat = c.toNat := by
    have := h c (List.mem_of_getElem? hc)
    rw [UInt8.toNat_ofNat']
    omega
  unfold offset
  rw [hcode]
  cases hlookup : (offsets (bytes pattern).length 0 pattern).lookup c.toNat with
  | none => exact absurd rfl (lookup_offsets_eq_none.1 hlookup c (List.mem_of_getElem? hc))
  | some v =>
    obtain ⟨before, d, after, hpattern, -, hv, hafter⟩ := lookup_offsets hlookup
    have hbefore : (bytes before).length = before.length := by
      rw [bytes_ascii fun c hc => h c (by rw [hpattern]; exact List.mem_append_left _ hc),
        List.length_map]
    have hj : j ≤ before.length := by
      by_contra hlate
      -- a later place of the rune would be one after the last
      refine hafter c ?_ rfl
      rw [hpattern, List.getElem?_append_right (by omega)] at hc
      obtain ⟨k, hk⟩ := Nat.exists_eq_succ_of_ne_zero (n := j - before.length) (by omega)
      rw [hk, List.getElem?_cons_succ] at hc
      exact List.mem_of_getElem? hc
    have hlength : (bytes pattern).length = pattern.length := by rw [hbytes, List.length_map]
    have hlt : before.length < pattern.length := by
      rw [hpattern, List.length_append, List.length_cons]
      omega
    exact ⟨v, rfl, by omega⟩

end Table

section Jumps

variable {pattern : List Char}

/-- The last character that is not ASCII. -/
theorem exists_last_wide (h : ¬ ∀ c ∈ pattern, c.toNat < 128) :
    ∃ before c after, pattern = before ++ c :: after ∧ 128 ≤ c.toNat ∧
      ∀ d ∈ after, d.toNat < 128 := by
  induction pattern with
  | nil => exact absurd nofun h
  | cons c cs ih =>
    by_cases hcs : ∀ c ∈ cs, c.toNat < 128
    · refine ⟨[], c, cs, rfl, ?_, hcs⟩
      by_contra hc
      exact h (List.forall_mem_cons.2 ⟨by omega, hcs⟩)
    · obtain ⟨before, d, after, rfl, hd, hafter⟩ := ih hcs
      exact ⟨c :: before, d, after, rfl, hd, hafter⟩

/-- A shift by the last byte of that character jumps over the place the byte has in the pattern. -/
theorem jump_of_wide {before after : List Char} {c : Char} {front : List UInt8} {b : UInt8}
    (hpattern : pattern = before ++ c :: after) (hafter : ∀ d ∈ after, d.toNat < 128)
    (hc : String.utf8EncodeChar c = front ++ [b]) (hfront : front ≠ []) (hb : 128 ≤ b.toNat) :
    (bytes after).length + 1 < (offset pattern b).getD ((bytes pattern).length + 1) := by
  have hpos := List.length_pos_iff.2 hfront
  have hlength : (bytes pattern).length =
      (bytes before).length + (front.length + 1 + (bytes after).length) := by
    rw [hpattern, bytes_append, bytes_cons, hc]
    simp only [List.length_append, List.length_singleton]
  cases hoffset : offset pattern b with
  | none =>
    rw [Option.getD_none]
    omega
  | some v =>
    obtain ⟨before', d, after', hpattern', hd, hv, -⟩ := lookup_offsets hoffset
    rw [Option.getD_some]
    -- that rune is no later than the character, since all after it is ASCII
    have hle : (bytes before').length ≤ (bytes before).length := by
      rw [hpattern] at hpattern'
      rcases List.append_eq_append_iff.1 hpattern' with ⟨middle, rfl, htail⟩ | ⟨middle, rfl, htail⟩
      · cases middle with
        | nil => simp
        | cons x middle =>
          obtain ⟨-, rfl⟩ := List.cons.inj htail
          have := hafter d (by simp)
          omega
      · rw [bytes_append, List.length_append]
        omega
    omega

/-- A text in which the pattern stands where it is jumped over. -/
theorem exists_missed (h : ¬ ∀ c ∈ pattern, c.toNat < 128) :
    ∃ text, search (offset pattern) (bytes text) (bytes pattern) = .found false ∧
      bytes pattern <:+: bytes text := by
  obtain ⟨before, c, after, hpattern, hwide, hafter⟩ := exists_last_wide h
  obtain ⟨front, b, hc, hfront, hb⟩ := encode_wide hwide
  have hjump := jump_of_wide hpattern hafter hc hfront hb
  -- letters that do not begin the pattern stand before it, so that the byte comes after the window
  obtain ⟨y, hy, hfirst⟩ : ∃ y : Char, y.toNat < 128 ∧
      (bytes pattern)[0]? ≠ some (UInt8.ofNat y.toNat) := by
    by_cases ha : (bytes pattern)[0]? = some (UInt8.ofNat 'a'.toNat)
    · refine ⟨'b', by decide, fun hb => ?_⟩
      rw [ha] at hb
      exact absurd hb (by decide)
    · exact ⟨'a', by decide, ha⟩
  have htext : bytes (List.replicate ((bytes after).length + 1) y ++ pattern) =
      List.replicate ((bytes after).length + 1) (UInt8.ofNat y.toNat) ++ bytes pattern := by
    rw [bytes_append, bytes_ascii fun c hc => by rw [List.eq_of_mem_replicate hc]; exact hy,
      List.map_replicate]
  have hbytes : bytes pattern = bytes before ++ (front ++ b :: bytes after) := by
    rw [hpattern, bytes_append, bytes_cons, hc, List.append_assoc]
    rfl
  have hpos := List.length_pos_iff.2 hfront
  refine ⟨List.replicate ((bytes after).length + 1) y ++ pattern, ?_, ?_⟩
  · rw [htext]
    apply search_jump
    · rw [List.length_replicate]
      exact Nat.succ_pos _
    · rw [hbytes]
      simp only [List.length_append, List.length_cons]
      omega
    · rw [List.getElem?_append_left (by simp), List.getElem?_replicate,
        if_pos (Nat.succ_pos _)]
      exact hfirst.symm
    · have hplace : (List.replicate ((bytes after).length + 1) (UInt8.ofNat y.toNat) ++
          bytes pattern)[(bytes pattern).length]? = some b := by
        have hlength : (bytes pattern).length =
            (bytes before).length + (front.length + ((bytes after).length + 1)) := by
          rw [hbytes]
          simp only [List.length_append, List.length_cons]
        rw [List.getElem?_append_right (by rw [List.length_replicate]; omega),
          List.length_replicate, hlength,
          show (bytes before).length + (front.length + ((bytes after).length + 1)) -
            ((bytes after).length + 1) = (bytes before).length + front.length by omega, hbytes,
          List.getElem?_append_right (by omega), Nat.add_sub_cancel_left,
          List.getElem?_append_right (Nat.le_refl _), Nat.sub_self]
        rfl
      exact hplace
    · rw [List.length_replicate]
      exact hjump
  · rw [htext]
    exact (List.suffix_append _ _).isInfix

end Jumps

/-- The search answers whether the pattern is a part of the text. -/
def Correct (text pattern : String) : Prop :=
  ∃ b, sundaySearch text pattern = .found b ∧
    (b = true ↔ bytes pattern.toList <:+: bytes text.toList)

/-- Whatever the two strings are, the search ends inside the text and finds nothing that is not
there. -/
theorem sundaySearch_found (text pattern : String) :
    ∃ b, sundaySearch text pattern = .found b ∧
      (b = true → bytes pattern.toList <:+: bytes text.toList) :=
  search_found (shifts_offset pattern.toList)

/-- A pattern is found in every text that it is a part of exactly when it is ASCII. -/
theorem sundaySearch_correct_iff (pattern : String) :
    (∀ text, Correct text pattern) ↔ ∀ c ∈ pattern.toList, c.toNat < 128 := by
  constructor
  · intro hcorrect
    by_contra hwide
    obtain ⟨text, hmissed, hpart⟩ := exists_missed hwide
    obtain ⟨b, hfound, hiff⟩ := hcorrect (String.ofList text)
    rw [String.toList_ofList] at hiff
    rw [sundaySearch, String.toList_ofList, hiff.2 hpart, hmissed] at hfound
    cases hfound
  · exact fun hascii text => search_iff (shifts_offset _) (sound_offset hascii)

theorem accented_missed : ¬ Correct "xé" "é" := by
  rintro ⟨b, hfound, hiff⟩
  have hmissed : sundaySearch "xé" "é" = .found false := by decide
  have hpart : bytes "é".toList <:+: bytes "xé".toList := ⟨[120], [], by decide⟩
  rw [hmissed, hiff.2 hpart] at hfound
  cases hfound

end CodeGo.Platform.SundaySearch
