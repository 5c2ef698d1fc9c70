import CodeGo.Lib.JsonPath

/-!
# Parameters that override top-level keys

`applyOperationsLegacy` sets every entry of an override map through the path setter. It escapes the
key, which is to be taken as it stands.
-/

namespace CodeGo.Gateway.OverrideLegacy

open Lib (Json)
open Lib.JsonPath

def needsEscape (c : Char) : Bool := c == '.' || c == '*' || c == '?' || c == '\\'

def escapeSjsonLiteralKey (key : String) : String :=
  if key.toList.any needsEscape then String.ofList (escapeWith needsEscape key.toList) else key

abbrev Members := List (String × Json)

/-- `paramOverride` in the order in which it is iterated. -/
structure ParamOverride where
  entries : Members
  distinct : (entries.map (·.1)).Nodup

/-- The setter of the path library: the document, the path and the value. -/
abbrev SetBytes := Json → String → Json → Option Json

def setEntry (setBytes : SetBytes) (result : Json) (entry : String × Json) : Option Json :=
  setBytes result (escapeSjsonLiteralKey entry.1) entry.2

def applyOperationsLegacy (setBytes : SetBytes) (jsonData : Json) (paramOverride : ParamOverride) :
    Option Json :=
  if paramOverride.entries.isEmpty then some jsonData
  else paramOverride.entries.foldlM (setEntry setBytes) jsonData

/-- What a key is bound to once the members are decoded: the last one counts. -/
def bound (members : Members) (key : String) : Option Json := members.reverse.lookup key

def times (members : Members) (key : String) : Nat := (members.map (·.1)).count key

/-- What is documented of the setter at the top of an object. -/
structure SetsMembers (setBytes : SetBytes) : Prop where
  /-- An empty path is an error. -/
  empty : ∀ doc value, setBytes doc "" value = none
  /-- One component sets the member of that name, and no other. -/
  literal : ∀ path c, parse path = .simple [c] → ∀ members value, ∃ members',
    setBytes (.obj members) path value = some (.obj members') ∧
      (∀ key, key ≠ c.part →
        bound members' key = bound members key ∧ times members' key = times members key) ∧
      (times members c.part ≤ 1 → bound members' c.part = some value)
  /-- A path with special characters is rejected or changes what is there. -/
  special : ∀ path, parse path = .special → ∀ members value r,
    setBytes (.obj members) path value = some r → ∃ members', r = .obj members' ∧
      ∀ key, bound members' key ≠ none → bound members key ≠ none

/-- A key that reaches the setter as a component of its own. -/
def Literal (key : String) : Prop :=
  key ≠ "" ∧ key.toList.head? ≠ some ':' ∧ ∀ c ∈ key.toList, c ≠ '|' ∧ c ≠ '#' ∧ c ≠ '@'

/-- A body as it is encoded: an object whose keys differ. -/
structure Body where
  members : Members
  distinct : (members.map (·.1)).Nodup

/-- The override assigns its entries and leaves every other key. -/
def Assigns (setBytes : SetBytes) (body : Body) (paramOverride : ParamOverride) : Prop :=
  ∃ members, applyOperationsLegacy setBytes (.obj body.members) paramOverride =
      some (.obj members) ∧
    ∀ key, bound members key = (paramOverride.entries.lookup key).or (bound body.members key)

theorem separates_needsEscape : Separates needsEscape := ⟨rfl, rfl⟩

theorem toList_escapeSjsonLiteralKey (key : String) :
    (escapeSjsonLiteralKey key).toList = escapeWith needsEscape key.toList := by
  unfold escapeSjsonLiteralKey
  split
  next => rw [String.toList_ofList]
  next hany =>
    refine (escapeWith_eq_self fun c hc => ?_).symm
    simp only [List.any_eq_true, not_exists, not_and, Bool.not_eq_true] at hany
    exact hany c hc

theorem covers_iff {cs : List Char} :
    Covers needsEscape cs ↔ ∀ c ∈ cs, c ≠ '|' ∧ c ≠ '#' ∧ c ≠ '@' := by
  refine forall₂_congr fun c _ => ?_
  simp only [needsEscape, isSpecial, Bool.or_eq_true, beq_iff_eq, Bool.or_eq_false_iff,
    beq_eq_false_iff_ne]
  constructor
  · rintro ((((rfl | rfl) | rfl) | rfl) | h)
    · decide
    · decide
    · decide
    · decide
    · exact ⟨h.1.1.1.1, h.1.1.1.2, h.1.1.2⟩
  · rintro ⟨hbar, hhash, hat⟩
    by_cases hstar : c = '*'
    · exact .inl (.inl (.inl (.inr hstar)))
    by_cases hquestion : c = '?'
    · exact .inl (.inl (.inr hquestion))
    · exact .inr ⟨⟨⟨⟨hbar, hhash⟩, hat⟩, hstar⟩, hquestion⟩

theorem escape_ne_empty {key : String} (h : key ≠ "") : escapeSjsonLiteralKey key ≠ "" := by
  intro hempty
  have hlist := toList_escapeSjsonLiteralKey key
  rw [hempty] at hlist
  cases hkey : key.toList with
  | nil => exact h (String.toList_eq_nil_iff.1 hkey)
  | cons c cs =>
    rw [hkey, escapeWith_cons] at hlist
    cases hc : needsEscape c <;> simp [hc] at hlist

theorem parse_literal {key : String} (h : Literal key) :
    parse (escapeSjsonLiteralKey key) = .simple [⟨key, false⟩] := by
  obtain ⟨hne, hcolon, hcovers⟩ := h
  rw [parse, if_neg (escape_ne_empty hne), toList_escapeSjsonLiteralKey,
    readPieces_escapeWith separates_needsEscape (covers_iff.2 hcovers) fun _ => hcolon]
  simp [component]

/-- A leading colon is taken off. -/
theorem parse_forced {key : String} {rest : List Char} (hkey : key.toList = ':' :: rest)
    (h : Covers needsEscape rest) :
    parse (escapeSjsonLiteralKey key) = .simple [⟨String.ofList rest, true⟩] := by
  have hne : key ≠ "" := by
    rintro rfl
    cases hkey
  have hrest : readPieces false (escapeWith needsEscape rest) = some [⟨rest, false⟩] :=
    readPieces_escapeWith separates_needsEscape h nofun
  rw [parse, if_neg (escape_ne_empty hne), toList_escapeSjsonLiteralKey, hkey,
    readPieces_colon rfl, hrest]
  rfl

theorem parse_special {key : String} (hne : key ≠ "") (h : ¬ Covers needsEscape key.toList) :
    parse (escapeSjsonLiteralKey key) = .special := by
  rw [parse, if_neg (escape_ne_empty hne), toList_escapeSjsonLiteralKey,
    readPieces_special separates_needsEscape rfl h]

section Loop

variable {setBytes : SetBytes} {entries members members' : Members} {r : Json} {key k : String}
  {value : Json}

/-- The key that an entry reaches, when it reaches one. -/
def Reaches (key k : String) : Prop := (Literal key ∧ k = key) ∨ key = ":" ++ k

theorem setEntry_literal (hset : SetsMembers setBytes) (hkey : Literal key) (members : Members)
    (value : Json) :
    ∃ members', setEntry setBytes (.obj members) (key, value) = some (.obj members') ∧
      (∀ k, k ≠ key → bound members' k = bound members k ∧ times members' k = times members k) ∧
      (times members key ≤ 1 → bound members' key = some value) :=
  hset.literal _ _ (parse_literal hkey) members value

/-- Only the key that an entry reaches may become bound. -/
theorem setEntry_bound (hset : SetsMembers setBytes)
    (h : setEntry setBytes (.obj members) (key, value) = some r) :
    key ≠ "" ∧ ∃ members', r = .obj members' ∧
      ∀ k, bound members' k ≠ none → bound members k ≠ none ∨ Reaches key k := by
  have hne : key ≠ "" := by
    rintro rfl
    exact absurd ((hset.empty (.obj members) value).symm.trans h) (by simp)
  refine ⟨hne, ?_⟩
  by_cases hcovers : Covers needsEscape key.toList
  · by_cases hcolon : key.toList.head? = some ':'
    · obtain ⟨rest, hrest⟩ : ∃ rest, key.toList = ':' :: rest := by
        cases hlist : key.toList with
        | nil => simp [hlist] at hcolon
        | cons c rest =>
          rw [hlist] at hcolon
          obtain rfl := Option.some.inj hcolon
          exact ⟨rest, rfl⟩
      have hcoversRest : Covers needsEscape rest := by
        rw [hrest] at hcovers
        exact (List.forall_mem_cons.1 hcovers).2
      obtain ⟨members', hset', hothers, -⟩ :=
        hset.literal _ _ (parse_forced hrest hcoversRest) members value
      obtain rfl := Option.some.inj (hset'.symm.trans h)
      refine ⟨members', rfl, fun k hk => ?_⟩
      by_cases hkey : k = String.ofList rest
      · right
        right
        rw [← String.toList_inj, hrest, hkey, String.toList_append, String.toList_ofList,
          String.toList_ofList, List.singleton_append]
      · exact .inl ((hothers k hkey).1 ▸ hk)
    · have hliteral : Literal key := ⟨hne, hcolon, covers_iff.1 hcovers⟩
      obtain ⟨members', hset', hothers, -⟩ := setEntry_literal hset hliteral members value
      obtain rfl := Option.some.inj (hset'.symm.trans h)
      refine ⟨members', rfl, fun k hk => ?_⟩
      by_cases hkey : k = key
      · exact .inr (.inl ⟨hliteral, hkey⟩)
      · exact .inl ((hothers k hkey).1 ▸ hk)
  · obtain ⟨members', rfl, hmembers⟩ :=
      hset.special _ (parse_special hne hcovers) members value r h
    exact ⟨members', rfl, fun k hk => .inl (hmembers k hk)⟩

/-- Literal keys are all assigned, whatever their order. -/
theorem foldlM_literal (hset : SetsMembers setBytes) (hdistinct : (entries.map (·.1)).Nodup)
    (hliteral : ∀ e ∈ entries, Literal e.1) (htimes : ∀ e ∈ entries, times members e.1 ≤ 1) :
    ∃ members', entries.foldlM (setEntry setBytes) (.obj members) = some (.obj members') ∧
      ∀ k, bound members' k = (entries.lookup k).or (bound members k) := by
  induction entries generalizing members with
  | nil => exact ⟨members, rfl, fun k => rfl⟩
  | cons e entries ih =>
    obtain ⟨key, value⟩ := e
    rw [List.map_cons, List.nodup_cons] at hdistinct
    obtain ⟨hfresh, hdistinct⟩ := hdistinct
    obtain ⟨hkey, hliteral⟩ := List.forall_mem_cons.1 hliteral
    obtain ⟨honce, htimes⟩ := List.forall_mem_cons.1 htimes
    obtain ⟨members₁, hset₁, hothers, hown⟩ :=
      setEntry_literal hset hkey members value
    have hne : ∀ e ∈ entries, e.1 ≠ key := fun e he heq =>
      hfresh (List.mem_map.2 ⟨e, he, heq⟩)
    obtain ⟨members', hfold, hbound⟩ := @ih members₁ hdistinct hliteral fun e he => by
      rw [(hothers e.1 (hne e he)).2]
      exact htimes e he
    refine ⟨members', by rw [List.foldlM_cons, hset₁]; exact hfold, fun k => ?_⟩
    rw [hbound, List.lookup_cons]
    by_cases hk : k = key
    · subst hk
      have hnone : entries.lookup k = none := List.lookup_eq_none_iff.2 fun e he => by
        simpa using (hne e he).symm
      rw [hnone, hown honce, beq_self_eq_true]
      rfl
    · rw [(hothers k hk).1, beq_eq_false_iff_ne.2 hk]

/-- After the loop only what an entry reaches is bound. -/
theorem foldlM_bound (hset : SetsMembers setBytes)
    (h : entries.foldlM (setEntry setBytes) (.obj members) = some r) :
    (∀ e ∈ entries, e.1 ≠ "") ∧ ∃ members', r = .obj members' ∧
      ∀ k, bound members' k ≠ none → bound members k ≠ none ∨ ∃ e ∈ entries, Reaches e.1 k := by
  induction entries generalizing members with
  | nil =>
    obtain rfl := Option.some.inj h
    exact ⟨nofun, members, rfl, fun k hk => .inl hk⟩
  | cons e entries ih =>
    rw [List.foldlM_cons] at h
    obtain ⟨middle, hmiddle, hrest⟩ := Option.bind_eq_some_iff.1 h
    obtain ⟨hne, members₁, rfl, hstep⟩ := setEntry_bound hset hmiddle
    obtain ⟨hnes, members', rfl, hbound⟩ := ih hrest
    refine ⟨List.forall_mem_cons.2 ⟨hne, hnes⟩, members', rfl, fun k hk => ?_⟩
    rcases hbound k hk with hk | ⟨e', he', hreaches⟩
    · rcases hstep k hk with hk | hreaches
      · exact .inl hk
      · exact .inr ⟨e, List.mem_cons_self, hreaches⟩
    · exact .inr ⟨e', List.mem_cons_of_mem _ he', hreaches⟩

theorem exists_length_bound (entries : Members) : ∃ n, ∀ e ∈ entries, e.1.length ≤ n := by
  induction entries with
  | nil => exact ⟨0, nofun⟩
  | cons e entries ih =>
    obtain ⟨n, hn⟩ := ih
    refine ⟨max e.1.length n, List.forall_mem_cons.2 ⟨Nat.le_max_left _ _, fun e' he' => ?_⟩⟩
    exact (hn e' he').trans (Nat.le_max_right _ _)

/-- Where every key is reached by some key, all of them are literal: the longest of the others
could only be reached by a longer one. -/
theorem literal_of_reached (h : ∀ e ∈ entries, ∃ e' ∈ entries, Reaches e'.1 e.1) :
    ∀ e ∈ entries, Literal e.1 := by
  obtain ⟨bound, hbound⟩ := exists_length_bound entries
  have hall : ∀ n, ∀ e ∈ entries, bound < e.1.length + n → Literal e.1 := by
    intro n
    induction n with
    | zero =>
      intro e he hlt
      have := hbound e he
      omega
    | succ n ih =>
      intro e he hlt
      obtain ⟨e', he', hreaches⟩ := h e he
      rcases hreaches with ⟨hliteral, heq⟩ | hforced
      · exact heq ▸ hliteral
      · have hlength : e'.1.length = e.1.length + 1 := by
          rw [hforced, String.length_append, Nat.add_comm]
          rfl
        obtain ⟨-, hcolon, -⟩ := ih e' he' (by omega)
        rw [hforced, String.toList_append] at hcolon
        exact absurd rfl hcolon
  exact fun e he => hall (bound + 1) e he (by omega)

end Loop

section Assignment

variable {setBytes : SetBytes}

theorem applyOperationsLegacy_eq (setBytes : SetBytes) (jsonData : Json)
    (paramOverride : ParamOverride) :
    applyOperationsLegacy setBytes jsonData paramOverride =
      paramOverride.entries.foldlM (setEntry setBytes) jsonData := by
  unfold applyOperationsLegacy
  split
  next h =>
    rw [List.isEmpty_iff.1 h]
    rfl
  next => rfl

/-- In whatever order the entries come, every body is assigned them exactly when every key reaches
the setter as a component of its own. -/
theorem legacy_assigns_iff (hset : SetsMembers setBytes) (paramOverride : ParamOverride) :
    (∀ body, Assigns setBytes body paramOverride) ↔
      ∀ entry ∈ paramOverride.entries, Literal entry.1 := by
  unfold Assigns
  simp only [applyOperationsLegacy_eq]
  constructor
  · intro h
    obtain ⟨members, hfold, hbound⟩ := h ⟨[], List.nodup_nil⟩
    obtain ⟨-, members', heq, hreached⟩ := foldlM_bound hset hfold
    obtain rfl := Json.obj.inj heq
    refine literal_of_reached fun e he => ?_
    have hsome : paramOverride.entries.lookup e.1 ≠ none := by
      rw [Ne, List.lookup_eq_none_iff]
      intro hnone
      simpa using hnone e he
    have hne : bound members e.1 ≠ none := by
      rw [hbound]
      cases hlookup : paramOverride.entries.lookup e.1 with
      | none => exact absurd hlookup hsome
      | some value => simp
    exact (hreached e.1 hne).resolve_left fun h => h rfl
  · intro hliteral body
    refine foldlM_literal hset paramOverride.distinct hliteral fun e _ => ?_
    exact List.nodup_iff_count_le_one.1 body.distinct e.1

end Assignment

section Reference

variable {members : Members} {key k : String} {value : Json}

@[simp] theorem bound_nil : bound [] k = none := rfl

theorem bound_cons (m : String × Json) :
    bound (m :: members) k = (bound members k).or (if k = m.1 then some m.2 else none) := by
  have hown : [m].lookup k = if k = m.1 then some m.2 else none := by
    by_cases hk : k = m.1
    · rw [if_pos hk, List.lookup_cons, hk, beq_self_eq_true]
    · rw [if_neg hk, List.lookup_cons, beq_eq_false_iff_ne.2 hk]
      rfl
  rw [bound, List.reverse_cons, List.lookup_append, hown]
  rfl

theorem times_cons (m : String × Json) :
    times (m :: members) k = times members k + if m.1 = k then 1 else 0 := by
  simp [times, List.count_cons]

theorem bound_eq_none (h : times members k = 0) : bound members k = none := by
  induction members with
  | nil => rfl
  | cons m members ih =>
    rw [times_cons] at h
    have hne : ¬ k = m.1 := by
      rintro rfl
      simp at h
    rw [bound_cons, ih (by omega), if_neg hne]
    rfl

theorem putMember_other (hk : k ≠ key) :
    bound (putMember key value members) k = bound members k ∧
      times (putMember key value members) k = times members k := by
  induction members with
  | nil => simp [putMember, bound_cons, times_cons, hk, Ne.symm hk]
  | cons m members ih =>
    unfold putMember
    by_cases hm : m.1 = key
    · rw [if_pos hm, bound_cons, bound_cons, times_cons, times_cons, hm]
      simp [hk, Ne.symm hk]
    · rw [if_neg hm, bound_cons, bound_cons, times_cons, times_cons, ih.1, ih.2]
      exact ⟨rfl, rfl⟩

theorem putMember_own (h : times members key ≤ 1) :
    bound (putMember key value members) key = some value := by
  induction members with
  | nil => simp [putMember, bound_cons]
  | cons m members ih =>
    rw [times_cons] at h
    unfold putMember
    by_cases hm : m.1 = key
    · rw [if_pos hm] at h ⊢
      rw [bound_cons, bound_eq_none (by omega), if_pos rfl]
      rfl
    · rw [if_neg hm] at h ⊢
      rw [bound_cons, ih (by omega)]
      rfl

theorem setsMembers_setPath : SetsMembers setPath where
  empty := fun _ _ => rfl
  literal := by
    intro path c hpath members value
    refine ⟨putMember c.part value members, ?_, fun k hk => putMember_other hk, putMember_own⟩
    rw [setPath, hpath]
    rfl
  special := by
    intro path hpath members value r h
    rw [setPath, hpath] at h
    obtain rfl := Option.some.inj h
    exact ⟨members, rfl, fun _ hk => hk⟩

/-- The keys of two model settings. -/
def modelOverride : ParamOverride where
  entries := [("temperature", .num "0"), ("metadata.trace", .str "on")]
  distinct := by decide

theorem model_override_assigns :
    (∀ body, Assigns setPath body modelOverride) ↔
      ∀ entry ∈ modelOverride.entries, Literal entry.1 :=
  legacy_assigns_iff setsMembers_setPath modelOverride

/-- A key that begins with a colon. -/
def colonOverride : ParamOverride where
  entries := [(":online", .bool true)]
  distinct := by decide

theorem colon_key_reaches_another :
    ¬ ∀ (body : Body) (paramOverride : ParamOverride), Assigns setPath body paramOverride := by
  intro h
  obtain ⟨members, happly, hbound⟩ := h ⟨[], List.nodup_nil⟩ colonOverride
  have hparse : parse (escapeSjsonLiteralKey ":online") = .simple [⟨"online", true⟩] := by
    decide +kernel
  have hentry : setEntry setPath (.obj []) (":online", .bool true) =
      some (.obj [("online", .bool true)]) := by
    rw [setEntry, setPath, hparse]
    rfl
  have hother : applyOperationsLegacy setPath (.obj []) colonOverride =
      some (.obj [("online", .bool true)]) := by
    rw [applyOperationsLegacy_eq, colonOverride, List.foldlM_cons, hentry]
    rfl
  obtain rfl := Json.obj.inj (Option.some.inj (hother.symm.trans happly))
  have := hbound ":online"
  simp [bound_cons, colonOverride] at this

end Reference

end CodeGo.Gateway.OverrideLegacy
