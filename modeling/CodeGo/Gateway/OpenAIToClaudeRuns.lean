import CodeGo.Gateway.OpenAIToClaude
import CodeGo.Lib.Runs

/-!
# The messages that are joined

The first loop makes one message of every run of messages that are joined. Its text holds their
texts one after another unless a quote at either end of the joined text is trimmed off.
-/

namespace CodeGo.Gateway.OpenAIToClaude

open Lib (Json)
open Lib.Runs
open Lib.Trim (trimList trimList_eq_self_iff)

section Loop

/-- A content that is a text once it is filled in. -/
def textual : Json → Bool
  | .str _ => true
  | .null => true
  | _ => false

/-- The second message is joined to the first. -/
def merges (a b : Message) : Bool :=
  a.role == b.role && a.role != "tool" && textual a.content && isStringContent b.content

def start (m : Message) : FormatMessage := fillContent (fmtMessage m)

def extend (f : FormatMessage) (m : Message) : FormatMessage := fillContent (joined f m)

/-- The last formatted message stands for the last message that was read. -/
structure Stands (f : FormatMessage) (m : Message) : Prop where
  role : f.role = m.role
  textual : isStringContent f.content = textual m.content

variable {f : FormatMessage} {m a b : Message}

@[simp] theorem fillContent_role : (fillContent f).role = f.role := by
  unfold fillContent
  split
  · rfl
  · split <;> rfl
  · rfl

@[simp] theorem fillContent_toolCalls : (fillContent f).toolCalls = f.toolCalls := by
  unfold fillContent
  split
  · rfl
  · split <;> rfl
  · rfl

@[simp] theorem fillContent_toolCallId : (fillContent f).toolCallId = f.toolCallId := by
  unfold fillContent
  split
  · rfl
  · split <;> rfl
  · rfl

theorem isStringContent_fillContent :
    isStringContent (fillContent f).content = textual f.content := by
  unfold fillContent
  cases hf : f.content with
  | str s => by_cases hs : s = "" <;> simp [hs, hf, isStringContent, textual]
  | null => rfl
  | bool b => simp [hf, isStringContent, textual]
  | num t => simp [hf, isStringContent, textual]
  | arr items => simp [hf, isStringContent, textual]
  | obj members => simp [hf, isStringContent, textual]

theorem stands_start (m : Message) : Stands (start m) m :=
  ⟨fillContent_role, isStringContent_fillContent⟩

theorem joins_eq (h : Stands f a) : joins f b = merges a b := by
  rw [joins, merges, h.role, h.textual]

theorem stands_extend (h : merges a b = true) : Stands (extend f b) b := by
  refine ⟨fillContent_role, ?_⟩
  rw [extend, isStringContent_fillContent]
  simp only [merges, Bool.and_eq_true] at h
  have htext : textual b.content = true := by
    cases hb : b.content <;> simp_all [isStringContent, textual]
  rw [htext]
  rfl

theorem foldl_formatStep (out : List FormatMessage) (h : Stands f a) (messages : List Message) :
    (messages.foldl formatStep ⟨out ++ [f], f⟩).messages =
      out ++ collect merges start extend f a messages := by
  induction messages generalizing out f a with
  | nil => rfl
  | cons b messages ih =>
    rw [List.foldl_cons, formatStep, collect, joins_eq h]
    cases hmerges : merges a b with
    | true =>
      rw [if_pos rfl, if_pos rfl, List.dropLast_concat]
      exact ih out (stands_extend hmerges)
    | false =>
      rw [if_neg (by simp), if_neg (by simp)]
      refine (ih (out ++ [f]) (stands_start b)).trans ?_
      rw [List.append_assoc]
      rfl

/-- The first loop makes one message of each run. -/
theorem formatMessages_eq (messages : List Message) :
    formatMessages messages = (runs merges messages).filterMap (entry start extend) := by
  cases messages with
  | nil => rfl
  | cons a messages =>
    have hfirst : formatStep {} a = ⟨[] ++ [start a], start a⟩ := by
      have hjoins : joins (⟨"tool", .null, none, ""⟩ : FormatMessage) a = false := by
        simp [joins]
      rw [formatStep, hjoins, if_neg (by simp)]
      rfl
    rw [formatMessages, List.foldl_cons, hfirst, foldl_formatStep [] (stands_start a),
      List.nil_append, collect_eq, runs]
    rfl

end Loop

section Texts

/-- The text holds the texts one after another. -/
inductive Concatenates : List String → String → Prop where
  | nil (s : String) : Concatenates [] s
  | cons (before t s : String) (rest : List String) :
    Concatenates rest s → Concatenates (t :: rest) (before ++ t ++ s)

/-- Each text stands in one of the written ones, in their order. -/
def Carried (read written : List String) : Prop :=
  ∃ runs, runs.flatten = read ∧ List.Forall₂ Concatenates runs written

variable {ts us ts' us' : List String} {s p c : String}

theorem Concatenates.append (h : Concatenates ts s) (c : String) : Concatenates ts (s ++ c) := by
  induction h with
  | nil s => exact .nil _
  | cons before t s rest _ ih =>
    rw [String.append_assoc]
    exact .cons before t (s ++ c) rest ih

/-- A text may follow after a separator. -/
theorem Concatenates.concat (h : Concatenates ts s) (sep c : String) :
    Concatenates (ts ++ [c]) (s ++ sep ++ c) := by
  induction h with
  | nil s =>
    have := Concatenates.cons (s ++ sep) c "" [] (.nil _)
    rwa [String.append_empty] at this
  | cons before t s rest _ ih =>
    have := Concatenates.cons before t (s ++ sep ++ c) (rest ++ [c]) ih
    rwa [← String.append_assoc, ← String.append_assoc] at this

theorem concatenates_singleton (s : String) : Concatenates [s] s := by
  have := Concatenates.concat (.nil "") "" s
  rwa [String.empty_append, String.empty_append] at this

theorem Carried.append (h : Carried ts us) (h' : Carried ts' us') :
    Carried (ts ++ ts') (us ++ us') := by
  obtain ⟨runs, rfl, hall⟩ := h
  obtain ⟨runs', rfl, hall'⟩ := h'
  exact ⟨runs ++ runs', List.flatten_append, List.rel_append hall hall'⟩

theorem Concatenates.before (h : Concatenates ts s) (b : String) : Concatenates ts (b ++ s) := by
  cases h with
  | nil s => exact .nil _
  | cons before t s rest h =>
    rw [← String.append_assoc, ← String.append_assoc]
    exact .cons (b ++ before) t s rest h

theorem Concatenates.join (h : Concatenates ts s) (h' : Concatenates ts' p) :
    Concatenates (ts ++ ts') (s ++ p) := by
  induction h with
  | nil s => exact h'.before s
  | cons before t s rest _ ih =>
    rw [String.append_assoc]
    exact .cons before t (s ++ p) (rest ++ ts') ih

/-- What stands in texts that stand in another one. -/
theorem Concatenates.trans {groups : List (List String)}
    (h : List.Forall₂ Concatenates groups us) (hs : Concatenates us s) :
    Concatenates groups.flatten s := by
  induction hs generalizing groups with
  | nil s =>
    obtain rfl := List.forall₂_nil_right_iff.1 h
    exact .nil s
  | cons before t s rest _ ih =>
    obtain ⟨group, groups', hgroup, hgroups, rfl⟩ := List.forall₂_cons_right_iff.1 h
    rw [List.flatten_cons, String.append_assoc]
    exact (hgroup.join (ih hgroups)).before before

theorem Carried.trans (h : Carried ts us) (h' : Carried us us') : Carried ts us' := by
  obtain ⟨groups', rfl, hall'⟩ := h'
  induction hall' generalizing ts with
  | nil => exact h
  | @cons group u groups' us' hgroup _ ih =>
    obtain ⟨groups, rfl, hall⟩ := h
    rw [List.flatten_cons] at hall
    have hhead := List.forall₂_take_append groups group groups'.flatten hall
    have htail := List.forall₂_drop_append groups group groups'.flatten hall
    have hfirst : Carried (groups.take group.length).flatten [u] :=
      ⟨[_], List.flatten_singleton, .cons (Concatenates.trans hhead hgroup) .nil⟩
    have := hfirst.append (ih ⟨_, rfl, htail⟩)
    rwa [← List.flatten_append, List.take_append_drop] at this

theorem carried_self (ts : List String) : Carried ts ts := by
  refine ⟨ts.map fun t => [t], ?_, ?_⟩
  · rw [← List.flatMap_def]
    exact List.flatMap_singleton' ts
  · rw [List.forall₂_map_left_iff, List.forall₂_same]
    exact fun t _ => concatenates_singleton t

theorem carried_nil (us : List String) : Carried [] us := by
  refine ⟨us.map fun _ => [], ?_, ?_⟩
  · rw [List.flatten_eq_nil_iff]
    exact fun l hl => by
      obtain ⟨u, -, rfl⟩ := List.mem_map.1 hl
      rfl
  · rw [List.forall₂_map_left_iff, List.forall₂_same]
    exact fun u _ => .nil u

/-- The quotes in some texts. -/
def quotes (ts : List String) : Nat := (ts.map fun t => t.toList.count '"').sum

@[simp] theorem quotes_nil : quotes [] = 0 := rfl

@[simp] theorem quotes_cons (t : String) (ts : List String) :
    quotes (t :: ts) = t.toList.count '"' + quotes ts := rfl

@[simp] theorem quotes_append (ts us : List String) : quotes (ts ++ us) = quotes ts + quotes us := by
  rw [quotes, List.map_append, List.sum_append]
  rfl

theorem Concatenates.quotes_le (h : Concatenates ts s) : quotes ts ≤ s.toList.count '"' := by
  induction h with
  | nil s => exact Nat.zero_le _
  | cons before t s rest _ ih =>
    rw [quotes_cons, String.toList_append, String.toList_append, List.count_append,
      List.count_append]
    omega

/-- Texts that are carried lose no quotes. -/
theorem Carried.quotes_le (h : Carried ts us) : quotes ts ≤ quotes us := by
  obtain ⟨runs, rfl, hall⟩ := h
  induction hall with
  | nil => exact Nat.le_refl _
  | cons hrun _ ih =>
    rw [List.flatten_cons, quotes_append, quotes_cons]
    have := hrun.quotes_le
    omega

end Texts

section Trimming

variable {α : Type} {p : α → Bool} {xs : List α} {x : α}

theorem filter_dropWhile (p : α → Bool) (xs : List α) :
    (xs.dropWhile p).filter (fun x => !p x) = xs.filter fun x => !p x := by
  have hnone : (xs.takeWhile p).filter (fun x => !p x) = [] := by
    rw [List.filter_eq_nil_iff]
    intro x hx
    simp [List.mem_takeWhile_imp hx]
  conv_rhs => rw [← List.takeWhile_append_dropWhile (p := p) (l := xs)]
  rw [List.filter_append, hnone, List.nil_append]

/-- A trim keeps what is not to be trimmed. -/
theorem filter_trimList (p : α → Bool) (xs : List α) :
    (trimList p xs).filter (fun x => !p x) = xs.filter fun x => !p x := by
  rw [trimList, List.rdropWhile, List.filter_reverse, filter_dropWhile, List.filter_reverse,
    List.reverse_reverse, filter_dropWhile]

/-- A trim is the text itself, or it takes quotes away. -/
theorem trimQuotes_cases (s : String) :
    trimQuotes s = s ∨ (trimQuotes s).toList.count '"' < s.toList.count '"' := by
  have hkept := congrArg List.length (filter_trimList (· == '"') s.toList)
  rw [← List.countP_eq_length_filter, ← List.countP_eq_length_filter] at hkept
  have htrim := List.length_eq_countP_add_countP (· == '"') (l := trimList (· == '"') s.toList)
  have hwhole := List.length_eq_countP_add_countP (· == '"') (l := s.toList)
  have hsub : (trimList (· == '"') s.toList).Sublist s.toList :=
    (List.rdropWhile_prefix _ _).sublist.trans (List.dropWhile_sublist _)
  unfold trimQuotes
  rw [String.toList_ofList]
  by_cases hsame : trimList (· == '"') s.toList = s.toList
  · exact .inl (by rw [hsame, String.ofList_toList])
  · right
    have hlt : (trimList (· == '"') s.toList).length < s.toList.length := by
      refine Nat.lt_of_le_of_ne hsub.length_le fun heq => hsame (hsub.eq_of_length heq)
    simp only [List.count] at *
    simp only [Bool.not_eq_true, ← Bool.not_eq_true', Bool.decide_eq_true] at htrim hwhole
    omega

theorem trimQuotes_ne_empty (p c : String) : trimQuotes (p ++ " " ++ c) ≠ "" := by
  intro hempty
  have hlist : trimList (· == '"') (p ++ " " ++ c).toList = [] := by
    have := congrArg String.toList hempty
    rwa [trimQuotes, String.toList_ofList] at this
  have hfilter := filter_trimList (· == '"') (p ++ " " ++ c).toList
  rw [hlist, List.filter_nil] at hfilter
  have hspace : ' ' ∈ (p ++ " " ++ c).toList.filter (fun x => !(x == '"')) :=
    List.mem_filter.2 ⟨by simp [String.toList_append], by decide⟩
  rw [← hfilter] at hspace
  cases hspace

theorem head_join (p c : String) :
    (p ++ " " ++ c).toList.head? = some (p.toList.head?.getD ' ') := by
  rw [String.toList_append, String.toList_append]
  cases p.toList <;> rfl

theorem head_join_ne {p c : String} (h : p.toList.head? ≠ some '"') :
    (p ++ " " ++ c).toList.head? ≠ some '"' := by
  rw [head_join]
  cases hp : p.toList.head? with
  | none => simp
  | some x =>
    rw [hp] at h
    simpa using h

/-- A quote is trimmed off only where the first text begins with one or the second ends with one. -/
theorem trimQuotes_eq_self_iff (p c : String) :
    trimQuotes (p ++ " " ++ c) = p ++ " " ++ c ↔
      p.toList.head? ≠ some '"' ∧ c.toList.getLast? ≠ some '"' := by
  have hself : trimQuotes (p ++ " " ++ c) = p ++ " " ++ c ↔
      trimList (· == '"') (p ++ " " ++ c).toList = (p ++ " " ++ c).toList := by
    rw [trimQuotes, ← String.toList_inj, String.toList_ofList]
  have hlast : (p ++ " " ++ c).toList.getLast? = some (c.toList.getLast?.getD ' ') := by
    rw [String.toList_append, String.toList_append, List.getLast?_append]
    cases hc : c.toList.getLast? with
    | some x => rfl
    | none =>
      rw [List.getLast?_append]
      rfl
  rw [hself, trimList_eq_self_iff, head_join, hlast]
  simp only [Option.some.injEq, forall_eq', beq_eq_false_iff_ne]
  apply and_congr
  · cases p.toList.head? <;> simp
  · cases c.toList.getLast? <;> simp

end Trimming

section Entries

/-- The calls of a message, which only one of the assistant has. -/
def calls (m : Message) : List ToolCall :=
  if m.role = "assistant" then parseToolCalls m.toolCalls else []

def beginsQuoted (m : Message) : Prop := (stringContent m.content).toList.head? = some '"'

def endsQuoted (m : Message) : Prop := (stringContent m.content).toList.getLast? = some '"'

/-- Where messages are joined the first does not begin with a quote and no other ends with one. -/
def Unquoted : List Message → Prop
  | [] => True
  | a :: rest => (rest ≠ [] → ¬ beginsQuoted a) ∧ ∀ m ∈ rest, ¬ endsQuoted m

/-- What a run becomes. -/
def runMessage (a : Message) (rest : List Message) : FormatMessage := rest.foldl extend (start a)

def firstText (m : Message) : String :=
  if stringContent m.content = "" then "..." else stringContent m.content

def joinText (p : String) (m : Message) : String := trimQuotes (p ++ " " ++ stringContent m.content)

variable {a m : Message} {rest : List Message} {f : FormatMessage} {p : String} {ts : List String}

theorem merges_iff {a b : Message} :
    merges a b = true ↔ a.role = b.role ∧ a.role ≠ "tool" ∧ textual a.content = true ∧
      isStringContent b.content = true := by
  simp [merges, and_assoc]

/-- What a run is made of. -/
theorem run_spec (h : (a :: rest).IsChain fun a b => merges a b = true) :
    (∀ m ∈ rest, m.role = a.role ∧ isStringContent m.content = true) ∧
      (rest ≠ [] → a.role ≠ "tool" ∧ textual a.content = true) := by
  induction rest generalizing a with
  | nil => exact ⟨nofun, fun hne => absurd rfl hne⟩
  | cons b rest ih =>
    rw [List.isChain_cons_cons] at h
    obtain ⟨hmerges, hrest⟩ := h
    obtain ⟨hrole, htool, htextual, hstring⟩ := merges_iff.1 hmerges
    refine ⟨List.forall_mem_cons.2 ⟨⟨hrole.symm, hstring⟩, fun m hm => ?_⟩, fun _ => ⟨htool, htextual⟩⟩
    have := (ih hrest).1 m hm
    exact ⟨this.1.trans hrole.symm, this.2⟩

theorem runMessage_role (h : ∀ m ∈ rest, m.role = a.role) : (runMessage a rest).role = a.role := by
  have hfold : ∀ (rest : List Message) (f : FormatMessage), f.role = a.role →
      (∀ m ∈ rest, m.role = a.role) → (rest.foldl extend f).role = a.role := by
    intro rest
    induction rest with
    | nil => exact fun f hf _ => hf
    | cons b rest ih =>
      intro f _ hrest
      obtain ⟨hb, hrest⟩ := List.forall_mem_cons.1 hrest
      refine ih (extend f b) ?_ hrest
      rw [extend, fillContent_role]
      exact hb
  exact hfold rest (start a) fillContent_role h

theorem toolCalls_fmtMessage (m : Message) :
    parseToolCalls (fmtMessage m).toolCalls = calls m := by
  rw [fmtMessage, calls]
  split <;> rfl

/-- The calls of a run are those of its last message. -/
theorem runMessage_toolCalls :
    parseToolCalls (runMessage a rest).toolCalls =
      calls ((a :: rest).getLast (List.cons_ne_nil _ _)) := by
  rcases List.eq_nil_or_concat rest with rfl | ⟨init, l, rfl⟩
  · rw [runMessage, List.foldl_nil, start, fillContent_toolCalls, toolCalls_fmtMessage]
    rfl
  · simp only [List.concat_eq_append, ← List.cons_append, List.getLast_concat]
    rw [runMessage, List.foldl_concat, extend, fillContent_toolCalls]
    exact toolCalls_fmtMessage l

theorem runMessage_toolCalls_none (h : ∀ m ∈ rest, m.role = a.role) (ha : a.role ≠ "assistant") :
    (runMessage a rest).toolCalls = none := by
  rcases List.eq_nil_or_concat rest with rfl | ⟨init, l, rfl⟩
  · rw [runMessage, List.foldl_nil, start, fillContent_toolCalls, fmtMessage, if_neg ha]
  · rw [List.concat_eq_append] at h ⊢
    rw [runMessage, List.foldl_concat, extend, fillContent_toolCalls, joined]
    show (if l.role = "assistant" then _ else _) = none
    rw [if_neg (by rw [h l (by simp)]; exact ha)]

theorem content_of_textual (h : textual a.content = true) :
    (start a).content = .str (firstText a) := by
  unfold start fillContent firstText fmtMessage
  cases ha : a.content with
  | str s => by_cases hs : s = "" <;> simp [hs, stringContent]
  | null => simp [stringContent]
  | bool b => simp [ha, textual] at h
  | num t => simp [ha, textual] at h
  | arr items => simp [ha, textual] at h
  | obj members => simp [ha, textual] at h

theorem content_extend (h : f.content = .str p) : (extend f m).content = .str (joinText p m) := by
  have hne := trimQuotes_ne_empty p (stringContent m.content)
  have hlast : stringContent f.content = p := by rw [h]; rfl
  rw [extend, joined, hlast, fillContent]
  simp only
  rw [if_neg hne]
  rfl

theorem content_runMessage (h : textual a.content = true) :
    (runMessage a rest).content = .str (rest.foldl joinText (firstText a)) := by
  have hfold : ∀ (rest : List Message) (f : FormatMessage) (p : String), f.content = .str p →
      (rest.foldl extend f).content = .str (rest.foldl joinText p) := by
    intro rest
    induction rest with
    | nil => exact fun f p hf => hf
    | cons b rest ih => exact fun f p hf => ih (extend f b) _ (content_extend hf)
  exact hfold rest (start a) _ (content_of_textual h)

@[simp] theorem texts_str (s : String) : texts (.str s) = if s = "" then [] else [s] := by
  by_cases hs : s = "" <;> simp [texts, parseContent, hs]

theorem texts_of_string (h : isStringContent m.content = true) :
    texts m.content = if stringContent m.content = "" then [] else [stringContent m.content] := by
  cases hm : m.content with
  | str s => exact texts_str s
  | null => simp [hm, isStringContent] at h
  | bool b => simp [hm, isStringContent] at h
  | num t => simp [hm, isStringContent] at h
  | arr items => simp [hm, isStringContent] at h
  | obj members => simp [hm, isStringContent] at h

theorem quotes_texts (h : isStringContent m.content = true) :
    quotes (texts m.content) = (stringContent m.content).toList.count '"' := by
  rw [texts_of_string h]
  split
  next hempty =>
    rw [hempty]
    rfl
  next => simp

/-- Joining the texts of a run keeps their quotes exactly when none is trimmed off. -/
theorem quotes_join (h : ∀ m ∈ rest, isStringContent m.content = true) (p : String) :
    quotes [rest.foldl joinText p] ≤ quotes [p] + quotes (rest.flatMap fun m => texts m.content) ∧
      (quotes [rest.foldl joinText p] =
          quotes [p] + quotes (rest.flatMap fun m => texts m.content) ↔
        (rest ≠ [] → p.toList.head? ≠ some '"') ∧ ∀ m ∈ rest, ¬ endsQuoted m) := by
  induction rest generalizing p with
  | nil => simp
  | cons b rest ih =>
    obtain ⟨hb, hrest⟩ := List.forall_mem_cons.1 h
    obtain ⟨hle, heq⟩ := ih hrest (joinText p b)
    rw [List.foldl_cons, List.flatMap_cons, quotes_append, quotes_texts hb, List.forall_mem_cons]
    by_cases hclean : p.toList.head? ≠ some '"' ∧ ¬ endsQuoted b
    · -- nothing is trimmed, and the joined text begins as the first one
      have hjoin : joinText p b = p ++ " " ++ stringContent b.content :=
        (trimQuotes_eq_self_iff _ _).2 hclean
      have hcount : quotes [joinText p b] =
          quotes [p] + (stringContent b.content).toList.count '"' := by
        rw [hjoin]
        simp [String.toList_append, List.count_append]
      have hhead : (joinText p b).toList.head? ≠ some '"' := by
        rw [hjoin]
        exact head_join_ne hclean.1
      rw [hcount] at hle heq
      refine ⟨by omega, ?_⟩
      rw [← Nat.add_assoc, heq]
      simp [hclean, hhead]
    · have hlt : quotes [joinText p b] <
          quotes [p] + (stringContent b.content).toList.count '"' := by
        rcases trimQuotes_cases (p ++ " " ++ stringContent b.content) with hsame | hlt
        · exact absurd ((trimQuotes_eq_self_iff _ _).1 hsame) hclean
        · simpa [joinText, String.toList_append, List.count_append] using hlt
      refine ⟨by omega, iff_of_false (by omega) ?_⟩
      rintro ⟨hhead, hend, -⟩
      exact hclean ⟨hhead (List.cons_ne_nil _ _), hend⟩

/-- Without quotes to trim the texts of a run stand in the joined text. -/
theorem concatenates_join (h : ∀ m ∈ rest, isStringContent m.content = true)
    (hts : Concatenates ts p) (hhead : rest ≠ [] → p.toList.head? ≠ some '"')
    (hends : ∀ m ∈ rest, ¬ endsQuoted m) :
    Concatenates (ts ++ rest.flatMap fun m => texts m.content) (rest.foldl joinText p) := by
  induction rest generalizing p ts with
  | nil => simpa using hts
  | cons b rest ih =>
    obtain ⟨hb, hrest⟩ := List.forall_mem_cons.1 h
    obtain ⟨hend, hends⟩ := List.forall_mem_cons.1 hends
    have hp := hhead (List.cons_ne_nil _ _)
    have hjoin : joinText p b = p ++ " " ++ stringContent b.content :=
      (trimQuotes_eq_self_iff _ _).2 ⟨hp, hend⟩
    have hnext : Concatenates (ts ++ texts b.content) (joinText p b) := by
      rw [hjoin, texts_of_string hb]
      split
      next hempty =>
        rw [List.append_nil, String.append_assoc]
        exact hts.append _
      next => exact hts.concat " " _
    have hnextHead : (joinText p b).toList.head? ≠ some '"' := by
      rw [hjoin]
      exact head_join_ne hp
    rw [List.flatMap_cons, ← List.append_assoc, List.foldl_cons]
    exact ih hrest hnext (fun _ => hnextHead) hends

theorem firstText_ne_empty (m : Message) : firstText m ≠ "" := by
  unfold firstText
  split
  · decide
  next hne => exact hne

theorem foldl_joinText_ne_empty (a : Message) (rest : List Message) :
    rest.foldl joinText (firstText a) ≠ "" := by
  rcases List.eq_nil_or_concat rest with rfl | ⟨init, l, rfl⟩
  · exact firstText_ne_empty a
  · rw [List.concat_eq_append, List.foldl_concat]
    exact trimQuotes_ne_empty _ _

theorem texts_of_textual (h : textual a.content = true) :
    texts a.content = if stringContent a.content = "" then [] else [stringContent a.content] := by
  cases ha : a.content with
  | str s => exact texts_str s
  | null => rfl
  | bool b => simp [ha, textual] at h
  | num t => simp [ha, textual] at h
  | arr items => simp [ha, textual] at h
  | obj members => simp [ha, textual] at h

/-- The first text of a run, filled in. -/
theorem firstText_spec (h : textual a.content = true) :
    Concatenates (texts a.content) (firstText a) ∧
      quotes [firstText a] = quotes (texts a.content) ∧
      ((firstText a).toList.head? = some '"' ↔ beginsQuoted a) := by
  rw [texts_of_textual h, firstText, beginsQuoted]
  by_cases hempty : stringContent a.content = ""
  · rw [if_pos hempty, if_pos hempty, hempty]
    exact ⟨.nil _, by decide, by decide⟩
  · rw [if_neg hempty, if_neg hempty]
    exact ⟨concatenates_singleton _, rfl, Iff.rfl⟩

theorem content_start (h : textual a.content = false) : (start a).content = a.content := by
  unfold start fillContent
  cases ha : a.content <;> simp_all [textual, fmtMessage]

/-- The texts of a run and the text it becomes. -/
theorem run_texts (h : (a :: rest).IsChain fun a b => merges a b = true) :
    quotes (texts (runMessage a rest).content) ≤
        quotes ((a :: rest).flatMap fun m => texts m.content) ∧
      (quotes (texts (runMessage a rest).content) =
          quotes ((a :: rest).flatMap fun m => texts m.content) ↔ Unquoted (a :: rest)) ∧
      (Unquoted (a :: rest) →
        Carried ((a :: rest).flatMap fun m => texts m.content)
          (texts (runMessage a rest).content)) := by
  obtain ⟨hrest, hne⟩ := run_spec h
  have hstrings : ∀ m ∈ rest, isStringContent m.content = true := fun m hm => (hrest m hm).2
  cases htextual : textual a.content with
  | true =>
    obtain ⟨hfirst, hcount, hbegins⟩ := firstText_spec htextual
    obtain ⟨hle, heq⟩ := quotes_join hstrings (firstText a)
    have htext : texts (runMessage a rest).content = [rest.foldl joinText (firstText a)] := by
      rw [content_runMessage htextual, texts_str, if_neg (foldl_joinText_ne_empty a rest)]
    rw [htext, List.flatMap_cons, quotes_append, ← hcount]
    have hunquoted : ((rest ≠ [] → (firstText a).toList.head? ≠ some '"') ∧
        ∀ m ∈ rest, ¬ endsQuoted m) ↔ Unquoted (a :: rest) := by
      simp only [Unquoted, ← hbegins, ne_eq]
    refine ⟨hle, heq.trans hunquoted, fun hun => ?_⟩
    obtain ⟨hhead, hends⟩ := hunquoted.2 hun
    have hjoined := concatenates_join hstrings hfirst hhead hends
    exact ⟨[_], List.flatten_singleton, .cons hjoined .nil⟩
  | false =>
    have hnil : rest = [] := by
      by_contra hrest
      rw [(hne hrest).2] at htextual
      cases htextual
    subst hnil
    have hsame : texts (runMessage a []).content = texts a.content := by
      rw [runMessage, List.foldl_nil, content_start htextual]
    rw [hsame, List.flatMap_singleton]
    exact ⟨Nat.le_refl _, by simp [Unquoted], fun _ => carried_self _⟩

end Entries

end CodeGo.Gateway.OpenAIToClaude
