import CodeGo.Gateway.OpenAIToClaudeFidelity

/-!
# Whole chat requests for Claude

The messages of a converted request against those that were sent, and what a request has to be for
its translation to keep everything.
-/

namespace CodeGo.Gateway.OpenAIToClaude

open Lib (Json)
open Lib.Runs Lib.Lists

section Converted

variable {F : Type} (convertFile : Json → Option (Option F)) (unmarshal : String → Option Json)

/-- The role that the next message follows. -/
def lastRole (rs : List String) : Option String := rs.foldl nextRole none

def Turns (rs : List String) : Prop :=
  ∀ before r after, rs = before ++ r :: after → Turn (lastRole before) r

/-- What the formatted messages come to. -/
structure Converted (fs : List FormatMessage) (s : Progress F) : Prop where
  started : Started s
  uses : uses s.claudeMessages = fs.flatMap (callUses unmarshal)
  system : s.systemMessages = fs.flatMap fun f => instructed f.role f.content
  texts : Carried (fs.flatMap fun f => said f.role f.content) (writtenTexts s.claudeMessages)
  quotes : quotes (writtenTexts s.claudeMessages) =
    quotes (fs.flatMap fun f => said f.role f.content)
  alternates : Alternates (roles s.claudeMessages) ↔ Turns (fs.map (·.role))
  last : (roles s.claudeMessages).getLast? = lastRole (fs.map (·.role))
  linked : ResultsLinked s.claudeMessages ↔ ∀ before f after, fs = before ++ f :: after →
    f.role = "tool" → f.toolCallId ∈ (before.flatMap (callUses unmarshal)).map (·.1)

variable {convertFile} {unmarshal} {s s' : Progress F} {f : FormatMessage}
  {fs : List FormatMessage}

theorem converted_nil : Converted unmarshal [] ({} : Progress F) where
  started := ⟨by simp, nofun⟩
  uses := rfl
  system := rfl
  texts := carried_nil _
  quotes := rfl
  alternates := iff_of_true ⟨nofun, .nil⟩ forall_split_nil
  last := rfl
  linked := iff_of_true resultsLinked_nil forall_split_nil

theorem Converted.step (h : Converted unmarshal fs s) (hstep : Step unmarshal s f s') :
    Converted unmarshal (fs ++ [f]) s' := by
  obtain ⟨us, htexts, hcarried, hquotes⟩ := hstep.texts
  constructor
  · exact hstep.started
  · rw [hstep.uses, h.uses, List.flatMap_append, List.flatMap_singleton]
  · rw [hstep.system, h.system, List.flatMap_append, List.flatMap_singleton]
  · rw [htexts, List.flatMap_append, List.flatMap_singleton]
    exact h.texts.append hcarried
  · rw [htexts, List.flatMap_append, List.flatMap_singleton, quotes_append, quotes_append,
      hquotes, h.quotes]
  · rw [hstep.alternates, h.alternates, h.last, List.map_append]
    exact (@forall_split_concat _ (fun before r => Turn (lastRole before) r) _ _).symm
  · rw [hstep.last, h.last, List.map_append]
    simp [lastRole]
  · rw [hstep.linked, h.linked, useIds, h.uses]
    exact (@forall_split_concat _ (fun before f => f.role = "tool" →
      f.toolCallId ∈ (before.flatMap (callUses unmarshal)).map (·.1)) _ _).symm

/-- The second loop. -/
theorem converted_of_foldlM (hcalls : ∀ f ∈ fs, f.role ≠ "assistant" → f.toolCalls = none)
    (hok : fs.foldlM (addMessage convertFile unmarshal) {} = .ok s) :
    Converted unmarshal fs s := by
  induction fs using List.reverseRecOn generalizing s with
  | nil =>
    obtain rfl := Except.ok.inj hok
    exact converted_nil
  | append_singleton fs f ih =>
    obtain ⟨hfs, hf⟩ := List.forall_mem_append.1 hcalls
    obtain ⟨middle, hmiddle, hadd⟩ := foldlM_concat_ok hok
    have hconverted := ih hfs hmiddle
    exact hconverted.step (addMessage_spec hconverted.started (hf f (by simp)) hadd)

end Converted

section Failures

variable {F : Type} {convertFile : Json → Option (Option F)} {unmarshal : String → Option Json}
  {f : FormatMessage} {fs : List FormatMessage}

/-- The files of a message of its own can be converted. -/
def FilesConvert (convertFile : Json → Option (Option F)) (role : String) (content : Json) : Prop :=
  role ≠ "system" → role ≠ "tool" →
    ∀ item, .other item ∈ parseContent content → (convertFile item).isSome = true

/-- Reading fails nowhere or with an error. -/
theorem parts_cases (parts : List ContentPart) :
    ((∃ bss, parts.mapM (convertPart convertFile) = .ok bss) ∧
        ∀ item, .other item ∈ parts → (convertFile item).isSome = true) ∨
      (parts.mapM (convertPart convertFile) = .error .error ∧
        ¬ ∀ item, .other item ∈ parts → (convertFile item).isSome = true) := by
  induction parts with
  | nil => exact .inl ⟨⟨[], rfl⟩, nofun⟩
  | cons p parts ih =>
    rw [List.mapM_cons]
    cases hp : convertPart convertFile p with
    | error e =>
      cases p with
      | text s => cases hp
      | other item =>
        rw [convertPart] at hp
        cases hfile : convertFile item with
        | some file =>
          rw [hfile] at hp
          cases hp
        | none =>
          rw [hfile] at hp
          obtain rfl := Except.error.inj hp
          refine .inr ⟨rfl, fun hall => ?_⟩
          have := hall item (by simp)
          rw [hfile] at this
          cases this
    | ok bs =>
      have hpart : ∀ item, p = .other item → (convertFile item).isSome = true := by
        rintro item rfl
        rw [convertPart] at hp
        cases hfile : convertFile item with
        | some file => rfl
        | none =>
          rw [hfile] at hp
          cases hp
      rcases ih with ⟨⟨bss, hbss⟩, hall⟩ | ⟨herror, hall⟩
      · refine .inl ⟨⟨bs :: bss, by rw [hbss]; rfl⟩, fun item hitem => ?_⟩
        rcases List.mem_cons.1 hitem with heq | hitem
        · exact hpart item heq.symm
        · exact hall item hitem
      · refine .inr ⟨by rw [herror]; rfl, fun hcons => hall fun item hitem => ?_⟩
        exact hcons item (List.mem_cons_of_mem _ hitem)

theorem ownContent_cases (f : FormatMessage) :
    ((∃ content, ownContent convertFile unmarshal f = .ok content) ∧
        ∀ item, .other item ∈ parseContent f.content → (convertFile item).isSome = true) ∨
      (ownContent convertFile unmarshal f = .error .error ∧
        ¬ ∀ item, .other item ∈ parseContent f.content → (convertFile item).isSome = true) := by
  unfold ownContent
  split
  next s hcontent hcalls =>
    rw [hcontent]
    exact .inl ⟨⟨_, rfl⟩, by simp [parseContent]⟩
  next =>
    rcases @parts_cases _ convertFile (parseContent f.content) with ⟨⟨bss, hok⟩, hall⟩ | ⟨herror, hall⟩
    · refine .inl ⟨⟨.blocks (bss.flatten ++
        (parseToolCalls f.toolCalls).filterMap (convertCall unmarshal)), ?_⟩, hall⟩
      rw [mediaBlocks, hok]
      rfl
    · refine .inr ⟨?_, hall⟩
      rw [mediaBlocks, herror]
      rfl

theorem addMessage_cases (s : Progress F) (f : FormatMessage) :
    ((∃ s', addMessage convertFile unmarshal s f = .ok s') ∧
        FilesConvert convertFile f.role f.content) ∨
      (addMessage convertFile unmarshal s f = .error .error ∧
        ¬ FilesConvert convertFile f.role f.content) := by
  unfold addMessage
  by_cases hsystem : f.role = "system"
  · rw [if_pos hsystem]
    exact .inl ⟨⟨_, rfl⟩, fun hne => absurd hsystem hne⟩
  rw [if_neg hsystem]
  by_cases htool : f.role = "tool"
  · rw [if_pos htool]
    exact .inl ⟨⟨_, rfl⟩, fun _ hne => absurd htool hne⟩
  rw [if_neg htool]
  rcases @ownContent_cases _ convertFile unmarshal f with ⟨⟨content, hok⟩, hall⟩ | ⟨herror, hall⟩
  · exact .inl ⟨⟨_, by rw [hok]; rfl⟩, fun _ _ => hall⟩
  · exact .inr ⟨by rw [herror]; rfl, fun hfiles => hall (hfiles hsystem htool)⟩

/-- The second loop ends, or stops at a file. -/
theorem foldlM_cases (fs : List FormatMessage) (s : Progress F) :
    ((∃ s', fs.foldlM (addMessage convertFile unmarshal) s = .ok s') ∧
        ∀ f ∈ fs, FilesConvert convertFile f.role f.content) ∨
      (fs.foldlM (addMessage convertFile unmarshal) s = .error .error ∧
        ¬ ∀ f ∈ fs, FilesConvert convertFile f.role f.content) := by
  induction fs generalizing s with
  | nil => exact .inl ⟨⟨s, rfl⟩, nofun⟩
  | cons f fs ih =>
    rw [List.foldlM_cons, List.forall_mem_cons]
    rcases @addMessage_cases _ convertFile unmarshal s f with ⟨⟨s', hok⟩, hf⟩ | ⟨herror, hf⟩
    · rw [hok]
      rcases ih s' with ⟨hend, hall⟩ | ⟨herror, hall⟩
      · exact .inl ⟨hend, hf, hall⟩
      · exact .inr ⟨herror, fun h => hall h.2⟩
    · rw [herror]
      exact .inr ⟨rfl, fun h => hf h.1⟩

end Failures

section Runs

/-- A formatted message and the run it stands for. -/
structure Formatted (run : List Message) (f : FormatMessage) : Prop where
  ne_nil : run ≠ []
  role : ∀ m ∈ run, m.role = f.role
  calls : ∀ h : run ≠ [], parseToolCalls f.toolCalls = calls (run.getLast h)
  quiet : f.role ≠ "assistant" → f.toolCalls = none
  quotes_le : quotes (texts f.content) ≤ quotes (run.flatMap fun m => texts m.content)
  quotes_iff : quotes (texts f.content) = quotes (run.flatMap fun m => texts m.content) ↔
    Unquoted run
  texts : Unquoted run → Carried (run.flatMap fun m => texts m.content) (texts f.content)
  tool : f.role = "tool" → ∃ m, run = [m] ∧ f.toolCallId = m.toolCallId
  files : ∀ item, .other item ∈ parseContent f.content ↔
    ∃ m ∈ run, .other item ∈ parseContent m.content

variable {F : Type} {a : Message} {rest : List Message} {run : List Message} {f : FormatMessage}
  {rs : List (List Message)} {fs : List FormatMessage}

/-- A content that is a text has no other parts. -/
theorem not_other_mem {content : Json} (h : textual content = true) (item : Json) :
    .other item ∉ parseContent content := by
  cases content <;> simp_all [textual, parseContent]

theorem formatted_runMessage (h : (a :: rest).IsChain fun a b => merges a b = true) :
    Formatted (a :: rest) (runMessage a rest) := by
  obtain ⟨hrest, hjoined⟩ := run_spec h
  have hroles : ∀ m ∈ rest, m.role = a.role := fun m hm => (hrest m hm).1
  have hrole := runMessage_role hroles
  obtain ⟨hle, heq, hcarried⟩ := run_texts h
  have hsingle : rest ≠ [] → textual a.content = true := fun hne => (hjoined hne).2
  constructor
  · exact List.cons_ne_nil _ _
  · rw [hrole]
    exact List.forall_mem_cons.2 ⟨rfl, hroles⟩
  · exact fun _ => runMessage_toolCalls
  · rw [hrole]
    exact runMessage_toolCalls_none hroles
  · exact hle
  · exact heq
  · exact hcarried
  · intro htool
    rw [hrole] at htool
    have hnil : rest = [] := by
      by_contra hne
      exact (hjoined hne).1 htool
    subst hnil
    refine ⟨a, rfl, ?_⟩
    rw [runMessage, List.foldl_nil, start, fillContent_toolCallId]
    exact if_pos htool
  · intro item
    cases htextual : textual a.content with
    | true =>
      have hrun : textual (runMessage a rest).content = true := by
        rw [content_runMessage htextual]
        rfl
      refine iff_of_false (not_other_mem hrun item) ?_
      rintro ⟨m, hm, hitem⟩
      rcases List.mem_cons.1 hm with rfl | hm
      · exact not_other_mem htextual item hitem
      · have hstring := (hrest m hm).2
        refine not_other_mem ?_ item hitem
        cases hcontent : m.content <;> simp_all [isStringContent, textual]
    | false =>
      have hnil : rest = [] := by
        by_contra hne
        rw [hsingle hne] at htextual
        cases htextual
      subst hnil
      rw [runMessage, List.foldl_nil, content_start htextual]
      simp

/-- The formatted messages stand for the runs. -/
theorem formatted_runs (messages : List Message) :
    List.Forall₂ Formatted (runs merges messages) (formatMessages messages) := by
  have hall : ∀ rs : List (List Message),
      (∀ run ∈ rs, run ≠ [] ∧ run.IsChain fun a b => merges a b = true) →
      List.Forall₂ Formatted rs (rs.filterMap (entry start extend)) := by
    intro rs
    induction rs with
    | nil => exact fun _ => .nil
    | cons run rs ih =>
      intro h
      obtain ⟨⟨hne, hchain⟩, hrs⟩ := List.forall_mem_cons.1 h
      obtain ⟨a, rest, rfl⟩ := List.exists_cons_of_ne_nil hne
      exact .cons (formatted_runMessage hchain) (ih hrs)
  rw [formatMessages_eq]
  exact hall _ fun run hrun => ⟨ne_nil_of_mem_runs hrun, isChain_of_mem_runs hrun⟩

def runRole (run : List Message) : Option String := run.head?.map (·.role)

theorem formatted_roles (h : List.Forall₂ Formatted rs fs) :
    fs.map (·.role) = rs.filterMap runRole := by
  induction h with
  | nil => rfl
  | @cons run f rs fs hf _ ih =>
    obtain ⟨a, rest, rfl⟩ := List.exists_cons_of_ne_nil hf.ne_nil
    have hrole : runRole (a :: rest) = some f.role :=
      congrArg some (hf.role a List.mem_cons_self)
    rw [List.filterMap_cons_some hrole, List.map_cons, ih]

theorem formatted_quiet (h : List.Forall₂ Formatted rs fs) :
    ∀ f ∈ fs, f.role ≠ "assistant" → f.toolCalls = none := by
  induction h with
  | nil => exact nofun
  | cons hf _ ih => exact List.forall_mem_cons.2 ⟨hf.quiet, ih⟩

theorem formatted_files (convertFile : Json → Option (Option F))
    (h : List.Forall₂ Formatted rs fs) :
    (∀ f ∈ fs, FilesConvert convertFile f.role f.content) ↔
      ∀ m ∈ rs.flatten, FilesConvert convertFile m.role m.content := by
  induction h with
  | nil => simp
  | @cons run f rs fs hf _ ih =>
    rw [List.forall_mem_cons, List.flatten_cons, List.forall_mem_append, ih]
    refine and_congr_left fun _ => ⟨fun hfiles m hm => ?_, fun hfiles => ?_⟩
    · unfold FilesConvert at *
      rw [hf.role m hm]
      intro hsystem htool item hitem
      exact hfiles hsystem htool item ((hf.files item).2 ⟨m, hm, hitem⟩)
    · intro hsystem htool item hitem
      obtain ⟨m, hm, hitem⟩ := (hf.files item).1 hitem
      rw [← hf.role m hm] at hsystem htool
      exact hfiles m hm hsystem htool item hitem

end Runs

section Calls

variable (unmarshal : String → Option Json)

/-- A use of the call as it was asked for. -/
def Uses (c : ToolCall) (u : String × String × Json) : Prop :=
  u.1 = c.id ∧ u.2.1 = c.name ∧ unmarshal c.arguments = some u.2.2

/-- The arguments can be read into a map. -/
def ArgumentsDecode (c : ToolCall) : Prop :=
  (∃ members, unmarshal c.arguments = some (.obj members)) ∨ unmarshal c.arguments = some .null

variable {unmarshal} {c : ToolCall} {u : String × String × Json} {cs : List ToolCall}
  {us : List (String × String × Json)} {run : List Message} {f : FormatMessage}
  {rs : List (List Message)} {fs : List FormatMessage}

theorem uses_of_callUse (h : callUse unmarshal c = some u) : Uses unmarshal c u := by
  unfold callUse convertCall at h
  split at h
  next members hargs =>
    obtain rfl := Option.some.inj h
    exact ⟨rfl, rfl, hargs⟩
  next hargs =>
    obtain rfl := Option.some.inj h
    exact ⟨rfl, rfl, hargs⟩
  next => cases h

theorem isSome_callUse : (callUse unmarshal c).isSome = true ↔ ArgumentsDecode unmarshal c := by
  unfold callUse convertCall ArgumentsDecode
  split
  next members hargs => simp [hargs, blockUse]
  next hargs => simp [hargs, blockUse]
  next hobj hnull =>
    refine iff_of_false (by simp) ?_
    rintro (⟨members, hargs⟩ | hargs)
    · exact hobj members hargs
    · exact hnull hargs

theorem ids_of_uses (h : List.Forall₂ (Uses unmarshal) cs us) : us.map (·.1) = cs.map (·.id) := by
  induction h with
  | nil => rfl
  | cons hc _ ih => rw [List.map_cons, List.map_cons, hc.1, ih]

/-- All calls are used exactly when all can be read. -/
theorem forall₂_callUse :
    List.Forall₂ (Uses unmarshal) cs (cs.filterMap (callUse unmarshal)) ↔
      ∀ c ∈ cs, ArgumentsDecode unmarshal c := by
  induction cs with
  | nil => simp
  | cons c cs ih =>
    rw [List.forall_mem_cons, ← isSome_callUse]
    cases hc : callUse unmarshal c with
    | none =>
      rw [List.filterMap_cons_none hc]
      refine iff_of_false (fun hall => ?_) (by simp)
      have := hall.length_eq
      have := List.length_filterMap_le (callUse unmarshal) cs
      simp only [List.length_cons] at *
      omega
    | some u =>
      rw [List.filterMap_cons_some hc, List.forall₂_cons, ih]
      simp [uses_of_callUse hc]

theorem callUses_length_le (h : Formatted run f) :
    (callUses unmarshal f).length ≤ (run.flatMap calls).length := by
  obtain ⟨init, last, rfl⟩ : ∃ init last, run = init ++ [last] :=
    ⟨run.dropLast, run.getLast h.ne_nil, (List.dropLast_append_getLast h.ne_nil).symm⟩
  have hcalls := h.calls h.ne_nil
  rw [List.getLast_concat] at hcalls
  have := List.length_filterMap_le (callUse unmarshal) (calls last)
  rw [callUses, hcalls, List.flatMap_append, List.length_append, List.flatMap_singleton]
  omega

/-- Only the calls of the last message of a run are used. -/
theorem run_uses (h : Formatted run f) :
    List.Forall₂ (Uses unmarshal) (run.flatMap calls) (callUses unmarshal f) ↔
      (∀ m ∈ run, ∀ c ∈ calls m, ArgumentsDecode unmarshal c) ∧
        ∀ m ∈ run.dropLast, calls m = [] := by
  obtain ⟨init, last, rfl⟩ : ∃ init last, run = init ++ [last] :=
    ⟨run.dropLast, run.getLast h.ne_nil, (List.dropLast_append_getLast h.ne_nil).symm⟩
  have hcalls := h.calls h.ne_nil
  rw [List.getLast_concat] at hcalls
  rw [callUses, hcalls, List.flatMap_append, List.flatMap_singleton, List.dropLast_concat,
    List.forall_mem_append, List.forall_mem_singleton, ← forall₂_callUse,
    ← List.flatMap_eq_nil_iff]
  constructor
  · intro hall
    have hnil : init.flatMap calls = [] := by
      have hlength := hall.length_eq
      have := List.length_filterMap_le (callUse unmarshal) (calls last)
      rw [List.length_append] at hlength
      exact List.eq_nil_of_length_eq_zero (by omega)
    rw [hnil, List.nil_append] at hall
    refine ⟨⟨fun m hm c hc => ?_, hall⟩, hnil⟩
    rw [List.flatMap_eq_nil_iff.1 hnil m hm] at hc
    cases hc
  · rintro ⟨⟨-, hall⟩, hnil⟩
    rwa [hnil, List.nil_append]

variable (unmarshal) in
/-- The calls of all runs. -/
theorem formatted_uses (h : List.Forall₂ Formatted rs fs) :
    List.Forall₂ (Uses unmarshal) (rs.flatten.flatMap calls) (fs.flatMap (callUses unmarshal)) ↔
      (∀ m ∈ rs.flatten, ∀ c ∈ calls m, ArgumentsDecode unmarshal c) ∧
        ∀ run ∈ rs, ∀ m ∈ run.dropLast, calls m = [] := by
  have hflatten : rs.flatten.flatMap calls = rs.flatMap fun run => run.flatMap calls := by
    rw [← List.flatMap_id', List.flatMap_assoc]
  rw [hflatten, forall₂_flatMap (h.imp fun run f => callUses_length_le)]
  clear hflatten
  induction h with
  | nil => simp
  | @cons run f rs fs hf _ ih =>
    rw [List.forall₂_cons, run_uses hf, List.flatten_cons, List.forall_mem_append,
      List.forall_mem_cons]
    exact (and_congr_right fun _ => ih).trans and_and_and_comm

variable (unmarshal) in
/-- The results of all runs, where their calls are used. -/
theorem formatted_linked (h : List.Forall₂ Formatted rs fs)
    (huses : ∀ run ∈ rs, ∀ f, Formatted run f →
      List.Forall₂ (Uses unmarshal) (run.flatMap calls) (callUses unmarshal f))
    (ids : List String) :
    (∀ before f after, fs = before ++ f :: after → f.role = "tool" →
        f.toolCallId ∈ ids ++ (before.flatMap (callUses unmarshal)).map (·.1)) ↔
      ∀ before m after, rs.flatten = before ++ m :: after → m.role = "tool" →
        m.toolCallId ∈ ids ++ (before.flatMap calls).map (·.id) := by
  induction h generalizing ids with
  | nil => exact iff_of_true forall_split_nil forall_split_nil
  | @cons run f rs fs hf _ ih =>
    obtain ⟨hrun, hrs⟩ := List.forall_mem_cons.1 huses
    have hids := ids_of_uses (hrun f hf)
    rw [@forall_split_cons _ (fun before f => f.role = "tool" →
        f.toolCallId ∈ ids ++ (before.flatMap (callUses unmarshal)).map (·.1)),
      List.flatten_cons,
      @forall_split_append _ (fun before m => m.role = "tool" →
        m.toolCallId ∈ ids ++ (before.flatMap calls).map (·.id))]
    simp only [List.flatMap_cons, List.flatMap_append, List.map_append, ← List.append_assoc, hids]
    refine and_congr ?_ (ih hrs _)
    rw [List.flatMap_nil, List.map_nil, List.append_nil]
    by_cases htool : f.role = "tool"
    · obtain ⟨m, rfl, hid⟩ := hf.tool htool
      have hrole := hf.role m (by simp)
      rw [@forall_split_singleton _ (fun before m => m.role = "tool" →
        m.toolCallId ∈ ids ++ (before.flatMap calls).map (·.id)), hid, hrole,
        List.flatMap_nil, List.map_nil, List.append_nil]
    · refine iff_of_true (fun heq => absurd heq htool) fun before m after hsplit heq => ?_
      have hrole := hf.role m (by rw [hsplit]; simp)
      exact absurd (hrole.symm.trans heq) htool

end Calls

section JoinedTexts

variable {run : List Message} {f : FormatMessage} {rs : List (List Message)}
  {fs : List FormatMessage} {p : String → Bool} {written : List String}

theorem run_textsOf (h : Formatted run f) :
    (p f.role = true → run.flatMap (fun m => textsOf p m.role m.content) =
        run.flatMap fun m => texts m.content) ∧
      (p f.role = false → run.flatMap (fun m => textsOf p m.role m.content) = []) := by
  refine ⟨fun hp => ?_, fun hp => ?_⟩
  · refine List.flatMap_congr fun m hm => ?_
    rw [textsOf, h.role m hm, if_pos hp]
  · refine List.flatMap_eq_nil_iff.2 fun m hm => ?_
    rw [textsOf, h.role m hm, if_neg (by simp [hp])]

/-- The texts of the runs of some roles keep their quotes exactly when none is trimmed off. -/
theorem formatted_texts (h : List.Forall₂ Formatted rs fs) :
    quotes (fs.flatMap fun f => textsOf p f.role f.content) ≤
        quotes (rs.flatten.flatMap fun m => textsOf p m.role m.content) ∧
      (quotes (fs.flatMap fun f => textsOf p f.role f.content) =
          quotes (rs.flatten.flatMap fun m => textsOf p m.role m.content) ↔
        ∀ run ∈ rs, (∀ m ∈ run, p m.role = true) → Unquoted run) ∧
      ((∀ run ∈ rs, (∀ m ∈ run, p m.role = true) → Unquoted run) →
        Carried (rs.flatten.flatMap fun m => textsOf p m.role m.content)
          (fs.flatMap fun f => textsOf p f.role f.content)) := by
  induction h with
  | nil => exact ⟨Nat.le_refl _, by simp, fun _ => carried_nil _⟩
  | @cons run f rs fs hf _ ih =>
    obtain ⟨hle, heq, hcarried⟩ := ih
    obtain ⟨htrue, hfalse⟩ := run_textsOf (p := p) hf
    rw [List.flatMap_cons, List.flatten_cons, List.flatMap_append, quotes_append, quotes_append,
      List.forall_mem_cons]
    cases hp : p f.role with
    | true =>
      have hrun : ∀ m ∈ run, p m.role = true := fun m hm => by rw [hf.role m hm, hp]
      have hown : textsOf p f.role f.content = texts f.content := if_pos hp
      rw [htrue hp, hown]
      have hrunLe := hf.quotes_le
      refine ⟨by omega, ?_, ?_⟩
      · rw [forall_prop_of_true hrun, ← hf.quotes_iff, ← heq]
        omega
      · rintro ⟨hunquoted, hall⟩
        exact (hf.texts (hunquoted hrun)).append (hcarried hall)
    | false =>
      have hown : textsOf p f.role f.content = [] := if_neg (by simp [hp])
      have hrun : ¬ ∀ m ∈ run, p m.role = true := by
        obtain ⟨a, rest, rfl⟩ := List.exists_cons_of_ne_nil hf.ne_nil
        intro hall
        have := hall a List.mem_cons_self
        rw [hf.role a List.mem_cons_self, hp] at this
        cases this
      rw [hfalse hp, hown, quotes_nil, Nat.zero_add, Nat.zero_add, List.nil_append, List.nil_append]
      refine ⟨hle, ?_, fun hall => hcarried hall.2⟩
      rw [heq, and_iff_right fun hall => absurd hall hrun]

/-- What is written keeps the texts of the messages exactly when no quote is trimmed off. -/
theorem formatted_carried (h : List.Forall₂ Formatted rs fs)
    (hquotes : quotes written = quotes (fs.flatMap fun f => textsOf p f.role f.content))
    (hcarried : Carried (fs.flatMap fun f => textsOf p f.role f.content) written) :
    Carried (rs.flatten.flatMap fun m => textsOf p m.role m.content) written ↔
      ∀ run ∈ rs, (∀ m ∈ run, p m.role = true) → Unquoted run := by
  obtain ⟨hle, heq, hformatted⟩ := formatted_texts (p := p) h
  constructor
  · intro hkept
    have := hkept.quotes_le
    exact heq.1 (by omega)
  · exact fun hall => (hformatted hall).trans hcarried

end JoinedTexts

/-- A schema's type is a text or missing. -/
def TypeIsText (f : Function) : Prop :=
  ∀ parameters, f.parameters = .obj parameters →
    Json.get? "type" parameters = none ∨ Json.get? "type" parameters = some .null ∨
      ∃ t, Json.get? "type" parameters = some (.str t)

/-- A list of stops has only texts. -/
def StopsAreTexts (stop : Json) : Prop :=
  ∀ items, stop = .arr items → ∀ item ∈ items, ∃ s, item = .str s

theorem mapM_cases {α β : Type} {g : α → Except Failure β} {P : α → Prop}
    (h : ∀ a, ((∃ b, g a = .ok b) ∧ P a) ∨ (g a = .error .panic ∧ ¬ P a)) (l : List α) :
    ((∃ bs, l.mapM g = .ok bs) ∧ ∀ a ∈ l, P a) ∨
      (l.mapM g = .error .panic ∧ ¬ ∀ a ∈ l, P a) := by
  induction l with
  | nil => exact .inl ⟨⟨[], rfl⟩, nofun⟩
  | cons a l ih =>
    rw [List.mapM_cons, List.forall_mem_cons]
    rcases h a with ⟨⟨b, hok⟩, ha⟩ | ⟨hpanic, ha⟩
    · rw [hok]
      rcases ih with ⟨⟨bs, hbs⟩, hall⟩ | ⟨hpanic, hall⟩
      · rw [hbs]
        exact .inl ⟨⟨b :: bs, rfl⟩, ha, hall⟩
      · rw [hpanic]
        exact .inr ⟨rfl, fun hcons => hall hcons.2⟩
    · rw [hpanic]
      exact .inr ⟨rfl, fun hcons => ha hcons.1⟩

theorem convertTool_cases (f : Function) :
    ((∃ tools, convertTool f = .ok tools) ∧ TypeIsText f) ∨
      (convertTool f = .error .panic ∧ ¬ TypeIsText f) := by
  unfold convertTool TypeIsText
  cases hparameters : f.parameters with
  | obj parameters =>
    simp only [Json.obj.injEq, forall_eq']
    cases htype : Json.get? "type" parameters with
    | none => exact .inl ⟨⟨_, rfl⟩, .inl rfl⟩
    | some type =>
      cases type with
      | null => exact .inl ⟨⟨_, rfl⟩, .inr (.inl rfl)⟩
      | str t => exact .inl ⟨⟨_, rfl⟩, .inr (.inr ⟨t, rfl⟩)⟩
      | bool b => exact .inr ⟨rfl, by simp⟩
      | num t => exact .inr ⟨rfl, by simp⟩
      | arr items => exact .inr ⟨rfl, by simp⟩
      | obj members => exact .inr ⟨rfl, by simp⟩
  | null => exact .inl ⟨⟨_, rfl⟩, nofun⟩
  | bool b => exact .inl ⟨⟨_, rfl⟩, nofun⟩
  | num t => exact .inl ⟨⟨_, rfl⟩, nofun⟩
  | str s => exact .inl ⟨⟨_, rfl⟩, nofun⟩
  | arr items => exact .inl ⟨⟨_, rfl⟩, nofun⟩

theorem stopSequences_cases (stop : Json) :
    ((∃ texts, stopSequences stop = .ok texts) ∧ StopsAreTexts stop) ∨
      (stopSequences stop = .error .panic ∧ ¬ StopsAreTexts stop) := by
  unfold stopSequences StopsAreTexts
  cases stop with
  | arr items =>
    simp only [Json.arr.injEq, forall_eq']
    refine mapM_cases (fun item => ?_) items
    cases item with
    | str s => exact .inl ⟨⟨s, rfl⟩, s, rfl⟩
    | null => exact .inr ⟨rfl, nofun⟩
    | bool b => exact .inr ⟨rfl, nofun⟩
    | num t => exact .inr ⟨rfl, nofun⟩
    | arr items => exact .inr ⟨rfl, nofun⟩
    | obj members => exact .inr ⟨rfl, nofun⟩
  | str s => exact .inl ⟨⟨_, rfl⟩, nofun⟩
  | null => exact .inl ⟨⟨_, rfl⟩, nofun⟩
  | bool b => exact .inl ⟨⟨_, rfl⟩, nofun⟩
  | num t => exact .inl ⟨⟨_, rfl⟩, nofun⟩
  | obj members => exact .inl ⟨⟨_, rfl⟩, nofun⟩

section Faithfulness

variable {F : Type} (convertFile : Json → Option (Option F)) (unmarshal : String → Option Json)

/-- The converted messages keep what was sent: roles in turn, every call, results of earlier calls,
and every text. -/
structure Kept (messages : List Message) (r : ClaudeRequest F) : Prop where
  alternates : Alternates (roles r.messages)
  uses : List.Forall₂ (Uses unmarshal) (messages.flatMap calls) (uses r.messages)
  linked : ResultsLinked r.messages
  system : Carried (messages.flatMap fun m => instructed m.role m.content) r.system
  texts : Carried (messages.flatMap fun m => said m.role m.content) (writtenTexts r.messages)

/-- Nothing panics, and what is returned keeps what was sent. A file may fail to be fetched. -/
def Faithful (messages : List Message) : Except Failure (ClaudeRequest F) → Prop
  | .error .panic => False
  | .error .error => True
  | .ok r => Kept unmarshal messages r

/-- What the translation does not repair: roles out of turn, calls whose arguments are no map,
calls of messages that others are joined to, quotes at the ends of joined texts, and results of no
earlier call. -/
structure Translatable (messages : List Message) : Prop where
  turns : Turns ((runs merges messages).filterMap runRole)
  arguments : ∀ m ∈ messages, ∀ c ∈ calls m, ArgumentsDecode unmarshal c
  joined : ∀ run ∈ runs merges messages, ∀ m ∈ run.dropLast, calls m = []
  unquoted : ∀ run ∈ runs merges messages, Unquoted run
  results : ∀ before m after, messages = before ++ m :: after → m.role = "tool" →
    m.toolCallId ∈ (before.flatMap calls).map (·.id)

variable {convertFile} {unmarshal} {messages : List Message} {s : Progress F}

/-- No run is quoted when neither those of the system nor those of the others are. -/
theorem unquoted_iff :
    (∀ run ∈ runs merges messages, Unquoted run) ↔
      (∀ run ∈ runs merges messages, (∀ m ∈ run, (m.role == "system") = true) → Unquoted run) ∧
        ∀ run ∈ runs merges messages,
          (∀ m ∈ run, (!(m.role == "system" || m.role == "tool")) = true) → Unquoted run := by
  refine ⟨fun h => ⟨fun run hrun _ => h run hrun, fun run hrun _ => h run hrun⟩, ?_⟩
  rintro ⟨hsystem, hsaid⟩ run hrun
  obtain ⟨f, -, hf⟩ : ∃ f ∈ formatMessages messages, Formatted run f := by
    have hformatted := formatted_runs messages
    obtain ⟨i, hi, rfl⟩ := List.mem_iff_getElem.1 hrun
    have hi' : i < (formatMessages messages).length := by rwa [← hformatted.length_eq]
    exact ⟨_, List.getElem_mem hi', List.forall₂_iff_get.1 hformatted |>.2 i hi hi'⟩
  by_cases hrole : f.role = "system"
  · exact hsystem run hrun fun m hm => by rw [hf.role m hm, hrole]; rfl
  by_cases htool : f.role = "tool"
  · obtain ⟨m, rfl, -⟩ := hf.tool htool
    exact ⟨fun hne => absurd rfl hne, nofun⟩
  · exact hsaid run hrun fun m hm => by simp [hf.role m hm, hrole, htool]

theorem kept_iff {tools : List Tool} {stop : List String}
    (hok : (formatMessages messages).foldlM (addMessage convertFile unmarshal) {} = .ok s) :
    Kept unmarshal messages ⟨tools, stop, s.systemMessages, s.claudeMessages⟩ ↔
      Translatable unmarshal messages := by
  have hformatted := formatted_runs messages
  have hconverted := converted_of_foldlM (formatted_quiet hformatted) hok
  have hflatten : (runs merges messages).flatten = messages := flatten_runs
  have halternates : Alternates (roles s.claudeMessages) ↔
      Turns ((runs merges messages).filterMap runRole) := by
    rw [hconverted.alternates, formatted_roles hformatted]
  have huses := formatted_uses unmarshal hformatted
  rw [hflatten, ← hconverted.uses] at huses
  have hsystem := formatted_carried (p := fun role => role == "system") hformatted
    (congrArg quotes hconverted.system) (hconverted.system ▸ carried_self _)
  have hsaid := formatted_carried (p := fun role => !(role == "system" || role == "tool"))
    hformatted hconverted.quotes hconverted.texts
  rw [hflatten] at hsystem hsaid
  have hlinked : List.Forall₂ (Uses unmarshal) (messages.flatMap calls) (uses s.claudeMessages) →
      (ResultsLinked s.claudeMessages ↔ ∀ before m after, messages = before ++ m :: after →
        m.role = "tool" → m.toolCallId ∈ (before.flatMap calls).map (·.id)) := by
    intro hall
    obtain ⟨harguments, hjoined⟩ := huses.1 hall
    have := formatted_linked unmarshal hformatted (fun run hrun f hf => by
      refine (run_uses hf).2 ⟨fun m hm => harguments m ?_, hjoined run hrun⟩
      rw [← hflatten]
      exact List.mem_flatten_of_mem hrun hm) []
    rw [hflatten] at this
    exact hconverted.linked.trans this
  constructor
  · intro hkept
    obtain ⟨harguments, hjoined⟩ := huses.1 hkept.uses
    exact {
      turns := halternates.1 hkept.alternates
      arguments := harguments
      joined := hjoined
      unquoted := unquoted_iff.2 ⟨hsystem.1 hkept.system, hsaid.1 hkept.texts⟩
      results := (hlinked hkept.uses).1 hkept.linked }
  · intro h
    have hall := huses.2 ⟨h.arguments, h.joined⟩
    obtain ⟨hunquotedSystem, hunquotedSaid⟩ := unquoted_iff.1 h.unquoted
    exact {
      alternates := halternates.2 h.turns
      uses := hall
      linked := (hlinked hall).2 h.results
      system := hsystem.2 hunquotedSystem
      texts := hsaid.2 hunquotedSaid }

variable (convertFile) (unmarshal) in
/-- A request is translated faithfully exactly when its schemas and stops are texts where they are
asserted to be and, if its files can be fetched, its messages are such that nothing is lost. -/
theorem translation_faithful_iff (request : GeneralOpenAIRequest) :
    Faithful unmarshal request.messages
        (requestOpenAI2ClaudeMessage convertFile unmarshal request) ↔
      (∀ f ∈ request.tools, TypeIsText f) ∧ StopsAreTexts request.stop ∧
        ((∀ m ∈ request.messages, FilesConvert convertFile m.role m.content) →
          Translatable unmarshal request.messages) := by
  unfold requestOpenAI2ClaudeMessage
  rcases mapM_cases convertTool_cases request.tools with ⟨⟨tools, htools⟩, htypes⟩ | ⟨hpanic, htypes⟩
  swap
  · rw [hpanic]
    exact iff_of_false id fun h => htypes h.1
  rw [htools, and_iff_right htypes]
  rcases stopSequences_cases request.stop with ⟨⟨stop, hstop⟩, htexts⟩ | ⟨hpanic, htexts⟩
  swap
  · simp only [hpanic]
    exact iff_of_false id fun h => htexts h.1
  simp only [hstop]
  rw [and_iff_right htexts]
  have hfiles := formatted_files convertFile (formatted_runs request.messages)
  rw [flatten_runs] at hfiles
  rcases @foldlM_cases _ convertFile unmarshal (formatMessages request.messages) {} with
    ⟨⟨s, hok⟩, hall⟩ | ⟨herror, hall⟩
  · rw [forall_prop_of_true (hfiles.1 hall), ← kept_iff hok]
    simp only [hok]
    rfl
  · simp only [herror]
    exact iff_of_true trivial fun h => absurd (hfiles.2 h) hall

end Faithfulness

/-- A schema that allows an object or null. -/
def nullableRequest : GeneralOpenAIRequest where
  tools := [{ name := "lookup", parameters := .obj [("type", .arr [.str "object", .str "null"])] }]
  messages := [{ role := "user", content := .str "hello" }]

theorem nullable_schema_panics :
    ¬ Faithful (F := Unit) (fun _ => none) nullableRequest.messages
      (requestOpenAI2ClaudeMessage (fun _ => none) (fun _ => none) nullableRequest) :=
  id

end CodeGo.Gateway.OpenAIToClaude
