import CodeGo.Gateway.GeminiConversion
import CodeGo.Lib.Decimal
import CodeGo.Lib.Lists

/-!
# The ids of converted calls

A conversation is a list of groups, one for each content, of calls and responses. The ids of the
calls start again in every group, so they are told apart only while one group has calls; and a
response is linked by its own group, so a call of an earlier group is never found.
-/

namespace CodeGo.Gateway.GeminiConversion

open Lib (Json)
open Lib.Lists OpenAIMessages

section Traces

variable {n m : Nat} {es pre post : List Exchange} {name : String} {t u : List (Nat × Exchange)}

theorem map_snd_number : (number n es).map Prod.snd = es := by
  induction es generalizing n with
  | nil => rfl
  | cons e es ih => cases e <;> simp [number, ih]

theorem number_append :
    number n (pre ++ post) = number n pre ++ number (n + (callNames pre).length) post := by
  induction pre generalizing n with
  | nil => rfl
  | cons e pre ih =>
    cases e with
    | call name =>
      simp only [List.cons_append, number, callNames_call, List.length_cons]
      rw [ih, Nat.add_right_comm, Nat.add_assoc n]
    | response name =>
      simp only [List.cons_append, number, callNames_response]
      rw [ih]

@[simp] theorem callsIn_append : callsIn (t ++ u) = callsIn t ++ callsIn u :=
  List.filterMap_append

@[simp] theorem repliesIn_append : repliesIn (t ++ u) = repliesIn t ++ repliesIn u :=
  List.filterMap_append

/-- The calls are numbered in their order. -/
theorem callsIn_number : callsIn (number n es) = (callNames es).zipIdx (n + 1) := by
  induction es generalizing n with
  | nil => rfl
  | cons e es ih => cases e <;> simp [number, ih]

/-- A response refers to the call before it. -/
theorem mem_repliesIn :
    m ∈ repliesIn (number n es) ↔
      ∃ pre name post, es = pre ++ .response name :: post ∧ m = n + (callNames pre).length := by
  induction es generalizing n with
  | nil => simp [number, repliesIn]
  | cons e es ih =>
    cases e with
    | call name =>
      rw [number, repliesIn_call, ih]
      constructor
      · rintro ⟨pre, name', post, rfl, rfl⟩
        refine ⟨.call name :: pre, name', post, rfl, ?_⟩
        rw [callNames_call, List.length_cons]
        omega
      · rintro ⟨pre, name', post, hsplit, rfl⟩
        cases pre with
        | nil => cases hsplit
        | cons e pre =>
          injection hsplit with he hsplit
          subst he
          refine ⟨pre, name', post, hsplit, ?_⟩
          rw [callNames_call, List.length_cons]
          omega
    | response name =>
      rw [number, repliesIn_response, List.mem_cons, ih]
      constructor
      · rintro (rfl | ⟨pre, name', post, rfl, rfl⟩)
        · exact ⟨[], name, es, rfl, rfl⟩
        · exact ⟨.response name :: pre, name', post, rfl, rfl⟩
      · rintro ⟨pre, name', post, hsplit, rfl⟩
        cases pre with
        | nil => exact .inl rfl
        | cons e pre =>
          injection hsplit with he hsplit
          subst he
          exact .inr ⟨pre, name', post, hsplit, rfl⟩

/-- Two responses of a group with a call before the first have a call between them. -/
def Apart (n : Nat) (es : List Exchange) : Prop :=
  ∀ pre first mid second post,
    es = pre ++ .response first :: (mid ++ .response second :: post) →
      n + (callNames pre).length ≠ 0 → callNames mid ≠ []

theorem apart_iff :
    (repliesIn (number n es)).Pairwise (fun a b => a ≠ 0 → a ≠ b) ↔ Apart n es := by
  induction es generalizing n with
  | nil =>
    refine iff_of_true .nil ?_
    intro pre first mid second post hsplit
    exact absurd hsplit (by simp)
  | cons e es ih =>
    cases e with
    | call name =>
      rw [number, repliesIn_call, ih]
      constructor
      · intro h pre first mid second post hsplit hn
        cases pre with
        | nil => cases hsplit
        | cons e pre =>
          injection hsplit with he hsplit
          exact h pre first mid second post hsplit (by omega)
      · intro h pre first mid second post hsplit hn
        refine h (.call name :: pre) first mid second post (by rw [hsplit]; rfl) ?_
        rw [callNames_call, List.length_cons]
        omega
    | response name =>
      rw [number, repliesIn_response, List.pairwise_cons, ih]
      constructor
      · rintro ⟨hfirst, h⟩ pre first mid second post hsplit hn
        cases pre with
        | nil =>
          injection hsplit with he hsplit
          intro hmid
          have hmem : n ∈ repliesIn (number n es) :=
            mem_repliesIn.2 ⟨mid, second, post, hsplit, by rw [hmid]; rfl⟩
          exact hfirst n hmem (by simpa [callNames] using hn) rfl
        | cons e pre =>
          injection hsplit with he hsplit
          subst he
          exact h pre first mid second post hsplit hn
      · intro h
        constructor
        · intro b hb hn hsame
          obtain ⟨mid, second, post, rfl, rfl⟩ := mem_repliesIn.1 hb
          have hmid := h [] name mid second post rfl (by simpa [callNames] using hn)
          have := List.length_pos_iff.2 hmid
          omega
        · intro pre first mid second post hsplit hn
          exact h (.response name :: pre) first mid second post (by rw [hsplit]; rfl) hn

end Traces

section Groups

/-- The conversations whose ids are told apart and linked. -/
structure Linkable (groups : List (List Exchange)) : Prop where
  /-- Only one group has calls. -/
  one_caller : groups.Pairwise fun g g' => callNames g = [] ∨ callNames g' = []
  /-- No response answers a call of an earlier group. -/
  none_later : groups.Pairwise fun g g' => ∀ name, .response name ∈ g' → name ∉ callNames g
  /-- A response that answers a call of its own group answers the last one. -/
  last_call : ∀ g ∈ groups, ∀ pre name post, g = pre ++ .response name :: post →
    name ∈ callNames pre → (callNames pre).getLast? = some name
  /-- Between two responses that follow a call there is another call. -/
  apart : ∀ g ∈ groups, Apart 0 g

/-- The whole conversation with its numbers. -/
def trace (groups : List (List Exchange)) : List (Nat × Exchange) := groups.flatMap (number 0)

variable {groups : List (List Exchange)} {pre : List Exchange} {name : String}
  {t u : List (Nat × Exchange)} {id : Nat}

theorem callsIn_trace :
    callsIn (trace groups) = groups.flatMap fun g => (callNames g).zipIdx 1 := by
  induction groups with
  | nil => rfl
  | cons g groups ih =>
    rw [trace, List.flatMap_cons, callsIn_append, callsIn_number, ← trace, ih, List.flatMap_cons]

theorem repliesIn_trace :
    repliesIn (trace groups) = groups.flatMap fun g => repliesIn (number 0 g) := by
  induction groups with
  | nil => rfl
  | cons g groups ih =>
    rw [trace, List.flatMap_cons, repliesIn_append, ← trace, ih, List.flatMap_cons]

/-- The ids are distinct exactly when one group has all the calls. -/
theorem ids_nodup_iff :
    ((callsIn (trace groups)).map Prod.snd).Nodup ↔
      groups.Pairwise fun g g' => callNames g = [] ∨ callNames g' = [] := by
  rw [callsIn_trace, List.map_flatMap, List.nodup_flatMap]
  simp only [List.zipIdx_map_snd]
  constructor
  · rintro ⟨-, h⟩
    refine h.imp fun {g g'} hdisjoint => ?_
    by_contra hboth
    rw [not_or] at hboth
    have hg := List.length_pos_iff.2 hboth.1
    have hg' := List.length_pos_iff.2 hboth.2
    exact hdisjoint (List.mem_range'_1.2 ⟨le_refl 1, by omega⟩)
      (List.mem_range'_1.2 ⟨le_refl 1, by omega⟩)
  · intro h
    refine ⟨fun g _ => List.nodup_range' _, h.imp fun {g g'} hone => ?_⟩
    rcases hone with hg | hg'
    · rw [Function.onFun_apply, hg]
      exact List.disjoint_nil_left _
    · rw [Function.onFun_apply, hg']
      exact List.disjoint_nil_right _

/-- A numbered response in a group. -/
theorem number_eq_append {n : Nat} {g : List Exchange}
    (h : number n g = t ++ (id, .response name) :: u) :
    ∃ pre post, g = pre ++ .response name :: post ∧ t = number n pre ∧
      id = n + (callNames pre).length := by
  have hg : g = t.map Prod.snd ++ .response name :: u.map Prod.snd := by
    rw [← @map_snd_number n g, h, List.map_append, List.map_cons]
  have hnumber := h
  rw [hg, number_append, number] at hnumber
  have hlength : (number n (t.map Prod.snd)).length = t.length := by
    rw [← List.length_map Prod.snd, map_snd_number, List.length_map]
  obtain ⟨ht, hrest⟩ := List.append_inj hnumber hlength
  injection hrest with hid
  injection hid with hid
  exact ⟨t.map Prod.snd, u.map Prod.snd, hg, ht.symm, hid.symm⟩

/-- A response in the conversation is a response in one of the groups. -/
theorem trace_eq_append (h : trace groups = t ++ (id, .response name) :: u) :
    ∃ before g after pre post, groups = before ++ g :: after ∧
      g = pre ++ .response name :: post ∧ t = trace before ++ number 0 pre ∧
      id = (callNames pre).length := by
  induction groups generalizing t with
  | nil => exact absurd h (by simp [trace])
  | cons g groups ih =>
    rw [trace, List.flatMap_cons, ← trace] at h
    -- the response stands behind the first group, or in it
    have hlater : ∀ rest, t = number 0 g ++ rest → trace groups = rest ++ (id, .response name) :: u →
        ∃ before g' after pre post, g :: groups = before ++ g' :: after ∧
          g' = pre ++ .response name :: post ∧ t = trace before ++ number 0 pre ∧
          id = (callNames pre).length := by
      rintro rest rfl hrest
      obtain ⟨before, g', after, pre, post, rfl, hg', rfl, hid⟩ := ih hrest
      exact ⟨g :: before, g', after, pre, post, rfl, hg',
        by rw [trace, trace, List.flatMap_cons, List.append_assoc], hid⟩
    rcases List.append_eq_append_iff.1 h with ⟨rest, ht, hrest⟩ | ⟨rest, hg, hrest⟩
    · exact hlater rest ht hrest
    · cases rest with
      | nil => exact hlater [] (by simpa using hg.symm) hrest.symm
      | cons e rest =>
        injection hrest with he hrest
        subst he
        obtain ⟨pre, post, hgroup, ht, hid⟩ := number_eq_append hg
        exact ⟨[], g, groups, pre, post, rfl, hgroup, ht, by omega⟩

/-- Every response that follows a call of its name refers to such a call. -/
def AllLinked (trace : List (Nat × Exchange)) : Prop :=
  ∀ t id name u, trace = t ++ (id, .response name) :: u →
    name ∈ (callsIn t).map Prod.fst → (name, id) ∈ callsIn t

theorem mem_callsIn_trace {name : String} :
    name ∈ (callsIn (trace groups)).map Prod.fst ↔ ∃ g ∈ groups, name ∈ callNames g := by
  rw [callsIn_trace, List.map_flatMap]
  simp only [List.zipIdx_map_fst, List.mem_flatMap]

theorem one_le_of_mem_callsIn (h : (name, id) ∈ callsIn (trace groups)) : 1 ≤ id := by
  rw [callsIn_trace] at h
  obtain ⟨g, -, hg⟩ := List.mem_flatMap.1 h
  exact (List.mem_zipIdx hg).1

/-- The last call of a group is the one its responses refer to. -/
theorem mem_zipIdx_last :
    (name, (callNames pre).length) ∈ (callNames pre).zipIdx 1 ↔
      (callNames pre).getLast? = some name := by
  rw [List.mk_mem_zipIdx_iff_le_and_getElem?_sub, List.getLast?_eq_getElem?]
  constructor
  · exact fun h => h.2
  · intro h
    have := (List.getElem?_eq_some_iff.1 h).1
    exact ⟨by omega, h⟩

/-- The links of a conversation, said of its groups. -/
theorem allLinked_groups :
    AllLinked (trace groups) ↔
      ∀ before g after, groups = before ++ g :: after → ∀ pre name post,
        g = pre ++ .response name :: post →
          (∃ g' ∈ before, name ∈ callNames g') ∨ name ∈ callNames pre →
            (name, (callNames pre).length) ∈ callsIn (trace before) ∨
              (callNames pre).getLast? = some name := by
  have hnames : ∀ before pre name, name ∈ (callsIn (trace before ++ number 0 pre)).map Prod.fst ↔
      (∃ g' ∈ before, name ∈ callNames g') ∨ name ∈ callNames pre := by
    intro before pre name
    rw [callsIn_append, List.map_append, List.mem_append, mem_callsIn_trace, callsIn_number,
      List.zipIdx_map_fst]
  have hlinks : ∀ before pre name,
      (name, (callNames pre).length) ∈ callsIn (trace before ++ number 0 pre) ↔
        (name, (callNames pre).length) ∈ callsIn (trace before) ∨
          (callNames pre).getLast? = some name := by
    intro before pre name
    rw [callsIn_append, List.mem_append, callsIn_number, mem_zipIdx_last]
  constructor
  · rintro h before g after rfl pre name post rfl hcall
    rw [← hlinks]
    refine h _ _ _ (number (callNames pre).length post ++ trace after) ?_ ((hnames ..).2 hcall)
    rw [trace, List.flatMap_append, List.flatMap_cons, number_append, number, trace, trace,
      Nat.zero_add]
    simp only [List.append_assoc, List.cons_append]
  · intro h t id name u hsplit hcall
    obtain ⟨before, g, after, pre, post, hgroups, hg, rfl, rfl⟩ := trace_eq_append hsplit
    rw [hlinks]
    exact h before g after hgroups pre name post hg ((hnames ..).1 hcall)

theorem allLinked_iff
    (hone : groups.Pairwise fun g g' => callNames g = [] ∨ callNames g' = []) :
    AllLinked (trace groups) ↔
      (groups.Pairwise fun g g' => ∀ name, .response name ∈ g' → name ∉ callNames g) ∧
        ∀ g ∈ groups, ∀ pre name post, g = pre ++ .response name :: post →
          name ∈ callNames pre → (callNames pre).getLast? = some name := by
  rw [allLinked_groups, pairwise_iff_append]
  rw [pairwise_iff_append] at hone
  constructor
  · intro h
    constructor
    · rintro before g' after hsplit g hg name hresponse hname
      obtain ⟨pre, post, rfl⟩ := List.append_of_mem hresponse
      have hnone : callNames (pre ++ .response name :: post) = [] :=
        (hone before _ after hsplit g hg).resolve_left (List.ne_nil_of_mem hname)
      have hpre : callNames pre = [] := by
        rw [callNames, List.filterMap_append] at hnone
        exact (List.append_eq_nil_iff.1 hnone).1
      rcases h before _ after hsplit pre name post rfl (.inl ⟨g, hg, hname⟩) with hearlier | hlast
      · rw [hpre] at hearlier
        exact absurd (one_le_of_mem_callsIn hearlier) (by simp)
      · rw [hpre] at hlast
        cases hlast
    · rintro g hg pre name post hsplit hname
      obtain ⟨before, after, hgroups⟩ := List.append_of_mem hg
      rcases h before g after hgroups pre name post hsplit (.inr hname) with hearlier | hlast
      · -- an earlier group with a call would be a second caller
        have hmem : name ∈ (callsIn (trace before)).map Prod.fst :=
          List.mem_map.2 ⟨_, hearlier, rfl⟩
        obtain ⟨g', hg', hname'⟩ := mem_callsIn_trace.1 hmem
        rcases hone before g after hgroups g' hg' with hnone | hnone
        · exact absurd hnone (List.ne_nil_of_mem hname')
        · rw [hsplit, callNames, List.filterMap_append] at hnone
          exact absurd (List.append_eq_nil_iff.1 hnone).1 (List.ne_nil_of_mem hname)
      · exact hlast
  · rintro ⟨hlater, hlast⟩ before g after hgroups pre name post hsplit hcall
    rcases hcall with ⟨g', hg', hname⟩ | hname
    · exact absurd hname (hlater before g after hgroups g' hg' name (by rw [hsplit]; simp))
    · exact .inr (hlast g (by rw [hgroups]; simp) pre name post hsplit hname)

/-- No two responses refer to the same call. -/
def Unshared (trace : List (Nat × Exchange)) : Prop :=
  (repliesIn trace).Pairwise fun a b => a ∈ (callsIn trace).map Prod.snd → a ≠ b

theorem mem_ids_iff {g : List Exchange} (hg : g ∈ groups) (hid : id ≤ (callNames g).length) :
    id ∈ (callsIn (trace groups)).map Prod.snd ↔ id ≠ 0 := by
  rw [callsIn_trace, List.map_flatMap]
  simp only [List.zipIdx_map_snd, List.mem_flatMap, List.mem_range'_1]
  constructor
  · rintro ⟨g', -, hlow, -⟩
    omega
  · intro hne
    exact ⟨g, hg, by omega, by omega⟩

theorem reply_le {g : List Exchange} (h : id ∈ repliesIn (number 0 g)) :
    id ≤ (callNames g).length := by
  obtain ⟨pre, name, post, rfl, rfl⟩ := mem_repliesIn.1 h
  rw [callNames, callNames, List.filterMap_append, List.length_append]
  omega

theorem unshared_iff
    (hone : groups.Pairwise fun g g' => callNames g = [] ∨ callNames g' = []) :
    Unshared (trace groups) ↔ ∀ g ∈ groups, Apart 0 g := by
  rw [Unshared, repliesIn_trace, List.pairwise_flatMap]
  have hgroup : ∀ g ∈ groups, ((repliesIn (number 0 g)).Pairwise fun a b =>
      a ∈ (callsIn (trace groups)).map Prod.snd → a ≠ b) ↔ Apart 0 g := by
    intro g hg
    rw [← apart_iff]
    apply List.Pairwise.iff_of_mem
    intro a b ha hb
    rw [mem_ids_iff hg (reply_le ha)]
  constructor
  · exact fun h g hg => (hgroup g hg).1 (h.1 g hg)
  · intro h
    refine ⟨fun g hg => (hgroup g hg).2 (h g hg), hone.imp_of_mem ?_⟩
    rintro g g' hg hg' hone a ha b hb hcall rfl
    have hlow := (mem_ids_iff hg (reply_le ha)).1 hcall
    rcases hone with hnone | hnone
    · have := reply_le ha
      rw [hnone, List.length_nil] at this
      omega
    · have := reply_le hb
      rw [hnone, List.length_nil] at this
      omega

/-- The numbers serve their purpose exactly on linkable conversations. -/
theorem linkable_iff :
    (((callsIn (trace groups)).map Prod.snd).Nodup ∧ AllLinked (trace groups) ∧
      Unshared (trace groups)) ↔ Linkable groups := by
  constructor
  · rintro ⟨hnodup, hlinked, hunshared⟩
    have hone := ids_nodup_iff.1 hnodup
    obtain ⟨hlater, hlast⟩ := (allLinked_iff hone).1 hlinked
    exact ⟨hone, hlater, hlast, (unshared_iff hone).1 hunshared⟩
  · intro h
    exact ⟨ids_nodup_iff.2 h.one_caller,
      (allLinked_iff h.one_caller).2 ⟨h.none_later, h.last_call⟩,
      (unshared_iff h.one_caller).2 h.apart⟩

end Groups

/-- Each response, in the order of the conversation, has the id of a call before it with its name
when there is one. -/
def Linked (es : List Exchange) (calls : List (String × String)) (replies : List String) : Prop :=
  ∀ pre name post, es = pre ++ .response name :: post →
    ∀ id, replies[(responseNames pre).length]? = some id →
      name ∈ (calls.take (callNames pre).length).map Prod.fst →
        (name, id) ∈ calls.take (callNames pre).length

/-- What the conversion of a request is to do. -/
def Faithful (request : GeminiChatRequest) (result : Option GeneralOpenAIRequest) : Prop :=
  ∃ r, result = some r ∧
    r.stop.getD [] = request.generationConfig.stopSequences.items.take 4 ∧
    ((toolCalls r.messages).map (·.id)).Nodup ∧
    Linked (request.contents.flatMap exchanges) (issued (toolCalls r.messages))
      ((toolMessages r.messages).map (·.toolCallId)) ∧
    (toolMessages r.messages).Pairwise fun a b =>
      a.toolCallId ∈ (toolCalls r.messages).map (·.id) → a.toolCallId ≠ b.toolCallId

/-- The tools are no array with an element that is neither an object nor null. -/
def ToolsDecode (tools : Option Json) : Prop :=
  ∀ items, tools = some (.arr items) → ∀ tool ∈ items, (decodeTool tool).isSome

theorem callId_injective : Function.Injective callId := by
  intro a b h
  have hlist := congrArg String.toList (Lib.Trim.append_inj_left h)
  rw [show toString a = a.repr from rfl, show toString b = b.repr from rfl, Nat.toList_repr,
    Nat.toList_repr] at hlist
  exact Lib.Decimal.toDigits_injective hlist

theorem getTools_isSome_iff (tools : Option Json) : (getTools tools).isSome ↔ ToolsDecode tools := by
  have hmap : ∀ items : List Json,
      (items.mapM decodeTool).isSome ↔ ∀ tool ∈ items, (decodeTool tool).isSome := by
    intro items
    induction items with
    | nil => simp
    | cons item items ih =>
      rw [List.mapM_cons, List.forall_mem_cons, ← ih]
      cases decodeTool item with
      | none => simp
      | some tool => cases items.mapM decodeTool <;> simp
  unfold getTools ToolsDecode
  split
  next items => simp [hmap]
  next members => simp
  next hno _ => simp_all

theorem upTo_four_iff (s : Slice) :
    s.upTo 4 = some (s.items.take 4) ↔ 4 ≤ s.items.length := by
  unfold Slice.upTo
  constructor
  · intro h
    split at h
    next hfits =>
      have hlength := congrArg List.length (Option.some.inj h)
      simp only [List.length_take, List.length_append, List.length_replicate] at hlength
      omega
    next => cases h
  · intro h
    rw [if_pos (by omega), List.take_append_of_le_length h]

theorem length_callNames (t : List (Nat × Exchange)) :
    (callNames (t.map Prod.snd)).length = (callsIn t).length := by
  induction t with
  | nil => rfl
  | cons e t ih => rcases e with ⟨n, name | name⟩ <;> simp [ih]

theorem length_responseNames (t : List (Nat × Exchange)) :
    (responseNames (t.map Prod.snd)).length = (repliesIn t).length := by
  induction t with
  | nil => rfl
  | cons e t ih =>
    rcases e with ⟨n, name | name⟩
    · exact ih
    · simpa [responseNames] using ih

/-- The links of the ids are the links of the numbers. -/
theorem linked_iff (t : List (Nat × Exchange)) :
    Linked (t.map Prod.snd) (named (callsIn t)) ((repliesIn t).map callId) ↔ AllLinked t := by
  have hnamed : ∀ (u : List (String × Nat)) name,
      name ∈ (named u).map Prod.fst ↔ name ∈ u.map Prod.fst := by
    intro u name
    rw [named, List.map_map]
    rfl
  have hid : ∀ (u : List (String × Nat)) name id,
      (name, callId id) ∈ named u ↔ (name, id) ∈ u := by
    intro u name id
    constructor
    · intro h
      obtain ⟨c, hc, heq⟩ := List.mem_map.1 h
      injection heq with hname hcall
      rw [← hname, ← callId_injective hcall]
      exact hc
    · exact fun h => List.mem_map.2 ⟨_, h, rfl⟩
  -- at a response the calls and the replies before it are those of the trace before it
  have hbefore : ∀ u id name v, t = u ++ (id, .response name) :: v →
      (named (callsIn t)).take (callNames (u.map Prod.snd)).length = named (callsIn u) ∧
        ((repliesIn t).map callId)[(responseNames (u.map Prod.snd)).length]? = some (callId id) := by
    rintro u id name v rfl
    rw [length_callNames, length_responseNames]
    constructor
    · rw [callsIn_append, named, List.map_append, List.take_append_of_le_length (by simp)]
      exact List.take_of_length_le (by simp)
    · simp
  constructor
  · intro h u id name v hsplit hcall
    obtain ⟨hcalls, hreply⟩ := hbefore u id name v hsplit
    have := h (u.map Prod.snd) name (v.map Prod.snd) (by rw [hsplit]; simp) _ hreply
    rw [hcalls, hnamed, hid] at this
    exact this hcall
  · intro h pre name post hsplit id hreply hcall
    obtain ⟨u, w, rfl, rfl, hw⟩ := List.map_eq_append_iff.1 hsplit
    obtain ⟨e, v, rfl, he, rfl⟩ := List.map_eq_cons_iff.1 hw
    obtain ⟨n, e⟩ := e
    cases he
    obtain ⟨hcalls, hreply'⟩ := hbefore u n name v rfl
    rw [hreply'] at hreply
    injection hreply with hreply
    subst hreply
    rw [hcalls] at hcall ⊢
    rw [hnamed] at hcall
    rw [hid]
    exact h u n name v rfl hcall

/-- The messages of a conversation carry the numbers of its trace. -/
theorem messages_trace (contents : List GeminiChatContent) :
    issued (toolCalls (contents.flatMap contentMessages)) =
        named (callsIn (trace (contents.map exchanges))) ∧
      (toolMessages (contents.flatMap contentMessages)).map (·.toolCallId) =
        (repliesIn (trace (contents.map exchanges))).map callId := by
  induction contents with
  | nil => exact ⟨rfl, rfl⟩
  | cons content contents ih =>
    obtain ⟨hcalls, hreplies⟩ := contentMessages_trace content
    have htrace : trace ((content :: contents).map exchanges) =
        contentTrace content ++ trace (contents.map exchanges) := rfl
    rw [htrace, callsIn_append, repliesIn_append, List.flatMap_cons]
    constructor
    · rw [toolCalls, List.flatMap_append, ← toolCalls, ← toolCalls, issued, List.map_append,
        ← issued, ← issued, hcalls, ih.1, named, named, named, List.map_append]
    · rw [toolMessages, List.filter_append, ← toolMessages, ← toolMessages, List.map_append,
        hreplies, ih.2, List.map_append]

theorem map_snd_trace (groups : List (List Exchange)) :
    (trace groups).map Prod.snd = groups.flatten := by
  induction groups with
  | nil => rfl
  | cons g groups ih =>
    rw [trace, List.flatMap_cons, List.map_append, map_snd_number, ← trace, ih, List.flatten_cons]

/-- What is asked of the messages is what is asked of the conversation. -/
theorem messages_iff {messages : List Message} {groups : List (List Exchange)}
    (hcalls : issued (toolCalls messages) = named (callsIn (trace groups)))
    (hreplies : (toolMessages messages).map (·.toolCallId) =
      (repliesIn (trace groups)).map callId) :
    (((toolCalls messages).map (·.id)).Nodup ∧
      Linked groups.flatten (issued (toolCalls messages))
        ((toolMessages messages).map (·.toolCallId)) ∧
      (toolMessages messages).Pairwise fun a b =>
        a.toolCallId ∈ (toolCalls messages).map (·.id) → a.toolCallId ≠ b.toolCallId) ↔
      Linkable groups := by
  have hids : (toolCalls messages).map (·.id) =
      ((callsIn (trace groups)).map Prod.snd).map callId := by
    have := congrArg (List.map Prod.snd) hcalls
    simpa [issued, named, List.map_map, Function.comp_def] using this
  have hmem : ∀ n, callId n ∈ ((callsIn (trace groups)).map Prod.snd).map callId ↔
      n ∈ (callsIn (trace groups)).map Prod.snd := fun n =>
    List.mem_map_of_injective callId_injective
  have hunshared : ((toolMessages messages).Pairwise fun a b =>
      a.toolCallId ∈ (toolCalls messages).map (·.id) → a.toolCallId ≠ b.toolCallId) ↔
        Unshared (trace groups) := by
    have hreplied : ((toolMessages messages).Pairwise fun a b =>
        a.toolCallId ∈ (toolCalls messages).map (·.id) → a.toolCallId ≠ b.toolCallId) ↔
          ((toolMessages messages).map (·.toolCallId)).Pairwise fun a b =>
            a ∈ (toolCalls messages).map (·.id) → a ≠ b := by
      rw [List.pairwise_map]
    rw [hreplied, hreplies, hids, List.pairwise_map, Unshared]
    apply iff_of_eq
    congr 1
    funext a b
    rw [hmem, callId_injective.ne_iff]
  rw [hunshared, hcalls, hreplies, hids, List.nodup_map_iff callId_injective, ← map_snd_trace,
    linked_iff, linkable_iff]

/-- The system message has no part in the calls. -/
theorem withInstructions (instructions : Option GeminiChatContent) (messages : List Message) :
    toolCalls (withSystem instructions messages) = toolCalls messages ∧
      toolMessages (withSystem instructions messages) = toolMessages messages := by
  unfold withSystem
  split
  · constructor
    · rw [toolCalls, List.flatMap_cons, List.nil_append, ← toolCalls]
    · rw [toolMessages, List.filter_cons_of_neg (by simp), ← toolMessages]
  · exact ⟨rfl, rfl⟩

/-- The conversion does what it is to do exactly when there are no stop sequences or at least four,
the tools can be decoded, and the conversation is linkable. -/
theorem gemini_faithful_iff (request : GeminiChatRequest) (info : RelayInfo) :
    Faithful request (geminiToOpenAIRequest request info) ↔
      (request.generationConfig.stopSequences.items = [] ∨
        4 ≤ request.generationConfig.stopSequences.items.length) ∧
      ToolsDecode request.tools ∧ Linkable (request.contents.map exchanges) := by
  have hmessages := @messages_iff
    (withSystem request.systemInstructions (request.contents.flatMap contentMessages))
    (request.contents.map exchanges)
    (by rw [(withInstructions _ _).1, (messages_trace request.contents).1])
    (by rw [(withInstructions _ _).2, (messages_trace request.contents).2])
  rw [← List.flatMap_def] at hmessages
  rw [← getTools_isSome_iff, ← hmessages]
  unfold Faithful geminiToOpenAIRequest
  simp only [Option.bind_eq_bind]
  generalize request.generationConfig.stopSequences = stops
  by_cases hempty : stops.items = []
  · rw [if_neg (not_not.2 hempty)]
    cases getTools request.tools with
    | none => simp
    | some tools => simp [hempty]
  · rw [if_pos hempty]
    cases hstop : stops.upTo 4 with
    | none =>
      have : ¬ 4 ≤ stops.items.length := by
        rw [← upTo_four_iff, hstop]
        exact nofun
      simp [hempty, this]
    | some stop =>
      have : stop = stops.items.take 4 ↔ 4 ≤ stops.items.length := by
        rw [← upTo_four_iff, hstop, Option.some.injEq]
      cases getTools request.tools with
      | none => simp
      | some tools => simp [hempty, this]

/-- A function is called, and its response comes in the next content. -/
def weatherRequest : GeminiChatRequest :=
  { contents :=
      [{ role := "user", parts := [{ text := "weather?" }] },
       { role := "model", parts := [{ functionCall := some ⟨"get_weather", .obj []⟩ }] },
       { role := "user", parts := [{ functionResponse := some ⟨"get_weather", .obj []⟩ }] }] }

/-- The response refers to a call 0, which there never is. -/
theorem weather_response_unlinked :
    ¬ Faithful weatherRequest (geminiToOpenAIRequest weatherRequest ⟨"gpt", false⟩) := by
  rintro ⟨r, hr, -, -, hlinked, -⟩
  have hcalls : issued (toolCalls r.messages) = [("get_weather", "call_1")] := by
    rw [← Option.some.inj hr]
    decide
  have hreplies : (toolMessages r.messages).map (·.toolCallId) = ["call_0"] := by
    rw [← Option.some.inj hr]
    decide
  rw [hcalls, hreplies] at hlinked
  have := hlinked [.call "get_weather"] "get_weather" [] (by decide) "call_0" rfl (by decide)
  exact absurd this (by decide)

end CodeGo.Gateway.GeminiConversion
