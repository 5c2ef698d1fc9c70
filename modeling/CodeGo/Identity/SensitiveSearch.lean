import CodeGo.Identity.SensitiveAc
import Mathlib.Data.List.Nodup

/-!
# The search for sensitive words

A text is read along the trie of a matcher and its fail links. Matchers are kept under the joined
words of their lists.
-/

namespace CodeGo.Identity.SensitiveAc

open Lib.SuffixLinks

section Search

variable {words : List (List Char)} {nodes : Nodes} {s p : Path} {r : Char} {limit : Nat}

/-- The runes that were read lead on from the longest suffix of them that has a child for the next. -/
theorem descend_eq (hm : Matcher words nodes) (hp : isNode words p = true)
    (hlimit : p.length + 1 ≤ limit) :
    descend nodes r limit p =
      some (((suffixes (isNode words) p).find? fun q => isNode words (q ++ [r])).getD []) := by
  have hclosed := closed_isNode words
  induction limit generalizing p with
  | zero => omega
  | succ limit ih =>
    rw [descend]
    by_cases hne : p = []
    · rw [if_neg (fun h => h.1 hne), hne, suffixes_nil hclosed, List.find?_cons]
      cases isNode words ([] ++ [r]) <;> rfl
    · rw [suffixes_of_node hclosed hp hne, List.find?_cons]
      by_cases hr : r ∈ (nodes p).children
      · rw [if_neg (fun h => h.2 hr), (hm.children p r).1 hr]
        rfl
      · have hchild : isNode words (p ++ [r]) = false :=
          Bool.eq_false_iff.2 fun hc => hr ((hm.children p r).2 hc)
        have hshort := length_link hclosed hne
        rw [if_pos ⟨hne, hr⟩, hm.linked p hp hne, hchild]
        exact ih (node_link hclosed) (by omega)

/-- The words that end at the end of what was read, longest first. -/
def wordsAt (words : List (List Char)) (s : Path) : List (List Char) :=
  (suffixes (isNode words) s).filter fun w => decide (w ∈ words ∧ w ≠ [])

def hitsAt (words : List (List Char)) (s : Path) : List AcHit :=
  (wordsAt words s).map fun w => ⟨s.length - w.length, w⟩

/-- All hits, or the first. -/
def asked (returnImmediately : Bool) (hits : List AcHit) : List AcHit :=
  if returnImmediately then hits.take 1 else hits

theorem collect_eq (hm : Matcher words nodes) (hp : isNode words p = true)
    (hlimit : p.length + 1 ≤ limit) (i : Int) (returnImmediately : Bool) :
    collect nodes i returnImmediately limit (some p) =
      some (asked returnImmediately
        ((wordsAt words p).map fun w => ⟨i - w.length + 1, w⟩)) := by
  have hclosed := closed_isNode words
  induction limit generalizing p with
  | zero => omega
  | succ limit ih =>
    rw [collect]
    by_cases hne : p = []
    · rw [if_pos hne, hne, wordsAt, suffixes_nil hclosed]
      cases returnImmediately <;> simp [asked]
    · have hshort := length_link hclosed hne
      have hrest := ih (p := link (isNode words) p) (node_link hclosed) (by omega)
      have hsame : wordsAt words (link (isNode words) p) =
          (suffixes (isNode words) (link (isNode words) p)).filter
            fun w => decide (w ∈ words ∧ w ≠ []) := rfl
      rw [if_neg hne, hm.linked p hp hne, wordsAt, suffixes_of_node hclosed hp hne, List.filter_cons,
        ← hsame]
      by_cases hend : (nodes p).isEnd = true
      · obtain ⟨hw, -⟩ := (hm.ends p).1 hend
        rw [if_pos hend, if_pos (decide_eq_true ⟨hw, hne⟩), hm.spelled p hw hne]
        cases returnImmediately
        · rw [hrest]
          rfl
        · rfl
      · have hword : ¬ (p ∈ words ∧ p ≠ []) := fun h => hend ((hm.ends p).2 h)
        rw [if_neg hend, if_neg (by simpa using hword), hrest]

/-- The hits of the rest of a text, after what was read. -/
def hitsFrom (words : List (List Char)) (s : Path) : List Char → List AcHit
  | [] => []
  | r :: text => hitsAt words (s ++ [r]) ++ hitsFrom words (s ++ [r]) text

theorem asked_append (returnImmediately : Bool) (hits hits' : List AcHit) :
    asked returnImmediately (hits ++ hits') =
      if returnImmediately = true ∧ asked returnImmediately hits ≠ [] then asked returnImmediately hits
      else asked returnImmediately hits ++ asked returnImmediately hits' := by
  cases returnImmediately
  · simp [asked]
  · cases hits <;> simp [asked]

theorem wordsAt_longest : wordsAt words (longest (isNode words) s) = wordsAt words s := by
  rw [wordsAt, suffixes_longest (closed_isNode words), wordsAt]

/-- The search keeps the longest suffix of what it read that is in the trie. -/
theorem searchFrom_eq (hm : Matcher words nodes) (returnImmediately : Bool) (text : List Char)
    (hlimit : s.length + text.length + 2 ≤ limit) :
    searchFrom nodes returnImmediately limit s.length (longest (isNode words) s) text =
      some (asked returnImmediately (hitsFrom words s text)) := by
  have hclosed := closed_isNode words
  induction text generalizing s with
  | nil => cases returnImmediately <;> rfl
  | cons r text ih =>
    rw [List.length_cons] at hlimit
    have hshort := (longest_suffix hclosed (s := s)).length_le
    have hdescend : descend nodes r limit (longest (isNode words) s) =
        some (((suffixes (isNode words) s).find? fun q => isNode words (q ++ [r])).getD []) := by
      rw [descend_eq hm (node_longest hclosed) (by omega), suffixes_longest hclosed]
    have hnext : (if r ∈ (nodes
          (((suffixes (isNode words) s).find? fun q => isNode words (q ++ [r])).getD [])).children then
        (((suffixes (isNode words) s).find? fun q => isNode words (q ++ [r])).getD []) ++ [r]
        else (((suffixes (isNode words) s).find? fun q => isNode words (q ++ [r])).getD [])) =
        longest (isNode words) (s ++ [r]) := by
      rw [longest_concat hclosed]
      cases hfind : (suffixes (isNode words) s).find? fun q => isNode words (q ++ [r]) with
      | some q =>
        have hq := List.find?_some hfind
        exact if_pos ((hm.children q r).2 hq)
      | none =>
        have hroot := List.find?_eq_none.1 hfind [] (mem_suffixes.2 ⟨List.nil_suffix, rfl⟩)
        exact if_neg fun hr => hroot ((hm.children [] r).1 hr)
    have hlength : (longest (isNode words) (s ++ [r])).length ≤ s.length + 1 := by
      have := (longest_suffix hclosed (s := s ++ [r])).length_le
      rwa [List.length_append, List.length_singleton] at this
    have hcollect : collect nodes s.length returnImmediately limit
        (some (longest (isNode words) (s ++ [r]))) =
        some (asked returnImmediately (hitsAt words (s ++ [r]))) := by
      rw [collect_eq hm (node_longest hclosed) (by omega), wordsAt_longest, hitsAt]
      congr 2
      apply List.map_congr_left
      intro w _
      rw [List.length_append, List.length_singleton]
      congr 1
      omega
    have hrest := ih (s := s ++ [r]) (by rw [List.length_append, List.length_singleton]; omega)
    rw [List.length_append, List.length_singleton] at hrest
    rw [searchFrom, hdescend, Option.bind_eq_bind, Option.bind_some]
    dsimp only
    rw [hnext, hcollect, Option.bind_eq_bind, Option.bind_some, hitsFrom, asked_append]
    by_cases hstop : returnImmediately = true ∧ asked returnImmediately (hitsAt words (s ++ [r])) ≠ []
    · rw [if_pos hstop, if_pos hstop]
    · rw [if_neg hstop, if_neg hstop]
      have hcast : ((s.length : Int) + 1) = ((s.length + 1 : Nat) : Int) := by omega
      rw [hcast, hrest]
      rfl

theorem multiPatternSearch_eq (hm : Matcher words nodes) (text : List Char)
    (returnImmediately : Bool) :
    multiPatternSearch nodes text returnImmediately =
      some (asked returnImmediately (hitsFrom words [] text)) := by
  have hroot : longest (isNode words) [] = [] := by
    rw [longest, suffixes_nil (closed_isNode words)]
    rfl
  have hrun : searchFrom nodes returnImmediately (text.length + 2) 0 (longest (isNode words) []) text =
      some (asked returnImmediately (hitsFrom words [] text)) :=
    searchFrom_eq (s := []) hm returnImmediately text (by simp)
  rwa [hroot] at hrun

end Search

section Hits

variable {words : List (List Char)} {s : Path} {hit : AcHit}

theorem mem_wordsAt {w : List Char} : w ∈ wordsAt words s ↔ w ∈ words ∧ w ≠ [] ∧ w <:+ s := by
  rw [wordsAt, List.mem_filter, mem_suffixes, decide_eq_true_iff]
  constructor
  · rintro ⟨⟨hsuffix, -⟩, hw, hne⟩
    exact ⟨hw, hne, hsuffix⟩
  · rintro ⟨hw, hne, hsuffix⟩
    exact ⟨⟨hsuffix, isNode_iff.2 (.inr ⟨w, hw, List.prefix_refl w⟩)⟩, hw, hne⟩

theorem mem_hitsAt : hit ∈ hitsAt words s ↔
    hit.word ∈ words ∧ hit.word ≠ [] ∧ hit.word <:+ s ∧ hit.pos = s.length - hit.word.length := by
  rw [hitsAt, List.mem_map]
  constructor
  · rintro ⟨w, hw, rfl⟩
    obtain ⟨hw, hne, hsuffix⟩ := mem_wordsAt.1 hw
    exact ⟨hw, hne, hsuffix, rfl⟩
  · rintro ⟨hw, hne, hsuffix, hpos⟩
    exact ⟨hit.word, mem_wordsAt.2 ⟨hw, hne, hsuffix⟩, by rw [← hpos]⟩

/-- The hits are the words that end after one more of the runes. -/
theorem mem_hitsFrom {text : List Char} : hit ∈ hitsFrom words s text ↔
    hit.word ∈ words ∧ hit.word ≠ [] ∧ ∃ u v, text = u ++ v ∧ u ≠ [] ∧ hit.word <:+ s ++ u ∧
      hit.pos = (s ++ u).length - hit.word.length := by
  induction text generalizing s with
  | nil =>
    constructor
    · intro h
      cases h
    · rintro ⟨-, -, u, v, htext, hne, -⟩
      exact absurd (List.append_eq_nil_iff.1 htext.symm).1 hne
  | cons r text ih =>
    rw [hitsFrom, List.mem_append, mem_hitsAt, ih]
    constructor
    · rintro (⟨hw, hne, hsuffix, hpos⟩ | ⟨hw, hne, u, v, rfl, hu, hsuffix, hpos⟩)
      · exact ⟨hw, hne, [r], text, rfl, List.cons_ne_nil _ _, hsuffix, hpos⟩
      · rw [List.append_assoc, List.singleton_append] at hsuffix hpos
        exact ⟨hw, hne, r :: u, v, rfl, List.cons_ne_nil _ _, hsuffix, hpos⟩
    · rintro ⟨hw, hne, u, v, htext, hu, hsuffix, hpos⟩
      cases u with
      | nil => exact absurd rfl hu
      | cons a u =>
        rw [List.cons_append, List.cons.injEq] at htext
        obtain ⟨rfl, rfl⟩ := htext
        cases u with
        | nil => exact .inl ⟨hw, hne, hsuffix, hpos⟩
        | cons b u =>
          rw [List.append_cons] at hsuffix hpos
          exact .inr ⟨hw, hne, b :: u, v, rfl, List.cons_ne_nil _ _, hsuffix, hpos⟩

/-- The hits of a whole text are the occurrences of the words in it. -/
theorem mem_hits {text : List Char} : hit ∈ hitsFrom words [] text ↔
    hit.word ∈ words ∧ hit.word ≠ [] ∧
      ∃ before after, text = before ++ hit.word ++ after ∧ hit.pos = before.length := by
  rw [mem_hitsFrom]
  apply and_congr_right
  intro _
  apply and_congr_right
  intro hne
  constructor
  · rintro ⟨u, v, rfl, -, ⟨before, rfl⟩, hpos⟩
    refine ⟨before, v, rfl, ?_⟩
    rw [List.nil_append, List.length_append] at hpos
    omega
  · rintro ⟨before, after, rfl, hpos⟩
    refine ⟨before ++ hit.word, after, rfl, by simp [hne], List.suffix_append _ _, ?_⟩
    rw [List.nil_append, List.length_append]
    omega

theorem nodup_hitsFrom (text : List Char) : (hitsFrom words s text).Nodup := by
  induction text generalizing s with
  | nil => exact List.nodup_nil
  | cons r text ih =>
    rw [hitsFrom, List.nodup_append]
    refine ⟨?_, ih, ?_⟩
    · apply List.Nodup.map_on
      · intro w _ v _ heq
        exact (AcHit.mk.inj heq).2
      · exact List.Pairwise.filter _ nodup_suffixes
    · -- a hit tells where it ends
      rintro a ha b hb rfl
      obtain ⟨-, -, -, hpos⟩ := mem_hitsAt.1 ha
      obtain ⟨-, -, u, v, -, hu, -, hpos'⟩ := mem_hitsFrom.1 hb
      have := List.length_pos_iff.2 hu
      rw [List.length_append] at hpos'
      omega

/-- A text has a hit when one of the words is in it. -/
theorem hits_ne_nil_iff {text : List Char} :
    hitsFrom words [] text ≠ [] ↔ ∃ w ∈ words, w ≠ [] ∧ w <:+: text := by
  constructor
  · intro hhits
    obtain ⟨hit, hmem⟩ := List.exists_mem_of_ne_nil _ hhits
    obtain ⟨hw, hne, before, after, htext, -⟩ := mem_hits.1 hmem
    exact ⟨hit.word, hw, hne, before, after, htext.symm⟩
  · rintro ⟨w, hw, hne, before, after, htext⟩
    have hmem : (⟨before.length, w⟩ : AcHit) ∈ hitsFrom words [] text :=
      mem_hits.2 ⟨hw, hne, before, after, htext.symm, rfl⟩
    exact List.ne_nil_of_mem hmem

end Hits

section Cached

/-- The words to be found: lower-cased, trimmed and not empty. -/
def needles (toLower : Char → Char) (words : List (List Char)) : List (List Char) :=
  (words.map (lowerString toLower)).filter fun w => decide (w ≠ [])

/-- No word has the rune that a key of the cache joins words with. -/
def Separable (words : List (List Char)) : Prop := ∀ w ∈ words, Char.ofNat 0 ∉ w

/-- A call of `AcSearchLower`. -/
structure Call where
  order : MapOrder
  text : List Char
  words : List (List Char)

/-- The calls of a run, one after the other over the shared cache. -/
def searches (toLower : Char → Char) : List Call → Cache → Option (List (Bool × List (List Char)) × Cache)
  | [], cache => some ([], cache)
  | call :: calls, cache => do
    let first ← acSearchLower toLower call.order cache call.text call.words
    let others ← searches toLower calls first.2
    some (first.1 :: others.1, others.2)

/-- A call reports a hit exactly when one of its words is in its text. -/
def Reported (toLower : Char → Char) (call : Call) (result : Bool × List (List Char)) : Prop :=
  result.1 = true ↔ ∃ w ∈ needles toLower call.words, w <:+: lowerString toLower call.text

variable {toLower : Char → Char} {words words' : List (List Char)} {cache : Cache}

/-- Each kept matcher is one for the lists that its key stands for. -/
def Kept (toLower : Char → Char) (cache : Cache) : Prop :=
  ∀ words, Separable words → ∀ nodes, cache (cacheKey words) = some nodes →
    Matcher (words.map (lowerString toLower)) nodes

theorem lowerString_nil : lowerString toLower [] = [] := rfl

theorem isNode_congr (h : ∀ w, w ≠ [] → (w ∈ words ↔ w ∈ words')) : isNode words = isNode words' := by
  funext q
  rw [Bool.eq_iff_iff, isNode_iff, isNode_iff]
  by_cases hq : q = []
  · simp [hq]
  · simp only [hq, false_or]
    have hne (w : List Char) (hw : q <+: w) : w ≠ [] := by
      rintro rfl
      exact hq (List.prefix_nil.1 hw)
    constructor
    · rintro ⟨w, hw, hprefix⟩
      exact ⟨w, (h w (hne w hprefix)).1 hw, hprefix⟩
    · rintro ⟨w, hw, hprefix⟩
      exact ⟨w, (h w (hne w hprefix)).2 hw, hprefix⟩

/-- Empty words do not matter for a matcher. -/
theorem Matcher.congr {nodes : Nodes} (hm : Matcher words nodes)
    (h : ∀ w, w ≠ [] → (w ∈ words ↔ w ∈ words')) : Matcher words' nodes := by
  have hnode := isNode_congr h
  refine ⟨?_, ?_, ?_, ?_⟩
  · rw [← hnode]
    exact hm.children
  · intro q
    rw [hm.ends]
    constructor
    · rintro ⟨hq, hne⟩
      exact ⟨(h q hne).1 hq, hne⟩
    · rintro ⟨hq, hne⟩
      exact ⟨(h q hne).2 hq, hne⟩
  · intro q hq hne
    exact hm.spelled q ((h q hne).2 hq) hne
  · rw [← hnode]
    exact hm.linked

/-- A key tells the list of words, but for the empty list and the list of an empty word. -/
theorem eq_of_cacheKey (hw : Separable words) (hw' : Separable words')
    (h : cacheKey words = cacheKey words') :
    words = words' ∨ (words = [] ∨ words = [[]]) ∧ (words' = [] ∨ words' = [[]]) := by
  have hsplit (ws : List (List Char)) (hws : Separable ws) (hne : ws ≠ []) :
      (cacheKey ws).splitOn (Char.ofNat 0) = ws := List.splitOn_intercalate _ hws hne
  have hempty (ws : List (List Char)) (hws : Separable ws) (hkey : cacheKey ws = []) :
      ws = [] ∨ ws = [[]] := by
    by_cases hne : ws = []
    · exact .inl hne
    · have := hsplit ws hws hne
      rw [hkey, List.splitOn_nil] at this
      exact .inr this.symm
  by_cases hne : words = []
  · exact .inr ⟨.inl hne, hempty words' hw' (by rw [← h, hne]; rfl)⟩
  · by_cases hne' : words' = []
    · exact .inr ⟨hempty words hw (by rw [h, hne']; rfl), .inl hne'⟩
    · rw [← hsplit words hw hne, h, hsplit words' hw' hne']
      exact .inl rfl

theorem matcher_of_cacheKey (hw : Separable words) (hw' : Separable words')
    (h : cacheKey words = cacheKey words') {nodes : Nodes}
    (hm : Matcher (words.map (lowerString toLower)) nodes) :
    Matcher (words'.map (lowerString toLower)) nodes := by
  rcases eq_of_cacheKey hw hw' h with rfl | ⟨hwords, hwords'⟩
  · exact hm
  · apply hm.congr
    intro w hne
    rcases hwords with rfl | rfl <;> rcases hwords' with rfl | rfl <;> simp [lowerString_nil, hne]

theorem getOrBuildIdentityAC_eq (hcache : Kept toLower cache) (hw : Separable words) (order : MapOrder) :
    ∃ nodes cache', getOrBuildIdentityAC toLower order cache words = some (nodes, cache') ∧
      Matcher (words.map (lowerString toLower)) nodes ∧ Kept toLower cache' := by
  rw [getOrBuildIdentityAC]
  cases hfound : cache (cacheKey words) with
  | some nodes => exact ⟨nodes, cache, rfl, hcache words hw nodes hfound, hcache⟩
  | none =>
    obtain ⟨nodes, hbuild, hm⟩ := buildIdentityAC_eq toLower order words
    refine ⟨nodes, _, by rw [hbuild]; rfl, hm, ?_⟩
    intro words' hw' nodes' hkept
    rw [Function.update_apply] at hkept
    split at hkept
    · next hkey =>
      rw [← Option.some.inj hkept]
      exact matcher_of_cacheKey hw hw' hkey.symm hm
    · exact hcache words' hw' nodes' hkept

theorem acSearchLower_eq (hcache : Kept toLower cache) (call : Call) (hw : Separable call.words) :
    ∃ result cache', acSearchLower toLower call.order cache call.text call.words =
      some (result, cache') ∧ Reported toLower call result ∧ Kept toLower cache' := by
  obtain ⟨nodes, cache', hget, hm, hkept⟩ := getOrBuildIdentityAC_eq hcache hw call.order
  have hsearch := multiPatternSearch_eq hm (lowerString toLower call.text) true
  have hasked : asked true (hitsFrom (call.words.map (lowerString toLower)) []
      (lowerString toLower call.text)) ≠ [] ↔
      ∃ w ∈ needles toLower call.words, w <:+: lowerString toLower call.text := by
    rw [asked, if_pos rfl, ne_eq, List.take_eq_nil_iff, not_or, ← ne_eq, ← ne_eq, hits_ne_nil_iff]
    simp only [needles, List.mem_filter, decide_eq_true_eq, and_assoc]
    exact and_iff_right (by decide)
  rw [acSearchLower, hget, Option.bind_eq_bind, Option.bind_some]
  dsimp only
  rw [hsearch, Option.bind_eq_bind, Option.bind_some]
  by_cases hnil : asked true (hitsFrom (call.words.map (lowerString toLower)) []
      (lowerString toLower call.text)) = []
  · refine ⟨_, cache', if_pos hnil, ?_, hkept⟩
    rw [Reported, ← hasked, hnil]
    simp
  · refine ⟨_, cache', if_neg hnil, ?_, hkept⟩
    rw [Reported, ← hasked]
    exact ⟨fun _ => hnil, fun _ => rfl⟩

theorem searches_eq (calls : List Call) (hcache : Kept toLower cache)
    (hw : ∀ call ∈ calls, Separable call.words) :
    ∃ results cache', searches toLower calls cache = some (results, cache') ∧
      List.Forall₂ (Reported toLower) calls results := by
  induction calls generalizing cache with
  | nil => exact ⟨[], cache, rfl, .nil⟩
  | cons call calls ih =>
    obtain ⟨result, cache', hcall, hreported, hkept⟩ :=
      acSearchLower_eq hcache call (hw call List.mem_cons_self)
    obtain ⟨results, cache'', hcalls, hall⟩ := ih hkept fun c hc => hw c (List.mem_cons_of_mem _ hc)
    refine ⟨result :: results, cache'', ?_, .cons hreported hall⟩
    rw [searches, hcall, Option.bind_eq_bind, Option.bind_some]
    dsimp only
    rw [hcalls]
    rfl

theorem kept_empty : Kept toLower fun _ => none := by
  intro words _ nodes h
  cases h

end Cached

/-- The matcher finds each occurrence of each word once, in every text. Through the shared cache,
searches report what they should in every run whose words have no rune zero. -/
theorem sensitive_search (toLower : Char → Char) :
    (∀ order words, ∃ nodes, buildIdentityAC toLower order words = some nodes ∧
      ∀ text, ∃ hits, multiPatternSearch nodes text false = some hits ∧ hits.Nodup ∧
        ∀ hit, hit ∈ hits ↔ hit.word ∈ needles toLower words ∧
          ∃ before after, text = before ++ hit.word ++ after ∧ hit.pos = before.length) ∧
    ∀ calls : List Call, (∀ call ∈ calls, Separable call.words) →
      ∃ results cache, searches toLower calls (fun _ => none) = some (results, cache) ∧
        List.Forall₂ (Reported toLower) calls results := by
  constructor
  · intro order words
    obtain ⟨nodes, hbuild, hm⟩ := buildIdentityAC_eq toLower order words
    refine ⟨nodes, hbuild, ?_⟩
    intro text
    refine ⟨_, multiPatternSearch_eq hm text false, nodup_hitsFrom text, ?_⟩
    intro hit
    rw [asked, if_neg Bool.false_ne_true, mem_hits]
    simp only [needles, List.mem_filter, decide_eq_true_eq, and_assoc]
  · intro calls hw
    exact searches_eq calls kept_empty hw

/-- The order of insertion. -/
def inOrder : MapOrder := ⟨fun _ runes => runes, fun _ runes => List.Perm.refl runes⟩

/-- The words `a` and `b` have the key of one word that joins them. -/
def joined : List Call :=
  [⟨inOrder, ['x'], [['a', Char.ofNat 0, 'b']]⟩, ⟨inOrder, ['a'], [['a'], ['b']]⟩]

/-- A search that takes the matcher of another list misses its own words. -/
theorem shared_key_missed :
    ¬ ∃ results cache, searches id joined (fun _ => none) = some (results, cache) ∧
      List.Forall₂ (Reported id) joined results := by
  rintro ⟨results, cache, hrun, hall⟩
  have hresults : results.map Prod.fst = [false, false] := by
    have heval : (searches id joined fun _ => none).map (fun run => run.1.map Prod.fst) =
        some [false, false] := by decide
    rw [hrun] at heval
    exact Option.some.inj heval
  cases hall with
  | cons _ hrest =>
    cases hrest with
    | @cons _ second _ _ hsecond _ =>
      have hmissed : second.1 = false := (List.cons.inj (List.cons.inj hresults).2).1
      have hreported := hsecond.2 ⟨['a'], by decide, List.infix_refl _⟩
      rw [hmissed] at hreported
      cases hreported

end CodeGo.Identity.SensitiveAc
