import CodeGo.Lib.SuffixLinks
import CodeGo.Lib.Trim
import Mathlib

/-!
# Sensitive words

The Aho-Corasick matcher that looks for the sensitive words of a text. The words are put in a trie,
a breadth-first pass over it sets the fail links, and the text is read rune by rune along both. A
node is named by the runes that lead to it from the root.

`toLower` is what becomes of one rune in lower case.
-/

namespace CodeGo.Identity.SensitiveAc

abbrev Path := List Char

structure AcNode where
  /-- The runes of the child nodes. -/
  children : List Char := []
  fail : Option Path := none
  word : List Char := []
  isEnd : Bool := false
  deriving DecidableEq, Repr

abbrev Nodes := Path → AcNode

/-- The order in which the entries of a node's map are visited. -/
structure MapOrder where
  visit : Path → List Char → List Char
  perm : ∀ p runes, (visit p runes).Perm runes

def lowerString (toLower : Char → Char) (s : List Char) : List Char :=
  (Lib.Trim.trimList Lib.Trim.isSpace s).map toLower

/-- The node that a rune of a word leads to, made where there is none. -/
def addChild (nodes : Nodes) (p : Path) (r : Char) : Nodes :=
  if r ∈ (nodes p).children then nodes
  else
    let nodes := Function.update nodes p { nodes p with children := (nodes p).children ++ [r] }
    Function.update nodes (p ++ [r]) {}

def addRunes (nodes : Nodes) (p : Path) : List Char → Nodes
  | [] => nodes
  | r :: word => addRunes (addChild nodes p r) (p ++ [r]) word

def addWord (nodes : Nodes) (word : List Char) : Nodes :=
  if word = [] then nodes
  else
    let nodes := addRunes nodes [] word
    Function.update nodes word { nodes word with isEnd := true, word := word }

def setFail (nodes : Nodes) (p target : Path) : Nodes :=
  Function.update nodes p { nodes p with fail := some target }

/-- The loop up the fail links to a node with a child for the rune. It ends on a node or on `nil`. -/
def failLoop (nodes : Nodes) (r : Char) : Nat → Option Path → Option (Option Path)
  | 0, _ => none
  | _ + 1, none => some none
  | limit + 1, some fail =>
    if r ∈ (nodes fail).children then some (some fail)
    else failLoop nodes r limit (nodes fail).fail

def linkChild (limit : Nat) (p : Path) (nodes : Nodes) (r : Char) : Option Nodes := do
  match ← failLoop nodes r limit (nodes p).fail with
  | none => some (setFail nodes (p ++ [r]) [])
  | some fail => some (setFail nodes (p ++ [r]) (fail ++ [r]))

/-- The loop over the queue. -/
def linkAll (order : MapOrder) (limit : Nat) : Nat → Nodes → List Path → Option Nodes
  | _, nodes, [] => some nodes
  | 0, _, _ :: _ => none
  | turns + 1, nodes, p :: queue => do
    let runes := order.visit p (nodes p).children
    let nodes ← runes.foldlM (linkChild limit p) nodes
    linkAll order limit turns nodes (queue ++ runes.map fun r => p ++ [r])

/-- `buildIdentityAC`. Its loops take at most `limit` turns. -/
def buildIdentityAC (toLower : Char → Char) (order : MapOrder) (words : List (List Char)) :
    Option Nodes :=
  let lowered := words.map (lowerString toLower)
  let limit := (lowered.map List.length).sum + 2
  let nodes := lowered.foldl addWord fun _ => {}
  let runes := order.visit [] (nodes []).children
  let nodes := runes.foldl (fun nodes r => setFail nodes [r] []) nodes
  linkAll order limit limit nodes (runes.map fun r => [r])

structure AcHit where
  pos : Int
  word : List Char
  deriving DecidableEq, Repr

/-- The loop up the fail links to a node that the rune leads on from. A `nil` node is a panic. -/
def descend (nodes : Nodes) (r : Char) : Nat → Path → Option Path
  | 0, _ => none
  | limit + 1, node =>
    if node ≠ [] ∧ r ∉ (nodes node).children then
      match (nodes node).fail with
      | none => none
      | some fail => descend nodes r limit fail
    else some node

/-- The words that end at a rune, by the loop of the cursor. -/
def collect (nodes : Nodes) (i : Int) (returnImmediately : Bool) :
    Nat → Option Path → Option (List AcHit)
  | 0, _ => none
  | _ + 1, none => some []
  | limit + 1, some cursor =>
    if cursor = [] then some []
    else if (nodes cursor).isEnd then
      let hit : AcHit := ⟨i - (nodes cursor).word.length + 1, (nodes cursor).word⟩
      if returnImmediately then some [hit]
      else do
        let hits ← collect nodes i returnImmediately limit (nodes cursor).fail
        some (hit :: hits)
    else collect nodes i returnImmediately limit (nodes cursor).fail

def searchFrom (nodes : Nodes) (returnImmediately : Bool) (limit : Nat) :
    Int → Path → List Char → Option (List AcHit)
  | _, _, [] => some []
  | i, node, r :: text => do
    let node ← descend nodes r limit node
    let node := if r ∈ (nodes node).children then node ++ [r] else node
    let found ← collect nodes i returnImmediately limit (some node)
    if returnImmediately ∧ found ≠ [] then some found
    else do
      let hits ← searchFrom nodes returnImmediately limit (i + 1) node text
      some (found ++ hits)

/-- `MultiPatternSearch`. Its inner loops take at most two turns more than the text has runes. -/
def multiPatternSearch (nodes : Nodes) (text : List Char) (returnImmediately : Bool) :
    Option (List AcHit) :=
  searchFrom nodes returnImmediately (text.length + 2) 0 [] text

abbrev Cache := List Char → Option Nodes

def cacheKey (words : List (List Char)) : List Char := [Char.ofNat 0].intercalate words

def getOrBuildIdentityAC (toLower : Char → Char) (order : MapOrder) (cache : Cache)
    (words : List (List Char)) : Option (Nodes × Cache) :=
  match cache (cacheKey words) with
  | some matcher => some (matcher, cache)
  | none => do
    let matcher ← buildIdentityAC toLower order words
    some (matcher, Function.update cache (cacheKey words) (some matcher))

def acSearchLower (toLower : Char → Char) (order : MapOrder) (cache : Cache) (text : List Char)
    (words : List (List Char)) : Option ((Bool × List (List Char)) × Cache) := do
  let checkText := lowerString toLower text
  let found ← getOrBuildIdentityAC toLower order cache words
  let hits ← multiPatternSearch found.1 checkText true
  if hits = [] then some ((false, []), found.2)
  else some ((true, hits.map AcHit.word), found.2)

end CodeGo.Identity.SensitiveAc

/-!
# The trie and its fail links

What the words put in the trie, and that the breadth-first pass links each node to its longest
proper suffix in the trie.
-/

namespace CodeGo.Identity.SensitiveAc

open Lib.SuffixLinks

section Trie

variable {nodes : Nodes} {p q word : Path} {r : Char} {has final : Path → Prop}

/-- The nodes of a trie and the ends of its words, before any link is set. -/
structure Shape (nodes : Nodes) (has final : Path → Prop) : Prop where
  root : has []
  init : ∀ q r, has (q ++ [r]) → has q
  children : ∀ q r, r ∈ (nodes q).children ↔ has (q ++ [r])
  nodup : ∀ q, (nodes q).children.Nodup
  ends : ∀ q, (nodes q).isEnd = true ↔ final q
  spelled : ∀ q, final q → (nodes q).word = q
  within : ∀ q, final q → has q
  fail : ∀ q, (nodes q).fail = none

theorem Shape.congr {has' final' : Path → Prop} (h : Shape nodes has final)
    (hhas : ∀ q, has q ↔ has' q) (hfinal : ∀ q, final q ↔ final' q) : Shape nodes has' final' := by
  obtain rfl : has = has' := funext fun q => propext (hhas q)
  obtain rfl : final = final' := funext fun q => propext (hfinal q)
  exact h

theorem shape_empty : Shape (fun _ => {}) (· = []) fun _ => False where
  root := rfl
  init _ _ h := by simp at h
  children _ _ := by simp
  nodup _ := List.nodup_nil
  ends _ := by simp
  spelled _ h := h.elim
  within _ h := h.elim
  fail _ := rfl

theorem Shape.addChild (h : Shape nodes has final) (hp : has p) :
    Shape (addChild nodes p r) (fun q => has q ∨ q = p ++ [r]) final := by
  rw [SensitiveAc.addChild]
  by_cases hr : r ∈ (nodes p).children
  · rw [if_pos hr]
    apply h.congr
    · intro q
      constructor
      · exact .inl
      · rintro (hq | rfl)
        · exact hq
        · exact (h.children p r).1 hr
    · exact fun _ => Iff.rfl
  · rw [if_neg hr]
    have hnew : ¬ has (p ++ [r]) := fun hhas => hr ((h.children p r).2 hhas)
    have hself : p ≠ p ++ [r] := fun heq => by simpa using congrArg List.length heq
    -- the new node was no node before, so nothing hung on it
    have hbare (q : Path) (hq : q = p ++ [r]) (a : Char) : ¬ has (q ++ [a]) := by
      rintro hhas
      exact hnew (hq ▸ h.init _ _ hhas)
    have hconcat (q : Path) (a : Char) : q ++ [a] = p ++ [r] ↔ q = p ∧ a = r := by
      constructor
      · intro heq
        obtain ⟨hqp, har⟩ := List.append_inj' heq rfl
        exact ⟨hqp, List.singleton_inj.1 har⟩
      · rintro ⟨rfl, rfl⟩
        rfl
    refine ⟨.inl h.root, ?_, ?_, ?_, ?_, ?_, fun q hq => .inl (h.within q hq), ?_⟩
    · rintro q a (hq | hq)
      · exact .inl (h.init q a hq)
      · rw [((hconcat q a).1 hq).1]
        exact .inl hp
    · intro q a
      rw [hconcat, Function.update_apply, Function.update_apply]
      split
      · next hq =>
        have hne : q ≠ p := fun hqp => hself (hqp ▸ hq)
        simp [hbare q hq a, hne]
      · split
        · next hq => simp [hq, h.children]
        · next hq => simp [hq, h.children]
    · intro q
      rw [Function.update_apply, Function.update_apply]
      split
      · exact List.nodup_nil
      · split
        · apply List.nodup_append.2
          refine ⟨h.nodup p, by simp, ?_⟩
          intro a ha b hb hab
          rw [List.mem_singleton] at hb
          exact hr (hb ▸ hab ▸ ha)
        · exact h.nodup q
    · intro q
      rw [Function.update_apply, Function.update_apply]
      split
      · next hq =>
        have hnone : ¬ final q := fun hfinal => hnew (hq ▸ h.within q hfinal)
        simp [hnone]
      · split
        · next hq => rw [hq]; exact h.ends p
        · exact h.ends q
    · intro q hq
      rw [Function.update_apply, Function.update_apply, if_neg]
      · split
        · next hqp =>
          rw [hqp]
          exact h.spelled p (hqp ▸ hq)
        · exact h.spelled q hq
      · intro heq
        exact hnew (heq ▸ h.within q hq)
    · intro q
      rw [Function.update_apply, Function.update_apply]
      split
      · rfl
      · split
        · exact h.fail p
        · exact h.fail q

theorem Shape.addRunes (h : Shape nodes has final) (hp : has p) (word : List Char) :
    Shape (addRunes nodes p word) (fun q => has q ∨ ∃ u, u <+: word ∧ q = p ++ u) final := by
  induction word generalizing nodes p has with
  | nil =>
    rw [SensitiveAc.addRunes]
    apply h.congr
    · intro q
      constructor
      · exact .inl
      · rintro (hq | ⟨u, hu, rfl⟩)
        · exact hq
        · rwa [List.prefix_nil.1 hu, List.append_nil]
    · exact fun _ => Iff.rfl
  | cons r word ih =>
    rw [SensitiveAc.addRunes]
    apply (ih (h.addChild (r := r) hp) (.inr rfl)).congr
    · intro q
      constructor
      · rintro ((hq | rfl) | ⟨u, hu, rfl⟩)
        · exact .inl hq
        · exact .inr ⟨[r], by simp, rfl⟩
        · exact .inr ⟨r :: u, by simpa using hu, by simp⟩
      · rintro (hq | ⟨u, hu, rfl⟩)
        · exact .inl (.inl hq)
        · cases u with
          | nil => exact .inl (.inl (by rwa [List.append_nil]))
          | cons a u =>
            obtain ⟨rfl, hrest⟩ := List.cons_prefix_cons.1 hu
            exact .inr ⟨u, hrest, by simp⟩
    · exact fun _ => Iff.rfl

theorem Shape.addWord (h : Shape nodes has final) (word : List Char) :
    Shape (addWord nodes word) (fun q => has q ∨ q <+: word)
      (fun q => final q ∨ q = word ∧ word ≠ []) := by
  rw [SensitiveAc.addWord]
  by_cases hword : word = []
  · rw [if_pos hword]
    apply h.congr
    · intro q
      rw [hword, List.prefix_nil]
      constructor
      · exact .inl
      · rintro (hq | rfl)
        · exact hq
        · exact h.root
    · intro q
      simp [hword]
  · rw [if_neg hword]
    have hadd : Shape (SensitiveAc.addRunes nodes [] word) (fun q => has q ∨ q <+: word) final := by
      apply (h.addRunes h.root word).congr
      · intro q
        simp
      · exact fun _ => Iff.rfl
    refine ⟨hadd.root, hadd.init, ?_, ?_, ?_, ?_, ?_, ?_⟩
    · intro q a
      rw [Function.update_apply, ← hadd.children]
      split
      · next hq => rw [hq]
      · rfl
    · intro q
      rw [Function.update_apply]
      split
      · exact hadd.nodup word
      · exact hadd.nodup q
    · intro q
      rw [Function.update_apply]
      split
      · next hq => simp [hq, hword]
      · next hq => simp [hq, hadd.ends]
    · rintro q hq
      rw [Function.update_apply]
      split
      · next heq => exact heq.symm
      · next hne => exact hadd.spelled q (hq.resolve_right fun heq => hne heq.1)
    · rintro q (hq | ⟨rfl, -⟩)
      · exact hadd.within q hq
      · exact .inr (List.prefix_refl q)
    · intro q
      rw [Function.update_apply]
      split
      · exact hadd.fail word
      · exact hadd.fail q

/-- The nodes of the trie are the beginnings of its words, the words its ends. -/
theorem shape_words (words : List (List Char)) :
    Shape (words.foldl addWord fun _ => {}) (fun q => q = [] ∨ ∃ w ∈ words, q <+: w)
      (fun q => q ∈ words ∧ q ≠ []) := by
  induction words using List.reverseRecOn with
  | nil =>
    apply shape_empty.congr
    · simp
    · simp
  | append_singleton words word ih =>
    rw [List.foldl_append, List.foldl_cons, List.foldl_nil]
    apply (ih.addWord word).congr
    · intro q
      simp only [List.mem_append, List.mem_singleton, or_and_right, exists_or, exists_eq_left, or_assoc]
    · intro q
      simp only [List.mem_append, List.mem_singleton, or_and_right]
      apply or_congr Iff.rfl
      constructor
      · rintro ⟨rfl, hne⟩
        exact ⟨rfl, hne⟩
      · rintro ⟨rfl, hne⟩
        exact ⟨rfl, hne⟩

end Trie

section Links

variable {nodes nodes' : Nodes} {node : Path → Bool} {p q : Path} {r : Char} {limit : Nat}

/-- A change that is to fail links only. -/
structure Relinked (nodes nodes' : Nodes) : Prop where
  children : ∀ q, (nodes' q).children = (nodes q).children
  isEnd : ∀ q, (nodes' q).isEnd = (nodes q).isEnd
  word : ∀ q, (nodes' q).word = (nodes q).word

theorem Relinked.refl (nodes : Nodes) : Relinked nodes nodes :=
  ⟨fun _ => rfl, fun _ => rfl, fun _ => rfl⟩

theorem Relinked.trans {nodes'' : Nodes} (h : Relinked nodes nodes') (h' : Relinked nodes' nodes'') :
    Relinked nodes nodes'' where
  children q := (h'.children q).trans (h.children q)
  isEnd q := (h'.isEnd q).trans (h.isEnd q)
  word q := (h'.word q).trans (h.word q)

theorem relinked_setFail (nodes : Nodes) (p target : Path) : Relinked nodes (setFail nodes p target) := by
  constructor
  all_goals
    intro q
    rw [setFail, Function.update_apply]
    split
    · next hq => rw [hq]
    · rfl

theorem setFail_fail (nodes : Nodes) (p target q : Path) :
    (setFail nodes p target q).fail = if q = p then some target else (nodes q).fail := by
  rw [setFail, Function.update_apply]
  split <;> rfl

/-- A trie over these nodes, with no link at its root. -/
structure Grown (node : Path → Bool) (nodes : Nodes) : Prop where
  children : ∀ q r, r ∈ (nodes q).children ↔ node (q ++ [r]) = true
  nodup : ∀ q, (nodes q).children.Nodup
  root : (nodes []).fail = none

/-- The node's link is to its longest proper suffix in the trie. -/
def LinkedAt (node : Path → Bool) (nodes : Nodes) (q : Path) : Prop :=
  (nodes q).fail = some (link node q)

/-- The loop up the links finds the longest suffix of a node with a child for the rune. -/
theorem failLoop_eq (hnode : Closed node) (hgrown : Grown node nodes) (hp : node p = true)
    (hlinked : ∀ q, node q = true → q ≠ [] → q.length ≤ p.length → LinkedAt node nodes q)
    (hlimit : p.length + 2 ≤ limit) :
    failLoop nodes r limit (some p) = some ((suffixes node p).find? fun q => node (q ++ [r])) := by
  induction limit generalizing p with
  | zero => omega
  | succ limit ih =>
    rw [failLoop]
    by_cases hr : r ∈ (nodes p).children
    · have hchild := (hgrown.children p r).1 hr
      rw [if_pos hr]
      by_cases hne : p = []
      · rw [hne] at hchild ⊢
        rw [suffixes_nil hnode, List.find?_cons, hchild]
      · rw [suffixes_of_node hnode hp hne, List.find?_cons, hchild]
    · have hchild : node (p ++ [r]) = false :=
        Bool.eq_false_iff.2 fun hc => hr ((hgrown.children p r).2 hc)
      rw [if_neg hr]
      by_cases hne : p = []
      · obtain ⟨limit, rfl⟩ : ∃ k, limit = k + 1 := ⟨limit - 1, by omega⟩
        rw [hne] at hchild ⊢
        rw [hgrown.root, failLoop, suffixes_nil hnode, List.find?_cons, hchild]
        rfl
      · have hshort := length_link hnode hne
        rw [hlinked p hp hne (Nat.le_refl _), suffixes_of_node hnode hp hne, List.find?_cons, hchild]
        apply ih (node_link hnode)
        · intro q hq hqne hlength
          exact hlinked q hq hqne (by omega)
        · omega

/-- The pass sets the link of a child of a node with links set up to its depth. -/
theorem linkChild_eq (hnode : Closed node) (hgrown : Grown node nodes) (hp : node p = true)
    (hne : p ≠ [])
    (hlinked : ∀ q, node q = true → q ≠ [] → q.length ≤ p.length → LinkedAt node nodes q)
    (hlimit : p.length + 2 ≤ limit) :
    linkChild limit p nodes r = some (setFail nodes (p ++ [r]) (link node (p ++ [r]))) := by
  have hshort := length_link hnode hne
  have hloop : failLoop nodes r limit (nodes p).fail =
      some ((suffixes node (link node p)).find? fun q => node (q ++ [r])) := by
    rw [hlinked p hp hne (Nat.le_refl _)]
    apply failLoop_eq hnode hgrown (node_link hnode)
    · intro q hq hqne hlength
      exact hlinked q hq hqne (by omega)
    · omega
  rw [linkChild, hloop, link_concat hnode hne]
  cases (suffixes node (link node p)).find? fun q => node (q ++ [r]) <;> rfl

theorem Grown.relinked (hgrown : Grown node nodes) (h : Relinked nodes nodes')
    (hroot : (nodes' []).fail = none) : Grown node nodes' where
  children q r := by rw [h.children, hgrown.children]
  nodup q := by
    rw [h.children]
    exact hgrown.nodup q
  root := hroot

/-- The loop over the children of a node sets their links and no others. -/
theorem linkChildren_eq (hnode : Closed node) (hgrown : Grown node nodes) (hp : node p = true)
    (hne : p ≠ [])
    (hlinked : ∀ q, node q = true → q ≠ [] → q.length ≤ p.length → LinkedAt node nodes q)
    (hlimit : p.length + 2 ≤ limit) (runes : List Char) :
    ∃ nodes', runes.foldlM (linkChild limit p) nodes = some nodes' ∧ Relinked nodes nodes' ∧
      ∀ q, (nodes' q).fail =
        if ∃ r ∈ runes, q = p ++ [r] then some (link node q) else (nodes q).fail := by
  induction runes using List.reverseRecOn with
  | nil => exact ⟨nodes, rfl, .refl nodes, by simp⟩
  | append_singleton runes r ih =>
    obtain ⟨nodes', hfold, hrelinked, hfail⟩ := ih
    have hother (q : Path) (hq : q.length ≤ p.length) : (nodes' q).fail = (nodes q).fail := by
      rw [hfail, if_neg]
      rintro ⟨r, -, rfl⟩
      rw [List.length_append, List.length_singleton] at hq
      omega
    have hgrown' := hgrown.relinked hrelinked ((hother [] (Nat.zero_le _)).trans hgrown.root)
    have hlast := linkChild_eq (r := r) hnode hgrown' hp hne
      (fun q hq hqne hlength => (hother q hlength).trans (hlinked q hq hqne hlength)) hlimit
    refine ⟨setFail nodes' (p ++ [r]) (link node (p ++ [r])), ?_,
      hrelinked.trans (relinked_setFail _ _ _), ?_⟩
    · rw [List.foldlM_append, hfold, Option.bind_eq_bind, Option.bind_some, List.foldlM_cons, hlast]
      rfl
    · intro q
      rw [setFail_fail, hfail]
      simp only [List.mem_append, List.mem_singleton, or_and_right, exists_or, exists_eq_left]
      by_cases hq : q = p ++ [r]
      · rw [if_pos hq, if_pos (.inr hq), hq]
      · rw [if_neg hq]
        simp only [hq, or_false]

end Links

section Pass

variable {nodes : Nodes} {node : Path → Bool} {p : Path} {queue : List Path} {limit : Nat}

/-- The pass stands before these nodes: they are linked, and what is not stands below them. -/
structure Front (node : Path → Bool) (nodes : Nodes) (queue : List Path) : Prop where
  grown : Grown node nodes
  queued : ∀ q ∈ queue, node q = true ∧ q ≠ []
  linked : ∀ q ∈ queue, LinkedAt node nodes q
  below : ∀ q, node q = true → q ≠ [] →
    LinkedAt node nodes q ∨ ∃ p ∈ queue, p <+: q ∧ p.length < q.length
  sorted : queue.Pairwise fun a b => a.length ≤ b.length
  spread : ∀ a ∈ queue, ∀ b ∈ queue, b.length ≤ a.length + 1
  apart : queue.Pairwise fun a b => ¬ a <+: b ∧ ¬ b <+: a

/-- The links are set up to the depth of the first node of the queue. -/
theorem Front.linked_of_length (h : Front node nodes (p :: queue)) (q : Path) (hq : node q = true)
    (hne : q ≠ []) (hlength : q.length ≤ p.length) : LinkedAt node nodes q := by
  rcases h.below q hq hne with hlinked | ⟨a, ha, -, hlt⟩
  · exact hlinked
  · have hle : p.length ≤ a.length := by
      rcases List.mem_cons.1 ha with rfl | ha
      · exact Nat.le_refl _
      · exact (List.pairwise_cons.1 h.sorted).1 a ha
    omega

/-- One turn of the pass. -/
theorem Front.step (h : Front node nodes (p :: queue)) (hnode : Closed node) (hlimit : p.length + 2 ≤ limit)
    {runes : List Char} (hrunes : runes.Perm (nodes p).children) :
    ∃ nodes', runes.foldlM (linkChild limit p) nodes = some nodes' ∧ Relinked nodes nodes' ∧
      Front node nodes' (queue ++ runes.map fun r => p ++ [r]) := by
  obtain ⟨hp, hne⟩ := h.queued p List.mem_cons_self
  obtain ⟨nodes', hfold, hrelinked, hfail⟩ :=
    linkChildren_eq hnode h.grown hp hne h.linked_of_length hlimit runes
  obtain ⟨hfirst, hsorted⟩ := List.pairwise_cons.1 h.sorted
  obtain ⟨hfar, hapart⟩ := List.pairwise_cons.1 h.apart
  have hmem (r : Char) : r ∈ runes ↔ node (p ++ [r]) = true := by
    rw [hrunes.mem_iff, h.grown.children]
  have hchild (q : Path) : q ∈ runes.map (fun r => p ++ [r]) ↔ ∃ r ∈ runes, q = p ++ [r] := by
    simp only [List.mem_map, eq_comm]
  have hkept (q : Path) (hq : LinkedAt node nodes q) : LinkedAt node nodes' q := by
    rw [LinkedAt, hfail]
    split
    · rfl
    · exact hq
  have hnew (r : Char) (hr : r ∈ runes) : LinkedAt node nodes' (p ++ [r]) := by
    rw [LinkedAt, hfail, if_pos ⟨r, hr, rfl⟩]
  refine ⟨nodes', hfold, hrelinked, ?_, ?_, ?_, ?_, ?_, ?_, ?_⟩
  · apply h.grown.relinked hrelinked
    rw [hfail, if_neg (by simp), h.grown.root]
  · intro q hq
    rcases List.mem_append.1 hq with hq | hq
    · exact h.queued q (List.mem_cons_of_mem _ hq)
    · obtain ⟨r, hr, rfl⟩ := (hchild q).1 hq
      exact ⟨(hmem r).1 hr, by simp⟩
  · intro q hq
    rcases List.mem_append.1 hq with hq | hq
    · exact hkept q (h.linked q (List.mem_cons_of_mem _ hq))
    · obtain ⟨r, hr, rfl⟩ := (hchild q).1 hq
      exact hnew r hr
  · intro q hq hqne
    rcases h.below q hq hqne with hlinked | ⟨a, ha, hprefix, hlt⟩
    · exact .inl (hkept q hlinked)
    · rcases List.mem_cons.1 ha with rfl | ha
      · -- what stood below the first node is a child of it, or stands below one
        obtain ⟨rest, rfl⟩ := hprefix
        cases rest with
        | nil => simp at hlt
        | cons r rest =>
          rw [List.append_cons] at hq ⊢
          have hr : r ∈ runes := (hmem r).2 (hnode.of_prefix hq (List.prefix_append _ _))
          cases rest with
          | nil =>
            rw [List.append_nil]
            exact .inl (hnew r hr)
          | cons b rest =>
            refine .inr ⟨a ++ [r], List.mem_append_right _ ((hchild _).2 ⟨r, hr, rfl⟩),
              List.prefix_append _ _, ?_⟩
            simp
      · exact .inr ⟨a, List.mem_append_left _ ha, hprefix, hlt⟩
  · rw [List.pairwise_append]
    refine ⟨hsorted, ?_, ?_⟩
    · rw [List.pairwise_map]
      exact List.pairwise_of_forall fun a b => by simp
    · intro a ha b hb
      obtain ⟨r, -, rfl⟩ := (hchild b).1 hb
      have := h.spread p List.mem_cons_self a (List.mem_cons_of_mem _ ha)
      rw [List.length_append, List.length_singleton]
      exact this
  · have hlength (q : Path) (hq : q ∈ queue ++ runes.map fun r => p ++ [r]) :
        p.length ≤ q.length ∧ q.length ≤ p.length + 1 := by
      rcases List.mem_append.1 hq with hq | hq
      · exact ⟨hfirst q hq, h.spread p List.mem_cons_self q (List.mem_cons_of_mem _ hq)⟩
      · obtain ⟨r, -, rfl⟩ := (hchild q).1 hq
        simp
    intro a ha b hb
    have := hlength a ha
    have := hlength b hb
    omega
  · rw [List.pairwise_append]
    refine ⟨hapart, ?_, ?_⟩
    · rw [List.pairwise_map]
      have hnodup : runes.Nodup := hrunes.nodup_iff.2 (h.grown.nodup p)
      apply hnodup.imp
      intro a b hab
      simp [List.prefix_append_right_inj, hab, Ne.symm hab]
    · intro a ha b hb
      obtain ⟨r, -, rfl⟩ := (hchild b).1 hb
      constructor
      · intro hprefix
        rcases List.prefix_concat_iff.1 hprefix with rfl | hprefix
        · exact (hfar _ ha).1 (List.prefix_append _ _)
        · exact (hfar a ha).2 hprefix
      · intro hprefix
        exact (hfar a ha).1 ((List.prefix_append _ _).trans hprefix)

theorem countP_lt {α : Type} {P Q : α → Bool} {xs : List α} (hle : ∀ x ∈ xs, P x = true → Q x = true)
    {x : α} (hx : x ∈ xs) (hP : P x = false) (hQ : Q x = true) : xs.countP P < xs.countP Q := by
  induction xs with
  | nil => cases hx
  | cons y xs ih =>
    have hrest : xs.countP P ≤ xs.countP Q :=
      List.countP_mono_left fun z hz => hle z (List.mem_cons_of_mem _ hz)
    rcases List.mem_cons.1 hx with rfl | hx
    · rw [List.countP_cons_of_neg (by simp [hP]), List.countP_cons_of_pos hQ]
      omega
    · have := ih (fun z hz => hle z (List.mem_cons_of_mem _ hz)) hx
      rw [List.countP_cons, List.countP_cons]
      cases hy : P y
      · simp only [Bool.false_eq_true, if_false]
        omega
      · rw [hle y List.mem_cons_self hy]
        omega

/-- The nodes that are in the queue or stand below it. -/
def work (members : List Path) (queue : List Path) : Nat :=
  members.countP fun q => queue.any fun p => p.isPrefixOf q

theorem work_step {members : List Path} (h : Front node nodes (p :: queue)) (hp : p ∈ members)
    (runes : List Char) :
    work members (queue ++ runes.map fun r => p ++ [r]) < work members (p :: queue) := by
  obtain ⟨hfar, -⟩ := List.pairwise_cons.1 h.apart
  apply countP_lt _ hp
  · rw [Bool.eq_false_iff]
    intro hany
    obtain ⟨a, ha, hprefix⟩ := List.any_eq_true.1 hany
    rw [List.isPrefixOf_iff_prefix] at hprefix
    rcases List.mem_append.1 ha with ha | ha
    · exact (hfar a ha).2 hprefix
    · obtain ⟨r, -, rfl⟩ := List.mem_map.1 ha
      have := hprefix.length_le
      rw [List.length_append, List.length_singleton] at this
      omega
  · simp
  · intro q _ hany
    obtain ⟨a, ha, hprefix⟩ := List.any_eq_true.1 hany
    rw [List.isPrefixOf_iff_prefix] at hprefix
    rw [List.any_eq_true]
    rcases List.mem_append.1 ha with ha | ha
    · exact ⟨a, List.mem_cons_of_mem _ ha, List.isPrefixOf_iff_prefix.2 hprefix⟩
    · obtain ⟨r, -, rfl⟩ := List.mem_map.1 ha
      exact ⟨p, List.mem_cons_self,
        List.isPrefixOf_iff_prefix.2 ((List.prefix_append _ _).trans hprefix)⟩

/-- The pass ends, with every node linked. -/
theorem linkAll_eq {members : List Path} (hnode : Closed node)
    (hmembers : ∀ q, node q = true → q ≠ [] → q ∈ members)
    (hlimit : ∀ q, node q = true → q.length + 2 ≤ limit) (order : MapOrder) (turns : Nat)
    (h : Front node nodes queue) (hturns : work members queue ≤ turns) :
    ∃ nodes', linkAll order limit turns nodes queue = some nodes' ∧ Relinked nodes nodes' ∧
      ∀ q, node q = true → q ≠ [] → LinkedAt node nodes' q := by
  induction turns generalizing nodes queue with
  | zero =>
    cases queue with
    | nil =>
      refine ⟨nodes, rfl, .refl nodes, ?_⟩
      intro q hq hne
      simpa using h.below q hq hne
    | cons p queue =>
      obtain ⟨hp, hne⟩ := h.queued p List.mem_cons_self
      have := work_step h (hmembers p hp hne) []
      omega
  | succ turns ih =>
    cases queue with
    | nil =>
      refine ⟨nodes, rfl, .refl nodes, ?_⟩
      intro q hq hne
      simpa using h.below q hq hne
    | cons p queue =>
      obtain ⟨hp, hne⟩ := h.queued p List.mem_cons_self
      have hwork := work_step h (hmembers p hp hne) (order.visit p (nodes p).children)
      obtain ⟨nodes', hfold, hrelinked, hfront⟩ :=
        h.step hnode (hlimit p hp) (order.perm p (nodes p).children)
      obtain ⟨last, hrun, hlast, hlinked⟩ := ih hfront (by omega)
      refine ⟨last, ?_, hrelinked.trans hlast, hlinked⟩
      rw [linkAll, hfold]
      exact hrun

end Pass

/-- The nodes of the trie of these words. -/
def isNode (words : List (List Char)) (q : Path) : Bool := q.isEmpty || words.any q.isPrefixOf

theorem isNode_iff {words : List (List Char)} {q : Path} :
    isNode words q = true ↔ q = [] ∨ ∃ w ∈ words, q <+: w := by
  simp [isNode]

theorem closed_isNode (words : List (List Char)) : Closed (isNode words) where
  root := rfl
  init s a h := by
    rw [isNode_iff] at h ⊢
    rcases h with h | ⟨w, hw, hprefix⟩
    · simp at h
    · exact .inr ⟨w, hw, (List.prefix_append _ _).trans hprefix⟩

/-- The matcher of these words. -/
structure Matcher (words : List (List Char)) (nodes : Nodes) : Prop where
  children : ∀ q r, r ∈ (nodes q).children ↔ isNode words (q ++ [r]) = true
  ends : ∀ q, (nodes q).isEnd = true ↔ q ∈ words ∧ q ≠ []
  spelled : ∀ q ∈ words, q ≠ [] → (nodes q).word = q
  linked : ∀ q, isNode words q = true → q ≠ [] → LinkedAt (isNode words) nodes q

/-- The nodes below the root. -/
def members (words : List (List Char)) : List Path := words.flatMap fun w => w.inits.tail

theorem mem_members {words : List (List Char)} {q : Path} (hq : isNode words q = true) (hne : q ≠ []) :
    q ∈ members words := by
  obtain ⟨w, hw, hprefix⟩ := (isNode_iff.1 hq).resolve_left hne
  apply List.mem_flatMap.2
  refine ⟨w, hw, ?_⟩
  have hmem := (List.mem_inits q w).2 hprefix
  cases w with
  | nil => exact absurd (List.prefix_nil.1 hprefix) hne
  | cons a w =>
    rw [List.inits_cons, List.mem_cons] at hmem
    exact hmem.resolve_left hne

theorem length_members (words : List (List Char)) :
    (members words).length = (words.map List.length).sum := by
  rw [members, List.length_flatMap]
  congr 1
  apply List.map_congr_left
  intro w _
  rw [List.length_tail, List.length_inits, Nat.add_sub_cancel]

theorem length_le_sum {words : List (List Char)} {w : List Char} (h : w ∈ words) :
    w.length ≤ (words.map List.length).sum := by
  induction words with
  | nil => cases h
  | cons v words ih =>
    rw [List.map_cons, List.sum_cons]
    rcases List.mem_cons.1 h with rfl | h
    · omega
    · have := ih h
      omega

theorem length_of_node {words : List (List Char)} {q : Path} (hq : isNode words q = true) :
    q.length ≤ (words.map List.length).sum := by
  rcases isNode_iff.1 hq with rfl | ⟨w, hw, hprefix⟩
  · exact Nat.zero_le _
  · exact hprefix.length_le.trans (length_le_sum hw)

/-- The root's children are linked to it before the pass. -/
theorem linkRoots_eq (runes : List Char) (nodes : Nodes) :
    Relinked nodes (runes.foldl (fun nodes r => setFail nodes [r] []) nodes) ∧
      ∀ q, (runes.foldl (fun nodes r => setFail nodes [r] []) nodes q).fail =
        if ∃ r ∈ runes, q = [r] then some [] else (nodes q).fail := by
  induction runes using List.reverseRecOn with
  | nil => exact ⟨.refl nodes, by simp⟩
  | append_singleton runes r ih =>
    obtain ⟨hrelinked, hfail⟩ := ih
    rw [List.foldl_append, List.foldl_cons, List.foldl_nil]
    refine ⟨hrelinked.trans (relinked_setFail _ _ _), ?_⟩
    intro q
    rw [setFail_fail, hfail]
    simp only [List.mem_append, List.mem_singleton, or_and_right, exists_or, exists_eq_left]
    by_cases hq : q = [r]
    · rw [if_pos hq, if_pos (.inr hq)]
    · rw [if_neg hq]
      simp only [hq, or_false]

theorem link_singleton {node : Path → Bool} (h : Closed node) (r : Char) : link node [r] = [] := by
  have := length_link h (List.cons_ne_nil r [])
  rw [List.length_singleton] at this
  exact List.length_eq_zero_iff.1 (by omega)

/-- The matcher is built, for every list of words and every order of the visits. -/
theorem buildIdentityAC_eq (toLower : Char → Char) (order : MapOrder) (words : List (List Char)) :
    ∃ nodes, buildIdentityAC toLower order words = some nodes ∧
      Matcher (words.map (lowerString toLower)) nodes := by
  rw [buildIdentityAC]
  generalize words.map (lowerString toLower) = lowered
  have hshape := shape_words lowered
  have hclosed := closed_isNode lowered
  generalize List.foldl addWord (fun _ => {}) lowered = trie at hshape ⊢
  have hchildren (q : Path) (r : Char) : r ∈ (trie q).children ↔ isNode lowered (q ++ [r]) = true := by
    rw [hshape.children, isNode_iff]
  have hperm := order.perm [] (trie []).children
  generalize order.visit [] (trie []).children = runes at hperm ⊢
  have hmem (r : Char) : r ∈ runes ↔ isNode lowered [r] = true := by
    rw [hperm.mem_iff]
    exact hchildren [] r
  obtain ⟨hroots, hfail⟩ := linkRoots_eq runes trie
  generalize runes.foldl (fun nodes r => setFail nodes [r] []) trie = start at hroots hfail ⊢
  have hstart (r : Char) (hr : r ∈ runes) : LinkedAt (isNode lowered) start [r] := by
    rw [LinkedAt, hfail, if_pos ⟨r, hr, rfl⟩, link_singleton hclosed]
  have hqueue (q : Path) (hq : q ∈ runes.map fun r => [r]) : ∃ r ∈ runes, q = [r] := by
    obtain ⟨r, hr, rfl⟩ := List.mem_map.1 hq
    exact ⟨r, hr, rfl⟩
  have hfront : Front (isNode lowered) start (runes.map fun r => [r]) := by
    refine ⟨⟨?_, ?_, ?_⟩, ?_, ?_, ?_, ?_, ?_, ?_⟩
    · intro q r
      rw [hroots.children, hchildren]
    · intro q
      rw [hroots.children]
      exact hshape.nodup q
    · rw [hfail, if_neg (by simp), hshape.fail]
    · intro q hq
      obtain ⟨r, hr, rfl⟩ := hqueue q hq
      exact ⟨(hmem r).1 hr, List.cons_ne_nil r []⟩
    · intro q hq
      obtain ⟨r, hr, rfl⟩ := hqueue q hq
      exact hstart r hr
    · intro q hq hne
      cases q with
      | nil => exact absurd rfl hne
      | cons r rest =>
        have hr : r ∈ runes := (hmem r).2 (hclosed.of_prefix hq (by simp))
        cases rest with
        | nil => exact .inl (hstart r hr)
        | cons a rest =>
          exact .inr ⟨[r], List.mem_map.2 ⟨r, hr, rfl⟩, by simp, by simp⟩
    · rw [List.pairwise_map]
      exact List.pairwise_of_forall fun a b => by simp
    · intro a ha b hb
      obtain ⟨r, -, rfl⟩ := hqueue a ha
      obtain ⟨r', -, rfl⟩ := hqueue b hb
      simp
    · rw [List.pairwise_map]
      have hnodup : runes.Nodup := hperm.nodup_iff.2 (hshape.nodup [])
      apply hnodup.imp
      intro a b hab
      simp [hab, Ne.symm hab]
  have hwork : work (members lowered) (runes.map fun r => [r]) ≤ (lowered.map List.length).sum + 2 := by
    have hle : work (members lowered) (runes.map fun r => [r]) ≤ (members lowered).length :=
      List.countP_le_length
    rw [length_members] at hle
    omega
  obtain ⟨nodes, hrun, hrelinked, hlinked⟩ := linkAll_eq hclosed (fun q hq hne => mem_members hq hne)
    (fun q hq => Nat.add_le_add_right (length_of_node hq) 2) order _ hfront hwork
  refine ⟨nodes, hrun, ?_, ?_, ?_, hlinked⟩
  · intro q r
    rw [hrelinked.children, hroots.children, hchildren]
  · intro q
    rw [hrelinked.isEnd, hroots.isEnd, hshape.ends]
  · intro q hq hne
    rw [hrelinked.word, hroots.word, hshape.spelled q ⟨hq, hne⟩]

end CodeGo.Identity.SensitiveAc
