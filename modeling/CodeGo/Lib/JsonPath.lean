import CodeGo.Lib.Json

/-!
# Paths into JSON

The path language of the JSON setters: dots separate components, a backslash takes the next
character as it stands, and a leading colon keeps a component from being an index. Some characters
ask for more than one place and need to be escaped.
-/

namespace CodeGo.Lib.JsonPath

/-- A component of a path; a forced one is always a key. -/
structure Component where
  part : String
  forced : Bool
  deriving DecidableEq, Repr

def isSpecial (c : Char) : Bool := c == '|' || c == '#' || c == '@' || c == '*' || c == '?'

/-- A component while its characters are read. -/
structure Piece where
  chars : List Char
  forced : Bool
  deriving DecidableEq, Repr

def push (c : Char) : List Piece → List Piece
  | [] => []
  | p :: ps => { p with chars := c :: p.chars } :: ps

def force : List Piece → List Piece
  | [] => []
  | p :: ps => { p with forced := true } :: ps

/-- The pieces of a path, unless a special character stands in it unescaped. -/
def readPieces : Bool → List Char → Option (List Piece)
  | _, [] => some [⟨[], false⟩]
  | start, c :: rest =>
    if start && c == ':' then (readPieces false rest).map force
    else if c == '.' then (readPieces true rest).map (⟨[], false⟩ :: ·)
    else if c == '\\' then
      match rest with
      | [] => some [⟨[], false⟩]
      | d :: rest => (readPieces false rest).map (push d)
    else if isSpecial c then none
    else (readPieces false rest).map (push c)

def component (p : Piece) : Component := ⟨String.ofList p.chars, p.forced⟩

inductive Path where
  | empty
  | special
  | simple (cs : List Component)
  deriving DecidableEq, Repr

def parse (path : String) : Path :=
  if path = "" then .empty
  else
    match readPieces true path.toList with
    | some pieces => .simple (pieces.map component)
    | none => .special

example : parse "a.b\\.c.:0" = .simple [⟨"a", false⟩, ⟨"b.c", false⟩, ⟨"0", true⟩] := by
  decide +kernel

example : parse "a.*" = .special := by decide +kernel

/-- The place in an array that a component names. -/
def index (c : Component) : Option Nat :=
  if c.forced || c.part.isEmpty || !c.part.toList.all Char.isDigit then none
  else some (c.part.toList.foldl (fun n d => 10 * n + (d.toNat - 48)) 0)

/-- The component that stands for the end of an array. -/
def last : Component := ⟨"-1", false⟩

/-- The first member of that name is replaced, or a new one comes last. -/
def putMember (key : String) (value : Json) : List (String × Json) → List (String × Json)
  | [] => [(key, value)]
  | m :: members => if m.1 = key then (key, value) :: members else m :: putMember key value members

/-- Past the end the array is filled up with nulls. -/
def putItem : Nat → Json → List Json → List Json
  | 0, value, [] => [value]
  | 0, value, _ :: items => value :: items
  | i + 1, value, [] => .null :: putItem i value []
  | i + 1, value, item :: items => item :: putItem i value items

/-- Sets a value, and creates what is missing on the way. A text, a number and the like give way to
what is created. -/
def setAt : List Component → Json → Json → Option Json
  | [], value, _ => some value
  | c :: cs, value, .obj members =>
    (setAt cs value ((members.lookup c.part).getD .null)).map fun x =>
      .obj (putMember c.part x members)
  | c :: cs, value, .arr items =>
    match index c with
    | some i => (setAt cs value (items.getD i .null)).map fun x => .arr (putItem i x items)
    | none => if c = last then (setAt cs value .null).map fun x => .arr (items ++ [x]) else none
  | c :: cs, value, _ =>
    match index c with
    | some i => (setAt cs value .null).map fun x => .arr (putItem i x [])
    | none => (setAt cs value .null).map fun x => .obj [(c.part, x)]

def setPath (doc : Json) (path : String) (value : Json) : Option Json :=
  match parse path with
  | .simple cs => setAt cs value doc
  | .special => some doc
  | .empty => none

section Escaping

/-- An escape that covers some of the characters with a meaning. -/
def escapeWith (covered : Char → Bool) (cs : List Char) : List Char :=
  cs.flatMap fun c => if covered c then ['\\', c] else [c]

variable {covered : Char → Bool} {cs : List Char} {c : Char} {start : Bool}

theorem escapeWith_cons :
    escapeWith covered (c :: cs) =
      (if covered c then ['\\', c] else [c]) ++ escapeWith covered cs := rfl

theorem escapeWith_eq_self (h : ∀ c ∈ cs, covered c = false) : escapeWith covered cs = cs := by
  induction cs with
  | nil => rfl
  | cons c cs ih =>
    obtain ⟨hc, hcs⟩ := List.forall_mem_cons.1 h
    rw [escapeWith_cons, ih hcs, hc]
    rfl

/-- A character that is escaped is read as it stands. -/
theorem readPieces_covered (h : covered c = true) :
    readPieces start (escapeWith covered (c :: cs)) =
      (readPieces false (escapeWith covered cs)).map (push c) := by
  rw [escapeWith_cons, h]
  show readPieces start ('\\' :: c :: escapeWith covered cs) = _
  rw [readPieces]
  simp

/-- So is one that needs no escape. -/
theorem readPieces_plain (h : covered c = false) (hdot : c ≠ '.') (hslash : c ≠ '\\')
    (hstart : start = true → c ≠ ':') :
    readPieces start (escapeWith covered (c :: cs)) =
      if isSpecial c then none else (readPieces false (escapeWith covered cs)).map (push c) := by
  rw [escapeWith_cons, h]
  show readPieces start (c :: escapeWith covered cs) = _
  have hcolon : (start && c == ':') = false := by
    cases start with
    | false => rfl
    | true => simpa using hstart rfl
  rw [readPieces.eq_def]
  simp [hcolon, hdot, hslash]

/-- The characters that separate and escape are covered. -/
structure Separates (covered : Char → Bool) : Prop where
  dot : covered '.' = true
  slash : covered '\\' = true

/-- Every special character is covered. -/
def Covers (covered : Char → Bool) (cs : List Char) : Prop :=
  ∀ c ∈ cs, covered c = true ∨ isSpecial c = false

theorem Separates.ne (h : Separates covered) (hc : covered c = false) : c ≠ '.' ∧ c ≠ '\\' := by
  constructor
  · rintro rfl
    rw [h.dot] at hc
    cases hc
  · rintro rfl
    rw [h.slash] at hc
    cases hc

theorem readPieces_colon (h : covered ':' = false) :
    readPieces true (escapeWith covered (':' :: cs)) =
      (readPieces false (escapeWith covered cs)).map force := by
  rw [escapeWith_cons, h]
  show readPieces true (':' :: escapeWith covered cs) = _
  rw [readPieces.eq_def]
  simp

/-- Escaped characters are one piece. -/
theorem readPieces_escapeWith (hsep : Separates covered) (h : Covers covered cs)
    (hstart : start = true → cs.head? ≠ some ':') :
    readPieces start (escapeWith covered cs) = some [⟨cs, false⟩] := by
  induction cs generalizing start with
  | nil => rfl
  | cons c cs ih =>
    obtain ⟨hc, hcs⟩ := List.forall_mem_cons.1 h
    have hrest : readPieces false (escapeWith covered cs) = some [⟨cs, false⟩] := ih hcs nofun
    cases hcovered : covered c with
    | true =>
      rw [readPieces_covered hcovered, hrest]
      rfl
    | false =>
      have hplain : isSpecial c = false := hc.resolve_left (by simp [hcovered])
      obtain ⟨hdot, hslash⟩ := hsep.ne hcovered
      rw [readPieces_plain hcovered hdot hslash (fun h heq => hstart h (by rw [heq]; rfl)), hplain,
        hrest]
      rfl

/-- A special character that is not covered is seen. -/
theorem readPieces_special (hsep : Separates covered) (hcolon : covered ':' = false)
    (h : ¬ Covers covered cs) : readPieces start (escapeWith covered cs) = none := by
  induction cs generalizing start with
  | nil => exact absurd nofun h
  | cons c cs ih =>
    by_cases hcs : Covers covered cs
    · have hc : covered c = false ∧ isSpecial c = true := by
        by_contra hc
        refine h (List.forall_mem_cons.2 ⟨?_, hcs⟩)
        cases hcovered : covered c <;> cases hspecial : isSpecial c <;> simp_all
      obtain ⟨hdot, hslash⟩ := hsep.ne hc.1
      have hne : c ≠ ':' := by
        rintro rfl
        exact absurd hc.2 (by decide)
      rw [readPieces_plain hc.1 hdot hslash (fun _ => hne), hc.2]
      rfl
    · have hrest : readPieces false (escapeWith covered cs) = none := ih hcs
      by_cases hforce : start = true ∧ c = ':'
      · obtain ⟨rfl, rfl⟩ := hforce
        rw [readPieces_colon hcolon, hrest]
        rfl
      cases hcovered : covered c with
      | true =>
        rw [readPieces_covered hcovered, hrest]
        rfl
      | false =>
        obtain ⟨hdot, hslash⟩ := hsep.ne hcovered
        rw [readPieces_plain hcovered hdot hslash (fun h heq => hforce ⟨h, heq⟩), hrest]
        cases isSpecial c <;> rfl

end Escaping

end CodeGo.Lib.JsonPath
