import Mathlib.Data.List.Infix
import Mathlib.Algebra.Ring.Nat

/-!
# Internet addresses and authorities

Addresses of 128 bits, those of version 4 in their mapped form, with the networks and the classes
they belong to; and the host and the port of an authority, as two readers of it split them.
-/

namespace CodeGo.Lib.Inet

/-- An address in its long form. -/
abbrev IP := BitVec 128

def v4 (a b c d : Nat) : IP :=
  BitVec.ofNat 128 (0xffff * 2 ^ 32 + a * 2 ^ 24 + b * 2 ^ 16 + c * 2 ^ 8 + d)

/-- The address is one of version 4. -/
def isV4 (ip : IP) : Bool := ip >>> 32 == 0xffff

structure IPNet where
  ip : IP
  /-- The length of the mask, counted in the long form. -/
  ones : Nat
  deriving DecidableEq, Repr

def net4 (a b c d ones : Nat) : IPNet := ⟨v4 a b c d, 96 + ones⟩

def net6 (high ones : Nat) : IPNet := ⟨BitVec.ofNat 128 (high * 2 ^ 64), ones⟩

/-- A network holds addresses of its own version only. -/
def IPNet.contains (n : IPNet) (ip : IP) : Bool :=
  isV4 n.ip == isV4 ip && n.ip >>> (128 - n.ones) == ip >>> (128 - n.ones)

def isUnspecified (ip : IP) : Bool := ip == v4 0 0 0 0 || ip == 0

def isLoopback (ip : IP) : Bool := if isV4 ip then (net4 127 0 0 0 8).contains ip else ip == 1

def isLinkLocalUnicast (ip : IP) : Bool :=
  (net4 169 254 0 0 16).contains ip || (net6 0xfe80000000000000 10).contains ip

/-- A multicast address of version 6 with this scope. -/
def isMulticast (scope : Nat) (ip : IP) : Bool :=
  !isV4 ip && ip >>> 120 == 0xff && (ip >>> 112) % 16 == BitVec.ofNat 128 scope

def isLinkLocalMulticast (ip : IP) : Bool := (net4 224 0 0 0 24).contains ip || isMulticast 2 ip

def isInterfaceLocalMulticast (ip : IP) : Bool := isMulticast 1 ip

def private4 : List IPNet := [net4 10 0 0 0 8, net4 172 16 0 0 12, net4 192 168 0 0 16]

def isPrivate (ip : IP) : Bool :=
  private4.any (·.contains ip) || (net6 0xfc00000000000000 7).contains ip

/-- The text before and after the last mark. -/
def splitLast (mark : Char) : List Char → Option (List Char × List Char)
  | [] => none
  | c :: s => match splitLast mark s with
    | some (before, after) => some (c :: before, after)
    | none => if c = mark then some ([], s) else none

theorem splitLast_eq_none {mark : Char} {s : List Char} : splitLast mark s = none ↔ mark ∉ s := by
  induction s with
  | nil => simp [splitLast]
  | cons c s ih =>
    rw [splitLast, List.mem_cons, not_or, ← ih]
    cases splitLast mark s with
    | none => simp [eq_comm]
    | some p => simp

theorem splitLast_append {mark : Char} {after : List Char} (h : mark ∉ after) (before : List Char) :
    splitLast mark (before ++ mark :: after) = some (before, after) := by
  induction before with
  | nil => rw [List.nil_append, splitLast, splitLast_eq_none.2 h, if_pos rfl]
  | cons c before ih => rw [List.cons_append, splitLast, ih]

theorem splitLast_eq_some {mark : Char} {s before after : List Char} :
    splitLast mark s = some (before, after) ↔ s = before ++ mark :: after ∧ mark ∉ after := by
  constructor
  · intro h
    induction s generalizing before with
    | nil => cases h
    | cons c s ih =>
      rw [splitLast] at h
      cases hs : splitLast mark s with
      | some p =>
        rw [hs] at h
        obtain ⟨rfl, rfl⟩ := Prod.mk.inj (Option.some.inj h)
        obtain ⟨rfl, hafter⟩ := ih hs
        exact ⟨rfl, hafter⟩
      | none =>
        rw [hs] at h
        by_cases hc : c = mark
        · replace h := (if_pos hc).symm.trans h
          obtain ⟨rfl, rfl⟩ := Prod.mk.inj (Option.some.inj h)
          exact ⟨by rw [hc]; rfl, splitLast_eq_none.1 hs⟩
        · cases (if_neg hc).symm.trans h
  · rintro ⟨rfl, h⟩
    exact splitLast_append h before

/-- A port of digits is split off. -/
def splitPort (hostPort : List Char) : List Char × List Char :=
  match splitLast ':' hostPort with
  | some (host, port) => if port.all Char.isDigit then (host, port) else (hostPort, [])
  | none => (hostPort, [])

def unbracket (host : List Char) : List Char :=
  if host.head? = some '[' ∧ host.getLast? = some ']' then host.tail.dropLast else host

/-- `URL.Hostname` and `URL.Port`. -/
def splitAuthority (hostPort : List Char) : List Char × List Char :=
  (unbracket (splitPort hostPort).1, (splitPort hostPort).2)

/-- `net.SplitHostPort`; there is nothing where it returns an error. -/
def splitHostPort (hostPort : List Char) : Option (List Char × List Char) :=
  match splitLast ':' hostPort with
  | none => none
  | some (before, port) =>
    if hostPort.head? = some '[' then
      -- the first `]` must stand just before the last colon, and no other bracket anywhere
      let host := hostPort.tail.takeWhile (· ≠ ']')
      if before = '[' :: host ++ [']'] ∧ '[' ∉ hostPort.tail ∧ ']' ∉ port then some (host, port)
      else none
    else if ':' ∈ before ∨ '[' ∈ hostPort ∨ ']' ∈ hostPort then none
    else some (before, port)

/-- Where both readers find a port they find the same. -/
theorem splitAuthority_of_splitHostPort {hostPort host port : List Char}
    (hport : ∀ before after, hostPort = before ++ ':' :: after → ':' ∉ after →
      ']' ∈ after ∨ after.all Char.isDigit = true)
    (h : splitHostPort hostPort = some (host, port)) : splitAuthority hostPort = (host, port) := by
  rw [splitHostPort] at h
  cases hlast : splitLast ':' hostPort with
  | none =>
    rw [hlast] at h
    cases h
  | some p =>
    obtain ⟨before, after⟩ := p
    obtain ⟨hsplit, hcolon⟩ := splitLast_eq_some.1 hlast
    have hdigits := hport before after hsplit hcolon
    rw [hlast] at h
    dsimp only at h
    have hpair (hclose : ']' ∉ after) : splitPort hostPort = (before, after) := by
      rw [splitPort, hlast]
      exact if_pos (hdigits.resolve_left hclose)
    by_cases hopen : hostPort.head? = some '['
    · rw [if_pos hopen] at h
      split at h
      · next hall =>
        obtain ⟨rfl, rfl⟩ := Prod.mk.inj (Option.some.inj h)
        obtain ⟨hbefore, -, hclose⟩ := hall
        rw [splitAuthority, hpair hclose, hbefore, unbracket, if_pos ⟨rfl, List.getLast?_concat⟩]
        simp
      · cases h
    · rw [if_neg hopen] at h
      split at h
      · cases h
      · next hnone =>
        obtain ⟨rfl, rfl⟩ := Prod.mk.inj (Option.some.inj h)
        rw [not_or, not_or] at hnone
        obtain ⟨-, hopened, hclosed⟩ := hnone
        rw [splitAuthority, hpair, unbracket, if_neg]
        · rintro ⟨hhead, -⟩
          apply hopened
          rw [hsplit]
          exact List.mem_append_left _ (List.mem_of_mem_head? hhead)
        · intro hmem
          apply hclosed
          rw [hsplit]
          exact List.mem_append_right _ (List.mem_cons_of_mem _ hmem)

end CodeGo.Lib.Inet
