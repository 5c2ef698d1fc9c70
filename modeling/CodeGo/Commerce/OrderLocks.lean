import Mathlib.Algebra.BigOperators.Group.Finset.Basic
import Mathlib.Algebra.Order.BigOperators.Group.Finset
import Mathlib.Data.Fintype.Basic

/-!
# The lock of an order

`LockOrder` and `UnlockOrder` of `payment_support.go` in `internal/commerce/app`: a mutex for each
trade number, made when it is first asked for and dropped when nobody refers to it any more. The
goroutines `G` take atomic steps in any order.
-/

namespace CodeGo.Commerce.OrderLocks

variable {G T : Type}

section Model

/-- A mutex of `refCountedMutex`, by its address. -/
abbrev Ref := Nat

/-- Where a goroutine stands: in front of the step that is named. -/
inductive Pc (T : Type) where
  | idle
  /-- `LockOrder`: `createLock.Lock()` -/
  | enter (t : T)
  | load (t : T)
  | store (t : T)
  /-- `rcm.refCount++` -/
  | count (t : T) (r : Ref)
  | leave (t : T) (r : Ref)
  /-- `rcm.mu.Lock()` -/
  | wait (t : T) (r : Ref)
  /-- `UnlockOrder`: `orderLocks.Load(tradeNo)` -/
  | find (t : T)
  /-- `rcm.mu.Unlock()` -/
  | release (t : T) (r : Ref)
  | reenter (t : T) (r : Ref)
  /-- `rcm.refCount--` -/
  | uncount (t : T) (r : Ref)
  | check (t : T) (r : Ref)
  | delete (t : T) (r : Ref)
  | exit (t : T)
  /-- The runtime stops a program that unlocks a mutex which is not locked. -/
  | crashed

structure State (G T : Type) where
  createLock : Option G
  orderLocks : T → Option Ref
  /-- Who locked a mutex. -/
  mu : Ref → Option G
  refCount : Ref → Int
  /-- The next address that is free. -/
  fresh : Ref
  pc : G → Pc T
  /-- The mutex that a goroutine locked for a trade number, from the return of `LockOrder` until it
  is unlocked. -/
  held : G → T → Option Ref

def init : State G T :=
  ⟨none, fun _ => none, fun _ => none, fun _ => 0, 0, fun _ => .idle, fun _ _ => none⟩

/-- What the scheduler lets a goroutine do: call a function, or take the next step of its call. -/
inductive Act (T : Type) where
  | lockOrder (t : T)
  | unlockOrder (t : T)
  | step

variable [DecidableEq G] [DecidableEq T]

def State.goto (s : State G T) (g : G) (pc : Pc T) : State G T :=
  { s with pc := Function.update s.pc g pc }

/-- The next step of the call that the goroutine is in. -/
def next (s : State G T) (g : G) : Option (State G T) :=
  match s.pc g with
  | .idle | .crashed => none
  | .enter t => if s.createLock = none then some { s.goto g (.load t) with createLock := some g } else none
  | .load t =>
    match s.orderLocks t with
    | some r => some (s.goto g (.count t r))
    | none => some (s.goto g (.store t))
  | .store t =>
    some { s.goto g (.count t s.fresh) with
      orderLocks := Function.update s.orderLocks t (some s.fresh)
      fresh := s.fresh + 1 }
  | .count t r =>
    some { s.goto g (.leave t r) with
      refCount := Function.update s.refCount r (s.refCount r + 1) }
  | .leave t r => some { s.goto g (.wait t r) with createLock := none }
  | .wait t r =>
    if s.mu r = none then
      some { s.goto g .idle with
        mu := Function.update s.mu r (some g)
        held := Function.update s.held g (Function.update (s.held g) t (some r)) }
    else none
  | .find t =>
    match s.orderLocks t with
    | some r => some (s.goto g (.release t r))
    | none => some (s.goto g .idle)
  | .release t r =>
    if s.mu r = none then some (s.goto g .crashed)
    else
      some { s.goto g (.reenter t r) with
        mu := Function.update s.mu r none
        held := Function.update s.held g (Function.update (s.held g) t none) }
  | .reenter t r =>
    if s.createLock = none then some { s.goto g (.uncount t r) with createLock := some g } else none
  | .uncount t r =>
    some { s.goto g (.check t r) with
      refCount := Function.update s.refCount r (s.refCount r - 1) }
  | .check t r => some (s.goto g (if s.refCount r = 0 then .delete t r else .exit t))
  | .delete t _ =>
    some { s.goto g (.exit t) with orderLocks := Function.update s.orderLocks t none }
  | .exit _ => some { s.goto g .idle with createLock := none }

/-- A goroutine calls `UnlockOrder` for what its `LockOrder` calls have locked. -/
def move (s : State G T) (g : G) : Act T → Option (State G T)
  | .lockOrder t =>
    match s.pc g with
    | .idle => some (s.goto g (.enter t))
    | _ => none
  | .unlockOrder t =>
    match s.pc g with
    | .idle => if (s.held g t).isSome then some (s.goto g (.find t)) else none
    | _ => none
  | .step => next s g

/-- The run that a schedule leads to; a move that is not enabled is no move. -/
def run (schedule : List (G × Act T)) : State G T :=
  schedule.foldl (fun s m => (move s m.1 m.2).getD s) init

end Model

/-- The references that a goroutine holds to the mutex of a trade number and that are counted. -/
def Pc.counted [DecidableEq T] (t : T) : Pc T → Nat
  | .leave u _ | .wait u _ | .reenter u _ | .uncount u _ => if u = t then 1 else 0
  | _ => 0

def references [DecidableEq T] (s : State G T) (t : T) (g : G) : Nat :=
  (if (s.held g t).isSome then 1 else 0) + (s.pc g).counted t

/-- What holds where a goroutine stands. -/
def Fits (s : State G T) (g : G) : Prop :=
  match s.pc g with
  | .idle | .enter _ => s.createLock ≠ some g
  | .load _ | .exit _ => s.createLock = some g
  | .store t => s.createLock = some g ∧ s.orderLocks t = none
  | .count t r | .leave t r | .uncount t r | .check t r =>
    s.createLock = some g ∧ s.orderLocks t = some r
  | .wait t r | .reenter t r => s.createLock ≠ some g ∧ s.orderLocks t = some r
  | .find t => s.createLock ≠ some g ∧ (s.held g t).isSome
  | .release t r => s.createLock ≠ some g ∧ s.held g t = some r
  | .delete t r => s.createLock = some g ∧ s.orderLocks t = some r ∧ s.refCount r = 0
  | .crashed => False

/-- The goroutine that keeps an entry to which nobody refers in the map. -/
def Pc.handles (t : T) (r : Ref) (pc : Pc T) : Prop :=
  pc = .count t r ∨ pc = .check t r ∨ pc = .delete t r

structure Inv [Fintype G] [DecidableEq T] (s : State G T) : Prop where
  fits : ∀ g, Fits s g
  held : ∀ g t r, s.held g t = some r → s.orderLocks t = some r ∧ s.mu r = some g
  owner : ∀ r g, s.mu r = some g → ∃ t, s.held g t = some r
  injective : ∀ t u r, s.orderLocks t = some r → s.orderLocks u = some r → t = u
  refCount : ∀ t r, s.orderLocks t = some r → s.refCount r = ∑ g, references s t g
  used : ∀ t r, s.orderLocks t = some r → 0 < ∑ g, references s t g ∨ ∃ g, (s.pc g).handles t r
  below : ∀ t r, s.orderLocks t = some r → r < s.fresh
  dropped : ∀ r, (∀ t, s.orderLocks t ≠ some r) → s.refCount r = 0

section Frame

variable [DecidableEq T] {s s' : State G T} {g : G}

/-- Steps of others that leave alone what the goroutine refers to. -/
theorem Fits.frame (h : Fits s g) (hpc : s'.pc g = s.pc g) (hheld : s'.held g = s.held g)
    (hlock : s'.createLock = some g ↔ s.createLock = some g)
    (hmap : ∀ t r, 0 < references s t g → s.orderLocks t = some r → s'.orderLocks t = some r)
    (hcritical : s.createLock = some g → s'.orderLocks = s.orderLocks ∧ s'.refCount = s.refCount) :
    Fits s' g := by
  unfold Fits at *
  rw [hpc, hheld]
  cases hp : s.pc g <;> simp only [hp] at h ⊢
  case wait t r =>
    refine ⟨by rw [ne_eq, hlock]; exact h.1, hmap t r ?_ h.2⟩
    simp [references, hp, Pc.counted]
  case reenter t r =>
    refine ⟨by rw [ne_eq, hlock]; exact h.1, hmap t r ?_ h.2⟩
    simp [references, hp, Pc.counted]
  all_goals grind

/-- A mutex that is not in the map is not locked, and nobody refers to its trade number. -/
theorem Inv.references_eq_zero [Fintype G] (h : Inv s) {t : T} (hnone : s.orderLocks t = none) (g : G) :
    references s t g = 0 := by
  have hheld : s.held g t = none := by
    cases hr : s.held g t with
    | none => rfl
    | some r =>
      have := (h.held g t r hr).1
      rw [hnone] at this
      cases this
  have hpc : (s.pc g).counted t = 0 := by
    have hfit := h.fits g
    unfold Fits at hfit
    cases hp : s.pc g <;> simp only [hp, Pc.counted] at hfit ⊢
    all_goals
      split
      · grind
      · rfl
  rw [references, hheld, hpc]
  rfl

/-- The references of one goroutine change. -/
theorem sum_references [Fintype G] [DecidableEq G] {t : T}
    (hother : ∀ g', g' ≠ g → references s' t g' = references s t g') :
    ∑ g', references s' t g' + references s t g = ∑ g', references s t g' + references s' t g := by
  rw [← Finset.add_sum_erase _ (references s' t) (Finset.mem_univ g),
    ← Finset.add_sum_erase _ (references s t) (Finset.mem_univ g)]
  have hrest : ∑ g' ∈ Finset.univ.erase g, references s' t g' =
      ∑ g' ∈ Finset.univ.erase g, references s t g' :=
    Finset.sum_congr rfl fun g' hg' => hother g' (Finset.ne_of_mem_erase hg')
  omega

end Frame

section Steps

variable [Fintype G] [DecidableEq G] [DecidableEq T] {s s' : State G T} {g : G}

/-- A goroutine moves on, and takes or gives back the lock of the map at most. -/
theorem Inv.goto (h : Inv s) {p : Pc T} {l : Option G}
    (hlock : ∀ g', g' ≠ g → (l = some g' ↔ s.createLock = some g'))
    (hfit : Fits { s.goto g p with createLock := l } g)
    (hcount : ∀ t, p.counted t = (s.pc g).counted t)
    (hhandles : ∀ t r, (s.pc g).handles t r → p.handles t r ∨ 0 < ∑ g, references s t g) :
    Inv { s.goto g p with createLock := l } := by
  have hrefs : ∀ t, references { s.goto g p with createLock := l } t = references s t := by
    intro t
    funext g'
    by_cases hg : g' = g
    · subst hg
      simp only [references, State.goto, Function.update_self, hcount]
      rfl
    · simp only [references, State.goto, Function.update_of_ne hg]
      rfl
  constructor
  · intro g'
    by_cases hg : g' = g
    · rw [hg]
      exact hfit
    · exact (h.fits g').frame (by simp [State.goto, hg]) rfl (hlock g' hg) (fun _ _ _ h => h)
        fun _ => ⟨rfl, rfl⟩
  · exact h.held
  · exact h.owner
  · exact h.injective
  · intro t r ht
    rw [hrefs]
    exact h.refCount t r ht
  · intro t r ht
    rw [hrefs]
    rcases h.used t r ht with hpos | ⟨g', hg'⟩
    · exact .inl hpos
    · by_cases hg : g' = g
      · subst hg
        rcases hhandles t r hg' with hp | hpos
        · exact .inr ⟨g', by simpa [State.goto] using hp⟩
        · exact .inl hpos
      · exact .inr ⟨g', by simpa [State.goto, hg] using hg'⟩
  · exact h.below
  · exact h.dropped

/-- A goroutine asks for the mutex of a trade number that has none. -/
theorem Inv.store (h : Inv s) {t : T} (hp : s.pc g = .store t) :
    Inv { s.goto g (.count t s.fresh) with
      orderLocks := Function.update s.orderLocks t (some s.fresh)
      fresh := s.fresh + 1 } := by
  have hfit := h.fits g
  simp only [Fits, hp] at hfit
  obtain ⟨hlock, hnone⟩ := hfit
  have hunused : ∀ u, s.orderLocks u ≠ some s.fresh := fun u hu => Nat.lt_irrefl _ (h.below u _ hu)
  have hmap : ∀ u r, Function.update s.orderLocks t (some s.fresh) u = some r →
      u = t ∧ r = s.fresh ∨ u ≠ t ∧ s.orderLocks u = some r := by
    intro u r hu
    by_cases hut : u = t
    · subst hut
      rw [Function.update_self] at hu
      exact .inl ⟨rfl, (Option.some.inj hu).symm⟩
    · rw [Function.update_of_ne hut] at hu
      exact .inr ⟨hut, hu⟩
  have hkeep : ∀ u r, s.orderLocks u = some r →
      Function.update s.orderLocks t (some s.fresh) u = some r := by
    intro u r hu
    have hut : u ≠ t := by
      rintro rfl
      rw [hnone] at hu
      cases hu
    rw [Function.update_of_ne hut, hu]
  have hrefs : ∀ u, references { s.goto g (.count t s.fresh) with
      orderLocks := Function.update s.orderLocks t (some s.fresh)
      fresh := s.fresh + 1 } u = references s u := by
    intro u
    funext g'
    by_cases hg : g' = g
    · subst hg
      simp only [references, State.goto, Function.update_self, hp, Pc.counted]
      rfl
    · simp only [references, State.goto, Function.update_of_ne hg]
      rfl
  constructor
  · intro g'
    by_cases hg : g' = g
    · subst hg
      simp [Fits, State.goto, hlock]
    · exact (h.fits g').frame (by simp [State.goto, hg]) rfl Iff.rfl (fun u r _ hu => hkeep u r hu)
        fun hl => absurd (Option.some.inj (hlock.symm.trans hl)).symm hg
  · intro g' u r hr
    obtain ⟨hu, hmu⟩ := h.held g' u r hr
    exact ⟨hkeep u r hu, hmu⟩
  · exact h.owner
  · intro u v r hu hv
    rcases hmap u r hu with ⟨rfl, rfl⟩ | ⟨-, hu⟩
    · rcases hmap v _ hv with ⟨rfl, -⟩ | ⟨-, hv⟩
      · rfl
      · exact absurd hv (hunused v)
    · rcases hmap v r hv with ⟨-, rfl⟩ | ⟨-, hv⟩
      · exact absurd hu (hunused u)
      · exact h.injective u v r hu hv
  · intro u r hu
    rw [hrefs]
    rcases hmap u r hu with ⟨rfl, rfl⟩ | ⟨-, hu⟩
    · rw [Finset.sum_eq_zero fun g' _ => h.references_eq_zero hnone g']
      exact h.dropped s.fresh hunused
    · exact h.refCount u r hu
  · intro u r hu
    rw [hrefs]
    rcases hmap u r hu with ⟨rfl, rfl⟩ | ⟨-, hu⟩
    · exact .inr ⟨g, .inl (by simp [State.goto])⟩
    · rcases h.used u r hu with hpos | ⟨g', hg'⟩
      · exact .inl hpos
      · refine .inr ⟨g', ?_⟩
        have hg : g' ≠ g := by
          rintro rfl
          simp [Pc.handles, hp] at hg'
        simpa [State.goto, hg] using hg'
  · intro u r hu
    rcases hmap u r hu with ⟨-, rfl⟩ | ⟨-, hu⟩
    · exact Nat.lt_succ_self _
    · exact Nat.lt_succ_of_lt (h.below u r hu)
  · intro r hr
    exact h.dropped r fun u hu => hr u (hkeep u r hu)

/-- A goroutine counts its reference to the mutex, or takes it back. -/
theorem Inv.recount (h : Inv s) {t : T} {r : Ref} {p : Pc T} {n : Int}
    (hlock : s.createLock = some g) (ht : s.orderLocks t = some r)
    (hn : n + (s.pc g).counted t = s.refCount r + p.counted t)
    (hcount : ∀ u, u ≠ t → p.counted u = (s.pc g).counted u)
    (hfit : Fits { s.goto g p with refCount := Function.update s.refCount r n } g)
    (hhandles : p.handles t r ∨ 0 < p.counted t)
    (hpc : ∀ u x, (s.pc g).handles u x → u = t) :
    Inv { s.goto g p with refCount := Function.update s.refCount r n } := by
  generalize hs' : { s.goto g p with refCount := Function.update s.refCount r n } = s' at hfit ⊢
  have hrefs : ∀ u g', references s' u g' =
      if g' = g then (if (s.held g u).isSome then 1 else 0) + p.counted u else references s u g' := by
    intro u g'
    subst hs'
    by_cases hg : g' = g
    · subst hg
      rw [if_pos rfl]
      simp only [references, State.goto, Function.update_self]
      rfl
    · rw [if_neg hg]
      simp only [references, State.goto, Function.update_of_ne hg]
      rfl
  have hsame : ∀ u, u ≠ t → ∑ g', references s' u g' = ∑ g', references s u g' := by
    intro u hu
    refine Finset.sum_congr rfl fun g' _ => ?_
    rw [hrefs]
    split
    · rename_i hg
      rw [hg, references, hcount u hu]
    · rfl
  have hsum : ∑ g', references s' t g' + references s t g =
      ∑ g', references s t g' + references s' t g :=
    sum_references fun g' hg => by rw [hrefs, if_neg hg]
  rw [hrefs t g, if_pos rfl, references] at hsum
  have hother : ∀ u x, s.orderLocks u = some x → u ≠ t → x ≠ r := by
    rintro u x hu hut rfl
    exact hut (h.injective u t x hu ht)
  have hfields : s'.orderLocks = s.orderLocks ∧ s'.mu = s.mu ∧ s'.held = s.held ∧
      s'.fresh = s.fresh ∧ s'.refCount = Function.update s.refCount r n ∧
      s'.createLock = s.createLock ∧ s'.pc = Function.update s.pc g p := by
    subst hs'
    exact ⟨rfl, rfl, rfl, rfl, rfl, rfl, rfl⟩
  obtain ⟨hmap, hmu, hheld, hfresh, hcounts, hcreate, hpcs⟩ := hfields
  constructor
  · intro g'
    by_cases hg : g' = g
    · rw [hg]
      exact hfit
    · refine (h.fits g').frame (by rw [hpcs, Function.update_of_ne hg]) (by rw [hheld])
        (by rw [hcreate]) (fun u x _ hu => by rw [hmap, hu]) fun hl => ?_
      exact absurd (Option.some.inj (hlock.symm.trans hl)).symm hg
  · rw [hheld, hmap, hmu]
    exact h.held
  · rw [hheld, hmu]
    exact h.owner
  · rw [hmap]
    exact h.injective
  · intro u x hu
    rw [hmap] at hu
    rw [hcounts]
    by_cases hut : u = t
    · subst hut
      obtain rfl : r = x := Option.some.inj (ht.symm.trans hu)
      have hbefore := h.refCount u r hu
      rw [Function.update_self]
      omega
    · rw [Function.update_of_ne (hother u x hu hut), hsame u hut]
      exact h.refCount u x hu
  · intro u x hu
    rw [hmap] at hu
    by_cases hut : u = t
    · subst hut
      obtain rfl : r = x := Option.some.inj (ht.symm.trans hu)
      rcases hhandles with hp | hp
      · exact .inr ⟨g, by rw [hpcs, Function.update_self]; exact hp⟩
      · have hle := Finset.single_le_sum (f := references s' u) (fun _ _ => Nat.zero_le _)
          (Finset.mem_univ g)
        rw [hrefs, if_pos rfl] at hle
        exact .inl (by omega)
    · rw [hsame u hut]
      rcases h.used u x hu with hpos | ⟨g', hg'⟩
      · exact .inl hpos
      · refine .inr ⟨g', ?_⟩
        have hg : g' ≠ g := by
          rintro rfl
          exact hut (hpc u x hg')
        rw [hpcs, Function.update_of_ne hg]
        exact hg'
  · rw [hmap, hfresh]
    exact h.below
  · intro x hx
    rw [hmap] at hx
    have hxr : x ≠ r := by
      rintro rfl
      exact hx t ht
    rw [hcounts, Function.update_of_ne hxr]
    exact h.dropped x hx

/-- A goroutine locks the mutex or unlocks it. -/
theorem Inv.hold (h : Inv s) {t : T} {r : Ref} {p : Pc T} {m : Option G} {held : Option Ref}
    (ht : s.orderLocks t = some r)
    (hm : m = some g ∧ held = some r ∨ m = none ∧ held = none)
    (halone : ∀ g' u, s.held g' u = some r → g' = g ∧ u = t)
    (hcount : ∀ u, (if u = t then (if held.isSome then 1 else 0) else if (s.held g u).isSome then 1 else 0) +
      p.counted u = references s u g)
    (hfit : Fits { s.goto g p with
      mu := Function.update s.mu r m
      held := Function.update s.held g (Function.update (s.held g) t held) } g)
    (hpc : ∀ u x, ¬ (s.pc g).handles u x) :
    Inv { s.goto g p with
      mu := Function.update s.mu r m
      held := Function.update s.held g (Function.update (s.held g) t held) } := by
  generalize hs' : { s.goto g p with
      mu := Function.update s.mu r m
      held := Function.update s.held g (Function.update (s.held g) t held) } = s' at hfit ⊢
  have hfields : s'.orderLocks = s.orderLocks ∧ s'.mu = Function.update s.mu r m ∧
      s'.held = Function.update s.held g (Function.update (s.held g) t held) ∧
      s'.fresh = s.fresh ∧ s'.refCount = s.refCount ∧
      s'.createLock = s.createLock ∧ s'.pc = Function.update s.pc g p := by
    subst hs'
    exact ⟨rfl, rfl, rfl, rfl, rfl, rfl, rfl⟩
  obtain ⟨hmap, hmu, hheld, hfresh, hcounts, hcreate, hpcs⟩ := hfields
  have hrefs : ∀ u, references s' u = references s u := by
    intro u
    funext g'
    by_cases hg : g' = g
    · subst hg
      rw [← hcount u, references, hpcs, hheld, Function.update_self, Function.update_self]
      by_cases hut : u = t
      · subst hut
        rw [if_pos rfl, Function.update_self]
      · rw [if_neg hut, Function.update_of_ne hut]
    · rw [references, references, hpcs, hheld, Function.update_of_ne hg, Function.update_of_ne hg]
  have hbefore : ∀ g' u x, s'.held g' u = some x →
      g' = g ∧ u = t ∧ held = some x ∨ ¬ (g' = g ∧ u = t) ∧ s.held g' u = some x := by
    intro g' u x hx
    rw [hheld] at hx
    by_cases hg : g' = g
    · subst hg
      rw [Function.update_self] at hx
      by_cases hut : u = t
      · subst hut
        rw [Function.update_self] at hx
        exact .inl ⟨rfl, rfl, hx⟩
      · rw [Function.update_of_ne hut] at hx
        exact .inr ⟨fun h => hut h.2, hx⟩
    · rw [Function.update_of_ne hg] at hx
      exact .inr ⟨fun h => hg h.1, hx⟩
  constructor
  · intro g'
    by_cases hg : g' = g
    · rw [hg]
      exact hfit
    · exact (h.fits g').frame (by rw [hpcs, Function.update_of_ne hg])
        (by rw [hheld, Function.update_of_ne hg]) (by rw [hcreate]) (fun u x _ hu => by rw [hmap, hu])
        fun _ => ⟨hmap, hcounts⟩
  · intro g' u x hx
    rw [hmap, hmu]
    rcases hbefore g' u x hx with ⟨rfl, rfl, hxs⟩ | ⟨hne, hx⟩
    · rcases hm with ⟨rfl, hr⟩ | ⟨-, hr⟩
      · obtain rfl : r = x := Option.some.inj (hr.symm.trans hxs)
        exact ⟨ht, Function.update_self ..⟩
      · rw [hr] at hxs
        cases hxs
    · have hxr : x ≠ r := by
        rintro rfl
        exact hne (halone g' u hx)
      rw [Function.update_of_ne hxr]
      exact h.held g' u x hx
  · intro x g' hx
    rw [hmu] at hx
    by_cases hxr : x = r
    · subst hxr
      rw [Function.update_self] at hx
      rcases hm with ⟨rfl, hr⟩ | ⟨rfl, -⟩
      · obtain rfl := Option.some.inj hx
        exact ⟨t, by rw [hheld, Function.update_self, Function.update_self, hr]⟩
      · cases hx
    · rw [Function.update_of_ne hxr] at hx
      obtain ⟨u, hu⟩ := h.owner x g' hx
      refine ⟨u, ?_⟩
      rw [hheld]
      by_cases hg : g' = g
      · subst hg
        have hut : u ≠ t := by
          rintro rfl
          exact hxr (Option.some.inj ((h.held g' u x hu).1.symm.trans ht))
        rw [Function.update_self, Function.update_of_ne hut, hu]
      · rw [Function.update_of_ne hg, hu]
  · rw [hmap]
    exact h.injective
  · intro u x hu
    rw [hmap] at hu
    rw [hcounts, hrefs]
    exact h.refCount u x hu
  · intro u x hu
    rw [hmap] at hu
    rw [hrefs]
    rcases h.used u x hu with hpos | ⟨g', hg'⟩
    · exact .inl hpos
    · refine .inr ⟨g', ?_⟩
      have hg : g' ≠ g := by
        rintro rfl
        exact hpc u x hg'
      rw [hpcs, Function.update_of_ne hg]
      exact hg'
  · rw [hmap, hfresh]
    exact h.below
  · rw [hmap, hcounts]
    exact h.dropped

/-- A goroutine drops the entry of a mutex that nobody refers to. -/
theorem Inv.delete (h : Inv s) {t : T} {r : Ref} (hp : s.pc g = .delete t r) :
    Inv { s.goto g (.exit t) with orderLocks := Function.update s.orderLocks t none } := by
  have hfit := h.fits g
  simp only [Fits, hp] at hfit
  obtain ⟨hlock, ht, hzero⟩ := hfit
  have hnobody : ∀ g', references s t g' = 0 := by
    intro g'
    have hsum := h.refCount t r ht
    have hle := Finset.single_le_sum (f := references s t) (fun _ _ => Nat.zero_le _)
      (Finset.mem_univ g')
    omega
  have hkeep : ∀ u g' x, 0 < references s u g' → s.orderLocks u = some x →
      Function.update s.orderLocks t none u = some x := by
    intro u g' x hpos hu
    have hut : u ≠ t := by
      rintro rfl
      rw [hnobody g'] at hpos
      exact Nat.lt_irrefl 0 hpos
    rw [Function.update_of_ne hut, hu]
  have hback : ∀ u x, Function.update s.orderLocks t none u = some x →
      u ≠ t ∧ s.orderLocks u = some x := by
    intro u x hu
    by_cases hut : u = t
    · subst hut
      rw [Function.update_self] at hu
      cases hu
    · rw [Function.update_of_ne hut] at hu
      exact ⟨hut, hu⟩
  have hrefs : ∀ u, references { s.goto g (.exit t) with
      orderLocks := Function.update s.orderLocks t none } u = references s u := by
    intro u
    funext g'
    by_cases hg : g' = g
    · subst hg
      simp only [references, State.goto, Function.update_self, hp, Pc.counted]
      rfl
    · simp only [references, State.goto, Function.update_of_ne hg]
      rfl
  constructor
  · intro g'
    by_cases hg : g' = g
    · subst hg
      simpa [Fits, State.goto] using hlock
    · exact (h.fits g').frame (by simp [State.goto, hg]) rfl Iff.rfl (fun u x hpos hu => hkeep u g' x hpos hu)
        fun hl => absurd (Option.some.inj (hlock.symm.trans hl)).symm hg
  · intro g' u x hx
    obtain ⟨hu, hmu⟩ := h.held g' u x hx
    have hsome : s.held g' u = some x := hx
    exact ⟨hkeep u g' x (by simp [references, hsome]) hu, hmu⟩
  · exact h.owner
  · intro u v x hu hv
    exact h.injective u v x (hback u x hu).2 (hback v x hv).2
  · intro u x hu
    rw [hrefs]
    exact h.refCount u x (hback u x hu).2
  · intro u x hu
    rw [hrefs]
    obtain ⟨hut, hu⟩ := hback u x hu
    rcases h.used u x hu with hpos | ⟨g', hg'⟩
    · exact .inl hpos
    · refine .inr ⟨g', ?_⟩
      have hg : g' ≠ g := by
        rintro rfl
        simp only [Pc.handles, hp, reduceCtorEq, Pc.delete.injEq, false_or] at hg'
        exact hut hg'.1.symm
      simpa [State.goto, hg] using hg'
  · intro u x hu
    exact h.below u x (hback u x hu).2
  · intro x hx
    by_cases hxr : x = r
    · rw [hxr]
      exact hzero
    · apply h.dropped x
      intro u hu
      have hut : u ≠ t := by
        rintro rfl
        exact hxr (Option.some.inj (hu.symm.trans ht))
      exact hx u ((Function.update_of_ne hut _ _).trans hu)

theorem Inv.next (h : Inv s) (hs : next s g = some s') : Inv s' := by
  have hfit := h.fits g
  unfold OrderLocks.next at hs
  cases hp : s.pc g with
  | idle => simp [hp] at hs
  | crashed => simp [Fits, hp] at hfit
  | enter t =>
    simp only [Fits, hp] at hfit hs
    split at hs
    · rename_i hfree
      obtain rfl := Option.some.inj hs
      apply h.goto
      · intro g' hg
        simp [hfree, Ne.symm hg]
      · simp [Fits, State.goto]
      · simp [hp, Pc.counted]
      · simp [hp, Pc.handles]
    · cases hs
  | load t =>
    simp only [Fits, hp] at hfit hs
    split at hs
    · rename_i r ht
      obtain rfl := Option.some.inj hs
      apply h.goto
      · exact fun _ _ => Iff.rfl
      · simp [Fits, State.goto, hfit, ht]
      · simp [hp, Pc.counted]
      · simp [hp, Pc.handles]
    · rename_i ht
      obtain rfl := Option.some.inj hs
      apply h.goto
      · exact fun _ _ => Iff.rfl
      · simp [Fits, State.goto, hfit, ht]
      · simp [hp, Pc.counted]
      · simp [hp, Pc.handles]
  | store t =>
    simp only [hp] at hs
    obtain rfl := Option.some.inj hs
    exact h.store hp
  | count t r =>
    simp only [Fits, hp] at hfit hs
    obtain rfl := Option.some.inj hs
    apply h.recount hfit.1 hfit.2
    · simp [hp, Pc.counted]
    · intro u hu
      simp [hp, Pc.counted, Ne.symm hu]
    · simp [Fits, State.goto, hfit]
    · exact .inr (by simp [Pc.counted])
    · simp +contextual [hp, Pc.handles]
  | leave t r =>
    simp only [Fits, hp] at hfit hs
    obtain rfl := Option.some.inj hs
    apply h.goto
    · intro g' hg
      simp [hfit.1, Ne.symm hg]
    · simp [Fits, State.goto, hfit]
    · simp [hp, Pc.counted]
    · simp [hp, Pc.handles]
  | wait t r =>
    simp only [Fits, hp] at hfit hs
    split at hs
    · rename_i hfree
      obtain rfl := Option.some.inj hs
      have hnone : s.held g t = none := by
        cases hheld : s.held g t with
        | none => rfl
        | some x =>
          obtain ⟨hx, hmu⟩ := h.held g t x hheld
          obtain rfl : r = x := Option.some.inj (hfit.2.symm.trans hx)
          rw [hfree] at hmu
          cases hmu
      apply h.hold hfit.2 (.inl ⟨rfl, rfl⟩)
      · intro g' u hu
        have hmu := (h.held g' u r hu).2
        rw [hfree] at hmu
        cases hmu
      · intro u
        by_cases hu : u = t
        · simp [hu, references, hnone, hp, Pc.counted]
        · simp [hu, Ne.symm hu, references, hp, Pc.counted]
      · simp [Fits, State.goto, hfit]
      · simp [hp, Pc.handles]
    · cases hs
  | find t =>
    simp only [Fits, hp] at hfit hs
    obtain ⟨r, hr⟩ := Option.isSome_iff_exists.1 hfit.2
    rw [(h.held g t r hr).1] at hs
    obtain rfl := Option.some.inj hs
    apply h.goto
    · exact fun _ _ => Iff.rfl
    · simp [Fits, State.goto, hfit.1, hr]
    · simp [hp, Pc.counted]
    · simp [hp, Pc.handles]
  | release t r =>
    simp only [Fits, hp] at hfit hs
    obtain ⟨ht, hmu⟩ := h.held g t r hfit.2
    rw [if_neg (by simp [hmu])] at hs
    obtain rfl := Option.some.inj hs
    apply h.hold ht (.inr ⟨rfl, rfl⟩)
    · intro g' u hu
      obtain ⟨hut, hmu'⟩ := h.held g' u r hu
      exact ⟨Option.some.inj (hmu'.symm.trans hmu), h.injective u t r hut ht⟩
    · intro u
      by_cases hu : u = t
      · simp [hu, references, hfit.2, hp, Pc.counted]
      · simp [hu, Ne.symm hu, references, hp, Pc.counted]
    · simp [Fits, State.goto, hfit.1, ht]
    · simp [hp, Pc.handles]
  | reenter t r =>
    simp only [Fits, hp] at hfit hs
    split at hs
    · rename_i hfree
      obtain rfl := Option.some.inj hs
      apply h.goto
      · intro g' hg
        simp [hfree, Ne.symm hg]
      · simp [Fits, State.goto, hfit.2]
      · simp [hp, Pc.counted]
      · simp [hp, Pc.handles]
    · cases hs
  | uncount t r =>
    simp only [Fits, hp] at hfit hs
    obtain rfl := Option.some.inj hs
    apply h.recount hfit.1 hfit.2
    · simp [hp, Pc.counted]
    · intro u hu
      simp [hp, Pc.counted, Ne.symm hu]
    · simp [Fits, State.goto, hfit]
    · exact .inl (by simp [Pc.handles])
    · simp [hp, Pc.handles]
  | check t r =>
    simp only [Fits, hp] at hfit hs
    obtain rfl := Option.some.inj hs
    apply h.goto
    · exact fun _ _ => Iff.rfl
    · split
      · rename_i hzero
        simp [Fits, State.goto, hfit, hzero]
      · simp [Fits, State.goto, hfit]
    · split <;> simp [hp, Pc.counted]
    · intro u x hx
      have hux : u = t ∧ x = r := by simpa [hp, Pc.handles, eq_comm] using hx
      obtain ⟨rfl, rfl⟩ := hux
      split
      · exact .inl (by simp [Pc.handles])
      · rename_i hne
        have hsum := h.refCount u x hfit.2
        exact .inr (by omega)
  | delete t r =>
    simp only [hp] at hs
    obtain rfl := Option.some.inj hs
    exact h.delete hp
  | exit t =>
    simp only [Fits, hp] at hfit hs
    obtain rfl := Option.some.inj hs
    apply h.goto
    · intro g' hg
      simp [hfit, Ne.symm hg]
    · simp [Fits, State.goto]
    · simp [hp, Pc.counted]
    · simp [hp, Pc.handles]

/-- One move keeps the invariant. -/
theorem Inv.move (h : Inv s) {a : Act T} (hs : move s g a = some s') : Inv s' := by
  have hfit := h.fits g
  cases a with
  | step => exact h.next hs
  | lockOrder t =>
    simp only [OrderLocks.move] at hs
    split at hs
    · rename_i hp
      simp only [Fits, hp] at hfit
      obtain rfl := Option.some.inj hs
      apply h.goto
      · exact fun _ _ => Iff.rfl
      · simpa [Fits, State.goto] using hfit
      · simp [hp, Pc.counted]
      · simp [hp, Pc.handles]
    · cases hs
  | unlockOrder t =>
    simp only [OrderLocks.move] at hs
    split at hs
    · rename_i hp
      simp only [Fits, hp] at hfit
      split at hs
      · rename_i hheld
        obtain rfl := Option.some.inj hs
        apply h.goto
        · exact fun _ _ => Iff.rfl
        · simpa [Fits, State.goto, hheld] using hfit
        · simp [hp, Pc.counted]
        · simp [hp, Pc.handles]
      · cases hs
    · cases hs

omit [DecidableEq G] in
theorem inv_init : Inv (init : State G T) where
  fits g := by simp [Fits, init]
  held g t r hr := by cases hr
  owner r g hr := by cases hr
  injective t u r ht := by cases ht
  refCount t r ht := by cases ht
  used t r ht := by cases ht
  below t r ht := by cases ht
  dropped _ _ := rfl

/-- The invariant holds in every run. -/
theorem inv_run (schedule : List (G × Act T)) : Inv (run schedule) := by
  induction schedule using List.reverseRecOn with
  | nil => exact inv_init
  | append_singleton schedule m ih =>
    rw [run, List.foldl_append, List.foldl_cons, List.foldl_nil]
    cases hs : OrderLocks.move (run schedule) m.1 m.2 with
    | none =>
      rw [run] at hs ih
      rw [hs]
      exact ih
    | some s' =>
      have := ih.move hs
      rw [run] at hs
      rw [hs]
      exact this

end Steps

/-- The goroutine is in a call of `LockOrder` or `UnlockOrder` for the trade number. -/
def Pc.calls (t : T) : Pc T → Prop
  | .idle | .crashed => False
  | .enter u | .load u | .store u | .count u _ | .leave u _ | .wait u _ | .find u | .release u _
  | .reenter u _ | .uncount u _ | .check u _ | .delete u _ | .exit u => u = t

/-- In every run at most one goroutine holds the lock of a trade number; a goroutine that unlocks
finds the mutex that it locked itself; no reference count is negative, and an entry goes with the last
call that refers to it. -/
theorem lockOrder_excludes [Fintype G] [DecidableEq G] [DecidableEq T] (schedule : List (G × Act T)) :
    let s := run schedule
    (∀ t g g', (s.held g t).isSome → (s.held g' t).isSome → g = g') ∧
      (∀ t g, s.pc g = .find t → ∃ r, s.held g t = some r ∧ s.orderLocks t = some r) ∧
      (∀ t r g, s.pc g = .release t r → s.held g t = some r ∧ s.mu r = some g) ∧
      (∀ g, s.pc g ≠ .crashed) ∧
      (∀ r, 0 ≤ s.refCount r) ∧
      ∀ t, (∀ g, ¬ (s.pc g).calls t ∧ s.held g t = none) → s.orderLocks t = none := by
  intro s
  have h : Inv s := inv_run schedule
  refine ⟨?_, ?_, ?_, ?_, ?_, ?_⟩
  · intro t g g' hg hg'
    obtain ⟨r, hr⟩ := Option.isSome_iff_exists.1 hg
    obtain ⟨r', hr'⟩ := Option.isSome_iff_exists.1 hg'
    obtain ⟨ht, hmu⟩ := h.held g t r hr
    obtain ⟨ht', hmu'⟩ := h.held g' t r' hr'
    obtain rfl : r = r' := Option.some.inj (ht.symm.trans ht')
    exact Option.some.inj (hmu.symm.trans hmu')
  · intro t g hp
    have hfit := h.fits g
    simp only [Fits, hp] at hfit
    obtain ⟨r, hr⟩ := Option.isSome_iff_exists.1 hfit.2
    exact ⟨r, hr, (h.held g t r hr).1⟩
  · intro t r g hp
    have hfit := h.fits g
    simp only [Fits, hp] at hfit
    exact ⟨hfit.2, (h.held g t r hfit.2).2⟩
  · intro g hp
    have hfit := h.fits g
    simp only [Fits, hp] at hfit
  · intro r
    by_cases hr : ∃ t, s.orderLocks t = some r
    · obtain ⟨t, ht⟩ := hr
      rw [h.refCount t r ht]
      exact Int.natCast_nonneg _
    · rw [h.dropped r fun t ht => hr ⟨t, ht⟩]
  · intro t hquiet
    cases ht : s.orderLocks t with
    | none => rfl
    | some r =>
      rcases h.used t r ht with hpos | ⟨g, hg⟩
      · obtain ⟨g, -, hg⟩ := Finset.exists_ne_zero_of_sum_ne_zero (Nat.pos_iff_ne_zero.1 hpos)
        obtain ⟨hcalls, hheld⟩ := hquiet g
        apply absurd hg
        rw [not_not, references, hheld]
        cases hp : s.pc g <;> simp_all [Pc.counted, Pc.calls]
      · have hcalls := (hquiet g).1
        rcases hg with hp | hp | hp
        · exact absurd (by simp [hp, Pc.calls]) hcalls
        · exact absurd (by simp [hp, Pc.calls]) hcalls
        · exact absurd (by simp [hp, Pc.calls]) hcalls

/-- The owner of the lock of the map is never kept waiting. -/
theorem next_isSome_of_createLock [Fintype G] [DecidableEq G] [DecidableEq T] {s : State G T} {g : G}
    (h : Inv s) (hlock : s.createLock = some g) : (next s g).isSome := by
  have hfit := h.fits g
  unfold Fits at hfit
  unfold next
  cases hp : s.pc g <;> simp only [hp, hlock, ne_eq, not_true, false_and] at hfit
  case load t => dsimp only; split <;> rfl
  all_goals rfl

end CodeGo.Commerce.OrderLocks
