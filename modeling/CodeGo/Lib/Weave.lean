import CodeGo.Lib.Prog
import Mathlib.Logic.Function.Basic

/-!
# Programs interleaved action by action

Processes that share a state take their actions in any order. A `Protocol` says
which actions a process may take and what they do, in terms of a ghost value
that the process carries; `Meets` says that a program keeps to it. `Reach.meets`
lifts an invariant over the state and all ghost values to every interleaving of
processes that keep to the protocol.
-/

namespace CodeGo.Lib

open Prog

/-- The label of the next action. -/
def Prog.next? {σ ℓ ε α : Type} : Prog σ ℓ ε α → Option ℓ
  | .act l _ _ => some l
  | _ => none

namespace Weave

variable {ι σ ℓ ε α β γ δ : Type}

structure System (ι σ ℓ ε α : Type) where
  state : σ
  proc : ι → Prog σ ℓ ε α

/-- Process `i` takes its next action, which has label `l`. -/
inductive Step [DecidableEq ι] : System ι σ ℓ ε α → ι → ℓ → System ι σ ℓ ε α → Prop where
  | act {β : Type} {s : σ} {ps : ι → Prog σ ℓ ε α} {i : ι} {l : ℓ} {f : σ → β × σ}
      {k : β → Prog σ ℓ ε α} (h : ps i = .act l f k) :
      Step ⟨s, ps⟩ i l ⟨(f s).2, Function.update ps i (k (f s).1)⟩

/-- The systems that the runs from `c₀` lead to whose steps all satisfy `ok`. -/
inductive Reach [DecidableEq ι] (ok : System ι σ ℓ ε α → ι → ℓ → Prop) (c₀ : System ι σ ℓ ε α) :
    System ι σ ℓ ε α → Prop where
  | init : Reach ok c₀ c₀
  | step {c c' : System ι σ ℓ ε α} {i : ι} {l : ℓ} : Reach ok c₀ c → ok c i l → Step c i l c' →
      Reach ok c₀ c'

section Perform

variable [DecidableEq ι]

/-- The next action of process `i`. -/
def move (c : System ι σ ℓ ε α) (i : ι) : Option (ℓ × System ι σ ℓ ε α) :=
  match c.proc i with
  | .act l f k => some (l, ⟨(f c.state).2, Function.update c.proc i (k (f c.state).1)⟩)
  | _ => none

theorem step_of_move {c c' : System ι σ ℓ ε α} {i : ι} {l : ℓ} (h : move c i = some (l, c')) :
    Step c i l c' := by
  obtain ⟨s, ps⟩ := c
  unfold move at h
  match hp : ps i with
  | .act l' f k =>
    simp only [hp, Option.some.injEq, Prod.mk.injEq] at h
    obtain ⟨rfl, rfl⟩ := h
    exact .act hp
  | .ret a => simp [hp] at h
  | .fail e => simp [hp] at h

/-- The processes take one action each, in the order listed, as long as the steps pass the check. -/
def perform (check : System ι σ ℓ ε α → ι → ℓ → Bool) :
    System ι σ ℓ ε α → List ι → Option (System ι σ ℓ ε α)
  | c, [] => some c
  | c, i :: is => (move c i).bind fun m => if check c i m.1 then perform check m.2 is else none

theorem Reach.perform {ok : System ι σ ℓ ε α → ι → ℓ → Prop} {c₀ c c' : System ι σ ℓ ε α}
    {check : System ι σ ℓ ε α → ι → ℓ → Bool} {is : List ι} (h : Reach ok c₀ c)
    (hok : ∀ c i l, check c i l = true → ok c i l) (hp : perform check c is = some c') :
    Reach ok c₀ c' := by
  induction is generalizing c with
  | nil =>
    cases hp
    exact h
  | cons i is ih =>
    obtain ⟨⟨l, c₁⟩, hm, hp⟩ := Option.bind_eq_some_iff.1 hp
    simp only at hp
    split at hp
    next hc => exact ih (.step h (hok c i l hc) (step_of_move hm)) hp
    next => cases hp

end Perform

/-- What processes with a ghost value may do. -/
structure Protocol (σ ℓ γ : Type) where
  /-- the actions open to a process -/
  may : ℓ → γ → Prop
  /-- what a process relies on when it takes an action -/
  assume : ℓ → γ → σ → Prop
  /-- what an action does to the state and the ghost value -/
  does : ℓ → γ → σ → σ → γ → Prop

section Meets

variable {P : Protocol σ ℓ γ} {g : γ}

/-- The program keeps to the protocol and ends with a result and a ghost value related by `Q`. -/
def Meets (P : Protocol σ ℓ γ) : Prog σ ℓ ε α → γ → (Except ε α → γ → Prop) → Prop
  | .ret a, g, Q => Q (.ok a) g
  | .fail e, g, Q => Q (.error e) g
  | .act l f k, g, Q => P.may l g ∧ ∀ s, P.assume l g s →
      ∃ g', P.does l g s (f s).2 g' ∧ Meets P (k (f s).1) g' Q

theorem meets_bind {p : Prog σ ℓ ε α} {q : α → Prog σ ℓ ε β} {Q : Except ε β → γ → Prop}
    (h : Meets P p g fun r g => match r with
      | .ok a => Meets P (q a) g Q
      | .error e => Q (.error e) g) : Meets P (p >>= q) g Q := by
  induction p generalizing g with
  | ret a => exact h
  | fail e => exact h
  | act l f k ih =>
    refine ⟨h.1, fun s hs => ?_⟩
    obtain ⟨g', hd, hk⟩ := h.2 s hs
    exact ⟨g', hd, ih _ hk⟩

theorem Meets.mono {p : Prog σ ℓ ε α} {Q Q' : Except ε α → γ → Prop} (h : Meets P p g Q)
    (hQ : ∀ r g, Q r g → Q' r g) : Meets P p g Q' := by
  induction p generalizing g with
  | ret a => exact hQ _ _ h
  | fail e => exact hQ _ _ h
  | act l f k ih =>
    refine ⟨h.1, fun s hs => ?_⟩
    obtain ⟨g', hd, hk⟩ := h.2 s hs
    exact ⟨g', hd, ih _ hk⟩

theorem meets_step {l : ℓ} {f : σ → α × σ} {Q : Except ε α → γ → Prop} (hmay : P.may l g)
    (h : ∀ s, P.assume l g s → ∃ g', P.does l g s (f s).2 g' ∧ Q (.ok (f s).1) g') :
    Meets P (step l f : Prog σ ℓ ε α) g Q := ⟨hmay, h⟩

theorem meets_stepE {l : ℓ} {f : σ → Except ε α × σ} {Q : Except ε α → γ → Prop}
    (hmay : P.may l g)
    (h : ∀ s, P.assume l g s → ∃ g', P.does l g s (f s).2 g' ∧ Q (f s).1 g') :
    Meets P (stepE l f) g Q := by
  refine ⟨hmay, fun s hs => ?_⟩
  obtain ⟨g', hd, hQ⟩ := h s hs
  refine ⟨g', hd, ?_⟩
  cases hf : (f s).1 with
  | ok a =>
    rw [hf] at hQ
    exact hQ
  | error e =>
    rw [hf] at hQ
    exact hQ

theorem meets_ite {p q : Prog σ ℓ ε α} {Q : Except ε α → γ → Prop} {A : Prop} [Decidable A]
    (ht : A → Meets P p g Q) (hf : ¬ A → Meets P q g Q) : Meets P (if A then p else q) g Q := by
  split
  next h => exact ht h
  next h => exact hf h

theorem meets_forM {f : δ → Prog σ ℓ ε PUnit} {xs : List δ}
    (hf : ∀ x ∈ xs, Meets P (f x) g fun _ g' => g' = g) :
    Meets P (xs.forM f) g fun _ g' => g' = g := by
  induction xs with
  | nil => rfl
  | cons x xs ih =>
    apply meets_bind
    apply (hf x List.mem_cons_self).mono
    rintro (e | -) g' rfl
    · rfl
    · exact ih fun y hy => hf y (List.mem_cons_of_mem x hy)

theorem Meets.may_next {p : Prog σ ℓ ε α} {Q : Except ε α → γ → Prop} {l : ℓ} (h : Meets P p g Q)
    (hn : p.next? = some l) : P.may l g := by
  cases p with
  | act l' f k =>
    cases hn
    exact h.1
  | ret a => cases hn
  | fail e => cases hn

/-- A process that cannot end with its ghost value has an action to take. -/
theorem Meets.has_next {p : Prog σ ℓ ε α} {Q : Except ε α → γ → Prop} (h : Meets P p g Q)
    (hQ : ∀ r, ¬ Q r g) : ∃ l, p.next? = some l ∧ P.may l g := by
  cases p with
  | act l f k => exact ⟨l, rfl, h.1⟩
  | ret a => exact absurd h (hQ _)
  | fail e => exact absurd h (hQ _)

end Meets

section Runs

variable [DecidableEq ι] {P : Protocol σ ℓ γ} {Q : ι → Except ε α → γ → Prop}
  {ok : System ι σ ℓ ε α → ι → ℓ → Prop} {Inv : σ → (ι → γ) → Prop}

/-- Every process keeps to the protocol from its ghost value on. -/
def Keeping (P : Protocol σ ℓ γ) (Q : ι → Except ε α → γ → Prop) (c : System ι σ ℓ ε α)
    (g : ι → γ) : Prop := ∀ i, Meets P (c.proc i) (g i) (Q i)

/-- An invariant holds in every run if the steps that the protocol allows keep it. -/
theorem Reach.meets {c₀ c : System ι σ ℓ ε α} {g₀ : ι → γ} (hrun : Reach ok c₀ c)
    (hkeep : Keeping P Q c₀ g₀) (hinv : Inv c₀.state g₀)
    (hassume : ∀ c g i l, Keeping P Q c g → Inv c.state g → ok c i l → P.assume l (g i) c.state)
    (hdoes : ∀ c g i l s' g', Keeping P Q c g → Inv c.state g → ok c i l →
      (c.proc i).next? = some l → P.does l (g i) c.state s' g' →
      Inv s' (Function.update g i g')) :
    ∃ g, Keeping P Q c g ∧ Inv c.state g := by
  induction hrun with
  | init => exact ⟨g₀, hkeep, hinv⟩
  | @step c c' i l hrun hok hstep ih =>
    obtain ⟨g, hg, hI⟩ := ih
    cases hstep with
    | @act β s ps _ _ f k hp =>
      have hact : Meets P (ps i) (g i) (Q i) := hg i
      rw [hp] at hact
      obtain ⟨g', hd, hk⟩ := hact.2 s (hassume _ g i l hg hI hok)
      refine ⟨Function.update g i g', fun j => ?_, hdoes _ g i l _ g' hg hI hok ?_ hd⟩
      · by_cases hj : j = i
        · subst hj
          simpa only [Function.update_self] using hk
        · simp only [Function.update_of_ne hj]
          exact hg j
      · exact congrArg Prog.next? hp

end Runs

/-- Every value that the program can end in satisfies `Q`. -/
def Yields (Q : α → Prop) : Prog σ ℓ ε α → Prop
  | .ret a => Q a
  | .fail _ => True
  | .act _ f k => ∀ s, Yields Q (k (f s).1)

theorem Yields.bind {Q : β → Prop} (p : Prog σ ℓ ε α) {q : α → Prog σ ℓ ε β}
    (h : ∀ a, Yields Q (q a)) : Yields Q (p >>= q) := by
  induction p with
  | ret a => exact h a
  | fail e => trivial
  | act l f k ih => exact fun s => ih (f s).1

theorem Reach.yields [DecidableEq ι] {ok : System ι σ ℓ ε α → ι → ℓ → Prop} {Q : α → Prop}
    {c₀ c : System ι σ ℓ ε α} (h : Reach ok c₀ c) (h₀ : ∀ i, Yields Q (c₀.proc i)) (i : ι) :
    Yields Q (c.proc i) := by
  induction h generalizing i with
  | init => exact h₀ i
  | @step c c' j l _ _ hstep ih =>
    cases hstep with
    | @act β s ps _ _ f k hp =>
      by_cases hi : i = j
      · subst hi
        have hact : Yields Q (ps i) := ih i
        rw [hp] at hact
        simpa only [Function.update_self] using hact s
      · simp only [Function.update_of_ne hi]
        exact ih i

section Serial

/-- Whether an action is the first of its process. -/
inductive Turn where
  | first
  | later
  deriving DecidableEq, Repr

/-- A program that is part-way. -/
def continued : Prog σ ℓ ε α → Prog σ Turn ε α
  | .ret a => .ret a
  | .fail e => .fail e
  | .act _ f k => .act .later f fun b => continued (k b)

def opened : Prog σ ℓ ε α → Prog σ Turn ε α
  | .ret a => .ret a
  | .fail e => .fail e
  | .act _ f k => .act .first f fun b => continued (k b)

theorem yields_continued {Q : α → Prop} {p : Prog σ ℓ ε α} (h : Yields Q p) :
    Yields Q (continued p) := by
  induction p with
  | ret a => exact h
  | fail e => trivial
  | act l f k ih => exact fun s => ih _ (h s)

theorem yields_opened {Q : α → Prop} {p : Prog σ ℓ ε α} (h : Yields Q p) : Yields Q (opened p) := by
  cases p with
  | ret a => exact h
  | fail e => trivial
  | act l f k => exact fun s => yields_continued (h s)

/-- No other process is part-way. -/
def Alone (c : System ι σ Turn ε α) (i : ι) (_ : Turn) : Prop :=
  ∀ j ≠ i, (c.proc j).next? ≠ some .later

/-- A process that has not started, or of which the rest keeps the invariant. -/
def Stage (I : σ → Prop) (Q : Except ε α → Prop) (p : Prog σ ℓ ε α) (s : σ)
    (q : Prog σ Turn ε α) : Prop :=
  (q = opened p ∧ q.next? = some .first) ∨
    ∃ r : Prog σ ℓ ε α, q = continued r ∧ Q (r.run s).1 ∧
      (q.next? = some .later → I (r.run s).2)

variable {I : σ → Prop} {Q : Except ε α → Prop} {p : Prog σ ℓ ε α}

/-- Another process may act when this one is not part-way. -/
theorem Stage.other {s s' : σ} {q : Prog σ Turn ε α} (h : Stage I Q p s q)
    (hq : q.next? ≠ some .later) : Stage I Q p s' q := by
  rcases h with h | ⟨r, rfl, hQ, -⟩
  · exact .inl h
  · refine .inr ⟨r, rfl, ?_, fun hlater => absurd hlater hq⟩
    cases r with
    | ret a => exact hQ
    | fail e => exact hQ
    | act l f k => exact absurd rfl hq

/-- Processes that each keep an invariant when they run alone keep it when they run one after
another. -/
theorem Reach.serial [DecidableEq ι] {p : ι → Prog σ ℓ ε α} {Q : ι → Except ε α → Prop} {s₀ : σ}
    {c : System ι σ Turn ε α} (hrun : Reach Alone ⟨s₀, fun i => opened (p i)⟩ c) (hI : I s₀)
    (hp : ∀ i s, I s → I ((p i).run s).2 ∧ Q i ((p i).run s).1) :
    (∀ i, Stage I (Q i) (p i) c.state (c.proc i)) ∧
      ((∀ i, (c.proc i).next? ≠ some .later) → I c.state) := by
  induction hrun with
  | init =>
    refine ⟨fun i => ?_, fun _ => hI⟩
    have hpi := hp i s₀ hI
    simp only
    cases hprog : p i with
    | ret a =>
      rw [hprog] at hpi
      exact .inr ⟨.ret a, rfl, hpi.2, nofun⟩
    | fail e =>
      rw [hprog] at hpi
      exact .inr ⟨.fail e, rfl, hpi.2, nofun⟩
    | act l f k => exact .inl ⟨rfl, rfl⟩
  | @step c c' i l _ halone hstep ih =>
    obtain ⟨hstage, hidle⟩ := ih
    cases hstep with
    | @act β s ps _ _ f k hact =>
      -- the state after all of the process has run is the same before and after its action
      have hrest : ∃ r : Prog σ ℓ ε α, k (f s).1 = continued r ∧ Q i (r.run (f s).2).1 ∧
          I (r.run (f s).2).2 := by
        rcases hstage i with ⟨hopened, -⟩ | ⟨r, hr, hQ, hlater⟩
        · have hs : I s := by
            apply hidle
            intro j
            by_cases hj : j = i
            · subst hj
              rw [hopened]
              cases p j <;> simp [opened, Prog.next?]
            · exact halone j hj
          have hpi := hp i s hs
          simp only at hopened
          rw [hact] at hopened
          cases hprog : p i with
          | ret a => simp [hprog, opened] at hopened
          | fail e => simp [hprog, opened] at hopened
          | act l' f' k' =>
            rw [hprog, opened] at hopened
            rw [hprog] at hpi
            cases hopened
            exact ⟨k' (f s).1, rfl, hpi.2, hpi.1⟩
        · simp only at hr hlater
          rw [hact] at hr hlater
          cases r with
          | ret a => cases hr
          | fail e => cases hr
          | act l' f' k' =>
            cases hr
            exact ⟨k' (f s).1, rfl, hQ, hlater rfl⟩
      obtain ⟨r, hr, hQ, hI'⟩ := hrest
      constructor
      · intro j
        by_cases hj : j = i
        · subst hj
          simp only [Function.update_self]
          exact .inr ⟨r, hr, hQ, fun _ => hI'⟩
        · simp only [Function.update_of_ne hj]
          exact (hstage j).other (halone j hj)
      · intro hall
        have hdone := hall i
        simp only [Function.update_self, hr] at hdone
        cases r with
        | ret a => exact hI'
        | fail e => exact hI'
        | act l' f' k' => exact absurd rfl hdone

/-- How the processes of a serial run end. -/
theorem Reach.serial_ret [DecidableEq ι] {p : ι → Prog σ ℓ ε α} {Q : ι → Except ε α → Prop}
    {s₀ : σ} {c : System ι σ Turn ε α} (hrun : Reach Alone ⟨s₀, fun i => opened (p i)⟩ c)
    (hI : I s₀) (hp : ∀ i s, I s → I ((p i).run s).2 ∧ Q i ((p i).run s).1) {i : ι} {a : α}
    (hret : c.proc i = .ret a) : Q i (.ok a) := by
  rcases (hrun.serial hI hp).1 i with ⟨-, hfirst⟩ | ⟨r, hr, hQ, -⟩
  · rw [hret] at hfirst
    cases hfirst
  · rw [hret] at hr
    cases r with
    | ret a' =>
      cases hr
      exact hQ
    | fail e => cases hr
    | act l f k => cases hr

end Serial

end Weave

end CodeGo.Lib
