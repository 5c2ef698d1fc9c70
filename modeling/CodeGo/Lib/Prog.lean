import Mathlib.Tactic.Common

/-!
# Programs over a shared state

A program performs atomic actions on a state, each under a label, and ends in a
value or an error. `run` executes it alone; the interleaving semantics of
`Lock` and `Weave` execute several programs action by action.
-/

namespace CodeGo.Lib

/-- A program over states `σ` with actions labelled in `ℓ`, errors in `ε` and results in `α`. -/
inductive Prog (σ ℓ ε α : Type) : Type 1 where
  | ret (a : α)
  | fail (e : ε)
  | act {β : Type} (l : ℓ) (f : σ → β × σ) (k : β → Prog σ ℓ ε α)

namespace Prog

variable {σ ℓ ε α β : Type}

def bind : Prog σ ℓ ε α → (α → Prog σ ℓ ε β) → Prog σ ℓ ε β
  | ret a, q => q a
  | fail e, _ => fail e
  | act l f k, q => act l f fun b => bind (k b) q

instance : Monad (Prog σ ℓ ε) where
  pure := ret
  bind := bind

/-- One atomic action. -/
def step (l : ℓ) (f : σ → α × σ) : Prog σ ℓ ε α := act l f ret

/-- One atomic action that may refuse. -/
def stepE (l : ℓ) (f : σ → Except ε α × σ) : Prog σ ℓ ε α :=
  act l f fun r => match r with
    | .ok a => ret a
    | .error e => fail e

/-- Observe the outcome instead of stopping at an error. -/
def attempt : Prog σ ℓ ε α → Prog σ ℓ ε (Except ε α)
  | ret a => ret (.ok a)
  | fail e => ret (.error e)
  | act l f k => act l f fun b => attempt (k b)

/-- The program run alone from a state. -/
def run : Prog σ ℓ ε α → σ → Except ε α × σ
  | ret a, s => (.ok a, s)
  | fail e, s => (.error e, s)
  | act _ f k, s => run (k (f s).1) (f s).2

/-- The program run as a transaction: an error rolls the state back. -/
def commit (p : Prog σ ℓ ε α) (s : σ) : Except ε α × σ :=
  match p.run s with
  | (.ok a, s') => (.ok a, s')
  | (.error e, _) => (.error e, s)

/-- A whole transaction as one atomic action. -/
def transaction {ℓ' : Type} (l : ℓ') (p : Prog σ ℓ ε α) : Prog σ ℓ' ε α := stepE l p.commit

/-- The program on the part of a larger state that a lens picks out. -/
def zoom {τ ℓ' : Type} (get : τ → σ) (set : σ → τ → τ) (lab : ℓ → ℓ') :
    Prog σ ℓ ε α → Prog τ ℓ' ε α
  | ret a => ret a
  | fail e => fail e
  | act l f k => act (lab l) (fun t => ((f (get t)).1, set (f (get t)).2 t)) fun b =>
      zoom get set lab (k b)

@[simp] theorem pure_eq (a : α) : (pure a : Prog σ ℓ ε α) = ret a := rfl

@[simp] theorem run_ret (a : α) (s : σ) : (ret a : Prog σ ℓ ε α).run s = (.ok a, s) := rfl
@[simp] theorem run_fail (e : ε) (s : σ) : (fail e : Prog σ ℓ ε α).run s = (.error e, s) := rfl
@[simp] theorem run_act {γ : Type} (l : ℓ) (f : σ → γ × σ) (k : γ → Prog σ ℓ ε α) (s : σ) :
    (act l f k).run s = (k (f s).1).run (f s).2 := rfl

theorem run_bind (p : Prog σ ℓ ε α) (q : α → Prog σ ℓ ε β) (s : σ) :
    (p >>= q).run s = match p.run s with
      | (.ok a, s') => (q a).run s'
      | (.error e, s') => (.error e, s') := by
  induction p generalizing s with
  | ret a => rfl
  | fail e => rfl
  | act l f k ih => exact ih (f s).1 (f s).2

theorem run_bind_ok {p : Prog σ ℓ ε α} {q : α → Prog σ ℓ ε β} {s s' : σ} {a : α}
    (h : p.run s = (.ok a, s')) : (p >>= q).run s = (q a).run s' := by
  rw [run_bind, h]

theorem run_bind_error {p : Prog σ ℓ ε α} {q : α → Prog σ ℓ ε β} {s s' : σ} {e : ε}
    (h : p.run s = (.error e, s')) : (p >>= q).run s = (.error e, s') := by
  rw [run_bind, h]

/-- A sequence that succeeds splits at its intermediate state. -/
theorem run_bind_eq_ok {p : Prog σ ℓ ε α} {q : α → Prog σ ℓ ε β} {s s'' : σ} {b : β}
    (h : (p >>= q).run s = (.ok b, s'')) :
    ∃ a s', p.run s = (.ok a, s') ∧ (q a).run s' = (.ok b, s'') := by
  rw [run_bind] at h
  match hp : p.run s with
  | (.ok a, s') => exact ⟨a, s', rfl, by simpa [hp] using h⟩
  | (.error e, s') => simp [hp] at h

/-- What the first part does whenever it succeeds holds at the intermediate state. -/
theorem run_bind_of_ok {p : Prog σ ℓ ε α} {q : α → Prog σ ℓ ε β} {s s'' : σ} {b : β}
    {P : α → σ → Prop} (h : (p >>= q).run s = (.ok b, s''))
    (hp : ∀ {a s'}, p.run s = (.ok a, s') → P a s') :
    ∃ a s', P a s' ∧ (q a).run s' = (.ok b, s'') := by
  obtain ⟨a, s', hrun, hrest⟩ := run_bind_eq_ok h
  exact ⟨a, s', hp hrun, hrest⟩

/-- The checks before the statements. -/
theorem checked {P : Prop} [Decidable P] {e : ε} {p : Prog σ ℓ ε α} {a : α} {s s' : σ}
    (h : (if P then fail e else p).run s = (.ok a, s')) : ¬ P ∧ p.run s = (.ok a, s') := by
  split at h
  next => cases h
  next hn => exact ⟨hn, h⟩

theorem run_attempt (p : Prog σ ℓ ε α) (s : σ) :
    p.attempt.run s = (.ok (p.run s).1, (p.run s).2) := by
  induction p generalizing s with
  | ret a => rfl
  | fail e => rfl
  | act l f k ih => exact ih (f s).1 (f s).2

theorem run_of_attempt {p : Prog σ ℓ ε α} {r : Except ε α} {s s' : σ}
    (h : p.attempt.run s = (.ok r, s')) : p.run s = (r, s') := by
  rw [run_attempt, Prod.mk.injEq, Except.ok.injEq] at h
  exact Prod.ext h.1 h.2

@[simp] theorem run_step (l : ℓ) (f : σ → α × σ) (s : σ) :
    (step l f : Prog σ ℓ ε α).run s = (.ok (f s).1, (f s).2) := rfl

@[simp] theorem run_stepE (l : ℓ) (f : σ → Except ε α × σ) (s : σ) :
    (stepE l f).run s = f s := by
  rw [stepE, run_act]
  match hf : f s with
  | (.ok a, s') => rfl
  | (.error e, s') => rfl

/-- A read that refuses where there is nothing to read. -/
theorem stepE_read_ok {l : ℓ} {e : ε} {f : σ → Option α} {a : α} {s s' : σ}
    (h : (stepE l fun s => match f s with
      | some a => (.ok a, s)
      | none => (.error e, s)).run s = (.ok a, s')) : f s = some a ∧ s = s' := by
  rw [run_stepE] at h
  split at h
  next hf =>
    cases h
    exact ⟨hf, rfl⟩
  next => cases h

theorem attempt_stepE (l : ℓ) (f : σ → Except ε α × σ) :
    (stepE l f).attempt = (step l f : Prog σ ℓ ε (Except ε α)) :=
  congrArg (act l f) (funext fun r => by cases r <;> rfl)

theorem run_transaction {ℓ' : Type} (l : ℓ') (p : Prog σ ℓ ε α) (s : σ) :
    (transaction l p : Prog σ ℓ' ε α).run s = p.commit s := run_stepE ..

theorem run_zoom {τ ℓ' : Type} {get : τ → σ} {set : σ → τ → τ} {lab : ℓ → ℓ'}
    (hget : ∀ s t, get (set s t) = s) (hset : ∀ t, set (get t) t = t)
    (hset₂ : ∀ s s' t, set s (set s' t) = set s t) (p : Prog σ ℓ ε α) (t : τ) :
    (p.zoom get set lab).run t = ((p.run (get t)).1, set (p.run (get t)).2 t) := by
  induction p generalizing t with
  | ret a => simp [zoom, hset]
  | fail e => simp [zoom, hset]
  | act l f k ih => simp only [zoom, run_act, ih, hget, hset₂]

/-- The program has no way to fail with `e`. -/
def Avoids (e : ε) : Prog σ ℓ ε α → Prop
  | ret _ => True
  | fail e' => e' ≠ e
  | act _ f k => ∀ s, Avoids e (k (f s).1)

theorem Avoids.bind {e : ε} {p : Prog σ ℓ ε α} {q : α → Prog σ ℓ ε β} (hp : Avoids e p)
    (hq : ∀ a, Avoids e (q a)) : Avoids e (p >>= q) := by
  induction p with
  | ret a => exact hq a
  | fail e' => exact hp
  | act l f k ih => exact fun s => ih _ (hp s)

theorem Avoids.stepE {e : ε} {l : ℓ} {f : σ → Except ε α × σ} (h : ∀ s, (f s).1 ≠ .error e) :
    Avoids e (stepE l f) := by
  intro s
  have hne := h s
  cases hf : (f s).1 with
  | ok a => trivial
  | error e' => exact fun heq => hne (by rw [hf, heq])

theorem Avoids.run {e : ε} {p : Prog σ ℓ ε α} (h : Avoids e p) (s : σ) :
    (p.run s).1 ≠ .error e := by
  induction p generalizing s with
  | ret a => exact nofun
  | fail e' => exact fun he => h (Except.error.inj he)
  | act l f k ih => exact ih (f s).1 (h s) (f s).2

section Commit

variable {p : Prog σ ℓ ε α} {s s' : σ}

theorem commit_eq_ok {a : α} : p.commit s = (.ok a, s') ↔ p.run s = (.ok a, s') := by
  rw [commit]
  match p.run s with
  | (.ok a, s') => rfl
  | (.error e, s') => simp

theorem commit_eq_error {e : ε} (h : p.commit s = (.error e, s')) :
    s' = s ∧ (p.run s).1 = .error e := by
  rw [commit] at h
  match hr : p.run s with
  | (.ok a, s') => simp [hr] at h
  | (.error e, s') =>
    simp only [hr, Prod.mk.injEq, Except.error.injEq] at h
    exact ⟨h.2.symm, by rw [h.1]⟩

theorem commit_return_eq_ok {f : α → β} {b : β} :
    (do return f (← p) : Prog σ ℓ ε β).commit s = (.ok b, s') ↔
      ∃ a, p.run s = (.ok a, s') ∧ f a = b := by
  rw [commit_eq_ok]
  constructor
  · intro h
    obtain ⟨a, s₁, ha, hb⟩ := run_bind_eq_ok h
    cases hb
    exact ⟨a, ha, rfl⟩
  · rintro ⟨a, ha, rfl⟩
    rw [run_bind_ok ha]
    rfl

theorem commit_of_isOk (h : (p.commit s).1.isOk = true) :
    ∃ a, p.commit s = (.ok a, (p.commit s).2) := by
  cases hr : (p.commit s).1 with
  | ok a => exact ⟨a, Prod.ext hr rfl⟩
  | error e =>
    rw [hr] at h
    cases h

theorem commit_of_eq {a : α} (h : (p.commit s).1 = .ok a) : p.commit s = (.ok a, (p.commit s).2) :=
  Prod.ext h rfl

end Commit

section Post

variable {p : Prog σ ℓ ε α} {s : σ} {Q Q' : Except ε α → σ → Prop}

/-- Run alone from `s`, the program ends in an outcome and a state related by `Q`. -/
def Post (p : Prog σ ℓ ε α) (s : σ) (Q : Except ε α → σ → Prop) : Prop := Q (p.run s).1 (p.run s).2

theorem post_ret {a : α} (h : Q (.ok a) s) : Post (ret a : Prog σ ℓ ε α) s Q := h

theorem post_fail {e : ε} (h : Q (.error e) s) : Post (fail e : Prog σ ℓ ε α) s Q := h

theorem post_bind {p : Prog σ ℓ ε β} {q : β → Prog σ ℓ ε α}
    (h : Post p s fun r s' => match r with
      | .ok b => Post (q b) s' Q
      | .error e => Q (.error e) s') : Post (p >>= q) s Q := by
  unfold Post at h ⊢
  rw [run_bind]
  match hp : p.run s with
  | (.ok b, s') => simpa only [hp] using h
  | (.error e, s') => simpa only [hp] using h

theorem post_mono (h : Post p s Q) (hQ : ∀ r s', Q r s' → Q' r s') : Post p s Q' := hQ _ _ h

theorem post_step {l : ℓ} {f : σ → α × σ} (h : Q (.ok (f s).1) (f s).2) :
    Post (step l f : Prog σ ℓ ε α) s Q := h

theorem post_attempt {Q : Except ε (Except ε α) → σ → Prop}
    (h : Post p s fun r s' => Q (.ok r) s') : Post p.attempt s Q := by
  unfold Post at h ⊢
  rw [run_attempt]
  exact h

theorem post_ite {P : Prop} [Decidable P] {q : Prog σ ℓ ε α} (ht : P → Post p s Q)
    (hf : ¬ P → Post q s Q) : Post (if P then p else q) s Q := by
  split
  next h => exact ht h
  next h => exact hf h

end Post

section Succeeds

variable {p : Prog σ ℓ ε α} {s : σ} {Q Q' : α → σ → Prop}

/-- Run alone from `s`, the program returns a value, in a state related to it by `Q`. -/
def Succeeds (p : Prog σ ℓ ε α) (s : σ) (Q : α → σ → Prop) : Prop :=
  ∃ a s', p.run s = (.ok a, s') ∧ Q a s'

theorem succeeds_ret {a : α} (h : Q a s) : Succeeds (ret a : Prog σ ℓ ε α) s Q := ⟨a, s, rfl, h⟩

theorem succeeds_bind {p : Prog σ ℓ ε β} {q : β → Prog σ ℓ ε α}
    (h : Succeeds p s fun b s' => Succeeds (q b) s' Q) : Succeeds (p >>= q) s Q := by
  obtain ⟨b, s', hp, a, s'', hq, hQ⟩ := h
  exact ⟨a, s'', by rw [run_bind_ok hp, hq], hQ⟩

theorem succeeds_step {l : ℓ} {f : σ → α × σ} (h : Q (f s).1 (f s).2) :
    Succeeds (step l f : Prog σ ℓ ε α) s Q := ⟨_, _, rfl, h⟩

theorem succeeds_stepE {l : ℓ} {f : σ → Except ε α × σ} {a : α} {t : σ} (hf : f s = (.ok a, t))
    (h : Q a t) : Succeeds (stepE l f) s Q := ⟨a, t, by rw [run_stepE, hf], h⟩

theorem Succeeds.mono (h : Succeeds p s Q) (hQ : ∀ a s', Q a s' → Q' a s') : Succeeds p s Q' := by
  obtain ⟨a, s', hp, h⟩ := h
  exact ⟨a, s', hp, hQ a s' h⟩

end Succeeds

section Preserves

/-- A run that succeeds keeps `I` and returns a value with `Q`. -/
def Preserves (I : σ → Prop) (p : Prog σ ℓ ε α) (Q : α → Prop) : Prop :=
  ∀ s a s', p.run s = (.ok a, s') → I s → I s' ∧ Q a

variable {I : σ → Prop} {p : Prog σ ℓ ε α} {Q : α → Prop}

theorem preserves_ret {a : α} (h : Q a) : Preserves I (ret a : Prog σ ℓ ε α) Q := by
  intro s b s' hr hI
  cases hr
  exact ⟨hI, h⟩

theorem preserves_fail {e : ε} : Preserves I (fail e : Prog σ ℓ ε α) Q := by
  intro s b s' hr
  cases hr

theorem preserves_bind {q : α → Prog σ ℓ ε β} {Q' : β → Prop} (hp : Preserves I p Q)
    (hq : ∀ a, Q a → Preserves I (q a) Q') : Preserves I (p >>= q) Q' := by
  intro s b s' hr hI
  obtain ⟨a, s₁, hrun, hr⟩ := run_bind_eq_ok hr
  obtain ⟨hI₁, hQ⟩ := hp s a s₁ hrun hI
  exact hq a hQ s₁ b s' hr hI₁

theorem preserves_ite {P : Prop} [Decidable P] {q : Prog σ ℓ ε α} (hp : P → Preserves I p Q)
    (hq : ¬ P → Preserves I q Q) : Preserves I (if P then p else q) Q := by
  split
  next h => exact hp h
  next h => exact hq h

end Preserves

section Keeps

/-- No action changes what `f` reads. -/
def Keeps (f : σ → β) : Prog σ ℓ ε α → Prop
  | ret _ => True
  | fail _ => True
  | act _ g k => ∀ s, f (g s).2 = f s ∧ Keeps f (k (g s).1)

variable {γ : Type} {f : σ → γ} {p : Prog σ ℓ ε α}

theorem Keeps.bind {q : α → Prog σ ℓ ε β} (hp : Keeps f p) (hq : ∀ a, Keeps f (q a)) :
    Keeps f (p >>= q) := by
  induction p with
  | ret a => exact hq a
  | fail e => trivial
  | act l g k ih => exact fun s => ⟨(hp s).1, ih _ (hp s).2⟩

theorem Keeps.step {l : ℓ} {g : σ → α × σ} (h : ∀ s, f (g s).2 = f s) :
    Keeps f (step l g : Prog σ ℓ ε α) := fun s => ⟨h s, trivial⟩

theorem Keeps.stepE {l : ℓ} {g : σ → Except ε α × σ} (h : ∀ s, f (g s).2 = f s) :
    Keeps f (stepE l g) := by
  intro s
  refine ⟨h s, ?_⟩
  cases (g s).1 <;> trivial

theorem Keeps.ite {P : Prop} [Decidable P] {q : Prog σ ℓ ε α} (hp : Keeps f p) (hq : Keeps f q) :
    Keeps f (if P then p else q) := by
  split
  · exact hp
  · exact hq

theorem Keeps.zoom {τ ℓ' : Type} {g : τ → γ} {get : τ → σ} {set : σ → τ → τ} {lab : ℓ → ℓ'}
    (h : ∀ s t, g (set s t) = g t) (p : Prog σ ℓ ε α) : Keeps g (p.zoom get set lab) := by
  induction p with
  | ret a => trivial
  | fail e => trivial
  | act l q k ih => exact fun t => ⟨h _ t, ih _⟩

theorem Keeps.run (h : Keeps f p) (s : σ) : f (p.run s).2 = f s := by
  induction p generalizing s with
  | ret a => rfl
  | fail e => rfl
  | act l g k ih => exact (ih _ (h s).2 _).trans (h s).1

theorem Keeps.of_run (h : Keeps f p) {s s' : σ} {r : Except ε α} (hr : p.run s = (r, s')) :
    f s' = f s := by
  rw [← h.run s, hr]

end Keeps

end Prog

end CodeGo.Lib
