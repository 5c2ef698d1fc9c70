import CodeGo.Lib.Prog

/-!
# Concurrent transactions with row locks

Transactions whose statements read the last committed state together with
their own writes (READ COMMITTED). A statement names the cells it locks, which
stay locked until the transaction ends, and the views it read without a lock.
Writes stay pending until the commit installs them.

`wp` is a weakest precondition for one transaction among others: whatever was
not locked may have changed between two statements. `Reach.sound` lifts it
to every run in which no commit changes a view that a transaction in flight
has read.
-/

namespace CodeGo.Lib

structure Label (κ τ : Type) where
  locks : List κ := []
  watches : List τ := []

/-- Parts of a state, named by `κ`, and when two states agree on one of them. -/
class Parts (σ κ : Type) where
  agree : κ → σ → σ → Prop
  agree_refl : ∀ k s, agree k s s
  agree_trans : ∀ k s s' s'', agree k s s' → agree k s' s'' → agree k s s''

export Parts (agree agree_refl agree_trans)

namespace Lock

variable {σ κ τ ε α β J : Type}

/-- A transaction in flight. -/
structure Txn (σ κ τ ε α : Type) where
  prog : Prog σ (Label κ τ) ε α
  pending : σ → σ
  held : List κ
  watched : List τ

structure System (σ κ τ ε α : Type) where
  committed : σ
  txns : List (Txn σ κ τ ε α)

inductive Move (J : Type) where
  | start (j : J)
  | act (i : Nat)
  | commit (i : Nat)
  | abort (i : Nat)

def Txn.begin (p : Prog σ (Label κ τ) ε α) : Txn σ κ τ ε α := ⟨p, id, [], []⟩

/-- The next statement, on what the transaction sees of the committed state `c`. -/
def Txn.act? [DecidableEq κ] (c : σ) (others : List (Txn σ κ τ ε α)) :
    Txn σ κ τ ε α → Option (Txn σ κ τ ε α)
  | ⟨.act l f k, w, held, watched⟩ =>
    if ∀ u ∈ others, ∀ x ∈ l.locks, x ∉ u.held then
      some ⟨k (f (w c)).1, fun c => (f (w c)).2, l.locks ++ held, l.watches ++ watched⟩
    else none
  | _ => none

def Txn.done : Txn σ κ τ ε α → Bool
  | ⟨.ret _, _, _, _⟩ => true
  | _ => false

def move [DecidableEq κ] (code : J → Prog σ (Label κ τ) ε α) (s : System σ κ τ ε α) :
    Move J → Option (System σ κ τ ε α)
  | .start j => some ⟨s.committed, s.txns ++ [Txn.begin (code j)]⟩
  | .act i => do
    let t ← s.txns[i]?
    let t' ← t.act? s.committed (s.txns.eraseIdx i)
    some ⟨s.committed, s.txns.set i t'⟩
  | .commit i => do
    let t ← s.txns[i]?
    if t.done then some ⟨t.pending s.committed, s.txns.eraseIdx i⟩ else none
  | .abort i => do
    let _ ← s.txns[i]?
    some ⟨s.committed, s.txns.eraseIdx i⟩

/-- The move commits no change to a view that another transaction in flight has read. -/
def Undisturbed [Parts σ τ] (s : System σ κ τ ε α) : Move J → Prop
  | .commit i => ∀ t, s.txns[i]? = some t → ∀ u ∈ s.txns.eraseIdx i, ∀ v ∈ u.watched,
      agree v s.committed (t.pending s.committed)
  | _ => True

/-- The same, for some of the views only. -/
def UndisturbedOn [Parts σ τ] (A : τ → Prop) (s : System σ κ τ ε α) : Move J → Prop
  | .commit i => ∀ t, s.txns[i]? = some t → ∀ u ∈ s.txns.eraseIdx i, ∀ v ∈ u.watched, A v →
      agree v s.committed (t.pending s.committed)
  | _ => True

/-- The states of the runs whose moves all satisfy `ok`. -/
inductive Reach [DecidableEq κ] (code : J → Prog σ (Label κ τ) ε α)
    (ok : System σ κ τ ε α → Move J → Prop) (c₀ : σ) : System σ κ τ ε α → Prop where
  | init : Reach code ok c₀ ⟨c₀, []⟩
  | step {s s' : System σ κ τ ε α} (m : Move J) : Reach code ok c₀ s → ok s m →
      move code s m = some s' → Reach code ok c₀ s'

/-- Further moves of a run. -/
inductive Later [DecidableEq κ] (code : J → Prog σ (Label κ τ) ε α)
    (ok : System σ κ τ ε α → Move J → Prop) (s : System σ κ τ ε α) :
    System σ κ τ ε α → Prop where
  | refl : Later code ok s s
  | step {s' s'' : System σ κ τ ε α} (m : Move J) : Later code ok s s' → ok s' m →
      move code s' m = some s'' → Later code ok s s''

theorem Reach.later [DecidableEq κ] {code : J → Prog σ (Label κ τ) ε α}
    {ok : System σ κ τ ε α → Move J → Prop} {c₀ : σ} {s s' : System σ κ τ ε α}
    (h : Reach code ok c₀ s) (hs : Later code ok s s') : Reach code ok c₀ s' := by
  induction hs with
  | refl => exact h
  | step m _ hok hm ih => exact ih.step m hok hm

/-- The transaction at an index, between those before and those after it. -/
theorem split_at {γ : Type 1} {ts : List γ} {i : Nat} {t : γ} (h : ts[i]? = some t) :
    ∃ pre post, ts = pre ++ t :: post ∧ ts.eraseIdx i = pre ++ post ∧
      ∀ t', ts.set i t' = pre ++ t' :: post := by
  obtain ⟨hi, ht⟩ := List.getElem?_eq_some_iff.1 h
  refine ⟨ts.take i, ts.drop (i + 1), ?_, List.eraseIdx_eq_take_drop_succ ts i, fun t' => ?_⟩
  · rw [← ht, List.getElem_cons_drop, List.take_append_drop]
  · rw [List.set_eq_take_append_cons_drop, if_pos hi]

theorem pairwise_around {γ : Type 1} {R : γ → γ → Prop} (hsymm : ∀ a b, R a b → R b a)
    {pre post : List γ} {t : γ} :
    (pre ++ t :: post).Pairwise R ↔ (pre ++ post).Pairwise R ∧ ∀ u ∈ pre ++ post, R t u := by
  simp only [List.pairwise_append, List.pairwise_cons, List.mem_append, List.mem_cons]
  constructor
  · rintro ⟨hpre, ⟨ht, hpost⟩, hc⟩
    refine ⟨⟨hpre, hpost, fun a ha b hb => hc a ha b (.inr hb)⟩, ?_⟩
    rintro u (hu | hu)
    · exact hsymm _ _ (hc u hu t (.inl rfl))
    · exact ht u hu
  · rintro ⟨⟨hpre, hpost, hc⟩, ht⟩
    refine ⟨hpre, ⟨fun u hu => ht u (.inr hu), hpost⟩, ?_⟩
    rintro a ha b (rfl | hb)
    · exact hsymm _ _ (ht a (.inl ha))
    · exact hc a ha b hb

theorem held_symm {t u : Txn σ κ τ ε α} (h : ∀ x ∈ t.held, x ∉ u.held) :
    ∀ x ∈ u.held, x ∉ t.held := fun x hx hx' => h x hx' hx

section Perform

variable [DecidableEq κ]

/-- A list of moves performed in order, as long as each passes the check. -/
def perform (check : System σ κ τ ε α → Move J → Bool) (code : J → Prog σ (Label κ τ) ε α) :
    System σ κ τ ε α → List (Move J) → Option (System σ κ τ ε α)
  | s, [] => some s
  | s, m :: ms => if check s m then (move code s m).bind (perform check code · ms) else none

theorem Later.perform {ok : System σ κ τ ε α → Move J → Prop}
    {check : System σ κ τ ε α → Move J → Bool} {code : J → Prog σ (Label κ τ) ε α}
    {s s' s'' : System σ κ τ ε α} {ms : List (Move J)} (h : Later code ok s s')
    (hok : ∀ s m, check s m = true → ok s m) (hp : perform check code s' ms = some s'') :
    Later code ok s s'' := by
  induction ms generalizing s' with
  | nil =>
    cases hp
    exact h
  | cons m ms ih =>
    simp only [Lock.perform] at hp
    split at hp
    next hc =>
      obtain ⟨s₁, hm, hp⟩ := Option.bind_eq_some_iff.1 hp
      exact ih (.step m h (hok s' m hc) hm) hp
    next => cases hp

theorem Reach.perform {ok : System σ κ τ ε α → Move J → Prop} {c₀ : σ}
    {check : System σ κ τ ε α → Move J → Bool} {code : J → Prog σ (Label κ τ) ε α}
    {s s' : System σ κ τ ε α} {ms : List (Move J)} (h : Reach code ok c₀ s)
    (hok : ∀ s m, check s m = true → ok s m) (hp : perform check code s ms = some s') :
    Reach code ok c₀ s' :=
  h.later (Later.refl.perform hok hp)

/-- No other transaction in flight has read anything when one commits. -/
def unread (s : System σ κ τ ε α) : Move J → Bool
  | .commit i => (s.txns.eraseIdx i).all fun u => u.watched.isEmpty
  | _ => true

omit [DecidableEq κ] in
theorem undisturbedOn_of_undisturbed [Parts σ τ] (A : τ → Prop) (s : System σ κ τ ε α) (m : Move J)
    (h : Undisturbed s m) : UndisturbedOn A s m := by
  cases m with
  | commit i => exact fun t ht u hu v hv _ => h t ht u hu v hv
  | start j => trivial
  | act i => trivial
  | abort i => trivial

omit [DecidableEq κ] in
theorem undisturbed_of_unread [Parts σ τ] (s : System σ κ τ ε α) (m : Move J)
    (h : unread s m = true) : Undisturbed s m := by
  cases m with
  | commit i =>
    intro t _ u hu v hv
    have hempty := List.all_eq_true.1 h u hu
    rw [List.isEmpty_iff.1 hempty] at hv
    cases hv
  | start j => trivial
  | act i => trivial
  | abort i => trivial

end Perform

section Wp

variable [Parts σ κ] [Parts σ τ]

/-- What a transaction with pending writes `w` ensures when it ends, given that every committed
state satisfies `I` and that `F` holds of the committed state until then. -/
def wp (I : σ → Prop) : Prog σ (Label κ τ) ε α → (σ → σ) → (σ → Prop) →
    (α → (σ → σ) → (σ → Prop) → Prop) → Prop
  | .ret a, w, F, Q => Q a w F
  | .fail _, _, _, _ => True
  | .act l f k, w, F, Q => ∀ c₀, I c₀ → F c₀ → wp I (k (f (w c₀)).1) (fun c => (f (w c)).2)
      (fun c => F c ∧ (∀ x ∈ l.locks, agree x c₀ c) ∧ ∀ v ∈ l.watches, agree v c₀ c) Q

/-- The transaction commits a state that is related by `P` to the one it commits onto. -/
def Ensures (I : σ → Prop) (p : Prog σ (Label κ τ) ε α) (P : α → σ → σ → Prop) : Prop :=
  wp I p id (fun _ => True) fun a w F => ∀ c, I c → F c → P a c (w c)

variable {I : σ → Prop} {w : σ → σ} {F : σ → Prop}

theorem wp_bind {p : Prog σ (Label κ τ) ε α} {q : α → Prog σ (Label κ τ) ε β}
    {Q : β → (σ → σ) → (σ → Prop) → Prop}
    (h : wp I p w F fun a w F => wp I (q a) w F Q) : wp I (p >>= q) w F Q := by
  induction p generalizing w F with
  | ret a => exact h
  | fail e => trivial
  | act l f k ih => exact fun c₀ hI hF => ih _ (h c₀ hI hF)

theorem wp_mono {p : Prog σ (Label κ τ) ε α} {Q Q' : α → (σ → σ) → (σ → Prop) → Prop}
    (h : wp I p w F Q) (hQ : ∀ a w F, Q a w F → Q' a w F) : wp I p w F Q' := by
  induction p generalizing w F with
  | ret a => exact hQ a w F h
  | fail e => trivial
  | act l f k ih => exact fun c₀ hI hF => ih _ (h c₀ hI hF)

theorem wp_step {l : Label κ τ} {f : σ → α × σ} {Q : α → (σ → σ) → (σ → Prop) → Prop}
    (hQ : ∀ c₀ F', I c₀ → F c₀ →
      (∀ c, F' c → F c ∧ (∀ x ∈ l.locks, agree x c₀ c) ∧ ∀ v ∈ l.watches, agree v c₀ c) →
      Q (f (w c₀)).1 (fun c => (f (w c)).2) F') :
    wp I (Prog.step l f : Prog σ (Label κ τ) ε α) w F Q :=
  fun c₀ hI hF => hQ c₀ _ hI hF fun _ hc => hc

theorem wp_stepE {l : Label κ τ} {f : σ → Except ε α × σ}
    {Q : α → (σ → σ) → (σ → Prop) → Prop}
    (hQ : ∀ c₀ a F', I c₀ → F c₀ → (f (w c₀)).1 = .ok a →
      (∀ c, F' c → F c ∧ (∀ x ∈ l.locks, agree x c₀ c) ∧ ∀ v ∈ l.watches, agree v c₀ c) →
      Q a (fun c => (f (w c)).2) F') :
    wp I (Prog.stepE l f) w F Q := by
  intro c₀ hI hF
  cases h : (f (w c₀)).1 with
  | ok a => exact hQ c₀ a _ hI hF h fun _ hc => hc
  | error e => trivial

/-- Alone, the transaction does what it ensures among others. -/
theorem wp_run {p : Prog σ (Label κ τ) ε α} {P : α → σ → σ → Prop}
    (h : wp I p w F fun a w F => ∀ c, I c → F c → P a c (w c)) {c c' : σ} {a : α}
    (hI : I c) (hF : F c) (hr : p.run (w c) = (.ok a, c')) : P a c c' := by
  induction p generalizing w F with
  | ret b =>
    cases hr
    exact h c hI hF
  | fail e => cases hr
  | act l f k ih =>
    exact ih _ (h c hI hF)
      ⟨hF, fun x _ => agree_refl x c, fun v _ => agree_refl v c⟩ hr

theorem Ensures.run {p : Prog σ (Label κ τ) ε α} {P : α → σ → σ → Prop} (h : Ensures I p P)
    {c c' : σ} {a : α} (hI : I c) (hr : p.run c = (.ok a, c')) : P a c c' :=
  wp_run h hI trivial hr

section Does

/-- Whatever is committed meanwhile, a transaction with pending writes `w` ends with a value and
pending writes that `R` relates to `w`. -/
def Does (I : σ → Prop) (p : Prog σ (Label κ τ) ε α) (R : (σ → σ) → α → (σ → σ) → Prop) : Prop :=
  ∀ w F, wp I p w F fun a w' F' => R w a w' ∧ ∀ c, F' c → F c

variable {p : Prog σ (Label κ τ) ε α} {R : (σ → σ) → α → (σ → σ) → Prop}

theorem Does.mono (h : Does I p R) {R' : (σ → σ) → α → (σ → σ) → Prop}
    (hR : ∀ w a w', R w a w' → R' w a w') : Does I p R' :=
  fun w F => wp_mono (h w F) fun _ _ _ h => ⟨hR _ _ _ h.1, h.2⟩

theorem Does.ret {a : α} (h : ∀ w, R w a w) : Does I (Prog.ret a : Prog σ (Label κ τ) ε α) R :=
  fun w _ => ⟨h w, fun _ hc => hc⟩

theorem Does.fail {e : ε} : Does I (Prog.fail e : Prog σ (Label κ τ) ε α) R := fun _ _ => trivial

theorem Does.step {l : Label κ τ} {f : σ → α × σ}
    (h : ∀ w c, R w (f (w c)).1 fun c => (f (w c)).2) :
    Does I (Prog.step l f : Prog σ (Label κ τ) ε α) R :=
  fun w _ => wp_step fun c₀ _ _ _ hF' => ⟨h w c₀, fun c hc => (hF' c hc).1⟩

theorem Does.stepE {l : Label κ τ} {f : σ → Except ε α × σ}
    (h : ∀ w c a, (f (w c)).1 = .ok a → R w a fun c => (f (w c)).2) :
    Does I (Prog.stepE l f) R :=
  fun w _ => wp_stepE fun c₀ a _ _ _ ha hF' => ⟨h w c₀ a ha, fun c hc => (hF' c hc).1⟩

theorem Does.bind {q : α → Prog σ (Label κ τ) ε β} {R' : (σ → σ) → β → (σ → σ) → Prop}
    (hp : Does I p R) (hq : ∀ a, Does I (q a) fun w' b w'' => ∀ w, R w a w' → R' w b w'') :
    Does I (p >>= q) R' := by
  intro w F
  apply wp_bind
  apply wp_mono (hp w F)
  rintro a w' F' ⟨hR, hF'⟩
  apply wp_mono (hq a w' F')
  rintro b w'' F'' ⟨hR', hF''⟩
  exact ⟨hR' w hR, fun c hc => hF' c (hF'' c hc)⟩

/-- The same, for a transitive relation between the pending writes alone. -/
theorem Does.seq {q : α → Prog σ (Label κ τ) ε β} {R : (σ → σ) → (σ → σ) → Prop}
    (htrans : ∀ {w w' w''}, R w w' → R w' w'' → R w w'')
    (hp : Does I p fun w _ w' => R w w') (hq : ∀ a, Does I (q a) fun w _ w' => R w w') :
    Does I (p >>= q) fun w _ w' => R w w' :=
  hp.bind fun a => (hq a).mono fun _ _ _ h _ h₀ => htrans h₀ h

theorem Does.ite {q : Prog σ (Label κ τ) ε α} {A : Prop} [Decidable A] (ht : A → Does I p R)
    (hf : ¬ A → Does I q R) : Does I (if A then p else q) R := by
  split
  next h => exact ht h
  next h => exact hf h

/-- A loop of which each round does what a reflexive and transitive relation says. -/
theorem Does.foldlM {δ : Type} {f : β → δ → Prog σ (Label κ τ) ε β}
    {R : β → (σ → σ) → β → (σ → σ) → Prop} (hrefl : ∀ b w, R b w b w)
    (htrans : ∀ {b w b' w' b'' w''}, R b w b' w' → R b' w' b'' w'' → R b w b'' w'')
    (hf : ∀ b x, Does I (f b x) (R b)) (xs : List δ) (b : β) : Does I (xs.foldlM f b) (R b) := by
  induction xs generalizing b with
  | nil => exact .ret (hrefl b)
  | cons x xs ih => exact (hf b x).bind fun b' => (ih b').mono fun w' b'' w'' h w h' => htrans h' h

end Does

/-- The statements write to cells they lock only. -/
def Framed : Prog σ (Label κ τ) ε α → Prop
  | .ret _ => True
  | .fail _ => True
  | .act l f k => (∀ s x, x ∉ l.locks → agree x s (f s).2) ∧ ∀ b, Framed (k b)

omit [Parts σ τ] in
theorem Framed.bind {p : Prog σ (Label κ τ) ε α} {q : α → Prog σ (Label κ τ) ε β}
    (hp : Framed p) (hq : ∀ a, Framed (q a)) : Framed (p >>= q) := by
  induction p with
  | ret a => exact hq a
  | fail e => trivial
  | act l f k ih => exact ⟨hp.1, fun b => ih b (hp.2 b)⟩

omit [Parts σ τ] in
theorem Framed.attempt {p : Prog σ (Label κ τ) ε α} (hp : Framed p) : Framed p.attempt := by
  induction p with
  | ret a => trivial
  | fail e => trivial
  | act l f k ih => exact ⟨hp.1, fun b => ih b (hp.2 b)⟩

omit [Parts σ τ] in
theorem Framed.ite {p q : Prog σ (Label κ τ) ε α} {A : Prop} [Decidable A] (hp : Framed p)
    (hq : Framed q) : Framed (if A then p else q) := by
  split
  · exact hp
  · exact hq

omit [Parts σ τ] in
theorem Framed.foldlM {δ : Type} {f : β → δ → Prog σ (Label κ τ) ε β} (hf : ∀ b x, Framed (f b x))
    (xs : List δ) (b : β) : Framed (xs.foldlM f b) := by
  induction xs generalizing b with
  | nil => trivial
  | cons x xs ih => exact (hf b x).bind fun b' => ih b'

omit [Parts σ τ] in
theorem Framed.forM {δ : Type} {f : δ → Prog σ (Label κ τ) ε PUnit} (hf : ∀ x, Framed (f x))
    (xs : List δ) : Framed (xs.forM f) := by
  induction xs with
  | nil => trivial
  | cons x xs ih => exact (hf x).bind fun _ => ih

end Wp

section Runs

variable [Parts σ κ] [Parts σ τ] {I : σ → Prop} {G : α → σ → σ → Prop}

/-- What is known of a transaction in flight over the committed state `c`: it will keep `I`, and
its commit will be a step of `G` for the value it ends with. -/
structure Txn.Sound (I : σ → Prop) (G : α → σ → σ → Prop) (c : σ) (t : Txn σ κ τ ε α) : Prop where
  framed : Framed t.prog
  writes : ∀ c x, x ∉ t.held → agree x c (t.pending c)
  safe : ∃ F : σ → Prop, F c ∧
    (∀ c c', F c → (∀ x ∈ t.held, agree x c c') → (∀ v ∈ t.watched, agree v c c') → F c') ∧
    wp I t.prog t.pending F fun a w F => ∀ c, I c → F c → I (w c) ∧ G a c (w c)

theorem Txn.Sound.begin {p : Prog σ (Label κ τ) ε α} {c : σ} (hf : Framed p)
    (hp : Ensures I p fun a c c' => I c' ∧ G a c c') : (Txn.begin p).Sound I G c where
  framed := hf
  writes := fun c x _ => agree_refl x c
  safe := ⟨fun _ => True, trivial, fun _ _ _ _ _ => trivial, hp⟩

theorem Txn.Sound.act [DecidableEq κ] {c : σ} {t t' : Txn σ κ τ ε α}
    {others : List (Txn σ κ τ ε α)} (hI : I c) (ht : t.Sound I G c)
    (ha : t.act? c others = some t') :
    t'.Sound I G c ∧
      ∃ locks, t'.held = locks ++ t.held ∧ ∀ u ∈ others, ∀ x ∈ locks, x ∉ u.held := by
  obtain ⟨p, w, held, watched⟩ := t
  cases p with
  | ret a => cases ha
  | fail e => cases ha
  | act l f k =>
    simp only [Txn.act?] at ha
    split at ha
    case isFalse => cases ha
    case isTrue hfree =>
      cases ha
      obtain ⟨F, hF, hstable, hsafe⟩ := ht.safe
      refine ⟨⟨ht.framed.2 _, fun c x hx => ?_, ?_⟩, l.locks, rfl, hfree⟩
      · simp only [List.mem_append, not_or] at hx
        exact agree_trans x _ _ _ (ht.writes c x hx.2) (ht.framed.1 _ x hx.1)
      · refine ⟨_, ⟨hF, fun x _ => agree_refl x c, fun v _ => agree_refl v c⟩, ?_, hsafe c hI hF⟩
        rintro c₁ c₂ ⟨hF₁, hl, hw⟩ hheld hwatch
        refine ⟨hstable c₁ c₂ hF₁ (fun x hx => hheld x (by simp [hx]))
            (fun v hv => hwatch v (by simp [hv])), fun x hx => ?_, fun v hv => ?_⟩
        · exact agree_trans x _ _ _ (hl x hx) (hheld x (by simp [hx]))
        · exact agree_trans v _ _ _ (hw v hv) (hwatch v (by simp [hv]))

/-- A commit that leaves what `t` has read as it was keeps `t` sound. -/
theorem Txn.Sound.of_commit {c : σ} {t u : Txn σ κ τ ε α} (hu : u.Sound I G c)
    (ht : t.Sound I G c) (hd : ∀ x ∈ u.held, x ∉ t.held)
    (hv : ∀ v ∈ u.watched, agree v c (t.pending c)) : u.Sound I G (t.pending c) where
  framed := hu.framed
  writes := hu.writes
  safe := by
    obtain ⟨F, hF, hstable, hsafe⟩ := hu.safe
    exact ⟨F, hstable c _ hF (fun x hx => ht.writes c x (hd x hx)) hv, hstable, hsafe⟩

omit [Parts σ κ] [Parts σ τ] in
theorem Txn.done_iff {t : Txn σ κ τ ε α} : t.done = true ↔ ∃ a, t.prog = .ret a := by
  obtain ⟨p, w, held, watched⟩ := t
  cases p <;> simp [Txn.done]

/-- What the commit of a transaction that has ended does. -/
theorem Txn.Sound.commits {c : σ} {t : Txn σ κ τ ε α} (ht : t.Sound I G c) (hI : I c) {a : α}
    (ha : t.prog = .ret a) : I (t.pending c) ∧ G a c (t.pending c) := by
  obtain ⟨F, hF, -, hsafe⟩ := ht.safe
  rw [ha] at hsafe
  exact hsafe c hI hF

/-- The invariant of a run: the committed state, each transaction and the locks. -/
structure System.Sound (I : σ → Prop) (G : α → σ → σ → Prop) (s : System σ κ τ ε α) : Prop where
  committed : I s.committed
  txns : ∀ t ∈ s.txns, t.Sound I G s.committed
  locks : s.txns.Pairwise fun t u => ∀ x ∈ t.held, x ∉ u.held

variable [DecidableEq κ] {code : J → Prog σ (Label κ τ) ε α}

theorem System.Sound.move {s s' : System σ κ τ ε α} (hs : s.Sound I G)
    (hcode : ∀ j, Framed (code j) ∧ Ensures I (code j) fun a c c' => I c' ∧ G a c c') {m : Move J}
    (hok : Undisturbed s m) (h : move code s m = some s') : s'.Sound I G := by
  obtain ⟨c, ts⟩ := s
  obtain ⟨hI, htxns, hlocks⟩ := hs
  cases m with
  | start j =>
    cases h
    refine ⟨hI, fun t ht => ?_, ?_⟩
    · rcases List.mem_append.1 ht with ht | ht
      · exact htxns t ht
      · rw [List.mem_singleton.1 ht]
        exact .begin (hcode j).1 (hcode j).2
    · refine List.pairwise_append.2 ⟨hlocks, List.pairwise_singleton _ _, fun t _ u hu x _ => ?_⟩
      rw [List.mem_singleton.1 hu]
      exact List.not_mem_nil
  | act i =>
    simp only [Lock.move, Option.bind_eq_bind, Option.bind_eq_some_iff] at h
    obtain ⟨t, ht, t', ha, h⟩ := h
    cases h
    obtain ⟨pre, post, rfl, herase, hset⟩ := split_at ht
    rw [herase] at ha
    rw [pairwise_around fun _ _ => held_symm] at hlocks
    obtain ⟨hsound, locks, hheld, hfree⟩ := (htxns t (by simp)).act hI ha
    refine ⟨hI, fun u hu => ?_, ?_⟩
    · simp only [hset, List.mem_append, List.mem_cons] at hu
      rcases hu with hu | rfl | hu
      · exact htxns u (by simp [hu])
      · exact hsound
      · exact htxns u (by simp [hu])
    · simp only [hset]
      refine (pairwise_around fun _ _ => held_symm).2 ⟨hlocks.1, fun u hu x hx => ?_⟩
      rw [hheld, List.mem_append] at hx
      exact hx.elim (hfree u hu x) (hlocks.2 u hu x)
  | commit i =>
    simp only [Lock.move, Option.bind_eq_bind, Option.bind_eq_some_iff] at h
    obtain ⟨t, ht, h⟩ := h
    have hquiet := hok t ht
    obtain ⟨pre, post, rfl, herase, -⟩ := split_at ht
    rw [pairwise_around fun _ _ => held_symm] at hlocks
    have htS := htxns t (by simp)
    split at h
    case isFalse => cases h
    case isTrue hdone =>
      cases h
      obtain ⟨a, ha⟩ := Txn.done_iff.1 hdone
      simp only [herase] at hquiet ⊢
      refine ⟨(htS.commits hI ha).1, fun u hu => ?_, hlocks.1⟩
      have hu' : u ∈ pre ++ t :: post := by
        rcases List.mem_append.1 hu with hu | hu <;> simp [hu]
      exact (htxns u hu').of_commit htS (held_symm (hlocks.2 u hu)) (hquiet u hu)
  | abort i =>
    simp only [Lock.move, Option.bind_eq_bind, Option.bind_eq_some_iff] at h
    obtain ⟨t, ht, h⟩ := h
    cases h
    obtain ⟨pre, post, rfl, herase, -⟩ := split_at ht
    rw [pairwise_around fun _ _ => held_symm] at hlocks
    refine ⟨hI, fun u hu => htxns u ?_, by rw [herase]; exact hlocks.1⟩
    rw [herase] at hu
    rcases List.mem_append.1 hu with hu | hu <;> simp [hu]

omit [Parts σ κ] [Parts σ τ] in
/-- A move commits a transaction that has ended, or leaves the committed state alone. -/
theorem move_committed {s s' : System σ κ τ ε α} {m : Move J} (h : Lock.move code s m = some s') :
    s'.committed = s.committed ∨ ∃ i t a, m = .commit i ∧ s.txns[i]? = some t ∧ t.prog = .ret a ∧
      s'.committed = t.pending s.committed := by
  cases m with
  | start j =>
    cases h
    exact .inl rfl
  | act i =>
    simp only [Lock.move, Option.bind_eq_bind, Option.bind_eq_some_iff] at h
    obtain ⟨t, ht, t', ha, h⟩ := h
    cases h
    exact .inl rfl
  | commit i =>
    simp only [Lock.move, Option.bind_eq_bind, Option.bind_eq_some_iff] at h
    obtain ⟨t, ht, h⟩ := h
    split at h
    case isFalse => cases h
    case isTrue hdone =>
      cases h
      obtain ⟨a, ha⟩ := Txn.done_iff.1 hdone
      exact .inr ⟨i, t, a, rfl, ht, ha, rfl⟩
  | abort i =>
    simp only [Lock.move, Option.bind_eq_bind, Option.bind_eq_some_iff] at h
    obtain ⟨t, ht, h⟩ := h
    cases h
    exact .inl rfl

/-- What a move does to the committed state. -/
theorem System.Sound.guarantee {s s' : System σ κ τ ε α} (hs : s.Sound I G) {m : Move J}
    (h : Lock.move code s m = some s') :
    s'.committed = s.committed ∨ ∃ a, G a s.committed s'.committed := by
  rcases move_committed h with hsame | ⟨i, t, a, -, ht, ha, hcommit⟩
  · exact .inl hsame
  · rw [hcommit]
    exact .inr ⟨a, ((hs.txns t (List.mem_of_getElem? ht)).commits hs.committed ha).2⟩

/-- Views that every step of `G` leaves alone need no condition. -/
theorem System.Sound.undisturbed {s : System σ κ τ ε α} (hs : s.Sound I G) {A : τ → Prop}
    (hfree : ∀ v a c c', ¬ A v → G a c c' → agree v c c') {m : Move J} {s' : System σ κ τ ε α}
    (h : Lock.move code s m = some s') (hok : UndisturbedOn A s m) : Undisturbed s m := by
  cases m with
  | start j => trivial
  | act i => trivial
  | abort i => trivial
  | commit i =>
    intro t ht u hu v hv
    by_cases hA : A v
    · exact hok t ht u hu v hv hA
    · simp only [Lock.move, ht, Option.bind_eq_bind, Option.bind_some] at h
      split at h
      case isFalse => cases h
      case isTrue hdone =>
        obtain ⟨a, ha⟩ := Txn.done_iff.1 hdone
        have hc := (hs.txns t (List.mem_of_getElem? ht)).commits hs.committed ha
        exact hfree v a _ _ hA hc.2

/-- Every committed state of an undisturbed run satisfies the invariant. -/
theorem Reach.sound {c₀ : σ} {s : System σ κ τ ε α}
    (hcode : ∀ j, Framed (code j) ∧ Ensures I (code j) fun _ _ c => I c)
    (hI : I c₀) (h : Reach code Undisturbed c₀ s) : s.Sound I fun _ _ _ => True := by
  have hcode' : ∀ j, Framed (code j) ∧ Ensures I (code j) fun _ _ c => I c ∧ True :=
    fun j => ⟨(hcode j).1, wp_mono (hcode j).2 fun _ _ _ h c hI hF => ⟨h c hI hF, trivial⟩⟩
  induction h with
  | init => exact ⟨hI, fun _ ht => absurd ht List.not_mem_nil, List.Pairwise.nil⟩
  | step m _ hok hm ih => exact ih.move hcode' hok hm

/-- The same for transactions that commit steps of `G` only, where `G` takes care of some views. -/
theorem Reach.sound_on {c₀ : σ} {s : System σ κ τ ε α} {A : τ → Prop}
    (hcode : ∀ j, Framed (code j) ∧ Ensures I (code j) fun a c c' => I c' ∧ G a c c')
    (hfree : ∀ v a c c', ¬ A v → G a c c' → agree v c c')
    (hI : I c₀) (h : Reach code (UndisturbedOn A) c₀ s) : s.Sound I G := by
  induction h with
  | init => exact ⟨hI, fun _ ht => absurd ht List.not_mem_nil, List.Pairwise.nil⟩
  | step m _ hok hm ih => exact ih.move hcode (ih.undisturbed hfree hm hok) hm

/-- An invariant that commits of `G` keep where the moves satisfy a condition of their own. -/
theorem Reach.invariant {c₀ : σ} {s : System σ κ τ ε α} {ok : System σ κ τ ε α → Move J → Prop}
    (hcode : ∀ j, Framed (code j) ∧ Ensures (fun _ => True) (code j) G)
    (hok : ∀ s m, ok s m → Undisturbed s m)
    (hkeep : ∀ s i t a, ok s (.commit i) → s.txns[i]? = some t → t.prog = .ret a →
      G a s.committed (t.pending s.committed) → I s.committed → I (t.pending s.committed))
    (hI : I c₀) (h : Reach code ok c₀ s) : s.Sound (fun _ => True) G ∧ I s.committed := by
  have hcode' : ∀ j, Framed (code j) ∧ Ensures (fun _ => True) (code j) fun a c c' =>
      True ∧ G a c c' :=
    fun j => ⟨(hcode j).1, wp_mono (hcode j).2 fun _ _ _ h c hI hF => ⟨trivial, h c hI hF⟩⟩
  induction h with
  | init => exact ⟨⟨trivial, fun _ ht => absurd ht List.not_mem_nil, List.Pairwise.nil⟩, hI⟩
  | step m _ hm hmove ih =>
    obtain ⟨hs, hinv⟩ := ih
    refine ⟨hs.move hcode' (hok _ _ hm) hmove, ?_⟩
    rcases move_committed hmove with hsame | ⟨i, t, a, rfl, ht, ha, hcommit⟩
    · rwa [hsame]
    · rw [hcommit]
      have hcommits := (hs.txns t (List.mem_of_getElem? ht)).commits trivial ha
      exact hkeep _ i t a hm ht ha hcommits.2 hinv

end Runs

end Lock

end CodeGo.Lib
