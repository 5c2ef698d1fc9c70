import CodeGo.Identity.TwoFA

/-!
# Guesses of two-factor codes

A call loads the record, tests a code, counts in memory and saves all of the record. In the runs in
which every test is about the record as it is stored, and no other call is between its test and its
save, a backup code is accepted once, wrong codes are counted one by one, and five in a row lock the
record.
-/

namespace CodeGo.Identity.TwoFactor

open CodeGo.Lib CodeGo.Lib.Prog CodeGo.Lib.Weave

section Law

variable {ι : Type}

/-- The failures that the record should have, from `start` at the beginning. -/
def failures (start : Int) : List (Event ι) → Int
  | [] => start
  | e :: log => if e.verdict = .wrong then failures start log + 1 else 0

/-- The wrong codes since the last one that was accepted. -/
def streak : List (Event ι) → Nat
  | [] => 0
  | e :: log => if e.verdict = .wrong then streak log + 1 else 0

/-- After `maxFailAttempts` wrong codes in a row, and after each further one, nothing is tested for
the duration of a lockout. -/
def Spaced : List (Event ι) → Prop
  | e :: e' :: log =>
    (maxFailAttempts ≤ streak (e' :: log) → e'.time + lockoutDuration ≤ e.time) ∧
      Spaced (e' :: log)
  | _ => True

def Event.backupCode (e : Event ι) : Option Int :=
  match e.verdict with
  | .backup id => some id
  | _ => none

/-- The law of the codes in a system. -/
structure Bounded (start : Int) (c : System ι (Store ι) Moment Error PUnit) : Prop where
  /-- each backup code is accepted once -/
  once : (c.state.log.filterMap Event.backupCode).Nodup
  spaced : Spaced c.state.log
  /-- each submitted code is tested once -/
  single : (c.state.log.map Event.call).Nodup
  /-- and counted, when no call is between its test and its save -/
  counted : (∀ i, (c.proc i).next? ≠ some .held) → ∀ r, c.state.record = some r →
    r.failedAttempts = failures start c.state.log

/-- Every test is about the record as it is stored, while no other call has tested a code and not
saved the record. -/
def Orderly (c : System ι (Store ι) Moment Error PUnit) (i : ι) : Moment → Prop
  | .test twoFA => c.state.record = some twoFA ∧ ∀ j ≠ i, (c.proc j).next? ≠ some .held
  | _ => True

theorem streak_le_failures {start : Int} (h : 0 ≤ start) (log : List (Event ι)) :
    (streak log : Int) ≤ failures start log := by
  induction log with
  | nil => exact h
  | cons e log ih =>
    unfold streak failures
    split
    · push_cast
      omega
    · exact Int.le_refl 0

end Law

theorem byteLength_drop_le (c : Char) (s : List Char) : byteLength (drop c s) ≤ byteLength s := by
  unfold byteLength drop
  induction s with
  | nil => exact Nat.le_refl 0
  | cons c' s ih =>
    by_cases h : c' = c
    · simp [h] at ih ⊢
      omega
    · simp [h] at ih ⊢
      omega

/-- The characters of a number. -/
def numeric (c : Char) : Prop := c.isDigit = true ∨ c = '+' ∨ c = '-'

theorem numeric_of_atoi {s : List Char} (h : atoiAccepts s = true) : ∀ c ∈ s, numeric c := by
  intro c hc
  cases s with
  | nil => cases hc
  | cons c₀ s =>
    simp only [atoiAccepts] at h
    split at h
    next hsign =>
      rw [Bool.and_eq_true, List.all_eq_true] at h
      rcases List.mem_cons.1 hc with rfl | hc
      · exact .inr hsign
      · exact .inl (h.2 c hc)
    next => exact .inl (List.all_eq_true.1 h c hc)

theorem upperChar_of_numeric (sec : Security) {c : Char} (h : numeric c) : upperChar sec c = c := by
  have hrange : c.val < 128 ∧ ¬ (97 ≤ c.val ∧ c.val ≤ 122) := by
    rcases h with h | rfl | rfl
    · simp only [Char.isDigit, Bool.and_eq_true, decide_eq_true_eq] at h
      have := UInt32.le_iff_toNat_le.1 h.1
      have := UInt32.le_iff_toNat_le.1 h.2
      rw [UInt32.lt_iff_toNat_lt, UInt32.le_iff_toNat_le, UInt32.le_iff_toNat_le]
      simp at *
      omega
    · decide
    · decide
  unfold upperChar Char.toUpper
  rw [if_pos hrange.1]
  exact dif_neg hrange.2

/-- A code of six digits is no backup code: a call tests what it submits once. -/
theorem validateBackupCode_of_numeric {sec : Security} {code cleanCode : List Char}
    (h : validateNumericCode code = some cleanCode) : validateBackupCode sec code = false := by
  unfold validateNumericCode at h
  dsimp only at h
  split at h
  next => cases h
  next hlength =>
    split at h
    next => cases h
    next hatoi =>
      rw [not_not] at hlength
      simp only [Bool.not_eq_true', Bool.not_eq_false] at hatoi
      rw [Bool.eq_false_iff]
      intro hbackup
      simp only [validateBackupCode, decide_eq_true_eq, List.all_eq_true] at hbackup
      obtain ⟨hbackup, hchars⟩ := hbackup
      -- a space is no character of a backup code
      have hspace : ' ' ∉ code := by
        intro hmem
        have hmem' : upperChar sec ' ' ∈ cleanBackupCode sec code :=
          List.mem_map_of_mem (List.mem_filter.2 ⟨hmem, by decide⟩)
        have hupper : upperChar sec ' ' = ' ' := rfl
        rw [hupper] at hmem'
        exact absurd (hchars ' ' hmem') (by decide)
      have hdrop : drop ' ' code = code :=
        List.filter_eq_self.2 fun c hc => by
          have hne : c ≠ ' ' := fun e => hspace (e ▸ hc)
          simp [hne]
      rw [hdrop] at hlength hatoi
      have hclean : cleanBackupCode sec code = drop '-' code := by
        unfold cleanBackupCode
        calc (drop '-' code).map (upperChar sec) = (drop '-' code).map id :=
              List.map_congr_left fun c hc =>
                upperChar_of_numeric sec (numeric_of_atoi hatoi c (List.mem_filter.1 hc).1)
          _ = drop '-' code := List.map_id _
      rw [hclean] at hbackup
      have hle := byteLength_drop_le '-' code
      unfold backupCodeLength at hbackup
      omega

section Protocol

variable {ι : Type}

inductive Phase where
  /-- whether the call has tested a code, and its last reading of the clock -/
  | free (tested : Bool) (seen : Int)
  /-- a wrong code: the failures of the copy, and the time of the test -/
  | failed (failedAttempts : Int) (time : Int)
  /-- an accepted code: the backup code that is still to be marked -/
  | passed (code : Option Int)

structure Ghost (ι : Type) where
  call : ι
  phase : Phase

def Phase.busy : Phase → Prop
  | .free _ _ => False
  | _ => True

/-- A stored backup code that is not marked as used. -/
def Unused (s : Store ι) (id : Int) : Prop := ∃ c ∈ s.codes, c.id = id ∧ c.isUsed = false

/-- No code that was used or is gone comes back as unused. -/
structure CodesKept (s s' : Store ι) : Prop where
  next : s.nextCodeID ≤ s'.nextCodeID
  unused : ∀ id, Unused s' id → Unused s id ∨ s.nextCodeID ≤ id ∧ id < s'.nextCodeID

/-- What an action does, and where its call stands after it. -/
inductive Does (n : ι) : Moment → Phase → Store ι → Store ι → Phase → Prop where
  | free {tested : Bool} {seen seen' : Int} {s s' : Store ι} :
    (s'.record = s.record ∨ s'.record = none) → CodesKept s s' → s'.log = s.log →
    s.now ≤ s'.now → (seen' = seen ∨ seen' = s'.now) →
    Does n .free (.free tested seen) s s' (.free tested seen')
  | wrong {twoFA : TwoFA} {seen : Int} {s : Store ι} (time : Int) :
    Does n (.test twoFA) (.free false seen) s (s.tested n time .wrong)
      (.failed twoFA.failedAttempts (max s.now time))
  | totp {twoFA : TwoFA} {seen : Int} {s : Store ι} (time : Int) :
    Does n (.test twoFA) (.free false seen) s (s.tested n time .totp) (.passed none)
  | backup {twoFA : TwoFA} {seen : Int} {s : Store ι} (time : Int) {id : Int} : Unused s id →
    Does n (.test twoFA) (.free false seen) s (s.tested n time (.backup id)) (.passed (some id))
  | clock {p : Phase} {s : Store ι} (time : Int) : p.busy →
    Does n .held p s { s with now := max s.now time } p
  | fail {failedAttempts time : Int} {s : Store ι} {r : TwoFA} :
    r.failedAttempts = failedAttempts + 1 →
    (maxFailAttempts ≤ r.failedAttempts → ∃ u, r.lockedUntil = some u ∧
      time + lockoutDuration ≤ u) →
    Does n .held (.failed failedAttempts time) s { s with record := some r } (.free true s.now)
  | mark {s s' : Store ι} {id : Int} : (∀ id', Unused s' id' → Unused s id' ∧ id' ≠ id) →
    s'.record = s.record → s'.log = s.log → s'.now = s.now → s'.nextCodeID = s.nextCodeID →
    Does n .held (.passed (some id)) s s' (.passed none)
  | pass {s : Store ι} {r : TwoFA} : r.failedAttempts = 0 →
    Does n .held (.passed none) s { s with record := some r } (.free true s.now)

/-- A call tests one code, with a copy that is not locked, and then saves the record. -/
def protocol : Protocol (Store ι) Moment (Ghost ι) where
  may l g :=
    match l, g.phase with
    | .free, .free _ _ => True
    | .test twoFA, .free tested seen => tested = false ∧ ∀ u, twoFA.lockedUntil = some u → u ≤ seen
    | .held, .failed _ _ => True
    | .held, .passed _ => True
    | _, _ => False
  assume _ g s :=
    match g.phase with
    | .failed _ time => time ≤ s.now
    | _ => True
  does l g s s' g' := g'.call = g.call ∧ Does g.call l g.phase s s' g'.phase

/-- A call does not end between its test and its save. -/
def Ends (_ : Except Error PUnit) (g : Ghost ι) : Prop := ¬ g.phase.busy

end Protocol

section Statements

variable {ι : Type} {n : ι} {tested : Bool} {seen : Int} {twoFA : TwoFA}

theorem CodesKept.refl (s : Store ι) : CodesKept s s := ⟨Int.le_refl _, fun _ h => .inl h⟩

theorem meets_loadTwoFA {Q : Except Error (Option TwoFA) → Ghost ι → Prop}
    (h : ∀ record, Q (.ok record) ⟨n, .free tested seen⟩) :
    Meets protocol loadTwoFA ⟨n, .free tested seen⟩ Q :=
  meets_step trivial fun s _ =>
    ⟨_, ⟨rfl, .free (.inl rfl) (.refl s) rfl (Int.le_refl _) (.inl rfl)⟩, h _⟩

theorem meets_loadEnabled {Q : Except Error TwoFA → Ghost ι → Prop}
    (herror : ∀ e, Q (.error e) ⟨n, .free tested seen⟩)
    (h : ∀ twoFA, Q (.ok twoFA) ⟨n, .free tested seen⟩) :
    Meets protocol loadEnabled ⟨n, .free tested seen⟩ Q := by
  apply meets_bind
  apply meets_loadTwoFA
  rintro (_ | twoFA)
  · exact herror _
  · exact meets_ite (fun _ => h _) fun _ => herror _

/-- A copy that is not locked may be tested. -/
theorem meets_isLocked {time : Int} {Q : Except Error Bool → Ghost ι → Prop}
    (hlocked : ∀ seen, Q (.ok true) ⟨n, .free tested seen⟩)
    (h : ∀ seen, (∀ u, twoFA.lockedUntil = some u → u ≤ seen) →
      Q (.ok false) ⟨n, .free tested seen⟩) :
    Meets protocol (isLocked time twoFA) ⟨n, .free tested seen⟩ Q := by
  unfold isLocked
  cases hu : twoFA.lockedUntil with
  | none => exact h seen fun u hu' => by rw [hu] at hu'; cases hu'
  | some lockedUntil =>
    apply meets_bind
    apply meets_step trivial
    intro s _
    refine ⟨⟨n, .free tested (max s.now time)⟩,
      ⟨rfl, .free (.inl rfl) ⟨Int.le_refl _, fun _ h => .inl h⟩ rfl (by dsimp only; omega) (.inr rfl)⟩,
      ?_⟩
    show Q (.ok (decide (max s.now time < lockedUntil))) _
    by_cases hlt : max s.now time < lockedUntil
    · rw [decide_eq_true hlt]
      exact hlocked _
    · rw [decide_eq_false hlt]
      refine h _ fun u hu' => ?_
      rw [hu] at hu'
      cases hu'
      omega

theorem meets_testTOTP {sec : Security} {time : Int} {code : List Char}
    {Q : Except Error Bool → Ghost ι → Prop} (hseen : ∀ u, twoFA.lockedUntil = some u → u ≤ seen)
    (hok : Q (.ok true) ⟨n, .passed none⟩)
    (hwrong : ∀ time, Q (.ok false) ⟨n, .failed twoFA.failedAttempts time⟩) :
    Meets protocol (testTOTP sec n time twoFA code) ⟨n, .free false seen⟩ Q := by
  have hmay : protocol.may (.test twoFA) ⟨n, .free false seen⟩ := ⟨rfl, hseen⟩
  apply meets_step hmay
  intro s _
  dsimp only
  cases validateTOTPCode sec twoFA.secret code (max s.now time) with
  | true => exact ⟨⟨n, .passed none⟩, ⟨rfl, .totp time⟩, hok⟩
  | false =>
    exact ⟨⟨n, .failed twoFA.failedAttempts (max s.now time)⟩, ⟨rfl, .wrong time⟩, hwrong _⟩

theorem meets_testBackupCode {sec : Security} {time : Int} {code : List Char}
    {Q : Except Error (Option TwoFABackupCode) → Ghost ι → Prop}
    (hseen : ∀ u, twoFA.lockedUntil = some u → u ≤ seen)
    (hok : ∀ c : TwoFABackupCode, Q (.ok (some c)) ⟨n, .passed (some c.id)⟩)
    (hwrong : ∀ time, Q (.ok none) ⟨n, .failed twoFA.failedAttempts time⟩) :
    Meets protocol (testBackupCode sec n time twoFA code) ⟨n, .free false seen⟩ Q := by
  have hmay : protocol.may (.test twoFA) ⟨n, .free false seen⟩ := ⟨rfl, hseen⟩
  apply meets_step hmay
  intro s _
  dsimp only
  cases hfound : s.unusedCodes.find? fun c => sec.validatePasswordAndHash
      (String.ofList (normalizeBackupCode sec code)) c.codeHash with
  | none =>
    exact ⟨⟨n, .failed twoFA.failedAttempts (max s.now time)⟩, ⟨rfl, .wrong time⟩, hwrong _⟩
  | some c =>
    have hmem := List.mem_filter.1 (List.mem_of_find?_eq_some hfound)
    have hunused : Unused s c.id := ⟨c, hmem.1, rfl, by simpa using (of_decide_eq_true hmem.2).1⟩
    exact ⟨⟨n, .passed (some c.id)⟩, ⟨rfl, .backup time hunused⟩, hok c⟩

/-- One failure more is saved. -/
theorem meets_increment {time time' : Int} {Q : Except Error TwoFA → Ghost ι → Prop}
    (h : ∀ r seen, Q (.ok r) ⟨n, .free true seen⟩) :
    Meets protocol (incrementTwoFAFailedAttempts time' twoFA)
      ⟨n, .failed twoFA.failedAttempts time⟩ Q := by
  apply meets_bind
  have hsave : ∀ r : TwoFA, r.failedAttempts = twoFA.failedAttempts + 1 →
      (maxFailAttempts ≤ r.failedAttempts → ∃ u, r.lockedUntil = some u ∧
        time + lockoutDuration ≤ u) →
      Meets protocol (do updateTwoFA r; pure r) ⟨n, .failed twoFA.failedAttempts time⟩ Q := by
    intro r hcount hlock
    apply meets_bind
    exact meets_step trivial fun s _ =>
      ⟨⟨n, .free true s.now⟩, ⟨rfl, .fail hcount hlock⟩, h r s.now⟩
  apply meets_ite
  · intro _
    apply meets_bind
    apply meets_step trivial
    intro s htime
    refine ⟨⟨n, .failed twoFA.failedAttempts time⟩, ⟨rfl, .clock time' trivial⟩,
      hsave _ rfl fun _ => ⟨_, rfl, ?_⟩⟩
    have htime : time ≤ s.now := htime
    omega
  · intro hfew
    exact hsave _ rfl fun hmany => absurd hmany hfew

theorem meets_trackUsage {time : Int} {Q : Except Error TwoFA → Ghost ι → Prop}
    (h : ∀ r seen, Q (.ok r) ⟨n, .free true seen⟩) :
    Meets protocol (trackUsage time twoFA) ⟨n, .passed none⟩ Q := by
  apply meets_bind
  apply meets_step trivial
  intro s _
  refine ⟨⟨n, .passed none⟩, ⟨rfl, .clock time trivial⟩, ?_⟩
  apply meets_bind
  exact meets_step trivial fun s _ => ⟨⟨n, .free true s.now⟩, ⟨rfl, .pass rfl⟩, h _ _⟩

theorem unused_saveCode {s : Store ι} {code : TwoFABackupCode} (hused : code.isUsed = true)
    {id : Int} (h : Unused (s.saveCode code) id) : Unused s id ∧ id ≠ code.id := by
  obtain ⟨c, hc, hid, hunused⟩ := h
  unfold Store.saveCode at hc
  dsimp only at hc
  split at hc
  next =>
    obtain ⟨c', hc', rfl⟩ := List.mem_map.1 hc
    split at hid
    next => simp_all
    next hne =>
      rw [if_neg hne] at hunused
      exact ⟨⟨c', hc', hid, hunused⟩, hid ▸ hne⟩
  next hnone =>
    rcases List.mem_append.1 hc with hc | hc
    · refine ⟨⟨c, hc, hid, hunused⟩, fun e => hnone ?_⟩
      exact List.any_eq_true.2 ⟨c, hc, by simp [hid, e]⟩
    · rw [List.mem_singleton.1 hc, hused] at hunused
      cases hunused

theorem meets_saveBackupCode (code : TwoFABackupCode) (hused : code.isUsed = true)
    {Q : Except Error PUnit → Ghost ι → Prop} (h : Q (.ok ()) ⟨n, .passed none⟩) :
    Meets protocol (saveBackupCode code) ⟨n, .passed (some code.id)⟩ Q :=
  meets_step trivial fun _ _ =>
    ⟨⟨n, .passed none⟩, ⟨rfl, .mark (fun _ h => unused_saveCode hused h) rfl rfl rfl rfl⟩, h⟩

theorem meets_deleteTwoFA {Q : Except Error PUnit → Ghost ι → Prop}
    (h : ∀ result, Q result ⟨n, .free tested seen⟩) :
    Meets protocol deleteTwoFAByUserID ⟨n, .free tested seen⟩ Q := by
  apply meets_bind
  apply meets_loadTwoFA
  rintro (_ | twoFA)
  · exact h _
  · refine meets_step trivial fun s _ =>
      ⟨_, ⟨rfl, .free (.inr rfl) ⟨Int.le_refl _, ?_⟩ rfl (Int.le_refl _) (.inl rfl)⟩, h _⟩
    rintro id ⟨c, hc, -⟩
    cases hc

theorem mem_newBackupCodes {next : Int} {hashes : List String} {c : TwoFABackupCode}
    (h : c ∈ newBackupCodes next hashes) : next ≤ c.id ∧ c.id < next + hashes.length := by
  induction hashes generalizing next with
  | nil => cases h
  | cons codeHash hashes ih =>
    rcases List.mem_cons.1 h with rfl | h
    · show next ≤ next ∧ next < next + ((hashes.length + 1 : Nat) : Int)
      omega
    · have := ih h
      simp only [List.length_cons]
      omega

theorem meets_replaceCodes {sec : Security} {codes : List String}
    {Q : Except Error PUnit → Ghost ι → Prop} (h : ∀ result, Q result ⟨n, .free tested seen⟩) :
    Meets protocol (replaceTwoFABackupCodes sec codes) ⟨n, .free tested seen⟩ Q := by
  unfold replaceTwoFABackupCodes
  split
  next => exact h _
  next hashes _ =>
    refine meets_step trivial fun s _ =>
      ⟨_, ⟨rfl, .free (.inl rfl) ⟨by dsimp only; omega, ?_⟩ rfl (Int.le_refl _) (.inl rfl)⟩, h _⟩
    rintro id ⟨c, hc, hid, hunused⟩
    rcases List.mem_append.1 hc with hc | hc
    · obtain ⟨c', hc', rfl⟩ := List.mem_map.1 hc
      exact .inl ⟨c', hc', hid, hunused⟩
    · exact .inr (hid ▸ mem_newBackupCodes hc)

end Statements

section Calls

variable {ι : Type} {sec : Security} {n : ι} {time : Nat → Int} {twoFA : TwoFA} {tested : Bool}
  {seen : Int}

theorem ends_free {result : Except Error PUnit} : Ends result ⟨n, .free tested seen⟩ := id

/-- The validator of one-time passwords, which leaves the call free. -/
theorem meets_validateTOTP {code : List Char}
    {Q : Except Error (Except Error Bool × TwoFA) → Ghost ι → Prop}
    (h : ∀ result tested seen, Q (.ok result) ⟨n, .free tested seen⟩) :
    Meets protocol (validateTwoFATOTPAndTrackUsage sec n time twoFA code) ⟨n, .free false seen⟩
      Q := by
  apply meets_bind
  apply meets_isLocked
  · exact fun seen => h _ _ _
  · intro seen hseen
    apply meets_bind
    apply meets_testTOTP hseen
    · apply meets_bind
      exact meets_trackUsage fun r seen => h _ _ _
    · intro time
      apply meets_bind
      exact meets_increment fun r seen => h _ _ _

/-- The validator of backup codes, for a code that was not tested yet. -/
theorem meets_validateBackup {code : List Char}
    (hfresh : tested = true → validateBackupCode sec code = false)
    {Q : Except Error (Except Error Bool × TwoFA) → Ghost ι → Prop}
    (h : ∀ result tested seen, Q (.ok result) ⟨n, .free tested seen⟩) :
    Meets protocol (validateTwoFABackupCodeAndTrackUsage sec n time twoFA code)
      ⟨n, .free tested seen⟩ Q := by
  apply meets_bind
  apply meets_isLocked
  · exact fun seen => h _ _ _
  · intro seen hseen
    show Meets protocol (if !validateBackupCode sec code then _ else _) _ _
    apply meets_ite
    · exact fun _ => h _ _ _
    · intro hvalid
      have hnot : tested = false := by
        rw [Bool.eq_false_iff]
        intro htested
        rw [hfresh htested] at hvalid
        exact hvalid rfl
      subst hnot
      apply meets_bind
      apply meets_testBackupCode hseen
      · intro c
        apply meets_bind
        apply meets_step trivial
        intro s _
        refine ⟨⟨n, .passed (some c.id)⟩, ⟨rfl, .clock _ trivial⟩, ?_⟩
        apply meets_bind
        apply meets_saveBackupCode { c with isUsed := true, usedAt := some _ } rfl
        apply meets_bind
        exact meets_trackUsage fun r seen => h _ _ _
      · intro time
        apply meets_bind
        exact meets_increment fun r seen => h _ _ _

theorem meets_validateCodeOrBackup {code : List Char} {Q : Except Error PUnit → Ghost ι → Prop}
    (h : ∀ result tested seen, Q result ⟨n, .free tested seen⟩) :
    Meets protocol (validateTwoFACodeOrBackup sec n time twoFA code) ⟨n, .free false seen⟩ Q := by
  -- what follows the one-time password
  have hrest : ∀ (next : Except Error Bool × TwoFA → Flow ι PUnit) (valid : Bool) (twoFA : TwoFA)
      (tested : Bool) (seen : Int), (tested = true → validateBackupCode sec code = false) →
      (∀ p tested seen, Meets protocol (next p) ⟨n, .free tested seen⟩ Q) →
      Meets protocol (if valid then pure ()
        else validateTwoFABackupCodeAndTrackUsage sec n time twoFA code >>= next)
        ⟨n, .free tested seen⟩ Q := by
    intro next valid twoFA tested seen hfresh hnext
    apply meets_ite
    · exact fun _ => h _ _ _
    · intro _
      apply meets_bind
      exact meets_validateBackup hfresh hnext
  apply meets_bind
  cases hnumeric : validateNumericCode code with
  | none =>
    apply hrest _ _ _ false seen (by simp)
    rintro ⟨e | valid, _⟩ tested seen
    · exact h _ _ _
    · exact meets_ite (fun _ => h _ _ _) fun _ => h _ _ _
  | some cleanCode =>
    apply meets_bind
    apply meets_validateTOTP
    rintro ⟨result, twoFA⟩ tested seen
    apply hrest _ _ twoFA tested seen fun _ => validateBackupCode_of_numeric hnumeric
    rintro ⟨e | valid, _⟩ tested seen
    · exact h _ _ _
    · exact meets_ite (fun _ => h _ _ _) fun _ => h _ _ _

theorem Call.meets (call : Call) : Meets protocol (call.code sec n) ⟨n, .free false seen⟩ Ends := by
  cases call with
  | verifyLogin time code =>
    apply meets_bind
    refine meets_step trivial fun s _ => ⟨⟨n, .free false seen⟩,
      ⟨rfl, .free (.inl rfl) (.refl s) rfl (Int.le_refl _) (.inl rfl)⟩, ?_⟩
    apply meets_ite
    · exact fun _ => ends_free
    · intro _
      apply meets_bind
      apply meets_loadEnabled fun _ => ends_free
      intro twoFA
      exact meets_validateCodeOrBackup fun _ _ _ => ends_free
  | disable time code =>
    apply meets_bind
    apply meets_loadEnabled fun _ => ends_free
    intro twoFA
    apply meets_bind
    apply meets_validateCodeOrBackup
    rintro (e | -) tested seen
    · exact ends_free
    · exact meets_deleteTwoFA fun _ => ends_free
  | regenerate time backupCodes code =>
    apply meets_bind
    apply meets_loadEnabled fun _ => ends_free
    intro twoFA
    dsimp only
    cases validateNumericCode code with
    | none => exact ends_free
    | some cleanCode =>
      apply meets_bind
      apply meets_validateTOTP
      rintro ⟨e | valid, _⟩ tested seen
      · exact ends_free
      · apply meets_ite
        · exact fun _ => ends_free
        · intro _
          cases backupCodes with
          | none => exact ends_free
          | some codes => exact meets_replaceCodes fun _ => ends_free

end Calls

section Invariant

variable {ι : Type}

/-- The record counts the failures of the log and is locked after the last of too many. -/
def Matches (start : Int) (r : TwoFA) (log : List (Event ι)) : Prop :=
  r.failedAttempts = failures start log ∧
    ∀ e es, log = e :: es → maxFailAttempts ≤ failures start log →
      ∃ u, r.lockedUntil = some u ∧ e.time + lockoutDuration ≤ u

/-- What holds of the rows and of where the calls stand. -/
structure Inv (start : Int) (s : Store ι) (g : ι → Ghost ι) : Prop where
  call : ∀ i, (g i).call = i
  seen : ∀ i tested t, (g i).phase = .free tested t → t ≤ s.now
  untested : ∀ i t, (g i).phase = .free false t → i ∉ s.log.map Event.call
  single : (s.log.map Event.call).Nodup
  spaced : Spaced s.log
  ids : ∀ id, Unused s id → id < s.nextCodeID
  once : (s.log.filterMap Event.backupCode).Nodup
  /-- a code that was accepted is marked, or its call is about to -/
  spent : ∀ id ∈ s.log.filterMap Event.backupCode, id < s.nextCodeID ∧
    (Unused s id → ∃ i, (g i).phase = .passed (some id))
  alone : ∀ i j, (g i).phase.busy → (g j).phase.busy → i = j
  settled : (∀ i, ¬ (g i).phase.busy) → ∀ r, s.record = some r → Matches start r s.log
  failed : ∀ i k t, (g i).phase = .failed k t → k + 1 = failures start s.log ∧ t ≤ s.now ∧
    ∃ e es, s.log = e :: es ∧ e.time = t
  passed : ∀ i code, (g i).phase = .passed code → failures start s.log = 0

variable {start : Int} {s s' : Store ι} {g : ι → Ghost ι} {i : ι} {p : Phase}

variable [DecidableEq ι]

/-- The phases after call `i` has gone on to `p`. -/
def moved (g : ι → Ghost ι) (i : ι) (p : Phase) : ι → Ghost ι :=
  Function.update g i ⟨i, p⟩

theorem moved_self : (moved g i p i).phase = p := by simp [moved]

theorem moved_of_ne {j : ι} (h : j ≠ i) : moved g i p j = g j := by simp [moved, h]

/-- What is said of every call holds after a move if it holds of the new phase and of the others. -/
theorem forall_moved {motive : ι → Phase → Prop} (hi : motive i p)
    (hj : ∀ j, j ≠ i → motive j (g j).phase) (j : ι) : motive j (moved g i p j).phase := by
  by_cases h : j = i
  · subst h
    rw [moved_self]
    exact hi
  · rw [moved_of_ne h]
    exact hj j h

theorem Inv.call_moved (h : Inv start s g) (j : ι) : (moved g i p j).call = j := by
  by_cases hj : j = i
  · subst hj
    simp [moved]
  · rw [moved_of_ne hj]
    exact h.call j

/-- A step of a call that is free and tests nothing. -/
theorem Inv.free (h : Inv start s g) {tested : Bool} {seen seen' : Int}
    (hphase : (g i).phase = .free tested seen) (hrecord : s'.record = s.record ∨ s'.record = none)
    (hcodes : CodesKept s s') (hlog : s'.log = s.log) (hnow : s.now ≤ s'.now)
    (hseen : seen' = seen ∨ seen' = s'.now) : Inv start s' (moved g i (.free tested seen')) := by
  have hbusy : ∀ j, (moved g i (.free tested seen') j).phase.busy → (g j).phase.busy := by
    refine forall_moved (motive := fun j p => p.busy → (g j).phase.busy) ?_ fun j _ h => h
    exact fun h => h.elim
  have hother : ∀ {j : ι} {q : Phase}, q.busy →
      ((moved g i (.free tested seen') j).phase = q ↔ (g j).phase = q) := by
    intro j q hq
    by_cases hj : j = i
    · subst hj
      rw [moved_self, hphase]
      constructor <;> (rintro rfl; exact hq.elim)
    · rw [moved_of_ne hj]
  constructor
  · exact h.call_moved
  · refine forall_moved (motive := fun _ p => ∀ tested t, p = .free tested t → t ≤ s'.now) ?_ ?_
    · rintro _ _ ⟨⟩
      rcases hseen with rfl | rfl
      · have := h.seen i tested seen' hphase
        omega
      · exact Int.le_refl _
    · intro j _ tested t hj
      have := h.seen j tested t hj
      omega
  · rw [hlog]
    refine forall_moved (motive := fun j p => ∀ t, p = .free false t → j ∉ s.log.map Event.call)
      ?_ fun j _ => h.untested j
    rintro t ⟨⟩
    exact h.untested i seen hphase
  · rw [hlog]
    exact h.single
  · rw [hlog]
    exact h.spaced
  · intro id hunused
    rcases hcodes.unused id hunused with hid | hid
    · have := h.ids id hid
      have := hcodes.next
      omega
    · exact hid.2
  · rw [hlog]
    exact h.once
  · rw [hlog]
    intro id hid
    obtain ⟨hlt, hpending⟩ := h.spent id hid
    refine ⟨by have := hcodes.next; omega, fun hunused => ?_⟩
    rcases hcodes.unused id hunused with hunused | hnew
    · obtain ⟨j, hj⟩ := hpending hunused
      exact ⟨j, (hother (q := .passed (some id)) trivial).2 hj⟩
    · omega
  · exact fun j k hj hk => h.alone j k (hbusy j hj) (hbusy k hk)
  · intro hnone r hr
    rw [hlog]
    apply h.settled
    · intro j hj
      refine hnone j ?_
      rwa [(hother hj).2 rfl]
    · rcases hrecord with hsame | hgone
      · rw [← hsame]
        exact hr
      · rw [hgone] at hr
        cases hr
  · intro j k t hj
    rw [hlog]
    obtain ⟨hcount, htime, hhead⟩ := h.failed j k t ((hother (q := .failed k t) trivial).1 hj)
    exact ⟨hcount, by omega, hhead⟩
  · intro j code hj
    rw [hlog]
    exact h.passed j code ((hother (q := .passed code) trivial).1 hj)

/-- A test on the stored record by a call that has seen it unlocked, while no call is busy. -/
theorem Inv.tested (h : Inv start s g) (hstart : 0 ≤ start) {seen : Int}
    (hphase : (g i).phase = .free false seen) {twoFA : TwoFA} (hrecord : s.record = some twoFA)
    (hseen : ∀ u, twoFA.lockedUntil = some u → u ≤ seen) (hidle : ∀ j, ¬ (g j).phase.busy)
    {time : Int} {verdict : Verdict} (hbusy : p.busy)
    (hfailed : ∀ k t, p = .failed k t →
      k = twoFA.failedAttempts ∧ t = max s.now time ∧ verdict = .wrong)
    (hpassed : ∀ code, p = .passed code → verdict ≠ .wrong)
    (hbackup : ∀ id, verdict = .backup id → Unused s id ∧ p = .passed (some id)) :
    Inv start (s.tested i time verdict) (moved g i p) := by
  obtain ⟨hcount, hlock⟩ := h.settled hidle twoFA hrecord
  have hseenNow := h.seen i false seen hphase
  -- the codes that were accepted are all marked
  have hmarked : ∀ id ∈ s.log.filterMap Event.backupCode, ¬ Unused s id := by
    intro id hid hunused
    obtain ⟨j, hj⟩ := (h.spent id hid).2 hunused
    exact hidle j (by rw [hj]; trivial)
  have hlater : ∀ j, j ≠ i → ¬ (moved g i p j).phase.busy := by
    intro j hj
    rw [moved_of_ne hj]
    exact hidle j
  have hself : ∀ j, (moved g i p j).phase.busy → j = i := by
    intro j hj
    by_contra hne
    exact hlater j hne hj
  constructor
  · exact h.call_moved
  · refine forall_moved (motive := fun _ p => ∀ tested t, p = .free tested t → t ≤ max s.now time)
      ?_ ?_
    · rintro _ _ rfl
      exact hbusy.elim
    · intro j _ tested t hj
      have := h.seen j tested t hj
      omega
  · refine forall_moved (motive := fun j p => ∀ t, p = .free false t →
      j ∉ (s.tested i time verdict).log.map Event.call) ?_ ?_
    · rintro _ rfl
      exact hbusy.elim
    · intro j hji t hj hmem
      rcases List.mem_cons.1 hmem with rfl | hmem
      · exact hji rfl
      · exact h.untested j t hj hmem
  · exact List.nodup_cons.2 ⟨h.untested i seen hphase, h.single⟩
  · show Spaced (⟨i, max s.now time, verdict⟩ :: s.log)
    have hspaced := h.spaced
    cases hlog : s.log with
    | nil => trivial
    | cons e es =>
      rw [hlog] at hspaced hlock
      refine ⟨fun hmany => ?_, hspaced⟩
      have hle := streak_le_failures hstart (e :: es)
      obtain ⟨u, hu, hgap⟩ := hlock e es rfl (by omega)
      have := hseen u hu
      show e.time + lockoutDuration ≤ max s.now time
      omega
  · exact h.ids
  · show (List.filterMap Event.backupCode (⟨i, max s.now time, verdict⟩ :: s.log)).Nodup
    cases verdict with
    | wrong => exact h.once
    | totp => exact h.once
    | backup id => exact List.nodup_cons.2 ⟨fun hmem => hmarked id hmem (hbackup id rfl).1, h.once⟩
  · have hold : ∀ id ∈ s.log.filterMap Event.backupCode, id < s.nextCodeID ∧
        (Unused s id → ∃ j, (moved g i p j).phase = .passed (some id)) :=
      fun id hid => ⟨(h.spent id hid).1, fun hunused => absurd hunused (hmarked id hid)⟩
    show ∀ id ∈ List.filterMap Event.backupCode (⟨i, max s.now time, verdict⟩ :: s.log),
      id < s.nextCodeID ∧ (Unused s id → ∃ j, (moved g i p j).phase = .passed (some id))
    cases verdict with
    | wrong => exact hold
    | totp => exact hold
    | backup id =>
      obtain ⟨hunused, rfl⟩ := hbackup id rfl
      intro id' hid'
      rcases List.mem_cons.1 hid' with rfl | hid'
      · exact ⟨h.ids id' hunused, fun _ => ⟨i, moved_self⟩⟩
      · exact hold id' hid'
  · intro j k hj hk
    rw [hself j hj, hself k hk]
  · intro hnone
    exact absurd (by rw [moved_self]; exact hbusy) (hnone i)
  · intro j k t hj
    have hji := hself j (by rw [hj]; trivial)
    subst hji
    rw [moved_self] at hj
    obtain ⟨rfl, rfl, rfl⟩ := hfailed k t hj
    refine ⟨?_, Int.le_refl _, _, _, rfl, rfl⟩
    show twoFA.failedAttempts + 1 = failures start s.log + 1
    rw [hcount]
  · intro j code hj
    have hji := hself j (by rw [hj]; trivial)
    subst hji
    rw [moved_self] at hj
    exact if_neg (hpassed code hj)

omit [DecidableEq ι] in
/-- A busy call is the only one. -/
theorem Inv.others (h : Inv start s g) (hi : (g i).phase.busy) {j : ι} (hj : j ≠ i) :
    ¬ (g j).phase.busy := fun hbusy => hj (h.alone j i hbusy hi)

/-- A busy call goes on, reads the clock or marks its backup code. -/
theorem Inv.held (h : Inv start s g) (hbusy : (g i).phase.busy) (hp : p.busy)
    (hlog : s'.log = s.log) (hnow : s.now ≤ s'.now)
    (hnext : s'.nextCodeID = s.nextCodeID) (hcodes : ∀ id, Unused s' id → Unused s id)
    (hfailed : ∀ k t, p = .failed k t → (g i).phase = .failed k t)
    (hpassed : ∀ code, p = .passed code → ∃ code', (g i).phase = .passed code')
    (hmark : ∀ id, (g i).phase = .passed (some id) → Unused s' id → p = .passed (some id)) :
    Inv start s' (moved g i p) := by
  have hself : ∀ j, (moved g i p j).phase.busy → j = i := by
    intro j hj
    by_contra hne
    rw [moved_of_ne hne] at hj
    exact h.others hbusy hne hj
  constructor
  · exact h.call_moved
  · refine forall_moved (motive := fun _ p => ∀ tested t, p = .free tested t → t ≤ s'.now) ?_ ?_
    · rintro _ _ rfl
      exact hp.elim
    · intro j _ tested t hj
      have := h.seen j tested t hj
      omega
  · rw [hlog]
    refine forall_moved (motive := fun j p => ∀ t, p = .free false t → j ∉ s.log.map Event.call)
      ?_ fun j _ => h.untested j
    rintro t rfl
    exact hp.elim
  · rw [hlog]
    exact h.single
  · rw [hlog]
    exact h.spaced
  · intro id hid
    rw [hnext]
    exact h.ids id (hcodes id hid)
  · rw [hlog]
    exact h.once
  · rw [hlog, hnext]
    intro id hid
    obtain ⟨hlt, hpending⟩ := h.spent id hid
    refine ⟨hlt, fun hunused => ?_⟩
    obtain ⟨j, hj⟩ := hpending (hcodes id hunused)
    have hji : j = i := h.alone j i (by rw [hj]; trivial) hbusy
    subst hji
    exact ⟨j, by rw [moved_self]; exact hmark id hj hunused⟩
  · intro j k hj hk
    rw [hself j hj, hself k hk]
  · intro hnone
    exact absurd (by rw [moved_self]; exact hp) (hnone i)
  · intro j k t hj
    have hji := hself j (by rw [hj]; trivial)
    subst hji
    rw [moved_self] at hj
    rw [hlog]
    obtain ⟨hcount, htime, hhead⟩ := h.failed j k t (hfailed k t hj)
    exact ⟨hcount, by omega, hhead⟩
  · intro j code hj
    have hji := hself j (by rw [hj]; trivial)
    subst hji
    rw [moved_self] at hj
    rw [hlog]
    obtain ⟨code', hcode'⟩ := hpassed code hj
    exact h.passed j code' hcode'

/-- A busy call saves the record. -/
theorem Inv.saved (h : Inv start s g) (hbusy : (g i).phase.busy) {r : TwoFA}
    (hr : Matches start r s.log) (hmarked : ∀ id, (g i).phase ≠ .passed (some id)) :
    Inv start { s with record := some r } (moved g i (.free true s.now)) := by
  have hidle : ∀ j, ¬ (moved g i (.free true s.now) j).phase.busy := by
    refine forall_moved (motive := fun _ p => ¬ p.busy) id fun j hj => h.others hbusy hj
  constructor
  · exact h.call_moved
  · refine forall_moved (motive := fun _ p => ∀ tested t, p = .free tested t → t ≤ s.now) ?_
      fun j _ => h.seen j
    rintro _ _ ⟨⟩
    exact Int.le_refl _
  · exact forall_moved (motive := fun j p => ∀ t, p = .free false t → j ∉ s.log.map Event.call)
      nofun fun j _ => h.untested j
  · exact h.single
  · exact h.spaced
  · exact h.ids
  · exact h.once
  · intro id hid
    obtain ⟨hlt, hpending⟩ := h.spent id hid
    refine ⟨hlt, fun hunused => ?_⟩
    obtain ⟨j, hj⟩ := hpending hunused
    have hji : j = i := h.alone j i (by rw [hj]; trivial) hbusy
    subst hji
    exact absurd hj (hmarked id)
  · exact fun j k hj _ => absurd hj (hidle j)
  · rintro _ r' ⟨⟩
    exact hr
  · intro j k t hj
    exact absurd (by rw [hj]; trivial) (hidle j)
  · intro j code hj
    exact absurd (by rw [hj]; trivial) (hidle j)

theorem Inv.step (h : Inv start s g) (hstart : 0 ≤ start) {l : Moment} {g' : Ghost ι}
    (hdoes : protocol.does l (g i) s s' g') (hmay : protocol.may l (g i))
    (htest : ∀ twoFA, l = .test twoFA → s.record = some twoFA ∧ ∀ j, ¬ (g j).phase.busy) :
    Inv start s' (Function.update g i g') := by
  obtain ⟨hcall, hdoes⟩ := hdoes
  obtain ⟨n, p'⟩ := g'
  rw [h.call i] at hcall hdoes
  subst hcall
  show Inv start s' (moved g n p')
  simp only [protocol] at hmay
  generalize hphase : (g n).phase = p at hdoes hmay
  cases hdoes with
  | free hrecord hcodes hlog hnow hseen => exact h.free hphase hrecord hcodes hlog hnow hseen
  | @wrong twoFA seen _ time =>
    obtain ⟨hrecord, hidle⟩ := htest twoFA rfl
    exact h.tested hstart hphase hrecord hmay.2 hidle trivial
      (fun k t hk => by cases hk; exact ⟨rfl, rfl, rfl⟩) nofun nofun
  | @totp twoFA seen _ time =>
    obtain ⟨hrecord, hidle⟩ := htest twoFA rfl
    exact h.tested hstart hphase hrecord hmay.2 hidle trivial nofun (fun _ _ => nofun) nofun
  | @backup twoFA seen _ time id hunused =>
    obtain ⟨hrecord, hidle⟩ := htest twoFA rfl
    exact h.tested hstart hphase hrecord hmay.2 hidle trivial nofun (fun _ _ => nofun)
      fun id' hid' => by cases hid'; exact ⟨hunused, rfl⟩
  | clock time hbusy =>
    subst hphase
    exact h.held hbusy hbusy rfl (by dsimp only; omega) rfl (fun _ hid => hid) (fun _ _ hk => hk)
      (fun code hcode => ⟨code, hcode⟩) fun _ hid _ => hid
  | @fail k time _ r hcount hlock =>
    obtain ⟨hk, -, e, es, hlog, rfl⟩ := h.failed n k time hphase
    refine h.saved (by rw [hphase]; trivial) ⟨hcount.trans hk, ?_⟩ fun id => by
      rw [hphase]
      exact nofun
    intro e' es' hlog' hmany
    rw [hlog] at hlog'
    cases hlog'
    exact hlock (by omega)
  | @mark _ _ id hmarked hrecord hlog hnow hnext =>
    refine h.held (by rw [hphase]; trivial) trivial hlog (by omega) hnext
      (fun id' hid' => (hmarked id' hid').1) nofun (fun _ _ => ⟨_, hphase⟩) ?_
    intro id' hid' hunused
    rw [hphase] at hid'
    cases hid'
    exact absurd rfl (hmarked id hunused).2
  | @pass _ r hcount =>
    have hzero := h.passed n none hphase
    refine h.saved (by rw [hphase]; trivial) ⟨hcount.trans hzero.symm, ?_⟩ fun id => by
      rw [hphase]
      exact nofun
    intro _ _ _ hmany
    rw [hzero] at hmany
    exact absurd hmany (by decide)

end Invariant

section Runs

variable {ι : Type}

/-- The calls, none of which has begun. -/
def calls (sec : Security) (s₀ : Store ι) (call : ι → Call) :
    System ι (Store ι) Moment Error PUnit :=
  ⟨s₀, fun i => (call i).code sec i⟩

/-- A call that is busy has still something to do before it ends. -/
theorem held_of_busy {c : System ι (Store ι) Moment Error PUnit} {g : ι → Ghost ι}
    (h : Keeping protocol (fun _ => Ends) c g) {i : ι} (hbusy : (g i).phase.busy) :
    (c.proc i).next? = some .held := by
  obtain ⟨l, hnext, hmay⟩ := (h i).has_next fun _ hends => hends hbusy
  simp only [protocol] at hmay
  generalize (g i).phase = p at hbusy hmay
  cases p with
  | free tested seen => exact hbusy.elim
  | failed k t =>
    cases l with
    | held => exact hnext
    | free => exact hmay.elim
    | test twoFA => exact hmay.elim
  | passed code =>
    cases l with
    | held => exact hnext
    | free => exact hmay.elim
    | test twoFA => exact hmay.elim

/-- In an orderly run backup codes are used once and guesses are bounded. -/
theorem two_factor_bounded [DecidableEq ι] {sec : Security} {s₀ : Store ι} {call : ι → Call}
    {c : System ι (Store ι) Moment Error PUnit} {start : Int}
    (hids : ∀ code ∈ s₀.codes, code.id < s₀.nextCodeID) (hlog : s₀.log = [])
    (hrecord : ∀ r, s₀.record = some r → r.failedAttempts = start) (hstart : 0 ≤ start)
    (h : Reach Orderly (calls sec s₀ call) c) : Bounded start c := by
  have hbegun : Keeping protocol (fun _ => Ends) (calls sec s₀ call)
      fun i => ⟨i, .free false s₀.now⟩ := fun i => (call i).meets
  have hinv₀ : Inv start s₀ fun i => ⟨i, .free false s₀.now⟩ := by
    constructor
    · exact fun i => rfl
    · rintro i tested t ⟨⟩
      exact Int.le_refl _
    · simp [hlog]
    · simp [hlog]
    · simp [hlog, Spaced]
    · rintro id ⟨code, hcode, rfl, -⟩
      exact hids code hcode
    · simp [hlog]
    · simp [hlog]
    · exact fun i j hi => hi.elim
    · intro _ r hr
      exact ⟨by rw [hlog]; exact hrecord r hr, by simp [hlog]⟩
    · exact nofun
    · exact nofun
  have hassume : ∀ (c : System ι (Store ι) Moment Error PUnit) (g : ι → Ghost ι) (i : ι)
      (l : Moment), Keeping protocol (fun _ => Ends) c g → Inv start c.state g → Orderly c i l →
      protocol.assume l (g i) c.state := by
    intro c g i l _ hinv _
    simp only [protocol]
    split
    next k t hphase => exact (hinv.failed i k t hphase).2.1
    next => trivial
  have hdoes : ∀ (c : System ι (Store ι) Moment Error PUnit) (g : ι → Ghost ι) (i : ι)
      (l : Moment) (s' : Store ι) (g' : Ghost ι), Keeping protocol (fun _ => Ends) c g →
      Inv start c.state g → Orderly c i l → (c.proc i).next? = some l →
      protocol.does l (g i) c.state s' g' → Inv start s' (Function.update g i g') := by
    intro c g i l s' g' hkeep hinv hok hnext hdoes
    have hmay := (hkeep i).may_next hnext
    refine hinv.step hstart hdoes hmay ?_
    rintro twoFA rfl
    refine ⟨hok.1, fun j hbusy => ?_⟩
    have hheld := held_of_busy hkeep hbusy
    by_cases hj : j = i
    · subst hj
      rw [hnext] at hheld
      cases hheld
    · exact hok.2 j hj hheld
  obtain ⟨g, hkeep, hinv⟩ := h.meets hbegun hinv₀ hassume hdoes
  refine ⟨hinv.once, hinv.spaced, hinv.single, fun hidle r hr => ?_⟩
  exact (hinv.settled (fun i hbusy => hidle i (held_of_busy hkeep hbusy)) r hr).1

end Runs

/-- One password and hashes that say what they hash. -/
def plain : Security where
  totpValidate := fun code _ _ => code = "123456"
  validatePasswordAndHash := fun password hash => password = hash
  password2Hash := some
  toUpper := id

/-- A user with one backup code. -/
def enrolled : Store Bool where
  record := some { id := 1, secret := "K", isEnabled := true }
  codes := [{ id := 1, codeHash := "ABCD-EFGH" }]
  nextCodeID := 2

def login (code : String) : Call := .verifyLogin (fun _ => 0) code.toList

/-- What was tested, the failures of the record, and whether both calls have ended. -/
structure Outcome where
  verdicts : List (Bool × Verdict)
  failedAttempts : Option Int
  ended : Bool
  deriving DecidableEq

def outcome (c : System Bool (Store Bool) Moment Error PUnit) : Outcome where
  verdicts := c.state.log.map fun e => (e.call, e.verdict)
  failedAttempts := c.state.record.map (·.failedAttempts)
  ended := [true, false].all fun i => (c.proc i).next?.isNone

def isHeld : Option Moment → Bool
  | some .held => true
  | _ => false

/-- A check of `Orderly` for two calls. -/
def orderly (c : System Bool (Store Bool) Moment Error PUnit) (i : Bool) : Moment → Bool
  | .test twoFA => c.state.record = some twoFA ∧ isHeld (c.proc !i).next? = false
  | _ => true

theorem orderly_of_check (c : System Bool (Store Bool) Moment Error PUnit) (i : Bool) (l : Moment)
    (h : orderly c i l = true) : Orderly c i l := by
  cases l with
  | free => trivial
  | held => trivial
  | test twoFA =>
    obtain ⟨hrecord, hfree⟩ := of_decide_eq_true h
    refine ⟨hrecord, fun j hj hheld => ?_⟩
    have hother : j = !i := by
      cases i <;> cases j <;> simp_all
    rw [← hother, hheld] at hfree
    cases hfree

def wrongThenBackup (i : Bool) : Call := if i then login "abcd-efgh" else login "000000"

theorem two_factor_bounded_sample : ∃ c : System Bool (Store Bool) Moment Error PUnit,
    Reach Orderly (calls plain enrolled wrongThenBackup) c ∧
      outcome c = ⟨[(true, .backup 1), (false, .wrong)], some 0, true⟩ ∧ Bounded 0 c := by
  have hrun : (perform orderly (calls plain enrolled wrongThenBackup)
      (List.replicate 4 false ++ List.replicate 7 true)).map outcome =
      some ⟨[(true, .backup 1), (false, .wrong)], some 0, true⟩ := by decide
  obtain ⟨c, hc, houtcome⟩ := Option.map_eq_some_iff.1 hrun
  have h := Reach.init.perform orderly_of_check hc
  have hids : ∀ code ∈ enrolled.codes, code.id < enrolled.nextCodeID := by decide
  have hrecord : ∀ r, enrolled.record = some r → r.failedAttempts = 0 := by
    rintro r ⟨⟩
    rfl
  exact ⟨c, h, houtcome, two_factor_bounded hids rfl hrecord (Int.le_refl 0) h⟩

def sameBackup (_ : Bool) : Call := login "ABCD-EFGH"

/-- Two calls that both read the unused code both accept it. -/
theorem backup_code_accepted_twice : ∃ c : System Bool (Store Bool) Moment Error PUnit,
    Reach (fun _ _ _ => True) (calls plain enrolled sameBackup) c ∧
      outcome c = ⟨[(true, .backup 1), (false, .backup 1)], some 0, true⟩ ∧ ¬ Bounded 0 c := by
  have hrun : (perform (fun _ _ _ => true) (calls plain enrolled sameBackup)
      [false, false, false, true, true, true, false, false, false, false, true, true, true,
        true]).map (fun c => (outcome c, c.state.log.filterMap Event.backupCode)) =
      some (⟨[(true, .backup 1), (false, .backup 1)], some 0, true⟩, [1, 1]) := by decide
  obtain ⟨c, hc, hobs⟩ := Option.map_eq_some_iff.1 hrun
  obtain ⟨houtcome, hcodes⟩ := Prod.mk.inj hobs
  refine ⟨c, Reach.init.perform (fun _ _ _ _ => trivial) hc, houtcome, fun hbounded => ?_⟩
  have honce := hbounded.once
  rw [hcodes] at honce
  exact absurd honce (by decide)

end CodeGo.Identity.TwoFactor
