import CodeGo.Lib.Weave
import CodeGo.Identity.DesktopAuth

/-!
# A desktop authorization is decided once

A call tests the status and the expiry on the copy that it has loaded, and its write tests nothing.
So a session is decided once in the runs in which the stored status is still the one that the
call has loaded, and nobody marks a decided session as expired.
-/

namespace CodeGo.Identity.DesktopAuth

open CodeGo.Lib CodeGo.Lib.Prog CodeGo.Lib.Trim CodeGo.Lib.Weave

def SessionStatus.decided (status : SessionStatus) : Bool :=
  status = .approved ∨ status = .rejected

/-- The stored status of the session is the one that was loaded. -/
def Fresh (session : DesktopAuthSession) (s : Store) : Prop :=
  (s.sessions.get? session.sessionID).map (·.status) = some session.status

/-- A call writes to a session that still has the status that it has loaded, and marks one as
expired that it has not loaded as decided. -/
def Careful (s : Store) : Action → Prop
  | .expire session => Fresh session s ∧ session.status.decided = false
  | .approve session => Fresh session s
  | .reject session => Fresh session s
  | _ => True

/-- The steps of an orderly run. -/
def Orderly {ι : Type} (c : System ι Store Action Error Answer) (_ : ι) (a : Action) : Prop :=
  Careful c.state a

/-- What a call has loaded. -/
structure Loaded where
  session : Option DesktopAuthSession := none
  device : Option DesktopAuthorizedDevice := none

/-- What the approval of a session that is pending does. -/
structure Approves (session : DesktopAuthSession) (device : DesktopAuthorizedDevice)
    (s s' : Store) : Prop where
  issuedFor : device.issuedFor = session.sessionID
  new : s.devices.get? device.id = none
  devices : ∀ i, s'.devices.get? i = if i = device.id then some device else s.devices.get? i
  sessions : ∃ approvedAt, ∀ id, s'.sessions.get? id = if id = session.sessionID then
    (s.sessions.get? id).map (decidedColumns device.userID (some device.id) .approved approvedAt)
    else s.sessions.get? id

/-- What an action does, and what its call has loaded after it. -/
inductive Does : Action → Loaded → Store → Store → Loaded → Prop where
  | quiet {a : Action} {g : Loaded} {s s' : Store} : s'.sessions = s.sessions →
    s'.devices = s.devices → Does a g s s' g
  | load {s : Store} {g : Loaded} {r : DesktopAuthSession} :
    s.sessions.get? r.sessionID = some r → Does .load g s s ⟨some r, none⟩
  | expire {session : DesktopAuthSession} {g : Loaded} {s s' : Store} :
    s'.devices = s.devices →
    (∀ id, s'.sessions.get? id = if id = session.sessionID then
      (s.sessions.get? id).map expiredColumns else s.sessions.get? id) →
    Does (.expire session) g s s' g
  | approve {session : DesktopAuthSession} {device : DesktopAuthorizedDevice} {g : Loaded}
    {s s' : Store} : Approves session device s s' → Does (.approve session) g s s' g
  | reject {session : DesktopAuthSession} {g : Loaded} {s s' : Store} (userID approvedAt : Int) :
    s'.devices = s.devices →
    (∀ id, s'.sessions.get? id = if id = session.sessionID then
      (s.sessions.get? id).map (decidedColumns userID none .rejected approvedAt)
      else s.sessions.get? id) →
    Does (.reject session) g s s' g
  | device {s : Store} {r : DesktopAuthSession} {d : DesktopAuthorizedDevice}
    {o : Option DesktopAuthorizedDevice} :
    s.devices.get? r.deviceID = some d → d.userID = r.userID →
    Does .device ⟨some r, o⟩ s s ⟨some r, some d⟩

/-- A call decides a session that it has loaded as pending. -/
def protocol : Protocol Store Action Loaded where
  may
    | .approve session, _ => session.status = .pending
    | .reject session, _ => session.status = .pending
    | _, _ => True
  assume _ _ _ := True
  does := Does

/-- An answer that a poll gives to an authenticated client is about what it has loaded. -/
def Backed (sessionID : String) (g : Loaded) (response : DesktopAuthPollResponse) : Prop :=
  ∃ r d, g.session = some r ∧ g.device = some d ∧ r.sessionID = trimSpace sessionID ∧
    r.status = .approved ∧ response.accessToken = d.accessToken ∧ response.userID = r.userID ∧
      response.deviceID = d.id

/-- How a call ends. -/
def Ends (call : Call) (result : Except Error Answer) (g : Loaded) : Prop :=
  ∀ serverAddress time sessionID response, call = .poll serverAddress time sessionID →
    result = .ok (.poll response) → response.authenticated = true → Backed sessionID g response

section Statements

variable {g : Loaded}

theorem get?_update {s : Store} {f : DesktopAuthSession → DesktopAuthSession}
    (hf : Table.KeepsIndexes f) (sessionID id : String) :
    (s.sessions.update sessionID f hf).get? id =
      if id = sessionID then (s.sessions.get? id).map f else s.sessions.get? id := by
  rw [Table.get?_update hf id]
  split
  next h => rw [h]
  next => rfl

theorem meets_getSession {sessionID : String} {Q : Except Error DesktopAuthSession → Loaded → Prop}
    (herror : ∀ e, Q (.error e) g)
    (hok : ∀ r, r.sessionID = trimSpace sessionID → Q (.ok r) ⟨some r, none⟩) :
    Meets protocol (getDesktopAuthSessionByID sessionID) g Q := by
  apply meets_stepE trivial
  intro s _
  cases hget : s.sessions.get? (trimSpace sessionID) with
  | none => exact ⟨g, .quiet rfl rfl, herror _⟩
  | some r =>
    have hkey : r.sessionID = trimSpace sessionID := Table.pk_of_get? hget
    refine ⟨⟨some r, none⟩, .load (by rw [hkey]; exact hget), hok r hkey⟩

theorem meets_getTimestamp {time : Int} {Q : Except Error Int → Loaded → Prop}
    (h : ∀ now, Q (.ok now) g) : Meets protocol (getTimestamp time) g Q :=
  meets_step trivial fun _ _ => ⟨g, .quiet rfl rfl, h _⟩

theorem meets_markExpired {session : DesktopAuthSession} {Q : Except Error PUnit → Loaded → Prop}
    (h : Q (.ok ()) g) : Meets protocol (markExpired session) g Q :=
  meets_step trivial fun _ _ => ⟨g, .expire rfl (get?_update keepsIndexes_expired _), h⟩

theorem meets_saveApproval {session : DesktopAuthSession} {userID now : Int} {accessToken : String}
    {Q : Except Error DesktopAuthorizedDevice → Loaded → Prop} (hpending : session.status = .pending)
    (h : ∀ result, Q result g) :
    Meets protocol (saveApproval session userID now accessToken) g Q := by
  apply meets_stepE hpending
  intro s _
  dsimp only
  cases hinsert : s.devices.insert? (newDevice s.nextDeviceID userID now accessToken session) with
  | none => exact ⟨g, .quiet rfl rfl, h _⟩
  | some devices =>
    refine ⟨g, .approve (?_ : Approves session
      (newDevice s.nextDeviceID userID now accessToken session) s _), h _⟩
    refine ⟨rfl, ?_, Table.get?_insert? hinsert, now,
      get?_update (keepsIndexes_decided _ _ _ _) _⟩
    rw [Table.get?_eq_none]
    intro d hd e
    have hclash := (Table.insert?_eq_some hinsert).2 d hd
    rw [Indexed.clash_of_pk d _ e] at hclash
    cases hclash

theorem meets_saveRejection {session : DesktopAuthSession} {userID now : Int}
    {Q : Except Error PUnit → Loaded → Prop} (hpending : session.status = .pending)
    (h : Q (.ok ()) g) : Meets protocol (saveRejection session userID now) g Q :=
  meets_step hpending fun _ _ => ⟨g, .reject userID now rfl
    (get?_update (keepsIndexes_decided _ _ _ _) _), h⟩

theorem meets_getDevice {r : DesktopAuthSession} {o : Option DesktopAuthorizedDevice}
    {Q : Except Error DesktopAuthorizedDevice → Loaded → Prop}
    (herror : ∀ e, Q (.error e) ⟨some r, o⟩) (hok : ∀ d, Q (.ok d) ⟨some r, some d⟩) :
    Meets protocol (getDesktopAuthorizedDeviceByID r.userID r.deviceID) ⟨some r, o⟩ Q := by
  apply meets_stepE trivial
  intro s _
  cases hget : (s.devices.get? r.deviceID).filter (·.userID = r.userID) with
  | none => exact ⟨_, .quiet rfl rfl, herror _⟩
  | some d =>
    obtain ⟨hd, huser⟩ := Option.filter_eq_some_iff.1 hget
    exact ⟨_, .device hd (by simpa using huser), hok d⟩

theorem meets_loadUsername {userID : Int} {Q : Except Error String → Loaded → Prop}
    (h : ∀ result, Q result g) : Meets protocol (loadUsername userID) g Q :=
  meets_stepE trivial fun _ _ => ⟨g, .quiet rfl rfl, h _⟩

end Statements

section Calls

variable {g : Loaded}

theorem meets_loadUndecided {time : Int} {sessionID : String}
    {Q : Except Error DesktopAuthSession → Loaded → Prop} (herror : ∀ e g, Q (.error e) g)
    (hok : ∀ r g, r.status = .pending → Q (.ok r) g) :
    Meets protocol (loadUndecided time sessionID) g Q := by
  apply meets_bind
  refine meets_getSession (fun e => herror e g) fun r _ => ?_
  apply meets_bind
  apply meets_getTimestamp
  intro now
  apply meets_ite
  · intro _
    apply meets_bind
    exact meets_markExpired (herror _ _)
  · intro _
    apply meets_ite
    · exact fun _ => herror _ _
    · intro hpending
      exact hok r _ (not_not.1 hpending)

theorem Call.meets (call : Call) : Meets protocol call.code {} (Ends call) := by
  have hother : ∀ {result : Except Error Answer} {g : Loaded},
      (∀ serverAddress time sessionID, call ≠ .poll serverAddress time sessionID) →
        Ends call result g :=
    fun h serverAddress time sessionID _ hcall => absurd hcall (h serverAddress time sessionID)
  have hfailed : ∀ {e : Error} {g : Loaded}, Ends call (.error e) g :=
    fun _ _ _ _ _ h => nomatch h
  cases call with
  | view toUpper time sessionID userCode =>
    apply meets_bind
    apply meets_getSession fun _ => hfailed
    intro r _
    apply meets_ite
    · exact fun _ => hfailed
    · intro _
      apply meets_bind
      apply meets_getTimestamp
      intro now
      apply meets_ite
      · intro _
        apply meets_bind
        exact meets_markExpired hfailed
      · exact fun _ => hother nofun
  | approve time time' accessToken userID sessionID =>
    apply meets_bind
    apply meets_loadUndecided fun _ _ => hfailed
    intro r g hpending
    dsimp only
    cases accessToken with
    | none => exact hfailed
    | some accessToken =>
      apply meets_bind
      apply meets_getTimestamp
      intro now
      apply meets_bind
      apply meets_saveApproval hpending
      rintro (e | device)
      · exact hfailed
      · exact hother nofun
  | reject time time' userID sessionID =>
    apply meets_bind
    apply meets_loadUndecided fun _ _ => hfailed
    intro r g hpending
    apply meets_bind
    apply meets_getTimestamp
    intro now
    apply meets_bind
    exact meets_saveRejection hpending (hother nofun)
  | poll serverAddress time sessionID =>
    apply meets_bind
    apply meets_getSession fun _ => hfailed
    intro r hkey
    apply meets_bind
    apply meets_getTimestamp
    intro now
    apply meets_bind
    -- the copy is the loaded one, or expired
    have hcopy : ∀ r' : DesktopAuthSession, r' = r ∨ r'.status = .expired →
        Meets protocol (if r'.status = .approved ∧ 0 < r'.deviceID then do
          let device ← getDesktopAuthorizedDeviceByID r'.userID r'.deviceID
          let username ← loadUsername r'.userID
          pure (.poll
            { status := r'.status
              authenticated := true
              accessToken := device.accessToken
              userID := r'.userID
              serverAddress := serverAddress
              lastUsername := username
              deviceID := device.id
              scopes := parseDesktopScopes device.scopes })
        else pure (.poll { status := r'.status })) ⟨some r, none⟩
          (Ends (.poll serverAddress time sessionID)) := by
      intro r' hr'
      apply meets_ite
      · rintro ⟨happroved, -⟩
        have hsame : r' = r := by
          rcases hr' with rfl | hexpired
          · rfl
          · rw [hexpired] at happroved
            cases happroved
        subst hsame
        apply meets_bind
        apply meets_getDevice fun _ => hfailed
        intro d
        apply meets_bind
        apply meets_loadUsername
        rintro (e | username)
        · exact hfailed
        · intro _ _ sessionID' response hcall hresult _
          cases hcall
          cases hresult
          exact ⟨r', d, rfl, rfl, by rw [hkey, trimSpace_trimSpace], happroved, rfl, rfl, rfl⟩
      · intro _ _ _ sessionID' response _ hresult hauth
        cases hresult
        cases hauth
    apply meets_ite
    · intro _
      apply meets_bind
      exact meets_markExpired (hcopy _ (.inr rfl))
    · exact fun _ => hcopy r (.inl rfl)

end Calls

section Steps

variable {a : Action} {g g' : Loaded} {s s' : Store} {sid : String}

theorem Fresh.status {session r : DesktopAuthSession} (h : Fresh session s)
    (hr : s.sessions.get? session.sessionID = some r) : r.status = session.status := by
  unfold Fresh at h
  rw [hr] at h
  simpa using h

/-- A session that is decided stays as it is. -/
theorem Does.kept (h : Does a g s s' g') (hmay : protocol.may a g) (hcareful : Careful s a)
    {r : DesktopAuthSession} (hr : s.sessions.get? sid = some r)
    (hdecided : r.status.decided = true) : s'.sessions.get? sid = some r := by
  have hother : ∀ {session : DesktopAuthSession}, Fresh session s →
      session.status.decided = false → sid ≠ session.sessionID := by
    rintro session hfresh hopen rfl
    rw [hfresh.status hr, hopen] at hdecided
    cases hdecided
  have hpending : ∀ {session : DesktopAuthSession}, session.status = .pending →
      session.status.decided = false := by
    intro session h
    rw [h]
    rfl
  cases h with
  | quiet hsessions _ =>
    rw [hsessions]
    exact hr
  | load _ => exact hr
  | expire _ hsessions =>
    rw [hsessions, if_neg (hother hcareful.1 hcareful.2)]
    exact hr
  | approve happroves =>
    obtain ⟨approvedAt, hsessions⟩ := happroves.sessions
    rw [hsessions, if_neg (hother hcareful (hpending hmay))]
    exact hr
  | reject _ _ _ hsessions =>
    rw [hsessions, if_neg (hother hcareful (hpending hmay))]
    exact hr
  | device _ _ => exact hr

/-- No device is lost. -/
theorem Does.devices (h : Does a g s s' g') {i : Int} {d : DesktopAuthorizedDevice}
    (hd : s.devices.get? i = some d) : s'.devices.get? i = some d := by
  cases h with
  | quiet _ hdevices =>
    rw [hdevices]
    exact hd
  | load _ => exact hd
  | expire hdevices _ =>
    rw [hdevices]
    exact hd
  | @approve _ device _ _ _ happroves =>
    have hi : i ≠ device.id := by
      rintro rfl
      rw [happroves.new] at hd
      cases hd
    rw [happroves.devices, if_neg hi]
    exact hd
  | reject _ _ hdevices _ =>
    rw [hdevices]
    exact hd
  | device _ _ => exact hd

/-- What the call has loaded is as it was, or it is in the store. -/
theorem Does.loaded (h : Does a g s s' g') : g' = g ∨
    (∃ r, s.sessions.get? r.sessionID = some r ∧ g' = ⟨some r, none⟩) ∨
      ∃ r d, g.session = some r ∧ s.devices.get? r.deviceID = some d ∧ g' = ⟨some r, some d⟩ := by
  cases h with
  | load hr => exact .inr (.inl ⟨_, hr, rfl⟩)
  | device hd _ => exact .inr (.inr ⟨_, _, rfl, hd, rfl⟩)
  | _ => exact .inl rfl

/-- A device was issued for the session exactly if it is approved, and the session names it. -/
def Issued (sid : String) (s : Store) : Prop :=
  ∃ r, s.sessions.get? sid = some r ∧
    (∀ i d, s.devices.get? i = some d → d.issuedFor = sid →
      r.status = .approved ∧ i = r.deviceID) ∧
    (r.status = .approved →
      ∃ d, s.devices.get? r.deviceID = some d ∧ d.issuedFor = sid ∧ d.userID = r.userID)

/-- A session without a device that ends in another status than approved. -/
theorem Issued.end {r : DesktopAuthSession} (r' : DesktopAuthSession) (hr' : s'.sessions.get? sid = some r')
    (hstatus : r'.status ≠ .approved) (hdevices : s'.devices = s.devices)
    (hnone : ∀ i d, s.devices.get? i = some d → d.issuedFor = sid →
      r.status = .approved ∧ i = r.deviceID) (hr : r.status ≠ .approved) : Issued sid s' := by
  refine ⟨r', hr', fun i d hd hfor => ?_, fun h => absurd h hstatus⟩
  rw [hdevices] at hd
  exact absurd (hnone i d hd hfor).1 hr

theorem Issued.step (hs : Issued sid s) (h : Does a g s s' g') (hmay : protocol.may a g)
    (hcareful : Careful s a) : Issued sid s' := by
  obtain ⟨r, hr, hissued, happroved⟩ := hs
  have hsame : s'.sessions.get? sid = s.sessions.get? sid → s'.devices = s.devices →
      Issued sid s' := by
    intro hsessions hdevices
    refine ⟨r, hsessions.trans hr, ?_⟩
    rw [hdevices]
    exact ⟨hissued, happroved⟩
  have hnot : ∀ {session : DesktopAuthSession}, sid = session.sessionID → Fresh session s →
      session.status ≠ .approved → r.status ≠ .approved := by
    rintro session rfl hfresh hstatus
    rw [hfresh.status hr]
    exact hstatus
  cases h with
  | quiet hsessions hdevices => exact hsame (by rw [hsessions]) hdevices
  | load _ => exact hsame rfl rfl
  | device _ _ => exact hsame rfl rfl
  | @expire session _ _ _ hdevices hsessions =>
    by_cases hsid : sid = session.sessionID
    · have hopen : session.status ≠ .approved := by
        intro h
        have hdecided := hcareful.2
        rw [h] at hdecided
        cases hdecided
      refine Issued.end (expiredColumns r) ?_ (by simp [expiredColumns]) hdevices hissued
        (hnot hsid hcareful.1 hopen)
      rw [hsessions, if_pos hsid, hr]
      rfl
    · exact hsame (by rw [hsessions, if_neg hsid]) hdevices
  | @reject session _ _ _ userID approvedAt hdevices hsessions =>
    by_cases hsid : sid = session.sessionID
    · have hpending : session.status ≠ .approved := by
        rw [show session.status = .pending from hmay]
        decide
      refine Issued.end (decidedColumns userID none .rejected approvedAt r) ?_
        (by simp [decidedColumns]) hdevices hissued (hnot hsid hcareful hpending)
      rw [hsessions, if_pos hsid, hr]
      rfl
    · exact hsame (by rw [hsessions, if_neg hsid]) hdevices
  | @approve session device _ _ _ happroves =>
    obtain ⟨approvedAt, hsessions⟩ := happroves.sessions
    by_cases hsid : sid = session.sessionID
    · -- the session was pending, so no device was issued for it before
      have hpending : session.status ≠ .approved := by
        rw [show session.status = .pending from hmay]
        decide
      have hnone := hnot hsid hcareful hpending
      refine ⟨decidedColumns device.userID (some device.id) .approved approvedAt r, ?_, ?_, ?_⟩
      · rw [hsessions, if_pos hsid, hr]
        rfl
      · intro i d hd hfor
        rw [happroves.devices] at hd
        split at hd
        next hi => exact ⟨rfl, hi⟩
        next => exact absurd (hissued i d hd hfor).1 hnone
      · intro _
        exact ⟨device, by rw [happroves.devices]; exact if_pos rfl,
          happroves.issuedFor.trans hsid.symm, rfl⟩
    · refine ⟨r, by rw [hsessions, if_neg hsid]; exact hr, ?_, ?_⟩
      · intro i d hd hfor
        rw [happroves.devices] at hd
        split at hd
        next =>
          cases hd
          exact absurd (hfor.symm.trans happroves.issuedFor) hsid
        next => exact hissued i d hd hfor
      · intro hr
        obtain ⟨d, hd, hrest⟩ := happroved hr
        exact ⟨d, (Does.approve (g := g) happroves).devices hd, hrest⟩

end Steps

section Runs

variable {ι : Type}

/-- The invariant of a run on the session `sid`, from a store `s₀` in it. -/
structure Inv (sid : String) (s₀ s : Store) (g : ι → Loaded) : Prop where
  issued : Issued sid s
  kept : ∀ r, s₀.sessions.get? sid = some r → r.status.decided = true →
    s.sessions.get? sid = some r
  session : ∀ i r, (g i).session = some r → r.sessionID = sid → r.status = .approved →
    s.sessions.get? sid = some r
  device : ∀ i r d, (g i).session = some r → (g i).device = some d →
    s.devices.get? r.deviceID = some d

theorem Inv.step [DecidableEq ι] {sid : String} {s₀ s s' : Store} {g : ι → Loaded} {i : ι}
    {a : Action} {g' : Loaded} (hs : Inv sid s₀ s g) (h : Does a (g i) s s' g')
    (hmay : protocol.may a (g i)) (hcareful : Careful s a) :
    Inv sid s₀ s' (Function.update g i g') where
  issued := hs.issued.step h hmay hcareful
  kept r hr hdecided := h.kept hmay hcareful (hs.kept r hr hdecided) hdecided
  session j r hj hsid happroved := by
    have hdecided : r.status.decided = true := by
      rw [happroved]
      rfl
    apply h.kept hmay hcareful ?_ hdecided
    by_cases hji : j = i
    · subst hji
      rw [Function.update_self] at hj
      rcases h.loaded with rfl | ⟨r', hr', rfl⟩ | ⟨r', d, hr', -, rfl⟩
      · exact hs.session j r hj hsid happroved
      · cases hj
        rw [← hsid]
        exact hr'
      · cases hj
        exact hs.session j r hr' hsid happroved
    · rw [Function.update_of_ne hji] at hj
      exact hs.session j r hj hsid happroved
  device j r d hj hjd := by
    apply h.devices
    by_cases hji : j = i
    · subst hji
      rw [Function.update_self] at hj hjd
      rcases h.loaded with rfl | ⟨r', -, rfl⟩ | ⟨r', d', -, hd', rfl⟩
      · exact hs.device j r d hj hjd
      · cases hjd
      · cases hj
        cases hjd
        exact hd'
    · rw [Function.update_of_ne hji] at hj hjd
      exact hs.device j r d hj hjd

/-- The calls, none of which has begun. -/
def calls (s₀ : Store) (call : ι → Call) : System ι Store Action Error Answer :=
  ⟨s₀, fun i => (call i).code⟩

theorem Reach.inv [DecidableEq ι] {sid : String} {call : ι → Call}
    {c c' : System ι Store Action Error Answer} {g : ι → Loaded} (h : Reach Orderly c c')
    (hkeep : Keeping protocol (fun i => Ends (call i)) c g)
    (hinv : ∀ s₀, (∀ r, s₀.sessions.get? sid = some r → r.status.decided = true →
      c.state.sessions.get? sid = some r) → Inv sid s₀ c.state g) :
    ∃ g', Keeping protocol (fun i => Ends (call i)) c' g' ∧ Inv sid c.state c'.state g' := by
  apply h.meets hkeep (hinv c.state fun r hr _ => hr)
  · exact fun _ _ _ _ _ _ _ => trivial
  · intro c g i a s' g' hkeep hinv hok hnext hdoes
    exact hinv.step hdoes ((hkeep i).may_next hnext) hok

/-- The law of the session `sid` in a system `c` that leads to `c'`. -/
structure DecidedOnce (sid : String) (call : ι → Call) (c c' : System ι Store Action Error Answer) :
    Prop where
  one : ∀ d ∈ c.state.devices, ∀ d' ∈ c.state.devices, d.issuedFor = sid → d'.issuedFor = sid →
    d = d'
  kept : ∀ r, c.state.sessions.get? sid = some r → r.status = .approved ∨ r.status = .rejected →
    ∃ r', c'.state.sessions.get? sid = some r' ∧ r'.status = r.status
  rejected : ∀ r, c.state.sessions.get? sid = some r → r.status = .rejected →
    ∀ d ∈ c.state.devices, d.issuedFor ≠ sid
  poll : ∀ i serverAddress time sessionID response,
    call i = .poll serverAddress time sessionID → trimSpace sessionID = sid →
    c.proc i = .ret (.poll response) → response.authenticated = true →
    ∃ r d, c.state.sessions.get? sid = some r ∧ r.status = .approved ∧ d ∈ c.state.devices ∧
      d.issuedFor = sid ∧ d.userID = r.userID ∧ response.accessToken = d.accessToken

theorem Issued.one {sid : String} {s : Store} (h : Issued sid s) {d d' : DesktopAuthorizedDevice}
    (hd : d ∈ s.devices) (hd' : d' ∈ s.devices) (hfor : d.issuedFor = sid)
    (hfor' : d'.issuedFor = sid) : d = d' := by
  obtain ⟨r, -, hissued, -⟩ := h
  have hget := Table.get?_of_mem hd
  have hget' := Table.get?_of_mem hd'
  have hid : pk d = pk d' :=
    (hissued _ d hget hfor).2.trans (hissued _ d' hget' hfor').2.symm
  rw [hid, hget'] at hget
  exact (Option.some.inj hget).symm

theorem Issued.rejected {sid : String} {s : Store} (h : Issued sid s) {r : DesktopAuthSession}
    (hr : s.sessions.get? sid = some r) (hrejected : r.status = .rejected)
    {d : DesktopAuthorizedDevice} (hd : d ∈ s.devices) : d.issuedFor ≠ sid := by
  intro hfor
  obtain ⟨r', hr', hissued, -⟩ := h
  rw [hr] at hr'
  cases hr'
  have happroved := (hissued _ d (Table.get?_of_mem hd) hfor).1
  rw [hrejected] at happroved
  cases happroved

/-- The session that a poll has loaded as approved is the stored one, with its device. -/
theorem Inv.backed {sid : String} {s₀ s : Store} {g : ι → Loaded} (h : Inv sid s₀ s g) {i : ι}
    {sessionID : String} (hsid : trimSpace sessionID = sid) {response : DesktopAuthPollResponse}
    (hbacked : Backed sessionID (g i) response) :
    ∃ r d, s.sessions.get? sid = some r ∧ r.status = .approved ∧ d ∈ s.devices ∧
      d.issuedFor = sid ∧ d.userID = r.userID ∧ response.accessToken = d.accessToken := by
  obtain ⟨r, d, hsession, hdevice, hkey, happroved, htoken, -, -⟩ := hbacked
  have hr := h.session i r hsession (hkey.trans hsid) happroved
  have hd := h.device i r d hsession hdevice
  obtain ⟨r', hr', -, hnamed⟩ := h.issued
  rw [hr] at hr'
  cases hr'
  obtain ⟨d', hd', hfor, huser⟩ := hnamed happroved
  rw [hd] at hd'
  cases hd'
  exact ⟨r, d, hr, happroved, Table.mem_of_get? hd, hfor, huser, htoken⟩

/-- A session that is pending, without a device. -/
theorem issued_pending {sid : String} {s₀ : Store} {r₀ : DesktopAuthSession}
    (hr₀ : s₀.sessions.get? sid = some r₀) (hpending : r₀.status = .pending)
    (hnone : ∀ d ∈ s₀.devices, d.issuedFor ≠ sid) : Issued sid s₀ := by
  refine ⟨r₀, hr₀, fun i d hd hfor => absurd hfor (hnone d (Table.mem_of_get? hd)), ?_⟩
  intro happroved
  rw [hpending] at happroved
  cases happroved

/-- In an orderly run a session that was pending is decided once. -/
theorem desktop_authorization_decided_once [DecidableEq ι] {sid : String} {s₀ : Store}
    {r₀ : DesktopAuthSession} {call : ι → Call} {c c' : System ι Store Action Error Answer}
    (hr₀ : s₀.sessions.get? sid = some r₀) (hpending : r₀.status = .pending)
    (hnone : ∀ d ∈ s₀.devices, d.issuedFor ≠ sid) (h : Reach Orderly (calls s₀ call) c)
    (hlater : Reach Orderly c c') : DecidedOnce sid call c c' := by
  have hissued := issued_pending hr₀ hpending hnone
  have hbegun : Keeping protocol (fun i => Ends (call i)) (calls s₀ call) fun _ => {} :=
    fun i => (call i).meets
  have hinv₀ : ∀ s₁, (∀ r, s₁.sessions.get? sid = some r → r.status.decided = true →
      s₀.sessions.get? sid = some r) → Inv sid s₁ s₀ fun _ : ι => {} := by
    intro s₁ hkept
    refine ⟨hissued, hkept, fun i r h => ?_, fun i r d h => ?_⟩ <;> cases h
  obtain ⟨g, hkeep, hinv⟩ := Reach.inv h hbegun hinv₀
  obtain ⟨g', -, hinv'⟩ := Reach.inv hlater hkeep fun s₁ hkept =>
    (⟨hinv.issued, hkept, hinv.session, hinv.device⟩ : Inv sid s₁ c.state g)
  constructor
  · exact fun d hd d' hd' => hinv.issued.one hd hd'
  · intro r hr hdecided
    exact ⟨r, hinv'.kept r hr (by simpa [SessionStatus.decided] using hdecided), rfl⟩
  · exact fun r hr hrejected d hd => hinv.issued.rejected hr hrejected hd
  · intro i serverAddress time sessionID response hcall hsid hret hauth
    have hends := hkeep i
    rw [hret] at hends
    exact hinv.backed hsid (hends serverAddress time sessionID response hcall rfl hauth)

end Runs

def openSession : DesktopAuthSession where
  sessionID := "S"
  userCode := "C"
  expiresAt := 600

/-- Two users and a session that is pending. -/
def started : Store where
  sessions := ⟨[openSession], List.pairwise_singleton _ _⟩
  users := fun u => if u = 1 then some "ann" else some "bob"

/-- The users and the tokens of the devices, the status of the session, and what a poll answers. -/
structure Outcome where
  devices : List (Int × String)
  status : Option SessionStatus
  answer : Option (Bool × String)
  deriving DecidableEq

def outcome (c : System Bool Store Action Error Answer) : Outcome where
  devices := c.state.devices.rows.map fun d => (d.userID, d.accessToken)
  status := (c.state.sessions.get? "S").map (·.status)
  answer := match c.proc true with
    | .ret (.poll response) => some (response.authenticated, response.accessToken)
    | _ => none

def approveAndPoll (i : Bool) : Call :=
  if i then .poll "https://api" 5 "S" else .approve 1 2 (some "desktop_a") 1 "S"

/-- Reads and clocks, and the approval of a session that is pending. -/
def approvesPending (c : System Bool Store Action Error Answer) (_ : Bool) : Action → Bool
  | .expire _ => false
  | .approve session => (c.state.sessions.get? session.sessionID).map (·.status) = some session.status
  | .reject _ => false
  | _ => true

theorem orderly_of_approvesPending (c : System Bool Store Action Error Answer) (i : Bool)
    (a : Action) (h : approvesPending c i a = true) : Orderly c i a := by
  cases a with
  | approve session => simpa [approvesPending, Orderly, Careful, Fresh] using h
  | expire session => cases h
  | reject session => cases h
  | _ => trivial

theorem desktop_authorization_decided_once_sample :
    ∃ c : System Bool Store Action Error Answer, Reach Orderly (calls started approveAndPoll) c ∧
      outcome c = ⟨[(1, "desktop_a")], some .approved, some (true, "desktop_a")⟩ ∧
      DecidedOnce "S" approveAndPoll c c := by
  have hrun : (perform approvesPending (calls started approveAndPoll)
      [false, false, false, false, true, true, true, true]).map outcome =
      some ⟨[(1, "desktop_a")], some .approved, some (true, "desktop_a")⟩ := by decide +kernel
  obtain ⟨c, hc, houtcome⟩ := Option.map_eq_some_iff.1 hrun
  have h := Reach.init.perform orderly_of_approvesPending hc
  have hnone : ∀ d ∈ started.devices, d.issuedFor ≠ "S" := fun d hd => by cases hd
  have hopen : started.sessions.get? "S" = some openSession := rfl
  exact ⟨c, h, houtcome, desktop_authorization_decided_once hopen rfl hnone h .init⟩

def approveTwice (i : Bool) : Call :=
  if i then .approve 1 2 (some "desktop_b") 2 "S" else .approve 1 2 (some "desktop_a") 1 "S"

/-- Two users who both load the pending session each get a device. -/
theorem approved_twice : ∃ c : System Bool Store Action Error Answer,
    Reach (fun _ _ _ => True) (calls started approveTwice) c ∧
      outcome c = ⟨[(1, "desktop_a"), (2, "desktop_b")], some .approved, none⟩ ∧
      ¬ DecidedOnce "S" approveTwice c c := by
  have hrun : (perform (fun _ _ _ => true) (calls started approveTwice)
      [false, true, false, true, false, true, false, true]).map (fun c =>
        (outcome c, c.state.devices.rows.all (·.issuedFor = "S"))) =
      some (⟨[(1, "desktop_a"), (2, "desktop_b")], some .approved, none⟩, true) := by
    decide +kernel
  obtain ⟨c, hc, hobs⟩ := Option.map_eq_some_iff.1 hrun
  obtain ⟨houtcome, hall⟩ := Prod.mk.inj hobs
  refine ⟨c, Reach.init.perform (fun _ _ _ _ => trivial) hc, houtcome, fun honce => ?_⟩
  have hdevices : c.state.devices.rows.map (fun d => (d.userID, d.accessToken)) =
      [(1, "desktop_a"), (2, "desktop_b")] := congrArg Outcome.devices houtcome
  obtain ⟨d, ds, hrows, hd, hds⟩ := List.map_eq_cons_iff.1 hdevices
  obtain ⟨d', ds', hrows', hd', -⟩ := List.map_eq_cons_iff.1 hds
  have hmem : d ∈ c.state.devices.rows ∧ d' ∈ c.state.devices.rows := by
    rw [hrows, hrows']
    simp
  have hfor := List.all_eq_true.1 hall
  have hsame := honce.one d hmem.1 d' hmem.2 (by simpa using hfor d hmem.1)
    (by simpa using hfor d' hmem.2)
  subst hsame
  rw [hd] at hd'
  simp at hd'

end CodeGo.Identity.DesktopAuth
