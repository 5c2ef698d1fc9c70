import CodeGo.Bounty.Effects

/-!
# Runs of the bounty service

The operations as transactions on the whole store, and the maintenance pass,
which is one transaction for each row it finds.
-/

namespace CodeGo.Bounty.Runs

open Lib Lib.Prog Billing.Schema Schema Tasks Review Effects

section Calls

/-- What a handler or one step of the maintenance asks for. -/
inductive Op where
  | createTask (userID : Int) (req : CreateTaskRequest)
  | saveDraft (userID : Int) (input : TaskInput) (idempotencyKey : String)
  | updateDraft (userID : Int) (taskID : String) (input : TaskInput)
  | publishDraft (userID : Int) (taskID : String)
  | submitApplication (taskID : String) (userID : Int)
  | assignApplication (taskID : String) (publisherID : Int) (applicationID : String)
  | startTask (taskID : String) (userID : Int)
  | cancelTask (taskID : String) (publisherID : Int)
  | createMaterialRequest (taskID : String) (userID : Int) (isBlocking : Bool)
  | replyMaterialRequest (taskID requestID : String) (userID : Int)
  | resolveMaterialRequest (taskID requestID : String) (userID : Int)
  | handleMaterialTimeout (taskID requestID : String) (userID : Int) (action : TimeoutAction)
      (extensionHours : Int)
  | createSubmission (taskID : String) (userID : Int) (effectImages : List String)
  | reviewTask (provider : Except Err Unit) (taskID : String) (publisherID : Int)
      (action : ReviewAction) (comment : String)
  | openDispute (provider : Except Err Unit) (taskID : String) (userID : Int)
  | resolveDispute (taskID : String) (adminID : Int) (disputeID : String)
      (resolution : DisputeResolution) (amount : Int)
  | suspendTask (taskID : String)
  | resumeTask (taskID : String)
  | notifyReviewDeadline (cutoff : Int) (taskID : String)
  | notifyMaterialTimeout (requestID : String)
  | autoSettleReview (taskID : String)
  | expireTask (taskID : String)

/-- An operation at a time; `u` lists the identifiers that are handed out during it. -/
structure Call where
  now : Int
  u : Uuids
  op : Op

def Call.prog (c : Call) : Flow Unit :=
  match c.op with
  | .createTask userID req => do
    let _ ← createTask c.now c.u userID req
    pure ()
  | .saveDraft userID input key => do
    let _ ← saveDraft c.now c.u userID input key
    pure ()
  | .updateDraft userID taskID input => updateDraft c.now userID taskID input
  | .publishDraft userID taskID => publishDraft c.now c.u userID taskID
  | .submitApplication taskID userID => submitApplication c.u taskID userID
  | .assignApplication taskID publisherID applicationID =>
    assignApplication taskID publisherID applicationID
  | .startTask taskID userID => startTask taskID userID
  | .cancelTask taskID publisherID => cancelTask c.u taskID publisherID
  | .createMaterialRequest taskID userID isBlocking =>
    createMaterialRequest c.now c.u taskID userID isBlocking
  | .replyMaterialRequest taskID requestID userID => replyMaterialRequest taskID requestID userID
  | .resolveMaterialRequest taskID requestID userID =>
    resolveMaterialRequest c.now taskID requestID userID
  | .handleMaterialTimeout taskID requestID userID action hours =>
    handleMaterialTimeout c.now c.u taskID requestID userID action hours
  | .createSubmission taskID userID images => createSubmission c.now c.u taskID userID images
  | .reviewTask provider taskID publisherID action comment =>
    reviewTask c.u provider taskID publisherID action comment
  | .openDispute provider taskID userID => openDispute c.u provider taskID userID
  | .resolveDispute taskID adminID disputeID resolution amount =>
    resolveDispute c.now c.u taskID adminID disputeID resolution amount
  | .suspendTask taskID => suspendTask c.now taskID
  | .resumeTask taskID => resumeTask c.now taskID
  | .notifyReviewDeadline cutoff taskID => notifyReviewDeadline cutoff c.now taskID
  | .notifyMaterialTimeout requestID => notifyMaterialTimeout c.now requestID
  | .autoSettleReview taskID => autoSettleReview c.now c.u taskID
  | .expireTask taskID => expireTask c.now c.u taskID

/-- The task that is to be resumed. -/
def Call.resuming (c : Call) : Option String :=
  match c.op with
  | .resumeTask taskID => some taskID
  | _ => none

/-- Every operation is one transaction. -/
def Call.exec (c : Call) (s : Store) : Except Err Unit × Store := c.prog.commit s

def run (calls : List Call) (s : Store) : Store := calls.foldl (fun s c => (c.exec s).2) s

variable {c : Call} {s s' : Store}

theorem effect_of_return {α : Type} {now : Int} {u : Uuids} {k : Option String} {p : Flow α}
    (h : (do let _ ← p; pure () : Flow Unit).run s = (.ok (), s'))
    (hp : ∀ a s', p.run s = (.ok a, s') → Effect now u k s s') : Effect now u k s s' := by
  obtain ⟨a, s₁, hrun, h⟩ := run_bind_eq_ok h
  cases h
  exact hp a _ hrun

/-- A call that succeeds has one of the effects. -/
theorem Call.effect (h : c.prog.run s = (.ok (), s')) : Effect c.now c.u c.resuming s s' := by
  obtain ⟨now, u, op⟩ := c
  cases op with
  | createTask userID req => exact effect_of_return h fun _ _ => createTask_effect
  | saveDraft userID input key => exact effect_of_return h fun _ _ => saveDraft_effect
  | updateDraft userID taskID input => exact updateDraft_effect h
  | publishDraft userID taskID => exact publishDraft_effect h
  | submitApplication taskID userID => exact submitApplication_effect h
  | assignApplication taskID publisherID applicationID => exact assignApplication_effect h
  | startTask taskID userID => exact startTask_effect h
  | cancelTask taskID publisherID => exact cancelTask_effect h
  | createMaterialRequest taskID userID isBlocking => exact createMaterialRequest_effect h
  | replyMaterialRequest taskID requestID userID => exact replyMaterialRequest_effect h
  | resolveMaterialRequest taskID requestID userID => exact resolveMaterialRequest_effect h
  | handleMaterialTimeout taskID requestID userID action hours =>
    exact handleMaterialTimeout_effect h
  | createSubmission taskID userID images => exact createSubmission_effect h
  | reviewTask provider taskID publisherID action comment => exact reviewTask_effect h
  | openDispute provider taskID userID => exact openDispute_effect h
  | resolveDispute taskID adminID disputeID resolution amount => exact resolveDispute_effect h
  | suspendTask taskID => exact suspendTask_effect h
  | resumeTask taskID => exact resumeTask_effect h
  | notifyReviewDeadline cutoff taskID => exact notifyReviewDeadline_effect h
  | notifyMaterialTimeout requestID => exact notifyMaterialTimeout_effect h
  | autoSettleReview taskID => exact autoSettleReview_effect h
  | expireTask taskID => exact expireTask_effect h

/-- A call has an effect, or it fails and leaves the store as it was. -/
theorem Call.exec_cases (c : Call) (s : Store) :
    (c.exec s).1 = .ok () ∧ Effect c.now c.u c.resuming s (c.exec s).2 ∨
      (∃ e, (c.exec s).1 = .error e) ∧ (c.exec s).2 = s := by
  unfold Call.exec
  cases hr : (c.prog.commit s).1 with
  | ok a =>
    have hok : c.prog.run s = (.ok (), (c.prog.commit s).2) := commit_eq_ok.1 (Prod.ext hr rfl)
    exact .inl ⟨rfl, Call.effect hok⟩
  | error e => exact .inr ⟨⟨e, rfl⟩, (commit_eq_error (Prod.ext hr rfl)).1⟩

theorem run_append (calls calls' : List Call) (s : Store) :
    run (calls ++ calls') s = run calls' (run calls s) := List.foldl_append

/-- What every effect preserves holds after every run. -/
theorem run_invariant {I : Store → Prop} {P : Call → Prop}
    (hstep : ∀ c s s', P c → I s → Effect c.now c.u c.resuming s s' → I s') {calls : List Call}
    (hcalls : ∀ c ∈ calls, P c) (hs : I s) : I (run calls s) := by
  induction calls generalizing s with
  | nil => exact hs
  | cons c calls ih =>
    have hrest : ∀ d ∈ calls, P d := fun d hd => hcalls d (List.mem_cons_of_mem c hd)
    show I (run calls (c.exec s).2)
    apply ih hrest
    rcases c.exec_cases s with ⟨-, heffect⟩ | ⟨-, heq⟩
    · exact hstep c s _ (hcalls c (List.mem_cons_self ..)) hs heffect
    · rw [heq]
      exact hs

end Calls

section Maintenance

variable {now : Int} {s : Store}

/-- The calls that `p` makes from `s`, all of them with `P`. -/
def RunsAs (P : Call → Prop) (p : Flow Unit) (s : Store) : Prop :=
  ∃ calls, (∀ c ∈ calls, P c) ∧ (p.run s).2 = run calls s

theorem runsAs_bind {P : Call → Prop} {p : Flow Unit} {q : Unit → Flow Unit}
    (hp : ∀ s, RunsAs P p s) (hq : ∀ s, RunsAs P (q ()) s) (s : Store) :
    RunsAs P (p >>= q) s := by
  obtain ⟨calls, hcalls, hrun⟩ := hp s
  match hr : p.run s with
  | (.ok (), s₁) =>
    rw [hr] at hrun
    obtain ⟨calls', hcalls', hrun'⟩ := hq s₁
    refine ⟨calls ++ calls', fun c hc => ?_, ?_⟩
    · rcases List.mem_append.1 hc with hc | hc
      · exact hcalls c hc
      · exact hcalls' c hc
    · rw [run_append, ← hrun, ← hrun', run_bind_ok hr]
  | (.error e, s₁) =>
    refine ⟨calls, hcalls, ?_⟩
    rw [← hrun, run_bind_error hr, hr]

/-- A sweep is a run of its transactions. -/
theorem sweep_runsAs {P : Call → Prop} {candidates : Store → List String} {tx : String → Flow Unit}
    (call : String → Call) (hcall : ∀ id, (call id).prog = tx id) (hP : ∀ id, P (call id))
    (s : Store) : RunsAs P (sweep candidates tx) s := by
  have hids : ∀ (ids : List String) (s : Store),
      RunsAs P (ids.forM fun id => .transaction () (tx id)) s := by
    intro ids
    induction ids with
    | nil => exact fun s => ⟨[], nofun, rfl⟩
    | cons id ids ih =>
      refine runsAs_bind (fun s => ⟨[call id], fun c hc => ?_, ?_⟩) ih
      · rw [List.mem_singleton.1 hc]
        exact hP id
      · rw [run_transaction]
        show _ = ((call id).prog.commit s).2
        rw [hcall]
  exact hids (candidates s) s

/-- What the maintenance does at `now`, the identifiers taken from `u`. -/
def Maintains (now : Int) (u : String → Uuids) (c : Call) : Prop :=
  c.now = now ∧ ∃ id, c.u = u id

theorem maintenance_runsAs (now : Int) (u : String → Uuids) (s : Store) :
    RunsAs (Maintains now u) (runBountyMaintenanceOnce now u) s := by
  refine runsAs_bind ?_ (runsAs_bind ?_ (runsAs_bind ?_ ?_)) s
  · exact sweep_runsAs (fun id => ⟨now, u id, .notifyReviewDeadline (now + 24 * hour) id⟩)
      (fun _ => rfl) fun id => ⟨rfl, id, rfl⟩
  · exact sweep_runsAs (fun id => ⟨now, u id, .notifyMaterialTimeout id⟩)
      (fun _ => rfl) fun id => ⟨rfl, id, rfl⟩
  · exact sweep_runsAs (fun id => ⟨now, u id, .autoSettleReview id⟩)
      (fun _ => rfl) fun id => ⟨rfl, id, rfl⟩
  · exact sweep_runsAs (fun id => ⟨now, u id, .expireTask id⟩)
      (fun _ => rfl) fun id => ⟨rfl, id, rfl⟩

end Maintenance

/-- What happens to the service: an operation, or a pass of the maintenance. -/
inductive Act where
  | call (c : Call)
  | maintenance (now : Int) (u : String → Uuids)

def Act.exec : Act → Store → Except Err Unit × Store
  | call c, s => c.exec s
  | maintenance now u, s => (runBountyMaintenanceOnce now u).run s

/-- Identifiers are never empty. -/
def Act.Identified : Act → Prop
  | call c => ∀ i, c.u i ≠ ""
  | maintenance _ u => ∀ id i, u id i ≠ ""

def runActs (acts : List Act) (s : Store) : Store := acts.foldl (fun s a => (a.exec s).2) s

end CodeGo.Bounty.Runs
