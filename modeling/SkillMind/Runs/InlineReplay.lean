import SkillMind.Runs.EffectFencing

/-!
# A repeated inline proposal

A tool call that proposes a change inline waits for the answer of its transaction, which may be
lost, so that the call is repeated. The transaction has a branch that answers such a replay with
the proposal it recorded before. The branch comes after the validation of the draft, and the
validation rejects every key a proposal of the Run has already: no submission reaches the branch,
and every repetition of an accepted request is rejected.
-/

namespace SkillMind.Runs

open Library Effects

/-! ## Requests -/

/-- What a running tool call submits.  The platform knows the call by its `toolUseId`; the
request may bring a key of its own. -/
structure InlineRequest where
  claim : IssuedClaim
  toolUseId : String
  sdkSessionId : Uuid
  ownKey : Option String
  content : ChangeProposalDraft

/-- `request_identity`. -/
def InlineRequest.identity (request : InlineRequest) : String :=
  s!"{request.claim.claimed.runId}:{request.claim.claimed.runAttemptId}:{request.toolUseId}"

/-- The draft of a request, as far as `parse_change_proposal_request` draws its key: without a
key of its own the request is known by its identity. -/
def InlineRequest.draft (sha256Hex : String → String) (request : InlineRequest) :
    ChangeProposalDraft :=
  { request.content with
    idempotencyKey := request.ownKey.getD ("sdk:" ++ sha256Hex request.identity) }

/-- What a submission reads elsewhere, and the identifiers and clock readings it draws. -/
structure InlineReading where
  resource : Except Fault BoundResource
  checkpointRefs : Except Fault Unit
  evidenceRefs : Except Fault Unit
  policy : Option Uuid
  requestHash : String
  ids : ProposalIds
  now : Timestamp
  later : Timestamp

/-- The transaction of `begin_inline_effect`. -/
def InlineRequest.submit (sha256Hex : String → String) (request : InlineRequest)
    (reading : InlineReading) : RunAction :=
  .suspendForProposal request.claim (.inline request.toolUseId request.sdkSessionId)
    (request.draft sha256Hex) reading.resource reading.checkpointRefs reading.evidenceRefs
    reading.policy reading.requestHash reading.ids reading.now reading.later

variable {settings : RunSettings} {hash sha256Hex : String → String} {t t' : RunTables}
  {request again : InlineRequest} {reading : InlineReading} {proposalId : Uuid}

theorem InlineRequest.draft_key (sameClaim : again.claim = request.claim)
    (sameCall : again.toolUseId = request.toolUseId) (sameKey : again.ownKey = request.ownKey) :
    (again.draft sha256Hex).idempotencyKey = (request.draft sha256Hex).idempotencyKey := by
  simp only [InlineRequest.draft, InlineRequest.identity, sameClaim, sameCall, sameKey]

/-- The replay branch of `suspend_for_proposal`: the proposal recorded for the same request by
the same call, attempt, session and lease. -/
def previousInline (hash : String → String) (tables : RunTables) (attempt : RunAttempt)
    (session : AgentSession) (claimed : ClaimedRun) (toolUseId : String)
    (draft : ChangeProposalDraft) : Except Fault (Option Uuid) :=
  match tables.proposals.find? fun proposal => proposal.idempotencyKey = draft.idempotencyKey with
  | none => .ok none
  | some previous => do
    require (previous.inlineOwner.map InlineOwner.toolUseId = some toolUseId ∧
        previous.inlineOwner.map InlineOwner.leaseHash = some (hash claimed.leaseToken) ∧
        previous.runAttemptId = attempt.id ∧ previous.agentSessionId = session.id ∧
        previous.requestFingerprint = draft.requestFingerprint)
      (proposalConflict "Original inline request differs")
    return some previous.id

theorem requireNewProposal_eq_ok {draft : ChangeProposalDraft} :
    requireNewProposal t draft = .ok () ↔
      ∀ proposal ∈ t.proposals, proposal.idempotencyKey ≠ draft.idempotencyKey := by
  unfold requireNewProposal
  split
  · rename_i unused
    simpa using unused
  · rename_i existing used
    have known := List.mem_of_find?_eq_some used
    have same : existing.idempotencyKey = draft.idempotencyKey := by
      simpa using List.find?_some used
    constructor
    · intro accepted
      split at accepted <;> cases accepted
    · intro unused
      exact absurd same (unused existing known)

theorem previousInline_unreached {attempt : RunAttempt} {session : AgentSession}
    {claimed : ClaimedRun} {toolUseId : String} {draft : ChangeProposalDraft}
    (isNew : requireNewProposal t draft = .ok ()) :
    previousInline hash t attempt session claimed toolUseId draft = .ok none := by
  have unused : t.proposals.find?
      (fun proposal => proposal.idempotencyKey = draft.idempotencyKey) = none := by
    simpa using requireNewProposal_eq_ok.mp isNew
  simp only [previousInline, unused]

theorem submit_recorded (settings : RunSettings) (again : InlineRequest)
    (reading : InlineReading) {proposal : ChangeProposal} (known : proposal ∈ t.proposals)
    (recorded : proposal.idempotencyKey = (again.draft sha256Hex).idempotencyKey) :
    ∃ fault, (runStore settings).exec (again.submit sha256Hex reading) t = .error fault := by
  cases outcome : (runStore settings).exec (again.submit sha256Hex reading) t with
  | error fault => exact ⟨fault, rfl⟩
  | ok result =>
    obtain ⟨answer, t'⟩ := result
    simp only [runStore, InlineRequest.submit, execRun, answering_eq_ok, suspendForProposal,
      bind_eq_ok, Prod.exists, exists_unit] at outcome
    obtain ⟨_, ⟨-, _, _, _, -, _, -, -, -, _, -, -, -, -, isNew, -⟩, -⟩ := outcome
    exact absurd recorded (requireNewProposal_eq_ok.mp isNew proposal known)

theorem submit_accepted
    (accepted : (runStore settings).exec (request.submit sha256Hex reading) t =
      .ok (.identifier proposalId, t')) :
    ∃ proposal ∈ t'.proposals, proposal.id = proposalId ∧
      proposal.idempotencyKey = (request.draft sha256Hex).idempotencyKey := by
  simp only [runStore, InlineRequest.submit, execRun, answering_eq_ok, suspendForProposal,
    bind_eq_ok, Prod.exists, exists_unit, pure_eq_ok, Prod.mk.injEq] at accepted
  obtain ⟨_, ⟨-, _, _, _, -, _, -, -, -, _, -, -, -, -, -, _, -, -, -, -, -, _, tables, -, _, -,
    _, held, rfl, rfl⟩, answered⟩ := accepted
  obtain rfl := RunAnswer.identifier.inj answered
  simp only [holdInline, bind_eq_ok, orFault_eq_ok, RunTables.addProposal, RunTables.addApproval,
    RunTables.addEffect, insertRow_eq_ok, pure_eq_ok] at held
  obtain ⟨_, -, _, -, _, ⟨_, ⟨-, rfl⟩, rfl⟩, _, ⟨_, ⟨-, rfl⟩, rfl⟩, _, ⟨-, rfl⟩, rfl⟩ := held
  exact ⟨_, List.mem_append_right _ (List.mem_singleton_self _), rfl, rfl⟩

theorem recordedKey_invariant (key : String) :
    (runStore settings).Invariant fun t => WellKept t ∧
      ∃ proposal ∈ t.proposals, proposal.idempotencyKey = key := by
  rintro t action answer t' ⟨kept, proposal, known, recorded⟩ committed
  refine ⟨wellKept_invariant t action answer t' kept committed, ?_⟩
  have moves : Moves (fun _ => True) t t' := execRun_moves kept (fun _ _ => trivial) committed
  obtain ⟨later, knownLater, step⟩ := (moves.frame kept).proposals.forward known
  exact ⟨later, knownLater, (congrArg ChangeProposal.idempotencyKey step.same :).trans recorded⟩

/-- **A repeated inline request is rejected.**  Once an inline request was accepted, in every
later state a repetition of it is not answered with its proposal, and whatever the same call
submits is rejected, and changes no row. -/
theorem repeated_inline_rejected (settings : RunSettings) (sha256Hex : String → String)
    (before since : List RunAction) (request : InlineRequest) (reading : InlineReading)
    (proposalId : Uuid) (t' : RunTables)
    (accepted : (runStore settings).exec (request.submit sha256Hex reading)
      ((runStore settings).run RunTables.empty before) = .ok (.identifier proposalId, t')) :
    let t := (runStore settings).run t' since
    (∀ reading', (runStore settings).exec (request.submit sha256Hex reading') t ≠
      .ok (.identifier proposalId, t)) ∧
    (∀ (again : InlineRequest) (reading' : InlineReading), again.claim = request.claim →
      again.toolUseId = request.toolUseId → again.ownKey = request.ownKey →
      (∃ fault, (runStore settings).exec (again.submit sha256Hex reading') t = .error fault) ∧
        (runStore settings).step t (again.submit sha256Hex reading') = t) := by
  intro t
  have kept : WellKept t' := wellKept_invariant _ _ _ _
    (wellKept_invariant.run wellKept_empty before) accepted
  obtain ⟨proposal, known, -, recorded⟩ := submit_accepted accepted
  obtain ⟨-, later, knownLater, stillRecorded⟩ :=
    (recordedKey_invariant _).run ⟨kept, proposal, known, recorded⟩ since
  constructor
  · intro reading' replayed
    obtain ⟨fault, rejected⟩ := submit_recorded settings request reading' knownLater stillRecorded
    exact nomatch replayed.symm.trans rejected
  · intro again reading' sameClaim sameCall sameKey
    have key : (again.draft sha256Hex).idempotencyKey = (request.draft sha256Hex).idempotencyKey :=
      InlineRequest.draft_key sameClaim sameCall sameKey
    obtain ⟨fault, rejected⟩ :=
      submit_recorded settings again reading' knownLater (stillRecorded.trans key.symm)
    exact ⟨⟨fault, rejected⟩, (runStore settings).step_of_fault rejected⟩

def sampleInlineRequest : InlineRequest := ⟨firstClaim, "toolu", 30, none, sampleDraft⟩

def sampleInlineReading : InlineReading :=
  ⟨.ok ⟨50, some 51, .postgres⟩, .ok (), .ok (), none, "rh", ⟨60, 61, 62, 63, 64⟩, 100, 100⟩

/-- The request is accepted; its answer is lost, and the identical request is rejected while
its attempt still runs. -/
theorem repeated_inline_lost :
    ∃ t', (runStore sampleSettings).exec
        (sampleInlineRequest.submit (fun text => text) sampleInlineReading)
        ((runStore sampleSettings).run RunTables.empty sampleTurn) = .ok (.identifier 61, t') ∧
      (runStore sampleSettings).exec
          (sampleInlineRequest.submit (fun text => text) sampleInlineReading) t' =
        .error ⟨.changeProposalConflictError, "ChangeProposal has already been recorded"⟩ := by
  refine ⟨_, rfl, ?_⟩
  decide

/-- The repetition changes no row. -/
theorem repeated_inline_rejected_sample :
    ∃ t', (runStore sampleSettings).exec
        (sampleInlineRequest.submit (fun text => text) sampleInlineReading)
        ((runStore sampleSettings).run RunTables.empty sampleTurn) = .ok (.identifier 61, t') ∧
      (runStore sampleSettings).step t'
        (sampleInlineRequest.submit (fun text => text) sampleInlineReading) = t' := by
  refine ⟨_, rfl, ?_⟩
  exact ((repeated_inline_rejected sampleSettings (fun text => text) sampleTurn []
    sampleInlineRequest sampleInlineReading 61 _ rfl).2 sampleInlineRequest sampleInlineReading rfl
    rfl rfl).2

end SkillMind.Runs
