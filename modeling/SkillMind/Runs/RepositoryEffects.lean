import SkillMind.Effects.Release
import SkillMind.Runs.EffectContinuation

/-!
# Proposing, approving and executing controlled effects

The transactions between a proposed change and its outcome.  A proposal is approved by the
consent given at the start of the Run, by a policy of the Project, or by a user; approving it
creates its one execution, which a worker claims under a lease of its own, renews and
finalizes.  Leases and approvals that run out are recovered.

The contents of a proposal, the bound resource, the policies of the Project and the current
authority of the actors live in other aggregates.  An operation gets what it reads there as an
argument: the outcome of the check, or the value read.
-/

namespace SkillMind.Runs

open Library Effects

def proposalConflict (message : String) : Fault := ⟨.changeProposalConflictError, message⟩

def proposalInvalid (message : String) : Fault := ⟨.changeProposalValidationError, message⟩

/-- The content of a proposal as far as the Run reads it, with its checksum. -/
structure ChangeProposalDraft where
  capability : EffectCapability
  operation : String
  continuationMode : SessionContinuationMode
  idempotencyKey : String
  requestFingerprint : String
  checksum : String
  expiresAt : Timestamp

structure BoundResource where
  bindingId : Uuid
  integrationId : Option Uuid
  provider : EffectProvider

/-- The identifiers drawn for the rows of a proposal. -/
structure ProposalIds where
  session : Uuid
  proposal : Uuid
  approval : Uuid
  effect : Uuid
  interaction : Uuid

/-- How a proposal reaches the transaction: as the last event of a turn, or out of the running
tool call of a session. -/
inductive ProposalOrigin where
  | deferred (event : AgentEvent) (session : Option AgentSessionKind)
  | inline (toolUseId : String) (sdkSessionId : Uuid)

def newEffectExecution (proposal : ChangeProposal) (approval : ChangeApproval)
    (provider : EffectProvider) (id : Uuid) : Except Fault EffectExecution := do
  let version ← orFault (proposalInvalid "Effect Provider is not registered")
    (providerVersion proposal.capability provider)
  return {
    id := id
    proposalId := proposal.id
    runId := proposal.runId
    approvalId := approval.id
    toolCallId := none
    status := .requested
    provider := provider
    providerVersion := version
    idempotencyKey := proposal.idempotencyKey
    requestFingerprint := proposal.requestFingerprint
    beforeRef := none
    afterRef := none
    error := none
    workerId := none
    leaseTokenHash := none
    leaseExpiresAt := none
    attemptNo := 0 }

/-- The approval a proposal carries from the start: the consent of the Run, or the policy of
the Project that matches it. -/
def automaticApproval (run : Run) (proposal : ChangeProposal) (approvalId : Uuid)
    (requestHash : String) (actor policy : Option Uuid) : Option ChangeApproval :=
  match actor, policy with
  | some actor, _ =>
    some ⟨approvalId, proposal.id, run.id, .runStart, .approved, some actor, none, 1,
      proposal.checksum, s!"run-start:{run.id}:{proposal.id}", requestHash⟩
  | none, some policy =>
    some ⟨approvalId, proposal.id, run.id, .preauthorization, .approved, none, some policy, 1,
      proposal.checksum, s!"preauth:{policy}:{proposal.id}", requestHash⟩
  | none, none => none

/-- The question whether the proposal may be applied. -/
def approvalInteraction (proposal : ChangeProposal) (id : Uuid) : UserInteraction where
  id := id
  runId := proposal.runId
  runSegmentId := proposal.runSegmentId
  agentSessionId := proposal.agentSessionId
  interactionType := .effectApproval
  allowMultiple := false
  optionKeys := ["approve", "reject"]
  required := true
  expiresAt := proposal.expiresAt
  status := .open
  version := 1
  continuationMode := proposal.continuationMode
  changeProposalId := some proposal.id

section Store

variable (features : ExecutionFeatures) (leaseTokenHash : String → String)

/-! ## Proposing -/

def requireEffect (capability : EffectCapability) (operation : String)
    (provider : Option EffectProvider := none) : Except Fault Unit :=
  require (features.effectEnabled capability operation provider = true)
    ⟨.executionFeatureDisabledError, "This effect is not enabled in this deployment"⟩

/-- A write to a repository is enabled for each provider separately. -/
def requireProviderEffect (capability : EffectCapability) (operation : String)
    (provider : EffectProvider) : Except Fault Unit :=
  if capability = .repositoryWrite then
    requireEffect features capability operation (some provider)
  else .ok ()

/-- The part of `_validate_proposal_draft` that reads the Run: its idempotency key is new. -/
def requireNewProposal (tables : RunTables) (draft : ChangeProposalDraft) : Except Fault Unit :=
  match tables.proposals.find? fun proposal => proposal.idempotencyKey = draft.idempotencyKey with
  | none => .ok ()
  | some existing =>
    if existing.requestFingerprint = draft.requestFingerprint then
      .error (proposalConflict "ChangeProposal has already been recorded")
    else
      .error (proposalConflict
        "ChangeProposal idempotency key was reused with different content")

/-- The session that proposes: the ending turn leaves it idle, an inline call keeps it. -/
def proposingSession (tables : RunTables) (run : Run) (attempt : RunAttempt)
    (claimed : ClaimedRun) (draft : ChangeProposalDraft) (resource : BoundResource)
    (newSession : Uuid) : ProposalOrigin → Except Fault (AgentSession × RunTables)
  | .deferred event session => do
    let kind ← orFault ⟨.valueError, "Deferred proposal requires session metadata"⟩ session
    let (session, tables) ←
      ensureAgentSession tables claimed event.agentSessionId kind newSession
    return (session, tables.putSession { session with status := .idle })
  | .inline _ sdkSessionId => do
    let actor ← runAutoApprovalActor run draft.capability resource.provider
    require (draft.continuationMode = .resume ∧ actor ≠ none ∧
        (resolveEffectCapability draft.capability).supportsSupervision resource.provider = true)
      ⟨.inlineUnavailable, ""⟩
    let session ← orFault ⟨.leaseValidationError, "Inline SDK session is not active"⟩
      (tables.sessions.find? fun session =>
        session.runAttemptId = attempt.id ∧ session.sdkSessionId = some sdkSessionId ∧
          session.status = .active ∧ session.sessionKind = .primary)
    let pending ← pendingInlineProposal tables run.id attempt
    require (pending = none)
      (proposalConflict "Original inline operation must be resolved")
    return (session, tables)

/-- The Run waits for the proposed change: for its execution when it is already approved,
otherwise for the answer of a user. -/
def awaitProposal (tables : RunTables) (run : Run) (segment : RunSegment) (attempt : RunAttempt)
    (proposal : ChangeProposal) (approval : Option ChangeApproval) (provider : EffectProvider)
    (ids : ProposalIds) (sequence : Nat) (now : Timestamp) : Except Fault RunTables := do
  let waiting ← run.transitTo .running .waitingForApproval none now
  let tables ← (((tables.putRun waiting).putSegment { segment with status := .waiting }).putAttempt
    (attempt.deferred now)).addProposal proposal
  let events (decision : AgentEventType) := eventsFrom (some attempt.id) sequence
    [.agent .changeProposed, .agent decision, .agent .checkpointCreated,
      .runSnapshot .waitingForApproval waiting.rowVersion]
  match approval with
  | some approval => do
    let effect ← newEffectExecution proposal approval provider ids.effect
    let tables ← tables.addApproval approval
    let tables ← tables.addEffect effect
    return (tables.dispatchEffect effect).publish run.id .waitingForApproval
      (events .effectApproved)
  | none => do
    let tables ← tables.addInteraction (approvalInteraction proposal ids.interaction)
    return tables.publish run.id .waitingForApproval (events .interactionRequested)

/-- The approved proposal is owned by the running tool call; the worker of the turn claims its
execution directly, so that it is not dispatched. -/
def holdInline (tables : RunTables) (attempt : RunAttempt) (proposal : ChangeProposal)
    (approval : Option ChangeApproval) (provider : EffectProvider) (ids : ProposalIds) :
    Except Fault RunTables := do
  let approval ← orFault ⟨.inlineUnavailable, ""⟩
    (approval.filter fun approval => approval.source = .runStart)
  let effect ← newEffectExecution proposal approval provider ids.effect
  let tables ← (tables.putAttempt
    { attempt with inlineProposalId := some proposal.id }).addProposal proposal
  let tables ← tables.addApproval approval
  tables.addEffect effect

/-- `suspend_for_proposal`.  The replay of an inline request is not reached in the source
either: its key was rejected as a used one before.  `resource` is what the validation of
the draft finds, `checkpointRefs` and `evidenceRefs` are the outcomes of the checks of its
references, and `policy` is the matching policy of the Project. -/
def suspendForProposal (tables : RunTables) (claimed : ClaimedRun) (origin : ProposalOrigin)
    (draft : ChangeProposalDraft) (resource : Except Fault BoundResource)
    (checkpointRefs evidenceRefs : Except Fault Unit) (policy : Option Uuid)
    (requestHash : String) (ids : ProposalIds) (now later : Timestamp) :
    Except Fault (Uuid × RunTables) := do
  requireEffect features draft.capability draft.operation
  let (run, owned, attempt) ← lockClaimedExecution tables claimed
  let segment ← orFault
    ⟨.leaseValidationError, "ChangeProposal requires an explicit RunSegment"⟩ owned
  validateClaimedLease leaseTokenHash attempt claimed now
  require (run.status = .running)
    ⟨.leaseValidationError, s!"Run cannot propose a change from {run.status.value}"⟩
  let sequence ← match origin with
    | .inline _ _ => pure (nextSequence tables)
    | .deferred event _ => do
      validateAgentEvent event claimed
      require (event.eventType = .changeProposed)
        ⟨.valueError, "Proposal suspension requires CHANGE_PROPOSED"⟩
      pure event.sequence
  rejectCancelledExecution tables
  require (nextSequence tables ≤ sequence)
    ⟨.concurrentRunUpdateError, "ChangeProposal event sequence is not monotonic"⟩
  require (∀ interaction ∈ tables.interactions, interaction.status ≠ .open)
    (proposalConflict "Run already has an open interaction")
  requireNewProposal tables draft
  let resource ← resource
  requireProviderEffect features draft.capability draft.operation resource.provider
  checkpointRefs
  validateClaimedLease leaseTokenHash attempt claimed later
  evidenceRefs
  let (session, tables) ←
    proposingSession tables run attempt claimed draft resource ids.session origin
  let actor ← runAutoApprovalActor run draft.capability resource.provider
  let policy :=
    if (resolveEffectCapability draft.capability).preauthorizable = true ∧
        resource.integrationId ≠ none then policy
    else none
  let proposal : ChangeProposal :=
    { id := ids.proposal
      inlineOwner :=
        match origin with
        | .deferred _ _ => none
        | .inline toolUseId _ => some ⟨.active, toolUseId, leaseTokenHash claimed.leaseToken⟩
      projectId := run.projectId
      runId := run.id
      runSegmentId := segment.id
      runAttemptId := attempt.id
      agentSessionId := session.id
      targetBindingId := resource.bindingId
      integrationId := resource.integrationId
      capability := draft.capability
      operation := draft.operation
      continuationMode := draft.continuationMode
      idempotencyKey := draft.idempotencyKey
      requestFingerprint := draft.requestFingerprint
      status := if policy ≠ none ∨ actor ≠ none then .approved else .pendingApproval
      version := 1
      checksum := draft.checksum
      expiresAt := draft.expiresAt }
  let approval := automaticApproval run proposal ids.approval requestHash actor policy
  let tables ← match origin with
    | .inline _ _ => holdInline tables attempt proposal approval resource.provider ids
    | .deferred _ _ =>
      awaitProposal tables run segment attempt proposal approval resource.provider ids sequence
        now
  return (proposal.id, tables)

def requireProposalFeature (proposal : ChangeProposal) (binding : Option EffectProvider) :
    Except Fault Unit := do
  requireEffect features proposal.capability proposal.operation
  if proposal.capability = .repositoryWrite then
    let provider ← orFault (proposalInvalid "Original effect binding is unavailable") binding
    requireEffect features proposal.capability proposal.operation (some provider)

/-- Only an approval needs the feature; a rejection is always possible. -/
def requireDecidableProposal (proposal : ChangeProposal) (binding : Option EffectProvider)
    (decision : ApprovalDecision) : Except Fault Unit :=
  if decision = .approved then requireProposalFeature features proposal binding else .ok ()

end Store

def expirePendingProposal (tables : RunTables) (run : Run) (segment : RunSegment)
    (proposal : ChangeProposal) (interaction : UserInteraction) (segmentId : Uuid)
    (now : Timestamp) : Except Fault RunTables :=
  let tables := (tables.putProposal { proposal with status := .stale }).putInteraction
    { interaction with status := .expired, version := interaction.version + 1 }
  tables.requeue run .waitingForApproval segment
    (nextEffectSegment run segment proposal segmentId interaction.id .approvalTimeout)
    [.segmentCompleted, .effectRejected] "effect_approval_expired" now

def interactionOfProposal (tables : RunTables) (proposal : ChangeProposal) :
    Option UserInteraction :=
  tables.interactions.find? fun interaction => interaction.changeProposalId = some proposal.id

section Recovery

variable (features : ExecutionFeatures)

/-- The capabilities and operations the recoveries look for. -/
def recoverable (proposal : ChangeProposal) : Bool :=
  features.capabilityEnabled proposal.capability &&
    (proposal.capability ≠ .databaseWrite || proposal.operation ∈ ["INSERT", "UPDATE"])

/-- One candidate of `recover_expired_proposals`, with the identifier drawn for the segment it
may open. -/
def recoverProposal (now : Timestamp) (tables : RunTables) (candidate : ChangeProposal × Uuid) :
    Except Fault (Bool × RunTables) := do
  let run ← orFault ⟨.runNotFoundError, "Proposal recovery Run not found"⟩
    (lockRunRow tables candidate.1.runId)
  let segment ← orFault ⟨.runNotFoundError, "Proposal recovery Segment not found"⟩
    (lockSegmentRow tables candidate.1.runSegmentId run.id)
  let proposal ← orFault ⟨.noResultFound, "No row was found when one was required"⟩
    (tables.proposals.find? fun proposal => proposal.id = candidate.1.id)
  if features.effectEnabled proposal.capability proposal.operation = false ∨
      proposal.status ≠ .pendingApproval ∨ now < proposal.expiresAt then
    return (false, tables)
  else
    let interaction ← orFault
      (proposalInvalid "Expired ChangeProposal has no approval interaction")
      (interactionOfProposal tables proposal)
    if run.status = .waitingForApproval ∧ interaction.status = .open then
      return (true,
        ← expirePendingProposal tables run segment proposal interaction candidate.2 now)
    else
      let tables := tables.putProposal { proposal with status := .stale }
      if interaction.status = .open then
        return (true, tables.putInteraction
          { interaction with status := .expired, version := interaction.version + 1 })
      else
        return (true, tables)

def recoverExpiredProposals (tables : RunTables) (limit : Nat) (segmentIds : List Uuid)
    (now : Timestamp) : Except Fault (Nat × RunTables) := do
  require (0 < limit) ⟨.valueError, "Proposal recovery limit must be positive"⟩
  let candidates := dueFirst ChangeProposal.expiresAt ChangeProposal.id limit
    (tables.proposals.filter fun proposal =>
      recoverable features proposal = true ∧ proposal.status = .pendingApproval ∧
        proposal.expiresAt ≤ now)
  recoverAll (recoverProposal features now) (candidates.zip segmentIds) tables

structure DecideProposalCommand where
  projectId : Uuid
  runId : Uuid
  proposalId : Uuid
  actorId : Uuid
  actorIsAdministrator : Bool
  decision : ApprovalDecision
  proposalVersion : Int
  proposalChecksum : String
  idempotencyKey : String
  requestHash : String

structure ProposalDecisionResult where
  proposal : ChangeProposal
  approval : ChangeApproval
  effect : Option EffectExecution
  runStatus : RunStatus
  idempotentReplay : Bool
  deriving DecidableEq

/-- How the transaction of a decision ends when it commits. -/
inductive DecideOutcome where
  | decided (result : ProposalDecisionResult)
  /-- The approval expired; the caller gets `ChangeProposalExpiredError` after the commit. -/
  | expired
  deriving DecidableEq

/-- The identifiers drawn for the rows of a decision. -/
structure DecisionIds where
  approval : Uuid
  effect : Uuid
  segment : Uuid

/-- A decision that is made for the first time. -/
def decidePendingProposal (tables : RunTables) (run : Run) (segment : RunSegment)
    (proposal : ChangeProposal) (interaction : UserInteraction)
    (command : DecideProposalCommand) (binding : Option EffectProvider) (ids : DecisionIds)
    (now : Timestamp) : Except Fault (DecideOutcome × RunTables) := do
  let approval : ChangeApproval :=
    ⟨ids.approval, proposal.id, run.id, .user, command.decision, some command.actorId, none,
      proposal.version, command.proposalChecksum, command.idempotencyKey, command.requestHash⟩
  let tables ← (tables.putInteraction
    { interaction with status := .responded, version := interaction.version + 1 }).addApproval
      approval
  match command.decision with
  | .approved => do
    let provider ← orFault (proposalInvalid "Proposal binding is unavailable") binding
    let proposal := { proposal with status := .approved }
    let effect ← newEffectExecution proposal approval provider ids.effect
    let tables ← (tables.putProposal proposal).addEffect effect
    return (.decided ⟨proposal, approval, some effect, run.status, false⟩,
      (tables.publish run.id run.status
        (eventsFrom none (nextSequence tables) [.agent .effectApproved])).dispatchEffect effect)
  | .rejected => do
    let proposal := { proposal with status := .rejected }
    let tables ← (tables.putProposal proposal).requeue run .waitingForApproval segment
      (nextEffectSegment run segment proposal ids.segment approval.id)
      [.segmentCompleted, .effectRejected] "effect_rejected" now
    return (.decided ⟨proposal, approval, none, .queued, false⟩, tables)

/-- `decide_change_proposal`.  `binding` is the provider of the bound resource when it is
still there, `rowCheck` the outcome of `_validate_proposal_row`. -/
def decideChangeProposal (tables : RunTables) (command : DecideProposalCommand)
    (binding : Option EffectProvider) (rowCheck : Except Fault Unit) (ids : DecisionIds)
    (now : Timestamp) : Except Fault (DecideOutcome × RunTables) := do
  let observed ← orFault
    ⟨.changeProposalNotFoundError, "ChangeProposal not found in Run"⟩
    (tables.proposals.find? fun proposal =>
      proposal.id = command.proposalId ∧ proposal.runId = command.runId)
  let run ← orFault ⟨.changeProposalNotFoundError, "ChangeProposal not found in Project"⟩
    (lockRunRow tables command.runId (some command.projectId))
  require (command.actorIsAdministrator = true ∨ run.actorId = some command.actorId)
    ⟨.changeProposalApprovalForbiddenError,
      "Only the Run initiator or an administrator may decide this proposal"⟩
  let segment ← orFault ⟨.changeProposalNotFoundError, "ChangeProposal Segment not found"⟩
    (lockSegmentRow tables observed.runSegmentId run.id)
  let proposal ← orFault ⟨.noResultFound, "No row was found when one was required"⟩
    (tables.proposals.find? fun proposal => proposal.id = command.proposalId)
  requireDecidableProposal features proposal binding command.decision
  match tables.approvals.find? fun approval => approval.proposalId = proposal.id with
  | some existing => do
    require (existing.idempotencyKey = command.idempotencyKey ∧
        existing.requestHash = command.requestHash)
      (proposalConflict "ChangeProposal already has a different approval decision")
    let effect := tables.effects.find? fun effect => effect.proposalId = proposal.id
    return (.decided ⟨proposal, existing, effect, run.status, true⟩, tables)
  | none => do
    require (proposal.status = .pendingApproval)
      (proposalConflict "ChangeProposal is not pending approval")
    require (proposal.version = command.proposalVersion)
      (proposalConflict "ChangeProposal version is stale")
    require (proposal.checksum = command.proposalChecksum)
      (proposalConflict "ChangeProposal checksum is stale")
    require (run.status = .waitingForApproval)
      (proposalConflict "Run is not waiting for this approval")
    let interaction ← orFault (proposalConflict "Effect approval interaction is not open")
      (interactionOfProposal tables proposal)
    require (interaction.status = .open)
      (proposalConflict "Effect approval interaction is not open")
    if proposal.expiresAt ≤ now ∨ interaction.expiresAt ≤ now then
      return (.expired, ←
        expirePendingProposal tables run segment proposal interaction ids.segment now)
    else do
      rowCheck
      decidePendingProposal tables run segment proposal interaction command binding ids now

end Recovery

end SkillMind.Runs
