import SkillMind.Runs.RepositoryEffects

/-!
# Executing controlled effects

The transactions of the worker that carries an effect out: it claims the execution under a
lease with a fresh token, renews the lease between the stages of the external write, and
finalizes the outcome.  A lease that runs out is recovered: the execution is dispatched again
or closed, and its record keeps that the write may have happened.

Only the worker whose token is on the row passes `validateEffectLease`.
-/

namespace SkillMind.Runs

open Library Effects

/-! ## Claims -/

structure ClaimedEffectExecution where
  effectExecutionId : Uuid
  proposalId : Uuid
  approvalId : Uuid
  runId : Uuid
  runSegmentId : Uuid
  runAttemptId : Uuid
  projectId : Uuid
  integrationId : Option Uuid
  bindingId : Uuid
  capability : EffectCapability
  operation : String
  idempotencyKey : String
  requestFingerprint : String
  provider : EffectProvider
  leaseToken : String
  leaseExpiresAt : Timestamp
  attemptNo : Nat
  previousDiagnostic : Option McpDiagnostic
  deriving DecidableEq

/-- `lock_…` of an execution with its proposal. -/
def lockEffect (tables : RunTables) (effectId : Uuid) :
    Except Fault (EffectExecution × ChangeProposal) := do
  let effect ← orFault ⟨.lookupError, "EffectExecution not found"⟩
    (tables.effects.find? fun effect => effect.id = effectId)
  let proposal ← orFault ⟨.lookupError, "EffectExecution Proposal not found"⟩
    (tables.proposals.find? fun proposal => proposal.id = effect.proposalId)
  return (effect, proposal)

/-- The approval still names this version of the proposal. -/
def ChangeApproval.covers (approval : ChangeApproval) (proposal : ChangeProposal) : Prop :=
  approval.proposalId = proposal.id ∧ approval.decision = .approved ∧
    approval.proposalVersion = proposal.version ∧ approval.proposalChecksum = proposal.checksum

instance (approval : ChangeApproval) (proposal : ChangeProposal) :
    Decidable (approval.covers proposal) :=
  inferInstanceAs (Decidable (_ ∧ _))

/-- The lease runs no longer than the proposal. -/
def effectLeaseUntil (now leaseSeconds expiresAt : Timestamp) : Timestamp :=
  min (now + leaseSeconds) expiresAt

/-- The tool call of the execution, created at the first claim and running again at a later
one. -/
def openToolCall (tables : RunTables) (proposal : ChangeProposal) (effect : EffectExecution)
    (integrationId : Option Uuid) (newId : Uuid) : Except Fault (Uuid × RunTables) :=
  match effect.toolCallId.bind fun id => tables.toolCalls.find? fun call => call.id = id with
  | none => do
    let tables ← tables.addToolCall
      ⟨newId, effect.requestFingerprint, proposal.capability, integrationId, .running⟩
    return (newId, tables)
  | some call => do
    require (call.requestFingerprint = effect.requestFingerprint ∧
        call.capability = proposal.capability ∧ call.integrationId = integrationId)
      (effectLeaseInvalid "Effect ToolCall snapshot changed")
    return (call.id, tables.putToolCall { call with status := .running })

structure EffectClaimIds where
  toolCall : Uuid
  segment : Uuid

structure EffectClaimRequest where
  effectExecutionId : Uuid
  workerId : String
  leaseToken : String
  leaseSeconds : Nat
  maxAttempts : Nat
  inlineParent : Option ClaimedRun

section Store

variable (features : ExecutionFeatures) (leaseTokenHash : String → String)

/-- The claiming worker belongs to the turn that owns the inline effect. -/
def inlineParentMatches (run : Run) (proposal : ChangeProposal) (parent : Option ClaimedRun) :
    Prop :=
  ∃ claimed ∈ parent, claimed.runId = run.id ∧ claimed.runAttemptId = proposal.runAttemptId ∧
    some (leaseTokenHash claimed.leaseToken) = proposal.inlineOwner.map InlineOwner.leaseHash

instance (run : Run) (proposal : ChangeProposal) (parent : Option ClaimedRun) :
    Decidable (inlineParentMatches leaseTokenHash run proposal parent) :=
  inferInstanceAs (Decidable (∃ claimed ∈ parent, _))

/-- The approval the execution rests on, checked against the proposal and the frozen consent. -/
def requireEffectApproval (tables : RunTables) (run : Run) (proposal : ChangeProposal)
    (effect : EffectExecution) : Except Fault ChangeApproval := do
  let mismatch := effectLeaseInvalid "Effect approval does not match Proposal version"
  let approval ← orFault mismatch
    (tables.approvals.find? fun approval => approval.id = effect.approvalId)
  require (approval.covers proposal) mismatch
  if approval.source = .runStart then
    let consented ← hasActorApproval run approval proposal.capability effect.provider
    require (consented = true)
      (effectLeaseInvalid "Run start approval does not match its frozen consent")
  return approval

/-- The claim of an execution that may not start any more closes it. -/
def refuseEffect (tables : RunTables) (run : Run) (segment : RunSegment)
    (proposal : ChangeProposal) (effect : EffectExecution) (status : EffectExecutionStatus)
    (code : String) (segmentId : Uuid) (now : Timestamp) :
    Except Fault (Option ClaimedEffectExecution × RunTables) := do
  return (none,
    ← closeEffectBeforeProvider tables run segment proposal effect status code segmentId now)

/-- The part of `claim_effect_execution` after the execution was found free: the reasons to
close it before the provider, and the lease. -/
def leaseEffect (tables : RunTables) (run : Run) (segment : RunSegment)
    (proposal : ChangeProposal) (effect : EffectExecution) (request : EffectClaimRequest)
    (resource : Except Fault BoundResource) (ids : EffectClaimIds) (now later : Timestamp) :
    Except Fault (Option ClaimedEffectExecution × RunTables) :=
  let refuse (tables : RunTables) (effect : EffectExecution) (status : EffectExecutionStatus)
      (code : String) (now : Timestamp) :=
    refuseEffect tables run segment proposal effect status code ids.segment now
  if isCancellationRequested tables = true then
    refuse tables effect .failed "run_cancelled" now
  else if proposal.expiresAt ≤ now then
    refuse tables effect .stale "proposal_expired" now
  else do
    let approval ← requireEffectApproval tables run proposal effect
    let resource ← resource
    let session ← orFault (effectLeaseInvalid "Effect execution snapshot is incomplete")
      (tables.sessions.find? fun session => session.id = proposal.agentSessionId)
    require (session.sdkSessionId ≠ none)
      (effectLeaseInvalid "Effect execution has no SDK Agent session")
    if request.maxAttempts < effect.attemptNo + 1 then
      refuse tables effect .failed "retry_exhausted" now
    else do
      let (toolCallId, tables) ←
        openToolCall tables proposal effect resource.integrationId ids.toolCall
      let effect := { effect with toolCallId := some toolCallId }
      if proposal.expiresAt ≤ later then
        refuse tables effect .stale "proposal_expired" later
      else do
        let expiresAt := effectLeaseUntil later request.leaseSeconds proposal.expiresAt
        let leased := { effect with
          status := .applying
          workerId := some request.workerId
          leaseTokenHash := some (leaseTokenHash request.leaseToken)
          leaseExpiresAt := some expiresAt
          attemptNo := effect.attemptNo + 1 }
        let tables := (tables.putEffect leased).putProposal { proposal with status := .applying }
        return (some {
          effectExecutionId := leased.id
          proposalId := proposal.id
          approvalId := approval.id
          runId := run.id
          runSegmentId := segment.id
          runAttemptId := proposal.runAttemptId
          projectId := run.projectId
          integrationId := resource.integrationId
          bindingId := resource.bindingId
          capability := proposal.capability
          operation := proposal.operation
          idempotencyKey := proposal.idempotencyKey
          requestFingerprint := proposal.requestFingerprint
          provider := resource.provider
          leaseToken := request.leaseToken
          leaseExpiresAt := expiresAt
          attemptNo := leased.attemptNo
          previousDiagnostic := leased.error.bind EffectError.diagnostic }, tables)

/-- The Run is where the execution may start: its turn still waits for an inline effect, or the
Run waits for the approved one. -/
def requireEffectPlace (tables : RunTables) (run : Run) (segment : RunSegment)
    (proposal : ChangeProposal) (now : Timestamp) : Except Fault Unit :=
  if proposal.activeInline = true then do
    let _ ← inlineParentActive tables run segment proposal now
    return ()
  else
    require (run.status = .waitingForApproval)
      (effectLeaseInvalid "Run is not waiting for the approved effect")

/-- `claim_effect_execution`.  `binding` is the provider of the bound resource when it is still
there, `resource` what the validation of the stored proposal finds; the second clock is read
after all waits. -/
def claimEffectExecution (tables : RunTables) (request : EffectClaimRequest)
    (binding : Option EffectProvider) (resource : Except Fault BoundResource)
    (ids : EffectClaimIds) (now later : Timestamp) :
    Except Fault (Option ClaimedEffectExecution × RunTables) := do
  require (0 < request.maxAttempts ∧ 0 < request.leaseSeconds)
    ⟨.valueError, "Effect lease and max attempts must be positive"⟩
  let (effect, proposal) ← lockEffect tables request.effectExecutionId
  let run ← orFault ⟨.runNotFoundError, "EffectExecution Run not found"⟩
    (lockRunRow tables effect.runId)
  let segment ← orFault ⟨.runNotFoundError, "EffectExecution Segment not found"⟩
    (lockSegmentRow tables proposal.runSegmentId run.id)
  if effect.status.finished = true then return (none, tables)
  else do
    requireProposalFeature features proposal binding
    if effect.status ∈ [.leased, .applying] ∧ ∃ expiry ∈ effect.leaseExpiresAt, now < expiry then
      return (none, tables)
    else if proposal.activeInline = true ∧
        ¬ inlineParentMatches leaseTokenHash run proposal request.inlineParent then
      return (none, tables)
    else do
      requireEffectPlace tables run segment proposal now
      require (proposal.status = .approved ∨ proposal.status = .applying)
        (effectLeaseInvalid "Proposal is not approved for apply")
      leaseEffect leaseTokenHash tables run segment proposal effect request resource ids now later

def validateEffectLease (effect : EffectExecution) (claimed : ClaimedEffectExecution)
    (now : Timestamp) : Except Fault Unit :=
  require (effect.id = claimed.effectExecutionId ∧ effect.status = .applying ∧
      (∃ expiry ∈ effect.leaseExpiresAt, now < expiry) ∧
      effect.leaseTokenHash = some (leaseTokenHash claimed.leaseToken))
    (effectLeaseInvalid "EffectExecution lease is invalid or expired")

/-- `authorize_effect_step`.  `actors` is the outcome of the checks on the current users and the
Project, `snapshot` of the comparison of the claim with the bound resource. -/
def authorizeEffectStep (tables : RunTables) (claimed : ClaimedEffectExecution)
    (providerVersion : String) (actors snapshot : Except Fault Unit) (now later : Timestamp) :
    Except Fault (EffectExecution × ChangeProposal) := do
  requireEffect features claimed.capability claimed.operation (some claimed.provider)
  let unavailable := effectLeaseInvalid "Effect authority is unavailable"
  let observedRun ← orFault unavailable (lockRunRow tables claimed.runId)
  let observedApproval ← orFault unavailable
    (tables.approvals.find? fun approval => approval.id = claimed.approvalId)
  let actor ← orFault (effectLeaseInvalid "Effect initiating actor is unavailable")
    observedRun.actorId
  let approved ←
    hasActorApproval observedRun observedApproval claimed.capability claimed.provider
  require (observedApproval.actorId ≠ none ∧ approved = true)
    (effectLeaseInvalid "Effect requires an exact user approval")
  actors
  let changed := effectLeaseInvalid "Effect authority changed after claim"
  let run ← orFault changed (lockRunRow tables claimed.runId (some claimed.projectId))
  let segment ← orFault changed (lockSegmentRow tables claimed.runSegmentId claimed.runId)
  let proposal ← orFault changed
    (tables.proposals.find? fun proposal => proposal.id = claimed.proposalId)
  let effect ← orFault changed
    (tables.effects.find? fun effect => effect.id = claimed.effectExecutionId)
  let inline ← inlineParentActive tables run segment proposal now
  let stillApproved ← hasActorApproval run observedApproval proposal.capability effect.provider
  require ((inline = true ∨ (run.status = .waitingForApproval ∧ segment.status = .waiting)) ∧
      run.actorId = some actor ∧ proposal.status = .applying ∧ now < proposal.expiresAt ∧
      proposal.runId = run.id ∧ proposal.projectId = run.projectId ∧
      proposal.runSegmentId = segment.id ∧ effect.runId = run.id ∧
      effect.proposalId = proposal.id ∧ effect.approvalId = observedApproval.id ∧
      effect.provider = claimed.provider ∧ effect.providerVersion = providerVersion ∧
      effect.attemptNo = claimed.attemptNo ∧
      effect.requestFingerprint = claimed.requestFingerprint ∧
      effect.idempotencyKey = claimed.idempotencyKey ∧ observedApproval.runId = run.id ∧
      stillApproved = true ∧ observedApproval.covers proposal) changed
  validateEffectLease leaseTokenHash effect claimed now
  require (isCancellationRequested tables = false)
    (effectLeaseInvalid "Effect Run was cancelled")
  snapshot
  validateEffectLease leaseTokenHash effect claimed later
  require (later < proposal.expiresAt)
    (effectLeaseInvalid "Effect proposal expired during authorization")
  return (effect, proposal)

def heartbeatEffectExecution (tables : RunTables) (claimed : ClaimedEffectExecution)
    (providerVersion : String) (leaseSeconds : Nat) (actors snapshot : Except Fault Unit)
    (now later last : Timestamp) : Except Fault (Timestamp × RunTables) := do
  require (0 < leaseSeconds) ⟨.valueError, "Effect lease duration must be positive"⟩
  require ((resolveEffectCapability claimed.capability).supportsSupervision claimed.provider = true)
    ⟨.valueError, "Effect Provider does not support staged supervision"⟩
  let (effect, proposal) ← authorizeEffectStep features leaseTokenHash tables claimed
    providerVersion actors snapshot now later
  validateEffectLease leaseTokenHash effect claimed last
  require (last < proposal.expiresAt)
    (effectLeaseInvalid "Effect approval expired during heartbeat")
  let expiresAt := effectLeaseUntil last leaseSeconds proposal.expiresAt
  return (expiresAt, tables.putEffect { effect with leaseExpiresAt := some expiresAt })

/-- A failure the provider boundary reports: the execution ended without a result, under a
code of the provider's own, never the one reserved for an unknown outcome. -/
structure ProviderFailure extends EffectFailure where
  ended : status ∈ [.stale, .verificationFailed, .failed]
  unreserved : code ≠ unknownEffectCode

/-- What the provider reports: the references of its evidence, or a failure. -/
inductive ProviderOutcome where
  | applied (beforeRef afterRef : String)
  | failed (failure : ProviderFailure)

def ProviderOutcome.failure : ProviderOutcome → Option EffectFailure
  | .applied _ _ => none
  | .failed failure => some failure.toEffectFailure

/-- The execution, its proposal and its tool call with the outcome written into them. -/
def recordOutcome (tables : RunTables) (proposal : ChangeProposal) (effect : EffectExecution)
    (call : ToolCall) : ProviderOutcome → EffectExecution × ChangeProposal × RunTables
  | .applied beforeRef afterRef =>
    let settled := { effect with
      status := .applied
      beforeRef := some beforeRef
      afterRef := some afterRef
      error := none
      leaseTokenHash := none
      leaseExpiresAt := none }
    let proposal := { proposal with status := .applied }
    (settled, proposal,
      ((tables.putEffect settled).putProposal proposal).putToolCall
        { call with status := .succeeded })
  | .failed failure =>
    let settled := { effect with
      status := failure.status
      error := some (effectFailureRecord proposal.capability effect.provider effect.attemptNo
        failure.code failure.retryable effect.error failure.diagnostic)
      leaseTokenHash := none
      leaseExpiresAt := none }
    let proposal :=
      { proposal with status := if failure.status = .stale then .stale else .failed }
    (settled, proposal,
      ((tables.putEffect settled).putProposal proposal).putToolCall
        { call with status := .failed })

def finalizeEffectExecution (tables : RunTables) (claimed : ClaimedEffectExecution)
    (outcome : ProviderOutcome) (segmentId : Uuid) (now : Timestamp) :
    Except Fault (EffectExecution × RunTables) := do
  let (effect, proposal) ← lockEffect tables claimed.effectExecutionId
  let run ← orFault ⟨.runNotFoundError, "EffectExecution Run not found"⟩
    (lockRunRow tables claimed.runId)
  let segment ← orFault ⟨.runNotFoundError, "EffectExecution Segment not found"⟩
    (lockSegmentRow tables claimed.runSegmentId run.id)
  if effect.status.finished = true then return (effect, tables)
  else do
    validateEffectLease leaseTokenHash effect claimed now
    let inline ← inlineParentActive tables run segment proposal now
    require (inline = true ∨ run.status = .waitingForApproval)
      (effectLeaseInvalid "Run left effect waiting state")
    let call ← orFault (effectLeaseInvalid "Effect ToolCall is unavailable")
      (effect.toolCallId.bind fun id => tables.toolCalls.find? fun call => call.id = id)
    let (settled, proposal, tables) := recordOutcome tables proposal effect call outcome
    if inline = true then return (settled, tables)
    else do
      let tables ← finishEffectContinuation tables run segment proposal settled outcome.failure
        segmentId now
      return (((tables.effects.find? fun effect => effect.id = settled.id).getD settled), tables)

/-- The execution of a Run that no longer waits for it: it is closed without an event, because
nothing may follow the last snapshot of the Run. -/
def closeLeftEffect (tables : RunTables) (proposal : ChangeProposal) (effect : EffectExecution) :
    RunTables :=
  let closed := { effect with
    status := .failed
    error := some (effectFailureRecord proposal.capability effect.provider effect.attemptNo
      "run_left_effect_waiting_state" false effect.error)
    workerId := none
    leaseTokenHash := none
    leaseExpiresAt := none }
  let tables := (tables.putEffect closed).putProposal { proposal with status := .failed }
  if effectRequiresReconciliation closed.error then failToolCall tables closed else tables

/-- The execution whose lease ran out is dispatched again, and its record says so. -/
def redispatchEffect (tables : RunTables) (proposal : ChangeProposal) (effect : EffectExecution) :
    RunTables :=
  let again := { effect with
    status := .requested
    error := some (effectFailureRecord proposal.capability effect.provider effect.attemptNo
      "lease_expired" true effect.error)
    workerId := none
    leaseTokenHash := none
    leaseExpiresAt := none }
  (failToolCall ((tables.putEffect again).putProposal { proposal with status := .approved })
    again).dispatchEffect again

/-- One candidate of `recover_expired_effects`, with the identifier drawn for the segment it
may open. -/
def recoverEffect (maxAttempts : Nat) (now : Timestamp) (tables : RunTables)
    (candidate : EffectExecution × Uuid) : Except Fault (Bool × RunTables) := do
  let observed ← orFault
    ⟨.changeProposalNotFoundError, "Effect recovery Proposal not found"⟩
    (tables.proposals.find? fun proposal => proposal.id = candidate.1.proposalId)
  let run ← orFault ⟨.runNotFoundError, "Effect recovery Run not found"⟩
    (lockRunRow tables candidate.1.runId)
  let segment ← orFault ⟨.runNotFoundError, "Effect recovery Segment not found"⟩
    (lockSegmentRow tables observed.runSegmentId run.id)
  let (effect, proposal) ← lockEffect tables candidate.1.id
  if features.effectEnabled proposal.capability proposal.operation = false ∨
      effect.status ∉ [.leased, .applying] ∨ ¬ ∃ expiry ∈ effect.leaseExpiresAt, expiry ≤ now then
    return (false, tables)
  else if run.status ≠ .waitingForApproval then
    return (true, closeLeftEffect tables proposal effect)
  else
    let close (status : EffectExecutionStatus) (code : String) :
        Except Fault (Bool × RunTables) := do
      return (true, ← closeEffectBeforeProvider tables run segment proposal effect status code
        candidate.2 now)
    if isCancellationRequested tables = true then close .failed "run_cancelled"
    else if proposal.expiresAt ≤ now then close .stale "proposal_expired"
    else if maxAttempts ≤ effect.attemptNo then close .failed "retry_exhausted"
    else return (true, redispatchEffect tables proposal effect)

def recoverExpiredEffects (tables : RunTables) (limit maxAttempts : Nat) (segmentIds : List Uuid)
    (now : Timestamp) : Except Fault (Nat × RunTables) := do
  require (0 < limit ∧ 0 < maxAttempts)
    ⟨.valueError, "Effect recovery limits must be positive"⟩
  let candidates := dueFirst (fun effect => effect.leaseExpiresAt.getD 0) EffectExecution.id limit
    (tables.effects.filter fun effect =>
      (tables.proposals.find? fun proposal => proposal.id = effect.proposalId).any
          (recoverable features) = true ∧
      effect.status ∈ [.leased, .applying] ∧ ∃ expiry ∈ effect.leaseExpiresAt, expiry ≤ now)
  recoverAll (recoverEffect features maxAttempts now) (candidates.zip segmentIds) tables

end Store

/-- The execution was claimed, and its outcome is unknown. -/
def EffectExecution.awaitsReconciliation (effect : EffectExecution) : Prop :=
  1 ≤ effect.attemptNo ∧ effectRequiresReconciliation effect.error

instance (effect : EffectExecution) : Decidable effect.awaitsReconciliation :=
  inferInstanceAs (Decidable (_ ∧ _))

def legacyDocumentWriteProviderVersion : String := "project-library-receipt/v1"

/-- `load_effect_reconciliation_target`: the original write of an execution, read without any
write lease.  `resource` is what the validation of the stored proposal finds. -/
def loadEffectReconciliationTarget (tables : RunTables) (projectId runId effectId : Uuid)
    (resource : Except Fault BoundResource) :
    Except Fault (EffectExecution × ChangeProposal × BoundResource) := do
  let missing : Fault := ⟨.lookupError, "Original effect was not found"⟩
  let settled : Fault := ⟨.valueError, "Original effect does not require reconciliation"⟩
  let mismatch : Fault := ⟨.valueError, "Original effect approval does not match"⟩
  let run ← orFault missing (lockRunRow tables runId (some projectId))
  let effect ← orFault missing
    (tables.effects.find? fun effect => effect.id = effectId ∧ effect.runId = run.id)
  let proposal ← orFault settled
    (tables.proposals.find? fun proposal => proposal.id = effect.proposalId)
  require (proposal.projectId = projectId ∧ proposal.runId = run.id ∧
    effect.awaitsReconciliation) settled
  let legacy := proposal.capability = .documentWrite ∧ effect.provider = .projectLibrary ∧
    effect.providerVersion = legacyDocumentWriteProviderVersion
  let approval ← orFault mismatch
    (tables.approvals.find? fun approval => approval.id = effect.approvalId)
  let approved ← hasActorApproval run approval proposal.capability effect.provider
  require ((resolveEffectCapability proposal.capability).supportsSupervision effect.provider =
        true ∧
      (providerVersion proposal.capability effect.provider = some effect.providerVersion ∨
        legacy) ∧
      effect.idempotencyKey = proposal.idempotencyKey ∧
      effect.requestFingerprint = proposal.requestFingerprint ∧ approval.runId = run.id ∧
      approved = true ∧ approval.covers proposal) mismatch
  return (effect, proposal, ← resource)

end SkillMind.Runs
