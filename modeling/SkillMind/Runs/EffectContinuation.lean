import SkillMind.Runs.Publishing

/-!
# How a Run continues after a controlled effect

Whatever ends an execution, the Run leaves its wait through one of a few doors: it returns to the
queue with the outcome, it waits for another try, it is cancelled because a cancellation was
recorded, or it stops because the outcome of the external write is unknown and has to be
reconciled.

An effect may also be delivered inline, inside the running turn of the Agent. Its proposal is then
owned by the attempt that waits for it; when that attempt ends, the effect is detached and goes on
as any other.
-/

namespace SkillMind.Runs

open Library Effects

def effectLeaseInvalid (message : String) : Fault := ⟨.effectLeaseValidationError, message⟩

structure EffectFailure where
  status : EffectExecutionStatus
  code : String
  retryable : Bool
  diagnostic : Option McpDiagnostic := none

/-- The proposal is delivered inside the running turn. -/
def ChangeProposal.activeInline (proposal : ChangeProposal) : Bool :=
  proposal.inlineOwner.map InlineOwner.phase = some .active

def ChangeProposal.withPhase (proposal : ChangeProposal) (phase : InlinePhase) :
    ChangeProposal :=
  { proposal with inlineOwner := proposal.inlineOwner.map fun owner => { owner with phase } }

def pendingInlineProposal (tables : RunTables) (runId : Uuid) (attempt : RunAttempt) :
    Except Fault (Option ChangeProposal) :=
  match attempt.inlineProposalId with
  | none => .ok none
  | some identity => do
    let missing := effectLeaseInvalid "Original inline operation is unavailable"
    let proposal ← orFault missing
      (tables.proposals.find? fun proposal => proposal.id = identity)
    require (proposal.runId = runId ∧ proposal.runAttemptId = attempt.id ∧
      proposal.activeInline = true) missing
    return some proposal

/-- `_inline_parent_active`: the calling attempt still owns the effect. -/
def inlineParentActive (tables : RunTables) (run : Run) (segment : RunSegment)
    (proposal : ChangeProposal) (now : Timestamp) : Except Fault Bool :=
  match proposal.inlineOwner with
  | none => .ok false
  | some owner =>
    if owner.phase = .detached then .ok false
    else do
      let lost := effectLeaseInvalid "Inline parent authority is unavailable"
      let parent ← orFault lost
        (tables.attempts.find? fun attempt => attempt.id = proposal.runAttemptId)
      require (parent.runId = run.id ∧ parent.runSegmentId = some segment.id ∧
        run.status = .running ∧ segment.status = .running ∧ parent.status = .running ∧
        (owner.phase = .active → parent.inlineProposalId = some proposal.id) ∧
        (owner.phase = .delivered →
          parent.inlineProposalId = none ∨ parent.inlineProposalId = some proposal.id) ∧
        owner.leaseHash ≠ "" ∧ parent.leaseTokenHash = some owner.leaseHash ∧
        ∃ expiry ∈ parent.leaseExpiresAt, now < expiry) lost
      return true

def stopRunForUnknownEffect (tables : RunTables) (run : Run) (segment : RunSegment)
    (effect : EffectExecution) (cancelled : Bool) (now : Timestamp) : Except Fault RunTables :=
  tables.stop run .waitingForApproval (if cancelled then .cancelled else .failed) segment
    (some { code := unknownEffectCode, retryable := false, effectExecutionId := some effect.id })
    [.effectFailed] now

def nextEffectSegment (run : Run) (segment : RunSegment) (proposal : ChangeProposal)
    (id triggerRef : Uuid) (triggerType : RunSegmentTrigger := .approvalResponse) : RunSegment :=
  nextSegment run segment id triggerType triggerRef proposal.continuationMode
    proposal.agentSessionId

/-- `_finish_effect_continuation`: the execution has its outcome in `effect`. -/
def finishEffectContinuation (tables : RunTables) (run : Run) (segment : RunSegment)
    (proposal : ChangeProposal) (effect : EffectExecution) (failure : Option EffectFailure)
    (segmentId : Uuid) (now : Timestamp) : Except Fault RunTables :=
  let eventType := if failure = none then AgentEventType.effectApplied else .effectFailed
  let cancelled := isCancellationRequested tables
  if failure ≠ none ∧ effectRequiresReconciliation effect.error ∧
      (cancelled = true ∨ ∀ reported ∈ failure, reported.retryable = false) then
    stopRunForUnknownEffect tables run segment effect cancelled now
  else if cancelled = true then
    tables.stop run .waitingForApproval .cancelled segment none [eventType] now
  else if ∃ reported ∈ failure, reported.retryable = true then
    -- another try of the same execution: the segment keeps waiting
    let again := { effect with status := .requested, workerId := none }
    let tables := (tables.putEffect again).putProposal { proposal with status := .approved }
    .ok ((tables.publish run.id run.status
      (eventsFrom none (nextSequence tables) [.agent .effectFailed])).dispatchEffect again)
  else
    tables.requeue run .waitingForApproval segment
      (nextEffectSegment run segment proposal segmentId effect.id)
      [.segmentCompleted, eventType] "effect_completed" now

def failToolCall (tables : RunTables) (effect : EffectExecution) : RunTables :=
  match effect.toolCallId.bind fun id => tables.toolCalls.find? fun call => call.id = id with
  | none => tables
  | some toolCall => tables.putToolCall { toolCall with status := .failed }

/-- `_close_effect_before_provider`: the provider may not be called any more. -/
def closeEffectBeforeProvider (tables : RunTables) (run : Run) (segment : RunSegment)
    (proposal : ChangeProposal) (effect : EffectExecution) (status : EffectExecutionStatus)
    (code : String) (segmentId : Uuid) (now : Timestamp) : Except Fault RunTables := do
  require (status = .stale ∨ status = .failed)
    ⟨.valueError, "Pre-provider effect outcome must be STALE or FAILED"⟩
  let closed := { effect with
    status := status
    error := some (effectFailureRecord proposal.capability effect.provider effect.attemptNo code
      false effect.error)
    workerId := none
    leaseTokenHash := none
    leaseExpiresAt := none }
  let proposal := { proposal with status := if status = .stale then .stale else .failed }
  let tables := failToolCall ((tables.putEffect closed).putProposal proposal) closed
  if proposal.activeInline = true then return tables
  else
    let cancelled := isCancellationRequested tables
    if effectRequiresReconciliation closed.error then
      stopRunForUnknownEffect tables run segment closed cancelled now
    else if cancelled = true then
      tables.stop run .waitingForApproval .cancelled segment none [.effectFailed] now
    else
      tables.requeue run .waitingForApproval segment
        (nextEffectSegment run segment proposal segmentId closed.id)
        [.effectFailed, .segmentCompleted] "effect_failed_before_provider" now

/-- The refs of an applied execution are stored, and its evidence is the original one.  The
evidence is read from another table, so that the outcome of that check is given. -/
def requireReceipt (effect : EffectExecution) (evidence : Except Fault Unit) :
    Except Fault Unit := do
  require (effect.beforeRef ≠ none ∧ effect.afterRef ≠ none)
    (effectLeaseInvalid "Inline receipt references are unavailable")
  evidence

/-- The session that proposed waits with its turn. -/
def idleSession (tables : RunTables) (sessionId : Uuid) : RunTables :=
  match tables.sessions.find? fun session => session.id = sessionId with
  | none => tables
  | some session => tables.putSession { session with status := .idle }

/-- `detach_inline_effect`: the turn that waits for the effect ends, and the effect goes on
outside of it. -/
def detachInlineEffect (tables : RunTables) (run : Run) (segment : RunSegment)
    (attempt : RunAttempt) (proposal : ChangeProposal) (evidence : Except Fault Unit)
    (segmentId : Uuid) (now : Timestamp) : Except Fault RunTables := do
  require (proposal.runId = run.id ∧ proposal.runSegmentId = segment.id ∧
      proposal.runAttemptId = attempt.id ∧ proposal.activeInline = true)
    (effectLeaseInvalid "Inline detach identity changed")
  let waiting ← run.transitTo run.status .waitingForApproval run.error now
  let segment := { segment with status := .waiting }
  let proposal := proposal.withPhase .detached
  let tables := (((tables.putRun waiting).putSegment segment).putAttempt
    { attempt.deferred now with inlineProposalId := none }).putProposal proposal
  let tables := idleSession tables proposal.agentSessionId
  let effect ← orFault (effectLeaseInvalid "Inline effect is missing")
    (tables.effects.find? fun effect => effect.proposalId = proposal.id)
  if effect.status.finished = false then
    return tables.dispatchEffect effect
  else if effect.status = .applied then do
    requireReceipt effect evidence
    finishEffectContinuation tables waiting segment proposal effect none segmentId now
  else
    let failure : EffectFailure :=
      { status := effect.status
        code := (effect.error.map EffectError.code).getD unknownEffectCode
        retryable := (effect.error.map EffectError.retryable).getD false }
    finishEffectContinuation tables waiting segment proposal effect (some failure) segmentId now

section Store

variable (leaseTokenHash : String → String)

/-- `inline_receipt`: the receipt of the applied effect is handed to the turn that waits for
it, and the turn is free for another one. -/
def inlineReceipt (tables : RunTables) (claimed : ClaimedRun) (proposalId : Uuid)
    (evidence : Except Fault Unit) (now : Timestamp) :
    Except Fault (Option EffectExecution × RunTables) := do
  let (run, owned, attempt) ← lockClaimedExecution tables claimed
  validateClaimedLease leaseTokenHash attempt claimed now
  rejectCancelledExecution tables
  let changed := effectLeaseInvalid "Inline proposal identity changed"
  let proposal ← orFault changed
    (tables.proposals.find? fun proposal => proposal.id = proposalId)
  let segment ← orFault changed owned
  require (proposal.runId = run.id ∧ proposal.runAttemptId = attempt.id) changed
  let active ← inlineParentActive tables run segment proposal now
  require (active = true) changed
  match tables.effects.find? fun effect => effect.proposalId = proposal.id with
  | none => return (none, tables)
  | some effect =>
    if effect.status ≠ .applied then return (none, tables)
    else do
      requireReceipt effect evidence
      return (some effect, (tables.putProposal (proposal.withPhase .delivered)).putAttempt
        { attempt with inlineProposalId := none })

/-- `suspend_inline_effect`: the turn was stopped on purpose while it waited.  Whether the
event belongs to the original request is checked against contents the model leaves out, so
that the outcome is given. -/
def suspendInlineEffect (tables : RunTables) (claimed : ClaimedRun) (event : AgentEvent)
    (proposalId : Uuid) (original : Except Fault Unit) (evidence : Except Fault Unit)
    (segmentId : Uuid) (now : Timestamp) : Except Fault (Uuid × RunTables) := do
  let (run, owned, attempt) ← lockClaimedExecution tables claimed
  validateClaimedLease leaseTokenHash attempt claimed now
  validateAgentEvent event claimed
  let different : Fault := ⟨.valueError, "Inline continuation differs from original request"⟩
  let proposal ← orFault different
    (tables.proposals.find? fun proposal => proposal.id = proposalId)
  let segment ← orFault different owned
  let session ← orFault different
    (tables.sessions.find? fun session => session.id = proposal.agentSessionId)
  require (session.runId = claimed.runId ∧ session.runAttemptId = claimed.runAttemptId ∧
    session.sdkSessionId = some event.agentSessionId) different
  original
  let tables ←
    detachInlineEffect tables run segment attempt proposal evidence segmentId now
  return (proposal.id, tables)

end Store

end SkillMind.Runs
