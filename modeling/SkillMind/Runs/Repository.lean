import SkillMind.Runs.RepositoryExecutions
import SkillMind.Runs.RepositoryInteractions

/-!
# The life of a Run

The transactions that carry a Run from its creation to its end: a worker claims it, prepares
and executes it under a lease, appends what the engine reports and finalizes the outcome; a
user may ask to cancel it at any time; leases that run out are recovered.

A cancellation of a Run that is being executed, or whose effect is being applied, is only
recorded; whoever holds the Run finds the record and ends it.  Every other Run is cancelled at
once, together with what waits for it.
-/

namespace SkillMind.Runs

open Library Effects

def leaseFault (message : String) : Fault := ⟨.leaseValidationError, message⟩

def modelCapacityCode : String := "model_capacity_unavailable"

structure CreateRunCommand where
  projectId : Uuid
  actorId : Option Uuid
  limits : LimitsSnapshot
  creationIntent : Option CreationIntent

/-- `create_idempotent` for the request that wins the insert.  The replay of a stored request
writes nothing and is left out. -/
def createIdempotent (tables : RunTables) (command : CreateRunCommand) (runId segmentId : Uuid) :
    Except Fault (Uuid × RunTables) := do
  require (tables.run = none)
    ⟨.integrityError, "duplicate key value violates unique constraint"⟩
  let run : Run :=
    { id := runId
      projectId := command.projectId
      status := .queued
      rowVersion := 1
      startedAt := none
      finishedAt := none
      error := none
      actorId := command.actorId
      limits := command.limits
      creationIntent := command.creationIntent }
  let tables ← (tables.putRun run).addSegment
    { id := segmentId
      runId := runId
      segmentNo := 1
      triggerType := .initial
      triggerRef := none
      status := .created
      continuationMode := .initial
      parentAgentSessionId := none
      startedAt := none
      finishedAt := none }
  let created : RunEvent := ⟨none, 1, .runSnapshot .queued 1⟩
  return (runId, { tables with events := tables.events ++ [created] }.dispatchRun runId none)

def transition (tables : RunTables) (runId : Uuid) (target : RunStatus)
    (expectedRowVersion : Nat) (error : Option ErrorRecord) (attemptId : Option Uuid)
    (now : Timestamp) : Except Fault RunTables := do
  let run ← orFault ⟨.runNotFoundError, s!"Run not found: {runId}"⟩ (lockRunRow tables runId)
  require (run.rowVersion = expectedRowVersion)
    ⟨.concurrentRunUpdateError, s!"Run row version changed: expected={expectedRowVersion}, " ++
      s!"actual={run.rowVersion}"⟩
  let moved ← run.transitTo run.status target error now
  return (tables.putRun moved).publish run.id target
    (eventsFrom attemptId (nextSequence tables) [.runSnapshot target moved.rowVersion])

inductive RunCancellationState where
  | requested
  | cancelled
  deriving DecidableEq

/-- The execution that is being applied while the Run waits for it. -/
def activeEffect (tables : RunTables) (run : Run) : Option EffectExecution :=
  if run.status = .waitingForApproval then
    tables.effects.reverse.find? fun effect => effect.status ∈ [.leased, .applying]
  else none

def recordCancellation (tables : RunTables) (run : Run) (effect : Option EffectExecution) :
    RunTables :=
  if isCancellationRequested tables = true then tables
  else
    let active := (tables.attempts.filter fun attempt => attempt.status.active).argmax
      RunAttempt.attemptNo
    let attemptId :=
      match active with
      | some attempt => some attempt.id
      | none => do
        let effect ← effect
        let proposal ← tables.proposals.find? fun proposal => proposal.id = effect.proposalId
        some proposal.runAttemptId
    tables.publish run.id run.status
      (eventsFrom attemptId (nextSequence tables) [.runCancelRequested run.status])

def runCancelledError : EffectError := { code := "run_cancelled", retryable := false }

/-- What waits for the Run is closed with it: the deferred attempt, the open questions and the
requested executions with their proposals. -/
def closeWaiting (tables : RunTables) (segment : Option RunSegment) (now : Timestamp) :
    RunTables :=
  let deferred := (tables.attempts.filter fun attempt =>
    (segment = none ∨ attempt.runSegmentId = segment.map RunSegment.id) ∧
      attempt.status = .deferred).argmax RunAttempt.attemptNo
  let requested := tables.effects.filter fun effect => effect.status = .requested
  { tables with
    attempts :=
      match deferred with
      | none => tables.attempts
      | some attempt => replaceRow RunAttempt.id
          { attempt with status := .cancelled, finishedAt := some now } tables.attempts
    interactions := tables.interactions.map fun interaction =>
      if interaction.status = .open then { interaction with status := .cancelled }
      else interaction
    effects := tables.effects.map fun effect =>
      if effect.status = .requested then
        { effect with status := .failed, error := some runCancelledError }
      else effect
    proposals := tables.proposals.map fun proposal =>
      if ∃ effect ∈ requested, effect.proposalId = proposal.id then
        { proposal with status := .failed }
      else proposal }

def requestCancellation (tables : RunTables) (runId : Uuid) (now : Timestamp) :
    Except Fault (RunCancellationState × RunTables) := do
  let run ← orFault ⟨.runNotFoundError, s!"Run not found: {runId}"⟩ (lockRunRow tables runId)
  if run.status = .cancelled then return (.cancelled, tables)
  else do
    require (run.status ∉ [.succeeded, .failed])
      ⟨.runNotCancellableError, s!"Terminal Run cannot be cancelled: {run.status.value}"⟩
    let effect := activeEffect tables run
    if run.status ∈ [.preparing, .running] ∨ effect ≠ none then
      return (.requested, recordCancellation tables run effect)
    else do
      let cancelled ← run.transitTo run.status .cancelled none now
      let segment := latestSegment tables
      let tables := tables.putRun cancelled
      let tables :=
        match segment with
        | none => tables
        | some segment => tables.putSegment (segment.closed .cancelled now)
      let tables :=
        if run.status ∈ [.waitingPermission, .waitingForInput, .waitingForApproval] then
          closeWaiting tables segment now
        else tables
      return (.cancelled, tables.publish run.id .cancelled
        (eventsFrom none (nextSequence tables) [.runSnapshot .cancelled cancelled.rowVersion]))

section Store

variable (leaseTokenHash : String → String)

/-! ## Claiming -/

/-- `capacity_retry_at`: until when a Run waits for model capacity. -/
def capacityRetryAt : Option ErrorRecord → Except Fault (Option Timestamp)
  | none => .ok none
  | some error =>
    if error.code ≠ modelCapacityCode ∨ error.retryable = false then .ok none
    else do
      let deadline ← orFault ⟨.valueError, "Capacity retry deadline is missing"⟩ error.retryAt
      return some deadline

def retryDeadline (run : Run) : Except Fault (Option Timestamp) :=
  if run.status = .retryPending then capacityRetryAt run.error else .ok none

structure ClaimRequest where
  runId : Uuid
  workerId : String
  leaseToken : String
  leaseExpiresAt : Timestamp
  maxAttempts : Nat
  expectedPrevious : Option ClaimedRun

/-- The effect that opened a segment, with its proposal and approval and the session the
segment continues. -/
def openingEffect (tables : RunTables) (segment : RunSegment) :
    Option (AgentSession × EffectExecution × ChangeProposal × ChangeApproval) := do
  let parentId ← segment.parentAgentSessionId
  let effectId ← segment.triggerRef
  let parent ← tables.sessions.find? fun session : AgentSession => session.id = parentId
  let effect ← tables.effects.find? fun effect : EffectExecution => effect.id = effectId
  let proposal ←
    tables.proposals.find? fun proposal : ChangeProposal => proposal.id = effect.proposalId
  let approval ←
    tables.approvals.find? fun approval : ChangeApproval => approval.id = effect.approvalId
  return (parent, effect, proposal, approval)

/-- The queued segment continues the applied and automatically approved effect of the attempt
the worker held before. -/
def continuesPrevious (tables : RunTables) (run : Run) (segment : RunSegment)
    (previous : ClaimedRun) : Prop :=
  run.status = .queued ∧ previous.runId = run.id ∧ previous.projectId = run.projectId ∧
    segment.segmentNo = previous.segmentNo + 1 ∧ segment.continuationMode = .resume ∧
    segment.triggerType = .approvalResponse ∧ run.actorId = some previous.actorId ∧
    ∃ opening ∈ openingEffect tables segment,
      let (parent, effect, proposal, approval) := opening
      parent.runId = run.id ∧ parent.runAttemptId = previous.runAttemptId ∧
        parent.runSegmentId = previous.runSegmentId ∧ effect.runId = run.id ∧
        effect.status = .applied ∧ effect.error = none ∧ proposal.runId = run.id ∧
        proposal.projectId = run.projectId ∧ proposal.runAttemptId = previous.runAttemptId ∧
        some proposal.runSegmentId = previous.runSegmentId ∧
        proposal.agentSessionId = parent.id ∧ proposal.status = .applied ∧
        approval.runId = run.id ∧ approval.covers proposal ∧
        approval.source ∈ [.runStart, .preauthorization]

instance (tables : RunTables) (run : Run) (segment : RunSegment) (previous : ClaimedRun) :
    Decidable (continuesPrevious tables run segment previous) :=
  inferInstanceAs (Decidable (_ ∧ _ ∧ _ ∧ _ ∧ _ ∧ _ ∧ _ ∧ ∃ opening ∈ openingEffect _ _, _))

def exhaustRetries (tables : RunTables) (run : Run) (segment : RunSegment)
    (attemptNo maxAttempts : Nat) (now : Timestamp) : Except Fault RunTables :=
  tables.stop run run.status .failed segment
    (some { code := "retry_exhausted", retryable := false, attempts := some (attemptNo - 1),
            maxAttempts := some maxAttempts }) [] now

/-- The session the new attempt continues: the one the segment names, or, after a wait for
model capacity, the failed one of the attempt before. -/
def parentSession (tables : RunTables) (run : Run) (segment : RunSegment) (attemptNo : Nat)
    (retryAt : Option Timestamp) : Except Fault (Option AgentSession) := do
  let named ← match segment.parentAgentSessionId with
    | none => pure none
    | some parentId => do
      let parent ← orFault (leaseFault "RunSegment parent AgentSession is invalid")
        (tables.sessions.find? fun session => session.id = parentId ∧ session.runId = run.id)
      pure (some parent)
  match retryAt with
  | none => return named
  | some _ => do
    let original ← orFault (leaseFault "Capacity retry lost its original AgentSession")
      (tables.sessions.find? fun session =>
        session.sessionKind = .primary ∧ session.status = .failed ∧ session.runId = run.id ∧
          tables.attempts.any fun attempt =>
            attempt.id = session.runAttemptId ∧ attempt.runSegmentId = some segment.id ∧
              attempt.attemptNo + 1 = attemptNo ∧ attempt.status = .failed)
    return some original

def nextAttemptNo (tables : RunTables) (segment : RunSegment) : Nat :=
  ((tables.attempts.filter fun attempt => attempt.runSegmentId = some segment.id).map
    RunAttempt.attemptNo).foldr max 0 + 1

/-- The part of `claim_for_execution` that hands the Run to the worker. -/
def leaseRun (tables : RunTables) (run : Run) (segment : RunSegment) (attemptNo : Nat)
    (request : ClaimRequest) (retryAt : Option Timestamp) (brief : Except Fault Unit)
    (attemptId : Uuid) (now : Timestamp) : Except Fault (ClaimedRun × RunTables) := do
  let preparing ← run.transitTo run.status .preparing none now
  let running := { segment with
    status := .running, startedAt := segment.startedAt <|> some now }
  let started :=
    if segment.status = .created then [RunEventBody.agent .segmentStarted] else []
  let tables ← ((tables.putRun preparing).putSegment running).addAttempt
    { id := attemptId
      inlineProposalId := none
      runId := run.id
      runSegmentId := some segment.id
      attemptNo := attemptNo
      status := .leased
      workerId := some request.workerId
      leaseTokenHash := some (leaseTokenHash request.leaseToken)
      leaseExpiresAt := some request.leaseExpiresAt
      finishedAt := none
      error := none }
  let parent ← parentSession tables run segment attemptNo retryAt
  brief
  let actor ← orFault ⟨.lookupError, "actor_id"⟩ run.actorId
  return ({
      runId := run.id
      runAttemptId := attemptId
      projectId := run.projectId
      actorId := actor
      attemptNo := attemptNo
      leaseToken := request.leaseToken
      leaseExpiresAt := request.leaseExpiresAt
      rowVersion := preparing.rowVersion
      runSegmentId := some segment.id
      segmentNo := segment.segmentNo
      continuationMode := if retryAt = none then segment.continuationMode else .resume
      parentAgentSessionId := parent.map AgentSession.id
      parentSdkSessionId := parent.bind AgentSession.sdkSessionId
      parentRunAttemptId := parent.map AgentSession.runAttemptId },
    tables.publish run.id .preparing (eventsFrom (some attemptId) (nextSequence tables)
      (started ++ [.runSnapshot .preparing preparing.rowVersion])))

/-- `claim_for_execution`.  The frozen brief of the segment lives in another table, so that the
outcome of its check is given. -/
def claimForExecution (tables : RunTables) (request : ClaimRequest) (brief : Except Fault Unit)
    (attemptId : Uuid) (now : Timestamp) : Except Fault (Option ClaimedRun × RunTables) := do
  let run ← orFault ⟨.runNotFoundError, s!"Run not found: {request.runId}"⟩
    (lockRunRow tables request.runId)
  if run.status ∉ [.queued, .retryPending] then return (none, tables)
  else do
    let retryAt ← retryDeadline run
    if ∃ deadline ∈ retryAt, now < deadline then return (none, tables)
    else do
      let segment ← orFault (leaseFault "Queued Run has no explicit RunSegment")
        (latestSegment tables)
      if segment.status ∉ [.created, .running] then return (none, tables)
      else if ∃ previous ∈ request.expectedPrevious,
          ¬ continuesPrevious tables run segment previous then
        return (none, tables)
      else if ∃ attempt ∈ tables.attempts, attempt.runSegmentId = some segment.id ∧
          attempt.status ∈ [.created, .leased, .running, .deferred] then
        return (none, tables)
      else do
        let attemptNo := nextAttemptNo tables segment
        if request.maxAttempts < attemptNo then
          return (none,
            ← exhaustRetries tables run segment attemptNo request.maxAttempts now)
        else do
          let (claimed, tables) ← leaseRun leaseTokenHash tables run segment attemptNo request
            retryAt brief attemptId now
          return (some claimed, tables)

structure PreparedExecution where
  rowVersion : Nat
  nextSequence : Nat
  deriving DecidableEq

def prepareExecution (tables : RunTables) (claimed : ClaimedRun) (now : Timestamp) :
    Except Fault (PreparedExecution × RunTables) := do
  let (run, segment, attempt) ← lockClaimedExecution tables claimed
  validateClaimedLease leaseTokenHash attempt claimed now
  require (run.status = .preparing) (leaseFault s!"Run is not preparing: {run.status.value}")
  require (run.rowVersion = claimed.rowVersion)
    ⟨.concurrentRunUpdateError, s!"Run row version changed before execution: {run.rowVersion}"⟩
  let running ← run.transitTo .preparing .running run.error now
  let sequence := nextSequence tables
  let tables := (tables.putRun running).putAttempt { attempt with status := .running }
  let tables :=
    match segment with
    | none => tables
    | some segment => tables.putSegment
        { segment with status := .running, startedAt := segment.startedAt <|> some now }
  return (⟨running.rowVersion, sequence + 1⟩, tables.publish run.id .running
    (eventsFrom (some attempt.id) sequence [.runSnapshot .running running.rowVersion]))

def appendAgentEvent (tables : RunTables) (claimed : ClaimedRun) (event : AgentEvent)
    (kind : AgentSessionKind) (sessionId : Uuid) (now : Timestamp) :
    Except Fault RunTables := do
  require (event.eventType ≠ .textDelta) ⟨.valueError, "Text delta must not be persisted"⟩
  let (run, _, attempt) ← lockClaimedExecution tables claimed
  validateClaimedLease leaseTokenHash attempt claimed now
  require (run.status = .running) (leaseFault s!"Run is not running: {run.status.value}")
  validateAgentEvent event claimed
  rejectCancelledExecution tables
  require (nextSequence tables ≤ event.sequence)
    ⟨.concurrentRunUpdateError, "Agent event sequence is not monotonic"⟩
  let (_, tables) ← ensureAgentSession tables claimed event.agentSessionId kind sessionId
  return tables.publish run.id run.status
    [⟨some event.runAttemptId, event.sequence, .agent event.eventType⟩]

def lockAttemptSegment (tables : RunTables) (run : Run) (attempt : RunAttempt) :
    Except Fault (Option RunSegment) :=
  match attempt.runSegmentId with
  | none => .ok none
  | some segmentId => do
    let segment ← orFault (leaseFault s!"RunSegment not found: {segmentId}")
      (lockSegmentRow tables segmentId run.id)
    return some segment

/-- `heartbeat_attempt`: the lease is extended from the clock read under the lock. -/
def heartbeatAttempt (tables : RunTables) (attemptId : Uuid) (tokenHash : String)
    (extension now : Timestamp) : Except Fault RunTables := do
  let missing := leaseFault s!"RunAttempt not found: {attemptId}"
  let attempt ← orFault missing
    (tables.attempts.find? fun attempt => attempt.id = attemptId)
  let run ← orFault ⟨.runNotFoundError, s!"Run not found: {attempt.runId}"⟩
    (lockRunRow tables attempt.runId)
  let _ ← lockAttemptSegment tables run attempt
  require (attempt.leaseTokenHash.getD "" = tokenHash)
    (leaseFault "RunAttempt lease token does not match")
  require (attempt.status.active)
    (leaseFault s!"RunAttempt is not active: {attempt.status.value}")
  require (∃ expiry ∈ attempt.leaseExpiresAt, now < expiry)
    (leaseFault "RunAttempt lease has expired")
  return tables.putAttempt { attempt with leaseExpiresAt := some (now + extension) }

def sessionStatusFor : RunStatus → AgentSessionStatus
  | .succeeded => .closed
  | .cancelled => .interrupted
  | .waitingPermission | .waitingForInput | .waitingForApproval => .idle
  | _ => .failed

def RunSegment.finalized (segment : RunSegment) (target : RunStatus) (now : Timestamp) :
    RunSegment :=
  { segment with
    status :=
      match target with
      | .succeeded => .completed
      | .cancelled => .cancelled
      | .waitingPermission | .waitingForInput | .waitingForApproval => .waiting
      | .retryPending => segment.status
      | _ => .failed
    finishedAt :=
      if target ∈ [.retryPending, .waitingPermission, .waitingForInput, .waitingForApproval] then
        segment.finishedAt
      else some now }

/-- What the executor reports when it is done with the Run. -/
structure ExecutionReport where
  target : RunStatus
  attemptStatus : RunAttemptStatus
  event : Option AgentEvent
  session : Option AgentSessionKind
  hasResult : Bool
  error : Option ErrorRecord
  retryDelaySeconds : Option Nat

/-- The error stored with the outcome; a retry needs a confirmed shortage of model capacity and
gets its deadline. -/
def reportedError (report : ExecutionReport) (segment : Option RunSegment) (now : Timestamp) :
    Except Fault (Option ErrorRecord) :=
  if report.target = .retryPending then do
    let unconfirmed : Fault :=
      ⟨.valueError, "Retry requires a confirmed capacity failure and original session"⟩
    let event ← orFault unconfirmed report.event
    let error ← orFault unconfirmed report.error
    let delay ← orFault unconfirmed report.retryDelaySeconds
    require (segment ≠ none ∧ report.session ≠ none ∧ event.eventType = .engineFailed ∧
      event.code = some modelCapacityCode ∧ event.retryable = some true ∧
      error.code = modelCapacityCode ∧ report.attemptStatus = .failed ∧ delay ∈ [15, 30])
      unconfirmed
    return some { error with retryable := true, retryAt := some (now + delay) }
  else do
    require (report.retryDelaySeconds = none)
      ⟨.valueError, "Retry delay requires RETRY_PENDING"⟩
    return report.error

/-- The last event of the turn with the session it belongs to, and where its numbers begin.
After a cancellation the event is renumbered and says that the user interrupted the turn. -/
def terminalEvent (tables : RunTables) (claimed : ClaimedRun) (event : Option AgentEvent)
    (session : Option AgentSessionKind) (target : RunStatus) (cancelled : Bool)
    (sessionId : Uuid) :
    Except Fault (Option AgentSession × Nat × List RunEventBody × RunTables) :=
  match event with
  | some event => do
    let (sequence, eventType) :=
      if cancelled = true then
        (max (nextSequence tables) event.sequence, AgentEventType.sessionInterrupted)
      else (event.sequence, event.eventType)
    require (nextSequence tables ≤ sequence)
      ⟨.concurrentRunUpdateError, "Terminal Agent event sequence is not monotonic"⟩
    let kind ← orFault ⟨.valueError, "Agent event requires session metadata"⟩ session
    let (session, tables) ←
      ensureAgentSession tables claimed event.agentSessionId kind sessionId
    return (some session, sequence, [.agent eventType],
      tables.putSession { session with status := sessionStatusFor target })
  | none =>
    match findPrimaryAgentSession tables claimed with
    | none => return (none, nextSequence tables, [], tables)
    | some session =>
      return (some session, nextSequence tables, [],
        tables.putSession { session with status := sessionStatusFor target })

def validateReportedEvent (event : Option AgentEvent) (claimed : ClaimedRun) :
    Except Fault Unit :=
  match event with
  | none => .ok ()
  | some event => validateAgentEvent event claimed

/-- The part of `finalize_execution` that ends the attempt of a running Run. -/
def endAttempt (tables : RunTables) (claimed : ClaimedRun) (run : Run)
    (segment : Option RunSegment) (attempt : RunAttempt) (report : ExecutionReport)
    (sessionId : Uuid) (now : Timestamp) : Except Fault (RunStatus × RunTables) := do
  require (report.target = .succeeded → report.hasResult = true)
    ⟨.valueError, "Successful Run requires a validated Result"⟩
  require (report.hasResult = true → report.target = .succeeded)
    ⟨.valueError, "Only a successful Run may persist a Result"⟩
  validateReportedEvent report.event claimed
  let error ← reportedError report segment now
  let cancelled := isCancellationRequested tables
  require (cancelled = true ∨ report.target ≠ .cancelled)
    ⟨.valueError, "Run cancellation requires a durable cancellation intent"⟩
  -- a cancellation that was recorded meanwhile wins
  let target := if cancelled = true then .cancelled else report.target
  let attemptStatus := if cancelled = true then .cancelled else report.attemptStatus
  let error := if cancelled = true then none else error
  let ended ← run.transitTo run.status target error now
  let (session, start, reported, tables) ←
    terminalEvent tables claimed report.event report.session target cancelled sessionId
  require (cancelled = true ∨ report.hasResult = false ∨ session ≠ none)
    ⟨.valueError, "Result requires an Agent session"⟩
  let tables := (tables.putRun ended).putAttempt
    { attempt with
      status := attemptStatus
      finishedAt := some now
      error := error
      leaseExpiresAt := none
      leaseTokenHash := none }
  let tables :=
    match segment with
    | none => tables
    | some segment => tables.putSegment (segment.finalized target now)
  let completed :=
    if target = .succeeded ∧ segment ≠ none then [RunEventBody.agent .segmentCompleted] else []
  let tables := tables.publish run.id target (eventsFrom (some attempt.id) start
    (reported ++ completed ++ [.runSnapshot target ended.rowVersion]))
  return (target,
    if target = .retryPending then tables.dispatchRun run.id none else tables)

def finalizeExecution (tables : RunTables) (claimed : ClaimedRun) (report : ExecutionReport)
    (evidence : Except Fault Unit) (sessionId segmentId : Uuid) (now : Timestamp) :
    Except Fault (RunStatus × RunTables) := do
  let (run, owned, attempt) ← lockClaimedExecution tables claimed
  validateClaimedLease leaseTokenHash attempt claimed now
  let pending ← pendingInlineProposal tables run.id attempt
  match pending, owned, decide (run.status = .running) with
  | some proposal, some segment, true => do
    let tables ←
      detachInlineEffect tables run segment attempt proposal evidence segmentId now
    return ((tables.run.map Run.status).getD run.status, tables)
  | _, _, false => do
    require (run.status = report.target ∧ attempt.status = report.attemptStatus)
      (leaseFault s!"Run cannot be finalized from {run.status.value}")
    return (run.status, tables)
  | _, _, true => endAttempt tables claimed run owned attempt report sessionId now

def closeAttemptSessions (tables : RunTables) (attemptId : Uuid) (status : AgentSessionStatus) :
    RunTables :=
  { tables with
    sessions := tables.sessions.map fun session =>
      if session.runAttemptId = attemptId ∧ session.status = .active then { session with status }
      else session }

def leaseExpiredError : ErrorRecord := { code := "lease_expired", retryable := true }

def retryLostLease (tables : RunTables) (run : Run) (segment : Option RunSegment)
    (attempt : RunAttempt) (now : Timestamp) : Except Fault RunTables := do
  let pending ← run.transitTo run.status .retryPending (some leaseExpiredError) now
  let tables := (tables.putRun pending).putAttempt
    { attempt with
      status := .leaseExpired, finishedAt := some now, error := some leaseExpiredError }
  let tables :=
    match segment with
    | none => tables
    | some segment => tables.putSegment { segment with status := .running }
  let tables := closeAttemptSessions tables attempt.id .failed
  return (tables.publish run.id .retryPending (eventsFrom (some attempt.id) (nextSequence tables)
    [.runSnapshot .retryPending pending.rowVersion])).dispatchRun run.id (some "lease_recovery")

def cancelLostLease (tables : RunTables) (run : Run) (segment : Option RunSegment)
    (attempt : RunAttempt) (now : Timestamp) : Except Fault RunTables := do
  let cancelled ← run.transitTo run.status .cancelled none now
  let tables := (tables.putRun cancelled).putAttempt
    { attempt with status := .cancelled, finishedAt := some now, error := none }
  let tables :=
    match segment with
    | none => tables
    | some segment => tables.putSegment (segment.closed .cancelled now)
  let tables := closeAttemptSessions tables attempt.id .interrupted
  return tables.publish run.id .cancelled (eventsFrom (some attempt.id) (nextSequence tables)
    [.runSnapshot .cancelled cancelled.rowVersion])

/-- What a recovery draws and reads for one candidate. -/
structure AttemptRecovery where
  candidate : RunAttempt
  segmentId : Uuid
  evidence : Except Fault Unit

/-- One candidate of `recover_expired_attempts`. -/
def recoverAttempt (now : Timestamp) (tables : RunTables) (recovery : AttemptRecovery) :
    Except Fault (Bool × RunTables) := do
  let candidate := recovery.candidate
  let run ← orFault ⟨.runNotFoundError, s!"Run not found for Attempt: {candidate.runId}"⟩
    (lockRunRow tables candidate.runId)
  let owned ← lockAttemptSegment tables run candidate
  match tables.attempts.find? fun attempt => attempt.id = candidate.id with
  | none => return (false, tables)
  | some attempt =>
    if attempt.status.active = false ∨ ¬ ∃ expiry ∈ attempt.leaseExpiresAt, expiry ≤ now then
      return (false, tables)
    else if run.status ∉ [.preparing, .running] then
      -- the Run has ended without this attempt and is not opened again
      return (false, closeAttemptSessions (tables.putAttempt
        { attempt with status := .leaseExpired, finishedAt := some now }) attempt.id .failed)
    else do
      let pending ← pendingInlineProposal tables run.id attempt
      match pending, owned, decide (run.status = .running) with
      | some proposal, some segment, true =>
        return (true, ← detachInlineEffect tables run segment attempt proposal
          recovery.evidence recovery.segmentId now)
      | _, _, _ =>
        if isCancellationRequested tables = true then
          return (true, ← cancelLostLease tables run owned attempt now)
        else return (true, ← retryLostLease tables run owned attempt now)

/-- The candidates of one recovery, with what it draws and reads for each. -/
def attemptRecoveries (tables : RunTables) (limit : Nat)
    (drawn : List (Uuid × Except Fault Unit)) (now : Timestamp) : List AttemptRecovery :=
  let candidates := dueFirst (fun attempt => attempt.leaseExpiresAt.getD 0) RunAttempt.id limit
    (tables.attempts.filter fun attempt =>
      attempt.status.active = true ∧ ∃ expiry ∈ attempt.leaseExpiresAt, expiry ≤ now)
  List.zipWith (fun candidate (id, evidence) => ⟨candidate, id, evidence⟩) candidates drawn

def recoverExpiredAttempts (tables : RunTables) (limit : Nat)
    (drawn : List (Uuid × Except Fault Unit)) (now : Timestamp) :
    Except Fault (Nat × RunTables) :=
  recoverAll (recoverAttempt now) (attemptRecoveries tables limit drawn now) tables

end Store

end SkillMind.Runs
