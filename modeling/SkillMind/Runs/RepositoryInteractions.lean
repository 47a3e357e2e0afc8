import SkillMind.Runs.Publishing

/-!
# Questions to the user

The Agent asks the user a question and gives its lease back; the Run waits until the question
is answered or expires, and continues in a new segment.  No answer is ever assumed: a question
that expires is closed as such.

An answer that arrives after the expiry closes the question and is committed, although the caller
is told that it was too late; the answer of the transaction says so.
-/

namespace SkillMind.Runs

open Library Effects

/-- `ORDINARY_INTERACTION_TYPES`. -/
def UserInteractionType.ordinary (interactionType : UserInteractionType) : Bool :=
  interactionType ∈ [.clarification, .choice, .review]

def invalidResponse (message : String) : Fault := ⟨.interactionResponseInvalidError, message⟩

def interactionConflict (message : String) : Fault := ⟨.interactionConflictError, message⟩

def requireOrdinaryInteraction (interactionType : UserInteractionType) : Except Fault Unit :=
  require (interactionType.ordinary = true)
    (invalidResponse "Effect approval requires the approval endpoint")

def validateInteractionOptionKeys (keys : List String) : Except Fault Unit :=
  require keys.Nodup (invalidResponse "Interaction option keys must be unique strings")

def validateInteractionVersion (version : Int) : Except Fault Unit :=
  require (1 ≤ version) (invalidResponse "Interaction version must be a positive integer")

/-- The question of the Agent, after its schema was checked. -/
structure InteractionRequestDraft where
  interactionType : UserInteractionType
  allowMultiple : Bool
  optionKeys : List String
  required : Bool
  expiresAt : Timestamp
  continuationMode : SessionContinuationMode

section Store

variable (leaseTokenHash : String → String)

/-- `suspend_for_interaction`.  The check of the references in the checkpoint reads other
tables, so that its outcome is given; the second clock is read after it. -/
def suspendForInteraction (tables : RunTables) (claimed : ClaimedRun) (event : AgentEvent)
    (kind : AgentSessionKind) (request : InteractionRequestDraft)
    (checkpointRefs : Except Fault Unit) (sessionId interactionId : Uuid)
    (now later : Timestamp) : Except Fault (Uuid × RunTables) := do
  let (run, owned, attempt) ← lockClaimedExecution tables claimed
  let segment ← orFault
    ⟨.leaseValidationError, "UserInteraction requires an explicit RunSegment"⟩ owned
  validateClaimedLease leaseTokenHash attempt claimed now
  require (run.status = .running)
    ⟨.leaseValidationError, s!"Run cannot request interaction from {run.status.value}"⟩
  validateAgentEvent event claimed
  require (event.eventType = .interactionRequested)
    ⟨.valueError, "Interaction suspension requires INTERACTION_REQUESTED"⟩
  requireOrdinaryInteraction request.interactionType
  validateInteractionOptionKeys request.optionKeys
  rejectCancelledExecution tables
  require (nextSequence tables ≤ event.sequence)
    ⟨.concurrentRunUpdateError, "Interaction event sequence is not monotonic"⟩
  require (∀ interaction ∈ tables.interactions, interaction.status ≠ .open)
    (interactionConflict "Run already has an open interaction")
  checkpointRefs
  validateClaimedLease leaseTokenHash attempt claimed later
  let (session, tables) ←
    ensureAgentSession tables claimed event.agentSessionId kind sessionId
  let tables ← (tables.putSession { session with status := .idle }).addInteraction
    { id := interactionId
      runId := run.id
      runSegmentId := segment.id
      agentSessionId := session.id
      interactionType := request.interactionType
      allowMultiple := request.allowMultiple
      optionKeys := request.optionKeys
      required := request.required
      expiresAt := request.expiresAt
      status := .open
      version := 1
      continuationMode := request.continuationMode
      changeProposalId := none }
  let waiting ← run.transitTo .running .waitingForInput none now
  let tables := ((tables.putRun waiting).putSegment { segment with status := .waiting }).putAttempt
    (attempt.deferred now)
  return (interactionId, tables.publish run.id .waitingForInput
    (eventsFrom (some attempt.id) event.sequence
      [.agent .interactionRequested, .agent .checkpointCreated,
        .runSnapshot .waitingForInput waiting.rowVersion]))

/-- `_expire_pending_interaction`.  A Run that has moved on is not opened again. -/
def expirePendingInteraction (tables : RunTables) (run : Run) (segment : RunSegment)
    (interaction : UserInteraction) (segmentId : Uuid) (now : Timestamp) :
    Except Fault RunTables := do
  require (interaction.interactionType.ordinary = true)
    (interactionConflict "Effect approval expiry requires the ChangeProposal recovery path")
  require (interaction.status = .open ∧ interaction.expiresAt ≤ now)
    (interactionConflict "Interaction is not awaiting expiry")
  let tables := tables.putInteraction
    { interaction with status := .expired, version := interaction.version + 1 }
  if run.status ≠ .waitingForInput ∨ segment.status ≠ .waiting then
    return tables
  else
    let next := nextSegment run segment segmentId .interactionTimeout interaction.id
      interaction.continuationMode interaction.agentSessionId
    tables.requeue run .waitingForInput segment next [.segmentCompleted, .interactionExpired]
      "interaction_expired" now

def lockInteractionRow (tables : RunTables) (interactionId runId segmentId : Uuid) :
    Except Fault UserInteraction :=
  orFault ⟨.interactionNotFoundError, s!"Interaction not found: {interactionId}"⟩
    (tables.interactions.find? fun interaction =>
      interaction.id = interactionId ∧ interaction.runId = runId ∧
        interaction.runSegmentId = segmentId)

/-- One candidate of `recover_expired_interactions`, with the identifier drawn for the
segment it may open and the clock read under the lock. -/
def recoverInteraction (lockedNow : Timestamp) (tables : RunTables)
    (candidate : UserInteraction × Uuid) : Except Fault (Bool × RunTables) := do
  let run ← orFault ⟨.runNotFoundError, "Interaction recovery Run not found"⟩
    (lockRunRow tables candidate.1.runId)
  let segment ← orFault ⟨.runNotFoundError, "Interaction recovery Segment not found"⟩
    (lockSegmentRow tables candidate.1.runSegmentId run.id)
  let interaction ← lockInteractionRow tables candidate.1.id run.id segment.id
  if interaction.status ≠ .open ∨ interaction.interactionType.ordinary = false ∨
      lockedNow < interaction.expiresAt then
    return (false, tables)
  else
    return (true, ← expirePendingInteraction tables run segment interaction candidate.2 lockedNow)

def recoverExpiredInteractions (tables : RunTables) (limit : Nat) (segmentIds : List Uuid)
    (now lockedNow : Timestamp) : Except Fault (Nat × RunTables) := do
  require (0 < limit) ⟨.valueError, "Interaction recovery limit must be positive"⟩
  let candidates := dueFirst UserInteraction.expiresAt UserInteraction.id limit
    (tables.interactions.filter fun interaction =>
      interaction.status = .open ∧ interaction.interactionType.ordinary = true ∧
        interaction.expiresAt ≤ now)
  recoverAll (recoverInteraction lockedNow) (candidates.zip segmentIds) tables

/-- The answer of a user, after its schema was checked, with its fingerprint. -/
structure RespondCommand where
  projectId : Uuid
  runId : Uuid
  interactionId : Uuid
  actorId : Uuid
  interactionVersion : Int
  selectedOptionKeys : Option (List String)
  requestHash : String
  idempotencyKey : String

/-- `validate_interaction_response`: which option keys the question admits. -/
def validateInteractionResponse (interaction : UserInteraction)
    (selected : Option (List String)) : Except Fault Unit := do
  requireOrdinaryInteraction interaction.interactionType
  if interaction.interactionType = .choice then
    let keys ← orFault (invalidResponse "Choice response requires selected options") selected
    require (∀ key ∈ keys, key ∈ interaction.optionKeys)
      (invalidResponse "Choice response selected an unknown option")
    require (interaction.allowMultiple = true ∨ keys.length = 1)
      (invalidResponse "Choice response accepts exactly one option")
  else
    require (selected = none)
      (invalidResponse "This interaction does not accept option keys")

structure RespondedInteraction where
  runStatus : RunStatus
  rowVersion : Nat
  interactionId : Uuid
  responseId : Uuid
  runSegmentId : Uuid
  segmentNo : Nat
  continuationMode : SessionContinuationMode
  idempotentReplay : Bool
  deriving DecidableEq

/-- How the transaction of an answer ends when it commits. -/
inductive RespondOutcome where
  | responded (result : RespondedInteraction)
  /-- The question expired; the caller gets `InteractionExpiredError` after the commit. -/
  | expired
  deriving DecidableEq

def respondToLockedInteraction (tables : RunTables) (run : Run) (segment : RunSegment)
    (interaction : UserInteraction) (command : RespondCommand) (responseId segmentId : Uuid)
    (now : Timestamp) : Except Fault (RespondOutcome × RunTables) := do
  validateInteractionVersion command.interactionVersion
  validateInteractionResponse interaction command.selectedOptionKeys
  match tables.responses.find? fun response => response.interactionId = interaction.id with
  | some existing => do
    require (existing.actorId = command.actorId ∧ existing.runId = run.id ∧
        existing.interactionVersion = command.interactionVersion ∧
        existing.idempotencyKey = command.idempotencyKey ∧
        existing.requestHash = command.requestHash)
      (interactionConflict "Interaction already has a different response")
    let next ← orFault ⟨.noResultFound, "No row was found when one was required"⟩
      (tables.segments.find? fun segment =>
        segment.triggerRef = some existing.id ∧ segment.triggerType = .interactionResponse)
    return (.responded ⟨run.status, run.rowVersion, interaction.id, existing.id, next.id,
      next.segmentNo, next.continuationMode, true⟩, tables)
  | none => do
    validateInteractionOptionKeys interaction.optionKeys
    require (interaction.status = .open)
      (interactionConflict "Interaction is no longer open")
    require (interaction.version = command.interactionVersion)
      (interactionConflict "Interaction version has changed")
    if interaction.expiresAt ≤ now then
      return (.expired,
        ← expirePendingInteraction tables run segment interaction segmentId now)
    else do
      require (run.status = .waitingForInput ∧ segment.status = .waiting)
        (interactionConflict "Run is not waiting for this interaction")
      let tables ← tables.addResponse
        ⟨responseId, interaction.id, run.id, command.actorId, interaction.version,
          command.idempotencyKey, command.requestHash⟩
      let tables := tables.putInteraction
        { interaction with status := .responded, version := interaction.version + 1 }
      let next := nextSegment run segment segmentId .interactionResponse responseId
        interaction.continuationMode interaction.agentSessionId
      let tables ← tables.requeue run .waitingForInput segment next
        [.segmentCompleted, .interactionResponded] "interaction_response" now
      return (.responded ⟨.queued, run.rowVersion + 1, interaction.id, responseId, next.id,
        next.segmentNo, interaction.continuationMode, false⟩, tables)

/-- `respond_to_interaction`: the locks in the order Run, segment, interaction. -/
def respondToInteraction (tables : RunTables) (command : RespondCommand)
    (responseId segmentId : Uuid) (now : Timestamp) :
    Except Fault (RespondOutcome × RunTables) := do
  validateInteractionVersion command.interactionVersion
  let missing : Fault :=
    ⟨.interactionNotFoundError, s!"Interaction not found: {command.interactionId}"⟩
  let observed ← orFault missing (tables.interactions.find? fun interaction =>
    interaction.id = command.interactionId ∧ interaction.runId = command.runId)
  let run ← orFault missing (lockRunRow tables command.runId (some command.projectId))
  let segment ← orFault
    ⟨.interactionNotFoundError, s!"Interaction Segment not found: {command.interactionId}"⟩
    (lockSegmentRow tables observed.runSegmentId command.runId)
  let interaction ← lockInteractionRow tables command.interactionId command.runId segment.id
  respondToLockedInteraction tables run segment interaction command responseId segmentId now

end Store

end SkillMind.Runs
