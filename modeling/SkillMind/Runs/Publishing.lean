import Mathlib.Data.List.MinMax
import Mathlib.Data.List.Sort
import SkillMind.Effects.RunApproval
import SkillMind.Runs.RepositoryBase

/-!
# Writing the rows of a Run

How a transaction writes: rows of the Run are written back under their identifier (`putRun`,
`putSegment`, …), new rows pass the unique constraints of their table (`addSegment`, …), and
events are numbered from the highest sequence on and published together with their outbox message.

The tables hold the rows of one Run, so that a query's condition on the Run is not repeated. Three
endings are shared by many transactions and are written once: the Run returns to the queue with
its next segment, it stops, and its status moves through the transition table.
-/

namespace SkillMind.Runs

open Library Effects

/-- The row after a planned transition. -/
def Run.moved (run : Run) (target : RunStatus) (error : Option ErrorRecord) (now : Timestamp) :
    Run :=
  { run with
    status := target
    rowVersion := run.rowVersion + 1
    startedAt := if target = .running ∧ run.startedAt = none then some now else run.startedAt
    finishedAt := if target.terminal then some now else run.finishedAt
    error := error }

/-- A status change through `plan_run_transition`, from the status the caller names. -/
def Run.transitTo (run : Run) (current target : RunStatus) (error : Option ErrorRecord)
    (now : Timestamp) : Except Fault Run := do
  let transition ←
    planRunTransition current target run.rowVersion run.startedAt run.finishedAt now
  return { run with
    status := transition.status
    rowVersion := transition.rowVersion
    startedAt := transition.startedAt
    finishedAt := transition.finishedAt
    error := error }

theorem Run.transitTo_eq_ok {run run' : Run} {current target : RunStatus}
    {error : Option ErrorRecord} {now : Timestamp} :
    run.transitTo current target error now = .ok run' ↔
      target ∈ allowedRunTransitions current ∧ run' = run.moved target error now := by
  simp only [transitTo, bind_eq_ok, planRunTransition_eq_ok, pure_eq_ok]
  constructor
  · rintro ⟨transition, ⟨allowed, rfl⟩, rfl⟩
    exact ⟨allowed, rfl⟩
  · rintro ⟨allowed, rfl⟩
    exact ⟨_, ⟨allowed, rfl⟩, rfl⟩

/-! ## Writing rows back -/

namespace RunTables

variable (tables : RunTables)

@[simp] theorem Run.moved_status (run : Run) (target : RunStatus) (error : Option ErrorRecord)
    (now : Timestamp) : (run.moved target error now).status = target := rfl

@[simp] theorem Run.moved_id (run : Run) (target : RunStatus) (error : Option ErrorRecord)
    (now : Timestamp) : (run.moved target error now).id = run.id := rfl

@[simp] theorem Run.moved_rowVersion (run : Run) (target : RunStatus)
    (error : Option ErrorRecord) (now : Timestamp) :
    (run.moved target error now).rowVersion = run.rowVersion + 1 := rfl

def putRun (run : Run) : RunTables := { tables with run := some run }

def putSegment (segment : RunSegment) : RunTables :=
  { tables with segments := replaceRow RunSegment.id segment tables.segments }

def putAttempt (attempt : RunAttempt) : RunTables :=
  { tables with attempts := replaceRow RunAttempt.id attempt tables.attempts }

def putSession (session : AgentSession) : RunTables :=
  { tables with sessions := replaceRow AgentSession.id session tables.sessions }

def putInteraction (interaction : UserInteraction) : RunTables :=
  { tables with interactions := replaceRow UserInteraction.id interaction tables.interactions }

def putProposal (proposal : ChangeProposal) : RunTables :=
  { tables with proposals := replaceRow ChangeProposal.id proposal tables.proposals }

def putEffect (effect : EffectExecution) : RunTables :=
  { tables with effects := replaceRow EffectExecution.id effect tables.effects }

def putToolCall (toolCall : ToolCall) : RunTables :=
  { tables with toolCalls := replaceRow ToolCall.id toolCall tables.toolCalls }

end RunTables

/-! ## Adding rows -/

/-- The row is added unless it violates a unique constraint. -/
def insertRow {ρ : Type} (clash : ρ → ρ → Bool) (row : ρ) (rows : List ρ) :
    Except Fault (List ρ) := do
  require (∀ other ∈ rows, clash row other = false)
    ⟨.integrityError, "duplicate key value violates unique constraint"⟩
  return rows ++ [row]

@[simp] theorem insertRow_eq_ok {ρ : Type} {clash : ρ → ρ → Bool} {row : ρ} {rows rows' : List ρ} :
    insertRow clash row rows = .ok rows' ↔
      (∀ other ∈ rows, clash row other = false) ∧ rows ++ [row] = rows' := by
  simp only [insertRow, bind_eq_ok, require_eq_ok, exists_unit, pure_eq_ok]

def RunSegment.clash (row other : RunSegment) : Bool :=
  row.id = other.id || row.segmentNo = other.segmentNo

def RunAttempt.clash (row other : RunAttempt) : Bool :=
  row.id = other.id ||
    (row.runSegmentId = other.runSegmentId && row.attemptNo = other.attemptNo)

def AgentSession.clash (row other : AgentSession) : Bool :=
  row.id = other.id ||
    (row.sessionKind = .primary && other.sessionKind = .primary &&
      (row.runAttemptId = other.runAttemptId ||
        (row.status = .active && other.status = .active)))

def UserInteraction.clash (row other : UserInteraction) : Bool :=
  row.id = other.id ||
    (row.status = .open && row.required && other.status = .open && other.required)

def InteractionResponse.clash (row other : InteractionResponse) : Bool :=
  row.id = other.id || row.interactionId = other.interactionId ||
    row.idempotencyKey = other.idempotencyKey

def ChangeProposal.clash (row other : ChangeProposal) : Bool :=
  row.id = other.id || row.idempotencyKey = other.idempotencyKey

def ChangeApproval.clash (row other : ChangeApproval) : Bool :=
  row.id = other.id || row.proposalId = other.proposalId ||
    row.idempotencyKey = other.idempotencyKey

def EffectExecution.clash (row other : EffectExecution) : Bool :=
  row.id = other.id || row.proposalId = other.proposalId || row.approvalId = other.approvalId

def ToolCall.clash (row other : ToolCall) : Bool := row.id = other.id

namespace RunTables

variable (tables : RunTables)

def addSegment (segment : RunSegment) : Except Fault RunTables := do
  let segments ← insertRow RunSegment.clash segment tables.segments
  return { tables with segments }

def addAttempt (attempt : RunAttempt) : Except Fault RunTables := do
  let attempts ← insertRow RunAttempt.clash attempt tables.attempts
  return { tables with attempts }

def addSession (session : AgentSession) : Except Fault RunTables := do
  let sessions ← insertRow AgentSession.clash session tables.sessions
  return { tables with sessions }

def addInteraction (interaction : UserInteraction) : Except Fault RunTables := do
  let interactions ← insertRow UserInteraction.clash interaction tables.interactions
  return { tables with interactions }

def addResponse (response : InteractionResponse) : Except Fault RunTables := do
  let responses ← insertRow InteractionResponse.clash response tables.responses
  return { tables with responses }

def addProposal (proposal : ChangeProposal) : Except Fault RunTables := do
  let proposals ← insertRow ChangeProposal.clash proposal tables.proposals
  return { tables with proposals }

def addApproval (approval : ChangeApproval) : Except Fault RunTables := do
  let approvals ← insertRow ChangeApproval.clash approval tables.approvals
  return { tables with approvals }

def addEffect (effect : EffectExecution) : Except Fault RunTables := do
  let effects ← insertRow EffectExecution.clash effect tables.effects
  return { tables with effects }

def addToolCall (toolCall : ToolCall) : Except Fault RunTables := do
  let toolCalls ← insertRow ToolCall.clash toolCall tables.toolCalls
  return { tables with toolCalls }

end RunTables

/-! ## Events and dispatches -/

def nextSequence (tables : RunTables) : Nat :=
  (tables.events.map RunEvent.sequence).foldr max 0 + 1

/-- Events of one transaction, numbered from `start` on. -/
def eventsFrom (attemptId : Option Uuid) (start : Nat) : List RunEventBody → List RunEvent
  | [] => []
  | body :: rest => ⟨attemptId, start, body⟩ :: eventsFrom attemptId (start + 1) rest

def eventOutbox (runId : Uuid) (status : RunStatus) (event : RunEvent) : OutboxMessage :=
  .runLifecycleChanged runId event.sequence event.body status

namespace RunTables

/-- Events with the outbox message of each. -/
def publish (tables : RunTables) (runId : Uuid) (status : RunStatus) (events : List RunEvent) :
    RunTables :=
  { tables with
    events := tables.events ++ events
    outbox := tables.outbox ++ events.map (eventOutbox runId status) }

/-- `_dispatch_outbox`. -/
def dispatchRun (tables : RunTables) (runId : Uuid) (reason : Option String) : RunTables :=
  { tables with outbox := tables.outbox ++ [.runDispatchRequested runId reason] }

/-- `_effect_dispatch_outbox`. -/
def dispatchEffect (tables : RunTables) (effect : EffectExecution) : RunTables :=
  { tables with
    outbox := tables.outbox ++ [.effectApplyRequested effect.id effect.proposalId effect.runId] }

end RunTables

def latestSegment (tables : RunTables) : Option RunSegment :=
  tables.segments.argmax RunSegment.segmentNo

def nextSegment (run : Run) (segment : RunSegment) (id : Uuid) (triggerType : RunSegmentTrigger)
    (triggerRef : Uuid) (continuationMode : SessionContinuationMode) (parentSessionId : Uuid) :
    RunSegment where
  id := id
  runId := run.id
  segmentNo := segment.segmentNo + 1
  triggerType := triggerType
  triggerRef := some triggerRef
  status := .created
  continuationMode := continuationMode
  parentAgentSessionId := some parentSessionId
  startedAt := none
  finishedAt := none

def RunSegment.closed (segment : RunSegment) (status : RunSegmentStatus) (now : Timestamp) :
    RunSegment :=
  { segment with status, finishedAt := some now }

/-- The attempt that hands back its lease to wait. -/
def RunAttempt.deferred (attempt : RunAttempt) (now : Timestamp) : RunAttempt :=
  { attempt with
    status := .deferred, finishedAt := some now, leaseTokenHash := none, leaseExpiresAt := none }

/-- An event reported by the engine.  Of its payload the model keeps the failure code and
whether a retry is possible. -/
structure AgentEvent where
  runId : Uuid
  runAttemptId : Uuid
  agentSessionId : Uuid
  sequence : Nat
  eventType : AgentEventType
  code : Option String := none
  retryable : Option Bool := none

def validateAgentEvent (event : AgentEvent) (claimed : ClaimedRun) : Except Fault Unit :=
  require (event.runId = claimed.runId ∧ event.runAttemptId = claimed.runAttemptId)
    ⟨.valueError, "Agent event belongs to a different RunAttempt"⟩

def findPrimaryAgentSession (tables : RunTables) (claimed : ClaimedRun) : Option AgentSession :=
  tables.sessions.find? fun session =>
    session.runId = claimed.runId ∧ session.runAttemptId = claimed.runAttemptId ∧
      session.sessionKind = .primary

/-- `_ensure_agent_session`: one primary session for each attempt. -/
def ensureAgentSession (tables : RunTables) (claimed : ClaimedRun) (sdkSessionId : Uuid)
    (kind : AgentSessionKind) (id : Uuid) : Except Fault (AgentSession × RunTables) := do
  require (kind = .primary)
    ⟨.valueError, "Only PRIMARY sessions can write Run execution events"⟩
  match findPrimaryAgentSession tables claimed with
  | some existing => do
    require (existing.sdkSessionId = some sdkSessionId)
      ⟨.valueError, "RunAttempt Agent session ID changed"⟩
    return (existing, tables)
  | none => do
    let session : AgentSession :=
      ⟨id, claimed.runId, claimed.runAttemptId, claimed.runSegmentId, some sdkSessionId, kind,
        .active⟩
    return (session, ← tables.addSession session)

def dueFirst {ρ : Type} (due : ρ → Timestamp) (id : ρ → Uuid) (limit : Nat) (rows : List ρ) :
    List ρ :=
  (rows.insertionSort fun a b => due a < due b ∨ (due a = due b ∧ id a ≤ id b)).take limit

/-- A recovery goes through its candidates inside one transaction and counts those it
recovered. -/
def recoverAll {ρ : Type} (recover : RunTables → ρ → Except Fault (Bool × RunTables)) :
    List ρ → RunTables → Except Fault (Nat × RunTables)
  | [], tables => .ok (0, tables)
  | candidate :: rest, tables => do
    let (recovered, tables) ← recover tables candidate
    let (count, tables) ← recoverAll recover rest tables
    return (recovered.toNat + count, tables)

/-- The waiting Run returns to the queue: its segment is completed, the next one is created,
the events end in the snapshot, and the Run is dispatched. -/
def RunTables.requeue (tables : RunTables) (run : Run) (waiting : RunStatus)
    (segment next : RunSegment) (events : List AgentEventType) (reason : String)
    (now : Timestamp) : Except Fault RunTables := do
  let queued ← run.transitTo waiting .queued none now
  let tables ← (tables.putSegment (segment.closed .completed now)).addSegment next
  let bodies := events.map RunEventBody.agent ++ [.runSnapshot .queued queued.rowVersion]
  return ((tables.putRun queued).publish run.id .queued
    (eventsFrom none (nextSequence tables) bodies)).dispatchRun run.id (some reason)

def stoppedSegmentStatus (target : RunStatus) : RunSegmentStatus :=
  if target = .cancelled then .cancelled else .failed

def RunTables.stop (tables : RunTables) (run : Run) (current target : RunStatus)
    (segment : RunSegment) (error : Option ErrorRecord) (events : List AgentEventType)
    (now : Timestamp) (attemptId : Option Uuid := none) : Except Fault RunTables := do
  let stopped ← run.transitTo current target error now
  let bodies := events.map RunEventBody.agent ++ [.runSnapshot target stopped.rowVersion]
  return ((tables.putRun stopped).putSegment
    (segment.closed (stoppedSegmentStatus target) now)).publish run.id target
      (eventsFrom attemptId (nextSequence tables) bodies)

end SkillMind.Runs
