import SkillMind.Effects.Domain
import SkillMind.Library.Table

/-!
# The rows of one Run

The tables below a Run: its own row, its segments, attempts and Agent sessions, the
interactions with the user and their responses, the proposed changes with their approvals
and executions, the audit trail of events and the outbox.  A column no operation of the
model reads is left out; the tables of other aggregates (bindings, integrations, users,
evidence) enter an operation through what it reads from them.
-/

namespace SkillMind.Runs

open Library Effects

/-- The limits frozen with the Run, as far as the shared budget reads them. -/
structure LimitsSnapshot where
  maxTurns : Int
  maxBudgetNanos : Option Int
  deriving DecidableEq

/-- `error_json` of a Run or an attempt. -/
structure ErrorRecord where
  code : String
  retryable : Bool
  retryAt : Option Timestamp := none
  attempts : Option Nat := none
  maxAttempts : Option Nat := none
  effectExecutionId : Option Uuid := none
  deriving DecidableEq

/-- The creation request stored with the Run: the consent of the user who started it, and
whether the stored snapshot still matches its fingerprint. -/
structure CreationIntent where
  actorId : Uuid
  autoApprove : Bool
  autoApproveGit : Bool
  autoApproveMcp : Bool
  intact : Bool
  deriving DecidableEq

structure Run where
  id : Uuid
  projectId : Uuid
  status : RunStatus
  rowVersion : Nat
  startedAt : Option Timestamp
  finishedAt : Option Timestamp
  error : Option ErrorRecord
  actorId : Option Uuid
  limits : LimitsSnapshot
  creationIntent : Option CreationIntent
  deriving DecidableEq

structure RunSegment where
  id : Uuid
  runId : Uuid
  segmentNo : Nat
  triggerType : RunSegmentTrigger
  triggerRef : Option Uuid
  status : RunSegmentStatus
  continuationMode : SessionContinuationMode
  parentAgentSessionId : Option Uuid
  startedAt : Option Timestamp
  finishedAt : Option Timestamp
  deriving DecidableEq

structure RunAttempt where
  id : Uuid
  inlineProposalId : Option Uuid
  runId : Uuid
  runSegmentId : Option Uuid
  attemptNo : Nat
  status : RunAttemptStatus
  workerId : Option String
  leaseTokenHash : Option String
  leaseExpiresAt : Option Timestamp
  finishedAt : Option Timestamp
  error : Option ErrorRecord
  deriving DecidableEq

inductive AgentSessionStatus where
  | active
  | idle
  | closed
  | interrupted
  | failed
  deriving DecidableEq

structure AgentSession where
  id : Uuid
  runId : Uuid
  runAttemptId : Uuid
  runSegmentId : Option Uuid
  sdkSessionId : Option Uuid
  sessionKind : AgentSessionKind
  status : AgentSessionStatus
  deriving DecidableEq

structure UserInteraction where
  id : Uuid
  runId : Uuid
  runSegmentId : Uuid
  agentSessionId : Uuid
  interactionType : UserInteractionType
  allowMultiple : Bool
  optionKeys : List String
  required : Bool
  expiresAt : Timestamp
  status : UserInteractionStatus
  version : Nat
  continuationMode : SessionContinuationMode
  changeProposalId : Option Uuid
  deriving DecidableEq

structure InteractionResponse where
  id : Uuid
  interactionId : Uuid
  runId : Uuid
  actorId : Uuid
  interactionVersion : Nat
  idempotencyKey : String
  requestHash : String
  deriving DecidableEq

/-! ## Controlled effects -/

/-- `inline_owner_json`: who receives the result inside the running native turn. -/
structure InlineOwner where
  phase : InlinePhase
  toolUseId : String
  leaseHash : String
  deriving DecidableEq

structure ChangeProposal where
  id : Uuid
  inlineOwner : Option InlineOwner
  projectId : Uuid
  runId : Uuid
  runSegmentId : Uuid
  runAttemptId : Uuid
  agentSessionId : Uuid
  targetBindingId : Uuid
  integrationId : Option Uuid
  capability : EffectCapability
  operation : String
  continuationMode : SessionContinuationMode
  idempotencyKey : String
  requestFingerprint : String
  status : ChangeProposalStatus
  version : Nat
  checksum : String
  expiresAt : Timestamp
  deriving DecidableEq

structure ChangeApproval where
  id : Uuid
  proposalId : Uuid
  runId : Uuid
  source : ApprovalSource
  decision : ApprovalDecision
  actorId : Option Uuid
  preauthorizationId : Option Uuid
  proposalVersion : Nat
  proposalChecksum : String
  idempotencyKey : String
  requestHash : String
  deriving DecidableEq

/-- A diagnostic of the desktop tools, after `safe_mcp_diagnostic` accepted it. -/
structure McpDiagnostic where
  stage : String
  reason : String
  actionAttempted : Bool
  callResponseReceived : Bool
  deriving DecidableEq

/-- `error_json` of an execution. -/
structure EffectError where
  code : String
  retryable : Bool
  causeCode : Option String := none
  reasonCode : Option String := none
  diagnostic : Option McpDiagnostic := none
  deriving DecidableEq

structure EffectExecution where
  id : Uuid
  proposalId : Uuid
  runId : Uuid
  approvalId : Uuid
  toolCallId : Option Uuid
  status : EffectExecutionStatus
  provider : EffectProvider
  providerVersion : String
  idempotencyKey : String
  requestFingerprint : String
  beforeRef : Option String
  afterRef : Option String
  error : Option EffectError
  workerId : Option String
  leaseTokenHash : Option String
  leaseExpiresAt : Option Timestamp
  attemptNo : Nat
  deriving DecidableEq

inductive ToolCallStatus where
  | running
  | succeeded
  | failed
  deriving DecidableEq

structure ToolCall where
  id : Uuid
  requestFingerprint : String
  capability : EffectCapability
  integrationId : Option Uuid
  status : ToolCallStatus
  deriving DecidableEq

inductive AgentEventType where
  | sessionStarted
  | stepStarted
  | stepCompleted
  | stepFailed
  | textDelta
  | textCompleted
  | toolRequested
  | toolCompleted
  | toolFailed
  | permissionRequired
  | permissionResolved
  | evidenceCreated
  | artifactCreated
  | usageUpdated
  | sessionDeferred
  | sessionInterrupted
  | sessionStoreDegraded
  | segmentStarted
  | segmentCompleted
  | interactionRequested
  | interactionResponded
  | interactionExpired
  | changeProposed
  | effectApproved
  | effectRejected
  | effectApplied
  | effectFailed
  | checkpointCreated
  | sessionResumed
  | sessionForked
  | sessionReplaced
  | resultCompleted
  | engineFailed
  deriving DecidableEq

/-- The type of an event with the part of its payload that names the Run's state. -/
inductive RunEventBody where
  | runSnapshot (status : RunStatus) (rowVersion : Nat)
  | runCancelRequested (status : RunStatus)
  | agent (eventType : AgentEventType)
  deriving DecidableEq

structure RunEvent where
  runAttemptId : Option Uuid
  sequence : Nat
  body : RunEventBody
  deriving DecidableEq

inductive OutboxMessage where
  /-- `run.lifecycle.changed/v1` -/
  | runLifecycleChanged (runId : Uuid) (sequence : Nat) (body : RunEventBody) (status : RunStatus)
  /-- `run.dispatch.requested/v1` -/
  | runDispatchRequested (runId : Uuid) (reason : Option String)
  /-- `effect.apply.requested/v1` -/
  | effectApplyRequested (effectExecutionId proposalId runId : Uuid)
  deriving DecidableEq

structure RunTables where
  run : Option Run
  segments : List RunSegment
  attempts : List RunAttempt
  sessions : List AgentSession
  interactions : List UserInteraction
  responses : List InteractionResponse
  proposals : List ChangeProposal
  approvals : List ChangeApproval
  effects : List EffectExecution
  toolCalls : List ToolCall
  events : List RunEvent
  outbox : List OutboxMessage
  deriving DecidableEq

def RunTables.empty : RunTables :=
  ⟨none, [], [], [], [], [], [], [], [], [], [], []⟩

end SkillMind.Runs
