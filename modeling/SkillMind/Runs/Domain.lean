import SkillMind.Library.Fallible

/-!
# Run lifecycle rules

The pure rules of a Run: the statuses of Runs, attempts, segments and interactions, the transition
table, and `planRunTransition`, which every status change of the repositories goes through. A
terminal status has no outgoing transition, and a planned transition always moves the row version
by one.

Identifiers and instants are natural numbers.  A fault carries the exception class of the
source and its message.
-/

namespace SkillMind.Runs

open Library

abbrev Uuid := Nat

/-- An instant of the database or worker clock. -/
abbrev Timestamp := Nat

/-- The exception classes the transactions raise. -/
inductive ErrorClass where
  | valueError
  | typeError
  | lookupError
  | noResultFound
  | integrityError
  | budgetError
  | budgetConflictError
  | budgetUnavailableError
  | budgetExhaustedError
  | runNotFoundError
  | invalidRunTransitionError
  | concurrentRunUpdateError
  | runNotCancellableError
  | leaseValidationError
  | runCancellationRequestedError
  | interactionConflictError
  | interactionExpiredError
  | interactionNotFoundError
  | interactionResponseInvalidError
  | changeProposalConflictError
  | changeProposalExpiredError
  | changeProposalNotFoundError
  | changeProposalValidationError
  | changeProposalApprovalForbiddenError
  | effectLeaseValidationError
  | executionFeatureDisabledError
  | inlineUnavailable
  deriving DecidableEq

/-- An exception: its class and its message. -/
structure Fault where
  error : ErrorClass
  message : String
  deriving DecidableEq

/-! ## Statuses -/

inductive RunStatus where
  | queued
  | preparing
  | running
  | retryPending
  | waitingForInput
  | waitingForApproval
  | waitingPermission
  | succeeded
  | failed
  | cancelled
  deriving DecidableEq

def RunStatus.value : RunStatus → String
  | .queued => "QUEUED"
  | .preparing => "PREPARING"
  | .running => "RUNNING"
  | .retryPending => "RETRY_PENDING"
  | .waitingForInput => "WAITING_FOR_INPUT"
  | .waitingForApproval => "WAITING_FOR_APPROVAL"
  | .waitingPermission => "WAITING_PERMISSION"
  | .succeeded => "SUCCEEDED"
  | .failed => "FAILED"
  | .cancelled => "CANCELLED"

inductive RunAttemptStatus where
  | created
  | leased
  | running
  | deferred
  | succeeded
  | failed
  | cancelled
  | leaseExpired
  deriving DecidableEq

def RunAttemptStatus.value : RunAttemptStatus → String
  | .created => "CREATED"
  | .leased => "LEASED"
  | .running => "RUNNING"
  | .deferred => "DEFERRED"
  | .succeeded => "SUCCEEDED"
  | .failed => "FAILED"
  | .cancelled => "CANCELLED"
  | .leaseExpired => "LEASE_EXPIRED"

inductive RunSegmentStatus where
  | created
  | running
  | waiting
  | completed
  | failed
  | cancelled
  deriving DecidableEq

inductive RunSegmentTrigger where
  | initial
  | interactionResponse
  | interactionTimeout
  | approvalResponse
  | approvalTimeout
  deriving DecidableEq

inductive SessionContinuationMode where
  | initial
  | resume
  | fork
  | replace
  | branch
  deriving DecidableEq

inductive AgentSessionKind where
  | primary
  | subagent
  deriving DecidableEq

inductive UserInteractionType where
  | clarification
  | choice
  | review
  | effectApproval
  deriving DecidableEq

inductive UserInteractionStatus where
  | open
  | responded
  | expired
  | cancelled
  deriving DecidableEq

def terminalRunStatuses : List RunStatus := [.succeeded, .failed, .cancelled]

def RunStatus.terminal (status : RunStatus) : Bool := status ∈ terminalRunStatuses

def allowedRunTransitions : RunStatus → List RunStatus
  | .queued => [.preparing, .cancelled]
  | .preparing => [.running, .retryPending, .failed, .cancelled]
  | .running =>
    [.retryPending, .waitingForInput, .waitingForApproval, .waitingPermission, .succeeded,
      .failed, .cancelled]
  | .retryPending => [.preparing, .failed, .cancelled]
  | .waitingPermission => [.queued, .preparing, .failed, .cancelled]
  | .waitingForInput => [.queued, .failed, .cancelled]
  | .waitingForApproval => [.queued, .failed, .cancelled]
  | .succeeded => []
  | .failed => []
  | .cancelled => []

theorem allowedRunTransitions_terminal {status : RunStatus} :
    allowedRunTransitions status = [] ↔ status.terminal = true := by
  cases status <;> decide

/-- The values a checked transition writes. -/
structure RunTransition where
  status : RunStatus
  rowVersion : Nat
  startedAt : Option Timestamp
  finishedAt : Option Timestamp

def planRunTransition (current target : RunStatus) (rowVersion : Nat)
    (startedAt finishedAt : Option Timestamp) (now : Timestamp) :
    Except Fault RunTransition := do
  require (target ∈ allowedRunTransitions current)
    ⟨.invalidRunTransitionError,
      s!"Run transition is not allowed: {current.value} -> {target.value}"⟩
  let nextStartedAt :=
    if target = .running ∧ startedAt = none then some now else startedAt
  let nextFinishedAt := if target.terminal then some now else finishedAt
  return ⟨target, rowVersion + 1, nextStartedAt, nextFinishedAt⟩

theorem planRunTransition_eq_ok {current target : RunStatus} {rowVersion : Nat}
    {startedAt finishedAt : Option Timestamp} {now : Timestamp} {transition : RunTransition} :
    planRunTransition current target rowVersion startedAt finishedAt now = .ok transition ↔
      target ∈ allowedRunTransitions current ∧
        transition =
          ⟨target, rowVersion + 1,
            if target = .running ∧ startedAt = none then some now else startedAt,
            if target.terminal then some now else finishedAt⟩ := by
  simp only [planRunTransition, bind_eq_ok, require_eq_ok, pure_eq_ok, exists_const]
  exact and_congr_right fun _ => eq_comm

end SkillMind.Runs
