import SkillMind.Runs.Tables

/-!
# What every Run transaction starts with

The locked reads shared by all repositories: the Run row, the segment, the attempt of the
claiming worker, and the checks of its lease and of a recorded cancellation.  The clock is
read once per transaction.
-/

namespace SkillMind.Runs

open Library

/-- `_lock_run_row` inside the optional boundary of a Project. -/
def lockRunRow (tables : RunTables) (runId : Uuid) (projectId : Option Uuid := none) :
    Option Run :=
  tables.run.filter fun run =>
    run.id = runId ∧ (projectId = none ∨ projectId = some run.projectId)

def lockSegmentRow (tables : RunTables) (segmentId runId : Uuid) : Option RunSegment :=
  tables.segments.find? fun segment => segment.id = segmentId ∧ segment.runId = runId

/-- The worker lease a claim handed out, with the identity every later write is checked
against. -/
structure ClaimedRun where
  runId : Uuid
  runAttemptId : Uuid
  projectId : Uuid
  actorId : Uuid
  attemptNo : Nat
  leaseToken : String
  leaseExpiresAt : Timestamp
  rowVersion : Nat
  runSegmentId : Option Uuid
  segmentNo : Nat
  continuationMode : SessionContinuationMode
  parentAgentSessionId : Option Uuid
  parentSdkSessionId : Option Uuid
  parentRunAttemptId : Option Uuid
  deriving DecidableEq

def lockClaimedExecution (tables : RunTables) (claimed : ClaimedRun) :
    Except Fault (Run × Option RunSegment × RunAttempt) := do
  let run ← orFault ⟨.runNotFoundError, s!"Run not found: {claimed.runId}"⟩
    (lockRunRow tables claimed.runId)
  let segment ← match claimed.runSegmentId with
    | none => pure none
    | some segmentId => do
      let segment ← orFault ⟨.leaseValidationError, s!"RunSegment not found: {segmentId}"⟩
        (lockSegmentRow tables segmentId claimed.runId)
      pure (some segment)
  let attempt ← orFault
    ⟨.leaseValidationError, s!"RunAttempt not found: {claimed.runAttemptId}"⟩
    (tables.attempts.find? fun attempt =>
      attempt.id = claimed.runAttemptId ∧ attempt.runId = claimed.runId ∧
        (claimed.runSegmentId = none ∨ attempt.runSegmentId = claimed.runSegmentId))
  return (run, segment, attempt)

/-- The statuses in which an attempt holds its lease. -/
def RunAttemptStatus.active (status : RunAttemptStatus) : Bool :=
  status ∈ [.leased, .running]

section Lease

variable (leaseTokenHash : String → String)

def validateClaimedLease (attempt : RunAttempt) (claimed : ClaimedRun) (now : Timestamp) :
    Except Fault Unit := do
  require (attempt.leaseTokenHash.getD "" = leaseTokenHash claimed.leaseToken)
    ⟨.leaseValidationError, "RunAttempt lease token does not match"⟩
  require (attempt.status.active)
    ⟨.leaseValidationError, s!"RunAttempt is not active: {attempt.status.value}"⟩
  require (∃ expiry ∈ attempt.leaseExpiresAt, now < expiry)
    ⟨.leaseValidationError, "RunAttempt lease has expired"⟩

end Lease

def isCancellationRequested (tables : RunTables) : Bool :=
  tables.events.any fun event =>
    match event.body with
    | .runCancelRequested _ => true
    | _ => false

def rejectCancelledExecution (tables : RunTables) : Except Fault Unit :=
  require (isCancellationRequested tables = false)
    ⟨.runCancellationRequestedError, "Run cancellation was requested"⟩

end SkillMind.Runs
