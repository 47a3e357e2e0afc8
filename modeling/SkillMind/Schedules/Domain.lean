import SkillMind.Library.Table
import SkillMind.Library.Transaction
import SkillMind.Runs.Domain

/-!
# Schedules and their occurrences

A schedule says when a task runs; each time it is due, a scheduler claims an occurrence with the
settings of that moment, and later settles it with a Run or without one.  This module has the
rows and the pure rules: the status machine, the snapshot of an occurrence and the claim that is
handed out for it.

Instants are counted in microseconds.  An input of a task is kept by its canonical text, as the
comparisons of the source do.
-/

namespace SkillMind.Schedules

open Library
open Runs (Uuid Timestamp)

inductive ErrorClass where
  | valueError
  | integrityError
  | scheduleNotFoundError
  | scheduleInvalidError
  | invalidScheduleTransitionError
  | scheduleConflictError
  | scheduleClaimLostError
  | scheduleOverlapError
  | scheduleOwnerUnavailableError
  | scheduleOccurrenceConflictError
  | idempotencyConflictError
  | taskSourceSelectionError
  | otherError

structure Fault where
  error : ErrorClass
  message : String

def positiveInteger (value : Nat) (name : String) (maximum : Nat) : Except Fault Unit :=
  require (1 ≤ value ∧ value ≤ maximum)
    ⟨.valueError, name ++ " must be a positive bounded integer"⟩

/-- The largest value of an integer column. -/
def maxInteger : Nat := 2147483647

def minute : Nat := 60000000

def second : Nat := 1000000

/-- `utc_time` of an exact minute. -/
def exactMinute (value : Timestamp) : Except Fault Unit :=
  require (value % minute = 0) ⟨.valueError, "Occurrence time must be an exact minute"⟩

inductive ScheduleKind where
  | once
  | cron
  deriving DecidableEq

inductive ScheduleStatus where
  | active
  | paused
  | completed
  | error
  | archived
  deriving DecidableEq

inductive ScheduleOutcome where
  | runCreated
  | skippedOverlap
  | failedPrecondition
  | completed
  deriving DecidableEq

/-- `TERMINAL_SCHEDULE_STATUSES`. -/
def ScheduleStatus.terminal (status : ScheduleStatus) : Bool := status ∈ [.completed, .archived]

def allowedScheduleTransitions : ScheduleStatus → List ScheduleStatus
  | .active => [.paused, .completed, .error, .archived]
  | .paused => [.active, .completed, .archived]
  | .error => [.active, .archived]
  | .completed => [.archived]
  | .archived => []

def planScheduleTransition (current target : ScheduleStatus) : Except Fault Unit :=
  require (target ∈ allowedScheduleTransitions current)
    ⟨.invalidScheduleTransitionError, "Schedule transition is not allowed"⟩

structure ScheduleDefinition where
  kind : ScheduleKind
  timezone : String
  cronExpression : Option String
  runAt : Option Timestamp
  endAt : Option Timestamp
  maxRuns : Option Nat
  deriving DecidableEq

structure OccurrencePlan where
  nextRunAt : Option Timestamp
  missed : Nat
  exhausted : Bool

/-- The request of a Run; the input is its canonical text. -/
structure TaskRunIntent where
  projectId : Uuid
  skillVersionId : Uuid
  taskKey : String
  actorId : Uuid
  inputJson : String
  sources : List (String × String)
  autoApprove : Bool
  autoApproveGit : Bool
  autoApproveMcp : Bool
  deriving DecidableEq

/-- The settings of an occurrence, fixed when it is claimed first. -/
structure ScheduleOccurrenceSnapshot where
  scheduleId : Uuid
  occurrenceAt : Timestamp
  name : String
  configurationVersion : Nat
  claimRowVersion : Nat
  definition : ScheduleDefinition
  intent : TaskRunIntent
  exhausted : Bool
  missed : Nat

/-- The functions the schedules are run with: the time rules, the text of an instant, the digests,
the texts that only have blanks, and the snapshots that can be read back. -/
structure ScheduleSettings where
  nextFromDefinition : ScheduleDefinition → Timestamp → Option Timestamp
  planOccurrence : ScheduleDefinition → Timestamp → Timestamp → OccurrencePlan
  stamp : Timestamp → String
  checksum : ScheduleOccurrenceSnapshot → String
  leaseTokenHash : String → String
  blank : String → Bool
  restorable : ScheduleOccurrenceSnapshot → Bool

def scheduleIdempotencyKey (settings : ScheduleSettings) (scheduleId : Uuid)
    (occurrenceAt : Timestamp) : String :=
  s!"schedule:{scheduleId}:{settings.stamp occurrenceAt}"

def ScheduleOccurrenceSnapshot.idempotencyKey (settings : ScheduleSettings)
    (snapshot : ScheduleOccurrenceSnapshot) : String :=
  scheduleIdempotencyKey settings snapshot.scheduleId snapshot.occurrenceAt

/-! ## Rows -/

structure TaskSchedule where
  id : Uuid
  projectId : Uuid
  name : String
  status : ScheduleStatus
  /-- The columns of the time rules. -/
  definition : ScheduleDefinition
  skillVersionId : Uuid
  taskKey : String
  inputJson : String
  sources : List (String × String)
  nextRunAt : Option Timestamp
  lastRunAt : Option Timestamp
  lastRunId : Option Uuid
  lastOutcome : Option ScheduleOutcome
  lastError : Option String
  runCount : Nat
  missedCount : Nat
  createdBy : Uuid
  rowVersion : Nat
  configurationVersion : Nat
  occurrenceProtocol : Nat
  updatedAt : Timestamp

inductive OccurrenceStatus where
  | pending
  | settled
  deriving DecidableEq

structure TaskScheduleOccurrence where
  id : Uuid
  scheduleId : Uuid
  projectId : Uuid
  createdBy : Uuid
  skillVersionId : Uuid
  occurrenceAt : Timestamp
  idempotencyKey : String
  configurationVersion : Nat
  snapshot : ScheduleOccurrenceSnapshot
  snapshotChecksum : String
  status : OccurrenceStatus
  workerId : String
  leaseTokenHash : String
  leaseGeneration : Nat
  leaseExpiresAt : Timestamp
  attemptCount : Nat
  runId : Option Uuid
  outcome : Option ScheduleOutcome
  detail : Option String
  settledAt : Option Timestamp
  updatedAt : Timestamp

/-- What a Run keeps of its creation; the identity of its task is the version and the key. -/
structure CreatedRun where
  id : Uuid
  idempotencyKey : String
  intent : TaskRunIntent
  terminal : Bool

structure ScheduleTables where
  schedules : List TaskSchedule
  occurrences : List TaskScheduleOccurrence
  runs : List CreatedRun

namespace ScheduleTables

def empty : ScheduleTables := ⟨[], [], []⟩

def putSchedule (t : ScheduleTables) (row : TaskSchedule) : ScheduleTables :=
  { t with schedules := replaceRow TaskSchedule.id row t.schedules }

def putOccurrence (t : ScheduleTables) (row : TaskScheduleOccurrence) : ScheduleTables :=
  { t with occurrences := replaceRow TaskScheduleOccurrence.id row t.occurrences }

/-- The occurrence of the schedule waits for its settlement. -/
def pendingOf (scheduleId : Uuid) (row : TaskScheduleOccurrence) : Bool :=
  row.scheduleId = scheduleId ∧ row.status = .pending

def pendingCount (t : ScheduleTables) (scheduleId : Uuid) : Nat :=
  t.occurrences.countP (pendingOf scheduleId)

end ScheduleTables

def requireRow (t : ScheduleTables) (projectId scheduleId : Uuid) : Except Fault TaskSchedule :=
  orFault ⟨.scheduleNotFoundError, "Schedule was not found"⟩
    (t.schedules.find? fun row => row.id = scheduleId ∧ row.projectId = projectId)

def bump (row : TaskSchedule) (now : Timestamp) : Except Fault TaskSchedule := do
  positiveInteger row.rowVersion "row_version" maxInteger
  require (row.rowVersion ≠ maxInteger)
    ⟨.scheduleConflictError, "Schedule version is exhausted"⟩
  return { row with rowVersion := row.rowVersion + 1, updatedAt := now }

/-- The claim of an occurrence, for the generation it was handed out with. -/
structure ClaimedSchedule where
  scheduleId : Uuid
  projectId : Uuid
  occurrenceAt : Timestamp
  skillVersionId : Uuid
  taskKey : String
  inputJson : String
  sources : List (String × String)
  createdBy : Uuid
  exhausted : Bool
  missed : Nat
  occurrenceId : Uuid
  definition : ScheduleDefinition
  configurationVersion : Nat
  claimRowVersion : Nat
  snapshotChecksum : String
  workerId : String
  leaseToken : String
  leaseGeneration : Nat
  leaseExpiresAt : Timestamp
  autoApprove : Bool

/-- How an occurrence ended. -/
structure ScheduleTriggerResult where
  scheduleId : Uuid
  occurrenceAt : Timestamp
  outcome : ScheduleOutcome
  runId : Option Uuid
  detail : Option String
  deriving DecidableEq

end SkillMind.Schedules
