import SkillMind.Schedules.RepositoryOccurrences

/-!
# The transactions of the schedules

Users create and edit schedules, schedulers claim, recover and settle occurrences, and a
scheduled Run is created and settled in one transaction.  Users create Runs as well, under keys
of their own, and a Run that was created ends some time later.
-/

namespace SkillMind.Schedules

open Library
open Runs (Uuid Timestamp)

structure CreateScheduleCommand where
  projectId : Uuid
  name : String
  definition : ScheduleDefinition
  skillVersionId : Uuid
  taskKey : String
  inputJson : String
  sources : List (String × String)
  createdBy : Uuid
  nextRunAt : Timestamp

structure UpdateScheduleCommand where
  scheduleId : Uuid
  projectId : Uuid
  name : String
  definition : ScheduleDefinition
  inputJson : String
  sources : List (String × String)
  nextRunAt : Timestamp
  expectedRowVersion : Nat

section Repository

variable (settings : ScheduleSettings) (t : ScheduleTables)

def checkLimit (definition : ScheduleDefinition) : Except Fault Unit :=
  require (∀ limit ∈ definition.maxRuns, 0 < limit) ⟨.integrityError, "task_schedules_max_runs"⟩

def create (command : CreateScheduleCommand) (scheduleId : Uuid) (now : Timestamp) :
    Except Fault (TaskSchedule × ScheduleTables) := do
  exactMinute command.nextRunAt
  checkLimit command.definition
  let row : TaskSchedule :=
    { id := scheduleId
      projectId := command.projectId
      name := command.name
      status := .active
      definition := command.definition
      skillVersionId := command.skillVersionId
      taskKey := command.taskKey
      inputJson := command.inputJson
      sources := command.sources
      nextRunAt := some command.nextRunAt
      lastRunAt := none
      lastRunId := none
      lastOutcome := none
      lastError := none
      runCount := 0
      missedCount := 0
      createdBy := command.createdBy
      rowVersion := 1
      configurationVersion := 1
      occurrenceProtocol := 1
      updatedAt := now }
  require (∀ other ∈ t.schedules, row.id ≠ other.id) ⟨.integrityError, "task_schedules key"⟩
  return (row, { t with schedules := t.schedules ++ [row] })

/-- `_version`. -/
def checkVersion (row : TaskSchedule) (expected : Nat) : Except Fault Unit := do
  positiveInteger expected "expected_row_version" maxInteger
  require (row.rowVersion = expected)
    ⟨.scheduleConflictError, "Schedule was modified by another request"⟩

def updateDefinition (command : UpdateScheduleCommand) (now : Timestamp) :
    Except Fault (TaskSchedule × ScheduleTables) := do
  let row ← requireRow t command.projectId command.scheduleId
  checkVersion row command.expectedRowVersion
  require (row.status.terminal = false)
    ⟨.scheduleInvalidError, "Terminal schedule cannot be edited"⟩
  require (∀ limit ∈ command.definition.maxRuns, 1 ≤ limit ∧ limit ≤ maxInteger)
    ⟨.valueError, "max_runs must be a positive bounded integer"⟩
  require (∀ limit ∈ command.definition.maxRuns, row.runCount + t.pendingCount row.id ≤ limit)
    ⟨.scheduleInvalidError, "Schedule limit cannot be below created and pending runs"⟩
  positiveInteger (row.configurationVersion + 1) "configuration_version" maxInteger
  if row.status = .active then
    exactMinute command.nextRunAt
  let edited ← bump
    { row with
      name := command.name
      definition := command.definition
      inputJson := command.inputJson
      sources := command.sources
      nextRunAt := if row.status = .active then some command.nextRunAt else none
      configurationVersion := row.configurationVersion + 1 }
    now
  return (edited, t.putSchedule edited)

def setStatus (projectId scheduleId : Uuid) (status : ScheduleStatus)
    (nextRunAt : Option Timestamp) (expectedRowVersion : Nat) (lastError : Option String)
    (now : Timestamp) : Except Fault (TaskSchedule × ScheduleTables) := do
  let row ← requireRow t projectId scheduleId
  checkVersion row expectedRowVersion
  planScheduleTransition row.status status
  if status = .active then
    require (row.occurrenceProtocol = 1)
      ⟨.scheduleInvalidError, "Legacy schedule cannot be activated without explicit migration"⟩
    let next ← orFault
      ⟨.scheduleInvalidError, "Active schedule requires a future occurrence"⟩ nextRunAt
    require (∀ limit ∈ row.definition.maxRuns, row.runCount < limit)
      ⟨.scheduleInvalidError, "Schedule run limit is already exhausted"⟩
    require (∀ limit ∈ row.definition.maxRuns, row.runCount + t.pendingCount row.id ≤ limit)
      ⟨.scheduleInvalidError, "Schedule limit is below created and pending runs"⟩
    exactMinute next
    let moved ← bump { row with nextRunAt := some next, status, lastError } now
    return (moved, t.putSchedule moved)
  let moved ← bump { row with nextRunAt := none, status, lastError } now
  return (moved, t.putSchedule moved)

/-! ## Runs -/

/-- The insertion of a Run; its key and its identity are unique. -/
def insertRun (run : CreatedRun) : Except Fault ScheduleTables := do
  require (∀ other ∈ t.runs, run.id ≠ other.id ∧
      ¬ (other.intent.projectId = run.intent.projectId ∧
        other.intent.skillVersionId = run.intent.skillVersionId ∧
        other.intent.taskKey = run.intent.taskKey ∧
        other.idempotencyKey = run.idempotencyKey))
    ⟨.integrityError, "uq_runs_project_task_idempotency"⟩
  return { t with runs := t.runs ++ [run] }

/-- `authorize` of the participant: the owner may run the task, and the request is the one that
was fixed for the occurrence. -/
def authorizeCreation (claim : ClaimedSchedule) (owner : Except Fault Unit)
    (intent : TaskRunIntent) (idempotencyKey : String) (now : Timestamp) : Except Fault Unit := do
  owner
  let locked ← lockClaim settings t claim now
  let snapshot ← occurrenceSnapshot settings locked.occurrence
  require (snapshot.idempotencyKey settings = idempotencyKey ∧ snapshot.intent = intent)
    ⟨.scheduleOccurrenceConflictError,
      "Scheduled creation does not match original request"⟩

/-- `has_overlapping_run`: another Run of the schedule goes on. -/
def hasOverlappingRun (locked : LockedScheduleOccurrence) : Bool :=
  t.runs.any fun run => run.terminal = false ∧
    ∃ row ∈ t.occurrences, row.scheduleId = locked.schedule.id ∧
      row.id ≠ locked.occurrence.id ∧ row.runId = some run.id

/-- The readings of the clock in the transaction that creates a scheduled Run. -/
structure CreationTimes where
  authorized : Timestamp
  checked : Timestamp
  beforeOverlap : Timestamp
  afterOverlap : Timestamp
  rechecked : Timestamp
  lockNow : Timestamp
  reference : Timestamp
  last : Timestamp

def beforeCreate (claim : ClaimedSchedule) (times : CreationTimes) : Except Fault Unit := do
  let locked ← lockClaim settings t claim times.checked
  require (locked.occurrence.status = .pending)
    ⟨.scheduleClaimLostError, "Settled occurrence cannot create another Run"⟩
  requireFence settings locked.occurrence claim times.beforeOverlap false
  requireFence settings locked.occurrence claim times.afterOverlap false
  require (hasOverlappingRun t locked = false)
    ⟨.scheduleOverlapError, "Another Run from this schedule is still active"⟩
  let _ ← lockClaim settings t claim times.rechecked

/-- `complete`: the occurrence is settled with the Run. -/
def completeCreation (claim : ClaimedSchedule) (runId : Uuid) (times : CreationTimes) :
    Except Fault ScheduleTables := do
  let (_, settled) ← recordOutcome settings t claim
    ⟨claim.scheduleId, claim.occurrenceAt, .runCreated, some runId, none⟩
    times.lockNow times.reference times.last
  return settled

/-- The Run of a request, and whether it was there already. -/
structure CreationAnswer where
  runId : Uuid
  replayed : Bool

/-- `create_task_run` with a claim: the Run of the occurrence is found or created, and the
occurrence is settled with it.  The task gives the Run its resources. -/
def createScheduledRun (claim : ClaimedSchedule) (owner : Except Fault Unit)
    (intent : TaskRunIntent) (idempotencyKey : String) (task : Except Fault Unit)
    (runId : Uuid) (times : CreationTimes) : Except Fault (CreationAnswer × ScheduleTables) := do
  authorizeCreation settings t claim owner intent idempotencyKey times.authorized
  let replay ← findTaskRunReplay t intent idempotencyKey
  match replay with
  | some run =>
    let settled ← completeCreation settings t claim run.id times
    return (⟨run.id, true⟩, settled)
  | none =>
    beforeCreate settings t claim times
    task
    let created ← insertRun t ⟨runId, idempotencyKey, intent, false⟩
    let settled ← completeCreation settings created claim runId times
    return (⟨runId, false⟩, settled)

/-- `find_task_run_replay` of the service: a Run that is there already settles the occurrence. -/
def findScheduledRun (claim : ClaimedSchedule) (owner : Except Fault Unit)
    (intent : TaskRunIntent) (idempotencyKey : String) (times : CreationTimes) :
    Except Fault (Option CreationAnswer × ScheduleTables) := do
  authorizeCreation settings t claim owner intent idempotencyKey times.authorized
  let replay ← findTaskRunReplay t intent idempotencyKey
  match replay with
  | some run =>
    let settled ← completeCreation settings t claim run.id times
    return (some ⟨run.id, true⟩, settled)
  | none => return (none, t)

/-- `create_task_run` of a user, who may not take the keys of the schedules. -/
def createUserRun (access : Except Fault Unit) (intent : TaskRunIntent)
    (idempotencyKey : String) (task : Except Fault Unit) (runId : Uuid) :
    Except Fault (CreationAnswer × ScheduleTables) := do
  access
  let replay ← findTaskRunReplay t intent idempotencyKey
  match replay with
  | some run => return (⟨run.id, true⟩, t)
  | none =>
    require (idempotencyKey.startsWith "schedule:" = false)
      ⟨.idempotencyConflictError, "Schedule keys are reserved for scheduled Run creation"⟩
    task
    let created ← insertRun t ⟨runId, idempotencyKey, intent, false⟩
    return (⟨runId, false⟩, created)

end Repository

inductive ScheduleAction where
  | create (command : CreateScheduleCommand) (scheduleId : Uuid) (now : Timestamp)
  | updateDefinition (command : UpdateScheduleCommand) (now : Timestamp)
  | setStatus (projectId scheduleId : Uuid) (status : ScheduleStatus)
      (nextRunAt : Option Timestamp) (expectedRowVersion : Nat) (lastError : Option String)
      (now : Timestamp)
  | claimDue (record : ScheduleRecord) (worker : Credentials) (occurrenceId : Uuid)
      (reference leaseStart last : Timestamp)
  | claimRecoverable (worker : Credentials) (limit maxAttempts : Nat) (skipped : List Uuid)
      (reference : Timestamp) (starts : List Timestamp) (last : Timestamp)
  | recordOutcome (claim : ClaimedSchedule) (result : ScheduleTriggerResult)
      (lockNow reference last : Timestamp)
  | createScheduledRun (claim : ClaimedSchedule) (owner : Except Fault Unit)
      (intent : TaskRunIntent) (idempotencyKey : String) (task : Except Fault Unit)
      (runId : Uuid) (times : CreationTimes)
  | findScheduledRun (claim : ClaimedSchedule) (owner : Except Fault Unit)
      (intent : TaskRunIntent) (idempotencyKey : String) (times : CreationTimes)
  | createUserRun (access : Except Fault Unit) (intent : TaskRunIntent)
      (idempotencyKey : String) (task : Except Fault Unit) (runId : Uuid)
  /-- A Run ends, or goes on again. -/
  | moveRun (runId : Uuid) (terminal : Bool)

inductive ScheduleAnswer where
  | schedule (row : TaskSchedule)
  | claims (claims : List ClaimedSchedule)
  | settled (result : ScheduleTriggerResult)
  | run (answer : Option CreationAnswer)
  | moved

section Store

variable (settings : ScheduleSettings)

def execSchedule (action : ScheduleAction) (t : ScheduleTables) :
    Except Fault (ScheduleAnswer × ScheduleTables) :=
  match action with
  | .create command scheduleId now => answering .schedule (create t command scheduleId now)
  | .updateDefinition command now => answering .schedule (updateDefinition t command now)
  | .setStatus projectId scheduleId status nextRunAt expectedRowVersion lastError now =>
    answering .schedule
      (setStatus t projectId scheduleId status nextRunAt expectedRowVersion lastError now)
  | .claimDue record worker occurrenceId reference leaseStart last =>
    answering (fun claim => .claims claim.toList)
      (claimDue settings t record worker occurrenceId reference leaseStart last)
  | .claimRecoverable worker limit maxAttempts skipped reference starts last =>
    answering .claims
      (claimRecoverable settings t worker limit maxAttempts skipped reference starts last)
  | .recordOutcome claim result lockNow reference last =>
    answering .settled (recordOutcome settings t claim result lockNow reference last)
  | .createScheduledRun claim owner intent idempotencyKey task runId times =>
    answering (fun answer => .run (some answer))
      (createScheduledRun settings t claim owner intent idempotencyKey task runId times)
  | .findScheduledRun claim owner intent idempotencyKey times =>
    answering .run (findScheduledRun settings t claim owner intent idempotencyKey times)
  | .createUserRun access intent idempotencyKey task runId =>
    answering (fun answer => .run (some answer))
      (createUserRun t access intent idempotencyKey task runId)
  | .moveRun runId terminal =>
    .ok (.moved,
      { t with runs := t.runs.map fun run =>
          if run.id = runId then { run with terminal := terminal } else run })

/-- The schedules as users and schedulers see them. -/
def scheduleStore : TransactionSystem ScheduleTables ScheduleAction ScheduleAnswer Fault :=
  ⟨execSchedule settings⟩

end Store

end SkillMind.Schedules
