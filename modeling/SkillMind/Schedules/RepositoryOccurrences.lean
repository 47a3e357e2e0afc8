import Mathlib.Data.List.Sort
import SkillMind.Schedules.Domain

/-!
# Occurrences of a schedule

The operations of `ScheduleOccurrenceRepository`: a due schedule is claimed, an expired claim is
handed to another scheduler under the next generation, and the holder of the current generation
settles the occurrence.  The readings of the clock are given with each operation.
-/

namespace SkillMind.Schedules

open Library
open Runs (Uuid Timestamp)

section Repository

variable (settings : ScheduleSettings) (t : ScheduleTables)

def credentials (workerId token : String) (leaseSeconds : Nat) : Except Fault Unit := do
  require (settings.blank workerId = false ∧ workerId.length ≤ 128)
    ⟨.valueError, "Schedule worker identity is invalid"⟩
  require (settings.blank token = false ∧ token.length ≤ 512)
    ⟨.valueError, "Schedule lease token is invalid"⟩
  positiveInteger leaseSeconds "lease_seconds" 3600

/-- `occurrence_snapshot`: the snapshot of a row, if its columns still agree with it. -/
def occurrenceSnapshot (row : TaskScheduleOccurrence) :
    Except Fault ScheduleOccurrenceSnapshot := do
  let snapshot := row.snapshot
  require (settings.restorable snapshot = true ∧
      row.snapshotChecksum = settings.checksum snapshot)
    ⟨.scheduleOccurrenceConflictError, "Stored occurrence snapshot is invalid"⟩
  require (row.scheduleId = snapshot.scheduleId ∧ row.projectId = snapshot.intent.projectId ∧
      row.createdBy = snapshot.intent.actorId ∧
      row.skillVersionId = snapshot.intent.skillVersionId ∧
      row.occurrenceAt = snapshot.occurrenceAt ∧
      row.idempotencyKey = snapshot.idempotencyKey settings ∧
      row.configurationVersion = snapshot.configurationVersion)
    ⟨.scheduleOccurrenceConflictError, "Occurrence columns do not match original snapshot"⟩
  return snapshot

/-- The claim of a row under its current generation. -/
def claimOf (row : TaskScheduleOccurrence) (snapshot : ScheduleOccurrenceSnapshot)
    (token : String) : ClaimedSchedule :=
  { scheduleId := row.scheduleId
    projectId := row.projectId
    occurrenceAt := row.occurrenceAt
    skillVersionId := row.skillVersionId
    taskKey := snapshot.intent.taskKey
    inputJson := snapshot.intent.inputJson
    sources := snapshot.intent.sources
    createdBy := row.createdBy
    exhausted := snapshot.exhausted
    missed := snapshot.missed
    occurrenceId := row.id
    definition := snapshot.definition
    configurationVersion := row.configurationVersion
    claimRowVersion := snapshot.claimRowVersion
    snapshotChecksum := row.snapshotChecksum
    workerId := row.workerId
    leaseToken := token
    leaseGeneration := row.leaseGeneration
    leaseExpiresAt := row.leaseExpiresAt
    autoApprove := snapshot.intent.autoApprove }

def claimed (row : TaskScheduleOccurrence) (token : String) : Except Fault ClaimedSchedule := do
  let snapshot ← occurrenceSnapshot settings row
  return claimOf row snapshot token

/-- `_match_claim`: the claim carries the settings that were fixed for the occurrence. -/
def matchClaim (row : TaskScheduleOccurrence) (snapshot : ScheduleOccurrenceSnapshot)
    (claim : ClaimedSchedule) : Except Fault Unit :=
  let candidate : TaskRunIntent :=
    ⟨claim.projectId, claim.skillVersionId, claim.taskKey, claim.createdBy, claim.inputJson,
      claim.sources, claim.autoApprove, claim.autoApprove, claim.autoApprove⟩
  require (row.snapshotChecksum = claim.snapshotChecksum ∧
      row.occurrenceAt = claim.occurrenceAt ∧ snapshot.intent = candidate ∧
      snapshot.definition = claim.definition ∧ snapshot.exhausted = claim.exhausted ∧
      snapshot.missed = claim.missed ∧
      snapshot.configurationVersion = claim.configurationVersion ∧
      snapshot.claimRowVersion = claim.claimRowVersion)
    ⟨.scheduleOccurrenceConflictError, "Schedule claim does not match original snapshot"⟩

/-- `_require_fence`: the claim is of the current generation, and its lease runs unless the
occurrence is settled already. -/
def requireFence (row : TaskScheduleOccurrence) (claim : ClaimedSchedule) (now : Timestamp)
    (pendingWrite : Bool) : Except Fault Unit :=
  require (row.workerId = claim.workerId ∧ row.leaseGeneration = claim.leaseGeneration ∧
      row.leaseExpiresAt = claim.leaseExpiresAt ∧
      row.leaseTokenHash = settings.leaseTokenHash claim.leaseToken ∧
      (row.status = .pending ∨ pendingWrite = true → now < row.leaseExpiresAt))
    ⟨.scheduleClaimLostError, "Schedule claim is no longer current"⟩

/-- What a scheduler read of the schedule before it tries to claim it. -/
structure ScheduleRecord where
  scheduleId : Uuid
  projectId : Uuid
  rowVersion : Nat
  configurationVersion : Nat
  nextRunAt : Option Timestamp

/-- Who claims, with which token and for how long. -/
structure Credentials where
  workerId : String
  token : String
  leaseSeconds : Nat

/-- The insertion of an occurrence; its key, the instant of the schedule and the one pending
occurrence are unique. -/
def insertOccurrence (row : TaskScheduleOccurrence) : Except Fault ScheduleTables := do
  require (∀ other ∈ t.occurrences, row.id ≠ other.id ∧
      (row.scheduleId, row.occurrenceAt) ≠ (other.scheduleId, other.occurrenceAt))
    ⟨.integrityError, "uq_task_schedule_occurrence_identity"⟩
  return { t with occurrences := t.occurrences ++ [row] }

/-- `claim_due`: the first claim of the instant the schedule waits for. -/
def claimDue (record : ScheduleRecord) (worker : Credentials) (occurrenceId : Uuid)
    (reference leaseStart last : Timestamp) :
    Except Fault (Option ClaimedSchedule × ScheduleTables) := do
  credentials settings worker.workerId worker.token worker.leaseSeconds
  let row ← requireRow t record.projectId record.scheduleId
  match row.nextRunAt with
  | none => return (none, t)
  | some due =>
    if row.status ≠ .active ∨ row.rowVersion ≠ record.rowVersion ∨
        row.configurationVersion ≠ record.configurationVersion ∨
        row.nextRunAt ≠ record.nextRunAt ∨ reference < due then
      return (none, t)
    if row.occurrenceProtocol ≠ 1 then
      let stopped ← bump
        { row with
          status := .error
          nextRunAt := none
          lastError := some "Legacy schedule requires explicit migration before activation" }
        reference
      return (none, t.putSchedule stopped)
    if t.pendingCount row.id ≠ 0 then
      return (none, t)
    if ∃ limit ∈ row.definition.maxRuns, limit ≤ row.runCount then
      let done ← bump { row with status := .completed, nextRunAt := none } reference
      return (none, t.putSchedule done)
    exactMinute due
    require (settings.nextFromDefinition row.definition (due - minute) = some due)
      ⟨.scheduleOccurrenceConflictError, "Schedule candidate does not match its definition"⟩
    let plan := settings.planOccurrence row.definition due reference
    let snapshot : ScheduleOccurrenceSnapshot :=
      { scheduleId := row.id
        occurrenceAt := due
        name := row.name
        configurationVersion := row.configurationVersion
        claimRowVersion := row.rowVersion + 1
        definition := row.definition
        intent :=
          ⟨row.projectId, row.skillVersionId, row.taskKey, row.createdBy, row.inputJson,
            row.sources, true, true, true⟩
        exhausted := plan.exhausted
        missed := plan.missed }
    require (settings.restorable snapshot = true)
      ⟨.scheduleOccurrenceConflictError, "Stored occurrence snapshot is invalid"⟩
    let occurrence : TaskScheduleOccurrence :=
      { id := occurrenceId
        scheduleId := row.id
        projectId := row.projectId
        createdBy := row.createdBy
        skillVersionId := row.skillVersionId
        occurrenceAt := due
        idempotencyKey := snapshot.idempotencyKey settings
        configurationVersion := row.configurationVersion
        snapshot := snapshot
        snapshotChecksum := settings.checksum snapshot
        status := .pending
        workerId := worker.workerId
        leaseTokenHash := settings.leaseTokenHash worker.token
        leaseGeneration := 1
        leaseExpiresAt := max reference leaseStart + worker.leaseSeconds * second
        attemptCount := 1
        runId := none
        outcome := none
        detail := none
        settledAt := none
        updatedAt := reference }
    let inserted ← insertOccurrence t occurrence
    let next ← bump
      { row with nextRunAt := plan.nextRunAt, missedCount := row.missedCount + plan.missed }
      reference
    let claim ← claimed settings occurrence worker.token
    requireFence settings occurrence claim last false
    return (some claim, inserted.putSchedule next)

/-- The claim of the occurrence has expired, and it may be tried again. -/
def TaskScheduleOccurrence.recoverable (row : TaskScheduleOccurrence) (reference : Timestamp)
    (maxAttempts : Nat) : Bool :=
  row.status = .pending ∧ row.leaseExpiresAt ≤ reference ∧ row.attemptCount < maxAttempts

/-- One candidate of `claim_recoverable` gets the next generation. -/
def recoverOne (worker : Credentials) (reference : Timestamp) (maxAttempts : Nat)
    (result : List ClaimedSchedule) (schedule : TaskSchedule) (start : Timestamp) :
    Except Fault (List ClaimedSchedule × ScheduleTables) := do
  match t.occurrences.find? (ScheduleTables.pendingOf schedule.id) with
  | none => return (result, t)
  | some row =>
    if row.recoverable reference maxAttempts = false then
      return (result, t)
    let _ ← occurrenceSnapshot settings row
    require (row.projectId = schedule.projectId)
      ⟨.scheduleOccurrenceConflictError, "Occurrence scope does not match"⟩
    positiveInteger (row.leaseGeneration + 1) "lease_generation" maxInteger
    let again : TaskScheduleOccurrence :=
      { row with
        workerId := worker.workerId
        leaseTokenHash := settings.leaseTokenHash worker.token
        leaseGeneration := row.leaseGeneration + 1
        attemptCount := row.attemptCount + 1
        leaseExpiresAt := max reference start + worker.leaseSeconds * second
        updatedAt := reference }
    let claim ← claimed settings again worker.token
    return (result ++ [claim], t.putOccurrence again)

/-- The candidates one after the other; each takes a reading of the clock. -/
def recoverAll (worker : Credentials) (reference : Timestamp) (maxAttempts : Nat) :
    List ClaimedSchedule → List (TaskSchedule × Timestamp) → ScheduleTables →
    Except Fault (List ClaimedSchedule × ScheduleTables)
  | result, [], t => .ok (result, t)
  | result, (schedule, start) :: rest, t => do
    let (claims, next) ← recoverOne settings t worker reference maxAttempts result schedule start
    recoverAll worker reference maxAttempts claims rest next

/-- The schedules with an expired claim, except those another transaction has locked. -/
def recoveryCandidates (reference : Timestamp) (limit maxAttempts : Nat) (skipped : List Uuid) :
    List TaskSchedule :=
  ((t.schedules.filter fun schedule =>
      schedule.occurrenceProtocol = 1 ∧ schedule.id ∉ skipped ∧
        ∃ row ∈ t.occurrences, row.scheduleId = schedule.id ∧
          row.recoverable reference maxAttempts = true).insertionSort
    fun one other => one.id ≤ other.id).take limit

def claimRecoverable (worker : Credentials) (limit maxAttempts : Nat) (skipped : List Uuid)
    (reference : Timestamp) (starts : List Timestamp) (last : Timestamp) :
    Except Fault (List ClaimedSchedule × ScheduleTables) := do
  credentials settings worker.workerId worker.token worker.leaseSeconds
  positiveInteger limit "limit" 1000
  positiveInteger maxAttempts "max_attempts" maxInteger
  let candidates := recoveryCandidates t reference limit maxAttempts skipped
  let (claims, recovered) ←
    recoverAll settings worker reference maxAttempts [] (candidates.zip starts) t
  require (∀ claim ∈ claims, last < claim.leaseExpiresAt)
    ⟨.scheduleClaimLostError, "Recovered schedule claim expired before commit"⟩
  return (claims, recovered)

structure LockedScheduleOccurrence where
  schedule : TaskSchedule
  occurrence : TaskScheduleOccurrence

def lockClaim (claim : ClaimedSchedule) (now : Timestamp) :
    Except Fault LockedScheduleOccurrence := do
  let schedule ← requireRow t claim.projectId claim.scheduleId
  let row ← orFault ⟨.scheduleClaimLostError, "Schedule claim is unavailable"⟩
    (t.occurrences.find? fun row => row.id = claim.occurrenceId ∧
      row.scheduleId = claim.scheduleId)
  require (schedule.occurrenceProtocol = 1)
    ⟨.scheduleClaimLostError, "Schedule claim is unavailable"⟩
  let snapshot ← occurrenceSnapshot settings row
  matchClaim row snapshot claim
  requireFence settings row claim now false
  return ⟨schedule, row⟩

def validateResult (row : TaskScheduleOccurrence) (result : ScheduleTriggerResult) :
    Except Fault Unit :=
  require (result.scheduleId = row.scheduleId ∧ result.occurrenceAt = row.occurrenceAt ∧
      result.outcome ∈ [.runCreated, .skippedOverlap, .failedPrecondition] ∧
      (result.outcome = .runCreated ↔ result.runId.isSome = true) ∧
      (∀ detail ∈ result.detail, detail.length ≤ 512))
    ⟨.scheduleOccurrenceConflictError, "Occurrence result is invalid"⟩

/-- `_result`: the stored settlement. -/
def storedResult (row : TaskScheduleOccurrence) : Except Fault ScheduleTriggerResult := do
  let invalid : Fault :=
    ⟨.scheduleOccurrenceConflictError, "Stored occurrence settlement is invalid"⟩
  let outcome ← orFault invalid row.outcome
  let _ ← orFault invalid row.settledAt
  let result : ScheduleTriggerResult :=
    ⟨row.scheduleId, row.occurrenceAt, outcome, row.runId, row.detail⟩
  validateResult row result
  return result

/-- `find_task_run_replay`: the Run that was created by the same request. -/
def findTaskRunReplay (intent : TaskRunIntent) (idempotencyKey : String) :
    Except Fault (Option CreatedRun) :=
  match t.runs.find? fun run => run.intent.projectId = intent.projectId ∧
      run.intent.skillVersionId = intent.skillVersionId ∧
      run.intent.taskKey = intent.taskKey ∧ run.idempotencyKey = idempotencyKey with
  | none => .ok none
  | some run => do
    require (run.intent = intent)
      ⟨.idempotencyConflictError,
        "Idempotency-Key is already associated with a different request."⟩
    return some run

/-- The summary of a schedule after one of its occurrences is settled. -/
def TaskSchedule.summarized (schedule : TaskSchedule) (row : TaskScheduleOccurrence)
    (result : ScheduleTriggerResult) : TaskSchedule :=
  let counted :=
    { schedule with
      runCount := if result.runId.isSome then schedule.runCount + 1 else schedule.runCount }
  if ∀ last ∈ counted.lastRunAt, last < row.occurrenceAt then
    { counted with
      lastRunAt := some row.occurrenceAt
      lastOutcome := some result.outcome
      lastError := result.detail
      lastRunId := if result.runId.isSome then result.runId else counted.lastRunId }
  else counted

/-- The status of a schedule that has not been changed since the claim. -/
def TaskSchedule.concluded (schedule : TaskSchedule) (claim : ClaimedSchedule)
    (result : ScheduleTriggerResult) : TaskSchedule :=
  let status : ScheduleStatus :=
    if result.outcome = .failedPrecondition then .error
    else if claim.exhausted = true ∨
        ∃ limit ∈ schedule.definition.maxRuns, limit ≤ schedule.runCount then .completed
    else schedule.status
  if status = .active then schedule else { schedule with status, nextRunAt := none }

/-- `record_outcome`: the occurrence is settled once; the same result may be sent again. -/
def recordOutcome (claim : ClaimedSchedule) (result : ScheduleTriggerResult)
    (lockNow reference last : Timestamp) :
    Except Fault (ScheduleTriggerResult × ScheduleTables) := do
  let ⟨schedule, row⟩ ← lockClaim settings t claim lockNow
  validateResult row result
  if row.status = .settled then
    let existing ← storedResult row
    require (existing = result)
      ⟨.scheduleOccurrenceConflictError, "Occurrence was settled differently"⟩
    return (existing, t)
  match result.runId with
  | some runId =>
    let snapshot ← occurrenceSnapshot settings row
    let existing ← findTaskRunReplay t snapshot.intent (snapshot.idempotencyKey settings)
    require (∃ run ∈ existing, run.id = runId)
      ⟨.scheduleOccurrenceConflictError, "Run does not match original occurrence"⟩
  | none => pure ()
  requireFence settings row claim reference false
  let settled : TaskScheduleOccurrence :=
    { row with
      status := .settled
      outcome := some result.outcome
      runId := result.runId
      detail := result.detail
      settledAt := some reference
      updatedAt := reference }
  require (∀ runId ∈ result.runId, ∀ other ∈ t.occurrences, other.runId ≠ some runId)
    ⟨.integrityError, "uq_task_schedule_occurrence_run"⟩
  let summarized := schedule.summarized row result
  let concluded :=
    if schedule.configurationVersion = claim.configurationVersion ∧
        schedule.rowVersion = claim.claimRowVersion ∧ summarized.status = .active then
      summarized.concluded claim result
    else summarized
  let bumped ← bump concluded reference
  requireFence settings settled claim last true
  return (result, (t.putOccurrence settled).putSchedule bumped)

end Repository

end SkillMind.Schedules
