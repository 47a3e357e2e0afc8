import SkillMind.Library.Commit
import SkillMind.Runs.InputSnapshot
import SkillMind.Runs.RunRefinement

/-!
# Preparing the input of a Run

Before the agent starts, the attempt that claimed the preparation fetches the files, seals them
and completes the receipt of the Run.  Every call is a short transaction under the lock of the
Run, and checks the lease of its attempt, a recorded cancellation and the frozen sources again.

A commit may be lost on its way: the caller of such a call learns nothing, and the rows may be
written or not. `PostgresInputSnapshotStore.complete` then reads the receipt back in another
transaction.

The sources of a Run are written with it and never again, so that they are a setting here.
-/

namespace SkillMind.Runs

open Library SkillMind.Core
open Documents (UnicodeTables)

/-! ## Rows -/

/-- A row of `run_input_snapshots`. -/
structure RunInputSnapshot where
  id : Uuid
  runId : Uuid
  projectId : Uuid
  preparedByAttemptId : Uuid
  sourceChecksum : String
  status : InputSnapshotStatus
  filesJson : Json
  treeChecksum : Option String
  totalFiles : Nat
  totalBytes : Int
  createdAt : Timestamp
  completedAt : Option Timestamp

structure InputTables where
  runs : RunTables
  snapshots : List RunInputSnapshot

def InputTables.empty : InputTables := ⟨RunTables.empty, []⟩

structure InputSettings where
  runs : RunSettings
  unicode : UnicodeTables
  library : StandardLibrary
  /-- `selected_sources_json` of the Run. -/
  selectedSources : Json

structure InputClaim where
  issued : IssuedClaim
  selectedSources : Json

abbrev InputClaim.claimed (claim : InputClaim) : ClaimedRun := claim.issued.claimed

inductive InputFault where
  | run (fault : Fault)
  | snapshot (error : InputSnapshotError)
  /-- A value is out of the range of its column. -/
  | database

/-- The checked projection of a row. -/
structure InputSnapshotRecord (tables : UnicodeTables) where
  snapshotId : Uuid
  projectId : Uuid
  runId : Uuid
  preparedByAttemptId : Uuid
  sourceChecksum : String
  status : InputSnapshotStatus
  files : List (InputFileSeal tables)
  treeChecksum : Option String
  completedAt : Option Timestamp

section Store

variable (settings : InputSettings)

def runSourceChecksum (run : Run) : String :=
  inputSourceChecksum settings.library run.projectId run.id settings.selectedSources

def checkStage (row : RunInputSnapshot) (files : List (InputFileSeal settings.unicode)) :
    Except InputSnapshotError Unit :=
  match row.status with
  | .ready =>
    require (row.completedAt ≠ none ∧
        row.treeChecksum = some (inputTreeChecksum settings.library files))
      ⟨"Completed input receipt is invalid"⟩
  | .preparing =>
    require (files = [] ∧ row.completedAt = none ∧ row.treeChecksum = none)
      ⟨"Incomplete input receipt is invalid"⟩

/-- `_record`. -/
def recordOf (row : RunInputSnapshot) (run : Run) :
    Except InputSnapshotError (InputSnapshotRecord settings.unicode) := do
  require (row.projectId = run.projectId ∧ row.sourceChecksum = runSourceChecksum settings run)
    ⟨"Input receipt does not belong to the frozen Run"⟩
  let files ← parseInputFiles settings.unicode row.filesJson
  require (row.totalFiles = files.length ∧
      row.totalBytes = (files.map InputFileSeal.size).sum)
    ⟨"Input receipt totals are invalid"⟩
  checkStage settings row files
  return ⟨row.id, row.projectId, row.runId, row.preparedByAttemptId, row.sourceChecksum,
    row.status, files, row.treeChecksum, row.completedAt⟩

/-- `_authorize`. -/
def authorizeInputs (tables : InputTables) (claim : InputClaim) (now : Timestamp) :
    Except InputFault Run := do
  let (run, _, attempt) ← (lockClaimedExecution tables.runs claim.claimed).mapError .run
  require (isCancellationRequested tables.runs = false)
    (.snapshot ⟨"Input preparation was cancelled"⟩)
  (validateClaimedLease settings.runs.leaseTokenHash attempt claim.claimed now).mapError .run
  require (run.projectId = claim.claimed.projectId ∧
      (run.status = .preparing ∨ run.status = .running))
    (.run ⟨.leaseValidationError, "Run is not available for input preparation"⟩)
  require (runSourceChecksum settings run =
      inputSourceChecksum settings.library claim.claimed.projectId claim.claimed.runId
        claim.selectedSources)
    (.snapshot ⟨"Input preparation sources do not match the Run"⟩)
  return run

/-- `_get`. -/
def snapshotOf (tables : InputTables) (runId : Uuid) : Option RunInputSnapshot :=
  tables.snapshots.find? fun row => row.runId = runId

/-- The row of a preparation that starts. -/
def newSnapshot (run : Run) (claim : InputClaim) (id : Uuid) (now : Timestamp) :
    RunInputSnapshot where
  id := id
  runId := run.id
  projectId := run.projectId
  preparedByAttemptId := claim.claimed.runAttemptId
  sourceChecksum := runSourceChecksum settings run
  status := .preparing
  filesJson := .array []
  treeChecksum := none
  totalFiles := 0
  totalBytes := 0
  createdAt := now
  completedAt := none

/-- `begin`: the record, and whether this call claimed the preparation. -/
def beginInputs (tables : InputTables) (claim : InputClaim) (id : Uuid)
    (now created : Timestamp) :
    Except InputFault ((InputSnapshotRecord settings.unicode × Bool) × InputTables) := do
  let run ← authorizeInputs settings tables claim now
  match snapshotOf tables run.id with
  | some existing => do
    let record ← (recordOf settings existing run).mapError .snapshot
    return ((record, false), tables)
  | none => do
    let row := newSnapshot settings run claim id created
    let record ← (recordOf settings row run).mapError .snapshot
    return ((record, true), { tables with snapshots := tables.snapshots ++ [row] })

/-- The receipt this attempt prepares, for `complete` and `confirm_completed`. -/
def ownSnapshot (tables : InputTables) (run : Run) (claim : InputClaim) (snapshotId : Uuid)
    (message : String) : Except InputFault RunInputSnapshot :=
  orFault (.snapshot ⟨message⟩) ((snapshotOf tables run.id).filter fun row =>
    row.id = snapshotId ∧ row.preparedByAttemptId = claim.claimed.runAttemptId)

def completedSnapshot (row : RunInputSnapshot) (files : List (InputFileSeal settings.unicode))
    (now : Timestamp) : RunInputSnapshot :=
  { row with
    filesJson := serializeFiles files
    treeChecksum := some (inputTreeChecksum settings.library files)
    totalFiles := files.length
    totalBytes := (files.map InputFileSeal.size).sum
    status := .ready
    completedAt := some now }

/-- `complete`. -/
def completeInputs (tables : InputTables) (claim : InputClaim) (snapshotId : Uuid)
    (files : List (InputFileSeal settings.unicode)) (now completed : Timestamp) :
    Except InputFault (InputSnapshotRecord settings.unicode × InputTables) := do
  let run ← authorizeInputs settings tables claim now
  let row ← ownSnapshot tables run claim snapshotId "Input preparation generation does not match"
  let record ← (recordOf settings row run).mapError .snapshot
  let files ← (parseInputFiles settings.unicode (serializeFiles files)).mapError .snapshot
  if record.status = .ready then
    require (record.files = files ∧
        record.treeChecksum = some (inputTreeChecksum settings.library files))
      (.snapshot ⟨"Completed input receipts cannot be replaced"⟩)
    return (record, tables)
  else
    let row := completedSnapshot settings row files completed
    require (row.totalFiles < 2 ^ 31 ∧ row.totalBytes < 2 ^ 63) .database
    let record ← (recordOf settings row run).mapError .snapshot
    return (record,
      { tables with snapshots := replaceRow RunInputSnapshot.id row tables.snapshots })

def confirmCompleted (tables : InputTables) (claim : InputClaim) (snapshotId : Uuid)
    (files : List (InputFileSeal settings.unicode)) (now : Timestamp) :
    Except InputFault (InputSnapshotRecord settings.unicode) := do
  let run ← authorizeInputs settings tables claim now
  let row ← ownSnapshot tables run claim snapshotId
    "Input completion could not be confirmed for this generation"
  let record ← (recordOf settings row run).mapError .snapshot
  require (record.status = .ready ∧ record.files = files ∧
      record.treeChecksum = some (inputTreeChecksum settings.library files))
    (.snapshot ⟨"Input completion has no matching committed receipt"⟩)
  return record

inductive InputAction where
  | run (action : RunAction)
  | begin (claim : InputClaim) (id : Uuid) (now created : Timestamp) (fate : CommitFate)
  | complete (claim : InputClaim) (snapshotId : Uuid)
      (files : List (InputFileSeal settings.unicode)) (now completed : Timestamp)
      (fate : CommitFate)
  | confirmCompleted (claim : InputClaim) (snapshotId : Uuid)
      (files : List (InputFileSeal settings.unicode)) (now : Timestamp)

inductive InputAnswer where
  | run (answer : RunAnswer)
  | begun (record : InputSnapshotRecord settings.unicode) (claimed : Bool)
  | completed (record : InputSnapshotRecord settings.unicode)
  | unknown

/-- A call without an answer. -/
def orUnknown {α : Type} (answer : α → InputAnswer settings)
    (outcome : Except InputFault (Option α × InputTables)) :
    Except InputFault (InputAnswer settings × InputTables) :=
  outcome.map fun (value, after) => ((value.map answer).getD .unknown, after)

def execInputs (action : InputAction settings) (tables : InputTables) :
    Except InputFault (InputAnswer settings × InputTables) :=
  match action with
  | .run action =>
    ((execRun settings.runs action tables.runs).mapError .run).map fun (answer, runs) =>
      (.run answer, { tables with runs })
  | .begin claim id now created fate =>
    orUnknown settings (fun (record, claimed) => .begun record claimed)
      (fate.settle tables (beginInputs settings tables claim id now created))
  | .complete claim snapshotId files now completed fate =>
    orUnknown settings .completed
      (fate.settle tables (completeInputs settings tables claim snapshotId files now completed))
  | .confirmCompleted claim snapshotId files now =>
    (confirmCompleted settings tables claim snapshotId files now).map fun record =>
      (.completed record, tables)

/-- The receipts and the Run they belong to. -/
def inputStore : TransactionSystem InputTables (InputAction settings) (InputAnswer settings)
    InputFault := ⟨execInputs settings⟩

/-- `PostgresInputSnapshotStore.complete`: after a commit without an answer, and whatever others do
meanwhile, the receipt is read back. -/
def completeThroughStore (tables : InputTables) (claim : InputClaim) (snapshotId : Uuid)
    (files : List (InputFileSeal settings.unicode)) (now completed later : Timestamp)
    (fate : CommitFate) (meanwhile : List (InputAction settings)) :
    Except InputFault (InputSnapshotRecord settings.unicode × InputTables) := do
  let (returned, written) ←
    fate.settle tables (completeInputs settings tables claim snapshotId files now completed)
  match returned with
  | some record => return (record, written)
  | none =>
    let after := (inputStore settings).run written meanwhile
    return (← confirmCompleted settings after claim snapshotId files later, after)

end Store

end SkillMind.Runs
