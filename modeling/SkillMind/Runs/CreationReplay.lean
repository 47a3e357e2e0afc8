import SkillMind.Evaluations.Domain
import SkillMind.Runs.CreationRequest

/-!
# Asking for a Run again

A Run belongs to one key of its project and task.  When the key is used again, the request that
the Run was made for is rebuilt from the columns of the Run and checked against the hash that was
stored with them; the Run is returned to the same request only.  A deleted Run leaves an audit
that keeps its key.

A call is one transaction, which holds the lock of its project.
-/

namespace SkillMind.Runs.Creation

open Library SkillMind.Core
open Documents (UnicodeTables uuid member documentCapabilities)
open Effects (uuidText textAt objectAt asObject sha256Hex objectColumn sameValue)

structure CreateRunCommand where
  projectId : Uuid
  taskId : Uuid
  idempotencyKey : String
  input : List (String × Json)
  taskSnapshot : List (String × Json)
  permissionSnapshot : List (String × Json)
  selectedSources : List (String × Json)
  limitsSnapshot : List (String × Json)
  skillSnapshots : List (List (String × Json))
  budgetPolicy : Option (List (String × Json))

/-- The columns of a Run that its creation writes, and those that move with it. -/
structure RunRow where
  id : Uuid
  projectId : Uuid
  taskId : Uuid
  idempotencyKey : String
  requestHash : String
  input : List Char
  taskSnapshot : List Char
  permissionSnapshot : List Char
  selectedSources : List Char
  limitsSnapshot : List Char
  createdAt : Timestamp
  status : RunStatus
  rowVersion : Nat
  trashedAt : Option Timestamp

structure RunDeletionAudit where
  projectId : Uuid
  runId : Uuid
  taskId : Uuid
  idempotencyKey : String

structure CreatedRun where
  runId : Uuid
  projectId : Uuid
  taskId : Uuid
  status : RunStatus
  rowVersion : Nat
  createdAt : Timestamp
  idempotentReplay : Bool

structure CreationTables where
  runs : List RunRow
  deletions : List RunDeletionAudit

def CreationTables.empty : CreationTables := ⟨[], []⟩

/-- The project, the task and the key of a request. -/
abbrev CreationKey := Uuid × Uuid × String

def CreateRunCommand.key (command : CreateRunCommand) : CreationKey :=
  (command.projectId, command.taskId, command.idempotencyKey)

def RunRow.key (row : RunRow) : CreationKey := (row.projectId, row.taskId, row.idempotencyKey)

def RunDeletionAudit.key (audit : RunDeletionAudit) : CreationKey :=
  (audit.projectId, audit.taskId, audit.idempotencyKey)

/-- `_to_created_run`. -/
def RunRow.created (row : RunRow) (replay : Bool) : CreatedRun :=
  { runId := row.id, projectId := row.projectId, taskId := row.taskId, status := row.status,
    rowVersion := row.rowVersion, createdAt := row.createdAt, idempotentReplay := replay }

def creationRequestField : String := "creation_request"

section Calls

variable (library : StandardLibrary) (tables : UnicodeTables)
  (deriveTaskId : Uuid → String → Uuid)

/-- What the hash of an older request was taken of. -/
def legacyContent (command : CreateRunCommand) : Json :=
  .object ([ ("project_id", .string (uuidText command.projectId))
    , ("task_id", .string (uuidText command.taskId))
    , ("input", .object command.input)
    , ("task_snapshot", .object command.taskSnapshot)
    , ("permission_snapshot", .object command.permissionSnapshot)
    , ("selected_sources", .object command.selectedSources)
    , ("limits_snapshot", .object command.limitsSnapshot)
    , ("skill_snapshots", .array (command.skillSnapshots.map .object)) ] ++
    match command.budgetPolicy with
    | some policy => [("budget_policy", .object policy)]
    | none => [])

def requestHash (command : CreateRunCommand) : Except CreationFault String :=
  match member command.taskSnapshot creationRequestField with
  | some value => do
    let intent ← TaskRunIntent.fromJson tables value
    require (intent.projectId = command.projectId ∧
        deriveTaskId intent.skillVersionId intent.taskKey = command.taskId ∧
        textAt command.taskSnapshot "skill_version_id" = some (uuidText intent.skillVersionId) ∧
        textAt command.taskSnapshot "task_key" = some intent.taskKey ∧
        textAt command.permissionSnapshot "actor_id" = some (uuidText intent.actorId) ∧
        canonicalJson (.object command.input) = canonicalJson (.object intent.input))
      (.invalid "Creation request does not match its execution snapshot identity")
    return intent.fingerprint library
  | none => return sha256Hex library (canonicalJson (legacyContent command))

/-! ## The request of a stored Run -/

/-- The source without what its binding added to it. -/
def initialSource : Json → Json
  | .object fields =>
    if (member fields "integration_id").isSome then
      .object (fields.filter fun field =>
        field.1 ∉ ["binding_id", "binding_checksum", "binding_capability"])
    else .object fields
  | value => value

def storedSkills (task : List (String × Json)) : Option (List (List (String × Json))) :=
  match member task "skill_snapshots" with
  | none => some []
  | some (.array items) => items.mapM asObject
  | some _ => none

def storedCommand (row : RunRow) : Except CreationFault CreateRunCommand := do
  let column (text : List Char) := orFault
    (CreationFault.invalid "Stored Run snapshots must be objects") (objectColumn text)
  let task ← column row.taskSnapshot
  let input ← column row.input
  let permission ← column row.permissionSnapshot
  let selected ← column row.selectedSources
  let limits ← column row.limitsSnapshot
  let skills ← orFault (.invalid "Stored Skill snapshots are invalid") (storedSkills task)
  return {
    projectId := row.projectId, taskId := row.taskId, idempotencyKey := row.idempotencyKey,
    input := input, taskSnapshot := task, permissionSnapshot := permission,
    selectedSources :=
      if (member task creationRequestField).isSome then selected
      else selected.map fun source => (source.1, initialSource source.2),
    limitsSnapshot := limits, skillSnapshots := skills, budgetPolicy := none }

/-- `_string`. -/
def legacyString (fields : List (String × Json)) (key : String) :
    Except CreationFault String := do
  let text ← orFault (.invalid "Legacy request identity is missing") (textAt fields key)
  require (text ≠ "") (.invalid "Legacy request identity is missing")
  return text

/-- The choice that a selected source was made with, unless it was left to the project. -/
def legacyChoice (key : String) : Json → Except CreationFault (Option (String × String))
  | .object fields =>
    match member fields "capability" with
    -- Such a value cannot be looked up in a set.
    | some (.array _) | some (.object _) => .error (.invalid "unhashable type")
    | _ =>
      if (textAt fields "capability").any (fun found => found ∈ documentCapabilities) then do
        let token ← legacyString fields "candidate_key"
        return some (key, token)
      else if (member fields "integration_id").isSome then
        match member fields "source_binding_id" with
        | some .null => do
          let token ← legacyString fields "candidate_key"
          return some (key, token)
        | some (.string text) => do
          let _ ← orFault (.invalid "badly formed hexadecimal UUID string")
            (uuid tables text)
          return none
        | some _ => .error (.invalid "Legacy default binding identity is invalid")
        | none => .error (.invalid "Legacy resource choice cannot be determined")
      else .error (.invalid "Legacy resource choice cannot be determined")
  | _ => .error (.invalid "Legacy resource choice is ambiguous")

def legacyIntent (row : RunRow) (command : CreateRunCommand) :
    Except CreationFault TaskRunIntent := do
  let identity (text : String) := orFault
    (CreationFault.invalid "badly formed hexadecimal UUID string") (uuid tables text)
  let choices ← command.selectedSources.mapM fun source => legacyChoice tables source.1 source.2
  let skillVersionId ← legacyString command.taskSnapshot "skill_version_id" >>= identity
  let taskKey ← legacyString command.taskSnapshot "task_key"
  let actorId ← legacyString command.permissionSnapshot "actor_id" >>= identity
  TaskRunIntent.checked tables
    { projectId := row.projectId, skillVersionId := skillVersionId, taskKey := taskKey,
      actorId := actorId, input := command.input, sources := choices.filterMap id,
      autoApprove := false, autoApproveGit := false, autoApproveMcp := false }

def originalIntent (row : RunRow) (command : CreateRunCommand) :
    Except CreationFault TaskRunIntent :=
  match member command.taskSnapshot creationRequestField with
  | some value => TaskRunIntent.fromJson tables value
  | none => legacyIntent tables row command

def unverified : CreationFault :=
  .conflict ("The stored request cannot be safely replayed; " ++
    "confirm the existing Run before starting another.")

def differentRequest : CreationFault :=
  .conflict "Idempotency-Key is already associated with a different request."

def storedCreationIntent (row : RunRow) : Except CreationFault TaskRunIntent :=
  Except.mapError (fun _ => unverified) do
    let command ← storedCommand row
    let original ← originalIntent tables row command
    require (original.projectId = row.projectId ∧
        deriveTaskId original.skillVersionId original.taskKey = row.taskId)
      (.invalid "Stored request integrity could not be verified")
    let hash ← requestHash library tables deriveTaskId command
    require (hash = row.requestHash)
      (.invalid "Stored request integrity could not be verified")
    return original

def validateCreationReplay (row : RunRow) (requested : TaskRunIntent) :
    Except CreationFault Unit := do
  let original ← storedCreationIntent library tables deriveTaskId row
  require (original.fingerprint library = requested.fingerprint library) differentRequest

def loadByIdempotency (t : CreationTables) (key : CreationKey) : Option RunRow :=
  t.runs.find? fun row => decide (row.key = key)

def findTaskRunReplay (intent : TaskRunIntent) (idempotencyKey : String) (t : CreationTables) :
    Except CreationFault (Option CreatedRun) :=
  match loadByIdempotency t
    (intent.projectId, deriveTaskId intent.skillVersionId intent.taskKey, idempotencyKey) with
  | none => return none
  | some existing => do
    validateCreationReplay library tables deriveTaskId existing intent
    return some (existing.created true)

def permanentlyDeleted : CreationFault :=
  .conflict "The original execution was permanently deleted"

def insertedRun (command : CreateRunCommand) (hash : String) (runId : Uuid) (now : Timestamp) :
    RunRow :=
  { id := runId, projectId := command.projectId, taskId := command.taskId,
    idempotencyKey := command.idempotencyKey, requestHash := hash,
    input := dumps (.object command.input),
    taskSnapshot := dumps (.object command.taskSnapshot),
    permissionSnapshot := dumps (.object command.permissionSnapshot),
    selectedSources := dumps (.object command.selectedSources),
    limitsSnapshot := dumps (.object command.limitsSnapshot),
    createdAt := now, status := .queued, rowVersion := 1, trashedAt := none }

/-- `create_idempotent`; whether the Skill versions are published is read from other tables. -/
def createIdempotent (skillsPublished : Bool) (runId : Uuid) (now : Timestamp)
    (command : CreateRunCommand) (t : CreationTables) :
    Except CreationFault (CreatedRun × CreationTables) := do
  require (∀ audit ∈ t.deletions, audit.key ≠ command.key) permanentlyDeleted
  let hash ← requestHash library tables deriveTaskId command
  match loadByIdempotency t command.key with
  | some existing => do
    match member command.taskSnapshot creationRequestField with
    | some value => do
      let requested ← TaskRunIntent.fromJson tables value
      validateCreationReplay library tables deriveTaskId existing requested
    | none => require (existing.requestHash = hash) differentRequest
    return (existing.created true, t)
  | none => do
    require (skillsPublished = true) (.invalid "Run references an unavailable Skill version")
    require (∀ policy ∈ command.budgetPolicy,
        sameValue (member command.limitsSnapshot "budget_policy") (some (.object policy)) = true)
      (.invalid "New Run requires its frozen budget policy marker")
    let row := insertedRun command hash runId now
    return (row.created false, { t with runs := t.runs ++ [row] })

end Calls

section Store

variable (library : StandardLibrary) (tables : UnicodeTables)
  (deriveTaskId : Uuid → String → Uuid)

structure PreparedCommand where
  intent : TaskRunIntent
  command : CreateRunCommand
  made : TaskRunIntent.checked tables intent = .ok intent
  distinct : (intent.sources.map Prod.fst).Nodup
  request : member command.taskSnapshot creationRequestField = some intent.toJson
  project : command.projectId = intent.projectId
  task : command.taskId = deriveTaskId intent.skillVersionId intent.taskKey
  version : textAt command.taskSnapshot "skill_version_id" =
    some (uuidText intent.skillVersionId)
  taskKey : textAt command.taskSnapshot "task_key" = some intent.taskKey
  actor : textAt command.permissionSnapshot "actor_id" = some (uuidText intent.actorId)
  input : command.input = intent.input
  skills : ∃ skills, storedSkills command.taskSnapshot = some skills
  inputFormed : (Json.object command.input).wellFormed = true
  taskFormed : (Json.object command.taskSnapshot).wellFormed = true
  permissionFormed : (Json.object command.permissionSnapshot).wellFormed = true
  selectedFormed : (Json.object command.selectedSources).wellFormed = true
  limitsFormed : (Json.object command.limitsSnapshot).wellFormed = true

/-- An object that a program can hold. -/
abbrev JsonObject := { fields : List (String × Json) // (Json.object fields).wellFormed = true }

inductive CreationAction where
  | create (skillsPublished : Bool) (runId : Uuid) (now : Timestamp)
      (prepared : PreparedCommand tables deriveTaskId)
  | find (intent : TaskRunIntent) (idempotencyKey : String)
  | bind (runId : Uuid) (selectedSources : JsonObject)
  /-- Whatever else happens to a Run writes none of the columns of its creation. -/
  | advance (runId : Uuid) (status : RunStatus) (rowVersion : Nat)
      (trashedAt : Option Timestamp)
  | purge (runId : Uuid)

/-- The change of the Run with this identifier. -/
def writeRun (runId : Uuid) (write : RunRow → RunRow) (t : CreationTables) : CreationTables :=
  { t with runs := t.runs.map fun row => if row.id = runId then write row else row }

def replaceInitialSelectedSources (runId : Uuid) (selectedSources : List (String × Json))
    (t : CreationTables) : Except CreationFault CreationTables := do
  let run ← orFault (.invalid "Run not found")
    (t.runs.find? fun row => decide (row.id = runId))
  require (run.status = .queued ∧ run.rowVersion = 1)
    (.invalid "Run source snapshot is already immutable")
  return writeRun runId
    (fun row => { row with selectedSources := dumps (.object selectedSources) }) t

/-- `purge_run`, as far as it concerns the key of the Run. -/
def purgeRun (runId : Uuid) (t : CreationTables) : CreationTables :=
  { runs := t.runs.filter fun row => row.id ≠ runId
    deletions := t.deletions ++ (t.runs.filter fun row => row.id = runId).map fun row =>
      ⟨row.projectId, row.id, row.taskId, row.idempotencyKey⟩ }

def execCreation : CreationAction tables deriveTaskId → CreationTables →
    Except CreationFault (Option CreatedRun × CreationTables)
  | .create skillsPublished runId now prepared, t => do
    let (created, t) ← createIdempotent library tables deriveTaskId skillsPublished runId now
      prepared.command t
    return (some created, t)
  | .find intent key, t => do
    let found ← findTaskRunReplay library tables deriveTaskId intent key t
    return (found, t)
  | .bind runId sources, t => do
    let t ← replaceInitialSelectedSources runId sources.val t
    return (none, t)
  | .advance runId status version trashed, t =>
    .ok (none, writeRun runId (fun row =>
      { row with status := status, rowVersion := version, trashedAt := trashed }) t)
  | .purge runId, t => .ok (none, purgeRun runId t)

def creationStore : TransactionSystem CreationTables (CreationAction tables deriveTaskId)
    (Option CreatedRun) CreationFault :=
  ⟨execCreation library tables deriveTaskId⟩

end Store

end SkillMind.Runs.Creation
