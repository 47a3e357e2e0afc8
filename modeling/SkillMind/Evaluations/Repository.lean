import SkillMind.Library.Transaction
import SkillMind.Evaluations.Domain

/-!
# The table of evaluations

A row keeps its revisions as JSON text.  Every read derives the original values from the Result
again, builds the command again, checks it and compares the hash, and one row that disagrees
makes the whole read fail.  A new row goes through the same reader before it is added.

Two transactions may both find no submission and both add one; the unique constraint is checked
when the second of them commits.
-/

namespace SkillMind.Evaluations

open Library SkillMind.Core
open Runs (Uuid Timestamp)

structure JsonValue where
  value : Json
  formed : value.wellFormed = true

structure RunRow where
  id : Uuid
  projectId : Uuid

structure RunResult where
  id : Uuid
  runId : Uuid
  data : JsonValue

/-- An evaluation, with its revisions as the text of the column or as the value read from it. -/
structure Evaluation (Column : Type) where
  id : Uuid
  resultId : Uuid
  userId : Uuid
  rating : Int
  verdict : String
  comment : String
  revisionJson : Column
  submissionKey : Option Uuid
  requestHash : Option String
  createdAt : Timestamp
  deriving DecidableEq

def Evaluation.written (evaluation : Evaluation Json) : Evaluation (List Char) :=
  { evaluation with revisionJson := dumps evaluation.revisionJson }

/-- A row as it is read. -/
def Evaluation.loaded (row : Evaluation (List Char)) : Except Fault (Evaluation Json) := do
  let value ← orFault ⟨.valueError, "Expecting value"⟩ (loads row.revisionJson)
  return { row with revisionJson := value }

structure ResultTables where
  runs : List RunRow
  results : List RunResult
  runs_keyed : Keyed RunRow.id runs
  results_keyed : Keyed RunResult.id results
  results_of_run : Keyed RunResult.runId results

/-! ## Reading a row -/

def revisionObject (pointer : String) (original suggested : Json) (reason : String) : Json :=
  .object
    [ ("pointer", .string pointer)
    , ("original_value", original)
    , ("suggested_value", suggested)
    , ("reason", .string reason) ]

def revisionKeys : List String := ["pointer", "original_value", "suggested_value", "reason"]

def field (fields : List (String × Json)) (key : String) : Except Fault Json :=
  orFault ⟨.valueError, key⟩
    ((fields.find? fun member => decide (member.1 = key)).map Prod.snd)

/-- A text, where the checks of the command ask for one. -/
def textual (fault : Fault) : Json → Except Fault String
  | .string text => return text
  | _ => throw fault

def readRevision (data : Json) : Json → Except Fault StoredEvaluationRevision
  | .object fields => do
    require ((∀ key ∈ fields.map Prod.fst, key ∈ revisionKeys) ∧
        ∀ key ∈ revisionKeys, key ∈ fields.map Prod.fst)
      ⟨.valueError, "Evaluation revision shape is invalid"⟩
    let pointer ← textual ⟨.valueError, "Evaluation pointer is invalid"⟩
      (← field fields "pointer")
    let original ← resolveJsonPointer data pointer
    let originalValue ← field fields "original_value"
    let derived ← strictEvaluationJson original
    let stored ← strictEvaluationJson originalValue
    require (derived = stored) ⟨.valueError, "Evaluation original value is invalid"⟩
    let suggestedValue ← field fields "suggested_value"
    let reason ← textual
      ⟨.invalidEvaluationCommandError, "Evaluation revision reason is invalid"⟩
      (← field fields "reason")
    return ⟨pointer, originalValue, suggestedValue, reason⟩
  | _ => throw ⟨.valueError, "Evaluation revision shape is invalid"⟩

def proposal (revision : StoredEvaluationRevision) : EvaluationRevisionProposal :=
  ⟨revision.pointer, revision.suggestedValue, revision.reason⟩

def revisionItems : Json → Except Fault (List Json)
  | .array items => return items
  | _ => throw ⟨.valueError, "Evaluation revisions are invalid"⟩

section Repository

variable (library : StandardLibrary)

def checkBinding (command : CreateEvaluationCommand) (resultId : Uuid)
    (requestHash : Option String) : Option Uuid → Except Fault Unit
  | none =>
    require (requestHash = none) ⟨.valueError, "Evaluation request binding is invalid"⟩
  | some submissionKey => do
    requireEvaluationUuid submissionKey
    let requestHash ← orFault ⟨.valueError, "Evaluation request binding is invalid"⟩
      requestHash
    require (isTaggedSha256 requestHash = true)
      ⟨.valueError, "Evaluation request binding is invalid"⟩
    let derived ← evaluationRequestHash library command resultId submissionKey
    require (requestHash = derived) ⟨.valueError, "Evaluation request binding is invalid"⟩

/-- The checks of `_to_stored` inside its `try`. -/
def readStored (evaluation : Evaluation Json) (projectId : Uuid) (result : RunResult) :
    Except Fault StoredEvaluation := do
  requireEvaluationUuid evaluation.id
  requireEvaluationUuid evaluation.resultId
  requireEvaluationUuid evaluation.userId
  require (evaluation.resultId = result.id)
    ⟨.valueError, "Evaluation Result binding is invalid"⟩
  let items ← revisionItems evaluation.revisionJson
  let revisions ← items.mapM (readRevision result.data.value)
  let verdict ← evaluationVerdict evaluation.verdict
  let command : CreateEvaluationCommand :=
    ⟨projectId, result.runId, evaluation.userId, evaluation.rating, verdict,
      evaluation.comment, revisions.map proposal⟩
  validateEvaluationCommand command
  checkBinding library command result.id evaluation.requestHash evaluation.submissionKey
  return ⟨evaluation.id, result.id, result.runId, evaluation.userId, evaluation.rating, verdict,
    evaluation.comment, revisions, evaluation.createdAt⟩

def toStored (evaluation : Evaluation Json) (projectId : Uuid) (result : RunResult) :
    Except Fault StoredEvaluation :=
  match readStored library evaluation projectId result with
  | .ok stored => .ok stored
  | .error _ => .error ⟨.evaluationIntegrityError, "Evaluation record is invalid"⟩

def storedRow (projectId : Uuid) (result : RunResult) (row : Evaluation (List Char)) :
    Except Fault StoredEvaluation := do
  let evaluation ← row.loaded
  toStored library evaluation projectId result

def getResult (base : ResultTables) (projectId runId : Uuid) (resultId : Option Uuid) :
    Except Fault RunResult := do
  let _ ← orFault ⟨.runNotFoundError, "Run not found in project"⟩
    (base.runs.find? fun run => decide (run.id = runId ∧ run.projectId = projectId))
  let result ← orFault ⟨.evaluationResultNotFoundError, "Run has no evaluable Result"⟩
    (base.results.find? fun result => decide (result.runId = runId))
  require (∀ wanted ∈ resultId, result.id = wanted)
    ⟨.evaluationResultMismatchError, "Evaluation Result does not match"⟩
  return result

/-- The identity of a submission. -/
def Evaluation.submittedAs {Column : Type} (evaluation : Evaluation Column)
    (resultId userId submissionKey : Uuid) : Bool :=
  decide (evaluation.resultId = resultId ∧ evaluation.userId = userId ∧
    evaluation.submissionKey = some submissionKey)

def findSubmission (rows : List (Evaluation (List Char)))
    (resultId userId submissionKey : Uuid) : Option (Evaluation (List Char)) :=
  rows.find? fun row => row.submittedAs resultId userId submissionKey

/-- `ORDER BY created_at, id`. -/
def precedes (first second : Evaluation (List Char)) : Prop :=
  first.createdAt < second.createdAt ∨
    first.createdAt = second.createdAt ∧ first.id ≤ second.id

instance : DecidableRel precedes := fun _ _ => inferInstanceAs (Decidable (_ ∨ _))

def resultRows (rows : List (Evaluation (List Char))) (resultId : Uuid) :
    List (Evaluation (List Char)) :=
  (rows.filter fun row => decide (row.resultId = resultId)).insertionSort precedes

def behind (anchor row : Evaluation (List Char)) : Prop :=
  anchor.createdAt < row.createdAt ∨ anchor.createdAt = row.createdAt ∧ anchor.id < row.id

instance : DecidableRel behind := fun _ _ => inferInstanceAs (Decidable (_ ∨ _))

def submissionHash (command : CreateEvaluationCommand) (resultId : Uuid) :
    Option Uuid → Except Fault (Option String)
  | none => return none
  | some submissionKey => do
    let hash ← evaluationRequestHash library command resultId submissionKey
    return some hash

/-- The object that `_append` makes. -/
def newEvaluation (command : CreateEvaluationCommand) (result : RunResult)
    (submissionKey : Option Uuid) (id : Uuid) (now : Timestamp) :
    Except Fault (Evaluation Json) := do
  let revisions ← command.revisions.mapM fun revision => do
    let original ← resolveJsonPointer result.data.value revision.pointer
    return revisionObject revision.pointer original revision.suggestedValue revision.reason
  let requestHash ← submissionHash library command result.id submissionKey
  return {
    id := id, resultId := result.id, userId := command.userId, rating := command.rating,
    verdict := command.verdict.value, comment := command.comment, revisionJson := .array revisions,
    submissionKey := submissionKey, requestHash := requestHash, createdAt := now }

/-- `_append`: what is returned and the row that the session holds. -/
def append (command : CreateEvaluationCommand) (result : RunResult)
    (submissionKey : Option Uuid) (id : Uuid) (now : Timestamp) :
    Except Fault (StoredEvaluation × Evaluation (List Char)) := do
  let evaluation ← newEvaluation library command result submissionKey id now
  let stored ← toStored library evaluation command.projectId result
  return (stored, evaluation.written)

def create (base : ResultTables) (command : CreateEvaluationCommand) (id : Uuid)
    (now : Timestamp) : Except Fault (StoredEvaluation × Evaluation (List Char)) := do
  validateEvaluationCommand command
  let result ← getResult base command.projectId command.runId none
  append library command result none id now

/-- `submit`, with the row it wants to add when the submission is a new one. -/
def submit (base : ResultTables) (rows : List (Evaluation (List Char)))
    (command : CreateEvaluationCommand) (submissionKey resultId id : Uuid) (now : Timestamp) :
    Except Fault (StoredEvaluationSubmission × Option (Evaluation (List Char))) := do
  requireEvaluationUuid submissionKey
  let requestHash ← evaluationRequestHash library command resultId submissionKey
  let result ← getResult base command.projectId command.runId (some resultId)
  match findSubmission rows result.id command.userId submissionKey with
  | some original =>
    let stored ← storedRow library command.projectId result original
    require (original.requestHash = some requestHash)
      ⟨.evaluationSubmissionConflictError, "Evaluation submission content conflicts"⟩
    return (⟨command.projectId, command.runId, submissionKey, stored, true⟩, none)
  | none =>
    let (stored, row) ← append library command result (some submissionKey) id now
    return (⟨command.projectId, command.runId, submissionKey, stored, false⟩, some row)

def getSubmission (base : ResultTables) (rows : List (Evaluation (List Char)))
    (projectId runId userId submissionKey resultId : Uuid) :
    Except Fault StoredEvaluationSubmission := do
  [projectId, runId, userId, submissionKey, resultId].forM requireEvaluationUuid
  let result ← getResult base projectId runId (some resultId)
  let original ← orFault
    ⟨.evaluationSubmissionNotFoundError, "Evaluation submission was not found"⟩
    (findSubmission rows result.id userId submissionKey)
  let stored ← storedRow library projectId result original
  return ⟨projectId, runId, submissionKey, stored, true⟩

def listForRun (base : ResultTables) (rows : List (Evaluation (List Char)))
    (projectId runId : Uuid) : Except Fault (List StoredEvaluation) := do
  let result ← getResult base projectId runId none
  (resultRows rows result.id).mapM (storedRow library projectId result)

/-- The rows behind the anchor of a page, which has to be a row of the Result. -/
def afterAnchor (rows : List (Evaluation (List Char))) (projectId : Uuid) (result : RunResult) :
    Option Uuid → Except Fault (List (Evaluation (List Char)))
  | none => return rows
  | some after => do
    let anchor ← orFault ⟨.invalidEvaluationCursorError, "Evaluation cursor is invalid"⟩
      (rows.find? fun row => decide (row.id = after ∧ row.resultId = result.id))
    let _ ← storedRow library projectId result anchor
    return rows.filter fun row => decide (behind anchor row)

def listPage (base : ResultTables) (rows : List (Evaluation (List Char)))
    (projectId runId : Uuid) (limit : Nat) (after : Option Uuid) :
    Except Fault StoredEvaluationPage := do
  require (1 ≤ limit ∧ limit ≤ 100)
    ⟨.invalidEvaluationCommandError, "Evaluation page limit is invalid"⟩
  require (after ≠ some 0) ⟨.invalidEvaluationCursorError, "Evaluation cursor is invalid"⟩
  let result ← getResult base projectId runId none
  let selected ← afterAnchor library rows projectId result after
  let checked ← ((resultRows selected result.id).take (limit + 1)).mapM
    (storedRow library projectId result)
  let items := checked.take limit
  return ⟨projectId, runId, result.id, items,
    if limit < checked.length then items.getLast?.map StoredEvaluation.evaluationId else none⟩

end Repository

/-! ## What a row that was read says -/

def StoredEvaluation.command (stored : StoredEvaluation) (projectId : Uuid) :
    CreateEvaluationCommand :=
  ⟨projectId, stored.runId, stored.userId, stored.rating, stored.verdict, stored.comment,
    stored.revisions.map proposal⟩

/-- The values of a revision are the one that was proposed and the one the Result has. -/
def StoredEvaluation.Shows (stored : StoredEvaluation) (command : CreateEvaluationCommand)
    (result : RunResult) : Prop :=
  stored.command command.projectId = command ∧ stored.resultId = result.id ∧
    ∀ revision ∈ stored.revisions,
      resolveJsonPointer result.data.value revision.pointer = .ok revision.originalValue

/-- What the reader found in a row. -/
structure ReadAs (library : StandardLibrary) {Column : Type} (evaluation : Evaluation Column)
    (projectId : Uuid) (result : RunResult) (stored : StoredEvaluation) : Prop where
  id : stored.evaluationId = evaluation.id
  identified : evaluation.id ≠ 0
  result_identified : evaluation.resultId ≠ 0
  result_id : evaluation.resultId = result.id
  stored_result : stored.resultId = result.id
  run : stored.runId = result.runId
  user : stored.userId = evaluation.userId
  created : stored.createdAt = evaluation.createdAt
  valid : validateEvaluationCommand (stored.command projectId) = .ok ()
  hash : ∀ submissionKey, evaluation.submissionKey = some submissionKey →
    submissionKey ≠ 0 ∧ ∃ hash, evaluation.requestHash = some hash ∧
      evaluationRequestHash library (stored.command projectId) result.id submissionKey = .ok hash

variable {library : StandardLibrary} {result : RunResult} {stored : StoredEvaluation}

theorem toStored_eq_ok {evaluation : Evaluation Json}
    {projectId : Uuid} :
    toStored library evaluation projectId result = .ok stored ↔
      readStored library evaluation projectId result = .ok stored := by
  unfold toStored
  split <;> rename_i outcome <;> simp [outcome]

theorem revisionItems_ok {column : Json} {items : List Json}
    (read : revisionItems column = .ok items) : column = .array items := by
  cases column with
  | array others =>
    rw [revisionItems, pure_eq_ok] at read
    rw [read]
  | null => cases read
  | bool value => cases read
  | number literal => cases read
  | string text => cases read
  | object fields => cases read

theorem readStored_ok {evaluation : Evaluation Json}
    {projectId : Uuid}
    (read : readStored library evaluation projectId result = .ok stored) :
    ReadAs library evaluation projectId result stored ∧
      evaluation.rating = stored.rating ∧
      evaluationVerdict evaluation.verdict = .ok stored.verdict ∧
      evaluation.comment = stored.comment ∧
      ∃ items, evaluation.revisionJson = .array items ∧
        items.mapM (readRevision result.data.value) = .ok stored.revisions := by
  simp only [readStored, requireEvaluationUuid, bind_eq_ok, require_eq_ok, exists_unit] at read
  obtain ⟨identified, named, _, bound, items, array, revisions, readItems, verdict, known, valid,
    binding, made⟩ := read
  rw [pure_eq_ok] at made
  subst made
  refine ⟨⟨rfl, identified, named, bound, rfl, rfl, rfl, rfl, valid, ?_⟩, rfl, known, rfl, ?_⟩
  · intro submissionKey keyed
    rw [keyed] at binding
    simp only [checkBinding, requireEvaluationUuid, bind_eq_ok, require_eq_ok, exists_unit,
      orFault_eq_ok] at binding
    obtain ⟨keyed, hash, present, _, derived, hashed, same⟩ := binding
    exact ⟨keyed, hash, present, same ▸ hashed⟩
  · exact ⟨items, revisionItems_ok array, readItems⟩

theorem storedRow_ok {row : Evaluation (List Char)}
    {projectId : Uuid}
    (read : storedRow library projectId result row = .ok stored) :
    ReadAs library row projectId result stored := by
  simp only [storedRow, Evaluation.loaded, bind_eq_ok, orFault_eq_ok, pure_eq_ok] at read
  obtain ⟨_, ⟨value, _, rfl⟩, checked⟩ := read
  obtain ⟨found, _⟩ := readStored_ok (toStored_eq_ok.mp checked)
  exact ⟨found.id, found.identified, found.result_identified, found.result_id,
    found.stored_result, found.run, found.user, found.created, found.valid, found.hash⟩

theorem readRevision_object {data original suggested : Json} {pointer reason : String}
    (formed : original.wellFormed = true)
    (found : resolveJsonPointer data pointer = .ok original) :
    readRevision data (revisionObject pointer original suggested reason) =
      .ok ⟨pointer, original, suggested, reason⟩ := by
  have shape : (∀ key ∈ revisionKeys, key ∈ revisionKeys) ∧
      ∀ key ∈ revisionKeys, key ∈ revisionKeys := ⟨fun _ mem => mem, fun _ mem => mem⟩
  have strict := strictEvaluationJson_eq_ok.mpr ⟨formed, rfl⟩
  rw [revisionObject, readRevision]
  simp only [List.map_cons, List.map_nil]
  rw [require, if_pos (by exact shape)]
  simp [field, textual, found, strict, orFault, require, bind, Except.bind, pure, Except.pure]

theorem readRevisions_new {data : Json} (formed : data.wellFormed = true)
    {revisions : List EvaluationRevisionProposal} {items : List Json}
    (made : (revisions.mapM fun revision => do
      let original ← resolveJsonPointer data revision.pointer
      return revisionObject revision.pointer original revision.suggestedValue revision.reason) =
        .ok items) :
    ∃ stored, items.mapM (readRevision data) = .ok stored ∧ stored.map proposal = revisions ∧
      (∀ revision ∈ stored,
        resolveJsonPointer data revision.pointer = .ok revision.originalValue) ∧
      ((∀ revision ∈ revisions, revision.suggestedValue.wellFormed = true) →
        itemsWellFormed items = true) := by
  induction revisions generalizing items with
  | nil =>
    rw [List.mapM_nil, pure_eq_ok] at made
    subst made
    exact ⟨[], rfl, rfl, by simp, fun _ => rfl⟩
  | cons revision rest ih =>
    rw [List.mapM_cons] at made
    simp only [bind_eq_ok, pure_eq_ok] at made
    obtain ⟨_, ⟨original, found, rfl⟩, others, tail, rfl⟩ := made
    obtain ⟨stored, read, same, shown, sound⟩ := ih tail
    have originalFormed := wellFormed_resolve formed found
    refine ⟨⟨revision.pointer, original, revision.suggestedValue, revision.reason⟩ :: stored,
      ?_, ?_, ?_, ?_⟩
    · rw [List.mapM_cons, readRevision_object originalFormed found, read]
      rfl
    · rw [List.map_cons, same]
      rfl
    · intro shownRevision mem
      rcases List.mem_cons.mp mem with rfl | later
      · exact found
      · exact shown shownRevision later
    · intro values
      have head := values revision List.mem_cons_self
      have others := sound fun other mem => values other (List.mem_cons_of_mem revision mem)
      simp [itemsWellFormed, others, revisionObject, Json.wellFormed, membersWellFormed,
        originalFormed, head]

theorem loaded_written {evaluation : Evaluation Json}
    (formed : evaluation.revisionJson.wellFormed = true) :
    evaluation.written.loaded = .ok evaluation := by
  simp only [Evaluation.loaded, Evaluation.written, bind_eq_ok, orFault_eq_ok, loads_dumps formed,
    Option.some.injEq, exists_eq_left', pure_eq_ok]

theorem append_ok {command : CreateEvaluationCommand}
    {submissionKey : Option Uuid} {id : Uuid} {now : Timestamp}
    {row : Evaluation (List Char)}
    (run : result.runId = command.runId)
    (added : append library command result submissionKey id now = .ok (stored, row)) :
    storedRow library command.projectId result row = .ok stored ∧
      stored.Shows command result ∧ row.id = id ∧ row.submissionKey = submissionKey := by
  simp only [append, newEvaluation, bind_eq_ok, pure_eq_ok, Prod.mk.injEq] at added
  obtain ⟨_, ⟨items, made, requestHash, _, rfl⟩, stored, checked, rfl, rfl⟩ := added
  obtain ⟨found, rating, verdict, comment, items', array, read⟩ :=
    readStored_ok (toStored_eq_ok.mp checked)
  cases array
  obtain ⟨revisions, readBack, same, shown, sound⟩ := readRevisions_new result.data.formed made
  rw [readBack] at read
  cases read
  have shows : stored.command command.projectId = command := by
    rw [evaluationVerdict_value, Except.ok.injEq] at verdict
    simp only [StoredEvaluation.command, found.run, run, found.user, ← rating, ← verdict,
      ← comment, same]
  have values := (validateEvaluationCommand_ok (shows ▸ found.valid)).2
  refine ⟨?_, ⟨shows, found.stored_result, shown⟩, rfl, rfl⟩
  simp only [storedRow, bind_eq_ok]
  exact ⟨_, loaded_written (sound values), checked⟩

end SkillMind.Evaluations
