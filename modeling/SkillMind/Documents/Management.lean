import SkillMind.Documents.EffectRepository
import SkillMind.Documents.UploadService

/-!
# Management of documents and folders

`DocumentManagementRepository.apply` changes paths and the recycle bin, never the bytes.  Every
action compares the paths it was asked about with the current ones and then tests the new
paths against documents, explicit folders and pending reservations.

Paths are given as `validate_document_path` has normalized them; `checkPath` is whether it
accepts them.
-/

namespace SkillMind.Documents

open Library
open Runs (Uuid Timestamp)

def ProjectDocument.activeIn (projectId : Uuid) (row : ProjectDocument) : Bool :=
  decide (row.projectId = projectId) && row.deletedAt.isNone

def activeDocuments (t : DocumentTables) (projectId : Uuid) : List ProjectDocument :=
  t.documents.filter (ProjectDocument.activeIn projectId)

def projectFolders (t : DocumentTables) (projectId : Uuid) : List Folder :=
  (t.folders.filter fun row => decide (row.projectId = projectId)).map ProjectDocumentFolder.path

/-- The folders that are there, explicitly or through a document. -/
def knownFolders (t : DocumentTables) (projectId : Uuid) : List Folder :=
  (projectFolders t projectId ++ (activeDocuments t projectId).map ProjectDocument.folder).flatMap
    parents

def pendingPaths (t : DocumentTables) (projectId : Uuid) : List (List String) :=
  (t.uploads.filter fun row =>
    decide (row.projectId = projectId) && decide (row.state = .pending) &&
      row.publicationClosedAt.isNone).map (fun row => documentPath row.folder row.name) ++
  (t.effectUploads.filter fun row =>
    decide (row.projectId = projectId) && decide (row.state ≠ .published) &&
      row.publicationClosedAt.isNone).map fun row => documentPath row.folder row.name

structure FileChange where
  documentId : Uuid
  expectedFolder : Folder
  expectedName : String
  folder : Folder
  name : String

/-- A document of the recycle bin actions. -/
structure RecycleChange where
  documentId : Uuid
  expectedFolder : Folder
  expectedName : String
  /-- `require_output_finished` of the document. -/
  finished : Except Fault Unit

inductive FileAction where
  | createFolder (target : Folder)
  | move (changes : List FileChange)
  | moveFolder (source target : Folder)
  | deleteFolder (source : Folder)
  | trash (changes : List RecycleChange)
  | restore (changes : List RecycleChange)

def conflict (message : String) : Fault :=
  ⟨.documentConflictError, message⟩

/-- The path is the folder or lies in it. -/
def inside (source path : Folder) : Bool :=
  source.isPrefixOf path

/-- The new place of a path that lies in the moved folder. -/
def rebase (source target path : Folder) : Folder :=
  if inside source path = true then target ++ path.drop source.length else path

section Management

variable (checkPath : Uuid → Folder → String → Except Fault Unit)

def folderPath (projectId : Uuid) (value : Folder) : Except Fault Unit := do
  checkPath projectId value "folder"
  require (value ≠ [] ∧ ∀ part ∈ value, part ∉ [".", "..", ""])
    ⟨.uploadRejectedError, "A canonical folder is required"⟩

def createFolder (t : DocumentTables) (projectId : Uuid) (target : Folder) :
    Except Fault DocumentTables := do
  folderPath checkPath projectId target
  require (∀ value ∈ pendingPaths t projectId, value ∉ parents target)
    (conflict "Folder conflicts with a pending upload")
  require (target ∉ knownFolders t projectId ∧
      ∀ document ∈ activeDocuments t projectId, document.path ∉ parents target)
    (conflict "Folder already exists")
  return { t with folders := t.folders ++ [⟨projectId, target⟩] }

/-! ## Moves -/

/-- The moves of one request: each document once, from the path it still has. -/
def planMove (t : DocumentTables) (projectId : Uuid) (moved : List (Uuid × Folder × String))
    (change : FileChange) : Except Fault (List (Uuid × Folder × String)) := do
  let row ← orFault ⟨.documentNotFoundError, "Document is not available"⟩
    ((activeDocuments t projectId).find? fun document => decide (document.id = change.documentId))
  require (row.id ∉ moved.map Prod.fst ∧
      (row.folder, row.name) = (change.expectedFolder, change.expectedName))
    (conflict "Document path changed; refresh before editing")
  checkPath projectId change.folder change.name
  require (¬ ((change.folder, change.name) ≠ (row.folder, row.name) ∧
      pathReserved t projectId change.folder change.name = true))
    (conflict "Destination is reserved by an upload")
  return moved ++ [(row.id, change.folder, change.name)]

/-- The document at its new place. -/
def relocate (moved : List (Uuid × Folder × String)) (document : ProjectDocument) :
    ProjectDocument :=
  match moved.find? fun entry => decide (entry.1 = document.id) with
  | some (_, folder, name) => { document with folder := folder, name := name }
  | none => document

/-- The checks of all destinations together; `directories` are the folders that will be there
besides those of the documents. -/
def checkDestinations (t : DocumentTables) (projectId : Uuid)
    (moved : List (Uuid × Folder × String)) (directories : List Folder) : Except Fault Unit := do
  let documents := activeDocuments t projectId
  let destinations := documents.map (relocate moved)
  require (∀ entry ∈ moved, ∀ value ∈ pendingPaths t projectId,
      ¬ (value = documentPath entry.2.1 entry.2.2 ∨ value ∈ parents entry.2.1 ∨
        documentPath entry.2.1 entry.2.2 <+: value))
    (conflict "Destination conflicts with a pending upload")
  require (destinations.map fun document => (document.folder, document.name)).Nodup
    (conflict "Destination already exists")
  require (∀ document ∈ destinations,
      document.path ∉ directories ++ destinations.flatMap fun other => parents other.folder)
    (conflict "A file and folder cannot share a path")
  require (∀ entry ∈ moved, ∀ document ∈ documents,
      (document.folder, document.name) = entry.2 → document.id = entry.1)
    (conflict "Destination already exists")

/-- The documents of the project at their new places. -/
def relocateAll (projectId : Uuid) (moved : List (Uuid × Folder × String))
    (documents : List ProjectDocument) : List ProjectDocument :=
  documents.map fun document =>
    if document.activeIn projectId = true then relocate moved document else document

def move (t : DocumentTables) (projectId : Uuid) (changes : List FileChange) :
    Except Fault DocumentTables := do
  let moved ← changes.foldlM (planMove checkPath t projectId) []
  checkDestinations t projectId moved (knownFolders t projectId)
  return { t with documents := relocateAll projectId moved t.documents }

/-- The folders of a project after one of them was moved; a folder that was only there through
its documents becomes explicit. -/
def rebaseFolders (projectId : Uuid) (source target : Folder)
    (folders : List ProjectDocumentFolder) : List ProjectDocumentFolder :=
  let nested := folders.filter fun row =>
    decide (row.projectId = projectId) && inside source row.path
  let renamed := folders.map fun row =>
    if row.projectId = projectId then { row with path := rebase source target row.path } else row
  if nested = [] then renamed ++ [⟨projectId, target⟩] else renamed

/-- The explicit folders that are moved have canonical paths behind the move. -/
def checkNested (t : DocumentTables) (projectId : Uuid) (source target : Folder) :
    Except Fault Unit :=
  ((projectFolders t projectId).filter (inside source)).forM fun path =>
    folderPath checkPath projectId (rebase source target path)

def folderChanges (t : DocumentTables) (projectId : Uuid) (source target : Folder) :
    List FileChange :=
  ((activeDocuments t projectId).filter fun document => inside source document.folder).map
    fun document =>
      ⟨document.id, document.folder, document.name, rebase source target document.folder,
        document.name⟩

def moveFolder (t : DocumentTables) (projectId : Uuid) (source target : Folder) :
    Except Fault DocumentTables := do
  folderPath checkPath projectId source
  require (source ∈ knownFolders t projectId)
    ⟨.documentNotFoundError, "Folder is not available"⟩
  require (∀ value ∈ pendingPaths t projectId, inside source value = false)
    (conflict "Folder contains a pending upload")
  folderPath checkPath projectId target
  require (¬ (inside source target = true ∨ target ∈ knownFolders t projectId ∨
      ∃ value ∈ pendingPaths t projectId, value ∈ parents target ∨ target <+: value))
    (conflict "Destination folder conflicts")
  let moved ← (folderChanges t projectId source target).foldlM (planMove checkPath t projectId) []
  checkDestinations t projectId moved
    ((knownFolders t projectId).map (rebase source target) ++ [target])
  checkNested checkPath t projectId source target
  return { t with
    documents := relocateAll projectId moved t.documents
    folders := rebaseFolders projectId source target t.folders }

def deleteFolder (t : DocumentTables) (projectId : Uuid) (source : Folder) :
    Except Fault DocumentTables := do
  folderPath checkPath projectId source
  require (source ∈ knownFolders t projectId)
    ⟨.documentNotFoundError, "Folder is not available"⟩
  require (∀ value ∈ pendingPaths t projectId, inside source value = false)
    (conflict "Folder contains a pending upload")
  require (∀ document ∈ activeDocuments t projectId, inside source document.folder = false)
    (conflict "Folder is not empty")
  return { t with folders := t.folders.filter fun row =>
    !(decide (row.projectId = projectId) && inside source row.path) }

/-- The document of a change, at the path the caller has seen. -/
def recycledDocument (t : DocumentTables) (projectId : Uuid) (change : RecycleChange) :
    Except Fault ProjectDocument := do
  let row ← orFault ⟨.documentNotFoundError, "Document is not available"⟩
    (t.documents.find? fun document =>
      decide (document.projectId = projectId) && decide (document.id = change.documentId))
  require ((row.folder, row.name) = (change.expectedFolder, change.expectedName))
    (conflict "Document path changed")
  return row

/-- One document goes to the recycle bin, unless it is there. -/
def trashOne (projectId actorId : Uuid) (now : Timestamp) (t : DocumentTables)
    (change : RecycleChange) : Except Fault DocumentTables := do
  let row ← recycledDocument t projectId change
  if row.deletedAt = none then
    change.finished
    let recycled := { row with deletedAt := some now, deletedBy := some actorId }
    return { t with documents := replaceRow ProjectDocument.id recycled t.documents }
  else return t

/-- One document comes back to its path (`require_restore_path`). -/
def restoreOne (projectId : Uuid) (t : DocumentTables) (change : RecycleChange) :
    Except Fault DocumentTables := do
  let row ← recycledDocument t projectId change
  require (¬ (pathConflicts t row.projectId row.folder row.name (some row.id) = true ∨
      pathReserved t row.projectId row.folder row.name = true))
    (conflict "Restore destination exists")
  let restored := { row with deletedAt := none, deletedBy := none }
  return { t with documents := replaceRow ProjectDocument.id restored t.documents }

def apply (t : DocumentTables) (projectId actorId : Uuid) (action : FileAction)
    (now : Timestamp) : Except Fault DocumentTables :=
  match action with
  | .createFolder target => createFolder checkPath t projectId target
  | .move changes => move checkPath t projectId changes
  | .moveFolder source target => moveFolder checkPath t projectId source target
  | .deleteFolder source => deleteFolder checkPath t projectId source
  | .trash changes => changes.foldlM (trashOne projectId actorId now) t
  | .restore changes => changes.foldlM (restoreOne projectId) t

end Management

structure DocumentSettings where
  uploads : UploadSettings
  limits : UploadLimits
  effects : EffectUploadSettings
  checkPath : Uuid → Folder → String → Except Fault Unit

/-- The transactions that reserve, publish, move and recycle the documents of projects. -/
inductive DocumentAction where
  | manage (before : Except Fault Unit) (projectId actorId : Uuid) (action : FileAction)
      (now : Timestamp)
  | admitRequest (session : UploadSession) (request : UploadRequest) (documentId intentId : Uuid)
      (storage : Except Fault StorageNamespace) (now : Timestamp)
  | complete (session : UploadSession) (request : UploadRequest) (admitted : StoredUploadIntent)
      (storage : Except Fault Unit) (closureId : Uuid) (now closeNow : Timestamp)
  | close (session : UploadSession) (projectId uploadKey closureId : Uuid) (now : Timestamp)
  | reserve (command : ObjectWriteCommand) (asked : Reservation)
  | startOnce (command : ObjectWriteCommand) (ownerId : Uuid) (now : Timestamp)
  | recordVerified (command : ObjectWriteCommand) (receipt : ObjectWriteReceipt)
      (now : Timestamp)
  | publish (command : ObjectWriteCommand) (now : Timestamp)
  | closeConflicted (effectId projectId runId : Uuid) (now : Timestamp)

/-- The state after a transaction, whatever it answers. -/
def written {α : Type} (outcome : Except Fault (α × DocumentTables)) :
    Except Fault (Unit × DocumentTables) :=
  answering (fun _ => ()) outcome

def execProject (settings : DocumentSettings) (action : DocumentAction) (t : DocumentTables) :
    Except Fault (Unit × DocumentTables) :=
  match action with
  | .manage before projectId actorId action now => do
    before
    let managed ← apply settings.checkPath t projectId actorId action now
    return ((), managed)
  | .admitRequest session request documentId intentId storage now =>
    written (admitRequest settings.uploads settings.limits t session request documentId intentId
      storage now)
  | .complete session request admitted storage closureId now closeNow =>
    written (complete settings.uploads settings.limits t session request admitted storage
      closureId now closeNow)
  | .close session projectId uploadKey closureId now =>
    written (closeUpload settings.uploads t session projectId uploadKey closureId now)
  | .reserve command asked => written (reserve settings.effects t command asked)
  | .startOnce command ownerId now =>
    written (startOnce settings.effects t command ownerId now)
  | .recordVerified command receipt now =>
    written (recordVerified settings.effects t command receipt now)
  | .publish command now => written (publish settings.effects t command now)
  | .closeConflicted effectId projectId runId now =>
    .ok ((), closeConflicted t effectId projectId runId now)

def documentStore (settings : DocumentSettings) :
    TransactionSystem DocumentTables DocumentAction Unit Fault :=
  ⟨execProject settings⟩

def DocumentTables.empty : DocumentTables :=
  ⟨[], [], [], [], [], []⟩

end SkillMind.Documents
