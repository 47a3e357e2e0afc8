import SkillMind.Documents.Repository

/-!
# Upload intents of users

`DocumentUploadRepository` keeps the original request of an upload key with its reservation, its
publication and its closure. A stored row is only used after it has been checked in full, and a
closure is only believed together with the mark on its row.

The model leaves out what `_to_intent` checks of the types of the columns, and its two protocol
columns, which are constants.
-/

namespace SkillMind.Documents

open Library
open Runs (Uuid Timestamp)

/-! ## Intents -/

/-- The normalized input of an upload, without what the server chooses. -/
structure UploadDescriptor where
  organizationId : Uuid
  projectId : Uuid
  actorId : Uuid
  folder : Folder
  name : String
  size : Int
  mime : String
  checksum : String
  replacesDocumentId : Option Uuid
  expectedChecksum : Option String

structure UploadDocumentCommand where
  projectId : Uuid
  documentId : Uuid
  folder : Folder
  name : String
  storageKey : String
  storageNamespace : StorageNamespace
  uploadIntentId : Uuid
  size : Int
  mime : String
  checksum : String
  uploadedBy : Uuid
  replacesDocumentId : Option Uuid
  expectedChecksum : Option String
  deriving DecidableEq

structure StoredDocumentUpload where
  uploadKey : Uuid
  projectId : Uuid
  state : UploadState
  createdAt : Timestamp
  document : Option StoredDocument
  deriving DecidableEq

structure StoredUploadIntent where
  intentId : Uuid
  organizationId : Uuid
  actorId : Uuid
  originalRequestId : Uuid
  originalSessionId : Uuid
  requestChecksum : String
  command : UploadDocumentCommand
  receipt : StoredDocumentUpload
  cleanupRequestedAt : Option Timestamp
  publicationClosedAt : Option Timestamp
  deriving DecidableEq

def StoredUploadIntent.bound (intent : StoredUploadIntent) : StoredUploadIntent :=
  { intent with
    receipt := { intent.receipt with state := .pending, document := none }
    cleanupRequestedAt := none
    publicationClosedAt := none }

structure DocumentCleanupActor where
  organizationId : Uuid
  actorId : Uuid
  requestId : Uuid
  sessionId : Uuid

structure StoredDocumentUploadClosure where
  uploadKey : Uuid
  projectId : Uuid
  documentId : Uuid
  closedAt : Timestamp

/-- The hashes and the text forms that a row is compared with. -/
structure UploadSettings where
  contentChecksum : List UInt8 → String
  requestChecksum : UploadDescriptor → String
  closureChecksum : StoredUploadIntent → Uuid → DocumentCleanupActor → Timestamp → String
  documentStorageKey : Uuid → Uuid → String → String
  /-- `validate_document_path` leaves the path as it is. -/
  canonicalPath : Uuid → Folder → String → Bool
  normalizeContentType : String → String
  validChecksum : String → Bool

def UploadDocumentCommand.descriptor (command : UploadDocumentCommand) (organizationId : Uuid) :
    UploadDescriptor :=
  { organizationId := organizationId, projectId := command.projectId,
    actorId := command.uploadedBy, folder := command.folder, name := command.name,
    size := command.size, mime := command.mime, checksum := command.checksum,
    replacesDocumentId := command.replacesDocumentId,
    expectedChecksum := command.expectedChecksum }

/-- `_published_document`. -/
def publishedUpload (command : UploadDocumentCommand) (createdAt : Timestamp) : StoredDocument :=
  { documentId := command.documentId, projectId := command.projectId, folder := command.folder,
    name := command.name, size := command.size, mime := command.mime,
    checksum := command.checksum, uploadedBy := command.uploadedBy, createdAt := createdAt }

def ProjectDocumentUpload.command (row : ProjectDocumentUpload) : UploadDocumentCommand :=
  { projectId := row.projectId, documentId := row.documentId, folder := row.folder,
    name := row.name, storageKey := row.storageKey, storageNamespace := row.storageNamespace,
    uploadIntentId := row.id, size := row.size, mime := row.mime, checksum := row.checksum,
    uploadedBy := row.actorId, replacesDocumentId := row.replacesDocumentId,
    expectedChecksum := row.expectedChecksum }

/-- The document of a published row, as it was published. -/
def ProjectDocumentUpload.document (row : ProjectDocumentUpload) : Option StoredDocument :=
  if row.state = .published then row.publishedAt.map (publishedUpload row.command) else none

/-- The read model of a row. -/
def ProjectDocumentUpload.intent (row : ProjectDocumentUpload) : StoredUploadIntent :=
  { intentId := row.id, organizationId := row.organizationId, actorId := row.actorId,
    originalRequestId := row.originalRequestId, originalSessionId := row.originalSessionId,
    requestChecksum := row.requestChecksum, command := row.command,
    receipt := ⟨row.uploadKey, row.projectId, row.state, row.createdAt, row.document⟩,
    cleanupRequestedAt := row.cleanupRequestedAt,
    publicationClosedAt := row.publicationClosedAt }

def invalidUpload : Fault :=
  ⟨.documentUploadInvalidError, "Original document upload could not be verified"⟩

def folderLength (folder : Folder) : Nat :=
  (folder.map String.length).sum + (folder.length - 1)

section Uploads

variable (settings : UploadSettings)

/-- The columns that never change. -/
def ProjectDocumentUpload.original (row : ProjectDocumentUpload) : Bool :=
  ([row.id, row.organizationId, row.projectId, row.actorId, row.uploadKey, row.originalRequestId,
      row.originalSessionId, row.documentId].all fun value => decide (value ≠ 0)) &&
    decide (0 < row.size) && decide (folderLength row.folder ≤ 200) &&
    decide (1 ≤ row.name.length) && decide (row.name.length ≤ 200) &&
    decide (1 ≤ row.storageKey.length) && decide (row.storageKey.length ≤ 512) &&
    decide (1 ≤ row.mime.length) && decide (row.mime.length ≤ 128) &&
    settings.validChecksum row.checksum &&
    decide (row.replacesDocumentId = none ↔ row.expectedChecksum = none) &&
    row.replacesDocumentId.all
      (fun value => decide (value ≠ 0) && decide (value ≠ row.documentId)) &&
    row.expectedChecksum.all settings.validChecksum &&
    settings.canonicalPath row.projectId row.folder row.name &&
    decide (row.storageKey =
      settings.documentStorageKey row.projectId row.documentId row.name) &&
    decide (settings.normalizeContentType row.mime = row.mime) &&
    decide (row.requestChecksum =
      settings.requestChecksum (row.command.descriptor row.organizationId))

/-- The columns of the publication agree with the state. -/
def ProjectDocumentUpload.stage (row : ProjectDocumentUpload) : Bool :=
  row.publicationClosedAt.all (fun closedAt => decide (row.createdAt ≤ closedAt) &&
    decide (row.state = .pending) && row.publishedAt.isNone) &&
  match row.state with
  | .pending => row.publishedAt.isNone && row.cleanupRequestedAt.isNone
  | .published =>
    match row.publishedAt with
    | none => false
    | some publishedAt => decide (row.createdAt ≤ publishedAt) &&
        row.cleanupRequestedAt.all fun requestedAt => decide (publishedAt ≤ requestedAt)

def toIntent (row : ProjectDocumentUpload) : Except Fault StoredUploadIntent := do
  require (row.original settings = true ∧ row.stage = true) invalidUpload
  return row.intent

def toClosure (closure : ProjectDocumentUploadClosure) (intent : StoredUploadIntent) :
    Except Fault StoredDocumentUploadClosure := do
  require (∀ value ∈ [closure.id, closure.uploadIntentId, closure.organizationId,
      closure.projectId, closure.actorId, closure.uploadKey, closure.documentId,
      closure.requestedBy, closure.requestId, closure.sessionId], value ≠ 0) invalidUpload
  require ((closure.uploadIntentId, closure.organizationId, closure.actorId,
      closure.requestedBy) =
    (intent.intentId, intent.organizationId, intent.actorId, intent.actorId)) invalidUpload
  require ((closure.projectId, closure.uploadKey, closure.documentId) =
    (intent.command.projectId, intent.receipt.uploadKey, intent.command.documentId))
    invalidUpload
  require (some closure.closedAt = intent.publicationClosedAt ∧
    intent.receipt.createdAt ≤ closure.closedAt ∧ intent.receipt.state = .pending ∧
    intent.receipt.document = none ∧ intent.cleanupRequestedAt = none ∧
    settings.validChecksum closure.bindingChecksum = true) invalidUpload
  let actor : DocumentCleanupActor :=
    ⟨closure.organizationId, closure.requestedBy, closure.requestId, closure.sessionId⟩
  require (closure.bindingChecksum =
    settings.closureChecksum intent.bound closure.id actor closure.closedAt) invalidUpload
  return ⟨closure.uploadKey, closure.projectId, closure.documentId, closure.closedAt⟩

/-- `get_closure`: the mark on the row and the closure are there together, or neither is. -/
def getClosure (t : DocumentTables) (intent : StoredUploadIntent) :
    Except Fault (Option StoredDocumentUploadClosure) :=
  match t.closures.find? fun row => decide (row.uploadIntentId = intent.intentId) with
  | none => do
    require (intent.publicationClosedAt = none) invalidUpload
    return none
  | some closure => do
    let stored ← toClosure settings closure intent
    return some stored

/-! ## The key -/

structure UploadKey where
  organizationId : Uuid
  projectId : Uuid
  actorId : Uuid
  uploadKey : Uuid
  deriving DecidableEq

def ProjectDocumentUpload.key (row : ProjectDocumentUpload) : UploadKey :=
  ⟨row.organizationId, row.projectId, row.actorId, row.uploadKey⟩

def findUpload (t : DocumentTables) (key : UploadKey) : Option ProjectDocumentUpload :=
  t.uploads.find? fun row => decide (row.key = key)

/-- `find`: the row of the key, locked and checked with its closure. -/
def find (t : DocumentTables) (key : UploadKey) : Except Fault (Option StoredUploadIntent) :=
  match findUpload t key with
  | none => .ok none
  | some row => do
    let intent ← toIntent settings row
    let _ ← getClosure settings t intent
    return some intent

def rowOf (t : DocumentTables) (intentId : Uuid) : Option ProjectDocumentUpload :=
  t.uploads.find? fun row => decide (row.id = intentId)

def putUpload (t : DocumentTables) (row : ProjectDocumentUpload) : DocumentTables :=
  { t with uploads := replaceRow ProjectDocumentUpload.id row t.uploads }

def admitsIntent (t : DocumentTables) (row : ProjectDocumentUpload) : Bool :=
  t.uploads.all fun other =>
    decide (other.id ≠ row.id) && decide (other.key ≠ row.key) &&
      decide (other.documentId ≠ row.documentId) &&
      !(decide (other.storageNamespace.namespaceId = row.storageNamespace.namespaceId) &&
        decide (other.storageKey = row.storageKey)) &&
      !(decide (other.projectId = row.projectId) && decide (other.folder = row.folder) &&
        decide (other.name = row.name) && decide (other.state = .pending) &&
        other.publicationClosedAt.isNone)

def reserveUpload (t : DocumentTables) (key : UploadKey) (requestId sessionId : Uuid)
    (command : UploadDocumentCommand) (now : Timestamp) :
    Except Fault (StoredUploadIntent × DocumentTables) := do
  let row : ProjectDocumentUpload :=
    { id := command.uploadIntentId, organizationId := key.organizationId,
      projectId := command.projectId, actorId := command.uploadedBy, uploadKey := key.uploadKey,
      originalRequestId := requestId, originalSessionId := sessionId,
      requestChecksum := settings.requestChecksum (command.descriptor key.organizationId),
      documentId := command.documentId, replacesDocumentId := command.replacesDocumentId,
      expectedChecksum := command.expectedChecksum, folder := command.folder,
      name := command.name, storageKey := command.storageKey,
      storageNamespace := command.storageNamespace, size := command.size, mime := command.mime,
      checksum := command.checksum, state := .pending, createdAt := now, publishedAt := none,
      cleanupRequestedAt := none, publicationClosedAt := none }
  let intent ← toIntent settings row
  require (admitsIntent t row = true) ⟨.integrityError, "document_upload_intents"⟩
  return (intent, { t with uploads := t.uploads ++ [row] })

/-- `publish` of an intent whose document has been made in the same transaction. -/
def publishUpload (t : DocumentTables) (intent : StoredUploadIntent)
    (document : StoredDocument) : Except Fault DocumentTables := do
  let row ← orFault invalidUpload (rowOf t intent.intentId)
  let current ← toIntent settings row
  let _ ← getClosure settings t current
  require (current.publicationClosedAt = none)
    ⟨.documentUploadClosedError, "Original document upload publication is closed"⟩
  require (current = intent ∧ intent.receipt.state = .pending) invalidUpload
  require (document = publishedUpload intent.command document.createdAt) invalidUpload
  let published := { row with state := .published, publishedAt := some document.createdAt }
  let _ ← toIntent settings published
  return putUpload t published

/-- `close_publication`; the answer says whether this call has closed it. -/
def closePublication (t : DocumentTables) (intent : StoredUploadIntent)
    (actor : DocumentCleanupActor) (closureId : Uuid) (now : Timestamp) :
    Except Fault ((StoredDocumentUploadClosure × Bool) × DocumentTables) := do
  require (∀ value ∈ [actor.organizationId, actor.actorId, actor.requestId, actor.sessionId],
    value ≠ 0) invalidUpload
  require (actor.organizationId = intent.organizationId ∧ actor.actorId = intent.actorId ∧
    intent.receipt.createdAt ≤ now) invalidUpload
  let row ← orFault invalidUpload (rowOf t intent.intentId)
  let current ← toIntent settings row
  require ({ current with publicationClosedAt := intent.publicationClosedAt } = intent)
    invalidUpload
  let previous ← getClosure settings t current
  require (current.receipt.state ≠ .published)
    ⟨.documentUploadAlreadyPublishedError, "Original document upload is already published"⟩
  match previous with
  | some stored => return ((stored, false), t)
  | none =>
    let closure : ProjectDocumentUploadClosure :=
      { id := closureId, uploadIntentId := current.intentId,
        organizationId := current.organizationId, projectId := current.command.projectId,
        actorId := current.actorId, uploadKey := current.receipt.uploadKey,
        documentId := current.command.documentId,
        bindingChecksum := settings.closureChecksum current.bound closureId actor now,
        requestedBy := actor.actorId, requestId := actor.requestId,
        sessionId := actor.sessionId, closedAt := now }
    let marked := { row with publicationClosedAt := some now }
    let checked ← toIntent settings marked
    let stored ← toClosure settings closure checked
    require (∀ other ∈ t.closures, other.id ≠ closureId ∧
        other.uploadIntentId ≠ current.intentId)
      ⟨.integrityError, "document_upload_closures"⟩
    return ((stored, true), { putUpload t marked with closures := t.closures ++ [closure] })

/-- `request_cleanup`: the document of the intent is deleted in the same transaction. -/
def requestCleanup (t : DocumentTables) (intentId : Uuid) (document : StoredDocument)
    (storageKey : String) (storageNamespace : StorageNamespace) (now : Timestamp) :
    Except Fault DocumentTables := do
  let row ← orFault invalidUpload (rowOf t intentId)
  let intent ← toIntent settings row
  let _ ← getClosure settings t intent
  let original ← orFault invalidUpload intent.receipt.document
  require (intent.receipt.state = .published ∧
    original = { document with folder := original.folder, name := original.name } ∧
    (storageKey, storageNamespace) =
      (intent.command.storageKey, intent.command.storageNamespace)) invalidUpload
  let requested := { row with cleanupRequestedAt := some (row.cleanupRequestedAt.getD now) }
  let _ ← toIntent settings requested
  return putUpload t requested

end Uploads

end SkillMind.Documents
