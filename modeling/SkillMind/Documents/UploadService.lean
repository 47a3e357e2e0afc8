import SkillMind.Documents.UploadRepository

/-!
# The transactions of an upload

`upload_document` reserves in one transaction, sends the bytes outside of any, and publishes in
another.  The worker that got the reservation is the only one that may send the bytes; its
answer may be lost, and then the intent stays as it is until its author closes it.

The outcome of the access checks and of the storage is given with each transaction.
-/

namespace SkillMind.Documents

open Library
open Runs (Uuid Timestamp)

/-- The session of a transaction: who acts, and the checks in front of it and behind it. -/
structure UploadSession where
  organizationId : Uuid
  actorId : Uuid
  requestId : Uuid
  sessionId : Uuid
  before : Except Fault Unit
  after : Except Fault Unit

def UploadSession.actor (session : UploadSession) : DocumentCleanupActor :=
  ⟨session.organizationId, session.actorId, session.requestId, session.sessionId⟩

/-- The input of `upload_document` after its path and its media type are normalized. -/
structure UploadRequest where
  projectId : Uuid
  uploadKey : Uuid
  folder : Folder
  name : String
  data : List UInt8
  mime : String
  replacesDocumentId : Option Uuid
  expectedChecksum : Option String

section Service

variable (settings : UploadSettings) (limits : UploadLimits)

def UploadRequest.key (request : UploadRequest) (session : UploadSession) : UploadKey :=
  ⟨session.organizationId, request.projectId, session.actorId, request.uploadKey⟩

def UploadRequest.descriptor (request : UploadRequest) (session : UploadSession) :
    UploadDescriptor :=
  { organizationId := session.organizationId, projectId := request.projectId,
    actorId := session.actorId, folder := request.folder, name := request.name,
    size := request.data.length, mime := request.mime,
    checksum := settings.contentChecksum request.data,
    replacesDocumentId := request.replacesDocumentId,
    expectedChecksum := request.expectedChecksum }

def UploadRequest.command (request : UploadRequest) (session : UploadSession)
    (documentId intentId : Uuid) (storageNamespace : StorageNamespace) : UploadDocumentCommand :=
  { projectId := request.projectId, documentId := documentId, folder := request.folder,
    name := request.name,
    storageKey := settings.documentStorageKey request.projectId documentId request.name,
    storageNamespace := storageNamespace, uploadIntentId := intentId,
    size := request.data.length, mime := request.mime,
    checksum := settings.contentChecksum request.data, uploadedBy := session.actorId,
    replacesDocumentId := request.replacesDocumentId,
    expectedChecksum := request.expectedChecksum }

def requireReplacement (t : DocumentTables) (projectId documentId : Uuid) (folder : Folder)
    (name : String) (checksum : Option String) : Except Fault ProjectDocument := do
  let row ← orFault ⟨.documentNotFoundError, "Document is not accessible"⟩
    (t.documents.find? fun document => decide (document.id = documentId))
  require (row.projectId = projectId)
    ⟨.documentNotFoundError, "Document is not accessible"⟩
  require (row.deletedAt = none ∧ row.folder = folder ∧ row.name = name ∧
      some row.checksum = checksum)
    ⟨.documentConflictError, "The selected document changed before replacement"⟩
  return row

def requireTarget (t : DocumentTables) (request : UploadRequest) : Except Fault Unit :=
  match request.replacesDocumentId with
  | some documentId => do
    let _ ← requireReplacement t request.projectId documentId request.folder request.name
      request.expectedChecksum
  | none =>
    require (¬ pathExists t request.projectId request.folder request.name = true)
      ⟨.documentConflictError, "Document with the same path already exists"⟩

/-- The row of a document that an intent publishes. -/
def uploadedDocument (command : UploadDocumentCommand) (now : Timestamp) : ProjectDocument :=
  { id := command.documentId, projectId := command.projectId,
    uploadIntentId := some command.uploadIntentId, effectUploadId := none,
    folder := command.folder, name := command.name, storageKey := command.storageKey,
    storageNamespace := some command.storageNamespace, size := command.size,
    mime := command.mime, checksum := command.checksum, uploadedBy := command.uploadedBy,
    createdAt := now, deletedAt := none, deletedBy := none }

/-- The primary key of the documents, and the index of the paths in use. -/
def admitsDocument (documents : List ProjectDocument) (document : ProjectDocument) : Bool :=
  documents.all fun other =>
    decide (other.id ≠ document.id) &&
      !(decide (other.projectId = document.projectId) && decide (other.folder = document.folder) &&
        decide (other.name = document.name) && other.deletedAt.isNone)

/-- `create`, up to the flush of the new document. -/
def create (t : DocumentTables) (command : UploadDocumentCommand) (now : Timestamp) :
    Except Fault (List ProjectDocument) :=
  match command.replacesDocumentId with
  | none => .ok t.documents
  | some documentId => do
    let _ ← requireReplacement t command.projectId documentId command.folder command.name
      command.expectedChecksum
    return recycle documentId now command.uploadedBy t.documents

inductive Admission where
  /-- The reservation is made, and this caller may send the bytes. -/
  | admitted (intent : StoredUploadIntent)
  /-- The original publication. -/
  | original (document : StoredDocument)

/-- What the key of a request answers when its intent is there. -/
def replay (original : StoredUploadIntent) (requestChecksum : String) :
    Except Fault StoredDocument := do
  require (original.requestChecksum = requestChecksum)
    ⟨.documentUploadKeyConflictError, "Original upload content differs"⟩
  require (original.publicationClosedAt = none)
    ⟨.documentUploadClosedError, "Original upload publication is closed"⟩
  require (original.receipt.state ≠ .pending)
    ⟨.documentUploadPendingError, "Original upload is still unresolved"⟩
  orFault ⟨.documentUploadInvalidError, "Original upload receipt is unavailable"⟩
    original.receipt.document

/-- The reservation of `upload_document`; `storage` is the namespace that can be used now. -/
def admitRequest (t : DocumentTables) (session : UploadSession) (request : UploadRequest)
    (documentId intentId : Uuid) (storage : Except Fault StorageNamespace) (now : Timestamp) :
    Except Fault (Admission × DocumentTables) := do
  require (request.uploadKey ≠ 0)
    ⟨.uploadRejectedError, "A valid upload key is required"⟩
  limits.validate request.mime request.data 0
  session.before
  match ← find settings t (request.key session) with
  | some original =>
    let document ← replay original
      (settings.requestChecksum (request.descriptor settings session))
    session.after
    return (.original document, t)
  | none =>
    requireTarget t request
    require (¬ pathReserved t request.projectId request.folder request.name = true)
      ⟨.documentConflictError, "Document with the same path already exists"⟩
    let storageNamespace ← storage
    let usage ← projectUsageBytes t request.projectId
    limits.validate request.mime request.data usage
    let command := request.command settings session documentId intentId storageNamespace
    let (intent, reserved) ←
      reserveUpload settings t (request.key session) session.requestId session.sessionId
        command now
    session.after
    return (.admitted intent, reserved)

inductive Completion where
  | created (document : StoredDocument)
  /-- The intent is closed, and the caller reports the conflict. -/
  | conflicted

/-- The publication of `upload_document`, by the worker that holds the admitted intent and has
seen the object written. -/
def complete (t : DocumentTables) (session : UploadSession) (request : UploadRequest)
    (admitted : StoredUploadIntent) (storage : Except Fault Unit) (closureId : Uuid)
    (now closeNow : Timestamp) : Except Fault (Completion × DocumentTables) := do
  session.before
  let original ← find settings t (request.key session)
  require (∀ intent ∈ original, intent.publicationClosedAt = none)
    ⟨.documentUploadClosedError, "Original upload publication is closed"⟩
  require (original = some admitted ∧ session.sessionId = admitted.originalSessionId)
    ⟨.documentUploadInvalidError, "Original upload reservation changed"⟩
  let usage ← projectUsageBytes t request.projectId
  require (usage ≤ limits.projectQuotaBytes)
    ⟨.uploadRejectedError, "Project storage quota is exceeded"⟩
  storage
  match create t admitted.command now with
  | .error fault =>
    require (fault.error = .documentConflictError ∨ fault.error = .documentNotFoundError) fault
    let (_, closed) ← closePublication settings t admitted session.actor closureId closeNow
    session.after
    return (.conflicted, closed)
  | .ok documents =>
    let row := uploadedDocument admitted.command now
    let document := publishedUpload admitted.command now
    let published ← publishUpload settings t admitted document
    require (admitsDocument documents row = true)
      ⟨.documentConflictError, "Document with the same path already exists"⟩
    session.after
    return (.created document, { published with documents := documents ++ [row] })

def closeUpload (t : DocumentTables) (session : UploadSession) (projectId uploadKey : Uuid)
    (closureId : Uuid) (now : Timestamp) :
    Except Fault ((StoredDocumentUploadClosure × Bool) × DocumentTables) := do
  require (uploadKey ≠ 0) ⟨.uploadRejectedError, "A valid upload key is required"⟩
  session.before
  let found ← find settings t ⟨session.organizationId, projectId, session.actorId, uploadKey⟩
  let original ← orFault ⟨.documentUploadNotFoundError, "Original upload was not found"⟩ found
  let (closed, written) ← closePublication settings t original session.actor closureId now
  session.after
  return (closed, written)

def getUpload (t : DocumentTables) (session : UploadSession) (projectId uploadKey : Uuid) :
    Except Fault (StoredDocumentUpload × DocumentTables) := do
  require (uploadKey ≠ 0) ⟨.uploadRejectedError, "A valid upload key is required"⟩
  session.before
  let found ← find settings t ⟨session.organizationId, projectId, session.actorId, uploadKey⟩
  let original ← orFault ⟨.documentUploadNotFoundError, "Original upload was not found"⟩ found
  session.after
  return (original.receipt, t)

/-- What the documents know of the intents they come from. -/
def uploadLinks (documents : List ProjectDocument) : List (Uuid × Uuid) :=
  documents.filterMap fun document => document.uploadIntentId.map fun upload =>
    (upload, document.id)

/-- Other transactions of the project: they may move, recycle and delete the documents of
intents, and make no such document. -/
def writeDocuments (t : DocumentTables) (documents : List ProjectDocument)
    (effectUploads : List ProjectDocumentEffectUpload) (folders : List ProjectDocumentFolder)
    (cleanups : List ProjectDocumentCleanup) : Except Fault (Unit × DocumentTables) := do
  require ((uploadLinks documents).Sublist (uploadLinks t.documents))
    ⟨.integrityError, "fk_project_documents_upload_intent"⟩
  return ((), { t with
    documents := documents
    effectUploads := effectUploads
    folders := folders
    cleanups := cleanups })

inductive UploadAction where
  | admitRequest (session : UploadSession) (request : UploadRequest) (documentId intentId : Uuid)
      (storage : Except Fault StorageNamespace) (now : Timestamp)
  | complete (session : UploadSession) (request : UploadRequest) (admitted : StoredUploadIntent)
      (storage : Except Fault Unit) (closureId : Uuid) (now closeNow : Timestamp)
  | close (session : UploadSession) (projectId uploadKey closureId : Uuid) (now : Timestamp)
  | get (session : UploadSession) (projectId uploadKey : Uuid)
  | cleanup (intentId : Uuid) (document : StoredDocument) (storageKey : String)
      (storageNamespace : StorageNamespace) (now : Timestamp)
  | others (documents : List ProjectDocument)
      (effectUploads : List ProjectDocumentEffectUpload)
      (folders : List ProjectDocumentFolder) (cleanups : List ProjectDocumentCleanup)

inductive UploadOutcome where
  | admission (admission : Admission)
  | completion (completion : Completion)
  | closure (closure : StoredDocumentUploadClosure) (first : Bool)
  | receipt (receipt : StoredDocumentUpload)
  | done

def execDocument (action : UploadAction) (t : DocumentTables) :
    Except Fault (UploadOutcome × DocumentTables) :=
  match action with
  | .admitRequest session request documentId intentId storage now =>
    answering .admission
      (admitRequest settings limits t session request documentId intentId storage now)
  | .complete session request admitted storage closureId now closeNow =>
    answering .completion
      (complete settings limits t session request admitted storage closureId now closeNow)
  | .close session projectId uploadKey closureId now =>
    answering (fun closed => .closure closed.1 closed.2)
      (closeUpload settings t session projectId uploadKey closureId now)
  | .get session projectId uploadKey =>
    answering .receipt (getUpload settings t session projectId uploadKey)
  | .cleanup intentId document storageKey storageNamespace now => do
    let requested ←
      requestCleanup settings t intentId document storageKey storageNamespace now
    return (.done, requested)
  | .others documents effectUploads folders cleanups =>
    answering (fun _ => .done) (writeDocuments t documents effectUploads folders cleanups)

def uploadStore : TransactionSystem DocumentTables UploadAction UploadOutcome Fault :=
  ⟨execDocument settings limits⟩

end Service

def DocumentTables.withoutUploads (t : DocumentTables) : DocumentTables :=
  { t with
    uploads := []
    closures := []
    documents := t.documents.filter fun document => document.uploadIntentId.isNone }

end SkillMind.Documents
