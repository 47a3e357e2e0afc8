import SkillMind.Documents.Repository
import SkillMind.Library.Batch

/-!
# Uploads of effects

`DocumentEffectRepository` keeps one upload for each effect: the reservation, the start of the
one PUT that is sent, the receipt of the object that was read back, and the publication.  The
calls of a transaction share its session, and a fault undoes them all.  The service closes an
upload whose replacement was lost to a conflict.

The PUT itself is outside the transactions.  A worker sends it when the transaction in which
`start_once` answered `True` has committed; every other worker looks the object up.
-/

namespace SkillMind.Documents

open Library
open Runs (Uuid Timestamp)

/-! ## Commands and receipts -/

structure ObjectWriteCommand where
  effectId : Uuid
  projectId : Uuid
  runId : Uuid
  artifactRef : String
  storageNamespace : StorageNamespace
  bucket : String
  objectKey : String
  contentType : String
  content : List UInt8
  requestChecksum : String
  protocolVersion : Nat
  folder : Folder
  name : String

structure ObjectWriteReceipt where
  effectId : Uuid
  requestChecksum : String
  objectKey : String
  contentChecksum : String
  size : Int
  contentType : String
  etag : String
  versionId : Option String

/-- The hashes, the derived identifiers and the text forms that a command is compared with. -/
structure EffectUploadSettings where
  contentChecksum : List UInt8 → String
  commandChecksum : ObjectWriteCommand → String
  commandKey : ObjectWriteCommand → String
  stateRevision : FileState → String
  /-- `uuid5(effect_id, "project-document")`. -/
  documentId : Uuid → Uuid
  /-- `validate_document_path` leaves the path as it is. -/
  canonicalPath : Uuid → Folder → String → Bool
  exactKey : String → Bool
  validUtf8 : List UInt8 → Bool
  validChecksum : String → Bool

def maxArtifactBytes : Nat := 1048576

def contentTypes : List String := ["text/plain", "text/markdown", "application/json"]

/-- `art_`, and then letters, digits, underscores and dashes of ASCII. -/
def validArtifactRef (artifactRef : String) : Bool :=
  artifactRef.startsWith "art_" && decide (5 ≤ artifactRef.length) &&
    decide (artifactRef.length ≤ 64) &&
    artifactRef.toList.all fun c => c.isAlphanum || c == '_' || c == '-'

/-- `validate_object_etag`: up to 256 visible characters other than the quote, in quotes. -/
def validObjectEtag (etag : String) : Bool :=
  match etag.toList with
  | '"' :: rest =>
    match rest.reverse with
    | '"' :: inner =>
      decide (1 ≤ inner.length) && decide (inner.length ≤ 256) &&
        inner.all fun c => decide (33 ≤ c.toNat) && decide (c.toNat ≤ 126) && c != '"'
    | _ => false
  | _ => false

/-- `validate_object_version`. -/
def validObjectVersion (version : String) : Bool :=
  decide (version ≠ "") && decide (version ≠ "null") && decide (version.length ≤ 1024) &&
    version.toList.all fun c => decide (32 ≤ c.toNat) && decide (c.toNat ≤ 126)

section Effects

variable (settings : EffectUploadSettings)

def ObjectWriteCommand.validate (command : ObjectWriteCommand) : Except Fault Unit := do
  require (command.effectId ≠ 0 ∧ command.projectId ≠ 0 ∧ command.runId ≠ 0 ∧
      command.storageNamespace.durable = true ∧ command.content.length ≤ maxArtifactBytes ∧
      command.contentType ∈ contentTypes ∧ validArtifactRef command.artifactRef = true)
    ⟨.valueError, "Object effect identity or content is invalid"⟩
  require (settings.exactKey command.objectKey = true)
    ⟨.valueError, "Object key must be an exact canonical relative path"⟩
  require (command.protocolVersion ∈ [1, 2])
    ⟨.valueError, "Object effect protocol is invalid"⟩
  require (settings.canonicalPath command.projectId command.folder command.name = true)
    ⟨.valueError, "Object logical path is not canonical"⟩
  require (settings.validUtf8 command.content = true) ⟨.valueError, "invalid utf-8"⟩
  require (command.objectKey = settings.commandKey command)
    ⟨.valueError, "Object key does not match its immutable effect identity"⟩
  require (command.requestChecksum = settings.commandChecksum command)
    ⟨.valueError, "Object effect checksum does not match the original request"⟩

/-- The form that every `ObjectWriteReceipt` has from its construction on. -/
def ObjectWriteReceipt.formed (receipt : ObjectWriteReceipt) : Bool :=
  decide (receipt.effectId ≠ 0) && decide (0 ≤ receipt.size) &&
    decide (receipt.size ≤ maxArtifactBytes) && decide (receipt.contentType ∈ contentTypes) &&
    settings.validChecksum receipt.requestChecksum &&
    settings.validChecksum receipt.contentChecksum && validObjectEtag receipt.etag &&
    receipt.versionId.all validObjectVersion && settings.exactKey receipt.objectKey

def invalid : Fault :=
  ⟨.documentUploadInvalidError, "Original document effect upload could not be verified"⟩

def closed : Fault :=
  ⟨.documentConflictError, "Original publication was closed after a conflict"⟩

/-- The stages of a row: a time that is required is there and not before the one in front of
it, and one that is not required is absent. -/
def ordered : Timestamp → List (Option Timestamp × Bool) → Bool
  | _, [] => true
  | previous, (some value, true) :: rest => decide (previous ≤ value) && ordered value rest
  | _, (none, true) :: _ => false
  | _, (some _, false) :: _ => false
  | previous, (none, false) :: rest => ordered previous rest

/-- The times, the owner and the receipt agree with the state. -/
def ProjectDocumentEffectUpload.staged (row : ProjectDocumentEffectUpload) : Bool :=
  ordered row.createdAt
      [(row.sentAt, decide (row.state ≠ .reserved)),
        (row.verifiedAt, decide (row.state ∈ [.verified, .published])),
        (row.publishedAt, decide (row.state = .published))] &&
    decide (row.state = .reserved ↔ row.putOwnerId = none) &&
    (if row.state ∈ [.reserved, .sent] then row.etag.isNone && row.versionId.isNone
      else row.etag.isSome)

def ProjectDocumentEffectUpload.receipt (row : ProjectDocumentEffectUpload) :
    Option ObjectWriteReceipt :=
  if row.state ∈ [.verified, .published] then
    row.etag.map fun etag =>
      ⟨row.effectId, row.requestChecksum, row.storageKey, row.checksum, row.size, row.mime, etag,
        row.versionId⟩
  else none

/-- The row belongs to the command. -/
def ProjectDocumentEffectUpload.describes (row : ProjectDocumentEffectUpload)
    (command : ObjectWriteCommand) : Bool :=
  decide (row.effectId = command.effectId) && decide (row.projectId = command.projectId) &&
    decide (row.runId = command.runId) && decide (row.artifactRef = command.artifactRef) &&
    decide (row.requestChecksum = command.requestChecksum) &&
    decide (row.bucket = command.bucket) && decide (row.storageKey = command.objectKey) &&
    decide (row.storageNamespace = command.storageNamespace) &&
    decide (row.size = command.content.length) && decide (row.mime = command.contentType) &&
    decide (row.checksum = settings.contentChecksum command.content) &&
    decide (row.documentId = settings.documentId command.effectId) &&
    decide (documentPath row.folder row.name = documentPath command.folder command.name) &&
    decide (row.protocolVersion = command.protocolVersion) && decide (0 < row.size)

def validate (row : ProjectDocumentEffectUpload) (command : ObjectWriteCommand) :
    Except Fault Unit :=
  require (row.id ≠ 0 ∧ row.organizationId ≠ 0 ∧ row.actorId ≠ 0 ∧ row.putOwnerId ≠ some 0 ∧
      row.describes settings command = true ∧ row.staged = true ∧
      row.receipt.all (ObjectWriteReceipt.formed settings) = true)
    invalid

/-- `_document`: what the publication answered, from the row alone. -/
def storedDocument (row : ProjectDocumentEffectUpload) : Except Fault StoredDocument := do
  let publishedAt ← orFault invalid row.publishedAt
  return ⟨row.documentId, row.projectId, row.folder, row.name, row.size, row.mime, row.checksum,
    row.actorId, publishedAt⟩

/-! ## The calls -/

def findEffectUpload (t : DocumentTables) (effectId : Uuid) :
    Option ProjectDocumentEffectUpload :=
  t.effectUploads.find? fun row => decide (row.effectId = effectId)

def putEffectUpload (t : DocumentTables) (row : ProjectDocumentEffectUpload) : DocumentTables :=
  { t with effectUploads := replaceRow ProjectDocumentEffectUpload.id row t.effectUploads }

def admitsUpload (t : DocumentTables) (row : ProjectDocumentEffectUpload) : Bool :=
  t.effectUploads.all fun other =>
    decide (other.id ≠ row.id) && decide (other.effectId ≠ row.effectId) &&
      decide (other.documentId ≠ row.documentId) &&
      !(decide (other.storageNamespace.namespaceId = row.storageNamespace.namespaceId) &&
        decide (other.storageKey = row.storageKey))

/-- The document that a replacement names, when its observed state is the approved one. -/
def replaced (t : DocumentTables) (command : ObjectWriteCommand)
    (expectedRevision : Option String) : Except Fault (Option Uuid) :=
  match expectedRevision with
  | none => .ok none
  | some revision => do
    let current ← observeFileState t command.projectId command.folder command.name
    require (settings.stateRevision current = revision)
      ⟨.documentConflictError, "Document changed before replacement"⟩
    let document ← orFault ⟨.documentConflictError, "Document changed before replacement"⟩
      current.document
    return some document.documentId

structure Reservation where
  organizationId : Uuid
  actorId : Uuid
  folder : Folder
  name : String
  limits : UploadLimits
  now : Timestamp
  expectedRevision : Option String
  /-- The bytes of the artifact of the Run, when it is there. -/
  artifact : Option (List UInt8)
  /-- The fresh identifier of the row. -/
  rowId : Uuid

def reserve (t : DocumentTables) (command : ObjectWriteCommand) (asked : Reservation) :
    Except Fault (ProjectDocumentEffectUpload × DocumentTables) := do
  command.validate settings
  require (asked.organizationId ≠ 0 ∧ asked.actorId ≠ 0 ∧
    documentPath command.folder command.name = documentPath asked.folder asked.name) invalid
  match findEffectUpload t command.effectId with
  | some row =>
    validate settings row command
    require (row.publicationClosedAt = none) closed
    require (row.expectedDocumentRevision = asked.expectedRevision) invalid
    require ((row.organizationId, row.actorId, row.folder, row.name) =
      (asked.organizationId, asked.actorId, asked.folder, asked.name)) invalid
    return (row, t)
  | none =>
    require (command.protocolVersion = 2) invalid
    require (asked.artifact = some command.content) invalid
    let replaces ← replaced settings t command asked.expectedRevision
    require (¬ ((replaces = none ∧
        pathExists t command.projectId asked.folder asked.name = true) ∨
        pathReserved t command.projectId asked.folder asked.name = true))
      ⟨.documentConflictError, "Document with the same path already exists"⟩
    let usage ← projectUsageBytes t command.projectId
    asked.limits.validate command.contentType command.content usage
    let row : ProjectDocumentEffectUpload :=
      { id := asked.rowId, effectId := command.effectId, projectId := command.projectId,
        runId := command.runId, organizationId := asked.organizationId,
        actorId := asked.actorId, artifactRef := command.artifactRef,
        documentId := settings.documentId command.effectId,
        protocolVersion := command.protocolVersion,
        requestChecksum := command.requestChecksum, folder := asked.folder,
        name := asked.name, bucket := command.bucket, storageKey := command.objectKey,
        storageNamespace := command.storageNamespace, size := command.content.length,
        mime := command.contentType, checksum := settings.contentChecksum command.content,
        replacesDocumentId := replaces,
        expectedDocumentRevision := asked.expectedRevision, state := .reserved,
        createdAt := asked.now, sentAt := none, verifiedAt := none, publishedAt := none,
        putOwnerId := none, etag := none, versionId := none, publicationClosedAt := none }
    validate settings row command
    require (admitsUpload t row = true) ⟨.integrityError, "document_effect_uploads"⟩
    return (row, { t with effectUploads := t.effectUploads ++ [row] })

/-- `require`: the upload of the command, under its lock. -/
def requireUpload (t : DocumentTables) (command : ObjectWriteCommand) :
    Except Fault ProjectDocumentEffectUpload := do
  command.validate settings
  let row ← orFault invalid (findEffectUpload t command.effectId)
  validate settings row command
  return row

def startOnce (t : DocumentTables) (command : ObjectWriteCommand) (ownerId : Uuid)
    (now : Timestamp) : Except Fault (Bool × DocumentTables) := do
  let row ← requireUpload settings t command
  require (row.publicationClosedAt = none) closed
  require (command.protocolVersion = 2) invalid
  require (ownerId ≠ 0 ∧ row.createdAt ≤ now) invalid
  if row.state ≠ .reserved then
    return (false, t)
  else
    let sent := { row with state := .sent, sentAt := some now, putOwnerId := some ownerId }
    validate settings sent command
    return (true, putEffectUpload t sent)

def recordVerified (t : DocumentTables) (command : ObjectWriteCommand)
    (receipt : ObjectWriteReceipt) (now : Timestamp) : Except Fault (Unit × DocumentTables) := do
  let row ← requireUpload settings t command
  require (row.publicationClosedAt = none) closed
  require (command.protocolVersion = 2) invalid
  require (∃ sentAt ∈ row.sentAt, sentAt ≤ now) invalid
  require ((receipt.effectId, receipt.requestChecksum, receipt.objectKey,
      receipt.contentChecksum, receipt.size, receipt.contentType) =
    (command.effectId, command.requestChecksum, command.objectKey,
      settings.contentChecksum command.content, (command.content.length : Int),
      command.contentType)) invalid
  if row.state ∈ [.verified, .published] then
    require ((row.etag, row.versionId) = (some receipt.etag, receipt.versionId)) invalid
    return ((), t)
  else
    require (row.state = .sent) invalid
    let verified := { row with
      state := .verified, verifiedAt := some now, etag := some receipt.etag,
      versionId := receipt.versionId }
    validate settings verified command
    return ((), putEffectUpload t verified)

/-- The previous version goes to the recycle bin when a replacement is published. -/
def trashReplaced (t : DocumentTables) (row : ProjectDocumentEffectUpload)
    (command : ObjectWriteCommand) (now : Timestamp) : Except Fault DocumentTables :=
  match row.replacesDocumentId with
  | none => .ok t
  | some replacesId => do
    let current ← observeFileState t row.projectId command.folder command.name
    require (some (settings.stateRevision current) = row.expectedDocumentRevision)
      ⟨.documentConflictError, "Document changed before publication"⟩
    let previous ← orFault ⟨.documentConflictError, "Original document is unavailable"⟩
      (t.documents.find? fun document => decide (document.id = replacesId))
    require (previous.projectId = row.projectId)
      ⟨.documentConflictError, "Original document is unavailable"⟩
    return { t with documents := recycle replacesId now row.actorId t.documents }

def publishedDocument (row : ProjectDocumentEffectUpload) (now : Timestamp) : ProjectDocument :=
  { id := row.documentId, projectId := row.projectId, uploadIntentId := none,
    effectUploadId := some row.id, folder := row.folder, name := row.name,
    storageKey := row.storageKey, storageNamespace := some row.storageNamespace,
    size := row.size, mime := row.mime, checksum := row.checksum, uploadedBy := row.actorId,
    createdAt := now, deletedAt := none, deletedBy := none }

def publish (t : DocumentTables) (command : ObjectWriteCommand) (now : Timestamp) :
    Except Fault (StoredDocument × DocumentTables) := do
  let row ← requireUpload settings t command
  if row.state = .published then
    let document ← storedDocument row
    return (document, t)
  else
    require (row.publicationClosedAt = none) closed
    require (command.protocolVersion = 2) invalid
    require (row.state = .verified ∧ ∃ verifiedAt ∈ row.verifiedAt, verifiedAt ≤ now) invalid
    let trashed ← trashReplaced settings t row command now
    require (¬ pathExists trashed row.projectId row.folder row.name = true)
      ⟨.documentConflictError, "Document with the same path already exists"⟩
    let published := { row with state := .published, publishedAt := some now }
    validate settings published command
    -- The primary key of the documents is checked when the session is flushed.
    require (∀ document ∈ trashed.documents, document.id ≠ row.documentId)
      ⟨.integrityError, "project_documents"⟩
    let document ← storedDocument published
    return (document, putEffectUpload
      { trashed with documents := trashed.documents ++ [publishedDocument row now] } published)

def verifiedReceipt (t : DocumentTables) (command : ObjectWriteCommand) :
    Except Fault (Option ObjectWriteReceipt × DocumentTables) := do
  let row ← requireUpload settings t command
  return (row.receipt, t)

/-- What `close_conflicted_replacement` does to the upload of its execution. -/
def closeConflicted (t : DocumentTables) (effectId projectId runId : Uuid) (now : Timestamp) :
    DocumentTables :=
  match t.effectUploads.find? fun row =>
      decide (row.effectId = effectId) && decide (row.projectId = projectId) &&
        decide (row.runId = runId) with
  | none => t
  | some row =>
    if row.replacesDocumentId.isSome = true ∧ row.state ≠ .published then
      putEffectUpload t { row with
        publicationClosedAt := some (row.publicationClosedAt.getD now) }
    else t

end Effects

/-! ## The store -/

/-- What the documents know of the uploads they come from. -/
def effectLinks (documents : List ProjectDocument) : List (Uuid × Uuid) :=
  documents.filterMap fun document => document.effectUploadId.map fun upload =>
    (upload, document.id)

/-- A call of a transaction; `authorize` is a check of the authority in front of the others or
behind them, and `others` is what other transactions of the project have written. -/
inductive UploadCall where
  | authorize (outcome : Except Fault Unit)
  | reserve (command : ObjectWriteCommand) (asked : Reservation)
  | startOnce (command : ObjectWriteCommand) (ownerId : Uuid) (now : Timestamp)
  | recordVerified (command : ObjectWriteCommand) (receipt : ObjectWriteReceipt)
      (now : Timestamp)
  | publish (command : ObjectWriteCommand) (now : Timestamp)
  | verifiedReceipt (command : ObjectWriteCommand)
  | close (effectId projectId runId : Uuid) (now : Timestamp)
  | others (documents : List ProjectDocument) (uploads : List ProjectDocumentUpload)
      (closures : List ProjectDocumentUploadClosure) (folders : List ProjectDocumentFolder)
      (cleanups : List ProjectDocumentCleanup)

inductive UploadAnswer where
  | reserved (row : ProjectDocumentEffectUpload)
  | started (sends : Bool)
  | published (document : StoredDocument)
  | receipt (receipt : Option ObjectWriteReceipt)
  | done

/-- Other transactions neither delete nor invent the document of an effect. -/
def writeOthers (t : DocumentTables) (documents : List ProjectDocument)
    (uploads : List ProjectDocumentUpload) (closures : List ProjectDocumentUploadClosure)
    (folders : List ProjectDocumentFolder) (cleanups : List ProjectDocumentCleanup) :
    Except Fault (Unit × DocumentTables) := do
  require (effectLinks documents = effectLinks t.documents)
    ⟨.integrityError, "fk_project_documents_effect_upload"⟩
  return ((), { t with
    documents := documents
    uploads := uploads
    closures := closures
    folders := folders
    cleanups := cleanups })

def execUpload (settings : EffectUploadSettings) (call : UploadCall) (t : DocumentTables) :
    Except Fault (UploadAnswer × DocumentTables) :=
  match call with
  | .authorize outcome => do
    outcome
    return (.done, t)
  | .reserve command asked => answering .reserved (reserve settings t command asked)
  | .startOnce command ownerId now =>
    answering .started (startOnce settings t command ownerId now)
  | .recordVerified command receipt now =>
    answering (fun _ => .done) (recordVerified settings t command receipt now)
  | .publish command now => answering .published (publish settings t command now)
  | .verifiedReceipt command => answering .receipt (verifiedReceipt settings t command)
  | .close effectId projectId runId now =>
    .ok (.done, closeConflicted t effectId projectId runId now)
  | .others documents uploads closures folders cleanups =>
    answering (fun _ => .done) (writeOthers t documents uploads closures folders cleanups)

def effectUploadStore (settings : EffectUploadSettings) :
    TransactionSystem DocumentTables UploadCall UploadAnswer Fault :=
  ⟨execUpload settings⟩

def DocumentTables.withoutEffects (t : DocumentTables) : DocumentTables :=
  { t with
    effectUploads := []
    documents := t.documents.filter fun document => document.effectUploadId.isNone }

/-- `_stage`: every transaction of an execution reserves first, under its authority. -/
def stageCalls (authority again : Except Fault Unit) (command : ObjectWriteCommand)
    (asked : Reservation) (calls : List UploadCall) : List UploadCall :=
  .authorize authority :: .reserve command asked :: calls ++ [.authorize again]

def prepareCalls (authority again : Except Fault Unit) (command : ObjectWriteCommand)
    (asked : Reservation) : List UploadCall :=
  stageCalls authority again command asked [.verifiedReceipt command]

def startOnceCalls (authority again : Except Fault Unit) (command : ObjectWriteCommand)
    (asked : Reservation) (ownerId : Uuid) (now : Timestamp) : List UploadCall :=
  stageCalls authority again command asked [.startOnce command ownerId now]

def publishCalls (authority again : Except Fault Unit) (command : ObjectWriteCommand)
    (asked : Reservation) (receipt : ObjectWriteReceipt) (verified published : Timestamp) :
    List UploadCall :=
  stageCalls authority again command asked
    [.recordVerified command receipt verified, .publish command published]

def closeConflictedCalls (authority again : Except Fault Unit)
    (effectId projectId runId : Uuid) (now : Timestamp) : List UploadCall :=
  [.authorize authority, .close effectId projectId runId now, .authorize again]

end SkillMind.Documents
