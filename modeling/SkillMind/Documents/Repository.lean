import SkillMind.Documents.Domain

/-!
# What a reservation reads

The checks that an upload makes before it reserves a path and its bytes: whether a document or
a folder is on the path, whether another reservation has the path, what the project uses, and
the observed state of the file that a replacement was approved for.
-/

namespace SkillMind.Documents

open Library
open Runs (Uuid Timestamp)

/-- `path_conflicts`: files and folders share one namespace. -/
def pathConflicts (t : DocumentTables) (projectId : Uuid) (folder : Folder) (name : String)
    (excluding : Option Uuid) : Bool :=
  let path := documentPath folder name
  (t.folders.any fun directory =>
    decide (directory.projectId = projectId) && decide (path ∈ parents directory.path)) ||
  t.documents.any fun document =>
    decide (document.projectId = projectId) && document.deletedAt.isNone &&
      decide (some document.id ≠ excluding) &&
      (decide (document.path = path) || decide (document.path ∈ parents folder) ||
        decide (path ∈ parents document.folder))

def pathExists (t : DocumentTables) (projectId : Uuid) (folder : Folder) (name : String) : Bool :=
  pathConflicts t projectId folder name none

/-- `path_reserved`: a request that is not published yet keeps its path. -/
def pathReserved (t : DocumentTables) (projectId : Uuid) (folder : Folder) (name : String) :
    Bool :=
  (t.uploads.any fun row =>
    decide (row.projectId = projectId) && decide (row.folder = folder) &&
      decide (row.name = name) && decide (row.state = .pending) &&
      row.publicationClosedAt.isNone) ||
  t.effectUploads.any fun row =>
    decide (row.projectId = projectId) && decide (row.folder = folder) &&
      decide (row.name = name) && decide (row.state ≠ .published) &&
      row.publicationClosedAt.isNone

/-- `project_usage_bytes`: documents without a reservation, both kinds of reservations, and the
cleanups of objects that no upload intent accounts for. -/
def projectUsageBytes (t : DocumentTables) (projectId : Uuid) : Except Fault Int := do
  let legacy := t.documents.filter fun row =>
    decide (row.projectId = projectId) && row.uploadIntentId.isNone && row.effectUploadId.isNone
  let reserved := t.uploads.filter fun row => decide (row.projectId = projectId)
  let effects := t.effectUploads.filter fun row =>
    decide (row.projectId = projectId) &&
      !t.cleanups.any fun cleanup => decide (cleanup.documentId = row.documentId)
  let legacyCleanup := t.cleanups.filter fun row =>
    decide (row.projectId = projectId) && row.uploadIntentId.isNone
  let value := total ProjectDocument.size legacy + total ProjectDocumentUpload.size reserved +
    total ProjectDocumentEffectUpload.size effects +
    total ProjectDocumentCleanup.size legacyCleanup
  require ((∀ row ∈ legacy, 0 ≤ row.size) ∧ 0 ≤ value)
    ⟨.documentUploadInvalidError, "Document quota could not be verified"⟩
  return value

/-- The policy of uploads; `contentTypes` are the allowed media types, and `sensitive` says
whether a text holds something like a credential. -/
structure UploadLimits where
  maxBytes : Int
  projectQuotaBytes : Int
  contentTypes : List String
  sensitive : List UInt8 → Bool

/-- The text types whose content is scanned. -/
def isText (contentType : String) : Bool :=
  contentType.startsWith "text/" ||
    decide (contentType ∈
      ["application/json", "application/yaml", "application/x-yaml", "image/svg+xml"])

/-- `UploadLimits.validate` of a media type without parameters. -/
def UploadLimits.validate (limits : UploadLimits) (contentType : String)
    (content : List UInt8) (projectUsageBytes : Int) : Except Fault Unit := do
  let size : Int := content.length
  require (0 < size) ⟨.uploadRejectedError, "Uploaded file is empty"⟩
  require (size ≤ limits.maxBytes)
    ⟨.uploadRejectedError, "Uploaded file exceeds the size limit"⟩
  require (projectUsageBytes + size ≤ limits.projectQuotaBytes)
    ⟨.uploadRejectedError, "Project storage quota is exceeded"⟩
  require (contentType ∈ limits.contentTypes)
    ⟨.uploadRejectedError, "Content type is not allowed"⟩
  require (¬ (isText contentType = true ∧ limits.sensitive content = true))
    ⟨.uploadRejectedError, "Upload contains credential-like content"⟩

structure FileDescription where
  documentId : Uuid
  path : List String
  contentHash : String
  sizeBytes : Int
  mimeType : String
  trashed : Bool

structure FileState where
  path : List String
  document : Option FileDescription

def fileDescription (document : ProjectDocument) : FileDescription :=
  { documentId := document.id, path := document.path, contentHash := document.checksum,
    sizeBytes := document.size, mimeType := document.mime,
    trashed := document.deletedAt.isSome }

/-- `observe_file_state` of a file that is not in the recycle bin. -/
def observeFileState (t : DocumentTables) (projectId : Uuid) (folder : Folder) (name : String) :
    Except Fault FileState :=
  match t.documents.filter fun row =>
      decide (row.projectId = projectId) && decide (row.folder = folder) &&
        decide (row.name = name) && row.deletedAt.isNone with
  | [] => .ok ⟨documentPath folder name, none⟩
  | [row] => .ok ⟨documentPath folder name, some (fileDescription row)⟩
  | _ => .error ⟨.valueError,
      "Multiple recycled versions match; use an unambiguous document identity"⟩

/-- The document goes to the recycle bin. -/
def recycle (documentId : Uuid) (now : Timestamp) (actorId : Uuid)
    (documents : List ProjectDocument) : List ProjectDocument :=
  documents.map fun document =>
    if document.id = documentId then
      { document with deletedAt := some now, deletedBy := some actorId }
    else document

theorem filterMap_recycle {α : Type} {read : ProjectDocument → Option α}
    (kept : ∀ (document : ProjectDocument) (now : Timestamp) (actorId : Uuid),
      read { document with deletedAt := some now, deletedBy := some actorId } = read document)
    (documentId actorId : Uuid) (now : Timestamp) (documents : List ProjectDocument) :
    (recycle documentId now actorId documents).filterMap read = documents.filterMap read := by
  unfold recycle
  rw [List.filterMap_map]
  apply List.filterMap_congr
  intro document _
  rw [Function.comp_apply]
  split
  · exact kept document now actorId
  · rfl

end SkillMind.Documents
