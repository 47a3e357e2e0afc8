import Mathlib.Data.List.Infix
import SkillMind.Library.Table
import SkillMind.Library.Transaction
import SkillMind.Runs.Domain

/-!
# Documents, reservations and their tables

A document is metadata; its bytes are in the object storage.  Before the bytes are sent a
reservation is committed, by the upload of a user or by an effect of a Run, and the document
is made when the write is known to have happened.

A canonical folder is the list of its segments, so the root is the empty list and a full path
is the folder with the name at its end.
-/

namespace SkillMind.Documents

open Library
open Runs (Uuid Timestamp)

/-- The exception classes the transactions raise. -/
inductive ErrorClass where
  | valueError
  | permissionError
  | integrityError
  | documentConflictError
  | documentNotFoundError
  | documentUploadInvalidError
  | documentUploadKeyConflictError
  | documentUploadPendingError
  | documentUploadClosedError
  | documentUploadAlreadyPublishedError
  | documentUploadNotFoundError
  | documentUploadClosureNotFoundError
  | uploadRejectedError
  | otherError
  deriving DecidableEq

structure Fault where
  error : ErrorClass
  message : String

abbrev Folder := List String

instance : LawfulBEq Folder := inferInstance

def documentPath (folder : Folder) (name : String) : List String :=
  folder ++ [name]

/-- The folder itself and the folders above it. -/
def parents (path : Folder) : List Folder :=
  path.inits.tail

structure StorageNamespace where
  namespaceId : Uuid
  descriptorChecksum : String
  durable : Bool
  deriving DecidableEq

/-- The read model of a document, with the nine columns that a publication answers. -/
structure StoredDocument where
  documentId : Uuid
  projectId : Uuid
  folder : Folder
  name : String
  size : Int
  mime : String
  checksum : String
  uploadedBy : Uuid
  createdAt : Timestamp
  deriving DecidableEq

/-! ## Rows -/

structure ProjectDocument where
  id : Uuid
  projectId : Uuid
  uploadIntentId : Option Uuid
  effectUploadId : Option Uuid
  folder : Folder
  name : String
  storageKey : String
  storageNamespace : Option StorageNamespace
  size : Int
  mime : String
  checksum : String
  uploadedBy : Uuid
  createdAt : Timestamp
  deletedAt : Option Timestamp
  deletedBy : Option Uuid

def ProjectDocument.path (row : ProjectDocument) : List String :=
  documentPath row.folder row.name

inductive UploadState where
  | pending
  | published
  deriving DecidableEq

/-- The columns of an upload intent; its protocol columns are constants. -/
structure ProjectDocumentUpload where
  id : Uuid
  organizationId : Uuid
  projectId : Uuid
  actorId : Uuid
  uploadKey : Uuid
  originalRequestId : Uuid
  originalSessionId : Uuid
  requestChecksum : String
  documentId : Uuid
  replacesDocumentId : Option Uuid
  expectedChecksum : Option String
  folder : Folder
  name : String
  storageKey : String
  storageNamespace : StorageNamespace
  size : Int
  mime : String
  checksum : String
  state : UploadState
  createdAt : Timestamp
  publishedAt : Option Timestamp
  cleanupRequestedAt : Option Timestamp
  publicationClosedAt : Option Timestamp

structure ProjectDocumentUploadClosure where
  id : Uuid
  uploadIntentId : Uuid
  organizationId : Uuid
  projectId : Uuid
  actorId : Uuid
  uploadKey : Uuid
  documentId : Uuid
  bindingChecksum : String
  requestedBy : Uuid
  requestId : Uuid
  sessionId : Uuid
  closedAt : Timestamp

inductive EffectUploadState where
  | reserved
  | sent
  | verified
  | published
  deriving DecidableEq

/-- The place of a state on the way to the publication. -/
def EffectUploadState.rank : EffectUploadState → Nat
  | .reserved => 0
  | .sent => 1
  | .verified => 2
  | .published => 3

structure ProjectDocumentEffectUpload where
  id : Uuid
  effectId : Uuid
  projectId : Uuid
  runId : Uuid
  organizationId : Uuid
  actorId : Uuid
  artifactRef : String
  documentId : Uuid
  protocolVersion : Nat
  requestChecksum : String
  folder : Folder
  name : String
  bucket : String
  storageKey : String
  storageNamespace : StorageNamespace
  size : Int
  mime : String
  checksum : String
  replacesDocumentId : Option Uuid
  expectedDocumentRevision : Option String
  state : EffectUploadState
  createdAt : Timestamp
  sentAt : Option Timestamp
  verifiedAt : Option Timestamp
  publishedAt : Option Timestamp
  putOwnerId : Option Uuid
  etag : Option String
  versionId : Option String
  publicationClosedAt : Option Timestamp

structure ProjectDocumentFolder where
  projectId : Uuid
  path : Folder

structure ProjectDocumentCleanup where
  projectId : Uuid
  documentId : Uuid
  uploadIntentId : Option Uuid
  size : Int

structure DocumentTables where
  documents : List ProjectDocument
  uploads : List ProjectDocumentUpload
  closures : List ProjectDocumentUploadClosure
  effectUploads : List ProjectDocumentEffectUpload
  folders : List ProjectDocumentFolder
  cleanups : List ProjectDocumentCleanup

end SkillMind.Documents
