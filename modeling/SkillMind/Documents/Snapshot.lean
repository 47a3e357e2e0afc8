import SkillMind.Core.JsonText
import SkillMind.Documents.Paths

/-!
# Frozen selections of documents

A token names one document, a set of them or all of a project.  When a Run is made, the token is
resolved to the metadata of its documents, and their identifiers, paths and content hashes are
frozen under one checksum.  The frozen form is checked by its own reader, when it is made and
whenever it is read again.

The reader decides about paths once more, and it reserves a segment that the upload checks let
pass.
-/

namespace SkillMind.Documents

open Library SkillMind.Core
open Runs (Uuid Timestamp)
open Effects (uuidText)
open Skills (segments strip backslash)

structure DocumentSnapshotError where
  message : String

/-- `str.replace` of a pattern by nothing; the second argument counts the characters of the
last match that are still to be left out. -/
def removed (pattern : List Char) : List Char → Nat → List Char
  | [], _ => []
  | _ :: rest, skip + 1 => removed pattern rest skip
  | c :: rest, 0 =>
    if pattern.isPrefixOf (c :: rest) then removed pattern rest (pattern.length - 1)
    else c :: removed pattern rest 0

section Identifiers

variable (tables : UnicodeTables)

def digitValue (c : Char) : Option Nat :=
  match hexValue c with
  | some value => some value
  | none => tables.decimal c

/-- Digits with single underscores between them; the last argument says whether one may come. -/
def digitsValue : List Char → Nat → Bool → Option Nat
  | [], number, true => some number
  | [], _, false => none
  | c :: rest, number, digit =>
    if c = '_' ∧ digit = true then digitsValue rest number false
    else
      match digitValue tables c with
      | some value => digitsValue rest (number * 16 + value) true
      | none => none

/-- The text behind the base of a hexadecimal number. -/
def withoutBase : List Char → List Char
  | '0' :: 'x' :: '_' :: rest | '0' :: 'X' :: '_' :: rest => rest
  | '0' :: 'x' :: rest | '0' :: 'X' :: rest => rest
  | text => text

def withoutSign : List Char → Bool × List Char
  | '-' :: rest => (true, rest)
  | '+' :: rest => (false, rest)
  | text => (false, text)

/-- `int(…, 16)`. -/
def intBase16 (text : List Char) : Option Int :=
  let (negative, rest) := withoutSign (strip text)
  (digitsValue tables (withoutBase rest) 0 false).map fun number : Nat =>
    if negative = true then -(number : Int) else (number : Int)

def isBrace (c : Char) : Bool := c == openBrace || c == closeBrace

/-- `UUID(…)`. -/
def uuid (text : String) : Option Uuid :=
  let plain := removed "uuid:".toList (removed "urn:".toList text.toList 0) 0
  let hex := ((plain.dropWhile isBrace).rdropWhile isBrace).filter fun c => c != '-'
  if hex.length = 32 then
    match intBase16 tables hex with
    | some number => if 0 ≤ number ∧ number < 2 ^ 128 then some number.toNat else none
    | none => none
  else none

end Identifiers

/-! ## Selections -/

inductive DocumentSelectionMode where
  | single
  | set
  | all
  deriving DecidableEq

def DocumentSelectionMode.value : DocumentSelectionMode → String
  | .single => "SINGLE"
  | .set => "SET"
  | .all => "ALL"

def selectionMode (value : String) : Option DocumentSelectionMode :=
  [.single, .set, .all].find? fun mode => mode.value == value

structure DocumentSelection where
  mode : DocumentSelectionMode
  documentIds : List Uuid

def maxSelectedDocuments : Nat := 5000

def sortedIds (ids : List Uuid) : List Uuid := ids.insertionSort (· ≤ ·)

/-- `str.partition(":")`: the text in front of the colon and the one behind it. -/
def partitionColon (token : List Char) : Option (List Char × List Char) :=
  match token.dropWhile (· != ':') with
  | [] => none
  | _ :: rest => some (token.takeWhile (· != ':'), rest)

/-- `str.split(",")`. -/
def pieces : List Char → List (List Char)
  | [] => [[]]
  | c :: rest =>
    if c = ',' then [] :: pieces rest
    else
      match pieces rest with
      | [] => [[c]]
      | first :: others => (c :: first) :: others

section Selections

variable (tables : UnicodeTables)

def tokenIds (token : String) :
    Except DocumentSnapshotError (DocumentSelectionMode × List Uuid) := do
  let (kind, rawIds) ← orFault ⟨"An explicit document selection is required"⟩
    (partitionColon token.toList)
  require (kind = "document".toList ∨ kind = "documents".toList)
    ⟨"An explicit document selection is required"⟩
  let values := pieces rawIds
  require (1 ≤ values.length ∧ values.length ≤ maxSelectedDocuments)
    ⟨"Document selection exceeds the allowed count"⟩
  let ids ← values.mapM fun value => orFault
    ⟨"Document selection contains an invalid identity"⟩ (uuid tables (String.ofList value))
  require (ids.Nodup ∧ ¬ (kind = "document".toList ∧ ids.length ≠ 1))
    ⟨"Document selection contains duplicate or unexpected identities"⟩
  require (¬ (kind = "documents".toList ∧ ids.length < 2))
    ⟨"A document set requires at least two identities"⟩
  return (if kind = "document".toList then .single else .set, ids)

def parseDocumentSelection (token : String) : Except DocumentSnapshotError DocumentSelection :=
  if token = "project-documents:all" then
    return ⟨.all, []⟩
  else do
    let (mode, ids) ← tokenIds tables token
    return ⟨mode, sortedIds ids⟩

end Selections

structure FrozenDocument where
  documentId : Uuid
  folder : String
  name : String
  mime : String
  size : Int
  contentHash : String
  deriving DecidableEq

def FrozenDocument.path (document : FrozenDocument) : String :=
  if document.folder = "" then document.name else document.folder ++ "/" ++ document.name

def FrozenDocument.toJson (document : FrozenDocument) : Json :=
  .object
    [ ("document_id", .string (uuidText document.documentId))
    , ("folder", .string document.folder)
    , ("name", .string document.name)
    , ("mime", .string document.mime)
    , ("size", .number (toString document.size))
    , ("content_hash", .string document.contentHash) ]

structure DocumentSnapshot where
  projectId : Uuid
  requirementKey : String
  selectionMode : DocumentSelectionMode
  documents : List FrozenDocument

/-- What the checksum is taken of. -/
def DocumentSnapshot.payload (snapshot : DocumentSnapshot) : List (String × Json) :=
  [ ("snapshot_version", .string "v1")
  , ("project_id", .string (uuidText snapshot.projectId))
  , ("requirement_key", .string snapshot.requirementKey)
  , ("selection_mode", .string snapshot.selectionMode.value)
  , ("documents", .array (snapshot.documents.map FrozenDocument.toJson)) ]

def DocumentSnapshot.toJson (library : StandardLibrary) (snapshot : DocumentSnapshot) : Json :=
  .object (snapshot.payload ++ [("checksum", .string
    (taggedSha256 library (canonicalJson (.object snapshot.payload))))])

/-! ## Reading -/

/-- The value of a key. -/
def member (fields : List (String × Json)) (key : String) : Option Json :=
  (fields.find? fun field => decide (field.1 = key)).map Prod.snd

def hasKeys (keys : List String) (fields : List (String × Json)) : Prop :=
  (∀ key ∈ fields.map Prod.fst, key ∈ keys) ∧ ∀ key ∈ keys, key ∈ fields.map Prod.fst

instance (keys : List String) (fields : List (String × Json)) : Decidable (hasKeys keys fields) :=
  inferInstanceAs (Decidable (_ ∧ _))

def textOf (fault : DocumentSnapshotError) : Option Json → Except DocumentSnapshotError String
  | some (.string text) => return text
  | _ => throw fault

/-- An integer that is not negative, from the text that is written for it. -/
def sizeOf (fault : DocumentSnapshotError) : Option Json → Except DocumentSnapshotError Int
  | some (.number literal) => do
    let number : Nat := literal.toList.foldl (fun number c => number * 10 + (c.toNat - 0x30)) 0
    require (literal = toString (number : Int)) fault
    return (number : Int)
  | _ => throw fault

def documentFields : List String :=
  ["document_id", "folder", "name", "mime", "size", "content_hash"]

section Reading

variable (tables : UnicodeTables) (library : StandardLibrary)

/-- The segments that no frozen path may have. -/
def reservedSegments : List (List Char) := [[], ['.'], ['.', '.'], ".skillmind".toList]

/-- The path checks of `_parse_document`. -/
def pathAllowed (folder name : String) : Prop :=
  let path := (FrozenDocument.path ⟨0, folder, name, "", 0, ""⟩).toList
  '/' ∉ name.toList ∧ backslash ∉ path ∧ path.all tables.isprintable = true ∧
    path.head? ≠ some '/' ∧ ∀ part ∈ segments path, part ∉ reservedSegments

instance (folder name : String) : Decidable (pathAllowed tables folder name) :=
  inferInstanceAs (Decidable (_ ∧ _))

def parseDocument : Json → Except DocumentSnapshotError FrozenDocument
  | .object fields => do
    require (hasKeys documentFields fields) ⟨"Frozen document metadata is invalid"⟩
    let identity ← textOf ⟨"Frozen document identity is invalid"⟩ (member fields "document_id")
    let documentId ← orFault ⟨"Frozen document identity is invalid"⟩ (uuid tables identity)
    let folder ← textOf ⟨"Frozen document metadata is invalid"⟩ (member fields "folder")
    let name ← textOf ⟨"Frozen document metadata is invalid"⟩ (member fields "name")
    let mime ← textOf ⟨"Frozen document metadata is invalid"⟩ (member fields "mime")
    let size ← sizeOf ⟨"Frozen document metadata is invalid"⟩ (member fields "size")
    let checksum ← textOf ⟨"Frozen document metadata is invalid"⟩
      (member fields "content_hash")
    require (name ≠ "" ∧ mime ≠ "" ∧ isTaggedSha256 checksum = true)
      ⟨"Frozen document metadata is invalid"⟩
    require (pathAllowed tables folder name) ⟨"Frozen document path is invalid"⟩
    return ⟨documentId, folder, name, mime, size, checksum⟩
  | _ => throw ⟨"Frozen document metadata is invalid"⟩

def snapshotFields : List String :=
  ["snapshot_version", "project_id", "requirement_key", "selection_mode", "documents",
    "checksum"]

def entriesOf : Option Json → Except DocumentSnapshotError (List Json)
  | some (.array entries) => do
    require (1 ≤ entries.length ∧ entries.length ≤ maxSelectedDocuments)
      ⟨"Document snapshot membership is invalid"⟩
    return entries
  | _ => throw ⟨"Document snapshot membership is invalid"⟩

def parseDocumentSnapshot (value : Json) (projectId : Uuid) (requirementKey : String) :
    Except DocumentSnapshotError DocumentSnapshot :=
  match value with
  | .object fields => do
    let version ← textOf ⟨"Document snapshot identity is invalid"⟩
      (member fields "snapshot_version")
    let project ← textOf ⟨"Document snapshot identity is invalid"⟩ (member fields "project_id")
    let key ← textOf ⟨"Document snapshot identity is invalid"⟩
      (member fields "requirement_key")
    require (hasKeys snapshotFields fields ∧ version = "v1" ∧ project = uuidText projectId ∧
        key = requirementKey)
      ⟨"Document snapshot identity is invalid"⟩
    let modeText ← textOf ⟨"Document snapshot selection mode is invalid"⟩
      (member fields "selection_mode")
    let mode ← orFault ⟨"Document snapshot selection mode is invalid"⟩ (selectionMode modeText)
    let entries ← entriesOf (member fields "documents")
    let documents ← entries.mapM (parseDocument tables)
    require ((documents.map FrozenDocument.documentId).Pairwise (· < ·) ∧
        (documents.map FrozenDocument.path).Nodup)
      ⟨"Document snapshot has duplicate or unordered members"⟩
    require (¬ (mode = .single ∧ documents.length ≠ 1) ∧
        ¬ (mode = .set ∧ documents.length < 2))
      ⟨"Document snapshot membership does not match its mode"⟩
    let snapshot : DocumentSnapshot := ⟨projectId, requirementKey, mode, documents⟩
    require (canonicalChars (snapshot.toJson library) = canonicalChars (.object fields))
      ⟨"Document snapshot checksum is invalid"⟩
    return snapshot
  | _ => throw ⟨"Document snapshot identity is invalid"⟩

def frozenDocument (item : StoredDocument) : FrozenDocument :=
  { documentId := item.documentId, folder := folderText item.folder, name := item.name,
    mime := item.mime, size := item.size, contentHash := item.checksum }

/-- `sorted(documents, key=lambda item: item.document_id)`. -/
def sortedDocuments (documents : List StoredDocument) : List StoredDocument :=
  documents.insertionSort fun first second => first.documentId ≤ second.documentId

def freezeDocumentSnapshot (projectId : Uuid) (requirementKey : String)
    (selection : DocumentSelection) (documents : List StoredDocument) :
    Except DocumentSnapshotError DocumentSnapshot := do
  require (documents ≠ [] ∧ documents.length ≤ maxSelectedDocuments)
    ⟨"Document selection is empty or exceeds the allowed count"⟩
  require (∀ item ∈ documents, item.projectId = projectId)
    ⟨"Selected document is not available in this project"⟩
  let frozen := (sortedDocuments documents).map frozenDocument
  require (selection.mode ≠ .all →
      frozen.map FrozenDocument.documentId = selection.documentIds)
    ⟨"Selected document is not available in this project"⟩
  let snapshot : DocumentSnapshot := ⟨projectId, requirementKey, selection.mode, frozen⟩
  parseDocumentSnapshot tables library (snapshot.toJson library) projectId requirementKey

/-- `_to_stored`. -/
def ProjectDocument.stored (row : ProjectDocument) : StoredDocument :=
  { documentId := row.id, projectId := row.projectId, folder := row.folder, name := row.name,
    size := row.size, mime := row.mime, checksum := row.checksum, uploadedBy := row.uploadedBy,
    createdAt := row.createdAt }

/-- `get` of a document. -/
def getDocument (t : DocumentTables) (projectId documentId : Uuid) :
    Except DocumentSnapshotError StoredDocument := do
  let row ← orFault ⟨"Selected document is not available in this project"⟩
    (t.documents.find? fun document =>
      decide (document.id = documentId ∧ document.projectId = projectId))
  require (row.deletedAt = none) ⟨"Selected document is not available in this project"⟩
  return row.stored

def documentCapabilities : List String :=
  ["document.read/v1", "document.convert/v1", "document.inspect/v1", "document.list/v1"]

/-- The documents of a selection; `listed` is the answer of `list_for_project`, in the order of
the database. -/
def selectedDocuments (t : DocumentTables) (listed : List StoredDocument) (projectId : Uuid)
    (selection : DocumentSelection) : Except DocumentSnapshotError (List StoredDocument) :=
  if selection.mode = .all then return listed
  else selection.documentIds.mapM (getDocument t projectId)

/-- `resolve_document_binding` without a library: the snapshot of the binding, and the fields
around it. -/
def resolveDocumentBinding (t : DocumentTables) (listed : List StoredDocument) (projectId : Uuid)
    (requirementKey token capability : String) (deferContent : Bool) :
    Except DocumentSnapshotError (DocumentSnapshot × Json) := do
  require (capability ∈ documentCapabilities) ⟨"Document capability is not supported"⟩
  let selection ← parseDocumentSelection tables token
  let documents ← selectedDocuments t listed projectId selection
  let snapshot ← freezeDocumentSnapshot tables library projectId requirementKey selection
    documents
  let binding : List (String × Json) :=
    [ ("capability", .string capability)
    , ("provider", .string "project-documents")
    , ("candidate_key", .string token)
    , ("resource_kind", .string "document")
    , ("binding_level", .string "RUN_DOCUMENTS")
    , ("access", .string "read")
    , ("document_snapshot", snapshot.toJson library) ]
  let policy : List (String × Json) :=
    if deferContent = true ∨ capability ≠ "document.read/v1" then
      [("preparation_policy", .string "on-demand/v1")]
    else []
  return (snapshot, .object (binding ++ policy))

end Reading

end SkillMind.Documents
