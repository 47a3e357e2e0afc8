import SkillMind.Documents.Frozen
import SkillMind.Effects.Proposal
import SkillMind.Runs.SourceSelection

/-!
# Receipts of the files a Run reads

The files that are prepared for a Run are sealed one by one: by the path below the workspace, the
number of bytes and the hash. A receipt lists the seals in the order of their paths, and no path
lies below another one. The checks of a seal are fields of its structure, so that an ill-formed
one cannot be built; the reader of a stored list accepts what was written for it.
-/

namespace SkillMind.Runs

open Library SkillMind.Core
open Documents (UnicodeTables member hasKeys joined sizeOf sizeOf_toString)
open Skills (segments backslash)
open Effects (textAt asObject uuidText)

structure InputSnapshotError where
  message : String

inductive InputSnapshotStatus where
  | preparing
  | ready
  deriving DecidableEq

/-! ## Seals -/

/-- The checks of `__post_init__`. -/
structure SealChecks (tables : UnicodeTables) (path : String) (size : Int) (checksum : String) :
    Prop where
  named : path ≠ ""
  noBackslash : backslash ∉ path.toList
  printable : path.toList.all tables.isprintable = true
  parts : ∀ part ∈ segments path.toList, part ≠ [] ∧ part ≠ ['.'] ∧ part ≠ ['.', '.']
  natural : 0 ≤ size
  hash : isTaggedSha256 checksum = true

instance (tables : UnicodeTables) (path : String) (size : Int) (checksum : String) :
    Decidable (SealChecks tables path size checksum) :=
  decidable_of_iff
    (path ≠ "" ∧ backslash ∉ path.toList ∧ path.toList.all tables.isprintable = true ∧
      (∀ part ∈ segments path.toList, part ≠ [] ∧ part ≠ ['.'] ∧ part ≠ ['.', '.']) ∧
      0 ≤ size ∧ isTaggedSha256 checksum = true)
    ⟨fun ⟨named, noBackslash, printable, parts, natural, hash⟩ =>
        ⟨named, noBackslash, printable, parts, natural, hash⟩,
      fun checks => ⟨checks.named, checks.noBackslash, checks.printable, checks.parts,
        checks.natural, checks.hash⟩⟩

structure InputFileSeal (tables : UnicodeTables) where
  path : String
  size : Int
  checksum : String
  checks : SealChecks tables path size checksum

section Files

variable {tables : UnicodeTables}

instance : DecidableEq (InputFileSeal tables) := fun first second =>
  decidable_of_iff
    (first.path = second.path ∧ first.size = second.size ∧ first.checksum = second.checksum) (by
      cases first
      cases second
      simp)

def InputFileSeal.toJson (file : InputFileSeal tables) : Json :=
  .object [("path", .string file.path), ("size", .number (toString file.size)),
    ("checksum", .string file.checksum)]

/-- The stored form of a list of seals. -/
def serializeFiles (files : List (InputFileSeal tables)) : Json :=
  .array (files.map InputFileSeal.toJson)

def parseSeal (tables : UnicodeTables) (item : Json) :
    Except InputSnapshotError (InputFileSeal tables) := do
  let invalid : InputSnapshotError := ⟨"Input file receipt is invalid"⟩
  let fields ← orFault invalid (asObject item)
  require (hasKeys ["path", "size", "checksum"] fields) invalid
  let path ← orFault invalid (textAt fields "path")
  let checksum ← orFault invalid (textAt fields "checksum")
  let size ← (sizeOf ⟨""⟩ (member fields "size")).mapError fun _ => invalid
  if checks : SealChecks tables path size checksum then return ⟨path, size, checksum, checks⟩
  else throw invalid

def parentPaths (path : String) : List String :=
  let parts := segments path.toList
  (List.range' 1 (parts.length - 1)).map fun index => String.ofList (joined (parts.take index))

/-- The order of a receipt: sorted, without duplicates, and no file lies below another. -/
def checkPaths (paths : List String) : Except InputSnapshotError Unit := do
  require (paths = sortedTexts paths.dedup)
    ⟨"Input file receipts have duplicate or unordered paths"⟩
  require (∀ path ∈ paths, ∀ parent ∈ parentPaths path, parent ∉ paths)
    ⟨"Input file receipts have conflicting paths"⟩

def parseInputFiles (tables : UnicodeTables) (value : Json) :
    Except InputSnapshotError (List (InputFileSeal tables)) := do
  let items ← match value with
    | .array items => .ok items
    | _ => .error ⟨"Input file receipts are invalid"⟩
  let files ← items.mapM (parseSeal tables)
  checkPaths (files.map InputFileSeal.path)
  return files

def inputTreeChecksum (library : StandardLibrary) (files : List (InputFileSeal tables)) :
    String :=
  taggedSha256 library (canonicalJson (serializeFiles files))

def inputSourceChecksum (library : StandardLibrary) (projectId runId : Uuid) (sources : Json) :
    String :=
  taggedSha256 library (canonicalJson (.object
    [ ("version", .string "v1"), ("project_id", .string (uuidText projectId)),
      ("run_id", .string (uuidText runId)), ("sources", sources) ]))

theorem parseSeal_toJson (file : InputFileSeal tables) :
    parseSeal tables file.toJson = .ok file := by
  have keys : hasKeys ["path", "size", "checksum"] [("path", Json.string file.path),
      ("size", .number (toString file.size)), ("checksum", .string file.checksum)] := by
    constructor <;> simp
  have size : sizeOf ⟨""⟩ (member [("path", Json.string file.path),
      ("size", .number (toString file.size)), ("checksum", .string file.checksum)] "size") =
        .ok file.size :=
    sizeOf_toString _ file.checks.natural
  simp only [parseSeal, InputFileSeal.toJson, asObject, orFault_some, ok_bind,
    require_of keys, size]
  exact dif_pos file.checks

theorem parseInputFiles_serialized {files read : List (InputFileSeal tables)} :
    parseInputFiles tables (serializeFiles files) = .ok read ↔
      read = files ∧ checkPaths (files.map InputFileSeal.path) = .ok () := by
  have each : (files.map InputFileSeal.toJson).mapM (parseSeal tables) = .ok files := by
    rw [mapM_eq_ok_iff, List.forall₂_map_left_iff]
    exact List.forall₂_same.mpr fun file _ => parseSeal_toJson file
  simp only [parseInputFiles, serializeFiles, ok_bind, each, bind_eq_ok, exists_unit, pure_eq_ok]
  constructor
  · rintro ⟨ordered, same⟩
    exact ⟨same.symm, ordered⟩
  · rintro ⟨same, ordered⟩
    exact ⟨ordered, same.symm⟩

end Files

end SkillMind.Runs
