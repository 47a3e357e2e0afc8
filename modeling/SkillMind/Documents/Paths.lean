import SkillMind.Documents.Management
import SkillMind.Effects.Continuation
import SkillMind.Skills.SourceStorage

/-!
# The spelling of document paths

`validate_document_path` normalizes the folder and the name of a document; a stored document has
a path that it leaves as it is.  A folder is spelled with its segments between slashes, and the
root with no character at all.

A folder that consists of dots and slashes only has no segments for `PurePosixPath`, and its
spelling is a single dot.  The check of the segments does not see it.
-/

namespace SkillMind.Documents

open Library SkillMind.Core
open Runs (Uuid Timestamp)
open Effects (uuidText)
open Skills (segments segments_slash segments_of_free strip backslash)

structure UnicodeTables where
  /-- `str.isprintable` of one character. -/
  isprintable : Char → Bool
  slash : isprintable '/' = true
  /-- The value of a decimal digit outside of ASCII. -/
  decimal : Char → Option Nat

theorem segments_free (text : List Char) : ∀ part ∈ segments text, '/' ∉ part := by
  induction text with
  | nil => simp [segments]
  | cons c rest ih =>
    intro part mem
    rw [segments] at mem
    split at mem
    · rcases List.mem_cons.mp mem with rfl | later
      · simp
      · exact ih part later
    · rename_i free
      cases parts : segments rest with
      | nil =>
        rw [parts] at mem
        rw [List.mem_singleton.mp mem]
        simpa using fun same : '/' = c => free same.symm
      | cons first others =>
        rw [parts] at mem ih
        rcases List.mem_cons.mp mem with rfl | later
        · have clean := ih first List.mem_cons_self
          simpa using ⟨fun same : '/' = c => free same.symm, clean⟩
        · exact ih part (List.mem_cons_of_mem first later)

/-- Segments between slashes. -/
def joined (parts : List (List Char)) : List Char := ['/'].intercalate parts

theorem joined_cons_cons (part next : List Char) (rest : List (List Char)) :
    joined (part :: next :: rest) = part ++ '/' :: joined (next :: rest) := by
  simp [joined, List.intercalate_cons_cons]

theorem segments_joined {parts : List (List Char)} (present : parts ≠ [])
    (free : ∀ part ∈ parts, '/' ∉ part) : segments (joined parts) = parts := by
  induction parts with
  | nil => exact absurd rfl present
  | cons part rest ih =>
    have clean := free part List.mem_cons_self
    cases rest with
    | nil => simpa [joined, List.intercalate] using segments_of_free clean
    | cons next more =>
      rw [joined_cons_cons, segments_slash, segments_of_free clean,
        ih (by simp) fun other mem => free other (List.mem_cons_of_mem part mem),
        List.singleton_append]

/-- `PurePosixPath(…).parts` of a relative path. -/
def purePosixParts (text : List Char) : List (List Char) :=
  (segments text).filter fun part => decide (part ≠ [] ∧ part ≠ ['.'])

def asPosix (parts : List (List Char)) : List Char :=
  if parts = [] then ['.'] else joined parts

section Paths

variable (tables : UnicodeTables)

def safeName (value : String) : Except Fault String := do
  let candidate := strip value.toList
  require (candidate ≠ [] ∧ candidate.length ≤ 200)
    ⟨.uploadRejectedError, "Document name is empty or too long"⟩
  require (candidate ≠ ['.'] ∧ candidate ≠ ['.', '.'] ∧ '/' ∉ candidate ∧ backslash ∉ candidate)
    ⟨.uploadRejectedError, "Document name must be a single segment"⟩
  require (candidate.all tables.isprintable = true)
    ⟨.uploadRejectedError, "Document name has unprintable characters"⟩
  return String.ofList candidate

/-- `strip("/")`. -/
def stripSlashes (text : List Char) : List Char :=
  (text.dropWhile (· == '/')).rdropWhile (· == '/')

def safeFolder (value : String) : Except Fault String := do
  let candidate := stripSlashes (strip value.toList)
  if candidate = [] then
    return ""
  else
    require (candidate.length ≤ 200 ∧ backslash ∉ candidate)
      ⟨.uploadRejectedError, "Document folder is invalid"⟩
    require (∀ part ∈ purePosixParts candidate,
        part ≠ ['.', '.'] ∧ part.all tables.isprintable = true)
      ⟨.uploadRejectedError, "Document folder has an unsafe segment"⟩
    return String.ofList (asPosix (purePosixParts candidate))

def sanitizeObjectKey (key : String) : Except Fault String := do
  let candidate := strip key.toList
  require (candidate ≠ [] ∧ candidate.getLast? ≠ some '/' ∧ candidate.length ≤ 512)
    ⟨.uploadRejectedError, "Object key is empty or too long"⟩
  require (backslash ∉ candidate)
    ⟨.uploadRejectedError, "Object key must not contain backslashes"⟩
  let parts := purePosixParts candidate
  require (candidate.head? ≠ some '/' ∧ parts ≠ [])
    ⟨.uploadRejectedError, "Object key must be a non-empty relative path"⟩
  require (∀ part ∈ parts, part ≠ ['.', '.'] ∧ part.length ≤ 128 ∧
      part.all tables.isprintable = true)
    ⟨.uploadRejectedError, "Object key contains an unsafe segment"⟩
  return String.ofList (asPosix parts)

def documentStorageKey (projectId documentId : Uuid) (name : String) : Except Fault String :=
  sanitizeObjectKey tables
    ("projects/" ++ uuidText projectId ++ "/documents/" ++ uuidText documentId ++ "/" ++ name)

def validateDocumentPath (projectId : Uuid) (folder name : String) :
    Except Fault (String × String) := do
  let safeFolder ← safeFolder tables folder
  let safeName ← safeName tables name
  let _ ← documentStorageKey tables projectId 0 safeName
  return (safeFolder, safeName)

def folderText (folder : Folder) : String := String.ofList (joined (folder.map String.toList))

/-- The segments of a spelling. -/
def folderParts (text : String) : Folder :=
  if text = "" then [] else (segments text.toList).map String.ofList

/-- `validate_document_path` leaves the path as it is. -/
def pathIsCanonical (projectId : Uuid) (folder : Folder) (name : String) : Bool :=
  decide (folder = folderParts (folderText folder)) &&
    match validateDocumentPath tables projectId (folderText folder) name with
    | .ok (safeFolder, safeName) =>
      decide (safeFolder = folderText folder) && decide (safeName = name)
    | .error _ => false

end Paths

variable {tables : UnicodeTables}

/-- A segment as the upload checks let it pass. -/
structure SafeSegment (tables : UnicodeTables) (part : List Char) : Prop where
  present : part ≠ []
  single : part ≠ ['.']
  double : part ≠ ['.', '.']
  undivided : '/' ∉ part
  forward : backslash ∉ part
  printable : part.all tables.isprintable = true

theorem safeName_eq_ok {value name : String} (safe : safeName tables value = .ok name) :
    SafeSegment tables name.toList := by
  simp only [safeName, bind_eq_ok, require_eq_ok, exists_unit, pure_eq_ok] at safe
  obtain ⟨⟨present, -⟩, ⟨single, double, undivided, forward⟩, printable, rfl⟩ := safe
  rw [String.toList_ofList]
  exact ⟨present, single, double, undivided, forward, printable⟩

theorem mem_segments_mem {text part : List Char} {c : Char} (mem : part ∈ segments text)
    (inside : c ∈ part) : c ∈ text := by
  induction text generalizing part with
  | nil =>
    rw [segments, List.mem_singleton] at mem
    rw [mem] at inside
    cases inside
  | cons d rest ih =>
    rw [segments] at mem
    split at mem
    · rcases List.mem_cons.mp mem with rfl | later
      · cases inside
      · exact List.mem_cons_of_mem d (ih later inside)
    · cases parts : segments rest with
      | nil =>
        rw [parts, List.mem_singleton] at mem
        rw [mem] at inside
        exact List.mem_cons.mpr (.inl (List.mem_singleton.mp inside))
      | cons first others =>
        rw [parts] at mem ih
        rcases List.mem_cons.mp mem with rfl | later
        · rcases List.mem_cons.mp inside with rfl | deeper
          · exact List.mem_cons_self
          · exact List.mem_cons_of_mem d (ih List.mem_cons_self deeper)
        · exact List.mem_cons_of_mem d (ih (List.mem_cons_of_mem first later) inside)

theorem safeFolder_eq_ok {value folder : String} (safe : safeFolder tables value = .ok folder) :
    folder = "" ∨ folder = "." ∨ ∃ parts, parts ≠ [] ∧ folder = String.ofList (joined parts) ∧
      ∀ part ∈ parts, SafeSegment tables part := by
  simp only [safeFolder] at safe
  split at safe
  · rw [pure_eq_ok] at safe
    exact .inl safe.symm
  · simp only [bind_eq_ok, require_eq_ok, exists_unit, pure_eq_ok] at safe
    obtain ⟨⟨-, forward⟩, good, rfl⟩ := safe
    rw [asPosix]
    split
    · exact .inr (.inl rfl)
    · rename_i present
      refine .inr (.inr ⟨_, present, rfl, ?_⟩)
      intro part mem
      have listed := List.mem_filter.mp mem
      have kept := of_decide_eq_true listed.2
      exact ⟨kept.1, kept.2, (good part mem).1, segments_free _ part listed.1,
        fun inside => forward (mem_segments_mem listed.1 inside), (good part mem).2⟩

theorem pathIsCanonical_safe {projectId : Uuid} {folder : Folder} {name : String}
    (canonical : pathIsCanonical tables projectId folder name = true) :
    SafeSegment tables name.toList ∧
      (folder = ["."] ∨ ∀ part ∈ folder, SafeSegment tables part.toList) := by
  rw [pathIsCanonical, Bool.and_eq_true, decide_eq_true_eq] at canonical
  obtain ⟨spelled, accepted⟩ := canonical
  split at accepted
  · rename_i safeFolder' safeName' valid
    simp only [Bool.and_eq_true, decide_eq_true_eq] at accepted
    obtain ⟨rfl, rfl⟩ := accepted
    simp only [validateDocumentPath, bind_eq_ok, pure_eq_ok, Prod.mk.injEq] at valid
    obtain ⟨_, safe, _, named, _, _, rfl, rfl⟩ := valid
    refine ⟨safeName_eq_ok named, ?_⟩
    rcases safeFolder_eq_ok safe with root | dot | ⟨parts, present, text, good⟩
    · rw [root, folderParts, if_pos rfl] at spelled
      exact .inr (by simp [spelled])
    · rw [dot] at spelled
      exact .inl spelled
    · have free : ∀ part ∈ parts, '/' ∉ part := fun part mem => (good part mem).undivided
      have segmented : segments (folderText folder).toList = parts := by
        rw [text, String.toList_ofList, segments_joined present free]
      have written : folderText folder ≠ "" := by
        intro empty
        rw [empty] at segmented
        have first := good [] (by rw [← segmented]; exact List.mem_cons_self)
        exact first.present rfl
      rw [folderParts, if_neg written, segmented] at spelled
      refine .inr fun part mem => ?_
      rw [spelled] at mem
      obtain ⟨chars, member, rfl⟩ := List.mem_map.mp mem
      rw [String.toList_ofList]
      exact good chars member
  · cases accepted

end SkillMind.Documents
