import Mathlib.Data.List.DropRight
import SkillMind.Core.Redaction
import SkillMind.Library.Fallible
import SkillMind.Library.Table

/-!
# The files of a Skill source

The spelling of paths, the temporary tree a source is unpacked into, and the bundle in the object
storage. An upload keeps the spelling it came with; the tree, and with it the index of the parser,
has the normalized one.
-/

namespace SkillMind.Skills

open Library SkillMind.Core

/-- What the host and the standard library decide. -/
structure SourceHost where
  /-- `str.isprintable` of one character. -/
  isprintable : Char → Bool
  /-- The file system has room for a path of this name. -/
  materializes : String → Bool
  sha256 : ByteArray → HexDigest

inductive SourceFault where
  | importError (code : String)
  | integrityError (message : String)
  | designInvalid
  deriving DecidableEq

structure UploadSkillFile where
  path : String
  data : ByteArray
  contentType : Option String

structure InlineSkillFile where
  path : String
  content : String

/-- The files of a directory under their paths. -/
abbrev SourceTree := List (String × ByteArray)

/-! ## Paths -/

def backslash : Char := Char.ofNat 0x5c

def strip (text : List Char) : List Char := (text.dropWhile isSpace).rdropWhile isSpace

/-- The path before it is checked: backslashes are separators, and blanks around it are dropped. -/
def candidatePath (value : String) : List Char :=
  strip (value.toList.map fun c => if c = backslash then '/' else c)

def segments : List Char → List (List Char)
  | [] => [[]]
  | c :: rest =>
    if c = '/' then [] :: segments rest
    else
      match segments rest with
      | [] => [[c]]
      | first :: others => (c :: first) :: others

theorem segments_ne_nil (text : List Char) : segments text ≠ [] := by
  cases text with
  | nil => simp [segments]
  | cons c rest =>
    rw [segments]
    split
    · simp
    · split <;> simp

theorem segments_slash (front rest : List Char) :
    segments (front ++ '/' :: rest) = segments front ++ segments rest := by
  induction front with
  | nil => simp [segments]
  | cons c front ih =>
    rw [List.cons_append, segments, segments, ih]
    split_ifs with slash
    · rfl
    · cases inner : segments front with
      | nil => exact absurd inner (segments_ne_nil front)
      | cons first others => rfl

theorem segments_of_free {part : List Char} (free : '/' ∉ part) : segments part = [part] := by
  induction part with
  | nil => rfl
  | cons c part ih =>
    rw [List.mem_cons, not_or] at free
    rw [segments, if_neg (fun same => free.1 same.symm), ih free.2]

def plainSegments (path : List Char) : Bool :=
  (segments path).all fun part => part != [] && part != ['.'] && part != ['.', '.']

variable (host : SourceHost)

/-- `_safe_skill_file_path`.  A drive is a character before a colon. -/
def safeSkillFilePath (value : String) : Except SourceFault String := do
  let path := candidatePath value
  require (path ≠ [] ∧ path.head? ≠ some '/' ∧ path.getLast? ≠ some '/' ∧ path[1]? ≠ some ':' ∧
      path.all host.isprintable = true ∧ plainSegments path = true)
    (.importError "invalid_file_path")
  return String.ofList path

variable {host}

theorem strip_strip (text : List Char) : strip (strip text) = strip text := by
  have kept : (strip text).dropWhile isSpace = strip text := by
    rw [List.dropWhile_eq_self_iff]
    intro present blank
    have head : (text.dropWhile isSpace).head? = (strip text).head? := by
      have front := List.rdropWhile_prefix isSpace (text.dropWhile isSpace)
      obtain ⟨tail, whole⟩ := front
      change strip text ++ tail = text.dropWhile isSpace at whole
      rw [← whole, List.head?_append_of_ne_nil _ (List.ne_nil_of_length_pos present)]
    have first : (strip text).head? = some (strip text)[0] := List.head?_eq_getElem? ▸ by simp
    rw [first] at head
    have stays := List.head?_dropWhile_not isSpace text
    rw [head] at stays
    simp_all
  rw [strip, kept]
  exact List.rdropWhile_idempotent isSpace (text.dropWhile isSpace)

theorem strip_of_ends {text : List Char} {first last : Char} (head : text.head? = some first)
    (tail : text.getLast? = some last) (inked : isSpace first = false)
    (inked' : isSpace last = false) : strip text = text := by
  obtain ⟨rest, rfl⟩ := List.head?_eq_some_iff.mp head
  obtain ⟨front, same⟩ := List.getLast?_eq_some_iff.mp tail
  rw [strip, List.dropWhile_cons_of_neg (by simp [inked]), same,
    List.rdropWhile_concat_neg _ _ _ (by simp [inked'])]

theorem mem_strip {text : List Char} {c : Char} (mem : c ∈ strip text) : c ∈ text :=
  (List.dropWhile_sublist isSpace).subset
    ((List.rdropWhile_prefix isSpace (text.dropWhile isSpace)).subset mem)

theorem candidatePath_no_backslash (value : String) : backslash ∉ candidatePath value := by
  intro mem
  obtain ⟨c, -, same⟩ := List.mem_map.mp (mem_strip mem)
  split at same
  · exact absurd same (by decide)
  · exact absurd same ‹_›

theorem safeSkillFilePath_eq_ok {value path : String}
    (safe : safeSkillFilePath host value = .ok path) :
    path.toList = candidatePath value ∧ path.toList.all host.isprintable = true ∧
      plainSegments path.toList = true ∧ backslash ∉ path.toList := by
  simp only [safeSkillFilePath, bind_eq_ok, require_eq_ok, pure_eq_ok, exists_unit] at safe
  obtain ⟨⟨-, -, -, -, printable, plain⟩, rfl⟩ := safe
  rw [String.toList_ofList]
  exact ⟨rfl, printable, plain, candidatePath_no_backslash value⟩

theorem safeSkillFilePath_safe {value path : String}
    (safe : safeSkillFilePath host value = .ok path) : safeSkillFilePath host path = .ok path := by
  obtain ⟨spelled, -, -, clean⟩ := safeSkillFilePath_eq_ok safe
  have same : candidatePath path = candidatePath value := by
    have unchanged : (path.toList.map fun c => if c = backslash then '/' else c) = path.toList := by
      conv_rhs => rw [← List.map_id path.toList]
      refine List.map_congr_left fun c mem => if_neg ?_
      rintro rfl
      exact clean mem
    rw [candidatePath, unchanged, spelled, candidatePath, strip_strip]
  unfold safeSkillFilePath at safe ⊢
  rwa [same]

/-! ## The temporary tree -/

/-- One path is a directory above the other. -/
def above (directory path : String) : Bool :=
  (directory.toList ++ ['/']).isPrefixOf path.toList

variable (host)

def writeSkillSourceFile (tree : SourceTree) (relative : String) (data : ByteArray) :
    Except SourceFault SourceTree := do
  require (host.materializes relative = true ∧
      ∀ file ∈ tree, above file.1 relative = false ∧ above relative file.1 = false)
    (.importError "invalid_file_path")
  return tree ++ [(relative, data)]

/-- `write_skill_source_files` into a tree. -/
def writeSkillSourceFiles : List (String × ByteArray) → SourceTree → Except SourceFault SourceTree
  | [], tree => .ok tree
  | (path, data) :: rest, tree => do
    let relative ← safeSkillFilePath host path
    require (∀ file ∈ tree, file.1 ≠ relative) (.importError "duplicate_file_path")
    let tree ← writeSkillSourceFile host tree relative data
    writeSkillSourceFiles rest tree

/-- A tree that was unpacked: its paths are normalized and different, and no file stands where
another one needs a directory. -/
structure Laid (tree : SourceTree) : Prop where
  paths : (tree.map Prod.fst).Nodup
  safe : ∀ file ∈ tree, safeSkillFilePath host file.1 = .ok file.1
  fits : ∀ file ∈ tree, host.materializes file.1 = true
  apart : ∀ file ∈ tree, ∀ other ∈ tree, above file.1 other.1 = false

variable {host}

theorem above_self (path : String) : above path path = false := by
  rw [above, Bool.eq_false_iff]
  intro under
  have shorter := (List.isPrefixOf_iff_prefix.mp under).length_le
  rw [List.length_append, List.length_singleton] at shorter
  omega

theorem Laid.nil : Laid host [] :=
  ⟨List.nodup_nil, by simp, by simp, by simp⟩

theorem Laid.of_subset {tree kept : SourceTree} (laid : Laid host tree) (inside : kept ⊆ tree)
    (paths : (kept.map Prod.fst).Nodup) : Laid host kept where
  paths := paths
  safe file mem := laid.safe file (inside mem)
  fits file mem := laid.fits file (inside mem)
  apart file mem other mem' := laid.apart file (inside mem) other (inside mem')

theorem writeSkillSourceFile_eq_ok {tree tree' : SourceTree} {relative : String}
    {data : ByteArray} :
    writeSkillSourceFile host tree relative data = .ok tree' ↔
      (host.materializes relative = true ∧
        ∀ file ∈ tree, above file.1 relative = false ∧ above relative file.1 = false) ∧
      tree' = tree ++ [(relative, data)] := by
  simp only [writeSkillSourceFile, bind_eq_ok, require_eq_ok, pure_eq_ok, exists_unit]
  exact and_congr_right fun _ => eq_comm

theorem Laid.write {tree tree' : SourceTree} {value relative : String} {data : ByteArray}
    (laid : Laid host tree) (safe : safeSkillFilePath host value = .ok relative)
    (fresh : ∀ file ∈ tree, file.1 ≠ relative)
    (wrote : writeSkillSourceFile host tree relative data = .ok tree') : Laid host tree' := by
  obtain ⟨⟨fits, apart⟩, rfl⟩ := writeSkillSourceFile_eq_ok.mp wrote
  refine ⟨?_, ?_, ?_, ?_⟩
  · rw [List.map_append, List.map_singleton]
    refine laid.paths.append (List.nodup_singleton _) ?_
    intro path old new
    obtain ⟨file, mem, rfl⟩ := List.mem_map.mp old
    exact fresh file mem (List.mem_singleton.mp new)
  · intro file mem
    rcases List.mem_append.mp mem with old | new
    · exact laid.safe file old
    · cases List.mem_singleton.mp new
      exact safeSkillFilePath_safe safe
  · intro file mem
    rcases List.mem_append.mp mem with old | new
    · exact laid.fits file old
    · cases List.mem_singleton.mp new
      exact fits
  · intro file mem other mem'
    rcases List.mem_append.mp mem with old | new <;>
      rcases List.mem_append.mp mem' with old' | new'
    · exact laid.apart file old other old'
    · cases List.mem_singleton.mp new'
      exact (apart file old).1
    · cases List.mem_singleton.mp new
      exact (apart other old').2
    · cases List.mem_singleton.mp new
      cases List.mem_singleton.mp new'
      exact above_self relative

variable {files : List (String × ByteArray)}

theorem writeSkillSourceFiles_laid {tree tree' : SourceTree}
    (laid : Laid host tree) (wrote : writeSkillSourceFiles host files tree = .ok tree') :
    Laid host tree' := by
  induction files generalizing tree with
  | nil =>
    cases wrote
    exact laid
  | cons file rest ih =>
    simp only [writeSkillSourceFiles, bind_eq_ok, require_eq_ok, exists_unit] at wrote
    obtain ⟨relative, safe, fresh, next, wrote, goesOn⟩ := wrote
    exact ih (laid.write safe fresh wrote) goesOn

theorem mem_writeSkillSourceFiles {tree tree' : SourceTree}
    (wrote : writeSkillSourceFiles host files tree = .ok tree') {entry : String × ByteArray} :
    entry ∈ tree' ↔ entry ∈ tree ∨
      ∃ file ∈ files, safeSkillFilePath host file.1 = .ok entry.1 ∧ file.2 = entry.2 := by
  induction files generalizing tree with
  | nil =>
    cases wrote
    simp
  | cons file rest ih =>
    simp only [writeSkillSourceFiles, bind_eq_ok, require_eq_ok, exists_unit] at wrote
    obtain ⟨relative, safe, -, next, wrote, goesOn⟩ := wrote
    obtain ⟨-, rfl⟩ := writeSkillSourceFile_eq_ok.mp wrote
    rw [ih goesOn, List.mem_append, List.mem_singleton, List.exists_mem_cons_iff, or_assoc]
    refine or_congr_right (or_congr_left ?_)
    rw [safe, Except.ok.injEq]
    constructor
    · rintro rfl
      exact ⟨rfl, rfl⟩
    · rintro ⟨rfl, same⟩
      exact Prod.ext rfl same.symm

theorem writeSkillSourceFiles_fresh {tree tree' : SourceTree}
    (wrote : writeSkillSourceFiles host files tree = .ok tree') {file entry : String × ByteArray}
    (mem : file ∈ files) (stands : entry ∈ tree) :
    safeSkillFilePath host file.1 ≠ .ok entry.1 := by
  induction files generalizing tree with
  | nil => cases mem
  | cons first rest ih =>
    simp only [writeSkillSourceFiles, bind_eq_ok, require_eq_ok, exists_unit] at wrote
    obtain ⟨relative, safe, fresh, next, wrote, goesOn⟩ := wrote
    obtain ⟨-, rfl⟩ := writeSkillSourceFile_eq_ok.mp wrote
    rcases List.mem_cons.mp mem with rfl | later
    · intro same
      rw [safe, Except.ok.injEq] at same
      exact fresh entry stands same.symm
    · exact ih goesOn later (List.mem_append_left _ stands)

theorem writeSkillSourceFiles_pairwise
    {tree tree' : SourceTree} (wrote : writeSkillSourceFiles host files tree = .ok tree') :
    files.Pairwise fun first second =>
      ∀ path, safeSkillFilePath host first.1 = .ok path →
        safeSkillFilePath host second.1 ≠ .ok path := by
  induction files generalizing tree with
  | nil => exact List.Pairwise.nil
  | cons file rest ih =>
    simp only [writeSkillSourceFiles, bind_eq_ok, require_eq_ok, exists_unit] at wrote
    obtain ⟨relative, safe, -, next, wrote, goesOn⟩ := wrote
    obtain ⟨-, rfl⟩ := writeSkillSourceFile_eq_ok.mp wrote
    refine List.pairwise_cons.mpr ⟨fun other mem path first => ?_, ih goesOn⟩
    rw [safe, Except.ok.injEq] at first
    have here : (relative, file.2) ∈ tree ++ [(relative, file.2)] := by simp
    exact first ▸ writeSkillSourceFiles_fresh goesOn mem here

theorem Laid.writes {front rest : SourceTree} {file : String × ByteArray}
    (laid : Laid host (front ++ file :: rest)) :
    (∀ other ∈ front, other.1 ≠ file.1) ∧
      writeSkillSourceFile host front file.1 file.2 = .ok (front ++ [file]) := by
  have here : file ∈ front ++ file :: rest := by simp
  refine ⟨fun other mem same => ?_, writeSkillSourceFile_eq_ok.mpr ⟨⟨laid.fits file here, ?_⟩, rfl⟩⟩
  · have different := laid.paths
    rw [List.map_append, List.map_cons, List.nodup_append] at different
    exact different.2.2 other.1 (List.mem_map_of_mem mem) file.1 List.mem_cons_self same
  · intro other mem
    have there : other ∈ front ++ file :: rest := List.mem_append_left _ mem
    exact ⟨laid.apart other there file here, laid.apart file here other there⟩

variable (host)

/-- The first segment of a path, and those below it. -/
def splitRoot (path : String) : String × List (List Char) :=
  match segments path.toList with
  | [] => ("", [])
  | root :: rest => (String.ofList root, rest)

def normalizeUploadSkillRoot (files : List UploadSkillFile) :
    Except SourceFault (List UploadSkillFile) := do
  let safePaths ← files.mapM fun file => safeSkillFilePath host file.path
  if "SKILL.md" ∈ safePaths then return files
  else
    let parts := safePaths.map splitRoot
    let stripped := parts.map fun part => String.ofList (['/'].intercalate part.2)
    if (∃ part ∈ parts, part.2 = [] ∨ some part.1 ≠ parts.head?.map Prod.fst) ∨
        "SKILL.md" ∉ stripped then
      return files
    else
      return files.zipWith (fun file path => { file with path }) stripped

def freezeUploadFiles (files : List UploadSkillFile) (normalizeRoot : Bool) :
    Except SourceFault (List UploadSkillFile) :=
  if normalizeRoot = true then normalizeUploadSkillRoot host files else .ok files

/-- The objects of the storage, the latest first. -/
abbrev ObjectStore := List (String × ByteArray)

/-- `get` of the storage. -/
def ObjectStore.get (store : ObjectStore) (key : String) : Option ByteArray :=
  (store.find? fun object => object.1 = key).map Prod.snd

/-- `sanitize_object_key` leaves the key as it is. -/
def normalizedKey (key : String) : Bool :=
  let text := key.toList
  strip text == text && text != [] && text.getLast? != some '/' && decide (text.length ≤ 512) &&
    !text.contains backslash && text.head? != some '/' &&
    (segments text).all fun part =>
      part != [] && part != ['.'] && part != ['.', '.'] && decide (part.length ≤ 128) &&
        part.all host.isprintable

def bundleKey (keyPrefix relative : String) : String := keyPrefix ++ "/" ++ relative

/-- `_store_upload_bundle`: all keys are checked before the first object is put. -/
def storeUploadBundle (store : ObjectStore) (keyPrefix : String) (files : List UploadSkillFile) :
    Except SourceFault ObjectStore := do
  let targets ← files.mapM fun file => do
    let relative ← safeSkillFilePath host file.path
    require (normalizedKey host (bundleKey keyPrefix relative) = true)
      (.importError "invalid_file_path")
    return (bundleKey keyPrefix relative, file.data)
  return targets.reverse ++ store

variable {host}

theorem bundleKey_inj {keyPrefix first second : String}
    (same : bundleKey keyPrefix first = bundleKey keyPrefix second) : first = second := by
  have texts := congrArg String.toList same
  simp only [bundleKey, String.toList_append, List.append_cancel_left_eq] at texts
  exact String.toList_injective texts

theorem storeUploadBundle_isOk {store : ObjectStore} {keyPrefix : String}
    {files : List UploadSkillFile}
    (storable : ∀ file ∈ files, safeSkillFilePath host file.path = .ok file.path ∧
      normalizedKey host (bundleKey keyPrefix file.path) = true) :
    ∃ store', storeUploadBundle host store keyPrefix files = .ok store' := by
  simp only [storeUploadBundle, bind_eq_ok, pure_eq_ok]
  rw [exists_comm]
  refine (mapM_isOk fun file mem => ?_).imp fun targets read => ⟨_, read, rfl⟩
  obtain ⟨safe, normalized⟩ := storable file mem
  exact ⟨_, by rw [safe, ok_bind, require_of normalized]; rfl⟩

theorem storeUploadBundle_spelled {store store' : ObjectStore} {keyPrefix : String}
    {files : List UploadSkillFile}
    (spelled : ∀ file ∈ files, safeSkillFilePath host file.path = .ok file.path)
    (stored : storeUploadBundle host store keyPrefix files = .ok store') :
    store' = (files.map fun file => (bundleKey keyPrefix file.path, file.data)).reverse ++
      store := by
  simp only [storeUploadBundle, bind_eq_ok, pure_eq_ok] at stored
  obtain ⟨targets, read, rfl⟩ := stored
  congr 2
  clear * - spelled read
  induction files generalizing targets with
  | nil =>
    cases read
    rfl
  | cons file rest ih =>
    simp only [List.mapM_cons, bind_eq_ok, require_eq_ok, pure_eq_ok, exists_unit,
      spelled file List.mem_cons_self] at read
    obtain ⟨target, ⟨relative, same, -, rfl⟩, others, read, rfl⟩ := read
    cases same
    rw [ih (fun other mem => spelled other (List.mem_cons_of_mem _ mem)) others read]
    rfl

theorem get_of_mem {objects store : ObjectStore} (keys : (objects.map Prod.fst).Nodup)
    {object : String × ByteArray} (mem : object ∈ objects) :
    ObjectStore.get (objects.reverse ++ store) object.1 = some object.2 := by
  have found : (objects.reverse ++ store).find? (fun other => other.1 = object.1) =
      some object := by
    rw [List.find?_append]
    have keyed : Keyed Prod.fst objects.reverse := by
      rw [Keyed, List.map_reverse, List.nodup_reverse]
      exact keys
    rw [keyed.find_of (List.mem_reverse.mpr mem) (decide_eq_true rfl)
      fun other same => of_decide_eq_true same]
    rfl
  rw [ObjectStore.get, found]
  rfl

end SkillMind.Skills
