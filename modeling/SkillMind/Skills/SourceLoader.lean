import SkillMind.Skills.Importer

/-!
# Preparing, storing and loading a Skill source

An upload and an inline source are unpacked, parsed and kept with what was parsed. The bundle of
an upload goes to the object storage, the texts of an inline source into the database; later the
stored source is unpacked and parsed again, and its files pass the checks of the design
validation.
-/

namespace SkillMind.Skills

open Library SkillMind.Core

variable (host : SourceHost) (references : String → String → Except SourceFault (List String))
  {I : Type} (adapt : String → ScannedSource → Except SourceFault I)

structure LoadedSkillSource (I : Type) where
  package : NormalizedSkillPackage I
  sourceFiles : List InlineSkillFile

structure PreparedSkillImport (I : Type) where
  package : NormalizedSkillPackage I
  sourceFiles : List InlineSkillFile
  uploadFiles : List UploadSkillFile
  entryPath : Option String

def loadInlineTextFiles (source : ScannedSource) : List InlineSkillFile :=
  (textFiles source.tree).map fun file => ⟨file.1, file.2⟩

def loadDirectory (root : String) (tree : SourceTree) (entryPath : Option String)
    (discoverEntries : Bool) : Except SourceFault (LoadedSkillSource I) := do
  let (package, source) ← parseDirectory host httpSkillImportLimits references adapt root tree
    entryPath discoverEntries
  return ⟨package, loadInlineTextFiles source⟩

/-- The files that are unpacked. -/
def uploaded (files : List UploadSkillFile) : List (String × ByteArray) :=
  files.map fun file => (file.path, file.data)

def inlined (files : List InlineSkillFile) : List (String × ByteArray) :=
  files.map fun file => (file.path, file.content.toUTF8)

def prepareInline (root : String) (files : List InlineSkillFile) :
    Except SourceFault (PreparedSkillImport I) := do
  let tree ← writeSkillSourceFiles host (inlined files) []
  let loaded ← loadDirectory host references adapt root tree none false
  return ⟨loaded.package, files, [], none⟩

/-- `prepare_upload`: of the uploaded files, those are kept whose path is in the package. -/
def prepareUpload (root : String) (files : List UploadSkillFile) (entryPath : Option String) :
    Except SourceFault (PreparedSkillImport I) := do
  let frozen ← freezeUploadFiles host files entryPath.isNone
  let tree ← writeSkillSourceFiles host (uploaded frozen) []
  let loaded ← loadDirectory host references adapt root tree entryPath true
  let selected := loaded.package.files.map SkillFile.path
  return ⟨loaded.package, loaded.sourceFiles, frozen.filter fun file => file.path ∈ selected,
    loaded.package.entryPath⟩

/-! ## The stored source -/

/-- Where the files of a stored source are. -/
inductive StorageUri where
  | database
  | bundle (keyPrefix : String)

structure StoredSkillSource where
  sourceHash : String
  sourceFiles : List InlineSkillFile
  storageUri : StorageUri
  sourceFileIndex : List SkillFile
  entryPath : Option String

/-- The row that `save_preview` writes for a new source. -/
def storedSource (prepared : PreparedSkillImport I) (storageUri : StorageUri) :
    StoredSkillSource where
  sourceHash := prepared.package.contentHash
  sourceFiles := prepared.sourceFiles
  storageUri := storageUri
  sourceFileIndex := prepared.package.files
  entryPath := prepared.entryPath

/-- The sources of an organization, and the objects of the storage. -/
structure SourceTables where
  organization : String
  sources : List StoredSkillSource
  objects : ObjectStore

/-- `_find_source`. -/
def SourceTables.source (tables : SourceTables) (sourceHash : String) : Option StoredSkillSource :=
  tables.sources.find? fun source => source.sourceHash = sourceHash

/-- `save_preview`: a source whose hash is stored is used as it is. -/
def savePreview (tables : SourceTables) (prepared : PreparedSkillImport I)
    (storageUri : StorageUri) : SourceTables × StoredSkillSource :=
  match tables.source prepared.package.contentHash with
  | some source => (tables, source)
  | none =>
    let source := storedSource prepared storageUri
    ({ tables with sources := tables.sources ++ [source] }, source)

/-- `save_inline` of a prepared source. -/
def saveInline (tables : SourceTables) (prepared : PreparedSkillImport I) :
    SourceTables × StoredSkillSource :=
  savePreview tables prepared .database

def bundlePrefix (organization sourceHash : String) : String :=
  "organizations/" ++ organization ++ "/skill-sources/" ++
    String.ofList (sourceHash.toList.map fun c => if c = ':' then '-' else c)

/-- `save_upload` of a prepared source; no other save comes between its transactions. -/
def saveUpload (tables : SourceTables) (prepared : PreparedSkillImport I) :
    Except SourceFault (SourceTables × StoredSkillSource) :=
  match tables.source prepared.package.contentHash with
  | some _ => .ok (savePreview tables prepared .database)
  | none => do
    let keyPrefix := bundlePrefix tables.organization prepared.package.contentHash
    let objects ← storeUploadBundle host tables.objects keyPrefix prepared.uploadFiles
    return savePreview { tables with objects } prepared (.bundle keyPrefix)

def indexedPath (item : SkillFile) : Except SourceFault String :=
  match safeSkillFilePath host item.path with
  | .ok path => .ok path
  | .error _ => .error (.integrityError "Stored SkillSource file manifest is invalid")

/-- The objects of the index, each checked against its item. -/
def materializeBundle (store : ObjectStore) (keyPrefix : String) :
    List SkillFile → SourceTree → Except SourceFault SourceTree
  | [], tree => .ok tree
  | item :: rest, tree => do
    let path ← indexedPath host item
    require (∀ file ∈ tree, file.1 ≠ path)
      (.integrityError "Stored SkillSource file manifest contains duplicates")
    let data ← orFault (.integrityError "Stored SkillSource file is unavailable")
      (store.get (bundleKey keyPrefix path))
    require (data.size = item.size ∧ tagged (host.sha256 data) = item.sha256)
      (.integrityError "Stored SkillSource file checksum drifted")
    let tree ← writeSkillSourceFile host tree path data
    materializeBundle store keyPrefix rest tree

def materialize (store : ObjectStore) (source : StoredSkillSource) :
    Except SourceFault SourceTree :=
  match source.storageUri with
  | .database => writeSkillSourceFiles host (inlined source.sourceFiles) []
  | .bundle keyPrefix => do
    require (source.sourceFileIndex ≠ [])
      (.integrityError "Stored SkillSource file manifest is missing")
    materializeBundle host store keyPrefix source.sourceFileIndex []

def loadStored (root : String) (store : ObjectStore) (source : StoredSkillSource) :
    Except SourceFault (LoadedSkillSource I) := do
  let tree ← materialize host store source
  let loaded ← loadDirectory host references adapt root tree source.entryPath false
  require (loaded.package.contentHash = source.sourceHash)
    (.integrityError "Stored SkillSource content hash drifted from its snapshot")
  return loaded

/-- `_source_path`. -/
def designPath (path : String) : Bool :=
  let text := path.toList
  text != [] && decide (text.length ≤ 1024) && !text.contains backslash && !text.contains ':' &&
    text.all host.isprintable && plainSegments text

def validHash (text : String) : Bool :=
  "sha256:".toList.isPrefixOf text.toList && (text.toList.drop 7).length == 64 &&
    (text.toList.drop 7).all isHexDigit

def indexedSize (index : List SkillFile) : Nat :=
  index.foldr (fun item total => item.size + total) 0

/-- A text of the snapshot belongs to an item of the index. -/
def matchesItem (file : InlineSkillFile) (item : SkillFile) : Prop :=
  item.path = file.path ∧ item.binary = false ∧ file.content.toUTF8.size = item.size ∧
    tagged (host.sha256 file.content.toUTF8) = item.sha256

instance (file : InlineSkillFile) (item : SkillFile) : Decidable (matchesItem host file item) :=
  inferInstanceAs (Decidable (_ ∧ _ ∧ _ ∧ _))

/-- `_source_files` of the design validation: first the index, then the texts. -/
def checkSourceFiles (index : List SkillFile) (snapshot : List InlineSkillFile)
    (entryPath : Option String) (sourceHash : String) : Except SourceFault Unit := do
  let limits := defaultImportLimits
  let paths := index.map SkillFile.path
  require (index ≠ [] ∧ index.length ≤ limits.maxFiles) .designInvalid
  require (∀ item ∈ index, designPath host item.path = true ∧ item.size ≤ limits.maxFileBytes ∧
      validHash item.sha256 = true ∧ item.mime ≠ "" ∧ item.mime.length ≤ 255)
    .designInvalid
  require (paths.Nodup ∧ indexedSize index ≤ limits.maxTotalBytes) .designInvalid
  require (paths.insertionSort pathLe = paths) .designInvalid
  require (∀ entry ∈ entryPath, designPath host entry = true ∧ entry ∈ paths ∧
      "SKILL.md".toList.isSuffixOf entry.toList = true)
    .designInvalid
  require (skillSourceHash host index entryPath = sourceHash) .designInvalid
  require (snapshot.length ≤ limits.maxFiles ∧ (snapshot.map InlineSkillFile.path).Nodup)
    .designInvalid
  require (∀ file ∈ snapshot, designPath host file.path = true ∧
      file.content.toList.length ≤ limits.maxFileBytes ∧
      ∃ item ∈ index, matchesItem host file item)
    .designInvalid
  require (∀ item ∈ index, item.binary = true ∨ item.path ∈ snapshot.map InlineSkillFile.path)
    .designInvalid

variable {host}

/-! ## The checks of the design validation -/

theorem segments_single {text first : List Char} (single : segments text = [first]) :
    first = text := by
  induction text generalizing first with
  | nil =>
    cases single
    rfl
  | cons c rest ih =>
    rw [segments] at single
    split at single
    · exact absurd (List.cons.inj single).2 (segments_ne_nil rest)
    · split at single
      · exact absurd ‹_› (segments_ne_nil rest)
      · rename_i front others tail
        cases single
        rw [ih tail]

theorem lastSegment_suffix (text : List Char) : (segments text).getLastD [] <:+ text := by
  induction text with
  | nil => exact List.suffix_refl []
  | cons c rest ih =>
    rw [segments]
    split
    · rw [List.getLastD_cons]
      exact ih.trans (List.suffix_cons c rest)
    · split
      · exact absurd ‹_› (segments_ne_nil rest)
      · rename_i front others tail
        cases others with
        | nil =>
          rw [← segments_single tail]
          exact List.suffix_refl (c :: front)
        | cons next others =>
          rw [tail] at ih
          simp only [List.getLastD_cons] at ih ⊢
          exact ih.trans (List.suffix_cons c rest)

theorem fileName_suffix (path : String) : fileName path <:+ path.toList :=
  lastSegment_suffix path.toList

/-- A path that the design validation takes and the importer does not ask for. -/
def portable (path : String) : Prop := ':' ∉ path.toList ∧ path.toList.length ≤ 1024

instance (path : String) : Decidable (portable path) := inferInstanceAs (Decidable (_ ∧ _))

theorem designPath_iff {path : String} (safe : safeSkillFilePath host path = .ok path) :
    designPath host path = true ↔ portable path := by
  obtain ⟨-, printable, plain, clean⟩ := safeSkillFilePath_eq_ok safe
  have present : path.toList ≠ [] := by
    intro empty
    rw [empty] at plain
    exact absurd plain (by decide)
  simp [designPath, portable, printable, plain, clean, present, and_comm]

theorem validHash_tagged (digest : HexDigest) : validHash (tagged digest) = true := by
  have text : (tagged digest).toList = "sha256:".toList ++ digest.digits := String.toList_ofList
  rw [validHash, text]
  simp [digest.length_eq, digest.hexadecimal]

theorem stableMimeType_short (path : String) (binary : Bool) :
    stableMimeType path binary ≠ "" ∧ (stableMimeType path binary).length ≤ 255 := by
  have all : ∀ known ∈ knownMimeTypes, known.2 ≠ "" ∧ known.2.length ≤ 255 := by decide
  unfold stableMimeType
  split
  · exact all _ (List.mem_of_find?_eq_some ‹_›)
  · cases binary <;> decide

theorem length_le_size (text : String) : text.toList.length ≤ text.toUTF8.size := by
  have bytes : text.toUTF8 = text.toList.utf8Encode := String.utf8Encode_toList.symm
  rw [bytes]
  induction text.toList with
  | nil => simp
  | cons c rest ih =>
    rw [← List.singleton_append, List.utf8Encode_append]
    have one := c.utf8Size_pos
    simp only [ByteArray.size_append, List.utf8Encode_singleton, List.length_append,
      List.length_singleton]
    simp
    omega

theorem mem_loadInlineTextFiles {source : ScannedSource} {file : InlineSkillFile} :
    file ∈ loadInlineTextFiles source ↔
      ∃ entry ∈ source.tree, entry.1 = file.path ∧ decoded entry.2 = some file.content := by
  simp only [loadInlineTextFiles, textFiles, List.mem_map, List.mem_filterMap,
    Option.map_eq_some_iff]
  constructor
  · rintro ⟨_, ⟨entry, mem, text, read, rfl⟩, rfl⟩
    exact ⟨entry, mem, rfl, read⟩
  · rintro ⟨entry, mem, path, read⟩
    exact ⟨(entry.1, file.content), ⟨entry, mem, file.content, read, rfl⟩, by rw [path]⟩

theorem map_path_loadInlineTextFiles (source : ScannedSource) :
    (loadInlineTextFiles source).map InlineSkillFile.path =
      (textFiles source.tree).map Prod.fst := by
  rw [loadInlineTextFiles, List.map_map]
  rfl

theorem textPaths_sublist (tree : SourceTree) :
    ((textFiles tree).map Prod.fst).Sublist (tree.map Prod.fst) := by
  induction tree with
  | nil => exact List.Sublist.slnil
  | cons file rest ih =>
    cases read : decoded file.2 with
    | none =>
      have skips : textFiles (file :: rest) = textFiles rest := by simp [textFiles, read]
      rw [skips]
      exact ih.cons file.1
    | some text =>
      have reads : textFiles (file :: rest) = (file.1, text) :: textFiles rest := by
        simp [textFiles, read]
      rw [reads]
      exact ih.cons_cons file.1

theorem map_path_files (source : ScannedSource) :
    (source.files host).map SkillFile.path = source.tree.map Prod.fst := by
  rw [ScannedSource.files, List.map_map]
  rfl

theorem indexedSize_files (source : ScannedSource) :
    indexedSize (source.files host) = totalSize source.tree := by
  rw [indexedSize, ScannedSource.files, List.foldr_map]
  rfl

theorem Parsed.laid {limits : SkillImportLimits} {tree : SourceTree}
    {package : NormalizedSkillPackage I} {source : ScannedSource}
    (parsed : Parsed host limits tree package source) (laid : Laid host tree) :
    Laid host source.tree :=
  laid.of_subset (fun _ mem => (sortedTree_perm tree).subset (parsed.fewer.subset mem))
    ((sortedTree_paths laid.paths).sublist (parsed.fewer.map _))

theorem Parsed.ordered {limits : SkillImportLimits} {tree : SourceTree}
    {package : NormalizedSkillPackage I} {source : ScannedSource}
    (parsed : Parsed host limits tree package source) :
    ((source.files host).map SkillFile.path).insertionSort pathLe =
      (source.files host).map SkillFile.path := by
  rw [map_path_files]
  exact List.Pairwise.insertionSort_eq
    (List.pairwise_map.mpr ((sortedTree_ordered tree).sublist parsed.fewer))

theorem checkSourceFiles_iff {tree : SourceTree} {package : NormalizedSkillPackage I}
    {source : ScannedSource} (parsed : Parsed host httpSkillImportLimits tree package source)
    (laid : Laid host tree) :
    checkSourceFiles host package.files (loadInlineTextFiles source) package.entryPath
        package.contentHash = .ok () ↔
      ∀ file ∈ source.tree, portable file.1 := by
  have own := parsed.laid laid
  obtain ⟨small, together⟩ := scanFiles_bounds parsed.scanned (Nat.zero_le _)
  have takes : ∀ file ∈ source.tree, designPath host file.1 = true ↔ portable file.1 :=
    fun file mem => designPath_iff (own.safe file mem)
  simp only [checkSourceFiles, bind_eq_ok, require_eq_ok, exists_unit, map_path_files,
    parsed.files, indexedSize_files]
  constructor
  · rintro ⟨-, paths, -⟩ file mem
    exact (takes file mem).mp (paths (indexFile host file) (List.mem_map_of_mem mem)).1
  · intro all
    refine ⟨⟨?_, ?_⟩, ?_, ⟨own.paths, ?_⟩, ?_, ?_, ?_, ⟨?_, ?_⟩, ?_, ?_⟩
    · simpa [ScannedSource.files] using parsed.present
    · have few := parsed.few
      simp only [ScannedSource.files, List.length_map, httpSkillImportLimits,
        defaultImportLimits] at few ⊢
      omega
    · intro item mem
      obtain ⟨file, known, rfl⟩ := List.mem_map.mp mem
      refine ⟨(takes file known).mpr (all file known), (small file known).trans (by decide),
        validHash_tagged _, stableMimeType_short file.1 _⟩
    · simp only [httpSkillImportLimits, defaultImportLimits, Nat.zero_add] at together ⊢
      omega
    · have ordered := parsed.ordered
      rw [map_path_files] at ordered
      exact ordered
    · intro entry known
      obtain ⟨textual, named⟩ := parsed.entry entry known
      obtain ⟨file, mem, rfl, -⟩ := mem_textPaths.mp textual
      refine ⟨(takes file mem).mpr (all file mem), List.mem_map_of_mem mem, ?_⟩
      rw [List.isSuffixOf_iff_suffix, ← eq_of_beq named]
      exact fileName_suffix file.1
    · rw [parsed.hash, parsed.files]
    · have few := (textPaths_sublist source.tree).length_le.trans (by simpa using parsed.few)
      rw [loadInlineTextFiles, List.length_map]
      rw [List.length_map] at few
      exact few.trans (by decide)
    · rw [map_path_loadInlineTextFiles]
      exact own.paths.sublist (textPaths_sublist source.tree)
    · intro file mem
      obtain ⟨entry, known, path, read⟩ := mem_loadInlineTextFiles.mp mem
      have bytes := toUTF8_of_decoded read
      refine ⟨?_, ?_, indexFile host entry, List.mem_map_of_mem known, path, ?_, ?_, ?_⟩
      · rw [← path]
        exact (takes entry known).mpr (all entry known)
      · have long := length_le_size file.content
        rw [bytes] at long
        exact long.trans ((small entry known).trans (by decide))
      · rw [indexFile, isBinary, read]
        rfl
      · rw [bytes]
        rfl
      · rw [bytes]
        rfl
    · intro item mem
      obtain ⟨file, known, rfl⟩ := List.mem_map.mp mem
      rw [map_path_loadInlineTextFiles, mem_textPaths]
      cases binary : isBinary file.2 with
      | true => exact .inl binary
      | false => exact .inr ⟨file, known, rfl, binary⟩

end SkillMind.Skills
