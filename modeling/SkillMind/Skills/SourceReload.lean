import Mathlib.Data.List.Pairwise
import SkillMind.Skills.SourceLoader

/-!
# A stored source is loaded again

What was prepared is unpacked from the database or from the object storage, parsed to the same
package and checked.
-/

namespace SkillMind.Skills

open Library SkillMind.Core

variable {host : SourceHost} {references : String → String → Except SourceFault (List String)}
  {I : Type} {adapt : String → ScannedSource → Except SourceFault I}

variable {keyPrefix : String}

theorem materializeBundle_of {store : ObjectStore} {front rest : SourceTree}
    (laid : Laid host (front ++ rest))
    (stored : ∀ file ∈ rest, store.get (bundleKey keyPrefix file.1) = some file.2) :
    materializeBundle host store keyPrefix (rest.map (indexFile host)) front =
      .ok (front ++ rest) := by
  induction rest generalizing front with
  | nil => rw [List.append_nil]; rfl
  | cons file rest ih =>
    obtain ⟨fresh, wrote⟩ := laid.writes
    have safe := laid.safe file (by simp)
    have path : indexedPath host (indexFile host file) = .ok file.1 := by
      rw [indexedPath, indexFile]
      simp only [safe]
    have whole : front ++ file :: rest = (front ++ [file]) ++ rest := by simp
    have tail := ih (whole ▸ laid) fun other mem => stored other (List.mem_cons_of_mem _ mem)
    rw [List.map_cons, materializeBundle, path, ok_bind, require_of fresh, ok_bind,
      stored file List.mem_cons_self, orFault_some, ok_bind, require_of ⟨rfl, rfl⟩, ok_bind,
      wrote, ok_bind, tail, whole]

variable {tree : SourceTree}

theorem materializeBundle_found {store : ObjectStore}
    {items : List SkillFile} {tree' : SourceTree}
    (unpacked : materializeBundle host store keyPrefix items tree = .ok tree') {item : SkillFile}
    (mem : item ∈ items) (safe : safeSkillFilePath host item.path = .ok item.path) :
    ∃ data, store.get (bundleKey keyPrefix item.path) = some data := by
  induction items generalizing tree with
  | nil => cases mem
  | cons first rest ih =>
    simp only [materializeBundle, bind_eq_ok, require_eq_ok, exists_unit] at unpacked
    obtain ⟨path, read, -, data, got, -, next, -, goesOn⟩ := unpacked
    rcases List.mem_cons.mp mem with rfl | later
    · rw [indexedPath, safe] at read
      cases read
      exact ⟨data, orFault_eq_ok.mp got⟩
    · exact ih goesOn later

variable {root : String} {entryPath : Option String}

theorem loadDirectory_eq_ok
    {discoverEntries : Bool} {loaded : LoadedSkillSource I} :
    loadDirectory host references adapt root tree entryPath discoverEntries = .ok loaded ↔
      ∃ source, parseDirectory host httpSkillImportLimits references adapt root tree entryPath
          discoverEntries = .ok (loaded.package, source) ∧
        loaded.sourceFiles = loadInlineTextFiles source := by
  simp only [loadDirectory, bind_eq_ok, pure_eq_ok]
  constructor
  · rintro ⟨⟨package, source⟩, parsed, rfl⟩
    exact ⟨source, parsed, rfl⟩
  · rintro ⟨source, parsed, texts⟩
    exact ⟨(loaded.package, source), parsed, by rw [← texts]⟩

/-- The stored source loads as it was previewed, and passes the checks of the design
validation. -/
def Reloads (host : SourceHost) (references : String → String → Except SourceFault (List String))
    (adapt : String → ScannedSource → Except SourceFault I) (root : String) (store : ObjectStore)
    (prepared : PreparedSkillImport I) (source : StoredSkillSource) : Prop :=
  ∃ loaded, loadStored host references adapt root store source =
      .ok loaded ∧
    loaded.package.files = prepared.package.files ∧
    loaded.package.contentHash = prepared.package.contentHash ∧
    loaded.package.entryPath = prepared.package.entryPath ∧
    checkSourceFiles host source.sourceFileIndex loaded.sourceFiles source.entryPath
      source.sourceHash = .ok ()

/-- What the adapters read of a source does not hang on the name of the directory it is in. -/
def ReadsAnywhere (adapt : String → ScannedSource → Except SourceFault I) : Prop :=
  ∀ root root' source instructions, adapt root source = .ok instructions →
    ∃ instructions', adapt root' source = .ok instructions'

theorem parseDirectory_congr {tree' : SourceTree}
    {discoverEntries : Bool} (same : sortedTree tree = sortedTree tree') :
    parseDirectory host httpSkillImportLimits references adapt root tree entryPath
        discoverEntries =
      parseDirectory host httpSkillImportLimits references adapt root tree' entryPath
        discoverEntries := by
  rw [parseDirectory, parseDirectory, scanDirectory, scanDirectory, same]

variable {prepared : PreparedSkillImport I}

theorem reloads_iff {root' : String} {store : ObjectStore}
    {discoverEntries : Bool}
    {storageUri : StorageUri} {source : ScannedSource} (anywhere : ReadsAnywhere adapt)
    (laid : Laid host tree)
    (parsed : parseDirectory host httpSkillImportLimits references adapt root tree entryPath
      discoverEntries = .ok (prepared.package, source))
    (entry : prepared.entryPath = prepared.package.entryPath)
    (unpacks : ∃ again, materialize host store (storedSource prepared storageUri) = .ok again ∧
      sortedTree again = source.tree) :
    Reloads host references adapt root' store prepared (storedSource prepared storageUri) ↔
      ∀ file ∈ source.tree, portable file.1 := by
  obtain ⟨again, unpacked, same⟩ := unpacks
  have known := parseDirectory_parsed laid.paths parsed
  obtain ⟨instructions, parsed'⟩ :=
    parseDirectory_again laid.paths (anywhere root root' source) parsed
  have ordered : sortedTree source.tree = source.tree :=
    sortedTree_of_ordered ((sortedTree_ordered tree).sublist known.fewer)
  have load : loadStored host references adapt root' store (storedSource prepared storageUri) =
      .ok ⟨{ prepared.package with instructions }, loadInlineTextFiles source⟩ := by
    have read : loadDirectory host references adapt root' again prepared.entryPath false =
        .ok ⟨{ prepared.package with instructions }, loadInlineTextFiles source⟩ := by
      refine loadDirectory_eq_ok.mpr ⟨source, ?_, rfl⟩
      rw [parseDirectory_congr (same.trans ordered.symm), entry]
      exact parsed'
    rw [loadStored, unpacked, ok_bind, storedSource, read, ok_bind, require_of rfl]
    rfl
  rw [← checkSourceFiles_iff known laid]
  constructor
  · rintro ⟨loaded, load', -, -, -, checked⟩
    rw [load] at load'
    cases load'
    rw [← entry]
    exact checked
  · intro checked
    rw [← entry] at checked
    exact ⟨_, load, rfl, rfl, rfl, checked⟩

theorem prepareInline_eq_ok {files : List InlineSkillFile} :
    prepareInline host references adapt root files = .ok prepared ↔
      ∃ tree loaded, writeSkillSourceFiles host (inlined files) [] = .ok tree ∧
        loadDirectory host references adapt root tree none false = .ok loaded ∧
        prepared = ⟨loaded.package, files, [], none⟩ := by
  simp only [prepareInline, bind_eq_ok, pure_eq_ok]
  constructor
  · rintro ⟨tree, wrote, loaded, read, rfl⟩
    exact ⟨tree, loaded, wrote, read, rfl⟩
  · rintro ⟨tree, loaded, wrote, read, rfl⟩
    exact ⟨tree, wrote, loaded, read, rfl⟩

theorem parseDirectory_whole
    {package : NormalizedSkillPackage I} {source : ScannedSource}
    (parsed : parseDirectory host httpSkillImportLimits references adapt root tree none false =
      .ok (package, source)) : package.entryPath = none ∧ source.tree = sortedTree tree := by
  obtain ⟨scanned, scan, chosen, select, -⟩ := parseDirectory_eq_ok.mp parsed
  have none_ : package.entryPath = none := by
    simpa [chosenEntry, eq_comm] using chosen
  rw [none_] at select
  cases select
  obtain ⟨-, -, -, rfl⟩ := scanDirectory_eq_ok.mp scan
  exact ⟨none_, rfl⟩

theorem inline_reloads_iff {root' : String} {files : List InlineSkillFile}
    (anywhere : ReadsAnywhere adapt)
    (accepted : prepareInline host references adapt root files = .ok prepared)
    (store : ObjectStore) :
    Reloads host references adapt root' store prepared (storedSource prepared .database) ↔
      ∀ file ∈ files, ∀ path, safeSkillFilePath host file.path = .ok path → portable path := by
  obtain ⟨tree, loaded, wrote, read, rfl⟩ := prepareInline_eq_ok.mp accepted
  obtain ⟨source, parsed, -⟩ := loadDirectory_eq_ok.mp read
  have laid := writeSkillSourceFiles_laid Laid.nil wrote
  obtain ⟨entry, whole⟩ := parseDirectory_whole parsed
  have unpacks : ∃ again, materialize host store (storedSource
      (⟨loaded.package, files, [], none⟩ : PreparedSkillImport I) .database) = .ok again ∧
      sortedTree again = source.tree := ⟨tree, wrote, whole.symm⟩
  refine (reloads_iff anywhere laid parsed entry.symm unpacks).trans ?_
  constructor
  · intro all file mem path safe
    have stands : (path, file.content.toUTF8) ∈ tree := (mem_writeSkillSourceFiles wrote).mpr
      (.inr ⟨(file.path, file.content.toUTF8), List.mem_map_of_mem mem, safe, rfl⟩)
    exact all _ (whole ▸ (sortedTree_perm tree).mem_iff.mpr stands)
  · intro all entry mem
    have stands := (sortedTree_perm tree).mem_iff.mp (whole ▸ mem)
    rcases (mem_writeSkillSourceFiles wrote).mp stands with old | ⟨_, mem', safe, -⟩
    · cases old
    · obtain ⟨file, known, rfl⟩ := List.mem_map.mp mem'
      exact all file known entry.1 safe

/-! ## Uploads -/

def keptPaths (host : SourceHost) (references : String → String → Except SourceFault (List String))
    (tree : SourceTree) (entryPath : Option String) : Except SourceFault (List String) := do
  let scanned ← scanDirectory host httpSkillImportLimits tree
  let entry ← chosenEntry scanned entryPath true
  let source ← chosenSource host references scanned entry
  return source.tree.map Prod.fst

/-- The files of the Skill came with their normalized paths, which have no colon and are not too
long. -/
def Carried (host : SourceHost) (references : String → String → Except SourceFault (List String))
    (files : List UploadSkillFile) (entryPath : Option String) : Prop :=
  ∀ frozen tree paths, freezeUploadFiles host files entryPath.isNone = .ok frozen →
    writeSkillSourceFiles host (uploaded frozen) [] = .ok tree →
    keptPaths host references tree entryPath = .ok paths →
    ∀ file ∈ frozen, ∀ path ∈ paths, safeSkillFilePath host file.path = .ok path →
      file.path = path ∧ portable path

theorem bundleKeys_nodup {frozen files : List UploadSkillFile}
    {tree' : SourceTree}
    (wrote : writeSkillSourceFiles host (uploaded frozen) tree = .ok tree')
    (fewer : files.Sublist frozen)
    (spelled : ∀ file ∈ files, safeSkillFilePath host file.path = .ok file.path) :
    ((files.map fun file => (bundleKey keyPrefix file.path, file.data)).map Prod.fst).Nodup := by
  have apart := (List.pairwise_map.mp (writeSkillSourceFiles_pairwise wrote)).sublist fewer
  rw [List.map_map, List.Nodup, List.pairwise_map]
  refine apart.imp_of_mem fun mem mem' different same => ?_
  have path := bundleKey_inj same
  exact different _ (spelled _ mem) (by rw [path]; exact spelled _ mem')

theorem Laid.spelled {kept : SourceTree} (own : Laid host kept) (frozen : List UploadSkillFile) :
    ∀ file ∈ frozen.filter fun file => file.path ∈ kept.map Prod.fst,
      safeSkillFilePath host file.path = .ok file.path := by
  intro file mem
  obtain ⟨entry, known, path⟩ := List.mem_map.mp (of_decide_eq_true (List.mem_filter.mp mem).2)
  exact path ▸ own.safe entry known

theorem materializeBundle_uploaded {frozen : List UploadSkillFile}
    {kept : SourceTree} {store store' : ObjectStore}
    (wrote : writeSkillSourceFiles host (uploaded frozen) [] = .ok tree) (inside : kept ⊆ tree)
    (own : Laid host kept)
    (spells : ∀ file ∈ frozen, ∀ path ∈ kept.map Prod.fst,
      safeSkillFilePath host file.path = .ok path → file.path = path)
    (stored : storeUploadBundle host store keyPrefix
      (frozen.filter fun file => file.path ∈ kept.map Prod.fst) = .ok store') :
    materializeBundle host store' keyPrefix (kept.map (indexFile host)) [] = .ok kept := by
  have spelled := own.spelled frozen
  rw [storeUploadBundle_spelled spelled stored]
  refine materializeBundle_of own fun entry mem => ?_
  rcases (mem_writeSkillSourceFiles wrote).mp (inside mem) with old | ⟨_, mem', safe, data⟩
  · cases old
  · obtain ⟨file, known, rfl⟩ := List.mem_map.mp mem'
    have path : file.path = entry.1 := spells file known entry.1 (List.mem_map_of_mem mem) safe
    have object : (bundleKey keyPrefix entry.1, entry.2) ∈
        (frozen.filter fun file => file.path ∈ kept.map Prod.fst).map fun file =>
          (bundleKey keyPrefix file.path, file.data) := by
      have selected : file.path ∈ kept.map Prod.fst := by
        rw [path]
        exact List.mem_map_of_mem mem
      refine List.mem_map.mpr ⟨file, List.mem_filter.mpr ⟨known, decide_eq_true selected⟩, ?_⟩
      rw [path]
      exact congrArg (Prod.mk _) data
    exact get_of_mem (bundleKeys_nodup wrote List.filter_sublist spelled) object

theorem spelled_of_unpacked {frozen : List UploadSkillFile}
    {kept again : SourceTree} {objects : ObjectStore}
    (wrote : writeSkillSourceFiles host (uploaded frozen) [] = .ok tree)
    (own : Laid host kept)
    (stored : storeUploadBundle host [] keyPrefix
      (frozen.filter fun file => file.path ∈ kept.map Prod.fst) = .ok objects)
    (unpacked : materializeBundle host objects keyPrefix (kept.map (indexFile host)) [] =
      .ok again) {file : UploadSkillFile} (mem : file ∈ frozen) {path : String}
    (known : path ∈ kept.map Prod.fst) (safe : safeSkillFilePath host file.path = .ok path) :
    file.path = path := by
  have spelled := own.spelled frozen
  obtain ⟨entry, mem', rfl⟩ := List.mem_map.mp known
  obtain ⟨data, got⟩ := materializeBundle_found unpacked (List.mem_map_of_mem mem')
    (own.safe entry mem')
  rw [storeUploadBundle_spelled spelled stored, List.append_nil, ObjectStore.get,
    Option.map_eq_some_iff] at got
  obtain ⟨object, found, -⟩ := got
  have holds := List.find?_some found
  have key : object.1 = bundleKey keyPrefix entry.1 := of_decide_eq_true holds
  obtain ⟨other, there, rfl⟩ :=
    List.mem_map.mp (List.mem_reverse.mp (List.mem_of_find?_eq_some found))
  have path : other.path = entry.1 := bundleKey_inj key
  have same : file = other := by
    by_contra different
    have apart := List.pairwise_map.mp (writeSkillSourceFiles_pairwise wrote)
    have : Std.Symm fun first second : UploadSkillFile =>
        ∀ path, safeSkillFilePath host first.path = .ok path →
          safeSkillFilePath host second.path ≠ .ok path :=
      ⟨fun _ _ apart path second first => apart path first second⟩
    exact apart.forall mem (List.mem_filter.mp there).1 different entry.1 safe
      (by rw [path]; exact own.safe entry mem')
  rw [same, path]

structure Accepted (host : SourceHost)
    (references : String → String → Except SourceFault (List String))
    (adapt : String → ScannedSource → Except SourceFault I) (root : String)
    (entryPath : Option String) (frozen : List UploadSkillFile) (tree : SourceTree)
    (source : ScannedSource) (prepared : PreparedSkillImport I) : Prop where
  wrote : writeSkillSourceFiles host (uploaded frozen) [] = .ok tree
  parsed : parseDirectory host httpSkillImportLimits references adapt root tree entryPath true =
    .ok (prepared.package, source)
  kept : prepared.uploadFiles = frozen.filter fun file => file.path ∈ source.tree.map Prod.fst
  entry : prepared.entryPath = prepared.package.entryPath

theorem prepareUpload_accepted {files : List UploadSkillFile}
    (accepted : prepareUpload host references adapt root files entryPath = .ok prepared) :
    ∃ frozen tree source, freezeUploadFiles host files entryPath.isNone = .ok frozen ∧
      Accepted host references adapt root entryPath frozen tree source prepared := by
  simp only [prepareUpload, bind_eq_ok, pure_eq_ok] at accepted
  obtain ⟨frozen, froze, tree, wrote, loaded, read, rfl⟩ := accepted
  obtain ⟨source, parsed, -⟩ := loadDirectory_eq_ok.mp read
  have known := parseDirectory_parsed (writeSkillSourceFiles_laid Laid.nil wrote).paths parsed
  refine ⟨frozen, tree, source, froze, wrote, parsed, ?_, rfl⟩
  rw [known.files, map_path_files]

namespace Accepted

variable {root : String} {entryPath : Option String} {frozen : List UploadSkillFile}
  {tree : SourceTree} {source : ScannedSource} {prepared : PreparedSkillImport I}

theorem laid
    (accepted : Accepted host references adapt root entryPath frozen tree source prepared) :
    Laid host tree :=
  writeSkillSourceFiles_laid Laid.nil accepted.wrote

theorem known
    (accepted : Accepted host references adapt root entryPath frozen tree source prepared) :
    Parsed host httpSkillImportLimits tree prepared.package source :=
  parseDirectory_parsed accepted.laid.paths accepted.parsed

theorem inside
    (accepted : Accepted host references adapt root entryPath frozen tree source prepared) :
    source.tree ⊆ tree := fun _ mem =>
  (sortedTree_perm tree).subset (accepted.known.fewer.subset mem)

theorem uploaded_of_mem
    (accepted : Accepted host references adapt root entryPath frozen tree source prepared)
    {entry : String × ByteArray} (mem : entry ∈ source.tree) :
    ∃ file ∈ frozen, safeSkillFilePath host file.path = .ok entry.1 := by
  rcases (mem_writeSkillSourceFiles accepted.wrote).mp (accepted.inside mem) with
    old | ⟨_, mem', safe, -⟩
  · cases old
  · obtain ⟨file, there, rfl⟩ := List.mem_map.mp mem'
    exact ⟨file, there, safe⟩

theorem keptPaths_eq
    (accepted : Accepted host references adapt root entryPath frozen tree source prepared) :
    keptPaths host references tree entryPath = .ok (source.tree.map Prod.fst) := by
  obtain ⟨scanned, scan, chosen, select, -⟩ := parseDirectory_eq_ok.mp accepted.parsed
  rw [keptPaths, scan, ok_bind, chosen, ok_bind, select, ok_bind]
  rfl

theorem materialize_eq
    (accepted : Accepted host references adapt root entryPath frozen tree source prepared)
    (store : ObjectStore) (keyPrefix : String) :
    materialize host store (storedSource prepared (.bundle keyPrefix)) =
      materializeBundle host store keyPrefix (source.tree.map (indexFile host)) [] := by
  have files : prepared.package.files = source.tree.map (indexFile host) := accepted.known.files
  have present : source.tree.map (indexFile host) ≠ [] := by
    simpa using accepted.known.present
  rw [materialize, storedSource]
  simp only [files]
  rw [require_of present, ok_bind]

/-- The files of the Skill came with their normalized paths. -/
def Spelled (host : SourceHost) (frozen : List UploadSkillFile) (source : ScannedSource) : Prop :=
  ∀ file ∈ frozen, ∀ path ∈ source.tree.map Prod.fst,
    safeSkillFilePath host file.path = .ok path → file.path = path

theorem reloads_of_spelled
    (accepted : Accepted host references adapt root entryPath frozen tree source prepared)
    (anywhere : ReadsAnywhere adapt) (spelled : Spelled host frozen source) {root' : String}
    {store store' : ObjectStore} {keyPrefix : String}
    (stored : storeUploadBundle host store keyPrefix prepared.uploadFiles = .ok store') :
    Reloads host references adapt root' store' prepared
        (storedSource prepared (.bundle keyPrefix)) ↔
      ∀ file ∈ source.tree, portable file.1 := by
  have ordered : sortedTree source.tree = source.tree :=
    sortedTree_of_ordered ((sortedTree_ordered tree).sublist accepted.known.fewer)
  have unpacked : materialize host store' (storedSource prepared (.bundle keyPrefix)) =
      .ok source.tree := by
    rw [accepted.materialize_eq]
    exact materializeBundle_uploaded accepted.wrote accepted.inside
      (accepted.known.laid accepted.laid) spelled (accepted.kept ▸ stored)
  exact reloads_iff anywhere accepted.laid accepted.parsed accepted.entry
    ⟨source.tree, unpacked, ordered⟩

theorem spelled_of_reloads
    (accepted : Accepted host references adapt root entryPath frozen tree source prepared)
    {root' : String} {objects : ObjectStore} {keyPrefix : String}
    (stored : storeUploadBundle host [] keyPrefix prepared.uploadFiles = .ok objects)
    (reloads : Reloads host references adapt root' objects prepared
      (storedSource prepared (.bundle keyPrefix))) : Spelled host frozen source := by
  intro file mem path inside safe
  obtain ⟨_, load, -⟩ := reloads
  simp only [loadStored, bind_eq_ok, accepted.materialize_eq] at load
  obtain ⟨again, unpacked, -⟩ := load
  exact spelled_of_unpacked accepted.wrote (accepted.known.laid accepted.laid)
    (accepted.kept ▸ stored) unpacked mem inside safe

end Accepted

theorem upload_reloads_iff (root' : String) {files : List UploadSkillFile}
    {objects : ObjectStore} (anywhere : ReadsAnywhere adapt)
    (prepares : prepareUpload host references adapt root files entryPath = .ok prepared)
    (storable : storeUploadBundle host [] keyPrefix prepared.uploadFiles = .ok objects) :
    (∀ store store', storeUploadBundle host store keyPrefix prepared.uploadFiles = .ok store' →
        Reloads host references adapt root' store' prepared
          (storedSource prepared (.bundle keyPrefix))) ↔
      Carried host references files entryPath := by
  obtain ⟨frozen, tree, source, froze, accepted⟩ := prepareUpload_accepted prepares
  constructor
  · intro all frozen' tree' paths froze' wrote' kept'
    rw [froze] at froze'
    cases froze'
    rw [accepted.wrote] at wrote'
    cases wrote'
    rw [accepted.keptPaths_eq] at kept'
    cases kept'
    have reloads := all [] objects storable
    have spelled := accepted.spelled_of_reloads storable reloads
    have plain := (accepted.reloads_of_spelled anywhere spelled storable).mp reloads
    intro file mem path known safe
    obtain ⟨entry, there, rfl⟩ := List.mem_map.mp known
    exact ⟨spelled file mem entry.1 known safe, plain entry there⟩
  · intro carried store store' stored
    have holds := carried frozen tree _ froze accepted.wrote accepted.keptPaths_eq
    have spelled : Accepted.Spelled host frozen source := fun file mem path known safe =>
      (holds file mem path known safe).1
    refine (accepted.reloads_of_spelled anywhere spelled stored).mpr fun entry mem => ?_
    obtain ⟨file, there, safe⟩ := accepted.uploaded_of_mem mem
    exact (holds file there entry.1 (List.mem_map_of_mem mem) safe).2

theorem savePreview_new {tables : SourceTables}
    (new : tables.source prepared.package.contentHash = none) (storageUri : StorageUri) :
    savePreview tables prepared storageUri =
      ({ tables with sources := tables.sources ++ [storedSource prepared storageUri] },
        storedSource prepared storageUri) := by
  rw [savePreview, new]

theorem saveUpload_new {tables : SourceTables}
    (new : tables.source prepared.package.contentHash = none)
    {saved : SourceTables × StoredSkillSource} :
    saveUpload host tables prepared = .ok saved ↔
      ∃ objects, storeUploadBundle host tables.objects
          (bundlePrefix tables.organization prepared.package.contentHash) prepared.uploadFiles =
            .ok objects ∧
        savePreview { tables with objects } prepared
          (.bundle (bundlePrefix tables.organization prepared.package.contentHash)) = saved := by
  rw [saveUpload, new]
  simp only [bind_eq_ok, pure_eq_ok]

theorem savePreview_found {tables : SourceTables} {source : StoredSkillSource}
    (found : tables.source prepared.package.contentHash = some source) (storageUri : StorageUri) :
    savePreview tables prepared storageUri = (tables, source) := by
  rw [savePreview, found]

theorem source_savePreview (tables : SourceTables) (storageUri : StorageUri) :
    (savePreview tables prepared storageUri).1.source prepared.package.contentHash =
      some (savePreview tables prepared storageUri).2 := by
  cases known : tables.source prepared.package.contentHash with
  | none =>
    rw [savePreview_new known]
    have before : tables.sources.find? (fun source =>
        source.sourceHash = prepared.package.contentHash) = none := known
    simp [SourceTables.source, before, storedSource]
  | some source =>
    rw [savePreview_found known]
    exact known

theorem saveUpload_found {tables : SourceTables} {source : StoredSkillSource}
    (found : tables.source prepared.package.contentHash = some source) :
    saveUpload host tables prepared = .ok (tables, source) := by
  rw [saveUpload, found]
  simp only [savePreview_found found]

theorem saveUpload_again {tables : SourceTables} {saved : SourceTables × StoredSkillSource}
    (saves : saveUpload host tables prepared = .ok saved) :
    saveUpload host saved.1 prepared = .ok saved := by
  have found : saved.1.source prepared.package.contentHash = some saved.2 := by
    cases known : tables.source prepared.package.contentHash with
    | none =>
      obtain ⟨objects, -, rfl⟩ := (saveUpload_new known).mp saves
      exact source_savePreview _ _
    | some source =>
      rw [saveUpload_found known] at saves
      cases saves
      exact known
  exact saveUpload_found found

theorem saveInline_again (tables : SourceTables) :
    saveInline (saveInline tables prepared).1 prepared = saveInline tables prepared :=
  savePreview_found (source_savePreview tables .database) .database

/-- **A stored source loads as it was previewed**, if it is new and an upload has the files of
the Skill under their normalized paths, without colons and not too long; and only then.  An
inline source may spell its paths otherwise.  What was saved once is stored as it is when it is
saved again. -/
theorem stored_source_reloads (host : SourceHost)
    (references : String → String → Except SourceFault (List String)) {I : Type}
    (adapt : String → ScannedSource → Except SourceFault I) (anywhere : ReadsAnywhere adapt) :
    (∀ organization root root' files entryPath prepared saved,
      prepareUpload host references adapt root files entryPath = .ok prepared →
      saveUpload host ⟨organization, [], []⟩ prepared = .ok saved →
      ((∀ tables saved, tables.organization = organization →
          tables.source prepared.package.contentHash = none →
          saveUpload host tables prepared = .ok saved →
          Reloads host references adapt root' saved.1.objects prepared saved.2) ↔
        Carried host references files entryPath)) ∧
    (∀ root root' files prepared tables,
      prepareInline host references adapt root files = .ok prepared →
      tables.source prepared.package.contentHash = none →
      (Reloads host references adapt root' (saveInline tables prepared).1.objects prepared
          (saveInline tables prepared).2 ↔
        ∀ file ∈ files, ∀ path, safeSkillFilePath host file.path = .ok path → portable path)) ∧
    ∀ (tables : SourceTables) (prepared : PreparedSkillImport I),
      saveInline (saveInline tables prepared).1 prepared = saveInline tables prepared ∧
      ∀ saved, saveUpload host tables prepared = .ok saved →
        saveUpload host saved.1 prepared = .ok saved := by
  refine ⟨?_, ?_, fun tables prepared => ⟨saveInline_again tables, fun _ => saveUpload_again⟩⟩
  · intro organization root root' files entryPath prepared saved prepares saves
    obtain ⟨objects, storable, -⟩ := (saveUpload_new rfl).mp saves
    rw [← upload_reloads_iff root' anywhere prepares storable]
    constructor
    · intro all store store' stored
      have saves : saveUpload host ⟨organization, [], store⟩ prepared =
          .ok (savePreview ⟨organization, [], store'⟩ prepared
            (.bundle (bundlePrefix organization prepared.package.contentHash))) :=
        (saveUpload_new rfl).mpr ⟨store', stored, rfl⟩
      exact all ⟨organization, [], store⟩ _ rfl rfl saves
    · rintro all tables saved rfl new saves
      obtain ⟨store', stored, rfl⟩ := (saveUpload_new new).mp saves
      have new' : SourceTables.source { tables with objects := store' }
          prepared.package.contentHash = none := new
      rw [savePreview_new new']
      exact all tables.objects store' stored
  · intro root root' files prepared tables prepares new
    rw [saveInline, savePreview_new new]
    exact inline_reloads_iff anywhere prepares tables.objects

theorem prepareUpload_tagged {root : String} {files : List UploadSkillFile}
    {entryPath : Option String} {prepared : PreparedSkillImport I}
    (prepares : prepareUpload host references adapt root files entryPath = .ok prepared) :
    ∃ digest, prepared.package.contentHash = tagged digest := by
  obtain ⟨_, _, _, _, accepted⟩ := prepareUpload_accepted prepares
  exact ⟨_, accepted.known.hash⟩

/-! ## Two uploads -/

def sampleText : String := "# Guide\n\nBe brief.\n"

def sampleEntry : String := "# Guide\n\nSee [terms](../shared/terms.md).\n"

/-- The digests of the two texts, of the indices of the folder and of the entry with what it
refers to, and of the index of the single file; no two of them have the same size. -/
def sampleSha256 (data : ByteArray) : HexDigest :=
  if data.size = 19 then
    .ofNat 0x054a2d6577ad6aaf9794b9900c2a3e4dffbceadcce1f45e61b1d33836ce04026
  else if data.size = 42 then
    .ofNat 0xd2875ab902bfda0475171c192184a72957292963a3c618fd23fb72778d80248e
  else if data.size = 472 then
    .ofNat 0x9d44ab6863b603482c0213e1ead9374a78905c68764e1bc88dd7a64a0e696315
  else if data.size = 356 then
    .ofNat 0x9b2299dc2c6067dabc3793373815db52b843311008e9b60861fa9bfcd8d77f43
  else
    .ofNat 0x9f39ff886a8ff4fc60679a6aef31624e81077af94df3c4f4269671baa3043450

def sampleHost : SourceHost where
  isprintable c := 0x20 ≤ c.toNat && c.toNat < 0x7f
  materializes path := path.toList.length ≤ 255
  sha256 := sampleSha256

/-- Only the entry refers to another file. -/
def sampleReferences : String → String → Except SourceFault (List String) := fun path _ =>
  .ok (if path = "alpha/SKILL.md" then ["shared/terms.md"] else [])

/-- The first heading of the text. -/
def sampleAdapt : String → ScannedSource → Except SourceFault String := fun _ _ => .ok "Guide"

def sampleUpload (path : String) : List UploadSkillFile := [⟨path, sampleText.toUTF8, none⟩]

/-- Two Skills and a file that the first refers to. -/
def sampleFolder : List UploadSkillFile :=
  [ ⟨"alpha/SKILL.md", sampleEntry.toUTF8, some "text/markdown"⟩
  , ⟨"beta/SKILL.md", sampleText.toUTF8, some "text/markdown"⟩
  , ⟨"shared/terms.md", sampleText.toUTF8, none⟩ ]

def sampleSaved (files : List UploadSkillFile) (entryPath : Option String) :
    Except SourceFault (PreparedSkillImport String × SourceTables × StoredSkillSource) := do
  let prepared ← prepareUpload sampleHost sampleReferences sampleAdapt "first" files entryPath
  let saved ← saveUpload sampleHost ⟨"acme", [], []⟩ prepared
  return (prepared, saved)

def sampleLoaded (files : List UploadSkillFile) (entryPath : Option String) :
    Except SourceFault (LoadedSkillSource String) := do
  let (_, tables, source) ← sampleSaved files entryPath
  loadStored sampleHost sampleReferences sampleAdapt "second" tables.objects source

theorem sampleSaved_eq_ok {files : List UploadSkillFile} {entryPath : Option String}
    {prepared : PreparedSkillImport String} {saved : SourceTables × StoredSkillSource}
    (saves : sampleSaved files entryPath = .ok (prepared, saved)) :
    prepareUpload sampleHost sampleReferences sampleAdapt "first" files entryPath =
        .ok prepared ∧
      saveUpload sampleHost ⟨"acme", [], []⟩ prepared = .ok saved := by
  simp only [sampleSaved, bind_eq_ok, pure_eq_ok, Prod.mk.injEq] at saves
  obtain ⟨_, prepares, _, saves, rfl, rfl⟩ := saves
  exact ⟨prepares, saves⟩

theorem sampleFolder_carried :
    Carried sampleHost sampleReferences sampleFolder (some "alpha/SKILL.md") := by
  intro frozen tree paths froze _ _ file mem path _ safe
  have plain : ∀ file ∈ sampleFolder,
      safeSkillFilePath sampleHost file.path = .ok file.path ∧ portable file.path := by
    decide
  -- With an entry given, the upload is frozen as it came.
  cases froze
  obtain ⟨safe', fits⟩ := plain file mem
  rw [safe'] at safe
  cases safe
  exact ⟨rfl, fits⟩

/-- A hexadecimal digit stays as it is in a key. -/
theorem hexDigit_in_key {c : Char} (digit : isHexDigit c = true) :
    c ≠ ':' ∧ c ≠ '/' ∧ c ≠ backslash ∧ sampleHost.isprintable c = true := by
  obtain ⟨value, rfl⟩ := hexDigit_cases digit
  decide +revert

def sampleOrganization : List Char := "organizations/acme/skill-sources".toList

theorem sampleKey_toList (digest : HexDigest) (relative : String) :
    (bundleKey (bundlePrefix "acme" (tagged digest)) relative).toList =
      sampleOrganization ++ '/' :: (("sha256-".toList ++ digest.digits) ++ '/' ::
        relative.toList) := by
  have kept : (digest.digits.map fun c => if c = ':' then '-' else c) = digest.digits :=
    (List.map_congr_left fun c mem => if_neg (hexDigit_in_key
      (List.all_eq_true.mp digest.hexadecimal c mem)).1).trans (List.map_id _)
  have front : "organizations/".toList ++ ("acme".toList ++ "/skill-sources/".toList) =
      sampleOrganization ++ ['/'] := by decide
  have tag : ("sha256:".toList.map fun c => if c = ':' then '-' else c) = "sha256-".toList := by
    decide
  have slash : "/".toList = ['/'] := by decide
  unfold bundleKey bundlePrefix tagged
  simp only [String.toList_append, String.toList_ofList, List.map_append]
  rw [kept, tag, slash]
  simp only [List.append_assoc]
  rw [← List.append_assoc "acme".toList, ← List.append_assoc "organizations/".toList, front]
  simp only [List.append_assoc, List.cons_append, List.nil_append]

/-- The keys of the two files, whatever the digest of the source is. -/
theorem sampleKey_normalized (digest : HexDigest) {relative : String}
    (known : relative ∈ ["alpha/SKILL.md", "shared/terms.md"]) :
    normalizedKey sampleHost (bundleKey (bundlePrefix "acme" (tagged digest)) relative) =
      true := by
  have plain := fun c mem => hexDigit_in_key (List.all_eq_true.mp digest.hexadecimal c mem)
  have free : '/' ∉ "sha256-".toList ++ digest.digits := fun mem =>
    (List.mem_append.mp mem).elim (by decide) fun mem => (plain _ mem).2.1 rfl
  have fixed : sampleOrganization.head? = some 'o' ∧ sampleOrganization.length = 32 ∧
      backslash ∉ sampleOrganization ∧ "sha256-".toList = 's' :: "ha256-".toList ∧
      "ha256-".toList.length = 6 := by decide
  obtain ⟨first, length, clean, tag, rest⟩ := fixed
  have each : ∀ relative ∈ ["alpha/SKILL.md", "shared/terms.md"],
      relative.toList.getLast? = some 'd' ∧ relative.toList.length ≤ 15 ∧
        backslash ∉ relative.toList ∧ (segments relative.toList).all (fun part =>
          part != [] && part != ['.'] && part != ['.', '.'] && decide (part.length ≤ 128) &&
            part.all sampleHost.isprintable) = true := by decide
  obtain ⟨last, short, clean', parts⟩ := each relative known
  have head : (sampleOrganization ++ '/' :: (("sha256-".toList ++ digest.digits) ++ '/' ::
      relative.toList)).head? = some 'o' := by
    rw [List.head?_append, first]
    rfl
  have tail : (sampleOrganization ++ '/' :: (("sha256-".toList ++ digest.digits) ++ '/' ::
      relative.toList)).getLast? = some 'd' := by
    simp [List.getLast?_append, List.getLast?_cons, last]
  have digits : digest.digits.all sampleHost.isprintable = true :=
    List.all_eq_true.mpr fun c mem => (plain c mem).2.2.2
  rw [normalizedKey, sampleKey_toList]
  simp only [segments_slash, segments_of_free free, strip_of_ends head tail rfl rfl, head, tail,
    Bool.and_eq_true, List.all_append, List.all_cons, List.all_nil, Bool.not_eq_true',
    List.contains_eq_mem, decide_eq_true_eq, decide_eq_false_iff_not, beq_self_eq_true, true_and]
  refine ⟨⟨⟨⟨⟨by simp, rfl⟩, ?_⟩, ?_⟩, rfl⟩, by decide, ?_, ?_⟩
  · simp only [List.length_append, List.length_cons, length, tag, rest, digest.length_eq]
    omega
  · simp only [List.mem_append, List.mem_cons, not_or]
    exact ⟨clean, by decide, ⟨by decide, fun mem => (plain _ mem).2.2.1 rfl⟩, by decide, clean'⟩
  · rw [tag]
    refine ⟨⟨⟨⟨⟨by simp, by simp⟩, by simp⟩, ?_⟩, by decide, digits⟩,
      trivial⟩
    simp only [List.length_append, List.length_cons, rest, digest.length_eq]
    decide
  · exact parts

theorem sampleFolder_prepared : ∃ prepared,
    prepareUpload sampleHost sampleReferences sampleAdapt "first" sampleFolder
        (some "alpha/SKILL.md") = .ok prepared ∧
      prepared.package.files.map SkillFile.path = ["alpha/SKILL.md", "shared/terms.md"] ∧
      ∀ file ∈ prepared.uploadFiles,
        safeSkillFilePath sampleHost file.path = .ok file.path ∧
          file.path ∈ ["alpha/SKILL.md", "shared/terms.md"] := by
  have kept : (prepareUpload sampleHost sampleReferences sampleAdapt "first" sampleFolder
      (some "alpha/SKILL.md")).toOption.map (fun prepared =>
        (prepared.package.files.map SkillFile.path,
          prepared.uploadFiles.all fun file => decide
            (safeSkillFilePath sampleHost file.path = .ok file.path ∧
              file.path ∈ ["alpha/SKILL.md", "shared/terms.md"]))) =
      some (["alpha/SKILL.md", "shared/terms.md"], true) := by
    decide +kernel
  obtain ⟨prepared, prepares, same⟩ := exists_ok_of_map kept
  obtain ⟨paths, all⟩ := Prod.mk.inj same
  exact ⟨prepared, prepares, paths, fun file mem =>
    of_decide_eq_true (List.all_eq_true.mp all file mem)⟩

theorem stored_source_reloads_sample : ∃ prepared saved,
    prepareUpload sampleHost sampleReferences sampleAdapt "first" sampleFolder
        (some "alpha/SKILL.md") = .ok prepared ∧
      saveUpload sampleHost ⟨"acme", [], []⟩ prepared = .ok saved ∧
      prepared.package.files.map SkillFile.path = ["alpha/SKILL.md", "shared/terms.md"] ∧
      Reloads sampleHost sampleReferences sampleAdapt "second" saved.1.objects prepared
        saved.2 ∧
      saveUpload sampleHost saved.1 prepared = .ok saved := by
  obtain ⟨prepared, prepares, paths, uploads⟩ := sampleFolder_prepared
  obtain ⟨digest, hash⟩ := prepareUpload_tagged prepares
  have storable : ∀ file ∈ prepared.uploadFiles,
      safeSkillFilePath sampleHost file.path = .ok file.path ∧ normalizedKey sampleHost
        (bundleKey (bundlePrefix "acme" prepared.package.contentHash) file.path) = true :=
    fun file mem =>
      ⟨(uploads file mem).1, hash ▸ sampleKey_normalized digest (uploads file mem).2⟩
  obtain ⟨objects, stored⟩ : ∃ objects, storeUploadBundle sampleHost [] _ _ = .ok objects :=
    storeUploadBundle_isOk storable
  have first : (⟨"acme", [], []⟩ : SourceTables).source prepared.package.contentHash = none := rfl
  have saves := (saveUpload_new first).mpr ⟨objects, stored, rfl⟩
  have reloads := stored_source_reloads sampleHost sampleReferences sampleAdapt
    fun _ _ _ _ _ => ⟨"Guide", rfl⟩
  exact ⟨prepared, _, prepares, saves, paths,
    (reloads.1 "acme" "first" "second" _ _ prepared _ prepares saves).mpr
      sampleFolder_carried ⟨"acme", [], []⟩ _ rfl rfl saves,
    (reloads.2.2 _ prepared).2 _ saves⟩

/-- A file that came with a backslash is in the index, and its bytes are not in the bundle. -/
theorem backslash_not_stored : ∃ prepared saved,
    prepareUpload sampleHost sampleReferences sampleAdapt "first" (sampleUpload "docs\\guide.md")
        none = .ok prepared ∧
      saveUpload sampleHost ⟨"acme", [], []⟩ prepared = .ok saved ∧
      ¬Reloads sampleHost sampleReferences sampleAdapt "second" saved.1.objects prepared
        saved.2 := by
  obtain ⟨⟨prepared, saved⟩, saves⟩ :=
    exists_ok (x := sampleSaved (sampleUpload "docs\\guide.md") none) (by decide)
  obtain ⟨prepares, stores⟩ := sampleSaved_eq_ok saves
  refine ⟨prepared, saved, prepares, stores, ?_⟩
  rintro ⟨loaded, load, -⟩
  have fails : (sampleLoaded (sampleUpload "docs\\guide.md") none).toOption.isNone = true := by
    decide
  rw [sampleLoaded, saves, ok_bind] at fails
  change (loadStored sampleHost sampleReferences sampleAdapt "second" saved.1.objects
    saved.2).toOption.isNone = true at fails
  rw [load] at fails
  cases fails

end SkillMind.Skills
