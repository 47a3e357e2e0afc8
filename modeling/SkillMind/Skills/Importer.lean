import SkillMind.Core.JsonText
import SkillMind.Library.Worklist
import SkillMind.Skills.SourceStorage

/-!
# Reading a Skill source

The scanner indexes the files of a directory in the order of their paths; the selection keeps the
files of one Skill with everything they refer to. The references of a text and the reading of the
selected source (`_validate_markdown_references` and the adapters) are parameters. What is read
may depend on the name of the temporary directory.
-/

namespace SkillMind.Skills

open Library SkillMind.Core

/-! ## The index -/

structure SkillImportLimits where
  maxFiles : Nat
  maxFileBytes : Nat
  maxTotalBytes : Nat
  maxMarkdownBytes : Nat

/-- The defaults of `SkillImportLimits`. -/
def defaultImportLimits : SkillImportLimits := ⟨1000, 2000000, 20000000, 1000000⟩

def httpSkillImportLimits : SkillImportLimits := ⟨100, 1000000, 5000000, 1000000⟩

structure SkillFile where
  path : String
  mime : String
  size : Nat
  sha256 : String
  binary : Bool

/-- The name behind the last separator. -/
def fileName (path : String) : List Char := (segments path.toList).getLastD []

/-- `PurePosixPath.suffix` in lower case. -/
def suffix (path : String) : List Char :=
  let name := fileName path
  let tail := (name.reverse.takeWhile fun c => c ≠ '.').reverse
  if tail = [] ∨ name.length ≤ tail.length + 1 then []
  else ('.' :: tail).flatMap lowered

/-- The mapping of `_stable_mime_type`. -/
def knownMimeTypes : List (String × String) :=
  [ (".css", "text/css"), (".csv", "text/csv"), (".gif", "image/gif"), (".html", "text/html")
  , (".jpeg", "image/jpeg"), (".jpg", "image/jpeg"), (".js", "text/javascript")
  , (".json", "application/json"), (".md", "text/markdown"), (".png", "image/png")
  , (".py", "text/x-python"), (".svg", "image/svg+xml"), (".toml", "application/toml")
  , (".ts", "text/typescript"), (".txt", "text/plain"), (".yaml", "application/yaml")
  , (".yml", "application/yaml") ]

def stableMimeType (path : String) (binary : Bool) : String :=
  match knownMimeTypes.find? fun known => known.1.toList = suffix path with
  | some known => known.2
  | none => if binary = true then "application/octet-stream" else "text/plain"

/-- `path.lower().endswith(".md")`. -/
def isMarkdown (path : String) : Bool := ".md".toList.isSuffixOf (lower path)

/-- The text of a file that is not binary. -/
def decoded (data : ByteArray) : Option String :=
  if data.data.toList.contains 0 then none else String.fromUTF8? data

def isBinary (data : ByteArray) : Bool := (decoded data).isNone

/-- A digest as the index writes it. -/
def tagged (digest : HexDigest) : String := String.ofList ("sha256:".toList ++ digest.digits)

variable (host : SourceHost)

def indexFile (file : String × ByteArray) : SkillFile where
  path := file.1
  mime := stableMimeType file.1 (isBinary file.2)
  size := file.2.size
  sha256 := tagged (host.sha256 file.2)
  binary := isBinary file.2

def SkillFile.toJson (file : SkillFile) : Json :=
  .object
    [ ("path", .string file.path), ("mime", .string file.mime)
    , ("size", .number (toString file.size)), ("sha256", .string file.sha256)
    , ("binary", .bool file.binary) ]

/-- The settings of a source identity: every other character is escaped. -/
def identityStyle : TextStyle := ⟨asciiEscaped, [','], [':']⟩

def skillSourceHash (files : List SkillFile) (entryPath : Option String) : String :=
  let index := Json.array (files.map SkillFile.toJson)
  let value := match entryPath with
    | none => index
    | some entry => .object [("entry_path", .string entry), ("files", index)]
  let encoded := String.ofList (dumpChars identityStyle (sortMembers value))
  tagged (host.sha256 encoded.toUTF8)

/-- `_ScannedSource`, with the bytes of its files. -/
structure ScannedSource where
  tree : SourceTree
  contentHash : String
  entryPath : String

/-- `files` of a scanned source. -/
def ScannedSource.files (source : ScannedSource) : List SkillFile :=
  source.tree.map (indexFile host)

/-- `text_files` of a scanned source. -/
def textFiles (tree : SourceTree) : List (String × String) :=
  tree.filterMap fun file => (decoded file.2).map fun text => (file.1, text)

variable (limits : SkillImportLimits)

/-- The files are read in order, with the bytes counted so far. -/
def scanFiles : Nat → SourceTree → Except SourceFault Unit
  | _, [] => .ok ()
  | total, file :: rest => do
    require (file.2.size ≤ limits.maxFileBytes) (.importError "file_too_large")
    require (total + file.2.size ≤ limits.maxTotalBytes) (.importError "package_too_large")
    require (isBinary file.2 = true → isMarkdown file.1 = false)
      (.importError "invalid_text_encoding")
    require (isBinary file.2 = false → isMarkdown file.1 = true →
        file.2.size ≤ limits.maxMarkdownBytes)
      (.importError "markdown_too_large")
    scanFiles (total + file.2.size) rest

/-- One path stands before another, or is the same. -/
def pathLe (first second : String) : Prop := textLe first.toList second.toList = true

instance : DecidableRel pathLe := fun first second =>
  inferInstanceAs (Decidable (textLe first.toList second.toList = true))

/-- The files in the order of their paths. -/
def sortedTree (tree : SourceTree) : SourceTree :=
  tree.insertionSort fun first second => pathLe first.1 second.1

def wholeSource (tree : SourceTree) : ScannedSource :=
  ⟨tree, skillSourceHash host (tree.map (indexFile host)) none, "SKILL.md"⟩

def scanDirectory (tree : SourceTree) : Except SourceFault ScannedSource := do
  let sorted := sortedTree tree
  require (sorted ≠ []) (.importError "empty_skill_source")
  require (sorted.length ≤ limits.maxFiles) (.importError "too_many_files")
  scanFiles limits 0 sorted
  return wholeSource host sorted

/-! ## Selecting -/

/-- The directory of a path, with its separator. -/
def parentPrefix (path : String) : List Char :=
  path.toList.take (path.toList.length - (fileName path).length)

def isSkillEntry (path : String) : Bool := fileName path == "SKILL.md".toList

/-- `_skill_entry_paths`: the outermost entries. -/
def skillEntryPaths (tree : SourceTree) : List String :=
  let entries := ((textFiles tree).map Prod.fst).filter isSkillEntry
  entries.filter fun path => !entries.any fun other =>
    other != path && (parentPrefix other).isPrefixOf path.toList

def otherEntries (tree : SourceTree) (entry : String) : List String :=
  ((textFiles tree).map Prod.fst).filter fun path =>
    isSkillEntry path && path != entry && parentPrefix path != [] &&
      !(parentPrefix path).isPrefixOf entry.toList

/-- The files of the entry's own directory, without those of other Skills. -/
def ownFiles (tree : SourceTree) (entry : String) : List String :=
  (tree.map Prod.fst).filter fun path =>
    path == entry || ((parentPrefix entry).isPrefixOf path.toList &&
      !(otherEntries tree entry).any fun other => (parentPrefix other).isPrefixOf path.toList)

/-- The text of a file; a binary file has none. -/
def textOf (tree : SourceTree) (path : String) : String :=
  match (textFiles tree).find? fun file => file.1 = path with
  | some file => file.2
  | none => ""

variable (references : String → String → Except SourceFault (List String))

def fileReferences (tree : SourceTree) (path : String) : Except SourceFault (List String) := do
  let found ← references path (textOf tree path)
  require (∀ reference ∈ found, reference ∈ tree.map Prod.fst) (.importError "missing_reference")
  return found

def selectedSource (tree : SourceTree) (entry : String) (selected : List String) : ScannedSource :=
  let kept := tree.filter fun file => file.1 ∈ selected
  ⟨kept, skillSourceHash host (kept.map (indexFile host)) (some entry), entry⟩

/-- `_select_skill_source`; the files are followed in another order. -/
def selectSkillSource (source : ScannedSource) (entry : String) :
    Except SourceFault ScannedSource := do
  require (entry ∈ (textFiles source.tree).map Prod.fst ∧ isSkillEntry entry = true)
    (.importError "skill_entry_not_found")
  let own := ownFiles source.tree entry
  let selected ← follow (fileReferences references source.tree) source.tree.length own own
  let result := selectedSource host source.tree entry selected
  require (skillEntryPaths result.tree = [entry]) (.importError "skill_selection_ambiguous")
  return result

/-- `NormalizedSkillPackage`, with the instructions the adapter read. -/
structure NormalizedSkillPackage (I : Type) where
  contentHash : String
  files : List SkillFile
  instructions : I
  entryPath : Option String

variable {I : Type} (adapt : String → ScannedSource → Except SourceFault I)

/-- The entry that is selected: the one that was asked for, or the only one there is. -/
def chosenEntry (source : ScannedSource) (entryPath : Option String) (discoverEntries : Bool) :
    Except SourceFault (Option String) :=
  if entryPath ≠ none then .ok entryPath
  else if discoverEntries = true ∧ "SKILL.md" ∉ (textFiles source.tree).map Prod.fst then
    match skillEntryPaths source.tree with
    | [] => .ok none
    | [entry] => .ok (some entry)
    | _ => .error (.importError "skill_selection_required")
  else .ok none

/-- The whole source, or what is selected by an entry. -/
def chosenSource (source : ScannedSource) : Option String → Except SourceFault ScannedSource
  | none => .ok source
  | some entry => selectSkillSource host references source entry

/-- `parse_directory` in a directory of the given name. -/
def parseDirectory (root : String) (tree : SourceTree) (entryPath : Option String)
    (discoverEntries : Bool) :
    Except SourceFault (NormalizedSkillPackage I × ScannedSource) := do
  let scanned ← scanDirectory host limits tree
  let entry ← chosenEntry scanned entryPath discoverEntries
  let source ← chosenSource host references scanned entry
  let instructions ← adapt root source
  return (⟨source.contentHash, source.files host, instructions, entry⟩, source)

variable {host limits references adapt}

theorem toUTF8_of_decoded {data : ByteArray} {text : String} (read : decoded data = some text) :
    text.toUTF8 = data := by
  unfold decoded String.fromUTF8? at read
  split at read
  · cases read
  · split at read
    · cases read
      rfl
    · cases read

variable {tree : SourceTree}

theorem scanFiles_sublist {kept : SourceTree} (fewer : kept.Sublist tree) {total total' : Nat}
    (less : total' ≤ total) (scanned : scanFiles limits total tree = .ok ()) :
    scanFiles limits total' kept = .ok () := by
  induction fewer generalizing total total' with
  | slnil => rfl
  | cons file _ ih =>
    simp only [scanFiles, bind_eq_ok, require_eq_ok, exists_unit] at scanned
    exact ih (by omega) scanned.2.2.2.2
  | cons_cons file _ ih =>
    simp only [scanFiles, bind_eq_ok, require_eq_ok, exists_unit] at scanned ⊢
    obtain ⟨small, fits, texts, short, goesOn⟩ := scanned
    exact ⟨small, by omega, texts, short, ih (by omega) goesOn⟩

/-- The bytes of the files together. -/
def totalSize (tree : SourceTree) : Nat := tree.foldr (fun file total => file.2.size + total) 0

theorem scanFiles_bounds {total : Nat}
    (scanned : scanFiles limits total tree = .ok ()) (room : total ≤ limits.maxTotalBytes) :
    (∀ file ∈ tree, file.2.size ≤ limits.maxFileBytes) ∧
      total + totalSize tree ≤ limits.maxTotalBytes := by
  induction tree generalizing total with
  | nil => exact ⟨by simp, by simpa [totalSize] using room⟩
  | cons file rest ih =>
    simp only [scanFiles, bind_eq_ok, require_eq_ok, exists_unit] at scanned
    obtain ⟨small, fits, -, -, goesOn⟩ := scanned
    obtain ⟨rest_small, rest_fits⟩ := ih goesOn fits
    refine ⟨?_, ?_⟩
    · intro other mem
      rcases List.mem_cons.mp mem with rfl | later
      · exact small
      · exact rest_small other later
    · simp only [totalSize, List.foldr_cons] at rest_fits ⊢
      omega

/-- The files stand in the order of their paths. -/
def Ordered (tree : SourceTree) : Prop := tree.Pairwise fun first second => pathLe first.1 second.1

theorem sortedTree_ordered (tree : SourceTree) : Ordered (sortedTree tree) := by
  have : Std.Total fun first second : String × ByteArray => pathLe first.1 second.1 :=
    ⟨fun first second => textLe_total first.1.toList second.1.toList⟩
  have : IsTrans (String × ByteArray) fun first second => pathLe first.1 second.1 :=
    ⟨fun _ _ _ left right => textLe_trans left right⟩
  exact List.pairwise_insertionSort _ tree

theorem sortedTree_of_ordered (ordered : Ordered tree) :
    sortedTree tree = tree :=
  List.Pairwise.insertionSort_eq ordered

theorem sortedTree_perm (tree : SourceTree) : (sortedTree tree).Perm tree :=
  List.perm_insertionSort _ tree

theorem scanDirectory_eq_ok {scanned : ScannedSource} :
    scanDirectory host limits tree = .ok scanned ↔
      sortedTree tree ≠ [] ∧ (sortedTree tree).length ≤ limits.maxFiles ∧
        scanFiles limits 0 (sortedTree tree) = .ok () ∧
        scanned = wholeSource host (sortedTree tree) := by
  simp only [scanDirectory, bind_eq_ok, require_eq_ok, pure_eq_ok, exists_unit]
  exact and_congr_right fun _ => and_congr_right fun _ => and_congr_right fun _ => eq_comm

theorem scanDirectory_again {kept : SourceTree} {scanned : ScannedSource}
    (scan : scanDirectory host limits tree = .ok scanned) (fewer : kept.Sublist scanned.tree)
    (present : kept ≠ []) : scanDirectory host limits kept = .ok (wholeSource host kept) := by
  obtain ⟨-, few, read, rfl⟩ := scanDirectory_eq_ok.mp scan
  have ordered : Ordered kept := (sortedTree_ordered tree).sublist fewer
  rw [scanDirectory_eq_ok, sortedTree_of_ordered ordered]
  exact ⟨present, fewer.length_le.trans few, scanFiles_sublist fewer le_rfl read, rfl⟩

/-! ## Selecting again -/

theorem mem_textPaths {path : String} :
    path ∈ (textFiles tree).map Prod.fst ↔
      ∃ file ∈ tree, file.1 = path ∧ isBinary file.2 = false := by
  simp only [textFiles, List.mem_map, List.mem_filterMap, Option.map_eq_some_iff]
  constructor
  · rintro ⟨_, ⟨file, mem, text, read, rfl⟩, rfl⟩
    exact ⟨file, mem, rfl, by rw [isBinary, read]; rfl⟩
  · rintro ⟨file, mem, rfl, textual⟩
    rw [isBinary, Option.isNone_eq_false_iff, Option.isSome_iff_exists] at textual
    obtain ⟨text, read⟩ := textual
    exact ⟨(file.1, text), ⟨file, mem, text, read, rfl⟩, rfl⟩

theorem textFiles_sublist {kept : SourceTree} (fewer : kept.Sublist tree) :
    ((textFiles kept).map Prod.fst).Sublist ((textFiles tree).map Prod.fst) :=
  (fewer.filterMap _).map _

theorem textFiles_filter (tree : SourceTree) (selected : List String) :
    textFiles (tree.filter fun file => file.1 ∈ selected) =
      (textFiles tree).filter fun file => file.1 ∈ selected := by
  induction tree with
  | nil => rfl
  | cons file rest ih =>
    have tail : textFiles (file :: rest) =
        ((decoded file.2).map fun text => (file.1, text)).toList ++ textFiles rest := by
      cases read : decoded file.2 <;> simp [textFiles, read]
    by_cases mem : file.1 ∈ selected
    · rw [List.filter_cons_of_pos (by simpa using mem), tail, List.filter_append, ← ih]
      cases read : decoded file.2 <;> simp [textFiles, read, mem]
    · rw [List.filter_cons_of_neg (by simpa using mem), tail, List.filter_append, ← ih]
      cases read : decoded file.2 <;> simp [mem]

variable {selected : List String}

theorem textOf_filter {path : String}
    (mem : path ∈ selected) :
    textOf (tree.filter fun file => file.1 ∈ selected) path = textOf tree path := by
  have same : (textFiles (tree.filter fun file => file.1 ∈ selected)).find?
      (fun file => file.1 = path) = (textFiles tree).find? fun file => file.1 = path := by
    rw [textFiles_filter, List.find?_filter]
    congr 1
    funext file
    by_cases here : file.1 = path
    · simp [here, mem]
    · simp [here]
  rw [textOf, textOf, same]

theorem mem_keptPaths {path : String} :
    path ∈ (tree.filter fun file => file.1 ∈ selected).map Prod.fst ↔
      path ∈ tree.map Prod.fst ∧ path ∈ selected := by
  simp only [List.mem_map, List.mem_filter, decide_eq_true_eq]
  constructor
  · rintro ⟨file, ⟨mem, kept⟩, rfl⟩
    exact ⟨⟨file, mem, rfl⟩, kept⟩
  · rintro ⟨⟨file, mem, rfl⟩, kept⟩
    exact ⟨file, ⟨mem, kept⟩, rfl⟩

theorem fileReferences_eq_ok {path : String} {found : List String} :
    fileReferences references tree path = .ok found ↔
      references path (textOf tree path) = .ok found ∧
        ∀ reference ∈ found, reference ∈ tree.map Prod.fst := by
  simp only [fileReferences, bind_eq_ok, require_eq_ok, pure_eq_ok, exists_unit]
  constructor
  · rintro ⟨_, read, known, rfl⟩
    exact ⟨read, known⟩
  · rintro ⟨read, known⟩
    exact ⟨found, read, known, rfl⟩

theorem ownFiles_filter {entry path : String}
    (own : path ∈ ownFiles tree entry) (kept : path ∈ selected) :
    path ∈ ownFiles (tree.filter fun file => file.1 ∈ selected) entry := by
  obtain ⟨known, belongs⟩ := List.mem_filter.mp own
  refine List.mem_filter.mpr ⟨mem_keptPaths.mpr ⟨known, kept⟩, ?_⟩
  have fewer : (otherEntries (tree.filter fun file => file.1 ∈ selected) entry).Sublist
      (otherEntries tree entry) := (textFiles_sublist List.filter_sublist).filter _
  simp only [Bool.or_eq_true, Bool.and_eq_true, Bool.not_eq_true', List.any_eq_false]
    at belongs ⊢
  exact belongs.imp id fun below => ⟨below.1, fun other mem => below.2 other (fewer.subset mem)⟩

theorem selected_spec {entry : String}
    (paths : (tree.map Prod.fst).Nodup)
    (ran : follow (fileReferences references tree) tree.length (ownFiles tree entry)
      (ownFiles tree entry) = .ok selected) :
    selected.Nodup ∧ selected ⊆ tree.map Prod.fst ∧ ownFiles tree entry ⊆ selected ∧
      Closed (fileReferences references tree) selected ∧
      ∀ items, ownFiles tree entry ⊆ items → Closed (fileReferences references tree) items →
        selected ⊆ items := by
  have nodup : (ownFiles tree entry).Nodup := paths.filter _
  have start : Following (fileReferences references tree) (tree.map Prod.fst)
      (ownFiles tree entry) (ownFiles tree entry) :=
    ⟨nodup, fun _ mem => (List.mem_filter.mp mem).1, nodup, fun _ mem => mem,
      fun _ mem waits => absurd mem waits⟩
  have sound : ∀ path next, path ∈ tree.map Prod.fst →
      fileReferences references tree path = .ok next → next ⊆ tree.map Prod.fst :=
    fun _ _ _ read => (fileReferences_eq_ok.mp read).2
  exact follow_spec sound start (by simp) ran

variable {source : ScannedSource}

theorem selectSkillSource_eq_ok {chosen : ScannedSource} {entry : String} :
    selectSkillSource host references source entry = .ok chosen ↔
      ∃ selected, (entry ∈ (textFiles source.tree).map Prod.fst ∧ isSkillEntry entry = true) ∧
        follow (fileReferences references source.tree) source.tree.length
          (ownFiles source.tree entry) (ownFiles source.tree entry) = .ok selected ∧
        chosen = selectedSource host source.tree entry selected ∧
        skillEntryPaths chosen.tree = [entry] := by
  simp only [selectSkillSource, bind_eq_ok, require_eq_ok, pure_eq_ok, exists_unit]
  constructor
  · rintro ⟨known, selected, ran, only, rfl⟩
    exact ⟨selected, known, ran, rfl, only⟩
  · rintro ⟨selected, known, ran, rfl, only⟩
    exact ⟨known, selected, ran, only, rfl⟩

theorem selectSkillSource_entry {chosen : ScannedSource} {entry : String}
    (paths : (source.tree.map Prod.fst).Nodup)
    (select : selectSkillSource host references source entry = .ok chosen) :
    entry ∈ (textFiles chosen.tree).map Prod.fst ∧ isSkillEntry entry = true := by
  obtain ⟨selected, ⟨known, named⟩, ran, rfl, -⟩ := selectSkillSource_eq_ok.mp select
  obtain ⟨-, -, own, -⟩ := selected_spec paths ran
  obtain ⟨file, mem, rfl, textual⟩ := mem_textPaths.mp known
  have kept : file.1 ∈ selected :=
    own (List.mem_filter.mpr ⟨List.mem_map_of_mem mem, by simp⟩)
  refine ⟨mem_textPaths.mpr ⟨file, ?_, rfl, textual⟩, named⟩
  exact List.mem_filter.mpr ⟨mem, decide_eq_true kept⟩

theorem selectSkillSource_again {chosen again : ScannedSource} {entry : String}
    (paths : (source.tree.map Prod.fst).Nodup)
    (select : selectSkillSource host references source entry = .ok chosen)
    (same : again.tree = chosen.tree) :
    selectSkillSource host references again entry = .ok chosen := by
  obtain ⟨known, named⟩ := selectSkillSource_entry paths select
  obtain ⟨selected, -, ran, rfl, only⟩ := selectSkillSource_eq_ok.mp select
  obtain ⟨-, inside, own, closed, least⟩ := selected_spec paths ran
  have tree : again.tree = source.tree.filter fun file => file.1 ∈ selected := same
  have kept : ∀ path, path ∈ again.tree.map Prod.fst ↔ path ∈ selected := fun path => by
    rw [tree, mem_keptPaths]
    exact ⟨fun mem => mem.2, fun mem => ⟨inside mem, mem⟩⟩
  have paths' : (again.tree.map Prod.fst).Nodup :=
    tree ▸ paths.sublist (List.filter_sublist.map _)
  have stays : ∀ path ∈ selected, ∀ next, next ⊆ selected →
      (fileReferences references again.tree path = .ok next ↔
        fileReferences references source.tree path = .ok next) := by
    intro path mem next within
    rw [fileReferences_eq_ok, fileReferences_eq_ok, tree, textOf_filter mem, ← tree]
    exact and_congr_right fun _ =>
      ⟨fun _ reference mem => inside (within mem), fun _ reference mem =>
        (kept reference).mpr (within mem)⟩
  have closed' : Closed (fileReferences references again.tree) selected := by
    intro path mem
    obtain ⟨next, read, within⟩ := closed path mem
    exact ⟨next, (stays path mem next within).mpr read, within⟩
  have own' : ownFiles again.tree entry ⊆ selected := fun path mem =>
    (kept path).mp (List.mem_filter.mp mem).1
  obtain ⟨selected', ran'⟩ : ∃ selected', follow (fileReferences references again.tree)
      again.tree.length (ownFiles again.tree entry) (ownFiles again.tree entry) = .ok selected' :=
    follow_ok closed' own' fun _ mem => mem
  obtain ⟨-, inside', grown', around, -⟩ := selected_spec paths' ran'
  have within : selected' ⊆ selected := fun path mem => (kept path).mp (inside' mem)
  have whole : selected ⊆ selected' := by
    refine least selected' (fun path mem => grown' ?_) fun path mem => ?_
    · rw [tree]
      exact ownFiles_filter mem (own mem)
    · obtain ⟨next, read, found⟩ := around path mem
      exact ⟨next, (stays path (within mem) next fun _ mem' => within (found mem')).mp read, found⟩
  have result : selectedSource host again.tree entry selected' =
      selectedSource host source.tree entry selected := by
    have all : again.tree.filter (fun file => file.1 ∈ selected') = again.tree := by
      refine List.filter_eq_self.mpr fun file mem => decide_eq_true ?_
      exact whole ((kept file.1).mp (List.mem_map_of_mem mem))
    rw [selectedSource, all, tree]
    rfl
  rw [selectSkillSource_eq_ok]
  exact ⟨selected', ⟨same ▸ known, named⟩, ran', result.symm, only⟩

theorem parseDirectory_eq_ok {root : String} {entryPath : Option String}
    {discoverEntries : Bool} {package : NormalizedSkillPackage I} :
    parseDirectory host limits references adapt root tree entryPath discoverEntries =
        .ok (package, source) ↔
      ∃ scanned, scanDirectory host limits tree = .ok scanned ∧
        chosenEntry scanned entryPath discoverEntries = .ok package.entryPath ∧
        chosenSource host references scanned package.entryPath = .ok source ∧
        adapt root source = .ok package.instructions ∧
        package.contentHash = source.contentHash ∧ package.files = source.files host := by
  simp only [parseDirectory, bind_eq_ok, pure_eq_ok, Prod.mk.injEq]
  constructor
  · rintro ⟨scanned, scan, entry, chosen, _, select, instructions, read, rfl, rfl⟩
    exact ⟨scanned, scan, chosen, select, read, rfl, rfl⟩
  · rintro ⟨scanned, scan, chosen, select, read, hash, files⟩
    refine ⟨scanned, scan, package.entryPath, chosen, source, select, package.instructions, read,
      ?_, rfl⟩
    rw [← hash, ← files]

structure Parsed (host : SourceHost) (limits : SkillImportLimits) (tree : SourceTree)
    (package : NormalizedSkillPackage I) (source : ScannedSource) : Prop where
  fewer : source.tree.Sublist (sortedTree tree)
  present : source.tree ≠ []
  files : package.files = source.files host
  hash : package.contentHash = skillSourceHash host package.files package.entryPath
  entry : ∀ entry, package.entryPath = some entry →
    entry ∈ (textFiles source.tree).map Prod.fst ∧ isSkillEntry entry = true
  few : source.tree.length ≤ limits.maxFiles
  scanned : scanFiles limits 0 source.tree = .ok ()

theorem sortedTree_paths (paths : (tree.map Prod.fst).Nodup) :
    ((sortedTree tree).map Prod.fst).Nodup :=
  ((sortedTree_perm tree).map _).nodup_iff.mpr paths

theorem parseDirectory_parsed {root : String} {entryPath : Option String}
    {discoverEntries : Bool} {package : NormalizedSkillPackage I}
    (paths : (tree.map Prod.fst).Nodup)
    (parsed : parseDirectory host limits references adapt root tree entryPath discoverEntries =
      .ok (package, source)) : Parsed host limits tree package source := by
  obtain ⟨scanned, scan, -, select, -, hash, files⟩ := parseDirectory_eq_ok.mp parsed
  obtain ⟨present, few, read, rfl⟩ := scanDirectory_eq_ok.mp scan
  cases entry : package.entryPath with
  | none =>
    rw [entry] at select
    cases select
    exact ⟨List.Sublist.refl _, present, files, by rw [hash, files, entry]; rfl,
      fun entry' same => (by rw [entry] at same; cases same), few, read⟩
  | some chosen =>
    rw [entry] at select
    have known := selectSkillSource_entry (sortedTree_paths paths) select
    obtain ⟨selected, -, -, rfl, -⟩ := selectSkillSource_eq_ok.mp select
    have fewer : (selectedSource host (sortedTree tree) chosen selected).tree.Sublist
        (sortedTree tree) := List.filter_sublist
    refine ⟨fewer, ?_, files, by rw [hash, files, entry]; rfl, ?_, fewer.length_le.trans few,
      scanFiles_sublist fewer le_rfl read⟩
    · obtain ⟨file, mem, -⟩ := mem_textPaths.mp known.1
      exact List.ne_nil_of_mem mem
    · intro entry' same
      rw [entry] at same
      cases same
      exact known

theorem parseDirectory_again {root root' : String} {entryPath : Option String}
    {discoverEntries : Bool} {package : NormalizedSkillPackage I}
    (paths : (tree.map Prod.fst).Nodup)
    (adapts : ∀ instructions, adapt root source = .ok instructions →
      ∃ instructions', adapt root' source = .ok instructions')
    (parsed : parseDirectory host limits references adapt root tree entryPath discoverEntries =
      .ok (package, source)) :
    ∃ instructions, parseDirectory host limits references adapt root' source.tree
      package.entryPath false = .ok ({ package with instructions }, source) := by
  have known := parseDirectory_parsed paths parsed
  obtain ⟨scanned, scan, -, select, read, hash, files⟩ := parseDirectory_eq_ok.mp parsed
  obtain ⟨instructions, read'⟩ := adapts _ read
  have whole : scanned.tree = sortedTree tree := by
    obtain ⟨-, -, -, rfl⟩ := scanDirectory_eq_ok.mp scan
    rfl
  refine ⟨instructions, parseDirectory_eq_ok.mpr ⟨wholeSource host source.tree, ?_, ?_, ?_, read',
    hash, files⟩⟩
  · exact scanDirectory_again scan (whole ▸ known.fewer) known.present
  · cases entry : package.entryPath <;> simp [chosenEntry]
  · cases entry : package.entryPath with
    | none =>
      rw [entry] at select
      obtain ⟨-, -, -, rfl⟩ := scanDirectory_eq_ok.mp scan
      cases select
      rfl
    | some chosen =>
      rw [entry] at select
      exact selectSkillSource_again (whole ▸ sortedTree_paths paths) select rfl

end SkillMind.Skills
