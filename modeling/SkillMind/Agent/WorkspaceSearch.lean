import SkillMind.Agent.WorkspaceEditing
import Mathlib.Data.List.Dedup

/-!
# Search of the workspace

A literal query is looked for in every line of the files under some paths. Without regard to case
both are case folded, and the position of a match is one in the folded line.
-/

namespace SkillMind.Agent

open Library SkillMind.Core

def maxSearchFiles : Nat := 500
def maxSearchBytes : Nat := 10485760
def maxSearchEntries : Nat := 5000
def maxExcerptCharacters : Nat := 1000

/-! ## Files -/

/-- An entry of a directory. -/
structure TreeEntry where
  path : String
  isRegular : Bool
  links : Nat

/-- `stat.S_ISREG(info.st_mode) and info.st_nlink == 1`. -/
def TreeEntry.isPlain (entry : TreeEntry) : Bool := entry.isRegular && entry.links == 1

/-- What surrounds the search: the tables of the standard library, the receipt of the input, and
the file system with what it says of a path, the entries it walks through below a directory and
what reading a file gives. -/
structure SearchHost where
  isprintable : Char → Bool
  /-- `str.casefold` of one character. -/
  casefold : Char → List Char
  queryHash : String → String
  checksum : ByteArray → String
  inputFiles : List String
  verifyInput : Except ToolProviderError Unit
  verifyRoots : Except ToolProviderError Unit
  locate : String → Except ToolProviderError Unit
  isFile : String → Bool
  entries : String → Except ToolProviderError (List TreeEntry)
  contents : String → Except ToolProviderError ByteArray

variable (host : SearchHost)

/-- `_resolve_workspace_path` of a file or a directory. -/
def resolveSearchPath (value : TextArgument) : Except ToolProviderError String := do
  let relative ← validatedRelative host.isprintable value
  let parts := relative.toList.splitOn '/'
  if String.ofList (parts.headD []) ∉ ["input", "workspace", "output"] then
    .error (invalidRequest "Workspace path is outside the allowed roots")
  else
    let _ ← host.locate relative
    pure relative

/-- `_search_targets`; the paths are absent, or a list or not. -/
def searchTargets (paths : Option (Option (List TextArgument))) :
    Except ToolProviderError (List String) :=
  match paths with
  | none => do
    let _ ← host.verifyRoots
    pure ["input", "workspace"]
  | some none => .error (invalidRequest "Workspace search paths are invalid")
  | some (some []) => .error (invalidRequest "Workspace search paths are invalid")
  | some (some values) => values.mapM (resolveSearchPath host)

/-- `list_workspace_files`: the plain files among the entries, and whether a limit was met. -/
def listWorkspaceFiles (maxFiles maxEntries : Nat) :
    Nat → List String → List TreeEntry → List String × Bool
  | _, found, [] => (found, false)
  | index, found, entry :: entries =>
    if maxEntries ≤ index then (found, true)
    else if entry.isPlain = true then
      if maxFiles ≤ found.length then (found, true)
      else listWorkspaceFiles maxFiles maxEntries (index + 1) (found ++ [entry.path]) entries
    else listWorkspaceFiles maxFiles maxEntries (index + 1) found entries

/-- `relative == "input" or relative.startswith("input/")`. -/
def isInputPath (relative : String) : Prop :=
  relative = "input" ∨ "input/".toList <+: relative.toList

instance (relative : String) : Decidable (isInputPath relative) :=
  inferInstanceAs (Decidable (_ ∨ _))

def isBelow (target logical : String) : Prop :=
  logical = target ∨ (target ++ "/").toList <+: logical.toList

instance (target logical : String) : Decidable (isBelow target logical) :=
  inferInstanceAs (Decidable (_ ∨ _))

/-- `found.setdefault` for several keys. -/
def addPaths (found added : List String) : List String :=
  added.foldl (fun found path => if path ∈ found then found else found ++ [path]) found

def filesOfTarget (target : String) : Except ToolProviderError (List String × Bool) :=
  if isInputPath target then
    .ok ((host.inputFiles.map ("input/" ++ ·)).filter (isBelow target ·), false)
  else if host.isFile target = true then .ok ([target], false)
  else
    (host.entries target).map fun entries =>
      let listed := listWorkspaceFiles (maxSearchFiles + 1) maxSearchEntries 0 [] entries
      (listed.1.map (target ++ "/" ++ ·), listed.2)

def collectFiles : List String → List String → Bool → Except ToolProviderError (List String × Bool)
  | [], found, truncated => .ok (found, truncated)
  | target :: targets, found, truncated => do
    let files ← filesOfTarget host target
    collectFiles targets (addPaths found files.1) (truncated || files.2)

/-- `verify_input` where a target is in the input. -/
def verifyTargets (targets : List String) : Except ToolProviderError Unit :=
  if ∃ target ∈ targets, isInputPath target then host.verifyInput else .ok ()

def boundedFiles (targets : List String) : Except ToolProviderError (List String × Bool) := do
  let _ ← verifyTargets host targets
  let collected ← collectFiles host targets [] false
  let files := collected.1.insertionSort fun a b => textLe a.toList b.toList = true
  pure (files.take (maxSearchFiles + 1),
    collected.2 || decide (maxSearchFiles + 1 < files.length))

/-! ## Lines -/

def bareLine (line : List Char) : List Char :=
  if "\r\n".toList.isSuffixOf line = true then line.dropLast.dropLast
  else if line.getLast?.any isLineBreak = true then line.dropLast
  else line

/-- `text.splitlines()`. -/
def bareLines (text : List Char) : List (List Char) := (splitlines text).map bareLine

def foldText (caseSensitive : Bool) (text : List Char) : List Char :=
  if caseSensitive = true then text else text.flatMap host.casefold

structure SearchMatch where
  path : String
  line : Nat
  column : Nat
  excerpt : List Char
  deriving DecidableEq

inductive SearchEvidence where
  | found (path : String) (matchedLines : List Nat) (contentHash : String) (excerpt : List Char)
  | nothing (queryHash : String)
  deriving DecidableEq

structure SearchState where
  found : List SearchMatch
  evidence : List SearchEvidence
  warnings : List String
  scannedFiles : Nat
  scannedBytes : Nat
  truncated : Bool

/-- What the loop over the files begins with; `cut` when not all files were listed. -/
def SearchState.start (cut : Bool) : SearchState :=
  ⟨[], [], if cut = true then ["Search discovery limit was reached"] else [], 0, 0, cut⟩

structure SearchQuery where
  query : List Char
  caseSensitive : Bool
  maxResults : Nat

def matchesOfLine (search : SearchQuery) (path : String) (number : Nat) (line : List Char)
    (left : Nat) : List SearchMatch :=
  (occurrencesFrom (foldText host search.caseSensitive search.query)
    (foldText host search.caseSensitive line) left 0).map fun column =>
      ⟨path, number, column + 1, line.take maxExcerptCharacters⟩

/-- The loop over the lines of a file, with the matches of the files before. -/
def searchLines (search : SearchQuery) (path : String) :
    Nat → List (List Char) → List SearchMatch → List SearchMatch
  | _, [], found => found
  | number, line :: lines, found =>
    let found :=
      found ++ matchesOfLine host search path number line (search.maxResults - found.length)
    if search.maxResults ≤ found.length then found
    else searchLines search path (number + 1) lines found

def decodeText (data : ByteArray) : Option (List Char) := (String.fromUTF8? data).map String.toList

/-- `_read_workspace_bytes`. -/
def readSearchBytes (path : String) (limit : Nat) : Except ToolProviderError ByteArray :=
  match host.contents path with
  | .error error => .error error
  | .ok data =>
    if limit < data.size then
      .error ⟨"too_large", "Workspace file exceeds its verified limit", false⟩
    else .ok data

def evidenceOfFile (path : String) (data : ByteArray) (found : List SearchMatch) :
    List SearchEvidence :=
  match found with
  | [] => []
  | first :: _ =>
    [.found path (found.map SearchMatch.line).dedup (host.checksum data) first.excerpt]

/-- What a file that was read adds: the search of its lines, unless it is no text. -/
def scanFile (search : SearchQuery) (path : String) (data : ByteArray) (state : SearchState) :
    SearchState :=
  let state := { state with
    scannedFiles := state.scannedFiles + 1, scannedBytes := state.scannedBytes + data.size }
  match decodeText data with
  | none => { state with
      warnings := state.warnings ++ ["One or more non-UTF-8 files were skipped"] }
  | some text =>
    let found := searchLines host search path 1 (bareLines text) state.found
    let state := { state with
      found := found
      evidence := state.evidence ++ evidenceOfFile host path data (found.drop state.found.length) }
    if search.maxResults ≤ found.length then
      { state with
        warnings := state.warnings ++ ["Search result limit was reached"], truncated := true }
    else state

def searchFiles (search : SearchQuery) :
    List String → SearchState → Except ToolProviderError SearchState
  | [], state => .ok state
  | path :: paths, state =>
    let remaining := maxSearchBytes - state.scannedBytes
    if maxSearchFiles ≤ state.scannedFiles then
      .ok { state with
        warnings := state.warnings ++ ["Search file limit was reached"], truncated := true }
    else if remaining = 0 then
      .ok { state with
        warnings := state.warnings ++ ["Search byte limit was reached"], truncated := true }
    else
      match readSearchBytes host path (min maxArtifactBytes remaining) with
      | .error error =>
        if error.code ≠ "too_large" then .error error
        else if remaining < maxArtifactBytes then
          .ok { state with
            warnings := state.warnings ++ ["Search byte limit was reached"], truncated := true }
        else
          searchFiles search paths { state with
            warnings := state.warnings ++ ["One or more files exceeded the per-file limit"]
            truncated := true }
      | .ok data =>
        let next := scanFile host search path data state
        if search.maxResults ≤ next.found.length then .ok next
        else searchFiles search paths next

structure SearchRequest where
  query : TextArgument
  caseSensitive : Bool
  maxResults : Option Argument
  paths : Option (Option (List TextArgument))

structure SearchResponse where
  found : List SearchMatch
  scannedFiles : Nat
  warnings : List String
  truncated : Bool
  evidence : List SearchEvidence
  deriving DecidableEq

/-- `_max_results`. -/
def maxResultsOf (value : Option Argument) : Except ToolProviderError Nat :=
  match value with
  | none => .ok 50
  | some (.int value) =>
    if 1 ≤ value ∧ value ≤ 100 then .ok value.toNat
    else .error (invalidRequest "Workspace max_results is invalid")
  | some .other => .error (invalidRequest "Workspace max_results is invalid")

/-- `sorted(set(warnings))`. -/
def sortedSet (warnings : List String) : List String :=
  warnings.dedup.insertionSort fun a b => textLe a.toList b.toList = true

/-- `WorkspaceSearchProvider.execute`. -/
def executeSearch (request : SearchRequest) : Except ToolProviderError SearchResponse :=
  match request.query with
  | none => .error (invalidRequest "Workspace search query is invalid")
  | some query =>
    if query = "" then .error (invalidRequest "Workspace search query is invalid")
    else do
      let maxResults ← maxResultsOf request.maxResults
      let targets ← searchTargets host request.paths
      let files ← boundedFiles host targets
      let state ← searchFiles host ⟨query.toList, request.caseSensitive, maxResults⟩ files.1
        (.start files.2)
      let evidence :=
        if state.evidence = [] then [SearchEvidence.nothing (host.queryHash query)]
        else state.evidence
      pure ⟨state.found, state.scannedFiles, sortedSet state.warnings, state.truncated, evidence⟩

/-! ## What is found -/

def folding (caseSensitive : Bool) (c : Char) : List Char :=
  if caseSensitive = true then [c] else host.casefold c

/-- The folded query. -/
def needle (search : SearchQuery) : List Char := foldText host search.caseSensitive search.query

/-- The first occurrences in a folded line, as many as there is room for, are plain. -/
def LineFoldsPlainly (search : SearchQuery) (line : List Char) (left : Nat) : Prop :=
  ∀ column ∈
    occurrencesFrom (needle host search) (foldText host search.caseSensitive line) left 0,
      FoldsPlainly (folding host search.caseSensitive) (needle host search) line column

/-- The loop over the lines comes to a line, with room for some matches. -/
inductive ReadsLine (search : SearchQuery) (path : String) :
    Nat → List (List Char) → List SearchMatch → List Char → Nat → Prop
  | here {number : Nat} {line : List Char} {lines : List (List Char)} {found : List SearchMatch} :
      ReadsLine search path number (line :: lines) found line (search.maxResults - found.length)
  | next {number left : Nat} {line other : List Char} {lines : List (List Char)}
      {found : List SearchMatch} :
      (found ++ matchesOfLine host search path number line
        (search.maxResults - found.length)).length < search.maxResults →
      ReadsLine search path (number + 1) lines (found ++ matchesOfLine host search path number line
        (search.maxResults - found.length)) other left →
      ReadsLine search path number (line :: lines) found other left

/-- The loop over the files reads a file, in some state. -/
inductive ReadsFile (search : SearchQuery) :
    List String → SearchState → String → ByteArray → SearchState → Prop
  | here {path : String} {paths : List String} {state : SearchState} {data : ByteArray} :
      state.scannedFiles < maxSearchFiles → state.scannedBytes < maxSearchBytes →
      readSearchBytes host path (min maxArtifactBytes (maxSearchBytes - state.scannedBytes)) =
        .ok data →
      ReadsFile search (path :: paths) state path data state
  | large {path other : String} {paths : List String} {state later : SearchState}
      {data : ByteArray} {error : ToolProviderError} :
      state.scannedFiles < maxSearchFiles → state.scannedBytes < maxSearchBytes →
      readSearchBytes host path (min maxArtifactBytes (maxSearchBytes - state.scannedBytes)) =
        .error error →
      error.code = "too_large" → maxArtifactBytes ≤ maxSearchBytes - state.scannedBytes →
      ReadsFile search paths { state with
        warnings := state.warnings ++ ["One or more files exceeded the per-file limit"]
        truncated := true } other data later →
      ReadsFile search (path :: paths) state other data later
  | next {path other : String} {paths : List String} {state later : SearchState}
      {data data' : ByteArray} :
      state.scannedFiles < maxSearchFiles → state.scannedBytes < maxSearchBytes →
      readSearchBytes host path (min maxArtifactBytes (maxSearchBytes - state.scannedBytes)) =
        .ok data →
      (scanFile host search path data state).found.length < search.maxResults →
      ReadsFile search paths (scanFile host search path data state) other data' later →
      ReadsFile search (path :: paths) state other data' later

/-- A search comes to a line of a file, with room for some matches. -/
def Searches (request : SearchRequest) (search : SearchQuery) (line : List Char) (left : Nat) :
    Prop :=
  ∃ targets files path data state text, searchTargets host request.paths = .ok targets ∧
    boundedFiles host targets = .ok files ∧
    ReadsFile host search files.1 (.start files.2) path data state ∧
    decodeText data = some text ∧
    ReadsLine host search path 1 (bareLines text) state.found line left

/-- The line a match names has from its column on a part that folds to the query. -/
def SearchMatch.Sound (search : SearchQuery) (hit : SearchMatch) : Prop :=
  ∃ data text line length, host.contents hit.path = .ok data ∧ decodeText data = some text ∧
    1 ≤ hit.line ∧ (bareLines text)[hit.line - 1]? = some line ∧ 1 ≤ hit.column ∧
    hit.excerpt = line.take maxExcerptCharacters ∧
    FoldsAt (folding host search.caseSensitive) (needle host search) line (hit.column - 1) length

/-- The matches of the lines from a number on are the leftmost parts of each that fold to the
query. -/
inductive LinesMatched (search : SearchQuery) (path : String) :
    Nat → List (List Char) → List SearchMatch → Prop
  | nil {number : Nat} : LinesMatched search path number [] []
  | cons {number : Nat} {line : List Char} {lines : List (List Char)} {columns : List Nat}
      {rest : List SearchMatch} :
      LeftmostFolded (folding host search.caseSensitive) (needle host search) line 0 columns →
      LinesMatched search path (number + 1) lines rest →
      LinesMatched search path number (line :: lines)
        (columns.map (fun column =>
          ⟨path, number, column + 1, line.take maxExcerptCharacters⟩) ++ rest)

inductive FilesMatched (search : SearchQuery) : List String → List SearchMatch → Prop
  | nil : FilesMatched search [] []
  | cons {path : String} {paths : List String} {data : ByteArray} {text : List Char}
      {first rest : List SearchMatch} :
      host.contents path = .ok data → decodeText data = some text →
      LinesMatched host search path 1 (bareLines text) first → FilesMatched search paths rest →
      FilesMatched search (path :: paths) (first ++ rest)

variable {host} {search : SearchQuery}

theorem foldText_eq_flatMap (caseSensitive : Bool) (text : List Char) :
    foldText host caseSensitive text = text.flatMap (folding host caseSensitive) := by
  cases caseSensitive with
  | true =>
    have single : folding host true = fun c => [c] := by
      funext c
      exact if_pos rfl
    rw [single, List.flatMap_singleton']
    rfl
  | false =>
    have same : folding host false = host.casefold := by
      funext c
      exact if_neg Bool.false_ne_true
    rw [same]
    rfl

theorem folding_ne_nil (nonempty : ∀ c, host.casefold c ≠ []) (caseSensitive : Bool) (c : Char) :
    folding host caseSensitive c ≠ [] := by
  rw [folding]
  split_ifs
  · exact List.cons_ne_nil _ _
  · exact nonempty c

theorem needle_ne_nil (nonempty : ∀ c, host.casefold c ≠ []) (some : search.query ≠ []) :
    needle host search ≠ [] := by
  obtain ⟨c, rest, same⟩ := List.exists_cons_of_ne_nil some
  rw [needle, foldText_eq_flatMap, same, List.flatMap_cons]
  exact List.append_ne_nil_of_left_ne_nil (folding_ne_nil nonempty _ c) _

variable {line : List Char}

theorem lineFoldsPlainly_of_single {left : Nat}
    (single : ∀ c ∈ line, (folding host search.caseSensitive c).length = 1) :
    LineFoldsPlainly host search line left := by
  intro column mem
  have inside := (occursAt_of_mem mem).2.length_le
  have length : (foldText host search.caseSensitive line).length = line.length := by
    rw [foldText_eq_flatMap, List.length_flatMap, List.map_congr_left single]
    simp
  rw [length] at inside
  refine ⟨by omega, fun c mem' => single c (List.mem_of_mem_take mem'),
    column + (needle host search).length, inside, ?_⟩
  exact foldedPlace_eq_self inside fun c mem' => single c (List.mem_of_mem_take mem')

theorem foldsAt_of_column {left column : Nat} (plain : LineFoldsPlainly host search line left)
    (mem : column ∈
      occurrencesFrom (needle host search) (foldText host search.caseSensitive line) left 0) :
    ∃ length,
      FoldsAt (folding host search.caseSensitive) (needle host search) line column length := by
  have occurs := (occursAt_of_mem mem).2
  rw [foldText_eq_flatMap] at occurs
  obtain ⟨length, folds, -⟩ := (plain column mem).foldsAt occurs
  exact ⟨length, folds⟩

theorem leftmostFolded_of_columns (nonempty : ∀ c, host.casefold c ≠ [])
    (some : needle host search ≠ []) {left : Nat}
    (plain : LineFoldsPlainly host search line left)
    (short : (occurrencesFrom (needle host search)
      (foldText host search.caseSensitive line) left 0).length < left) :
    LeftmostFolded (folding host search.caseSensitive) (needle host search) line 0
      (occurrencesFrom (needle host search) (foldText host search.caseSensitive line) left 0) := by
  have leftmost := leftmost_of_length_lt some short
  rw [LineFoldsPlainly, foldText_eq_flatMap] at plain
  rw [foldText_eq_flatMap] at leftmost ⊢
  exact leftmost.leftmostFolded (folding_ne_nil nonempty _) some rfl plain

variable {path : String}

theorem mem_matchesOfLine {number left : Nat}
    {hit : SearchMatch} (mem : hit ∈ matchesOfLine host search path number line left) :
    ∃ column ∈ occurrencesFrom (needle host search)
        (foldText host search.caseSensitive line) left 0,
      hit = ⟨path, number, column + 1, line.take maxExcerptCharacters⟩ := by
  rw [matchesOfLine] at mem
  obtain ⟨column, mem', rfl⟩ := List.mem_map.mp mem
  exact ⟨column, mem', rfl⟩

theorem searchLines_sound {number : Nat} {lines : List (List Char)} {found : List SearchMatch}
    (plain : ∀ line left, ReadsLine host search path number lines found line left →
      LineFoldsPlainly host search line left) :
    ∀ hit ∈ searchLines host search path number lines found, hit ∈ found ∨
      ∃ i line length, lines[i]? = Option.some line ∧ hit.path = path ∧ hit.line = number + i ∧
        1 ≤ hit.column ∧ hit.excerpt = line.take maxExcerptCharacters ∧
        FoldsAt (folding host search.caseSensitive) (needle host search) line (hit.column - 1)
          length := by
  induction lines generalizing number found with
  | nil => exact fun hit mem => Or.inl mem
  | cons line lines ih =>
    intro hit mem
    have here : hit ∈ found ++ matchesOfLine host search path number line
        (search.maxResults - found.length) →
        hit ∈ found ∨ ∃ i other length, (line :: lines)[i]? = Option.some other ∧
          hit.path = path ∧ hit.line = number + i ∧ 1 ≤ hit.column ∧
          hit.excerpt = other.take maxExcerptCharacters ∧
          FoldsAt (folding host search.caseSensitive) (needle host search) other (hit.column - 1)
            length := by
      intro mem'
      rcases List.mem_append.mp mem' with before | added
      · exact Or.inl before
      · obtain ⟨column, mem'', rfl⟩ := mem_matchesOfLine added
        obtain ⟨length, folds⟩ := foldsAt_of_column (plain line _ .here) mem''
        exact Or.inr ⟨0, line, length, rfl, rfl, rfl, Nat.succ_pos _, rfl, folds⟩
    rw [searchLines] at mem
    split_ifs at mem with full
    · exact here mem
    · rcases ih (fun other left reads => plain other left
        (.next (Nat.lt_of_not_le full) reads)) hit mem with before | ⟨i, other, length, at', rest⟩
      · exact here before
      · refine Or.inr ⟨i + 1, other, length, at', rest.1, ?_, rest.2.2⟩
        rw [rest.2.1]
        omega

theorem searchLines_complete (nonempty : ∀ c, host.casefold c ≠ [])
    (some : needle host search ≠ []) {number : Nat} {lines : List (List Char)}
    {found : List SearchMatch}
    (plain : ∀ line left, ReadsLine host search path number lines found line left →
      LineFoldsPlainly host search line left)
    (short : (searchLines host search path number lines found).length < search.maxResults) :
    ∃ added, searchLines host search path number lines found = found ++ added ∧
      LinesMatched host search path number lines added := by
  induction lines generalizing number found with
  | nil => exact ⟨[], (List.append_nil found).symm, LinesMatched.nil⟩
  | cons line lines ih =>
    rw [searchLines] at short ⊢
    split_ifs at short ⊢ with full
    · exact absurd short (Nat.not_lt.mpr full)
    · obtain ⟨added, same, matched⟩ := ih (fun other left reads => plain other left
        (.next (Nat.lt_of_not_le full) reads)) short
      have below : (occurrencesFrom (needle host search) (foldText host search.caseSensitive line)
          (search.maxResults - found.length) 0).length < search.maxResults - found.length := by
        rw [List.length_append, matchesOfLine, List.length_map] at full
        rw [needle]
        omega
      have columns := leftmostFolded_of_columns nonempty some (plain line _ .here) below
      refine ⟨_, ?_, LinesMatched.cons columns matched⟩
      rw [same, List.append_assoc]
      rfl

theorem readSearchBytes_eq_ok {limit : Nat} {data : ByteArray}
    (read : readSearchBytes host path limit = .ok data) : host.contents path = .ok data := by
  rw [readSearchBytes] at read
  split at read
  · cases read
  · rename_i found
    split_ifs at read
    cases read
    exact found

theorem scanFile_cases (path : String) (data : ByteArray) (state : SearchState) :
    (∃ warning, (scanFile host search path data state).found = state.found ∧
      (scanFile host search path data state).warnings = state.warnings ++ [warning] ∧
      (scanFile host search path data state).truncated = state.truncated) ∨
    ∃ text, decodeText data = some text ∧
      (scanFile host search path data state).found =
        searchLines host search path 1 (bareLines text) state.found ∧
      ((∃ warning, (scanFile host search path data state).warnings =
            state.warnings ++ [warning] ∧
          (scanFile host search path data state).truncated = true) ∨
        (scanFile host search path data state).found.length < search.maxResults ∧
          (scanFile host search path data state).warnings = state.warnings ∧
          (scanFile host search path data state).truncated = state.truncated) := by
  rw [scanFile]
  split
  · exact Or.inl ⟨_, rfl, rfl, rfl⟩
  · rename_i text decoded
    refine Or.inr ⟨text, decoded, ?_⟩
    dsimp only
    split_ifs with full
    · exact ⟨rfl, Or.inl ⟨_, rfl, rfl⟩⟩
    · exact ⟨rfl, Or.inr ⟨Nat.lt_of_not_le full, rfl, rfl⟩⟩

variable {paths : List String}

theorem searchFiles_cons {state final : SearchState}
    (searched : searchFiles host search (path :: paths) state = .ok final) :
    (∃ warning, final.found = state.found ∧ final.warnings = state.warnings ++ [warning] ∧
      final.truncated = true) ∨
    (∃ warning next, searchFiles host search paths next = .ok final ∧
      next.found = state.found ∧ next.warnings = state.warnings ++ [warning] ∧
      next.truncated = true ∧ ∀ other data later,
        ReadsFile host search paths next other data later →
        ReadsFile host search (path :: paths) state other data later) ∨
    ∃ data, host.contents path = .ok data ∧
      ReadsFile host search (path :: paths) state path data state ∧
      (final = scanFile host search path data state ∧ search.maxResults ≤ final.found.length ∨
        searchFiles host search paths (scanFile host search path data state) = .ok final ∧
          ∀ other data' later,
            ReadsFile host search paths (scanFile host search path data state) other data' later →
              ReadsFile host search (path :: paths) state other data' later) := by
  rw [searchFiles] at searched
  dsimp only at searched
  by_cases many : maxSearchFiles ≤ state.scannedFiles
  · rw [if_pos many] at searched
    cases searched
    exact Or.inl ⟨_, rfl, rfl, rfl⟩
  rw [if_neg many] at searched
  by_cases spent : maxSearchBytes - state.scannedBytes = 0
  · rw [if_pos spent] at searched
    cases searched
    exact Or.inl ⟨_, rfl, rfl, rfl⟩
  rw [if_neg spent] at searched
  have few : state.scannedFiles < maxSearchFiles := Nat.lt_of_not_le many
  have room : state.scannedBytes < maxSearchBytes := by omega
  split at searched
  · rename_i error failed
    split_ifs at searched with other low
    · cases searched
      exact Or.inl ⟨_, rfl, rfl, rfl⟩
    · exact Or.inr (Or.inl ⟨_, _, searched, rfl, rfl, rfl, fun _ _ _ =>
        .large few room failed (not_not.mp other) (Nat.le_of_not_lt low)⟩)
  · rename_i data read
    refine Or.inr (Or.inr ⟨data, readSearchBytes_eq_ok read, .here few room read, ?_⟩)
    split_ifs at searched with full
    · cases searched
      exact Or.inl ⟨rfl, full⟩
    · exact Or.inr ⟨searched, fun _ _ _ => .next few room read (Nat.lt_of_not_le full)⟩

theorem searchFiles_grows {state final : SearchState}
    (searched : searchFiles host search paths state = .ok final) :
    state.warnings <+: final.warnings ∧ (state.truncated = true → final.truncated = true) := by
  have scanned : ∀ (path : String) (data : ByteArray) (state : SearchState),
      state.warnings <+: (scanFile host search path data state).warnings ∧
        (state.truncated = true → (scanFile host search path data state).truncated = true) := by
    intro path data state
    rcases scanFile_cases path data state with
      ⟨warning, -, warned, marked⟩ | ⟨text, -, -, ⟨warning, warned, marked⟩ | ⟨-, warned, marked⟩⟩
    · rw [warned, marked]
      exact ⟨List.prefix_append _ _, id⟩
    · rw [warned, marked]
      exact ⟨List.prefix_append _ _, fun _ => rfl⟩
    · rw [warned, marked]
      exact ⟨List.prefix_refl _, id⟩
  induction paths generalizing state with
  | nil =>
    cases searched
    exact ⟨List.prefix_refl _, id⟩
  | cons path paths ih =>
    rcases searchFiles_cons searched with ⟨warning, -, warned, marked⟩ |
      ⟨warning, next, rest, -, warned, marked, -⟩ | ⟨data, -, -, ⟨rfl, -⟩ | ⟨rest, -⟩⟩
    · exact ⟨warned ▸ List.prefix_append _ _, fun _ => marked⟩
    · obtain ⟨warned', marked'⟩ := ih rest
      rw [warned] at warned'
      exact ⟨(List.prefix_append _ _).trans warned', fun _ => marked' marked⟩
    · exact scanned path data state
    · obtain ⟨warned, marked⟩ := scanned path data state
      obtain ⟨warned', marked'⟩ := ih rest
      exact ⟨warned.trans warned', fun cut => marked' (marked cut)⟩

/-- Every line that is read from some state on folds plainly. -/
def FilesFoldPlainly (host : SearchHost) (search : SearchQuery) (paths : List String)
    (state : SearchState) : Prop :=
  ∀ path data later text line left, ReadsFile host search paths state path data later →
    decodeText data = some text →
    ReadsLine host search path 1 (bareLines text) later.found line left →
    LineFoldsPlainly host search line left

theorem scanFile_sound {data : ByteArray} {state : SearchState}
    (read : host.contents path = .ok data)
    (plain : ∀ text line left, decodeText data = some text →
      ReadsLine host search path 1 (bareLines text) state.found line left →
      LineFoldsPlainly host search line left) :
    ∀ hit ∈ (scanFile host search path data state).found,
      hit ∈ state.found ∨ hit.Sound host search := by
  intro hit mem
  rcases scanFile_cases path data state with ⟨warning, same, -⟩ | ⟨text, decoded, same, -⟩
  · rw [same] at mem
    exact Or.inl mem
  · rw [same] at mem
    rcases searchLines_sound (fun line left => plain text line left decoded) hit mem with
      before | ⟨i, line, length, at', rfl, number, positive, excerpt, folds⟩
    · exact Or.inl before
    · refine Or.inr
        ⟨data, text, line, length, read, decoded, by omega, ?_, positive, excerpt, folds⟩
      rw [number, Nat.add_sub_cancel_left]
      exact at'

theorem searchFiles_sound {state final : SearchState}
    (plain : FilesFoldPlainly host search paths state)
    (searched : searchFiles host search paths state = .ok final) :
    ∀ hit ∈ final.found, hit ∈ state.found ∨ hit.Sound host search := by
  induction paths generalizing state with
  | nil =>
    cases searched
    exact fun hit mem => Or.inl mem
  | cons path paths ih =>
    rcases searchFiles_cons searched with ⟨warning, same, -⟩ |
      ⟨warning, next, rest, same, -, -, reads⟩ | ⟨data, contents, read, ends⟩
    · rw [same]
      exact fun hit mem => Or.inl mem
    · rw [← same]
      exact ih (fun path data later text line left read =>
        plain path data later text line left (reads _ _ _ read)) rest
    · have here := scanFile_sound contents fun text line left =>
        plain path data state text line left read
      rcases ends with ⟨rfl, -⟩ | ⟨rest, reads⟩
      · exact here
      · intro hit mem
        rcases ih (fun path data later text line left read =>
          plain path data later text line left (reads _ _ _ read)) rest hit mem with before | sound
        · exact here hit before
        · exact Or.inr sound

theorem searchFiles_complete (nonempty : ∀ c, host.casefold c ≠ [])
    (some : needle host search ≠ []) {state final : SearchState}
    (plain : FilesFoldPlainly host search paths state)
    (searched : searchFiles host search paths state = .ok final)
    (unwarned : final.warnings = []) :
    ∃ added, final.found = state.found ++ added ∧ FilesMatched host search paths added := by
  have noted : ∀ {warnings : List String} {warning : String},
      warnings ++ [warning] <+: final.warnings → False := by
    intro warnings warning grown
    rw [unwarned, List.prefix_nil] at grown
    simp at grown
  induction paths generalizing state with
  | nil =>
    cases searched
    exact ⟨[], (List.append_nil _).symm, FilesMatched.nil⟩
  | cons path paths ih =>
    rcases searchFiles_cons searched with ⟨warning, -, warned, -⟩ |
      ⟨warning, next, rest, -, warned, -⟩ | ⟨data, contents, read, scanned⟩
    · exact (noted ⟨[], by rw [List.append_nil, warned]⟩).elim
    · exact (noted (warned ▸ (searchFiles_grows rest).1)).elim
    · have grown : (scanFile host search path data state).warnings <+: final.warnings := by
        rcases scanned with ⟨rfl, -⟩ | ⟨rest, -⟩
        · exact List.prefix_refl _
        · exact (searchFiles_grows rest).1
      rcases scanFile_cases path data state with ⟨warning, -, warned, -⟩ |
        ⟨text, decoded, same, ⟨warning, warned, -⟩ | ⟨short, -⟩⟩
      · exact (noted (warned ▸ grown)).elim
      · exact (noted (warned ▸ grown)).elim
      · rcases scanned with ⟨rfl, full⟩ | ⟨rest, reads⟩
        · exact absurd short (Nat.not_lt.mpr full)
        rw [same] at short
        obtain ⟨first, same', matched⟩ := searchLines_complete nonempty some
          (fun line left => plain path data state text line left read decoded) short
        obtain ⟨others, same'', matched'⟩ := ih (fun path data later text line left read =>
          plain path data later text line left (reads _ _ _ read)) rest
        refine ⟨first ++ others, ?_, FilesMatched.cons contents decoded matched matched'⟩
        rw [same'', same, same', List.append_assoc]

/-! ## The files that are searched -/

/-- A file of the input, the file itself, or a regular file below a directory. -/
def BelowTarget (host : SearchHost) (target path : String) : Prop :=
  if isInputPath target then
    ∃ sealed ∈ host.inputFiles, "input/" ++ sealed = path ∧ isBelow target path
  else if host.isFile target = true then path = target
  else ∃ entries, host.entries target = .ok entries ∧
    ∃ entry ∈ entries, entry.isRegular = true ∧ target ++ "/" ++ entry.path = path

/-- No regular file below a directory that is walked through has several links. -/
def SingleLinks (host : SearchHost) (target : String) : Prop :=
  ¬ isInputPath target → host.isFile target = false → ∀ entries, host.entries target = .ok entries →
    ∀ entry ∈ entries, entry.isRegular = true → entry.links = 1

/-- A file under one of the targets. -/
def Requested (host : SearchHost) (targets : List String) (path : String) : Prop :=
  ∃ target ∈ targets, BelowTarget host target path

theorem mem_listWorkspaceFiles {maxFiles maxEntries index : Nat} {found : List String}
    {entries : List TreeEntry} :
    (∀ path ∈ (listWorkspaceFiles maxFiles maxEntries index found entries).1,
      path ∈ found ∨ ∃ entry ∈ entries, entry.isPlain = true ∧ entry.path = path) ∧
    ((listWorkspaceFiles maxFiles maxEntries index found entries).2 = false →
      ∀ path, path ∈ found ∨ (∃ entry ∈ entries, entry.isPlain = true ∧ entry.path = path) →
        path ∈ (listWorkspaceFiles maxFiles maxEntries index found entries).1) := by
  induction entries generalizing index found with
  | nil =>
    refine ⟨fun path mem => Or.inl mem, fun _ path known => ?_⟩
    rcases known with mem | ⟨entry, mem, -⟩
    · exact mem
    · cases mem
  | cons entry entries ih =>
    rw [listWorkspaceFiles]
    split_ifs with far plain many
    · exact ⟨fun path mem => Or.inl mem, fun cut => by cases cut⟩
    · exact ⟨fun path mem => Or.inl mem, fun cut => by cases cut⟩
    · obtain ⟨sound, complete⟩ := @ih (index + 1) (found ++ [entry.path])
      refine ⟨fun path mem => ?_, fun whole path known => complete whole path ?_⟩
      · rcases sound path mem with before | ⟨other, mem', rest⟩
        · rcases List.mem_append.mp before with old | new
          · exact Or.inl old
          · exact Or.inr ⟨entry, List.mem_cons_self, plain, (List.mem_singleton.mp new).symm⟩
        · exact Or.inr ⟨other, List.mem_cons_of_mem _ mem', rest⟩
      · rcases known with old | ⟨other, mem', plain', rfl⟩
        · exact Or.inl (List.mem_append_left _ old)
        · rcases List.mem_cons.mp mem' with rfl | later
          · exact Or.inl (List.mem_append_right _ (List.mem_singleton.mpr rfl))
          · exact Or.inr ⟨other, later, plain', rfl⟩
    · obtain ⟨sound, complete⟩ := @ih (index + 1) found
      refine ⟨fun path mem => ?_, fun whole path known => complete whole path ?_⟩
      · rcases sound path mem with before | ⟨other, mem', rest⟩
        · exact Or.inl before
        · exact Or.inr ⟨other, List.mem_cons_of_mem _ mem', rest⟩
      · rcases known with old | ⟨other, mem', plain', rfl⟩
        · exact Or.inl old
        · rcases List.mem_cons.mp mem' with rfl | later
          · exact absurd plain' plain
          · exact Or.inr ⟨other, later, plain', rfl⟩

theorem isPlain_iff {entry : TreeEntry} :
    entry.isPlain = true ↔ entry.isRegular = true ∧ entry.links = 1 := by
  rw [TreeEntry.isPlain, Bool.and_eq_true, beq_iff_eq]

theorem mem_filesOfTarget {target : String} {files : List String × Bool}
    (listed : filesOfTarget host target = .ok files) :
    (∀ path ∈ files.1, BelowTarget host target path) ∧
      (files.2 = false → SingleLinks host target →
        ∀ path, BelowTarget host target path → path ∈ files.1) := by
  rw [filesOfTarget] at listed
  split_ifs at listed with input file
  · cases listed
    constructor
    · intro path mem
      obtain ⟨mem', below⟩ := List.mem_filter.mp mem
      obtain ⟨sealed, known, rfl⟩ := List.mem_map.mp mem'
      rw [BelowTarget, if_pos input]
      exact ⟨sealed, known, rfl, of_decide_eq_true below⟩
    · intro _ _ path below
      rw [BelowTarget, if_pos input] at below
      obtain ⟨sealed, known, rfl, below⟩ := below
      exact List.mem_filter.mpr ⟨List.mem_map.mpr ⟨sealed, known, rfl⟩, decide_eq_true below⟩
  · cases listed
    simp only [BelowTarget, if_neg input, if_pos file, List.mem_singleton]
    exact ⟨fun path same => same, fun _ _ path same => same⟩
  · obtain ⟨entries, walked, rfl⟩ := map_eq_ok.mp listed
    obtain ⟨sound, complete⟩ := @mem_listWorkspaceFiles (maxSearchFiles + 1) maxSearchEntries 0 []
      entries
    have below_iff : ∀ path, BelowTarget host target path ↔
        ∃ entry ∈ entries, entry.isRegular = true ∧ target ++ "/" ++ entry.path = path := by
      intro path
      rw [BelowTarget, if_neg input, if_neg file]
      constructor
      · rintro ⟨entries', walked', rest⟩
        obtain rfl := Except.ok.inj (walked.symm.trans walked')
        exact rest
      · exact fun rest => ⟨entries, walked, rest⟩
    constructor
    · intro path mem
      obtain ⟨child, mem', rfl⟩ := List.mem_map.mp mem
      rcases sound child mem' with nothing | ⟨entry, known, plain, rfl⟩
      · cases nothing
      · exact (below_iff _).mpr ⟨entry, known, (isPlain_iff.mp plain).1, rfl⟩
    · intro whole single path below
      obtain ⟨entry, known, regular, rfl⟩ := (below_iff path).mp below
      have plain := isPlain_iff.mpr
        ⟨regular, single input (Bool.eq_false_iff.mpr file) entries walked entry known regular⟩
      exact List.mem_map.mpr ⟨entry.path, complete whole _ (Or.inr ⟨entry, known, plain, rfl⟩), rfl⟩

theorem addPaths_spec {found added : List String} (distinct : found.Nodup) :
    (addPaths found added).Nodup ∧
      ∀ path, path ∈ addPaths found added ↔ path ∈ found ∨ path ∈ added := by
  induction added generalizing found with
  | nil => exact ⟨distinct, fun path => by simp [addPaths]⟩
  | cons first added ih =>
    have step : addPaths found (first :: added) =
        addPaths (if first ∈ found then found else found ++ [first]) added := rfl
    rw [step]
    by_cases known : first ∈ found
    · rw [if_pos known]
      obtain ⟨distinct', mem_iff⟩ := ih distinct
      refine ⟨distinct', fun path => ?_⟩
      rw [mem_iff, List.mem_cons]
      constructor
      · rintro (old | new)
        · exact Or.inl old
        · exact Or.inr (Or.inr new)
      · rintro (old | rfl | new)
        · exact Or.inl old
        · exact Or.inl known
        · exact Or.inr new
    · rw [if_neg known]
      have distinct' : (found ++ [first]).Nodup := by
        refine List.nodup_append.mpr ⟨distinct, List.nodup_singleton first, ?_⟩
        rintro path old other new rfl
        exact known (List.mem_singleton.mp new ▸ old)
      obtain ⟨distinct'', mem_iff⟩ := ih distinct'
      refine ⟨distinct'', fun path => ?_⟩
      rw [mem_iff, List.mem_append, List.mem_singleton, List.mem_cons, or_assoc]

theorem collectFiles_spec {targets found : List String} {truncated : Bool}
    {files : List String × Bool} (distinct : found.Nodup)
    (collected : collectFiles host targets found truncated = .ok files) :
    files.1.Nodup ∧ (∀ path ∈ files.1, path ∈ found ∨ Requested host targets path) ∧
      (files.2 = false → truncated = false ∧ ((∀ target ∈ targets, SingleLinks host target) →
        ∀ path, path ∈ found ∨ Requested host targets path → path ∈ files.1)) := by
  induction targets generalizing found truncated with
  | nil =>
    cases collected
    refine ⟨distinct, fun path mem => Or.inl mem, fun whole => ⟨whole, fun _ path known => ?_⟩⟩
    rcases known with mem | ⟨target, mem, -⟩
    · exact mem
    · cases mem
  | cons target targets ih =>
    rw [collectFiles] at collected
    obtain ⟨added, listed, collected⟩ := bind_eq_ok.mp collected
    obtain ⟨sound, complete⟩ := mem_filesOfTarget listed
    obtain ⟨distinct', mem_iff⟩ := @addPaths_spec found added.1 distinct
    obtain ⟨distinct'', sound', complete'⟩ := ih distinct' collected
    refine ⟨distinct'', fun path mem => ?_, fun whole => ?_⟩
    · rcases sound' path mem with here | ⟨other, mem', below⟩
      · rcases (mem_iff path).mp here with old | new
        · exact Or.inl old
        · exact Or.inr ⟨target, List.mem_cons_self, sound path new⟩
      · exact Or.inr ⟨other, List.mem_cons_of_mem _ mem', below⟩
    · obtain ⟨uncut, all⟩ := complete' whole
      obtain ⟨uncut', uncut''⟩ := (Bool.or_eq_false_iff).mp uncut
      refine ⟨uncut', fun single path known => ?_⟩
      obtain ⟨first, others⟩ := List.forall_mem_cons.mp single
      refine all others path ?_
      rcases known with old | ⟨other, mem', below⟩
      · exact Or.inl ((mem_iff path).mpr (Or.inl old))
      · rcases List.mem_cons.mp mem' with rfl | later
        · exact Or.inl ((mem_iff path).mpr (Or.inr (complete uncut'' first path below)))
        · exact Or.inr ⟨other, later, below⟩

theorem boundedFiles_spec {targets : List String} {files : List String × Bool}
    (bounded : boundedFiles host targets = .ok files) :
    files.1.Nodup ∧ (∀ path ∈ files.1, Requested host targets path) ∧
      (files.2 = false → (∀ target ∈ targets, SingleLinks host target) →
        ∀ path, Requested host targets path → path ∈ files.1) := by
  rw [boundedFiles] at bounded
  obtain ⟨_, -, bounded⟩ := bind_eq_ok.mp bounded
  obtain ⟨collected, listed, bounded⟩ := bind_eq_ok.mp bounded
  obtain rfl := Except.ok.inj bounded
  obtain ⟨distinct, sound, complete⟩ := collectFiles_spec List.nodup_nil listed
  have perm := List.perm_insertionSort (fun a b : String => textLe a.toList b.toList = true)
    collected.1
  refine ⟨((perm.nodup_iff).mpr distinct).sublist (List.take_sublist _ _), fun path mem => ?_,
    fun whole single path requested => ?_⟩
  · rcases sound path (perm.subset (List.mem_of_mem_take mem)) with nothing | requested
    · cases nothing
    · exact requested
  · obtain ⟨uncut, few⟩ := (Bool.or_eq_false_iff).mp whole
    rw [List.take_of_length_le (Nat.le_of_not_lt (of_decide_eq_false few))]
    exact perm.symm.subset ((complete uncut).2 single path (Or.inr requested))

theorem eq_nil_of_sortedSet {texts : List String} (none : sortedSet texts = []) : texts = [] := by
  have perm := List.perm_insertionSort (fun a b : String => textLe a.toList b.toList = true)
    texts.dedup
  rw [sortedSet] at none
  have nothing : texts.dedup = [] := (none ▸ perm).nil_eq.symm
  refine List.eq_nil_iff_forall_not_mem.mpr fun text mem => ?_
  have mem' := List.mem_dedup.mpr mem
  rw [nothing] at mem'
  cases mem'

/-- **Every match is where it is said to be, and a response that was neither cut nor warned of
anything has the leftmost matches of every line of every file under the paths**, when the lines
that are searched fold plainly around what is found in them; a file with several links is left out
of a directory. -/
theorem executeSearch_exact {request : SearchRequest} {response : SearchResponse}
    {query : String} {targets : List String} {maxResults : Nat}
    (nonempty : ∀ c, host.casefold c ≠ []) (queried : request.query = some query)
    (targeted : searchTargets host request.paths = .ok targets)
    (bound : maxResultsOf request.maxResults = .ok maxResults)
    (searched : executeSearch host request = .ok response)
    (plain : ∀ line left,
      Searches host request ⟨query.toList, request.caseSensitive, maxResults⟩ line left →
      LineFoldsPlainly host ⟨query.toList, request.caseSensitive, maxResults⟩ line left) :
    (∀ hit ∈ response.found,
      hit.Sound host ⟨query.toList, request.caseSensitive, maxResults⟩) ∧
    (response.truncated = false → response.warnings = [] →
      (∀ target ∈ targets, SingleLinks host target) →
      ∃ paths : List String, paths.Nodup ∧ (∀ path, path ∈ paths ↔ Requested host targets path) ∧
        FilesMatched host ⟨query.toList, request.caseSensitive, maxResults⟩ paths
          response.found) := by
  rw [executeSearch, queried] at searched
  dsimp only at searched
  split_ifs at searched with empty
  rw [bound, ok_bind, targeted, ok_bind] at searched
  obtain ⟨files, bounded, searched⟩ := bind_eq_ok.mp searched
  obtain ⟨state, scanned, searched⟩ := bind_eq_ok.mp searched
  obtain rfl := Except.ok.inj searched
  obtain ⟨distinct, sound, complete⟩ := boundedFiles_spec bounded
  have some : needle host ⟨query.toList, request.caseSensitive, maxResults⟩ ≠ [] := by
    refine needle_ne_nil nonempty fun none => empty ?_
    exact String.toList_eq_nil_iff.mp none
  have plain' : FilesFoldPlainly host ⟨query.toList, request.caseSensitive, maxResults⟩ files.1
      (.start files.2) := fun path data later text line left reads decoded lines =>
    plain line left ⟨_, _, _, _, _, _, targeted, bounded, reads, decoded, lines⟩
  refine ⟨fun hit mem => ?_, fun uncut unwarned single => ?_⟩
  · rcases searchFiles_sound plain' scanned hit mem with before | sound'
    · cases before
    · exact sound'
  · have unwarned' := eq_nil_of_sortedSet unwarned
    have whole : files.2 = false := by
      rw [← Bool.not_eq_true]
      intro cut
      have marked := (searchFiles_grows scanned).2 cut
      have unmarked : state.truncated = false := uncut
      rw [marked] at unmarked
      cases unmarked
    obtain ⟨added, same, matched⟩ := searchFiles_complete nonempty some plain' scanned unwarned'
    refine ⟨files.1, distinct, fun path => ⟨sound path, complete whole single path⟩, ?_⟩
    have found : state.found = added := same
    dsimp only
    rw [found]
    exact matched

def oneFileHost (text : String) : SearchHost where
  isprintable := fun _ => true
  casefold := fun c => if c = 'ß' then ['s', 's'] else lowered c
  queryHash := fun _ => "sha256:ca978112ca1bbdcafac231b39a23dc4da786eff8147c4e72b9807785afee48bb"
  checksum := fun data =>
    if data.data.toList = "ßa".toUTF8.data.toList then
      "sha256:b4513ea622cc3b395cde7ae2e02eaab4e3ff25de59b390642ef2bc75d3f0e8e9"
    else "sha256:fb8e20fc2e4c3f248c60c39bd652f3c1347298bb977b8b4d5903b85055620603"
  inputFiles := []
  verifyInput := .ok ()
  verifyRoots := .ok ()
  locate := fun _ => .ok ()
  isFile := fun path => path = "workspace/a.txt"
  entries := fun _ => .ok []
  contents := fun _ => .ok text.toUTF8

def oneFileRequest : SearchRequest := ⟨some "a", false, none, some (some [some "workspace/a.txt"])⟩

/-- Behind a character that folds to two the column is one too many. -/
theorem executeSearch_behind_folding :
    ∃ response, executeSearch (oneFileHost "ßa") oneFileRequest = .ok response ∧
      ∃ hit ∈ response.found, ¬ hit.Sound (oneFileHost "ßa") ⟨"a".toList, false, 50⟩ := by
  refine ⟨⟨[⟨"workspace/a.txt", 1, 3, "ßa".toList⟩], 1, [], false,
    [.found "workspace/a.txt" [1]
      "sha256:b4513ea622cc3b395cde7ae2e02eaab4e3ff25de59b390642ef2bc75d3f0e8e9" "ßa".toList]⟩,
    by decide, _, List.mem_cons_self, ?_⟩
  rintro ⟨data, text, line, length, read, decoded, -, at', -, -, folds⟩
  obtain rfl := Except.ok.inj read
  have text_eq : decodeText "ßa".toUTF8 = some "ßa".toList := by decide
  obtain rfl := Option.some.inj (text_eq.symm.trans decoded)
  have line_eq : (bareLines "ßa".toList)[0]? = some "ßa".toList := by decide
  obtain rfl := Option.some.inj (line_eq.symm.trans at')
  have behind : "ßa".toList.drop 2 = [] := by decide
  have nothing := folds.2
  rw [show (3 : Nat) - 1 = 2 from rfl, behind, List.take_nil] at nothing
  exact absurd nothing (by decide)

/-! ## A search of a directory -/

theorem ReadsLine.mem {number left : Nat} {lines : List (List Char)} {found : List SearchMatch}
    (reads : ReadsLine host search path number lines found line left) : line ∈ lines := by
  induction reads with
  | here => exact List.mem_cons_self
  | next _ _ ih => exact List.mem_cons_of_mem _ ih

theorem ReadsFile.contents {state later : SearchState} {data : ByteArray}
    (reads : ReadsFile host search paths state path data later) :
    path ∈ paths ∧ host.contents path = .ok data := by
  induction reads with
  | here _ _ read => exact ⟨List.mem_cons_self, readSearchBytes_eq_ok read⟩
  | large _ _ _ _ _ _ ih => exact ⟨List.mem_cons_of_mem _ ih.1, ih.2⟩
  | next _ _ _ _ _ ih => exact ⟨List.mem_cons_of_mem _ ih.1, ih.2⟩

/-- Two files below a directory; one line has a character that folds to two, and no match. -/
def treeHost : SearchHost :=
  { oneFileHost "" with
    isFile := fun _ => false
    entries := fun _ => .ok [⟨"a.txt", true, 1⟩, ⟨"sub", false, 2⟩, ⟨"sub/b.txt", true, 1⟩]
    contents := fun path =>
      .ok (if path = "workspace/a.txt" then "ßx\nab".toUTF8 else "Aa".toUTF8) }

def treeRequest : SearchRequest := ⟨some "a", false, none, some (some [some "workspace"])⟩

def treeMatches : List SearchMatch :=
  [⟨"workspace/a.txt", 2, 1, "ab".toList⟩, ⟨"workspace/sub/b.txt", 1, 1, "Aa".toList⟩,
    ⟨"workspace/sub/b.txt", 1, 2, "Aa".toList⟩]

theorem tree_folds_plainly {line : List Char} {left : Nat}
    (searches : Searches treeHost treeRequest ⟨"a".toList, false, 50⟩ line left) :
    LineFoldsPlainly treeHost ⟨"a".toList, false, 50⟩ line left := by
  obtain ⟨targets, files, path, data, state, text, -, -, reads, decoded, lines⟩ := searches
  have read := reads.contents.2
  have known : line ∈ ["ßx".toList, "ab".toList, "Aa".toList] := by
    simp only [treeHost, Except.ok.injEq] at read
    split_ifs at read
    · have text_eq : decodeText "ßx\nab".toUTF8 = some "ßx\nab".toList := by decide
      obtain rfl := Option.some.inj (text_eq.symm.trans (read ▸ decoded))
      have lines_eq : bareLines "ßx\nab".toList = ["ßx".toList, "ab".toList] := by decide
      have mem := lines.mem
      rw [lines_eq] at mem
      exact List.mem_append_left ["Aa".toList] mem
    · have text_eq : decodeText "Aa".toUTF8 = some "Aa".toList := by decide
      obtain rfl := Option.some.inj (text_eq.symm.trans (read ▸ decoded))
      have lines_eq : bareLines "Aa".toList = ["Aa".toList] := by decide
      have mem := lines.mem
      rw [lines_eq] at mem
      exact List.mem_append_right ["ßx".toList, "ab".toList] mem
  rcases List.mem_cons.mp known with rfl | known
  · intro column mem
    have folded : foldText treeHost false "ßx".toList = "ssx".toList := by decide
    have pattern : needle treeHost ⟨"a".toList, false, 50⟩ = "a".toList := by decide
    have occurs := (occursAt_of_mem mem).2
    rw [folded, pattern] at occurs
    have inside := occurs.length_le
    have few : column + 1 ≤ 3 := inside
    obtain rfl | rfl | rfl : column = 0 ∨ column = 1 ∨ column = 2 := by omega
    all_goals exact absurd occurs.2 (by decide)
  · have single : (["ab".toList, "Aa".toList].all fun line => line.all fun c =>
        (folding treeHost false c).length == 1) = true := by decide
    exact lineFoldsPlainly_of_single fun c among => beq_iff_eq.mp
      (List.all_eq_true.mp (List.all_eq_true.mp single line known) c among)

theorem executeSearch_exact_of_tree :
    ∃ response, executeSearch treeHost treeRequest = .ok response ∧
      response.found = treeMatches ∧
      (∀ hit ∈ treeMatches, hit.Sound treeHost ⟨"a".toList, false, 50⟩) ∧
      ∃ paths : List String, paths.Nodup ∧
        (∀ path, path ∈ paths ↔ Requested treeHost ["workspace"] path) ∧
        FilesMatched treeHost ⟨"a".toList, false, 50⟩ paths treeMatches := by
  obtain ⟨response, searched, found, uncut, unwarned⟩ :
      ∃ response, executeSearch treeHost treeRequest = .ok response ∧
        response.found = treeMatches ∧ response.truncated = false ∧ response.warnings = [] := by
    refine ⟨⟨treeMatches, 2, [], false,
      [.found "workspace/a.txt" [2]
        "sha256:fb8e20fc2e4c3f248c60c39bd652f3c1347298bb977b8b4d5903b85055620603" "ab".toList,
      .found "workspace/sub/b.txt" [1]
        "sha256:fb8e20fc2e4c3f248c60c39bd652f3c1347298bb977b8b4d5903b85055620603" "Aa".toList]⟩,
      by decide, rfl, rfl, rfl⟩
  have nonempty : ∀ c, treeHost.casefold c ≠ [] := by
    intro c
    simp only [treeHost, oneFileHost, lowered]
    split_ifs
    all_goals exact List.cons_ne_nil _ _
  have targeted : searchTargets treeHost treeRequest.paths = .ok ["workspace"] := by
    decide
  obtain ⟨sound, complete⟩ := executeSearch_exact nonempty rfl targeted rfl searched
    fun _ _ => tree_folds_plainly
  have single : ∀ target ∈ ["workspace"], SingleLinks treeHost target := by
    rintro target - - - entries listed entry mem regular
    obtain rfl := Except.ok.inj listed
    simp only [List.mem_cons, List.not_mem_nil, or_false] at mem
    rcases mem with rfl | rfl | rfl
    · rfl
    · cases regular
    · rfl
  rw [found] at sound complete
  exact ⟨response, searched, found, sound, complete uncut unwarned single⟩

end SkillMind.Agent
