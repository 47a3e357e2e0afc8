import SkillMind.Agent.WorkspaceReading
import SkillMind.Core.CodePoints
import SkillMind.Library.Fallible
import SkillMind.Library.Occurrences

/-!
# Edits of a workspace file

`WorkspaceEditProvider` changes one file: it reads the bytes, checks that they are the ones the
model has seen, applies the operation and writes the result if the file is still the same.  An edit
names the old text it replaces; the code wants it to occur once and counts with `str.count`, which
looks behind each occurrence for the next.
-/

namespace SkillMind.Agent

open Library SkillMind.Core

def maxArtifactBytes : Nat := 1048576

structure Edit where
  old : PyText
  new : PyText
  deriving DecidableEq

/-- The operation with its own arguments; `none` where they are absent or of another type, and for
an edit that has no `old` or no `new`. -/
inductive FileOperation where
  | append (text : Option PyText)
  | edit (edits : Option (List (Option Edit)))
  | copy
  | publish
  | unknown
  deriving DecidableEq

abbrev TextArgument := Option String

structure EditRequest where
  operation : FileOperation
  path : TextArgument
  sourcePath : Option TextArgument
  expectedHash : TextArgument

/-- `text.count(old)` of an old text that is not empty. -/
def countOf (old text : PyText) : Nat := (occurrencesFrom old text (text.length + 1) 0).length

/-- The text with `length` characters at `i` replaced. -/
def splice (text : PyText) (i length : Nat) (new : PyText) : PyText :=
  text.take i ++ new ++ text.drop (i + length)

/-- `text.replace(old, new, 1)`. -/
def replaceFirst (old new text : PyText) : PyText :=
  match findFrom old text 0 with
  | none => text
  | some i => splice text i old.length new

/-- The loop over `arguments["edits"]`. -/
def applyEdits : List (Option Edit) → PyText → Option PyText
  | [], text => some text
  | none :: _, _ => none
  | some edit :: edits, text =>
    if edit.old = [] ∨ countOf edit.old text ≠ 1 then none
    else applyEdits edits (replaceFirst edit.old edit.new text)

def updatedText (text : PyText) : FileOperation → Option PyText
  | .append added => added.map fun added => text ++ added
  | .edit edits => edits.bind fun edits => applyEdits edits text
  | .copy => some text
  | .publish => some text
  | .unknown => none

abbrev WorkspaceFiles := String → Option ByteArray

/-- What becomes of a write that passes its checks. -/
inductive WriteOutcome where
  | written
  | failedBefore
  /-- The file is replaced, and the directory cannot be synchronized. -/
  | failedAfter

/-- What surrounds the provider: the tables and hashes of the standard library, what the file
system says of a path, and what becomes of the write. -/
structure WorkspaceHost where
  isprintable : Char → Bool
  /-- `"sha256:" + sha256_hex(data)`. -/
  checksum : ByteArray → String
  workspaceUri : String → String
  locate : String → Except ToolProviderError Unit
  locateWritable : String → Except ToolProviderError Unit
  readFailure : String → Option ToolProviderError
  writeOutcome : WriteOutcome

variable (host : WorkspaceHost)

def validatedRelative (isprintable : Char → Bool) (value : TextArgument) :
    Except ToolProviderError String :=
  match value with
  | none => .error (invalidRequest "Workspace path is invalid")
  | some path =>
    if path = "" ∨ '\\' ∈ path.toList ∨ ∃ part ∈ path.toList.splitOn '/',
        part ∈ ["".toList, ".".toList, "..".toList] ∨ part.all isprintable = false then
      .error (invalidRequest "Workspace path is invalid")
    else .ok path

/-- `_resolve_workspace_path` of a file. -/
def resolveWorkspacePath (value : TextArgument) : Except ToolProviderError String := do
  let relative ← validatedRelative host.isprintable value
  let parts := relative.toList.splitOn '/'
  if parts.headI ∉ ["input".toList, "workspace".toList, "output".toList] then
    .error (invalidRequest "Workspace path is outside the allowed roots")
  else
    let _ ← host.locate relative
    pure relative

def resolveWritablePath (value : TextArgument) : Except ToolProviderError String := do
  let relative ← validatedRelative host.isprintable value
  let parts := relative.toList.splitOn '/'
  if parts.headI ∉ ["workspace".toList, "output".toList] ∨ parts.length < 2 then
    .error (invalidRequest "Workspace path is outside the writable roots")
  else
    let _ ← host.locateWritable relative
    pure relative

/-- `_read_workspace_bytes` up to the limit of an Artifact. -/
def readWorkspaceBytes (files : WorkspaceFiles) (path : String) :
    Except ToolProviderError ByteArray :=
  match host.readFailure path, files path with
  | some error, _ => .error error
  | none, none => .error ⟨"unavailable", "Workspace file could not be read safely", false⟩
  | none, some data =>
    if maxArtifactBytes < data.size then
      .error ⟨"too_large", "Workspace file exceeds its verified limit", false⟩
    else .ok data

/-- `_write_workspace_file` with an expected hash, which is `absent` for a file that is not there:
whether the file is new, or the error, and the files behind it. -/
def writeWorkspaceFile (files : WorkspaceFiles) (path : String) (data : ByteArray)
    (expected : String) : Except ToolProviderError Bool × WorkspaceFiles :=
  let actual := (files path).elim "absent" host.checksum
  if actual ≠ expected then
    (.error (invalidRequest
      "Workspace target changed or is not a safe file; read its current hash"), files)
  else
    match host.writeOutcome with
    | .written => (.ok (files path).isNone, Function.update files path (some data))
    | .failedBefore => (.error ⟨"unavailable", "Workspace file could not be written", false⟩, files)
    | .failedAfter =>
      (.error ⟨"unavailable", "Workspace file could not be written", false⟩,
        Function.update files path (some data))

structure EditEvidence where
  sourceUri : String
  path : String
  sourcePath : String
  sourceHash : String
  contentHash : String
  operation : FileOperation
  artifact : Option (String × ByteArray)

structure EditResult where
  path : String
  contentHash : String
  bytesWritten : Nat
  created : Bool
  evidence : EditEvidence

/-- What is known before the write. -/
structure PreparedEdit where
  source : String
  destination : String
  original : ByteArray
  updated : ByteArray

/-- The checks of the provider, on the files as they are when the source is read. -/
def prepareEdit (files : WorkspaceFiles) (request : EditRequest) :
    Except ToolProviderError PreparedEdit := do
  let source := request.sourcePath.getD request.path
  let relative ← resolveWorkspacePath host source
  let data ← readWorkspaceBytes host files relative
  if request.expectedHash ≠ some (host.checksum data) then
    .error (invalidRequest "Source file changed; read its current hash")
  else
    match ((decodeUtf8 data).bind fun text => updatedText text request.operation).bind
        encodeUtf8 with
    | none => .error (invalidRequest "File edit does not match the original text")
    | some updated =>
      if maxArtifactBytes < updated.size then
        .error ⟨"too_large", "Edited file exceeds the Artifact limit", false⟩
      else
        let destination ← resolveWritablePath host request.path
        if request.operation = .publish ∧
            (source ≠ request.path ∨ ¬ "output/".toList <+: destination.toList) then
          .error (invalidRequest "Publish requires the existing output path")
        else .ok ⟨relative, destination, data, updated⟩

/-- The Evidence, made before the write. -/
def evidenceOf (request : EditRequest) (edit : PreparedEdit) : EditEvidence where
  sourceUri := host.workspaceUri edit.destination
  path := edit.destination
  sourcePath := edit.source
  sourceHash := host.checksum edit.original
  contentHash := host.checksum edit.updated
  operation := request.operation
  artifact :=
    if "output/".toList <+: edit.destination.toList then some (edit.destination, edit.updated)
    else none

def resultOf (request : EditRequest) (edit : PreparedEdit) (created : Bool) : EditResult where
  path := edit.destination
  contentHash := host.checksum edit.updated
  bytesWritten := edit.updated.size
  created := created
  evidence := evidenceOf host request edit

/-- `WorkspaceEditProvider.execute`: the source is read from `files`, the destination is written
to `later`, the files as others have left them. -/
def executeEdit (files later : WorkspaceFiles) (request : EditRequest) :
    Except ToolProviderError EditResult × WorkspaceFiles :=
  match prepareEdit host files request with
  | .error error => (.error error, later)
  | .ok edit =>
    if request.operation = .publish then (.ok (resultOf host request edit false), later)
    else
      let expected :=
        if edit.source = edit.destination then host.checksum edit.original else "absent"
      match writeWorkspaceFile host later edit.destination edit.updated expected with
      | (.error error, after) => (.error error, after)
      | (.ok created, after) => (.ok (resultOf host request edit created), after)

/-! ## Edits in sequence -/

/-- The texts the edits are applied to. -/
def stages : PyText → List Edit → List (PyText × Edit)
  | _, [] => []
  | text, edit :: edits => (text, edit) :: stages (replaceFirst edit.old edit.new text) edits

/-- The edits replace one span each, in sequence. -/
inductive Spliced : PyText → List Edit → PyText → Prop
  | nil {text : PyText} : Spliced text [] text
  | cons {text final : PyText} {edit : Edit} {edits : List Edit} {i : Nat} :
      OccursAt edit.old text i →
      Spliced (splice text i edit.old.length edit.new) edits final →
      Spliced text (edit :: edits) final

/-- The old text stands at exactly one position. -/
def MatchesOnce (stage : PyText × Edit) : Prop :=
  ∃ i, ∀ j, OccursAt stage.2.old stage.1 j ↔ j = i

variable {host}

theorem countOf_eq_one {old text : PyText} (nonempty : old ≠ []) (once : countOf old text = 1) :
    ∃ i, findFrom old text 0 = some i ∧ Leftmost old text 0 [i] := by
  have enough : text.length < 0 + (text.length + 1) := by omega
  have leftmost := leftmost_of_length_lt nonempty
    (length_occurrencesFrom_lt nonempty enough (Nat.succ_pos _))
  obtain ⟨i, single⟩ := List.length_eq_one_iff.mp once
  rw [single] at leftmost
  obtain ⟨occurs, before, -⟩ := leftmost_singleton_iff.mp leftmost
  exact ⟨i, findFrom_eq_some.mpr ⟨Nat.zero_le i, occurs, fun j _ less => before j less⟩, leftmost⟩

theorem applyEdits_cons_eq_some {edit : Edit} {edits : List (Option Edit)} {text final : PyText} :
    applyEdits (some edit :: edits) text = some final ↔
      edit.old ≠ [] ∧ countOf edit.old text = 1 ∧
        applyEdits edits (replaceFirst edit.old edit.new text) = some final := by
  rw [applyEdits]
  split_ifs with wrong
  · constructor
    · intro applied
      cases applied
    rintro ⟨nonempty, once, -⟩
    rcases wrong with empty | other
    · exact absurd empty nonempty
    · exact absurd once other
  · rw [not_or, not_not] at wrong
    exact ⟨fun applied => ⟨wrong.1, wrong.2, applied⟩, fun all => all.2.2⟩

theorem applyEdits_spec {arguments : List (Option Edit)} {text final : PyText}
    (applied : applyEdits arguments text = some final) :
    ∃ edits, arguments = edits.map some ∧ Spliced text edits final ∧
      ((∀ stage ∈ stages text edits, MatchesOnce stage) ↔
        ∀ stage ∈ stages text edits, ¬ OverlapsItself stage.2.old stage.1) := by
  induction arguments generalizing text with
  | nil =>
    rw [applyEdits] at applied
    obtain rfl := Option.some.inj applied
    refine ⟨[], rfl, Spliced.nil, fun _ stage mem => ?_, fun _ stage mem => ?_⟩
    · cases mem
    · cases mem
  | cons argument arguments ih =>
    cases argument with
    | none => cases applied
    | some edit =>
      obtain ⟨nonempty, once, rest⟩ := applyEdits_cons_eq_some.mp applied
      obtain ⟨edits, all, spliced, unique⟩ := ih rest
      obtain ⟨i, found, leftmost⟩ := countOf_eq_one nonempty once
      have replaced : replaceFirst edit.old edit.new text =
          splice text i edit.old.length edit.new := by
        rw [replaceFirst, found]
      rw [replaced] at spliced
      refine ⟨edit :: edits, by rw [all, List.map_cons],
        Spliced.cons (leftmost_singleton_iff.mp leftmost).1 spliced, ?_⟩
      rw [stages, List.forall_mem_cons, List.forall_mem_cons, unique]
      exact and_congr_left fun _ => existsUnique_iff_of_leftmost leftmost

theorem prepareEdit_eq_ok {files : WorkspaceFiles} {request : EditRequest} {edit : PreparedEdit}
    (prepared : prepareEdit host files request = .ok edit) :
    resolveWorkspacePath host (request.sourcePath.getD request.path) = .ok edit.source ∧
      readWorkspaceBytes host files edit.source = .ok edit.original ∧
      request.expectedHash = some (host.checksum edit.original) ∧
      (∃ text final, decodeUtf8 edit.original = some text ∧
        updatedText text request.operation = some final ∧
        encodeUtf8 final = some edit.updated) ∧
      resolveWritablePath host request.path = .ok edit.destination := by
  rw [prepareEdit] at prepared
  obtain ⟨relative, resolved, prepared⟩ := bind_eq_ok.mp prepared
  obtain ⟨data, read, prepared⟩ := bind_eq_ok.mp prepared
  split_ifs at prepared with stale
  split at prepared
  · cases prepared
  · rename_i updated encoded
    split_ifs at prepared with large
    obtain ⟨destination, writable, prepared⟩ := bind_eq_ok.mp prepared
    split_ifs at prepared with misplaced
    cases prepared
    obtain ⟨final, changed, encoded⟩ := Option.bind_eq_some_iff.mp encoded
    obtain ⟨text, decoded, changed⟩ := Option.bind_eq_some_iff.mp changed
    exact ⟨resolved, read, not_not.mp stale, ⟨text, final, decoded, changed, encoded⟩, writable⟩

theorem readWorkspaceBytes_eq_ok {files : WorkspaceFiles} {path : String} {data : ByteArray}
    (read : readWorkspaceBytes host files path = .ok data) : files path = some data := by
  rw [readWorkspaceBytes] at read
  split at read
  · cases read
  · cases read
  · rename_i found
    split_ifs at read
    cases read
    exact found

theorem writeWorkspaceFile_eq_ok {files after : WorkspaceFiles} {path expected : String}
    {data : ByteArray} {created : Bool}
    (written : writeWorkspaceFile host files path data expected = (.ok created, after)) :
    after = Function.update files path (some data) := by
  rw [writeWorkspaceFile] at written
  split_ifs at written with changed
  · cases written
  · split at written
    · cases written
      rfl
    · cases written
    · cases written

def EditRequest.withEdits (request : EditRequest) (arguments : List (Option Edit)) : EditRequest :=
  { request with operation := .edit (some arguments) }

/-- **An accepted list of edits replaces one span each of the text read and writes nothing else;
a rejected one writes nothing.**  The spans are the only places where the old texts stand exactly
when no old text overlaps itself. -/
theorem executeEdit_edits (host : WorkspaceHost) (files later : WorkspaceFiles)
    (request : EditRequest) (arguments : List (Option Edit)) :
    (∀ result after, executeEdit host files later (request.withEdits arguments) =
        (.ok result, after) →
      ∃ edits data text final written, arguments = edits.map some ∧
        files result.evidence.sourcePath = some data ∧ decodeUtf8 data = some text ∧
        Spliced text edits final ∧ encodeUtf8 final = some written ∧
        after = Function.update later result.path (some written) ∧
        result.contentHash = host.checksum written ∧
        ((∀ stage ∈ stages text edits, MatchesOnce stage) ↔
          ∀ stage ∈ stages text edits, ¬ OverlapsItself stage.2.old stage.1)) ∧
    ∀ relative data text,
      resolveWorkspacePath host (request.sourcePath.getD request.path) = .ok relative →
      readWorkspaceBytes host files relative = .ok data → decodeUtf8 data = some text →
      applyEdits arguments text = none →
      ∃ error,
        executeEdit host files later (request.withEdits arguments) = (.error error, later) := by
  constructor
  · intro result after executed
    rw [executeEdit] at executed
    split at executed
    · cases executed
    · rename_i edit prepared
      obtain ⟨-, read, -, ⟨text, final, decoded, changed, encoded⟩, -⟩ := prepareEdit_eq_ok prepared
      have applied : applyEdits arguments text = some final := changed
      obtain ⟨edits, all, spliced, unique⟩ := applyEdits_spec applied
      have published : (request.withEdits arguments).operation ≠ .publish := by
        intro same
        cases same
      rw [if_neg published] at executed
      dsimp only at executed
      split at executed
      · cases executed
      · rename_i created after' written
        cases executed
        exact ⟨edits, edit.original, text, final, edit.updated, all, readWorkspaceBytes_eq_ok read,
          decoded, spliced, encoded, writeWorkspaceFile_eq_ok written, rfl, unique⟩
  · intro relative data text resolved read decoded rejected
    cases prepared : prepareEdit host files (request.withEdits arguments) with
    | error error => exact ⟨error, by rw [executeEdit, prepared]⟩
    | ok edit =>
      obtain ⟨resolved', read', -, ⟨text', final, decoded', changed, -⟩, -⟩ :=
        prepareEdit_eq_ok prepared
      obtain rfl : relative = edit.source := Except.ok.inj (resolved.symm.trans resolved')
      obtain rfl : data = edit.original := Except.ok.inj (read.symm.trans read')
      obtain rfl : text = text' := Option.some.inj (decoded.symm.trans decoded')
      have applied : applyEdits arguments text = some final := changed
      rw [rejected] at applied
      cases applied

/-- A workspace with one file. -/
def soleHost : WorkspaceHost where
  isprintable := fun _ => true
  checksum := fun data =>
    if data.data.toList = "aaa".toUTF8.data.toList then
      "sha256:9834876dcfb05cb167a5c24953eba58c4ac89b1adf57f28f2f9d09af107ee8f0"
    else "sha256:970f519c2cadbcefb1e81694f904bc6229dd2a8300e98c6d0d4fc4bfca584140"
  workspaceUri := fun path => "workspace://runs/1/" ++ path
  locate := fun _ => .ok ()
  locateWritable := fun _ => .ok ()
  readFailure := fun _ => none
  writeOutcome := .written

def soleFile (text : String) : WorkspaceFiles := fun path =>
  if path = "workspace/a.txt" then some text.toUTF8 else none

def soleRequest (old new : String) : EditRequest where
  operation := .edit (some [some ⟨pyText old, pyText new⟩])
  path := some "workspace/a.txt"
  sourcePath := none
  expectedHash := some "sha256:9834876dcfb05cb167a5c24953eba58c4ac89b1adf57f28f2f9d09af107ee8f0"

/-- `aa` stands in `aaa` at two positions and is replaced at the first of them. -/
theorem executeEdit_overlapping :
    (executeEdit soleHost (soleFile "aaa") (soleFile "aaa") (soleRequest "aa" "b")).1.isOk = true ∧
      (soleRequest "aa" "b").operation = .edit (some [some ⟨pyText "aa", pyText "b"⟩]) ∧
      ¬ ∀ stage ∈ stages (pyText "aaa") [⟨pyText "aa", pyText "b"⟩], MatchesOnce stage := by
  refine ⟨by decide, rfl, fun once => ?_⟩
  obtain ⟨i, only⟩ := once (pyText "aaa", ⟨pyText "aa", pyText "b"⟩) List.mem_cons_self
  have first : 0 = i := (only 0).mp (by decide)
  have second : 1 = i := (only 1).mp (by decide)
  omega

end SkillMind.Agent
