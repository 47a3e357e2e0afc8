import SkillMind.Core.CodePoints
import SkillMind.Library.Association
import SkillMind.Library.Fallible

/-!
# Proposals to write to a repository

A proposal is checked before a person approves it, and what it names is checked once more when it
is executed. The two sets of rules are written apart from each other, and only the file system
compares one path with another.
-/

namespace SkillMind.Effects

open Library SkillMind.Core

structure TextTables where
  /-- `str.isprintable` of one character. -/
  isprintable : CodePoint → Bool
  /-- `str.casefold` of one character. -/
  casefold : CodePoint → PyText

def slash : CodePoint := .ofChar '/'

/-- `path.split("/")`. -/
def pathParts (path : PyText) : List PyText := path.splitOn slash

def isAlphanumeric (point : CodePoint) : Bool :=
  (0x30 ≤ point.value && point.value ≤ 0x39) || (0x41 ≤ point.value && point.value ≤ 0x5a) ||
    (0x61 ≤ point.value && point.value ≤ 0x7a)

def isRefCharacter (point : CodePoint) : Bool :=
  isAlphanumeric point || point ∈ pyText "._-/"

/-- A letter or digit, then up to `limit` letters, digits, dots, underscores, slashes and
hyphens. -/
def matchesRef (limit : Nat) : PyText → Bool
  | [] => false
  | first :: rest =>
    isAlphanumeric first && decide (rest.length ≤ limit) && rest.all isRefCharacter

/-- `part.rstrip(" .").casefold() in {".git", ".svn"}`. -/
def isMetadata (tables : TextTables) (part : PyText) : Prop :=
  ((part.reverse.dropWhile fun c => c ∈ pyText " .").reverse.flatMap tables.casefold) ∈
    [pyText ".git", pyText ".svn"]

instance (tables : TextTables) (part : PyText) : Decidable (isMetadata tables part) :=
  inferInstanceAs (Decidable (_ ∈ _))

/-! ## The proposal -/

/-- `_BRANCH_PATTERN` of proposals. -/
def inNamespace (branch : PyText) : Prop :=
  pyText "skillmind/" <+: branch ∧ matchesRef 110 (branch.drop 10) = true

instance (branch : PyText) : Decidable (inNamespace branch) := inferInstanceAs (Decidable (_ ∧ _))

/-- A character that `_valid_file_path` refuses. -/
def isForbidden (point : CodePoint) : Bool :=
  point.value < 32 || point.value == 127 || point ∈ pyText "\\:*?[]"

def validFilePath (tables : TextTables) (path : PyText) : Prop :=
  path ≠ [] ∧ path.length ≤ 4001 ∧ (∀ c ∈ path, isForbidden c = false) ∧
    ∀ part ∈ pathParts path, part ≠ [] ∧ part ∉ [pyText ".", pyText ".."] ∧
      ¬ pyText "-" <+: part ∧ ¬ isMetadata tables part

instance (tables : TextTables) (path : PyText) : Decidable (validFilePath tables path) :=
  inferInstanceAs (Decidable (_ ∧ _))

inductive ChangeAction where
  | set
  | remove
  | other

/-- `change["value"]`: absent or null, a text, or something else. -/
inductive ChangeValue where
  | absent
  | text (value : PyText)
  | other

/-- A change; its path is `none` when it is no text. -/
structure RepositoryChange where
  path : Option PyText
  action : ChangeAction
  value : ChangeValue

/-- What the policy reads of a draft; a member is `none` when it is absent or no text. -/
structure RepositoryDraft where
  capabilityVersion : String
  operation : String
  locator : Option PyText
  revision : Option PyText
  changes : List RepositoryChange
  summary : String

/-- What it reads of the configuration of the Integration. -/
structure RepositoryConfig where
  writeMode : Option String
  defaultRevision : Option PyText
  writeBranchPrefix : Option PyText

/-- The files of a proposal, in the order of their changes; a removed file has no content. -/
abbrev FileTable := List (PyText × Option PyText)

structure RepositoryPayload where
  targetBranch : PyText
  baseRevision : PyText
  commitMessage : String
  files : FileTable
  deriving DecidableEq

def maxChangedFiles : Nat := 50
def maxChangedFileBytes : Nat := 1048576
def maxTotalBytes : Nat := 4194304

def filesPrefix : PyText := pyText "/files/"

/-- The parts of `PurePosixPath(path)`, with the root. -/
def posixParts (path : PyText) : Bool × List PyText :=
  (path.head? == some slash, (pathParts path).filter fun part => part ∉ [[], pyText "."])

def pathWithinScope (path : PyText) (scope : List PyText) : Prop :=
  path ≠ [] ∧ path.head? ≠ some slash ∧ (∀ c ∈ path, c ∉ pyText "\\") ∧
    pyText ".." ∉ (posixParts path).2 ∧
    ∃ allowed ∈ scope, (posixParts allowed).1 = false ∧
      (posixParts allowed).2 <+: (posixParts path).2

instance (path : PyText) (scope : List PyText) : Decidable (pathWithinScope path scope) :=
  inferInstanceAs (Decidable (_ ∧ _))

/-- A failed check, with the message of `ChangeProposalValidationError`. -/
abbrev Checked := Except String

def checkTarget (draft : RepositoryDraft) (config : RepositoryConfig) : Checked PyText :=
  match draft.locator with
  | none => .error "Repository target branch is invalid"
  | some branch =>
    if matchesRef 127 branch = false then .error "Repository target branch is invalid"
    else if config.writeMode.getD "direct" = "direct" ∧ some branch ≠ config.defaultRevision then
      .error "Direct write target must be the Integration default branch"
    else if config.writeMode.getD "direct" ≠ "direct" ∧ ¬ inNamespace branch then
      .error "Repository target branch must live under the skillmind/ namespace"
    else if ∃ narrowed ∈ config.writeBranchPrefix, ¬ narrowed <+: branch then
      .error "Repository target branch is outside the Integration write prefix"
    else .ok branch

/-- The path of a change below `/files/`. -/
def changePath (tables : TextTables) (files : FileTable) (change : RepositoryChange) :
    Checked PyText :=
  match change.path with
  | none => .error "Repository change path must stay under /files"
  | some path =>
    if ¬ filesPrefix <+: path then .error "Repository change path must stay under /files"
    else if ¬ validFilePath tables (path.drop filesPrefix.length) ∨
        path.drop filesPrefix.length ∈ files.map Prod.fst then
      .error "Repository change path is invalid"
    else .ok (path.drop filesPrefix.length)

/-- `len(value.encode("utf-8"))`; a surrogate raises. -/
def encodedLength (value : PyText) : Checked Nat :=
  match encodeUtf8 value with
  | none => .error "surrogates not allowed"
  | some data => .ok data.size

/-- The loop over the changes, with the files and the bytes so far. -/
def checkChanges (tables : TextTables) :
    List RepositoryChange → FileTable → Nat → Checked (FileTable × Nat)
  | [], files, total => .ok (files, total)
  | change :: changes, files, total => do
    let path ← changePath tables files change
    match change.action, change.value with
    | .remove, .absent => checkChanges tables changes (files ++ [(path, none)]) total
    | .remove, _ => .error "Repository REMOVE must not carry content"
    | .other, _ => .error "repository.write/v1 only permits idempotent SET or REMOVE"
    | .set, .text value => do
      let length ← encodedLength value
      if maxChangedFileBytes < length then
        .error "Repository change exceeds the per-file limit"
      else checkChanges tables changes (files ++ [(path, some value)]) (total + length)
    | .set, _ => .error "Repository SET requires UTF-8 text content"

def validateRepositoryWriteProposal (tables : TextTables) (draft : RepositoryDraft)
    (scope : List PyText) (config : RepositoryConfig) : Checked RepositoryPayload := do
  if draft.capabilityVersion ≠ "repository.write/v1" then
    .error "Effect capability is not repository.write/v1"
  else if draft.operation ≠ "commit" then
    .error "Repository write requires the commit operation"
  else
    let branch ← checkTarget draft config
    match draft.revision with
    | none => .error "Repository change requires a frozen base revision"
    | some revision =>
      if revision = [] then .error "Repository change requires a frozen base revision"
      else
        let files ← checkChanges tables draft.changes [] 0
        if files.1 = [] then .error "Repository change set is empty"
        else if maxChangedFiles < files.1.length ∨ maxTotalBytes < files.2 then
          .error "Repository change set exceeds the size limit"
        else if scope = [] ∨ ∃ file ∈ files.1, ¬ pathWithinScope file.1 scope then
          .error "Repository change exceeds the frozen binding scope"
        else .ok ⟨branch, revision, draft.summary, files.1⟩

def maxRepositoryPathLength : Nat := 4096

def validateRevision (revision : PyText) : Prop := matchesRef 127 revision = true

def validateBranch (branch : PyText) : Prop :=
  matchesRef 127 branch = true ∧ ¬ pyText ".." <:+: branch ∧ ¬ pyText ".lock" <:+ branch

def validateRepositoryPath (tables : TextTables) (path : PyText) : Prop :=
  path ≠ [] ∧ path.length ≤ maxRepositoryPathLength ∧ (∀ c ∈ path, c ∉ pyText "\\") ∧
    ∀ part ∈ pathParts path, part ≠ [] ∧ part ∉ [pyText ".", pyText ".."] ∧
      (∀ c ∈ part, tables.isprintable c = true) ∧ ¬ isMetadata tables part

/-- `files[path] = content`. -/
def putFile (files : FileTable) (path : PyText) (content : Option PyText) : FileTable :=
  if path ∈ files.map Prod.fst then
    files.map fun file => if file.1 = path then (path, content) else file
  else files ++ [(path, content)]

/-- `_desired_files`: the files of the frozen changes of an execution. -/
def desiredFiles : List RepositoryChange → FileTable → Option FileTable
  | [], files => if files = [] then none else some files
  | change :: changes, files =>
    match change.path with
    | none => none
    | some path =>
      if ¬ filesPrefix <+: path then none
      else
        match change.action, change.value with
        | .remove, _ => desiredFiles changes (putFile files (path.drop filesPrefix.length) none)
        | .set, .text value =>
          desiredFiles changes (putFile files (path.drop filesPrefix.length) (some value))
        | _, _ => none

/-- The checks of the execution accept everything a payload names, and its paths fit one tree. -/
structure RepositoryPayload.Executable (tables : TextTables) (payload : RepositoryPayload) :
    Prop where
  branch : validateBranch payload.targetBranch
  revision : validateRevision payload.baseRevision
  paths : ∀ file ∈ payload.files, validateRepositoryPath tables file.1
  distinct : (payload.files.map Prod.fst).Nodup
  /-- No path is a directory of another. -/
  tree : ∀ file ∈ payload.files, ∀ other ∈ payload.files, file.1 ≠ other.1 →
    ¬ pathParts file.1 <+: pathParts other.1

/-- What the policy leaves to the execution. -/
structure RepositoryDraft.Unhindered (tables : TextTables) (draft : RepositoryDraft) : Prop where
  branch : ∀ branch ∈ draft.locator, ¬ pyText ".." <:+: branch ∧ ¬ pyText ".lock" <:+ branch
  revision : ∀ revision ∈ draft.revision, matchesRef 127 revision = true
  printable : ∀ change ∈ draft.changes, ∀ path ∈ change.path,
    ∀ c ∈ path.drop filesPrefix.length, c ≠ slash → tables.isprintable c = true
  apart : ∀ change ∈ draft.changes, ∀ other ∈ draft.changes, ∀ path ∈ change.path,
    ∀ path' ∈ other.path, ¬ path ++ [slash] <+: path'

theorem pathParts_injective {path other : PyText} (same : pathParts path = pathParts other) :
    path = other := by
  have joined (text : PyText) : [slash].intercalate (pathParts text) = text :=
    List.intercalate_splitOn slash
  rw [← joined path, ← joined other, same]

theorem pathParts_append (path rest : PyText) :
    pathParts (path ++ slash :: rest) = pathParts path ++ pathParts rest := by
  exact List.splitOn_append_cons_self path rest

theorem slash_not_mem {path part : PyText} (mem : part ∈ pathParts path) : slash ∉ part := by
  rw [pathParts] at mem
  induction path generalizing part with
  | nil =>
    rw [List.splitOn_nil] at mem
    rw [List.mem_singleton.mp mem]
    exact List.not_mem_nil
  | cons c path ih =>
    rw [List.splitOn_cons_eq_if_modifyHead] at mem
    split_ifs at mem with separates
    · rcases List.mem_cons.mp mem with rfl | later
      · exact List.not_mem_nil
      · exact ih later
    · obtain ⟨first, rest, split⟩ := List.exists_cons_of_ne_nil (List.splitOn_ne_nil slash path)
      rw [split, List.modifyHead_cons] at mem
      rcases List.mem_cons.mp mem with rfl | later
      · have tail := ih (split ▸ List.mem_cons_self)
        rw [List.mem_cons, not_or]
        exact ⟨fun same => separates (beq_iff_eq.mpr same.symm), tail⟩
      · exact ih (split ▸ List.mem_cons_of_mem _ later)

theorem intercalate_append {parts more : List PyText} (some : parts ≠ []) (some' : more ≠ []) :
    [slash].intercalate (parts ++ more) =
      [slash].intercalate parts ++ slash :: [slash].intercalate more := by
  induction parts with
  | nil => exact absurd rfl some
  | cons part parts ih =>
    cases parts with
    | nil =>
      rw [List.singleton_append, List.intercalate_cons_of_ne_nil some', List.intercalate_singleton]
      simp
    | cons next parts =>
      rw [List.cons_append, List.cons_append, List.intercalate_cons_cons, ← List.cons_append,
        ih (List.cons_ne_nil _ _), List.intercalate_cons_cons]
      simp

theorem pathParts_prefix_iff {path other : PyText} (differ : path ≠ other) :
    pathParts path <+: pathParts other ↔ path ++ [slash] <+: other := by
  constructor
  · rintro ⟨more, same⟩
    have some' : more ≠ [] := by
      rintro rfl
      rw [List.append_nil] at same
      exact differ (pathParts_injective same)
    have joined := congrArg [slash].intercalate same
    have nonempty : pathParts path ≠ [] := List.splitOn_ne_nil _ _
    rw [intercalate_append nonempty some', pathParts, pathParts, List.intercalate_splitOn,
      List.intercalate_splitOn] at joined
    exact ⟨[slash].intercalate more, by rw [← joined]; simp⟩
  · rintro ⟨rest, rfl⟩
    rw [List.append_assoc, List.singleton_append, pathParts_append]
    exact List.prefix_append _ _

theorem mem_pathParts {path : PyText} {c : CodePoint} (differ : c ≠ slash) :
    (∃ part ∈ pathParts path, c ∈ part) ↔ c ∈ path := by
  have joined : ∀ parts : List PyText,
      (∃ part ∈ parts, c ∈ part) ↔ c ∈ [slash].intercalate parts := by
    intro parts
    induction parts with
    | nil =>
      rw [List.intercalate_nil]
      simp
    | cons part parts ih =>
      cases parts with
      | nil =>
        rw [List.intercalate_singleton]
        simp
      | cons next parts =>
        rw [List.intercalate_cons_cons, List.mem_append, List.mem_append, ← ih]
        simp [differ]
  rw [joined, pathParts, List.intercalate_splitOn]

/-! ## What an accepted proposal has -/

variable {tables : TextTables}

/-- A change and the file made of it. -/
def Describes (tables : TextTables) (change : RepositoryChange)
    (file : PyText × Option PyText) : Prop :=
  change.path = some (filesPrefix ++ file.1) ∧ validFilePath tables file.1 ∧
    (change.action = .remove ∧ file.2 = none ∨
      change.action = .set ∧ ∃ value, change.value = .text value ∧ file.2 = some value)

theorem changePath_eq_ok {files : FileTable} {change : RepositoryChange} {path : PyText}
    (checked : changePath tables files change = .ok path) :
    change.path = some (filesPrefix ++ path) ∧ validFilePath tables path ∧
      path ∉ files.map Prod.fst := by
  rw [changePath] at checked
  split at checked
  · cases checked
  · rename_i full given
    split_ifs at checked with outside wrong
    obtain rfl := Except.ok.inj checked
    rw [not_or, not_not] at wrong
    obtain ⟨rest, same⟩ := outside
    refine ⟨?_, wrong.1, wrong.2⟩
    rw [given, ← same, List.drop_left]

theorem checkChanges_eq_ok {changes : List RepositoryChange} {files : FileTable} {total : Nat}
    {checked : FileTable × Nat} (accepted : checkChanges tables changes files total = .ok checked)
    (distinct : (files.map Prod.fst).Nodup) :
    ∃ added, checked.1 = files ++ added ∧ List.Forall₂ (Describes tables) changes added ∧
      (checked.1.map Prod.fst).Nodup := by
  induction changes generalizing files total with
  | nil =>
    cases accepted
    exact ⟨[], (List.append_nil files).symm, List.Forall₂.nil, distinct⟩
  | cons change changes ih =>
    rw [checkChanges] at accepted
    obtain ⟨path, named, accepted⟩ := bind_eq_ok.mp accepted
    obtain ⟨given, valid, fresh⟩ := changePath_eq_ok named
    have distinct' : ∀ content : Option PyText,
        ((files ++ [(path, content)]).map Prod.fst).Nodup := by
      intro content
      rw [List.map_append]
      refine List.nodup_append.mpr ⟨distinct, List.nodup_singleton path, ?_⟩
      rintro known mem other new rfl
      have same : known = path := List.mem_singleton.mp new
      exact fresh (same ▸ mem)
    have added : ∀ (content : Option PyText) (total' : Nat),
        checkChanges tables changes (files ++ [(path, content)]) total' = .ok checked →
        Describes tables change (path, content) →
        ∃ added, checked.1 = files ++ added ∧
          List.Forall₂ (Describes tables) (change :: changes) added ∧
          (checked.1.map Prod.fst).Nodup := by
      intro content total' rest describes
      obtain ⟨added, same, all, nodup⟩ := ih rest (distinct' content)
      refine ⟨(path, content) :: added, ?_, List.Forall₂.cons describes all, nodup⟩
      rw [same, List.append_assoc, List.singleton_append]
    split at accepted
    · rename_i removes _
      exact added none total accepted ⟨given, valid, Or.inl ⟨removes, rfl⟩⟩
    · cases accepted
    · cases accepted
    · rename_i value sets carries
      obtain ⟨length, -, accepted⟩ := bind_eq_ok.mp accepted
      split_ifs at accepted
      exact added (some value) _ accepted
        ⟨given, valid, Or.inr ⟨sets, value, carries, rfl⟩⟩
    · cases accepted

theorem checkTarget_eq_ok {draft : RepositoryDraft} {config : RepositoryConfig} {branch : PyText}
    (checked : checkTarget draft config = .ok branch) :
    draft.locator = some branch ∧ matchesRef 127 branch = true := by
  rw [checkTarget] at checked
  split at checked
  · cases checked
  · rename_i target given
    split_ifs at checked with mismatch
    obtain rfl := Except.ok.inj checked
    exact ⟨given, by simpa using mismatch⟩

theorem validateRepositoryWriteProposal_eq_ok {draft : RepositoryDraft} {scope : List PyText}
    {config : RepositoryConfig} {payload : RepositoryPayload}
    (accepted : validateRepositoryWriteProposal tables draft scope config = .ok payload) :
    draft.locator = some payload.targetBranch ∧ matchesRef 127 payload.targetBranch = true ∧
      draft.revision = some payload.baseRevision ∧ payload.files ≠ [] ∧
      List.Forall₂ (Describes tables) draft.changes payload.files ∧
      (payload.files.map Prod.fst).Nodup := by
  rw [validateRepositoryWriteProposal] at accepted
  split_ifs at accepted
  obtain ⟨branch, target, accepted⟩ := bind_eq_ok.mp accepted
  obtain ⟨given, matched⟩ := checkTarget_eq_ok target
  split at accepted
  · cases accepted
  · rename_i revision based
    split_ifs at accepted
    obtain ⟨files, changed, accepted⟩ := bind_eq_ok.mp accepted
    split_ifs at accepted with nothing large outside
    obtain rfl := Except.ok.inj accepted
    obtain ⟨added, same, all, distinct⟩ := checkChanges_eq_ok changed List.nodup_nil
    rw [List.nil_append] at same
    exact ⟨given, matched, based, nothing, same ▸ all, distinct⟩

theorem desiredFiles_of_describes {changes : List RepositoryChange} {files added : FileTable}
    (all : List.Forall₂ (Describes tables) changes added) (some : files ++ added ≠ [])
    (distinct : ((files ++ added).map Prod.fst).Nodup) :
    desiredFiles changes files = Option.some (files ++ added) := by
  induction all generalizing files with
  | nil =>
    rw [List.append_nil] at some ⊢
    rw [desiredFiles, if_neg some]
  | cons describes rest ih =>
    rename_i change file changes added
    obtain ⟨given, -, content⟩ := describes
    have parts : files ++ file :: added = (files ++ [file]) ++ added := by simp
    have more : (files ++ [file]) ++ added ≠ [] := by simp
    have fresh : file.1 ∉ files.map Prod.fst := by
      rw [List.map_append, List.nodup_append] at distinct
      exact fun mem => distinct.2.2 _ mem _ (by simp) rfl
    have put : putFile files file.1 file.2 = files ++ [file] := by rw [putFile, if_neg fresh]
    have name : (filesPrefix ++ file.1).drop filesPrefix.length = file.1 := List.drop_left
    rw [parts] at distinct ⊢
    have next : desiredFiles changes (putFile files file.1 file.2) =
        Option.some ((files ++ [file]) ++ added) := by
      rw [put]
      exact ih more distinct
    rw [desiredFiles, given]
    dsimp only
    rw [if_neg (not_not.mpr (List.prefix_append _ _)), name]
    rcases content with ⟨removes, gone⟩ | ⟨sets, value, carries, kept⟩
    · rw [gone] at next
      rw [removes]
      exact next
    · rw [kept] at next
      rw [sets, carries]
      exact next

theorem validFilePath.executable_iff {path : PyText} (valid : validFilePath tables path) :
    validateRepositoryPath tables path ↔
      ∀ c ∈ path, c ≠ slash → tables.isprintable c = true := by
  obtain ⟨some, short, allowed, parts⟩ := valid
  constructor
  · rintro ⟨-, -, -, parts'⟩ c mem differ
    obtain ⟨part, mem', inside⟩ := (mem_pathParts differ).mpr mem
    exact (parts' part mem').2.2.1 c inside
  · intro printable
    have long : path.length ≤ maxRepositoryPathLength := Nat.le_trans short (by decide)
    refine ⟨some, long, fun c mem backslash => ?_, fun part mem => ?_⟩
    · have forbidden : isForbidden c = true := by
        have listed : c ∈ pyText "\\:*?[]" := by
          obtain rfl : c = .ofChar '\\' := List.mem_singleton.mp backslash
          decide
        rw [isForbidden, decide_eq_true listed, Bool.or_true]
      rw [allowed c mem] at forbidden
      cases forbidden
    · obtain ⟨nonempty, named, -, plain⟩ := parts part mem
      refine ⟨nonempty, named, fun c inside => ?_, plain⟩
      have differ : c ≠ slash := by
        rintro rfl
        exact slash_not_mem mem inside
      exact printable c ((mem_pathParts differ).mp ⟨part, mem, inside⟩) differ

/-- **An accepted proposal writes the paths that were approved, and it can be executed exactly
when what the policy leaves to the execution does not hinder it.** -/
theorem accepted_proposal_executable {draft : RepositoryDraft} {scope : List PyText}
    {config : RepositoryConfig} {payload : RepositoryPayload}
    (accepted : validateRepositoryWriteProposal tables draft scope config = .ok payload) :
    List.Forall₂ (fun change file => change.path = some (filesPrefix ++ file.1))
        draft.changes payload.files ∧
      desiredFiles draft.changes [] = some payload.files ∧
      (payload.Executable tables ↔ draft.Unhindered tables) := by
  obtain ⟨located, matched, based, some, all, distinct⟩ :=
    validateRepositoryWriteProposal_eq_ok accepted
  refine ⟨all.imp fun change file describes => describes.1, ?_, ?_⟩
  · have files := @desiredFiles_of_describes tables _ [] _ all some distinct
    rwa [List.nil_append] at files
  have name : ∀ path : PyText, (filesPrefix ++ path).drop filesPrefix.length = path :=
    fun path => List.drop_left
  have directory : ∀ path other : PyText,
      filesPrefix ++ path ++ [slash] <+: filesPrefix ++ other ↔ path ++ [slash] <+: other := by
    intro path other
    rw [List.append_assoc]
    exact List.prefix_append_right_inj filesPrefix
  constructor
  · intro executable
    constructor
    · intro branch mem
      obtain rfl : payload.targetBranch = branch := Option.some.inj (located.symm.trans mem)
      exact executable.branch.2
    · intro revision mem
      obtain rfl : payload.baseRevision = revision := Option.some.inj (based.symm.trans mem)
      exact executable.revision
    · intro change mem path given
      obtain ⟨file, mem', describes⟩ := forall₂_mem_right all.flip change mem
      obtain rfl : filesPrefix ++ file.1 = path :=
        Option.some.inj (describes.1.symm.trans given)
      rw [name]
      exact describes.2.1.executable_iff.mp (executable.paths file mem')
    · intro change mem other mem' path given path' given' within
      obtain ⟨file, known, describes⟩ := forall₂_mem_right all.flip change mem
      obtain ⟨file', known', describes'⟩ := forall₂_mem_right all.flip other mem'
      obtain rfl : filesPrefix ++ file.1 = path :=
        Option.some.inj (describes.1.symm.trans given)
      obtain rfl : filesPrefix ++ file'.1 = path' :=
        Option.some.inj (describes'.1.symm.trans given')
      have within' := (directory _ _).mp within
      have differ : file.1 ≠ file'.1 := by
        intro same
        have longer := within'.length_le
        rw [same, List.length_append, List.length_singleton] at longer
        omega
      exact executable.tree file known file' known' differ
        ((pathParts_prefix_iff differ).mpr within')
  · intro unhindered
    refine ⟨⟨matched, unhindered.branch _ located⟩, unhindered.revision _ based, ?_, distinct, ?_⟩
    · intro file mem
      obtain ⟨change, mem', describes⟩ := forall₂_mem_right all file mem
      have printable := unhindered.printable change mem' _ describes.1
      rw [name] at printable
      exact describes.2.1.executable_iff.mpr printable
    · intro file mem other mem' differ begins
      obtain ⟨change, known, describes⟩ := forall₂_mem_right all file mem
      obtain ⟨change', known', describes'⟩ := forall₂_mem_right all other mem'
      refine unhindered.apart change known change' known' _ describes.1 _ describes'.1 ?_
      exact (directory _ _).mpr ((pathParts_prefix_iff differ).mp begins)

def asciiTables : TextTables where
  isprintable := fun c => 0x20 ≤ c.value && c.value ≤ 0x7e
  casefold := fun c =>
    match c.toChar? with
    | some char => [.ofChar char.toLower]
    | none => [c]

def twoFiles (branch revision first second : String) : RepositoryDraft where
  capabilityVersion := "repository.write/v1"
  operation := "commit"
  locator := some (pyText branch)
  revision := some (pyText revision)
  changes :=
    [⟨some (filesPrefix ++ pyText first), .set, .text (pyText "x")⟩,
      ⟨some (filesPrefix ++ pyText second), .set, .text (pyText "y")⟩]
  summary := "Two files"

def branchConfig : RepositoryConfig := ⟨some "branch", some (pyText "main"), none⟩

/-- A proposal whose branch, base revision and paths the execution all refuses is accepted. -/
theorem accepted_proposal_refused :
    ∃ payload, validateRepositoryWriteProposal asciiTables
        (twoFiles "skillmind/a..b" "-x" "docs" "docs/a.md") [pyText "."] branchConfig =
          .ok payload ∧
      ¬ validateBranch payload.targetBranch ∧ ¬ validateRevision payload.baseRevision ∧
      ¬ payload.Executable asciiTables := by
  refine ⟨⟨pyText "skillmind/a..b", pyText "-x", "Two files",
    [(pyText "docs", some (pyText "x")), (pyText "docs/a.md", some (pyText "y"))]⟩,
    by decide +kernel, ?_, ?_, ?_⟩
  · exact fun valid => absurd valid.2.1 (by decide +kernel)
  · rw [validateRevision]
    decide +kernel
  · exact fun executable => absurd executable.revision (by rw [validateRevision]; decide +kernel)

theorem accepted_proposal_executable_sample :
    ∃ payload, validateRepositoryWriteProposal asciiTables
        (twoFiles "skillmind/fix" "abc123" "docs/a.md" "docs/b.md") [pyText "."] branchConfig =
          .ok payload ∧
      List.Forall₂ (fun change file => change.path = some (filesPrefix ++ file.1))
        (twoFiles "skillmind/fix" "abc123" "docs/a.md" "docs/b.md").changes payload.files ∧
      desiredFiles (twoFiles "skillmind/fix" "abc123" "docs/a.md" "docs/b.md").changes [] =
        some payload.files ∧
      (payload.Executable asciiTables ↔
        (twoFiles "skillmind/fix" "abc123" "docs/a.md" "docs/b.md").Unhindered asciiTables) := by
  have accepted : validateRepositoryWriteProposal asciiTables
      (twoFiles "skillmind/fix" "abc123" "docs/a.md" "docs/b.md") [pyText "."] branchConfig =
        .ok ⟨pyText "skillmind/fix", pyText "abc123", "Two files",
          [(pyText "docs/a.md", some (pyText "x")), (pyText "docs/b.md", some (pyText "y"))]⟩ := by
    decide +kernel
  exact ⟨_, accepted, accepted_proposal_executable accepted⟩

end SkillMind.Effects
