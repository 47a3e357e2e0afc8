import SkillMind.Core.JsonText
import SkillMind.Effects.Continuation

/-!
# The contract of an evaluation

A reader of a Result may leave evaluations of it: a rating, a verdict, a comment and proposals
for single fields of the Result.  A command is checked before anything is read, its content is
bound to its author, its Result and its submission key by a hash, and the original value of
each proposed field is looked up in the Result.

A value that is no finite JSON value is no `wellFormed` one, so the strict check of types is
that predicate.
-/

namespace SkillMind.Evaluations

open Library SkillMind.Core
open Runs (Uuid Timestamp)
open Effects (uuidText)

inductive ErrorClass where
  | evaluationResultNotFoundError
  | invalidEvaluationRevisionError
  | invalidEvaluationCommandError
  | evaluationResultMismatchError
  | evaluationSubmissionConflictError
  | evaluationSubmissionNotFoundError
  | invalidEvaluationCursorError
  | evaluationIntegrityError
  | runNotFoundError
  | valueError
  | databaseError

structure Fault where
  error : ErrorClass
  message : String

/-! ## Commands and stored evaluations -/

inductive EvaluationVerdict where
  | accurate
  | partiallyAccurate
  | inaccurate
  | uncertain

def EvaluationVerdict.value : EvaluationVerdict → String
  | .accurate => "accurate"
  | .partiallyAccurate => "partially_accurate"
  | .inaccurate => "inaccurate"
  | .uncertain => "uncertain"

def evaluationVerdict (value : String) : Except Fault EvaluationVerdict :=
  orFault ⟨.valueError, "is not a valid EvaluationVerdict"⟩
    ([.accurate, .partiallyAccurate, .inaccurate, .uncertain].find? fun verdict =>
      verdict.value == value)

@[simp] theorem evaluationVerdict_value (verdict : EvaluationVerdict) :
    evaluationVerdict verdict.value = .ok verdict := by
  cases verdict <;> rfl

structure EvaluationRevisionProposal where
  pointer : String
  suggestedValue : Json
  reason : String

structure StoredEvaluationRevision where
  pointer : String
  originalValue : Json
  suggestedValue : Json
  reason : String

structure CreateEvaluationCommand where
  projectId : Uuid
  runId : Uuid
  userId : Uuid
  rating : Int
  verdict : EvaluationVerdict
  comment : String
  revisions : List EvaluationRevisionProposal

structure StoredEvaluation where
  evaluationId : Uuid
  resultId : Uuid
  runId : Uuid
  userId : Uuid
  rating : Int
  verdict : EvaluationVerdict
  comment : String
  revisions : List StoredEvaluationRevision
  createdAt : Timestamp

structure StoredEvaluationSubmission where
  projectId : Uuid
  runId : Uuid
  submissionKey : Uuid
  evaluation : StoredEvaluation
  idempotentReplay : Bool

structure StoredEvaluationPage where
  projectId : Uuid
  runId : Uuid
  resultId : Uuid
  items : List StoredEvaluation
  nextCursor : Option Uuid

def requireEvaluationUuid (value : Uuid) : Except Fault Unit :=
  require (value ≠ 0)
    ⟨.invalidEvaluationCommandError, "Evaluation identity must be a non-nil UUID"⟩

def strictEvaluationJson (value : Json) : Except Fault String := do
  require (value.wellFormed = true)
    ⟨.invalidEvaluationCommandError, "Evaluation requires finite UTF-8 JSON values"⟩
  return canonicalJson value

/-- The loop over the revisions of a command, with the pointers it has seen. -/
def validateRevisions : List String → List EvaluationRevisionProposal → Except Fault Unit
  | _, [] => return ()
  | pointers, revision :: rest => do
    require (1 ≤ revision.pointer.length ∧ revision.pointer.length ≤ 512 ∧
        revision.pointer.toList.head? = some '/')
      ⟨.invalidEvaluationRevisionError, "Revision pointer is invalid"⟩
    require (revision.pointer ∉ pointers)
      ⟨.invalidEvaluationRevisionError, "Revision pointers must be unique"⟩
    require (1 ≤ revision.reason.length ∧ revision.reason.length ≤ 1000)
      ⟨.invalidEvaluationCommandError, "Evaluation revision reason is invalid"⟩
    validateRevisions (revision.pointer :: pointers) rest

/-- The values that are checked together once the loop is done. -/
def commandValues (command : CreateEvaluationCommand) : List Json :=
  .string command.comment :: command.revisions.flatMap fun revision =>
    [.string revision.pointer, .string revision.reason, revision.suggestedValue]

def validateEvaluationCommand (command : CreateEvaluationCommand) : Except Fault Unit := do
  requireEvaluationUuid command.projectId
  requireEvaluationUuid command.runId
  requireEvaluationUuid command.userId
  require (1 ≤ command.rating ∧ command.rating ≤ 5)
    ⟨.invalidEvaluationCommandError, "Evaluation rating must be between 1 and 5"⟩
  require (command.comment.length ≤ 4000)
    ⟨.invalidEvaluationCommandError, "Evaluation comment is invalid"⟩
  require (command.revisions.length ≤ 100)
    ⟨.invalidEvaluationCommandError, "Evaluation revisions are invalid"⟩
  validateRevisions [] command.revisions
  let _ ← strictEvaluationJson (.array (commandValues command))
  return ()

/-! ## The hash of a submission -/

def EvaluationRevisionProposal.json (revision : EvaluationRevisionProposal) : Json :=
  .object
    [ ("pointer", .string revision.pointer)
    , ("suggested_value", revision.suggestedValue)
    , ("reason", .string revision.reason) ]

def submissionFields (command : CreateEvaluationCommand) (resultId submissionKey : Uuid) :
    List (String × Json) :=
  [ ("version", .string "skillmind.evaluation-submission/v1")
  , ("submission_key", .string (uuidText submissionKey))
  , ("project_id", .string (uuidText command.projectId))
  , ("run_id", .string (uuidText command.runId))
  , ("result_id", .string (uuidText resultId))
  , ("user_id", .string (uuidText command.userId))
  , ("rating", .number (toString command.rating))
  , ("verdict", .string command.verdict.value)
  , ("comment", .string command.comment)
  , ("revisions", .array (command.revisions.map EvaluationRevisionProposal.json)) ]

def submissionContent (command : CreateEvaluationCommand) (resultId submissionKey : Uuid) : Json :=
  .object (submissionFields command resultId submissionKey)

def submissionKeys : List String :=
  ["version", "submission_key", "project_id", "run_id", "result_id", "user_id", "rating",
    "verdict", "comment", "revisions"]

theorem submissionFields_keys (command : CreateEvaluationCommand)
    (resultId submissionKey : Uuid) :
    (submissionFields command resultId submissionKey).map Prod.fst = submissionKeys := by
  simp [submissionFields, submissionKeys]

theorem submissionKeys_nodup : submissionKeys.Nodup := by decide

def evaluationRequestHash (library : StandardLibrary) (command : CreateEvaluationCommand)
    (resultId submissionKey : Uuid) : Except Fault String := do
  validateEvaluationCommand command
  requireEvaluationUuid resultId
  requireEvaluationUuid submissionKey
  let text ← strictEvaluationJson (submissionContent command resultId submissionKey)
  return taggedSha256 library text

def decodePointerToken : List Char → Except Fault (List Char)
  | [] => return []
  | '~' :: '0' :: rest => do return '~' :: (← decodePointerToken rest)
  | '~' :: '1' :: rest => do return '/' :: (← decodePointerToken rest)
  | '~' :: _ =>
    throw ⟨.invalidEvaluationRevisionError, "Revision pointer contains an invalid escape"⟩
  | c :: rest => do return c :: (← decodePointerToken rest)

/-- `int` of a text of ASCII digits. -/
def decimal (digits : List Char) : Nat :=
  digits.foldl (fun number digit => number * 10 + (digit.toNat - 0x30)) 0

def resolveToken (pointer : String) (token : List Char) : Json → Except Fault Json
  | .object fields =>
    orFault ⟨.invalidEvaluationRevisionError, "Revision pointer does not exist: " ++ pointer⟩
      ((fields.find? fun field => decide (field.1 = String.ofList token)).map Prod.snd)
  | .array items => do
    require (token.all Char.isDigit = true ∧ token ≠ [] ∧
        ¬ (1 < token.length ∧ token.head? = some '0'))
      ⟨.invalidEvaluationRevisionError, "Revision array index is invalid: " ++ pointer⟩
    require (token.length ≤ (toString items.length).length)
      ⟨.invalidEvaluationRevisionError, "Revision array index is invalid"⟩
    orFault ⟨.invalidEvaluationRevisionError, "Revision pointer does not exist: " ++ pointer⟩
      items[decimal token]?
  | _ =>
    throw ⟨.invalidEvaluationRevisionError, "Revision pointer traverses a scalar: " ++ pointer⟩

def resolveTokens (pointer : String) : List (List Char) → Json → Except Fault Json
  | [], current => return current
  | raw :: rest, current => do
    let token ← decodePointerToken raw
    let below ← resolveToken pointer token current
    resolveTokens pointer rest below

def resolveJsonPointer (document : Json) (pointer : String) : Except Fault Json :=
  match pointer.toList with
  | '/' :: path => resolveTokens pointer (path.splitOn '/') document
  | _ => throw ⟨.invalidEvaluationRevisionError, "Revision pointer must start with '/'"⟩

theorem wellFormed_resolveToken {pointer : String} {token : List Char} {current below : Json}
    (formed : current.wellFormed = true) (found : resolveToken pointer token current = .ok below) :
    below.wellFormed = true := by
  cases current with
  | object fields =>
    simp only [resolveToken, orFault_eq_ok, Option.map_eq_some_iff] at found
    obtain ⟨field, member, rfl⟩ := found
    simp only [Json.wellFormed, Bool.and_eq_true] at formed
    exact membersWellFormed_iff.mp formed.2 field (List.mem_of_find?_eq_some member)
  | array items =>
    simp only [resolveToken, bind_eq_ok, orFault_eq_ok] at found
    obtain ⟨_, _, _, _, item⟩ := found
    exact itemsWellFormed_iff.mp formed below (List.mem_of_getElem? item)
  | null => cases found
  | bool value => cases found
  | number literal => cases found
  | string text => cases found

theorem wellFormed_resolve {document original : Json} {pointer : String}
    (formed : document.wellFormed = true)
    (found : resolveJsonPointer document pointer = .ok original) :
    original.wellFormed = true := by
  have walk (tokens : List (List Char)) (current : Json) (formed : current.wellFormed = true)
      (found : resolveTokens pointer tokens current = .ok original) :
      original.wellFormed = true := by
    induction tokens generalizing current with
    | nil =>
      rw [resolveTokens, pure_eq_ok] at found
      exact found ▸ formed
    | cons raw rest ih =>
      simp only [resolveTokens, bind_eq_ok] at found
      obtain ⟨token, _, below, step, later⟩ := found
      exact ih below (wellFormed_resolveToken formed step) later
  unfold resolveJsonPointer at found
  split at found
  · exact walk _ document formed found
  · cases found

@[simp] theorem strictEvaluationJson_eq_ok {value : Json} {text : String} :
    strictEvaluationJson value = .ok text ↔
      value.wellFormed = true ∧ canonicalJson value = text := by
  simp only [strictEvaluationJson, bind_eq_ok, require_eq_ok, exists_unit, pure_eq_ok]

theorem validateEvaluationCommand_ok {command : CreateEvaluationCommand}
    (valid : validateEvaluationCommand command = .ok ()) :
    (1 ≤ command.rating ∧ command.rating ≤ 5) ∧
      ∀ revision ∈ command.revisions, revision.suggestedValue.wellFormed = true := by
  simp only [validateEvaluationCommand, bind_eq_ok, require_eq_ok, exists_unit,
    strictEvaluationJson_eq_ok, pure_eq_ok] at valid
  obtain ⟨_, _, _, rating, _, _, _, _, ⟨formed, _⟩, _⟩ := valid
  refine ⟨rating, ?_⟩
  intro revision mem
  apply itemsWellFormed_iff.mp formed
  simp only [commandValues, List.mem_cons, List.mem_flatMap]
  exact .inr ⟨revision, mem, by simp⟩

/-! ## Equal content -/

def EvaluationRevisionProposal.Same (first second : EvaluationRevisionProposal) : Prop :=
  first.pointer = second.pointer ∧ first.suggestedValue.Same second.suggestedValue ∧
    first.reason = second.reason

/-- Two commands with equal content: the values may differ in the order of the members of
their objects only. -/
structure CreateEvaluationCommand.SameContent (first second : CreateEvaluationCommand) : Prop where
  rating : first.rating = second.rating
  verdict : first.verdict = second.verdict
  comment : first.comment = second.comment
  revisions : List.Forall₂ EvaluationRevisionProposal.Same first.revisions second.revisions

/-- The text of a hashed content belongs to no other content with this hash. -/
def NoCollision (library : StandardLibrary) (first second : Json) : Prop :=
  library.sha256 (canonicalJson first) = library.sha256 (canonicalJson second) →
    canonicalJson first = canonicalJson second

theorem same_proposal_json (first second : EvaluationRevisionProposal) :
    first.json.Same second.json ↔ first.Same second := by
  unfold EvaluationRevisionProposal.json
  refine (same_object_iff ?_ ?_).trans ?_
  · rfl
  · simp
  · simp [sortFields, sortMembers, EvaluationRevisionProposal.Same, Json.Same]

theorem same_proposals_json (first second : List EvaluationRevisionProposal) :
    sortItems (first.map EvaluationRevisionProposal.json) =
        sortItems (second.map EvaluationRevisionProposal.json) ↔
      List.Forall₂ EvaluationRevisionProposal.Same first second := by
  induction first generalizing second with
  | nil => cases second <;> simp [sortItems]
  | cons revision rest ih =>
    cases second with
    | nil => simp [sortItems]
    | cons revision' rest' =>
      have head := same_proposal_json revision revision'
      unfold Json.Same at head
      simp [sortItems, ih, head]

theorem rating_cases {rating : Int} (valid : 1 ≤ rating ∧ rating ≤ 5) :
    ∃ step : Fin 5, rating = (step.val : Int) + 1 :=
  ⟨⟨(rating - 1).toNat, by omega⟩, by simp only; omega⟩

theorem rating_text_injective {first second : Int} (valid : 1 ≤ first ∧ first ≤ 5)
    (valid' : 1 ≤ second ∧ second ≤ 5) (same : toString first = toString second) :
    first = second := by
  obtain ⟨step, rfl⟩ := rating_cases valid
  obtain ⟨step', rfl⟩ := rating_cases valid'
  have table : ∀ a b : Fin 5, toString ((a.val : Int) + 1) = toString ((b.val : Int) + 1) →
      a = b := by decide
  rw [table step step' same]

theorem rating_token {rating : Int} (valid : 1 ≤ rating ∧ rating ≤ 5) :
    isNumberToken (toString rating).toList = true := by
  obtain ⟨step, rfl⟩ := rating_cases valid
  have table : ∀ a : Fin 5, isNumberToken (toString ((a.val : Int) + 1)).toList = true := by
    decide
  exact table step

theorem wellFormed_submissionContent {command : CreateEvaluationCommand}
    (valid : validateEvaluationCommand command = .ok ()) (resultId submissionKey : Uuid) :
    (submissionContent command resultId submissionKey).wellFormed = true := by
  obtain ⟨rating, values⟩ := validateEvaluationCommand_ok valid
  have revisions : itemsWellFormed (command.revisions.map EvaluationRevisionProposal.json) =
      true := by
    rw [itemsWellFormed_iff]
    intro item mem
    obtain ⟨revision, source, rfl⟩ := List.mem_map.mp mem
    simp [EvaluationRevisionProposal.json, Json.wellFormed, membersWellFormed,
      values revision source]
  have token := rating_token rating
  rw [submissionContent, Json.wellFormed, submissionFields_keys]
  simp only [submissionFields, Json.wellFormed, membersWellFormed, token, revisions,
    submissionKeys_nodup, decide_true, Bool.and_true]

theorem same_submissionContent {first second : CreateEvaluationCommand}
    (rating : 1 ≤ first.rating ∧ first.rating ≤ 5)
    (rating' : 1 ≤ second.rating ∧ second.rating ≤ 5)
    (project : first.projectId = second.projectId) (run : first.runId = second.runId)
    (user : first.userId = second.userId) (resultId submissionKey : Uuid) :
    (submissionContent first resultId submissionKey).Same
        (submissionContent second resultId submissionKey) ↔ first.SameContent second := by
  have keys : (submissionFields first resultId submissionKey).map Prod.fst =
      (submissionFields second resultId submissionKey).map Prod.fst := by
    rw [submissionFields_keys, submissionFields_keys]
  have distinct : ((submissionFields first resultId submissionKey).map Prod.fst).Nodup := by
    rw [submissionFields_keys]
    exact submissionKeys_nodup
  rw [submissionContent, submissionContent, same_object_iff keys distinct]
  simp only [submissionFields, sortFields, sortMembers, project, run, user, List.cons.injEq,
    Prod.mk.injEq, Json.number.injEq, Json.string.injEq, Json.array.injEq, true_and, and_true,
    same_proposals_json]
  constructor
  · rintro ⟨ratings, verdicts, comments, revisions⟩
    refine ⟨rating_text_injective rating rating' ratings, ?_, comments, revisions⟩
    have back := congrArg evaluationVerdict verdicts
    rw [evaluationVerdict_value, evaluationVerdict_value] at back
    exact Except.ok.inj back
  · intro same
    exact ⟨by rw [same.rating], by rw [same.verdict], same.comment, same.revisions⟩

theorem digest_ext {first second : HexDigest} (same : first.digits = second.digits) :
    first = second := by
  cases first
  cases second
  cases same
  rfl

theorem taggedSha256_inj {library : StandardLibrary} {first second : String}
    (same : taggedSha256 library first = taggedSha256 library second) :
    library.sha256 first = library.sha256 second :=
  digest_ext (List.append_cancel_left (String.ofList_injective same))

theorem evaluationRequestHash_eq_ok {library : StandardLibrary}
    {command : CreateEvaluationCommand} {resultId submissionKey : Uuid} {hash : String}
    (hashed : evaluationRequestHash library command resultId submissionKey = .ok hash) :
    validateEvaluationCommand command = .ok () ∧
      hash = taggedSha256 library
        (canonicalJson (submissionContent command resultId submissionKey)) := by
  simp only [evaluationRequestHash, bind_eq_ok, exists_unit, strictEvaluationJson_eq_ok,
    pure_eq_ok] at hashed
  obtain ⟨valid, _, _, _, ⟨_, rfl⟩, rfl⟩ := hashed
  exact ⟨valid, rfl⟩

theorem evaluationRequestHash_eq_iff {library : StandardLibrary}
    {first second : CreateEvaluationCommand} {resultId submissionKey : Uuid} {hash hash' : String}
    (hashed : evaluationRequestHash library first resultId submissionKey = .ok hash)
    (hashed' : evaluationRequestHash library second resultId submissionKey = .ok hash')
    (project : first.projectId = second.projectId) (run : first.runId = second.runId)
    (user : first.userId = second.userId)
    (collisionFree : NoCollision library (submissionContent first resultId submissionKey)
      (submissionContent second resultId submissionKey)) :
    hash = hash' ↔ first.SameContent second := by
  obtain ⟨valid, rfl⟩ := evaluationRequestHash_eq_ok hashed
  obtain ⟨valid', rfl⟩ := evaluationRequestHash_eq_ok hashed'
  have texts := canonicalJson_eq_iff (wellFormed_submissionContent valid resultId submissionKey)
    (wellFormed_submissionContent valid' resultId submissionKey)
  have contents := same_submissionContent (validateEvaluationCommand_ok valid).1
    (validateEvaluationCommand_ok valid').1 project run user resultId submissionKey
  constructor
  · intro same
    exact contents.mp (texts.mp (collisionFree (taggedSha256_inj same)))
  · intro same
    rw [texts.mpr (contents.mpr same)]

end SkillMind.Evaluations
