import SkillMind.Effects.ProposalRoundTrip
import SkillMind.Runs.SourceTokens

/-!
# What was asked for when a Run was made

A Run is asked for by an intent: the task, who asks, the input, and the choices of resources in
one spelling.  The intent is kept as JSON in the Run, and its fingerprint identifies the request
whatever was resolved for it.
-/

namespace SkillMind.Runs

open Library SkillMind.Core
open Documents (UnicodeTables uuid member hasKeys)
open Effects (uuidText textAt objectAt boolAt asObject asText sha256Hex)

/-- Why a creation is refused: a `ValueError`, or that the key belongs to another request. -/
inductive CreationFault where
  | invalid (message : String)
  | conflict (message : String)

structure TaskRunIntent where
  projectId : Uuid
  skillVersionId : Uuid
  taskKey : String
  actorId : Uuid
  input : List (String × Json)
  sources : List (String × String)
  autoApprove : Bool
  autoApproveGit : Bool
  autoApproveMcp : Bool

namespace TaskRunIntent

/-! ## Writing -/

/-- A member that is written only when it is set. -/
def flagMember (key : String) (value : Bool) : List (String × Json) :=
  if value then [(key, .bool true)] else []

def requestVersion (intent : TaskRunIntent) : String :=
  if intent.autoApproveMcp then "v4"
  else if intent.autoApproveGit then "v3"
  else if intent.autoApprove then "v2"
  else "v1"

def sourcesJson (sources : List (String × String)) : List (String × Json) :=
  sources.map fun source => (source.1, .string source.2)

def members (intent : TaskRunIntent) : List (String × Json) :=
  [("request_version", .string intent.requestVersion)] ++
    flagMember "auto_approve_git" intent.autoApproveGit ++
    flagMember "auto_approve_mcp" intent.autoApproveMcp ++
    flagMember "auto_approve" intent.autoApprove ++
    [ ("project_id", .string (uuidText intent.projectId))
    , ("skill_version_id", .string (uuidText intent.skillVersionId))
    , ("task_key", .string intent.taskKey)
    , ("actor_id", .string (uuidText intent.actorId))
    , ("input", .object intent.input)
    , ("sources", .object (sourcesJson intent.sources)) ]

def toJson (intent : TaskRunIntent) : Json := .object intent.members

def fingerprint (library : StandardLibrary) (intent : TaskRunIntent) : String :=
  sha256Hex library (canonicalJson intent.toJson)

section Reading

variable (tables : UnicodeTables)

/-- `__post_init__`: the intent with its choices in their one spelling. -/
def checked (intent : TaskRunIntent) : Except CreationFault TaskRunIntent := do
  require (intent.projectId < 2 ^ 128 ∧ intent.skillVersionId < 2 ^ 128 ∧
    intent.actorId < 2 ^ 128) (.invalid "Creation request identities must be UUIDs")
  require (intent.taskKey ≠ "") (.invalid "Creation request must identify an exact task")
  require (intent.autoApproveGit = true → intent.autoApprove = true)
    (.invalid "Git approval requires Run automatic approval")
  require (intent.autoApproveMcp = true → intent.autoApprove = true)
    (.invalid "MCP approval requires Run automatic approval")
  let sources ← (normalizeSourceChoices tables intent.sources).mapError fun fault =>
    CreationFault.invalid fault.message
  return { intent with sources := sources }

def requestFields : List String :=
  ["request_version", "project_id", "skill_version_id", "task_key", "actor_id", "input",
    "sources"]

/-- The formats that a stored request may have. -/
def SupportedFormat (fields : List (String × Json)) : Prop :=
  (hasKeys requestFields fields ∧ textAt fields "request_version" = some "v1") ∨
  (hasKeys (requestFields ++ ["auto_approve"]) fields ∧
    textAt fields "request_version" = some "v2" ∧ boolAt fields "auto_approve" = some true) ∨
  (hasKeys (requestFields ++ ["auto_approve", "auto_approve_git"]) fields ∧
    textAt fields "request_version" = some "v3" ∧ boolAt fields "auto_approve" = some true ∧
      boolAt fields "auto_approve_git" = some true) ∨
  ((hasKeys (requestFields ++ ["auto_approve", "auto_approve_mcp"]) fields ∨
      hasKeys (requestFields ++ ["auto_approve", "auto_approve_git", "auto_approve_mcp"])
        fields) ∧
    textAt fields "request_version" = some "v4" ∧ boolAt fields "auto_approve" = some true ∧
      boolAt fields "auto_approve_mcp" = some true ∧
        ("auto_approve_git" ∉ fields.map Prod.fst ∨
          boolAt fields "auto_approve_git" = some true))

instance (fields : List (String × Json)) : Decidable (SupportedFormat fields) :=
  inferInstanceAs (Decidable (_ ∨ _))

def readSources (fields : List (String × Json)) : Option (List (String × String)) :=
  fields.mapM fun source => (asText source.2).map fun token => (source.1, token)

def fromJson (value : Json) : Except CreationFault TaskRunIntent := do
  let fields ← orFault (.invalid "Stored creation request has an unsupported format")
    (asObject value)
  require (SupportedFormat fields)
    (.invalid "Stored creation request has an unsupported format")
  let text (key : String) := orFault
    (CreationFault.invalid "Stored creation request identities are invalid") (textAt fields key)
  let identity (text : String) := orFault
    (CreationFault.invalid "badly formed hexadecimal UUID string") (uuid tables text)
  let project ← text "project_id"
  let version ← text "skill_version_id"
  let actor ← text "actor_id"
  let taskKey ← text "task_key"
  let projectId ← identity project
  let skillVersionId ← identity version
  let actorId ← identity actor
  let input ← orFault (.invalid "Creation input and sources must be objects")
    (objectAt fields "input")
  let choices ← orFault (.invalid "Creation input and sources must be objects")
    (objectAt fields "sources")
  let sources ← orFault (.invalid "Resource choices must map requirement names to strings")
    (readSources choices)
  let intent ← checked tables
    { projectId := projectId, skillVersionId := skillVersionId, taskKey := taskKey,
      actorId := actorId, input := input, sources := sources,
      autoApprove := (boolAt fields "auto_approve").getD false,
      autoApproveGit := (boolAt fields "auto_approve_git").getD false,
      autoApproveMcp := (boolAt fields "auto_approve_mcp").getD false }
  require (canonicalJson intent.toJson = canonicalJson value)
    (.invalid "Stored creation request is not canonical")
  return intent

end Reading

variable {tables : UnicodeTables}

theorem normalizeToken_again {token token' : String}
    (normalized : normalizeToken tables token = .ok token') :
    normalizeToken tables token' = .ok token' := by
  have alike := normalizeToken_alike normalized
  rw [normalizeToken] at normalized
  split at normalized
  · simp only [bind_eq_ok, mapError_eq_ok] at normalized
    obtain ⟨selection, parsed, written⟩ := normalized
    have parsed' := (alike.documents selection).mp parsed
    rw [normalizeToken, if_pos (parseDocumentSelection_shape parsed'), parsed']
    exact written
  · split at normalized
    · rename_i starts
      simp only [bind_eq_ok, orFault_eq_ok, pure_eq_ok] at normalized
      obtain ⟨id, read, rfl⟩ := normalized
      obtain ⟨starts', read'⟩ := identifyIntegration_ok_iff.mp
        ((alike.integration "" id).mp (identifyIntegration_ok_iff.mpr ⟨starts, read⟩))
      rw [normalizeToken, if_neg (not_documentLike starts'), if_pos starts', read']
      rfl
    · rename_i other plain
      cases normalized
      rw [normalizeToken, if_neg other, if_neg plain]
      rfl

theorem normalizeSourceChoices_again {sources sources' : List (String × String)}
    (normalized : normalizeSourceChoices tables sources = .ok sources') :
    normalizeSourceChoices tables sources' = .ok sources' := by
  rw [normalizeSourceChoices, mapM_eq_ok_iff] at normalized ⊢
  induction normalized with
  | nil => exact .nil
  | cons head _ ih =>
    refine .cons ?_ ih
    simp only [bind_eq_ok, require_eq_ok, exists_unit, pure_eq_ok] at head ⊢
    obtain ⟨named, token, spelled, rfl⟩ := head
    exact ⟨named, token, normalizeToken_again spelled, rfl⟩

theorem normalizeSourceChoices_keys {sources sources' : List (String × String)}
    (normalized : normalizeSourceChoices tables sources = .ok sources') :
    sources'.map Prod.fst = sources.map Prod.fst := by
  rw [normalizeSourceChoices, mapM_eq_ok_iff] at normalized
  induction normalized with
  | nil => rfl
  | cons head _ ih =>
    simp only [bind_eq_ok, require_eq_ok, exists_unit, pure_eq_ok] at head
    obtain ⟨-, token, -, rfl⟩ := head
    rw [List.map_cons, List.map_cons, ih]

theorem checked_eq_ok {intent intent' : TaskRunIntent} :
    checked tables intent = .ok intent' ↔
      (intent.projectId < 2 ^ 128 ∧ intent.skillVersionId < 2 ^ 128 ∧ intent.actorId < 2 ^ 128) ∧
      intent.taskKey ≠ "" ∧ (intent.autoApproveGit = true → intent.autoApprove = true) ∧
      (intent.autoApproveMcp = true → intent.autoApprove = true) ∧
      ∃ sources, normalizeSourceChoices tables intent.sources = .ok sources ∧
        { intent with sources := sources } = intent' := by
  simp only [checked, bind_eq_ok, require_eq_ok, exists_unit, mapError_eq_ok, pure_eq_ok]

theorem checked_again {intent intent' : TaskRunIntent}
    (made : checked tables intent = .ok intent')
    (distinct : (intent.sources.map Prod.fst).Nodup) :
    checked tables intent' = .ok intent' ∧ (intent'.sources.map Prod.fst).Nodup := by
  obtain ⟨ids, task, git, mcp, sources, normalized, rfl⟩ := checked_eq_ok.mp made
  constructor
  · exact checked_eq_ok.mpr
      ⟨ids, task, git, mcp, sources, normalizeSourceChoices_again normalized, rfl⟩
  · show (sources.map Prod.fst).Nodup
    rw [normalizeSourceChoices_keys normalized]
    exact distinct

theorem readSources_sourcesJson (sources : List (String × String)) :
    readSources (sourcesJson sources) = some sources := by
  rw [readSources, sourcesJson]
  apply Effects.mapM_written
  intro source
  rfl

theorem fromJson_toJson {intent : TaskRunIntent} (made : checked tables intent = .ok intent) :
    fromJson tables intent.toJson = .ok intent := by
  obtain ⟨⟨project, version, actor⟩, -, git, mcp, -⟩ := checked_eq_ok.mp made
  have known : SupportedFormat intent.members ∧
      textAt intent.members "project_id" = some (uuidText intent.projectId) ∧
      textAt intent.members "skill_version_id" = some (uuidText intent.skillVersionId) ∧
      textAt intent.members "actor_id" = some (uuidText intent.actorId) ∧
      textAt intent.members "task_key" = some intent.taskKey ∧
      objectAt intent.members "input" = some intent.input ∧
      objectAt intent.members "sources" = some (sourcesJson intent.sources) ∧
      (boolAt intent.members "auto_approve").getD false = intent.autoApprove ∧
      (boolAt intent.members "auto_approve_git").getD false = intent.autoApproveGit ∧
      (boolAt intent.members "auto_approve_mcp").getD false = intent.autoApproveMcp := by
    obtain ⟨_, _, _, _, _, _, auto, autoGit, autoMcp⟩ := intent
    cases auto <;> cases autoGit <;> cases autoMcp <;>
      simp [members, flagMember, requestVersion, SupportedFormat, hasKeys, requestFields, textAt,
        objectAt, boolAt, member] at git mcp ⊢
  obtain ⟨format, projectAt, versionAt, actorAt, taskAt, inputAt, sourcesAt, auto, autoGit,
    autoMcp⟩ := known
  simp only [fromJson, toJson, asObject, orFault_some, ok_bind, require_of format, projectAt,
    versionAt, actorAt, taskAt, inputAt, sourcesAt, readSources_sourcesJson,
    Documents.uuid_uuidText project, Documents.uuid_uuidText version,
    Documents.uuid_uuidText actor, auto, autoGit, autoMcp, made]
  rw [require_of trivial]
  rfl

theorem toJson_wellFormed {intent : TaskRunIntent}
    (input : (Json.object intent.input).wellFormed = true)
    (distinct : (intent.sources.map Prod.fst).Nodup) : intent.toJson.wellFormed = true := by
  have sources : (Json.object (sourcesJson intent.sources)).wellFormed = true := by
    apply Effects.object_wellFormed
    · rw [sourcesJson, List.map_map]
      exact distinct
    · intro field mem
      obtain ⟨source, -, rfl⟩ := List.mem_map.mp mem
      rfl
  have flags (key : String) (value : Bool) :
      ∀ field ∈ flagMember key value, field.2.wellFormed = true := by
    intro field mem
    cases value with
    | false => cases mem
    | true =>
      rw [List.mem_singleton.mp mem]
      rfl
  apply Effects.object_wellFormed
  · obtain ⟨_, _, _, _, _, _, auto, autoGit, autoMcp⟩ := intent
    cases auto <;> cases autoGit <;> cases autoMcp <;> simp [members, flagMember]
  · intro field mem
    simp only [members, List.mem_append, List.mem_cons, List.not_mem_nil, or_false] at mem
    rcases mem with (((rfl | git) | mcp) | auto) | rfl | rfl | rfl | rfl | rfl | rfl
    · rfl
    · exact flags _ _ field git
    · exact flags _ _ field mcp
    · exact flags _ _ field auto
    · rfl
    · rfl
    · rfl
    · rfl
    · exact input
    · exact sources

end TaskRunIntent

end SkillMind.Runs
