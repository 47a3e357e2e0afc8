import SkillMind.Documents.Snapshot
import SkillMind.Effects.Release

/-!
# The sources of a new Run

A task declares the resources it needs, and a choice names one resource for each requirement: an
Integration, documents of the project, or its document library.  A Run resolves its choices when
it is made, and a schedule resolves them when it is saved, long before its first Run.

Both call the same resolver.  The Run hands it the document library of the deployment and then
asks whether the deployment carries out what was selected; the schedule does neither.
-/

namespace SkillMind.Runs

open Library SkillMind.Core
open Documents (UnicodeTables StorageNamespace DocumentTables StoredDocument DocumentSnapshot
  DocumentSnapshotError DocumentSelection uuid parseDocumentSelection resolveDocumentBinding)
open Effects (uuidText ExecutionFeatures)

structure TaskSourceSelectionError where
  message : String
  /-- The requirement or the keys that the message names. -/
  keys : List String := []
  deriving DecidableEq

def startsWith (pre : String) (text : String) : Bool := pre.toList.isPrefixOf text.toList

/-- `str.removeprefix` of a prefix that is there. -/
def withoutPrefix (pre : String) (text : String) : String :=
  String.ofList (text.toList.drop pre.toList.length)

def contains (text part : String) : Bool := decide (part.toList <:+: text.toList)

/-- `sorted` of some texts. -/
def sortedTexts (texts : List String) : List String :=
  texts.insertionSort fun first second => textLe first.toList second.toList = true

def documentWriteCapability : String := "document.write/v1"

def isWriteCapability (capability : String) : Bool :=
  contains capability ".update/" || contains capability ".apply/" ||
    contains capability ".write/" || capability ∈ ["mcp.call/v1", "database.execute/v1"]

def isDeferredExecutionCapability (capability : String) : Bool :=
  capability ∈ ["subagent.dispatch/v1", "change.propose/v1"] ||
    (isWriteCapability capability && !startsWith "workspace." capability)

section Features

variable (features : ExecutionFeatures)

def effectsEnabled : Bool :=
  features.deferred || features.databaseWrites || features.documentWrites ||
    features.gitWrites || features.mcpTools || features.httpWrites

/-- `capability_enabled` of any text. -/
def capabilityEnabled (capability : String) : Bool :=
  if capability = "http.write/v1" then features.httpWrites
  else if capability ∈ ["mcp.tools/v1", "mcp.query/v1", "mcp.download/v1", "mcp.call/v1"] then
    features.mcpTools
  else if capability ∈ ["database.write/v1", "database.execute/v1"] then features.databaseWrites
  else if capability = documentWriteCapability then features.documentWrites
  else if capability = "repository.write/v1" then features.deferred || features.gitWrites
  else if capability = "change.propose/v1" then effectsEnabled features
  else features.deferred || !isDeferredExecutionCapability capability

/-- `provider_enabled` of any text. -/
def providerEnabled (capability provider : String) : Bool :=
  capabilityEnabled features capability &&
    (capability ≠ "repository.write/v1" || features.deferred || provider = "git")

end Features

/-! ## Resources of a project -/

inductive IntegrationStatus where
  | active
  | disabled
  deriving DecidableEq

structure ResolvedIntegration where
  integrationId : Uuid
  projectId : Uuid
  kind : String
  provider : String
  status : IntegrationStatus
  revision : Int
  capabilities : List String
  scope : List (String × Json)

inductive ResourceBindingLevel where
  | projectDefault
  | task
  | run
  deriving DecidableEq

structure StoredResourceBinding where
  bindingId : Uuid
  projectId : Uuid
  scopeLevel : ResourceBindingLevel
  scopeKey : String
  requirementKey : String
  integrationId : Option Uuid
  capabilityVersion : String
  revision : String
  scope : List (String × Json)
  disabledAt : Option Timestamp

structure DocumentLibraryTarget where
  «namespace» : StorageNamespace
  bucket : String

/-- The rows that a choice is resolved against; `listed` is the answer of `list_for_project`. -/
structure ResourceTables where
  integrations : List ResolvedIntegration
  bindings : List StoredResourceBinding
  documents : DocumentTables
  listed : List StoredDocument

def findConfiguredBinding (rows : List StoredResourceBinding) (projectId : Uuid)
    (taskScopeKey requirementKey : String) : Option StoredResourceBinding :=
  let enabled := rows.filter fun row => decide (row.projectId = projectId ∧
    row.requirementKey = requirementKey ∧ row.disabledAt = none)
  match enabled.find? fun row =>
      decide (row.scopeLevel = .task ∧ row.scopeKey = taskScopeKey) with
  | some row => some row
  | none => enabled.find? fun row =>
    decide (row.scopeLevel = .projectDefault ∧ row.scopeKey = "project")

def getIntegration (rows : List ResolvedIntegration) (projectId integrationId : Uuid) :
    Option ResolvedIntegration :=
  rows.find? fun row => decide (row.integrationId = integrationId ∧ row.projectId = projectId)

structure ResourceRequirement where
  key : String
  kind : String
  selection : String
  access : Option String
  capabilities : List String
  required : Bool

/-- The part of a task's definition that resources are selected for.  Its contract keeps the keys
of the requirements apart and not empty. -/
structure Blueprint where
  sourceExecution : Bool
  requirements : List ResourceRequirement
  /-- The resource keys of the intents in the mode `apply`. -/
  applyKeys : List String
  distinct : (requirements.map ResourceRequirement.key).Nodup
  named : ∀ requirement ∈ requirements, requirement.key ≠ ""

def Blueprint.isRequired (blueprint : Blueprint) (requirement : ResourceRequirement) : Bool :=
  requirement.required || requirement.key ∈ blueprint.applyKeys

def requirementAccess (blueprint : Blueprint) (requirement : ResourceRequirement) : String :=
  if blueprint.sourceExecution = true ∧ requirement.kind = "document" then
    if requirement.selection = "documents" then "read" else "write"
  else
    match requirement.access with
    | none | some "" => "read"
    | some access => access

def declaredCapabilities (blueprint : Blueprint) (requirement : ResourceRequirement) :
    List String :=
  if blueprint.sourceExecution = true ∧ requirement.kind = "document" then
    if requirementAccess blueprint requirement = "write" then [documentWriteCapability]
    else Documents.documentCapabilities
  else requirement.capabilities

structure SelectedIntegration where
  capability : String
  provider : String
  integrationId : Uuid
  revision : Int
  scope : List (String × Json)
  resourceKind : String
  access : String
  sourceBindingId : Option Uuid
  capabilities : Option (List String)

inductive SelectedSource where
  | library (target : DocumentLibraryTarget)
  | documents (capability candidateKey : String) (snapshot : DocumentSnapshot)
      (library : Option DocumentLibraryTarget)
  | integration (candidateKey : String) (source : SelectedIntegration)

structure ResolvedRunBinding where
  requirementKey : String
  resourceKind : String
  integration : ResolvedIntegration
  capabilityVersion : String
  scope : List (String × Json)
  sourceBindingId : Option Uuid

inductive RunBinding where
  | integration (binding : ResolvedRunBinding)
  | library (requirementKey : String) (target : DocumentLibraryTarget)

def declaredCapability (capabilities : List String) (access : String) :
    Except TaskSourceSelectionError (Option String) := do
  let observing := sortedTexts (capabilities.filter fun item => !isWriteCapability item)
  require (¬ (observing = [] ∧ access = "write"))
    ⟨"Write resource requires an explicit observe capability", []⟩
  return observing.head?

def selectBindingCapability (capabilities hints : List String) (access : String)
    (observe : Option String) : Except TaskSourceSelectionError String :=
  let fitting := fun item => isWriteCapability item == decide (access = "write")
  match sortedTexts ((hints.filter fun item => item ∈ capabilities).filter fitting) with
  | first :: _ => return first
  | [] =>
    match observe with
    | some item =>
      if item ∈ capabilities ∧ access ≠ "write" then return item
      else fallback (capabilities.filter fitting)
    | none => fallback (capabilities.filter fitting)
where
  fallback (items : List String) : Except TaskSourceSelectionError String :=
    match sortedTexts items with
    | first :: _ => return first
    | [] => throw ⟨"Integration has no capability for required access", []⟩

/-- The truth of a value. -/
def truthy : Option Json → Bool
  | none | some .null | some (.bool false) => false
  | some (.string text) => text ≠ ""
  | some (.array items) => !items.isEmpty
  | some (.object fields) => !fields.isEmpty
  | some (.number literal) => literal.toList.any fun c => '1' ≤ c && c ≤ '9'
  | some (.bool true) => true

/-- The identifier behind `integration:`. -/
def identifyIntegration (tables : UnicodeTables) (key token : String) :
    Except TaskSourceSelectionError Uuid := do
  require (startsWith "integration:" token = true)
    ⟨"Resource selection must identify an Integration", [key]⟩
  orFault ⟨"Integration candidate key is invalid", [key]⟩
    (uuid tables (withoutPrefix "integration:" token))

def bindIntegration (state : ResourceTables) (projectId : Uuid) (blueprint : Blueprint)
    (requirement : ResourceRequirement) (configured : Option StoredResourceBinding)
    (observe : Option String) (integrationId : Uuid) :
    Except TaskSourceSelectionError (SelectedIntegration × ResolvedRunBinding) := do
  let key := requirement.key
  let integration ← orFault ⟨"Integration is not available", [key]⟩
    (getIntegration state.integrations projectId integrationId)
  require (integration.status = .active) ⟨"Integration is disabled", [key]⟩
  require (integration.kind = requirement.kind)
    ⟨"Integration kind does not satisfy resource requirement", [key]⟩
  let reads := sortedTexts (integration.capabilities.filter fun item =>
    !isWriteCapability item && (item ≠ "mcp.read/v1" ||
      truthy (Documents.member integration.scope "resource_uris")))
  let resourceMode := blueprint.sourceExecution
  let declared := if resourceMode then integration.capabilities else requirement.capabilities
  let observe :=
    if resourceMode then
      if "mcp.tools/v1" ∈ reads then some "mcp.tools/v1" else reads.head?
    else observe
  let access :=
    if resourceMode then if declared.any isWriteCapability then "write" else "read"
    else requirementAccess blueprint requirement
  let capability ← selectBindingCapability integration.capabilities declared access observe
  require (∀ item, observe = some item → item ∈ integration.capabilities)
    ⟨"Integration lacks the observe capability", [key]⟩
  let scope :=
    if resourceMode then integration.scope
    else (configured.map StoredResourceBinding.scope).getD integration.scope
  require (∀ row, configured = some row → row.integrationId = some integration.integrationId ∧
      row.revision = toString integration.revision ∧
        (resourceMode = true ∨ row.capabilityVersion = capability))
    ⟨"Configured ResourceBinding is stale", [key]⟩
  let source := configured.map StoredResourceBinding.bindingId
  return (
    { capability := observe.getD capability, provider := integration.provider,
      integrationId := integration.integrationId, revision := integration.revision,
      scope := scope, resourceKind := requirement.kind, access := access,
      sourceBindingId := source,
      capabilities := if resourceMode then some integration.capabilities else none },
    { requirementKey := key, resourceKind := requirement.kind, integration := integration,
      capabilityVersion := capability, scope := scope, sourceBindingId := source })

section Resolving

variable (tables : UnicodeTables) (library : StandardLibrary) (state : ResourceTables)
  (projectId : Uuid) (blueprint : Blueprint)

def storedNamespace (documentId : Uuid) : Option StorageNamespace :=
  (state.documents.documents.find? fun row =>
    decide (row.id = documentId ∧ row.projectId = projectId)).bind fun row => row.storageNamespace

/-- `resolve_document_binding`: the documents have to lie in the library, if there is one. -/
def resolveDocuments (requirementKey token capability : String)
    (libraryTarget : Option DocumentLibraryTarget) :
    Except DocumentSnapshotError DocumentSnapshot := do
  let (snapshot, _) ← resolveDocumentBinding tables library state.documents state.listed
    projectId requirementKey token capability blueprint.sourceExecution
  require (∀ target, libraryTarget = some target → ∀ document ∈ snapshot.documents,
      storedNamespace state projectId document.documentId = some target.namespace)
    ⟨"Selected document storage does not match the library"⟩
  return snapshot

/-- The resource that a token selects for a requirement. -/
def resolveChoice (libraryTarget : Option DocumentLibraryTarget)
    (requirement : ResourceRequirement) (configured : Option StoredResourceBinding)
    (token : String) : Except TaskSourceSelectionError (SelectedSource × Option RunBinding) := do
  let key := requirement.key
  let access := requirementAccess blueprint requirement
  let declared := declaredCapabilities blueprint requirement
  if requirement.kind = "document" then
    if access = "write" then do
      let target ← orFault ⟨"Document library binding is not supported", [key]⟩ libraryTarget
      require (token = "project-library:documents" ∧ declared = [documentWriteCapability])
        ⟨"Document library binding is not supported", [key]⟩
      return (.library target, some (.library key target))
    else do
      require (access = "read") ⟨"Document read binding is not supported", [key]⟩
      let capability ← orFault ⟨"Document read binding is not supported", [key]⟩
        (declared.find? fun item => item ∈ Documents.documentCapabilities)
      let snapshot ← (resolveDocuments tables library state projectId blueprint key token
        capability libraryTarget).mapError fun fault => ⟨fault.message, []⟩
      return (.documents capability token snapshot libraryTarget, none)
  else do
    let observe ← declaredCapability declared access
    let integrationId ← identifyIntegration tables key token
    let (source, binding) ← bindIntegration state projectId blueprint requirement configured
      observe integrationId
    return (.integration token source, some (.integration binding))

/-- The choice that stands for a requirement: the one that was made, or the Integration of the
configured binding. -/
def chosenToken (taskScopeKey : String) (sources : List (String × String))
    (requirement : ResourceRequirement) : Option StoredResourceBinding × Option String :=
  match sources.find? fun source => decide (source.1 = requirement.key) with
  | some source => (none, some source.2)
  | none =>
    let configured := findConfiguredBinding state.bindings projectId taskScopeKey
      requirement.key
    (configured, (configured.bind StoredResourceBinding.integrationId).map fun id =>
      "integration:" ++ uuidText id)

def resolveRequirement (libraryTarget : Option DocumentLibraryTarget) (taskScopeKey : String)
    (sources : List (String × String)) (requirement : ResourceRequirement) :
    Except TaskSourceSelectionError
      (Option (ResourceRequirement × SelectedSource × Option RunBinding)) :=
  match chosenToken state projectId taskScopeKey sources requirement with
  | (configured, some token) => do
    let (source, binding) ← resolveChoice tables library state projectId blueprint
      libraryTarget requirement configured token
    return some (requirement, source, binding)
  | (_, none) => do
    require (blueprint.isRequired requirement = false)
      ⟨"Required data source has no binding", [requirement.key]⟩
    return none

/-- `_resolve_selected_sources`: what is selected for each requirement that has a choice. -/
def resolveSelectedSources (libraryTarget : Option DocumentLibraryTarget) (taskScopeKey : String)
    (sources : List (String × String)) : Except TaskSourceSelectionError
      (List (ResourceRequirement × SelectedSource × Option RunBinding)) := do
  let selected ← blueprint.requirements.mapM
    (resolveRequirement tables library state projectId blueprint libraryTarget taskScopeKey
      sources)
  let unknown := (sources.map Prod.fst).filter fun key =>
    key ∉ blueprint.requirements.map ResourceRequirement.key
  require (unknown = []) ⟨"Unknown data source keys", sortedTexts unknown⟩
  return selected.filterMap id

end Resolving

/-- `is_document_source` of a text. -/
def isDocumentSource (token : String) : Bool :=
  token ∈ ["project", "project-documents"] || startsWith "document:" token ||
    startsWith "documents:" token || startsWith "project-documents:" token

section Saving

variable (tables : UnicodeTables) (library : StandardLibrary) (state : ResourceTables)
  (projectId : Uuid) (blueprint : Blueprint) (taskScopeKey : String)
  (sources : List (String × String))

/-- `validate_task_sources`, which knows no library of documents. -/
def validateTaskSources : Except TaskSourceSelectionError Unit := do
  let _ ← resolveSelectedSources tables library state projectId blueprint none taskScopeKey
    sources

def revalidateDocumentChoices : Except DocumentSnapshotError Unit :=
  (sources.filter fun source => isDocumentSource source.2).forM fun source => do
    let _ ← resolveDocumentBinding tables library state.documents state.listed projectId
      source.1 source.2 "document.read/v1" false

/-- The checks of `create_schedule` and `update_schedule` that read the sources. -/
def saveScheduleSources : Except TaskSourceSelectionError Unit := do
  validateTaskSources tables library state projectId blueprint taskScopeKey sources
  (revalidateDocumentChoices tables library state projectId sources).mapError
    fun _ => ⟨"Selected documents are no longer available", []⟩

end Saving

/-- A kind, a colon and some identifiers with commas between them. -/
def spelled (kind : String) (ids : List Uuid) : String :=
  String.ofList (kind.toList ++ ':' :: [','].intercalate (ids.map fun id =>
    (uuidText id).toList))

section Creating

variable (tables : UnicodeTables) (library : StandardLibrary) (state : ResourceTables)
  (projectId : Uuid) (blueprint : Blueprint) (taskScopeKey : String)
  (sources : List (String × String))

def normalizeToken (token : String) : Except TaskSourceSelectionError String :=
  if token = "project-documents:all" ∨ startsWith "document:" token = true ∨
      startsWith "documents:" token = true then do
    let selection ← (parseDocumentSelection tables token).mapError fun fault =>
      ⟨fault.message, []⟩
    match selection.mode with
    | .all => return "project-documents:all"
    | .single => return spelled "document" selection.documentIds
    | .set => return spelled "documents" selection.documentIds
  else if startsWith "integration:" token = true then do
    let id ← orFault ⟨"Integration candidate identity is invalid", []⟩
      (uuid tables (withoutPrefix "integration:" token))
    return "integration:" ++ uuidText id
  else return token

def normalizeSourceChoices : Except TaskSourceSelectionError (List (String × String)) :=
  sources.mapM fun source => do
    require (source.1 ≠ "") ⟨"Resource choices must map requirement names to strings", []⟩
    let token ← normalizeToken tables source.2
    return (source.1, token)

def SelectedSource.provider : SelectedSource → String
  | .library _ => "project-library"
  | .documents .. => "project-documents"
  | .integration _ source => source.provider

/-- `resource_capabilities`, as a set in the order of its texts. -/
def resourceCapabilities (source : SelectedSource) : List String :=
  if source.provider = "project-library" then [documentWriteCapability]
  else if source.provider = "project-documents" then Documents.documentCapabilities
  else
    match source with
    | .integration _ selected =>
      let values := selected.capabilities.getD []
      let values :=
        if selected.provider = "git" ∧ "repository.read/v1" ∈ values then
          "repository.workspace/v1" :: values
        else values
      let values :=
        if selected.provider = "mcp" ∧ "mcp.query/v1" ∈ values then
          "mcp.download/v1" :: values
        else values
      sortedTexts values.dedup
    | _ => []

/-- Some capability of the resource can be read with. -/
def accessEnabled (features : ExecutionFeatures) (source : SelectedSource) : Bool :=
  source.provider = "project-library" || (resourceCapabilities source).any fun capability =>
    !isWriteCapability capability && providerEnabled features capability source.provider

def bindingEnabled (features : ExecutionFeatures) : Option RunBinding → Bool
  | some (.integration binding) =>
    providerEnabled features binding.capabilityVersion binding.integration.provider
  | _ => true

def savingEnabled (features : ExecutionFeatures) : Option RunBinding → Bool
  | some (.library _ _) => features.effectEnabled .documentWrite "CREATE"
  | _ => true

/-- What `create_task_run` asks of the selected resources. -/
def requireEnabled (features : ExecutionFeatures)
    (selected : List (ResourceRequirement × SelectedSource × Option RunBinding)) :
    Except TaskSourceSelectionError Unit := do
  require (blueprint.sourceExecution = true →
      ∀ item ∈ selected, accessEnabled features item.2.1 = true)
    ⟨"The selected resource has no enabled access", []⟩
  require (blueprint.sourceExecution = false →
      ∀ item ∈ selected, bindingEnabled features item.2.2 = true)
    ⟨"The selected Provider is disabled", []⟩
  require (∀ item ∈ selected, savingEnabled features item.2.2 = true)
    ⟨"Document saving is not enabled in this deployment", []⟩

/-- The checks of `create_task_run` that read the sources. -/
def createRunSources (features : ExecutionFeatures)
    (libraryTarget : Option DocumentLibraryTarget) : Except TaskSourceSelectionError
      (List (ResourceRequirement × SelectedSource × Option RunBinding)) := do
  let sources ← normalizeSourceChoices tables sources
  let selected ← resolveSelectedSources tables library state projectId blueprint libraryTarget
    taskScopeKey sources
  requireEnabled blueprint features selected
  return selected

end Creating

end SkillMind.Runs
