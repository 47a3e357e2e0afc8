import SkillMind.Effects.Proposal

/-!
# Proposals in the database

A draft is checked against its binding, its Integration and the evidence it cites, and becomes a
row.  The checksum is taken of the values of the draft; when the proposal is decided on or claimed
it is taken again, of values that are rebuilt from the columns of the row, and every check is made
once more.
-/

namespace SkillMind.Effects

open Library SkillMind.Core
open Runs (Uuid Timestamp)
open Documents (member)

/-- A row of `resource_bindings`. -/
structure EffectBinding where
  id : Uuid
  projectId : Uuid
  runId : Option Uuid
  integrationId : Option Uuid
  scopeLevel : String
  scopeKey : String
  requirementKey : String
  resourceKind : String
  provider : String
  capabilityVersion : String
  revision : String
  scope : List (String × Json)
  checksum : String
  disabledAt : Option Timestamp

structure EffectIntegration where
  id : Uuid
  projectId : Uuid
  status : String
  provider : String
  revision : Int
  capabilities : List String
  config : List (String × Json)

structure ObservingCall where
  id : Uuid
  runId : Uuid
  integrationId : Option Uuid
  provider : String
  capabilityVersion : String
  status : String

/-- An effect execution, joined with its proposal. -/
structure OriginalEffect where
  id : Uuid
  runId : Uuid
  integrationId : Option Uuid
  capabilityVersion : String
  operation : String

/-- What a proposal is checked against.  The checks that read a document library and the bytes of
an artifact are kept as their answers. -/
structure ProposalWorld where
  bindings : List EffectBinding
  integrations : List EffectIntegration
  evidence : List Evidence
  calls : List ObservingCall
  effects : List OriginalEffect
  /-- The binding is the document library that the Run was frozen with. -/
  libraryHolds : EffectBinding → Bool
  /-- The checksum and the size of an artifact of the Run that can be read. -/
  artifact : String → Option (String × Json)

/-- What a provider registers for a capability: its name, and the check of a proposed change under
a scope and a configuration. -/
structure EffectContract where
  providers : List String
  validate : ProposedChange → List (String × Json) → List (String × Json) →
    Except ChangeProposalValidationError (List (String × Json))

section Checks

variable (library : StandardLibrary) (world : ProposalWorld)

def getBinding (bindingId : Uuid) : Option EffectBinding :=
  world.bindings.find? fun row => decide (row.id = bindingId)

def getEffectIntegration (integrationId : Option Uuid) : Option EffectIntegration :=
  world.integrations.find? fun row => decide (some row.id = integrationId)

/-- `binding_checksum` of a binding of a Run. -/
def bindingChecksum (binding : EffectBinding) : String :=
  taggedSha256 library (canonicalJson (.object
    [ ("project_id", .string (uuidText binding.projectId))
    , ("scope_level", .string "RUN")
    , ("scope_key", .string binding.scopeKey)
    , ("requirement_key", .string binding.requirementKey)
    , ("resource_kind", .string binding.resourceKind)
    , ("integration_id",
        (binding.integrationId.map fun id => .string (uuidText id)).getD .null)
    , ("provider", .string binding.provider)
    , ("capability_version", .string binding.capabilityVersion)
    , ("revision", .string binding.revision)
    , ("scope", .object binding.scope) ]))

def validateEffectBinding (runId projectId : Uuid) (binding : EffectBinding)
    (capability : String) :
    Except ChangeProposalValidationError (Option EffectIntegration) :=
  if capability = "document.write/v1" then do
    require (world.libraryHolds binding = true) ⟨"Document library binding changed"⟩
    return none
  else do
    require (binding.integrationId ≠ none ∧ binding.runId = some runId ∧
        binding.projectId = projectId ∧ binding.scopeLevel = "RUN" ∧
        binding.scopeKey = uuidText runId ∧ binding.disabledAt = none ∧
        binding.capabilityVersion = capability)
      ⟨"Frozen Integration binding is invalid"⟩
    let integration ← orFault ⟨"Integration changed after Run binding"⟩
      (getEffectIntegration world binding.integrationId)
    require (integration.projectId = projectId ∧ integration.status = "ACTIVE" ∧
        toString integration.revision = binding.revision ∧
        integration.provider = binding.provider ∧ capability ∈ integration.capabilities ∧
        binding.checksum = bindingChecksum library binding)
      ⟨"Integration changed after Run binding"⟩
    return some integration

/-! ## Evidence -/

def citedEvidence (evidenceRefs : List String) : List Evidence :=
  world.evidence.filter fun evidence => decide (evidence.evidenceRef ∈ evidenceRefs)

/-- `_validate_evidence_refs`: as many rows of the Run as there are references. -/
def validateEvidenceRefs (runId : Uuid) (evidenceRefs : List String) :
    Except ChangeProposalValidationError Unit :=
  require (((citedEvidence world evidenceRefs).filter fun evidence =>
      decide (evidence.runId = runId)).length = evidenceRefs.length)
    ⟨"ChangeProposal references foreign Evidence"⟩

/-- The call of an evidence, when it succeeded for the binding. -/
def observedBy (binding : EffectBinding) (provider : String) (capabilities : List String)
    (evidence : Evidence) : Bool :=
  match world.calls.find? fun call => decide (call.id = evidence.toolCallId) with
  | some call => decide (binding.runId = some evidence.runId ∧ binding.runId = some call.runId ∧
      call.integrationId = binding.integrationId ∧ call.provider = provider ∧
      call.capabilityVersion ∈ capabilities ∧ call.status = "SUCCEEDED")
  | none => false

def textIs (fields : List (String × Json)) (key : String) (text : Option String) : Bool :=
  match textAt fields key with
  | some found => decide (text = some found)
  | none => false

def showsCatalog (binding : EffectBinding) (payload : List (String × Json))
    (evidence : Evidence) : Bool :=
  observedBy world binding "mcp" ["mcp.tools/v1"] evidence &&
    textIs evidence.metadata "binding_checksum" (some binding.checksum) &&
    textIs evidence.sourceLocator "catalog_hash" (textAt payload "catalog_hash")

/-- The call that a cancellation names is one of the Run. -/
def cancellationKnown (tables : Documents.UnicodeTables) (binding : EffectBinding)
    (payload : List (String × Json)) : Bool :=
  match textAt payload "cancel_target" with
  | none => true
  | some target => world.effects.any fun effect =>
    decide (Documents.uuid tables target = some effect.id ∧
      binding.runId = some effect.runId ∧ effect.integrationId = binding.integrationId ∧
      effect.capabilityVersion = "mcp.call/v1" ∧ effect.operation = "call")

/-- Cited evidence comes first, and then the earlier one. -/
def catalogOrder (evidenceRefs : List String) (first second : Evidence) : Prop :=
  (first.evidenceRef ∈ evidenceRefs ∧ second.evidenceRef ∉ evidenceRefs) ∨
    ((first.evidenceRef ∈ evidenceRefs ↔ second.evidenceRef ∈ evidenceRefs) ∧
      first.createdAt ≤ second.createdAt)

instance (evidenceRefs : List String) : DecidableRel (catalogOrder evidenceRefs) :=
  fun _ _ => inferInstanceAs (Decidable (_ ∨ _))

variable (tables : Documents.UnicodeTables)

/-- `validate_mcp_observation`: the reference of the evidence of the catalog. -/
def validateMcpObservation (change : ProposedChange) (evidenceRefs : List String)
    (binding : EffectBinding) (payload : List (String × Json)) (allowLookup : Bool) :
    Except ChangeProposalValidationError (Option String) :=
  if change.capabilityVersion = "mcp.call/v1" then do
    require (cancellationKnown world tables binding payload = true)
      ⟨"MCP cancellation requires an original Run effect"⟩
    let candidates := if allowLookup then world.evidence else citedEvidence world evidenceRefs
    let found ← orFault ⟨"MCP call requires original catalog Evidence"⟩
      (((candidates.filter (showsCatalog world binding payload)).insertionSort
        (catalogOrder evidenceRefs)).head?)
    return some found.evidenceRef
  else return none

/-- Equality of two values of JSON, whatever the order of their members. -/
def sameValue (first second : Option Json) : Bool :=
  first.map canonicalChars == second.map canonicalChars

/-- `database_row_revision` of a row that is a value of the payload. -/
def payloadRowRevision : Json → String
  | .null => "absent"
  | row => taggedSha256 library (canonicalJson row)

def observedRows : Json → Json × Json
  | .null => (.number "0", .array [])
  | row => (.number "1", .array [.string (payloadRowRevision library row)])

def databaseObservationMatches (locator payload : List (String × Json)) (integrationId : Uuid) :
    Bool :=
  let rows := observedRows library ((member payload "expected").getD .null)
  sameValue (member locator "integration_id") (some (.string (uuidText integrationId))) &&
    sameValue (member locator "table") (member payload "table") &&
    sameValue (member locator "offset") (some (.number "0")) &&
    sameValue (member locator "truncated") (some (.bool false)) &&
    sameValue (member locator "columns") (some (.array [])) &&
    sameValue (some ((member locator "filters").getD .null))
      (some ((member payload "key").getD .null)) &&
    sameValue (member locator "row_count") (some rows.1) &&
    sameValue (member locator "row_hashes") (some rows.2)

def validateDatabaseObservation (change : ProposedChange) (evidenceRefs : List String)
    (binding : EffectBinding) (payload : List (String × Json)) :
    Except ChangeProposalValidationError Unit :=
  if change.capabilityVersion = "database.write/v1" then
    require ((binding.integrationId.any fun integrationId =>
        (citedEvidence world evidenceRefs).any fun evidence =>
          evidence.evidenceType == "database" &&
            observedBy world binding "postgres" ["database.read/v1", "database.read/v2"]
              evidence &&
            textIs evidence.metadata "binding_checksum" (some binding.checksum) &&
            databaseObservationMatches library evidence.sourceLocator payload integrationId) =
      true) ⟨"Database proposal requires exact read Evidence"⟩
  else return ()

def validateEffectArtifact (change : ProposedChange) (payload : List (String × Json)) :
    Except ChangeProposalValidationError Unit :=
  if change.capabilityVersion = "document.write/v1" ∧ change.operation ∈ ["CREATE", "UPDATE"] then
    require ((((textAt payload "artifact_ref").bind world.artifact).any fun found =>
        textIs payload "content_hash" (some found.1) &&
          sameValue (member payload "size_bytes") (some found.2)) = true)
      ⟨"Document Artifact is unavailable or changed"⟩
  else return ()

end Checks

/-- A row of `change_proposals`; the columns of JSON hold their texts. -/
structure ProposalRow where
  id : Uuid
  proposalRef : String
  place : ProposalPlace
  runAttemptId : Uuid
  effectIntentKey : String
  capabilityVersion : String
  operation : String
  target : List Char
  summary : String
  preview : List Char
  precondition : List Char
  evidenceRefs : List Char
  riskLevel : String
  reversible : Bool
  rollback : List Char
  verification : List Char
  continuationMode : String
  checkpoint : List Char
  idempotencyKey : String
  requestFingerprint : String
  version : Nat
  checksum : String
  expiresAt : Timestamp

/-- The Run that proposes: its identifiers, the checks of its frozen definition, and the keys and
fingerprints of the proposals it has. -/
structure ProposingRun where
  id : Uuid
  projectId : Uuid
  segmentId : Uuid
  attemptId : Uuid
  skillVersionId : Uuid
  /-- `validate_effect_intent` of the definition and the operations of the Run. -/
  intentAllowed : ProposalDraft → Bool
  recorded : List (String × String)

section Storing

variable (library : StandardLibrary) (tables : Documents.UnicodeTables)
  (isoformat : Timestamp → String) (contracts : String → Option EffectContract)
  (world : ProposalWorld)

/-- The draft with the evidence that was looked up for it. -/
def ProposalDraft.citing (draft : ProposalDraft) : Option String → ProposalDraft
  | some ref =>
    if ref ∈ draft.evidenceRefs then draft
    else { draft with evidenceRefs := draft.evidenceRefs ++ [ref] }
  | none => draft

/-- The checks of a draft: the binding it is made for, what its provider sends, and the draft with
the evidence that was looked up. -/
def validateProposalDraft (run : ProposingRun) (draft : ProposalDraft) :
    Except ChangeProposalValidationError
      (ProposalDraft × EffectBinding × List (String × Json)) := do
  require (∀ recorded ∈ run.recorded, recorded.1 ≠ draft.idempotencyKey)
    ⟨"ChangeProposal has already been recorded"⟩
  require (run.intentAllowed draft = true)
    ⟨"ChangeProposal does not match an authorized operation"⟩
  let binding ← orFault ⟨"ChangeProposal has no frozen resource binding"⟩
    (world.bindings.find? fun row => decide (row.runId = some run.id ∧
      row.projectId = run.projectId ∧ row.scopeLevel = "RUN" ∧
      row.requirementKey = draft.resourceKey))
  let integration ← validateEffectBinding library world run.id run.projectId binding
    draft.capabilityVersion
  let contract ← orFault ⟨"Effect Provider is not enabled for apply"⟩
    (contracts draft.capabilityVersion)
  require (binding.provider ∈ contract.providers)
    ⟨"Effect capability does not match the Provider"⟩
  let payload ← contract.validate draft.toProposedChange binding.scope
    ((integration.map EffectIntegration.config).getD [])
  validateDatabaseObservation library world draft.toProposedChange draft.evidenceRefs binding
    payload
  let catalogRef ← validateMcpObservation world tables draft.toProposedChange draft.evidenceRefs
    binding payload true
  validateEffectArtifact world draft.toProposedChange payload
  return (draft.citing catalogRef, binding, payload)

/-- The row of a proposal; the checkpoint is the one that was merged for it. -/
def storeProposal (run : ProposingRun) (draft : ProposalDraft) (agentSessionId proposalId : Uuid)
    (reference : String) (checkpoint : List (String × Json)) :
    Except ChangeProposalValidationError (ProposalRow × List (String × Json)) := do
  let (draft, binding, payload) ← validateProposalDraft library tables contracts world run draft
  validateEvidenceRefs world run.id draft.evidenceRefs
  let place : ProposalPlace :=
    { projectId := run.projectId, runId := run.id, runSegmentId := run.segmentId,
      agentSessionId := agentSessionId, skillVersionId := run.skillVersionId,
      targetBindingId := binding.id, integrationId := binding.integrationId }
  return (
    { id := proposalId, proposalRef := reference, place := place, runAttemptId := run.attemptId,
      effectIntentKey := draft.effectIntentKey, capabilityVersion := draft.capabilityVersion,
      operation := draft.operation, target := dumps (.object draft.target),
      summary := draft.summary,
      preview := dumps (.object [("changes", .array (draft.changes.map .object))]),
      precondition := dumps (.object draft.precondition),
      evidenceRefs := dumps (.array (draft.evidenceRefs.map .string)),
      riskLevel := draft.riskLevel, reversible := draft.reversible,
      rollback := dumps (.object draft.rollback),
      verification := dumps (.object draft.verification),
      continuationMode := draft.continuationMode, checkpoint := dumps (.object checkpoint),
      idempotencyKey := draft.idempotencyKey, requestFingerprint := draft.requestFingerprint,
      version := 1,
      checksum := proposalChecksum library (proposalContent isoformat place draft),
      expiresAt := draft.expiresAt }, payload)

def objectColumn (text : List Char) : Option (List (String × Json)) := (loads text).bind asObject

def rowDraft (row : ProposalRow) (resourceKey : String) : Option ProposalDraft := do
  let target ← objectColumn row.target
  let preview ← objectColumn row.preview
  let changes ← objectsAt preview "changes"
  let precondition ← objectColumn row.precondition
  let refs ← loads row.evidenceRefs
  let evidenceRefs ← textsAt [("evidence_refs", refs)] "evidence_refs"
  let rollback ← objectColumn row.rollback
  let verification ← objectColumn row.verification
  let checkpoint ← objectColumn row.checkpoint
  return {
    capabilityVersion := row.capabilityVersion, operation := row.operation, target := target,
    changes := changes, precondition := precondition, verification := verification,
    summary := row.summary, effectIntentKey := row.effectIntentKey, resourceKey := resourceKey,
    evidenceRefs := evidenceRefs, riskLevel := row.riskLevel, reversible := row.reversible,
    rollback := rollback, idempotencyKey := row.idempotencyKey,
    requestFingerprint := row.requestFingerprint, expiresAt := row.expiresAt,
    continuationMode := row.continuationMode, checkpoint := checkpoint }

def validateProposalRow (runId projectId : Uuid) (row : ProposalRow) :
    Except ChangeProposalValidationError (List (String × Json)) := do
  let binding ← orFault ⟨"Proposal target changed after creation"⟩
    (getBinding world row.place.targetBindingId)
  require (binding.integrationId = row.place.integrationId)
    ⟨"Proposal target changed after creation"⟩
  let integration ← validateEffectBinding library world runId projectId binding
    row.capabilityVersion
  let draft ← orFault ⟨"Proposal preview snapshot is invalid"⟩
    (rowDraft row binding.requirementKey)
  require (row.checksum =
      proposalChecksum library (contentOf isoformat row.place draft row.version))
    ⟨"Proposal checksum does not match stored content"⟩
  let contract ← orFault ⟨"Effect Provider is not enabled for apply"⟩
    (contracts row.capabilityVersion)
  let payload ← contract.validate draft.toProposedChange binding.scope
    ((integration.map EffectIntegration.config).getD [])
  validateDatabaseObservation library world draft.toProposedChange draft.evidenceRefs binding
    payload
  let _ ← validateMcpObservation world tables draft.toProposedChange draft.evidenceRefs binding
    payload false
  validateEffectArtifact world draft.toProposedChange payload
  validateEvidenceRefs world runId draft.evidenceRefs
  return payload

end Storing

end SkillMind.Effects
