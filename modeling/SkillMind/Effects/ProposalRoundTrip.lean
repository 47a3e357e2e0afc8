import SkillMind.Documents.Binding
import SkillMind.Effects.StoredProposal

/-!
# A stored proposal keeps its checksum

The values of a draft go through the text of the columns and come back as they were, so that the
checksum that is taken again is the one that was stored.  The provider reads nothing that the
transaction adds to the draft, and sends what it sent.
-/

namespace SkillMind.Effects

open Library SkillMind.Core
open Runs (Uuid Timestamp)
open Documents (member)

theorem objectColumn_dumps {fields : List (String × Json)}
    (formed : (Json.object fields).wellFormed = true) :
    objectColumn (dumps (.object fields)) = some fields := by
  rw [objectColumn, loads_dumps formed]
  rfl

theorem mapM_written {α β : Type} {read : β → Option α} {write : α → β}
    (back : ∀ item, read (write item) = some item) (items : List α) :
    (items.map write).mapM read = some items := by
  induction items with
  | nil => rfl
  | cons item rest ih =>
    rw [List.map_cons, List.mapM_cons, back, ih]
    rfl

theorem objectsAt_single (key : String) (objects : List (List (String × Json))) :
    objectsAt [(key, .array (objects.map .object))] key = some objects := by
  have found : itemsAt [(key, .array (objects.map .object))] key =
      some (objects.map .object) := by
    simp [itemsAt, member]
  have back : ∀ fields, asObject (.object fields) = some fields := fun _ => rfl
  rw [objectsAt, found]
  exact mapM_written back objects

theorem textsAt_single (key : String) (texts : List String) :
    textsAt [(key, .array (texts.map .string))] key = some texts := by
  have found : itemsAt [(key, .array (texts.map .string))] key = some (texts.map .string) := by
    simp [itemsAt, member]
  have back : ∀ text, asText (.string text) = some text := fun _ => rfl
  rw [textsAt, found]
  exact mapM_written back texts

def rowRefs (row : ProposalRow) : List String :=
  ((loads row.evidenceRefs).bind fun refs =>
    textsAt [("evidence_refs", refs)] "evidence_refs").getD []

/-! ## Checks in a later state -/

/-- The rows that a proposal was checked against are as they were; others may have come, and its
executions may have moved on. -/
structure Unchanged (world later : ProposalWorld) (row : ProposalRow)
    (payload : List (String × Json)) : Prop where
  binding : ∀ binding ∈ world.bindings, binding.id = row.place.targetBindingId →
    getBinding later binding.id = some binding ∧
      later.libraryHolds binding = world.libraryHolds binding
  integration : getEffectIntegration later row.place.integrationId =
    getEffectIntegration world row.place.integrationId
  evidence : citedEvidence later (rowRefs row) = citedEvidence world (rowRefs row)
  calls : ∀ evidence ∈ citedEvidence world (rowRefs row),
    later.calls.find? (fun call => decide (call.id = evidence.toolCallId)) =
      world.calls.find? fun call => decide (call.id = evidence.toolCallId)
  effects : ∀ effect ∈ world.effects, effect ∈ later.effects
  artifact : ∀ ref, textAt payload "artifact_ref" = some ref →
    later.artifact ref = world.artifact ref

variable {library : StandardLibrary} {tables : Documents.UnicodeTables}
  {isoformat : Timestamp → String} {contracts : String → Option EffectContract}
  {world later : ProposalWorld} {row : ProposalRow} {payload : List (String × Json)}
  {binding : EffectBinding} {change : ProposedChange}

theorem Unchanged.observed (unchanged : Unchanged world later row payload)
    {evidence : Evidence} (cited : evidence ∈ citedEvidence world (rowRefs row))
    (provider : String) (capabilities : List String) :
    observedBy later binding provider capabilities evidence =
      observedBy world binding provider capabilities evidence := by
  rw [observedBy, observedBy, unchanged.calls evidence cited]

theorem Unchanged.database (unchanged : Unchanged world later row payload) :
    validateDatabaseObservation library later change (rowRefs row) binding payload =
      validateDatabaseObservation library world change (rowRefs row) binding payload := by
  have each : ∀ integrationId : Uuid,
      ((citedEvidence world (rowRefs row)).any fun evidence =>
        evidence.evidenceType == "database" &&
          observedBy later binding "postgres" ["database.read/v1", "database.read/v2"] evidence &&
          textIs evidence.metadata "binding_checksum" (some binding.checksum) &&
          databaseObservationMatches library evidence.sourceLocator payload integrationId) =
      (citedEvidence world (rowRefs row)).any fun evidence =>
        evidence.evidenceType == "database" &&
          observedBy world binding "postgres" ["database.read/v1", "database.read/v2"] evidence &&
          textIs evidence.metadata "binding_checksum" (some binding.checksum) &&
          databaseObservationMatches library evidence.sourceLocator payload integrationId := by
    intro integrationId
    rw [Bool.eq_iff_iff, List.any_eq_true, List.any_eq_true]
    constructor <;> rintro ⟨evidence, cited, shown⟩ <;> refine ⟨evidence, cited, ?_⟩
    · rwa [unchanged.observed cited] at shown
    · rwa [unchanged.observed cited]
  rw [validateDatabaseObservation, validateDatabaseObservation, unchanged.evidence]
  simp only [each]

theorem Unchanged.evidenceRefs (unchanged : Unchanged world later row payload) (runId : Uuid) :
    validateEvidenceRefs later runId (rowRefs row) =
      validateEvidenceRefs world runId (rowRefs row) := by
  rw [validateEvidenceRefs, validateEvidenceRefs, unchanged.evidence]

theorem Unchanged.effectArtifact (unchanged : Unchanged world later row payload) :
    validateEffectArtifact later change payload =
      validateEffectArtifact world change payload := by
  have same : (textAt payload "artifact_ref").bind later.artifact =
      (textAt payload "artifact_ref").bind world.artifact := by
    cases found : textAt payload "artifact_ref" with
    | none => rfl
    | some ref => exact unchanged.artifact ref found
  rw [validateEffectArtifact, validateEffectArtifact, same]

theorem Unchanged.cancellation (unchanged : Unchanged world later row payload)
    (known : cancellationKnown world tables binding payload = true) :
    cancellationKnown later tables binding payload = true := by
  rw [cancellationKnown] at known ⊢
  split at known
  · rfl
  · rw [List.any_eq_true] at known ⊢
    obtain ⟨effect, mem, same⟩ := known
    exact ⟨effect, unchanged.effects effect mem, same⟩

theorem Unchanged.effectBinding (unchanged : Unchanged world later row payload)
    (mem : binding ∈ world.bindings) (target : binding.id = row.place.targetBindingId)
    (bound : binding.integrationId = row.place.integrationId) (runId projectId : Uuid)
    (capability : String) :
    validateEffectBinding library later runId projectId binding capability =
      validateEffectBinding library world runId projectId binding capability := by
  have library := (unchanged.binding binding mem target).2
  have integration := unchanged.integration
  rw [← bound] at integration
  rw [validateEffectBinding, validateEffectBinding, library, integration]

theorem Unchanged.mcp (unchanged : Unchanged world later row payload) {refs : List String}
    {found : Option String}
    (observed : validateMcpObservation world tables change refs binding payload true = .ok found)
    (cites : ∀ ref, found = some ref → ref ∈ rowRefs row) :
    ∃ found', validateMcpObservation later tables change (rowRefs row) binding payload false =
      .ok found' := by
  rw [validateMcpObservation] at observed ⊢
  split at observed
  · rename_i calls
    simp only [bind_eq_ok, require_eq_ok, exists_unit, orFault_eq_ok, pure_eq_ok,
      if_true] at observed
    obtain ⟨known, evidence, first, rfl⟩ := observed
    have inside := List.mem_of_mem_head? first
    rw [List.mem_insertionSort, List.mem_filter] at inside
    have cited : evidence ∈ citedEvidence world (rowRefs row) :=
      List.mem_filter.mpr ⟨inside.1, decide_eq_true (cites _ rfl)⟩
    have shown : showsCatalog later binding payload evidence = true := by
      rw [showsCatalog, unchanged.observed cited]
      exact inside.2
    have mem : evidence ∈ ((citedEvidence later (rowRefs row)).filter
        (showsCatalog later binding payload)).insertionSort (catalogOrder (rowRefs row)) := by
      rw [List.mem_insertionSort, List.mem_filter, unchanged.evidence]
      exact ⟨cited, shown⟩
    rw [if_pos calls, require_of (unchanged.cancellation known), ok_bind]
    cases sorted : ((citedEvidence later (rowRefs row)).filter
        (showsCatalog later binding payload)).insertionSort (catalogOrder (rowRefs row)) with
    | nil => rw [sorted] at mem; cases mem
    | cons head rest =>
      refine ⟨some head.evidenceRef, ?_⟩
      simp only [Bool.false_eq_true, if_false, sorted, List.head?_cons, orFault_some, ok_bind]
      rfl
  · rename_i other
    exact ⟨none, by rw [if_neg other]; rfl⟩

theorem citing_eq (draft : ProposalDraft) (catalogRef : Option String) :
    ∃ refs, draft.citing catalogRef = { draft with evidenceRefs := refs } ∧
      (∀ ref, catalogRef = some ref → ref ∈ refs) ∧
        (catalogRef = none → refs = draft.evidenceRefs) := by
  cases catalogRef with
  | none => exact ⟨draft.evidenceRefs, rfl, fun _ found => (nomatch found), fun _ => rfl⟩
  | some ref =>
    by_cases cited : ref ∈ draft.evidenceRefs
    · refine ⟨draft.evidenceRefs, ?_, ?_, fun absent => (nomatch absent)⟩
      · rw [ProposalDraft.citing, if_pos cited]
      · rintro _ ⟨⟩
        exact cited
    · refine ⟨draft.evidenceRefs ++ [ref], ?_, ?_, fun absent => (nomatch absent)⟩
      · rw [ProposalDraft.citing, if_neg cited]
      · rintro _ ⟨⟩
        exact List.mem_append_right _ List.mem_cons_self

theorem rowDraft_stored {draft : ProposalDraft} (formed : draft.Formed)
    {checkpoint : List (String × Json)} (kept : (Json.object checkpoint).wellFormed = true)
    (target : row.target = dumps (.object draft.target))
    (preview : row.preview = dumps (.object [("changes", .array (draft.changes.map .object))]))
    (precondition : row.precondition = dumps (.object draft.precondition))
    (refs : row.evidenceRefs = dumps (.array (draft.evidenceRefs.map .string)))
    (rollback : row.rollback = dumps (.object draft.rollback))
    (verification : row.verification = dumps (.object draft.verification))
    (merged : row.checkpoint = dumps (.object checkpoint)) (resourceKey : String) :
    rowDraft row resourceKey = some {
      capabilityVersion := row.capabilityVersion, operation := row.operation,
      target := draft.target, changes := draft.changes, precondition := draft.precondition,
      verification := draft.verification, summary := row.summary,
      effectIntentKey := row.effectIntentKey, resourceKey := resourceKey,
      evidenceRefs := draft.evidenceRefs, riskLevel := row.riskLevel,
      reversible := row.reversible, rollback := draft.rollback,
      idempotencyKey := row.idempotencyKey, requestFingerprint := row.requestFingerprint,
      expiresAt := row.expiresAt, continuationMode := row.continuationMode,
      checkpoint := checkpoint } := by
  have changes : (Json.object [("changes", .array (draft.changes.map .object))]).wellFormed =
      true := by
    apply object_wellFormed
    · exact List.nodup_singleton _
    · intro field mem
      rw [List.mem_singleton.mp mem]
      exact formed.changes
  simp only [rowDraft, target, preview, precondition, refs, rollback, verification, merged,
    objectColumn_dumps formed.target, objectColumn_dumps changes,
    objectColumn_dumps formed.precondition, objectColumn_dumps formed.rollback,
    objectColumn_dumps formed.verification, objectColumn_dumps kept,
    loads_dumps (texts_wellFormed draft.evidenceRefs), objectsAt_single, textsAt_single,
    Option.bind_eq_bind, Option.bind_some, Option.pure_def]

theorem rowRefs_stored {refs : List String}
    (stored : row.evidenceRefs = dumps (.array (refs.map .string))) : rowRefs row = refs := by
  rw [rowRefs, stored, loads_dumps (texts_wellFormed refs), Option.bind_some, textsAt_single,
    Option.getD_some]

/-- **A stored proposal keeps its checksum**: as long as the rows it was checked against are as
they were, the row that is read back passes every check again, with the checksum that was stored,
and its provider sends what it sent. -/
theorem proposals_keep_checksum {isValid : Json → Bool} {request : List (String × Json)}
    {now : Timestamp} {identity : Option String} {draft : ProposalDraft} {run : ProposingRun}
    {agentSessionId proposalId : Uuid} {reference : String} {checkpoint : List (String × Json)}
    (formed : (Json.object request).wellFormed = true)
    (kept : (Json.object checkpoint).wellFormed = true)
    (parsed : parseChangeProposalRequest library isValid request now identity = .ok draft)
    (stored : storeProposal library tables isoformat contracts world run draft agentSessionId
      proposalId reference checkpoint = .ok (row, payload))
    (unchanged : Unchanged world later row payload) :
    validateProposalRow library tables isoformat contracts later run.id run.projectId row =
        .ok payload ∧
      ∃ binding read, getBinding later row.place.targetBindingId = some binding ∧
        rowDraft row binding.requirementKey = some read ∧
        row.checksum =
          proposalChecksum library (contentOf isoformat row.place read row.version) := by
  have good := parseChangeProposalRequest_formed formed parsed
  simp only [storeProposal, validateProposalDraft, bind_eq_ok, require_eq_ok, exists_unit,
    orFault_eq_ok, pure_eq_ok, Prod.mk.injEq] at stored
  obtain ⟨_, ⟨-, -, binding, search, integration, bound, contract, registered, -, sent,
    validated, database, catalogRef, observed, artifact, rfl⟩, cited, rowIs, rfl⟩ := stored
  obtain ⟨refs, citing, mentions, plain⟩ := citing_eq draft catalogRef
  rw [citing] at cited rowIs
  have requirement : binding.requirementKey = draft.resourceKey := by
    have found := List.find?_some search
    exact (of_decide_eq_true found).2.2.2
  have mem := List.mem_of_find?_eq_some search
  have refsRow : rowRefs row = refs := rowRefs_stored (by rw [← rowIs])
  have target : binding.id = row.place.targetBindingId := by rw [← rowIs]
  have boundTo : binding.integrationId = row.place.integrationId := by rw [← rowIs]
  have capability : row.capabilityVersion = draft.capabilityVersion := by rw [← rowIs]
  obtain ⟨read, rebuilt, change, readRefs, checksum⟩ : ∃ read,
      rowDraft row binding.requirementKey = some read ∧
      read.toProposedChange = draft.toProposedChange ∧ read.evidenceRefs = refs ∧
      row.checksum = proposalChecksum library
        (contentOf isoformat row.place read row.version) := by
    have changed : ({ draft with evidenceRefs := refs } : ProposalDraft).Formed :=
      ⟨good.target, good.changes, good.precondition, good.verification, good.rollback⟩
    refine ⟨_, rowDraft_stored changed kept (by rw [← rowIs]) (by rw [← rowIs])
      (by rw [← rowIs]) (by rw [← rowIs]) (by rw [← rowIs]) (by rw [← rowIs])
      (by rw [← rowIs]) binding.requirementKey, ?_, rfl, ?_⟩
    · rw [← rowIs]
    · rw [← rowIs, requirement]
      rfl
  have there : getBinding later row.place.targetBindingId = some binding := by
    rw [← target]
    exact (unchanged.binding binding mem target).1
  refine ⟨?_, binding, read, there, rebuilt, checksum⟩
  have sameBinding : validateEffectBinding library later run.id run.projectId binding
        draft.capabilityVersion =
      validateEffectBinding library world run.id run.projectId binding draft.capabilityVersion :=
    unchanged.effectBinding mem target boundTo run.id run.projectId draft.capabilityVersion
  have catalog : catalogRef = none ∨ draft.capabilityVersion = "mcp.call/v1" := by
    rw [validateMcpObservation] at observed
    split at observed
    · rename_i calls
      exact .inr calls
    · exact .inl (pure_eq_ok.mp observed).symm
  have databaseLater : validateDatabaseObservation library later draft.toProposedChange
      (rowRefs row) binding sent = .ok () := by
    rw [unchanged.database, refsRow]
    rcases catalog with none | calls
    · rw [plain none]
      exact database
    · rw [validateDatabaseObservation, if_neg (by rw [calls]; decide)]
      rfl
  obtain ⟨found, observedLater⟩ := unchanged.mcp observed
    (fun ref named => refsRow ▸ mentions ref named)
  have artifactLater : validateEffectArtifact later draft.toProposedChange sent =
      validateEffectArtifact world draft.toProposedChange sent := unchanged.effectArtifact
  have citedLater := unchanged.evidenceRefs run.id
  rw [artifact] at artifactLater
  rw [refsRow, cited] at citedLater
  rw [refsRow] at databaseLater observedLater
  simp only [validateProposalRow, there, orFault_some, ok_bind, require_of boundTo, capability,
    sameBinding, bound, rebuilt, require_of checksum, registered, change, readRefs, validated,
    databaseLater, observedLater, artifactLater, citedLater]
  rfl

/-- One call of a ticket system, with a body that is sent as it is. -/
def ticketRequest : List (String × Json) :=
  [ ("resource_key", .string "tickets"), ("capability_version", .string "http.write/v1")
  , ("operation", .string "POST")
  , ("target", .object [("locator", .string "/new"), ("display", .string "New ticket")])
  , ("changes", .array [.object
      [ ("path", .string "/request"), ("action", .string "SET")
      , ("value", .object [("request", .object
          [("method", .string "POST"), ("path", .string "/new"), ("body", .number "1.5")])]) ]])
  , ("summary", .string "Open a ticket") ]

def ticketScope : List (String × Json) :=
  [("base_urls", .array [.string "https://tickets.example"])]

def ticketBinding : EffectBinding :=
  let row : EffectBinding := ⟨20, 5, some 7, some 30, "RUN", uuidText 7, "tickets", "integration",
    "http", "http.write/v1", "1", ticketScope, "", none⟩
  { row with checksum := bindingChecksum Documents.zeroLibrary row }

def ticketWorld (evidence : List Evidence) : ProposalWorld where
  bindings := [ticketBinding]
  integrations := [⟨30, 5, "ACTIVE", "http", 1, ["http.read/v1", "http.write/v1"], []⟩]
  evidence := evidence
  calls := []
  effects := []
  libraryHolds _ := false
  artifact _ := none

/-- The provider sends the value of the one change. -/
def ticketContracts (capability : String) : Option EffectContract :=
  if capability = "http.write/v1" then
    some ⟨["http"], fun change _ _ =>
      orFault invalidRequest (change.changes.head?.bind fun fields => objectAt fields "value")⟩
  else none

def ticketRun : ProposingRun := ⟨7, 5, 8, 9, 10, fun _ => true, []⟩

/-- A proposal is approved after other evidence was recorded. -/
theorem proposals_keep_checksum_sample :
    ∃ draft row payload,
      parseChangeProposalRequest Documents.zeroLibrary (fun _ => true) ticketRequest 100
        (some "call-1") = .ok draft ∧
      storeProposal Documents.zeroLibrary Documents.asciiTables toString ticketContracts
        (ticketWorld []) ticketRun draft 11 12 "cp_12" draft.checkpoint = .ok (row, payload) ∧
      validateProposalRow Documents.zeroLibrary Documents.asciiTables toString ticketContracts
        (ticketWorld [⟨"ev_1", 7, 3, "http", "", [], "", none, [], 4⟩]) 7 5 row = .ok payload := by
  have accepted : (do
      let draft ← parseChangeProposalRequest Documents.zeroLibrary (fun _ => true) ticketRequest
        100 (some "call-1")
      let stored ← storeProposal Documents.zeroLibrary Documents.asciiTables toString
        ticketContracts (ticketWorld []) ticketRun draft 11 12 "cp_12" draft.checkpoint
      require ((Json.object draft.checkpoint).wellFormed = true ∧
        stored.1.evidenceRefs = "[]".toList) invalidRequest).isOk = true := by decide +kernel
  obtain ⟨_, accepted⟩ := exists_ok_iff.mpr accepted
  simp only [bind_eq_ok, require_eq_ok] at accepted
  obtain ⟨draft, parsed, ⟨row, payload⟩, stored, checkpoint, refs⟩ := accepted
  refine ⟨draft, row, payload, parsed, stored, ?_⟩
  have noRefs : rowRefs row = [] := by
    rw [rowRefs, refs]
    decide
  have formed : (Json.object ticketRequest).wellFormed = true := by decide
  have unchanged : Unchanged (ticketWorld [])
      (ticketWorld [⟨"ev_1", 7, 3, "http", "", [], "", none, [], 4⟩]) row payload :=
    { binding := by
        intro binding mem _
        rw [List.mem_singleton.mp mem]
        exact ⟨rfl, rfl⟩
      integration := rfl
      evidence := by
        rw [noRefs]
        rfl
      calls := fun _ _ => rfl
      effects := fun _ mem => mem
      artifact := fun _ _ => rfl }
  exact (proposals_keep_checksum formed checkpoint parsed stored unchanged).1

end SkillMind.Effects
