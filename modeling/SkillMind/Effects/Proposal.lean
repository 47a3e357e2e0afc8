import SkillMind.Documents.Snapshot

/-!
# Proposed changes

The agent asks for a change outside of the system with one JSON request.  The request is checked
against its contract, completed with the values that the platform decides, and kept as a draft.
The content of a proposal is one object, and its checksum is the hash of the canonical text of it.

The contract is checked by a schema validator, which is a parameter here.
-/

namespace SkillMind.Effects

open Library SkillMind.Core
open Runs (Uuid Timestamp)
open Documents (member)

structure ChangeProposalValidationError where
  message : String

/-- The part of a draft that its provider checks. -/
structure ProposedChange where
  capabilityVersion : String
  operation : String
  target : List (String × Json)
  changes : List (List (String × Json))
  precondition : List (String × Json)
  verification : List (String × Json)
  summary : String

structure ProposalDraft extends ProposedChange where
  effectIntentKey : String
  resourceKey : String
  evidenceRefs : List String
  riskLevel : String
  reversible : Bool
  rollback : List (String × Json)
  idempotencyKey : String
  requestFingerprint : String
  expiresAt : Timestamp
  continuationMode : String
  checkpoint : List (String × Json)

section Parsing

variable (library : StandardLibrary)

def sha256Hex (text : String) : String := String.ofList (library.sha256 text).digits

def operationAuthorizationKey (resource capability operation : String) : String :=
  "op-" ++ sha256Hex library
    (canonicalJson (.array [.string resource, .string capability, .string operation]))

def operationRisk (capability : String) : String :=
  if capability ∈ ["database.write/v1", "document.write/v1"] then "MEDIUM" else "HIGH"

mutual
def containsSensitiveText : Json → Bool
  | .string text => containsSensitiveContent library text
  | .object fields => membersSensitive fields
  | .array items => itemsSensitive items
  | _ => false

def membersSensitive : List (String × Json) → Bool
  | [] => false
  | (_, value) :: rest => containsSensitiveText value || membersSensitive rest

def itemsSensitive : List Json → Bool
  | [] => false
  | value :: rest => containsSensitiveText value || itemsSensitive rest
end

/-! ## Reading members -/

def invalidRequest : ChangeProposalValidationError :=
  ⟨"ChangeProposal request did not match its contract"⟩

def textAt (fields : List (String × Json)) (key : String) : Option String :=
  match member fields key with
  | some (.string text) => some text
  | _ => none

def objectAt (fields : List (String × Json)) (key : String) : Option (List (String × Json)) :=
  match member fields key with
  | some (.object nested) => some nested
  | _ => none

def boolAt (fields : List (String × Json)) (key : String) : Option Bool :=
  match member fields key with
  | some (.bool value) => some value
  | _ => none

def itemsAt (fields : List (String × Json)) (key : String) : Option (List Json) :=
  match member fields key with
  | some (.array items) => some items
  | _ => none

def asObject : Json → Option (List (String × Json))
  | .object fields => some fields
  | _ => none

def asText : Json → Option String
  | .string text => some text
  | _ => none

def objectsAt (fields : List (String × Json)) (key : String) :
    Option (List (List (String × Json))) := do
  let items ← itemsAt fields key
  items.mapM asObject

def textsAt (fields : List (String × Json)) (key : String) : Option (List String) := do
  let items ← itemsAt fields key
  items.mapM asText

/-- `int` of a whole number, which may be written with a fraction of zero. -/
def secondsAt (fields : List (String × Json)) (key : String) : Option Nat :=
  match member fields key with
  | some (.number literal) => some ((literal.toList.takeWhile Char.isDigit).foldl
      (fun number c => number * 10 + (c.toNat - 0x30)) 0)
  | _ => none

def setDefault (key : String) (value : Json) (fields : List (String × Json)) :
    List (String × Json) :=
  if (member fields key).isSome = true then fields else fields ++ [(key, value)]

def responseMethod (capability : Option String) : Option String :=
  if capability = some "http.write/v1" then some "HTTP_RESPONSE"
  else if capability = some "database.execute/v1" then some "SQL_RESPONSE"
  else none

def changedPaths (fields : List (String × Json)) : List String :=
  ((itemsAt fields "changes").getD []).filterMap fun item =>
    (asObject item).map fun change => (textAt change "path").getD ""

/-- The request with the members that the platform decides. -/
def completed (value : List (String × Json)) (identity : String) : List (String × Json) :=
  let capability := textAt value "capability_version"
  let method := responseMethod capability
  let opened :=
    if method.isSome then
      setDefault "evidence_refs" (.array []) (setDefault "precondition" (.object []) value)
    else value
  let paths := changedPaths value
  let keyed := setDefault "idempotency_key" (.string ("sdk:" ++ sha256Hex library identity)) opened
  let rated := setDefault "risk_level" (.string (operationRisk (capability.getD ""))) keyed
  let final := setDefault "reversible" (.bool false) rated
  let undone := setDefault "rollback" (.object [("description",
    .string "No automatic compensation; preserve the original operation receipt.")]) final
  let verified := setDefault "verification" (.object
    [("method", .string (method.getD "READ_BACK")), ("paths", .array (paths.map .string))]) undone
  let timed := setDefault "expires_in_seconds" (.number "3600") verified
  let continued := setDefault "continuation_mode" (.string "RESUME") timed
  setDefault "checkpoint" (.object
    [ ("summary", (member continued "summary").getD (.string "Continue the original task."))
    , ("confirmed_facts", .array [])
    , ("evidence_refs", .array [])
    , ("artifact_refs", .array [])
    , ("change_proposal_refs", .array []) ]) continued

variable (isValid : Json → Bool)

def parseChangeProposalRequest (value : List (String × Json)) (now : Timestamp)
    (requestIdentity : Option String) : Except ChangeProposalValidationError ProposalDraft := do
  require (isValid (.object value) = true) invalidRequest
  require ((member value "idempotency_key").isSome = true ∨
      (requestIdentity ≠ none ∧ requestIdentity ≠ some ""))
    ⟨"Platform request identity is required"⟩
  let payload := completed library value (requestIdentity.getD "")
  require (isValid (.object payload) = true) invalidRequest
  require (findSensitiveKey library true (.object payload) = none ∧
      containsSensitiveText library (.object payload) = false)
    ⟨"ChangeProposal contains sensitive content"⟩
  let changes ← orFault invalidRequest (objectsAt payload "changes")
  let paths := changedPaths payload
  require paths.Nodup ⟨"ChangeProposal changes contain duplicate paths"⟩
  let verification ← orFault invalidRequest (objectAt payload "verification")
  let verified ← orFault invalidRequest (textsAt verification "paths")
  require ((∀ path ∈ verified, path ∈ paths) ∧ ∀ path ∈ paths, path ∈ verified)
    ⟨"ChangeProposal verification paths must exactly match changed paths"⟩
  let checkpoint ← orFault invalidRequest (objectAt payload "checkpoint")
  let resourceKey ← orFault invalidRequest (textAt payload "resource_key")
  let capability ← orFault invalidRequest (textAt payload "capability_version")
  let operation ← orFault invalidRequest (textAt payload "operation")
  let target ← orFault invalidRequest (objectAt payload "target")
  let precondition ← orFault invalidRequest (objectAt payload "precondition")
  let summary ← orFault invalidRequest (textAt payload "summary")
  let evidenceRefs ← orFault invalidRequest (textsAt payload "evidence_refs")
  let riskLevel ← orFault invalidRequest (textAt payload "risk_level")
  let reversible ← orFault invalidRequest (boolAt payload "reversible")
  let rollback ← orFault invalidRequest (objectAt payload "rollback")
  let idempotencyKey ← orFault invalidRequest (textAt payload "idempotency_key")
  let seconds ← orFault invalidRequest (secondsAt payload "expires_in_seconds")
  let continuationMode ← orFault invalidRequest (textAt payload "continuation_mode")
  let intentKey :=
    match textAt payload "effect_intent_key" with
    | none | some "" => operationAuthorizationKey library resourceKey capability operation
    | some key => key
  return {
    capabilityVersion := capability, operation := operation, target := target,
    changes := changes, precondition := precondition, verification := verification,
    summary := summary, effectIntentKey := intentKey, resourceKey := resourceKey,
    evidenceRefs := evidenceRefs, riskLevel := riskLevel, reversible := reversible,
    rollback := rollback, idempotencyKey := idempotencyKey,
    requestFingerprint := sha256Hex library (canonicalJson (.object value)),
    expiresAt := now + seconds * 1000000, continuationMode := continuationMode,
    checkpoint := checkpoint }

end Parsing

structure ProposalPlace where
  projectId : Uuid
  runId : Uuid
  runSegmentId : Uuid
  agentSessionId : Uuid
  skillVersionId : Uuid
  targetBindingId : Uuid
  integrationId : Option Uuid

section Content

variable (isoformat : Timestamp → String)

/-- The object that the checksum is taken of. -/
def contentOf (place : ProposalPlace) (draft : ProposalDraft) (version : Nat) : Json :=
  .object
    [ ("project_id", .string (uuidText place.projectId))
    , ("run_id", .string (uuidText place.runId))
    , ("run_segment_id", .string (uuidText place.runSegmentId))
    , ("agent_session_id", .string (uuidText place.agentSessionId))
    , ("skill_version_id", .string (uuidText place.skillVersionId))
    , ("target_binding_id", .string (uuidText place.targetBindingId))
    , ("integration_id", (place.integrationId.map fun id => .string (uuidText id)).getD .null)
    , ("effect_intent_key", .string draft.effectIntentKey)
    , ("resource_key", .string draft.resourceKey)
    , ("capability_version", .string draft.capabilityVersion)
    , ("operation", .string draft.operation)
    , ("target", .object draft.target)
    , ("changes", .array (draft.changes.map .object))
    , ("precondition", .object draft.precondition)
    , ("summary", .string draft.summary)
    , ("evidence_refs", .array (draft.evidenceRefs.map .string))
    , ("risk_level", .string draft.riskLevel)
    , ("reversible", .bool draft.reversible)
    , ("rollback", .object draft.rollback)
    , ("verification", .object draft.verification)
    , ("idempotency_key", .string draft.idempotencyKey)
    , ("request_fingerprint", .string draft.requestFingerprint)
    , ("expires_at", .string (isoformat draft.expiresAt))
    , ("version", .number (toString version)) ]

def proposalContent (place : ProposalPlace) (draft : ProposalDraft) : Json :=
  contentOf isoformat place draft 1

def proposalChecksum (library : StandardLibrary) (content : Json) : String :=
  taggedSha256 library (canonicalJson content)

end Content

/-! ## Requests are values of JSON -/

section Formed

variable {fields : List (String × Json)}

theorem member_wellFormed
    (formed : (Json.object fields).wellFormed = true) {key : String} {value : Json}
    (found : member fields key = some value) : value.wellFormed = true := by
  simp only [Json.wellFormed, Bool.and_eq_true, membersWellFormed_iff] at formed
  rw [member, Option.map_eq_some_iff] at found
  obtain ⟨field, search, rfl⟩ := found
  exact formed.2 field (List.mem_of_find?_eq_some search)

theorem member_eq_none {key : String}
    (absent : ¬ (member fields key).isSome = true) : key ∉ fields.map Prod.fst := by
  intro mem
  obtain ⟨field, inside, rfl⟩ := List.mem_map.mp mem
  apply absent
  rw [member, Option.isSome_map, List.find?_isSome]
  exact ⟨field, inside, decide_eq_true rfl⟩

theorem setDefault_wellFormed
    (formed : (Json.object fields).wellFormed = true) (key : String) (value : Json)
    (valid : value.wellFormed = true) :
    (Json.object (setDefault key value fields)).wellFormed = true := by
  rw [setDefault]
  split
  · exact formed
  · rename_i absent
    simp only [Json.wellFormed, Bool.and_eq_true, decide_eq_true_eq,
      membersWellFormed_iff] at formed ⊢
    constructor
    · rw [List.map_append, List.map_singleton]
      exact formed.1.append (List.nodup_singleton key)
        (List.disjoint_singleton.mpr (member_eq_none absent))
    · intro field mem
      rcases List.mem_append.mp mem with inside | last
      · exact formed.2 field inside
      · rw [List.mem_singleton.mp last]
        exact valid

theorem object_wellFormed
    (keys : (fields.map Prod.fst).Nodup)
    (values : ∀ field ∈ fields, field.2.wellFormed = true) :
    (Json.object fields).wellFormed = true := by
  simp only [Json.wellFormed, Bool.and_eq_true, decide_eq_true_eq, membersWellFormed_iff]
  exact ⟨keys, values⟩

theorem texts_wellFormed (texts : List String) :
    (Json.array (texts.map .string)).wellFormed = true := by
  rw [Json.wellFormed, itemsWellFormed_iff]
  intro item mem
  obtain ⟨text, -, rfl⟩ := List.mem_map.mp mem
  rfl

theorem defaultCheckpoint_wellFormed
    (formed : (Json.object fields).wellFormed = true) :
    (Json.object
      [ ("summary", (member fields "summary").getD (.string "Continue the original task."))
      , ("confirmed_facts", .array []), ("evidence_refs", .array [])
      , ("artifact_refs", .array []), ("change_proposal_refs", .array []) ]).wellFormed = true := by
  have summary : ((member fields "summary").getD
      (.string "Continue the original task.")).wellFormed = true := by
    cases found : member fields "summary" with
    | none => rfl
    | some value => exact member_wellFormed formed found
  apply object_wellFormed
  · show ["summary", "confirmed_facts", "evidence_refs", "artifact_refs",
      "change_proposal_refs"].Nodup
    decide
  · intro field mem
    simp only [List.mem_cons, List.not_mem_nil, or_false] at mem
    rcases mem with rfl | rfl | rfl | rfl | rfl
    · exact summary
    · rfl
    · rfl
    · rfl
    · rfl

theorem completed_wellFormed (library : StandardLibrary) {value : List (String × Json)}
    (formed : (Json.object value).wellFormed = true) (identity : String) :
    (Json.object (completed library value identity)).wellFormed = true := by
  have opened : (Json.object (if (responseMethod (textAt value "capability_version")).isSome then
      setDefault "evidence_refs" (.array []) (setDefault "precondition" (.object []) value)
        else value)).wellFormed = true := by
    split
    · exact setDefault_wellFormed (setDefault_wellFormed formed _ _ rfl) _ _ rfl
    · exact formed
  have keyed := setDefault_wellFormed opened "idempotency_key"
    (.string ("sdk:" ++ sha256Hex library identity)) rfl
  have rated := setDefault_wellFormed keyed "risk_level"
    (.string (operationRisk ((textAt value "capability_version").getD ""))) rfl
  have final := setDefault_wellFormed rated "reversible" (.bool false) rfl
  have undone := setDefault_wellFormed final "rollback" (.object [("description", .string
    "No automatic compensation; preserve the original operation receipt.")]) (by decide)
  have verified := setDefault_wellFormed undone "verification" (.object
    [ ("method", .string ((responseMethod (textAt value "capability_version")).getD "READ_BACK"))
    , ("paths", .array ((changedPaths value).map .string)) ]) (by
      apply object_wellFormed
      · show ["method", "paths"].Nodup
        decide
      · rintro field (_ | ⟨_, _ | ⟨_, ⟨⟩⟩⟩)
        · rfl
        · exact texts_wellFormed _)
  have timed := setDefault_wellFormed verified "expires_in_seconds" (.number "3600") (by decide)
  have continued := setDefault_wellFormed timed "continuation_mode" (.string "RESUME") rfl
  exact setDefault_wellFormed continued _ _ (defaultCheckpoint_wellFormed continued)

theorem objectAt_eq_some {nested : List (String × Json)} {key : String} :
    objectAt fields key = some nested ↔ member fields key = some (.object nested) := by
  rw [objectAt]
  split
  · rename_i found
    rw [found]
    simp
  · rename_i other
    constructor
    · exact fun absent => by cases absent
    · exact fun found => absurd found (other nested)

theorem mapM_asObject {items : List Json} {objects : List (List (String × Json))}
    (read : items.mapM asObject = some objects) : items = objects.map .object := by
  induction items generalizing objects with
  | nil => cases read; rfl
  | cons item rest ih =>
    rw [List.mapM_cons] at read
    cases item with
    | object fields =>
      cases more : rest.mapM asObject with
      | none => rw [more] at read; cases read
      | some others =>
        rw [more] at read
        cases read
        rw [ih more]
        rfl
    | null => cases read
    | bool value => cases read
    | number literal => cases read
    | string text => cases read
    | array inner => cases read

theorem objectsAt_wellFormed {key : String}
    {objects : List (List (String × Json))} (formed : (Json.object fields).wellFormed = true)
    (read : objectsAt fields key = some objects) :
    (Json.array (objects.map .object)).wellFormed = true := by
  rw [objectsAt] at read
  cases found : itemsAt fields key with
  | none => rw [found] at read; cases read
  | some items =>
    rw [found] at read
    have same := mapM_asObject read
    have here : member fields key = some (.array items) := by
      rw [itemsAt] at found
      split at found
      · rename_i there
        cases found
        exact there
      · cases found
    rw [← same]
    exact member_wellFormed formed here

/-- The parts of a draft that are kept as JSON are values of JSON. -/
structure ProposalDraft.Formed (draft : ProposalDraft) : Prop where
  target : (Json.object draft.target).wellFormed = true
  changes : (Json.array (draft.changes.map .object)).wellFormed = true
  precondition : (Json.object draft.precondition).wellFormed = true
  verification : (Json.object draft.verification).wellFormed = true
  rollback : (Json.object draft.rollback).wellFormed = true

theorem parseChangeProposalRequest_formed {library : StandardLibrary} {isValid : Json → Bool}
    {value : List (String × Json)} {now : Timestamp} {identity : Option String}
    {draft : ProposalDraft} (formed : (Json.object value).wellFormed = true)
    (parsed : parseChangeProposalRequest library isValid value now identity = .ok draft) :
    draft.Formed := by
  have whole := completed_wellFormed library formed (identity.getD "")
  simp only [parseChangeProposalRequest, bind_eq_ok, require_eq_ok, exists_unit, orFault_eq_ok,
    pure_eq_ok, objectAt_eq_some] at parsed
  obtain ⟨-, -, -, -, changes, changesAt, -, verification, verificationAt, _, -, -, _, -, _, -,
    _, -, _, -, target, targetAt, precondition, preconditionAt, _, -, _, -, _, -, _, -, rollback,
    rollbackAt, -, -, _, -, _, -, rfl⟩ := parsed
  exact ⟨member_wellFormed whole targetAt, objectsAt_wellFormed whole changesAt,
    member_wellFormed whole preconditionAt, member_wellFormed whole verificationAt,
    member_wellFormed whole rollbackAt⟩

end Formed

end SkillMind.Effects
