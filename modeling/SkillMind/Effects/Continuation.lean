import SkillMind.Core.Redaction
import SkillMind.Runs.Tables

/-!
# The receipt of a confirmed write

A provider that confirmed its write returns what it read before and after. Both become evidence,
and what was read after goes on, with the references, as the receipt that the next turn of the
Agent is shown. The receipt is checked before anything of it is stored: its length, its shape, its
names, and that its content is the one of the evidence.

Of a receipt built from a provider's result, only the length and the names can fail.
-/

namespace SkillMind.Effects

open Library SkillMind.Core SkillMind.Runs

structure EffectEvidenceDraft where
  evidenceType : String
  sourceUri : String
  sourceLocator : List (String × Json)
  content : List (String × Json)
  excerpt : Option String
  metadata : List (String × Json)

/-- What a provider returns after its write. -/
structure EffectProviderResult where
  before : EffectEvidenceDraft
  after : EffectEvidenceDraft
  verification : List (String × Json)
  replayed : Bool

structure Evidence where
  evidenceRef : String
  runId : Uuid
  toolCallId : Uuid
  evidenceType : String
  sourceUri : String
  sourceLocator : List (String × Json)
  contentHash : String
  excerpt : Option String
  metadata : List (String × Json)
  createdAt : Timestamp

/-- `new_evidence_ref` for a drawn identifier. -/
def evidenceRef (id : Uuid) : String := String.ofList ("ev_".toList ++ hexDigits id 32)

/-- The reference of a proposal, from the identifier drawn for it. -/
def proposalRef (id : Uuid) : String := String.ofList ("cp_".toList ++ hexDigits id 32)

/-- `str` of an identifier. -/
def uuidText (id : Uuid) : String :=
  let digits := hexDigits id 32
  String.ofList (digits.take 8 ++ '-' :: (digits.drop 8).take 4 ++ '-' :: (digits.drop 12).take 4 ++
    '-' :: (digits.drop 16).take 4 ++ '-' :: digits.drop 20)

def EffectCapability.version : EffectCapability → String
  | .sqlWrite => "database.execute/v1"
  | .httpWrite => "http.write/v1"
  | .mcpCall => "mcp.call/v1"
  | .documentWrite => "document.write/v1"
  | .databaseWrite => "database.write/v1"
  | .issueUpdate => "issue.update/v1"
  | .repositoryWrite => "repository.write/v1"

section Library

variable (library : StandardLibrary)

def effectEvidenceRow (runId toolCallId : Uuid) (ref : String) (draft : EffectEvidenceDraft)
    (now : Timestamp) : Evidence where
  evidenceRef := ref
  runId := runId
  toolCallId := toolCallId
  evidenceType := draft.evidenceType
  sourceUri := draft.sourceUri
  sourceLocator := draft.sourceLocator
  contentHash := taggedSha256 library (canonicalJson (.object draft.content))
  excerpt := draft.excerpt
  metadata := ("snapshot", .object draft.content) ::
    draft.metadata.filter fun member => member.1 ≠ "snapshot"
  createdAt := now

/-- `metadata_json["snapshot"]`. -/
def Evidence.snapshot (row : Evidence) : Json := (row.metadata.lookup "snapshot").getD .null

/-! ## The shape of a receipt -/

/-- `$` also matches before a final newline. -/
def beforeEnd (text : List Char) : List Char :=
  if text.getLast? = some '\n' then text.dropLast else text

/-- `^<tag>[a-zA-Z0-9_-]+$`. -/
def isReference (tag : String) (text : List Char) : Bool :=
  let text := beforeEnd text
  let name := text.drop tag.toList.length
  tag.toList.isPrefixOf text && !name.isEmpty &&
    name.all fun c => c.isAlphanum || c == '_' || c == '-'

/-- `^sha256:[a-f0-9]{64}$`. -/
def isTaggedHash (text : List Char) : Bool :=
  let text := beforeEnd text
  "sha256:".toList.isPrefixOf text && (text.drop 7).length == 64 && (text.drop 7).all isHexDigit

/-- `^[a-z][a-z0-9_.-]*/v[1-9][0-9]*$`. -/
def isCapabilityVersion (text : List Char) : Bool :=
  let text := beforeEnd text
  let name := text.takeWhile fun c => c != '/'
  (name.head?.any Char.isLower &&
      name.all fun c => c.isLower || c.isDigit || c == '_' || c == '.' || c == '-') &&
    match text.drop name.length with
    | '/' :: 'v' :: first :: rest => first.isDigit && first != '0' && rest.all Char.isDigit
    | _ => false

/-- The format `uuid`, in the form `str` writes. -/
def isUuid (text : List Char) : Bool :=
  text.length == 36 && ([8, 13, 18, 23].all fun position => text[position]? == some '-') &&
    (text.filter fun c => c != '-').length == 32 &&
    (text.filter fun c => c != '-').all isHexDigit

/-- A property that has to be a text of some form. -/
def textual (form : List Char → Bool) (value : Json) : Bool :=
  value.text?.any fun text => form text.toList

def isObject : Json → Bool
  | .object _ => true
  | _ => false

/-- The properties of `EFFECT_RESULT_SCHEMA`. -/
def effectResultProperties : List (String × (Json → Bool)) :=
  [ ("effect_execution_id", textual isUuid)
  , ("proposal_ref", textual (isReference "cp_"))
  , ("capability_version", textual isCapabilityVersion)
  , ("status", textual fun text => text == "APPLIED".toList)
  , ("before_ref", textual (isReference "ev_"))
  , ("after_ref", textual (isReference "ev_"))
  , ("after_content_hash", textual isTaggedHash)
  , ("after", isObject)
  , ("verification", isObject) ]

/-- The required properties of `EFFECT_RESULT_SCHEMA`. -/
def effectResultRequired : List String :=
  ["effect_execution_id", "proposal_ref", "capability_version", "status", "after_ref",
    "after_content_hash", "after", "verification"]

/-- `EFFECT_RESULT_SCHEMA`, without additional properties. -/
def matchesEffectResultSchema : Json → Bool
  | .object fields =>
    effectResultRequired.all (fun key => (fields.lookup key).isSome) &&
      fields.all fun member =>
        (effectResultProperties.lookup member.1).any fun holds => holds member.2
  | _ => false

def maxEffectResultBytes : Nat := 2 * 1024 * 1024

/-- `validated_effect_result`.  The value read back from its canonical text is the value. -/
def validatedEffectResult (value : Json) : Except Fault Json := do
  require (canonicalBytes value ≤ maxEffectResultBytes)
    ⟨.valueError, "Effect continuation result exceeds its byte limit"⟩
  require (matchesEffectResultSchema value = true ∧ findSensitiveKey library false value = none)
    ⟨.valueError, "Effect continuation result is invalid"⟩
  require ((value.field? "after_content_hash").bind Json.text? =
      (value.field? "after").map fun after => taggedSha256 library (canonicalJson after))
    ⟨.valueError, "Effect continuation result does not match its Evidence"⟩
  return value

/-- The receipt of an applied execution, as `finalize_effect_execution` builds it. -/
def effectResult (effectId proposalRefId : Uuid) (capability : EffectCapability)
    (before after : Evidence) (verification : List (String × Json)) : Json :=
  .object
    [ ("effect_execution_id", .string (uuidText effectId))
    , ("proposal_ref", .string (proposalRef proposalRefId))
    , ("capability_version", .string capability.version)
    , ("status", .string "APPLIED")
    , ("before_ref", .string before.evidenceRef)
    , ("after_ref", .string after.evidenceRef)
    , ("after_content_hash", .string after.contentHash)
    , ("after", after.snapshot)
    , ("verification", .object verification) ]

/-! ## Receipts of the program -/

theorem isUuid_uuidText (id : Uuid) : isUuid (uuidText id).toList = true := by
  have digit (value : Nat) :
      isHexDigit (Nat.digitChar (value % 16)) = true ∧ Nat.digitChar (value % 16) ≠ '-' := by
    have all : ∀ d : Fin 16, isHexDigit (Nat.digitChar d) = true ∧ Nat.digitChar d ≠ '-' := by
      decide
    exact all ⟨value % 16, Nat.mod_lt value (by decide)⟩
  simp [isUuid, uuidText, hexDigits, digit]

theorem beforeEnd_of_hex {tag digits : List Char} (hexadecimal : digits.all isHexDigit = true)
    (present : digits ≠ []) : beforeEnd (tag ++ digits) = tag ++ digits := by
  unfold beforeEnd
  rw [if_neg]
  intro newline
  rw [List.getLast?_append_of_ne_nil _ present] at newline
  have digit := List.all_eq_true.mp hexadecimal _ (List.mem_of_getLast? newline)
  have other : isHexDigit '\n' = false := by decide
  rw [other] at digit
  cases digit

theorem isTaggedHash_append {digits : List Char} (length : digits.length = 64)
    (hexadecimal : digits.all isHexDigit = true) :
    isTaggedHash ("sha256:".toList ++ digits) = true := by
  have present : digits ≠ [] := List.ne_nil_of_length_pos (by omega)
  unfold isTaggedHash
  rw [beforeEnd_of_hex hexadecimal present]
  simp [length, hexadecimal]

theorem isTaggedHash_tagged (text : String) :
    isTaggedHash (taggedSha256 library text).toList = true := by
  have tagged : (taggedSha256 library text).toList =
      "sha256:".toList ++ (library.sha256 text).digits := String.toList_ofList
  exact tagged ▸ isTaggedHash_append (library.sha256 text).length_eq
    (library.sha256 text).hexadecimal

theorem isReference_tagged (tag : String) (id : Uuid) :
    isReference tag (tag.toList ++ hexDigits id 32) = true := by
  have present : hexDigits id 32 ≠ [] := by simp [hexDigits]
  have named := hexDigits_all (p := fun c => c.isAlphanum || c == '_' || c == '-')
    (by decide) id 32
  unfold isReference
  rw [beforeEnd_of_hex (hexDigits_hexadecimal id 32) present]
  simp [present, named]

theorem isReference_evidenceRef (id : Uuid) :
    isReference "ev_" (evidenceRef id).toList = true := by
  have tagged : (evidenceRef id).toList = "ev_".toList ++ hexDigits id 32 := String.toList_ofList
  exact tagged ▸ isReference_tagged "ev_" id

theorem isReference_proposalRef (id : Uuid) :
    isReference "cp_" (proposalRef id).toList = true := by
  have tagged : (proposalRef id).toList = "cp_".toList ++ hexDigits id 32 := String.toList_ofList
  exact tagged ▸ isReference_tagged "cp_" id

theorem isCapabilityVersion_version (capability : EffectCapability) :
    isCapabilityVersion capability.version.toList = true := by
  cases capability <;> decide

section Receipt

variable (effectId proposalRefId beforeId afterId runId toolCallId : Uuid)
  (capability : EffectCapability) (result : EffectProviderResult) (now : Timestamp)

def resultReceipt : Json :=
  effectResult effectId proposalRefId capability
    (effectEvidenceRow library runId toolCallId (evidenceRef beforeId) result.before now)
    (effectEvidenceRow library runId toolCallId (evidenceRef afterId) result.after now)
    result.verification

theorem matchesEffectResultSchema_resultReceipt :
    matchesEffectResultSchema (resultReceipt library effectId proposalRefId beforeId afterId runId
      toolCallId capability result now) = true := by
  have tagged := isTaggedHash_tagged library (canonicalJson (.object result.after.content))
  simp [matchesEffectResultSchema, resultReceipt, effectResult, effectEvidenceRow,
    Evidence.snapshot, effectResultRequired, effectResultProperties, List.lookup_cons, textual,
    Json.text?, isUuid_uuidText, isReference_evidenceRef, isReference_proposalRef,
    isCapabilityVersion_version, tagged, isObject]

theorem findSensitiveKey_resultReceipt :
    findSensitiveKey library false (resultReceipt library effectId proposalRefId beforeId afterId
        runId toolCallId capability result now) = none ↔
      findSensitiveKey library false (.object result.after.content) = none ∧
        findSensitiveKey library false (.object result.verification) = none := by
  have plain : ∀ key ∈ effectResultProperties.map Prod.fst, sensitiveName false key = false := by
    decide
  simp only [effectResultProperties, List.map_cons, List.map_nil, List.forall_mem_cons] at plain
  simp [resultReceipt, effectResult, effectEvidenceRow, Evidence.snapshot, findSensitiveKey,
    findSensitiveMember_eq_none, PublicMember, plain]

/-- The result may be shown: its receipt is short enough, and nothing of it looks like a
credential. -/
structure Publishable : Prop where
  fits : canonicalBytes (resultReceipt library effectId proposalRefId beforeId afterId runId
    toolCallId capability result now) ≤ maxEffectResultBytes
  content : findSensitiveKey library false (.object result.after.content) = none
  verification : findSensitiveKey library false (.object result.verification) = none

theorem validatedEffectResult_resultReceipt {value : Json} :
    validatedEffectResult library (resultReceipt library effectId proposalRefId beforeId afterId
        runId toolCallId capability result now) = .ok value ↔
      Publishable library effectId proposalRefId beforeId afterId runId toolCallId capability
          result now ∧
        resultReceipt library effectId proposalRefId beforeId afterId runId toolCallId capability
          result now = value := by
  have shaped := matchesEffectResultSchema_resultReceipt library effectId proposalRefId beforeId
    afterId runId toolCallId capability result now
  have named := findSensitiveKey_resultReceipt library effectId proposalRefId beforeId afterId runId
    toolCallId capability result now
  have hashed : ((resultReceipt library effectId proposalRefId beforeId afterId runId toolCallId
      capability result now).field? "after_content_hash").bind Json.text? =
      ((resultReceipt library effectId proposalRefId beforeId afterId runId toolCallId capability
        result now).field? "after").map
          fun after => taggedSha256 library (canonicalJson after) := by
    simp [resultReceipt, effectResult, effectEvidenceRow, Evidence.snapshot, Json.field?,
      Json.text?, List.lookup_cons]
  simp only [validatedEffectResult, bind_eq_ok, exists_unit, require_eq_ok, pure_eq_ok, shaped,
    named, hashed, true_and]
  constructor
  · rintro ⟨fits, ⟨content, verification⟩, same⟩
    exact ⟨⟨fits, content, verification⟩, same⟩
  · rintro ⟨⟨fits, content, verification⟩, same⟩
    exact ⟨fits, ⟨content, verification⟩, same⟩

end Receipt

theorem validatedEffectResult_fault {value : Json} {fault : Fault}
    (refused : validatedEffectResult library value = .error fault) :
    fault.error = .valueError := by
  unfold validatedEffectResult require at refused
  split_ifs at refused <;> cases refused <;> rfl

end Library

end SkillMind.Effects
