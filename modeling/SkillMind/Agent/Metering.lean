import SkillMind.Documents.Frozen

/-!
# Stored observations of invocations

What an invocation of the SDK was, and what its result reported, is stored as JSON and read back.
A reader accepts an object with exactly its fields, converts each of them and lets the class check
the rest. Two spellings of one observation would give two checksums of it, so that a reader has to
accept only what the writer writes.

The text of a binary64 number is kept as it is; `float.fromhex` and `float.hex` are parameters.
-/

namespace SkillMind.Agent.Metering

open Library SkillMind.Core
open Runs (Uuid)
open Effects (uuidText)
open Documents (UnicodeTables uuid member)

/-! ## Objects with exactly these fields -/

/-- A `ValueError`. -/
structure ValueError where
  message : String

/-- `_fields`.  A dictionary has no key twice. -/
def fieldsOf (expected : List String) : Json → Except ValueError (List (String × Json))
  | .object fields => do
    require ((fields.map Prod.fst).Perm expected) ⟨"Unsupported invocation observation shape"⟩
    return fields
  | _ => .error ⟨"Unsupported invocation observation shape"⟩

def valueAt (fields : List (String × Json)) (key : String) : Json :=
  (member fields key).getD .null

def hasKey (key : String) : Json → Bool
  | .object fields => (member fields key).isSome
  | _ => false

/-- `type(value) is int` and not negative. -/
def naturalOf (fault : ValueError) (value : Json) : Except ValueError Nat :=
  match Documents.sizeOf ⟨""⟩ (some value) with
  | .ok number => .ok number.toNat
  | .error _ => .error fault

/-- A field that may be left out. -/
def optionalAt {α : Type} (key : String) (value : Json) (data : List (String × Json))
    (read : Json → Except ValueError α) : Except ValueError (Option α) :=
  if hasKey key value then (read (valueAt data key)).map some else .ok none

def textOf (fault : ValueError) : Json → Except ValueError String
  | .string text => .ok text
  | _ => .error fault

def optionalTextOf (fault : ValueError) : Json → Except ValueError (Option String)
  | .null => .ok none
  | .string text => .ok (some text)
  | _ => .error fault

def boolOf (fault : ValueError) : Json → Except ValueError Bool
  | .bool value => .ok value
  | _ => .error fault

/-- A text or `None`. -/
def optionalText : Option String → Json
  | none => .null
  | some text => .string text

/-- `re.fullmatch(r"[0-9a-f]{64}", value)`. -/
def validChecksum (value : String) : Bool :=
  value.length == 64 && value.toList.all isHexDigit

def isVersionChar (c : Char) : Bool :=
  c.isAlphanum || c ∈ ['_', '.', ':', '/', '-']

/-- A letter or digit, and up to 127 more characters. -/
def validVersion (version : String) : Bool :=
  match version.toList with
  | first :: rest => first.isAlphanum && decide (rest.length ≤ 127) && rest.all isVersionChar
  | [] => false

/-- `[a-z][a-z0-9_]{0,127}`. -/
def validLabel (label : String) : Bool :=
  match label.toList with
  | first :: rest => ('a' ≤ first && first ≤ 'z') && decide (rest.length ≤ 127) &&
      rest.all fun c => ('a' ≤ c && c ≤ 'z') || c.isDigit || c == '_'
  | [] => false

/-- The functions of `float` for texts in hexadecimal. -/
structure FloatLibrary where
  Binary64 : Type
  /-- Nothing for a `ValueError` and an `OverflowError`. -/
  fromhex : String → Option Binary64
  hex : Binary64 → String
  /-- `math.isfinite(number) and number >= 0`. -/
  counts : Binary64 → Bool

section Observations

variable (tables : UnicodeTables) (floats : FloatLibrary)

/-- `_session`. -/
def sessionValid (value : String) : Bool := (uuid tables value).isSome

/-! ## Usage values -/

inductive UsageValueKind where
  | missing
  | integer
  | binary64
  | invalid
  deriving DecidableEq

def UsageValueKind.value : UsageValueKind → String
  | .missing => "MISSING"
  | .integer => "INTEGER"
  | .binary64 => "BINARY64"
  | .invalid => "INVALID"

def usageKind (value : Json) : Except ValueError UsageValueKind :=
  orFault ⟨"not a valid UsageValueKind"⟩
    ([.missing, .integer, .binary64, .invalid].find? fun kind : UsageValueKind =>
      value.text? == some kind.value)

/-- `int | str | None`. -/
inductive UsageContent where
  | absent
  | number (value : Nat)
  | text (value : String)

structure UsageValue where
  kind : UsageValueKind
  value : UsageContent

/-- `UsageValue.__post_init__`. -/
def UsageValue.valid (usage : UsageValue) : Bool :=
  match usage.kind, usage.value with
  | .missing, .absent | .invalid, .absent => true
  | .integer, .number value => decide (value ≤ 2 ^ 63 - 1)
  | .binary64, .text value =>
    (floats.fromhex value).any fun number => floats.counts number && floats.hex number == value
  | _, _ => false

def UsageContent.toJson : UsageContent → Json
  | .absent => .null
  | .number value => .number (toString value)
  | .text value => .string value

def UsageValue.toJson (usage : UsageValue) : Json :=
  .object [("kind", .string usage.kind.value), ("value", usage.value.toJson)]

/-- Any other value of JSON is refused by each kind. -/
def usageContent : Json → Except ValueError UsageContent
  | .null => .ok .absent
  | .string text => .ok (.text text)
  | value => (naturalOf ⟨"Invalid SDK usage observation"⟩ value).map .number

def UsageValue.fromJson (value : Json) : Except ValueError UsageValue := do
  let data ← fieldsOf ["kind", "value"] value
  let kind ← usageKind (valueAt data "kind")
  let content ← usageContent (valueAt data "value")
  require (UsageValue.valid floats ⟨kind, content⟩ = true) ⟨"Invalid SDK usage observation"⟩
  return ⟨kind, content⟩

structure InvocationOptions where
  model : Option String
  maxTurns : Nat
  maxBudgetUsd : UsageValue
  sessionId : Option String
  resume : Option String
  forkSession : Bool
  continueConversation : Bool
  outputFormatChecksum : String
  cliChecksum : Option String

/-- `InvocationOptions.__post_init__`, with a usage value that was constructed. -/
def InvocationOptions.valid (options : InvocationOptions) : Bool :=
  decide (1 ≤ options.maxTurns ∧ options.maxTurns ≤ 2 ^ 63 - 1) &&
    !options.continueConversation && options.maxBudgetUsd.valid floats &&
    (options.model.all fun model => decide (1 ≤ model.length ∧ model.length ≤ 256) &&
      model.toList.all fun c => decide (32 ≤ c.toNat)) &&
    options.sessionId.all (sessionValid tables) && options.resume.all (sessionValid tables) &&
    validChecksum options.outputFormatChecksum && options.cliChecksum.all validChecksum

def optionFields : List String :=
  ["model", "max_turns", "max_budget_usd", "session_id", "resume", "fork_session",
    "continue_conversation", "output_format_checksum"]

def InvocationOptions.toJson (options : InvocationOptions) : Json :=
  .object ([("model", optionalText options.model),
    ("max_turns", .number (toString options.maxTurns)),
    ("max_budget_usd", options.maxBudgetUsd.toJson),
    ("session_id", optionalText options.sessionId), ("resume", optionalText options.resume),
    ("fork_session", .bool options.forkSession),
    ("continue_conversation", .bool options.continueConversation),
    ("output_format_checksum", .string options.outputFormatChecksum)] ++
    options.cliChecksum.toList.map fun checksum => ("cli_checksum", .string checksum))

def InvocationOptions.fromJson (value : Json) : Except ValueError InvocationOptions := do
  let invalid : ValueError := ⟨"Invalid metered Claude invocation options"⟩
  let data ← fieldsOf
    (optionFields ++ if hasKey "cli_checksum" value then ["cli_checksum"] else []) value
  let cliChecksum ← optionalAt "cli_checksum" value data (textOf ⟨"Invalid invocation checksum"⟩)
  let model ← optionalTextOf invalid (valueAt data "model")
  let maxTurns ← naturalOf invalid (valueAt data "max_turns")
  let maxBudgetUsd ← UsageValue.fromJson floats (valueAt data "max_budget_usd")
  let sessionId ← optionalTextOf ⟨"Invalid invocation session identity"⟩
    (valueAt data "session_id")
  let resume ← optionalTextOf ⟨"Invalid invocation session identity"⟩ (valueAt data "resume")
  let forkSession ← boolOf invalid (valueAt data "fork_session")
  let continueConversation ← boolOf invalid (valueAt data "continue_conversation")
  let outputFormatChecksum ← textOf ⟨"Invalid invocation checksum"⟩
    (valueAt data "output_format_checksum")
  let options : InvocationOptions := ⟨model, maxTurns, maxBudgetUsd, sessionId, resume,
    forkSession, continueConversation, outputFormatChecksum, cliChecksum⟩
  require (options.valid tables floats = true) invalid
  return options

/-! ## Invocations -/

inductive AgentInvocationMode where
  | initial
  | resume
  | fork

def AgentInvocationMode.value : AgentInvocationMode → String
  | .initial => "INITIAL"
  | .resume => "RESUME"
  | .fork => "FORK"

def invocationMode (value : Json) : Except ValueError AgentInvocationMode :=
  orFault ⟨"not a valid AgentInvocationMode"⟩
    ([.initial, .resume, .fork].find? fun mode : AgentInvocationMode =>
      value.text? == some mode.value)

structure AgentInvocation where
  invocationId : Uuid
  projectId : Uuid
  runId : Uuid
  runAttemptId : Uuid
  userId : Uuid
  sessionId : String
  mode : AgentInvocationMode
  parentSessionId : Option String
  promptChecksum : String
  options : InvocationOptions
  sdkVersion : String
  cliVersion : String

def AgentInvocation.matchesMode (invocation : AgentInvocation) : Bool :=
  (match invocation.mode with
  | .initial =>
    decide (invocation.options.sessionId = some invocation.sessionId) &&
      decide (invocation.options.resume = none) && !invocation.options.forkSession
  | .resume =>
    decide (invocation.options.sessionId = none) &&
      decide (invocation.options.resume = some invocation.sessionId) &&
      !invocation.options.forkSession
  | .fork =>
    decide (invocation.options.sessionId = some invocation.sessionId) &&
      invocation.options.resume.isSome &&
      decide (invocation.options.resume ≠ some invocation.sessionId) &&
      invocation.options.forkSession) &&
    decide (invocation.parentSessionId = invocation.options.resume)

def AgentInvocation.identities (invocation : AgentInvocation) : List Uuid :=
  [invocation.invocationId, invocation.projectId, invocation.runId, invocation.runAttemptId,
    invocation.userId]

/-- `AgentInvocation.__post_init__`, with identities and options that were constructed. -/
def AgentInvocation.valid (invocation : AgentInvocation) : Bool :=
  (invocation.identities.all fun id => decide (id < 2 ^ 128)) &&
    invocation.options.valid tables floats && sessionValid tables invocation.sessionId &&
    invocation.parentSessionId.all (sessionValid tables) &&
    validChecksum invocation.promptChecksum && validVersion invocation.sdkVersion &&
    validVersion invocation.cliVersion && invocation.matchesMode

def AgentInvocation.toJson (invocation : AgentInvocation) : Json :=
  .object [("version", .string "agent-invocation/v1"),
    ("invocation_id", .string (uuidText invocation.invocationId)),
    ("project_id", .string (uuidText invocation.projectId)),
    ("run_id", .string (uuidText invocation.runId)),
    ("run_attempt_id", .string (uuidText invocation.runAttemptId)),
    ("user_id", .string (uuidText invocation.userId)),
    ("session_id", .string invocation.sessionId), ("mode", .string invocation.mode.value),
    ("parent_session_id", optionalText invocation.parentSessionId),
    ("prompt_checksum", .string invocation.promptChecksum),
    ("options", invocation.options.toJson), ("sdk_version", .string invocation.sdkVersion),
    ("cli_version", .string invocation.cliVersion)]

def identityFields : List String :=
  ["invocation_id", "project_id", "run_id", "run_attempt_id", "user_id"]

/-- `UUID(data[key])` for a text. -/
def identityOf (value : Json) : Except ValueError Uuid := do
  let text ← textOf ⟨"Invalid stored invocation identity"⟩ value
  orFault ⟨"badly formed hexadecimal UUID string"⟩ (uuid tables text)

def AgentInvocation.fromJson (value : Json) : Except ValueError AgentInvocation := do
  let data ← fieldsOf
    (["version"] ++ identityFields ++ ["session_id", "mode", "parent_session_id",
      "prompt_checksum", "options", "sdk_version", "cli_version"]) value
  require ((valueAt data "version").text? = some "agent-invocation/v1")
    ⟨"Unsupported invocation version"⟩
  let invocationId ← identityOf tables (valueAt data "invocation_id")
  let projectId ← identityOf tables (valueAt data "project_id")
  let runId ← identityOf tables (valueAt data "run_id")
  let runAttemptId ← identityOf tables (valueAt data "run_attempt_id")
  let userId ← identityOf tables (valueAt data "user_id")
  let mode ← invocationMode (valueAt data "mode")
  let options ← InvocationOptions.fromJson tables floats (valueAt data "options")
  let sessionId ← textOf ⟨"Invocation session is required"⟩ (valueAt data "session_id")
  let parentSessionId ← optionalTextOf ⟨"Invalid invocation session identity"⟩
    (valueAt data "parent_session_id")
  let promptChecksum ← textOf ⟨"Invalid invocation checksum"⟩ (valueAt data "prompt_checksum")
  let sdkVersion ← textOf ⟨"Invalid invocation build version"⟩ (valueAt data "sdk_version")
  let cliVersion ← textOf ⟨"Invalid invocation build version"⟩ (valueAt data "cli_version")
  let invocation : AgentInvocation := ⟨invocationId, projectId, runId, runAttemptId, userId,
    sessionId, mode, parentSessionId, promptChecksum, options, sdkVersion, cliVersion⟩
  require (invocation.valid tables floats = true)
    ⟨"Claude invocation mode does not match its actual options"⟩
  return invocation

structure ResultTermination where
  subtype : String
  isError : Bool
  stopReason : Option String
  hasStructuredOutput : Bool

/-- `ResultTermination.__post_init__`. -/
def ResultTermination.valid (termination : ResultTermination) : Bool :=
  validLabel termination.subtype && termination.stopReason.all validLabel

def ResultTermination.toJson (termination : ResultTermination) : Json :=
  .object [("subtype", .string termination.subtype), ("is_error", .bool termination.isError),
    ("stop_reason", optionalText termination.stopReason),
    ("has_structured_output", .bool termination.hasStructuredOutput)]

def ResultTermination.fromJson (value : Json) : Except ValueError ResultTermination := do
  let invalid : ValueError := ⟨"Invalid Result termination labels"⟩
  let data ← fieldsOf ["subtype", "is_error", "stop_reason", "has_structured_output"] value
  let isError ← boolOf invalid (valueAt data "is_error")
  let hasStructuredOutput ← boolOf invalid (valueAt data "has_structured_output")
  let subtype ← textOf invalid (valueAt data "subtype")
  let stopReason ← optionalTextOf invalid (valueAt data "stop_reason")
  let termination : ResultTermination := ⟨subtype, isError, stopReason, hasStructuredOutput⟩
  require (termination.valid = true) invalid
  return termination

structure ResultUsageObservation where
  invocation : AgentInvocation
  turns : UsageValue
  costUsd : UsageValue
  termination : Option ResultTermination

/-- `ResultUsageObservation.__post_init__`, with parts that were constructed. -/
def ResultUsageObservation.valid (observation : ResultUsageObservation) : Bool :=
  observation.invocation.valid tables floats && observation.turns.valid floats &&
    observation.costUsd.valid floats && decide (observation.turns.kind ≠ .binary64) &&
    observation.termination.all ResultTermination.valid

def ResultUsageObservation.toJson (observation : ResultUsageObservation) : Json :=
  .object ([("version", .string "sdk-result-observation/v1"),
    ("invocation", observation.invocation.toJson), ("turns", observation.turns.toJson),
    ("cost_usd", observation.costUsd.toJson)] ++
    observation.termination.toList.map fun termination => ("termination", termination.toJson))

def ResultUsageObservation.fromJson (value : Json) :
    Except ValueError ResultUsageObservation := do
  let data ← fieldsOf (["version", "invocation", "turns", "cost_usd"] ++
    if hasKey "termination" value then ["termination"] else []) value
  require ((valueAt data "version").text? = some "sdk-result-observation/v1")
    ⟨"Unsupported Result observation version"⟩
  let invocation ← AgentInvocation.fromJson tables floats (valueAt data "invocation")
  let turns ← UsageValue.fromJson floats (valueAt data "turns")
  let costUsd ← UsageValue.fromJson floats (valueAt data "cost_usd")
  let termination ← optionalAt "termination" value data ResultTermination.fromJson
  let observation : ResultUsageObservation := ⟨invocation, turns, costUsd, termination⟩
  require (observation.valid tables floats = true) ⟨"Invalid Result usage observation"⟩
  return observation

end Observations

theorem textLe_antisymm {first second : List Char} (le : textLe first second = true)
    (ge : textLe second first = true) : first = second := by
  induction first generalizing second with
  | nil =>
    cases second with
    | nil => rfl
    | cons d rest => cases ge
  | cons c rest ih =>
    cases second with
    | nil => cases le
    | cons d rest' =>
      simp only [textLe, Bool.or_eq_true, Bool.and_eq_true, decide_eq_true_eq, beq_iff_eq]
        at le ge
      have same : c.toNat = d.toNat := by omega
      rw [ih (le.resolve_left (by omega)).2 (ge.resolve_left (by omega)).2,
        Char.toNat_inj.mp same]

theorem sortFields_eq_map (fields : List (String × Json)) :
    sortFields fields = fields.map fun field => (field.1, sortMembers field.2) := by
  induction fields with
  | nil => rfl
  | cons field rest ih => rw [sortFields, ih, List.map_cons]

theorem insertionSort_keyLe_of_perm {first second : List (String × Json)}
    (perm : first.Perm second) (distinct : (first.map Prod.fst).Nodup) :
    first.insertionSort keyLe = second.insertionSort keyLe := by
  have : Std.Total keyLe := ⟨fun a b => by
    rcases textLe_total a.1.toList b.1.toList with le | ge
    · exact .inl le
    · exact .inr ge⟩
  have : IsTrans (String × Json) keyLe := ⟨fun _ _ _ le le' => textLe_trans le le'⟩
  have sorted := List.perm_insertionSort keyLe first
  have sorted' := List.perm_insertionSort keyLe second
  refine List.Perm.eq_of_pairwise (fun a b among among' le ge => ?_)
    (List.pairwise_insertionSort keyLe first) (List.pairwise_insertionSort keyLe second)
    (sorted.trans (perm.trans sorted'.symm))
  have here := sorted.mem_iff.mp among
  have there := perm.mem_iff.mpr (sorted'.mem_iff.mp among')
  exact List.inj_on_of_nodup_map distinct here there
    (String.toList_injective (textLe_antisymm le ge))

theorem member_eq_some {data : List (String × Json)} {key : String} {value : Json}
    (distinct : (data.map Prod.fst).Nodup) :
    member data key = some value ↔ (key, value) ∈ data := by
  rw [member, Option.map_eq_some_iff]
  constructor
  · rintro ⟨⟨key', value'⟩, found, rfl⟩
    have same := List.find?_some found
    rw [decide_eq_true_eq] at same
    exact same ▸ List.mem_of_find?_eq_some found
  · intro among
    cases found : data.find? fun field => decide (field.1 = key) with
    | none =>
      have absent := List.find?_eq_none.mp found (key, value) among
      simp at absent
    | some field =>
      have same := List.find?_some found
      rw [decide_eq_true_eq] at same
      refine ⟨field, rfl, ?_⟩
      rw [List.inj_on_of_nodup_map distinct (List.mem_of_find?_eq_some found) among same]

section Fields

variable {data written : List (String × Json)}

theorem valueAt_of_mem {key : String} {value : Json} (distinct : (data.map Prod.fst).Nodup)
    (among : (key, value) ∈ data) : valueAt data key = value := by
  rw [valueAt, (member_eq_some distinct).mpr among, Option.getD_some]

theorem same_object_iff_valueAt {expected : List String}
    (keys : (data.map Prod.fst).Perm expected) (named : written.map Prod.fst = expected)
    (distinct : expected.Nodup) :
    (Json.object data).Same (.object written) ↔
      ∀ field ∈ written, (valueAt data field.1).Same field.2 := by
  subst named
  have unique := keys.nodup_iff.mpr distinct
  have keysOf : ∀ fields : List (String × Json),
      (sortFields fields).map Prod.fst = fields.map Prod.fst := sortFields_keys
  have read : data.Perm (written.map fun field => (field.1, valueAt data field.1)) := by
    rw [List.perm_ext_iff_of_nodup unique.of_map
      (List.Nodup.of_map Prod.fst (by rwa [List.map_map]))]
    rintro ⟨key, value⟩
    rw [List.mem_map]
    constructor
    · intro among
      obtain ⟨field, listed, rfl⟩ := List.mem_map.mp
        (keys.mem_iff.mp (List.mem_map_of_mem among) : key ∈ written.map Prod.fst)
      exact ⟨field, listed, by rw [valueAt_of_mem unique among]⟩
    · rintro ⟨field, listed, same⟩
      obtain ⟨⟨key', value'⟩, among, same'⟩ := List.mem_map.mp
        (keys.mem_iff.mpr (List.mem_map_of_mem listed))
      obtain rfl : key' = field.1 := same'
      rw [valueAt_of_mem unique among, Prod.mk.injEq] at same
      obtain ⟨rfl, rfl⟩ := same
      exact among
  constructor
  · intro same field listed
    have sorted : (sortFields data).Perm (sortFields written) := by
      have equal := Json.object.inj same
      exact (List.perm_insertionSort keyLe _).symm.trans
        (equal ▸ List.perm_insertionSort keyLe _)
    rw [sortFields_eq_map, sortFields_eq_map] at sorted
    obtain ⟨⟨key, value⟩, among, equal⟩ := List.mem_map.mp
      (sorted.mem_iff.mpr (List.mem_map_of_mem listed))
    rw [Prod.mk.injEq] at equal
    rw [← equal.1, valueAt_of_mem unique among]
    exact equal.2
  · intro values
    have sorted : sortFields (written.map fun field => (field.1, valueAt data field.1)) =
        sortFields written := by
      rw [sortFields_eq_map, sortFields_eq_map, List.map_map]
      refine List.map_congr_left fun field listed => ?_
      exact Prod.ext rfl (values field listed)
    have ordered := insertionSort_keyLe_of_perm (read.map fun field : String × Json =>
      (field.1, sortMembers field.2)) (by rwa [← sortFields_eq_map, keysOf])
    rw [← sortFields_eq_map, ← sortFields_eq_map, sorted] at ordered
    exact congrArg Json.object ordered

theorem keys_perm_of_same (same : (Json.object data).Same (.object written)) :
    (data.map Prod.fst).Perm (written.map Prod.fst) := by
  have sorted : (sortFields data).Perm (sortFields written) := by
    have equal := Json.object.inj same
    exact (List.perm_insertionSort keyLe _).symm.trans (equal ▸ List.perm_insertionSort keyLe _)
  have keys := sorted.map Prod.fst
  rwa [sortFields_keys, sortFields_keys] at keys

theorem fieldsOf_ok {expected : List String} {value : Json} :
    fieldsOf expected value = .ok data ↔
      value = .object data ∧ (data.map Prod.fst).Perm expected := by
  cases value with
  | object fields =>
    simp only [fieldsOf, bind_eq_ok, require_eq_ok, pure_eq_ok, Json.object.injEq]
    constructor
    · rintro ⟨_, keys, rfl⟩
      exact ⟨rfl, keys⟩
    · rintro ⟨rfl, keys⟩
      exact ⟨(), keys, rfl⟩
  | _ => simp [fieldsOf]

end Fields

section Conversions

variable {fault : ValueError} {value : Json}

theorem textOf_ok {text : String} : textOf fault value = .ok text ↔ value = .string text := by
  cases value <;> simp [textOf]

theorem optionalTextOf_ok {text : Option String} :
    optionalTextOf fault value = .ok text ↔ value = optionalText text := by
  cases value <;> cases text <;> simp [optionalTextOf, optionalText]

theorem boolOf_ok {flag : Bool} : boolOf fault value = .ok flag ↔ value = .bool flag := by
  cases value <;> simp [boolOf]

theorem naturalOf_ok {number : Nat} :
    naturalOf fault value = .ok number ↔ value = .number (toString number) := by
  constructor
  · intro read
    rw [naturalOf] at read
    split at read
    · next size sized =>
      cases value with
      | number literal =>
        simp only [Documents.sizeOf, bind_eq_ok, require_eq_ok, pure_eq_ok] at sized
        obtain ⟨_, written, rfl⟩ := sized
        rw [written, ← Except.ok.inj read]
        rfl
      | _ => cases sized
    · cases read
  · rintro rfl
    have sized := Documents.sizeOf_toString ⟨""⟩ (Int.natCast_nonneg number)
    rw [naturalOf, show toString number = toString (number : Int) from rfl, sized]
    rfl

theorem text?_eq_some {text : String} : value.text? = some text ↔ value = .string text := by
  cases value <;> simp [Json.text?]

theorem usageKind_ok {kind : UsageValueKind} :
    usageKind value = .ok kind ↔ value = .string kind.value := by
  rw [usageKind, orFault_eq_ok, ← text?_eq_some]
  constructor
  · intro found
    simpa using List.find?_some found
  · intro named
    rw [named]
    cases kind <;> rfl

theorem invocationMode_ok {mode : AgentInvocationMode} :
    invocationMode value = .ok mode ↔ value = .string mode.value := by
  rw [invocationMode, orFault_eq_ok, ← text?_eq_some]
  constructor
  · intro found
    simpa using List.find?_some found
  · intro named
    rw [named]
    cases mode <;> rfl

theorem map_ok {α β ε : Type} {read : Except ε α} {f : α → β} {result : β} :
    read.map f = .ok result ↔ ∃ a, read = .ok a ∧ f a = result := by
  cases read <;> simp [Except.map]

theorem usageContent_ok {content : UsageContent} :
    usageContent value = .ok content ↔ value = content.toJson := by
  cases content with
  | absent => cases value <;> simp [usageContent, UsageContent.toJson, map_ok]
  | text text => cases value <;> simp [usageContent, UsageContent.toJson, map_ok]
  | number n =>
    cases value <;>
      simp [usageContent, UsageContent.toJson, map_ok, naturalOf_ok]

theorem identityOf_ok {tables : UnicodeTables} {id : Uuid} :
    identityOf tables value = .ok id ↔
      ∃ text, value = .string text ∧ uuid tables text = some id := by
  simp only [identityOf, bind_eq_ok, textOf_ok, orFault_eq_ok]

end Conversions

/-! ## What each reader accepts -/

section Readers

variable {tables : UnicodeTables} {floats : FloatLibrary} {value : Json}

theorem UsageValue.fromJson_ok {usage : UsageValue} :
    UsageValue.fromJson floats value = .ok usage ↔
      ∃ data, value = .object data ∧ (data.map Prod.fst).Perm ["kind", "value"] ∧
        valueAt data "kind" = .string usage.kind.value ∧
        valueAt data "value" = usage.value.toJson ∧ usage.valid floats = true := by
  simp only [UsageValue.fromJson, bind_eq_ok, fieldsOf_ok, usageKind_ok, usageContent_ok,
    require_eq_ok, pure_eq_ok]
  constructor
  · rintro ⟨data, ⟨rfl, keys⟩, kind, named, content, held, _, valid, rfl⟩
    exact ⟨data, rfl, keys, named, held, valid⟩
  · rintro ⟨data, rfl, keys, named, held, valid⟩
    exact ⟨data, ⟨rfl, keys⟩, usage.kind, named, usage.value, held, (), valid, rfl⟩

theorem hasKey_object {data : List (String × Json)} {key : String} :
    hasKey key (.object data) = true ↔ key ∈ data.map Prod.fst := by
  rw [hasKey, member, Option.isSome_map, List.find?_isSome]
  simp

theorem optionalAt_ok {α : Type} {key : String} {data : List (String × Json)}
    {read : Json → Except ValueError α} {found : Option α} :
    optionalAt key (.object data) data read = .ok found ↔
      hasKey key (.object data) = found.isSome ∧
        ∀ a ∈ found, read (valueAt data key) = .ok a := by
  rw [optionalAt]
  split_ifs with present
  · rw [present, map_ok]
    constructor
    · rintro ⟨a, done, rfl⟩
      exact ⟨rfl, fun b same => Option.some.inj same ▸ done⟩
    · rintro ⟨some, done⟩
      obtain ⟨a, rfl⟩ := Option.isSome_iff_exists.mp some.symm
      exact ⟨a, done a rfl, rfl⟩
  · rw [Bool.eq_false_of_not_eq_true present]
    cases found <;> simp

/-- The fields of options with or without the checksum of the command line. -/
def InvocationOptions.keys (options : InvocationOptions) : List String :=
  optionFields ++ if options.cliChecksum.isSome then ["cli_checksum"] else []

theorem InvocationOptions.keys_nodup (options : InvocationOptions) : options.keys.Nodup := by
  rw [InvocationOptions.keys]
  split_ifs <;> decide

theorem InvocationOptions.fromJson_ok {options : InvocationOptions} :
    InvocationOptions.fromJson tables floats value = .ok options ↔
      ∃ data, value = .object data ∧ (data.map Prod.fst).Perm options.keys ∧
        (∀ checksum ∈ options.cliChecksum, valueAt data "cli_checksum" = .string checksum) ∧
        valueAt data "model" = optionalText options.model ∧
        valueAt data "max_turns" = .number (toString options.maxTurns) ∧
        UsageValue.fromJson floats (valueAt data "max_budget_usd") = .ok options.maxBudgetUsd ∧
        valueAt data "session_id" = optionalText options.sessionId ∧
        valueAt data "resume" = optionalText options.resume ∧
        valueAt data "fork_session" = .bool options.forkSession ∧
        valueAt data "continue_conversation" = .bool options.continueConversation ∧
        valueAt data "output_format_checksum" = .string options.outputFormatChecksum ∧
        options.valid tables floats = true := by
  simp only [InvocationOptions.fromJson, bind_eq_ok, fieldsOf_ok, optionalTextOf_ok, naturalOf_ok,
    boolOf_ok, textOf_ok, require_eq_ok, pure_eq_ok]
  constructor
  · rintro ⟨data, ⟨rfl, keys⟩, cli, given, model, hm, turns, ht, budget, hb, session, hs, resume,
      hr, forks, hf, continues, hc, output, ho, _, valid, rfl⟩
    obtain ⟨present, given⟩ := optionalAt_ok.mp given
    rw [present] at keys
    exact ⟨data, rfl, keys, fun checksum same => textOf_ok.mp (given checksum same), hm, ht, hb, hs,
      hr, hf, hc, ho, valid⟩
  · rintro ⟨data, rfl, keys, given, hm, ht, hb, hs, hr, hf, hc, ho, valid⟩
    obtain ⟨model, turns, budget, session, resume, forks, continues, output, cli⟩ := options
    have present : hasKey "cli_checksum" (.object data) = cli.isSome := by
      rw [Bool.eq_iff_iff, hasKey_object, keys.mem_iff]
      cases cli <;> simp [InvocationOptions.keys, optionFields]
    refine ⟨data, ⟨rfl, by rw [present]; exact keys⟩, cli, optionalAt_ok.mpr ⟨present, ?_⟩, model,
      hm, turns, ht, budget, hb, session, hs, resume, hr, forks, hf, continues, hc, output, ho, (),
      valid, rfl⟩
    exact fun checksum same => textOf_ok.mpr (given checksum same)

def invocationFields : List String :=
  ["version"] ++ identityFields ++ ["session_id", "mode", "parent_session_id", "prompt_checksum",
    "options", "sdk_version", "cli_version"]

/-- The text under a key is an identity. -/
def Identifies (tables : UnicodeTables) (data : List (String × Json)) (key : String) (id : Uuid) :
    Prop :=
  ∃ text, valueAt data key = .string text ∧ uuid tables text = some id

variable {invocation : AgentInvocation}

theorem AgentInvocation.fromJson_ok :
    AgentInvocation.fromJson tables floats value = .ok invocation ↔
      ∃ data, value = .object data ∧ (data.map Prod.fst).Perm invocationFields ∧
        valueAt data "version" = .string "agent-invocation/v1" ∧
        Identifies tables data "invocation_id" invocation.invocationId ∧
        Identifies tables data "project_id" invocation.projectId ∧
        Identifies tables data "run_id" invocation.runId ∧
        Identifies tables data "run_attempt_id" invocation.runAttemptId ∧
        Identifies tables data "user_id" invocation.userId ∧
        valueAt data "mode" = .string invocation.mode.value ∧
        InvocationOptions.fromJson tables floats (valueAt data "options") =
          .ok invocation.options ∧
        valueAt data "session_id" = .string invocation.sessionId ∧
        valueAt data "parent_session_id" = optionalText invocation.parentSessionId ∧
        valueAt data "prompt_checksum" = .string invocation.promptChecksum ∧
        valueAt data "sdk_version" = .string invocation.sdkVersion ∧
        valueAt data "cli_version" = .string invocation.cliVersion ∧
        invocation.valid tables floats = true := by
  simp only [AgentInvocation.fromJson, bind_eq_ok, fieldsOf_ok, optionalTextOf_ok, textOf_ok,
    identityOf_ok, invocationMode_ok, require_eq_ok, pure_eq_ok, text?_eq_some]
  constructor
  · rintro ⟨data, ⟨rfl, keys⟩, _, hv, i, hi, p, hp, r, hr, a, ha, u, hu, mode, hm, options, ho,
      session, hs, parent, hpar, prompt, hpr, sdk, hsdk, cli, hcli, _, valid, rfl⟩
    exact ⟨data, rfl, keys, hv, hi, hp, hr, ha, hu, hm, ho, hs, hpar, hpr, hsdk, hcli, valid⟩
  · rintro ⟨data, rfl, keys, hv, hi, hp, hr, ha, hu, hm, ho, hs, hpar, hpr, hsdk, hcli, valid⟩
    exact ⟨data, ⟨rfl, keys⟩, (), hv, _, hi, _, hp, _, hr, _, ha, _, hu, _, hm, _, ho, _, hs, _,
      hpar, _, hpr, _, hsdk, _, hcli, (), valid, rfl⟩

theorem ResultTermination.fromJson_ok {termination : ResultTermination} :
    ResultTermination.fromJson value = .ok termination ↔
      ∃ data, value = .object data ∧ (data.map Prod.fst).Perm
          ["subtype", "is_error", "stop_reason", "has_structured_output"] ∧
        valueAt data "subtype" = .string termination.subtype ∧
        valueAt data "is_error" = .bool termination.isError ∧
        valueAt data "stop_reason" = optionalText termination.stopReason ∧
        valueAt data "has_structured_output" = .bool termination.hasStructuredOutput ∧
        termination.valid = true := by
  simp only [ResultTermination.fromJson, bind_eq_ok, fieldsOf_ok, optionalTextOf_ok, textOf_ok,
    boolOf_ok, require_eq_ok, pure_eq_ok]
  constructor
  · rintro ⟨data, ⟨rfl, keys⟩, failed, hf, structured, hs, subtype, ht, reason, hr, _, valid, rfl⟩
    exact ⟨data, rfl, keys, ht, hf, hr, hs, valid⟩
  · rintro ⟨data, rfl, keys, ht, hf, hr, hs, valid⟩
    exact ⟨data, ⟨rfl, keys⟩, _, hf, _, hs, _, ht, _, hr, (), valid, rfl⟩

def ResultUsageObservation.keys (observation : ResultUsageObservation) : List String :=
  ["version", "invocation", "turns", "cost_usd"] ++
    if observation.termination.isSome then ["termination"] else []

theorem ResultUsageObservation.keys_nodup (observation : ResultUsageObservation) :
    observation.keys.Nodup := by
  rw [ResultUsageObservation.keys]
  split_ifs <;> decide

variable {observation : ResultUsageObservation}

theorem ResultUsageObservation.fromJson_ok :
    ResultUsageObservation.fromJson tables floats value = .ok observation ↔
      ∃ data, value = .object data ∧ (data.map Prod.fst).Perm observation.keys ∧
        valueAt data "version" = .string "sdk-result-observation/v1" ∧
        AgentInvocation.fromJson tables floats (valueAt data "invocation") =
          .ok observation.invocation ∧
        UsageValue.fromJson floats (valueAt data "turns") = .ok observation.turns ∧
        UsageValue.fromJson floats (valueAt data "cost_usd") = .ok observation.costUsd ∧
        (∀ termination ∈ observation.termination,
          ResultTermination.fromJson (valueAt data "termination") = .ok termination) ∧
        observation.valid tables floats = true := by
  simp only [ResultUsageObservation.fromJson, bind_eq_ok, fieldsOf_ok, require_eq_ok, pure_eq_ok,
    text?_eq_some]
  constructor
  · rintro ⟨data, ⟨rfl, keys⟩, _, hv, invocation, hi, turns, ht, cost, hc, termination, given, _,
      valid, rfl⟩
    obtain ⟨present, given⟩ := optionalAt_ok.mp given
    rw [present] at keys
    exact ⟨data, rfl, keys, hv, hi, ht, hc, given, valid⟩
  · rintro ⟨data, rfl, keys, hv, hi, ht, hc, given, valid⟩
    obtain ⟨invocation, turns, cost, termination⟩ := observation
    have present : hasKey "termination" (.object data) = termination.isSome := by
      rw [Bool.eq_iff_iff, hasKey_object, keys.mem_iff]
      cases termination <;> simp [ResultUsageObservation.keys]
    exact ⟨data, ⟨rfl, by rw [present]; exact keys⟩, (), hv, invocation, hi, turns, ht, cost, hc,
      termination, optionalAt_ok.mpr ⟨present, given⟩, (), valid, rfl⟩

theorem UsageValue.fromJson_toJson {usage : UsageValue} (valid : usage.valid floats = true) :
    UsageValue.fromJson floats usage.toJson = .ok usage :=
  UsageValue.fromJson_ok.mpr ⟨_, rfl, .refl _, rfl, rfl, valid⟩

theorem InvocationOptions.fromJson_toJson {options : InvocationOptions}
    (valid : options.valid tables floats = true) :
    InvocationOptions.fromJson tables floats options.toJson = .ok options := by
  have budget : options.maxBudgetUsd.valid floats = true := by
    simp only [InvocationOptions.valid, Bool.and_eq_true] at valid
    exact valid.1.1.1.1.1.2
  obtain ⟨model, turns, usage, session, resume, forks, continues, output, cli⟩ := options
  have read := UsageValue.fromJson_toJson budget
  cases cli with
  | none =>
    exact InvocationOptions.fromJson_ok.mpr ⟨_, rfl, .refl _, fun _ none => (by cases none), rfl,
      rfl, read, rfl, rfl, rfl, rfl, rfl, valid⟩
  | some checksum =>
    refine InvocationOptions.fromJson_ok.mpr ⟨_, rfl, .refl _, ?_, rfl, rfl, read, rfl, rfl, rfl,
      rfl, rfl, valid⟩
    intro checksum' same
    obtain rfl := Option.some.inj same
    rfl

theorem AgentInvocation.options_valid
    (valid : invocation.valid tables floats = true) :
    (∀ id ∈ invocation.identities, id < 2 ^ 128) ∧
      invocation.options.valid tables floats = true ∧ invocation.matchesMode = true := by
  simp only [AgentInvocation.valid, Bool.and_eq_true, List.all_eq_true, decide_eq_true_eq] at valid
  exact ⟨valid.1.1.1.1.1.1.1, valid.1.1.1.1.1.1.2, valid.2⟩

theorem AgentInvocation.fromJson_toJson
    (valid : invocation.valid tables floats = true) :
    AgentInvocation.fromJson tables floats invocation.toJson = .ok invocation := by
  obtain ⟨small, options, -⟩ := AgentInvocation.options_valid valid
  have identifies : ∀ {data : List (String × Json)} {key : String} {id : Uuid},
      valueAt data key = .string (uuidText id) → id ∈ invocation.identities →
        Identifies tables data key id :=
    fun held among => ⟨_, held, Documents.uuid_uuidText (small _ among)⟩
  exact AgentInvocation.fromJson_ok.mpr ⟨_, rfl, .refl _, rfl,
    identifies rfl (by simp [identities]), identifies rfl (by simp [identities]),
    identifies rfl (by simp [identities]), identifies rfl (by simp [identities]),
    identifies rfl (by simp [identities]), rfl, InvocationOptions.fromJson_toJson options, rfl, rfl,
    rfl, rfl, rfl, valid⟩

theorem ResultTermination.fromJson_toJson {termination : ResultTermination}
    (valid : termination.valid = true) :
    ResultTermination.fromJson termination.toJson = .ok termination :=
  ResultTermination.fromJson_ok.mpr ⟨_, rfl, .refl _, rfl, rfl, rfl, rfl, valid⟩

theorem ResultUsageObservation.fromJson_toJson
    (valid : observation.valid tables floats = true) :
    ResultUsageObservation.fromJson tables floats observation.toJson = .ok observation := by
  have parts := valid
  simp only [ResultUsageObservation.valid, Bool.and_eq_true] at parts
  obtain ⟨⟨⟨⟨invoked, turned⟩, spent⟩, -⟩, ended⟩ := parts
  obtain ⟨invocation, turns, cost, termination⟩ := observation
  have hi := AgentInvocation.fromJson_toJson invoked
  have ht := UsageValue.fromJson_toJson turned
  have hc := UsageValue.fromJson_toJson spent
  cases termination with
  | none =>
    exact ResultUsageObservation.fromJson_ok.mpr ⟨_, rfl, .refl _, rfl, hi, ht, hc,
      fun _ none => (by cases none), valid⟩
  | some termination =>
    refine ResultUsageObservation.fromJson_ok.mpr ⟨_, rfl, .refl _, rfl, hi, ht, hc, ?_, valid⟩
    intro termination' same
    obtain rfl := Option.some.inj same
    exact ResultTermination.fromJson_toJson ended

/-! ## Only what is written is accepted -/

theorem same_of_eq {first second : Json} (same : first = second) : first.Same second := by
  subst same
  rfl

theorem UsageValue.same_of_fromJson {usage : UsageValue}
    (read : UsageValue.fromJson floats value = .ok usage) : value.Same usage.toJson := by
  obtain ⟨data, rfl, keys, named, held, -⟩ := UsageValue.fromJson_ok.mp read
  refine (same_object_iff_valueAt keys rfl (by decide)).mpr ?_
  simp only [List.forall_mem_cons, List.not_mem_nil, false_imp_iff, implies_true, and_true]
  exact ⟨same_of_eq named, same_of_eq held⟩

theorem InvocationOptions.same_of_fromJson {options : InvocationOptions}
    (read : InvocationOptions.fromJson tables floats value = .ok options) :
    value.Same options.toJson := by
  obtain ⟨data, rfl, keys, given, hm, ht, hb, hs, hr, hf, hc, ho, -⟩ :=
    InvocationOptions.fromJson_ok.mp read
  have budget := UsageValue.same_of_fromJson hb
  obtain ⟨model, turns, usage, session, resume, forks, continues, output, cli⟩ := options
  cases cli with
  | none =>
    refine (same_object_iff_valueAt keys rfl (InvocationOptions.keys_nodup _)).mpr ?_
    simp only [Option.toList_none, List.map_nil, List.append_nil, List.forall_mem_cons,
      List.not_mem_nil, false_imp_iff, implies_true, and_true]
    exact ⟨same_of_eq hm, same_of_eq ht, budget, same_of_eq hs, same_of_eq hr, same_of_eq hf,
      same_of_eq hc, same_of_eq ho⟩
  | some checksum =>
    refine (same_object_iff_valueAt keys rfl (InvocationOptions.keys_nodup _)).mpr ?_
    simp only [Option.toList_some, List.map_cons, List.map_nil, List.cons_append, List.nil_append,
      List.forall_mem_cons, List.not_mem_nil, false_imp_iff, implies_true, and_true]
    exact ⟨same_of_eq hm, same_of_eq ht, budget, same_of_eq hs, same_of_eq hr, same_of_eq hf,
      same_of_eq hc, same_of_eq ho, same_of_eq (given checksum rfl)⟩

theorem ResultTermination.same_of_fromJson {termination : ResultTermination}
    (read : ResultTermination.fromJson value = .ok termination) :
    value.Same termination.toJson := by
  obtain ⟨data, rfl, keys, ht, hf, hr, hs, -⟩ := ResultTermination.fromJson_ok.mp read
  refine (same_object_iff_valueAt keys rfl (by decide)).mpr ?_
  simp only [List.forall_mem_cons, List.not_mem_nil, false_imp_iff, implies_true, and_true]
  exact ⟨same_of_eq ht, same_of_eq hf, same_of_eq hr, same_of_eq hs⟩

/-- The value under a key of an object. -/
def fieldAt (value : Json) (key : String) : Json :=
  match value with
  | .object data => valueAt data key
  | _ => .null

variable (tables value) in
/-- The texts of the five identities are written as `str(UUID(…))` writes them. -/
def CanonicalIdentities : Prop :=
  ∀ key ∈ identityFields, ∀ text, fieldAt value key = .string text →
    ∀ id, uuid tables text = some id → uuidText id = text

theorem Identifies.canonical {data : List (String × Json)} {key : String} {id : Uuid}
    (identifies : Identifies tables data key id)
    (canonical : CanonicalIdentities tables (.object data)) (among : key ∈ identityFields) :
    (valueAt data key).Same (.string (uuidText id)) := by
  obtain ⟨text, held, read⟩ := identifies
  rw [held, canonical key among text held id read]
  rfl

theorem AgentInvocation.same_of_canonical
    (read : AgentInvocation.fromJson tables floats value = .ok invocation)
    (canonical : CanonicalIdentities tables value) : value.Same invocation.toJson := by
  obtain ⟨data, rfl, keys, hv, hi, hp, hr, ha, hu, hm, ho, hs, hpar, hpr, hsdk, hcli, -⟩ :=
    AgentInvocation.fromJson_ok.mp read
  refine (same_object_iff_valueAt keys rfl (by decide)).mpr ?_
  simp only [List.forall_mem_cons, List.not_mem_nil, false_imp_iff, implies_true, and_true]
  exact ⟨same_of_eq hv, hi.canonical canonical (by decide), hp.canonical canonical (by decide),
    hr.canonical canonical (by decide), ha.canonical canonical (by decide),
    hu.canonical canonical (by decide), same_of_eq hs, same_of_eq hm, same_of_eq hpar,
    same_of_eq hpr, InvocationOptions.same_of_fromJson ho, same_of_eq hsdk, same_of_eq hcli⟩

theorem AgentInvocation.canonical_of_same {written : AgentInvocation}
    (read : AgentInvocation.fromJson tables floats value = .ok invocation)
    (valid : written.valid tables floats = true) (same : value.Same written.toJson) :
    CanonicalIdentities tables value := by
  obtain ⟨data, rfl, keys, -⟩ := AgentInvocation.fromJson_ok.mp read
  have small := (AgentInvocation.options_valid valid).1
  have values := (same_object_iff_valueAt keys rfl (by decide)).mp same
  intro key among text held id found
  have canonical : ∀ id', id' ∈ written.identities →
      (valueAt data key).Same (.string (uuidText id')) → uuidText id = text := by
    intro id' listed equal
    have same : Json.string text = .string (uuidText id') := by
      rw [show valueAt data key = .string text from held] at equal
      exact equal
    rw [Json.string.inj same, Documents.uuid_uuidText (small id' listed), Option.some.injEq]
      at found
    rw [← found, Json.string.inj same]
  simp only [List.forall_mem_cons] at values
  simp only [identityFields, List.mem_cons, List.not_mem_nil, or_false] at among
  rcases among with rfl | rfl | rfl | rfl | rfl
  · exact canonical _ (by simp [identities]) values.2.1
  · exact canonical _ (by simp [identities]) values.2.2.1
  · exact canonical _ (by simp [identities]) values.2.2.2.1
  · exact canonical _ (by simp [identities]) values.2.2.2.2.1
  · exact canonical _ (by simp [identities]) values.2.2.2.2.2.1

theorem ResultUsageObservation.same_of_canonical
    (read : ResultUsageObservation.fromJson tables floats value = .ok observation)
    (canonical : CanonicalIdentities tables (fieldAt value "invocation")) :
    value.Same observation.toJson := by
  obtain ⟨data, rfl, keys, hv, hi, ht, hc, given, -⟩ := ResultUsageObservation.fromJson_ok.mp read
  have invoked := AgentInvocation.same_of_canonical hi canonical
  have turned := UsageValue.same_of_fromJson ht
  have spent := UsageValue.same_of_fromJson hc
  obtain ⟨invocation, turns, cost, termination⟩ := observation
  cases termination with
  | none =>
    refine (same_object_iff_valueAt keys rfl (ResultUsageObservation.keys_nodup _)).mpr ?_
    simp only [Option.toList_none, List.map_nil, List.append_nil, List.forall_mem_cons,
      List.not_mem_nil, false_imp_iff, implies_true, and_true]
    exact ⟨same_of_eq hv, invoked, turned, spent⟩
  | some ended =>
    refine (same_object_iff_valueAt keys rfl (ResultUsageObservation.keys_nodup _)).mpr ?_
    simp only [Option.toList_some, List.map_cons, List.map_nil, List.cons_append, List.nil_append,
      List.forall_mem_cons, List.not_mem_nil, false_imp_iff, implies_true, and_true]
    exact ⟨same_of_eq hv, invoked, turned, spent,
      ResultTermination.same_of_fromJson (given ended rfl)⟩

theorem ResultUsageObservation.canonical_of_same {written : ResultUsageObservation}
    (read : ResultUsageObservation.fromJson tables floats value = .ok observation)
    (valid : written.valid tables floats = true) (same : value.Same written.toJson) :
    CanonicalIdentities tables (fieldAt value "invocation") := by
  obtain ⟨data, rfl, -, -, hi, -⟩ := ResultUsageObservation.fromJson_ok.mp read
  simp only [ResultUsageObservation.valid, Bool.and_eq_true] at valid
  refine AgentInvocation.canonical_of_same hi valid.1.1.1.1 ?_
  have distinct : ((ResultUsageObservation.keys written)).Nodup := written.keys_nodup
  have named : ((("version", Json.string "sdk-result-observation/v1") ::
      ("invocation", written.invocation.toJson) :: ("turns", written.turns.toJson) ::
      ("cost_usd", written.costUsd.toJson) ::
      written.termination.toList.map fun termination => ("termination", termination.toJson)).map
        Prod.fst) = written.keys := by
    cases termination : written.termination <;> simp [ResultUsageObservation.keys, termination]
  have keys : (data.map Prod.fst).Perm written.keys :=
    (keys_perm_of_same same).trans (.of_eq named)
  exact (same_object_iff_valueAt keys named distinct).mp same ("invocation", _) (.tail _ (.head _))

end Readers

/-- Reading gives back what was written. -/
def RoundTrips {α : Type} (valid : α → Bool) (toJson : α → Json)
    (fromJson : Json → Except ValueError α) : Prop :=
  ∀ a, valid a = true → fromJson (toJson a) = .ok a

/-- The value is what is written, and so is its canonical text. -/
def Stores (value written : Json) : Prop :=
  value.Same written ∧ canonicalJson value = canonicalJson written

theorem stores_of_same {value written : Json} (same : value.Same written) :
    Stores value written :=
  ⟨same, by rw [canonicalJson, canonicalJson, canonicalChars_of_same same]⟩

def AcceptsWritten {α : Type} (toJson : α → Json) (fromJson : Json → Except ValueError α) :
    Prop :=
  ∀ value a, fromJson value = .ok a → Stores value (toJson a)

/-- An accepted value is written for some object exactly when the condition holds of it, and then
for the object that was read. -/
def AcceptsWrittenIff {α : Type} (valid : α → Bool) (toJson : α → Json)
    (fromJson : Json → Except ValueError α) (condition : Json → Prop) : Prop :=
  ∀ value a, fromJson value = .ok a →
    ((∃ b, valid b = true ∧ value.Same (toJson b)) ↔ condition value) ∧
      (condition value → Stores value (toJson a))

/-- Observations are read back as they were written, and what is accepted is what is written,
exactly when the five identities are spelled as they are written. -/
theorem observations_stored_iff (tables : UnicodeTables) (floats : FloatLibrary) :
    (RoundTrips (UsageValue.valid floats) UsageValue.toJson (UsageValue.fromJson floats) ∧
      RoundTrips (InvocationOptions.valid tables floats) InvocationOptions.toJson
        (InvocationOptions.fromJson tables floats) ∧
      RoundTrips (AgentInvocation.valid tables floats) AgentInvocation.toJson
        (AgentInvocation.fromJson tables floats) ∧
      RoundTrips ResultTermination.valid ResultTermination.toJson ResultTermination.fromJson ∧
      RoundTrips (ResultUsageObservation.valid tables floats) ResultUsageObservation.toJson
        (ResultUsageObservation.fromJson tables floats)) ∧
      (AcceptsWritten UsageValue.toJson (UsageValue.fromJson floats) ∧
        AcceptsWritten InvocationOptions.toJson (InvocationOptions.fromJson tables floats) ∧
        AcceptsWritten ResultTermination.toJson ResultTermination.fromJson) ∧
      AcceptsWrittenIff (AgentInvocation.valid tables floats) AgentInvocation.toJson
        (AgentInvocation.fromJson tables floats) (CanonicalIdentities tables) ∧
      AcceptsWrittenIff (ResultUsageObservation.valid tables floats)
        ResultUsageObservation.toJson (ResultUsageObservation.fromJson tables floats)
        (fun value => CanonicalIdentities tables (fieldAt value "invocation")) ∧
      ∀ value invocation, AgentInvocation.fromJson tables floats value = .ok invocation →
        invocation.matchesMode = true := by
  refine ⟨⟨?_, ?_, ?_, ?_, ?_⟩, ⟨?_, ?_, ?_⟩, ?_, ?_, ?_⟩
  · exact fun _ => UsageValue.fromJson_toJson
  · exact fun _ => InvocationOptions.fromJson_toJson
  · exact fun _ => AgentInvocation.fromJson_toJson
  · exact fun _ => ResultTermination.fromJson_toJson
  · exact fun _ => ResultUsageObservation.fromJson_toJson
  · exact fun _ _ read => stores_of_same (UsageValue.same_of_fromJson read)
  · exact fun _ _ read => stores_of_same (InvocationOptions.same_of_fromJson read)
  · exact fun _ _ read => stores_of_same (ResultTermination.same_of_fromJson read)
  · intro value invocation read
    have valid : invocation.valid tables floats = true := by
      obtain ⟨_, _, _, _, _, _, _, _, _, _, _, _, _, _, _, _, valid⟩ :=
        AgentInvocation.fromJson_ok.mp read
      exact valid
    refine ⟨⟨?_, fun canonical => ?_⟩, fun canonical => ?_⟩
    · rintro ⟨written, formed, same⟩
      exact AgentInvocation.canonical_of_same read formed same
    · exact ⟨invocation, valid, AgentInvocation.same_of_canonical read canonical⟩
    · exact stores_of_same (AgentInvocation.same_of_canonical read canonical)
  · intro value observation read
    have valid : observation.valid tables floats = true := by
      obtain ⟨_, _, _, _, _, _, _, _, valid⟩ := ResultUsageObservation.fromJson_ok.mp read
      exact valid
    refine ⟨⟨?_, fun canonical => ?_⟩, fun canonical => ?_⟩
    · rintro ⟨written, formed, same⟩
      exact ResultUsageObservation.canonical_of_same read formed same
    · exact ⟨observation, valid, ResultUsageObservation.same_of_canonical read canonical⟩
    · exact stores_of_same (ResultUsageObservation.same_of_canonical read canonical)
  · intro value invocation read
    obtain ⟨_, _, _, _, _, _, _, _, _, _, _, _, _, _, _, _, valid⟩ :=
      AgentInvocation.fromJson_ok.mp read
    exact (AgentInvocation.options_valid valid).2.2

theorem slash_between : decide (' ' ≤ '/' ∧ '/' ≤ '~') = true := by decide

def asciiTables : UnicodeTables where
  isprintable c := decide (' ' ≤ c ∧ c ≤ '~')
  slash := slash_between
  decimal := fun _ => none

/-- A library without binary64 numbers, of which the sample has none. -/
def noFloats : FloatLibrary := ⟨Empty, fun _ => none, Empty.elim, Empty.elim⟩

def sampleInvocation : AgentInvocation where
  invocationId := 10
  projectId := 1
  runId := 2
  runAttemptId := 3
  userId := 4
  sessionId := uuidText 5
  mode := .initial
  parentSessionId := none
  promptChecksum := String.ofList (List.replicate 64 '0')
  options :=
    { model := some "model"
      maxTurns := 1
      maxBudgetUsd := ⟨.missing, .absent⟩
      sessionId := some (uuidText 5)
      resume := none
      forkSession := false
      continueConversation := false
      outputFormatChecksum := String.ofList (List.replicate 64 '0')
      cliChecksum := none }
  sdkVersion := "1"
  cliVersion := "1"

/-- The sample with its identifier in capitals. -/
def respelled : Json :=
  match sampleInvocation.toJson with
  | .object fields => .object (fields.map fun field =>
    if field.1 = "invocation_id" then
      (field.1, .string "00000000-0000-0000-0000-00000000000A")
    else field)
  | value => value

theorem respelled_accepted :
    ∃ invocation, AgentInvocation.fromJson asciiTables noFloats respelled = .ok invocation ∧
      ¬ ∃ written, AgentInvocation.valid asciiTables noFloats written = true ∧
        respelled.Same written.toJson := by
  obtain ⟨invocation, read⟩ := exists_ok
    (x := AgentInvocation.fromJson asciiTables noFloats respelled) (by decide)
  refine ⟨invocation, read, ?_⟩
  rintro ⟨written, valid, same⟩
  have canonical := AgentInvocation.canonical_of_same read valid same
  have respells := canonical "invocation_id" (by decide) "00000000-0000-0000-0000-00000000000A"
    (by rfl) 10 (by decide)
  exact absurd respells (by decide)

end SkillMind.Agent.Metering
