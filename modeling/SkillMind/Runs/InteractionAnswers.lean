import SkillMind.Effects.Proposal
import SkillMind.Runs.RepositoryInteractions

/-!
# Questions and their answers

An agent asks the user with a request that is checked against `INTERACTION_REQUEST_SCHEMA`. An
answer is checked by itself and against the kind and the options of the question. The keys of the
options pass two separate tests: the pattern of the schema, which `jsonschema` searches, and a
full match in the answer.
-/

namespace SkillMind.Runs.Interaction

open Library SkillMind.Core
open Effects (containsSensitiveText membersSensitive itemsSensitive textAt boolAt objectAt
  objectsAt asObject secondsAt)
open Documents (member)

/-! ## The schema of a request -/

inductive ValueSchema where
  | text (minLength : Nat) (maxLength : Option Nat) (pattern : Option (List Char → Bool))
  | enum (values : List String)
  | boolean
  | integer (minimum maximum : Nat)
  | list (maxItems : Nat) (unique : Bool) (items : ValueSchema)
  /-- No further properties, and every property is required. -/
  | closed (properties : List (String × ValueSchema))

def wholeNumber (literal : String) : Option Nat :=
  let digits := literal.toList.takeWhile Char.isDigit
  let rest := literal.toList.dropWhile Char.isDigit
  if digits ≠ [] ∧ (rest = [] ∨ rest = ".0".toList) then
    some (digits.foldl (fun number c => number * 10 + (c.toNat - 0x30)) 0)
  else none

mutual
/-- `Draft202012Validator(schema).is_valid`. -/
def ValueSchema.accepts : ValueSchema → Json → Bool
  | .text minLength maxLength pattern, .string text =>
    decide (minLength ≤ text.length) && (maxLength.all fun limit => decide (text.length ≤ limit)) &&
      (pattern.all fun search => search text.toList)
  | .enum values, .string text => values.contains text
  | .boolean, .bool _ => true
  | .integer minimum maximum, .number literal =>
    (wholeNumber literal).any fun number => decide (minimum ≤ number ∧ number ≤ maximum)
  | .list maxItems unique items, .array values =>
    decide (values.length ≤ maxItems) && (values.all fun value => items.accepts value) &&
      (!unique || decide (values.filterMap Json.text?).Nodup)
  | .closed properties, .object fields =>
    (fields.all fun field => (properties.map Prod.fst).contains field.1) &&
      acceptMembers properties fields
  | _, _ => false

def acceptMembers : List (String × ValueSchema) → List (String × Json) → Bool
  | [], _ => true
  | (key, schema) :: rest, fields =>
    ((member fields key).any fun value => schema.accepts value) &&
      acceptMembers rest fields
end

def isKeyChar (c : Char) : Bool :=
  ('a' ≤ c && c ≤ 'z') || c.isDigit || c == '_' || c == '.' || c == '-'

/-- `re.fullmatch(r"[a-z][a-z0-9_.-]*", key)`. -/
def fullKey : List Char → Bool
  | [] => false
  | c :: rest => ('a' ≤ c && c ≤ 'z') && rest.all isKeyChar

/-- `re.search` of a full match between `^` and `$`, which also stands before a final newline. -/
def searched (full : List Char → Bool) (text : List Char) : Bool :=
  full text || (text.getLast? == some '\n' && full text.dropLast)

/-- `ev_[a-zA-Z0-9_-]+` and its like. -/
def fullRef (mark : String) (text : List Char) : Bool :=
  mark.toList.isPrefixOf text &&
    let rest := text.drop mark.length
    rest ≠ [] && rest.all fun c => c.isAlphanum || c == '_' || c == '-'

def refsSchema (maxItems : Nat) (mark : String) : ValueSchema :=
  .list maxItems true (.text 0 none (some (searched (fullRef mark))))

def optionSchema : ValueSchema :=
  .closed
    [("key", .text 0 (some 128) (some (searched fullKey))), ("label", .text 1 (some 200) none),
      ("description", .text 1 (some 1000) none), ("recommended", .boolean)]

def checkpointSchema : ValueSchema :=
  .closed
    [("summary", .text 1 (some 4000) none),
      ("confirmed_facts", .list 100 false (.text 1 (some 1000) none)),
      ("evidence_refs", refsSchema 200 "ev_"), ("artifact_refs", refsSchema 100 "art_"),
      ("change_proposal_refs", refsSchema 100 "cp_")]

/-- `INTERACTION_REQUEST_SCHEMA` without its `allOf`. -/
def interactionRequestSchema : ValueSchema :=
  .closed
    [("interaction_type", .enum ["CLARIFICATION", "CHOICE", "REVIEW"]),
      ("prompt", .text 1 (some 2000) none), ("rationale", .text 1 (some 2000) none),
      ("impact", .text 1 (some 2000) none), ("options", .list 20 false optionSchema),
      ("allow_multiple", .boolean), ("required", .boolean),
      ("expires_in_seconds", .integer 300 604800),
      ("continuation_mode", .enum ["RESUME", "FORK", "REPLACE"]),
      ("checkpoint", checkpointSchema)]

/-- Its `allOf`: a choice has two options, and nothing else takes several answers. -/
def matchesKind (payload : List (String × Json)) : Bool :=
  if textAt payload "interaction_type" = some "CHOICE" then
    ((objectsAt payload "options").getD []).length ≥ 2
  else boolAt payload "allow_multiple" == some false

def interactionTypeOf (value : String) : UserInteractionType :=
  if value = "CHOICE" then .choice else if value = "REVIEW" then .review else .clarification

structure InteractionRequestDraft where
  interactionType : UserInteractionType
  prompt : List (String × Json)
  options : List (List (String × Json))
  required : Bool
  expiresAt : Timestamp
  continuationMode : String
  checkpoint : List (String × Json)
  checkpointChecksum : String

/-- The keys of options, as `str(item.get("key"))` reads them. -/
def optionKeys (options : List (List (String × Json))) : List String :=
  options.map fun option => (textAt option "key").getD "None"

section Answers

variable (library : StandardLibrary)

def parseInteractionRequest (value : List (String × Json)) (now : Timestamp) :
    Except Fault InteractionRequestDraft := do
  require (interactionRequestSchema.accepts (.object value) = true ∧ matchesKind value = true)
    (invalidResponse "Interaction request did not match its contract")
  require (findSensitiveKey library true (.object value) = none ∧
      containsSensitiveText library (.object value) = false)
    (invalidResponse "Interaction request contains sensitive content")
  let options := (objectsAt value "options").getD []
  validateInteractionOptionKeys (optionKeys options)
  let checkpoint := (objectAt value "checkpoint").getD []
  let said (key : String) : Json := .string ((textAt value key).getD "")
  return {
    interactionType := interactionTypeOf ((textAt value "interaction_type").getD "")
    prompt := [("prompt", said "prompt"), ("rationale", said "rationale"),
      ("impact", said "impact"),
      ("allow_multiple", .bool ((boolAt value "allow_multiple").getD false))]
    options
    required := (boolAt value "required").getD false
    expiresAt := now + ((secondsAt value "expires_in_seconds").getD 0 : Nat)
    continuationMode := (textAt value "continuation_mode").getD ""
    checkpoint
    checkpointChecksum := taggedSha256 library (canonicalJson (.object checkpoint)) }

/-- The test of `selected_option_keys`. -/
def validSelection : Json → Bool
  | .array items =>
    match items.mapM Json.text? with
    | none => false
    | some keys =>
      keys ≠ [] && decide (keys.length ≤ 20) &&
        (keys.all fun key => decide (key.length ≤ 128) && fullKey key.toList) && decide keys.Nodup
  | _ => false

/-- The test of `text`. -/
def validText : Json → Bool
  | .string text => decide (1 ≤ text.length ∧ text.length ≤ 10000)
  | _ => false

/-- The answer with its text and its options, in their order. -/
def normalise (response : List (String × Json)) : List (String × Json) :=
  ((member response "text").toList.map fun value => ("text", value)) ++
    (member response "selected_option_keys").toList.map fun value =>
      ("selected_option_keys", value)

def validateInteractionAnswer (response : List (String × Json)) :
    Except Fault (List (String × Json)) := do
  require (∀ field ∈ response, field.1 ∈ ["text", "selected_option_keys"])
    (invalidResponse "Interaction response contains unknown fields")
  let text := member response "text"
  let selected := member response "selected_option_keys"
  require (∀ value ∈ text, validText value = true)
    (invalidResponse "Interaction response text is invalid")
  require (∀ value ∈ selected, validSelection value = true)
    (invalidResponse "Interaction selected options are invalid")
  require (¬ (text = none ∧ selected = none))
    (invalidResponse "Interaction response is empty")
  require (findSensitiveKey library true (.object response) = none ∧
      containsSensitiveText library (.object response) = false)
    (invalidResponse "Interaction response contains sensitive content")
  return normalise response

/-- The texts of a list. -/
def selectedKeys : Json → List String
  | .array items => items.filterMap Json.text?
  | _ => []

def validateInteractionResponse (interactionType : UserInteractionType)
    (prompt : List (String × Json)) (options : List (List (String × Json)))
    (response : List (String × Json)) : Except Fault (List (String × Json)) := do
  requireOrdinaryInteraction interactionType
  let normalized ← validateInteractionAnswer library response
  let selected := member normalized "selected_option_keys"
  if interactionType = .choice then
    require (selected.isSome = true) (invalidResponse "Choice response requires selected options")
    let keys := (selected.map selectedKeys).getD []
    require (∀ key ∈ keys, key ∈ optionKeys options)
      (invalidResponse "Choice response selected an unknown option")
    let allowMultiple := (boolAt prompt "allow_multiple").getD false
    require (allowMultiple = true ∨ keys.length = 1)
      (invalidResponse "Choice response accepts exactly one option")
  else
    require (selected.isSome = false)
      (invalidResponse "This interaction does not accept option keys")
  return normalized

/-! ## What a question promises -/

/-- `validate_interaction_response` with the members of a question. -/
def InteractionRequestDraft.answer (draft : InteractionRequestDraft)
    (response : List (String × Json)) : Except Fault (List (String × Json)) :=
  validateInteractionResponse library draft.interactionType draft.prompt draft.options response

/-- Both checks accept the answer, with its text and its options as they are. -/
def Accepted (draft : InteractionRequestDraft) (response : List (String × Json)) : Prop :=
  ∃ normalized, validateInteractionAnswer library response = .ok normalized ∧
    draft.answer library response = .ok normalized

def Rejected (draft : InteractionRequestDraft) (response : List (String × Json)) : Prop :=
  ∃ fault, draft.answer library response = .error fault

/-- The answer that chooses these options. -/
def chosen (keys : List String) : List (String × Json) :=
  [("selected_option_keys", .array (keys.map .string))]

/-- Every answer that a question invites is accepted, and no other one. -/
structure Answerable (draft : InteractionRequestDraft) : Prop where
  single : draft.interactionType = .choice → ∀ key ∈ optionKeys draft.options,
    Accepted library draft (chosen [key])
  several : draft.interactionType = .choice → boolAt draft.prompt "allow_multiple" = some true →
    ∀ keys : List String, keys ≠ [] → keys.length ≤ 20 → keys.Nodup →
      (∀ key ∈ keys, key ∈ optionKeys draft.options) → Accepted library draft (chosen keys)
  unknown : draft.interactionType = .choice → ∀ response items key,
    member response "selected_option_keys" = some (.array items) → Json.string key ∈ items →
      key ∉ optionKeys draft.options → Rejected library draft response
  repeated : draft.interactionType = .choice → ∀ response items,
    member response "selected_option_keys" = some (.array items) →
      ¬ (items.filterMap Json.text?).Nodup → Rejected library draft response
  missing : draft.interactionType = .choice → ∀ response,
    (member response "selected_option_keys" = none ∨
      member response "selected_option_keys" = some (.array [])) → Rejected library draft response
  text : draft.interactionType ≠ .choice → ∀ text : String, 1 ≤ text.length →
    text.length ≤ 10000 → containsSensitiveContent library text = false →
      Accepted library draft [("text", .string text)]
  noOptions : draft.interactionType ≠ .choice → ∀ response,
    (member response "selected_option_keys").isSome = true → Rejected library draft response
  kept : ∀ response normalized, draft.answer library response = .ok normalized →
    member normalized "text" = member response "text" ∧
      member normalized "selected_option_keys" = member response "selected_option_keys"

def offeredKeys (value : List (String × Json)) : List String :=
  optionKeys ((objectsAt value "options").getD [])

theorem acceptMembers_iff {properties : List (String × ValueSchema)}
    {fields : List (String × Json)} :
    acceptMembers properties fields = true ↔
      ∀ property ∈ properties, ∃ value, member fields property.1 = some value ∧
        property.2.accepts value = true := by
  induction properties with
  | nil => simp [acceptMembers]
  | cons property rest ih =>
    obtain ⟨key, schema⟩ := property
    rw [acceptMembers, Bool.and_eq_true, ih, List.forall_mem_cons, Option.any_eq_true]

theorem member_of_accepts {properties : List (String × ValueSchema)}
    {fields : List (String × Json)} {key : String} {schema : ValueSchema}
    (accepted : (ValueSchema.closed properties).accepts (.object fields) = true)
    (property : (key, schema) ∈ properties) :
    ∃ value, member fields key = some value ∧ schema.accepts value = true := by
  rw [ValueSchema.accepts, Bool.and_eq_true] at accepted
  exact acceptMembers_iff.mp accepted.2 (key, schema) property

theorem textAt_key_of_accepts {item : Json} (accepted : optionSchema.accepts item = true) :
    ∃ option key, item = .object option ∧ textAt option "key" = some key ∧
      key.length ≤ 128 ∧ searched fullKey key.toList = true := by
  cases item with
  | object option =>
    obtain ⟨value, found, keyed⟩ := member_of_accepts accepted (List.mem_cons_self ..)
    cases value with
    | string key =>
      refine ⟨option, key, rfl, by rw [textAt, found], ?_⟩
      simpa [ValueSchema.accepts] using keyed
    | _ => simp [ValueSchema.accepts] at keyed
  | _ => simp [optionSchema, ValueSchema.accepts] at accepted

theorem mapM_asObject_of_accepts {items : List Json}
    (accepted : ∀ item ∈ items, optionSchema.accepts item = true) :
    ∃ options, items.mapM asObject = some options ∧
      ∀ key ∈ optionKeys options, key.length ≤ 128 ∧ searched fullKey key.toList = true := by
  induction items with
  | nil => exact ⟨[], rfl, by simp [optionKeys]⟩
  | cons item rest ih =>
    obtain ⟨options, mapped, keyed⟩ := ih fun other among => accepted other (.tail _ among)
    obtain ⟨option, key, rfl, named, short, found⟩ :=
      textAt_key_of_accepts (accepted item (.head _))
    refine ⟨option :: options, by simp [asObject, mapped], ?_⟩
    intro other among
    rw [optionKeys, List.map_cons, named] at among
    rcases List.mem_cons.mp among with rfl | among
    · exact ⟨short, found⟩
    · exact keyed other among

theorem searched_of_mem_offeredKeys {value : List (String × Json)}
    (accepted : interactionRequestSchema.accepts (.object value) = true) {key : String}
    (offered : key ∈ offeredKeys value) :
    key.length ≤ 128 ∧ searched fullKey key.toList = true := by
  have listedOptions : ("options", ValueSchema.list 20 false optionSchema) ∈
      [("interaction_type", .enum ["CLARIFICATION", "CHOICE", "REVIEW"]),
        ("prompt", .text 1 (some 2000) none), ("rationale", .text 1 (some 2000) none),
        ("impact", .text 1 (some 2000) none), ("options", .list 20 false optionSchema)] := by
    simp
  obtain ⟨listed, found, options⟩ :=
    member_of_accepts accepted (List.mem_append_left _ listedOptions)
  cases listed with
  | array items =>
    simp only [ValueSchema.accepts, Bool.and_eq_true, List.all_eq_true] at options
    obtain ⟨objects, mapped, keyed⟩ := mapM_asObject_of_accepts options.1.2
    refine keyed key ?_
    simpa [offeredKeys, objectsAt, Effects.itemsAt, found, mapped] using offered
  | _ => simp [ValueSchema.accepts] at options

/-! ## Keys are never taken for credentials -/

theorem mem_of_assignmentAt {previous : Option Char} {text : List Char}
    (assigned : assignmentAt library previous text = true) : ':' ∈ text ∨ '=' ∈ text := by
  rw [assignmentAt, Bool.and_eq_true, List.any_eq_true] at assigned
  obtain ⟨name, -, matched⟩ := assigned.2
  rw [Bool.and_eq_true, Option.any_eq_true] at matched
  obtain ⟨c, follows, sign⟩ := matched.2
  have within : c ∈ text := List.mem_of_mem_drop
    ((List.dropWhile_sublist isSpace).mem (List.mem_of_mem_head? follows))
  rcases Bool.or_eq_true_iff.mp sign with colon | equals
  · exact .inl (beq_iff_eq.mp colon ▸ within)
  · exact .inr (beq_iff_eq.mp equals ▸ within)

theorem mem_of_searchAssignment {previous : Option Char} {text : List Char}
    (assigned : searchAssignment library previous text = true) : ':' ∈ text ∨ '=' ∈ text := by
  induction text generalizing previous with
  | nil => simp [searchAssignment] at assigned
  | cons c rest ih =>
    rw [searchAssignment, Bool.or_eq_true] at assigned
    rcases assigned with here | later
    · exact mem_of_assignmentAt library here
    · exact (ih later).imp (.tail _) (.tail _)

theorem space_mem_of_privateKeyAt {text : List Char} (marked : privateKeyAt text = true) :
    ' ' ∈ text := by
  rw [privateKeyAt, Bool.and_eq_true, List.isPrefixOf_iff_prefix] at marked
  exact marked.1.subset (by decide)

theorem containsSensitiveContent_eq_false {text : String} (colon : ':' ∉ text.toList)
    (equals : '=' ∉ text.toList) (space : ' ' ∉ text.toList) :
    containsSensitiveContent library text = false := by
  by_contra sensitive
  rw [Bool.not_eq_false, containsSensitiveContent, Bool.or_eq_true, List.any_eq_true] at sensitive
  rcases sensitive with assigned | ⟨tail, among, marked⟩
  · exact (mem_of_searchAssignment library assigned).elim colon equals
  · exact space ((List.mem_tails tail text.toList).mp among |>.subset
      (space_mem_of_privateKeyAt marked))

theorem isKeyChar_of_fullKey {text : List Char} (full : fullKey text = true) :
    ∀ c ∈ text, isKeyChar c = true := by
  cases text with
  | nil => simp
  | cons first rest =>
    rw [fullKey, Bool.and_eq_true, List.all_eq_true] at full
    intro c among
    rcases List.mem_cons.mp among with rfl | among
    · simp only [isKeyChar, full.1, Bool.true_or]
    · exact full.2 c among

theorem containsSensitiveContent_of_fullKey {key : String} (full : fullKey key.toList = true) :
    containsSensitiveContent library key = false := by
  have plain := isKeyChar_of_fullKey full
  exact containsSensitiveContent_eq_false library (fun among => absurd (plain _ among) (by decide))
    (fun among => absurd (plain _ among) (by decide))
    (fun among => absurd (plain _ among) (by decide))

theorem fullKey_iff_of_searched {key : List Char} (found : searched fullKey key = true) :
    fullKey key = true ↔ key.getLast? ≠ some '\n' := by
  constructor
  · intro full ends
    exact absurd (isKeyChar_of_fullKey full _ (List.mem_of_getLast? ends)) (by decide)
  · intro plain
    rw [searched, Bool.or_eq_true, Bool.and_eq_true, beq_iff_eq] at found
    exact found.resolve_right fun ending => plain ending.1

theorem validateInteractionAnswer_ok_iff {response normalized : List (String × Json)} :
    validateInteractionAnswer library response = .ok normalized ↔
      ((∀ field ∈ response, field.1 ∈ ["text", "selected_option_keys"]) ∧
        (∀ value ∈ member response "text", validText value = true) ∧
        (∀ value ∈ member response "selected_option_keys", validSelection value = true) ∧
        ¬ (member response "text" = none ∧ member response "selected_option_keys" = none) ∧
        findSensitiveKey library true (.object response) = none ∧
        containsSensitiveText library (.object response) = false) ∧
      normalized = normalise response := by
  simp only [validateInteractionAnswer, bind_eq_ok, require_eq_ok, pure, Except.pure,
    Except.ok.injEq]
  constructor
  · rintro ⟨_, known, _, text, _, selected, _, filled, _, ordinary, rfl⟩
    exact ⟨⟨known, text, selected, filled, ordinary⟩, rfl⟩
  · rintro ⟨⟨known, text, selected, filled, ordinary⟩, rfl⟩
    exact ⟨(), known, (), text, (), selected, (), filled, (), ordinary, rfl⟩

theorem member_normalise {response : List (String × Json)} :
    member (normalise response) "text" = member response "text" ∧
      member (normalise response) "selected_option_keys" =
        member response "selected_option_keys" := by
  cases text : member response "text" <;>
    cases selected : member response "selected_option_keys" <;>
      (simp only [normalise, text, selected]; exact ⟨rfl, rfl⟩)

theorem mapM_text_eq_some {items : List Json} {keys : List String} :
    items.mapM Json.text? = some keys ↔ items = keys.map .string := by
  induction items generalizing keys with
  | nil => cases keys <;> simp
  | cons item rest ih =>
    cases keys with
    | nil => cases item <;> cases mapped : rest.mapM Json.text? <;> simp [Json.text?, mapped]
    | cons key others =>
      rw [List.map_cons, List.cons.injEq, ← ih]
      cases item <;> cases mapped : rest.mapM Json.text? <;> simp [Json.text?, mapped]

theorem validSelection_iff {value : Json} :
    validSelection value = true ↔
      ∃ keys : List String, value = .array (keys.map .string) ∧ keys ≠ [] ∧ keys.length ≤ 20 ∧
        (∀ key ∈ keys, key.length ≤ 128 ∧ fullKey key.toList = true) ∧ keys.Nodup := by
  constructor
  · intro valid
    cases value with
    | array items =>
      cases mapped : items.mapM Json.text? with
      | none => simp [validSelection, mapped] at valid
      | some keys =>
        refine ⟨keys, by rw [mapM_text_eq_some.mp mapped], ?_⟩
        simpa [validSelection, mapped, and_assoc] using valid
    | _ => simp [validSelection] at valid
  · rintro ⟨keys, rfl, filled, short, full, distinct⟩
    have mapped : (keys.map Json.string).mapM Json.text? = some keys := mapM_text_eq_some.mpr rfl
    simp only [validSelection, mapped, Bool.and_eq_true, decide_eq_true_eq, List.all_eq_true]
    exact ⟨⟨⟨filled, short⟩, full⟩, distinct⟩

theorem filterMap_text_map (keys : List String) :
    (keys.map Json.string).filterMap Json.text? = keys := by
  induction keys with
  | nil => rfl
  | cons key rest ih => rw [List.map_cons, List.filterMap_cons, Json.text?, ih]

variable {draft : InteractionRequestDraft}

theorem answer_ok_iff {response normalized : List (String × Json)}
    (ordinary : draft.interactionType.ordinary = true) :
    draft.answer library response = .ok normalized ↔
      validateInteractionAnswer library response = .ok normalized ∧
        (draft.interactionType = .choice →
          ∃ value ∈ member response "selected_option_keys",
            (∀ key ∈ selectedKeys value, key ∈ optionKeys draft.options) ∧
              ((boolAt draft.prompt "allow_multiple").getD false = true ∨
                (selectedKeys value).length = 1)) ∧
        (draft.interactionType ≠ .choice → member response "selected_option_keys" = none) := by
  have asked : requireOrdinaryInteraction draft.interactionType = .ok () :=
    require_eq_ok.mpr ordinary
  rw [InteractionRequestDraft.answer, validateInteractionResponse, asked]
  simp only [bind_eq_ok]
  constructor
  · rintro ⟨_, -, value, checked, ended⟩
    obtain ⟨-, rfl⟩ := (validateInteractionAnswer_ok_iff library).mp checked
    rw [member_normalise.2] at ended
    split_ifs at ended with choice
    · simp only [bind_eq_ok, require_eq_ok, pure_eq_ok] at ended
      obtain ⟨_, present, _, known, _, number, rfl⟩ := ended
      obtain ⟨value, selected⟩ := Option.isSome_iff_exists.mp present
      rw [selected] at known number
      exact ⟨checked, fun _ => ⟨value, selected, known, number⟩, fun other => absurd choice other⟩
    · simp only [bind_eq_ok, require_eq_ok, pure_eq_ok] at ended
      obtain ⟨_, absent, rfl⟩ := ended
      exact ⟨checked, fun kind => absurd kind choice, fun _ => by simpa using absent⟩
  · rintro ⟨checked, chosenOnly, others⟩
    obtain ⟨-, rfl⟩ := (validateInteractionAnswer_ok_iff library).mp checked
    refine ⟨(), trivial, normalise response, checked, ?_⟩
    rw [member_normalise.2]
    split_ifs with choice
    · obtain ⟨value, selected, known, number⟩ := chosenOnly choice
      rw [Option.mem_def.mp selected]
      simp only [bind_eq_ok, require_eq_ok, pure_eq_ok]
      exact ⟨(), rfl, (), known, (), number, trivial⟩
    · rw [others choice]
      rfl

theorem rejected_of_not_ok {response : List (String × Json)}
    (refused : ∀ normalized, draft.answer library response ≠ .ok normalized) :
    Rejected library draft response := by
  cases answered : draft.answer library response with
  | error fault => exact ⟨fault, answered⟩
  | ok normalized => exact absurd answered (refused normalized)

theorem itemsSensitive_eq_false {keys : List String}
    (ordinary : ∀ key ∈ keys, containsSensitiveContent library key = false) :
    itemsSensitive library (keys.map Json.string) = false := by
  induction keys with
  | nil => rfl
  | cons key rest ih =>
    rw [List.map_cons, itemsSensitive, containsSensitiveText, ordinary key (.head _),
      ih fun other among => ordinary other (.tail _ among), Bool.or_false]

theorem answerNames : ¬ sensitiveName true "text" = true ∧
    ¬ sensitiveName true "selected_option_keys" = true := by
  decide

theorem validateInteractionAnswer_chosen {keys : List String} (filled : keys ≠ [])
    (few : keys.length ≤ 20) (distinct : keys.Nodup)
    (full : ∀ key ∈ keys, key.length ≤ 128 ∧ fullKey key.toList = true) :
    validateInteractionAnswer library (chosen keys) = .ok (chosen keys) := by
  have selected : member (chosen keys) "selected_option_keys" =
      some (.array (keys.map .string)) := rfl
  have text : member (chosen keys) "text" = none := rfl
  refine (validateInteractionAnswer_ok_iff library).mpr ⟨⟨?_, ?_, ?_, ?_, ?_, ?_⟩, rfl⟩
  · simp [chosen]
  · simp [text]
  · intro value among
    rw [selected, Option.mem_some_iff] at among
    exact validSelection_iff.mpr ⟨keys, among.symm, filled, few, full, distinct⟩
  · simp [selected]
  · rw [findSensitiveKey, findSensitiveMember_eq_none]
    intro field among
    rw [chosen, List.mem_singleton] at among
    subst among
    refine ⟨fun sensitive => absurd sensitive answerNames.2, ?_⟩
    rw [findSensitiveKey, findSensitiveItem_eq_none]
    intro item among
    obtain ⟨key, -, rfl⟩ := List.mem_map.mp among
    rfl
  · rw [containsSensitiveText, chosen, membersSensitive, membersSensitive, containsSensitiveText,
      itemsSensitive_eq_false library fun key among =>
        containsSensitiveContent_of_fullKey library (full key among).2, Bool.or_false]

theorem validateInteractionAnswer_text {text : String} (filled : 1 ≤ text.length)
    (short : text.length ≤ 10000) (ordinary : containsSensitiveContent library text = false) :
    validateInteractionAnswer library [("text", .string text)] =
      .ok [("text", .string text)] := by
  have said : member [("text", Json.string text)] "text" = some (.string text) := rfl
  have selected : member [("text", Json.string text)] "selected_option_keys" = none := rfl
  refine (validateInteractionAnswer_ok_iff library).mpr ⟨⟨?_, ?_, ?_, ?_, ?_, ?_⟩, rfl⟩
  · simp
  · simp [said, validText, filled, short]
  · simp [selected]
  · simp [said]
  · rw [findSensitiveKey, findSensitiveMember_eq_none]
    intro field among
    rw [List.mem_singleton] at among
    subst among
    exact ⟨fun sensitive => absurd sensitive answerNames.1, rfl⟩
  · rw [containsSensitiveText, membersSensitive, membersSensitive, containsSensitiveText, ordinary,
      Bool.or_false]

theorem interactionTypeOf_ordinary (value : String) :
    (interactionTypeOf value).ordinary = true := by
  rw [interactionTypeOf]
  split_ifs <;> rfl

theorem interactionTypeOf_eq_choice {value : String} :
    interactionTypeOf value = .choice ↔ value = "CHOICE" := by
  rw [interactionTypeOf]
  split_ifs with choice review <;> simp_all

theorem parseInteractionRequest_ok {value : List (String × Json)} {now : Timestamp}
    (parsed : parseInteractionRequest library value now = .ok draft) :
    interactionRequestSchema.accepts (.object value) = true ∧
      draft.interactionType.ordinary = true ∧
      (draft.interactionType = .choice ↔ textAt value "interaction_type" = some "CHOICE") ∧
      optionKeys draft.options = offeredKeys value := by
  simp only [parseInteractionRequest, bind_eq_ok, require_eq_ok, pure, Except.pure,
    Except.ok.injEq] at parsed
  obtain ⟨_, ⟨accepted, -⟩, _, -, _, -, rfl⟩ := parsed
  refine ⟨accepted, interactionTypeOf_ordinary _, ?_, rfl⟩
  rw [interactionTypeOf_eq_choice]
  cases textAt value "interaction_type" <;> simp

theorem fullKey_of_answerable
    (answerable : Answerable library draft) (kind : draft.interactionType = .choice) :
    ∀ key ∈ optionKeys draft.options, fullKey key.toList = true := by
  intro key among
  obtain ⟨normalized, checked, -⟩ := answerable.single kind key among
  have valid := ((validateInteractionAnswer_ok_iff library).mp checked).1.2.2.1 _ rfl
  obtain ⟨keys, same, -, -, every, -⟩ := validSelection_iff.mp valid
  have named : keys = [key] := by
    rw [← filterMap_text_map keys, ← Json.array.inj same, filterMap_text_map]
  exact (every key (named ▸ List.mem_singleton_self key)).2

theorem answerable_of_fullKey
    (ordinary : draft.interactionType.ordinary = true)
    (full : draft.interactionType = .choice → ∀ key ∈ optionKeys draft.options,
      key.length ≤ 128 ∧ fullKey key.toList = true) : Answerable library draft := by
  have admitted : draft.interactionType = .choice → ∀ keys : List String, keys ≠ [] →
      keys.length ≤ 20 → keys.Nodup → (∀ key ∈ keys, key ∈ optionKeys draft.options) →
      ((boolAt draft.prompt "allow_multiple").getD false = true ∨ keys.length = 1) →
        Accepted library draft (chosen keys) := by
    intro kind keys filled few distinct known number
    have checked := validateInteractionAnswer_chosen library filled few distinct fun key among =>
      full kind key (known key among)
    refine ⟨chosen keys, checked, (answer_ok_iff library ordinary).mpr ⟨checked, ?_, ?_⟩⟩
    · intro _
      refine ⟨.array (keys.map .string), rfl, ?_⟩
      rw [selectedKeys, filterMap_text_map]
      exact ⟨known, number⟩
    · exact fun other => absurd kind other
  -- an accepted answer to a choice names distinct options that it offers
  have named : draft.interactionType = .choice → ∀ response normalized,
      draft.answer library response = .ok normalized → ∃ keys : List String,
        member response "selected_option_keys" = some (.array (keys.map .string)) ∧
          keys ≠ [] ∧ keys.Nodup ∧ ∀ key ∈ keys, key ∈ optionKeys draft.options := by
    intro kind response normalized answered
    obtain ⟨checked, chosenOnly, -⟩ := (answer_ok_iff library ordinary).mp answered
    obtain ⟨selected, among, known, -⟩ := chosenOnly kind
    obtain ⟨keys, rfl, filled, -, -, distinct⟩ := validSelection_iff.mp
      (((validateInteractionAnswer_ok_iff library).mp checked).1.2.2.1 selected among)
    rw [selectedKeys, filterMap_text_map] at known
    exact ⟨keys, among, filled, distinct, known⟩
  refine ⟨?_, ?_, ?_, ?_, ?_, ?_, ?_, ?_⟩
  · intro kind key among
    exact admitted kind [key] (List.cons_ne_nil key []) (by simp) (List.nodup_singleton key)
      (by simpa using among) (.inr rfl)
  · intro kind multiple keys filled few distinct known
    exact admitted kind keys filled few distinct known (.inl (by rw [multiple]; rfl))
  · intro kind response items key selected among unknown
    refine rejected_of_not_ok library fun normalized answered => ?_
    obtain ⟨keys, found, -, -, known⟩ := named kind response normalized answered
    obtain rfl := Json.array.inj (Option.some.inj (selected.symm.trans found))
    obtain ⟨other, listed, same⟩ := List.mem_map.mp among
    exact unknown (Json.string.inj same ▸ known other listed)
  · intro kind response items selected repeats
    refine rejected_of_not_ok library fun normalized answered => ?_
    obtain ⟨keys, found, -, distinct, -⟩ := named kind response normalized answered
    obtain rfl := Json.array.inj (Option.some.inj (selected.symm.trans found))
    exact repeats (by rwa [filterMap_text_map])
  · intro kind response empty
    refine rejected_of_not_ok library fun normalized answered => ?_
    obtain ⟨keys, found, filled, -⟩ := named kind response normalized answered
    rcases empty with missing | empty
    · simp [missing] at found
    · simp [empty] at found
      exact filled found
  · intro kind text filled short plainText
    have checked := validateInteractionAnswer_text library filled short plainText
    exact ⟨_, checked, (answer_ok_iff library ordinary).mpr
      ⟨checked, fun other => absurd other kind, fun _ => rfl⟩⟩
  · intro kind response selected
    refine rejected_of_not_ok library fun normalized answered => ?_
    rw [((answer_ok_iff library ordinary).mp answered).2.2 kind] at selected
    cases selected
  · intro response normalized answered
    obtain ⟨checked, -⟩ := (answer_ok_iff library ordinary).mp answered
    rw [((validateInteractionAnswer_ok_iff library).mp checked).2]
    exact member_normalise

/-- An accepted question can be answered exactly when it is no choice, or no key that it offers
ends with a newline. -/
theorem parseInteractionRequest_answerable_iff {value : List (String × Json)} {now : Timestamp}
    {draft : InteractionRequestDraft}
    (parsed : parseInteractionRequest library value now = .ok draft) :
    Answerable library draft ↔
      (textAt value "interaction_type" = some "CHOICE" →
        ∀ key ∈ offeredKeys value, key.toList.getLast? ≠ some '\n') := by
  obtain ⟨accepted, ordinary, choice, offered⟩ := parseInteractionRequest_ok library parsed
  have keyed : ∀ key ∈ offeredKeys value, key.length ≤ 128 ∧
      (fullKey key.toList = true ↔ key.toList.getLast? ≠ some '\n') := by
    intro key among
    have found := searched_of_mem_offeredKeys accepted among
    exact ⟨found.1, fullKey_iff_of_searched found.2⟩
  rw [← choice]
  constructor
  · intro answerable kind key among
    exact (keyed key among).2.mp
      (fullKey_of_answerable library answerable kind key (offered ▸ among))
  · intro plain
    refine answerable_of_fullKey library ordinary fun kind key among => ?_
    rw [offered] at among
    exact ⟨(keyed key among).1, (keyed key among).2.mpr (plain kind key among)⟩

end Answers

def choiceBetween (keys : List String) : List (String × Json) :=
  [("interaction_type", .string "CHOICE"), ("prompt", .string "Which report?"),
    ("rationale", .string "Two fit"), ("impact", .string "One is sent"),
    ("options", .array (keys.map fun key => .object
      [("key", .string key), ("label", .string "Report"), ("description", .string "A report"),
        ("recommended", .bool false)])),
    ("allow_multiple", .bool false), ("required", .bool true),
    ("expires_in_seconds", .number "300"), ("continuation_mode", .string "RESUME"),
    ("checkpoint", .object
      [("summary", .string "Read"), ("confirmed_facts", .array []), ("evidence_refs", .array []),
        ("artifact_refs", .array []), ("change_proposal_refs", .array [])])]

theorem zeros_length : (List.replicate 64 '0').length = 64 := List.length_replicate

theorem zeros_hexadecimal : (List.replicate 64 '0').all isHexDigit = true := rfl

def asciiLibrary : StandardLibrary :=
  ⟨Char.isAlphanum, fun _ => ⟨List.replicate 64 '0', zeros_length, zeros_hexadecimal⟩⟩

theorem choiceBetween_answerable :
    ∃ draft, parseInteractionRequest asciiLibrary (choiceBetween ["brief", "full"]) 0 =
        .ok draft ∧ Answerable asciiLibrary draft :=
  have parsed : parseInteractionRequest asciiLibrary (choiceBetween ["brief", "full"]) 0 =
      .ok _ := rfl
  ⟨_, parsed, (parseInteractionRequest_answerable_iff asciiLibrary parsed).mpr (by decide)⟩

/-- The pattern of the schema finds a key that no answer can name. -/
theorem choiceBetween_newline_not_answerable :
    ∃ draft, parseInteractionRequest asciiLibrary (choiceBetween ["brief", "full\n"]) 0 =
        .ok draft ∧ ¬ Answerable asciiLibrary draft := by
  refine ⟨_, rfl, fun answerable => ?_⟩
  have full := fullKey_of_answerable asciiLibrary answerable rfl "full\n" (by decide)
  exact absurd full (by decide)

end SkillMind.Runs.Interaction
