import SkillMind.Agent.ModelResult
import SkillMind.Agent.WorkspaceReading

/-!
# Sequences of tool calls

`ToolSequenceProvider` checks all its steps before the first runs, then runs them one by one and
stops at the first that fails, misses a check or makes the results too many bytes. In the last
case only the references of that step's result are kept. The gateway adds a reference of its own
and measures the whole response; in a Run with a form for its result it adds a label for every
reference, and measures again.
-/

namespace SkillMind.Agent

open Library SkillMind.Core

def maxSequenceSteps : Nat := 5
def maxAggregateBytes : Nat := 1048576
def aggregateReserve : Nat := 4096

/-! ## The execution -/

structure SequenceStep where
  capability : String
  arguments : Json
  checks : List SequenceCheck

/-- What `validate_sequence_step` raises. -/
inductive StaticFault where
  | policy (code message : String)
  | other

abbrev ToolResponse := List (String × Json)

structure SequenceHost (ε : Type) where
  /-- The runtime is bound and the call has an identity. -/
  available : Bool
  validate : SequenceStep → Option StaticFault
  /-- `invoke_sequence_step` at a position: a response, or what it raises. -/
  invoke : Nat → SequenceStep → Except ε ToolResponse
  maxOutputBytes : Nat
  /-- The Run has a form for its result, so that the model gets labels. -/
  labelled : Bool

/-- `len(canonical_json(completed).encode("utf-8"))`. -/
def aggregateBytes (completed : List Json) : Nat := canonicalBytes (.array completed)

def stepItem (position : Nat) (step : SequenceStep) (response : ToolResponse) : Json :=
  .object [("position", .number (toString position)), ("capability", .string step.capability),
    ("response", .object response)]

def storedResponse (response : ToolResponse) : ToolResponse :=
  [("status", .string "stored"), ("omitted", .string "aggregate_byte_limit"),
    ("evidence_refs", (response.lookup "evidence_refs").getD (.array [])),
    ("artifact_refs", (response.lookup "artifact_refs").getD (.array []))]

/-- `response.get("status") == "error"`. -/
def isErrorResponse (response : ToolResponse) : Bool :=
  match response.lookup "status" with
  | some (.string text) => text == "error"
  | _ => false

structure SequenceAnswer where
  outcome : String
  steps : List Json
  notRun : List Nat
  stopReason : Option String

inductive SequenceOutcome (ε : Type) where
  | refused (error : ToolProviderError)
  | raised (fault : ε)
  | answered (answer : SequenceAnswer)

structure SequenceExecution (ε : Type) where
  calls : List Nat
  outcome : SequenceOutcome ε

section Run

variable {ε : Type} (table : DecimalTable) (host : SequenceHost ε)

/-- What the results may take: `max(0, limit - 4096)`. -/
def aggregateLimit : Nat := min maxAggregateBytes host.maxOutputBytes - aggregateReserve

/-- The loop that checks the steps; a step without its members is `none`. -/
def validateSteps : Nat → List (Option SequenceStep) →
    Except ToolProviderError (List SequenceStep)
  | _, [] => .ok []
  | position, none :: _ =>
    .error (invalidRequest ("Sequence /steps/" ++ toString position ++
      " is invalid; check its capability and arguments. No steps were executed."))
  | position, some step :: rest =>
    match host.validate step with
    | some (.policy code message) =>
      .error ⟨code, "Sequence /steps/" ++ toString position ++ ": " ++ message ++
        " No steps were executed.", false⟩
    | some .other =>
      .error (invalidRequest ("Sequence /steps/" ++ toString position ++
        " is invalid; check its capability and arguments. No steps were executed."))
    | none => (validateSteps (position + 1) rest).map fun steps => step :: steps

/-- The answer after `completed` with `left` steps not run. -/
def answerOf (completed : List Json) (left : Nat) (reason : Option String) : SequenceAnswer :=
  ⟨if reason.isNone then "COMPLETED" else "STOPPED", completed,
    List.range' completed.length left, reason⟩

def runSteps (completed : List Json) (position : Nat) : List SequenceStep → SequenceExecution ε
  | [] => ⟨[], .answered (answerOf completed 0 none)⟩
  | step :: rest =>
    match host.invoke position step with
    | .error fault => ⟨[position], .raised fault⟩
    | .ok response =>
      if aggregateLimit host < aggregateBytes (completed ++ [stepItem position step response]) then
        ⟨[position], .answered (answerOf
          (completed ++ [stepItem position step (storedResponse response)]) rest.length
          (some "aggregate_byte_limit"))⟩
      else if isErrorResponse response = true then
        ⟨[position], .answered (answerOf (completed ++ [stepItem position step response])
          rest.length (some "tool_failed"))⟩
      else if matchesChecks table (.object response) step.checks = false then
        ⟨[position], .answered (answerOf (completed ++ [stepItem position step response])
          rest.length (some "condition_failed"))⟩
      else
        let further := runSteps (completed ++ [stepItem position step response]) (position + 1) rest
        ⟨position :: further.calls, further.outcome⟩

/-- `ToolSequenceProvider.execute`; no list of steps is `none`. -/
def executeSequence (steps : Option (List (Option SequenceStep))) : SequenceExecution ε :=
  if host.available = false then
    ⟨[], .refused ⟨"unavailable", "Sequence runtime is unavailable", false⟩⟩
  else
    match steps with
    | none => ⟨[], .refused (invalidRequest "Invalid sequence size")⟩
    | some steps =>
      if steps.length < 1 ∨ maxSequenceSteps < steps.length then
        ⟨[], .refused (invalidRequest "Invalid sequence size")⟩
      else
        match validateSteps host 0 steps with
        | .error error => ⟨[], .refused error⟩
        | .ok steps => runSteps table host [] 0 steps

end Run

/-- `evidence_ref` of a new record: `ev_` and 32 hexadecimal digits. -/
structure EvidenceRef where
  digits : List Char
  length_eq : digits.length = 32
  hexadecimal : digits.all isHexDigit = true

def EvidenceRef.text (ref : EvidenceRef) : String := String.ofList ('e' :: 'v' :: '_' :: ref.digits)

/-- The response that `_invoke` makes of the answer. -/
def gatewayResponse (ref : EvidenceRef) (answer : SequenceAnswer) : ToolResponse :=
  [("status", .string "success"), ("provider", .string "platform"),
    ("outcome", .string answer.outcome), ("steps", .array answer.steps),
    ("not_run", .array (answer.notRun.map fun n => .number (toString n))),
    ("stop_reason", (answer.stopReason.map Json.string).getD .null),
    ("evidence_refs", .array [.string ref.text])]

section Delivery

variable {ε : Type} (library : StandardLibrary) (host : SequenceHost ε)

/-- What `invoke_mcp` makes of a response for the model. -/
def deliveredResponse (response : ToolResponse) : ToolResponse :=
  if host.labelled = true then projectResultReferences library response else response

/-- The size tests of `_checked_response` and of `invoke_mcp`. -/
def isTooLarge (response : ToolResponse) : Prop :=
  host.maxOutputBytes < canonicalBytes (.object response) ∨
    host.maxOutputBytes < canonicalBytes (.object (deliveredResponse library host response))

end Delivery

section Account

variable {ε : Type} (library : StandardLibrary) (table : DecimalTable) (host : SequenceHost ε)

/-- A result after which the sequence goes on. -/
structure Passes (completed : List Json) (position : Nat) (step : SequenceStep)
    (response : ToolResponse) : Prop where
  small : aggregateBytes (completed ++ [stepItem position step response]) ≤ aggregateLimit host
  success : isErrorResponse response = false
  checked : matchesChecks table (.object response) step.checks = true

/-- Steps run in their order, from a position on, until one does not pass: what is completed, the
steps that are left and the reason to stop. -/
inductive Ran : List Json → Nat → List SequenceStep → List Json → List SequenceStep →
    Option String → Prop where
  | done {completed : List Json} {position : Nat} : Ran completed position [] completed [] none
  | pass {completed items : List Json} {position : Nat} {step : SequenceStep}
      {rest left : List SequenceStep} {response : ToolResponse} {reason : Option String}
      (called : host.invoke position step = .ok response)
      (passes : Passes table host completed position step response)
      (further : Ran (completed ++ [stepItem position step response]) (position + 1) rest items left
        reason) : Ran completed position (step :: rest) items left reason
  | large {completed : List Json} {position : Nat} {step : SequenceStep}
      {rest : List SequenceStep} {response : ToolResponse}
      (called : host.invoke position step = .ok response)
      (large : aggregateLimit host <
        aggregateBytes (completed ++ [stepItem position step response])) :
      Ran completed position (step :: rest)
        (completed ++ [stepItem position step (storedResponse response)]) rest
        (some "aggregate_byte_limit")
  | failed {completed : List Json} {position : Nat} {step : SequenceStep}
      {rest : List SequenceStep} {response : ToolResponse}
      (called : host.invoke position step = .ok response)
      (small : aggregateBytes (completed ++ [stepItem position step response]) ≤
        aggregateLimit host)
      (failure : isErrorResponse response = true) :
      Ran completed position (step :: rest) (completed ++ [stepItem position step response]) rest
        (some "tool_failed")
  | unmet {completed : List Json} {position : Nat} {step : SequenceStep}
      {rest : List SequenceStep} {response : ToolResponse}
      (called : host.invoke position step = .ok response)
      (small : aggregateBytes (completed ++ [stepItem position step response]) ≤
        aggregateLimit host)
      (success : isErrorResponse response = false)
      (unmet : matchesChecks table (.object response) step.checks = false) :
      Ran completed position (step :: rest) (completed ++ [stepItem position step response]) rest
        (some "condition_failed")

/-- Steps pass one after another until one raises: its position and what it raises. -/
inductive Faults : List Json → Nat → List SequenceStep → Nat → ε → Prop where
  | now {completed : List Json} {position : Nat} {step : SequenceStep}
      {rest : List SequenceStep} {fault : ε} (called : host.invoke position step = .error fault) :
      Faults completed position (step :: rest) position fault
  | later {completed : List Json} {position at' : Nat} {step : SequenceStep}
      {rest : List SequenceStep} {response : ToolResponse} {fault : ε}
      (called : host.invoke position step = .ok response)
      (passes : Passes table host completed position step response)
      (further : Faults (completed ++ [stepItem position step response]) (position + 1) rest at'
        fault) : Faults completed position (step :: rest) at' fault

/-- **A sequence stops cleanly and does not lose what ran.** -/
structure SequenceSound (ref : EvidenceRef) (steps : List (Option SequenceStep)) : Prop where
  static : (∃ step ∈ steps, ∀ checked, step = some checked → host.validate checked ≠ none) →
    (executeSequence table host (some steps)).calls = []
  runs : ∀ answer, (executeSequence table host (some steps)).outcome = .answered answer →
    ∃ ran left, steps = (ran ++ left).map some ∧ 1 ≤ ran.length ∧
      (executeSequence table host (some steps)).calls = List.range ran.length ∧
      Ran table host [] 0 (ran ++ left) answer.steps left answer.stopReason ∧
      answer.steps.length = ran.length ∧
      answer.notRun = List.range' ran.length left.length ∧
      answer.outcome = if answer.stopReason.isNone then "COMPLETED" else "STOPPED"
  /-- A child call that raises ends the sequence: the calls are those up to it. -/
  raises : ∀ fault, (executeSequence table host (some steps)).outcome = .raised fault →
    ∃ checked position, steps = checked.map some ∧ Faults table host [] 0 checked position fault ∧
      (executeSequence table host (some steps)).calls = List.range (position + 1)
  fits : ∀ answer, (executeSequence table host (some steps)).outcome = .answered answer →
    ¬ isTooLarge library host (gatewayResponse ref answer)
  /-- Behind a child call that has returned, none raises: its result would reach nobody. -/
  kept : ∀ fault, (executeSequence table host (some steps)).outcome = .raised fault →
    (executeSequence table host (some steps)).calls = [0]

def reasonJson (reason : Option String) : Json := (reason.map Json.string).getD .null

/-- The bytes of an answer without its results: its members, and the positions left. -/
def frameBytes (reason : Option String) (left : Nat) : Nat :=
  canonicalBytes (.string (if reason.isNone then "COMPLETED" else "STOPPED")) +
    canonicalBytes (reasonJson reason) + 144 + if left = 0 then 2 else 2 * left + 1

/-- The labels of the references in the results and of the one that the gateway adds. -/
def answerLabels (ref : EvidenceRef) (items : List Json) : List (String × String) :=
  dictOf ((itemReferences "/steps".toList 0 items ++ [(ref.text, "/evidence_refs/0".toList)]).map
    fun entry => (referenceLabel library entry.1, String.ofList entry.2))

def labelBytes (ref : EvidenceRef) (items : List Json) : Nat :=
  if host.labelled = true then
    ((answerLabels library ref items).map fun label =>
      canonicalBytes (.string label.2) + 17).sum + 22
  else 0

/-- Wherever the sequence ends, its results leave room for the frame of the answer and for the
labels.  Without labels only the result that made the others too many can leave too little. -/
def LeavesRoom (ref : EvidenceRef) (steps : List SequenceStep) : Prop :=
  ∀ items left reason, Ran table host [] 0 steps items left reason →
    host.labelled = true ∨ reason = some "aggregate_byte_limit" →
    aggregateBytes items + frameBytes reason left.length + labelBytes library host ref items ≤
      host.maxOutputBytes

end Account

theorem bytes_append (front back : List Char) :
    (front ++ back).foldr (fun c length => c.utf8Size + length) 0 =
      front.foldr (fun c length => c.utf8Size + length) 0 +
        back.foldr (fun c length => c.utf8Size + length) 0 := by
  induction front with
  | nil => exact (Nat.zero_add _).symm
  | cons c front ih => rw [List.cons_append, List.foldr_cons, List.foldr_cons, ih, Nat.add_assoc]

theorem bytes_intercalate {parts : List (List Char)} (some : parts ≠ []) :
    ([','].intercalate parts).foldr (fun c length => c.utf8Size + length) 0 + 1 =
      (parts.map fun part => part.foldr (fun c length => c.utf8Size + length) 0 + 1).sum := by
  induction parts with
  | nil => exact absurd rfl some
  | cons part rest ih =>
    cases rest with
    | nil => simp
    | cons next rest =>
      have comma : [','].foldr (fun c length => c.utf8Size + length) 0 = 1 := by decide
      rw [List.intercalate_cons_cons, bytes_append, bytes_append, comma, List.map_cons,
        List.sum_cons, ← ih (List.cons_ne_nil _ _)]
      omega

theorem canonicalItems_eq (items : List Json) :
    canonicalItems items = items.map canonicalChars := by
  induction items with
  | nil => rfl
  | cons item rest ih => rw [canonicalItems, ih, List.map_cons]

theorem canonicalBytes_array {items : List Json} (some : items ≠ []) :
    canonicalBytes (.array items) = (items.map fun item => canonicalBytes item + 1).sum + 1 := by
  have inner := bytes_intercalate (mt List.map_eq_nil_iff.mp some : items.map canonicalChars ≠ [])
  have opening : '['.utf8Size = 1 := by decide
  have closing : [']'].foldr (fun c length => c.utf8Size + length) 0 = 1 := by decide
  rw [List.map_map] at inner
  rw [canonicalBytes, canonicalChars, canonicalItems_eq, List.cons_append, List.foldr_cons,
    bytes_append, opening, closing]
  have same : (items.map fun item => canonicalBytes item + 1) =
      items.map ((fun part => part.foldr (fun c length => c.utf8Size + length) 0 + 1) ∘
        canonicalChars) := rfl
  rw [same]
  omega

theorem canonicalMembers_eq (fields : List (String × Json)) :
    canonicalMembers fields =
      fields.map fun field => (field.1, quoted field.1 ++ ':' :: canonicalChars field.2) := by
  induction fields with
  | nil => rfl
  | cons field rest ih => rw [canonicalMembers, ih, List.map_cons]

def memberBytes (field : String × Json) : Nat :=
  canonicalBytes (.string field.1) + 1 + canonicalBytes field.2 + 1

theorem canonicalBytes_object {fields : List (String × Json)} (some : fields ≠ []) :
    canonicalBytes (.object fields) = (fields.map memberBytes).sum + 1 := by
  have sorted := (canonicalMembers fields).perm_insertionSort fun first second =>
    textLe first.1.toList second.1.toList = true
  have present : (sortedByKey (canonicalMembers fields)).map Prod.snd ≠ [] := by
    intro empty
    have none := (List.map_eq_nil_iff.mp empty ▸ sorted : [].Perm (canonicalMembers fields))
    rw [List.nil_perm, canonicalMembers_eq, List.map_eq_nil_iff] at none
    exact some none
  have inner := bytes_intercalate present
  have parts := (sorted.map Prod.snd).map
    fun part => part.foldr (fun c length => c.utf8Size + length) 0 + 1
  have members : (((canonicalMembers fields).map Prod.snd).map
      fun part => part.foldr (fun c length => c.utf8Size + length) 0 + 1) =
        fields.map memberBytes := by
    rw [canonicalMembers_eq, List.map_map, List.map_map]
    refine List.map_congr_left fun field _ => ?_
    have colon : ':'.utf8Size = 1 := by decide
    have whole : (quoted field.1 ++ ':' :: canonicalChars field.2).foldr
        (fun c length => c.utf8Size + length) 0 =
          canonicalBytes (.string field.1) + (1 + canonicalBytes field.2) := by
      rw [bytes_append, List.foldr_cons, colon]
      rfl
    show (quoted field.1 ++ ':' :: canonicalChars field.2).foldr
      (fun c length => c.utf8Size + length) 0 + 1 = memberBytes field
    rw [whole, memberBytes]
    omega
  have opening : (Char.ofNat 0x7b).utf8Size = 1 := by decide
  have closing : [Char.ofNat 0x7d].foldr (fun c length => c.utf8Size + length) 0 = 1 := by decide
  rw [canonicalBytes, canonicalChars, List.cons_append, List.foldr_cons, bytes_append, opening,
    closing]
  have total := parts.sum_eq
  rw [members] at total
  rw [sortedByKey] at inner ⊢
  omega

theorem canonicalBytes_plain {chars : List Char}
    (plain : ∀ c ∈ chars, escaped c = [c] ∧ c.utf8Size = 1) :
    canonicalBytes (.string (String.ofList chars)) = chars.length + 2 := by
  have written : ∀ chars : List Char, (∀ c ∈ chars, escaped c = [c] ∧ c.utf8Size = 1) →
      (chars.flatMap escaped).foldr (fun c length => c.utf8Size + length) 0 = chars.length := by
    intro chars
    induction chars with
    | nil => exact fun _ => rfl
    | cons c rest ih =>
      intro plain
      obtain ⟨same, one⟩ := plain c List.mem_cons_self
      rw [List.flatMap_cons, same, List.singleton_append, List.foldr_cons, one,
        ih fun d mem => plain d (List.mem_cons_of_mem _ mem), List.length_cons, Nat.add_comm]
  have mark : (Char.ofNat 0x22).utf8Size = 1 := by decide
  have closing : [Char.ofNat 0x22].foldr (fun c length => c.utf8Size + length) 0 = 1 := by decide
  rw [canonicalBytes, canonicalChars, quoted, String.toList_ofList, List.cons_append,
    List.foldr_cons, bytes_append, written chars plain, mark, closing]
  omega

theorem hexDigit_plain {c : Char} (digit : isHexDigit c = true) :
    escaped c = [c] ∧ c.utf8Size = 1 := by
  obtain ⟨value, rfl⟩ := hexDigit_cases digit
  decide +revert

theorem EvidenceRef.bytes (ref : EvidenceRef) : canonicalBytes (.string ref.text) = 37 := by
  rw [EvidenceRef.text, canonicalBytes_plain]
  · simp [ref.length_eq]
  · intro c mem
    simp only [List.mem_cons] at mem
    rcases mem with rfl | rfl | rfl | mem
    · decide
    · decide
    · decide
    · exact hexDigit_plain (List.all_eq_true.mp ref.hexadecimal c mem)

theorem EvidenceRef.reference (ref : EvidenceRef) : isReference ref.text.toList = true := by
  simp [EvidenceRef.text, isReference, ref.length_eq, ref.hexadecimal]

theorem referenceLabel_bytes (library : StandardLibrary) (reference : String) :
    canonicalBytes (.string (referenceLabel library reference)) = 15 := by
  rw [referenceLabel, canonicalBytes_plain]
  · simp [(library.sha256 reference).length_eq]
  · intro c mem
    rcases List.mem_cons.mp mem with rfl | mem
    · split_ifs <;> decide
    · exact hexDigit_plain (List.all_eq_true.mp (library.sha256 reference).hexadecimal c
        (List.mem_of_mem_take mem))

theorem gatewayResponse_bytes (ref : EvidenceRef) (answer : SequenceAnswer) :
    canonicalBytes (.object (gatewayResponse ref answer)) =
      aggregateBytes answer.steps +
        canonicalBytes (.array (answer.notRun.map fun n => .number (toString n))) +
        canonicalBytes (.string answer.outcome) + canonicalBytes (reasonJson answer.stopReason) +
        144 := by
  have reference : canonicalBytes (.array [.string ref.text]) = 39 := by
    rw [canonicalBytes_array (List.cons_ne_nil _ _), List.map_singleton, List.sum_singleton,
      ref.bytes]
  have keys : canonicalBytes (.string "status") = 8 ∧ canonicalBytes (.string "success") = 9 ∧
      canonicalBytes (.string "provider") = 10 ∧ canonicalBytes (.string "platform") = 10 ∧
      canonicalBytes (.string "outcome") = 9 ∧ canonicalBytes (.string "steps") = 7 ∧
      canonicalBytes (.string "not_run") = 9 ∧ canonicalBytes (.string "stop_reason") = 13 ∧
      canonicalBytes (.string "evidence_refs") = 15 := by decide
  obtain ⟨status, success, provider, platform, outcome, steps, notRun, reason, refs⟩ := keys
  rw [gatewayResponse, canonicalBytes_object (List.cons_ne_nil _ _)]
  simp only [List.map_cons, List.map_nil, List.sum_cons, List.sum_nil, memberBytes, reference,
    status, success, provider, platform, outcome, steps, notRun, reason, refs]
  rw [aggregateBytes, reasonJson]
  omega

theorem digits_bytes {n : Nat} (small : n < 10) : canonicalBytes (.number (toString n)) = 1 := by
  have each : ∀ digit : Fin 10, canonicalBytes (.number (toString digit.val)) = 1 := by
    decide
  exact each ⟨n, small⟩

theorem notRun_bytes {first left : Nat} (few : first + left ≤ 10) :
    canonicalBytes (.array ((List.range' first left).map fun n => .number (toString n))) =
      if left = 0 then 2 else 2 * left + 1 := by
  by_cases none : left = 0
  · rw [none, if_pos rfl]
    rfl
  · have some : ((List.range' first left).map fun n => Json.number (toString n)) ≠ [] := by
      rw [ne_eq, List.map_eq_nil_iff, List.range'_eq_nil_iff]
      exact none
    have each : ∀ n ∈ List.range' first left,
        canonicalBytes (.number (toString n)) + 1 = 2 := by
      intro n mem
      rw [List.mem_range'_1] at mem
      rw [digits_bytes (by omega)]
    rw [if_neg none, canonicalBytes_array some, List.map_map]
    have two : (List.range' first left).map
        ((fun item => canonicalBytes item + 1) ∘ fun n => Json.number (toString n)) =
          List.replicate left 2 := by
      rw [List.eq_replicate_iff]
      refine ⟨by rw [List.length_map, List.length_range'], fun size mem => ?_⟩
      obtain ⟨n, among, rfl⟩ := List.mem_map.mp mem
      exact each n among
    rw [two, List.sum_replicate_nat, Nat.mul_comm]

theorem answer_bytes (ref : EvidenceRef) {completed : List Json} {left : Nat}
    (reason : Option String) (few : completed.length + left ≤ 10) :
    canonicalBytes (.object (gatewayResponse ref (answerOf completed left reason))) =
      aggregateBytes completed + frameBytes reason left := by
  rw [gatewayResponse_bytes]
  simp only [answerOf, notRun_bytes few, frameBytes]
  omega

/-- The frame of an answer that was not stopped by its bytes is within the reserve. -/
theorem frame_reserved {left : Nat} {reason : Option String}
    (other : reason ∈ [none, some "tool_failed", some "condition_failed"]) (few : left ≤ 10) :
    frameBytes reason left ≤ aggregateReserve := by
  have texts : ∀ reason ∈ [none, some "tool_failed", some "condition_failed"],
      canonicalBytes (.string (if Option.isNone reason then "COMPLETED" else "STOPPED")) +
        canonicalBytes (reasonJson reason) ≤ 30 := by decide
  have text := texts reason other
  have numbers : (if left = 0 then 2 else 2 * left + 1) ≤ 21 := by
    split_ifs
    · decide
    · omega
  rw [frameBytes, aggregateReserve]
  omega

section Labels

variable {ε : Type} {library : StandardLibrary} {host : SequenceHost ε}

theorem itemReferences_numbers (path : List Char) (index : Nat) (numbers : List Nat) :
    itemReferences path index (numbers.map fun n => .number (toString n)) = [] := by
  induction numbers generalizing index with
  | nil => rfl
  | cons n rest ih => exact ih (index + 1)

theorem resultLabels_gatewayResponse (ref : EvidenceRef) (answer : SequenceAnswer) :
    resultLabels library (gatewayResponse ref answer) = answerLabels library ref answer.steps := by
  have own : foundItems "/evidence_refs".toList 0 [.string ref.text] =
      [(ref.text, "/evidence_refs/0".toList)] := by
    rw [foundItems, found, if_pos ref.reference]
    rfl
  have reason : references "/stop_reason".toList ((answer.stopReason.map Json.string).getD .null) =
      [] := by
    cases answer.stopReason <;> rfl
  have found : references [] (.object (gatewayResponse ref answer)) =
      itemReferences "/steps".toList 0 answer.steps ++
        [(ref.text, "/evidence_refs/0".toList)] := by
    have numbers := itemReferences_numbers "/not_run".toList 0 answer.notRun
    show itemReferences "/steps".toList 0 answer.steps ++
      (itemReferences "/not_run".toList 0 (answer.notRun.map fun n => .number (toString n)) ++
        (references "/stop_reason".toList ((answer.stopReason.map Json.string).getD .null) ++
          (foundItems "/evidence_refs".toList 0 [.string ref.text] ++ []))) = _
    rw [numbers, reason, own]
    rfl
  rw [resultLabels, found, answerLabels]

theorem labels_bytes (labels : List (String × String)) (some : labels ≠ [])
    (short : ∀ label ∈ labels, canonicalBytes (.string label.1) = 15) :
    canonicalBytes (labelsJson labels) =
      (labels.map fun label => canonicalBytes (.string label.2) + 17).sum + 1 := by
  rw [labelsJson, canonicalBytes_object (mt List.map_eq_nil_iff.mp some), List.map_map]
  congr 2
  refine List.map_congr_left fun label mem => ?_
  simp only [Function.comp_apply, memberBytes, short label mem]
  omega

theorem answerLabels_ne_nil (ref : EvidenceRef) (items : List Json) :
    answerLabels library ref items ≠ [] := by
  intro none
  have own := lookup_dictOf ((itemReferences "/steps".toList 0 items ++
    [(ref.text, "/evidence_refs/0".toList)]).map fun entry =>
      (referenceLabel library entry.1, String.ofList entry.2)) (referenceLabel library ref.text)
  rw [answerLabels] at none
  rw [none, List.map_append, List.reverse_append, List.map_singleton, List.reverse_singleton,
    List.singleton_append, List.lookup_cons_self] at own
  cases own

/-- The labels add their own bytes to those of the answer. -/
theorem delivered_bytes (ref : EvidenceRef) (answer : SequenceAnswer) :
    canonicalBytes (.object (deliveredResponse library host (gatewayResponse ref answer))) =
      canonicalBytes (.object (gatewayResponse ref answer)) +
        labelBytes library host ref answer.steps := by
  rw [deliveredResponse, labelBytes]
  split_ifs with labelled
  · have key : canonicalBytes (.string "result_references") = 19 := by decide
    have fresh : "result_references" ∉ (gatewayResponse ref answer).map Prod.fst := by
      simp [gatewayResponse]
    have short : ∀ label ∈ answerLabels library ref answer.steps,
        canonicalBytes (.string label.1) = 15 := by
      intro label mem
      obtain ⟨entry, -, rfl⟩ := List.mem_map.mp (mem_of_mem_dictOf mem)
      exact referenceLabel_bytes library entry.1
    rw [projectResultReferences, resultLabels_gatewayResponse,
      if_neg (answerLabels_ne_nil ref answer.steps), put_of_not_mem fresh,
      canonicalBytes_object (by simp), canonicalBytes_object (by simp [gatewayResponse]),
      List.map_append, List.sum_append, List.map_singleton, List.sum_singleton, memberBytes, key,
      labels_bytes _ (answerLabels_ne_nil ref answer.steps) short]
    omega
  · rw [Nat.add_zero]

end Labels

/-! ## Runs -/

section Runs

variable {ε : Type} {table : DecimalTable} {host : SequenceHost ε}

variable {position : Nat}

theorem Ran.split {completed items : List Json} {steps left : List SequenceStep}
    {reason : Option String} (ran : Ran table host completed position steps items left reason) :
    ∃ front, steps = front ++ left ∧ items.length = completed.length + front.length := by
  induction ran with
  | done => exact ⟨[], rfl, rfl⟩
  | @pass completed items position step rest left response reason called passes further ih =>
    obtain ⟨front, rfl, length⟩ := ih
    refine ⟨step :: front, rfl, ?_⟩
    rw [length, List.length_append, List.length_singleton, List.length_cons]
    omega
  | @large completed position step rest response called large =>
    exact ⟨[step], rfl, List.length_append⟩
  | @failed completed position step rest response called small failure =>
    exact ⟨[step], rfl, List.length_append⟩
  | @unmet completed position step rest response called small success unmet =>
    exact ⟨[step], rfl, List.length_append⟩

theorem Ran.runSteps {completed items : List Json} {position : Nat}
    {steps left : List SequenceStep} {reason : Option String}
    (ran : Ran table host completed position steps items left reason) :
    runSteps table host completed position steps =
      ⟨List.range' position (steps.length - left.length),
        .answered (answerOf items left.length reason)⟩ := by
  induction ran with
  | done => rfl
  | @pass completed items position step rest left response reason called passes further ih =>
    obtain ⟨front, split, -⟩ := further.split
    have length : (step :: rest).length - left.length = rest.length - left.length + 1 := by
      rw [split, List.length_cons, List.length_append]
      omega
    rw [Agent.runSteps, called]
    dsimp only
    rw [if_neg (Nat.not_lt.mpr passes.small), if_neg (by simp [passes.success]),
      if_neg (by simp [passes.checked]), ih, length, List.range'_succ]
  | @large completed position step rest response called large =>
    have length : (step :: rest).length - rest.length = 1 := by
      rw [List.length_cons]
      omega
    rw [Agent.runSteps, called, length]
    dsimp only
    rw [if_pos large]
    rfl
  | @failed completed position step rest response called small failure =>
    have length : (step :: rest).length - rest.length = 1 := by
      rw [List.length_cons]
      omega
    rw [Agent.runSteps, called, length]
    dsimp only
    rw [if_neg (Nat.not_lt.mpr small), if_pos failure]
    rfl
  | @unmet completed position step rest response called small success unmet =>
    have length : (step :: rest).length - rest.length = 1 := by
      rw [List.length_cons]
      omega
    rw [Agent.runSteps, called, length]
    dsimp only
    rw [if_neg (Nat.not_lt.mpr small), if_neg (by simp [success]), if_pos unmet]
    rfl

theorem ran_of_runSteps {completed : List Json} {steps : List SequenceStep}
    {answer : SequenceAnswer}
    (answered : (runSteps table host completed position steps).outcome = .answered answer) :
    ∃ items left reason, Ran table host completed position steps items left reason := by
  induction steps generalizing completed position with
  | nil => exact ⟨completed, [], none, .done⟩
  | cons step rest ih =>
    rw [runSteps] at answered
    cases called : host.invoke position step with
    | error fault =>
      rw [called] at answered
      cases answered
    | ok response =>
      rw [called] at answered
      dsimp only at answered
      by_cases large : aggregateLimit host <
          aggregateBytes (completed ++ [stepItem position step response])
      · exact ⟨_, _, _, .large called large⟩
      · have small := Nat.not_lt.mp large
        by_cases failure : isErrorResponse response = true
        · exact ⟨_, _, _, .failed called small failure⟩
        · have success := Bool.eq_false_of_not_eq_true failure
          by_cases unmet : matchesChecks table (.object response) step.checks = false
          · exact ⟨_, _, _, .unmet called small success unmet⟩
          · have checked := Bool.eq_true_of_not_eq_false unmet
            rw [if_neg large, if_neg failure, if_neg unmet] at answered
            obtain ⟨items, left, reason, further⟩ := ih answered
            exact ⟨items, left, reason, .pass called ⟨small, success, checked⟩ further⟩

/-- The calls of steps that pass up to one that raises are those up to it. -/
theorem Faults.runSteps {completed : List Json} {at' : Nat} {steps : List SequenceStep} {fault : ε}
    (faults : Faults table host completed position steps at' fault) :
    position ≤ at' ∧ runSteps table host completed position steps =
      ⟨List.range' position (at' + 1 - position), .raised fault⟩ := by
  induction faults with
  | @now completed position step rest fault called =>
    rw [Agent.runSteps, called, Nat.add_sub_cancel_left]
    exact ⟨le_refl _, rfl⟩
  | @later completed position at' step rest response fault called passes further ih =>
    obtain ⟨le, ran⟩ := ih
    have length : at' + 1 - position = at' + 1 - (position + 1) + 1 := by omega
    rw [Agent.runSteps, called]
    dsimp only
    rw [if_neg (Nat.not_lt.mpr passes.small), if_neg (by simp [passes.success]),
      if_neg (by simp [passes.checked]), ran, length, List.range'_succ]
    exact ⟨by omega, rfl⟩

theorem faults_of_runSteps {completed : List Json} {steps : List SequenceStep} {fault : ε}
    (raised : (runSteps table host completed position steps).outcome = .raised fault) :
    ∃ at', Faults table host completed position steps at' fault := by
  induction steps generalizing completed position with
  | nil => cases raised
  | cons step rest ih =>
    rw [runSteps] at raised
    cases called : host.invoke position step with
    | error fault' =>
      rw [called] at raised
      obtain rfl := SequenceOutcome.raised.inj raised
      exact ⟨position, .now called⟩
    | ok response =>
      rw [called] at raised
      dsimp only at raised
      split_ifs at raised with large failure unmet
      obtain ⟨at', further⟩ := ih raised
      refine ⟨at', .later called ⟨Nat.not_lt.mp large, Bool.eq_false_of_not_eq_true failure,
        Bool.eq_true_of_not_eq_false unmet⟩ further⟩

theorem Ran.length_lt {completed items : List Json}
    {steps left : List SequenceStep} {reason : Option String}
    (ran : Ran table host completed position steps items left reason) (some : steps ≠ []) :
    completed.length < items.length := by
  cases ran with
  | done => exact absurd rfl some
  | pass called passes further =>
    obtain ⟨front, -, length⟩ := further.split
    rw [length, List.length_append, List.length_singleton]
    omega
  | large called large =>
    rw [List.length_append, List.length_singleton]
    omega
  | failed called small failure =>
    rw [List.length_append, List.length_singleton]
    omega
  | unmet called small success unmet =>
    rw [List.length_append, List.length_singleton]
    omega

theorem Ran.cases {completed items : List Json} {steps left : List SequenceStep}
    {reason : Option String} (ran : Ran table host completed position steps items left reason) :
    reason = some "aggregate_byte_limit" ∨
      (reason ∈ [none, some "tool_failed", some "condition_failed"] ∧
        (steps = [] ∧ items = completed ∨ aggregateBytes items ≤ aggregateLimit host)) := by
  induction ran with
  | done => exact .inr ⟨List.mem_cons_self, .inl ⟨rfl, rfl⟩⟩
  | pass called passes _ ih =>
    rcases ih with stopped | ⟨other, within⟩
    · exact .inl stopped
    · refine .inr ⟨other, .inr ?_⟩
      rcases within with ⟨-, rfl⟩ | within
      · exact passes.small
      · exact within
  | large called large => exact .inl rfl
  | failed _ small _ => exact .inr ⟨by simp, .inr small⟩
  | unmet _ small _ _ => exact .inr ⟨by simp, .inr small⟩

variable {steps : List (Option SequenceStep)} {checked : List SequenceStep}

theorem validateSteps_eq_ok
    (valid : validateSteps host position steps = .ok checked) :
    steps = checked.map some ∧ ∀ step ∈ checked, host.validate step = none := by
  induction steps generalizing position checked with
  | nil =>
    obtain rfl := Except.ok.inj valid
    exact ⟨rfl, fun _ mem => nomatch mem⟩
  | cons step rest ih =>
    cases step with
    | none => cases valid
    | some step =>
      rw [validateSteps] at valid
      cases found : host.validate step with
      | some fault =>
        rw [found] at valid
        cases fault with
        | policy code message => cases valid
        | other => cases valid
      | none =>
        rw [found] at valid
        obtain ⟨later, read, rfl⟩ := map_eq_ok.mp valid
        obtain ⟨rfl, free⟩ := ih read
        exact ⟨rfl, List.forall_mem_cons.mpr ⟨found, free⟩⟩

def Starts (host : SequenceHost ε) (steps : List (Option SequenceStep))
    (checked : List SequenceStep) : Prop :=
  host.available = true ∧ 1 ≤ steps.length ∧ steps.length ≤ maxSequenceSteps ∧
    validateSteps host 0 steps = .ok checked

theorem Starts.nonempty
    (starts : Starts host steps checked) : checked ≠ [] := by
  rintro rfl
  have some := starts.2.1
  rw [(validateSteps_eq_ok starts.2.2.2).1] at some
  exact absurd some (by decide)

theorem executeSequence_of_starts
    (starts : Starts host steps checked) :
    executeSequence table host (some steps) = runSteps table host [] 0 checked := by
  obtain ⟨available, some, few, valid⟩ := starts
  rw [executeSequence, if_neg (by simp [available]), if_neg (by omega), valid]

theorem executeSequence_cases (steps : List (Option SequenceStep)) :
    (∃ checked, Starts host steps checked) ∨
      ∃ error, executeSequence table host (some steps) = ⟨[], .refused error⟩ := by
  by_cases available : host.available = false
  · exact .inr ⟨_, if_pos available⟩
  · by_cases size : steps.length < 1 ∨ maxSequenceSteps < steps.length
    · refine .inr ⟨invalidRequest "Invalid sequence size", ?_⟩
      rw [executeSequence, if_neg available]
      exact if_pos size
    · cases valid : validateSteps host 0 steps with
      | error error =>
        refine .inr ⟨error, ?_⟩
        rw [executeSequence, if_neg available, if_neg size, valid]
      | ok checked =>
        have available' := Bool.eq_true_of_not_eq_false available
        exact .inl ⟨checked, available', by omega, by omega, valid⟩

theorem executeSequence_of_invalid
    (invalid : ∃ step ∈ steps, ∀ checked, step = some checked → host.validate checked ≠ none) :
    (executeSequence table host (some steps)).calls = [] := by
  obtain ⟨step, mem, invalid⟩ := invalid
  rcases @executeSequence_cases ε table host steps with ⟨checked, starts⟩ | ⟨error, refused⟩
  · obtain ⟨rfl, free⟩ := validateSteps_eq_ok starts.2.2.2
    obtain ⟨step', among, rfl⟩ := List.mem_map.mp mem
    exact absurd (free step' among) (invalid step' rfl)
  · rw [refused]

theorem executeSequence_eq_answered {answer : SequenceAnswer}
    (answered : (executeSequence table host (some steps)).outcome = .answered answer) :
    ∃ front left items reason, Starts host steps (front ++ left) ∧
      Ran table host [] 0 (front ++ left) items left reason ∧ items.length = front.length ∧
      answer = answerOf items left.length reason := by
  rcases @executeSequence_cases ε table host steps with ⟨checked, starts⟩ | ⟨error, refused⟩
  · rw [executeSequence_of_starts starts] at answered
    obtain ⟨items, left, reason, ran⟩ := ran_of_runSteps answered
    rw [ran.runSteps] at answered
    obtain ⟨front, rfl, length⟩ := ran.split
    rw [List.length_nil, Nat.zero_add] at length
    exact ⟨front, left, items, reason, starts, ran, length,
      (SequenceOutcome.answered.inj answered).symm⟩
  · rw [refused] at answered
    cases answered

theorem executeSequence_eq_raised {fault : ε}
    (raised : (executeSequence table host (some steps)).outcome = .raised fault) :
    ∃ checked at', Starts host steps checked ∧ Faults table host [] 0 checked at' fault := by
  rcases @executeSequence_cases ε table host steps with ⟨checked, starts⟩ | ⟨error, refused⟩
  · rw [executeSequence_of_starts starts] at raised
    obtain ⟨at', faults⟩ := faults_of_runSteps raised
    exact ⟨checked, at', starts, faults⟩
  · rw [refused] at raised
    cases raised

theorem executeSequence_of_faults {at' : Nat} {fault : ε} (starts : Starts host steps checked)
    (faults : Faults table host [] 0 checked at' fault) :
    executeSequence table host (some steps) = ⟨List.range (at' + 1), .raised fault⟩ := by
  rw [executeSequence_of_starts starts, faults.runSteps.2, List.range_eq_range']
  rfl

theorem Starts.length_le
    (starts : Starts host steps checked) : checked.length ≤ maxSequenceSteps := by
  have few := starts.2.2.1
  rwa [(validateSteps_eq_ok starts.2.2.2).1, List.length_map] at few

variable {library : StandardLibrary}

/-- An answer is too large exactly when it is with its labels. -/
theorem isTooLarge_iff (ref : EvidenceRef) {items : List Json} {left : Nat}
    (reason : Option String) (few : items.length + left ≤ 10) :
    isTooLarge library host (gatewayResponse ref (answerOf items left reason)) ↔
      host.maxOutputBytes <
        aggregateBytes items + frameBytes reason left + labelBytes library host ref items := by
  rw [isTooLarge, delivered_bytes, answer_bytes ref reason few]
  constructor
  · rintro (large | large)
    · exact Nat.lt_add_right _ large
    · exact large
  · exact .inr

/-- **A sequence is sound exactly when its results leave room for the frame of the answer and the
labels, and no child call raises behind one that has returned.** -/
theorem sequenceSound_iff (library : StandardLibrary) (ref : EvidenceRef)
    (steps : List (Option SequenceStep)) :
    SequenceSound library table host ref steps ↔
      ∀ checked, Starts host steps checked → LeavesRoom library table host ref checked ∧
        ∀ position fault, Faults table host [] 0 checked position fault → position = 0 := by
  constructor
  · intro sound checked starts
    constructor
    · intro items left reason ran _
      have run := (executeSequence_of_starts starts).trans ran.runSteps
      obtain ⟨front, rfl, length⟩ := ran.split
      have few := starts.length_le
      rw [List.length_append, maxSequenceSteps] at few
      rw [List.length_nil, Nat.zero_add] at length
      have fits := sound.fits _ (congrArg SequenceExecution.outcome run)
      rw [isTooLarge_iff ref reason (by omega)] at fits
      exact Nat.not_lt.mp fits
    · intro position fault faults
      have run := executeSequence_of_faults starts faults
      have calls := sound.kept fault (congrArg SequenceExecution.outcome run)
      rw [run] at calls
      have one := congrArg List.length calls
      rw [List.length_range, List.length_singleton] at one
      omega
  · intro room
    refine ⟨executeSequence_of_invalid, fun answer answered => ?_, fun fault raised => ?_,
      fun answer answered => ?_, fun fault raised => ?_⟩
    · obtain ⟨front, left, items, reason, starts, ran, length, rfl⟩ :=
        executeSequence_eq_answered answered
      refine ⟨front, left, (validateSteps_eq_ok starts.2.2.2).1, ?_, ?_, ran, length, ?_, rfl⟩
      · exact length ▸ ran.length_lt starts.nonempty
      · rw [executeSequence_of_starts starts, ran.runSteps, List.range_eq_range',
          List.length_append, Nat.add_sub_cancel]
      · rw [← length]
        rfl
    · obtain ⟨checked, position, starts, faults⟩ := executeSequence_eq_raised raised
      refine ⟨checked, position, (validateSteps_eq_ok starts.2.2.2).1, faults, ?_⟩
      rw [executeSequence_of_faults starts faults]
    · obtain ⟨front, left, items, reason, starts, ran, length, rfl⟩ :=
        executeSequence_eq_answered answered
      have few := starts.length_le
      rw [List.length_append, maxSequenceSteps] at few
      rw [isTooLarge_iff ref reason (by omega), Nat.not_lt]
      by_cases asked : host.labelled = true ∨ reason = some "aggregate_byte_limit"
      · exact (room _ starts).1 items left reason ran asked
      · -- without labels the reserve holds the frame
        obtain ⟨unlabelled, other⟩ := not_or.mp asked
        obtain ⟨among, within⟩ := ran.cases.resolve_left other
        have nonempty := starts.nonempty
        have some : items ≠ [] := List.ne_nil_of_length_pos (ran.length_lt nonempty)
        have within' : aggregateBytes items ≤ aggregateLimit host :=
          within.resolve_left fun none => nonempty none.1
        have bound : frameBytes reason left.length ≤ aggregateReserve :=
          frame_reserved among (by omega)
        have positive : 0 < aggregateBytes items := by
          rw [aggregateBytes, canonicalBytes_array some]
          exact Nat.succ_pos _
        rw [aggregateLimit] at within'
        rw [aggregateReserve] at within' bound
        rw [labelBytes, if_neg unlabelled]
        omega
    · obtain ⟨checked, position, starts, faults⟩ := executeSequence_eq_raised raised
      rw [executeSequence_of_faults starts faults, (room _ starts).2 position fault faults]
      rfl

end Runs

def firstRef : EvidenceRef :=
  ⟨List.replicate 31 '0' ++ ['1'], by decide, by decide⟩

def readStep : SequenceStep := ⟨"workspace.read/v1", .object [], []⟩

def readResponse : ToolResponse := [("status", .string "success")]

/-- A Run whose responses may take 300 bytes, with tools that succeed in 20. -/
def smallHost : SequenceHost Unit where
  available := true
  validate _ := none
  invoke _ _ := .ok readResponse
  maxOutputBytes := 300
  labelled := true

/-- A step ran and the other did not, and the gateway refuses the answer that says so. -/
theorem sequence_answer_too_large :
    (∃ answer,
      (executeSequence arabicDigits smallHost (some [some readStep, some readStep])).outcome =
        .answered answer ∧
      isTooLarge digestOfThree smallHost (gatewayResponse firstRef answer)) ∧
    ¬ SequenceSound digestOfThree arabicDigits smallHost firstRef
      [some readStep, some readStep] := by
  have large : 0 < aggregateBytes ([] ++ [stepItem 0 readStep readResponse]) := by decide
  have ran : Ran arabicDigits smallHost [] 0 [readStep, readStep]
      [stepItem 0 readStep (storedResponse readResponse)] [readStep]
      (some "aggregate_byte_limit") := .large rfl large
  have starts : Starts smallHost [some readStep, some readStep] [readStep, readStep] :=
    ⟨rfl, by decide, by decide, rfl⟩
  have answered := congrArg SequenceExecution.outcome
    ((executeSequence_of_starts starts).trans ran.runSteps)
  have frame : 300 < aggregateBytes [stepItem 0 readStep (storedResponse readResponse)] +
      frameBytes (some "aggregate_byte_limit") 1 := by
    decide +kernel
  have refused : isTooLarge digestOfThree smallHost (gatewayResponse firstRef (answerOf
      [stepItem 0 readStep (storedResponse readResponse)] 1 (some "aggregate_byte_limit"))) := by
    rw [isTooLarge_iff firstRef _ (by decide)]
    exact Nat.lt_add_right _ frame
  exact ⟨⟨_, answered, refused⟩, fun sound => sound.fits _ answered refused⟩

end SkillMind.Agent
