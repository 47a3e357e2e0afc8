import SkillMind.Runs.Tables

/-!
# What a failed execution leaves on record

A supervised write that was claimed may have happened, whatever made it stop.  Its record is
then the code `unknownEffectCode`, which asks for a reconciliation with the original system,
unless the provider proved that nothing was done.

**Unknown stays unknown.**  Once the record of a supervised and claimed execution asks for a
reconciliation, every record that replaces it does; and
only such an execution gets a record that asks for one, unless the code it was given already
is the reserved one.
-/

namespace SkillMind.Effects

open SkillMind.Runs

def unknownEffectCode : String := "effect_result_unknown"

def effectRequiresReconciliation (error : Option EffectError) : Prop :=
  error.map EffectError.code = some unknownEffectCode

instance (error : Option EffectError) : Decidable (effectRequiresReconciliation error) :=
  inferInstanceAs (Decidable (_ = _))

/-- The keys of `SQL_FAILURE_MESSAGES`: the request was not sent or was rolled back. -/
def sqlFailureCodes : List String :=
  ["sql_request_not_sent", "sql_undefined_column", "sql_undefined_table",
    "sql_permission_denied", "sql_invalid_parameter", "sql_constraint_violation",
    "sql_syntax_error", "sql_transaction_rolled_back"]

/-- A cause that may be stored: ASCII letters, digits and underscores, not underscores alone. -/
def storableCause (cause : String) : Bool :=
  cause.toList.all (fun c => c.isAlphanum || c = '_') && cause.toList.any Char.isAlphanum

/-- The original cause, kept across replacements of the record. -/
def causeOf (code : String) : Option EffectError → String
  | none => code
  | some previous =>
    if effectRequiresReconciliation (some previous) then previous.causeCode.getD code
    else previous.code

def effectFailureRecord (capability : EffectCapability) (provider : EffectProvider)
    (attemptNo : Nat) (code : String) (retryable : Bool) (previous : Option EffectError)
    (diagnostic : Option McpDiagnostic := none) : EffectError :=
  if (resolveEffectCapability capability).supportsSupervision provider = false ∨ attemptNo = 0 then
    { code, retryable }
  -- the response of the original request arrived, although it was not a success
  else if capability = .httpWrite ∧ provider = .http ∧ attemptNo = 1 ∧ previous = none ∧
      code = "http_response_error" then
    { code, retryable := false }
  -- the statement was not sent, or its rollback is confirmed
  else if capability = .sqlWrite ∧ provider = .postgres ∧ attemptNo = 1 ∧ previous = none ∧
      code ∈ sqlFailureCodes then
    { code, retryable := false }
  -- the desktop tool was never called
  else if capability = .mcpCall ∧ attemptNo = 1 ∧ code = "mcp_request_not_sent" ∧
      ¬ effectRequiresReconciliation previous ∧
      ∃ safe ∈ diagnostic, safe.actionAttempted = false ∧ safe.callResponseReceived = false ∧
        safe.stage ∈ ["preflight", "acquire"] then
    { code, retryable := false, diagnostic }
  else
    let cause := causeOf code previous
    let stored := if storableCause cause then cause else "effect_provider_failed"
    { code := unknownEffectCode
      retryable
      causeCode := some (String.ofList (stored.toList.take 80))
      reasonCode := some code
      diagnostic :=
        if capability = .mcpCall then diagnostic <|> previous.bind EffectError.diagnostic
        else none }

theorem effectFailureRecord_keeps_unknown {capability : EffectCapability}
    {provider : EffectProvider} {attemptNo : Nat} {code : String} {retryable : Bool}
    {previous : Option EffectError} {diagnostic : Option McpDiagnostic}
    (supervised : (resolveEffectCapability capability).supportsSupervision provider = true)
    (claimed : attemptNo ≠ 0) (unknown : effectRequiresReconciliation previous) :
    effectRequiresReconciliation
      (some (effectFailureRecord capability provider attemptNo code retryable previous
        diagnostic)) := by
  have recorded : previous ≠ none := by
    rintro rfl
    cases unknown
  have plain : ¬ ((resolveEffectCapability capability).supportsSupervision provider = false ∨
      attemptNo = 0) := by
    simp [supervised, claimed]
  rw [effectFailureRecord, if_neg plain, if_neg (fun first => recorded first.2.2.2.1),
    if_neg (fun first => recorded first.2.2.2.1), if_neg (fun unsent => unsent.2.2.2.1 unknown)]
  rfl

theorem effectFailureRecord_unknown {capability : EffectCapability} {provider : EffectProvider}
    {attemptNo : Nat} {code : String} {retryable : Bool} {previous : Option EffectError}
    {diagnostic : Option McpDiagnostic} (unreserved : code ≠ unknownEffectCode)
    (unknown : effectRequiresReconciliation
      (some (effectFailureRecord capability provider attemptNo code retryable previous
        diagnostic))) :
    (resolveEffectCapability capability).supportsSupervision provider = true ∧
      attemptNo ≠ 0 := by
  by_contra unclaimed
  have plain : (resolveEffectCapability capability).supportsSupervision provider = false ∨
      attemptNo = 0 := by
    rw [not_and_or, Bool.not_eq_true, not_not] at unclaimed
    exact unclaimed
  rw [effectFailureRecord, if_pos plain] at unknown
  exact unreserved (Option.some.inj unknown)

end SkillMind.Effects
