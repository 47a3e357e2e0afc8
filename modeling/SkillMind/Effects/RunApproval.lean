import SkillMind.Effects.Outcomes

/-!
# The consent given when a Run was started

A Run may carry the consent of the user who started it to apply later proposals without
asking again.  The consent is read from the frozen creation request and only counts for the
capabilities it named; it never speaks for another starter.
-/

namespace SkillMind.Effects

open SkillMind.Library SkillMind.Runs

/-- `run_auto_approval_actor`: the actor whose consent covers the capability. -/
def runAutoApprovalActor (run : Run) (capability : EffectCapability)
    (provider : EffectProvider) : Except Fault (Option Uuid) :=
  if (resolveEffectCapability capability).supportsRunApproval provider = false then .ok none
  else
    match run.creationIntent with
    | none => .ok none
    | some intent =>
      if intent.autoApprove = false then .ok none
      else do
        require (intent.intact = true)
          ⟨.effectLeaseValidationError, "Run start approval integrity could not be verified"⟩
        return if capability = .repositoryWrite ∧ intent.autoApproveGit = false then none
          else if capability = .mcpCall ∧ intent.autoApproveMcp = false then none
          else some intent.actorId

/-- `has_actor_approval`: a user decided, or the consent of the Run covers the capability. -/
def hasActorApproval (run : Run) (approval : ChangeApproval) (capability : EffectCapability)
    (provider : EffectProvider) : Except Fault Bool :=
  match approval.source with
  | .user => .ok approval.actorId.isSome
  | .preauthorization => .ok false
  | .runStart =>
    if approval.actorId = none ∨ approval.preauthorizationId ≠ none then .ok false
    else do
      let actor ← runAutoApprovalActor run capability provider
      return approval.actorId = actor

end SkillMind.Effects
