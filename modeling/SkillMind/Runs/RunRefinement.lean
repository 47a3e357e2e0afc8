import SkillMind.Runs.RunFrame

/-!
# The transactions refine the moves

Every transaction of the store that commits is a path of moves. Which marks the path bears can be
read off the call and the rows before it.
-/

namespace SkillMind.Runs

open Library Effects

/-- The claimed attempt waits for an inline effect that is unfinished. -/
def holdsInline (t : RunTables) (claim : IssuedClaim) : Prop :=
  ∃ attempt ∈ t.attempts, attempt.id = claim.claimed.runAttemptId ∧
    ∃ effect ∈ t.effects, effect.status.finished = false ∧
      attempt.inlineProposalId = some effect.proposalId

def detachesWaiting (t : RunTables) (attempt : RunAttempt) : Prop :=
  ∃ effect ∈ t.effects, attempt.inlineProposalId = some effect.proposalId ∧
    leavesWaiting t effect

def RunAction.bears (t : RunTables) : RunAction → Mark → Prop
  | .transition .., .transition => True
  | .transition _ target .., .requeue => target.queues
  | .suspendForInteraction claim .., .inlineSuspension => holdsInline t claim
  | .suspendForProposal claim (.deferred ..) .., .inlineSuspension => holdsInline t claim
  | .finalizeExecution claim .., .silentDetach =>
    ∃ attempt ∈ t.attempts, attempt.id = claim.claimed.runAttemptId ∧ detachesWaiting t attempt
  | .suspendInlineEffect _ _ proposalId .., .silentDetach =>
    ∃ effect ∈ t.effects, effect.proposalId = proposalId ∧ leavesWaiting t effect
  | .recoverExpiredAttempts limit drawn now, .silentDetach =>
    ∃ recovery ∈ attemptRecoveries t limit drawn now, detachesWaiting t recovery.candidate
  | .requestCancellation runId _, .forgetting => forgets t runId
  | .claimEffectExecution .., .effectClaim => True
  | _, _ => False

section Store

variable {settings : RunSettings} {allowed : Mark → Prop} {t t' : RunTables}

theorem silently_eq_ok {outcome : Except Fault RunTables} {u : Unit} :
    silently outcome = .ok (u, t') ↔ outcome = .ok t' := by
  simp only [silently, bind_eq_ok, pure_eq_ok, Prod.mk.injEq, true_and, exists_eq_right]

theorem execRun_moves {action : RunAction} {answer : RunAnswer} (kept : WellKept t)
    (marked : ∀ mark, action.bears t mark → allowed mark)
    (committed : execRun settings action t = .ok (answer, t')) : Moves allowed t t' := by
  cases action <;> simp only [execRun, answering_eq_ok, silently_eq_ok] at committed <;>
    obtain ⟨result, committed, -⟩ := committed
  case createIdempotent => exact createIdempotent_moves committed
  case transition => exact transition_moves (marked .transition trivial) (marked .requeue) committed
  case requestCancellation =>
      exact requestCancellation_moves kept (marked .forgetting) committed
  case claimForExecution => exact claimForExecution_moves committed
  case prepareExecution => exact prepareExecution_moves committed
  case appendAgentEvent => exact appendAgentEvent_moves committed
  case heartbeatAttempt => exact heartbeatAttempt_moves committed
  case finalizeExecution =>
      refine finalizeExecution_moves (fun attempt member same effect known waits leaves => ?_)
        committed
      exact marked .silentDetach ⟨attempt, member, same, effect, known, waits, leaves⟩
  case recoverExpiredAttempts =>
      refine recoverExpiredAttempts_moves kept (fun recovery due effect known waits leaves => ?_)
        committed
      exact marked .silentDetach ⟨recovery, due, effect, known, waits, leaves⟩
  case suspendForInteraction =>
      exact suspendForInteraction_moves committed fun attempt member same unfinished =>
        marked .inlineSuspension ⟨attempt, member, same, unfinished⟩
  case respondToInteraction => exact respondToInteraction_moves committed
  case recoverExpiredInteractions => exact recoverExpiredInteractions_moves kept committed
  case suspendForProposal =>
      refine suspendForProposal_moves committed ?_
      rintro event session rfl attempt member same unfinished
      exact marked .inlineSuspension ⟨attempt, member, same, unfinished⟩
  case suspendInlineEffect =>
      exact suspendInlineEffect_moves
        (fun effect known same leaves => marked .silentDetach ⟨effect, known, same, leaves⟩)
        committed
  case inlineReceipt => exact inlineReceipt_moves kept committed
  case decideChangeProposal => exact decideChangeProposal_moves committed
  case recoverExpiredProposals => exact recoverExpiredProposals_moves kept committed
  case claimEffectExecution =>
      rcases claimEffectExecution_moves committed with ⟨-, moves⟩ | ⟨claimed, effect, -, handed⟩
      · exact moves
      · exact handed.path (marked .effectClaim trivial)
  case heartbeatEffectExecution => exact heartbeatEffectExecution_moves committed
  case finalizeEffectExecution => exact finalizeEffectExecution_moves committed
  case recoverExpiredEffects => exact recoverExpiredEffects_moves kept committed

theorem wellKept_invariant : (runStore settings).Invariant WellKept := by
  intro t action answer t' kept committed
  have moves : Moves (fun _ => True) t t' := execRun_moves kept (fun _ _ => trivial) committed
  exact moves.wellKept kept

end Store

end SkillMind.Runs
