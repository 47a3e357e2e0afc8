import SkillMind.Runs.LockedReads

/-!
# The continuations are moves

An execution that has its outcome lets the Run leave its wait through one of the endings, an
execution that may not start is closed, and the turn that waits for an inline effect is detached
from it.
-/

namespace SkillMind.Runs

open Library Effects

variable {allowed : Mark → Prop} {t t' : RunTables} {run : Run} {segment : RunSegment}

variable {now : Timestamp}

theorem stopRunForUnknownEffect_ending {effect : EffectExecution}
    (committed : stopRunForUnknownEffect t run segment effect (isCancellationRequested t) now =
      .ok t')
    (found : t.run = some run) (waiting : run.status = .waitingForApproval)
    (known : segment ∈ t.segments) :
    Ending t t' ∧ ∀ run' ∈ t'.run, run'.status ≠ .waitingForApproval := by
  obtain ⟨-, rfl⟩ := stop_eq_ok committed
  cases cancelled : isCancellationRequested t with
  | false =>
    refine ⟨.stopped found waiting known (by simp) (by simp [cancelled]), ?_⟩
    rintro _ ⟨⟩
    exact fun same => nomatch same
  | true =>
    refine ⟨.stopped found waiting known (by simp) (by simp), ?_⟩
    rintro _ ⟨⟩
    exact fun same => nomatch same

variable {proposal : ChangeProposal}

theorem finish_ending {effect : EffectExecution}
    {failure : Option EffectFailure} {segmentId : Uuid}
    (committed : finishEffectContinuation t run segment proposal effect failure segmentId now =
      .ok t')
    (found : t.run = some run) (waiting : run.status = .waitingForApproval)
    (known : segment ∈ t.segments) (member : effect ∈ t.effects)
    (proposed : proposal ∈ t.proposals)
    (failed : failure ≠ none → effect.status ∈ [.stale, .verificationFailed, .failed]) :
    Ending t t' ∧ ((∃ run' ∈ t'.run, run'.status = .waitingForApproval) →
      isCancellationRequested t = false ∧ ∃ reported ∈ failure, reported.retryable = true) := by
  simp only [finishEffectContinuation] at committed
  split at committed
  · obtain ⟨ending, left⟩ := stopRunForUnknownEffect_ending committed found waiting known
    exact ⟨ending, fun ⟨run', found', waits⟩ => absurd waits (left run' found')⟩
  · split at committed
    · obtain ⟨-, rfl⟩ := stop_eq_ok committed
      refine ⟨.stopped found waiting known (by simp) (by simp), ?_⟩
      rintro ⟨_, ⟨⟩, waits⟩
      cases waits
    · rename_i notCancelled
      have calm : isCancellationRequested t = false := by simpa using notCancelled
      split at committed
      · rename_i retried
        obtain rfl := Except.ok.inj committed
        obtain ⟨reported, isReported, retryable⟩ := retried
        refine ⟨.again found waiting calm member (failed (by rintro rfl; cases isReported))
          proposed [.effectFailed],
          fun _ => ⟨calm, reported, isReported, retryable⟩⟩
      · obtain ⟨follows, rfl⟩ := requeue_eq_ok committed known (by rfl) (by rfl)
        refine ⟨.continued found waiting calm follows rfl, ?_⟩
        rintro ⟨_, ⟨⟩, waits⟩
        cases waits

/-- No turn is going on. -/
def Turnless (t : RunTables) : Prop :=
  ∀ run ∈ t.run, run.status ∉ [.preparing, .running]

theorem Ending.turnless (ending : Ending t t') : Turnless t' := by
  cases ending with
  | @stopped _ _ target _ _ _ found waiting known stops =>
    rintro _ ⟨⟩
    show target ∉ _
    intro held
    cases target <;> simp_all
  | continued =>
    rintro _ ⟨⟩
    show RunStatus.queued ∉ _
    decide
  | again found waiting =>
    intro run' found'
    obtain rfl := Option.some.inj (found.symm.trans found')
    rw [waiting]
    decide

theorem written_moves (proposed : proposal ∈ t.proposals)
    (status : ChangeProposalStatus) (toolCalls : List ToolCall) :
    Moves allowed t
      { t with
        proposals := replaceRow ChangeProposal.id { proposal with status } t.proposals
        toolCalls } :=
  (Moves.one (.proposalMoved proposed status)).trans
    (Moves.one (.aside t.sessions toolCalls))

theorem closeEffectBeforeProvider_moves
    {effect : EffectExecution} {toolCallId : Option Uuid} {status : EffectExecutionStatus}
    {code : String} {segmentId : Uuid}
    (committed : closeEffectBeforeProvider t run segment proposal { effect with toolCallId }
      status code segmentId now = .ok t')
    (found : t.run = some run) (known : segment ∈ t.segments) (member : effect ∈ t.effects)
    (unfinished : effect.status.finished = false) (proposed : proposal ∈ t.proposals)
    (owner : proposal.id = effect.proposalId) (unreserved : code ≠ unknownEffectCode)
    (place : proposal.activeInline = false → run.status = .waitingForApproval) :
    Moves allowed t t' := by
  simp only [closeEffectBeforeProvider, bind_eq_ok, require_eq_ok, exists_unit] at committed
  obtain ⟨ends, committed⟩ := committed
  have ended : status ∈ [.stale, .verificationFailed, .failed] := by
    rcases ends with rfl | rfl <;> simp
  obtain ⟨toolCalls, failing⟩ := failToolCall_aside (t := t)
    { effect with
      toolCallId := toolCallId
      status := status
      error := some (effectFailureRecord proposal.capability effect.provider effect.attemptNo
        code false effect.error)
      workerId := none
      leaseTokenHash := none
      leaseExpiresAt := none }
  rw [failing _ (by rfl)] at committed
  generalize (if status = .stale then ChangeProposalStatus.stale else .failed) = closed
    at committed
  refine (written_moves proposed closed toolCalls).trans (Moves.one ?_)
  have written : { proposal with status := closed } ∈
      replaceRow ChangeProposal.id { proposal with status := closed } t.proposals :=
    mem_replaceRow_self proposed rfl
  have settlement : Settlement
      { t with
        proposals := replaceRow ChangeProposal.id { proposal with status := closed } t.proposals
        toolCalls }
      effect
      { effect with
        toolCallId
        status
        error := some (effectFailureRecord proposal.capability effect.provider effect.attemptNo
          code false effect.error)
        workerId := none
        leaseTokenHash := none
        leaseExpiresAt := none } :=
    .failed { proposal with status := closed } written owner ended unreserved
  split at committed
  · obtain rfl := Except.ok.inj committed
    exact .effectSettled member unfinished settlement
  · rename_i notInline
    have waiting := place (Bool.eq_false_of_not_eq_true notInline)
    refine .concluded found waiting member unfinished settlement ?_
    split at committed
    · exact (stopRunForUnknownEffect_ending committed found waiting known).1
    · split at committed
      · obtain ⟨-, rfl⟩ := stop_eq_ok committed
        exact .stopped found waiting known (by simp) (by simp)
      · rename_i notCancelled
        obtain ⟨follows, rfl⟩ := requeue_eq_ok committed known (by rfl) (by rfl)
        exact .continued found waiting (Bool.eq_false_of_not_eq_true notCancelled) follows rfl

/-- Once detached, the execution leaves the Run waiting: it is unfinished, or it failed and is
tried again. -/
def leavesWaiting (t : RunTables) (effect : EffectExecution) : Prop :=
  effect.status.finished = false ∨
    (effect.status ≠ .applied ∧ isCancellationRequested t = false ∧
      (effect.error.map EffectError.retryable).getD false = true)

theorem failed_of_finished {status : EffectExecutionStatus} (finished : status.finished = true)
    (unapplied : status ≠ .applied) : status ∈ [.stale, .verificationFailed, .failed] := by
  cases status <;> simp_all [EffectExecutionStatus.finished]

theorem detachInlineEffect_moves {attempt : RunAttempt}
    {evidence : Except Fault Unit} {segmentId : Uuid}
    (turn : Turn t run segment attempt) (proposed : proposal ∈ t.proposals)
    (heard : ∀ effect ∈ t.effects, effect.proposalId = proposal.id → leavesWaiting t effect →
      allowed .silentDetach)
    (committed : detachInlineEffect t run segment attempt proposal evidence segmentId now =
      .ok t') : Moves allowed t t' ∧ Turnless t' := by
  obtain ⟨sessions, idle⟩ := idleSession_aside (t := t) proposal.agentSessionId
  simp only [detachInlineEffect, bind_eq_ok, require_eq_ok, exists_unit, Run.transitTo_eq_ok,
    orFault_eq_ok] at committed
  obtain ⟨⟨-, -, owner, inline⟩, _, ⟨planned, rfl⟩, committed⟩ := committed
  rw [show (proposal.withPhase .detached).agentSessionId = proposal.agentSessionId from rfl,
    idle _ (by rfl)] at committed
  obtain ⟨effect, foundEffect, committed⟩ := committed
  obtain ⟨member, same⟩ := find_key foundEffect
  have running : run.status = .running := by
    cases status : run.status <;> simp [status, allowedRunTransitions] at planned
    rfl
  have leaves := heard effect member same
  suffices next : RunMove allowed { t with sessions := sessions } t' ∧ Turnless t' from
    ⟨Moves.step (.aside sessions t.toolCalls) (Moves.one next.1), next.2⟩
  -- the turn is detached at once; what follows depends on where the execution stands
  have detached := @RunMove.detached allowed { t with sessions := sessions } run segment attempt
    proposal effect now t' { turn with } running proposed inline owner member same
  split at committed
  · rename_i unfinished
    obtain rfl := Except.ok.inj committed
    refine ⟨detached (Or.inl ⟨unfinished, rfl⟩) fun _ => leaves (Or.inl unfinished), ?_⟩
    rintro _ ⟨⟩
    show RunStatus.waitingForApproval ∉ _
    decide
  · rename_i settled
    have finished : effect.status.finished = true := Bool.eq_true_of_not_eq_false settled
    have closed : proposal.withPhase .detached ∈
        replaceRow ChangeProposal.id (proposal.withPhase .detached) t.proposals :=
      mem_replaceRow_self proposed rfl
    have known : { segment with status := .waiting } ∈
        replaceRow RunSegment.id { segment with status := .waiting } t.segments :=
      mem_replaceRow_self turn.known rfl
    split at committed
    · simp only [bind_eq_ok, exists_unit] at committed
      obtain ⟨ending, waits⟩ := finish_ending committed.2 (by rfl) rfl known member closed
        (by simp)
      refine ⟨detached (Or.inr ⟨finished, ending⟩) fun still => ?_, ending.turnless⟩
      obtain ⟨-, _, reported, -⟩ := waits still
      cases reported
    · rename_i unapplied
      obtain ⟨ending, waits⟩ := finish_ending committed (by rfl) rfl known member closed
        (fun _ => failed_of_finished finished unapplied)
      refine ⟨detached (Or.inr ⟨finished, ending⟩) fun still => leaves (Or.inr ?_),
        ending.turnless⟩
      obtain ⟨calm, _, ⟨⟩, retryable⟩ := waits still
      exact ⟨unapplied, calm, retryable⟩

theorem pendingInlineProposal_eq_some {runId : Uuid} {attempt : RunAttempt}
    (pending : pendingInlineProposal t runId attempt = .ok (some proposal)) :
    proposal ∈ t.proposals ∧ attempt.inlineProposalId = some proposal.id := by
  unfold pendingInlineProposal at pending
  split at pending
  · cases pending
  · rename_i identity waits
    simp only [bind_eq_ok, orFault_eq_ok, require_eq_ok, exists_unit, pure_eq_ok,
      Option.some.injEq] at pending
    obtain ⟨_, foundProposal, -, rfl⟩ := pending
    obtain ⟨known, same⟩ := find_key foundProposal
    exact ⟨known, same ▸ waits⟩

theorem pendingInlineProposal_eq_none {runId : Uuid} {attempt : RunAttempt}
    (pending : pendingInlineProposal t runId attempt = .ok none) :
    attempt.inlineProposalId = none := by
  unfold pendingInlineProposal at pending
  split at pending
  · assumption
  · simp only [bind_eq_ok, orFault_eq_ok, require_eq_ok, pure_eq_ok, reduceCtorEq, and_false,
      exists_false] at pending

theorem inlineParentActive_eq_ok
    (parent : inlineParentActive t run segment proposal now = .ok true) :
    run.status = .running ∧ ∃ attempt ∈ t.attempts, attempt.id = proposal.runAttemptId ∧
      (attempt.inlineProposalId = none ∨ attempt.inlineProposalId = some proposal.id) := by
  unfold inlineParentActive at parent
  split at parent
  · cases parent
  · rename_i owner isOwner
    split at parent
    · cases parent
    · rename_i attached
      simp only [bind_eq_ok, orFault_eq_ok, require_eq_ok, exists_unit, pure_eq_ok,
        and_true] at parent
      obtain ⟨attempt, foundAttempt, -, -, running, -, -, active, delivered, -⟩ := parent
      obtain ⟨member, same⟩ := find_key foundAttempt
      refine ⟨running, attempt, member, same, ?_⟩
      cases phase : owner.phase with
      | active => exact Or.inr (active phase)
      | delivered => exact delivered phase
      | detached => exact absurd phase attached

section Store

variable {hash : String → String}

theorem inlineReceipt_moves {claim : IssuedClaim} {proposalId : Uuid}
    {evidence : Except Fault Unit} {now : Timestamp} {receipt : Option EffectExecution}
    (kept : WellKept t)
    (committed : inlineReceipt hash t claim.claimed proposalId evidence now = .ok (receipt, t')) :
    Moves allowed t t' := by
  simp only [inlineReceipt, bind_eq_ok, Prod.exists, exists_unit, orFault_eq_ok,
    require_eq_ok] at committed
  obtain ⟨run, owned, attempt, locked, valid, -, proposal, foundProposal, segment, rfl,
    ⟨-, owner⟩, _, parent, rfl, committed⟩ := committed
  obtain ⟨_, -, turn, -⟩ := turn_of_claim claim.named locked valid
  obtain ⟨proposed, -⟩ := find_key foundProposal
  obtain ⟨-, holder, holderMember, holderId, waited⟩ := inlineParentActive_eq_ok parent
  rw [kept.attempts.eq_of_key holderMember turn.member (holderId.trans owner)] at waited
  split at committed
  · obtain ⟨-, rfl⟩ := Prod.mk.inj (Except.ok.inj committed)
    exact Moves.refl t
  · rename_i effect foundEffect
    obtain ⟨member, same⟩ := find_key foundEffect
    split at committed
    · obtain ⟨-, rfl⟩ := Prod.mk.inj (Except.ok.inj committed)
      exact Moves.refl t
    · rename_i applied
      simp only [bind_eq_ok, exists_unit, pure_eq_ok, Prod.mk.injEq] at committed
      obtain ⟨-, -, rfl⟩ := committed
      exact Moves.one (.delivered turn.member proposed owner waited member same
        (not_not.mp applied))

theorem suspendInlineEffect_moves {claim : IssuedClaim} {event : AgentEvent} {proposalId id : Uuid}
    {original evidence : Except Fault Unit} {segmentId : Uuid} {now : Timestamp}
    (heard : ∀ effect ∈ t.effects, effect.proposalId = proposalId → leavesWaiting t effect →
      allowed .silentDetach)
    (committed : suspendInlineEffect hash t claim.claimed event proposalId original evidence
      segmentId now = .ok (id, t')) : Moves allowed t t' := by
  simp only [suspendInlineEffect, bind_eq_ok, Prod.exists, exists_unit, orFault_eq_ok,
    require_eq_ok, pure_eq_ok, Prod.mk.injEq] at committed
  obtain ⟨run, owned, attempt, locked, valid, -, proposal, foundProposal, segment, rfl, _, -, -,
    -, _, detached, -, rfl⟩ := committed
  obtain ⟨_, isOwned, turn, -⟩ := turn_of_claim claim.named locked valid
  obtain rfl := Option.some.inj isOwned
  obtain ⟨proposed, same⟩ := find_key foundProposal
  refine (detachInlineEffect_moves turn proposed (fun effect member ofProposal => ?_) detached).1
  exact heard effect member (ofProposal.trans same)

end Store

end SkillMind.Runs
