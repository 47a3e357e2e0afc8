import SkillMind.Runs.EffectMoves

/-!
# The life of a Run is moves

A Run is created, claimed, prepared and finalized by one move each, a question suspends it, and
its answer or expiry lets it go on. A recovery goes through many attempts, but only one of them
can hold the Run: the others are merely closed.
-/

namespace SkillMind.Runs

open Library Effects

variable {allowed : Mark → Prop} {t t' : RunTables} {run : Run} {segment : RunSegment}

theorem createIdempotent_moves {command : CreateRunCommand} {runId segmentId id : Uuid}
    (committed : createIdempotent t command runId segmentId = .ok (id, t')) :
    Moves allowed t t' := by
  simp only [createIdempotent, bind_eq_ok, require_eq_ok, exists_unit, RunTables.addSegment,
    insertRow_eq_ok, pure_eq_ok, Prod.mk.injEq] at committed
  obtain ⟨absent, _, ⟨_, ⟨-, rfl⟩, rfl⟩, -, rfl⟩ := committed
  exact Moves.one (.created absent rfl rfl rfl rfl rfl)

theorem transition_moves {runId : Uuid} {target : RunStatus} {version : Nat}
    {error : Option ErrorRecord} {attemptId : Option Uuid} {now : Timestamp}
    (marked : allowed .transition) (requeued : target.queues → allowed .requeue)
    (committed : transition t runId target version error attemptId now = .ok t') :
    Moves allowed t t' := by
  simp only [transition, bind_eq_ok, orFault_eq_ok, require_eq_ok, exists_unit,
    Run.transitTo_eq_ok, pure_eq_ok] at committed
  obtain ⟨run, locked, -, _, ⟨planned, rfl⟩, rfl⟩ := committed
  exact Moves.one (.transitioned (lockRunRow_eq_some locked).1 planned marked requeued)

/-! ## Cancellation -/

theorem activeEffect_ne_none {effect : Option EffectExecution}
    (active : activeEffect t run = effect) (some : effect ≠ none) :
    run.status = .waitingForApproval ∧
      ∃ effect ∈ t.effects, effect.status ∈ [.leased, .applying] := by
  unfold activeEffect at active
  split at active
  · rename_i waiting
    obtain ⟨effect, rfl⟩ := Option.ne_none_iff_exists'.mp some
    refine ⟨waiting, effect, ?_, of_decide_eq_true (List.find?_some active :)⟩
    exact List.mem_reverse.mp (List.mem_of_find?_eq_some active)
  · exact absurd active.symm some

theorem activeEffect_eq_none (idle : activeEffect t run = none)
    (waiting : run.status = .waitingForApproval) :
    ∀ effect ∈ t.effects, effect.status ∉ [.leased, .applying] := by
  intro effect member live
  rw [activeEffect, if_pos waiting] at idle
  exact List.find?_eq_none.mp idle effect (List.mem_reverse.mpr member) (decide_eq_true live)

theorem recordCancellation_moves {effect : Option EffectExecution}
    (found : t.run = some run)
    (held : run.status ∈ [.preparing, .running] ∨
      (run.status = .waitingForApproval ∧
        ∃ effect ∈ t.effects, effect.status ∈ [.leased, .applying])) :
    Moves allowed t (recordCancellation t run effect) := by
  unfold recordCancellation
  split
  · exact Moves.refl t
  · rename_i notRequested
    exact Moves.one (.cancellationRecorded found (Bool.eq_false_of_not_eq_true notRequested) held)

theorem WellKept.latest (kept : WellKept t) (found : t.run = some run) :
    ∃ segment, latestSegment t = some segment := by
  cases latest : latestSegment t with
  | none => exact absurd (List.argmax_eq_none.mp latest) (kept.born run found)
  | some segment => exact ⟨segment, rfl⟩

/-- A cancellation would close a requested execution whose outcome is unknown. -/
def forgets (t : RunTables) (runId : Uuid) : Prop :=
  ∃ run ∈ t.run, run.id = runId ∧ run.status.waits = true ∧ activeEffect t run = none ∧
    ∃ effect ∈ t.effects, effect.status = .requested ∧ effectRequiresReconciliation effect.error

theorem requestCancellation_moves {runId : Uuid} {now : Timestamp}
    {answer : RunCancellationState} (kept : WellKept t)
    (remembered : forgets t runId → allowed .forgetting)
    (committed : requestCancellation t runId now = .ok (answer, t')) : Moves allowed t t' := by
  simp only [requestCancellation, bind_eq_ok, orFault_eq_ok] at committed
  obtain ⟨run, locked, committed⟩ := committed
  obtain ⟨found, same⟩ := lockRunRow_eq_some locked
  split at committed
  · obtain ⟨-, rfl⟩ := Prod.mk.inj (Except.ok.inj committed)
    exact Moves.refl t
  · simp only [bind_eq_ok, require_eq_ok, exists_unit] at committed
    obtain ⟨-, committed⟩ := committed
    split at committed
    · rename_i held
      obtain ⟨-, rfl⟩ := Prod.mk.inj (Except.ok.inj committed)
      refine recordCancellation_moves found (held.imp id fun active => ?_)
      exact activeEffect_ne_none rfl active
    · rename_i unheld
      obtain ⟨notHeld, idle⟩ := not_or.mp unheld
      obtain ⟨segment, latest⟩ := kept.latest found
      simp only [bind_eq_ok, Run.transitTo_eq_ok, pure_eq_ok, Prod.mk.injEq, latest] at committed
      obtain ⟨_, ⟨planned, rfl⟩, -, rfl⟩ := committed
      by_cases waits : run.status ∈ [.waitingPermission, .waitingForInput, .waitingForApproval]
      · rw [if_pos waits]
        exact Moves.one (.cancelled found (decide_eq_true waits) latest
          (activeEffect_eq_none (not_not.mp idle)) fun unknown =>
            remembered ⟨run, found, same, decide_eq_true waits, not_not.mp idle, unknown⟩)
      · rw [if_neg waits]
        refine Moves.one (.withdrawn found ?_ latest)
        cases status : run.status <;> simp_all [allowedRunTransitions]

section Store

variable {hash : String → String}

variable {now : Timestamp}

theorem leaseRun_moves {attemptNo : Nat} {request : ClaimRequest} {retryAt : Option Timestamp}
    {brief : Except Fault Unit} {attemptId : Uuid} {claimed : ClaimedRun}
    (committed : leaseRun hash t run segment attemptNo request retryAt brief attemptId now =
      .ok (claimed, t'))
    (found : t.run = some run) (due : run.status ∈ [.queued, .retryPending])
    (latest : latestSegment t = some segment) : Moves allowed t t' := by
  simp only [leaseRun, bind_eq_ok, Run.transitTo_eq_ok, RunTables.addAttempt, insertRow_eq_ok,
    exists_unit, orFault_eq_ok, pure_eq_ok, Prod.mk.injEq] at committed
  obtain ⟨_, ⟨-, rfl⟩, _, ⟨_, ⟨fresh, rfl⟩, rfl⟩, _, -, -, _, -, -, rfl⟩ := committed
  have started : (if segment.status = .created then [RunEventBody.agent .segmentStarted]
      else []) =
      (if segment.status = .created then [AgentEventType.segmentStarted] else []).map .agent := by
    split <;> rfl
  rw [started]
  exact Moves.one (.claimed found due latest rfl rfl rfl fresh)

theorem claimForExecution_moves {request : ClaimRequest} {brief : Except Fault Unit}
    {attemptId : Uuid} {answer : Option ClaimedRun}
    (committed : claimForExecution hash t request brief attemptId now = .ok (answer, t')) :
    Moves allowed t t' := by
  have unchanged {t' : RunTables} {answer : Option ClaimedRun}
      (same : (pure (none, t) : Except Fault _) = .ok (answer, t')) : Moves allowed t t' := by
    obtain ⟨-, rfl⟩ := Prod.mk.inj (Except.ok.inj same)
    exact Moves.refl t
  simp only [claimForExecution, bind_eq_ok, orFault_eq_ok] at committed
  obtain ⟨run, locked, committed⟩ := committed
  obtain ⟨found, -⟩ := lockRunRow_eq_some locked
  split at committed
  · exact unchanged committed
  · rename_i due
    simp only [bind_eq_ok] at committed
    obtain ⟨retryAt, -, committed⟩ := committed
    split at committed
    · exact unchanged committed
    · simp only [bind_eq_ok, orFault_eq_ok] at committed
      obtain ⟨segment, latest, committed⟩ := committed
      split at committed
      · exact unchanged committed
      · split at committed
        · exact unchanged committed
        · split at committed
          · exact unchanged committed
          · split at committed
            · simp only [bind_eq_ok, pure_eq_ok, Prod.mk.injEq] at committed
              obtain ⟨_, exhausted, -, rfl⟩ := committed
              obtain ⟨-, rfl⟩ := stop_eq_ok exhausted
              exact Moves.one (.exhausted found (not_not.mp due) (WellKept.latest_known latest))
            · simp only [bind_eq_ok, Prod.exists, pure_eq_ok, Prod.mk.injEq] at committed
              obtain ⟨_, _, leased, -, rfl⟩ := committed
              exact leaseRun_moves leased found (not_not.mp due) latest

theorem prepareExecution_moves {claim : IssuedClaim}
    {prepared : PreparedExecution}
    (committed : prepareExecution hash t claim.claimed now = .ok (prepared, t')) :
    Moves allowed t t' := by
  simp only [prepareExecution, bind_eq_ok, Prod.exists, exists_unit, require_eq_ok,
    Run.transitTo_eq_ok, pure_eq_ok, Prod.mk.injEq] at committed
  obtain ⟨run, owned, attempt, locked, valid, preparing, -, _, ⟨-, rfl⟩, -, rfl⟩ := committed
  obtain ⟨segment, rfl, turn, -⟩ := turn_of_claim claim.named locked valid
  exact Moves.one (.prepared turn preparing)

theorem appendAgentEvent_moves {claim : IssuedClaim} {event : AgentEvent}
    {kind : AgentSessionKind} {sessionId : Uuid}
    (committed : appendAgentEvent hash t claim.claimed event kind sessionId now = .ok t') :
    Moves allowed t t' := by
  simp only [appendAgentEvent, bind_eq_ok, Prod.exists, exists_unit, require_eq_ok,
    rejectCancelledExecution, pure_eq_ok] at committed
  obtain ⟨-, run, owned, attempt, locked, valid, running, -, calm, later, _, _, ensured, rfl⟩ :=
    committed
  obtain ⟨_, -, turn, -⟩ := turn_of_claim claim.named locked valid
  obtain ⟨sessions, toolCalls, rfl⟩ := ensureAgentSession_aside ensured
  refine Moves.step (.aside sessions toolCalls) (Moves.one ?_)
  refine .noted ?_ ?_ ?_ [event.eventType]
  · exact turn.found
  · rw [running]
    rfl
  · exact later

theorem heartbeatAttempt_moves {attemptId : Uuid} {tokenHash : String}
    {extension : Timestamp}
    (committed : heartbeatAttempt t attemptId tokenHash extension now = .ok t') :
    Moves allowed t t' := by
  simp only [heartbeatAttempt, bind_eq_ok, orFault_eq_ok, exists_unit, require_eq_ok,
    pure_eq_ok] at committed
  obtain ⟨attempt, foundAttempt, _, -, _, -, -, -, -, rfl⟩ := committed
  exact Moves.one (.leaseExtended (find_key foundAttempt).1)

theorem suspendForInteraction_moves {claim : IssuedClaim} {event : AgentEvent}
    {kind : AgentSessionKind} {request : InteractionRequestDraft}
    {checkpointRefs : Except Fault Unit} {sessionId interactionId id : Uuid}
    {later : Timestamp}
    (committed : suspendForInteraction hash t claim.claimed event kind request checkpointRefs
      sessionId interactionId now later = .ok (id, t'))
    (alone : ∀ attempt ∈ t.attempts, attempt.id = claim.claimed.runAttemptId →
      (∃ effect ∈ t.effects, effect.status.finished = false ∧
        attempt.inlineProposalId = some effect.proposalId) → allowed .inlineSuspension) :
    Moves allowed t t' := by
  simp only [suspendForInteraction, bind_eq_ok, require_eq_ok, exists_unit, orFault_eq_ok,
    Prod.exists, pure_eq_ok, Prod.mk.injEq, Run.transitTo_eq_ok, requireOrdinaryInteraction,
    rejectCancelledExecution, RunTables.addInteraction, insertRow_eq_ok] at committed
  obtain ⟨run, owned, attempt, locked, segment, rfl, valid, running, -, -, ordinary, -, calm,
    after, -, -, -, session, _, ensured, _, ⟨_, ⟨fresh, rfl⟩, rfl⟩, _, ⟨-, rfl⟩, -, rfl⟩ :=
    committed
  obtain ⟨_, isOwned, turn, same⟩ := turn_of_claim claim.named locked valid
  obtain rfl := Option.some.inj isOwned
  obtain ⟨sessions, toolCalls, rfl⟩ := ensureAgentSession_aside ensured
  refine Moves.step (.aside sessions toolCalls)
    ((putSession_aside { session with status := .idle }).moves.trans (Moves.one ?_))
  refine .asked ?_ ordinary rfl rfl rfl ?_ ?_ [.interactionRequested, .checkpointCreated]
  · exact { turn with running, calm, alone := alone attempt turn.member same }
  · exact fresh
  · exact after

theorem expirePendingInteraction_moves {interaction : UserInteraction} {segmentId : Uuid}
    (committed : expirePendingInteraction t run segment interaction segmentId now = .ok t')
    (found : t.run = some run) (known : segment ∈ t.segments)
    (member : interaction ∈ t.interactions) (place : interaction.runSegmentId = segment.id) :
    Moves allowed t t' := by
  simp only [expirePendingInteraction, bind_eq_ok, require_eq_ok, exists_unit] at committed
  obtain ⟨ordinary, ⟨isOpen, -⟩, committed⟩ := committed
  split at committed
  · rename_i left
    obtain rfl := Except.ok.inj committed
    refine Moves.one (.lapsed found member isOpen (by simp) (Or.inl ⟨ordinary, ?_⟩))
    exact left.imp id fun moved => ⟨segment, known, place.symm, moved⟩
  · rename_i waits
    have waiting : run.status = .waitingForInput := not_not.mp (not_or.mp waits).1
    obtain ⟨follows, rfl⟩ := requeue_eq_ok committed known (by rfl) (by rfl)
    exact Moves.one (.answered found (by simp [waiting]) member isOpen (by simp)
      { follows with } (.timeout List.mem_cons_self rfl))

theorem recoverExpiredInteractions_moves {limit count : Nat} {segmentIds : List Uuid}
    {lockedNow : Timestamp} (kept : WellKept t)
    (committed : recoverExpiredInteractions t limit segmentIds now lockedNow = .ok (count, t')) :
    Moves allowed t t' := by
  simp only [recoverExpiredInteractions, bind_eq_ok, exists_unit] at committed
  refine recoverAll_moves (fun t candidate recovered t' _ each => ?_) kept committed.2
  simp only [recoverInteraction, bind_eq_ok, orFault_eq_ok] at each
  obtain ⟨run, lockedRun, segment, lockedSegment, interaction, locked, each⟩ := each
  obtain ⟨member, -, place⟩ := lockInteractionRow_eq_ok locked
  split at each
  · obtain ⟨-, rfl⟩ := Prod.mk.inj (Except.ok.inj each)
    exact Moves.refl t
  · simp only [bind_eq_ok, pure_eq_ok, Prod.mk.injEq] at each
    obtain ⟨_, expired, -, rfl⟩ := each
    exact expirePendingInteraction_moves expired (lockRunRow_eq_some lockedRun).1
      (lockSegmentRow_eq_some lockedSegment).1 member place

theorem respondToInteraction_moves {command : RespondCommand} {responseId segmentId : Uuid}
    {outcome : RespondOutcome}
    (committed : respondToInteraction t command responseId segmentId now = .ok (outcome, t')) :
    Moves allowed t t' := by
  simp only [respondToInteraction, bind_eq_ok, exists_unit, orFault_eq_ok,
    respondToLockedInteraction] at committed
  obtain ⟨-, _, -, run, lockedRun, segment, lockedSegment, interaction, locked, -, -,
    committed⟩ := committed
  obtain ⟨found, -⟩ := lockRunRow_eq_some lockedRun
  obtain ⟨known, -⟩ := lockSegmentRow_eq_some lockedSegment
  obtain ⟨member, -, place⟩ := lockInteractionRow_eq_ok locked
  split at committed
  · simp only [bind_eq_ok, exists_unit, orFault_eq_ok, pure_eq_ok, Prod.mk.injEq] at committed
    obtain ⟨-, _, -, -, rfl⟩ := committed
    exact Moves.refl t
  · simp only [bind_eq_ok, exists_unit, require_eq_ok] at committed
    obtain ⟨-, isOpen, -, committed⟩ := committed
    split at committed
    · simp only [bind_eq_ok, pure_eq_ok, Prod.mk.injEq] at committed
      obtain ⟨_, expired, -, rfl⟩ := committed
      exact expirePendingInteraction_moves expired found known member place
    · simp only [bind_eq_ok, exists_unit, require_eq_ok, RunTables.addResponse, insertRow_eq_ok,
        pure_eq_ok, Prod.mk.injEq] at committed
      obtain ⟨⟨waiting, -⟩, _, ⟨_, ⟨fresh, rfl⟩, rfl⟩, _, requeued, -, rfl⟩ := committed
      obtain ⟨follows, rfl⟩ := requeue_eq_ok requeued known (by rfl) (by rfl)
      refine Moves.one (.answered found (by simp [waiting]) member isOpen (by simp)
        { follows with } (.response rfl fresh rfl rfl))

end Store

end SkillMind.Runs
