import SkillMind.Runs.TurnMoves

/-!
# The end of a turn is moves

A turn ends when its worker finalizes it or when its lease runs out. A recovery goes through many
attempts, but only one of them can hold the Run: once the Run has left the turn, the other
attempts are merely closed.
-/

namespace SkillMind.Runs

open Library Effects

variable {allowed : Mark → Prop} {t t' : RunTables} {run : Run} {segment : RunSegment}

section Store

variable {hash : String → String}

theorem terminalEvent_eq_ok {claim : ClaimedRun} {event : Option AgentEvent}
    {kind : Option AgentSessionKind} {target : RunStatus} {cancelled : Bool} {sessionId : Uuid}
    {session : Option AgentSession} {start : Nat} {reported : List RunEventBody}
    (committed : terminalEvent t claim event kind target cancelled sessionId =
      .ok (session, start, reported, t')) :
    Aside t t' ∧ nextSequence t ≤ start ∧
      ∃ types : List AgentEventType, reported = types.map .agent := by
  cases event with
  | none =>
    simp only [terminalEvent] at committed
    split at committed
    · cases committed
      exact ⟨Aside.refl t, le_rfl, [], rfl⟩
    · cases committed
      exact ⟨putSession_aside _, le_rfl, [], rfl⟩
  | some event =>
    simp only [terminalEvent, bind_eq_ok, require_eq_ok, exists_unit, orFault_eq_ok,
      Prod.exists, pure_eq_ok, Prod.mk.injEq] at committed
    obtain ⟨later, _, -, session', _, ensured, -, rfl, rfl, rfl⟩ := committed
    obtain ⟨sessions, toolCalls, rfl⟩ := ensureAgentSession_aside ensured
    exact ⟨⟨_, toolCalls, rfl⟩, later, [_], rfl⟩

theorem finalOutcomes_targets {target : RunStatus} {attemptStatus : RunAttemptStatus}
    (final : (target, attemptStatus) ∈ finalOutcomes) :
    target ∈ [.succeeded, .failed, .cancelled, .waitingPermission, .retryPending] ∧
      attemptStatus.active = false := by
  simp only [finalOutcomes, List.mem_cons, Prod.mk.injEq, List.not_mem_nil, or_false] at final
  rcases final with ⟨rfl, rfl⟩ | ⟨rfl, rfl⟩ | ⟨rfl, rfl⟩ | ⟨rfl, rfl⟩ | ⟨rfl, rfl⟩ <;> decide

theorem endAttempt_moves {claim : ClaimedRun} {attempt : RunAttempt} {report : FinalReport}
    {sessionId : Uuid} {now : Timestamp} {status : RunStatus}
    (committed : endAttempt t claim run (some segment) attempt report.report sessionId now =
      .ok (status, t'))
    (turn : Turn t run segment attempt) (running : run.status = .running)
    (bare : attempt.inlineProposalId = none) : Moves allowed t t' := by
  obtain ⟨targets, inactive⟩ := finalOutcomes_targets report.final
  -- a recorded cancellation decides the target and the status of the attempt
  obtain ⟨target, isTarget, targets, wins⟩ : ∃ target,
      (if isCancellationRequested t = true then .cancelled else report.report.target) = target ∧
        target ∈ [.succeeded, .failed, .cancelled, .waitingPermission, .retryPending] ∧
        (isCancellationRequested t = true → target = .cancelled) := by
    refine ⟨_, rfl, ?_, fun cancelled => if_pos cancelled⟩
    split
    · decide
    · exact targets
  obtain ⟨attemptStatus, isStatus, inactive⟩ : ∃ attemptStatus,
      (if isCancellationRequested t = true then .cancelled else report.report.attemptStatus) =
        attemptStatus ∧ attemptStatus.active = false := by
    refine ⟨_, rfl, ?_⟩
    split
    · rfl
    · exact inactive
  simp only [endAttempt, bind_eq_ok, require_eq_ok, exists_unit, Run.transitTo_eq_ok,
    Prod.exists, pure_eq_ok, Prod.mk.injEq, isTarget, isStatus] at committed
  obtain ⟨-, -, -, error, -, -, _, ⟨-, rfl⟩, session, start, reported, _, reporting, -, -, rfl⟩ :=
    committed
  obtain ⟨⟨sessions, toolCalls, rfl⟩, later, types, rfl⟩ :=
    terminalEvent_eq_ok reporting
  have completed :
      (if target = .succeeded ∧ some segment ≠ none then [RunEventBody.agent .segmentCompleted]
        else []) =
      (if target = .succeeded ∧ some segment ≠ none then [AgentEventType.segmentCompleted]
        else []).map .agent := by
    split <;> rfl
  rw [completed, ← List.map_append]
  refine Moves.step (.aside sessions toolCalls) (Moves.one ?_)
  have held : run.status ∈ [.preparing, .running] := by simp [running]
  by_cases retried : target = .retryPending
  · rw [if_pos retried]
    exact .released _ { turn with } held (Or.inl bare) inactive targets wins later rfl
      (Or.inl ⟨retried, none, rfl⟩)
  · rw [if_neg retried]
    exact .released _ { turn with } held (Or.inl bare) inactive targets wins later rfl
      (Or.inr ⟨retried, rfl⟩)

theorem finalizeExecution_moves {claim : IssuedClaim} {report : FinalReport}
    {evidence : Except Fault Unit} {sessionId segmentId : Uuid} {now : Timestamp}
    {status : RunStatus}
    (heard : ∀ attempt ∈ t.attempts, attempt.id = claim.claimed.runAttemptId →
      ∀ effect ∈ t.effects, attempt.inlineProposalId = some effect.proposalId →
        leavesWaiting t effect → allowed .silentDetach)
    (committed : finalizeExecution hash t claim.claimed report.report evidence sessionId segmentId
      now = .ok (status, t')) : Moves allowed t t' := by
  simp only [finalizeExecution, bind_eq_ok, Prod.exists, exists_unit] at committed
  obtain ⟨run, owned, attempt, locked, valid, pending, isPending, committed⟩ := committed
  obtain ⟨segment, rfl, turn, same⟩ := turn_of_claim claim.named locked valid
  by_cases running : run.status = .running
  · rw [decide_eq_true running] at committed
    cases pending with
    | none =>
      exact endAttempt_moves committed turn running (pendingInlineProposal_eq_none isPending)
    | some proposal =>
      obtain ⟨proposed, waits⟩ := pendingInlineProposal_eq_some isPending
      simp only [bind_eq_ok, pure_eq_ok, Prod.mk.injEq] at committed
      obtain ⟨_, detached, -, rfl⟩ := committed
      refine (detachInlineEffect_moves turn proposed
        (fun effect member ofProposal => ?_) detached).1
      exact heard attempt turn.member same effect member (ofProposal ▸ waits)
  · rw [decide_eq_false running] at committed
    cases pending <;>
      simp only [bind_eq_ok, exists_unit, pure_eq_ok, Prod.mk.injEq] at committed
    all_goals
      obtain ⟨-, -, rfl⟩ := committed
      exact Moves.refl t

end Store

variable {now : Timestamp}

theorem left_turn {target : RunStatus} {error : Option ErrorRecord}
    (left : target ∉ [.preparing, .running]) :
    (run.moved target error now).status ∉ [.preparing, .running] := left

theorem retryLostLease_moves {attempt : RunAttempt}
    (committed : retryLostLease t run (some segment) attempt now = .ok t')
    (turn : Turn t run segment attempt) (held : run.status ∈ [.preparing, .running])
    (own : attempt.inlineProposalId = none ∨ run.status = .preparing)
    (calm : isCancellationRequested t = false) : Moves allowed t t' ∧ Turnless t' := by
  simp only [retryLostLease, bind_eq_ok, Run.transitTo_eq_ok, pure_eq_ok] at committed
  obtain ⟨_, ⟨-, rfl⟩, rfl⟩ := committed
  constructor
  · refine Moves.step (.aside (closeAttemptSessions t attempt.id .failed).sessions t.toolCalls)
      (Moves.one ?_)
    exact .released [] { turn with } held own (by rfl) (by decide)
      (fun cancelled => absurd (calm.symm.trans cancelled) Bool.false_ne_true) le_rfl rfl
      (Or.inl ⟨rfl, some "lease_recovery", rfl⟩)
  · rintro _ ⟨⟩
    exact left_turn (by decide)

theorem cancelLostLease_moves {attempt : RunAttempt}
    (committed : cancelLostLease t run (some segment) attempt now = .ok t')
    (turn : Turn t run segment attempt) (held : run.status ∈ [.preparing, .running])
    (own : attempt.inlineProposalId = none ∨ run.status = .preparing) :
    Moves allowed t t' ∧ Turnless t' := by
  simp only [cancelLostLease, bind_eq_ok, Run.transitTo_eq_ok, pure_eq_ok] at committed
  obtain ⟨_, ⟨-, rfl⟩, rfl⟩ := committed
  constructor
  · refine Moves.step (.aside (closeAttemptSessions t attempt.id .interrupted).sessions
      t.toolCalls) (Moves.one ?_)
    exact .released [] { turn with } held own (by rfl) (by decide) (fun _ => rfl)
      le_rfl rfl (Or.inr ⟨by decide, rfl⟩)
  · rintro _ ⟨⟩
    exact left_turn (by decide)

theorem lockAttemptSegment_eq_ok {attempt : RunAttempt} {owned : Option RunSegment}
    (placed : attempt.runSegmentId ≠ none)
    (locked : lockAttemptSegment t run attempt = .ok owned) :
    ∃ segment ∈ t.segments, owned = some segment ∧ attempt.runSegmentId = some segment.id := by
  unfold lockAttemptSegment at locked
  split at locked
  · rename_i unplaced
    exact absurd unplaced placed
  · rename_i segmentId place
    simp only [bind_eq_ok, orFault_eq_ok, pure_eq_ok] at locked
    obtain ⟨segment, found, rfl⟩ := locked
    obtain ⟨known, same⟩ := lockSegmentRow_eq_some found
    exact ⟨segment, known, rfl, same ▸ place⟩

theorem recoverAttempt_turnless {recovery : AttemptRecovery} {recovered : Bool}
    (turnless : Turnless t)
    (committed : recoverAttempt now t recovery = .ok (recovered, t')) :
    Moves allowed t t' ∧ Turnless t' := by
  simp only [recoverAttempt, bind_eq_ok, orFault_eq_ok] at committed
  obtain ⟨run, locked, owned, -, committed⟩ := committed
  obtain ⟨found, -⟩ := lockRunRow_eq_some locked
  split at committed
  · obtain ⟨-, rfl⟩ := Prod.mk.inj (Except.ok.inj committed)
    exact ⟨Moves.refl t, turnless⟩
  · rename_i attempt foundAttempt
    split at committed
    · obtain ⟨-, rfl⟩ := Prod.mk.inj (Except.ok.inj committed)
      exact ⟨Moves.refl t, turnless⟩
    · rw [if_pos (turnless run found)] at committed
      obtain ⟨-, rfl⟩ := Prod.mk.inj (Except.ok.inj committed)
      refine ⟨Moves.step (.attemptExpired found (turnless run found) (find_key foundAttempt).1)
        (closeAttemptSessions_aside attempt.id .failed).moves, turnless⟩

theorem recoverAttempt_moves {recovery : AttemptRecovery} {recovered : Bool}
    (kept : WellKept t) (known : recovery.candidate ∈ t.attempts)
    (heard : ∀ effect ∈ t.effects,
      recovery.candidate.inlineProposalId = some effect.proposalId → leavesWaiting t effect →
        allowed .silentDetach)
    (committed : recoverAttempt now t recovery = .ok (recovered, t')) :
    Moves allowed t t' ∧ (t' = t ∨ Turnless t') := by
  by_cases turnless : Turnless t
  · exact (recoverAttempt_turnless turnless committed).imp id Or.inr
  simp only [recoverAttempt, bind_eq_ok, orFault_eq_ok] at committed
  obtain ⟨run, locked, owned, lockedSegment, committed⟩ := committed
  obtain ⟨found, -⟩ := lockRunRow_eq_some locked
  have held : run.status ∈ [.preparing, .running] := by
    by_contra left
    refine turnless fun run' found' => ?_
    rwa [Option.some.inj (found.symm.trans found')] at left
  rw [kept.attempts.find_eq known rfl] at committed
  obtain ⟨segment, segmentKnown, rfl, on⟩ :=
    lockAttemptSegment_eq_ok (kept.placed _ known) lockedSegment
  simp only at committed
  split at committed
  · obtain ⟨-, rfl⟩ := Prod.mk.inj (Except.ok.inj committed)
    exact ⟨Moves.refl t, Or.inl rfl⟩
  · rename_i due
    have active : recovery.candidate.status.active = true := by
      by_contra inactive
      exact due (Or.inl (Bool.eq_false_of_not_eq_true inactive))
    have turn : Turn t run segment recovery.candidate :=
      ⟨found, known, active, segmentKnown, on⟩
    have lost (own : recovery.candidate.inlineProposalId = none ∨ run.status = .preparing)
        (closed : (if isCancellationRequested t = true then
            (do return (true, ← cancelLostLease t run (some segment) recovery.candidate now))
          else (do return (true, ← retryLostLease t run (some segment) recovery.candidate now))) =
          Except.ok (recovered, t')) : Moves allowed t t' ∧ (t' = t ∨ Turnless t') := by
      split at closed
      · simp only [bind_eq_ok, pure_eq_ok, Prod.mk.injEq] at closed
        obtain ⟨_, cancelled, -, rfl⟩ := closed
        exact (cancelLostLease_moves cancelled turn held own).imp id Or.inr
      · rename_i notRequested
        simp only [bind_eq_ok, pure_eq_ok, Prod.mk.injEq] at closed
        obtain ⟨_, retried, -, rfl⟩ := closed
        exact (retryLostLease_moves retried turn held own
          (Bool.eq_false_of_not_eq_true notRequested)).imp id Or.inr
    simp only [bind_eq_ok] at committed
    obtain ⟨pending, isPending, committed⟩ := committed
    by_cases running : run.status = .running
    · rw [decide_eq_true running] at committed
      cases pending with
      | none => exact lost (Or.inl (pendingInlineProposal_eq_none isPending)) committed
      | some proposal =>
        obtain ⟨proposed, waits⟩ := pendingInlineProposal_eq_some isPending
        simp only [bind_eq_ok, pure_eq_ok, Prod.mk.injEq] at committed
        obtain ⟨_, detached, -, rfl⟩ := committed
        refine (detachInlineEffect_moves turn proposed
          (fun effect member ofProposal => ?_) detached).imp id Or.inr
        exact heard effect member (ofProposal ▸ waits)
    · rw [decide_eq_false running] at committed
      have preparing : run.status = .preparing := by simp_all
      cases pending <;> exact lost (Or.inr preparing) committed

theorem recoverAll_turnless {recoveries : List AttemptRecovery} {count : Nat}
    (turnless : Turnless t)
    (committed : recoverAll (recoverAttempt now) recoveries t = .ok (count, t')) :
    Moves allowed t t' := by
  induction recoveries generalizing t count with
  | nil =>
    obtain ⟨-, rfl⟩ := Prod.mk.inj (Except.ok.inj committed)
    exact Moves.refl t
  | cons recovery rest ih =>
    simp only [recoverAll, bind_eq_ok, Prod.exists, pure_eq_ok, Prod.mk.injEq] at committed
    obtain ⟨_, _, first, _, _, later, -, rfl⟩ := committed
    obtain ⟨moves, left⟩ := recoverAttempt_turnless turnless first
    exact moves.trans (ih left later)

theorem recoverExpiredAttempts_moves {limit count : Nat}
    {drawn : List (Uuid × Except Fault Unit)} (kept : WellKept t)
    (heard : ∀ recovery ∈ attemptRecoveries t limit drawn now, ∀ effect ∈ t.effects,
      recovery.candidate.inlineProposalId = some effect.proposalId → leavesWaiting t effect →
        allowed .silentDetach)
    (committed : recoverExpiredAttempts t limit drawn now = .ok (count, t')) :
    Moves allowed t t' := by
  have known : ∀ recovery ∈ attemptRecoveries t limit drawn now,
      recovery.candidate ∈ t.attempts := by
    intro recovery mem
    obtain ⟨candidate, due, _, -, rfl⟩ := mem_zipWith mem
    have sorted := List.mem_of_mem_take due
    exact (List.mem_filter.mp ((List.perm_insertionSort _ _).mem_iff.mp sorted)).1
  unfold recoverExpiredAttempts at committed
  generalize attemptRecoveries t limit drawn now = recoveries at known heard committed
  induction recoveries generalizing count with
  | nil =>
    obtain ⟨-, rfl⟩ := Prod.mk.inj (Except.ok.inj committed)
    exact Moves.refl t
  | cons recovery rest ih =>
    simp only [recoverAll, bind_eq_ok, Prod.exists, pure_eq_ok, Prod.mk.injEq] at committed
    obtain ⟨_, _, first, _, _, later, -, rfl⟩ := committed
    rw [List.forall_mem_cons] at known heard
    obtain ⟨moves, rfl | left⟩ := recoverAttempt_moves kept known.1 heard.1 first
    · exact ih known.2 heard.2 later
    · exact moves.trans (recoverAll_turnless left later)

end SkillMind.Runs
