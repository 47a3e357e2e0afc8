import SkillMind.Runs.ContinuationMoves

/-!
# Proposing, deciding and expiring are moves
-/

namespace SkillMind.Runs

open Library Effects

variable {allowed : Mark → Prop} {t t' : RunTables} {run : Run} {segment : RunSegment}

theorem newEffectExecution_new {proposal : ChangeProposal} {approval : ChangeApproval}
    {provider : EffectProvider} {id : Uuid} {effect : EffectExecution}
    (created : newEffectExecution proposal approval provider id = .ok effect)
    (fresh : ∀ other ∈ t.effects, effect.clash other = false) :
    NewEffect t proposal.id effect := by
  simp only [newEffectExecution, bind_eq_ok, pure_eq_ok] at created
  obtain ⟨_, -, rfl⟩ := created
  exact ⟨rfl, rfl, rfl, rfl, rfl, fresh⟩

variable {attempt : RunAttempt}

theorem awaitProposal_moves {proposal : ChangeProposal}
    {approval : Option ChangeApproval} {provider : EffectProvider} {ids : ProposalIds}
    {sequence : Nat} {now : Timestamp}
    (committed : awaitProposal t run segment attempt proposal approval provider ids sequence now =
      .ok t')
    (suspends : Suspends allowed t run segment attempt) (deferred : proposal.inlineOwner = none)
    (later : nextSequence t ≤ sequence) : Moves allowed t t' := by
  simp only [awaitProposal, bind_eq_ok, Run.transitTo_eq_ok, RunTables.addProposal,
    insertRow_eq_ok, pure_eq_ok] at committed
  obtain ⟨_, ⟨-, rfl⟩, _, ⟨_, ⟨newProposal, rfl⟩, rfl⟩, committed⟩ := committed
  split at committed
  · simp only [bind_eq_ok, pure_eq_ok, RunTables.addApproval, RunTables.addEffect,
      insertRow_eq_ok] at committed
    obtain ⟨effect, created, _, ⟨_, ⟨newApproval, rfl⟩, rfl⟩, _, ⟨_, ⟨fresh, rfl⟩, rfl⟩, rfl⟩ :=
      committed
    refine Moves.step (.approvalAdded newApproval) (Moves.one ?_)
    refine .proposedApproved ?_ deferred ?_ ?_ ?_
      [.changeProposed, .effectApproved, .checkpointCreated]
    · exact { suspends with }
    · exact newProposal
    · exact newEffectExecution_new created fresh
    · exact later
  · simp only [bind_eq_ok, pure_eq_ok, RunTables.addInteraction, insertRow_eq_ok] at committed
    obtain ⟨_, ⟨_, ⟨fresh, rfl⟩, rfl⟩, rfl⟩ := committed
    exact Moves.one (.proposed suspends deferred newProposal rfl rfl fresh later
      [.changeProposed, .interactionRequested, .checkpointCreated])

theorem holdInline_moves {proposal : ChangeProposal}
    {approval : Option ChangeApproval} {provider : EffectProvider} {ids : ProposalIds}
    (committed : holdInline t attempt proposal approval provider ids = .ok t')
    (turn : Turn t run segment attempt) (running : run.status = .running)
    (calm : isCancellationRequested t = false) (bare : attempt.inlineProposalId = none)
    (inline : proposal.activeInline = true) (owner : proposal.runAttemptId = attempt.id) :
    Moves allowed t t' := by
  simp only [holdInline, bind_eq_ok, orFault_eq_ok, RunTables.addProposal, RunTables.addApproval,
    RunTables.addEffect, insertRow_eq_ok, pure_eq_ok] at committed
  obtain ⟨_, -, effect, created, _, ⟨_, ⟨newProposal, rfl⟩, rfl⟩, _, ⟨_, ⟨newApproval, rfl⟩, rfl⟩,
    _, ⟨fresh, rfl⟩, rfl⟩ := committed
  refine Moves.step (.approvalAdded newApproval) (Moves.one ?_)
  exact .held { turn with } running calm bare inline owner newProposal
    (newEffectExecution_new created fresh)

theorem proposingSession_aside {claim : ClaimedRun}
    {draft : ChangeProposalDraft} {resource : BoundResource} {newSession : Uuid}
    {origin : ProposalOrigin} {session : AgentSession}
    (proposing : proposingSession t run attempt claim draft resource newSession origin =
      .ok (session, t')) : Aside t t' := by
  cases origin with
  | deferred event kind =>
    simp only [proposingSession, bind_eq_ok, Prod.exists, pure_eq_ok, Prod.mk.injEq]
      at proposing
    obtain ⟨_, -, _, _, ensured, -, rfl⟩ := proposing
    obtain ⟨_, _, rfl⟩ := ensureAgentSession_aside ensured
    exact ⟨_, _, rfl⟩
  | inline toolUseId sdkSessionId =>
    simp only [proposingSession, bind_eq_ok, exists_unit, pure_eq_ok, Prod.mk.injEq]
      at proposing
    obtain ⟨_, -, -, _, -, _, -, -, -, rfl⟩ := proposing
    exact Aside.refl t

theorem proposingSession_bare {claim : ClaimedRun}
    {draft : ChangeProposalDraft} {resource : BoundResource} {newSession : Uuid}
    {toolUseId : String} {sdkSessionId : Uuid} {session : AgentSession}
    (proposing : proposingSession t run attempt claim draft resource newSession
      (.inline toolUseId sdkSessionId) = .ok (session, t')) :
    attempt.inlineProposalId = none := by
  simp only [proposingSession, bind_eq_ok, exists_unit, require_eq_ok, pure_eq_ok] at proposing
  obtain ⟨_, -, -, _, -, _, pending, rfl, -⟩ := proposing
  exact pendingInlineProposal_eq_none pending

section Store

variable {features : ExecutionFeatures} {hash : String → String}

variable {now : Timestamp}

theorem suspendForProposal_moves {claim : IssuedClaim} {origin : ProposalOrigin}
    {draft : ChangeProposalDraft} {resource : Except Fault BoundResource}
    {checkpointRefs evidenceRefs : Except Fault Unit} {policy : Option Uuid}
    {requestHash : String} {ids : ProposalIds} {later : Timestamp} {id : Uuid}
    (committed : suspendForProposal features hash t claim.claimed origin draft resource
      checkpointRefs evidenceRefs policy requestHash ids now later = .ok (id, t'))
    (alone : ∀ event session, origin = .deferred event session →
      ∀ attempt ∈ t.attempts, attempt.id = claim.claimed.runAttemptId →
        (∃ effect ∈ t.effects, effect.status.finished = false ∧
          attempt.inlineProposalId = some effect.proposalId) → allowed .inlineSuspension) :
    Moves allowed t t' := by
  cases origin with
  | deferred event kind =>
    simp only [suspendForProposal, bind_eq_ok, Prod.exists, exists_unit, orFault_eq_ok,
      require_eq_ok, pure_eq_ok, Prod.mk.injEq, rejectCancelledExecution] at committed
    obtain ⟨-, run, owned, attempt, locked, segment, rfl, valid, running, -, -, sequence, rfl,
      calm, after, -, -, resource, rfl, -, -, -, -, session, tables, proposing, actor, -, _,
      awaited, -, rfl⟩ := committed
    obtain ⟨_, isOwned, turn, same⟩ := turn_of_claim claim.named locked valid
    obtain rfl := Option.some.inj isOwned
    obtain ⟨sessions, toolCalls, rfl⟩ := proposingSession_aside proposing
    refine (Aside.moves ⟨sessions, toolCalls, rfl⟩).trans
      (awaitProposal_moves awaited ?_ rfl after)
    exact { turn with running, calm, alone := alone event kind rfl attempt turn.member same }
  | inline toolUseId sdkSessionId =>
    simp only [suspendForProposal, bind_eq_ok, Prod.exists, exists_unit, orFault_eq_ok,
      require_eq_ok, pure_eq_ok, Prod.mk.injEq, rejectCancelledExecution] at committed
    obtain ⟨-, run, owned, attempt, locked, segment, rfl, valid, running, sequence, rfl, calm,
      -, -, -, resource, rfl, -, -, -, -, session, tables, proposing, actor, -, _, held, -,
      rfl⟩ := committed
    obtain ⟨_, isOwned, turn, -⟩ := turn_of_claim claim.named locked valid
    obtain rfl := Option.some.inj isOwned
    have bare := proposingSession_bare proposing
    obtain ⟨sessions, toolCalls, rfl⟩ := proposingSession_aside proposing
    exact (Aside.moves ⟨sessions, toolCalls, rfl⟩).trans
      (holdInline_moves held { turn with } running calm bare rfl rfl)

theorem expirePendingProposal_moves {proposal : ChangeProposal} {interaction : UserInteraction}
    {segmentId : Uuid}
    (committed : expirePendingProposal t run segment proposal interaction segmentId now = .ok t')
    (found : t.run = some run) (waiting : run.status = .waitingForApproval)
    (known : segment ∈ t.segments) (proposed : proposal ∈ t.proposals)
    (member : interaction ∈ t.interactions) (isOpen : interaction.status = .open) :
    Moves allowed t t' := by
  obtain ⟨follows, rfl⟩ := requeue_eq_ok committed known (by rfl) (by rfl)
  refine Moves.step (.proposalMoved proposed .stale) (Moves.one ?_)
  exact .answered found (by simp [waiting]) member isOpen (by simp) { follows with }
    (.timeout (List.mem_cons_of_mem _ List.mem_cons_self) rfl)

theorem recoverProposal_moves {candidate : ChangeProposal × Uuid} {recovered : Bool}
    (committed : recoverProposal features now t candidate = .ok (recovered, t')) :
    Moves allowed t t' := by
  simp only [recoverProposal, bind_eq_ok, orFault_eq_ok] at committed
  obtain ⟨run, lockedRun, segment, lockedSegment, proposal, foundProposal, committed⟩ := committed
  obtain ⟨found, -⟩ := lockRunRow_eq_some lockedRun
  obtain ⟨known, -⟩ := lockSegmentRow_eq_some lockedSegment
  obtain ⟨proposed, -⟩ := find_key foundProposal
  split at committed
  · obtain ⟨-, rfl⟩ := Prod.mk.inj (Except.ok.inj committed)
    exact Moves.refl t
  · simp only [bind_eq_ok, orFault_eq_ok] at committed
    obtain ⟨interaction, foundInteraction, committed⟩ := committed
    obtain ⟨member, ofProposal⟩ := interactionOfProposal_eq_some foundInteraction
    split at committed
    · rename_i due
      simp only [bind_eq_ok, pure_eq_ok, Prod.mk.injEq] at committed
      obtain ⟨_, expired, -, rfl⟩ := committed
      exact expirePendingProposal_moves expired found due.1 known proposed member due.2
    · rename_i notDue
      refine Moves.step (.proposalMoved proposed .stale) ?_
      split at committed
      · rename_i isOpen
        obtain ⟨-, rfl⟩ := Prod.mk.inj (Except.ok.inj committed)
        refine Moves.one (.lapsed found member isOpen (by simp) (Or.inr ⟨?_, fun waiting => ?_⟩))
        · rw [ofProposal]
          exact Option.some_ne_none _
        · exact notDue ⟨waiting, isOpen⟩
      · obtain ⟨-, rfl⟩ := Prod.mk.inj (Except.ok.inj committed)
        exact Moves.refl _

theorem recoverExpiredProposals_moves {limit count : Nat} {segmentIds : List Uuid}
    (kept : WellKept t)
    (committed : recoverExpiredProposals features t limit segmentIds now = .ok (count, t')) :
    Moves allowed t t' := by
  simp only [recoverExpiredProposals, bind_eq_ok, exists_unit] at committed
  exact recoverAll_moves (fun _ _ _ _ _ => recoverProposal_moves) kept committed.2

theorem decidePendingProposal_moves {proposal : ChangeProposal} {interaction : UserInteraction}
    {command : DecideProposalCommand} {binding : Option EffectProvider} {ids : DecisionIds}
    {outcome : DecideOutcome}
    (committed : decidePendingProposal t run segment proposal interaction command binding ids now =
      .ok (outcome, t'))
    (found : t.run = some run) (waiting : run.status = .waitingForApproval)
    (known : segment ∈ t.segments) (proposed : proposal ∈ t.proposals)
    (member : interaction ∈ t.interactions) (isOpen : interaction.status = .open) :
    Moves allowed t t' := by
  simp only [decidePendingProposal, bind_eq_ok, RunTables.addApproval, insertRow_eq_ok,
    pure_eq_ok] at committed
  obtain ⟨_, ⟨_, ⟨newApproval, rfl⟩, rfl⟩, committed⟩ := committed
  refine Moves.step (.approvalAdded newApproval) ?_
  split at committed
  · simp only [bind_eq_ok, orFault_eq_ok, RunTables.addEffect, insertRow_eq_ok, pure_eq_ok,
      Prod.mk.injEq] at committed
    obtain ⟨provider, -, effect, created, _, ⟨_, ⟨fresh, rfl⟩, rfl⟩, -, rfl⟩ := committed
    refine Moves.step (.proposalMoved (by exact proposed) .approved) (Moves.one ?_)
    have written : { proposal with status := .approved } ∈
        replaceRow ChangeProposal.id { proposal with status := .approved } t.proposals :=
      mem_replaceRow_self proposed rfl
    refine .approved { proposal with status := .approved } ?_ waiting ?_ isOpen ?_ ?_
      [.effectApproved]
    · exact found
    · exact member
    · exact written
    · exact newEffectExecution_new created fresh
  · simp only [bind_eq_ok, pure_eq_ok, Prod.mk.injEq] at committed
    obtain ⟨_, requeued, -, rfl⟩ := committed
    obtain ⟨follows, rfl⟩ := requeue_eq_ok requeued known (by rfl) (by rfl)
    refine Moves.step (.proposalMoved (by exact proposed) .rejected) (Moves.one ?_)
    exact .answered found (by simp [waiting]) member isOpen (by simp) { follows with }
      (.decision rfl)

theorem decideChangeProposal_moves {command : DecideProposalCommand}
    {binding : Option EffectProvider} {rowCheck : Except Fault Unit} {ids : DecisionIds}
    {outcome : DecideOutcome}
    (committed : decideChangeProposal features t command binding rowCheck ids now =
      .ok (outcome, t')) : Moves allowed t t' := by
  simp only [decideChangeProposal, bind_eq_ok, orFault_eq_ok, require_eq_ok,
    exists_unit] at committed
  obtain ⟨observed, -, run, lockedRun, -, segment, lockedSegment, proposal, foundProposal, -,
    committed⟩ := committed
  obtain ⟨found, -⟩ := lockRunRow_eq_some lockedRun
  obtain ⟨known, -⟩ := lockSegmentRow_eq_some lockedSegment
  obtain ⟨proposed, -⟩ := find_key foundProposal
  split at committed
  · simp only [bind_eq_ok, require_eq_ok, exists_unit, pure_eq_ok, Prod.mk.injEq] at committed
    obtain ⟨-, -, rfl⟩ := committed
    exact Moves.refl t
  · simp only [bind_eq_ok, require_eq_ok, exists_unit, orFault_eq_ok] at committed
    obtain ⟨-, -, -, waiting, interaction, foundInteraction, isOpen, committed⟩ := committed
    obtain ⟨member, -⟩ := interactionOfProposal_eq_some foundInteraction
    split at committed
    · simp only [bind_eq_ok, pure_eq_ok, Prod.mk.injEq] at committed
      obtain ⟨_, expired, -, rfl⟩ := committed
      exact expirePendingProposal_moves expired found waiting known proposed member isOpen
    · simp only [bind_eq_ok, exists_unit] at committed
      exact decidePendingProposal_moves committed.2 found waiting known proposed member isOpen

end Store

end SkillMind.Runs
