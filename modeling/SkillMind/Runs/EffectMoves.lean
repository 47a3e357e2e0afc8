import SkillMind.Runs.ProposalMoves

/-!
# Executing effects is moves
-/

namespace SkillMind.Runs

open Library Effects

variable {allowed : Mark → Prop} {t t' : RunTables} {run : Run} {segment : RunSegment}

section Store

variable {features : ExecutionFeatures} {hash : String → String}

/-! ## Claims -/

/-- The row of an execution that a worker holds. -/
def EffectExecution.heldBy (effect : EffectExecution) (hash : String → String)
    (claimed : ClaimedEffectExecution) (toolCallId : Option Uuid) (workerId : Option String)
    (expiry : Option Timestamp) : EffectExecution :=
  { effect with
    toolCallId := toolCallId
    status := .applying
    workerId := workerId
    leaseTokenHash := some (hash claimed.leaseToken)
    leaseExpiresAt := expiry
    attemptNo := claimed.attemptNo }

/-- An execution is handed to a worker: the claim names the next attempt, and the row keeps the
digest of its token. -/
structure HandedOut (hash : String → String) (t t' : RunTables) (request : EffectClaimRequest)
    (claimed : ClaimedEffectExecution) (effect : EffectExecution) : Prop where
  member : effect ∈ t.effects
  unfinished : effect.status.finished = false
  calm : isCancellationRequested t = false
  execution : claimed.effectExecutionId = effect.id
  attempt : claimed.attemptNo = effect.attemptNo + 1
  limit : claimed.attemptNo ≤ request.maxAttempts
  token : claimed.leaseToken = request.leaseToken
  moves : ∃ toolCallId workerId expiry, ∀ allowed : Mark → Prop,
    Moves allowed
      { t with
        effects := replaceRow EffectExecution.id
          (effect.heldBy hash claimed toolCallId workerId expiry) t.effects } t'

variable {claimed : ClaimedEffectExecution} {effect : EffectExecution}

theorem HandedOut.path {request : EffectClaimRequest}
    (handed : HandedOut hash t t' request claimed effect)
    (marked : allowed .effectClaim) : Moves allowed t t' := by
  obtain ⟨toolCallId, workerId, expiry, moves⟩ := handed.moves
  refine Moves.step ?_ (moves allowed)
  rw [EffectExecution.heldBy, handed.attempt]
  exact .effectLeased handed.member handed.unfinished handed.calm marked

variable {proposal : ChangeProposal}

theorem openToolCall_aside
    {integrationId : Option Uuid} {newId id : Uuid}
    (opened : openToolCall t proposal effect integrationId newId = .ok (id, t')) :
    ∃ toolCalls, t' = { t with toolCalls } := by
  unfold openToolCall at opened
  split at opened
  · simp only [RunTables.addToolCall, bind_eq_ok, insertRow_eq_ok, pure_eq_ok,
      Prod.mk.injEq] at opened
    obtain ⟨_, ⟨_, ⟨-, rfl⟩, rfl⟩, -, rfl⟩ := opened
    exact ⟨_, rfl⟩
  · simp only [bind_eq_ok, require_eq_ok, exists_unit, pure_eq_ok, Prod.mk.injEq] at opened
    obtain ⟨-, -, rfl⟩ := opened
    exact ⟨_, rfl⟩

variable {now : Timestamp}

theorem refuseEffect_moves
    {toolCallId : Option Uuid} {status : EffectExecutionStatus} {code : String}
    {segmentId : Uuid} {answer : Option ClaimedEffectExecution}
    (committed : refuseEffect t run segment proposal { effect with toolCallId } status code
      segmentId now = .ok (answer, t'))
    (found : t.run = some run) (known : segment ∈ t.segments) (member : effect ∈ t.effects)
    (unfinished : effect.status.finished = false) (proposed : proposal ∈ t.proposals)
    (owner : proposal.id = effect.proposalId) (unreserved : code ≠ unknownEffectCode)
    (place : proposal.activeInline = false → run.status = .waitingForApproval) :
    answer = none ∧ Moves allowed t t' := by
  simp only [refuseEffect, bind_eq_ok, pure_eq_ok, Prod.mk.injEq] at committed
  obtain ⟨_, closed, rfl, rfl⟩ := committed
  exact ⟨rfl, closeEffectBeforeProvider_moves closed found known member unfinished proposed owner
    unreserved place⟩

theorem leaseEffect_moves
    {request : EffectClaimRequest} {resource : Except Fault BoundResource} {ids : EffectClaimIds}
    {later : Timestamp} {answer : Option ClaimedEffectExecution}
    (committed : leaseEffect hash t run segment proposal effect request resource ids now later =
      .ok (answer, t'))
    (found : t.run = some run) (known : segment ∈ t.segments) (member : effect ∈ t.effects)
    (unfinished : effect.status.finished = false) (proposed : proposal ∈ t.proposals)
    (owner : proposal.id = effect.proposalId)
    (place : proposal.activeInline = false → run.status = .waitingForApproval) :
    (answer = none ∧ Moves allowed t t') ∨
      ∃ claimed effect, answer = some claimed ∧ HandedOut hash t t' request claimed effect := by
  simp only [leaseEffect] at committed
  split at committed
  · exact Or.inl (refuseEffect_moves committed found known member unfinished proposed owner
      (by decide) place)
  · rename_i notCancelled
    split at committed
    · exact Or.inl (refuseEffect_moves committed found known member unfinished proposed owner
        (by decide) place)
    · simp only [bind_eq_ok, orFault_eq_ok, require_eq_ok, exists_unit] at committed
      obtain ⟨_, -, _, -, _, -, -, committed⟩ := committed
      split at committed
      · exact Or.inl (refuseEffect_moves committed found known member unfinished proposed owner
          (by decide) place)
      · rename_i within
        simp only [bind_eq_ok, Prod.exists] at committed
        obtain ⟨toolCallId, tables, opened, committed⟩ := committed
        obtain ⟨toolCalls, rfl⟩ := openToolCall_aside opened
        have aside : Moves allowed t { t with toolCalls } :=
          Aside.moves ⟨t.sessions, toolCalls, rfl⟩
        split at committed
        · have refused : answer = none ∧ Moves allowed { t with toolCalls } t' :=
            refuseEffect_moves committed found known member unfinished proposed owner (by decide)
              place
          obtain ⟨none, moves⟩ := refused
          exact Or.inl ⟨none, aside.trans moves⟩
        · simp only [pure_eq_ok, Prod.mk.injEq] at committed
          obtain ⟨rfl, rfl⟩ := committed
          refine Or.inr ⟨_, effect, rfl, member, unfinished,
            Bool.eq_false_of_not_eq_true notCancelled, rfl, rfl, Nat.le_of_not_lt within, rfl,
            some toolCallId, some request.workerId,
            some (effectLeaseUntil later request.leaseSeconds proposal.expiresAt),
            fun allowed => ?_⟩
          refine Moves.step (.aside t.sessions toolCalls) ?_
          exact Moves.one (.proposalMoved (by exact proposed) .applying)

theorem claimEffectExecution_moves {request : EffectClaimRequest}
    {binding : Option EffectProvider} {resource : Except Fault BoundResource}
    {ids : EffectClaimIds} {later : Timestamp} {answer : Option ClaimedEffectExecution}
    (committed : claimEffectExecution features hash t request binding resource ids now later =
      .ok (answer, t')) :
    (answer = none ∧ Moves allowed t t') ∨
      ∃ claimed effect, answer = some claimed ∧ HandedOut hash t t' request claimed effect := by
  simp only [claimEffectExecution, bind_eq_ok, require_eq_ok, exists_unit, Prod.exists,
    orFault_eq_ok] at committed
  obtain ⟨-, effect, proposal, locked, run, lockedRun, segment, lockedSegment, committed⟩ :=
    committed
  obtain ⟨member, -, proposed, owner⟩ := lockEffect_eq_ok locked
  obtain ⟨found, -⟩ := lockRunRow_eq_some lockedRun
  obtain ⟨known, -⟩ := lockSegmentRow_eq_some lockedSegment
  split at committed
  · obtain ⟨rfl, rfl⟩ := Prod.mk.inj (Except.ok.inj committed)
    exact Or.inl ⟨rfl, Moves.refl t⟩
  · rename_i unfinished
    simp only [bind_eq_ok, exists_unit] at committed
    obtain ⟨-, committed⟩ := committed
    split at committed
    · obtain ⟨rfl, rfl⟩ := Prod.mk.inj (Except.ok.inj committed)
      exact Or.inl ⟨rfl, Moves.refl t⟩
    · split at committed
      · obtain ⟨rfl, rfl⟩ := Prod.mk.inj (Except.ok.inj committed)
        exact Or.inl ⟨rfl, Moves.refl t⟩
      · simp only [bind_eq_ok, require_eq_ok, exists_unit] at committed
        obtain ⟨placed, -, leased⟩ := committed
        refine leaseEffect_moves leased found known member
          (Bool.eq_false_of_not_eq_true unfinished) proposed owner fun notInline => ?_
        simpa [requireEffectPlace, notInline] using placed

theorem validateEffectLease_eq_ok
    {u : Unit}
    (valid : validateEffectLease hash effect claimed now = .ok u) :
    effect.id = claimed.effectExecutionId ∧ effect.status = .applying ∧
      effect.leaseTokenHash = some (hash claimed.leaseToken) := by
  rw [validateEffectLease, require_eq_ok] at valid
  exact ⟨valid.1, valid.2.1, valid.2.2.2⟩

theorem authorizeEffectStep_member {version : String}
    {actors snapshot : Except Fault Unit} {later : Timestamp}
    (authorized : authorizeEffectStep features hash t claimed version actors snapshot now later =
      .ok (effect, proposal)) : effect ∈ t.effects := by
  simp only [authorizeEffectStep, bind_eq_ok, exists_unit, orFault_eq_ok, require_eq_ok,
    pure_eq_ok, Prod.mk.injEq] at authorized
  obtain ⟨-, _, -, _, -, _, -, _, -, -, -, _, -, _, -, _, -, effect', foundEffect, _, -, _, -, -,
    -, -, -, -, -, rfl, -⟩ := authorized
  exact (find_key foundEffect).1

theorem heartbeatEffectExecution_moves {version : String}
    {leaseSeconds : Nat} {actors snapshot : Except Fault Unit} {later last until_ : Timestamp}
    (committed : heartbeatEffectExecution features hash t claimed version leaseSeconds actors
      snapshot now later last = .ok (until_, t')) : Moves allowed t t' := by
  simp only [heartbeatEffectExecution, bind_eq_ok, require_eq_ok, exists_unit, Prod.exists,
    pure_eq_ok, Prod.mk.injEq] at committed
  obtain ⟨-, -, effect, proposal, authorized, -, -, -, rfl⟩ := committed
  exact Moves.one (.effectRenewed (authorizeEffectStep_member authorized))

theorem recordOutcome_eq (call : ToolCall)
    (outcome : ProviderOutcome) (proposed : proposal ∈ t.proposals)
    (owner : proposal.id = effect.proposalId) :
    ∃ settled status toolCalls,
      recordOutcome t proposal effect call outcome =
        (settled, { proposal with status },
          { t with
            effects := replaceRow EffectExecution.id settled t.effects
            proposals := replaceRow ChangeProposal.id { proposal with status } t.proposals
            toolCalls }) ∧
      Settlement
        { t with
          proposals := replaceRow ChangeProposal.id { proposal with status } t.proposals
          toolCalls } effect settled ∧
      (outcome.failure ≠ none → settled.status ∈ [.stale, .verificationFailed, .failed]) := by
  cases outcome with
  | applied beforeRef afterRef =>
    exact ⟨_, .applied, _, rfl, .applied, fun failed => absurd rfl failed⟩
  | failed failure =>
    refine ⟨_, if failure.status = .stale then .stale else .failed, _, rfl, ?_,
      fun _ => failure.ended⟩
    generalize (if failure.status = .stale then ChangeProposalStatus.stale else .failed) =
      closed
    have written : { proposal with status := closed } ∈
        replaceRow ChangeProposal.id { proposal with status := closed } t.proposals :=
      mem_replaceRow_self proposed rfl
    exact .failed { proposal with status := closed } written owner failure.ended
      failure.unreserved

theorem finalizeEffectExecution_moves
    {outcome : ProviderOutcome} {segmentId : Uuid}
    (committed : finalizeEffectExecution hash t claimed outcome segmentId now =
      .ok (effect, t')) : Moves allowed t t' := by
  simp only [finalizeEffectExecution, bind_eq_ok, Prod.exists, orFault_eq_ok] at committed
  obtain ⟨effect, proposal, locked, run, lockedRun, segment, lockedSegment, committed⟩ :=
    committed
  obtain ⟨member, -, proposed, owner⟩ := lockEffect_eq_ok locked
  obtain ⟨found, -⟩ := lockRunRow_eq_some lockedRun
  obtain ⟨known, -⟩ := lockSegmentRow_eq_some lockedSegment
  split at committed
  · obtain ⟨-, rfl⟩ := Prod.mk.inj (Except.ok.inj committed)
    exact Moves.refl t
  · rename_i notFinished
    have unfinished := Bool.eq_false_of_not_eq_true notFinished
    simp only [bind_eq_ok, exists_unit, require_eq_ok, orFault_eq_ok] at committed
    obtain ⟨-, inline, -, place, call, -, committed⟩ := committed
    obtain ⟨settled, status, toolCalls, recorded, settlement, failed⟩ :=
      recordOutcome_eq call outcome proposed owner
    rw [recorded] at committed
    refine (written_moves proposed status toolCalls).trans (Moves.one ?_)
    split at committed
    · obtain ⟨-, rfl⟩ := Prod.mk.inj (Except.ok.inj committed)
      exact .effectSettled member unfinished settlement
    · rename_i outside
      have waiting := place.resolve_left outside
      simp only [bind_eq_ok, pure_eq_ok, Prod.mk.injEq] at committed
      obtain ⟨_, finished, -, rfl⟩ := committed
      obtain ⟨ending, -⟩ := finish_ending finished found waiting known
        (mem_replaceRow_self member settlement.id.1.symm) (mem_replaceRow_self proposed rfl) failed
      exact .concluded found waiting member unfinished settlement ending

theorem closeLeftEffect_moves
    (member : effect ∈ t.effects) (unfinished : effect.status.finished = false)
    (proposed : proposal ∈ t.proposals) (owner : proposal.id = effect.proposalId) :
    Moves allowed t (closeLeftEffect t proposal effect) := by
  obtain ⟨toolCalls, closed⟩ : ∃ toolCalls, closeLeftEffect t proposal effect =
      { t with
        effects := replaceRow EffectExecution.id
          { effect with
            status := .failed
            error := some (effectFailureRecord proposal.capability effect.provider
              effect.attemptNo "run_left_effect_waiting_state" false effect.error)
            workerId := none
            leaseTokenHash := none
            leaseExpiresAt := none } t.effects
        proposals := replaceRow ChangeProposal.id { proposal with status := .failed } t.proposals
        toolCalls } := by
    simp only [closeLeftEffect]
    split
    · obtain ⟨toolCalls, failing⟩ := failToolCall_aside (t := t) _
      exact ⟨toolCalls, failing _ rfl⟩
    · exact ⟨t.toolCalls, rfl⟩
  rw [closed]
  refine (written_moves proposed .failed toolCalls).trans (Moves.one ?_)
  have written : { proposal with status := .failed } ∈
      replaceRow ChangeProposal.id { proposal with status := .failed } t.proposals :=
    mem_replaceRow_self proposed rfl
  exact .effectSettled member unfinished
    (.failed { proposal with status := .failed } written owner (by simp) (by decide))

theorem redispatchEffect_moves
    (member : effect ∈ t.effects) (live : effect.status ∈ [.leased, .applying])
    (proposed : proposal ∈ t.proposals) (owner : proposal.id = effect.proposalId) :
    Moves allowed t (redispatchEffect t proposal effect) := by
  simp only [redispatchEffect]
  obtain ⟨toolCalls, failing⟩ := failToolCall_aside (t := t)
    { effect with
      status := .requested
      error := some (effectFailureRecord proposal.capability effect.provider effect.attemptNo
        "lease_expired" true effect.error)
      workerId := none
      leaseTokenHash := none
      leaseExpiresAt := none }
  rw [failing _ (by rfl)]
  refine (written_moves proposed .approved toolCalls).trans (Moves.one ?_)
  have written : { proposal with status := .approved } ∈
      replaceRow ChangeProposal.id { proposal with status := .approved } t.proposals :=
    mem_replaceRow_self proposed rfl
  exact .redispatched member live written owner (by decide) rfl

theorem recoverEffect_moves {maxAttempts : Nat}
    {candidate : EffectExecution × Uuid} {recovered : Bool}
    (committed : recoverEffect features maxAttempts now t candidate = .ok (recovered, t')) :
    Moves allowed t t' := by
  simp only [recoverEffect, bind_eq_ok, orFault_eq_ok, Prod.exists] at committed
  obtain ⟨observed, -, run, lockedRun, segment, lockedSegment, effect, proposal, locked,
    committed⟩ := committed
  obtain ⟨member, -, proposed, owner⟩ := lockEffect_eq_ok locked
  obtain ⟨found, -⟩ := lockRunRow_eq_some lockedRun
  obtain ⟨known, -⟩ := lockSegmentRow_eq_some lockedSegment
  split at committed
  · obtain ⟨-, rfl⟩ := Prod.mk.inj (Except.ok.inj committed)
    exact Moves.refl t
  · rename_i due
    have live : effect.status ∈ [.leased, .applying] := by
      by_contra notLive
      exact due (Or.inr (Or.inl notLive))
    have unfinished : effect.status.finished = false := by
      cases status : effect.status <;> simp_all [EffectExecutionStatus.finished]
    have close {status : EffectExecutionStatus} {code : String}
        (closed : (do return (true, ← closeEffectBeforeProvider t run segment proposal effect
          status code candidate.2 now)) = Except.ok (recovered, t'))
        (waiting : run.status = .waitingForApproval) (unreserved : code ≠ unknownEffectCode) :
        Moves allowed t t' := by
      simp only [bind_eq_ok, pure_eq_ok, Prod.mk.injEq] at closed
      obtain ⟨_, closed, -, rfl⟩ := closed
      have before : closeEffectBeforeProvider t run segment proposal
          { effect with toolCallId := effect.toolCallId } status code candidate.2 now = .ok _ :=
        closed
      exact closeEffectBeforeProvider_moves before found known member unfinished proposed owner
        unreserved fun _ => waiting
    split at committed
    · obtain ⟨-, rfl⟩ := Prod.mk.inj (Except.ok.inj committed)
      exact closeLeftEffect_moves member unfinished proposed owner
    · rename_i stillWaits
      have waiting := not_not.mp stillWaits
      split at committed
      · exact close committed waiting (by decide)
      · split at committed
        · exact close committed waiting (by decide)
        · split at committed
          · exact close committed waiting (by decide)
          · obtain ⟨-, rfl⟩ := Prod.mk.inj (Except.ok.inj committed)
            exact redispatchEffect_moves member live proposed owner

theorem recoverExpiredEffects_moves {limit maxAttempts count : Nat} {segmentIds : List Uuid}
    (kept : WellKept t)
    (committed : recoverExpiredEffects features t limit maxAttempts segmentIds now =
      .ok (count, t')) : Moves allowed t t' := by
  simp only [recoverExpiredEffects, bind_eq_ok, exists_unit] at committed
  exact recoverAll_moves (fun _ _ _ _ _ => recoverEffect_moves) kept committed.2

end Store

end SkillMind.Runs
