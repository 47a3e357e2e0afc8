import SkillMind.Library.Fencing
import SkillMind.Runs.RunRefinement

/-!
# Effect attempts are fenced

A worker may call a provider only under a claim of the execution, and each claim takes the next
attempt. The claims a run hands out and the executions it leaves are fenced, so that only the
latest claim of an execution can renew or finalize it, whatever the workers do and however late
they finish.
-/

namespace SkillMind.Runs

open Library Effects

/-- The claim a transaction hands out, with its request. -/
def effectClaimOf : RunAction × RunAnswer → Option (EffectClaimRequest × ClaimedEffectExecution)
  | (.claimEffectExecution request .., .effectClaimed (some claimed)) => some (request, claimed)
  | _ => none

def effectClaims (answers : List (RunAction × RunAnswer)) :
    List (EffectClaimRequest × ClaimedEffectExecution) :=
  answers.filterMap effectClaimOf

/-- How executions and their claims are fenced: by the digest of the lease token. -/
def effectFencing (hash : String → String) :
    Fencing EffectExecution (EffectClaimRequest × ClaimedEffectExecution) Uuid String where
  key := EffectExecution.id
  counter := EffectExecution.attemptNo
  sealed := EffectExecution.leaseTokenHash
  target claim := claim.2.effectExecutionId
  number claim := claim.2.attemptNo
  sealOf claim := hash claim.2.leaseToken

variable {settings : RunSettings} {hash : String → String} {t t' : RunTables}

/-- No claim is allowed. -/
def unclaiming (mark : Mark) : Prop := mark ≠ .effectClaim

theorem EffectStep.kept {effect later : EffectExecution}
    (step : EffectStep unclaiming t effect later) : (effectFencing hash).Kept effect later := by
  obtain ⟨number, token⟩ := step.fenced.resolve_left fun marked => marked rfl
  exact ⟨frozen_id step.frozen, number, token⟩

theorem Moves.fenced {claims : List (EffectClaimRequest × ClaimedEffectExecution)}
    (moves : Moves unclaiming t t') (kept : WellKept t)
    (fenced : Fenced (effectFencing hash) claims t.effects) :
    Fenced (effectFencing hash) claims t'.effects := by
  induction moves with
  | refl => exact fenced
  | tail before move ih =>
    have step := move.effects (Moves.wellKept before kept)
    exact ih.evolve (step.mono (fun _ _ => EffectStep.kept) fun _ fresh => fresh.unleased)

theorem execRun_claims {action : RunAction} {answer : RunAnswer} (kept : WellKept t)
    (committed : execRun settings action t = .ok (answer, t')) :
    (effectClaimOf (action, answer) = none ∧ Moves unclaiming t t') ∨
      ∃ request claimed effect, effectClaimOf (action, answer) = some (request, claimed) ∧
        HandedOut settings.leaseTokenHash t t' request claimed effect := by
  cases action with
  | claimEffectExecution request binding resource ids now later =>
    simp only [execRun, answering_eq_ok] at committed
    obtain ⟨claimed, committed, rfl⟩ := committed
    rcases claimEffectExecution_moves committed with ⟨rfl, moves⟩ | ⟨claimed, effect, rfl, handed⟩
    · exact Or.inl ⟨rfl, moves⟩
    · exact Or.inr ⟨request, claimed, effect, rfl, handed⟩
  | _ =>
    refine Or.inl ⟨rfl, execRun_moves kept (fun mark bears => ?_) committed⟩
    rintro rfl
    revert bears
    simp [RunAction.bears]

theorem HandedOut.fenced {claims : List (EffectClaimRequest × ClaimedEffectExecution)}
    {request : EffectClaimRequest} {claimed : ClaimedEffectExecution} {effect : EffectExecution}
    (handed : HandedOut hash t t' request claimed effect) (kept : WellKept t)
    (fenced : Fenced (effectFencing hash) claims t.effects) :
    Fenced (effectFencing hash) (claims ++ [(request, claimed)]) t'.effects := by
  obtain ⟨toolCallId, workerId, expiry, moves⟩ := handed.moves
  have target : (effectFencing hash).target (request, claimed) =
      (effectFencing hash).key effect := handed.execution
  refine (moves unclaiming).fenced (kept.effect_written handed.member) ?_
  show Fenced _ _ (replaceRow (effectFencing hash).key
    (effect.heldBy hash claimed toolCallId workerId expiry) t.effects)
  exact fenced.claim kept.effects handed.member target rfl handed.attempt rfl rfl

/-- The claims and the rows after a run. -/
structure ClaimsFenced (hash : String → String) (log : List (RunAction × RunAnswer))
    (t : RunTables) : Prop where
  kept : WellKept t
  fenced : Fenced (effectFencing hash) (effectClaims log) t.effects
  limited : ∀ claim ∈ effectClaims log, claim.2.attemptNo ≤ claim.1.maxAttempts ∧
    claim.2.leaseToken = claim.1.leaseToken

theorem claims_fenced (actions : List RunAction) :
    ClaimsFenced settings.leaseTokenHash
      ((runStore settings).answers RunTables.empty actions)
      ((runStore settings).run RunTables.empty actions) := by
  have nothing : ClaimsFenced settings.leaseTokenHash [] RunTables.empty :=
    ⟨wellKept_empty, Fenced.empty fun _ mem => (nomatch mem), fun _ mem => (nomatch mem)⟩
  refine TransactionSystem.history (fun log t action answer t' before committed => ?_) nothing
    actions
  obtain ⟨kept, fenced, limited⟩ := before
  have after := wellKept_invariant t action answer t' kept committed
  rcases execRun_claims kept committed with ⟨none, moves⟩ | ⟨request, claimed, effect, one, handed⟩
  · have same : effectClaims (log ++ [(action, answer)]) = effectClaims log := by
      simp [effectClaims, none]
    rw [← same] at fenced limited
    exact ⟨after, moves.fenced kept fenced, limited⟩
  · have claims : effectClaims (log ++ [(action, answer)]) =
        effectClaims log ++ [(request, claimed)] := by
      simp [effectClaims, one]
    refine ⟨after, claims ▸ handed.fenced kept fenced, fun claim mem => ?_⟩
    rw [claims] at mem
    rcases List.mem_append.mp mem with old | new
    · exact limited claim old
    · rw [List.mem_singleton.mp new]
      exact ⟨handed.limit, handed.token⟩

theorem finalizeEffectExecution_holds {claimed : ClaimedEffectExecution}
    {outcome : ProviderOutcome} {segmentId : Uuid} {now : Timestamp} {effect : EffectExecution}
    (committed : finalizeEffectExecution hash t claimed outcome segmentId now =
      .ok (effect, t')) :
    t' = t ∨ ∃ effect ∈ t.effects, effect.id = claimed.effectExecutionId ∧
      effect.leaseTokenHash = some (hash claimed.leaseToken) := by
  simp only [finalizeEffectExecution, bind_eq_ok, Prod.exists, orFault_eq_ok] at committed
  obtain ⟨effect, _, locked, _, -, _, -, committed⟩ := committed
  obtain ⟨member, same, -⟩ := lockEffect_eq_ok locked
  split at committed
  · obtain ⟨-, rfl⟩ := Prod.mk.inj (Except.ok.inj committed)
    exact Or.inl rfl
  · simp only [bind_eq_ok, exists_unit] at committed
    obtain ⟨-, -, token⟩ := validateEffectLease_eq_ok committed.1
    exact Or.inr ⟨effect, member, same, token⟩

theorem applied_invariant (effectId : Uuid) :
    (runStore settings).Invariant fun t => WellKept t ∧
      ∃ effect ∈ t.effects, effect.id = effectId ∧ effect.status = .applied := by
  rintro t action answer t' ⟨kept, applied⟩ committed
  refine ⟨wellKept_invariant t action answer t' kept committed, ?_⟩
  have moves : Moves (fun _ => True) t t' := execRun_moves kept (fun _ _ => trivial) committed
  clear committed
  induction moves with
  | refl => exact applied
  | tail before move ih =>
    obtain ⟨effect, member, same, isApplied⟩ := ih
    obtain ⟨later, laterMem, step⟩ :=
      (move.effects (Moves.wellKept before kept)).forward member
    exact ⟨later, laterMem, (frozen_id step.frozen).trans same, step.applied isApplied⟩

def IsLatest (claims : List (EffectClaimRequest × ClaimedEffectExecution))
    (claim : EffectClaimRequest × ClaimedEffectExecution) : Prop :=
  claim ∈ claims ∧ ∀ other ∈ claims,
    other.2.effectExecutionId = claim.2.effectExecutionId → other.2.attemptNo ≤ claim.2.attemptNo

theorem ClaimsFenced.holder {log : List (RunAction × RunAnswer)}
    (fenced : ClaimsFenced hash log t) (injective : Function.Injective hash)
    {effect : EffectExecution} (member : effect ∈ t.effects) {token : String}
    (leased : effect.leaseTokenHash = some (hash token)) :
    ∃ last, IsLatest (effectClaims log) last ∧ last.2.effectExecutionId = effect.id ∧
      last.2.leaseToken = token := by
  obtain ⟨last, lastMem, target, same, latest⟩ :=
    fenced.fenced.holder fenced.kept.effects member leased
  refine ⟨last, ⟨lastMem, fun other otherMem sameTarget => ?_⟩, target, injective same⟩
  exact latest other otherMem (sameTarget.trans target)

/-- **Effect attempts are fenced.**  In every state of every run, and for the claims handed out
so far: the attempts of one execution increase and respect the limit; one claim at most passes
the check of its lease; a finalization that changes anything is by the holder of the latest
claim; a rejected transaction changes nothing; an applied execution stays applied; and attempt
one is handed out at most once. -/
theorem effect_attempts_fenced (injective : Function.Injective settings.leaseTokenHash)
    (actions : List RunAction)
    (distinct : ((effectClaims ((runStore settings).answers RunTables.empty actions)).map
      fun claim => claim.1.leaseToken).Nodup) :
    let store := runStore settings
    let t := store.run RunTables.empty actions
    let claims := effectClaims (store.answers RunTables.empty actions)
    (∀ effectId, ((claims.filter fun claim => claim.2.effectExecutionId = effectId).map
      fun claim => claim.2.attemptNo).Pairwise (· < ·)) ∧
    (∀ claim ∈ claims, claim.2.attemptNo ≤ claim.1.maxAttempts) ∧
    (∀ effect ∈ t.effects, ∀ first ∈ claims, ∀ second ∈ claims, ∀ now,
      validateEffectLease settings.leaseTokenHash effect first.2 now = .ok () →
      validateEffectLease settings.leaseTokenHash effect second.2 now = .ok () →
      first = second) ∧
    (∀ claimed outcome segmentId now,
      store.step t (.finalizeEffectExecution claimed outcome segmentId now) ≠ t →
      ∃ last, IsLatest claims last ∧ last.2.effectExecutionId = claimed.effectExecutionId ∧
        last.2.leaseToken = claimed.leaseToken) ∧
    (∀ action fault, store.exec action t = .error fault → store.step t action = t) ∧
    (∀ effect ∈ t.effects, effect.status = .applied → ∀ later,
      ∃ effect' ∈ (store.run t later).effects,
        effect'.id = effect.id ∧ effect'.status = .applied) ∧
    (∀ effectId, claims.countP
      (fun claim => claim.2.effectExecutionId = effectId ∧ claim.2.attemptNo = 1) ≤ 1) := by
  intro store t claims
  have fenced : ClaimsFenced settings.leaseTokenHash (store.answers RunTables.empty actions) t :=
    claims_fenced actions
  refine ⟨fenced.fenced.numbers, fun claim mem => (fenced.limited claim mem).1, ?_, ?_,
    fun action fault => store.step_of_fault, ?_, fun effectId => fenced.fenced.once effectId 1⟩
  · intro effect member first firstMem second secondMem now firstValid secondValid
    obtain ⟨-, -, firstToken⟩ := validateEffectLease_eq_ok firstValid
    obtain ⟨-, -, secondToken⟩ := validateEffectLease_eq_ok secondValid
    have same : first.2.leaseToken = second.2.leaseToken :=
      injective (Option.some.inj (firstToken.symm.trans secondToken))
    rw [(fenced.limited first firstMem).2, (fenced.limited second secondMem).2] at same
    exact List.inj_on_of_nodup_map distinct firstMem secondMem same
  · intro claimed outcome segmentId now changed
    cases outcome' : store.exec (.finalizeEffectExecution claimed outcome segmentId now) t with
    | error fault => exact absurd (store.step_of_fault outcome') changed
    | ok result =>
      obtain ⟨answer, t'⟩ := result
      rw [store.step_of_commit outcome'] at changed
      simp only [store, runStore, execRun, answering_eq_ok] at outcome'
      obtain ⟨_, committed, -⟩ := outcome'
      rcases finalizeEffectExecution_holds committed with same | ⟨effect, member, same, leased⟩
      · exact absurd same changed
      · obtain ⟨last, latest, target, token⟩ := fenced.holder injective member leased
        exact ⟨last, latest, target.trans same, token⟩
  · intro effect member isApplied later
    exact ((applied_invariant effect.id).run ⟨fenced.kept, effect, member, rfl, isApplied⟩
      later).2

/-- A Run with the consent of its user, on a deployment that writes to databases. -/
def sampleSettings : RunSettings := ⟨{ databaseWrites := true, deferred := true }, id⟩

def sampleCreation : RunAction :=
  .createIdempotent ⟨7, some 5, ⟨10, none⟩, some ⟨5, true, false, false, true⟩⟩ 1 2

def sampleRunClaim (token : String) (attemptId : Uuid) : RunAction :=
  .claimForExecution ⟨1, "worker", token, 1000, 3, none⟩ (.ok ()) attemptId 100

/-- The claim of the sample Run's attempt on a segment. -/
def issuedClaim (token : String) (attemptId segmentId : Uuid) (rowVersion segmentNo : Nat) :
    IssuedClaim :=
  ⟨⟨1, attemptId, 7, 5, 1, token, 1000, rowVersion, some segmentId, segmentNo, .initial, none,
    none, none⟩, by simp⟩

def firstClaim : IssuedClaim := issuedClaim "a" 10 2 2 1

def sampleDraft : ChangeProposalDraft := ⟨.sqlWrite, "SQL", .resume, "key", "fp", "sum", 500⟩

/-- The Run is created, claimed and prepared, and its session starts. -/
def sampleTurn : List RunAction :=
  [ sampleCreation
  , sampleRunClaim "a" 10
  , .prepareExecution firstClaim 100
  , .appendAgentEvent firstClaim ⟨1, 10, 30, 5, .sessionStarted, none, none⟩ .primary 40 100 ]

def sampleEffectClaim (token : String) (leaseSeconds : Nat) (parent : Option ClaimedRun)
    (toolCallId : Uuid) (now : Timestamp) : RunAction :=
  .claimEffectExecution ⟨63, "worker", token, leaseSeconds, 3, parent⟩ (some .postgres)
    (.ok ⟨50, some 51, .postgres⟩) ⟨toolCallId, 81⟩ now now

def sampleLostWrite : List RunAction :=
  sampleTurn ++
    [ .suspendForProposal firstClaim
        (.deferred ⟨1, 10, 30, 6, .changeProposed, none, none⟩ (some .primary)) sampleDraft
        (.ok ⟨50, some 51, .postgres⟩) (.ok ()) (.ok ()) none "rh" ⟨60, 61, 62, 63, 64⟩ 100 100
    , sampleEffectClaim "t" 10 none 80 100
    , .recoverExpiredEffects 5 3 [90] 200 ]

/-- Two claims are handed out for the write, and only one of them is the first attempt. -/
theorem effect_attempts_fenced_sample :
    (effectClaims ((runStore sampleSettings).answers RunTables.empty
        (sampleLostWrite ++ [sampleEffectClaim "u" 10 none 82 200]))).map
        (fun claim => claim.2.attemptNo) = [1, 2] ∧
      (effectClaims ((runStore sampleSettings).answers RunTables.empty
        (sampleLostWrite ++ [sampleEffectClaim "u" 10 none 82 200]))).countP
        (fun claim => claim.2.effectExecutionId = 63 ∧ claim.2.attemptNo = 1) ≤ 1 := by
  refine ⟨by decide, ?_⟩
  exact (@effect_attempts_fenced sampleSettings Function.injective_id
    (sampleLostWrite ++ [sampleEffectClaim "u" 10 none 82 200])
    (by decide)).2.2.2.2.2.2 63

end SkillMind.Runs
