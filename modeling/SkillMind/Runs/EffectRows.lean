import SkillMind.Runs.TurnEndMoves

/-!
# How the executions of a Run evolve

Every move takes each execution one step further. A step keeps what an execution was created with,
never lowers its number of attempts, never leaves `applied`, and hands out no lease unless the
move is a claim. A record of an unknown outcome is kept until the execution is applied, unless the
move forgets it.
-/

namespace SkillMind.Runs

open Library Effects

/-- The proposal of the execution is carried out under supervision. -/
def Supervised (t : RunTables) (effect : EffectExecution) : Prop :=
  ∃ proposal ∈ t.proposals, proposal.id = effect.proposalId ∧
    (resolveEffectCapability proposal.capability).supportsSupervision effect.provider = true

/-- Only a supervised execution that was claimed has an unknown outcome. -/
def Accounted (t : RunTables) (effect : EffectExecution) : Prop :=
  effectRequiresReconciliation effect.error → Supervised t effect ∧ effect.attemptNo ≠ 0

/-! ## Steps of an execution -/

/-- The columns an execution keeps from its creation on. -/
def EffectExecution.frozen (effect : EffectExecution) : EffectExecution :=
  { effect with
    toolCallId := none
    status := .requested
    beforeRef := none
    afterRef := none
    error := none
    workerId := none
    leaseTokenHash := none
    leaseExpiresAt := none
    attemptNo := 0 }

structure EffectStep (allowed : Mark → Prop) (t : RunTables) (effect later : EffectExecution) :
    Prop where
  frozen : later.frozen = effect.frozen
  counted : effect.attemptNo ≤ later.attemptNo
  fenced : allowed .effectClaim ∨ (later.attemptNo = effect.attemptNo ∧
    (later.leaseTokenHash = effect.leaseTokenHash ∨ later.leaseTokenHash = none))
  applied : effect.status = .applied → later.status = .applied
  remembered : allowed .forgetting ∨ (Accounted t effect →
    effectRequiresReconciliation effect.error →
      effectRequiresReconciliation later.error ∨ later.status = .applied)
  supervised : effectRequiresReconciliation later.error →
    effectRequiresReconciliation effect.error ∨ (Supervised t effect ∧ later.attemptNo ≠ 0)

/-- An execution that was just created. -/
structure EffectFresh (effect : EffectExecution) : Prop where
  attemptNo : effect.attemptNo = 0
  unleased : effect.leaseTokenHash = none
  known : ¬ effectRequiresReconciliation effect.error

section Steps

variable {allowed : Mark → Prop} {t t' : RunTables} {effect later last : EffectExecution}

theorem frozen_id (same : later.frozen = effect.frozen) : later.id = effect.id :=
  (congrArg EffectExecution.id same :)

theorem frozen_supervised (same : later.frozen = effect.frozen)
    (supervised : Supervised t later) : Supervised t effect := by
  obtain ⟨proposal, known, owner, supports⟩ := supervised
  have provider : later.provider = effect.provider := (congrArg EffectExecution.provider same :)
  have place : later.proposalId = effect.proposalId :=
    (congrArg EffectExecution.proposalId same :)
  exact ⟨proposal, known, owner.trans place, provider ▸ supports⟩

theorem EffectStep.refl (effect : EffectExecution) : EffectStep allowed t effect effect where
  frozen := rfl
  counted := le_rfl
  fenced := Or.inr ⟨rfl, Or.inl rfl⟩
  applied := id
  remembered := Or.inr fun _ unknown => Or.inl unknown
  supervised := Or.inl

theorem EffectStep.accounted (step : EffectStep allowed t effect later)
    (accounted : Accounted t effect) : Accounted t later := by
  intro unknown
  rcases step.supervised unknown with before | ⟨supervised, claimed⟩
  · obtain ⟨supervised, claimed⟩ := accounted before
    have counted := step.counted
    exact ⟨frozen_supervised step.frozen.symm supervised, by omega⟩
  · exact ⟨frozen_supervised step.frozen.symm supervised, claimed⟩

theorem EffectStep.trans (first : EffectStep allowed t effect later)
    (second : EffectStep allowed t later last) : EffectStep allowed t effect last where
  frozen := second.frozen.trans first.frozen
  counted := first.counted.trans second.counted
  fenced := by
    rcases first.fenced with marked | ⟨same, token⟩
    · exact Or.inl marked
    · refine second.fenced.imp id fun ⟨same', token'⟩ => ⟨same'.trans same, ?_⟩
      rcases token' with kept | dropped
      · rwa [kept]
      · exact Or.inr dropped
  applied isApplied := second.applied (first.applied isApplied)
  remembered := by
    rcases first.remembered with marked | early
    · exact Or.inl marked
    · refine second.remembered.imp id fun late accounted unknown => ?_
      rcases early accounted unknown with still | isApplied
      · exact late (first.accounted accounted) still
      · exact Or.inr (second.applied isApplied)
  supervised unknown := by
    have counted := second.counted
    rcases second.supervised unknown with before | ⟨supervised, claimed⟩
    · refine (first.supervised before).imp id fun ⟨supervised, claimed⟩ => ⟨supervised, ?_⟩
      omega
    · exact Or.inr ⟨frozen_supervised first.frozen supervised, claimed⟩

theorem NewEffect.isFresh {proposalId : Uuid} (new : NewEffect t proposalId effect) :
    EffectFresh effect where
  attemptNo := new.attemptNo
  unleased := new.unleased
  known unknown := by
    rw [new.error] at unknown
    cases unknown

theorem failed_step (kept : WellKept t) {proposal : ChangeProposal}
    {code : String} {retryable : Bool} {diagnostic : Option McpDiagnostic}
    (known : proposal ∈ t.proposals) (owner : proposal.id = effect.proposalId)
    (unreserved : code ≠ unknownEffectCode)
    (unapplied : effect.status ≠ .applied) (frozen : later.frozen = effect.frozen)
    (number : later.attemptNo = effect.attemptNo) (unleased : later.leaseTokenHash = none)
    (error : later.error = some (effectFailureRecord proposal.capability effect.provider
      effect.attemptNo code retryable effect.error diagnostic)) :
    EffectStep allowed t effect later where
  frozen := frozen
  counted := number.ge
  fenced := Or.inr ⟨number, Or.inr unleased⟩
  applied isApplied := absurd isApplied unapplied
  remembered := by
    refine Or.inr fun accounted unknown => Or.inl ?_
    obtain ⟨⟨other, otherKnown, otherOwner, supports⟩, claimed⟩ := accounted unknown
    rw [kept.proposals.eq_of_key otherKnown known (otherOwner.trans owner.symm)] at supports
    rw [error]
    exact effectFailureRecord_keeps_unknown supports claimed unknown
  supervised unknown := by
    rw [error] at unknown
    obtain ⟨supports, claimed⟩ := effectFailureRecord_unknown unreserved unknown
    exact Or.inr ⟨⟨proposal, known, owner, supports⟩, number ▸ claimed⟩

theorem unapplied_of_unfinished (unfinished : effect.status.finished = false) :
    effect.status ≠ .applied := by
  intro isApplied
  rw [isApplied] at unfinished
  cases unfinished

theorem Settlement.step (kept : WellKept t) (unfinished : effect.status.finished = false)
    (settlement : Settlement t effect later) : EffectStep allowed t effect later := by
  have unapplied := unapplied_of_unfinished unfinished
  cases settlement with
  | applied =>
    exact
      { frozen := rfl
        counted := le_rfl
        fenced := Or.inr ⟨rfl, Or.inr rfl⟩
        applied := fun _ => rfl
        remembered := Or.inr fun _ _ => Or.inr rfl
        supervised := fun unknown => nomatch unknown }
  | failed proposal known owner ended unreserved =>
    exact failed_step kept known owner unreserved unapplied rfl rfl rfl rfl

theorem EffectStep.written (frozen : later.frozen = effect.frozen)
    (number : later.attemptNo = effect.attemptNo)
    (token : later.leaseTokenHash = effect.leaseTokenHash) (error : later.error = effect.error)
    (applied : effect.status = .applied → later.status = .applied) :
    EffectStep allowed t effect later where
  frozen := frozen
  counted := number.ge
  fenced := Or.inr ⟨number, Or.inl token⟩
  applied := applied
  remembered := Or.inr fun _ unknown => Or.inl (error ▸ unknown)
  supervised unknown := Or.inl (error ▸ unknown)

end Steps

section Moves

variable {allowed : Mark → Prop} {t t' : RunTables}

/-- Each execution takes a step, and new executions are fresh. -/
abbrev EffectsStep (allowed : Mark → Prop) (t t' : RunTables) : Prop :=
  Evolves (EffectStep allowed t) EffectFresh t.effects t'.effects

theorem effects_same (same : t'.effects = t.effects) : EffectsStep allowed t t' := by
  unfold EffectsStep
  rw [same]
  exact Evolves.refl EffectStep.refl t.effects

theorem effects_written (kept : WellKept t) {effect later : EffectExecution}
    (member : effect ∈ t.effects)
    (written : t'.effects = replaceRow EffectExecution.id later t.effects)
    (step : EffectStep allowed t effect later) :
    EffectsStep allowed t t' := by
  unfold EffectsStep
  rw [written]
  exact Evolves.replace kept.effects EffectStep.refl member (frozen_id step.frozen).symm step

theorem effects_added {effect : EffectExecution} {proposalId : Uuid}
    (new : NewEffect t proposalId effect) (written : t'.effects = t.effects ++ [effect]) :
    EffectsStep allowed t t' := by
  unfold EffectsStep
  rw [written]
  exact Evolves.add EffectStep.refl new.isFresh

theorem again_step {t : RunTables} {effect : EffectExecution}
    (failed : effect.status ∈ [.stale, .verificationFailed, .failed]) :
    EffectStep allowed t effect { effect with status := .requested, workerId := none } := by
  refine EffectStep.written rfl rfl rfl rfl fun isApplied => ?_
  simp [isApplied] at failed

theorem Ending.effects (ending : Ending t t') :
    t'.effects = t.effects ∨ ∃ effect ∈ t.effects,
      effect.status ∈ [.stale, .verificationFailed, .failed] ∧
        t'.effects = replaceRow EffectExecution.id
          { effect with status := .requested, workerId := none } t.effects := by
  cases ending with
  | stopped => exact Or.inl rfl
  | continued => exact Or.inl rfl
  | again found waiting calm member failed => exact Or.inr ⟨_, member, failed, rfl⟩

theorem runCancelled_known : ¬ effectRequiresReconciliation (some runCancelledError) := by
  decide

theorem RunMove.effects (kept : WellKept t) (move : RunMove allowed t t') :
    EffectsStep allowed t t' := by
  cases move with
  | proposedApproved suspends deferred newProposal new => exact effects_added new rfl
  | held turn running calm bare inline owner newProposal new => exact effects_added new rfl
  | approved proposal found waiting member isOpen known new => exact effects_added new rfl
  | detached turn running known inline owner written same after heard =>
    rcases after with ⟨-, rfl⟩ | ⟨-, ending⟩
    · exact effects_same rfl
    · rcases ending.effects with same | ⟨effect, member, failed, written⟩
      · exact effects_same same
      · exact effects_written kept member written (again_step failed)
  | effectLeased member unfinished calm marked =>
    refine effects_written kept member rfl ?_
    exact
      { frozen := rfl
        counted := Nat.le_succ _
        fenced := Or.inl marked
        applied := fun isApplied => absurd isApplied (unapplied_of_unfinished unfinished)
        remembered := Or.inr fun _ unknown => Or.inl unknown
        supervised := Or.inl }
  | effectRenewed member => exact effects_written kept member rfl (.written rfl rfl rfl rfl id)
  | effectSettled member unfinished settlement =>
    exact effects_written kept member rfl (settlement.step kept unfinished)
  | redispatched member live known owner unreserved written =>
    subst written
    refine effects_written kept member rfl ?_
    refine failed_step kept known owner unreserved (fun isApplied => ?_) rfl rfl rfl rfl
    simp [isApplied] at live
  | @concluded _ _ settledRow _ found waiting member unfinished settlement ending =>
    have settled : EffectStep allowed t _ settledRow := settlement.step kept unfinished
    have base := kept.effect_written member settlement.id.1 settlement.id.2
    have first : Evolves (EffectStep allowed t) (fun _ => False) t.effects _ :=
      Evolves.replace kept.effects EffectStep.refl member (frozen_id settled.frozen).symm settled
    have second : Evolves (EffectStep allowed t) (fun _ => False)
        (replaceRow EffectExecution.id settledRow t.effects) t'.effects := by
      rcases ending.effects with same | ⟨failing, member', failed, written⟩
      · rw [same]
        exact Evolves.refl EffectStep.refl _
      · rw [written]
        exact Evolves.replace base.effects EffectStep.refl member' rfl (again_step failed)
    have steps : ∀ r r' r'', EffectStep allowed t r r' → EffectStep allowed t r' r'' →
        EffectStep allowed t r r'' := fun _ _ _ => EffectStep.trans
    have both := Evolves.trans steps (fun _ _ never _ => never) first second
    exact both.mono (fun _ _ => id) fun _ => False.elim
  | cancelled found waiting latest unheld remembered =>
    refine Evolves.map fun effect member => ?_
    split
    · rename_i requested
      have unapplied : effect.status ≠ .applied := by simp [requested]
      exact
        { frozen := rfl
          counted := le_rfl
          fenced := Or.inr ⟨rfl, Or.inl rfl⟩
          applied := fun isApplied => absurd isApplied unapplied
          remembered := by
            by_cases unknown : effectRequiresReconciliation effect.error
            · exact Or.inl (remembered ⟨effect, member, requested, unknown⟩)
            · exact Or.inr fun _ isUnknown => absurd isUnknown unknown
          supervised := fun unknown => absurd unknown runCancelled_known }
    · exact EffectStep.refl effect
  | released types turn held own inactive targets wins later written posted =>
    subst written
    rcases posted with ⟨-, reason, rfl⟩ | ⟨-, rfl⟩ <;> exact effects_same rfl
  | _ => exact effects_same rfl

end Moves

end SkillMind.Runs
