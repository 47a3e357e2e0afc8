import SkillMind.Runs.EffectFencing

/-!
# Unknown outcomes are remembered

An external write may have happened although no answer arrived; its record then asks for a
reconciliation. Retries, recoveries and refusals keep the record, and only an applied execution
drops it. One transaction forgets it: a cancellation that closes a requested execution overwrites
the record. Without such a cancellation the record survives every run, and the original write can
still be loaded for its reconciliation.
-/

namespace SkillMind.Runs

open Library Effects

variable {settings : RunSettings} {allowed : Mark → Prop} {t t' : RunTables}

theorem Supervised.frame {effect : EffectExecution} (frame : Frame t t')
    (supervised : Supervised t effect) : Supervised t' effect := by
  obtain ⟨proposal, known, owner, supports⟩ := supervised
  obtain ⟨later, laterKnown, step⟩ := frame.proposals.forward known
  have id : later.id = proposal.id := (congrArg ChangeProposal.id step.same :)
  have capability : later.capability = proposal.capability :=
    (congrArg ChangeProposal.capability step.same :)
  exact ⟨later, laterKnown, id.trans owner, capability ▸ supports⟩

def AllAccounted (t : RunTables) : Prop := ∀ effect ∈ t.effects, Accounted t effect

theorem RunMove.allAccounted (kept : WellKept t) (move : RunMove allowed t t')
    (accounted : AllAccounted t) : AllAccounted t' := by
  intro effect member unknown
  rcases (move.effects kept).backward member with ⟨before, beforeMem, step⟩ | fresh
  · obtain ⟨supervised, claimed⟩ := step.accounted (accounted before beforeMem) unknown
    exact ⟨supervised.frame (move.frame kept), claimed⟩
  · exact absurd unknown fresh.known

/-- The execution is still unknown, or it is applied. -/
def Remembered (original effect : EffectExecution) : Prop :=
  effect.frozen = original.frozen ∧ original.attemptNo ≤ effect.attemptNo ∧
    (effectRequiresReconciliation effect.error ∨ effect.status = .applied)

/-- What is known of an unknown execution in every later state. -/
structure Followed (start : RunTables) (original : EffectExecution) (t : RunTables) : Prop where
  kept : WellKept t
  accounted : AllAccounted t
  frame : Frame start t
  remembered : ∃ effect ∈ t.effects, Remembered original effect

theorem Moves.followed {start : RunTables} {original : EffectExecution}
    (moves : Moves allowed t t') (remembers : ¬ allowed .forgetting)
    (followed : Followed start original t) : Followed start original t' := by
  induction moves with
  | refl => exact followed
  | tail _ move ih =>
    obtain ⟨effect, member, same, counted, still⟩ := ih.remembered
    obtain ⟨later, laterMem, step⟩ := (move.effects ih.kept).forward member
    refine ⟨move.wellKept ih.kept, move.allAccounted ih.kept ih.accounted,
      ih.frame.trans (move.frame ih.kept), later, laterMem, step.frozen.trans same,
      counted.trans step.counted, ?_⟩
    rcases still with unknown | isApplied
    · exact step.remembered.resolve_left remembers (ih.accounted effect member) unknown
    · exact Or.inr (step.applied isApplied)

theorem Run.eq_of_frozen {run later : Run} (same : later.frozen = run.frozen) :
    ∃ status rowVersion startedAt finishedAt error,
      later = { run with status, rowVersion, startedAt, finishedAt, error } := by
  refine ⟨later.status, later.rowVersion, later.startedAt, later.finishedAt, later.error, ?_⟩
  cases run
  cases later
  simp only [frozen, Run.mk.injEq] at same ⊢
  simp_all

theorem ChangeProposal.eq_of_frozen {proposal later : ChangeProposal}
    (same : later.frozen = proposal.frozen) :
    ∃ inlineOwner status, later = { proposal with inlineOwner, status } := by
  refine ⟨later.inlineOwner, later.status, ?_⟩
  cases proposal
  cases later
  simp only [frozen, ChangeProposal.mk.injEq] at same ⊢
  simp_all

theorem EffectExecution.eq_of_frozen {effect later : EffectExecution}
    (same : later.frozen = effect.frozen) :
    ∃ toolCallId status beforeRef afterRef workerId leaseTokenHash leaseExpiresAt,
      later = { effect with
        toolCallId, status, beforeRef, afterRef, workerId, leaseTokenHash, leaseExpiresAt
        error := later.error
        attemptNo := later.attemptNo } := by
  refine ⟨later.toolCallId, later.status, later.beforeRef, later.afterRef, later.workerId,
    later.leaseTokenHash, later.leaseExpiresAt, ?_⟩
  cases effect
  cases later
  simp only [frozen, EffectExecution.mk.injEq] at same ⊢
  simp_all

/-- The original write of an execution can be loaded for its reconciliation. -/
def CanReconcile (t : RunTables) (projectId runId effectId : Uuid)
    (resource : Except Fault BoundResource) : Prop :=
  ∃ target, loadEffectReconciliationTarget t projectId runId effectId resource = .ok target

theorem CanReconcile.later {projectId runId : Uuid} {resource : Except Fault BoundResource}
    {original effect : EffectExecution} (kept : WellKept t) (kept' : WellKept t')
    (frame : Frame t t') (known : original ∈ t.effects) (member : effect ∈ t'.effects)
    (same : effect.frozen = original.frozen) (counted : original.attemptNo ≤ effect.attemptNo)
    (unknown : effectRequiresReconciliation effect.error)
    (loaded : CanReconcile t projectId runId original.id resource) :
    CanReconcile t' projectId runId original.id resource := by
  obtain ⟨target, loaded⟩ := loaded
  simp only [loadEffectReconciliationTarget, bind_eq_ok, orFault_eq_ok, require_eq_ok,
    exists_unit] at loaded
  obtain ⟨run, locked, found, foundEffect, proposal, foundProposal, ⟨project, ofRun, awaits⟩,
    approval, foundApproval, approved, approves, agrees, bound, isBound, -⟩ := loaded
  obtain ⟨present, matching⟩ := Option.filter_eq_some_iff.mp locked
  have sameEffect := (of_decide_eq_true (List.find?_some foundEffect :)).1
  obtain rfl := kept.effects.eq_of_key (List.mem_of_find?_eq_some foundEffect) known sameEffect
  obtain ⟨proposalMem, owner⟩ := find_key foundProposal
  obtain ⟨run', present', sameRun⟩ := frame.run run present
  obtain ⟨proposal', proposalMem', step⟩ := frame.proposals.forward proposalMem
  obtain ⟨more, approvals⟩ := frame.approvals
  obtain ⟨status, rowVersion, startedAt, finishedAt, error, rfl⟩ := Run.eq_of_frozen sameRun
  obtain ⟨inlineOwner, proposalStatus, rfl⟩ := ChangeProposal.eq_of_frozen step.same
  obtain ⟨_, _, _, _, _, _, _, isEffect⟩ := EffectExecution.eq_of_frozen same
  have ofProposal : effect.proposalId = found.proposalId := by rw [isEffect]
  have ofRun' : effect.runId = found.runId := by rw [isEffect]
  have provider : effect.provider = found.provider := by rw [isEffect]
  have agrees' : effect.providerVersion = found.providerVersion ∧
      effect.idempotencyKey = found.idempotencyKey ∧
      effect.requestFingerprint = found.requestFingerprint ∧
      effect.approvalId = found.approvalId ∧ effect.id = found.id := by
    rw [isEffect]
    exact ⟨rfl, rfl, rfl, rfl, rfl⟩
  obtain ⟨version, idempotency, fingerprint, approvalId, sameId⟩ := agrees'
  refine ⟨(effect, { proposal with inlineOwner, status := proposalStatus }, bound), ?_⟩
  simp only [loadEffectReconciliationTarget, bind_eq_ok, orFault_eq_ok, require_eq_ok,
    exists_unit, pure_eq_ok]
  refine ⟨_, Option.filter_eq_some_iff.mpr ⟨present', matching⟩, effect, ?_,
    { proposal with inlineOwner, status := proposalStatus }, ?_,
    ⟨project, ofRun, awaits.1.trans counted, unknown⟩, approval, ?_, approved, ?_, ?_, bound,
    isBound, rfl⟩
  · have placed := (of_decide_eq_true (List.find?_some foundEffect :)).2
    refine kept'.effects.find_of member (decide_eq_true ⟨sameId, ofRun'.trans placed⟩) ?_
    exact fun other holds => (of_decide_eq_true holds).1.trans sameId.symm
  · refine kept'.proposals.find_eq proposalMem' ?_
    rw [ofProposal]
    exact owner
  · rw [← approvals, List.find?_append, approvalId, foundApproval]
    rfl
  · rw [provider]
    exact approves
  · rw [provider, version, idempotency, fingerprint]
    exact agrees

theorem allAccounted_invariant :
    (runStore settings).Invariant fun t => WellKept t ∧ AllAccounted t := by
  rintro t action answer t' ⟨kept, accounted⟩ committed
  have moves : Moves (fun _ => True) t t' := execRun_moves kept (fun _ _ => trivial) committed
  clear committed
  induction moves with
  | refl => exact ⟨kept, accounted⟩
  | tail _ move ih => exact ⟨move.wellKept ih.1, move.allAccounted ih.1 ih.2⟩

theorem accounted_run (settings : RunSettings) (actions : List RunAction) :
    WellKept ((runStore settings).run RunTables.empty actions) ∧
      AllAccounted ((runStore settings).run RunTables.empty actions) :=
  allAccounted_invariant.run ⟨wellKept_empty, fun _ mem => nomatch mem⟩ actions

/-- **Unknown outcomes are remembered** in every run without a cancellation that forgets them:
an unknown execution stays unknown until it is applied, and its original write can still be
loaded for the reconciliation. -/
theorem unknown_outcomes_kept (before later : List RunAction)
    (remembers : (runStore settings).Along (fun t action => ¬ action.bears t .forgetting)
      ((runStore settings).run RunTables.empty before) later) :
    ∀ effect ∈ ((runStore settings).run RunTables.empty before).effects,
      effectRequiresReconciliation effect.error →
      ∃ effect' ∈ ((runStore settings).run RunTables.empty (before ++ later)).effects,
        effect'.id = effect.id ∧
        (effect'.status = .applied ∨
          (effectRequiresReconciliation effect'.error ∧
            ∀ projectId runId resource,
              CanReconcile ((runStore settings).run RunTables.empty before) projectId runId
                effect.id resource →
              CanReconcile ((runStore settings).run RunTables.empty (before ++ later)) projectId
                runId effect.id resource)) := by
  intro effect member unknown
  obtain ⟨kept, accounted⟩ := accounted_run settings before
  have followed : Followed ((runStore settings).run RunTables.empty before) effect
      ((runStore settings).run RunTables.empty (before ++ later)) := by
    rw [TransactionSystem.run_append]
    refine (runStore settings).run_of_along (fun t action answer t' followed meets committed => ?_)
      ⟨kept, accounted, Frame.refl _, effect, member, rfl, le_rfl, Or.inl unknown⟩ remembers
    have moves : Moves (fun mark => mark ≠ .forgetting) t t' := by
      refine execRun_moves followed.kept (fun mark bears => ?_) committed
      rintro rfl
      exact meets bears
    exact moves.followed (fun marked => marked rfl) followed
  obtain ⟨effect', member', same, counted, still⟩ := followed.remembered
  refine ⟨effect', member', frozen_id same, ?_⟩
  rcases still with stillUnknown | isApplied
  · refine Or.inr ⟨stillUnknown, fun projectId runId resource loaded => ?_⟩
    exact loaded.later kept followed.kept followed.frame member member' same counted stillUnknown
  · exact Or.inl isApplied

/-- The write whose worker was lost is unknown, and its Run is cancelled. -/
def sampleForgotten : List RunAction := sampleLostWrite ++ [.requestCancellation 1 200]

/-- The cancellation overwrites the record of the unknown outcome: the execution is neither
applied nor unknown, and its original write is no longer loaded. -/
theorem unknown_outcome_forgotten :
    ∃ effect ∈ ((runStore sampleSettings).run RunTables.empty sampleLostWrite).effects,
      effectRequiresReconciliation effect.error ∧
      ∀ effect' ∈ ((runStore sampleSettings).run RunTables.empty sampleForgotten).effects,
        effect'.id = effect.id →
          ¬ effectRequiresReconciliation effect'.error ∧ effect'.status ≠ .applied := by
  decide

/-- Without the cancellation the lost write is still unknown after it is claimed again. -/
theorem unknown_outcomes_kept_sample :
    ∃ effect ∈ ((runStore sampleSettings).run RunTables.empty sampleLostWrite).effects,
      effectRequiresReconciliation effect.error ∧
      ∃ effect' ∈ ((runStore sampleSettings).run RunTables.empty
          (sampleLostWrite ++ [sampleEffectClaim "u" 10 none 82 200])).effects,
        effect'.id = effect.id ∧
          (effect'.status = .applied ∨ effectRequiresReconciliation effect'.error) := by
  obtain ⟨effect, member, unknown⟩ :
      ∃ effect ∈ ((runStore sampleSettings).run RunTables.empty sampleLostWrite).effects,
        effectRequiresReconciliation effect.error := by
    decide
  obtain ⟨effect', member', same, still⟩ := unknown_outcomes_kept sampleLostWrite
    [sampleEffectClaim "u" 10 none 82 200] ⟨id, trivial⟩ effect member unknown
  exact ⟨effect, member, unknown, effect', member', same, still.imp id And.left⟩

end SkillMind.Runs
