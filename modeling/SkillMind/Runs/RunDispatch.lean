import SkillMind.Runs.RunTrail

/-!
# No work is stranded

A Run in the queue and an execution that waits for a worker are only found by a worker that was
sent a message. Every move that leaves one of them waiting writes the message, with the exception
of the plain status change into a queue, which writes none by design.
-/

namespace SkillMind.Runs

open Library Effects

variable {settings : RunSettings} {allowed : Mark → Prop} {t t' t'' base : RunTables} {run : Run}

/-! ## Waiting for a worker -/

/-- The execution is requested, and no running turn drives it. -/
def awaitsWorker (t : RunTables) (effect : EffectExecution) : Prop :=
  effect.status = .requested ∧
    ∀ proposal ∈ t.proposals, proposal.id = effect.proposalId → proposal.activeInline = false

/-- Whatever waits after the step waited before it or is named by one of the messages. -/
structure Dispatched (t t' : RunTables) (added : List OutboxMessage) : Prop where
  runs : ∀ run' ∈ t'.run, run'.status.queues →
    (∃ run ∈ t.run, run.id = run'.id ∧ run.status = run'.status ∧
      run.rowVersion = run'.rowVersion) ∨
      ∃ reason, .runDispatchRequested run'.id reason ∈ added
  effects : ∀ effect ∈ t'.effects, awaitsWorker t' effect →
    (∃ before ∈ t.effects, before.frozen = effect.frozen ∧ awaitsWorker t before) ∨
      .effectApplyRequested effect.id effect.proposalId effect.runId ∈ added

def Dispatches (t t' : RunTables) : Prop :=
  ∃ added, t'.outbox = t.outbox ++ added ∧ Dispatched t t' added

theorem Dispatches.refl (t : RunTables) : Dispatches t t :=
  ⟨[], (List.append_nil _).symm, fun run found _ => Or.inl ⟨run, found, rfl, rfl, rfl⟩,
    fun effect member awaits => Or.inl ⟨effect, member, rfl, awaits⟩⟩

theorem Dispatches.trans (first : Dispatches t t') (second : Dispatches t' t'') :
    Dispatches t t'' := by
  obtain ⟨early, written, dispatched⟩ := first
  obtain ⟨late, written', dispatched'⟩ := second
  refine ⟨early ++ late, by rw [written', written, List.append_assoc], ?_, ?_⟩
  · intro run'' found'' queues
    rcases dispatched'.runs run'' found'' queues with
      ⟨run', found', id, status, version⟩ | ⟨reason, new⟩
    · rcases dispatched.runs run' found' (status ▸ queues) with
        ⟨run, found, id', status', version'⟩ | ⟨reason, old⟩
      · exact Or.inl ⟨run, found, id'.trans id, status'.trans status, version'.trans version⟩
      · exact Or.inr ⟨reason, List.mem_append_left _ (id ▸ old)⟩
    · exact Or.inr ⟨reason, List.mem_append_right _ new⟩
  · intro effect member awaits
    rcases dispatched'.effects effect member awaits with ⟨before, beforeMem, same, waits⟩ | new
    · rcases dispatched.effects before beforeMem waits with ⟨first, firstMem, same', waited⟩ | old
      · exact Or.inl ⟨first, firstMem, same'.trans same, waited⟩
      · have id : before.id = effect.id := (congrArg EffectExecution.id same :)
        have proposal : before.proposalId = effect.proposalId :=
          (congrArg EffectExecution.proposalId same :)
        have run : before.runId = effect.runId := (congrArg EffectExecution.runId same :)
        rw [id, proposal, run] at old
        exact Or.inr (List.mem_append_left _ old)
    · exact Or.inr (List.mem_append_right _ new)

/-- No execution is released from its turn. -/
def KeepsInline (t t' : RunTables) : Prop :=
  ∀ effect, awaitsWorker t' effect → awaitsWorker t effect

theorem keepsInline_same (proposals : t'.proposals = t.proposals) : KeepsInline t t' := by
  rintro effect ⟨requested, outside⟩
  exact ⟨requested, proposals ▸ outside⟩

theorem keepsInline_added {proposal : ChangeProposal}
    (proposals : t'.proposals = t.proposals ++ [proposal]) : KeepsInline t t' := by
  rintro effect ⟨requested, outside⟩
  refine ⟨requested, fun other known => outside other ?_⟩
  rw [proposals]
  exact List.mem_append_left _ known

theorem awaits_elsewhere {row : ChangeProposal} {effect : EffectExecution}
    (elsewhere : effect.proposalId ≠ row.id)
    (proposals : t'.proposals = replaceRow ChangeProposal.id row t.proposals)
    (awaits : awaitsWorker t' effect) : awaitsWorker t effect := by
  refine ⟨awaits.1, fun other known owner => awaits.2 other ?_ owner⟩
  rw [proposals]
  exact mem_replaceRow_of_ne known (owner ▸ elsewhere)

theorem keepsInline_written (kept : WellKept t) (proposal row : ChangeProposal)
    (known : proposal ∈ t.proposals) (same : row.id = proposal.id)
    (inline : row.activeInline = proposal.activeInline)
    (proposals : t'.proposals = replaceRow ChangeProposal.id row t.proposals) :
    KeepsInline t t' := by
  rintro effect ⟨requested, outside⟩
  refine ⟨requested, fun other otherKnown owner => ?_⟩
  rw [proposals] at outside
  by_cases hit : other.id = row.id
  · rw [kept.proposals.eq_of_key otherKnown known (hit.trans same)] at owner ⊢
    rw [← inline]
    exact outside row (mem_replaceRow_self known same.symm) (same.trans owner)
  · exact outside other (mem_replaceRow_of_ne otherKnown hit) owner

variable {added : List OutboxMessage}

theorem waits_same (keeps : KeepsInline t t')
    (effects : t'.effects = t.effects) : ∀ effect ∈ t'.effects, awaitsWorker t' effect →
      (∃ before ∈ t.effects, before.frozen = effect.frozen ∧ awaitsWorker t before) ∨
        .effectApplyRequested effect.id effect.proposalId effect.runId ∈ added :=
  fun effect member awaits => Or.inl ⟨effect, effects ▸ member, rfl, keeps effect awaits⟩

theorem waits_written (keeps : KeepsInline t t')
    {row : EffectExecution} (effects : t'.effects = replaceRow EffectExecution.id row t.effects)
    (waits : awaitsWorker t' row →
      (∃ before ∈ t.effects, before.frozen = row.frozen ∧ awaitsWorker t before) ∨
        .effectApplyRequested row.id row.proposalId row.runId ∈ added) :
    ∀ effect ∈ t'.effects, awaitsWorker t' effect →
      (∃ before ∈ t.effects, before.frozen = effect.frozen ∧ awaitsWorker t before) ∨
        .effectApplyRequested effect.id effect.proposalId effect.runId ∈ added := by
  intro effect member awaits
  rw [effects] at member
  rcases mem_replaceRow member with ⟨rfl, -⟩ | ⟨old, -⟩
  · exact waits awaits
  · exact Or.inl ⟨effect, old, rfl, keeps effect awaits⟩

theorem waits_added (keeps : KeepsInline t t')
    {row : EffectExecution} (effects : t'.effects = t.effects ++ [row])
    (waits : awaitsWorker t' row →
      .effectApplyRequested row.id row.proposalId row.runId ∈ added) :
    ∀ effect ∈ t'.effects, awaitsWorker t' effect →
      (∃ before ∈ t.effects, before.frozen = effect.frozen ∧ awaitsWorker t before) ∨
        .effectApplyRequested effect.id effect.proposalId effect.runId ∈ added := by
  intro effect member awaits
  rw [effects] at member
  rcases List.mem_append.mp member with old | new
  · exact Or.inl ⟨effect, old, rfl, keeps effect awaits⟩
  · rw [List.mem_singleton.mp new] at awaits ⊢
    exact Or.inr (waits awaits)

theorem runs_same (same : t'.run = t.run) :
    ∀ run' ∈ t'.run, run'.status.queues →
      (∃ run ∈ t.run, run.id = run'.id ∧ run.status = run'.status ∧
        run.rowVersion = run'.rowVersion) ∨
        ∃ reason, .runDispatchRequested run'.id reason ∈ added :=
  fun run' found' _ => Or.inl ⟨run', same ▸ found', rfl, rfl, rfl⟩

theorem runs_left {target : RunStatus}
    {error : Option ErrorRecord} {now : Timestamp}
    (written : t'.run = some (run.moved target error now)) (left : ¬ target.queues) :
    ∀ run' ∈ t'.run, run'.status.queues →
      (∃ run ∈ t.run, run.id = run'.id ∧ run.status = run'.status ∧
        run.rowVersion = run'.rowVersion) ∨
        ∃ reason, .runDispatchRequested run'.id reason ∈ added := by
  intro run' found' queues
  rw [written] at found'
  rw [← Option.some.inj found'] at queues
  exact absurd queues left

theorem runs_named {later : Run} (written : t'.run = some later)
    (named : ∃ reason, .runDispatchRequested later.id reason ∈ added) :
    ∀ run' ∈ t'.run, run'.status.queues →
      (∃ run ∈ t.run, run.id = run'.id ∧ run.status = run'.status ∧
        run.rowVersion = run'.rowVersion) ∨
        ∃ reason, .runDispatchRequested run'.id reason ∈ added := by
  intro run' found' _
  rw [written] at found'
  rw [← Option.some.inj found']
  exact Or.inr named

theorem Ending.dispatches (ending : Ending t t') (kept : WellKept t) : Dispatches t t' := by
  cases ending with
  | @stopped _ _ target _ _ _ found waiting known stops =>
    refine ⟨_, rfl, runs_left rfl ?_, waits_same (keepsInline_same rfl) rfl⟩
    intro queues
    cases target <;> simp_all [RunStatus.queues]
  | @continued _ _ _ _ reason =>
    refine ⟨_, List.append_assoc _ _ _, runs_named rfl ⟨reason, ?_⟩,
      waits_same (keepsInline_same rfl) rfl⟩
    exact List.mem_append_right _ List.mem_cons_self
  | @again _ _ proposal found waiting calm member failed known types =>
    refine ⟨_, List.append_assoc _ _ _, runs_same rfl, ?_⟩
    refine waits_written (keepsInline_written kept proposal { proposal with status := .approved }
      known rfl rfl rfl) rfl fun _ => Or.inr ?_
    exact List.mem_append_right _ List.mem_cons_self

theorem settled_unrequested {effect settled : EffectExecution}
    (settlement : Settlement t effect settled) : settled.status ≠ .requested := by
  intro requested
  cases settlement with
  | applied => cases requested
  | @failed status _ _ _ _ _ proposal known owner ended =>
    have requested : status = .requested := requested
    rw [requested] at ended
    simp at ended

theorem RunMove.dispatches (move : RunMove allowed t t') (kept : WellKept t)
    (planned : ¬ allowed .requeue) : Dispatches t t' := by
  have unmoved {t' : RunTables} (run : t'.run = t.run) (outbox : t'.outbox = t.outbox)
      (effects : t'.effects = t.effects) (proposals : t'.proposals = t.proposals) :
      Dispatches t t' :=
    ⟨[], by rw [outbox, List.append_nil], runs_same run,
      waits_same (keepsInline_same proposals) effects⟩
  cases move with
  | @proposalMoved proposal known status =>
    exact ⟨[], (List.append_nil _).symm, runs_same rfl, waits_same
      (keepsInline_written kept proposal { proposal with status } known rfl rfl rfl) rfl⟩
  | created =>
    exact ⟨_, rfl, runs_named rfl ⟨_, List.mem_cons_self⟩, waits_same (keepsInline_same rfl) rfl⟩
  | noted => exact ⟨_, rfl, runs_same rfl, waits_same (keepsInline_same rfl) rfl⟩
  | cancellationRecorded =>
    exact ⟨_, rfl, runs_same rfl, waits_same (keepsInline_same rfl) rfl⟩
  | claimed =>
    exact ⟨_, rfl, runs_left rfl (by simp [RunStatus.queues]),
      waits_same (keepsInline_same rfl) rfl⟩
  | exhausted =>
    exact ⟨_, rfl, runs_left rfl (by simp [RunStatus.queues]),
      waits_same (keepsInline_same rfl) rfl⟩
  | prepared =>
    exact ⟨_, rfl, runs_left rfl (by simp [RunStatus.queues]),
      waits_same (keepsInline_same rfl) rfl⟩
  | @released _ _ _ target _ _ _ _ _ _ _ _ _ _ _ _ types turn held own inactive targets wins later
      written posted =>
      subst written
      rcases posted with ⟨-, reason, rfl⟩ | ⟨other, rfl⟩
      · refine ⟨_, List.append_assoc _ _ _, runs_named rfl ⟨reason, ?_⟩,
          waits_same (keepsInline_same rfl) rfl⟩
        exact List.mem_append_right _ List.mem_cons_self
      · refine ⟨_, rfl, runs_left rfl ?_, waits_same (keepsInline_same rfl) rfl⟩
        intro queues
        cases target <;> simp_all [RunStatus.queues]
  | asked =>
    exact ⟨_, rfl, runs_left rfl (by simp [RunStatus.queues]),
      waits_same (keepsInline_same rfl) rfl⟩
  | @answered _ _ _ _ _ _ reason =>
    refine ⟨_, List.append_assoc _ _ _, runs_named rfl ⟨reason, ?_⟩,
      waits_same (keepsInline_same rfl) rfl⟩
    exact List.mem_append_right _ List.mem_cons_self
  | proposed =>
    exact ⟨_, rfl, runs_left rfl (by simp [RunStatus.queues]),
      waits_same (keepsInline_added rfl) rfl⟩
  | proposedApproved =>
    refine ⟨_, List.append_assoc _ _ _, runs_left rfl (by simp [RunStatus.queues]), ?_⟩
    exact waits_added (keepsInline_added rfl) rfl fun _ =>
      List.mem_append_left _ List.mem_cons_self
  | held turn running calm bare inline owner newProposal new =>
    refine ⟨[], (List.append_nil _).symm, runs_same rfl,
      waits_added (keepsInline_added rfl) rfl fun awaits => ?_⟩
    have outside := awaits.2 _ (List.mem_append_right _ List.mem_cons_self) new.proposal.symm
    rw [inline] at outside
    cases outside
  | @delivered attempt proposal effect member known owner waited written same applied =>
    refine ⟨[], (List.append_nil _).symm, runs_same rfl, fun other otherMem awaits => ?_⟩
    by_cases hit : other.proposalId = proposal.id
    · rw [kept.effectProposals.eq_of_key otherMem written (hit.trans same.symm)] at awaits
      rw [awaits.1] at applied
      cases applied
    · have elsewhere : other.proposalId ≠ (proposal.withPhase .delivered).id := by simpa
      exact Or.inl ⟨other, otherMem, rfl, awaits_elsewhere elsewhere rfl awaits⟩
  | @detached run segment attempt proposal effect now _ turn running known inline owner written
      same after marked =>
      have others : ∀ other ∈ t.effects, other ≠ effect →
          awaitsWorker (t.detachTurn run segment attempt proposal now) other →
          awaitsWorker t other := by
        intro other otherMem distinct awaits
        have elsewhere : other.proposalId ≠ (proposal.withPhase .detached).id := by
          intro hit
          rw [ChangeProposal.withPhase_id] at hit
          exact distinct (kept.effectProposals.eq_of_key otherMem written (hit.trans same.symm))
        exact awaits_elsewhere elsewhere rfl awaits
      rcases after with ⟨-, rfl⟩ | ⟨finished, ending⟩
      · refine ⟨_, rfl, runs_left rfl (by simp [RunStatus.queues]), fun other otherMem awaits => ?_⟩
        by_cases hit : other = effect
        · rw [hit]
          exact Or.inr List.mem_cons_self
        · exact Or.inl ⟨other, otherMem, rfl, others other otherMem hit awaits⟩
      · refine Dispatches.trans ?_ (ending.dispatches (kept.detached turn known inline owner))
        refine ⟨[], (List.append_nil _).symm, runs_left rfl (by simp [RunStatus.queues]),
          fun other otherMem awaits => Or.inl ⟨other, otherMem, rfl, ?_⟩⟩
        refine others other otherMem ?_ awaits
        rintro rfl
        rw [awaits.1] at finished
        cases finished
  | approved proposal found waiting member isOpen known new types =>
    refine ⟨_, List.append_assoc _ _ _, runs_same rfl, ?_⟩
    exact waits_added (keepsInline_same rfl) rfl fun _ =>
      List.mem_append_right _ List.mem_cons_self
  | effectLeased member =>
    refine ⟨[], (List.append_nil _).symm, runs_same rfl, ?_⟩
    exact waits_written (keepsInline_same rfl) rfl fun awaits => nomatch awaits.1
  | effectRenewed member =>
    refine ⟨[], (List.append_nil _).symm, runs_same rfl, ?_⟩
    exact waits_written (keepsInline_same rfl) rfl fun awaits => Or.inl ⟨_, member, rfl, awaits⟩
  | effectSettled member unfinished settlement =>
    refine ⟨[], (List.append_nil _).symm, runs_same rfl, ?_⟩
    exact waits_written (keepsInline_same rfl) rfl fun awaits =>
      absurd awaits.1 (settled_unrequested settlement)
  | redispatched member live known owner unreserved written =>
    refine ⟨_, rfl, runs_same rfl, ?_⟩
    exact waits_written (keepsInline_same rfl) rfl fun _ => Or.inr List.mem_cons_self
  | concluded found waiting member unfinished settlement ending =>
    have base := kept.effect_written member settlement.id.1 settlement.id.2
    refine Dispatches.trans ?_ (ending.dispatches base)
    refine ⟨[], (List.append_nil _).symm, runs_same rfl, ?_⟩
    exact waits_written (keepsInline_same rfl) rfl fun awaits =>
      absurd awaits.1 (settled_unrequested settlement)
  | withdrawn =>
    exact ⟨_, rfl, runs_left rfl (by simp [RunStatus.queues]),
      waits_same (keepsInline_same rfl) rfl⟩
  | cancelled =>
    refine ⟨_, rfl, runs_left rfl (by simp [RunStatus.queues]), fun effect member awaits => ?_⟩
    obtain ⟨old, -, rfl⟩ := List.mem_map.mp member
    have requested := awaits.1
    split at requested
    · cases requested
    · rename_i other
      exact absurd requested other
  | transitioned found target marked requeued =>
    exact ⟨_, rfl, runs_left rfl fun queues => planned (requeued queues),
      waits_same (keepsInline_same rfl) rfl⟩
  | _ => exact unmoved rfl rfl rfl rfl

theorem Moves.dispatches (moves : Moves allowed t t') (kept : WellKept t)
    (planned : ¬ allowed .requeue) : Dispatches t t' := by
  induction moves with
  | refl => exact .refl t
  | tail before move ih => exact ih.trans (move.dispatches (Moves.wellKept before kept) planned)

/-- **No work is stranded.**  Along a run without plain status changes into a queue, whatever waits
for a worker after any number of transactions waited the same way before them or is named by a
message they wrote: one transaction dispatches what it puts into the queue, and whatever waits
in a reachable state has a message that was written after it last began to wait. -/
theorem work_dispatched (before later : List RunAction)
    (planned : (runStore settings).Along (fun t action => ¬ action.bears t .requeue)
      RunTables.empty (before ++ later)) :
    Dispatches ((runStore settings).run RunTables.empty before)
      ((runStore settings).run RunTables.empty (before ++ later)) := by
  have kept : WellKept ((runStore settings).run RunTables.empty before) :=
    wellKept_invariant.run wellKept_empty before
  have keeps : ∀ s action answer s',
      WellKept s ∧ Dispatches ((runStore settings).run RunTables.empty before) s →
      ¬ RunAction.bears s action .requeue →
      (runStore settings).exec action s = .ok (answer, s') →
      WellKept s' ∧ Dispatches ((runStore settings).run RunTables.empty before) s' := by
    intro s action answer s' holds meets committed
    have moves : Moves (fun mark => mark ≠ .requeue) s s' := by
      refine execRun_moves holds.1 (fun mark bears => ?_) committed
      rintro rfl
      exact meets bears
    exact ⟨moves.wellKept holds.1,
      holds.2.trans (moves.dispatches holds.1 fun marked => marked rfl)⟩
  rw [(runStore settings).run_append]
  exact ((runStore settings).run_of_along keeps ⟨kept, .refl _⟩
    ((runStore settings).along_append.mp planned).2).2

/-- The write of the sample waits again after its first worker is lost, and the recovery of its
lease names it. -/
theorem work_dispatched_sample :
    ∃ added, ((runStore sampleSettings).run RunTables.empty
        (sampleLostWrite.take 6 ++ sampleLostWrite.drop 6)).outbox =
        ((runStore sampleSettings).run RunTables.empty (sampleLostWrite.take 6)).outbox ++ added ∧
      .effectApplyRequested 63 61 1 ∈ added := by
  obtain ⟨added, written, dispatched⟩ :=
    @work_dispatched sampleSettings (sampleLostWrite.take 6) (sampleLostWrite.drop 6)
      ⟨id, id, id, id, id, id, id, trivial⟩
  refine ⟨added, written, ?_⟩
  obtain ⟨effect, member, requested, outside, named⟩ :
      ∃ effect ∈ ((runStore sampleSettings).run RunTables.empty
          (sampleLostWrite.take 6 ++ sampleLostWrite.drop 6)).effects,
        effect.status = .requested ∧
        (∀ proposal ∈ ((runStore sampleSettings).run RunTables.empty
          (sampleLostWrite.take 6 ++ sampleLostWrite.drop 6)).proposals,
          proposal.id = effect.proposalId → proposal.activeInline = false) ∧
        effect.id = 63 ∧ effect.proposalId = 61 ∧ effect.runId = 1 := by
    decide
  rcases dispatched.effects effect member ⟨requested, outside⟩ with ⟨old, oldMem, -, waits⟩ | new
  · have claimed : ∀ old ∈ ((runStore sampleSettings).run RunTables.empty
        (sampleLostWrite.take 6)).effects, old.status ≠ .requested := by
      decide
    exact absurd waits.1 (claimed old oldMem)
  · rw [named.1, named.2.1, named.2.2] at new
    exact new

/-- A plain status change puts a running Run back into the queue and names it to nobody. -/
theorem queued_undispatched :
    ((runStore sampleSettings).run RunTables.empty
        (sampleTurn ++ [.transition 1 .retryPending 3 none none 100])).run.map Run.status =
        some .retryPending ∧
      ((runStore sampleSettings).run RunTables.empty
        (sampleTurn ++ [.transition 1 .retryPending 3 none none 100])).outbox.countP
        (fun message => message = .runDispatchRequested 1 none) = 1 ∧
      ((runStore sampleSettings).run RunTables.empty sampleTurn).outbox.countP
        (fun message => message = .runDispatchRequested 1 none) = 1 := by
  decide

end SkillMind.Runs
