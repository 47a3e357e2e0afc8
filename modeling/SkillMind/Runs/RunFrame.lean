import SkillMind.Runs.EffectRows

/-!
# What no move changes

A Run keeps its identity, its limits and its consent, a proposal keeps what it proposes, and
approvals are only added.
-/

namespace SkillMind.Runs

open Library Effects

/-- The columns a Run keeps from its creation on. -/
def Run.frozen (run : Run) : Run :=
  { run with
    status := .queued, rowVersion := 0, startedAt := none, finishedAt := none, error := none }

/-- The columns a proposal keeps from its creation on. -/
def ChangeProposal.frozen (proposal : ChangeProposal) : ChangeProposal :=
  { proposal with inlineOwner := none, status := .draft }

structure ProposalStep (proposal later : ChangeProposal) : Prop where
  same : later.frozen = proposal.frozen

abbrev ProposalsStep (rows rows' : List ChangeProposal) : Prop :=
  Evolves ProposalStep (fun _ => True) rows rows'

structure Frame (t t' : RunTables) : Prop where
  run : ∀ run ∈ t.run, ∃ run' ∈ t'.run, run'.frozen = run.frozen
  approvals : t.approvals <+: t'.approvals
  proposals : ProposalsStep t.proposals t'.proposals

variable {allowed : Mark → Prop} {t t' t'' : RunTables} {run : Run}

/-! ## Writes -/

theorem ProposalStep.refl (proposal : ChangeProposal) : ProposalStep proposal proposal := ⟨rfl⟩

theorem ProposalStep.trans (proposal later last : ChangeProposal)
    (first : ProposalStep proposal later) (second : ProposalStep later last) :
    ProposalStep proposal last := ⟨second.same.trans first.same⟩

theorem ProposalsStep.refl (rows : List ChangeProposal) : ProposalsStep rows rows :=
  Evolves.refl ProposalStep.refl rows

theorem ProposalsStep.written (kept : WellKept t) {proposal later : ChangeProposal}
    (known : proposal ∈ t.proposals) (same : later.frozen = proposal.frozen) :
    ProposalsStep t.proposals (replaceRow ChangeProposal.id later t.proposals) :=
  Evolves.replace kept.proposals ProposalStep.refl known
    (congrArg ChangeProposal.id same.symm :) ⟨same⟩

theorem ProposalsStep.added (rows : List ChangeProposal) (proposal : ChangeProposal) :
    ProposalsStep rows (rows ++ [proposal]) :=
  Evolves.add ProposalStep.refl trivial

theorem Frame.refl (t : RunTables) : Frame t t where
  run run found := ⟨run, found, rfl⟩
  approvals := List.prefix_refl _
  proposals := .refl _

theorem Frame.trans (first : Frame t t') (second : Frame t' t'') : Frame t t'' where
  run run found := by
    obtain ⟨later, foundLater, same⟩ := first.run run found
    obtain ⟨last, foundLast, same'⟩ := second.run later foundLater
    exact ⟨last, foundLast, same'.trans same⟩
  approvals := first.approvals.trans second.approvals
  proposals := Evolves.trans ProposalStep.trans (fun _ _ _ _ => trivial) first.proposals
    second.proposals

theorem Frame.of (run : t'.run = t.run ∨
      ∃ run run', t.run = some run ∧ t'.run = some run' ∧ run'.frozen = run.frozen)
    (proposals : ProposalsStep t.proposals t'.proposals)
    (approvals : t'.approvals = t.approvals := by rfl) : Frame t t' where
  run run' found' := by
    rcases run with same | ⟨run, later, found, written, same⟩
    · exact ⟨run', same ▸ found', rfl⟩
    · obtain rfl := Option.some.inj (found.symm.trans found')
      exact ⟨later, written, same⟩
  approvals := approvals ▸ List.prefix_refl _
  proposals := proposals

theorem Ending.frame (kept : WellKept t) (ending : Ending t t') : Frame t t' := by
  cases ending with
  | stopped found => exact Frame.of (Or.inr ⟨_, _, found, rfl, rfl⟩) (.refl _)
  | continued found => exact Frame.of (Or.inr ⟨_, _, found, rfl, rfl⟩) (.refl _)
  | again found waiting calm member failed known =>
    exact Frame.of (Or.inl rfl) (.written kept known rfl)

theorem RunMove.frame (kept : WellKept t) (move : RunMove allowed t t') : Frame t t' := by
  cases move with
  | approvalAdded =>
    exact ⟨fun run found => ⟨run, found, rfl⟩, List.prefix_append _ _, .refl _⟩
  | proposalMoved known => exact Frame.of (Or.inl rfl) (.written kept known rfl)
  | created absent =>
    exact ⟨fun run found => (nomatch absent.symm.trans found), List.prefix_refl _, .refl _⟩
  | claimed found => exact Frame.of (Or.inr ⟨_, _, found, rfl, rfl⟩) (.refl _)
  | exhausted found => exact Frame.of (Or.inr ⟨_, _, found, rfl, rfl⟩) (.refl _)
  | prepared turn => exact Frame.of (Or.inr ⟨_, _, turn.found, rfl, rfl⟩) (.refl _)
  | released types turn held own inactive targets wins later written posted =>
    subst written
    rcases posted with ⟨-, reason, rfl⟩ | ⟨-, rfl⟩ <;>
      exact Frame.of (Or.inr ⟨_, _, turn.found, rfl, rfl⟩) (.refl _)
  | asked suspends => exact Frame.of (Or.inr ⟨_, _, suspends.found, rfl, rfl⟩) (.refl _)
  | answered found => exact Frame.of (Or.inr ⟨_, _, found, rfl, rfl⟩) (.refl _)
  | proposed suspends =>
    exact Frame.of (Or.inr ⟨_, _, suspends.found, rfl, rfl⟩) (.added _ _)
  | proposedApproved suspends =>
    exact Frame.of (Or.inr ⟨_, _, suspends.found, rfl, rfl⟩) (.added _ _)
  | held turn => exact Frame.of (Or.inl rfl) (.added _ _)
  | delivered member known => exact Frame.of (Or.inl rfl) (.written kept known rfl)
  | detached turn running known inline owner written same after heard =>
    rcases after with ⟨-, rfl⟩ | ⟨-, ending⟩
    · exact Frame.of (Or.inr ⟨_, _, turn.found, rfl, rfl⟩) (.written kept known rfl)
    · refine Frame.trans ?_ (ending.frame (kept.detached turn known inline owner))
      exact Frame.of (Or.inr ⟨_, _, turn.found, rfl, rfl⟩) (.written kept known rfl)
  | concluded found waiting member unfinished settlement ending =>
    have base := kept.effect_written member settlement.id.1 settlement.id.2
    refine Frame.trans ?_ (ending.frame base)
    exact Frame.of (Or.inl rfl) (.refl _)
  | withdrawn found => exact Frame.of (Or.inr ⟨_, _, found, rfl, rfl⟩) (.refl _)
  | cancelled found =>
    refine Frame.of (Or.inr ⟨_, _, found, rfl, rfl⟩) (Evolves.map fun proposal _ => ?_)
    split <;> exact ⟨rfl⟩
  | transitioned found => exact Frame.of (Or.inr ⟨_, _, found, rfl, rfl⟩) (.refl _)
  | _ => exact Frame.of (Or.inl rfl) (.refl _)

theorem Moves.frame (kept : WellKept t) (moves : Moves allowed t t') : Frame t t' := by
  induction moves with
  | refl => exact Frame.refl t
  | tail before move ih => exact ih.trans (move.frame (Moves.wellKept before kept))

end SkillMind.Runs
