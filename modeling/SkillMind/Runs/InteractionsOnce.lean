import SkillMind.Runs.RunRefinement

/-!
# A question is resolved once

A question is open until it is answered, expires or is cancelled, and its row does not change
any more after that.  Whatever happens to it, it has at most one response, and at most one
segment follows it; a request that was answered is answered the same in every later state.
-/

namespace SkillMind.Runs

open Library Effects

variable {allowed : Mark → Prop} {t t' t'' : RunTables}

/-- The columns a question keeps from its creation on. -/
def UserInteraction.frozen (interaction : UserInteraction) : UserInteraction :=
  { interaction with status := .open, version := 0 }

/-- What a segment belongs to and follows. -/
def RunSegment.frozen (segment : RunSegment) : RunSegment :=
  { segment with status := .created, startedAt := none, finishedAt := none }

def RunSegment.expiry (segment : RunSegment) : Prop :=
  segment.triggerType ∈ [.interactionTimeout, .approvalTimeout]

def RunSegment.reply (segment : RunSegment) : Prop := segment.triggerType = .interactionResponse

structure InteractionStep (interaction later : UserInteraction) : Prop where
  frozen : later.frozen = interaction.frozen
  final : interaction.status ≠ .open → later = interaction

structure SegmentStep (segment later : RunSegment) : Prop where
  frozen : later.frozen = segment.frozen

/-- Segments keep what they follow, and one that is added follows no question. -/
abbrev SegmentsStep (rows rows' : List RunSegment) : Prop :=
  Evolves SegmentStep (fun segment => ¬ segment.reply ∧ ¬ segment.expiry) rows rows'

abbrev InteractionsStep (rows rows' : List UserInteraction) : Prop :=
  Evolves InteractionStep (fun interaction => interaction.status = .open) rows rows'

/-- No question is followed by a segment. -/
structure Passage (t t' : RunTables) : Prop where
  responses : t'.responses = t.responses
  segments : SegmentsStep t.segments t'.segments
  interactions : InteractionsStep t.interactions t'.interactions

/-- A question is closed and followed by a segment. -/
structure Resolution (t t' : RunTables) (interaction : UserInteraction) (next : RunSegment) :
    Prop where
  member : interaction ∈ t.interactions
  isOpen : interaction.status = .open
  closed : ∀ later ∈ t'.interactions, later.id = interaction.id → later.status ≠ .open
  interactions : InteractionsStep t.interactions t'.interactions
  segments : ∃ rows, SegmentsStep t.segments rows ∧ t'.segments = rows ++ [next]
  loud : next.reply ∨ next.expiry
  cause : Cause t interaction next t'.responses

/-! ## Steps -/

theorem InteractionStep.refl (interaction : UserInteraction) :
    InteractionStep interaction interaction := ⟨rfl, fun _ => rfl⟩

variable {interaction : UserInteraction}

theorem InteractionStep.id {later : UserInteraction}
    (step : InteractionStep interaction later) : later.id = interaction.id :=
  (congrArg UserInteraction.id step.frozen :)

theorem InteractionStep.trans (interaction later last : UserInteraction)
    (first : InteractionStep interaction later) (second : InteractionStep later last) :
    InteractionStep interaction last where
  frozen := second.frozen.trans first.frozen
  final closed := by
    have same := first.final closed
    subst same
    exact second.final closed

theorem SegmentStep.refl (segment : RunSegment) : SegmentStep segment segment := ⟨rfl⟩

theorem SegmentStep.trans (segment later last : RunSegment) (first : SegmentStep segment later)
    (second : SegmentStep later last) : SegmentStep segment last :=
  ⟨second.frozen.trans first.frozen⟩

theorem SegmentStep.id {segment later : RunSegment} (step : SegmentStep segment later) :
    later.id = segment.id := (congrArg RunSegment.id step.frozen :)

theorem SegmentStep.trigger {segment later : RunSegment} (step : SegmentStep segment later) :
    later.triggerType = segment.triggerType := (congrArg RunSegment.triggerType step.frozen :)

theorem SegmentStep.ref {segment later : RunSegment} (step : SegmentStep segment later) :
    later.triggerRef = segment.triggerRef := (congrArg RunSegment.triggerRef step.frozen :)

theorem SegmentsStep.refl (rows : List RunSegment) : SegmentsStep rows rows :=
  Evolves.refl SegmentStep.refl rows

theorem SegmentsStep.written (kept : WellKept t) {segment later : RunSegment}
    (known : segment ∈ t.segments) (same : later.frozen = segment.frozen) :
    SegmentsStep t.segments (replaceRow RunSegment.id later t.segments) :=
  Evolves.replace kept.segments SegmentStep.refl known (congrArg RunSegment.id same.symm :) ⟨same⟩

theorem SegmentsStep.trans {rows rows' rows'' : List RunSegment}
    (first : SegmentsStep rows rows') (second : SegmentsStep rows' rows'') :
    SegmentsStep rows rows'' := by
  refine Evolves.trans SegmentStep.trans (fun segment later quiet step => ?_) first second
  rwa [RunSegment.reply, RunSegment.expiry, step.trigger]

theorem InteractionsStep.refl (rows : List UserInteraction) : InteractionsStep rows rows :=
  Evolves.refl InteractionStep.refl rows

theorem InteractionsStep.written (kept : WellKept t) {later : UserInteraction}
    (member : interaction ∈ t.interactions) (isOpen : interaction.status = .open)
    (same : later.frozen = interaction.frozen) :
    InteractionsStep t.interactions (replaceRow UserInteraction.id later t.interactions) :=
  Evolves.replace kept.interactions InteractionStep.refl member
    (congrArg UserInteraction.id same.symm :) ⟨same, fun closed => absurd isOpen closed⟩

theorem InteractionsStep.added (rows : List UserInteraction) {interaction : UserInteraction}
    (isOpen : interaction.status = .open) : InteractionsStep rows (rows ++ [interaction]) :=
  Evolves.add InteractionStep.refl isOpen

theorem Passage.of (segments : SegmentsStep t.segments t'.segments)
    (responses : t'.responses = t.responses := by rfl)
    (interactions : t'.interactions = t.interactions := by rfl) : Passage t t' :=
  ⟨responses, segments, interactions ▸ .refl _⟩

variable {next : RunSegment}

theorem closed_segments (kept : WellKept t) {segment : RunSegment} {now : Timestamp}
    (follows : Follows t segment next now) : SegmentsStep t.segments
      (replaceRow RunSegment.id (segment.closed .completed now) t.segments) :=
  .written kept follows.known rfl

theorem proceed_segments (kept : WellKept t) {segment : RunSegment} {now : Timestamp}
    (follows : Follows t segment next now) (quiet : ¬ next.reply ∧ ¬ next.expiry) :
    SegmentsStep t.segments (t.proceed segment next now).segments :=
  (closed_segments kept follows).trans (Evolves.add SegmentStep.refl quiet)

theorem quiet_of_approval (trigger : next.triggerType = .approvalResponse) :
    ¬ next.reply ∧ ¬ next.expiry := by
  rw [RunSegment.reply, RunSegment.expiry, trigger]
  decide

theorem Ending.passage (kept : WellKept t) (ending : Ending t t') : Passage t t' := by
  cases ending with
  | stopped found waiting known => exact Passage.of (.written kept known rfl)
  | continued found waiting calm follows trigger =>
    exact Passage.of (proceed_segments kept follows (quiet_of_approval trigger))
  | again => exact Passage.of (.refl _)

theorem RunMove.resolves (kept : WellKept t) (move : RunMove allowed t t') :
    Passage t t' ∨ ∃ interaction next, Resolution t t' interaction next := by
  cases move with
  | created absent queued version first opened initial =>
    refine Or.inl (Passage.of (Evolves.add SegmentStep.refl ?_))
    rw [RunSegment.reply, RunSegment.expiry, initial]
    decide
  | claimed found due latest =>
    exact Or.inl (Passage.of (.written kept (WellKept.latest_known latest) rfl))
  | exhausted found due known => exact Or.inl (Passage.of (.written kept known rfl))
  | prepared turn => exact Or.inl (Passage.of (.written kept turn.known rfl))
  | released types turn held own inactive targets wins later written posted =>
    subst written
    rcases posted with ⟨-, reason, rfl⟩ | ⟨-, rfl⟩
    · exact Or.inl (Passage.of (.written kept turn.known rfl))
    · exact Or.inl (Passage.of (.written kept turn.known rfl))
  | asked suspends ordinary isOpen =>
    exact Or.inl ⟨rfl, .written kept suspends.known rfl, .added _ isOpen⟩
  | @answered run segment next interaction status types reason now responses found waiting member
      isOpen closes follows cause =>
      have written : InteractionsStep t.interactions (replaceRow UserInteraction.id
          { interaction with status, version := interaction.version + 1 } t.interactions) :=
        .written kept member isOpen rfl
      by_cases quiet : ¬ next.reply ∧ ¬ next.expiry
      · cases cause with
        | response of fresh trigger => exact absurd trigger quiet.1
        | timeout trigger => exact absurd trigger quiet.2
        | decision => exact Or.inl ⟨rfl, proceed_segments kept follows quiet, written⟩
      · have loud : next.reply ∨ next.expiry := by
          by_contra neither
          exact quiet (not_or.mp neither)
        refine Or.inr ⟨interaction, next, member, isOpen, ?_, written, ?_, ?_, cause⟩
        · intro later mem same
          rcases mem_replaceRow mem with ⟨rfl, -⟩ | ⟨-, other⟩
          · exact closes
          · exact absurd same other
        · exact ⟨_, closed_segments kept follows, rfl⟩
        · exact loud
  | lapsed found member isOpen =>
    exact Or.inl ⟨rfl, .refl _, .written kept member isOpen rfl⟩
  | proposed suspends deferred newProposal approval isOpen =>
    exact Or.inl ⟨rfl, .written kept suspends.known rfl, .added _ isOpen⟩
  | proposedApproved suspends => exact Or.inl (Passage.of (.written kept suspends.known rfl))
  | @detached run segment attempt proposal effect now t' turn running known inline owner written
      same after heard =>
      have left : SegmentsStep t.segments
          (t.detachTurn run segment attempt proposal now).segments :=
        .written kept turn.known rfl
      rcases after with ⟨-, rfl⟩ | ⟨-, ending⟩
      · exact Or.inl (Passage.of left)
      · have passage := ending.passage (kept.detached turn known inline owner)
        exact Or.inl ⟨passage.responses, left.trans passage.segments, passage.interactions⟩
  | approved proposal found waiting member isOpen =>
    exact Or.inl ⟨rfl, .refl _, .written kept member isOpen rfl⟩
  | concluded found waiting member unfinished settlement ending =>
    have base := kept.effect_written member settlement.id.1 settlement.id.2
    have passage := ending.passage base
    exact Or.inl ⟨passage.responses, passage.segments, passage.interactions⟩
  | withdrawn found due latest =>
    exact Or.inl (Passage.of (.written kept (WellKept.latest_known latest) rfl))
  | cancelled found waiting latest =>
    refine Or.inl ⟨rfl, .written kept (WellKept.latest_known latest) rfl, ?_⟩
    refine Evolves.map fun interaction _ => ?_
    split
    · rename_i isOpen
      exact ⟨rfl, fun closed => absurd isOpen closed⟩
    · exact .refl _
  | _ => exact Or.inl (Passage.of (.refl _))

/-! ## Responses and the segments that follow -/

/-- Of the segments of a kind, one refers to a row at most. -/
def OnePerRef (kind : RunSegment → Prop) (rows : List RunSegment) : Prop :=
  ∀ segment ∈ rows, ∀ other ∈ rows, kind segment → kind other →
    segment.triggerRef = other.triggerRef → segment.id = other.id

/-- In every state of the store a question has one response at most, a closed question has no
later one, and a segment that follows a question is the only one that does. -/
structure ResolvedOnce (t : RunTables) : Prop where
  ids : Keyed InteractionResponse.id t.responses
  one : Keyed InteractionResponse.interactionId t.responses
  closed : ∀ response ∈ t.responses, ∃ interaction ∈ t.interactions,
    interaction.id = response.interactionId ∧ interaction.status ≠ .open
  followed : ∀ response ∈ t.responses, ∃ segment ∈ t.segments,
    segment.reply ∧ segment.triggerRef = some response.id
  replies : ∀ segment ∈ t.segments, segment.reply → ∃ response ∈ t.responses,
    segment.triggerRef = some response.id
  expiries : ∀ segment ∈ t.segments, segment.expiry → ∃ interaction ∈ t.interactions,
    segment.triggerRef = some interaction.id ∧ interaction.status ≠ .open ∧
      ∀ response ∈ t.responses, response.interactionId ≠ interaction.id
  oneReply : OnePerRef RunSegment.reply t.segments
  oneExpiry : OnePerRef RunSegment.expiry t.segments

theorem resolvedOnce_empty : ResolvedOnce RunTables.empty where
  ids := List.nodup_nil
  one := List.nodup_nil
  closed response mem := by cases mem
  followed response mem := by cases mem
  replies segment mem := by cases mem
  expiries segment mem := by cases mem
  oneReply segment mem := by cases mem
  oneExpiry segment mem := by cases mem

theorem segment_after {rows rows' : List RunSegment} (segments : SegmentsStep rows rows')
    {segment : RunSegment} (known : segment ∈ rows) :
    ∃ later ∈ rows', SegmentStep segment later ∧ (later.reply ↔ segment.reply) := by
  obtain ⟨later, mem, step⟩ := segments.forward known
  exact ⟨later, mem, step, by rw [RunSegment.reply, RunSegment.reply, step.trigger]⟩

theorem closed_stays {rows rows' : List UserInteraction}
    (interactions : InteractionsStep rows rows') (known : interaction ∈ rows)
    (closed : interaction.status ≠ .open) : interaction ∈ rows' := by
  obtain ⟨later, mem, step⟩ := interactions.forward known
  rwa [← step.final closed]

theorem OnePerRef.step {kind : RunSegment → Prop} {rows rows' : List RunSegment}
    (one : OnePerRef kind rows)
    (before : ∀ later ∈ rows', kind later →
      ∃ segment ∈ rows, SegmentStep segment later ∧ kind segment) : OnePerRef kind rows' := by
  intro segment mem other mem' isKind isKind' same
  obtain ⟨early, known, step, was⟩ := before segment mem isKind
  obtain ⟨early', known', step', was'⟩ := before other mem' isKind'
  rw [step.id, step'.id]
  apply one early known early' known' was was'
  rw [← step.ref, ← step'.ref, same]

theorem OnePerRef.add {kind : RunSegment → Prop} {rows : List RunSegment}
    (one : OnePerRef kind rows)
    (apart : kind next → ∀ segment ∈ rows, kind segment →
      segment.triggerRef ≠ next.triggerRef) : OnePerRef kind (rows ++ [next]) := by
  intro segment mem other mem' isKind isKind' same
  rcases List.mem_append.mp mem with old | new
  · rcases List.mem_append.mp mem' with old' | new'
    · exact one segment old other old' isKind isKind' same
    · rw [List.mem_singleton.mp new'] at same isKind'
      exact absurd same (apart isKind' segment old isKind)
  · rw [List.mem_singleton.mp new] at same isKind ⊢
    rcases List.mem_append.mp mem' with old' | new'
    · exact absurd same.symm (apart isKind other old' isKind')
    · rw [List.mem_singleton.mp new']

theorem reply_before {rows rows' : List RunSegment} (segments : SegmentsStep rows rows') :
    ∀ later ∈ rows', later.reply →
      ∃ segment ∈ rows, SegmentStep segment later ∧ segment.reply := by
  intro later mem reply
  rcases segments.backward mem with ⟨segment, known, step⟩ | ⟨noReply, -⟩
  · exact ⟨segment, known, step, by rwa [RunSegment.reply, ← step.trigger]⟩
  · exact absurd reply noReply

theorem expiry_before {rows rows' : List RunSegment} (segments : SegmentsStep rows rows') :
    ∀ later ∈ rows', later.expiry →
      ∃ segment ∈ rows, SegmentStep segment later ∧ segment.expiry := by
  intro later mem expiry
  rcases segments.backward mem with ⟨segment, known, step⟩ | ⟨-, noExpiry⟩
  · exact ⟨segment, known, step, by rwa [RunSegment.expiry, ← step.trigger]⟩
  · exact absurd expiry noExpiry

theorem Passage.resolvedOnce (passage : Passage t t') (once : ResolvedOnce t) :
    ResolvedOnce t' where
  ids := passage.responses ▸ once.ids
  one := passage.responses ▸ once.one
  closed := by
    rw [passage.responses]
    intro response mem
    obtain ⟨interaction, known, same, closed⟩ := once.closed response mem
    exact ⟨interaction, closed_stays passage.interactions known closed, same, closed⟩
  followed := by
    rw [passage.responses]
    intro response mem
    obtain ⟨segment, known, reply, ref⟩ := once.followed response mem
    obtain ⟨later, mem', step, iff⟩ := segment_after passage.segments known
    exact ⟨later, mem', iff.mpr reply, step.ref.trans ref⟩
  replies := by
    rw [passage.responses]
    intro segment mem reply
    obtain ⟨before, known, step, was⟩ := reply_before passage.segments segment mem reply
    obtain ⟨response, stored, ref⟩ := once.replies before known was
    exact ⟨response, stored, step.ref.trans ref⟩
  expiries := by
    rw [passage.responses]
    intro segment mem expiry
    obtain ⟨before, known, step, was⟩ := expiry_before passage.segments segment mem expiry
    obtain ⟨interaction, asked, ref, closed, none⟩ := once.expiries before known was
    exact ⟨interaction, closed_stays passage.interactions asked closed, step.ref.trans ref,
      closed, none⟩
  oneReply := once.oneReply.step (reply_before passage.segments)
  oneExpiry := once.oneExpiry.step (expiry_before passage.segments)

theorem InteractionResponse.clash_false {response other : InteractionResponse}
    (fresh : response.clash other = false) :
    response.id ≠ other.id ∧ response.interactionId ≠ other.interactionId := by
  simp only [InteractionResponse.clash, Bool.or_eq_false_iff, decide_eq_false_iff_not] at fresh
  exact fresh.1

theorem ResolvedOnce.open_free (once : ResolvedOnce t) (kept : WellKept t)
    (member : interaction ∈ t.interactions)
    (isOpen : interaction.status = .open) :
    (∀ response ∈ t.responses, response.interactionId ≠ interaction.id) ∧
      ∀ segment ∈ t.segments, segment.expiry → segment.triggerRef ≠ some interaction.id := by
  constructor
  · intro response mem same
    obtain ⟨other, known, key, closed⟩ := once.closed response mem
    obtain rfl := kept.interactions.eq_of_key known member (key.trans same)
    exact closed isOpen
  · intro segment mem expiry ref
    obtain ⟨other, known, key, closed, -⟩ := once.expiries segment mem expiry
    obtain rfl := kept.interactions.eq_of_key known member (Option.some.inj (key.symm.trans ref))
    exact closed isOpen

theorem Resolution.before
    (resolution : Resolution t t' interaction next) :
    ∃ rows, t'.segments = rows ++ [next] ∧
      Passage t { t' with responses := t.responses, segments := rows } := by
  obtain ⟨rows, segments, same⟩ := resolution.segments
  exact ⟨rows, same, rfl, segments, resolution.interactions⟩

theorem Resolution.unexpired (once : ResolvedOnce t) (kept : WellKept t)
    (resolution : Resolution t t' interaction next) {rows : List RunSegment}
    (segments : SegmentsStep t.segments rows) :
    ∀ segment ∈ rows, segment.expiry → segment.triggerRef ≠ some interaction.id := by
  intro segment mem expiry ref
  obtain ⟨before, known, step, was⟩ := expiry_before segments segment mem expiry
  exact (once.open_free kept resolution.member resolution.isOpen).2 before known was
    (step.ref.symm.trans ref)

theorem Resolution.answered (kept : WellKept t) {interaction : UserInteraction}
    {next : RunSegment} {response : InteractionResponse}
    (resolution : Resolution t t' interaction next) (once : ResolvedOnce t)
    (written : t'.responses = t.responses ++ [response])
    (of : response.interactionId = interaction.id)
    (fresh : ∀ other ∈ t.responses, response.clash other = false) (reply : next.reply)
    (ref : next.triggerRef = some response.id) : ResolvedOnce t' := by
  obtain ⟨rows, same, passage⟩ := resolution.before
  have unexpired := resolution.unexpired once kept passage.segments
  have early := passage.resolvedOnce once
  obtain ⟨later, laterMem, step⟩ := resolution.interactions.forward resolution.member
  have plain : ¬ next.expiry := by
    rw [RunSegment.expiry, reply]
    decide
  constructor
  · rw [written]
    exact once.ids.add fun other mem => (InteractionResponse.clash_false (fresh other mem)).1
  · rw [written]
    exact once.one.add fun other mem => (InteractionResponse.clash_false (fresh other mem)).2
  · rw [written]
    intro stored mem
    rcases List.mem_append.mp mem with old | new
    · exact early.closed stored old
    · rw [List.mem_singleton.mp new]
      exact ⟨later, laterMem, step.id.trans of.symm, resolution.closed later laterMem step.id⟩
  · rw [written, same]
    intro stored mem
    rcases List.mem_append.mp mem with old | new
    · obtain ⟨segment, known, follows⟩ := early.followed stored old
      exact ⟨segment, List.mem_append_left _ known, follows⟩
    · rw [List.mem_singleton.mp new]
      exact ⟨next, List.mem_append_right _ List.mem_cons_self, reply, ref⟩
  · rw [written, same]
    intro segment mem isReply
    rcases List.mem_append.mp mem with old | new
    · obtain ⟨stored, known, storedRef⟩ := early.replies segment old isReply
      exact ⟨stored, List.mem_append_left _ known, storedRef⟩
    · rw [List.mem_singleton.mp new]
      exact ⟨response, List.mem_append_right _ List.mem_cons_self, ref⟩
  · rw [written, same]
    intro segment mem expiry
    rcases List.mem_append.mp mem with old | new
    · obtain ⟨asked, known, askedRef, closed, none⟩ := early.expiries segment old expiry
      refine ⟨asked, known, askedRef, closed, fun stored mem' equal => ?_⟩
      rcases List.mem_append.mp mem' with old' | new'
      · exact none stored old' equal
      · rw [List.mem_singleton.mp new', of] at equal
        exact unexpired segment old expiry (askedRef.trans (congrArg some equal.symm))
    · rw [List.mem_singleton.mp new] at expiry
      exact absurd expiry plain
  · rw [same]
    refine early.oneReply.add fun _ segment mem isReply equal => ?_
    obtain ⟨stored, known, storedRef⟩ := early.replies segment mem isReply
    rw [storedRef, ref] at equal
    exact (InteractionResponse.clash_false (fresh stored known)).1 (Option.some.inj equal).symm
  · rw [same]
    exact early.oneExpiry.add fun expiry => absurd expiry plain

theorem Resolution.expired (kept : WellKept t)
    (resolution : Resolution t t' interaction next) (once : ResolvedOnce t)
    (written : t'.responses = t.responses) (expiry : next.expiry)
    (ref : next.triggerRef = some interaction.id) : ResolvedOnce t' := by
  obtain ⟨rows, same, passage⟩ := resolution.before
  have unexpired := resolution.unexpired once kept passage.segments
  have early := passage.resolvedOnce once
  obtain ⟨later, laterMem, step⟩ := resolution.interactions.forward resolution.member
  have plain : ¬ next.reply := by
    intro reply
    rw [RunSegment.expiry, reply] at expiry
    revert expiry
    decide
  constructor
  · rw [written]
    exact once.ids
  · rw [written]
    exact once.one
  · rw [written]
    exact early.closed
  · rw [written, same]
    intro stored mem
    obtain ⟨segment, known, follows⟩ := early.followed stored mem
    exact ⟨segment, List.mem_append_left _ known, follows⟩
  · rw [written, same]
    intro segment mem reply
    rcases List.mem_append.mp mem with old | new
    · exact early.replies segment old reply
    · rw [List.mem_singleton.mp new] at reply
      exact absurd reply plain
  · rw [written, same]
    intro segment mem isExpiry
    rcases List.mem_append.mp mem with old | new
    · exact early.expiries segment old isExpiry
    · rw [List.mem_singleton.mp new]
      refine ⟨later, laterMem, by rw [ref, step.id], resolution.closed later laterMem step.id, ?_⟩
      rw [step.id]
      exact (once.open_free kept resolution.member resolution.isOpen).1
  · rw [same]
    exact early.oneReply.add fun reply => absurd reply plain
  · rw [same]
    refine early.oneExpiry.add fun _ segment mem isExpiry equal => ?_
    exact unexpired segment mem isExpiry (equal.trans ref)

theorem Resolution.resolvedOnce (kept : WellKept t)
    (resolution : Resolution t t' interaction next)
    (once : ResolvedOnce t) : ResolvedOnce t' := by
  have cause := resolution.cause
  generalize written : t'.responses = responses at cause
  cases cause with
  | response of fresh trigger ref =>
    exact resolution.answered kept once written of fresh trigger ref
  | timeout trigger ref => exact resolution.expired kept once written trigger ref
  | decision trigger =>
    exact absurd resolution.loud (not_or.mpr (quiet_of_approval trigger))

theorem RunMove.resolvedOnce (kept : WellKept t) (move : RunMove allowed t t')
    (once : ResolvedOnce t) : ResolvedOnce t' := by
  rcases move.resolves kept with passage | ⟨interaction, next, resolution⟩
  · exact passage.resolvedOnce once
  · exact resolution.resolvedOnce kept once

theorem Moves.resolvedOnce (kept : WellKept t) (moves : Moves allowed t t')
    (once : ResolvedOnce t) : ResolvedOnce t' := by
  induction moves with
  | refl => exact once
  | tail before move ih => exact move.resolvedOnce (Moves.wellKept before kept) ih

/-- Responses stay, segments keep what they follow, and a closed question does not change. -/
structure Settled (t t' : RunTables) : Prop where
  responses : t.responses <+: t'.responses
  segments : ∀ segment ∈ t.segments, ∃ later ∈ t'.segments, SegmentStep segment later
  interactions : ∀ interaction ∈ t.interactions, ∃ later ∈ t'.interactions,
    InteractionStep interaction later

theorem Settled.refl (t : RunTables) : Settled t t where
  responses := List.prefix_refl _
  segments segment mem := ⟨segment, mem, .refl segment⟩
  interactions interaction mem := ⟨interaction, mem, .refl interaction⟩

theorem Settled.trans (first : Settled t t') (second : Settled t' t'') : Settled t t'' where
  responses := first.responses.trans second.responses
  segments segment mem := by
    obtain ⟨later, mem', step⟩ := first.segments segment mem
    obtain ⟨last, mem'', step'⟩ := second.segments later mem'
    exact ⟨last, mem'', step.trans segment later last step'⟩
  interactions interaction mem := by
    obtain ⟨later, mem', step⟩ := first.interactions interaction mem
    obtain ⟨last, mem'', step'⟩ := second.interactions later mem'
    exact ⟨last, mem'', step.trans interaction later last step'⟩

theorem RunMove.settled (kept : WellKept t) (move : RunMove allowed t t') : Settled t t' := by
  rcases move.resolves kept with passage | ⟨interaction, next, resolution⟩
  · constructor
    · exact passage.responses ▸ List.prefix_refl _
    · exact fun segment mem => passage.segments.forward mem
    · exact fun interaction mem => passage.interactions.forward mem
  · obtain ⟨rows, segments, same⟩ := resolution.segments
    constructor
    · have cause := resolution.cause
      generalize t'.responses = responses at cause
      cases cause with
      | response => exact List.prefix_append _ _
      | timeout => exact List.prefix_refl _
      | decision => exact List.prefix_refl _
    · intro segment mem
      obtain ⟨later, mem', step⟩ := segments.forward mem
      exact ⟨later, same ▸ List.mem_append_left _ mem', step⟩
    · exact fun interaction mem => resolution.interactions.forward mem

theorem Moves.settled (kept : WellKept t) (moves : Moves allowed t t') : Settled t t' := by
  induction moves with
  | refl => exact Settled.refl t
  | tail before move ih => exact ih.trans (move.settled (Moves.wellKept before kept))

section Store

variable {settings : RunSettings}

theorem resolvedOnce_invariant :
    (runStore settings).Invariant fun t => WellKept t ∧ ResolvedOnce t := by
  rintro t action answer t' ⟨kept, once⟩ committed
  have moves : Moves (fun _ => True) t t' := execRun_moves kept (fun _ _ => trivial) committed
  exact ⟨moves.wellKept kept, moves.resolvedOnce kept once⟩

theorem run_settled (kept : WellKept t) (actions : List RunAction) :
    Settled t ((runStore settings).run t actions) ∧
      Frame t ((runStore settings).run t actions) := by
  induction actions generalizing t with
  | nil => exact ⟨Settled.refl t, Frame.refl t⟩
  | cons action rest ih =>
    rw [TransactionSystem.run_cons]
    cases outcome : (runStore settings).exec action t with
    | error fault =>
      rw [(runStore settings).step_of_fault outcome]
      exact ih kept
    | ok result =>
      obtain ⟨answer, t'⟩ := result
      rw [(runStore settings).step_of_commit outcome]
      have moves : Moves (fun _ => True) t t' :=
        execRun_moves kept (fun _ _ => trivial) outcome
      obtain ⟨settled, frame⟩ := ih (moves.wellKept kept)
      exact ⟨(moves.settled kept).trans settled, (moves.frame kept).trans frame⟩

/-- What a request needs to be answered with its response: the rows it names and its response
with the segment that follows. -/
structure Answers (t : RunTables) (command : RespondCommand) (response : InteractionResponse)
    (next : RunSegment) : Prop where
  version : 1 ≤ command.interactionVersion
  run : ∃ run, t.run = some run ∧ run.id = command.runId ∧ run.projectId = command.projectId
  interaction : ∃ interaction ∈ t.interactions, interaction.id = command.interactionId ∧
    interaction.runId = command.runId ∧ interaction.status ≠ .open ∧
    validateInteractionResponse interaction command.selectedOptionKeys = .ok () ∧
    ∃ segment ∈ t.segments, segment.id = interaction.runSegmentId ∧
      segment.runId = command.runId
  stored : response ∈ t.responses
  of : response.interactionId = command.interactionId
  same : response.actorId = command.actorId ∧ response.runId = command.runId ∧
    response.interactionVersion = command.interactionVersion ∧
    response.idempotencyKey = command.idempotencyKey ∧
    response.requestHash = command.requestHash
  known : next ∈ t.segments
  reply : next.reply
  ref : next.triggerRef = some response.id

def repeated (run : Run) (command : RespondCommand) (response : InteractionResponse)
    (next : RunSegment) : RespondedInteraction :=
  ⟨run.status, run.rowVersion, command.interactionId, response.id, next.id, next.segmentNo,
    next.continuationMode, true⟩

theorem Answers.later {command : RespondCommand} {response : InteractionResponse}
    {next : RunSegment} (answers : Answers t command response next) (settled : Settled t t')
    (frame : Frame t t') :
    ∃ later, Answers t' command response later ∧ SegmentStep next later := by
  obtain ⟨run, found, id, project⟩ := answers.run
  obtain ⟨interaction, member, key, owner, closed, valid, segment, placed, place, place'⟩ :=
    answers.interaction
  obtain ⟨run', found', same⟩ := frame.run run found
  obtain ⟨interaction', member', step⟩ := settled.interactions interaction member
  obtain rfl := step.final closed
  obtain ⟨segment', placed', segmentStep⟩ := settled.segments segment placed
  obtain ⟨later, known, nextStep⟩ := settled.segments next answers.known
  refine ⟨later, ⟨answers.version, ⟨run', found', ?_, ?_⟩, ?_, ?_, answers.of, answers.same,
    known, ?_, ?_⟩, nextStep⟩
  · exact (congrArg Run.id same :).trans id
  · exact (congrArg Run.projectId same :).trans project
  · exact ⟨interaction', member', key, owner, closed, valid, segment', placed',
      segmentStep.id.trans place, (congrArg RunSegment.runId segmentStep.frozen :).trans place'⟩
  · exact settled.responses.subset answers.stored
  · rw [RunSegment.reply, nextStep.trigger]
    exact answers.reply
  · exact nextStep.ref.trans answers.ref

theorem Answers.respond (kept : WellKept t) (once : ResolvedOnce t) {command : RespondCommand}
    {response : InteractionResponse} {next : RunSegment}
    (answers : Answers t command response next) (responseId segmentId : Uuid)
    (now : Timestamp) :
    ∃ run, t.run = some run ∧
      respondToInteraction t command responseId segmentId now =
        .ok (.responded (repeated run command response next), t) := by
  obtain ⟨run, found, id, project⟩ := answers.run
  obtain ⟨interaction, member, key, owner, closed, valid, segment, placed, place, place'⟩ :=
    answers.interaction
  have observed : t.interactions.find? (fun interaction =>
      decide (interaction.id = command.interactionId ∧ interaction.runId = command.runId)) =
      some interaction := by
    refine kept.interactions.find_of member (decide_eq_true ⟨key, owner⟩) fun other holds => ?_
    exact (of_decide_eq_true holds).1.trans key.symm
  have lockedRun : lockRunRow t command.runId (some command.projectId) = some run := by
    rw [lockRunRow, Option.filter_eq_some_iff]
    exact ⟨found, decide_eq_true ⟨id, Or.inr (by rw [project])⟩⟩
  have lockedSegment : lockSegmentRow t interaction.runSegmentId command.runId =
      some segment := by
    refine kept.segments.find_of placed (decide_eq_true ⟨place, place'⟩) fun other holds => ?_
    exact (of_decide_eq_true holds).1.trans place.symm
  have locked : lockInteractionRow t command.interactionId command.runId segment.id =
      .ok interaction := by
    rw [lockInteractionRow, orFault_eq_ok]
    refine kept.interactions.find_of member (decide_eq_true ⟨key, owner, place.symm⟩)
      fun other holds => ?_
    exact (of_decide_eq_true holds).1.trans key.symm
  have existing : t.responses.find? (fun response =>
      decide (response.interactionId = interaction.id)) = some response :=
    once.one.find_eq answers.stored (answers.of.trans key.symm)
  have followed : t.segments.find? (fun segment =>
      decide (segment.triggerRef = some response.id ∧
        segment.triggerType = .interactionResponse)) = some next := by
    cases search : t.segments.find? (fun segment =>
        decide (segment.triggerRef = some response.id ∧
          segment.triggerType = .interactionResponse)) with
    | none =>
      have missed := List.find?_eq_none.mp search next answers.known
      exact absurd (decide_eq_true ⟨answers.ref, answers.reply⟩) missed
    | some other =>
      have holds := of_decide_eq_true (List.find?_some search :)
      have mem := List.mem_of_find?_eq_some search
      have same := once.oneReply other mem next answers.known holds.2 answers.reply
        (holds.1.trans answers.ref.symm)
      rw [kept.segments.eq_of_key mem answers.known same]
  obtain ⟨actor, runOf, version, idempotency, hash⟩ := answers.same
  refine ⟨run, found, ?_⟩
  simp only [respondToInteraction, validateInteractionVersion, require_of answers.version,
    observed, orFault_some, ok_bind, lockedRun, lockedSegment, locked,
    respondToLockedInteraction, valid, existing, followed]
  rw [require_of ⟨actor, runOf.trans id.symm, version, idempotency, hash⟩]
  rw [repeated, key]
  rfl

/-- The answer names the response and the segment that follows it. -/
structure Tells (result : RespondedInteraction) (command : RespondCommand)
    (response : InteractionResponse) (next : RunSegment) : Prop where
  interactionId : result.interactionId = command.interactionId
  responseId : result.responseId = response.id
  runSegmentId : result.runSegmentId = next.id
  segmentNo : result.segmentNo = next.segmentNo
  continuationMode : result.continuationMode = next.continuationMode

theorem respond_answers (kept : WellKept t) (once : ResolvedOnce t) {command : RespondCommand}
    {responseId segmentId : Uuid} {now : Timestamp} {result : RespondedInteraction}
    (accepted : respondToInteraction t command responseId segmentId now =
      .ok (.responded result, t')) :
    ∃ response next, Answers t' command response next ∧ Tells result command response next := by
  simp only [respondToInteraction, validateInteractionVersion, bind_eq_ok, exists_unit,
    require_eq_ok, orFault_eq_ok, respondToLockedInteraction] at accepted
  obtain ⟨positive, observed, _, run, lockedRun, segment, lockedSegment, interaction, locked, -,
    valid, accepted⟩ := accepted
  obtain ⟨found, matching⟩ := Option.filter_eq_some_iff.mp lockedRun
  obtain ⟨id, project⟩ := of_decide_eq_true matching
  have owned : run.projectId = command.projectId := by
    rcases project with none | same
    · cases none
    · exact (Option.some.inj same).symm
  have known := List.mem_of_find?_eq_some lockedSegment
  have placed := of_decide_eq_true (List.find?_some lockedSegment :)
  rw [lockInteractionRow, orFault_eq_ok] at locked
  have member := List.mem_of_find?_eq_some locked
  have place := of_decide_eq_true (List.find?_some locked :)
  split at accepted
  · rename_i response existing
    simp only [bind_eq_ok, exists_unit, require_eq_ok, orFault_eq_ok, pure_eq_ok,
      Prod.mk.injEq, RespondOutcome.responded.injEq] at accepted
    obtain ⟨⟨actor, runOf, version, idempotency, hash⟩, next, followed, rfl, rfl⟩ := accepted
    obtain ⟨stored, of⟩ := find_key existing
    have follows := of_decide_eq_true (List.find?_some followed :)
    obtain ⟨closing, closingMem, same, closed⟩ := once.closed response stored
    obtain rfl := kept.interactions.eq_of_key closingMem member (same.trans of)
    refine ⟨response, next, ?_, ⟨place.1, rfl, rfl, rfl, rfl⟩⟩
    constructor
    · exact positive
    · exact ⟨run, found, id, owned⟩
    · exact ⟨closing, member, place.1, place.2.1, closed, valid, segment, known,
        place.2.2.symm, placed.2⟩
    · exact stored
    · exact of.trans place.1
    · exact ⟨actor, runOf.trans id, version, idempotency, hash⟩
    · exact List.mem_of_find?_eq_some followed
    · exact follows.2
    · exact follows.1
  · simp only [bind_eq_ok, exists_unit, require_eq_ok] at accepted
    obtain ⟨-, isOpen, version, accepted⟩ := accepted
    split at accepted
    · simp only [bind_eq_ok, pure_eq_ok, Prod.mk.injEq, reduceCtorEq, false_and, and_false,
        exists_false] at accepted
    · simp only [bind_eq_ok, exists_unit, require_eq_ok, RunTables.addResponse, insertRow_eq_ok,
        pure_eq_ok, Prod.mk.injEq, RespondOutcome.responded.injEq] at accepted
      obtain ⟨-, _, ⟨_, ⟨fresh, rfl⟩, rfl⟩, _, requeued, rfl, rfl⟩ := accepted
      obtain ⟨-, rfl⟩ := requeue_eq_ok requeued known (by rfl) (by rfl)
      refine ⟨⟨responseId, interaction.id, run.id, command.actorId, interaction.version,
          command.idempotencyKey, command.requestHash⟩,
        nextSegment run segment segmentId .interactionResponse responseId
          interaction.continuationMode interaction.agentSessionId, ?_,
        ⟨place.1, rfl, rfl, rfl, rfl⟩⟩
      constructor
      · exact positive
      · exact ⟨_, rfl, id, owned⟩
      · refine ⟨{ interaction with status := .responded, version := interaction.version + 1 },
          mem_replaceRow_self member rfl, place.1, place.2.1, by simp, valid,
          segment.closed .completed now, ?_, place.2.2.symm, placed.2⟩
        exact List.mem_append_left _ (mem_replaceRow_self known rfl)
      · exact List.mem_append_right _ List.mem_cons_self
      · exact place.1
      · exact ⟨rfl, id, version, rfl, rfl⟩
      · exact List.mem_append_right _ List.mem_cons_self
      · rfl
      · rfl

def FollowsQuestion (t : RunTables) (interaction : UserInteraction) (segment : RunSegment) :
    Prop :=
  (segment.reply ∧ ∃ response ∈ t.responses, response.interactionId = interaction.id ∧
    segment.triggerRef = some response.id) ∨
  (segment.expiry ∧ segment.triggerRef = some interaction.id)

theorem ResolvedOnce.unanswered (once : ResolvedOnce t) (kept : WellKept t)
    {interaction : UserInteraction} (member : interaction ∈ t.interactions)
    {segment : RunSegment} (known : segment ∈ t.segments) (expiry : segment.expiry)
    (ref : segment.triggerRef = some interaction.id) {response : InteractionResponse}
    (stored : response ∈ t.responses) : response.interactionId ≠ interaction.id := by
  obtain ⟨other, asked, otherRef, -, none⟩ := once.expiries segment known expiry
  obtain rfl := kept.interactions.eq_of_key asked member
    (Option.some.inj (otherRef.symm.trans ref))
  exact none response stored

theorem ResolvedOnce.follows_once (once : ResolvedOnce t) (kept : WellKept t)
    {interaction : UserInteraction} (member : interaction ∈ t.interactions)
    {segment other : RunSegment} (known : segment ∈ t.segments) (known' : other ∈ t.segments)
    (follows : FollowsQuestion t interaction segment)
    (follows' : FollowsQuestion t interaction other) : segment = other := by
  apply kept.segments.eq_of_key known known'
  rcases follows with ⟨reply, response, stored, of, ref⟩ | ⟨expiry, ref⟩
  · rcases follows' with ⟨reply', response', stored', of', ref'⟩ | ⟨expiry', ref'⟩
    · have same := once.one.eq_of_key stored stored' (of.trans of'.symm)
      rw [← same] at ref'
      exact once.oneReply segment known other known' reply reply' (ref.trans ref'.symm)
    · exact absurd of (once.unanswered kept member known' expiry' ref' stored)
  · rcases follows' with ⟨reply', response', stored', of', ref'⟩ | ⟨expiry', ref'⟩
    · exact absurd of' (once.unanswered kept member known expiry ref stored')
    · exact once.oneExpiry segment known other known' expiry expiry' (ref.trans ref'.symm)

/-- **Every question is resolved once.**  In every run of the store a question has one response
at most, which stays; once it has left `OPEN` its row does not change; one segment at most
follows it; and an accepted request is answered with the stored response in every later state,
with the status and the version the Run has then, and changes no row. -/
theorem interactions_resolved_once (settings : RunSettings) (before since : List RunAction) :
    let t := (runStore settings).run RunTables.empty before
    let t' := (runStore settings).run t since
    (∀ response ∈ t.responses, ∀ other ∈ t.responses,
      response.interactionId = other.interactionId → response = other) ∧
    t.responses <+: t'.responses ∧
    (∀ interaction ∈ t.interactions, interaction.status ≠ .open →
      interaction ∈ t'.interactions ∧
        ∀ later ∈ t'.interactions, later.id = interaction.id → later = interaction) ∧
    (∀ interaction ∈ t.interactions, ∀ segment ∈ t.segments, ∀ other ∈ t.segments,
      FollowsQuestion t interaction segment → FollowsQuestion t interaction other →
        segment = other) ∧
    ∀ (command : RespondCommand) (responseId segmentId : Uuid) (now : Timestamp)
      (result : RespondedInteraction) (accepted : RunTables),
      (runStore settings).exec (.respondToInteraction command responseId segmentId now) t =
        .ok (.responded (.responded result), accepted) →
      ∀ (responseId' segmentId' : Uuid) (now' : Timestamp),
        let later := (runStore settings).run accepted since
        ∃ run, later.run = some run ∧
          (runStore settings).exec
              (.respondToInteraction command responseId' segmentId' now') later =
            .ok (.responded (.responded { result with
              runStatus := run.status, rowVersion := run.rowVersion, idempotentReplay := true }),
              later) := by
  intro t t'
  obtain ⟨kept, once⟩ : WellKept t ∧ ResolvedOnce t :=
    resolvedOnce_invariant.run ⟨wellKept_empty, resolvedOnce_empty⟩ before
  have kept' : WellKept t' := wellKept_invariant.run kept since
  obtain ⟨settled, -⟩ := run_settled kept since
  refine ⟨?_, settled.responses, ?_, ?_, ?_⟩
  · intro response mem other mem' same
    exact once.one.eq_of_key mem mem' same
  · intro interaction member closed
    obtain ⟨later, mem, step⟩ := settled.interactions interaction member
    obtain rfl := step.final closed
    exact ⟨mem, fun other mem' same => kept'.interactions.eq_of_key mem' mem same⟩
  · intro interaction member segment known other known' follows follows'
    exact once.follows_once kept member known known' follows follows'
  · intro command responseId segmentId now result accepted committed responseId' segmentId' now'
      later
    obtain ⟨keptAccepted, onceAccepted⟩ :=
      resolvedOnce_invariant _ _ _ _ ⟨kept, once⟩ committed
    obtain ⟨keptLater, onceLater⟩ : WellKept later ∧ ResolvedOnce later :=
      resolvedOnce_invariant.run ⟨keptAccepted, onceAccepted⟩ since
    simp only [runStore, execRun, answering_eq_ok, RunAnswer.responded.injEq] at committed
    obtain ⟨_, responded, rfl⟩ := committed
    obtain ⟨response, next, answers, tells⟩ := respond_answers kept once responded
    obtain ⟨settledLater, frame⟩ := run_settled keptAccepted since
    obtain ⟨next', answersLater, step⟩ := answers.later settledLater frame
    obtain ⟨run, found, replayed⟩ :=
      answersLater.respond keptLater onceLater responseId' segmentId' now'
    refine ⟨run, found, ?_⟩
    simp only [runStore, execRun, answering_eq_ok, RunAnswer.responded.injEq]
    refine ⟨_, replayed, ?_⟩
    rw [repeated, tells.interactionId, tells.responseId, tells.runSegmentId, tells.segmentNo,
      tells.continuationMode, step.id,
      show next'.segmentNo = next.segmentNo from
        (congrArg RunSegment.segmentNo step.frozen :),
      show next'.continuationMode = next.continuationMode from
        (congrArg RunSegment.continuationMode step.frozen :)]

end Store

end SkillMind.Runs
