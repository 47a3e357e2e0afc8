import SkillMind.Runs.EffectFencing

/-!
# Status changes are observable

A client follows a Run through its events. The trail of a Run is numbered without repetition, its
last snapshot carries the status and the version of the row, and nothing follows the snapshot of a
terminal status. Every move keeps this but one: a turn that is detached from its inline effect
leaves the Run waiting and writes no snapshot.
-/

namespace SkillMind.Runs

open Library Effects

variable {settings : RunSettings} {allowed : Mark → Prop} {t t' base : RunTables} {run : Run}

/-! ## Trails -/

def RunEvent.snapshot (event : RunEvent) : Option (RunStatus × Nat) :=
  match event.body with
  | .runSnapshot status rowVersion => some (status, rowVersion)
  | _ => none

def RunEvent.closing (event : RunEvent) : Prop :=
  ∃ status version, event.snapshot = some (status, version) ∧ status.terminal = true

def lastSnapshot (events : List RunEvent) : Option (RunStatus × Nat) :=
  (events.filterMap RunEvent.snapshot).getLast?

/-- The trail is numbered without repetition and ends with the snapshot of the row; nothing
follows a terminal snapshot. -/
structure Observed (t : RunTables) : Prop where
  numbered : (t.events.map RunEvent.sequence).Pairwise (· < ·)
  final : ∀ event ∈ t.events.dropLast, ¬ event.closing
  told : ∀ run ∈ t.run, lastSnapshot t.events = some (run.status, run.rowVersion)

theorem sequence_lt_next {event : RunEvent} (member : event ∈ t.events) :
    event.sequence < nextSequence t := by
  have bound : ∀ numbers : List Nat, ∀ n ∈ numbers, n ≤ numbers.foldr max 0 := by
    intro numbers
    induction numbers with
    | nil => simp
    | cons head rest ih =>
      intro n mem
      rcases List.mem_cons.mp mem with rfl | later
      · exact le_max_left _ _
      · exact (ih n later).trans (le_max_right _ _)
  exact Nat.lt_succ_of_le (bound _ _ (List.mem_map_of_mem member))

theorem eventsFrom_sequence (attemptId : Option Uuid) (start : Nat) (bodies : List RunEventBody) :
    (eventsFrom attemptId start bodies).map RunEvent.sequence =
      List.range' start bodies.length := by
  induction bodies generalizing start with
  | nil => rfl
  | cons body rest ih =>
    rw [eventsFrom, List.map_cons, ih, List.length_cons, List.range'_succ]

theorem eventsFrom_append (attemptId : Option Uuid) (start : Nat)
    (first second : List RunEventBody) :
    eventsFrom attemptId start (first ++ second) =
      eventsFrom attemptId start first ++
        eventsFrom attemptId (start + first.length) second := by
  induction first generalizing start with
  | nil => rfl
  | cons body rest ih =>
    rw [List.cons_append, eventsFrom, eventsFrom, ih, List.cons_append, List.length_cons,
      Nat.add_right_comm, Nat.add_assoc]

theorem eventsFrom_quiet (attemptId : Option Uuid) (start : Nat)
    (bodies : List RunEventBody) (quiet : ∀ body ∈ bodies, ∀ status version,
      body ≠ .runSnapshot status version) :
    ∀ event ∈ eventsFrom attemptId start bodies, event.snapshot = none := by
  induction bodies generalizing start with
  | nil =>
    intro event mem
    cases mem
  | cons body rest ih =>
    intro event mem
    rcases List.mem_cons.mp mem with rfl | later
    · have head := quiet body List.mem_cons_self
      cases body with
      | runSnapshot status version => exact absurd rfl (head status version)
      | runCancelRequested status => rfl
      | agent eventType => rfl
    · exact ih _ (fun body mem => quiet body (List.mem_cons_of_mem _ mem)) event later

theorem quiet_agents (types : List AgentEventType) :
    ∀ body ∈ types.map RunEventBody.agent, ∀ status version,
      body ≠ .runSnapshot status version := by
  intro body mem status version
  obtain ⟨eventType, -, rfl⟩ := List.mem_map.mp mem
  simp

theorem lastSnapshot_append_quiet {events added : List RunEvent}
    (quiet : ∀ event ∈ added, event.snapshot = none) :
    lastSnapshot (events ++ added) = lastSnapshot events := by
  rw [lastSnapshot, List.filterMap_append, List.filterMap_eq_nil_iff.mpr quiet, List.append_nil]
  rfl

/-- No terminal snapshot has been written. -/
def OpenTrail (events : List RunEvent) : Prop := ∀ event ∈ events, ¬ event.closing

theorem Observed.openTrail (observed : Observed t) (found : t.run = some run)
    (lives : run.status.terminal = false) : OpenTrail t.events := by
  intro event mem closing
  rcases List.eq_nil_or_concat t.events with none | ⟨before, last, split⟩
  · rw [none] at mem
    cases mem
  · rw [List.concat_eq_append] at split
    have final := observed.final
    rw [split, List.dropLast_concat] at final
    rw [split] at mem
    rcases List.mem_append.mp mem with earlier | isLast
    · exact final event earlier closing
    · obtain ⟨status, version, isSnapshot, terminal⟩ := closing
      rw [List.mem_singleton.mp isLast] at isSnapshot
      have told := observed.told run found
      rw [split, lastSnapshot, List.filterMap_append, List.filterMap_cons_some isSnapshot,
        List.filterMap_nil, List.getLast?_concat, Option.some.injEq, Prod.mk.injEq] at told
      rw [told.1, lives] at terminal
      cases terminal

theorem OpenTrail.append {events added : List RunEvent} (isOpen : OpenTrail events)
    (quiet : ∀ event ∈ added, event.snapshot = none) : OpenTrail (events ++ added) := by
  intro event mem closing
  rcases List.mem_append.mp mem with old | new
  · exact isOpen event old closing
  · obtain ⟨status, version, isSnapshot, -⟩ := closing
    rw [quiet event new] at isSnapshot
    cases isSnapshot

theorem numbered_append (numbered : (t.events.map RunEvent.sequence).Pairwise (· < ·))
    {attemptId : Option Uuid} {start : Nat} (bodies : List RunEventBody)
    (later : nextSequence t ≤ start) :
    ((t.events ++ eventsFrom attemptId start bodies).map RunEvent.sequence).Pairwise
      (· < ·) := by
  rw [List.map_append, eventsFrom_sequence]
  refine List.pairwise_append.mpr ⟨numbered, List.pairwise_lt_range', ?_⟩
  intro n mem m memAdded
  obtain ⟨event, eventMem, rfl⟩ := List.mem_map.mp mem
  have below := sequence_lt_next eventMem
  have above := (List.mem_range'_1.mp memAdded).1
  omega

theorem announce_observed (numbered : (base.events.map RunEvent.sequence).Pairwise (· < ·))
    (isOpen : OpenTrail base.events) {attemptId : Option Uuid} {start : Nat}
    {types : List AgentEventType} (later : nextSequence base ≤ start) (run : Run) :
    Observed (base.announce run attemptId start types) where
  numbered := numbered_append numbered _ later
  final := by
    have quiet := eventsFrom_quiet attemptId start _ (quiet_agents types)
    show ∀ event ∈ (base.events ++ eventsFrom attemptId start
      (types.map RunEventBody.agent ++ [.runSnapshot run.status run.rowVersion])).dropLast, _
    rw [eventsFrom_append, ← List.append_assoc, eventsFrom, eventsFrom, List.dropLast_concat]
    exact isOpen.append quiet
  told := by
    rintro _ ⟨⟩
    show lastSnapshot (base.events ++ eventsFrom attemptId start
      (types.map RunEventBody.agent ++ [.runSnapshot run.status run.rowVersion])) = _
    rw [eventsFrom_append, ← List.append_assoc, lastSnapshot, List.filterMap_append]
    exact List.getLast?_concat

theorem Observed.noted (observed : Observed t) (found : t.run = some run)
    (lives : run.status.terminal = false) {attemptId : Option Uuid} {start : Nat}
    {bodies : List RunEventBody}
    (quiet : ∀ body ∈ bodies, ∀ status version, body ≠ .runSnapshot status version)
    (later : nextSequence t ≤ start) (same : t'.run = t.run)
    (written : t'.events = t.events ++ eventsFrom attemptId start bodies) : Observed t' where
  numbered := by
    rw [written]
    exact numbered_append observed.numbered bodies later
  final event mem := by
    rw [written] at mem
    exact (observed.openTrail found lives).append (eventsFrom_quiet attemptId start bodies quiet)
      event (List.dropLast_subset _ mem)
  told run' found' := by
    rw [written, lastSnapshot_append_quiet (eventsFrom_quiet attemptId start bodies quiet)]
    exact observed.told run' (same ▸ found')

theorem Observed.same (observed : Observed t) (run : t'.run = t.run := by rfl)
    (events : t'.events = t.events := by rfl) : Observed t' where
  numbered := by
    rw [events]
    exact observed.numbered
  final := by
    rw [events]
    exact observed.final
  told run' found' := by
    rw [events]
    exact observed.told run' (run ▸ found')

theorem lives_of_mem {status : RunStatus} {statuses : List RunStatus} (mem : status ∈ statuses)
    (lives : ∀ status ∈ statuses, status.terminal = false := by decide) :
    status.terminal = false :=
  lives status mem

theorem Observed.announced (observed : Observed t) (found : t.run = some run)
    (lives : run.status.terminal = false) {attemptId : Option Uuid} {start : Nat}
    {types : List AgentEventType} (later : nextSequence t ≤ start) {run' : Run}
    (events : base.events = t.events := by rfl) :
    Observed (base.announce run' attemptId start types) := by
  refine announce_observed ?_ ?_ ?_ run'
  · rw [events]
    exact observed.numbered
  · rw [events]
    exact observed.openTrail found lives
  · rwa [nextSequence, events]

theorem Ending.observed (ending : Ending base t') (observed : Observed t)
    (found : t.run = some run) (lives : run.status.terminal = false)
    (events : base.events = t.events) :
    Observed t' ∨ (base.run = t'.run ∧ (∃ run ∈ base.run, run.status = .waitingForApproval) ∧
      ∃ types : List AgentEventType, t'.events = base.events ++
        eventsFrom none (nextSequence base) (types.map RunEventBody.agent)) := by
  have later : nextSequence t ≤ nextSequence base := by
    rw [nextSequence, nextSequence, events]
  cases ending with
  | stopped => exact Or.inl (observed.announced found lives later events)
  | continued => exact Or.inl ((observed.announced found lives later events).same)
  | again waits waiting calm member failed known types =>
    exact Or.inr ⟨rfl, ⟨_, waits, waiting⟩, types, rfl⟩

theorem RunMove.observed (kept : WellKept t) (heard : ¬ allowed .silentDetach)
    (move : RunMove allowed t t') (observed : Observed t) : Observed t' := by
  cases move with
  | created absent queued version first opened =>
    have none := (kept.unborn absent).events
    have only : t.events ++ [⟨Option.none, 1, .runSnapshot .queued 1⟩] =
        [⟨Option.none, 1, .runSnapshot .queued 1⟩] := by rw [none, List.nil_append]
    constructor
    · rw [only]
      exact List.pairwise_singleton _ _
    · rw [only]
      intro event mem
      cases mem
    · rintro _ ⟨⟩
      rw [only, queued, version]
      rfl
  | noted found lives later types =>
    exact observed.noted found lives (quiet_agents types) later rfl rfl
  | cancellationRecorded found calm held =>
    refine observed.noted found ?_ (by simp) le_rfl rfl rfl
    rcases held with active | ⟨waiting, -⟩
    · exact lives_of_mem active
    · exact lives_of_mem (List.mem_singleton.mpr waiting)
  | claimed found due => exact observed.announced found (lives_of_mem due) le_rfl
  | exhausted found due => exact observed.announced found (lives_of_mem due) le_rfl
  | prepared turn preparing =>
    exact observed.announced turn.found (by rw [preparing]; rfl) le_rfl
  | released types turn held own inactive targets wins later written posted =>
    subst written
    rcases posted with ⟨-, reason, rfl⟩ | ⟨-, rfl⟩
    · exact (observed.announced turn.found (lives_of_mem held) later).same
    · exact observed.announced turn.found (lives_of_mem held) later
  | asked suspends ordinary isOpen free place fresh later =>
    exact observed.announced suspends.found (by rw [suspends.running]; rfl) later
  | answered found waiting =>
    exact (observed.announced found (lives_of_mem waiting) le_rfl).same
  | proposed suspends deferred newProposal approval isOpen fresh later =>
    exact observed.announced suspends.found (by rw [suspends.running]; rfl) later
  | proposedApproved suspends deferred newProposal new later =>
    exact observed.announced suspends.found (by rw [suspends.running]; rfl) later
  | detached turn running known inline owner written same after marked =>
    have waits (still : ∃ run' ∈ t'.run, run'.status = .waitingForApproval) : Observed t' :=
      absurd (marked still) heard
    rcases after with ⟨-, rfl⟩ | ⟨-, ending⟩
    · exact waits ⟨_, rfl, rfl⟩
    · rcases ending.observed observed turn.found (by rw [running]; rfl) rfl with
        announced | ⟨run, still, -⟩
      · exact announced
      · exact waits (run ▸ still)
  | approved proposal found waiting member isOpen known new types =>
    exact observed.noted found (by rw [waiting]; rfl) (quiet_agents types) le_rfl rfl rfl
  | concluded found waiting member unfinished settlement ending =>
    have lives := lives_of_mem (List.mem_singleton.mpr waiting)
    rcases ending.observed observed found lives rfl with announced | ⟨run, -, types, events⟩
    · exact announced
    · exact observed.noted found lives (quiet_agents types) le_rfl run.symm events
  | withdrawn found due => exact observed.announced found (lives_of_mem due) le_rfl
  | cancelled found waiting =>
    exact observed.announced found (lives_of_mem (of_decide_eq_true waiting)) le_rfl
  | transitioned found planned marked =>
    refine observed.announced found (Bool.eq_false_of_not_eq_true fun terminal => ?_) le_rfl
    rw [allowedRunTransitions_terminal.mpr terminal] at planned
    cases planned
  | _ => exact observed.same

theorem Ending.events (ending : Ending base t') : base.events <+: t'.events := by
  cases ending <;> exact List.prefix_append _ _

theorem RunMove.events (move : RunMove allowed t t') : t.events <+: t'.events := by
  cases move with
  | released types turn held own inactive targets wins later written posted =>
    subst written
    rcases posted with ⟨-, reason, rfl⟩ | ⟨-, rfl⟩ <;> exact List.prefix_append _ _
  | detached turn running known inline owner written same after marked =>
    rcases after with ⟨-, rfl⟩ | ⟨-, ending⟩
    · exact List.prefix_refl _
    · exact ending.events
  | concluded found waiting member unfinished settlement ending => exact ending.events
  | created => exact List.prefix_append _ _
  | noted => exact List.prefix_append _ _
  | cancellationRecorded => exact List.prefix_append _ _
  | claimed => exact List.prefix_append _ _
  | exhausted => exact List.prefix_append _ _
  | prepared => exact List.prefix_append _ _
  | asked => exact List.prefix_append _ _
  | answered => exact List.prefix_append _ _
  | proposed => exact List.prefix_append _ _
  | proposedApproved => exact List.prefix_append _ _
  | approved => exact List.prefix_append _ _
  | withdrawn => exact List.prefix_append _ _
  | cancelled => exact List.prefix_append _ _
  | transitioned => exact List.prefix_append _ _
  | _ => exact List.prefix_refl _

theorem Moves.observed (moves : Moves allowed t t') (heard : ¬ allowed .silentDetach)
    (kept : WellKept t) (observed : Observed t) :
    Observed t' ∧ t.events <+: t'.events := by
  induction moves with
  | refl => exact ⟨observed, List.prefix_refl _⟩
  | tail before move ih =>
    exact ⟨move.observed (Moves.wellKept before kept) heard ih.1, ih.2.trans move.events⟩

theorem execRun_observed {action : RunAction} {answer : RunAnswer} (kept : WellKept t)
    (observed : Observed t) (heard : ¬ action.bears t .silentDetach)
    (committed : (runStore settings).exec action t = .ok (answer, t')) :
    Observed t' ∧ t.events <+: t'.events := by
  have moves : Moves (fun mark => mark ≠ .silentDetach) t t' := by
    refine execRun_moves kept (fun mark bears => ?_) committed
    rintro rfl
    exact heard bears
  exact moves.observed (fun marked => marked rfl) kept observed

theorem snapshot_of_change {added : List RunEvent} (before : Observed t) (after : Observed t')
    (written : t'.events = t.events ++ added) {run' : Run} (found' : t'.run = some run')
    (changed : t.run.map (fun run => (run.status, run.rowVersion)) ≠
      some (run'.status, run'.rowVersion)) (born : t.run = none → t.events = []) :
    ∃ event ∈ added, event.snapshot = some (run'.status, run'.rowVersion) := by
  have told := after.told run' found'
  rw [written, lastSnapshot, List.filterMap_append] at told
  rcases List.eq_nil_or_concat (added.filterMap RunEvent.snapshot) with none | ⟨_, last, some⟩
  · exfalso
    rw [none, List.append_nil] at told
    cases found : t.run with
    | none =>
      rw [born found] at told
      cases told
    | some run =>
      refine changed ?_
      rw [found, Option.map_some, ← told]
      exact (before.told run found).symm
  · rw [some, List.concat_eq_append, ← List.append_assoc, List.getLast?_concat] at told
    have member : last ∈ added.filterMap RunEvent.snapshot := by
      rw [some, List.concat_eq_append]
      exact List.mem_append_right _ List.mem_cons_self
    obtain ⟨event, eventMem, isSnapshot⟩ := List.mem_filterMap.mp member
    exact ⟨event, eventMem, isSnapshot.trans told⟩

/-- **Status changes are observable** in every run whose detached turns do not leave the Run
waiting: the trail is numbered increasingly, nothing follows a terminal snapshot, the last
snapshot is the row, and a transaction that changes the status or the version of the Run
appends the snapshot of the new ones. -/
theorem status_changes_observed (actions : List RunAction)
    (heard : (runStore settings).Along (fun t action => ¬ action.bears t .silentDetach)
      RunTables.empty actions) :
    let t := (runStore settings).run RunTables.empty actions
    (t.events.map RunEvent.sequence).Pairwise (· < ·) ∧
    (∀ event ∈ t.events.dropLast, ¬ event.closing) ∧
    (∀ run ∈ t.run, lastSnapshot t.events = some (run.status, run.rowVersion)) ∧
    ∀ action answer t', ¬ action.bears t .silentDetach →
      (runStore settings).exec action t = .ok (answer, t') →
      ∃ added, t'.events = t.events ++ added ∧
        ∀ run' ∈ t'.run, t.run.map (fun run => (run.status, run.rowVersion)) ≠
            some (run'.status, run'.rowVersion) →
          ∃ event ∈ added, event.snapshot = some (run'.status, run'.rowVersion) := by
  intro t
  have nothing : WellKept RunTables.empty ∧ Observed RunTables.empty :=
    ⟨wellKept_empty, List.Pairwise.nil, fun _ mem => (nomatch mem), fun _ found => nomatch found⟩
  have keeps : ∀ s action answer s', WellKept s ∧ Observed s →
      ¬ RunAction.bears s action .silentDetach →
      (runStore settings).exec action s = .ok (answer, s') → WellKept s' ∧ Observed s' := by
    intro s action answer s' holds meets committed
    exact ⟨wellKept_invariant s action answer s' holds.1 committed,
      (execRun_observed holds.1 holds.2 meets committed).1⟩
  have reached : WellKept t ∧ Observed t :=
    (runStore settings).run_of_along keeps nothing heard
  obtain ⟨kept, observed⟩ := reached
  refine ⟨observed.numbered, observed.final, observed.told, ?_⟩
  intro action answer t' meets committed
  obtain ⟨after, added, written⟩ := execRun_observed kept observed meets committed
  refine ⟨added, written.symm, fun run' found' changed => ?_⟩
  exact snapshot_of_change observed after written.symm found' changed fun absent =>
    (kept.unborn absent).events

/-- The sample turn starts, and its changes are heard. -/
theorem status_changes_observed_sample :
    lastSnapshot ((runStore sampleSettings).run RunTables.empty sampleTurn).events =
      some (.running, 3) := by
  have heard : (runStore sampleSettings).Along (fun t action => ¬ action.bears t .silentDetach)
      RunTables.empty sampleTurn := ⟨id, id, id, id, trivial⟩
  obtain ⟨run, found, running, version⟩ :
      ∃ run ∈ ((runStore sampleSettings).run RunTables.empty sampleTurn).run,
        run.status = .running ∧ run.rowVersion = 3 := by
    decide
  rw [(status_changes_observed sampleTurn heard).2.2.1 run found, running, version]

def sampleFailure : FinalReport :=
  ⟨⟨.failed, .failed, none, none, false, none, none⟩, by decide⟩

/-- The turn takes an approved write inside itself. -/
def sampleInline : List RunAction :=
  sampleTurn ++
    [ .suspendForProposal firstClaim (.inline "tool" 30) sampleDraft
        (.ok ⟨50, some 51, .postgres⟩) (.ok ()) (.ok ()) none "rh" ⟨60, 61, 62, 63, 64⟩ 100 100 ]

/-- The executor finalizes the turn while its inline write is unfinished: the Run waits for an
approval from now on, and the last snapshot still says that it is running. -/
theorem status_change_unobserved :
    ((runStore sampleSettings).run RunTables.empty
        (sampleInline ++ [.finalizeExecution firstClaim sampleFailure (.ok ()) 42 43 100])).run.map
        (fun run => (run.status, run.rowVersion)) = some (.waitingForApproval, 4) ∧
      lastSnapshot ((runStore sampleSettings).run RunTables.empty
        (sampleInline ++ [.finalizeExecution firstClaim sampleFailure (.ok ()) 42 43 100])).events =
        some (.running, 3) := by
  decide

end SkillMind.Runs
