import SkillMind.Runs.InteractionsOnce
import SkillMind.Runs.RunTrail

/-!
# One turn at a time

Without the generic transition an attempt is active exactly while the Run is preparing or
running, it is the only one, and it works on the last segment; every earlier segment has ended
(`turns_exclusive`).  In every run of the store a row version stands for one row of the Run, a
terminal Run is final (`versions_stand`), and what is recorded is not rewritten
(`record_kept`).
-/

namespace SkillMind.Runs

open Library Effects

def RunStatus.held (status : RunStatus) : Bool := status ∈ [.preparing, .running]

def RunSegmentStatus.ended (status : RunSegmentStatus) : Bool :=
  status ∈ [.completed, .failed, .cancelled]

def activeCount (attempts : List RunAttempt) : Nat :=
  attempts.countP fun attempt => attempt.status.active

def RunTables.isHeld (t : RunTables) : Bool := t.run.any fun run => run.status.held

/-- Only the last segment can be open. -/
def Past (segments : List RunSegment) : Prop :=
  ∀ segment ∈ segments, segment.status.ended = false → segment.segmentNo = segments.length

structure Turned (t : RunTables) : Prop where
  leases : activeCount t.attempts = t.isHeld.toNat
  place : ∀ attempt ∈ t.attempts, attempt.status.active = true → ∃ segment ∈ t.segments,
    attempt.runSegmentId = some segment.id ∧ segment.segmentNo = t.segments.length
  past : Past t.segments

variable {allowed : Mark → Prop} {t t' : RunTables} {run : Run} {segment row : RunSegment}
  {attempt : RunAttempt}

/-! ## Segments -/

theorem Past.written {segments : List RunSegment} (past : Past segments)
    (number : row.segmentNo = segment.segmentNo)
    (last : row.status.ended = false → segment.segmentNo = segments.length) :
    Past (replaceRow RunSegment.id row segments) := by
  intro other mem isOpen
  rw [length_replaceRow]
  rcases mem_replaceRow mem with ⟨rfl, -⟩ | ⟨old, -⟩
  · exact number.trans (last isOpen)
  · exact past other old isOpen

theorem Past.proceeded (past : Past t.segments) (kept : WellKept t) {next : RunSegment}
    {now : Timestamp} (follows : Follows t segment next now) :
    Past (t.proceed segment next now).segments := by
  have last := kept.follows_last follows
  have numbers : (t.segments.map RunSegment.segmentNo).Nodup := by
    rw [kept.numbers]
    exact List.nodup_range'
  intro other mem isOpen
  change other ∈ replaceRow RunSegment.id _ t.segments ++ [next] at mem
  change other.segmentNo = (replaceRow RunSegment.id _ t.segments ++ [next]).length
  rw [List.length_append, length_replaceRow, List.length_singleton]
  rcases List.mem_append.mp mem with mem | mem
  · rcases mem_replaceRow mem with ⟨rfl, -⟩ | ⟨old, ne⟩
    · cases isOpen
    · have same := List.inj_on_of_nodup_map numbers old follows.known
        ((past other old isOpen).trans last.symm)
      exact absurd (congrArg RunSegment.id same) ne
  · rw [List.mem_singleton.mp mem, follows.number, last]

theorem latest_last (kept : WellKept t) (latest : latestSegment t = some segment) :
    segment.segmentNo = t.segments.length := by
  have known := WellKept.latest_known latest
  obtain ⟨low, high⟩ := kept.number_le known
  obtain ⟨last, lastMem, number⟩ := kept.number_mem (by omega : 1 ≤ t.segments.length) le_rfl
  have most := List.le_of_mem_argmax lastMem latest
  omega

/-! ## Attempts -/

theorem active_written (kept : WellKept t) (member : attempt ∈ t.attempts) (later : RunAttempt)
    (same : later.id = attempt.id := by rfl) :
    activeCount (replaceRow RunAttempt.id later t.attempts) + attempt.status.active.toNat =
      activeCount t.attempts + later.status.active.toNat :=
  countP_replaceRow _ kept.attempts member same.symm

namespace Turned

/-- Nobody holds a Run that is neither preparing nor running. -/
theorem rest (turned : Turned t) (found : t.run = some run) (left : run.status.held = false) :
    activeCount t.attempts = 0 := by
  rw [turned.leases, RunTables.isHeld, found, Option.any_some, left]
  rfl

theorem inactive (none : activeCount t.attempts = 0) (member : attempt ∈ t.attempts) :
    attempt.status.active = false :=
  Bool.eq_false_of_not_eq_true (List.countP_eq_zero.mp none attempt member)

theorem idle (none : activeCount t.attempts = 0) (free : t.isHeld = false)
    (past : Past t.segments) : Turned t where
  leases := by rw [none, free]; rfl
  place attempt member active := by
    rw [inactive none member] at active
    cases active
  past := past

theorem isHeld (turned : Turned t) (member : attempt ∈ t.attempts)
    (active : attempt.status.active = true) : t.isHeld = true := by
  have some : 0 < activeCount t.attempts := List.countP_pos_iff.mpr ⟨attempt, member, active⟩
  rw [turned.leases] at some
  exact Bool.toNat_eq_one.mp (by have := Bool.toNat_le t.isHeld; omega)

theorem only (turned : Turned t) {other : RunAttempt} (otherMem : other ∈ t.attempts)
    (otherActive : other.status.active = true) (member : attempt ∈ t.attempts)
    (active : attempt.status.active = true) : other = attempt := by
  have one : activeCount t.attempts = 1 := by rw [turned.leases, turned.isHeld member active]; rfl
  rw [activeCount, List.countP_eq_length_filter, List.length_eq_one_iff] at one
  obtain ⟨only, same⟩ := one
  have isOnly {held : RunAttempt} (heldMem : held ∈ t.attempts)
      (heldActive : held.status.active = true) : held = only :=
    List.mem_singleton.mp (same ▸ List.mem_filter.mpr ⟨heldMem, heldActive⟩)
  rw [isOnly otherMem otherActive, isOnly member active]

/-- Only the status of the Run, its attempts and its segments matter. -/
theorem of (turned : Turned t) (held : t'.isHeld = t.isHeld := by rfl)
    (attempts : t'.attempts = t.attempts := by rfl)
    (segments : t'.segments = t.segments := by rfl) : Turned t' where
  leases := by rw [held, attempts, turned.leases]
  place := by rw [attempts, segments]; exact turned.place
  past := by rw [segments]; exact turned.past

/-- The attempt is written, and it is as active as before on the same segment. -/
theorem attempt_written (turned : Turned t) (kept : WellKept t) (member : attempt ∈ t.attempts)
    {later : RunAttempt} (attempts : t'.attempts = replaceRow RunAttempt.id later t.attempts)
    (held : t'.isHeld = t.isHeld := by rfl) (segments : t'.segments = t.segments := by rfl)
    (same : later.id = attempt.id := by rfl)
    (active : later.status.active = attempt.status.active := by rfl)
    (on : later.runSegmentId = attempt.runSegmentId := by rfl) : Turned t' where
  leases := by
    have counted := active_written kept member later same
    rw [active] at counted
    rw [attempts, held]
    exact (Nat.add_right_cancel counted).trans turned.leases
  place other mem isActive := by
    rw [segments]
    rcases mem_replaceRow (attempts ▸ mem) with ⟨rfl, -⟩ | ⟨old, -⟩
    · rw [on]
      exact turned.place attempt member (active ▸ isActive)
    · exact turned.place other old isActive
  past := by rw [segments]; exact turned.past

theorem segment_written (turned : Turned t) (kept : WellKept t) (known : segment ∈ t.segments)
    (last : row.status.ended = false → segment.segmentNo = t.segments.length)
    (same : row.id = segment.id := by rfl) (number : row.segmentNo = segment.segmentNo := by rfl) :
    Turned { t with segments := replaceRow RunSegment.id row t.segments } where
  leases := turned.leases
  place other mem isActive := by
    obtain ⟨place, placeMem, on, isLast⟩ := turned.place other mem isActive
    rw [length_replaceRow]
    by_cases written : place.id = row.id
    · refine ⟨row, mem_replaceRow_self placeMem written, written ▸ on, ?_⟩
      rw [number, ← isLast, kept.segments.eq_of_key placeMem known (written.trans same)]
    · exact ⟨place, mem_replaceRow_of_ne placeMem written, on, isLast⟩
  past := turned.past.written number last

/-- The segment of a turn is the last one. -/
theorem turn_last (turned : Turned t) (kept : WellKept t) (turn : Turn t run segment attempt) :
    segment.segmentNo = t.segments.length := by
  obtain ⟨place, placeMem, on, isLast⟩ := turned.place attempt turn.member turn.active
  have same := Option.some.inj (on.symm.trans turn.on)
  rw [← isLast, kept.segments.eq_of_key placeMem turn.known same]

/-- The turn ends, and the Run is left. -/
theorem left (turned : Turned t) (kept : WellKept t) (turn : Turn t run segment attempt)
    {later : RunAttempt} (inactive : later.status.active = false)
    (attempts : t'.attempts = replaceRow RunAttempt.id later t.attempts)
    (segments : t'.segments = replaceRow RunSegment.id row t.segments)
    (free : t'.isHeld = false) (same : later.id = attempt.id := by rfl)
    (number : row.segmentNo = segment.segmentNo := by rfl) : Turned t' := by
  have counted := active_written kept turn.member later same
  have one : t.isHeld.toNat ≤ 1 := Bool.toNat_le _
  rw [turn.active, inactive, turned.leases] at counted
  refine idle ?_ free ?_
  · rw [attempts]
    exact Nat.le_zero.mp (by simpa using counted.le.trans (Nat.add_le_add_right one 0))
  · rw [segments]
    exact turned.past.written number fun _ => turned.turn_last kept turn

end Turned

/-! ## Moves -/

theorem left_of_mem {status : RunStatus} {statuses : List RunStatus} (mem : status ∈ statuses)
    (left : statuses.all (fun status => !status.held) = true := by rfl) : status.held = false := by
  simpa using List.all_eq_true.mp left status mem

theorem Ending.turned (ending : Ending t t') (kept : WellKept t) (turned : Turned t) :
    Turned t' := by
  cases ending with
  | stopped found waiting known stops =>
    have none := turned.rest found (by rw [waiting]; rfl)
    refine .idle none ?_ (turned.past.written rfl fun isOpen => ?_)
    · exact left_of_mem stops
    · rcases List.mem_cons.mp stops with rfl | last
      · cases isOpen
      · rw [List.mem_singleton.mp last] at isOpen
        cases isOpen
  | continued found waiting calm follows =>
    exact .idle (turned.rest found (by rw [waiting]; rfl)) rfl (turned.past.proceeded kept follows)
  | again => exact turned.of

theorem RunMove.turned (kept : WellKept t) (planned : ¬ allowed .transition)
    (move : RunMove allowed t t') (turned : Turned t) : Turned t' := by
  cases move with
  | created absent queued version first opened =>
    obtain ⟨segments, attempts, -, -, -, -, -⟩ := kept.unborn absent
    refine .idle (by rw [attempts]; rfl) ?_ ?_
    · change (RunStatus.held _) = false
      rw [queued]
      rfl
    · intro other mem _
      rw [segments, List.nil_append] at mem ⊢
      rw [List.mem_singleton.mp mem, first]
      rfl
  | leaseExtended member => exact turned.attempt_written kept member rfl
  | claimed found due latest leased on bare fresh =>
    have none := turned.rest found (left_of_mem due)
    have known := WellKept.latest_known latest
    have last := latest_last kept latest
    refine ⟨?_, fun other mem isActive => ?_, turned.past.written rfl fun _ => last⟩
    · change activeCount (t.attempts ++ [_]) = 1
      rw [activeCount, List.countP_append, List.countP_singleton, leased]
      rw [activeCount] at none
      rw [none]
      rfl
    · rcases List.mem_append.mp mem with old | new
      · rw [Turned.inactive none old] at isActive
        cases isActive
      · rw [List.mem_singleton.mp new]
        refine ⟨_, mem_replaceRow_self known rfl, on, ?_⟩
        exact last.trans (length_replaceRow _ _).symm
  | exhausted found due known =>
    have none := turned.rest found (left_of_mem due)
    exact .idle none rfl (turned.past.written rfl nofun)
  | @prepared run segment attempt startedAt now turn preparing =>
    have base : Turned { t with
        segments := replaceRow RunSegment.id { segment with status := .running, startedAt }
          t.segments } :=
      turned.segment_written kept turn.known fun _ => turned.turn_last kept turn
    refine base.attempt_written (kept.segment_written turn.known) turn.member rfl ?_ rfl rfl
      turn.active.symm
    change RunStatus.held .running = t.isHeld
    rw [RunTables.isHeld, turn.found, Option.any_some, preparing]
    rfl
  | released types turn held own inactive targets wins later written posted =>
    subst written
    rcases posted with ⟨-, reason, rfl⟩ | ⟨-, rfl⟩ <;>
      exact turned.left kept turn inactive rfl rfl (left_of_mem targets)
  | attemptExpired found left member =>
    have none := turned.rest found (by simpa [RunStatus.held] using left)
    refine turned.attempt_written kept member rfl rfl rfl rfl (Turned.inactive none member).symm
  | asked suspends =>
    exact turned.left kept suspends.toTurn rfl rfl rfl rfl
  | answered found waiting member isOpen closes follows =>
    exact .idle (turned.rest found (left_of_mem waiting)) rfl (turned.past.proceeded kept follows)
  | proposed suspends =>
    exact turned.left kept suspends.toTurn rfl rfl rfl rfl
  | proposedApproved suspends =>
    exact turned.left kept suspends.toTurn rfl rfl rfl rfl
  | held turn =>
    exact turned.attempt_written kept turn.member rfl
  | delivered member =>
    exact turned.attempt_written kept member rfl
  | detached turn running known inline owner written same after =>
    rcases after with ⟨-, rfl⟩ | ⟨-, ending⟩
    · exact turned.left kept turn rfl rfl rfl rfl
    · exact ending.turned (kept.detached turn known inline owner)
        (turned.left kept turn rfl rfl rfl rfl)
  | concluded found waiting member unfinished settlement ending =>
    exact ending.turned (kept.effect_written member settlement.id.1 settlement.id.2) turned.of
  | withdrawn found due latest =>
    exact .idle (turned.rest found (left_of_mem due)) rfl (turned.past.written rfl nofun)
  | @cancelled run segment now found waiting latest =>
    have none := turned.rest found (left_of_mem (of_decide_eq_true waiting))
    refine .idle ?_ rfl (turned.past.written rfl nofun)
    have base : WellKept { t with
        segments := replaceRow RunSegment.id (segment.closed .cancelled now) t.segments } :=
      kept.segment_written (WellKept.latest_known latest)
    rcases WellKept.closeWaiting_attempts
        { t with segments := replaceRow RunSegment.id (segment.closed .cancelled now) t.segments }
        (some segment) now with same | ⟨attempt, member, deferred, written⟩
    · exact (congrArg activeCount same).trans none
    · have counted := active_written base member
        { attempt with status := .cancelled, finishedAt := some now }
      rw [deferred] at counted
      exact (congrArg activeCount written).trans (counted.trans none)
  | transitioned found allowed marked => exact absurd marked planned
  | _ => exact turned.of

theorem Moves.turned (moves : Moves allowed t t') (planned : ¬ allowed .transition)
    (kept : WellKept t) (turned : Turned t) : Turned t' := by
  induction moves with
  | refl => exact turned
  | tail before move ih => exact move.turned (Moves.wellKept before kept) planned ih

/-! ## The version of the Run -/

/-- The Run is as it was, or it was not terminal and has a later version. -/
structure Onward (t t' : RunTables) : Prop where
  run : ∀ run ∈ t.run, ∃ run' ∈ t'.run,
    run' = run ∨ (run.status.terminal = false ∧ run.rowVersion < run'.rowVersion)
  final : ∀ run ∈ t.run, run.status.terminal = true →
    t'.events = t.events ∧ t'.segments = t.segments

namespace Onward

theorem refl (t : RunTables) : Onward t t :=
  ⟨fun run found => ⟨run, found, .inl rfl⟩, fun _ _ _ => ⟨rfl, rfl⟩⟩

theorem terminal_same (onward : Onward t t') (found : run ∈ t.run)
    (terminal : run.status.terminal = true) : run ∈ t'.run := by
  obtain ⟨run', found', rfl | ⟨lives, -⟩⟩ := onward.run run found
  · exact found'
  · rw [terminal] at lives
    cases lives

theorem trans {t'' : RunTables} (first : Onward t t') (second : Onward t' t'') :
    Onward t t'' where
  run run found := by
    obtain ⟨run', found', rfl | ⟨lives, later⟩⟩ := first.run run found
    · exact second.run _ found'
    · obtain ⟨run'', found'', rfl | ⟨-, last⟩⟩ := second.run run' found'
      · exact ⟨_, found'', .inr ⟨lives, later⟩⟩
      · exact ⟨run'', found'', .inr ⟨lives, later.trans last⟩⟩
  final run found terminal := by
    obtain ⟨events, segments⟩ := first.final run found terminal
    have last := first.terminal_same found terminal
    obtain ⟨events', segments'⟩ := second.final run last terminal
    exact ⟨events'.trans events, segments'.trans segments⟩

theorem same (run : t'.run = t.run := by rfl) (events : t'.events = t.events := by rfl)
    (segments : t'.segments = t.segments := by rfl) : Onward t t' where
  run row found := ⟨row, run ▸ found, .inl rfl⟩
  final _ _ _ := ⟨events, segments⟩

/-- A Run that lives has its row kept or moved. -/
theorem lively (found : t.run = some run) (lives : run.status.terminal = false) {later : Run}
    (written : t'.run = some later) (version : later = run ∨ run.rowVersion < later.rowVersion) :
    Onward t t' where
  run row mem := by
    obtain rfl := Option.some.inj (found.symm.trans mem)
    exact ⟨later, written, version.imp_right fun more => ⟨lives, more⟩⟩
  final row mem terminal := by
    obtain rfl := Option.some.inj (found.symm.trans mem)
    rw [lives] at terminal
    cases terminal

theorem moved (found : t.run = some run) (lives : run.status.terminal = false) {target : RunStatus}
    {error : Option ErrorRecord} {now : Timestamp}
    (written : t'.run = some (run.moved target error now)) : Onward t t' :=
  lively found lives written (.inr (Nat.lt_succ_self _))

end Onward

theorem Ending.onward (ending : Ending t t') : Onward t t' := by
  cases ending with
  | stopped found waiting => exact .moved found (by rw [waiting]; rfl) rfl
  | continued found waiting => exact .moved found (by rw [waiting]; rfl) rfl
  | again found waiting => exact .lively found (by rw [waiting]; rfl) found (.inl rfl)

theorem RunMove.onward (move : RunMove allowed t t') : Onward t t' := by
  cases move with
  | created absent =>
    exact ⟨fun _ found => (nomatch absent.symm.trans found),
      fun _ found => (nomatch absent.symm.trans found)⟩
  | noted found lives => exact .lively found lives found (.inl rfl)
  | cancellationRecorded found calm held =>
    refine .lively found ?_ found (.inl rfl)
    rcases held with held | ⟨waiting, -⟩
    · exact lives_of_mem held
    · rw [waiting]
      rfl
  | claimed found due => exact .moved found (lives_of_mem due) rfl
  | exhausted found due => exact .moved found (lives_of_mem due) rfl
  | prepared turn preparing => exact .moved turn.found (by rw [preparing]; rfl) rfl
  | released types turn held own inactive targets wins later written posted =>
    subst written
    rcases posted with ⟨-, reason, rfl⟩ | ⟨-, rfl⟩ <;>
      exact .moved turn.found (lives_of_mem held) rfl
  | asked suspends => exact .moved suspends.found (by rw [suspends.running]; rfl) rfl
  | answered found waiting => exact .moved found (lives_of_mem waiting) rfl
  | proposed suspends => exact .moved suspends.found (by rw [suspends.running]; rfl) rfl
  | proposedApproved suspends => exact .moved suspends.found (by rw [suspends.running]; rfl) rfl
  | @detached run segment attempt proposal effect now _ turn running known inline owner written same
      after =>
    have lives : run.status.terminal = false := by rw [running]; rfl
    have away : Onward t (t.detachTurn run segment attempt proposal now) :=
      .moved turn.found lives rfl
    rcases after with ⟨-, rfl⟩ | ⟨-, ending⟩
    · exact .moved turn.found lives rfl
    · exact away.trans ending.onward
  | approved proposal found waiting =>
    exact .lively found (by rw [waiting]; rfl) found (.inl rfl)
  | concluded found waiting member unfinished settlement ending =>
    exact .trans .same ending.onward
  | withdrawn found due => exact .moved found (lives_of_mem due) rfl
  | cancelled found waiting => exact .moved found (lives_of_mem (of_decide_eq_true waiting)) rfl
  | @transitioned run target _ _ _ found planned =>
    refine .moved found ?_ rfl
    refine Bool.eq_false_of_not_eq_true fun terminal => ?_
    rw [allowedRunTransitions_terminal.mpr terminal] at planned
    cases planned
  | _ => exact .same

theorem Moves.onward (moves : Moves allowed t t') : Onward t t' := by
  induction moves with
  | refl => exact Onward.refl t
  | tail before move ih => exact ih.trans move.onward

/-! ## The record -/

/-- The trail only grows, and an execution stays, with its attempts and its success. -/
structure Recorded (t t' : RunTables) : Prop where
  events : t.events <+: t'.events
  effects : ∀ effect ∈ t.effects, ∃ later ∈ t'.effects, later.frozen = effect.frozen ∧
    effect.attemptNo ≤ later.attemptNo ∧ (effect.status = .applied → later.status = .applied)

theorem Recorded.refl (t : RunTables) : Recorded t t :=
  ⟨List.prefix_refl _, fun effect member => ⟨effect, member, rfl, le_rfl, id⟩⟩

theorem Recorded.trans {t'' : RunTables} (first : Recorded t t') (second : Recorded t' t'') :
    Recorded t t'' where
  events := first.events.trans second.events
  effects effect member := by
    obtain ⟨later, laterMem, frozen, counted, applied⟩ := first.effects effect member
    obtain ⟨last, lastMem, frozen', counted', applied'⟩ := second.effects later laterMem
    exact ⟨last, lastMem, frozen'.trans frozen, counted.trans counted', applied' ∘ applied⟩

theorem Moves.recorded (moves : Moves allowed t t') (kept : WellKept t) : Recorded t t' := by
  induction moves with
  | refl => exact .refl t
  | tail before move ih =>
    refine ih.trans ⟨move.events, fun effect member => ?_⟩
    obtain ⟨later, laterMem, step⟩ := (move.effects (Moves.wellKept before kept)).forward member
    exact ⟨later, laterMem, step.frozen, step.counted, step.applied⟩

/-! ## Runs of the store -/

section Store

variable {settings : RunSettings}

/-- **One turn at a time**, in every run without the generic transition. -/
theorem turns_exclusive (actions : List RunAction)
    (planned : (runStore settings).Along (fun t action => ¬ action.bears t .transition)
      RunTables.empty actions) :
    let t := (runStore settings).run RunTables.empty actions
    t.segments.map RunSegment.segmentNo = List.range' 1 t.segments.length ∧
    (∀ segment ∈ t.segments, segment.status.ended = false →
      segment.segmentNo = t.segments.length) ∧
    (∀ run ∈ t.run, run.status.held = true →
      ∃ attempt ∈ t.attempts, attempt.status.active = true) ∧
    ∀ attempt ∈ t.attempts, attempt.status.active = true →
      (∃ run ∈ t.run, run.status.held = true) ∧
      (∀ other ∈ t.attempts, other.status.active = true → other = attempt) ∧
      ∃ segment ∈ t.segments, attempt.runSegmentId = some segment.id ∧
        segment.segmentNo = t.segments.length := by
  intro t
  have keeps : ∀ s action answer s', WellKept s ∧ Turned s →
      ¬ RunAction.bears s action .transition →
      (runStore settings).exec action s = .ok (answer, s') → WellKept s' ∧ Turned s' := by
    intro s action answer s' holds meets committed
    have moves : Moves (fun mark => mark ≠ .transition) s s' := by
      refine execRun_moves holds.1 (fun mark bears => ?_) committed
      rintro rfl
      exact meets bears
    exact ⟨moves.wellKept holds.1, moves.turned (fun marked => marked rfl) holds.1 holds.2⟩
  have nothing : WellKept RunTables.empty ∧ Turned RunTables.empty :=
    ⟨wellKept_empty, .idle rfl rfl nofun⟩
  obtain ⟨kept, turned⟩ : WellKept t ∧ Turned t :=
    (runStore settings).run_of_along keeps nothing planned
  refine ⟨kept.numbers, turned.past, fun run found held => ?_, fun attempt member active => ?_⟩
  · have one : activeCount t.attempts = 1 := by
      rw [turned.leases, RunTables.isHeld, found, Option.any_some, held]
      rfl
    obtain ⟨attempt, member, active⟩ := List.countP_pos_iff.mp (one ▸ Nat.one_pos)
    exact ⟨attempt, member, active⟩
  · have isHeld := turned.isHeld member active
    refine ⟨?_, fun other otherMem otherActive => turned.only otherMem otherActive member active,
      turned.place attempt member active⟩
    obtain ⟨run, found, held⟩ := (Option.any_eq_true _ _).mp isHeld
    exact ⟨run, found, held⟩

/-- The sample Run is claimed, and the claimed attempt holds it alone. -/
theorem turns_exclusive_sample :
    ∃ attempt ∈ ((runStore sampleSettings).run RunTables.empty sampleTurn).attempts,
      attempt.status.active = true := by
  have planned : (runStore sampleSettings).Along (fun t action => ¬ action.bears t .transition)
      RunTables.empty sampleTurn := ⟨id, id, id, id, trivial⟩
  obtain ⟨run, found, held⟩ :
      ∃ run ∈ ((runStore sampleSettings).run RunTables.empty sampleTurn).run,
        run.status.held = true := by
    decide
  exact (turns_exclusive sampleTurn planned).2.2.1 run found held

/-- **A version stands for one row of the Run**, and a terminal Run is final. -/
theorem versions_stand (before since : List RunAction) :
    let t := (runStore settings).run RunTables.empty before
    let t' := (runStore settings).run t since
    ∀ run ∈ t.run, ∃ run' ∈ t'.run, run'.frozen = run.frozen ∧
      run.rowVersion ≤ run'.rowVersion ∧ (run'.rowVersion = run.rowVersion → run' = run) ∧
      (run.status.terminal = true →
        run' = run ∧ t'.events = t.events ∧ t'.segments = t.segments) := by
  intro t t' run found
  have kept : WellKept t := wellKept_invariant.run wellKept_empty before
  have keeps : (runStore settings).Invariant fun s => WellKept s ∧ Onward t s := by
    rintro s action answer s' ⟨keptNow, onward⟩ committed
    have moves : Moves (fun _ => True) s s' := execRun_moves keptNow (fun _ _ => trivial) committed
    exact ⟨moves.wellKept keptNow, onward.trans moves.onward⟩
  obtain ⟨-, onward⟩ := keeps.run ⟨kept, Onward.refl t⟩ since
  have frame : Frame t t' := (run_settled kept since).2
  obtain ⟨run', found', frozen⟩ := frame.run run found
  obtain ⟨later, foundLater, later_eq⟩ := onward.run run found
  obtain rfl := Option.some.inj (found'.symm.trans foundLater)
  refine ⟨run', found', frozen, ?_, fun same => ?_, fun terminal => ?_⟩
  · rcases later_eq with rfl | ⟨-, more⟩
    · exact le_rfl
    · exact more.le
  · rcases later_eq with rfl | ⟨-, more⟩
    · rfl
    · omega
  · refine ⟨?_, onward.final run found terminal⟩
    exact Option.some.inj (found'.symm.trans (onward.terminal_same found terminal))

end Store

end SkillMind.Runs
