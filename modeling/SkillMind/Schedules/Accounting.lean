import SkillMind.Library.Evolution
import SkillMind.Schedules.Moves

/-!
# Occurrence accounting

A schedule counts its Runs by its settled occurrences, and a pending occurrence has its place
reserved below the limit of the schedule. Each move keeps the accounts, settles an occurrence for
good and only moves the instant of the last Run forward.
-/

namespace SkillMind.Schedules

open Library ScheduleTables
open Runs (Uuid Timestamp)

variable {settings : ScheduleSettings} {t t' : ScheduleTables} {issued : List ClaimedSchedule}

/-- The occurrence of the schedule is settled with a Run. -/
def ranOf (scheduleId : Uuid) (row : TaskScheduleOccurrence) : Bool :=
  row.scheduleId = scheduleId ∧ row.status = .settled ∧ row.runId.isSome = true

def ScheduleTables.ranCount (t : ScheduleTables) (scheduleId : Uuid) : Nat :=
  t.occurrences.countP (ranOf scheduleId)

def TaskScheduleOccurrence.instant (row : TaskScheduleOccurrence) : Uuid × Timestamp :=
  (row.scheduleId, row.occurrenceAt)

structure Accounted (t : ScheduleTables) : Prop where
  schedules : Keyed TaskSchedule.id t.schedules
  occurrences : Keyed TaskScheduleOccurrence.id t.occurrences
  instants : Keyed TaskScheduleOccurrence.instant t.occurrences
  placed : ∀ row ∈ t.occurrences, ∃ schedule ∈ t.schedules, schedule.id = row.scheduleId
  single : ∀ scheduleId, t.pendingCount scheduleId ≤ 1
  counted : ∀ schedule ∈ t.schedules, schedule.runCount = t.ranCount schedule.id
  bounded : ∀ schedule ∈ t.schedules, ∀ limit ∈ schedule.definition.maxRuns,
    schedule.runCount + t.pendingCount schedule.id ≤ limit
  unset : ∀ row ∈ t.occurrences, row.status = .pending → row.runId = none

theorem accounted_empty : Accounted ScheduleTables.empty where
  schedules := List.nodup_nil
  occurrences := List.nodup_nil
  instants := List.nodup_nil
  placed _ member := nomatch member
  single _ := Nat.zero_le 1
  counted _ member := nomatch member
  bounded _ member := nomatch member
  unset _ member := nomatch member

theorem counts_fresh (accounted : Accounted t) {scheduleId : Uuid}
    (fresh : ∀ schedule ∈ t.schedules, scheduleId ≠ schedule.id) :
    t.pendingCount scheduleId = 0 ∧ t.ranCount scheduleId = 0 := by
  have elsewhere : ∀ row ∈ t.occurrences, row.scheduleId ≠ scheduleId := by
    intro row member same
    obtain ⟨schedule, known, id⟩ := accounted.placed row member
    exact fresh schedule known (same.symm.trans id.symm)
  constructor
  · refine List.countP_eq_zero.mpr fun row member => ?_
    simp [pendingOf, elsewhere row member]
  · refine List.countP_eq_zero.mpr fun row member => ?_
    simp [ranOf, elsewhere row member]

theorem counts_same (occurrences : t'.occurrences = t.occurrences) :
    (∀ scheduleId, t'.pendingCount scheduleId = t.pendingCount scheduleId) ∧
      ∀ scheduleId, t'.ranCount scheduleId = t.ranCount scheduleId := by
  constructor
  · intro scheduleId
    rw [pendingCount, pendingCount, occurrences]
  · intro scheduleId
    rw [ranCount, ranCount, occurrences]

theorem counts_written (accounted : Accounted t) {row row' : TaskScheduleOccurrence}
    (known : row ∈ t.occurrences) (same : row'.id = row.id)
    (occurrences : t'.occurrences = replaceRow TaskScheduleOccurrence.id row' t.occurrences)
    (scheduleId : Uuid) :
    t'.pendingCount scheduleId + (pendingOf scheduleId row).toNat =
        t.pendingCount scheduleId + (pendingOf scheduleId row').toNat ∧
      t'.ranCount scheduleId + (ranOf scheduleId row).toNat =
        t.ranCount scheduleId + (ranOf scheduleId row').toNat := by
  rw [pendingCount, pendingCount, ranCount, ranCount, occurrences]
  exact ⟨countP_replaceRow _ accounted.occurrences known same.symm,
    countP_replaceRow _ accounted.occurrences known same.symm⟩

section Rows

variable {schedule' : TaskSchedule}

theorem accounted_schedules (accounted : Accounted t) {schedule : TaskSchedule}
    (written : t'.schedules = replaceRow TaskSchedule.id schedule' t.schedules)
    (own : schedule'.runCount = t'.ranCount schedule.id ∧
      ∀ limit ∈ schedule'.definition.maxRuns,
        schedule'.runCount + t'.pendingCount schedule.id ≤ limit)
    (id : schedule'.id = schedule.id)
    (others : ∀ scheduleId, scheduleId ≠ schedule.id →
      t'.ranCount scheduleId = t.ranCount scheduleId ∧
        t'.pendingCount scheduleId = t.pendingCount scheduleId) :
    (∀ one ∈ t'.schedules, one.runCount = t'.ranCount one.id) ∧
      ∀ one ∈ t'.schedules, ∀ limit ∈ one.definition.maxRuns,
        one.runCount + t'.pendingCount one.id ≤ limit := by
  have each : ∀ one ∈ t'.schedules, one.runCount = t'.ranCount one.id ∧
      ∀ limit ∈ one.definition.maxRuns, one.runCount + t'.pendingCount one.id ≤ limit := by
    intro one member
    rw [written] at member
    rcases mem_replaceRow member with ⟨rfl, -⟩ | ⟨old, ne⟩
    · rw [id]
      exact own
    · obtain ⟨ran, pending⟩ := others one.id (id ▸ ne)
      rw [ran, pending]
      exact ⟨accounted.counted one old, accounted.bounded one old⟩
  exact ⟨fun one member => (each one member).1, fun one member => (each one member).2⟩

theorem placed_schedules (written : t'.schedules = replaceRow TaskSchedule.id schedule' t.schedules)
    (scheduleId : Uuid) (there : ∃ one ∈ t.schedules, one.id = scheduleId) :
    ∃ one ∈ t'.schedules, one.id = scheduleId := by
  obtain ⟨one, member, same⟩ := there
  rw [written]
  by_cases hit : one.id = schedule'.id
  · exact ⟨schedule', mem_replaceRow_self member hit, hit.symm.trans same⟩
  · exact ⟨one, mem_replaceRow_of_ne member hit, same⟩

theorem instants_written (accounted : Accounted t) {row row' : TaskScheduleOccurrence}
    (known : row ∈ t.occurrences) (same : SameOccurrence row row')
    (written : t'.occurrences = replaceRow TaskScheduleOccurrence.id row' t.occurrences) :
    Keyed TaskScheduleOccurrence.instant t'.occurrences := by
  have column : (t'.occurrences.map TaskScheduleOccurrence.instant) =
      t.occurrences.map TaskScheduleOccurrence.instant := by
    rw [written]
    refine map_column_replaceRow accounted.occurrences known same.id.symm ?_
    rw [TaskScheduleOccurrence.instant, same.scheduleId, same.occurrenceAt]
    rfl
  rw [Keyed, column]
  exact accounted.instants

end Rows

theorem ScheduleMove.accounted (move : ScheduleMove settings t t' issued)
    (accounted : Accounted t) : Accounted t' := by
  cases move with
  | @scheduleCreated row fresh count schedules occurrences =>
    obtain ⟨pending, ran⟩ := counts_same occurrences
    obtain ⟨none, never⟩ := counts_fresh accounted fresh
    have cases {one : TaskSchedule} (member : one ∈ t'.schedules) :
        one ∈ t.schedules ∨ one = row := by
      rw [schedules] at member
      exact (List.mem_append.mp member).imp_right List.mem_singleton.mp
    refine ⟨?_, occurrences ▸ accounted.occurrences, occurrences ▸ accounted.instants, ?_,
      fun scheduleId => pending scheduleId ▸ accounted.single scheduleId, ?_, ?_,
      occurrences ▸ accounted.unset⟩
    · rw [schedules]
      exact accounted.schedules.add fresh
    · intro one member
      obtain ⟨schedule, known, id⟩ := accounted.placed one (occurrences ▸ member)
      exact ⟨schedule, schedules ▸ List.mem_append_left _ known, id⟩
    · intro one member
      rw [ran]
      rcases cases member with old | rfl
      · exact accounted.counted one old
      · rw [count, never]
    · intro one member limit bound
      rw [pending]
      rcases cases member with old | rfl
      · exact accounted.bounded one old limit bound
      · rw [count, none]
        exact Nat.zero_le limit
  | @scheduleWritten row row' known id count last bounded schedules occurrences =>
    obtain ⟨pending, ran⟩ := counts_same occurrences
    have own : row'.runCount = t'.ranCount row.id ∧ ∀ limit ∈ row'.definition.maxRuns,
        row'.runCount + t'.pendingCount row.id ≤ limit := by
      rw [count, ran, pending]
      refine ⟨accounted.counted row known, fun limit member => ?_⟩
      rcases bounded with same | within
      · exact accounted.bounded row known limit (same ▸ member)
      · exact within limit member
    obtain ⟨counted, limited⟩ := accounted_schedules accounted schedules own id
      fun scheduleId _ => ⟨ran scheduleId, pending scheduleId⟩
    refine ⟨schedules ▸ accounted.schedules.replaceRow _, occurrences ▸ accounted.occurrences,
      occurrences ▸ accounted.instants, ?_,
      fun scheduleId => pending scheduleId ▸ accounted.single scheduleId, counted, limited,
      occurrences ▸ accounted.unset⟩
    intro one member
    exact placed_schedules schedules _ (accounted.placed one (occurrences ▸ member))
  | @claimed schedule schedule' row claim known id count last limits free room fresh place pending
      unset first issues schedules occurrences =>
      have waits (scheduleId : Uuid) : t'.pendingCount scheduleId =
          t.pendingCount scheduleId + if schedule.id = scheduleId then 1 else 0 := by
        rw [pendingCount, pendingCount, occurrences, List.countP_append]
        simp [pendingOf, place, pending]
      have ran (scheduleId : Uuid) : t'.ranCount scheduleId = t.ranCount scheduleId := by
        rw [ranCount, ranCount, occurrences, List.countP_append]
        simp [ranOf, pending]
      have own : schedule'.runCount = t'.ranCount schedule.id ∧
          ∀ limit ∈ schedule'.definition.maxRuns,
            schedule'.runCount + t'.pendingCount schedule.id ≤ limit := by
        rw [count, ran, waits, if_pos rfl, free, limits]
        exact ⟨accounted.counted schedule known, fun limit member => room limit member⟩
      obtain ⟨counted, limited⟩ := accounted_schedules accounted schedules own id
        fun scheduleId ne => ⟨ran scheduleId, by rw [waits, if_neg (Ne.symm ne), Nat.add_zero]⟩
      have cases {one : TaskScheduleOccurrence} (member : one ∈ t'.occurrences) :
          one ∈ t.occurrences ∨ one = row := by
        rw [occurrences] at member
        exact (List.mem_append.mp member).imp_right List.mem_singleton.mp
      refine ⟨schedules ▸ accounted.schedules.replaceRow _, ?_, ?_, ?_, ?_, counted, limited, ?_⟩
      · rw [occurrences]
        exact accounted.occurrences.add fun other member => (fresh other member).1
      · rw [occurrences]
        exact accounted.instants.add fun other member => (fresh other member).2
      · intro one member
        refine placed_schedules schedules _ ?_
        rcases cases member with old | rfl
        · exact accounted.placed one old
        · exact ⟨schedule, known, place.symm⟩
      · intro scheduleId
        rw [waits]
        by_cases hit : schedule.id = scheduleId
        · rw [if_pos hit, ← hit, free]
        · rw [if_neg hit]
          exact accounted.single scheduleId
      · intro one member waiting
        rcases cases member with old | rfl
        · exact accounted.unset one old waiting
        · exact unset
  | @recovered row row' claim known pending same status unset next issues schedules occurrences =>
    have counts := counts_written accounted known same.id occurrences
    have waits (scheduleId : Uuid) : t'.pendingCount scheduleId = t.pendingCount scheduleId := by
      have moved := (counts scheduleId).1
      rw [pendingOf, pendingOf, same.scheduleId, status] at moved
      exact Nat.add_right_cancel moved
    have ran (scheduleId : Uuid) : t'.ranCount scheduleId = t.ranCount scheduleId := by
      have moved := (counts scheduleId).2
      rw [ranOf, ranOf, same.scheduleId, status, unset] at moved
      exact Nat.add_right_cancel moved
    refine ⟨schedules ▸ accounted.schedules, ?_,
      instants_written accounted known same occurrences, ?_,
      fun scheduleId => waits scheduleId ▸ accounted.single scheduleId, ?_, ?_, ?_⟩
    · rw [occurrences]
      exact accounted.occurrences.replaceRow _
    · intro one member
      rw [occurrences] at member
      rw [schedules]
      rcases mem_replaceRow member with ⟨rfl, -⟩ | ⟨old, -⟩
      · rw [same.scheduleId]
        exact accounted.placed row known
      · exact accounted.placed one old
    · intro one member
      rw [ran]
      exact accounted.counted one (schedules ▸ member)
    · intro one member
      rw [waits]
      exact accounted.bounded one (schedules ▸ member)
    · intro one member waiting
      rw [occurrences] at member
      rcases mem_replaceRow member with ⟨rfl, -⟩ | ⟨old, -⟩
      · rw [unset]
        exact accounted.unset row known pending
      · exact accounted.unset one old waiting
  | @settled schedule schedule' row row' known member place pending same ended generation worker
      token expiry id count last limits schedules occurrences =>
      have counts := counts_written accounted member same.id occurrences
      have unran := accounted.unset row member pending
      have waits (scheduleId : Uuid) : t'.pendingCount scheduleId +
          (if schedule.id = scheduleId then 1 else 0) = t.pendingCount scheduleId := by
        have moved := (counts scheduleId).1
        rw [pendingOf, pendingOf, same.scheduleId, place, pending, ended] at moved
        by_cases hit : schedule.id = scheduleId <;> simpa [hit] using moved
      have ran (scheduleId : Uuid) : t'.ranCount scheduleId = t.ranCount scheduleId +
          (if schedule.id = scheduleId then row'.runId.isSome.toNat else 0) := by
        have moved := (counts scheduleId).2
        rw [ranOf, ranOf, same.scheduleId, place, unran, ended] at moved
        by_cases hit : schedule.id = scheduleId <;> cases chosen : row'.runId <;>
          simpa [hit, chosen] using moved
      have own : schedule'.runCount = t'.ranCount schedule.id ∧
          ∀ limit ∈ schedule'.definition.maxRuns,
            schedule'.runCount + t'.pendingCount schedule.id ≤ limit := by
        rw [count, ran, if_pos rfl, limits]
        refine ⟨by rw [accounted.counted schedule known], fun limit bound => ?_⟩
        have before := accounted.bounded schedule known limit bound
        have settles := waits schedule.id
        rw [if_pos rfl] at settles
        have one : row'.runId.isSome.toNat ≤ 1 := by cases row'.runId <;> simp
        omega
      obtain ⟨counted, limited⟩ := accounted_schedules accounted schedules own id
        fun scheduleId ne => by
          have untouched := waits scheduleId
          rw [if_neg (Ne.symm ne), Nat.add_zero] at untouched
          rw [ran, if_neg (Ne.symm ne)]
          exact ⟨rfl, untouched⟩
      refine ⟨schedules ▸ accounted.schedules.replaceRow _, ?_,
        instants_written accounted member same occurrences, ?_, ?_, counted, limited, ?_⟩
      · rw [occurrences]
        exact accounted.occurrences.replaceRow _
      · intro one oneMem
        rw [occurrences] at oneMem
        refine placed_schedules schedules _ ?_
        rcases mem_replaceRow oneMem with ⟨rfl, -⟩ | ⟨old, -⟩
        · rw [same.scheduleId]
          exact accounted.placed row member
        · exact accounted.placed one old
      · intro scheduleId
        have fewer := waits scheduleId
        have before := accounted.single scheduleId
        omega
      · intro one oneMem waiting
        rw [occurrences] at oneMem
        rcases mem_replaceRow oneMem with ⟨rfl, -⟩ | ⟨old, -⟩
        · rw [ended] at waiting
          cases waiting
        · exact accounted.unset one old waiting
  | runs schedules occurrences =>
    obtain ⟨pending, ran⟩ := counts_same occurrences
    refine ⟨schedules ▸ accounted.schedules, occurrences ▸ accounted.occurrences,
      occurrences ▸ accounted.instants, ?_,
      fun scheduleId => pending scheduleId ▸ accounted.single scheduleId, ?_, ?_,
      occurrences ▸ accounted.unset⟩
    · rw [schedules, occurrences]
      exact accounted.placed
    · intro one member
      rw [ran]
      exact accounted.counted one (schedules ▸ member)
    · intro one member
      rw [pending]
      exact accounted.bounded one (schedules ▸ member)

/-- A settled occurrence stays, and the last Run of a schedule only moves forward. -/
structure Onward (t t' : ScheduleTables) : Prop where
  settled : ∀ row ∈ t.occurrences, row.status = .settled → row ∈ t'.occurrences
  last : ∀ schedule ∈ t.schedules, ∃ schedule' ∈ t'.schedules, schedule'.id = schedule.id ∧
    Later schedule.lastRunAt schedule'.lastRunAt

theorem Later.refl (instant : Option Timestamp) : Later instant instant :=
  fun moment mem => ⟨moment, mem, Nat.le_refl _⟩

theorem Later.trans {first second third : Option Timestamp} (before : Later first second)
    (after : Later second third) : Later first third := by
  intro instant mem
  obtain ⟨later, mem', le⟩ := before instant mem
  obtain ⟨last, mem'', le'⟩ := after later mem'
  exact ⟨last, mem'', le.trans le'⟩

theorem last_written (keyed : Keyed TaskSchedule.id t.schedules) {one one' : TaskSchedule}
    (known : one ∈ t.schedules) (id : one'.id = one.id) (later : Later one.lastRunAt one'.lastRunAt)
    (schedules : t'.schedules = replaceRow TaskSchedule.id one' t.schedules) :
    ∀ schedule ∈ t.schedules, ∃ schedule' ∈ t'.schedules, schedule'.id = schedule.id ∧
      Later schedule.lastRunAt schedule'.lastRunAt := by
  intro schedule member
  rw [schedules]
  by_cases hit : schedule.id = one'.id
  · rw [keyed.eq_of_key member known (hit.trans id)]
    exact ⟨one', mem_replaceRow_self known id.symm, id, later⟩
  · exact ⟨schedule, mem_replaceRow_of_ne member hit, rfl, .refl _⟩

theorem settled_written (keyed : Keyed TaskScheduleOccurrence.id t.occurrences)
    {one one' : TaskScheduleOccurrence} (known : one ∈ t.occurrences)
    (pending : one.status = .pending) (id : one'.id = one.id)
    (occurrences : t'.occurrences = replaceRow TaskScheduleOccurrence.id one' t.occurrences) :
    ∀ row ∈ t.occurrences, row.status = .settled → row ∈ t'.occurrences := by
  intro row member ended
  rw [occurrences]
  refine mem_replaceRow_of_ne member fun hit => ?_
  rw [keyed.eq_of_key member known (hit.trans id), pending] at ended
  cases ended

theorem ScheduleMove.onward (move : ScheduleMove settings t t' issued)
    (accounted : Accounted t) : Onward t t' := by
  have unmoved (schedules : t'.schedules = t.schedules) : ∀ schedule ∈ t.schedules,
      ∃ schedule' ∈ t'.schedules, schedule'.id = schedule.id ∧
        Later schedule.lastRunAt schedule'.lastRunAt :=
    fun schedule member => ⟨schedule, schedules ▸ member, rfl, .refl _⟩
  cases move with
  | scheduleCreated fresh count schedules occurrences =>
    refine ⟨fun row member _ => occurrences ▸ member, fun schedule member => ?_⟩
    exact ⟨schedule, schedules ▸ List.mem_append_left _ member, rfl, .refl _⟩
  | scheduleWritten known id count last bounded schedules occurrences =>
    exact ⟨fun row member _ => occurrences ▸ member,
      last_written accounted.schedules known id (last ▸ .refl _) schedules⟩
  | claimed known id count last limits free room fresh place pending unset first issues schedules
      occurrences =>
      exact ⟨fun row member _ => occurrences ▸ List.mem_append_left _ member,
        last_written accounted.schedules known id (last ▸ .refl _) schedules⟩
  | recovered known pending same status unset next issues schedules occurrences =>
    exact ⟨settled_written accounted.occurrences known pending same.id occurrences,
      unmoved schedules⟩
  | settled known member place pending same ended generation worker token expiry id count last
      limits schedules occurrences =>
      exact ⟨settled_written accounted.occurrences member pending same.id occurrences,
        last_written accounted.schedules known id last schedules⟩
  | runs schedules occurrences =>
    exact ⟨fun row member _ => occurrences ▸ member, unmoved schedules⟩

theorem ScheduleMoves.accounted (moves : ScheduleMoves settings t issued t')
    (accounted : Accounted t) : Accounted t' ∧ Onward t t' := by
  induction moves with
  | refl => exact ⟨accounted, fun row member _ => member,
      fun schedule member => ⟨schedule, member, rfl, .refl _⟩⟩
  | tail before move ih =>
    obtain ⟨kept, onward⟩ := ih
    have further := move.onward kept
    refine ⟨move.accounted kept, fun row member ended => ?_, fun schedule member => ?_⟩
    · exact further.settled row (onward.settled row member ended) ended
    · obtain ⟨next, nextMem, id, later⟩ := onward.last schedule member
      obtain ⟨last, lastMem, id', later'⟩ := further.last next nextMem
      exact ⟨last, lastMem, id'.trans id, later.trans later'⟩

theorem accounted_invariant : (scheduleStore settings).Invariant Accounted := by
  intro t action answer t' accounted committed
  exact ((execSchedule_moves committed).accounted accounted).1

/-- **The occurrences of every run are accounted for**, whatever the clock says: a schedule has at
most one pending occurrence and none twice for an instant, it counts exactly the occurrences that
were settled with a Run, and these and the pending one stay within its limit; what a transaction
finds settled it leaves, and the last Run of a schedule never moves backwards. -/
theorem occurrences_accounted (actions : List ScheduleAction) :
    let t := (scheduleStore settings).run ScheduleTables.empty actions
    (∀ scheduleId, t.pendingCount scheduleId ≤ 1) ∧
    (∀ schedule ∈ t.schedules, schedule.runCount = t.ranCount schedule.id) ∧
    (∀ schedule ∈ t.schedules, ∀ limit ∈ schedule.definition.maxRuns,
      schedule.runCount + t.pendingCount schedule.id ≤ limit) ∧
    Keyed TaskScheduleOccurrence.instant t.occurrences ∧
    ∀ action answer t', (scheduleStore settings).exec action t = .ok (answer, t') →
      (∀ row ∈ t.occurrences, row.status = .settled → row ∈ t'.occurrences) ∧
      ∀ schedule ∈ t.schedules, ∃ schedule' ∈ t'.schedules, schedule'.id = schedule.id ∧
        Later schedule.lastRunAt schedule'.lastRunAt := by
  intro t
  have accounted : Accounted t := accounted_invariant.run accounted_empty actions
  refine ⟨accounted.single, accounted.counted, accounted.bounded, accounted.instants, ?_⟩
  intro action answer t' committed
  have onward := ((execSchedule_moves committed).accounted accounted).2
  exact ⟨onward.settled, onward.last⟩

end SkillMind.Schedules
