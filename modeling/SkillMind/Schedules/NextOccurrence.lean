import Mathlib.Data.Finset.Sort
import Mathlib.Data.Int.LeastGreatest
import SkillMind.Library.FirstElements
import SkillMind.Schedules.CronParsing
import SkillMind.Schedules.Occurrence

/-!
# The next occurrence of an expression

From an instant on, the search walks the local days of a zone, and within a day the hours and the
minutes of the expression, and returns the first local time that exists and lies behind the
instant.  It gives up after a fixed number of days, which is less than the time between two leap
days around most turns of a century.

Instants and local times are seconds since the first day of the calendar began; the end of the
calendar is left out.  What a second is divided into is cut off before it is looked at.
-/

namespace SkillMind.Schedules

open Library

/-- A time zone: its offset at an instant, and the instant a local time is taken for when it is
the first with this local time. -/
structure TimeZone where
  offset : Int → Int
  instant : Int → Int
  /-- A local time that does not exist is read with an offset of the zone too. -/
  shifted : ∀ wall, ∃ time, instant wall = wall - offset time
  /-- A local time that exists is read as the first instant that has it. -/
  first : ∀ time, instant (time + offset time) + offset (instant (time + offset time)) =
    time + offset time ∧ instant (time + offset time) ≤ time

namespace TimeZone

def wall (zone : TimeZone) (time : Int) : Int := time + zone.offset time

def Whole (zone : TimeZone) : Prop := ∀ time, zone.offset time % 60 = 0

def fixed (offset : Int) : TimeZone where
  offset _ := offset
  instant wall := wall - offset
  shifted wall := ⟨0, rfl⟩
  first time := by omega

end TimeZone

def dayOf (wall : Int) : Int := wall / 86400

/-- `replace(second=0)`. -/
def cutMinute (time : Int) : Int := time / 60 * 60

@[irreducible] def maxSearchDays : Nat := 366 * 4

/-- `_matches_date`; the first day of the calendar is a Monday. -/
def matchesDate (expression : CronExpression) (day : Int) : Bool :=
  let (year, yearday) := yearDay day.toNat
  let (month, dayOfMonth) := monthDay (monthLengths year) 1 yearday
  let dayMatches := decide (dayOfMonth ∈ expression.daysOfMonth)
  let weekdayMatches := decide (((day + 1) % 7).toNat ∈ expression.daysOfWeek)
  decide (month ∈ expression.months) &&
    if expression.dayOfMonthRestricted = true ∧ expression.dayOfWeekRestricted = true then
      dayMatches || weekdayMatches
    else dayMatches && weekdayMatches

/-- `_resolve_local`: the fields are compared down to the minute. -/
def resolveLocal (zone : TimeZone) (wall : Int) : Option Int :=
  if zone.wall (zone.instant wall) / 60 = wall / 60 then some (cutMinute (zone.instant wall))
  else none

def dayTimes (expression : CronExpression) : List Nat :=
  expression.hours.sort.flatMap fun hour =>
    expression.minutes.sort.map fun minute => hour * 3600 + minute * 60

/-- The local times that the search walks, from a day on. -/
def candidates (expression : CronExpression) (day : Int) : List Int :=
  (List.range maxSearchDays).flatMap fun (count : Nat) =>
    if matchesDate expression (day + count) = true then
      (dayTimes expression).map fun (time : Nat) => (day + count) * 86400 + time
    else []

def nextOccurrence (expression : CronExpression) (zone : TimeZone) (after : Int) : Option Int :=
  (candidates expression (dayOf (zone.wall after))).findSome? fun wall =>
    (resolveLocal zone wall).filter fun resolved => cutMinute after < resolved

/-- `upcoming_occurrences`; a count below zero is zero. -/
def upcomingOccurrences (expression : CronExpression) (zone : TimeZone) : Nat → Int → List Int
  | 0, _ => []
  | count + 1, after =>
    match nextOccurrence expression zone after with
    | some time => time :: upcomingOccurrences expression zone count time
    | none => []

/-! ## What an occurrence is -/

/-- A local time in whole minutes that matches all five fields. -/
structure MatchesWall (expression : CronExpression) (wall : Int) : Prop where
  whole : wall % 60 = 0
  date : matchesDate expression (dayOf wall) = true
  hour : (wall / 3600 % 24).toNat ∈ expression.hours
  minute : (wall / 60 % 60).toNat ∈ expression.minutes

/-- An instant in whole minutes whose local time matches, and is not a repeated one. -/
structure Occurs (expression : CronExpression) (zone : TimeZone) (time : Int) : Prop where
  whole : time % 60 = 0
  wall : MatchesWall expression (zone.wall time)
  first : ∀ other, zone.wall other = zone.wall time → time ≤ other

/-- The occurrences behind an instant. -/
def later (expression : CronExpression) (zone : TimeZone) (after : Int) : Set Int :=
  {time | Occurs expression zone time ∧ after < time}

/-- The search returns the least occurrence behind the instant, and none exactly when there is
none. -/
def NextExact (expression : CronExpression) (zone : TimeZone) (after : Int) : Prop :=
  (∀ time, nextOccurrence expression zone after = some time ↔
    IsLeast (later expression zone after) time) ∧
  (nextOccurrence expression zone after = none ↔ later expression zone after = ∅)

def UpcomingExact (expression : CronExpression) (zone : TimeZone) (after : Int) (count : Nat) :
    Prop :=
  FirstOf count (later expression zone after) (upcomingOccurrences expression zone count after)

/-- A matching local time of the days of the search that resolves to a minute behind the instant,
although it is not the local time of that minute: the zone reads it with seconds in its offset. -/
structure Blurred (expression : CronExpression) (zone : TimeZone) (after wall : Int) : Prop where
  matched : MatchesWall expression wall
  low : dayOf (zone.wall after) ≤ dayOf wall
  high : dayOf wall < dayOf (zone.wall after) + maxSearchDays
  resolved : ∃ time, resolveLocal zone wall = some time ∧ cutMinute after < time
  blurred : ¬ (zone.instant wall % 60 = 0 ∧ zone.wall (zone.instant wall) = wall)

/-- An occurrence comes first of whatever is blurred. -/
def Unblurred (expression : CronExpression) (zone : TimeZone) (after : Int) : Prop :=
  ∀ wall, Blurred expression zone after wall →
    ∃ time ∈ later expression zone after,
      dayOf (zone.wall after) ≤ dayOf (zone.wall time) ∧ zone.wall time < wall

/-- The least occurrence behind the instant, if there is one, is where the search finds it: within
its days, and with no other occurrence in front of it by local time. -/
def Found (expression : CronExpression) (zone : TimeZone) (after : Int) : Prop :=
  ∀ time, IsLeast (later expression zone after) time →
    dayOf (zone.wall after) ≤ dayOf (zone.wall time) ∧
    dayOf (zone.wall time) < dayOf (zone.wall after) + maxSearchDays ∧
    ∀ other ∈ later expression zone after, dayOf (zone.wall after) ≤ dayOf (zone.wall other) →
      zone.wall time ≤ zone.wall other

/-- A blurred local time comes first, and the minute that it is cut to is the least occurrence all
the same. -/
def Accident (expression : CronExpression) (zone : TimeZone) (after : Int) : Prop :=
  ∃ wall, Blurred expression zone after wall ∧
    (∀ time ∈ later expression zone after, dayOf (zone.wall after) ≤ dayOf (zone.wall time) →
      wall ≤ zone.wall time) ∧
    (∀ other, Blurred expression zone after other → wall ≤ other) ∧
    IsLeast (later expression zone after) (cutMinute (zone.instant wall))

def Reached (expression : CronExpression) (zone : TimeZone) (after : Int) : Prop :=
  Unblurred expression zone after ∧ Found expression zone after ∨ Accident expression zone after

/-- The same at the instant and at every later occurrence. -/
def Steady (expression : CronExpression) (zone : TimeZone) (after : Int) : Prop :=
  Reached expression zone after ∧
    ∀ time ∈ later expression zone after, Reached expression zone time

section Bounds

variable {dialect : Dialect} {bound : FieldBound}

theorem span_within {stepped : Bool} {text : List Char} {start stop : Nat}
    (span : Span dialect bound stepped text start stop) :
    bound.low ≤ start ∧ stop ≤ bound.high := by
  cases span with
  | star => exact ⟨le_refl _, le_refl _⟩
  | single _ _ low high =>
    split
    · exact ⟨low, le_refl _⟩
    · exact ⟨low, high⟩
  | between _ _ low _ _ _ high' => exact ⟨low, high'⟩

theorem item_within {part : List Char} {values : Finset Nat}
    (item : Item dialect bound part values) {value : Nat} (mem : value ∈ values) :
    bound.low ≤ value ∧ value ≤ bound.high := by
  obtain ⟨start, stop, step, rfl, low, high⟩ : ∃ start stop step,
      values = progression start stop step ∧ bound.low ≤ start ∧ stop ≤ bound.high := by
    cases item with
    | plain span => exact ⟨_, _, _, rfl, span_within span⟩
    | stepped span => exact ⟨_, _, _, rfl, span_within span⟩
    | bare _ span => exact ⟨_, _, _, rfl, span_within span⟩
  obtain ⟨above, below, -⟩ := mem_progression.mp mem
  exact ⟨low.trans above, below.trans high⟩

theorem field_within {field : List Char} {values : Finset Nat}
    (denotes : Field dialect bound field values) {value : Nat} (mem : value ∈ values) :
    bound.low ≤ value ∧ value ≤ bound.high := by
  obtain ⟨sets, items, rfl⟩ := denotes
  generalize Documents.pieces field = parts at items
  induction items with
  | nil => cases mem
  | cons item _ ih =>
    rcases Finset.mem_union.mp mem with first | later
    · exact item_within item first
    · exact ih later

end Bounds

/-- The hours and the minutes of an expression are those of a day and of an hour. -/
structure CronExpression.Timed (expression : CronExpression) : Prop where
  hours : ∀ hour ∈ expression.hours, hour < 24
  minutes : ∀ minute ∈ expression.minutes, minute < 60

theorem parseCron_timed {tables : DigitTables} {text : List Char} {expression : CronExpression}
    (parsed : parseCron tables text = .ok expression) : expression.Timed := by
  obtain ⟨-, five, values, fields, rfl⟩ := parseCron_eq_ok.mp parsed
  generalize words text = line at five fields ⊢
  obtain _ | ⟨minuteField, _ | ⟨hourField, others⟩⟩ := line
  · cases five
  · cases five
  · cases fields with
    | cons minutes fields =>
      cases fields with
      | cons hours _ =>
        constructor
        · intro hour mem
          exact Nat.lt_succ_of_le (field_within hours mem).2
        · intro minute mem
          exact Nat.lt_succ_of_le (field_within minutes mem).2

variable {expression : CronExpression} {zone : TimeZone} {after : Int}

theorem mem_dayTimes {time : Nat} : time ∈ dayTimes expression ↔
    ∃ hour ∈ expression.hours, ∃ minute ∈ expression.minutes,
      time = hour * 3600 + minute * 60 := by
  simp only [dayTimes, List.mem_flatMap, List.mem_map, Finset.mem_sort]
  constructor
  · rintro ⟨hour, mem, minute, mem', rfl⟩
    exact ⟨hour, mem, minute, mem', rfl⟩
  · rintro ⟨hour, mem, minute, mem', rfl⟩
    exact ⟨hour, mem, minute, mem', rfl⟩

theorem dayTimes_sorted (timed : expression.Timed) : (dayTimes expression).Pairwise (· < ·) := by
  have hours : expression.hours.sort.Pairwise (· < ·) := (Finset.sortedLT_sort _).pairwise
  have minutes : expression.minutes.sort.Pairwise (· < ·) := (Finset.sortedLT_sort _).pairwise
  rw [dayTimes, List.pairwise_flatMap]
  constructor
  · intro hour _
    rw [List.pairwise_map]
    refine minutes.imp fun {minute minute'} below => ?_
    omega
  · refine hours.imp fun {hour hour'} below time mem time' mem' => ?_
    obtain ⟨minute, inside, rfl⟩ := List.mem_map.mp mem
    obtain ⟨minute', -, rfl⟩ := List.mem_map.mp mem'
    have small := timed.minutes minute ((Finset.mem_sort _).mp inside)
    omega

theorem dayTimes_small (timed : expression.Timed) {time : Nat}
    (mem : time ∈ dayTimes expression) : time < 86400 := by
  obtain ⟨hour, inside, minute, inside', rfl⟩ := mem_dayTimes.mp mem
  have hourSmall := timed.hours hour inside
  have minuteSmall := timed.minutes minute inside'
  omega

theorem candidates_sorted (timed : expression.Timed) (day : Int) :
    (candidates expression day).Pairwise (· < ·) := by
  rw [candidates, List.pairwise_flatMap]
  constructor
  · intro count _
    split
    · rw [List.pairwise_map]
      refine (dayTimes_sorted timed).imp fun {time time'} below => ?_
      omega
    · exact List.Pairwise.nil
  · refine List.pairwise_lt_range.imp fun {count count'} below wall mem wall' mem' => ?_
    split at mem
    · split at mem'
      · obtain ⟨time, inside, rfl⟩ := List.mem_map.mp mem
        obtain ⟨time', -, rfl⟩ := List.mem_map.mp mem'
        have small := dayTimes_small timed inside
        omega
      · cases mem'
    · cases mem

theorem mem_candidates (timed : expression.Timed) {day wall : Int} :
    wall ∈ candidates expression day ↔
      MatchesWall expression wall ∧ day ≤ dayOf wall ∧ dayOf wall < day + maxSearchDays := by
  simp only [candidates, List.mem_flatMap, List.mem_range]
  constructor
  · rintro ⟨count, inside, mem⟩
    split at mem
    · rename_i date
      obtain ⟨time, mem', rfl⟩ := List.mem_map.mp mem
      obtain ⟨hour, hourMem, minute, minuteMem, rfl⟩ := mem_dayTimes.mp mem'
      have hourSmall := timed.hours hour hourMem
      have minuteSmall := timed.minutes minute minuteMem
      have here : dayOf ((day + count) * 86400 + (hour * 3600 + minute * 60 : Nat)) =
          day + count := by
        unfold dayOf
        omega
      refine ⟨⟨by omega, by rw [here]; exact date, ?_, ?_⟩, by omega, by omega⟩
      · convert hourMem using 1
        omega
      · convert minuteMem using 1
        omega
    · cases mem
  · rintro ⟨found, low, high⟩
    refine ⟨(dayOf wall - day).toNat, by omega, ?_⟩
    have here : day + ((dayOf wall - day).toNat : Int) = dayOf wall := by omega
    rw [here, if_pos found.date, List.mem_map]
    refine ⟨(wall % 86400).toNat, mem_dayTimes.mpr ⟨_, found.hour, _, found.minute, ?_⟩, ?_⟩
    · have whole := found.whole
      omega
    · unfold dayOf
      omega

theorem TimeZone.instant_of_first {time : Int}
    (first : ∀ other, zone.wall other = zone.wall time → time ≤ other) :
    zone.instant (zone.wall time) = time := by
  obtain ⟨same, le⟩ := zone.first time
  exact le_antisymm le (first _ same)

theorem resolveLocal_of_first {time : Int} (whole : time % 60 = 0)
    (first : ∀ other, zone.wall other = zone.wall time → time ≤ other) :
    resolveLocal zone (zone.wall time) = some time := by
  have cut : cutMinute time = time := by
    unfold cutMinute
    omega
  rw [resolveLocal, TimeZone.instant_of_first first, if_pos rfl, cut]

/-- The search stops at every occurrence behind the instant. -/
theorem filter_of_later {time : Int} (behind : time ∈ later expression zone after) :
    ((resolveLocal zone (zone.wall time)).filter fun resolved => cutMinute after < resolved) =
      some time := by
  obtain ⟨occurs, above⟩ := behind
  have whole := occurs.whole
  rw [Option.filter_eq_some_iff]
  refine ⟨resolveLocal_of_first whole occurs.first, decide_eq_true ?_⟩
  unfold cutMinute
  omega

/-- What it stops at is an occurrence or blurred. -/
theorem later_or_blurred {wall time : Int} (matched : MatchesWall expression wall)
    (low : dayOf (zone.wall after) ≤ dayOf wall)
    (high : dayOf wall < dayOf (zone.wall after) + maxSearchDays)
    (found : ((resolveLocal zone wall).filter fun resolved => cutMinute after < resolved) =
      some time) :
    (time ∈ later expression zone after ∧ zone.wall time = wall) ∨
      Blurred expression zone after wall := by
  obtain ⟨resolved, behind⟩ := Option.filter_eq_some_iff.mp found
  have below := of_decide_eq_true behind
  by_cases sharp : zone.instant wall % 60 = 0 ∧ zone.wall (zone.instant wall) = wall
  · obtain ⟨whole, same⟩ := sharp
    have first : ∀ other, zone.wall other = zone.wall (zone.instant wall) →
        zone.instant wall ≤ other := by
      intro other alike
      have le := (zone.first other).2
      rwa [show other + zone.offset other = wall from alike.trans same] at le
    have read := resolveLocal_of_first whole first
    rw [same, resolved] at read
    obtain rfl := Option.some.inj read
    refine .inl ⟨⟨⟨whole, same.symm ▸ matched, first⟩, ?_⟩, same⟩
    unfold cutMinute at below
    omega
  · exact .inr ⟨matched, low, high, ⟨time, resolved, below⟩, sharp⟩

theorem Blurred.hits {wall : Int} (blurred : Blurred expression zone after wall) :
    ((resolveLocal zone wall).filter fun resolved => cutMinute after < resolved).isSome = true := by
  obtain ⟨time, read, below⟩ := blurred.resolved
  rw [read, Option.filter_some, if_pos (decide_eq_true below)]
  rfl

theorem unblurred_of_whole (whole : zone.Whole) : Unblurred expression zone after := by
  intro wall blurred
  refine absurd ?_ blurred.blurred
  obtain ⟨shift, read⟩ := zone.shifted wall
  have matched := blurred.matched.whole
  have offset := whole shift
  have offset' := whole (zone.instant wall)
  obtain ⟨time, resolved, -⟩ := blurred.resolved
  rw [resolveLocal] at resolved
  split at resolved
  · rename_i same
    unfold TimeZone.wall at same ⊢
    omega
  · cases resolved

theorem nextOccurrence_eq_some (timed : expression.Timed) (sharp : Unblurred expression zone after)
    {time : Int} :
    nextOccurrence expression zone after = some time ↔
      time ∈ later expression zone after ∧
      dayOf (zone.wall after) ≤ dayOf (zone.wall time) ∧
      dayOf (zone.wall time) < dayOf (zone.wall after) + maxSearchDays ∧
      ∀ other ∈ later expression zone after, dayOf (zone.wall after) ≤ dayOf (zone.wall other) →
        zone.wall time ≤ zone.wall other := by
  rw [nextOccurrence, findSome?_eq_some_iff_least (candidates_sorted timed _)]
  constructor
  · rintro ⟨wall, found, ⟨mem, -⟩, least⟩
    obtain ⟨matched, low, high⟩ := (mem_candidates timed).mp mem
    have first : ∀ other ∈ later expression zone after,
        dayOf (zone.wall after) ≤ dayOf (zone.wall other) → wall ≤ zone.wall other := by
      intro other mem' low'
      rcases lt_or_ge (dayOf (zone.wall other)) (dayOf (zone.wall after) + maxSearchDays) with
        inside | outside
      · apply least
        refine ⟨(mem_candidates timed).mpr ⟨mem'.1.wall, low', inside⟩, ?_⟩
        rw [filter_of_later mem']
        rfl
      · unfold dayOf at high outside
        omega
    rcases later_or_blurred matched low high found with ⟨behind, rfl⟩ | blurred
    · exact ⟨behind, low, high, first⟩
    · obtain ⟨other, behind, low', below⟩ := sharp wall blurred
      exact absurd (first other behind low') (not_le_of_gt below)
  · rintro ⟨behind, low, high, least⟩
    have found := filter_of_later behind
    refine ⟨zone.wall time, found, ⟨?_, ?_⟩, ?_⟩
    · exact (mem_candidates timed).mpr ⟨behind.1.wall, low, high⟩
    · rw [found]
      rfl
    · rintro wall ⟨mem, hits⟩
      obtain ⟨matched, low', high'⟩ := (mem_candidates timed).mp mem
      obtain ⟨other, here⟩ := Option.isSome_iff_exists.mp hits
      rcases later_or_blurred matched low' high' here with ⟨behind', rfl⟩ | blurred
      · exact least other behind' low'
      · obtain ⟨first, behind', low'', below⟩ := sharp wall blurred
        exact (least first behind' low'').trans below.le

theorem nextOccurrence_eq_none (timed : expression.Timed)
    (sharp : Unblurred expression zone after) :
    nextOccurrence expression zone after = none ↔
      ∀ time ∈ later expression zone after, dayOf (zone.wall after) ≤ dayOf (zone.wall time) →
        dayOf (zone.wall after) + maxSearchDays ≤ dayOf (zone.wall time) := by
  rw [nextOccurrence, List.findSome?_eq_none_iff]
  constructor
  · intro missed time behind low
    by_contra high
    have mem := (mem_candidates timed).mpr ⟨behind.1.wall, low, not_le.mp high⟩
    have found := filter_of_later behind
    rw [missed _ mem] at found
    cases found
  · intro outside wall mem
    obtain ⟨matched, low, high⟩ := (mem_candidates timed).mp mem
    by_contra hits
    obtain ⟨time, found⟩ := Option.ne_none_iff_exists'.mp hits
    rcases later_or_blurred matched low high found with ⟨behind, rfl⟩ | blurred
    · exact absurd high (not_lt_of_ge (outside time behind low))
    · obtain ⟨first, behind, low', below⟩ := sharp wall blurred
      have beyond := outside first behind low'
      unfold dayOf at beyond high
      omega

/-! ## A blurred local time -/

/-- A minute whose offset is that of the blurred instant does not occur. -/
theorem Blurred.not_occurs {wall : Int} (blurred : Blurred expression zone after wall)
    (steady : zone.offset (cutMinute (zone.instant wall)) = zone.offset (zone.instant wall)) :
    ¬ Occurs expression zone (cutMinute (zone.instant wall)) := by
  intro occurs
  obtain ⟨time, resolved, -⟩ := blurred.resolved
  rw [resolveLocal] at resolved
  split at resolved
  · rename_i same
    have matched := blurred.matched.whole
    have whole := occurs.wall.whole
    unfold TimeZone.wall at same whole
    rw [steady] at whole
    -- the minute has the local time that was read, so this local time exists
    have exists' : zone.wall (cutMinute (zone.instant wall)) = wall := by
      unfold TimeZone.wall
      rw [steady]
      unfold cutMinute at whole ⊢
      omega
    obtain ⟨read, le⟩ := zone.first (cutMinute (zone.instant wall))
    rw [show cutMinute (zone.instant wall) + zone.offset (cutMinute (zone.instant wall)) = wall
      from exists'] at read le
    refine blurred.blurred ⟨?_, read⟩
    unfold cutMinute at le
    omega
  · cases resolved

/-- Without a change of the offset within the minute there is no accident. -/
theorem not_accident (steady : ∀ wall, Blurred expression zone after wall →
    zone.offset (cutMinute (zone.instant wall)) = zone.offset (zone.instant wall)) :
    ¬ Accident expression zone after := by
  rintro ⟨wall, blurred, -, -, least⟩
  exact blurred.not_occurs (steady wall blurred) least.1.1

/-- The search stops at a blurred local time that comes first. -/
theorem nextOccurrence_of_blurred (timed : expression.Timed) {wall : Int}
    (blurred : Blurred expression zone after wall)
    (first : ∀ time ∈ later expression zone after,
      dayOf (zone.wall after) ≤ dayOf (zone.wall time) → wall ≤ zone.wall time)
    (least : ∀ other, Blurred expression zone after other → wall ≤ other) :
    nextOccurrence expression zone after = some (cutMinute (zone.instant wall)) := by
  obtain ⟨time, resolved, below⟩ := blurred.resolved
  have cut : time = cutMinute (zone.instant wall) := by
    rw [resolveLocal] at resolved
    split at resolved
    · exact (Option.some.inj resolved).symm
    · cases resolved
  rw [nextOccurrence, findSome?_eq_some_iff_least (candidates_sorted timed _), ← cut]
  refine ⟨wall, ?_, ⟨?_, blurred.hits⟩, ?_⟩
  · rw [resolved, Option.filter_some, if_pos (decide_eq_true below)]
  · exact (mem_candidates timed).mpr ⟨blurred.matched, blurred.low, blurred.high⟩
  · rintro other ⟨mem, hits⟩
    obtain ⟨matched, low, high⟩ := (mem_candidates timed).mp mem
    obtain ⟨found, here⟩ := Option.isSome_iff_exists.mp hits
    rcases later_or_blurred matched low high here with ⟨behind, rfl⟩ | blurred'
    · exact first found behind low
    · exact least other blurred'

/-- A search that may meet a blurred local time first does. -/
theorem exists_first_blurred (blurs : ¬ Unblurred expression zone after) :
    ∃ wall, Blurred expression zone after wall ∧
      (∀ time ∈ later expression zone after, dayOf (zone.wall after) ≤ dayOf (zone.wall time) →
        wall ≤ zone.wall time) ∧
      ∀ other, Blurred expression zone after other → wall ≤ other := by
  obtain ⟨wall, blurred, none⟩ : ∃ wall, Blurred expression zone after wall ∧
      ∀ time ∈ later expression zone after,
        dayOf (zone.wall after) ≤ dayOf (zone.wall time) → wall ≤ zone.wall time := by
    simpa [Unblurred] using blurs
  obtain ⟨first, blurred', least⟩ := Int.exists_least_of_bdd
    (P := fun wall => Blurred expression zone after wall)
    ⟨dayOf (zone.wall after) * 86400, fun other blurred' => by
      have low := blurred'.low
      unfold dayOf at low ⊢
      omega⟩ ⟨wall, blurred⟩
  exact ⟨first, blurred', fun time behind low => (least wall blurred).trans (none time behind low),
    least⟩

/-! ## When the search is exact -/

theorem exists_least (present : (later expression zone after).Nonempty) :
    ∃ time, IsLeast (later expression zone after) time := by
  obtain ⟨time, mem⟩ := present
  obtain ⟨least, behind, below⟩ := Int.exists_least_of_bdd
    (P := fun time => time ∈ later expression zone after)
    ⟨after, fun other mem' => le_of_lt mem'.2⟩ ⟨time, mem⟩
  exact ⟨least, behind, below⟩

theorem nextExact_iff (timed : expression.Timed) (sharp : Unblurred expression zone after) :
    NextExact expression zone after ↔ Found expression zone after := by
  constructor
  · intro exact time least
    exact ((nextOccurrence_eq_some timed sharp).mp ((exact.1 time).mpr least)).2
  · intro found
    have least : ∀ time, IsLeast (later expression zone after) time →
        nextOccurrence expression zone after = some time :=
      fun time first => (nextOccurrence_eq_some timed sharp).mpr ⟨first.1, found time first⟩
    refine ⟨fun time => ⟨fun here => ?_, least time⟩, fun missed => ?_, fun empty => ?_⟩
    · obtain ⟨first, isLeast⟩ :=
        exists_least ⟨time, ((nextOccurrence_eq_some timed sharp).mp here).1⟩
      have same := least first isLeast
      rw [here] at same
      rwa [Option.some.inj same]
    · by_contra present
      obtain ⟨first, isLeast⟩ := exists_least (Set.nonempty_iff_ne_empty.mpr present)
      have same := least first isLeast
      rw [missed] at same
      cases same
    · rw [nextOccurrence_eq_none timed sharp]
      intro time behind
      rw [empty] at behind
      cases behind

theorem nextExact_of_least {time : Int} (next : nextOccurrence expression zone after = some time)
    (least : IsLeast (later expression zone after) time) : NextExact expression zone after := by
  constructor
  · intro other
    rw [next, Option.some.injEq]
    constructor
    · rintro rfl
      exact least
    · exact least.unique
  · rw [next]
    refine iff_of_false (fun missed => by cases missed) ?_
    exact Set.Nonempty.ne_empty ⟨time, least.1⟩

theorem reached_iff (timed : expression.Timed) :
    NextExact expression zone after ↔ Reached expression zone after := by
  by_cases sharp : Unblurred expression zone after
  · rw [nextExact_iff timed sharp]
    constructor
    · exact fun found => .inl ⟨sharp, found⟩
    · rintro (⟨-, found⟩ | ⟨wall, blurred, first, -⟩)
      · exact found
      · obtain ⟨time, behind, low, below⟩ := sharp wall blurred
        exact absurd (first time behind low) (not_le_of_gt below)
  · constructor
    · intro exact
      obtain ⟨wall, blurred, first, least⟩ := exists_first_blurred sharp
      have next := nextOccurrence_of_blurred timed blurred first least
      exact .inr ⟨wall, blurred, first, least, (exact.1 _).mp next⟩
    · rintro (⟨sharp', -⟩ | ⟨wall, blurred, first, least, isLeast⟩)
      · exact absurd sharp' sharp
      · exact nextExact_of_least (nextOccurrence_of_blurred timed blurred first least) isLeast

theorem later_behind {time : Int} (behind : time ∈ later expression zone after) :
    later expression zone time = {other | other ∈ later expression zone after ∧ time < other} := by
  ext other
  constructor
  · rintro ⟨occurs, above⟩
    exact ⟨⟨occurs, lt_trans behind.2 above⟩, above⟩
  · rintro ⟨⟨occurs, -⟩, above⟩
    exact ⟨occurs, above⟩

theorem upcomingExact_succ {time : Int} {count : Nat}
    (next : nextOccurrence expression zone after = some time) :
    UpcomingExact expression zone after (count + 1) ↔
      IsLeast (later expression zone after) time ∧ UpcomingExact expression zone time count := by
  rw [UpcomingExact, upcomingOccurrences, next, FirstOf.cons_iff]
  constructor
  · rintro ⟨least, rest⟩
    rw [← later_behind least.1] at rest
    exact ⟨least, rest⟩
  · rintro ⟨least, rest⟩
    rw [UpcomingExact, later_behind least.1] at rest
    exact ⟨least, rest⟩

theorem upcomingExact_none {count : Nat} (next : nextOccurrence expression zone after = none) :
    UpcomingExact expression zone after (count + 1) ↔ later expression zone after = ∅ := by
  rw [UpcomingExact, upcomingOccurrences, next, FirstOf.nil_iff]

theorem nextExact_of_upcoming (exact : UpcomingExact expression zone after 1) :
    NextExact expression zone after := by
  cases next : nextOccurrence expression zone after with
  | none =>
    have empty := (upcomingExact_none next).mp exact
    constructor
    · intro time
      rw [next, empty]
      constructor
      · intro here
        cases here
      · intro least
        cases least.1
    · exact iff_of_true next empty
  | some first => exact nextExact_of_least next ((upcomingExact_succ next).mp exact).1

theorem upcomingExact_of_steady (timed : expression.Timed) (count : Nat) :
    ∀ {after : Int}, Steady expression zone after →
      UpcomingExact expression zone after count := by
  induction count with
  | zero => exact fun _ => FirstOf.zero
  | succ count ih =>
    intro after steady
    have exact := (reached_iff timed).mpr steady.1
    cases next : nextOccurrence expression zone after with
    | none => exact (upcomingExact_none next).mpr (exact.2.mp next)
    | some first =>
      have least := (exact.1 first).mp next
      refine (upcomingExact_succ next).mpr ⟨least, ih ⟨steady.2 first least.1, ?_⟩⟩
      intro time behind
      rw [later_behind least.1] at behind
      exact steady.2 time behind.1

theorem nextExact_later (distance : Nat) :
    ∀ {after time : Int}, (∀ count, UpcomingExact expression zone after count) →
      time ∈ later expression zone after → (time - after).toNat ≤ distance →
      NextExact expression zone time := by
  induction distance with
  | zero =>
    intro after time _ behind near
    have above := behind.2
    omega
  | succ distance ih =>
    intro after time all behind near
    have exact := nextExact_of_upcoming (all 1)
    obtain ⟨first, least⟩ := exists_least ⟨time, behind⟩
    have next := (exact.1 first).mpr least
    have tail : ∀ count, UpcomingExact expression zone first count :=
      fun count => ((upcomingExact_succ next).mp (all (count + 1))).2
    rcases eq_or_lt_of_le (least.2 behind) with rfl | above
    · exact nextExact_of_upcoming (tail 1)
    · have start := least.1.2
      refine ih tail ?_ (by omega)
      rw [later_behind least.1]
      exact ⟨behind, above⟩

theorem upcomingExact_iff (timed : expression.Timed) :
    (∀ count, UpcomingExact expression zone after count) ↔ Steady expression zone after := by
  constructor
  · intro all
    refine ⟨(reached_iff timed).mp (nextExact_of_upcoming (all 1)), fun time behind => ?_⟩
    exact (reached_iff timed).mp (nextExact_later _ all behind (le_refl _))
  · intro steady count
    exact upcomingExact_of_steady timed count steady

/-- Of two instants that are the first with their local times, the earlier one has the earlier
local time. -/
def TimeZone.Ordered (zone : TimeZone) : Prop :=
  ∀ time time', zone.instant (zone.wall time) = time → zone.instant (zone.wall time') = time' →
    time < time' → zone.wall time < zone.wall time'

theorem TimeZone.fixed_ordered (offset : Int) : (fixed offset).Ordered := by
  intro time time' _ _ below
  show time + offset < time' + offset
  omega

theorem later_dayOf (ordered : zone.Ordered) {time : Int}
    (behind : time ∈ later expression zone after) :
    dayOf (zone.wall after) ≤ dayOf (zone.wall time) := by
  obtain ⟨same, le⟩ := zone.first after
  have wall : zone.wall (zone.instant (zone.wall after)) = zone.wall after := same
  have start : zone.instant (zone.wall after) ≤ after := le
  have below : zone.instant (zone.wall after) < time := lt_of_le_of_lt start behind.2
  have walls := ordered _ time (by rw [wall]) (TimeZone.instant_of_first behind.1.first) below
  rw [wall] at walls
  unfold dayOf
  omega

theorem found_iff (ordered : zone.Ordered) : Found expression zone after ↔
    ∀ time, IsLeast (later expression zone after) time →
      dayOf (zone.wall time) < dayOf (zone.wall after) + maxSearchDays := by
  constructor
  · intro found time least
    exact (found time least).2.1
  · intro reach time least
    refine ⟨later_dayOf ordered least.1, reach time least, fun other behind _ => ?_⟩
    rcases eq_or_lt_of_le (least.2 behind) with rfl | below
    · exact le_refl _
    · exact le_of_lt (ordered time other (TimeZone.instant_of_first least.1.1.first)
        (TimeZone.instant_of_first behind.1.first) below)

/-- **The next occurrence is exact exactly when no blurred local time comes first and the least
occurrence behind the instant is within the days of the search and first by local time** (or by
accident), and the upcoming ones are exactly when this is so at every later occurrence too.  Where
the clocks of the zone agree with time, only the days count; accidents need a zone that changes its
offset within the very minute that is answered. -/
theorem next_occurrence_exact {tables : DigitTables} {text : List Char}
    {expression : CronExpression} (parsed : parseCron tables text = .ok expression)
    (zone : TimeZone) (after : Int) :
    (NextExact expression zone after ↔ Reached expression zone after) ∧
    ((∀ count, UpcomingExact expression zone after count) ↔ Steady expression zone after) ∧
    (zone.Ordered → (Found expression zone after ↔
      ∀ time, IsLeast (later expression zone after) time →
        dayOf (zone.wall time) < dayOf (zone.wall after) + maxSearchDays)) ∧
    ((∀ wall, Blurred expression zone after wall →
      zone.offset (cutMinute (zone.instant wall)) = zone.offset (zone.instant wall)) →
      ¬ Accident expression zone after) :=
  ⟨reached_iff (parseCron_timed parsed), upcomingExact_iff (parseCron_timed parsed), found_iff,
    not_accident⟩

theorem ascii_decimal_digit (_ : Char) (value : Nat) (read : (none : Option Nat) = some value) :
    false = true := by
  cases read

def asciiDigits : DigitTables where
  foreignDigit _ := false
  foreignDecimal _ := none
  decimal_digit := ascii_decimal_digit

/-- A zone with a local mean time of seconds, a standard time from 1883 on, and a clock that is set
forward by an hour in March 2026. -/
def eastern : TimeZone where
  offset time := if time < 59417946000 then -17762
    else if time < 63908550000 then -18000 else -14400
  instant wall := if wall < 59417928238 then wall + 17762
    else if wall < 63908535600 then wall + 18000 else wall + 14400
  shifted wall := by
    split_ifs
    · exact ⟨0, by omega⟩
    · exact ⟨59417946000, by omega⟩
    · exact ⟨63908550000, by omega⟩
  first time := by split_ifs <;> omega

def halfPastTwo : CronExpression :=
  expressionOf [['3', '0'], ['2'], ['*'], ['*'], ['*']]
    [{30}, {2}, Finset.Icc 1 31, Finset.Icc 1 12, Finset.range 8]

theorem halfPastTwo_parsed : parseCron asciiDigits "30 2 * * *".toList = .ok halfPastTwo := by
  decide

theorem eastern_unblurred : Unblurred halfPastTwo eastern 63908481600 := by
  intro wall blurred
  refine absurd ?_ blurred.blurred
  obtain ⟨time, resolved, -⟩ := blurred.resolved
  have whole := blurred.matched.whole
  have low := blurred.low
  rw [resolveLocal] at resolved
  split at resolved
  · rename_i same
    simp only [dayOf, TimeZone.wall, eastern] at low same ⊢
    split_ifs at low same ⊢ <;> omega
  · cases resolved

theorem eastern_least : IsLeast (later halfPastTwo eastern 63908481600) 63908634600 := by
  refine ⟨⟨⟨by decide, ⟨by decide, by decide, by decide, by decide⟩, fun other same => ?_⟩,
    by decide⟩, fun other mem => ?_⟩
  · simp only [TimeZone.wall, eastern] at same
    split_ifs at same <;> omega
  · by_contra early
    have behind := mem.2
    have whole := mem.1.wall.whole
    have hour := Finset.mem_singleton.mp (show _ ∈ ({2} : Finset Nat) from mem.1.wall.hour)
    have minute := Finset.mem_singleton.mp (show _ ∈ ({30} : Finset Nat) from mem.1.wall.minute)
    simp only [TimeZone.wall, eastern] at whole hour minute
    split_ifs at whole hour minute <;> omega

/-- On the day of the change there is no half past two; the next one is found a day later. -/
theorem next_occurrence_exact_sample :
    nextOccurrence halfPastTwo eastern 63908481600 = some 63908634600 := by
  have exact : NextExact halfPastTwo eastern 63908481600 := by
    refine (next_occurrence_exact halfPastTwo_parsed eastern 63908481600).1.mpr
      (.inl ⟨eastern_unblurred, fun time least => ?_⟩)
    obtain rfl := least.unique eastern_least
    refine ⟨by decide, by decide +kernel, fun other mem _ => ?_⟩
    have first := eastern_least.2 mem
    simp only [TimeZone.wall, eastern]
    split_ifs <;> omega
  exact (exact.1 _).mpr eastern_least

def leapDay : CronExpression :=
  expressionOf [['0'], ['0'], ['2', '9'], ['2'], ['*']]
    [{0}, {0}, {29}, {2}, Finset.range 8]

theorem leapDay_parsed : parseCron asciiDigits "0 0 29 2 *".toList = .ok leapDay := by
  decide

theorem no_leap_day (count : Nat) (small : count < 1463) :
    matchesDate leapDay (765243 + count) = false := by
  have all : ((List.range 1463).all fun count => !matchesDate leapDay (765243 + (count : Nat))) =
      true := by
    decide +kernel
  simpa using List.all_eq_true.mp all count (List.mem_range.mpr small)

/-- Behind the leap day of 2096 there is none before the one of 2104, and the search ends in
front of it. -/
theorem leap_day_lost :
    parseCron asciiDigits "0 0 29 2 *".toList = .ok leapDay ∧
    nextOccurrence leapDay (.fixed 0) (765242 * 86400) = none ∧
    768163 * 86400 ∈ later leapDay (.fixed 0) (765242 * 86400) ∧
    ¬ NextExact leapDay (.fixed 0) (765242 * 86400) := by
  have occurs : (768163 * 86400 : Int) ∈ later leapDay (.fixed 0) (765242 * 86400) := by
    refine ⟨⟨by decide, ⟨by decide, by decide, by decide, by decide⟩, ?_⟩, by decide⟩
    intro other same
    exact le_of_eq (by simpa [TimeZone.wall, TimeZone.fixed] using same.symm)
  have sharp : Unblurred leapDay (.fixed 0) (765242 * 86400) := unblurred_of_whole fun _ => rfl
  have lost : nextOccurrence leapDay (.fixed 0) (765242 * 86400) = none := by
    rw [nextOccurrence_eq_none (parseCron_timed leapDay_parsed) sharp]
    intro time behind low
    by_contra high
    have here : (TimeZone.fixed 0).wall time = time := Int.add_zero time
    have start : (TimeZone.fixed 0).wall (765242 * 86400) = 765242 * 86400 := Int.add_zero _
    have above := behind.2
    have found := behind.1.wall
    rw [here] at found
    rw [here, start, maxSearchDays] at high
    have hour := Finset.mem_singleton.mp (show _ ∈ ({0} : Finset Nat) from found.hour)
    have minute := Finset.mem_singleton.mp (show _ ∈ ({0} : Finset Nat) from found.minute)
    have sharp := found.whole
    have day : dayOf time = 765243 + ((dayOf time - 765243).toNat : Int) := by
      unfold dayOf at high ⊢
      omega
    have plain := no_leap_day (dayOf time - 765243).toNat (by unfold dayOf at high ⊢; omega)
    rw [← day, found.date] at plain
    cases plain
  refine ⟨leapDay_parsed, lost, occurs, fun exact => ?_⟩
  have empty := exact.2.mp lost
  rw [empty] at occurs
  cases occurs

end SkillMind.Schedules
