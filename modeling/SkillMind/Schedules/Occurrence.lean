import SkillMind.Runs.IntentSpelling
import SkillMind.Schedules.Domain
import SkillMind.Schedules.Cron

/-!
# Stored occurrences

The settings of an occurrence are stored as JSON when it is claimed first, with the whole request
of its Run, and are read back on every later try.  The reader checks every field, writes what it
read once more and refuses a text that is not the one it would have written.

Instants are counted here from the first one that a `datetime` can name.
-/

namespace SkillMind.Schedules

open Library SkillMind.Core
open Runs (Uuid Timestamp)
open Documents (UnicodeTables uuid member hasKeys)
open Effects (uuidText textAt boolAt asObject asText sha256Hex)

/-! ## Instants as texts -/

def leapYear (year : Nat) : Bool := year % 4 == 0 && (year % 100 != 0 || year % 400 == 0)

def monthLengths (year : Nat) : List Nat :=
  [31, if leapYear year then 29 else 28, 31, 30, 31, 30, 31, 31, 30, 31, 30, 31]

def monthDay : List Nat → Nat → Nat → Nat × Nat
  | length :: rest, month, day =>
    if day < length then (month, day + 1) else monthDay rest (month + 1) (day - length)
  | [], month, day => (month, day + 1)

/-- The year of a day that is counted from the first of January of the year 1, and its day in the
year, counted from zero. -/
def yearDay (day : Nat) : Nat × Nat :=
  let centuries := min 3 (day % 146097 / 36524)
  let day' := day % 146097 - centuries * 36524
  let years := min 3 (day' % 1461 / 365)
  (day / 146097 * 400 + centuries * 100 + day' / 1461 * 4 + years + 1, day' % 1461 - years * 365)

/-- A number in at least so many digits. -/
def padded (width number : Nat) : List Char :=
  List.replicate (width - (Nat.toDigits 10 number).length) '0' ++ Nat.toDigits 10 number

def dateTime (time : Timestamp) : List Char :=
  let seconds := time / 1000000
  let (year, day) := yearDay (seconds / 86400)
  let (month, day) := monthDay (monthLengths year) 1 day
  padded 4 year ++ '-' :: padded 2 month ++ '-' :: padded 2 day ++ 'T' ::
    padded 2 (seconds / 3600 % 24) ++ ':' :: padded 2 (seconds / 60 % 60) ++ ':' ::
      padded 2 (seconds % 60)

/-- `isoformat` of an instant in UTC, less the offset at its end. -/
def wallClock (time : Timestamp) : List Char :=
  if time % 1000000 = 0 then dateTime time
  else dateTime time ++ '.' :: padded 6 (time % 1000000)

def isoformat (time : Timestamp) : List Char := wallClock time ++ "+00:00".toList

/-- `_stamp`: the offset, which is all of the text with a plus sign, is written as a letter. -/
def stamp (time : Timestamp) : String := String.ofList (wallClock time ++ ['Z'])

/-- `value.replace("Z", "+00:00")`. -/
def withOffset (text : List Char) : List Char :=
  text.flatMap fun c => if c = 'Z' then "+00:00".toList else [c]

/-- What the standard library is asked: the instant that a text of an aware `datetime` names, and
the names of time zones. -/
structure Calendar where
  fromisoformat : List Char → Option Timestamp
  zoneInfo : String → Bool

structure OccurrenceSettings where
  library : StandardLibrary
  unicode : UnicodeTables
  digits : DigitTables
  calendar : Calendar

def ScheduleKind.value : ScheduleKind → String
  | .once => "ONCE"
  | .cron => "CRON"

/-- A `ScheduleOccurrenceSnapshot` with the whole of its request. -/
structure StoredOccurrence where
  scheduleId : Uuid
  occurrenceAt : Timestamp
  name : String
  configurationVersion : Nat
  claimRowVersion : Nat
  definition : ScheduleDefinition
  intent : Runs.TaskRunIntent
  exhausted : Bool
  missed : Nat

def integerJson (value : Nat) : Json := .number (toString (value : Int))

def stampJson (time : Option Timestamp) : Json :=
  match time with
  | some time => .string (stamp time)
  | none => .null

def definitionMembers (definition : ScheduleDefinition) : List (String × Json) :=
  [ ("kind", .string definition.kind.value)
  , ("timezone", .string definition.timezone)
  , ("cron_expression", (definition.cronExpression.map Json.string).getD .null)
  , ("run_at", stampJson definition.runAt)
  , ("end_at", stampJson definition.endAt)
  , ("max_runs", (definition.maxRuns.map integerJson).getD .null) ]

namespace StoredOccurrence

/-- `schedule_idempotency_key`. -/
def idempotencyKey (snapshot : StoredOccurrence) : String :=
  String.ofList ("schedule:".toList ++ (uuidText snapshot.scheduleId).toList ++ ':' ::
    dateTime snapshot.occurrenceAt ++ ['Z'])

def members (snapshot : StoredOccurrence) : List (String × Json) :=
  [ ("snapshot_version", .string "v1")
  , ("schedule_id", .string (uuidText snapshot.scheduleId))
  , ("occurrence_at", .string (stamp snapshot.occurrenceAt))
  , ("idempotency_key", .string snapshot.idempotencyKey)
  , ("name", .string snapshot.name)
  , ("configuration_version", integerJson snapshot.configurationVersion)
  , ("claim_row_version", integerJson snapshot.claimRowVersion)
  , ("definition", .object (definitionMembers snapshot.definition))
  , ("request", snapshot.intent.toJson)
  , ("exhausted", .bool snapshot.exhausted)
  , ("missed", integerJson snapshot.missed) ]

def toJson (snapshot : StoredOccurrence) : Json := .object snapshot.members

end StoredOccurrence

/-! ## Reading -/

def invalidValue (message : String) : Fault := ⟨.valueError, message⟩

/-- An `int` that is not negative. -/
def asNatural : Json → Option Nat
  | .number literal =>
    let value : Nat := literal.toList.foldl (fun number c => number * 10 + (c.toNat - 0x30)) 0
    if literal = toString (value : Int) then some value else none
  | _ => none

def naturalAt (fields : List (String × Json)) (key : String) : Option Nat :=
  (member fields key).bind asNatural

section Reading

variable (settings : OccurrenceSettings)

/-- `_time`. -/
def readTime (minute : Bool) (value : Json) : Except Fault Timestamp := do
  let text ← orFault (invalidValue "Stored schedule time is invalid") (asText value)
  let time ← orFault (invalidValue "Invalid isoformat string")
    (settings.calendar.fromisoformat (withOffset text.toList))
  if minute = true then exactMinute time
  require (stamp time = text) (invalidValue "Stored schedule time is not canonical")
  return time

def isNull : Json → Bool
  | .null => true
  | _ => false

/-- A field that may be `None`. -/
def orNull {α : Type} (read : Json → Except Fault α) : Json → Except Fault (Option α)
  | .null => .ok none
  | value => do
    let read ← read value
    return some read

def normalizeTimezone (name : String) : Except Fault Unit := do
  require (name ≠ "" ∧ name.toList.length ≤ 64) (invalidValue "Timezone name is invalid")
  require (settings.calendar.zoneInfo name = true)
    (invalidValue "Timezone name is not a known IANA zone")

/-- The text parses as an expression that is written like itself. -/
def cronWritten (text : String) : Prop :=
  ∃ expression ∈ (parseCron settings.digits text.toList).toOption,
    expression.expression = text.toList

instance (text : String) : Decidable (cronWritten settings text) :=
  inferInstanceAs (Decidable (∃ expression ∈ _, _))

def definitionFields : List String :=
  ["kind", "timezone", "cron_expression", "run_at", "end_at", "max_runs"]

def readKind (text : String) : Option ScheduleKind :=
  [ScheduleKind.once, ScheduleKind.cron].find? fun kind => kind.value == text

def readMaximum (value : Json) : Except Fault Nat := do
  let maximum ← orFault (invalidValue "max_runs must be a positive bounded integer")
    (asNatural value)
  positiveInteger maximum "max_runs" maxInteger
  return maximum

def checkKind (kind : ScheduleKind) (cron : Json) (runAt : Option Timestamp) :
    Except Fault (Option String) :=
  match kind with
  | .cron => do
    let text ← orFault (invalidValue "Stored cron definition is invalid") (asText cron)
    require (runAt = none ∧ cronWritten settings text)
      (invalidValue "Stored cron definition is invalid")
    return some text
  | .once => do
    require (isNull cron = true ∧ runAt ≠ none)
      (invalidValue "Stored one-time definition is invalid")
    return none

/-- `_definition`. -/
def readDefinition (value : Json) : Except Fault ScheduleDefinition := do
  let invalid := invalidValue "Stored schedule definition is invalid"
  let fields ← orFault invalid (asObject value)
  require (hasKeys definitionFields fields) invalid
  let kind ← orFault (invalidValue "Not a valid ScheduleKind")
    ((textAt fields "kind").bind readKind)
  let timezone ← orFault (invalidValue "Timezone name is invalid") (textAt fields "timezone")
  normalizeTimezone settings timezone
  let cron ← orFault invalid (member fields "cron_expression")
  let runAt ← orFault invalid (member fields "run_at") >>= orNull (readTime settings true)
  let endAt ← orFault invalid (member fields "end_at") >>= orNull (readTime settings false)
  let maximum ← orFault invalid (member fields "max_runs") >>= orNull readMaximum
  let cronExpression ← checkKind settings kind cron runAt
  return ⟨kind, timezone, cronExpression, runAt, endAt, maximum⟩

/-- `_FIELDS`. -/
def snapshotFields : List String :=
  ["snapshot_version", "schedule_id", "occurrence_at", "idempotency_key", "name",
    "configuration_version", "claim_row_version", "definition", "request", "exhausted", "missed"]

def readVersion (fields : List (String × Json)) (key : String) : Except Fault Nat := do
  let version ← orFault (invalidValue (key ++ " must be a positive bounded integer"))
    (naturalAt fields key)
  positiveInteger version key maxInteger
  return version

/-- The body of `from_json`, in front of the translation of its errors. -/
def readSnapshot (value : Json) (checksum : Option String) : Except Fault StoredOccurrence := do
  let unsupported := invalidValue "Unsupported occurrence snapshot"
  let fields ← orFault unsupported (asObject value)
  require (hasKeys snapshotFields fields ∧ textAt fields "snapshot_version" = some "v1")
    unsupported
  let plan := invalidValue "Stored occurrence plan is invalid"
  let exhausted ← orFault plan (boolAt fields "exhausted")
  let missed ← orFault plan (naturalAt fields "missed")
  require (missed ≤ maxInteger) plan
  let name ← orFault (invalidValue "Stored schedule name is invalid") (textAt fields "name")
  require (1 ≤ name.toList.length ∧ name.toList.length ≤ 200)
    (invalidValue "Stored schedule name is invalid")
  let scheduleId ← orFault (invalidValue "badly formed hexadecimal UUID string")
    ((textAt fields "schedule_id").bind (uuid settings.unicode))
  let occurrenceAt ← orFault unsupported (member fields "occurrence_at") >>=
    readTime settings true
  let configurationVersion ← readVersion fields "configuration_version"
  let claimRowVersion ← readVersion fields "claim_row_version"
  let definition ← orFault unsupported (member fields "definition") >>= readDefinition settings
  let request ← orFault unsupported (member fields "request")
  let intent ← (Runs.TaskRunIntent.fromJson settings.unicode request).mapError fun _ =>
    invalidValue "Stored creation request is invalid"
  let snapshot : StoredOccurrence :=
    ⟨scheduleId, occurrenceAt, name, configurationVersion, claimRowVersion, definition, intent,
      exhausted, missed⟩
  require (canonicalJson value = canonicalJson snapshot.toJson)
    (invalidValue "Occurrence snapshot is not canonical")
  require (∀ expected ∈ checksum, sha256Hex settings.library (canonicalJson value) = expected)
    (invalidValue "Occurrence snapshot checksum does not match")
  return snapshot

def StoredOccurrence.fromJson (value : Json) (checksum : Option String) :
    Except Fault StoredOccurrence :=
  (readSnapshot settings value checksum).mapError fun _ =>
    ⟨.scheduleOccurrenceConflictError, "Stored occurrence snapshot is invalid"⟩

end Reading

variable {settings : OccurrenceSettings}

/-- An instant is read back from its own text, as every one that a `datetime` can name is. -/
def Calendar.Reads (calendar : Calendar) (time : Timestamp) : Prop :=
  calendar.fromisoformat (isoformat time) = some time

theorem padded_digit (width number : Nat) : ∀ c ∈ padded width number, c.isDigit = true := by
  intro c mem
  rcases List.mem_append.mp mem with zero | digit
  · rw [List.eq_of_mem_replicate zero]
    rfl
  · exact Documents.toDigits_digit number c digit

theorem dateTime_plain (time : Timestamp) : 'Z' ∉ dateTime time := by
  have letter : ∀ width number, 'Z' ∉ padded width number := by
    intro width number mem
    have digit := padded_digit width number 'Z' mem
    revert digit
    decide
  simp [dateTime, letter]

theorem wallClock_plain (time : Timestamp) : 'Z' ∉ wallClock time := by
  have letter : 'Z' ∉ padded 6 (time % 1000000) := by
    intro mem
    have digit := padded_digit 6 (time % 1000000) 'Z' mem
    revert digit
    decide
  rw [wallClock]
  split
  · exact dateTime_plain time
  · simp [dateTime_plain time, letter]

theorem withOffset_plain {text : List Char} (plain : 'Z' ∉ text) : withOffset text = text := by
  induction text with
  | nil => rfl
  | cons c rest ih =>
    rw [List.mem_cons, not_or] at plain
    rw [withOffset, List.flatMap_cons, if_neg fun same => plain.1 same.symm, ← withOffset,
      ih plain.2]
    rfl

theorem withOffset_stamp (time : Timestamp) :
    withOffset (stamp time).toList = isoformat time := by
  rw [stamp, String.toList_ofList, withOffset, List.flatMap_append, ← withOffset,
    withOffset_plain (wallClock_plain time)]
  rfl

theorem readTime_stamp {exact : Bool} {time : Timestamp}
    (reads : settings.calendar.Reads time) (whole : exact = true → time % minute = 0) :
    readTime settings exact (.string (stamp time)) = .ok time := by
  simp only [readTime, asText, orFault_some, ok_bind, withOffset_stamp,
    show settings.calendar.fromisoformat (isoformat time) = some time from reads]
  cases exact with
  | false =>
    rw [if_neg Bool.false_ne_true, require_of trivial]
    rfl
  | true =>
    rw [if_pos rfl, exactMinute, require_of (whole rfl), require_of trivial]
    rfl

theorem readTime_minute {value : Json} {time : Timestamp}
    (read : readTime settings true value = .ok time) : time % minute = 0 := by
  simp only [readTime, if_true, bind_eq_ok, orFault_eq_ok, exactMinute, require_eq_ok,
    exists_unit, pure_eq_ok] at read
  obtain ⟨-, -, time', -, whole, -, rfl⟩ := read
  exact whole

theorem asNatural_integerJson (number : Nat) : asNatural (integerJson number) = some number := by
  simp only [asNatural, integerJson, Documents.toList_toString, Documents.toDigits_value]
  exact if_pos trivial

/-! ## Definitions are read back -/

structure ValidDefinition (settings : OccurrenceSettings) (definition : ScheduleDefinition) :
    Prop where
  timezone : normalizeTimezone settings definition.timezone = .ok ()
  runAt : ∀ time ∈ definition.runAt, time % minute = 0
  maxRuns : ∀ maximum ∈ definition.maxRuns, 1 ≤ maximum ∧ maximum ≤ maxInteger
  cron : definition.kind = .cron → definition.runAt = none ∧
    ∃ text, definition.cronExpression = some text ∧ cronWritten settings text
  once : definition.kind = .once → definition.cronExpression = none ∧ definition.runAt ≠ none

theorem orNull_ok {α : Type} {read : Json → Except Fault α} {value : Json} {found : Option α}
    (done : orNull read value = .ok found) : ∀ item ∈ found, read value = .ok item := by
  intro item mem
  cases value with
  | null =>
    cases done
    cases mem
  | _ =>
    simp only [orNull, bind_eq_ok, pure_eq_ok] at done
    obtain ⟨item', here, rfl⟩ := done
    cases mem
    exact here

theorem orNull_written {α : Type} {read : Json → Except Fault α} {write : α → Json}
    {value : Option α} (real : ∀ item ∈ value, write item ≠ .null)
    (reads : ∀ item ∈ value, read (write item) = .ok item) :
    orNull read ((value.map write).getD .null) = .ok value := by
  cases value with
  | none => rfl
  | some item =>
    have here := reads item rfl
    have some := real item rfl
    rw [Option.map_some, Option.getD_some, orNull, here]
    · rfl
    · exact some

theorem stampJson_eq (time : Option Timestamp) :
    stampJson time = (time.map fun time => Json.string (stamp time)).getD .null := by
  cases time <;> rfl

theorem readMaximum_ok {value : Json} {maximum : Nat} (read : readMaximum value = .ok maximum) :
    1 ≤ maximum ∧ maximum ≤ maxInteger := by
  simp only [readMaximum, bind_eq_ok, orFault_eq_ok, positiveInteger, require_eq_ok, exists_unit,
    pure_eq_ok] at read
  obtain ⟨_, -, bounded, rfl⟩ := read
  exact bounded

theorem readMaximum_integerJson {maximum : Nat} (bounded : 1 ≤ maximum ∧ maximum ≤ maxInteger) :
    readMaximum (integerJson maximum) = .ok maximum := by
  simp only [readMaximum, asNatural_integerJson, orFault_some, ok_bind]
  rw [positiveInteger, require_of bounded]
  rfl

theorem readKind_value (kind : ScheduleKind) : readKind kind.value = some kind := by
  cases kind <;> decide

theorem checkKind_ok {kind : ScheduleKind} {cron : Json} {runAt : Option Timestamp}
    {cronExpression : Option String}
    (checks : checkKind settings kind cron runAt = .ok cronExpression) :
    (kind = .cron → runAt = none ∧
      ∃ text, cronExpression = some text ∧ cronWritten settings text) ∧
    (kind = .once → cronExpression = none ∧ runAt ≠ none) := by
  cases kind with
  | cron =>
    simp only [checkKind, bind_eq_ok, orFault_eq_ok, require_eq_ok, exists_unit,
      pure_eq_ok] at checks
    obtain ⟨text, -, ⟨absent, written⟩, rfl⟩ := checks
    exact ⟨fun _ => ⟨absent, text, rfl, written⟩, fun other => by cases other⟩
  | once =>
    simp only [checkKind, bind_eq_ok, require_eq_ok, exists_unit, pure_eq_ok] at checks
    obtain ⟨⟨-, present⟩, rfl⟩ := checks
    exact ⟨fun other => (by cases other), fun _ => ⟨rfl, present⟩⟩

theorem checkKind_valid {definition : ScheduleDefinition}
    (valid : ValidDefinition settings definition) :
    checkKind settings definition.kind ((definition.cronExpression.map Json.string).getD .null)
      definition.runAt = .ok definition.cronExpression := by
  cases kind : definition.kind with
  | cron =>
    obtain ⟨absent, text, present, written⟩ := valid.cron kind
    simp only [checkKind, present, Option.map_some, Option.getD_some, asText, orFault_some,
      ok_bind]
    rw [require_of ⟨absent, written⟩]
    rfl
  | once =>
    obtain ⟨absent, present⟩ := valid.once kind
    simp only [checkKind, absent, Option.map_none, Option.getD_none]
    rw [require_of ⟨rfl, present⟩]
    rfl

theorem hasKeys_definitionMembers (definition : ScheduleDefinition) :
    hasKeys definitionFields (definitionMembers definition) := by
  simp [hasKeys, definitionFields, definitionMembers]

theorem readDefinition_written {definition : ScheduleDefinition}
    (runAtReads : ∀ time ∈ definition.runAt, settings.calendar.Reads time)
    (endAtReads : ∀ time ∈ definition.endAt, settings.calendar.Reads time)
    (valid : ValidDefinition settings definition) :
    readDefinition settings (.object (definitionMembers definition)) = .ok definition := by
  have found : member (definitionMembers definition) "cron_expression" =
        some ((definition.cronExpression.map Json.string).getD .null) ∧
      member (definitionMembers definition) "run_at" = some (stampJson definition.runAt) ∧
      member (definitionMembers definition) "end_at" = some (stampJson definition.endAt) ∧
      member (definitionMembers definition) "max_runs" =
        some ((definition.maxRuns.map integerJson).getD .null) ∧
      textAt (definitionMembers definition) "kind" = some definition.kind.value ∧
      textAt (definitionMembers definition) "timezone" = some definition.timezone := by
    simp [definitionMembers, textAt, member]
  obtain ⟨cronAt, runAt, endAt, maxAt, kindAt, zoneAt⟩ := found
  have run : orNull (readTime settings true) (stampJson definition.runAt) =
      .ok definition.runAt := by
    rw [stampJson_eq]
    refine orNull_written (fun _ _ fails => by cases fails) fun time mem => ?_
    exact readTime_stamp (runAtReads time mem) fun _ => valid.runAt time mem
  have stop : orNull (readTime settings false) (stampJson definition.endAt) =
      .ok definition.endAt := by
    rw [stampJson_eq]
    refine orNull_written (fun _ _ fails => by cases fails) fun time mem => ?_
    exact readTime_stamp (endAtReads time mem) fun fails => by cases fails
  have maximum : orNull readMaximum ((definition.maxRuns.map integerJson).getD .null) =
      .ok definition.maxRuns :=
    orNull_written (fun _ _ fails => by cases fails)
      fun number mem => readMaximum_integerJson (valid.maxRuns number mem)
  simp only [readDefinition, asObject, orFault_some, ok_bind,
    require_of (hasKeys_definitionMembers definition), kindAt, Option.bind_some, readKind_value,
    zoneAt, valid.timezone, cronAt, runAt, endAt, maxAt, run, stop, maximum,
    checkKind_valid valid]
  rfl

theorem readDefinition_ok {value : Json} {definition : ScheduleDefinition}
    (read : readDefinition settings value = .ok definition) :
    ValidDefinition settings definition := by
  simp only [readDefinition, bind_eq_ok, orFault_eq_ok, require_eq_ok, exists_unit,
    pure_eq_ok] at read
  obtain ⟨fields, -, -, kind, -, zone, -, normal, cron, -, runAt, ⟨run, -, readRun⟩, endAt, -,
    maximum, ⟨max, -, readMax⟩, expression, checks, rfl⟩ := read
  obtain ⟨cronCase, onceCase⟩ := checkKind_ok checks
  exact ⟨normal, fun time mem => readTime_minute (orNull_ok readRun time mem),
    fun number mem => readMaximum_ok (orNull_ok readMax number mem), cronCase, onceCase⟩

/-! ## Snapshots are read back -/

namespace StoredOccurrence

/-- What the reader asks of a snapshot. -/
structure Valid (settings : OccurrenceSettings) (snapshot : StoredOccurrence) : Prop where
  scheduleId : snapshot.scheduleId < 2 ^ 128
  occurrenceAt : snapshot.occurrenceAt % minute = 0
  name : 1 ≤ snapshot.name.toList.length ∧ snapshot.name.toList.length ≤ 200
  configurationVersion : 1 ≤ snapshot.configurationVersion ∧
    snapshot.configurationVersion ≤ maxInteger
  claimRowVersion : 1 ≤ snapshot.claimRowVersion ∧ snapshot.claimRowVersion ≤ maxInteger
  missed : snapshot.missed ≤ maxInteger
  definition : ValidDefinition settings snapshot.definition
  intent : Runs.TaskRunIntent.checked settings.unicode snapshot.intent = .ok snapshot.intent

/-- The instants of a snapshot are read back from their texts. -/
structure Dated (calendar : Calendar) (snapshot : StoredOccurrence) : Prop where
  occurrenceAt : calendar.Reads snapshot.occurrenceAt
  runAt : ∀ time ∈ snapshot.definition.runAt, calendar.Reads time
  endAt : ∀ time ∈ snapshot.definition.endAt, calendar.Reads time

/-- The input of a snapshot's request is an object of JSON, and no requirement is named twice. -/
def Formed (snapshot : StoredOccurrence) : Prop :=
  (Json.object snapshot.intent.input).wellFormed = true ∧
    (snapshot.intent.sources.map Prod.fst).Nodup

theorem integerJson_wellFormed (number : Nat) : (integerJson number).wellFormed = true :=
  Documents.isNumberToken_toString number

theorem stampJson_wellFormed (time : Option Timestamp) : (stampJson time).wellFormed = true := by
  cases time <;> rfl

theorem definition_wellFormed (definition : ScheduleDefinition) :
    (Json.object (definitionMembers definition)).wellFormed = true := by
  apply Effects.object_wellFormed
  · simp [definitionMembers]
  · intro field mem
    simp only [definitionMembers, List.mem_cons, List.not_mem_nil, or_false] at mem
    rcases mem with rfl | rfl | rfl | rfl | rfl | rfl
    · rfl
    · rfl
    · cases definition.cronExpression <;> rfl
    · exact stampJson_wellFormed _
    · exact stampJson_wellFormed _
    · cases definition.maxRuns with
      | none => rfl
      | some number => exact integerJson_wellFormed number

variable {snapshot : StoredOccurrence}

theorem toJson_wellFormed (formed : snapshot.Formed) :
    snapshot.toJson.wellFormed = true := by
  apply Effects.object_wellFormed
  · simp [members]
  · intro field mem
    simp only [members, List.mem_cons, List.not_mem_nil, or_false] at mem
    rcases mem with rfl | rfl | rfl | rfl | rfl | rfl | rfl | rfl | rfl | rfl | rfl
    · rfl
    · rfl
    · rfl
    · rfl
    · rfl
    · exact integerJson_wellFormed _
    · exact integerJson_wellFormed _
    · exact definition_wellFormed _
    · exact Runs.TaskRunIntent.toJson_wellFormed formed.1 formed.2
    · rfl
    · exact integerJson_wellFormed _

theorem readVersion_ok {fields : List (String × Json)} {key : String} {version : Nat}
    (read : readVersion fields key = .ok version) : 1 ≤ version ∧ version ≤ maxInteger := by
  simp only [readVersion, bind_eq_ok, orFault_eq_ok, positiveInteger, require_eq_ok, exists_unit,
    pure_eq_ok] at read
  obtain ⟨_, -, bounded, rfl⟩ := read
  exact bounded

theorem readVersion_written {fields : List (String × Json)} {key : String} {version : Nat}
    (found : member fields key = some (integerJson version))
    (bounded : 1 ≤ version ∧ version ≤ maxInteger) : readVersion fields key = .ok version := by
  simp only [readVersion, naturalAt, found, Option.bind_some, asNatural_integerJson, orFault_some,
    ok_bind]
  rw [positiveInteger, require_of bounded]
  rfl

theorem fromJson_toJson
    (dated : snapshot.Dated settings.calendar) (valid : snapshot.Valid settings)
    {checksum : Option String}
    (sealed : ∀ expected ∈ checksum,
      sha256Hex settings.library (canonicalJson snapshot.toJson) = expected) :
    fromJson settings snapshot.toJson checksum = .ok snapshot := by
  have object : asObject snapshot.toJson = some snapshot.members := rfl
  have keys : hasKeys snapshotFields snapshot.members ∧
      textAt snapshot.members "snapshot_version" = some "v1" := by
    simp [hasKeys, snapshotFields, members, textAt, member]
  have found : boolAt snapshot.members "exhausted" = some snapshot.exhausted ∧
      member snapshot.members "missed" = some (integerJson snapshot.missed) ∧
      textAt snapshot.members "name" = some snapshot.name ∧
      textAt snapshot.members "schedule_id" = some (uuidText snapshot.scheduleId) ∧
      member snapshot.members "occurrence_at" = some (.string (stamp snapshot.occurrenceAt)) ∧
      member snapshot.members "configuration_version" =
        some (integerJson snapshot.configurationVersion) ∧
      member snapshot.members "claim_row_version" =
        some (integerJson snapshot.claimRowVersion) ∧
      member snapshot.members "definition" =
        some (.object (definitionMembers snapshot.definition)) ∧
      member snapshot.members "request" = some snapshot.intent.toJson := by
    simp [members, boolAt, textAt, member]
  obtain ⟨exhaustedAt, missedAt, nameAt, scheduleAt, occurrenceAt, configurationAt, claimAt,
    definitionAt, requestAt⟩ := found
  have missed : naturalAt snapshot.members "missed" = some snapshot.missed := by
    rw [naturalAt, missedAt, Option.bind_some, asNatural_integerJson]
  have time := readTime_stamp dated.occurrenceAt fun (_ : true = true) => valid.occurrenceAt
  have definition := readDefinition_written dated.runAt dated.endAt valid.definition
  have intent := Runs.TaskRunIntent.fromJson_toJson valid.intent
  simp only [fromJson, readSnapshot, object, orFault_some, ok_bind, require_of keys,
    exhaustedAt, missed, require_of valid.missed, nameAt, require_of valid.name, scheduleAt,
    Option.bind_some, Documents.uuid_uuidText valid.scheduleId, occurrenceAt, time,
    readVersion_written configurationAt valid.configurationVersion,
    readVersion_written claimAt valid.claimRowVersion, definitionAt, definition, requestAt,
    intent, Except.mapError, require_of trivial, require_of sealed]
  rfl

theorem fromJson_ok {value : Json} {checksum : Option String}
    (formed : value.wellFormed = true) (read : fromJson settings value checksum = .ok snapshot) :
    snapshot.Valid settings ∧ snapshot.Formed ∧ snapshot.toJson.Same value ∧
      ∀ expected ∈ checksum, sha256Hex settings.library (canonicalJson value) = expected := by
  simp only [fromJson, mapError_eq_ok, readSnapshot, bind_eq_ok, orFault_eq_ok, require_eq_ok,
    exists_unit, pure_eq_ok] at read
  obtain ⟨fields, isObject, -, exhausted, -, missed, -, bounded, name, -, named, id, uuidRead,
    time, ⟨_, -, timeRead⟩, configuration, configurationRead, claim, claimRead, definition,
    ⟨_, -, definitionRead⟩, request, requestAt, intent, intentRead, same, checks, rfl⟩ := read
  have object : value = .object fields := by
    cases value <;> cases isObject
    rfl
  rw [object] at formed
  have requestFormed := Effects.member_wellFormed formed requestAt
  obtain ⟨again, input, distinct, -⟩ := Runs.TaskRunIntent.fromJson_same requestFormed intentRead
  obtain ⟨scheduleText, -, scheduleRead⟩ := Option.bind_eq_some_iff.mp uuidRead
  rw [object] at same checks ⊢
  have valid : Valid settings
      ⟨id, time, name, configuration, claim, definition, intent, exhausted, missed⟩ :=
    ⟨Runs.uuid_small scheduleRead, readTime_minute timeRead, named,
      readVersion_ok configurationRead, readVersion_ok claimRead, bounded,
      readDefinition_ok definitionRead, again⟩
  refine ⟨valid, ⟨input, distinct⟩, ?_, checks⟩
  exact (canonicalJson_eq_iff (toJson_wellFormed ⟨input, distinct⟩) formed).mp same.symm

theorem fromJson_toJson_iff (formed : snapshot.Formed)
    (dated : snapshot.Dated settings.calendar) :
    fromJson settings snapshot.toJson none = .ok snapshot ↔ snapshot.Valid settings := by
  constructor
  · intro read
    exact (fromJson_ok (toJson_wellFormed formed) read).1
  · intro valid
    exact fromJson_toJson dated valid fun _ mem => by cases mem

end StoredOccurrence

open Runs (SameRequest normalizeSourceChoices)
open Evaluations (NoCollision)

/-- **Stored requests and snapshots are canonical.**  Every intent is read back; so is every
snapshot that keeps the bounds of its reader, and no other; what the readers accept is the text
of the value they return; normal choices are kept; and two intents have one fingerprint exactly
when they ask for the same. -/
theorem stored_intents_canonical (settings : OccurrenceSettings) :
    (∀ raw intent : Runs.TaskRunIntent, (raw.sources.map Prod.fst).Nodup →
      Runs.TaskRunIntent.checked settings.unicode raw = .ok intent →
      Runs.TaskRunIntent.fromJson settings.unicode intent.toJson = .ok intent) ∧
    (∀ (value : Json) (intent : Runs.TaskRunIntent), value.wellFormed = true →
      Runs.TaskRunIntent.fromJson settings.unicode value = .ok intent →
      Runs.TaskRunIntent.checked settings.unicode intent = .ok intent ∧
        intent.toJson.Same value) ∧
    (∀ snapshot : StoredOccurrence, snapshot.Formed → snapshot.Dated settings.calendar →
      (StoredOccurrence.fromJson settings snapshot.toJson none = .ok snapshot ↔
        snapshot.Valid settings)) ∧
    (∀ (value : Json) (checksum : Option String) (snapshot : StoredOccurrence),
      value.wellFormed = true →
      StoredOccurrence.fromJson settings value checksum = .ok snapshot →
      snapshot.Valid settings ∧ snapshot.toJson.Same value ∧
        ∀ expected ∈ checksum,
          sha256Hex settings.library (canonicalJson value) = expected) ∧
    (∀ sources normal : List (String × String),
      normalizeSourceChoices settings.unicode sources = .ok normal →
      normalizeSourceChoices settings.unicode normal = .ok normal) ∧
    ∀ first second made made' : Runs.TaskRunIntent,
      Runs.TaskRunIntent.checked settings.unicode first = .ok made →
      Runs.TaskRunIntent.checked settings.unicode second = .ok made' →
      (Json.object first.input).wellFormed = true →
      (Json.object second.input).wellFormed = true →
      (first.sources.map Prod.fst).Nodup → (second.sources.map Prod.fst).Nodup →
      NoCollision settings.library made.toJson made'.toJson →
      (made.fingerprint settings.library = made'.fingerprint settings.library ↔
        SameRequest settings.unicode first second) := by
  refine ⟨?_, ?_, ?_, ?_, ?_, ?_⟩
  · intro raw intent distinct checks
    exact Runs.TaskRunIntent.fromJson_toJson (Runs.TaskRunIntent.checked_again checks distinct).1
  · intro value intent formed read
    obtain ⟨again, -, -, same⟩ := Runs.TaskRunIntent.fromJson_same formed read
    exact ⟨again, same⟩
  · intro snapshot formed dated
    exact StoredOccurrence.fromJson_toJson_iff formed dated
  · intro value checksum snapshot formed read
    obtain ⟨valid, -, same, sealed⟩ := StoredOccurrence.fromJson_ok formed read
    exact ⟨valid, same, sealed⟩
  · intro sources normal normalized
    exact Runs.TaskRunIntent.normalizeSourceChoices_again normalized
  · intro first second made made' checks checks' input input' distinct distinct' apart
    exact Runs.TaskRunIntent.fingerprint_eq_iff_same checks checks' input input' distinct distinct'
      apart

/-- The first minute after the turn of a day, and the names of no zone but one. -/
def reportCalendar : Calendar where
  fromisoformat text := if text = "2026-11-19T00:01:00+00:00".toList then
    some 63930643260000000 else none
  zoneInfo name := name == "UTC"

theorem reportCalendar_read {text : List Char}
    (named : text = "2026-11-19T00:01:00+00:00".toList) :
    reportCalendar.fromisoformat text = some 63930643260000000 := if_pos named

def reportSettings : OccurrenceSettings where
  library := Documents.zeroLibrary
  unicode := Documents.asciiTables
  digits := ⟨fun _ => false, fun _ => none, by simp⟩
  calendar := reportCalendar

def reportOccurrence (name : String) : StoredOccurrence where
  scheduleId := 3
  occurrenceAt := 63930643260000000
  name := name
  configurationVersion := 1
  claimRowVersion := 2
  definition := ⟨.once, "UTC", none, some 63930643260000000, none, none⟩
  intent := Runs.Creation.reportIntent
  exhausted := true
  missed := 0

theorem reportOccurrence_formed (name : String) : (reportOccurrence name).Formed := by
  constructor
  · show (Json.object Runs.Creation.reportIntent.input).wellFormed = true
    decide
  · show (Runs.Creation.reportIntent.sources.map Prod.fst).Nodup
    decide

theorem reportOccurrence_dated (name : String) :
    (reportOccurrence name).Dated reportSettings.calendar := by
  have written : isoformat 63930643260000000 = "2026-11-19T00:01:00+00:00".toList := by
    decide
  have reads : reportCalendar.Reads 63930643260000000 := reportCalendar_read written
  constructor
  · exact reads
  · intro time mem
    cases mem
    exact reads
  · intro time mem
    cases mem

theorem reportOccurrence_valid : (reportOccurrence "weekly").Valid reportSettings where
  scheduleId := by decide
  occurrenceAt := by decide
  name := by decide
  configurationVersion := by decide
  claimRowVersion := by decide
  missed := by decide
  definition := by
    constructor
    · rfl
    · intro time mem
      cases mem
      decide
    · intro number mem
      cases mem
    · intro fails
      cases fails
    · intro _
      exact ⟨rfl, by decide⟩
  intent := Runs.Creation.reportRequest.made

theorem stored_intents_canonical_sample :
    StoredOccurrence.fromJson reportSettings (reportOccurrence "weekly").toJson none =
      .ok (reportOccurrence "weekly") :=
  ((stored_intents_canonical reportSettings).2.2.1 (reportOccurrence "weekly")
    (reportOccurrence_formed "weekly") (reportOccurrence_dated "weekly")).mpr
      reportOccurrence_valid

/-- Nothing keeps a snapshot from a name that its reader does not take. -/
theorem unnamed_occurrence_unread :
    StoredOccurrence.fromJson reportSettings (reportOccurrence "").toJson none ≠
      .ok (reportOccurrence "") := by
  intro read
  have valid := (StoredOccurrence.fromJson_ok
    (StoredOccurrence.toJson_wellFormed (reportOccurrence_formed "")) read).1
  have named := valid.name.1
  revert named
  decide

end SkillMind.Schedules
