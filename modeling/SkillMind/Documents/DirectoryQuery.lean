import SkillMind.Documents.Snapshot
import SkillMind.Skills.SourceLoader
import Mathlib.Data.Int.LeastGreatest

/-!
# Selecting documents by directory and by day

A query selects frozen documents by their folders and names, and by the local calendar day that
they were modified on. A folder is compared as a text, and what is compared are its segments. The
day is read as the interval between two local midnights, each of which may not exist or exist
twice: the interval is the day exactly where both are read as the first instants of their dates.
-/

namespace SkillMind.Documents.Directory

open Library SkillMind.Core
open Skills (segments segments_slash pathLe)

structure Parameters where
  directory : String
  recursive : Bool
  extensions : List String
  excludeDirectories : List String
  excludeNamePrefixes : List String
  /-- The date, the time zone and the cutoff as they are written. -/
  modifiedOn : Option (String × String × String)
  excluded_ne : ∀ path ∈ excludeDirectories, path ≠ ""

/-- `folder.startswith(directory + "/")`. -/
def under (directory folder : String) : Bool :=
  (directory.toList ++ ['/']).isPrefixOf folder.toList

/-- The condition of `candidates`. -/
def selected (parameters : Parameters) (item : FrozenDocument) : Bool :=
  (decide (parameters.directory = "") || decide (item.folder = parameters.directory) ||
      (parameters.recursive && under parameters.directory item.folder)) &&
    (parameters.recursive || decide (item.folder = parameters.directory)) &&
    (parameters.extensions.isEmpty ||
      parameters.extensions.any fun ext => ext.toList.isSuffixOf (lower item.name)) &&
    (parameters.excludeNamePrefixes.all fun front =>
      !front.toList.isPrefixOf item.name.toList) &&
    parameters.excludeDirectories.all fun path =>
      !(decide (item.folder = path) || under path item.folder)

def candidates (parameters : Parameters) (documents : List FrozenDocument) :
    List FrozenDocument :=
  (documents.filter (selected parameters)).insertionSort fun first second =>
    pathLe first.path second.path

/-- The segments of a folder; the root has none. -/
def parts (folder : String) : List (List Char) :=
  if folder = "" then [] else segments folder.toList

/-- A document is at the directory, or below it when the query is recursive, has a listed extension
and no excluded prefix, and is in no excluded folder. -/
structure Selected (parameters : Parameters) (item : FrozenDocument) : Prop where
  directory : if parameters.recursive = true then parts parameters.directory <+: parts item.folder
    else parts item.folder = parts parameters.directory
  extension : parameters.extensions = [] ∨
    ∃ ext ∈ parameters.extensions, ext.toList <:+ lower item.name
  name : ∀ front ∈ parameters.excludeNamePrefixes, ¬ front.toList <+: item.name.toList
  folder : ∀ path ∈ parameters.excludeDirectories, ¬ parts path <+: parts item.folder

theorem segments_injective {first second : List Char} (same : segments first = segments second) :
    first = second := by
  have whole : ∀ text : List Char, joined (segments text) = text := by
    intro text
    induction text with
    | nil => rfl
    | cons c rest ih =>
      rw [segments]
      cases inner : segments rest with
      | nil => exact absurd inner (Skills.segments_ne_nil rest)
      | cons part others =>
        rw [inner] at ih
        split_ifs with slash
        · rw [joined_cons_cons, ih, slash]
          rfl
        · cases others with
          | nil =>
            rw [← ih]
            simp [joined]
          | cons next more =>
            rw [joined_cons_cons] at ih ⊢
            rw [← ih]
            rfl
  rw [← whole first, ← whole second, same]

theorem under_iff {directory folder : String} (named : directory ≠ "") :
    folder = directory ∨ under directory folder = true ↔ parts directory <+: parts folder := by
  have some : parts directory ≠ [] := by
    rw [parts, if_neg named]
    exact Skills.segments_ne_nil _
  constructor
  · rintro (rfl | below)
    · exact List.prefix_refl _
    · obtain ⟨rest, whole⟩ := List.isPrefixOf_iff_prefix.mp below
      have folder_ne : folder ≠ "" := by
        rintro rfl
        simp at whole
      rw [parts, parts, if_neg named, if_neg folder_ne, ← whole, List.append_assoc]
      exact ⟨segments rest, (segments_slash _ _).symm⟩
  · intro front
    have folder_ne : folder ≠ "" := by
      rintro rfl
      exact some (List.prefix_nil.mp front)
    rw [parts, parts, if_neg named, if_neg folder_ne] at front
    obtain ⟨rest, whole⟩ := front
    cases rest with
    | nil =>
      left
      rw [List.append_nil] at whole
      exact (String.toList_inj.mp (segments_injective whole)).symm
    | cons part more =>
      right
      have free : ∀ one ∈ part :: more, '/' ∉ one := fun one mem =>
        segments_free folder.toList one (whole ▸ List.mem_append_right _ mem)
      have spelled : folder.toList = directory.toList ++ '/' :: joined (part :: more) := by
        refine segments_injective ?_
        rw [segments_slash, segments_joined (by simp) free, whole]
      rw [under, List.isPrefixOf_iff_prefix, spelled]
      exact ⟨joined (part :: more), by simp⟩

theorem parts_injective {first second : String} (same : parts first = parts second) :
    first = second := by
  rw [parts, parts] at same
  split_ifs at same with empty empty' empty'
  · rw [empty, empty']
  · exact absurd same.symm (Skills.segments_ne_nil _)
  · exact absurd same (Skills.segments_ne_nil _)
  · exact String.toList_inj.mp (segments_injective same)

theorem selected_iff {parameters : Parameters} {item : FrozenDocument} :
    selected parameters item = true ↔ Selected parameters item := by
  have directory : ((decide (parameters.directory = "") ||
      decide (item.folder = parameters.directory) ||
        (parameters.recursive && under parameters.directory item.folder)) &&
          (parameters.recursive || decide (item.folder = parameters.directory))) = true ↔
      if parameters.recursive = true then parts parameters.directory <+: parts item.folder
        else parts item.folder = parts parameters.directory := by
    cases recursive : parameters.recursive with
    | false =>
      have same : parts item.folder = parts parameters.directory ↔
          item.folder = parameters.directory := ⟨parts_injective, congrArg parts⟩
      simp [same]
      tauto
    | true =>
      by_cases root : parameters.directory = ""
      · simp [root, parts]
      · rw [if_pos rfl, ← under_iff root]
        simp [root]
  have folder : (parameters.excludeDirectories.all fun path =>
      !(decide (item.folder = path) || under path item.folder)) = true ↔
      ∀ path ∈ parameters.excludeDirectories, ¬ parts path <+: parts item.folder := by
    rw [List.all_eq_true]
    refine forall₂_congr fun path mem => ?_
    rw [← under_iff (parameters.excluded_ne path mem)]
    simp
  have extension : (parameters.extensions.isEmpty ||
      parameters.extensions.any fun ext => ext.toList.isSuffixOf (lower item.name)) = true ↔
      (parameters.extensions = [] ∨
        ∃ ext ∈ parameters.extensions, ext.toList <:+ lower item.name) := by
    simp [List.isSuffixOf_iff_suffix]
  have name : (parameters.excludeNamePrefixes.all fun front =>
      !front.toList.isPrefixOf item.name.toList) = true ↔
      ∀ front ∈ parameters.excludeNamePrefixes, ¬ front.toList <+: item.name.toList := by
    simp [← List.isPrefixOf_iff_prefix]
  rw [selected, Bool.and_eq_true, Bool.and_eq_true, Bool.and_eq_true, directory, extension, name,
    folder]
  exact ⟨fun ⟨⟨⟨one, two⟩, three⟩, four⟩ => ⟨one, two, three, four⟩,
    fun ⟨one, two, three, four⟩ => ⟨⟨⟨one, two⟩, three⟩, four⟩⟩

theorem mem_candidates {parameters : Parameters} {documents : List FrozenDocument}
    {item : FrozenDocument} :
    item ∈ candidates parameters documents ↔ item ∈ documents ∧ Selected parameters item := by
  rw [candidates, List.mem_insertionSort, List.mem_filter, selected_iff]

theorem candidates_exact (parameters : Parameters) (documents : List FrozenDocument) :
    (∀ item, Selected parameters item →
        (candidates parameters documents).count item = documents.count item) ∧
      (∀ item, ¬ Selected parameters item → item ∉ candidates parameters documents) ∧
      (candidates parameters documents).Pairwise fun first second =>
        pathLe first.path second.path := by
  refine ⟨fun item chosen => ?_, fun item other mem => ?_, ?_⟩
  · rw [candidates, (List.perm_insertionSort _ _).count_eq]
    exact List.count_filter (selected_iff.mpr chosen)
  · exact other (mem_candidates.mp mem).2
  · have total : Std.Total fun first second : FrozenDocument =>
        pathLe first.path second.path := ⟨fun first second => textLe_total _ _⟩
    have trans : IsTrans FrozenDocument fun first second =>
        pathLe first.path second.path := ⟨fun _ _ _ => textLe_trans⟩
    exact List.pairwise_insertionSort _ _

def dayLength : ℤ := 86400000000

/-- A time zone: the offset at each instant, and the instant that a local time is read as with
`fold=0`.  A local time that exists is read as its first instant; one that a transition leaves out
is read by the offset before the transition. -/
structure Zone where
  offset : ℤ → ℤ
  read : ℤ → ℤ
  bounded : ∀ instant, -dayLength < offset instant ∧ offset instant < dayLength
  existing : ∀ time instant, instant + offset instant = time →
    read time + offset (read time) = time ∧ read time ≤ instant
  missing : ∀ time, (∀ instant, instant + offset instant ≠ time) →
    ∃ instant, instant - 1 + offset (instant - 1) + 1 ≤ time ∧ time < instant + offset instant ∧
      read time = time - offset (instant - 1)

namespace Zone

variable (zone : Zone)

/-- The local time at an instant. -/
def wall (instant : ℤ) : ℤ := instant + zone.offset instant

theorem wall_eq (instant : ℤ) : zone.wall instant = instant + zone.offset instant := rfl

def localDate (instant : ℤ) : ℤ := zone.wall instant / dayLength

/-- No transition sets the clock back to an earlier date. -/
def NeverBack : Prop :=
  ∀ instant later, instant ≤ later → zone.localDate instant ≤ zone.localDate later

def First (date instant : ℤ) : Prop :=
  date ≤ zone.localDate instant ∧ zone.localDate (instant - 1) < date

/-- The clock shows midnight at the first instant of a date, or there is no midnight and the clock
is set forward from midnight. -/
def Sharp (date : ℤ) : Prop :=
  ∀ instant, zone.First date instant → zone.wall instant = date * dayLength ∨
    (∀ other, zone.wall other ≠ date * dayLength) ∧
      zone.wall (instant - 1) + 1 = date * dayLength

/-- The clock shows the midnight behind a date no later than the clock before the date would have
shown the midnight of the date. -/
def Overtaken (date : ℤ) : Prop :=
  ∀ instant, zone.First date instant → ∃ other, zone.wall other = (date + 1) * dayLength ∧
    other + zone.offset (instant - 1) ≤ date * dayLength

end Zone

/-! ## The day of a query -/

structure DirectoryQuery where
  parameters : Parameters
  /-- `starts_at`, `ends_at` and `not_after`. -/
  interval : Option (ℤ × ℤ × ℤ)

/-- What `parse_directory_query` makes of a day in a zone. -/
def DirectoryQuery.ofDay (parameters : Parameters) (zone : Zone) (date cutoff : ℤ) :
    DirectoryQuery :=
  ⟨parameters, some (zone.read (date * dayLength), zone.read ((date + 1) * dayLength), cutoff)⟩

def DirectoryQuery.matchesTime (query : DirectoryQuery) (lastModified : ℤ) : Bool :=
  match query.interval with
  | none => true
  | some (starts, ends, notAfter) =>
    decide (starts ≤ lastModified ∧ lastModified < ends) && decide (lastModified ≤ notAfter)

/-- A query accepts the instants of its day up to the cutoff. -/
def MatchesDay (parameters : Parameters) (zone : Zone) (date : ℤ) : Prop :=
  ∀ cutoff instant, (DirectoryQuery.ofDay parameters zone date cutoff).matchesTime instant = true ↔
    zone.localDate instant = date ∧ instant ≤ cutoff

structure DayRead (zone : Zone) (date : ℤ) : Prop where
  present : (∃ instant, zone.localDate instant = date) → zone.Sharp date ∧ zone.Sharp (date + 1)
  skipped : (∀ instant, zone.localDate instant ≠ date) → zone.Overtaken date

namespace Zone

variable {zone : Zone}

theorem localDate_iff {instant date : ℤ} :
    date ≤ zone.localDate instant ↔ date * dayLength ≤ zone.wall instant :=
  Int.le_ediv_iff_mul_le (by decide)

theorem localDate_lt_iff {instant date : ℤ} :
    zone.localDate instant < date ↔ zone.wall instant < date * dayLength :=
  Int.ediv_lt_iff_lt_mul (by decide)

theorem exists_first (zone : Zone) (date : ℤ) : ∃ instant, zone.First date instant := by
  have low : ∀ instant, date ≤ zone.localDate instant → (date - 1) * dayLength ≤ instant := by
    intro instant late
    have bound := zone.bounded instant
    have wall := localDate_iff.mp late
    rw [wall_eq] at wall
    rw [Int.sub_mul, Int.one_mul]
    omega
  have high : date ≤ zone.localDate ((date + 1) * dayLength) := by
    rw [localDate_iff, wall_eq]
    have bound := zone.bounded ((date + 1) * dayLength)
    rw [Int.add_mul, Int.one_mul] at *
    omega
  obtain ⟨instant, late, least⟩ := Int.exists_least_of_bdd (P := fun instant =>
    date ≤ zone.localDate instant) ⟨_, low⟩ ⟨_, high⟩
  refine ⟨instant, late, ?_⟩
  by_contra before
  have earlier := least (instant - 1) (not_lt.mp before)
  omega

theorem First.le_iff (forward : zone.NeverBack) {date instant other : ℤ}
    (first : zone.First date instant) : instant ≤ other ↔ date ≤ zone.localDate other := by
  constructor
  · intro later
    exact first.1.trans (forward _ _ later)
  · intro late
    by_contra before
    have earlier := forward other (instant - 1) (by omega)
    exact absurd (late.trans earlier) (not_le.mpr first.2)

theorem read_missing (forward : zone.NeverBack) {date instant : ℤ}
    (first : zone.First date instant) (none : ∀ other, zone.wall other ≠ date * dayLength) :
    zone.read (date * dayLength) = date * dayLength - zone.offset (instant - 1) := by
  obtain ⟨other, below, above, reads⟩ := zone.missing _ none
  have late : date ≤ zone.localDate other := localDate_iff.mpr (Int.le_of_lt above)
  have early : zone.localDate (other - 1) < date := by
    rw [localDate_lt_iff, wall_eq]
    omega
  have after : instant ≤ other := (first.le_iff forward).mpr late
  have before : ¬ instant ≤ other - 1 := fun behind =>
    absurd (Int.le_trans first.1 (forward instant (other - 1) behind)) (Int.not_le.mpr early)
  have place : other = instant := by omega
  rw [reads, place]

theorem read_eq_first_iff (forward : zone.NeverBack) {date instant : ℤ}
    (first : zone.First date instant) :
    zone.read (date * dayLength) = instant ↔ zone.wall instant = date * dayLength ∨
      (∀ other, zone.wall other ≠ date * dayLength) ∧
        zone.wall (instant - 1) + 1 = date * dayLength := by
  by_cases midnight : ∃ other, zone.wall other = date * dayLength
  · obtain ⟨other, shows⟩ := midnight
    obtain ⟨reads, -⟩ := zone.existing _ other shows
    constructor
    · intro same
      rw [same] at reads
      exact .inl reads
    · rintro (here | ⟨none, -⟩)
      · have before := (zone.existing _ instant here).2
        have late : date ≤ zone.localDate (zone.read (date * dayLength)) :=
          localDate_iff.mpr (le_of_eq reads.symm)
        exact Int.le_antisymm before ((first.le_iff forward).mpr late)
      · exact absurd shows (none other)
  · have none : ∀ other, zone.wall other ≠ date * dayLength := fun other shows =>
      midnight ⟨other, shows⟩
    rw [read_missing forward first none, wall_eq, wall_eq]
    constructor
    · intro same
      refine .inr ⟨none, ?_⟩
      omega
    · rintro (here | ⟨-, before⟩)
      · exact absurd here (none instant)
      · omega

theorem overtaken_iff (forward : zone.NeverBack) {date instant : ℤ}
    (first : zone.First date instant) (skipped : ∀ other, zone.localDate other ≠ date) :
    zone.read ((date + 1) * dayLength) ≤ zone.read (date * dayLength) ↔ zone.Overtaken date := by
  have next : zone.First (date + 1) instant := by
    have late := first.1
    have other := skipped instant
    exact ⟨by omega, Int.lt_trans first.2 (Int.lt_succ date)⟩
  have none : ∀ other, zone.wall other ≠ date * dayLength := by
    intro other shows
    refine skipped other ?_
    rw [localDate, shows]
    exact Int.mul_ediv_cancel date (by decide)
  rw [read_missing forward first none]
  constructor
  · intro early instant' first'
    have same : instant' = instant :=
      Int.le_antisymm ((first'.le_iff forward).mpr first.1) ((first.le_iff forward).mpr first'.1)
    rw [same]
    by_cases midnight : ∃ other, zone.wall other = (date + 1) * dayLength
    · obtain ⟨other, shows⟩ := midnight
      exact ⟨zone.read ((date + 1) * dayLength), (zone.existing _ other shows).1, by omega⟩
    · rw [read_missing forward next fun other shows => midnight ⟨other, shows⟩] at early
      have positive : 0 < dayLength := by decide
      rw [Int.add_mul, Int.one_mul] at early
      omega
  · intro overtaken
    obtain ⟨other, shows, early⟩ := overtaken instant first
    have least := (zone.existing _ other shows).2
    omega

theorem sharp_iff (forward : zone.NeverBack) {date instant : ℤ} (first : zone.First date instant) :
    zone.Sharp date ↔ zone.read (date * dayLength) = instant := by
  rw [read_eq_first_iff forward first]
  constructor
  · exact fun sharp => sharp instant first
  · intro here other first'
    have same : other = instant :=
      Int.le_antisymm ((first'.le_iff forward).mpr first.1) ((first.le_iff forward).mpr first'.1)
    rwa [same]

theorem localDate_eq_iff (forward : zone.NeverBack) {date instant next other : ℤ}
    (first : zone.First date instant) (first' : zone.First (date + 1) next) :
    zone.localDate other = date ↔ instant ≤ other ∧ other < next := by
  have late := @First.le_iff zone forward date instant other first
  have later := @First.le_iff zone forward (date + 1) next other first'
  omega

end Zone

theorem interval_iff {starts ends first next : ℤ} :
    (∀ instant, (starts ≤ instant ∧ instant < ends) ↔ (first ≤ instant ∧ instant < next)) ↔
      (first < next → starts = first ∧ ends = next) ∧ (next ≤ first → ends ≤ starts) := by
  constructor
  · intro same
    have atFirst := same first
    have atLast := same (next - 1)
    have atStart := same starts
    have atEnd := same (ends - 1)
    refine ⟨fun present => ⟨?_, ?_⟩, fun skipped => ?_⟩ <;> omega
  · rintro ⟨present, skipped⟩ instant
    rcases lt_or_ge first next with shorter | longer
    · rw [(present shorter).1, (present shorter).2]
    · have none := skipped longer
      omega

theorem matchesDay_iff (parameters : Parameters) {zone : Zone} (forward : zone.NeverBack)
    (date : ℤ) : MatchesDay parameters zone date ↔ DayRead zone date := by
  obtain ⟨instant, first⟩ := Zone.exists_first zone date
  obtain ⟨next, first'⟩ := Zone.exists_first zone (date + 1)
  have inside : MatchesDay parameters zone date ↔
      ∀ other, (zone.read (date * dayLength) ≤ other ∧
        other < zone.read ((date + 1) * dayLength)) ↔ (instant ≤ other ∧ other < next) := by
    simp only [MatchesDay, DirectoryQuery.ofDay, DirectoryQuery.matchesTime, Bool.and_eq_true,
      decide_eq_true_eq, Zone.localDate_eq_iff forward first first']
    constructor
    · intro accepts other
      have now := accepts other other
      simpa using now
    · intro accepts cutoff other
      rw [accepts other]
  have present : (∃ other, zone.localDate other = date) ↔ instant < next := by
    simp only [Zone.localDate_eq_iff forward first first']
    constructor
    · rintro ⟨other, lower, upper⟩
      omega
    · exact fun shorter => ⟨instant, le_rfl, shorter⟩
  have skipped : (∀ other, zone.localDate other ≠ date) ↔ next ≤ instant := by
    rw [← not_lt, ← present, not_exists]
  rw [inside, interval_iff, ← Zone.sharp_iff forward first, ← Zone.sharp_iff forward first']
  constructor
  · rintro ⟨sharp, late⟩
    exact ⟨fun shown => sharp (present.mp shown), fun none =>
      (Zone.overtaken_iff forward first none).mp (late (skipped.mp none))⟩
  · rintro ⟨sharp, late⟩
    refine ⟨fun shorter => sharp (present.mpr shorter), fun longer => ?_⟩
    have none := skipped.mpr longer
    exact (Zone.overtaken_iff forward first none).mpr (late none)

end SkillMind.Documents.Directory
