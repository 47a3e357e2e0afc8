import SkillMind.Core.Redaction
import SkillMind.Library.Lines

/-!
# Previews of Markdown tables

The excerpt of a file that begins within a table is shown with the header of the table before it.
The lines are those of `str.splitlines`, which ends a line at more characters than the line feed
and the carriage return; a row counts as complete only when one of these two ends it.
-/

namespace SkillMind.Core

open Library

/-- The characters that end a line for `str.splitlines`. -/
def isLineBreak (c : Char) : Bool :=
  let code := c.toNat
  (0x0a ≤ code && code ≤ 0x0d) || (0x1c ≤ code && code ≤ 0x1e) || code == 0x85 ||
    code == 0x2028 || code == 0x2029

def endsLine (c : Char) (next : Option Char) : Bool :=
  isLineBreak c && !(c == '\r' && next == some '\n')

/-- `text.splitlines(keepends=True)`. -/
abbrev splitlines (text : List Char) : List (List Char) := linesOf endsLine text

/-- `line.endswith(("\n", "\r"))`. -/
def endsWithNewline (line : List Char) : Bool :=
  line.getLast?.any fun c => c == '\n' || c == '\r'

/-- `text.strip()`. -/
def stripText (text : List Char) : List Char :=
  ((text.dropWhile isSpace).reverse.dropWhile isSpace).reverse

/-! ## Rows -/

def maxPreviewCharacters : Nat := 4096
def maxContextCharacters : Nat := 1048576

/-- The cells of `_pipe_cells` before the outer ones are removed. -/
def cellsFrom (cell : List Char) (escaped : Bool) : List Char → List (List Char)
  | [] => [cell.reverse]
  | c :: rest =>
    if c = '|' ∧ escaped = false then cell.reverse :: cellsFrom [] false rest
    else cellsFrom (c :: cell) (if c = '\\' then !escaped else false) rest

def pipeCells (line : List Char) : List (List Char) :=
  let row := stripText line
  let cells := cellsFrom [] false row
  let cells := if cells.head? = some [] ∧ row.head? = some '|' then cells.tail else cells
  if cells.getLast? = some [] then cells.dropLast else cells

def dropColon : List Char → List Char
  | ':' :: rest => rest
  | text => text

/-- `re.fullmatch(r"\s*:?-+:?\s*", cell)`. -/
def isSeparatorCell (cell : List Char) : Bool :=
  let core := dropColon (cell.dropWhile isSpace)
  let behind := core.dropWhile (· == '-')
  behind.length < core.length && (dropColon behind).all isSpace

def separatorColumns (line : List Char) : Nat :=
  if '|' ∈ line ∧ (pipeCells line).all isSeparatorCell = true then (pipeCells line).length else 0

/-- `line.startswith(("    ", "\t"))`. -/
def isIndented (line : List Char) : Bool :=
  "    ".toList.isPrefixOf line || "\t".toList.isPrefixOf line

structure FenceMarker where
  symbol : Char
  width : Nat
  behind : List Char

/-- The match of ``^ {0,3}(`{3,}|~{3,})``. -/
def fenceMarker (line : List Char) : Option FenceMarker :=
  let text := line.dropWhile (· == ' ')
  match text.head? with
  | none => none
  | some symbol =>
    let width := (text.takeWhile (· == symbol)).length
    if line.length - text.length ≤ 3 ∧ (symbol = '`' ∨ symbol = '~') ∧ 3 ≤ width then
      some ⟨symbol, width, text.drop width⟩
    else none

/-- A line that continues a table. -/
def IsRow (line : List Char) : Prop := '|' ∈ line ∧ stripText line ≠ []

instance (line : List Char) : Decidable (IsRow line) := inferInstanceAs (Decidable (_ ∧ _))

/-- A line and the one before it are the header of a table. -/
def IsHeader (previous line : List Char) : Prop :=
  separatorColumns line ≠ 0 ∧ '|' ∈ previous ∧ isIndented previous = false ∧
    (pipeCells previous).length = separatorColumns line

instance (previous line : List Char) : Decidable (IsHeader previous line) :=
  inferInstanceAs (Decidable (_ ∧ _))

/-! ## The scan -/

/-- The table whose rows are read: `header` and `table_start`. -/
structure Table where
  index : Nat
  header : List Char
  start : Nat

/-- The variables of the loop, with the number of lines read and the last of them. -/
structure Scan where
  index : Nat
  position : Nat
  previous : Option (List Char)
  fence : Option (Char × Nat)
  table : Option Table
  body : List (List Char)
  firstLine : Nat
  lastLine : Nat

def Scan.initial : Scan := ⟨0, 0, none, none, none, [], 0, 0⟩

def nextFence (fence : Option (Char × Nat)) (marker : FenceMarker) : Option (Char × Nat) :=
  match fence with
  | none => some (marker.symbol, marker.width)
  | some (symbol, width) =>
    if marker.symbol = symbol ∧ width ≤ marker.width ∧ stripText marker.behind = [] then none
    else fence

/-- The tests on the range: where it begins, and whether the text ends with it. -/
structure Excerpt where
  start : Nat
  final : Bool

def Excerpt.finished (excerpt : Excerpt) (line : List Char) : Bool :=
  endsWithNewline line || excerpt.final

/-- The counters of the loop behind a line. -/
def Scan.advance (scan : Scan) (line : List Char) : Scan :=
  { scan with
    index := scan.index + 1, position := scan.position + line.length, previous := some line }

/-- `header = None; body.clear()`. -/
def Scan.leaveTable (scan : Scan) : Scan := { scan with table := none, body := [] }

/-- A row of the table: what the window shows with its header needs no preview. -/
def Scan.readRow (excerpt : Excerpt) (scan : Scan) (table : Table) (line : List Char) : Scan :=
  if table.start ≤ excerpt.start ∧ excerpt.start ≤ scan.position ∧
      excerpt.finished line = true then
    { scan.advance line with
      firstLine := if scan.body = [] then scan.index + 1 else scan.firstLine
      body := scan.body ++ [line]
      lastLine := scan.index + 1 }
  else scan.advance line

/-- One turn of the loop. -/
def Scan.step (excerpt : Excerpt) (scan : Scan) (line : List Char) : Scan :=
  match fenceMarker line with
  | some marker => { (scan.advance line).leaveTable with fence := nextFence scan.fence marker }
  | none =>
    if scan.fence.isSome = true ∨ isIndented line = true then (scan.advance line).leaveTable
    else if ∃ previous ∈ scan.previous, IsHeader previous line then
      { scan.advance line with
        table := some ⟨scan.index, scan.previous.getD [] ++ line, scan.position + line.length⟩
        body := [] }
    else
      match scan.table with
      | some table =>
        if IsRow line then scan.readRow excerpt table line else (scan.advance line).leaveTable
      | none => (scan.advance line).leaveTable

structure TablePreview where
  source : List Char
  headerLineStart : Nat
  lineStart : Nat
  lineEnd : Nat
  deriving DecidableEq

def scanLines (excerpt : Excerpt) (lines : List (List Char)) : Scan :=
  lines.foldl (Scan.step excerpt) Scan.initial

def markdownTablePreview (text : List Char) (start stop : Nat) (complete : Bool) :
    Option TablePreview :=
  if ¬ (start < stop ∧ stop ≤ text.length) ∨ maxContextCharacters < start then none
  else
    let excerpt : Excerpt := ⟨start, complete && stop == text.length⟩
    let scan := scanLines excerpt (splitlines (text.take stop))
    match scan.table with
    | none => none
    | some table =>
      if scan.body = [] ∨ start < table.start then none
      else
        let source := table.header ++ scan.body.flatten
        if maxPreviewCharacters < source.length then none
        else some ⟨source, table.index, scan.firstLine, scan.lastLine⟩

/-! ## The table that is read -/

section Scanning

variable (excerpt : Excerpt) (lines : List (List Char))

/-- Line `i`, counted from zero. -/
def lineAt (i : Nat) : List Char := lines[i]?.getD []

/-- Where line `i` begins. -/
def lineOffset (i : Nat) : Nat := (lines.take i).flatten.length

/-- Line `i` begins in the excerpt and counts as complete. -/
def isKept (i : Nat) : Bool :=
  decide (excerpt.start ≤ lineOffset lines i) && excerpt.finished (lineAt lines i)

/-- The numbers of the lines kept among the first `count`. -/
def keptLines (count : Nat) : List Nat := (List.range count).filter (isKept excerpt lines)

/-- The lines of a table up to `count`, and what is said of it. -/
structure Table.Reads (table : Table) (count : Nat) : Prop where
  before : table.index < count
  second : 0 < table.index
  isHeader : IsHeader (lineAt lines (table.index - 1)) (lineAt lines table.index)
  header : table.header = lineAt lines (table.index - 1) ++ lineAt lines table.index
  start : table.start = lineOffset lines (table.index + 1)
  rows : ∀ i, table.index < i → i < count → IsRow (lineAt lines i)

/-- The body of a table are the lines kept. -/
structure Scan.Keeps (scan : Scan) (count : Nat) : Prop where
  body : scan.body = (keptLines excerpt lines count).map (lineAt lines)
  firstLine : ∀ i ∈ (keptLines excerpt lines count).head?, scan.firstLine = i + 1
  lastLine : ∀ i ∈ (keptLines excerpt lines count).getLast?, scan.lastLine = i + 1

/-- What holds when `count` lines are read. -/
structure Scan.Read (scan : Scan) (count : Nat) : Prop where
  index : scan.index = count
  position : scan.position = lineOffset lines count
  previous : scan.previous = (lines.take count).getLast?
  table : ∀ table ∈ scan.table, table.Reads lines count ∧
    (table.start ≤ excerpt.start → scan.Keeps excerpt lines count)

variable {excerpt lines}

theorem take_succ_eq {i : Nat} (within : i < lines.length) :
    lines.take (i + 1) = lines.take i ++ [lineAt lines i] := by
  rw [List.take_add_one, lineAt, List.getElem?_eq_getElem within]
  rfl

theorem lineAt_mem {i : Nat} (within : i < lines.length) : lineAt lines i ∈ lines := by
  rw [lineAt, List.getElem?_eq_getElem within]
  exact List.getElem_mem within

theorem lineOffset_succ {i : Nat} (within : i < lines.length) :
    lineOffset lines (i + 1) = lineOffset lines i + (lineAt lines i).length := by
  rw [lineOffset, take_succ_eq within, List.flatten_append, List.length_append,
    List.flatten_singleton]
  rfl

theorem lineOffset_mono {i j : Nat} (le : i ≤ j) : lineOffset lines i ≤ lineOffset lines j := by
  obtain ⟨rest, same⟩ : lines.take i <+: lines.take j := List.take_prefix_take_left le
  rw [lineOffset, lineOffset, ← same, List.flatten_append, List.length_append]
  exact Nat.le_add_right _ _

theorem keptLines_succ (count : Nat) :
    keptLines excerpt lines (count + 1) =
      keptLines excerpt lines count ++ if isKept excerpt lines count then [count] else [] := by
  rw [keptLines, List.range_succ, List.filter_append]
  congr 1
  cases kept : isKept excerpt lines count with
  | true => simp [kept]
  | false => simp [kept]

variable {count : Nat}

theorem keptLines_eq_nil (within : count ≤ lines.length)
    (some : ∀ line ∈ lines, line ≠ []) (before : lineOffset lines count ≤ excerpt.start) :
    keptLines excerpt lines count = [] := by
  refine List.filter_eq_nil_iff.mpr fun i mem => ?_
  have less : i < count := List.mem_range.mp mem
  have inside : i < lines.length := lt_of_lt_of_le less within
  have next : lineOffset lines (i + 1) ≤ lineOffset lines count := lineOffset_mono less
  have nonempty : 0 < (lineAt lines i).length :=
    List.length_pos_of_ne_nil (some _ (lineAt_mem inside))
  rw [lineOffset_succ inside] at next
  have early : ¬ excerpt.start ≤ lineOffset lines i := by omega
  rw [isKept, decide_eq_false early, Bool.false_and]
  exact Bool.false_ne_true

theorem Table.Reads.extend {table : Table} (reads : table.Reads lines count)
    (row : IsRow (lineAt lines count)) : table.Reads lines (count + 1) where
  before := Nat.lt_succ_of_lt reads.before
  second := reads.second
  isHeader := reads.isHeader
  header := reads.header
  start := reads.start
  rows := fun i behind less => by
    rcases Nat.lt_succ_iff_lt_or_eq.mp less with earlier | rfl
    · exact reads.rows i behind earlier
    · exact row

theorem Scan.Keeps.extend {scan next : Scan} (keeps : scan.Keeps excerpt lines count)
    (index : scan.index = count)
    (body : next.body = scan.body ++
      if isKept excerpt lines count then [lineAt lines count] else [])
    (firstLine : next.firstLine =
      if isKept excerpt lines count ∧ scan.body = [] then scan.index + 1 else scan.firstLine)
    (lastLine : next.lastLine =
      if isKept excerpt lines count then scan.index + 1 else scan.lastLine) :
    next.Keeps excerpt lines (count + 1) := by
  have none : scan.body = [] ↔ keptLines excerpt lines count = [] := by
    rw [keeps.body, List.map_eq_nil_iff]
  cases kept : isKept excerpt lines count with
  | false =>
    simp only [kept, Bool.false_eq_true, if_false, false_and, List.append_nil] at body firstLine
    simp only [kept, Bool.false_eq_true, if_false] at lastLine
    constructor
    · rw [keptLines_succ, kept, body, keeps.body]
      simp
    · intro i mem
      rw [firstLine]
      refine keeps.firstLine i ?_
      simpa [keptLines_succ, kept] using mem
    · intro i mem
      rw [lastLine]
      refine keeps.lastLine i ?_
      simpa [keptLines_succ, kept] using mem
  | true =>
    simp only [kept, if_true, true_and] at body firstLine
    simp only [kept, if_true] at lastLine
    constructor
    · rw [keptLines_succ, kept, body, keeps.body]
      simp
    · intro i mem
      rw [keptLines_succ, kept] at mem
      cases first : keptLines excerpt lines count with
      | nil =>
        rw [first] at mem
        rw [firstLine, if_pos (none.mpr first), index]
        cases mem
        rfl
      | cons head tail =>
        rw [first] at mem
        rw [firstLine, if_neg (by rw [none, first]; exact List.cons_ne_nil _ _)]
        refine keeps.firstLine i ?_
        rw [first]
        exact mem
    · intro i mem
      rw [keptLines_succ, kept] at mem
      have last : count = i := by simpa using mem
      rw [lastLine, index, last]

theorem Scan.read_initial : Scan.initial.Read excerpt lines 0 where
  index := rfl
  position := rfl
  previous := rfl
  table := fun _ mem => by cases mem

theorem Scan.Read.advance {scan : Scan} (read : scan.Read excerpt lines count)
    (within : count < lines.length) :
    (scan.advance (lineAt lines count)).index = count + 1 ∧
      (scan.advance (lineAt lines count)).position = lineOffset lines (count + 1) ∧
      (scan.advance (lineAt lines count)).previous = (lines.take (count + 1)).getLast? := by
  refine ⟨?_, ?_, ?_⟩
  · rw [Scan.advance, read.index]
  · rw [lineOffset_succ within, Scan.advance, read.position]
  · rw [take_succ_eq within, List.getLast?_concat, Scan.advance]

theorem Scan.Read.leaveTable {scan : Scan} (read : scan.Read excerpt lines count)
    (within : count < lines.length) :
    (scan.advance (lineAt lines count)).leaveTable.Read excerpt lines (count + 1) := by
  obtain ⟨index, position, previous⟩ := read.advance within
  exact ⟨index, position, previous, fun _ mem => by cases mem⟩

theorem Scan.Read.reads_header {scan : Scan} (read : scan.Read excerpt lines count)
    (within : count < lines.length) {line : List Char} (last : scan.previous = some line)
    (isHeader : IsHeader line (lineAt lines count)) :
    Table.Reads lines ⟨scan.index, scan.previous.getD [] ++ lineAt lines count,
      scan.position + (lineAt lines count).length⟩ (count + 1) := by
  have positive : 0 < count := by
    rcases Nat.eq_zero_or_pos count with rfl | positive
    · rw [read.previous] at last
      cases last
    · exact positive
  have same : lineAt lines (count - 1) = line := by
    have inside : count - 1 < lines.length := lt_of_le_of_lt (Nat.sub_le _ _) within
    rw [read.previous, ← Nat.sub_add_cancel positive, take_succ_eq inside,
      List.getLast?_concat] at last
    exact Option.some.inj last
  rw [last, Option.getD_some, read.index, read.position, ← lineOffset_succ within]
  constructor
  · exact Nat.lt_succ_self count
  · exact positive
  · rw [same]
    exact isHeader
  · rw [same]
  · rfl
  · intro i behind less
    exact absurd behind (Nat.not_lt.mpr (Nat.le_of_lt_succ less))

theorem Scan.Read.readRow {scan : Scan} (read : scan.Read excerpt lines count)
    (within : count < lines.length) {table : Table} (reading : scan.table = some table)
    (row : IsRow (lineAt lines count)) :
    (scan.readRow excerpt table (lineAt lines count)).Read excerpt lines (count + 1) := by
  obtain ⟨index, position, previous⟩ := read.advance within
  obtain ⟨reads, keeps⟩ := read.table table reading
  rw [Scan.readRow]
  by_cases kept : table.start ≤ excerpt.start ∧ excerpt.start ≤ scan.position ∧
      excerpt.finished (lineAt lines count) = true
  · rw [if_pos kept]
    refine ⟨index, position, previous, fun other mem => ?_⟩
    obtain rfl : table = other := Option.some.inj (reading.symm.trans mem)
    refine ⟨reads.extend row, fun early => ?_⟩
    have isKept' : isKept excerpt lines count = true := by
      rw [isKept, ← read.position, decide_eq_true kept.2.1, kept.2.2, Bool.and_self]
    refine (keeps early).extend read.index ?_ ?_ ?_
    · rw [isKept', if_pos rfl]
    · simp only [isKept', true_and]
    · simp only [isKept', if_true]
  · rw [if_neg kept]
    refine ⟨index, position, previous, fun other mem => ?_⟩
    obtain rfl : table = other := Option.some.inj (reading.symm.trans mem)
    refine ⟨reads.extend row, fun early => ?_⟩
    have lost : isKept excerpt lines count = false := by
      rw [← Bool.not_eq_true, isKept, Bool.and_eq_true, decide_eq_true_eq, ← read.position]
      rintro ⟨inside, complete⟩
      exact kept ⟨early, inside, complete⟩
    refine (keeps early).extend read.index ?_ ?_ ?_
    · simp only [lost, Bool.false_eq_true, if_false, List.append_nil]
      rfl
    · simp only [lost, Bool.false_eq_true, false_and, if_false]
      rfl
    · simp only [lost, Bool.false_eq_true, if_false]
      rfl

theorem Scan.Read.step {scan : Scan} (read : scan.Read excerpt lines count)
    (some : ∀ line ∈ lines, line ≠ []) (within : count < lines.length) :
    (scan.step excerpt (lineAt lines count)).Read excerpt lines (count + 1) := by
  obtain ⟨index, position, previous⟩ := read.advance within
  rw [Scan.step]
  split
  · exact ⟨index, position, previous, fun _ mem => by cases mem⟩
  · by_cases hidden : scan.fence.isSome = true ∨ isIndented (lineAt lines count) = true
    · rw [if_pos hidden]
      exact read.leaveTable within
    · rw [if_neg hidden]
      by_cases heading : ∃ previous ∈ scan.previous, IsHeader previous (lineAt lines count)
      · rw [if_pos heading]
        obtain ⟨line, last, isHeader⟩ := heading
        refine ⟨index, position, previous, fun table mem => ?_⟩
        cases mem
        have reads := read.reads_header within last isHeader
        refine ⟨reads, fun early => ?_⟩
        -- The rows of a table begin behind its header, which begins before the excerpt.
        have nothing : keptLines excerpt lines (count + 1) = [] := by
          refine keptLines_eq_nil within some ?_
          rw [← position]
          exact early
        constructor
        · rw [nothing]
          rfl
        · rw [nothing]
          intro i mem
          cases mem
        · rw [nothing]
          intro i mem
          cases mem
      · rw [if_neg heading]
        split
        · rename_i table reading
          split_ifs with row
          · exact read.readRow within reading row
          · exact read.leaveTable within
        · exact read.leaveTable within

theorem scanLines_read (some : ∀ line ∈ lines, line ≠ [])
    (within : count ≤ lines.length) :
    (scanLines excerpt (lines.take count)).Read excerpt lines count := by
  induction count with
  | zero => exact Scan.read_initial
  | succ count ih =>
    have less : count < lines.length := within
    rw [scanLines, take_succ_eq less, List.foldl_concat]
    exact (ih (Nat.le_of_lt less)).step some less

end Scanning

/-- Lines `first` to `last`, both counted from zero. -/
def linesBetween (lines : List (List Char)) (first last : Nat) : List (List Char) :=
  (List.range' first (last + 1 - first)).map (lineAt lines)

/-- What is known of the range. -/
def excerptOf (text : List Char) (start stop : Nat) (complete : Bool) : Excerpt :=
  ⟨start, complete && stop == text.length⟩

/-- **The preview is a part of the text**: the header of a table and finished lines of it that
lie in the range, none of them left out, shortened or altered. -/
structure TablePreview.Faithful (preview : TablePreview) (text : List Char) (start stop : Nat)
    (complete : Bool) : Prop where
  second : 0 < preview.headerLineStart
  isHeader : IsHeader (lineAt (splitlines text) (preview.headerLineStart - 1))
    (lineAt (splitlines text) preview.headerLineStart)
  behind : preview.headerLineStart + 1 < preview.lineStart
  ordered : preview.lineStart ≤ preview.lineEnd
  within : preview.lineEnd ≤ (splitlines text).length
  source : preview.source = lineAt (splitlines text) (preview.headerLineStart - 1) ++
    lineAt (splitlines text) preview.headerLineStart ++
    (linesBetween (splitlines text) (preview.lineStart - 1) (preview.lineEnd - 1)).flatten
  starts : start ≤ lineOffset (splitlines text) (preview.lineStart - 1)
  stops : lineOffset (splitlines text) preview.lineEnd ≤ stop
  rows : ∀ i, preview.headerLineStart < i → i < preview.lineEnd → IsRow (lineAt (splitlines text) i)
  finished : ∀ i, preview.lineStart ≤ i + 1 → i < preview.lineEnd →
    (excerptOf text start stop complete).finished (lineAt (splitlines text) i) = true

/-- The range ends between a carriage return and its line feed. -/
def CutsNewline (text : List Char) (stop : Nat) : Prop :=
  (text.take stop).getLast? = some '\r' ∧ (text.drop stop).head? = some '\n'

/-- No line of the range that counts as incomplete is between two that do not. -/
def FinishedTogether (excerpt : Excerpt) (lines : List (List Char)) : Prop :=
  ∀ i j k, i < j → j < k → k < lines.length → excerpt.start ≤ lineOffset lines i →
    excerpt.finished (lineAt lines i) = true → excerpt.finished (lineAt lines k) = true →
    excerpt.finished (lineAt lines j) = true

section Shown

variable {excerpt : Excerpt} {lines whole : List (List Char)} {a b : Nat}

theorem length_filtered_le {numbers : List Nat} (kept : Nat → Bool) {short long : Nat → List Char}
    (le : ∀ i ∈ numbers, (short i).length ≤ (long i).length) :
    ((numbers.filter kept).map short).flatten.length ≤ (numbers.map long).flatten.length := by
  induction numbers with
  | nil => exact Nat.le_refl 0
  | cons i numbers ih =>
    have rest := ih fun j mem => le j (List.mem_cons_of_mem i mem)
    have first := le i List.mem_cons_self
    cases keep : kept i with
    | true =>
      simp only [List.filter_cons, keep, if_true, List.map_cons, List.flatten_cons,
        List.length_append]
      omega
    | false =>
      simp only [List.filter_cons, keep, Bool.false_eq_true, if_false, List.map_cons,
        List.flatten_cons, List.length_append]
      omega

theorem kept_of_length_eq {numbers : List Nat} {kept : Nat → Bool} {short long : Nat → List Char}
    (le : ∀ i ∈ numbers, (short i).length ≤ (long i).length)
    (some : ∀ i ∈ numbers, 0 < (long i).length)
    (same : ((numbers.filter kept).map short).flatten.length = (numbers.map long).flatten.length) :
    ∀ i ∈ numbers, kept i = true ∧ (short i).length = (long i).length := by
  induction numbers with
  | nil =>
    intro i mem
    cases mem
  | cons i numbers ih =>
    have le' : ∀ j ∈ numbers, (short j).length ≤ (long j).length := fun j mem =>
      le j (List.mem_cons_of_mem i mem)
    have some' : ∀ j ∈ numbers, 0 < (long j).length := fun j mem =>
      some j (List.mem_cons_of_mem i mem)
    have rest := length_filtered_le kept le'
    have first := le i List.mem_cons_self
    have positive := some i List.mem_cons_self
    cases keep : kept i with
    | true =>
      simp only [List.filter_cons, keep, if_true, List.map_cons, List.flatten_cons,
        List.length_append] at same
      have first' : (short i).length = (long i).length := by omega
      intro j mem
      rcases List.mem_cons.mp mem with rfl | later
      · exact ⟨keep, first'⟩
      · exact ih le' some' (by omega) j later
    | false =>
      simp only [List.filter_cons, keep, Bool.false_eq_true, if_false, List.map_cons,
        List.flatten_cons, List.length_append] at same
      omega

theorem isKept_of_mem_keptLines {i count : Nat} (mem : i ∈ keptLines excerpt lines count) :
    i < count ∧ isKept excerpt lines i = true :=
  ⟨List.mem_range.mp (List.mem_filter.mp mem).1, (List.mem_filter.mp mem).2⟩

theorem isKept_iff {i : Nat} : isKept excerpt lines i = true ↔
    excerpt.start ≤ lineOffset lines i ∧ excerpt.finished (lineAt lines i) = true := by
  rw [isKept, Bool.and_eq_true, decide_eq_true_eq]

theorem keptLines_between {count : Nat} (first : (keptLines excerpt lines count).head? = some a)
    (last : (keptLines excerpt lines count).getLast? = some b) :
    a ≤ b ∧ b < count ∧ isKept excerpt lines a = true ∧ isKept excerpt lines b = true ∧
      keptLines excerpt lines count =
        (List.range' a (b + 1 - a)).filter (isKept excerpt lines) := by
  have sorted : (keptLines excerpt lines count).Pairwise (· < ·) :=
    List.pairwise_lt_range.filter _
  have mem_a : a ∈ keptLines excerpt lines count := List.mem_of_head? first
  have mem_b : b ∈ keptLines excerpt lines count := List.mem_of_getLast? last
  have least : ∀ i ∈ keptLines excerpt lines count, a ≤ i := by
    intro i mem
    obtain ⟨rest, split⟩ := List.head?_eq_some_iff.mp first
    rw [split] at sorted mem
    rcases List.mem_cons.mp mem with rfl | later
    · exact Nat.le_refl _
    · exact Nat.le_of_lt (List.rel_of_pairwise_cons sorted later)
  have greatest : ∀ i ∈ keptLines excerpt lines count, i ≤ b := by
    intro i mem
    obtain ⟨front, split⟩ := List.getLast?_eq_some_iff.mp last
    rw [split] at sorted mem
    rcases List.mem_append.mp mem with earlier | same
    · exact Nat.le_of_lt ((List.pairwise_append.mp sorted).2.2 i earlier b (by simp))
    · exact Nat.le_of_eq (List.mem_singleton.mp same)
  have le : a ≤ b := least b mem_b
  have less : b < count := (isKept_of_mem_keptLines mem_b).1
  refine ⟨le, less, (isKept_of_mem_keptLines mem_a).2, (isKept_of_mem_keptLines mem_b).2, ?_⟩
  have parts : List.range count = List.range' 0 a ++ (List.range' a (b + 1 - a) ++
      List.range' (b + 1) (count - (b + 1))) := by
    have middle := List.range'_append_1 (s := a) (m := b + 1 - a) (n := count - (b + 1))
    have front := List.range'_append_1 (s := 0) (m := a) (n := b + 1 - a + (count - (b + 1)))
    rw [show a + (b + 1 - a) = b + 1 by omega] at middle
    rw [Nat.zero_add] at front
    rw [List.range_eq_range', middle, front]
    congr 1
    omega
  have outside : ∀ i, i < count → (i < a ∨ b < i) → ¬ isKept excerpt lines i = true := by
    intro i inside out keep
    have mem : i ∈ keptLines excerpt lines count :=
      List.mem_filter.mpr ⟨List.mem_range.mpr inside, keep⟩
    rcases out with before | behind
    · exact absurd (least i mem) (Nat.not_le.mpr before)
    · exact absurd (greatest i mem) (Nat.not_le.mpr behind)
  have before : (List.range' 0 a).filter (isKept excerpt lines) = [] := by
    refine List.filter_eq_nil_iff.mpr fun i mem => ?_
    have less' : i < a := by simpa using mem
    exact outside i (by omega) (Or.inl less')
  have after : (List.range' (b + 1) (count - (b + 1))).filter (isKept excerpt lines) = [] := by
    refine List.filter_eq_nil_iff.mpr fun i mem => ?_
    have bounds := List.mem_range'_1.mp mem
    exact outside i (by omega) (Or.inr (by omega))
  rw [keptLines, parts, List.filter_append, List.filter_append, before, after, List.nil_append,
    List.append_nil]

end Shown

/-! ## The lines of a part of the text -/

section Part

variable {text : List Char} {stop : Nat}

theorem splitlines_ne_nil (line : List Char) (mem : line ∈ splitlines text) : line ≠ [] :=
  ne_nil_of_mem_linesOf mem

theorem splitlines_length_pos {i : Nat} (within : i < (splitlines text).length) :
    0 < (lineAt (splitlines text) i).length :=
  List.length_pos_of_ne_nil (splitlines_ne_nil _ (lineAt_mem within))

theorem lineAt_append_left {lines more : List (List Char)} {i : Nat} (within : i < lines.length) :
    lineAt (lines ++ more) i = lineAt lines i := by
  rw [lineAt, List.getElem?_append_left within, lineAt]

theorem lineAt_append_length {lines more : List (List Char)} {line : List Char} :
    lineAt (lines ++ line :: more) lines.length = line := by
  rw [lineAt, List.getElem?_append_right (Nat.le_refl _), Nat.sub_self]
  rfl

/-- The last line is the same in the text and in its part. -/
def WholeLines (text : List Char) (stop : Nat) : Prop :=
  EndsLine endsLine (text.take stop) (text.drop stop).head? ∨ text.drop stop = []

theorem splitlines_of_whole (whole : WholeLines text stop) :
    ∃ more, splitlines text = splitlines (text.take stop) ++ more := by
  rcases whole with closed | none
  · refine ⟨splitlines (text.drop stop), ?_⟩
    rw [splitlines, ← linesOf_append_of_closed closed, List.take_append_drop]
  · refine ⟨[], ?_⟩
    rw [List.append_nil]
    congr 1
    rw [← List.append_nil (text.take stop), ← none, List.take_append_drop]

theorem splitlines_of_not_whole (cut : ¬ WholeLines text stop) :
    ∃ before line after more, splitlines (text.take stop) = before ++ [line] ∧ after ≠ [] ∧
      splitlines text = before ++ (line ++ after) :: more := by
  rw [WholeLines, not_or] at cut
  obtain ⟨before, line, after, more, parts, behind, joined⟩ :=
    linesOf_append_of_not_closed cut.1 cut.2
  rw [List.take_append_drop] at joined
  have some : after ≠ [] := ne_nil_of_mem_linesOf (behind ▸ List.mem_cons_self)
  exact ⟨before, line, after, more, parts, some, joined⟩

theorem splitlines_take_length_le :
    (splitlines (text.take stop)).length ≤ (splitlines text).length := by
  by_cases whole : WholeLines text stop
  · obtain ⟨more, same⟩ := splitlines_of_whole whole
    rw [same, List.length_append]
    exact Nat.le_add_right _ _
  · obtain ⟨before, line, after, more, parts, -, joined⟩ := splitlines_of_not_whole whole
    rw [parts, joined]
    simp

theorem lineAt_take {i : Nat} (before : i + 1 < (splitlines (text.take stop)).length) :
    lineAt (splitlines text) i = lineAt (splitlines (text.take stop)) i := by
  by_cases whole : WholeLines text stop
  · obtain ⟨more, same⟩ := splitlines_of_whole whole
    rw [same, lineAt_append_left (Nat.lt_of_succ_lt before)]
  · obtain ⟨front, line, after, more, parts, -, joined⟩ := splitlines_of_not_whole whole
    have inside : i < front.length := by
      rw [parts] at before
      simpa using before
    rw [parts, joined, lineAt_append_left inside, lineAt_append_left inside]

theorem lineAt_take_of_whole (whole : WholeLines text stop) {i : Nat}
    (within : i < (splitlines (text.take stop)).length) :
    lineAt (splitlines text) i = lineAt (splitlines (text.take stop)) i := by
  obtain ⟨more, same⟩ := splitlines_of_whole whole
  rw [same, lineAt_append_left within]

theorem lineAt_take_of_not_whole (cut : ¬ WholeLines text stop) {i : Nat}
    (last : i + 1 = (splitlines (text.take stop)).length) :
    (lineAt (splitlines (text.take stop)) i).length < (lineAt (splitlines text) i).length := by
  obtain ⟨front, line, after, more, parts, some, joined⟩ := splitlines_of_not_whole cut
  have same : i = front.length := by
    rw [parts] at last
    simpa using last
  rw [parts, joined, same, lineAt_append_length, lineAt_append_length, List.length_append]
  exact Nat.lt_add_of_pos_right (List.length_pos_of_ne_nil some)

theorem length_lineAt_take_le {i : Nat} (within : i < (splitlines (text.take stop)).length) :
    (lineAt (splitlines (text.take stop)) i).length ≤ (lineAt (splitlines text) i).length := by
  by_cases last : i + 1 = (splitlines (text.take stop)).length
  · by_cases whole : WholeLines text stop
    · rw [lineAt_take_of_whole whole within]
    · exact Nat.le_of_lt (lineAt_take_of_not_whole whole last)
  · have before : i + 1 < (splitlines (text.take stop)).length := by omega
    exact Nat.le_of_eq (congrArg List.length (lineAt_take before).symm)

theorem lineOffset_eq_of_agree {lines others : List (List Char)} {count : Nat}
    (inside : count ≤ lines.length) (inside' : count ≤ others.length)
    (agree : ∀ i, i < count → lineAt lines i = lineAt others i) :
    lineOffset lines count = lineOffset others count := by
  induction count with
  | zero => rfl
  | succ count ih =>
    rw [lineOffset_succ inside, lineOffset_succ inside', agree count (Nat.lt_succ_self _),
      ih (Nat.le_of_lt inside) (Nat.le_of_lt inside') fun i less =>
        agree i (Nat.lt_succ_of_lt less)]

theorem getLast?_lineAt {i : Nat} (last : i + 1 = (splitlines text).length) :
    (lineAt (splitlines text) i).getLast? = text.getLast? := by
  have inside : i < (splitlines text).length := by omega
  have split : splitlines text =
      (splitlines text).take i ++ [lineAt (splitlines text) i] := by
    rw [← take_succ_eq inside, last, List.take_length]
  have some := splitlines_length_pos inside
  have whole : text = ((splitlines text).take i).flatten ++ lineAt (splitlines text) i := by
    conv_lhs => rw [← flatten_linesOf endsLine text]
    conv_lhs => rw [show linesOf endsLine text = splitlines text from rfl, split]
    rw [List.flatten_append, List.flatten_singleton]
  conv_rhs => rw [whole, List.getLast?_append]
  cases lastOf : (lineAt (splitlines text) i).getLast? with
  | none =>
    rw [List.getLast?_eq_none_iff.mp lastOf] at some
    cases some
  | some c => rfl

theorem cutsNewline_of_not_whole (cut : ¬ WholeLines text stop)
    (newline : endsWithNewline (text.take stop) = true) : CutsNewline text stop := by
  rw [WholeLines, not_or] at cut
  obtain ⟨c, lastOf, isNewline⟩ := (Option.any_eq_true _ _).mp newline
  have goesOn : endsLine c (text.drop stop).head? = false := by
    rw [← Bool.not_eq_true]
    intro closes
    refine cut.1 fun d mem => ?_
    rw [lastOf] at mem
    cases mem
    exact closes
  rw [endsLine] at goesOn
  rcases (Bool.or_eq_true _ _).mp isNewline with feed | carriage
  · have same : c = '\n' := by simpa using feed
    rw [same] at goesOn
    have isBreak : isLineBreak '\n' = true := by decide
    have other : ('\n' == '\r') = false := by decide
    rw [isBreak, other] at goesOn
    simp at goesOn
  · have same : c = '\r' := by simpa using carriage
    rw [same] at goesOn lastOf
    have isBreak : isLineBreak '\r' = true := by decide
    rw [isBreak] at goesOn
    refine ⟨lastOf, ?_⟩
    simpa using goesOn

theorem not_whole_of_cutsNewline (cuts : CutsNewline text stop) : ¬ WholeLines text stop := by
  rintro (closed | none)
  · have closes : endsLine '\r' (text.drop stop).head? = true := closed '\r' cuts.1
    rw [cuts.2] at closes
    exact absurd closes (by decide)
  · have next := cuts.2
    rw [none] at next
    cases next

end Part

/-! ## Faithful previews -/

section Preview

variable {text : List Char} {start stop : Nat} {complete : Bool} {preview : TablePreview}

/-- A preview is made of the header of the last table and the lines kept, the first of which is
`a` and the last `b`. -/
structure TablePreview.Shows (preview : TablePreview) (excerpt : Excerpt)
    (lines : List (List Char)) (a b : Nat) : Prop where
  first : (keptLines excerpt lines lines.length).head? = some a
  last : (keptLines excerpt lines lines.length).getLast? = some b
  second : 0 < preview.headerLineStart
  behind : preview.headerLineStart < a
  isHeader : IsHeader (lineAt lines (preview.headerLineStart - 1))
    (lineAt lines preview.headerLineStart)
  rows : ∀ i, preview.headerLineStart < i → i < lines.length → IsRow (lineAt lines i)
  source : preview.source = lineAt lines (preview.headerLineStart - 1) ++
    lineAt lines preview.headerLineStart ++
    ((keptLines excerpt lines lines.length).map (lineAt lines)).flatten
  lineStart : preview.lineStart = a + 1
  lineEnd : preview.lineEnd = b + 1

theorem Table.Reads.index_lt {excerpt : Excerpt} {table : Table} {lines : List (List Char)}
    {a : Nat} (reads : table.Reads lines lines.length) (early : table.start ≤ excerpt.start)
    (some : ∀ line ∈ lines, line ≠ []) (within : a < lines.length)
    (kept : isKept excerpt lines a = true) : table.index < a := by
  by_contra before
  have next : lineOffset lines (a + 1) ≤ lineOffset lines (table.index + 1) :=
    lineOffset_mono (by omega)
  have positive : 0 < (lineAt lines a).length :=
    List.length_pos_of_ne_nil (some _ (lineAt_mem within))
  have from' := (isKept_iff.mp kept).1
  rw [lineOffset_succ within, ← reads.start] at next
  omega

theorem markdownTablePreview_eq_some
    (shown : markdownTablePreview text start stop complete = some preview) :
    ∃ a b,
      preview.Shows (excerptOf text start stop complete) (splitlines (text.take stop)) a b := by
  generalize partEq : splitlines (text.take stop) = lines
  generalize excerptEq : excerptOf text start stop complete = excerpt
  have some : ∀ line ∈ lines, line ≠ [] := by
    intro line mem
    rw [← partEq] at mem
    exact splitlines_ne_nil line mem
  have startEq : excerpt.start = start := by rw [← excerptEq, excerptOf]
  rw [markdownTablePreview] at shown
  split_ifs at shown with outside
  have read : (scanLines excerpt (lines.take lines.length)).Read excerpt lines lines.length :=
    scanLines_read some (Nat.le_refl _)
  rw [List.take_length] at read
  rw [excerptOf] at excerptEq
  simp only [excerptEq, partEq] at shown
  split at shown
  · cases shown
  · rename_i table reading
    obtain ⟨reads, keeps⟩ := read.table table reading
    split_ifs at shown with nothing long
    rw [not_or] at nothing
    have early : table.start ≤ excerpt.start := by
      rw [startEq]
      exact Nat.le_of_not_lt nothing.2
    have kept := keeps early
    have more : keptLines excerpt lines lines.length ≠ [] := by
      intro none
      refine nothing.1 ?_
      rw [kept.body, none]
      rfl
    obtain ⟨a, tail, first⟩ := List.exists_cons_of_ne_nil more
    have head : (keptLines excerpt lines lines.length).head? = Option.some a := by
      rw [first]
      rfl
    have last : (keptLines excerpt lines lines.length).getLast? =
        Option.some ((keptLines excerpt lines lines.length).getLast more) :=
      List.getLast?_eq_some_getLast more
    obtain ⟨within, isKept'⟩ := isKept_of_mem_keptLines (List.mem_of_head? head)
    obtain rfl := Option.some.inj shown
    refine ⟨a, (keptLines excerpt lines lines.length).getLast more, head, last, reads.second,
      reads.index_lt early some within isKept', reads.isHeader, reads.rows, ?_, ?_, ?_⟩
    · rw [reads.header, kept.body]
    · exact kept.firstLine a head
    · exact kept.lastLine _ last

variable {excerpt : Excerpt} {a b : Nat}

theorem finishedTogether_iff {lines : List (List Char)}
    (first : (keptLines excerpt lines lines.length).head? = some a)
    (last : (keptLines excerpt lines lines.length).getLast? = some b) :
    FinishedTogether excerpt lines ↔
      ∀ i ∈ List.range' a (b + 1 - a), isKept excerpt lines i = true := by
  obtain ⟨le, less, kept_a, kept_b, between⟩ := keptLines_between first last
  constructor
  · intro together i mem
    have bounds := List.mem_range'_1.mp mem
    have from' : excerpt.start ≤ lineOffset lines i :=
      Nat.le_trans (isKept_iff.mp kept_a).1 (lineOffset_mono bounds.1)
    refine isKept_iff.mpr ⟨from', ?_⟩
    rcases Nat.eq_or_lt_of_le bounds.1 with rfl | after
    · exact (isKept_iff.mp kept_a).2
    · rcases Nat.eq_or_lt_of_le (show i ≤ b by omega) with rfl | before
      · exact (isKept_iff.mp kept_b).2
      · exact together a i b after before less (isKept_iff.mp kept_a).1 (isKept_iff.mp kept_a).2
          (isKept_iff.mp kept_b).2
  · intro all i j k before after within from' finished_i finished_k
    have inside : ∀ m, m < lines.length → isKept excerpt lines m = true → a ≤ m ∧ m ≤ b := by
      intro m less' kept
      have mem : m ∈ keptLines excerpt lines lines.length :=
        List.mem_filter.mpr ⟨List.mem_range.mpr less', kept⟩
      rw [between] at mem
      have bounds := List.mem_range'_1.mp (List.mem_filter.mp mem).1
      exact ⟨bounds.1, by omega⟩
    have first' := (inside i (by omega) (isKept_iff.mpr ⟨from', finished_i⟩)).1
    have last' := (inside k within (isKept_iff.mpr
      ⟨Nat.le_trans from' (lineOffset_mono (by omega)), finished_k⟩)).2
    exact (isKept_iff.mp (all j (List.mem_range'_1.mpr ⟨by omega, by omega⟩))).2

theorem TablePreview.Faithful.all_kept (faithful : preview.Faithful text start stop complete)
    (shows : preview.Shows excerpt (splitlines (text.take stop)) a b) :
    ∀ i ∈ List.range' a (b + 1 - a), isKept excerpt (splitlines (text.take stop)) i = true ∧
      (lineAt (splitlines (text.take stop)) i).length = (lineAt (splitlines text) i).length := by
  obtain ⟨le, less, kept_a, kept_b, between⟩ := keptLines_between shows.first shows.last
  have behind := shows.behind
  have same : ∀ i, i < b →
      lineAt (splitlines text) i = lineAt (splitlines (text.take stop)) i := fun i before =>
    lineAt_take (by omega)
  have whole := faithful.source
  rw [shows.source, between, linesBetween, shows.lineStart, shows.lineEnd, Nat.add_sub_cancel,
    Nat.add_sub_cancel, same _ (by omega), same _ (by omega)] at whole
  refine kept_of_length_eq (fun i mem => ?_) (fun i mem => ?_)
    (congrArg List.length (List.append_cancel_left whole))
  · exact length_lineAt_take_le (by have := List.mem_range'_1.mp mem; omega)
  · have shorter : (splitlines (text.take stop)).length ≤ (splitlines text).length :=
      splitlines_take_length_le
    have bounds := List.mem_range'_1.mp mem
    exact splitlines_length_pos (by omega)

theorem TablePreview.Shows.faithful (bounded : stop ≤ text.length)
    (shows : preview.Shows (excerptOf text start stop complete) (splitlines (text.take stop)) a b)
    (all : ∀ i ∈ List.range' a (b + 1 - a),
      isKept (excerptOf text start stop complete) (splitlines (text.take stop)) i = true)
    (whole : lineAt (splitlines text) b = lineAt (splitlines (text.take stop)) b) :
    preview.Faithful text start stop complete := by
  obtain ⟨le, less, kept_a, kept_b, between⟩ := keptLines_between shows.first shows.last
  have behind := shows.behind
  have second := shows.second
  have agree : ∀ i, i < b + 1 →
      lineAt (splitlines text) i = lineAt (splitlines (text.take stop)) i := by
    intro i upTo
    rcases Nat.lt_succ_iff_lt_or_eq.mp upTo with earlier | rfl
    · exact lineAt_take (by omega)
    · exact whole
  have inside : b + 1 ≤ (splitlines text).length := Nat.le_trans less splitlines_take_length_le
  refine ⟨second, ?_, ?_, ?_, ?_, ?_, ?_, ?_, ?_, ?_⟩
  · rw [agree _ (by omega), agree _ (by omega)]
    exact shows.isHeader
  · rw [shows.lineStart]
    omega
  · rw [shows.lineStart, shows.lineEnd]
    omega
  · rw [shows.lineEnd]
    exact inside
  · have same : (List.range' a (b + 1 - a)).map (lineAt (splitlines (text.take stop))) =
        (List.range' a (b + 1 - a)).map (lineAt (splitlines text)) := by
      refine List.map_congr_left fun i mem => (agree i ?_).symm
      have := List.mem_range'_1.mp mem
      omega
    rw [shows.source, between, List.filter_eq_self.mpr all, linesBetween, shows.lineStart,
      shows.lineEnd, Nat.add_sub_cancel, Nat.add_sub_cancel, agree _ (by omega),
      agree _ (by omega), same]
  · rw [shows.lineStart, Nat.add_sub_cancel,
      lineOffset_eq_of_agree (by omega) (Nat.le_of_lt (Nat.lt_of_le_of_lt le less)) fun i upTo =>
        agree i (by omega)]
    exact (isKept_iff.mp kept_a).1
  · rw [shows.lineEnd, lineOffset_eq_of_agree inside less agree]
    have most : lineOffset (splitlines (text.take stop)) (b + 1) ≤
        lineOffset (splitlines (text.take stop)) (splitlines (text.take stop)).length :=
      lineOffset_mono less
    have all' : lineOffset (splitlines (text.take stop)) (splitlines (text.take stop)).length =
        stop := by
      rw [lineOffset, List.take_length, flatten_linesOf, List.length_take, Nat.min_eq_left bounded]
    exact most.trans (Nat.le_of_eq all')
  · intro i after before
    rw [shows.lineEnd] at before
    rw [agree i before]
    exact shows.rows i after (by omega)
  · intro i from' before
    rw [shows.lineStart] at from'
    rw [shows.lineEnd] at before
    rw [agree i before]
    exact (isKept_iff.mp (all i (List.mem_range'_1.mpr ⟨by omega, by omega⟩))).2

theorem last_kept_cut (cut : ¬ WholeLines text stop)
    (kept : isKept (excerptOf text start stop complete) (splitlines (text.take stop)) b = true)
    (last : b + 1 = (splitlines (text.take stop)).length) : CutsNewline text stop := by
  have finished := (isKept_iff.mp kept).2
  have more : text.drop stop ≠ [] := fun none => cut (Or.inr none)
  have inner : ¬ stop = text.length := by
    intro same
    rw [same, List.drop_length] at more
    exact more rfl
  rw [Excerpt.finished, excerptOf, beq_eq_false_iff_ne.mpr inner, Bool.and_false,
    Bool.or_false, endsWithNewline, getLast?_lineAt last] at finished
  exact cutsNewline_of_not_whole cut finished

/-- **A preview is faithful exactly when the range does not end within a line break and no line
of the range that something else ends is between two that a line feed or a carriage return
ends.** -/
theorem markdownTablePreview_faithful_iff
    (shown : markdownTablePreview text start stop complete = some preview) :
    preview.Faithful text start stop complete ↔
      ¬ CutsNewline text stop ∧
        FinishedTogether (excerptOf text start stop complete) (splitlines (text.take stop)) := by
  have bounded : stop ≤ text.length := by
    by_contra beyond
    rw [markdownTablePreview, if_pos (Or.inl fun range => beyond range.2)] at shown
    cases shown
  obtain ⟨a, b, shows⟩ := markdownTablePreview_eq_some shown
  obtain ⟨le, less, kept_a, kept_b, between⟩ := keptLines_between shows.first shows.last
  have whole_of : ¬ CutsNewline text stop →
      lineAt (splitlines text) b = lineAt (splitlines (text.take stop)) b := by
    intro uncut
    by_cases last : b + 1 = (splitlines (text.take stop)).length
    · by_cases whole : WholeLines text stop
      · exact lineAt_take_of_whole whole less
      · exact absurd (last_kept_cut whole kept_b last) uncut
    · exact lineAt_take (by omega)
  rw [finishedTogether_iff shows.first shows.last]
  constructor
  · intro faithful
    have all := faithful.all_kept shows
    refine ⟨fun cuts => ?_, fun i mem => (all i mem).1⟩
    -- The last line ends with the carriage return, so it is kept, and it goes on in the text.
    have cut := not_whole_of_cutsNewline cuts
    have last : (splitlines (text.take stop)).length - 1 + 1 =
        (splitlines (text.take stop)).length := by omega
    have ends : endsWithNewline (lineAt (splitlines (text.take stop))
        ((splitlines (text.take stop)).length - 1)) = true := by
      rw [endsWithNewline, getLast?_lineAt last, cuts.1]
      rfl
    have kept : isKept (excerptOf text start stop complete) (splitlines (text.take stop))
        ((splitlines (text.take stop)).length - 1) = true := by
      refine isKept_iff.mpr ⟨Nat.le_trans (isKept_iff.mp kept_b).1 (lineOffset_mono (by omega)), ?_⟩
      rw [Excerpt.finished, ends, Bool.true_or]
    have mem : (splitlines (text.take stop)).length - 1 ∈
        keptLines (excerptOf text start stop complete) (splitlines (text.take stop))
          (splitlines (text.take stop)).length :=
      List.mem_filter.mpr ⟨List.mem_range.mpr (by omega), kept⟩
    rw [between] at mem
    have same := (all _ (List.mem_filter.mp mem).1).2
    have longer := lineAt_take_of_not_whole cut last
    omega
  · rintro ⟨uncut, all⟩
    exact shows.faithful bounded all (whole_of uncut)

/-- The rows behind a form feed are shown as if the row before them did not exist. -/
theorem markdownTablePreview_drops_a_row :
    ∃ preview,
      markdownTablePreview "|a|\n|-|\n|0|\n|1|\x0c|2|\n|3|\n".toList 8 20 true = some preview ∧
        ¬ preview.Faithful "|a|\n|-|\n|0|\n|1|\x0c|2|\n|3|\n".toList 8 20 true := by
  refine ⟨⟨"|a|\n|-|\n|0|\n|2|\n".toList, 1, 3, 5⟩, by decide, fun faithful => ?_⟩
  exact absurd faithful.source (by decide)

theorem markdownTablePreview_faithful_of_newlines :
    ∃ preview,
      markdownTablePreview "|a|\n|-|\n|0|\n|1|\n|3|\n".toList 8 16 true = some preview ∧
        (preview.Faithful "|a|\n|-|\n|0|\n|1|\n|3|\n".toList 8 16 true ↔
          ¬ CutsNewline "|a|\n|-|\n|0|\n|1|\n|3|\n".toList 16 ∧
            FinishedTogether (excerptOf "|a|\n|-|\n|0|\n|1|\n|3|\n".toList 8 16 true)
              (splitlines ("|a|\n|-|\n|0|\n|1|\n|3|\n".toList.take 16))) := by
  have shown : markdownTablePreview "|a|\n|-|\n|0|\n|1|\n|3|\n".toList 8 16 true =
      some ⟨"|a|\n|-|\n|0|\n|1|\n".toList, 1, 3, 4⟩ := by decide
  exact ⟨_, shown, markdownTablePreview_faithful_iff shown⟩

end Preview

end SkillMind.Core
