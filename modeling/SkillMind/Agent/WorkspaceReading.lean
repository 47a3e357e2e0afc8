import SkillMind.Core.MarkdownExcerpt

/-!
# Pages of a workspace file

A file is read in pages of characters, each from the offset the one before it gives. The pages are
the whole text. Where a page lies is said in lines: its last line is counted from
`str.splitlines`, its first from that and a test for two of the characters that end a line.
-/

namespace SkillMind.Agent

open Library SkillMind.Core

structure ToolProviderError where
  code : String
  message : String
  retryable : Bool
  deriving DecidableEq

def invalidRequest (message : String) : ToolProviderError := ⟨"invalid_request", message, false⟩

/-- A member of the arguments, for which `type(value) is int` holds or not. -/
inductive Argument where
  | int (value : Int)
  | other

structure TextContent where
  text : List Char
  checksum : String

def defaultReadCharacters : Nat := 64000
def maxReadCharacters : Nat := 200000
def excerptCharacters : Nat := 2000

structure PageArguments where
  offset : Option Argument
  maxChars : Option Argument
  hasLineStart : Bool
  hasLineEnd : Bool

/-- The response and the locator of its Evidence. -/
structure CharacterPage where
  content : List Char
  contentHash : String
  lineStart : Nat
  lineEnd : Nat
  truncated : Bool
  offset : Nat
  nextOffset : Option Nat
  totalChars : Nat
  endOffset : Nat
  excerpt : List Char
  excerptPreview : Option TablePreview

/-- `path.lower().endswith((".md", ".markdown"))`. -/
def isMarkdownPath (path : String) : Bool :=
  ".md".toList.isSuffixOf (lower path) || ".markdown".toList.isSuffixOf (lower path)

/-- The preview of `_excerpt_metadata`. -/
def excerptPreview (path : String) (text : List Char) (start size : Nat) : Option TablePreview :=
  if isMarkdownPath path = true then
    markdownTablePreview text start (start + min size excerptCharacters) true
  else none

/-- The page of `limit` characters from `offset`. -/
def pageAt (path : String) (content : TextContent) (offset limit : Nat) : CharacterPage :=
  let stop := min content.text.length (offset + limit)
  let before := content.text.take offset
  let text := (content.text.take stop).drop offset
  { content := text
    contentHash := content.checksum
    lineStart := 1 + (splitlines before).length -
      if offset ≠ 0 ∧ endsWithNewline before = false then 1 else 0
    lineEnd := (splitlines (content.text.take stop)).length
    truncated := decide (stop < content.text.length)
    offset := offset
    nextOffset := if stop < content.text.length then some stop else none
    totalChars := content.text.length
    endOffset := stop
    excerpt := text.take excerptCharacters
    excerptPreview := excerptPreview path content.text offset text.length }

def pageSize (maxChars : Option Argument) : Option Nat :=
  match maxChars.getD (.int defaultReadCharacters) with
  | .int value => if 1 ≤ value ∧ value ≤ maxReadCharacters then some value.toNat else none
  | .other => none

def pageOffset (length : Nat) (offset : Option Argument) : Option Nat :=
  match offset.getD (.int 0) with
  | .int value => if 0 ≤ value ∧ value ≤ length then some value.toNat else none
  | .other => none

def characterPage (path : String) (content : TextContent) (arguments : PageArguments) :
    Except ToolProviderError CharacterPage :=
  match pageOffset content.text.length arguments.offset, pageSize arguments.maxChars with
  | some offset, some limit =>
    if arguments.hasLineStart = true ∨ arguments.hasLineEnd = true then
      .error (invalidRequest "Invalid file page range")
    else .ok (pageAt path content offset limit)
  | _, _ => .error (invalidRequest "Invalid file page range")

/-! ## Following the pages -/

def requestAt (offset : Nat) (maxChars : Option Argument) : PageArguments :=
  ⟨some (.int offset), maxChars, false, false⟩

/-- The pages read from an offset on, each of the size asked for, up to one that names no next
offset. -/
inductive Paging (path : String) (content : TextContent) :
    List (Option Argument) → Nat → List CharacterPage → Prop
  | last {size : Option Argument} {offset : Nat} {page : CharacterPage} :
      characterPage path content (requestAt offset size) = .ok page → page.nextOffset = none →
      Paging path content [size] offset [page]
  | next {size : Option Argument} {sizes : List (Option Argument)} {offset next : Nat}
      {page : CharacterPage} {pages : List CharacterPage} :
      characterPage path content (requestAt offset size) = .ok page →
      page.nextOffset = some next → Paging path content sizes next pages →
      Paging path content (size :: sizes) offset (page :: pages)

def CharacterPage.Located (page : CharacterPage) (text : List Char) : Prop :=
  1 ≤ page.lineStart ∧ InLine (splitlines text) (page.lineStart - 1) page.offset ∧
    1 ≤ page.lineEnd ∧ InLine (splitlines text) (page.lineEnd - 1) (page.endOffset - 1)

/-- The character before the offset ends no line, or it is a line feed, or a carriage return with
no line feed behind it. -/
def StartsPlainly (text : List Char) (offset : Nat) : Prop :=
  ∀ c ∈ (text.take offset).getLast?, isLineBreak c = false ∨ c = '\n' ∨
    (c = '\r' ∧ (text.drop offset).head? ≠ some '\n')

variable {path : String} {content : TextContent}

theorem requestAt_eq_ok {offset : Nat} {size : Option Argument} {page : CharacterPage}
    (read : characterPage path content (requestAt offset size) = .ok page) :
    offset ≤ content.text.length ∧
      ∃ limit, pageSize size = some limit ∧ page = pageAt path content offset limit := by
  rw [characterPage, requestAt] at read
  have offset_eq : pageOffset content.text.length (some (.int offset)) =
      if offset ≤ content.text.length then some offset else none := by
    rw [pageOffset, Option.getD_some]
    simp
  rw [offset_eq] at read
  by_cases inside : offset ≤ content.text.length
  · rw [if_pos inside] at read
    refine ⟨inside, ?_⟩
    cases size_eq : pageSize size with
    | none =>
      rw [size_eq] at read
      cases read
    | some limit =>
      rw [size_eq] at read
      cases read
      exact ⟨limit, rfl, rfl⟩
  · rw [if_neg inside] at read
    cases read

theorem requestAt_ok {offset limit : Nat} {size : Option Argument}
    (inside : offset ≤ content.text.length) (sized : pageSize size = some limit) :
    characterPage path content (requestAt offset size) =
      .ok (pageAt path content offset limit) := by
  have offset_eq : pageOffset content.text.length (some (.int offset)) = some offset := by
    rw [pageOffset, Option.getD_some]
    simpa using inside
  rw [characterPage, requestAt, offset_eq, sized]
  rfl

theorem pageSize_pos {size : Option Argument} {limit : Nat} (sized : pageSize size = some limit) :
    0 < limit := by
  rw [pageSize] at sized
  split at sized
  · split_ifs at sized with range
    obtain rfl := Option.some.inj sized
    omega
  · cases sized

theorem nextOffset_eq_some {offset limit next : Nat}
    (more : (pageAt path content offset limit).nextOffset = some next) :
    next = offset + limit ∧ next < content.text.length := by
  rw [pageAt] at more
  dsimp only at more
  split_ifs at more with inside
  obtain rfl := Option.some.inj more
  omega

theorem nextOffset_eq_none {offset limit : Nat}
    (done : (pageAt path content offset limit).nextOffset = none) :
    content.text.length ≤ offset + limit := by
  rw [pageAt] at done
  dsimp only at done
  split_ifs at done with inside
  omega

theorem Paging.content_eq {sizes : List (Option Argument)} {offset : Nat}
    {pages : List CharacterPage} (paging : Paging path content sizes offset pages) :
    pages.flatMap CharacterPage.content = content.text.drop offset := by
  induction paging with
  | last read done =>
    obtain ⟨inside, limit, -, rfl⟩ := requestAt_eq_ok read
    have all := nextOffset_eq_none done
    rw [List.flatMap_singleton, pageAt, Nat.min_eq_left all, List.take_length]
  | next read more rest ih =>
    obtain ⟨inside, limit, -, rfl⟩ := requestAt_eq_ok read
    obtain ⟨rfl, less⟩ := nextOffset_eq_some more
    rw [List.flatMap_cons, ih, pageAt, Nat.min_eq_right (Nat.le_of_lt less)]
    rw [List.drop_take, Nat.add_sub_cancel_left, ← List.drop_drop, List.take_append_drop]

theorem Paging.exists_of_sizes {offset : Nat} (inside : offset ≤ content.text.length)
    (sizes : Nat → Option Argument) (sized : ∀ n, (pageSize (sizes n)).isSome = true) :
    ∃ count pages, Paging path content ((List.range count).map sizes) offset pages := by
  induction left : content.text.length - offset using Nat.strong_induction_on
    generalizing offset sizes with
  | _ left ih =>
    obtain ⟨limit, limit_eq⟩ := Option.isSome_iff_exists.mp (sized 0)
    have read : characterPage path content (requestAt offset (sizes 0)) =
        .ok (pageAt path content offset limit) := requestAt_ok inside limit_eq
    cases next : (pageAt path content offset limit).nextOffset with
    | none => exact ⟨1, [pageAt path content offset limit], Paging.last read next⟩
    | some stop =>
      obtain ⟨rfl, less⟩ := nextOffset_eq_some next
      have positive := pageSize_pos limit_eq
      obtain ⟨count, pages, rest⟩ := ih (content.text.length - (offset + limit)) (by omega)
        (Nat.le_of_lt less) (fun n => sizes (n + 1)) (fun n => sized (n + 1)) rfl
      refine ⟨count + 1, pageAt path content offset limit :: pages, ?_⟩
      rw [List.range_succ_eq_map, List.map_cons, List.map_map]
      exact Paging.next read next rest

theorem startsPlainly_iff {text : List Char} {offset : Nat} {before : List Char} {c : Char}
    (taken : text.take offset = before ++ [c]) :
    StartsPlainly text offset ↔
      endsLine c (text.drop offset).head? = endsWithNewline (before ++ [c]) := by
  have newline : endsWithNewline (before ++ [c]) = (c == '\n' || c == '\r') := by
    rw [endsWithNewline, List.getLast?_concat]
    rfl
  have last : StartsPlainly text offset ↔ isLineBreak c = false ∨ c = '\n' ∨
      (c = '\r' ∧ (text.drop offset).head? ≠ some '\n') := by
    rw [StartsPlainly, taken, List.getLast?_concat]
    simp
  rw [last, newline, endsLine]
  by_cases feed : c = '\n'
  · subst feed
    have isBreak : isLineBreak '\n' = true := by decide
    simp [isBreak]
  · by_cases carriage : c = '\r'
    · subst carriage
      have isBreak : isLineBreak '\r' = true := by decide
      simp [isBreak]
    · have other : (c == '\n') = false := beq_eq_false_iff_ne.mpr feed
      have other' : (c == '\r') = false := beq_eq_false_iff_ne.mpr carriage
      simp [feed, carriage, other, other']

theorem pageAt_lineStart_iff {offset limit : Nat} (inside : offset < content.text.length) :
    InLine (splitlines content.text) ((pageAt path content offset limit).lineStart - 1) offset ↔
      StartsPlainly content.text offset := by
  obtain ⟨c, rest, behind⟩ := List.exists_cons_of_ne_nil
    (List.ne_nil_of_length_pos (l := content.text.drop offset) (by rw [List.length_drop]; omega))
  have length : (content.text.take offset).length = offset := by
    rw [List.length_take, Nat.min_eq_left (Nat.le_of_lt inside)]
  have parts : content.text.take offset ++ c :: rest = content.text := by
    rw [← behind, List.take_append_drop]
  rcases List.eq_nil_or_concat' (content.text.take offset) with none | ⟨before, d, taken⟩
  · have zero : offset = 0 := by
      rw [← length, none]
      rfl
    subst zero
    have first : InLine (splitlines (content.text.take 0 ++ c :: rest)) 0 0 := by
      rw [List.take_zero, List.nil_append]
      exact inLine_of_closed (closed_nil _)
    rw [parts] at first
    simp [pageAt, StartsPlainly, first]
  · have positive : offset ≠ 0 := by
      intro zero
      rw [zero] at taken
      simp at taken
    have some : 0 < (splitlines (content.text.take offset)).length := by
      refine List.length_pos_of_ne_nil (linesOf_ne_nil endsLine ?_)
      rw [taken]
      simp
    rw [startsPlainly_iff taken, behind, List.head?_cons, ← taken]
    have start : (pageAt path content offset limit).lineStart =
        1 + (splitlines (content.text.take offset)).length -
          if offset ≠ 0 ∧ endsWithNewline (content.text.take offset) = false then 1 else 0 := rfl
    rw [start]
    by_cases closes : endsLine d (Option.some c) = true
    · have closed : EndsLine endsLine (content.text.take offset) (Option.some c) := by
        rw [taken]
        exact closed_concat.mpr closes
      have line : InLine (splitlines (content.text.take offset ++ c :: rest)) _ _ :=
        inLine_of_closed closed
      rw [parts, length] at line
      rw [closes]
      cases newline : endsWithNewline (content.text.take offset) with
      | true => simpa using line
      | false =>
        simp only [ne_eq, positive, not_false_eq_true, and_self, if_true]
        refine ⟨fun wrong => ?_, fun same => by cases same⟩
        have line_eq : 1 + (splitlines (content.text.take offset)).length - 1 - 1 =
            (splitlines (content.text.take offset)).length := wrong.unique line
        omega
    · have goesOn : endsLine d (Option.some c) = false := Bool.not_eq_true _ ▸ closes
      have within : ¬ EndsLine endsLine (content.text.take offset) (Option.some c) := by
        rw [taken]
        exact fun closed => closes (closed_concat.mp closed)
      have line : InLine (splitlines (content.text.take offset ++ c :: rest)) _ _ :=
        inLine_of_not_closed within
      rw [parts, length] at line
      rw [goesOn]
      cases newline : endsWithNewline (content.text.take offset) with
      | true =>
        simp only [ne_eq, Bool.true_eq_false, and_false, if_false]
        refine ⟨fun wrong => ?_, fun same => by cases same⟩
        have line_eq : 1 + (splitlines (content.text.take offset)).length - 0 - 1 =
            (splitlines (content.text.take offset)).length - 1 := wrong.unique line
        omega
      | false =>
        simp only [ne_eq, positive, not_false_eq_true, and_self, if_true, iff_true]
        have number : 1 + (splitlines (content.text.take offset)).length - 1 - 1 =
            (splitlines (content.text.take offset)).length - 1 := by omega
        rw [number]
        exact line

theorem pageAt_lineEnd {offset limit : Nat} (inside : offset < content.text.length)
    (positive : 0 < limit) :
    1 ≤ (pageAt path content offset limit).lineEnd ∧
      InLine (splitlines content.text) ((pageAt path content offset limit).lineEnd - 1)
        ((pageAt path content offset limit).endOffset - 1) := by
  generalize stopEq : min content.text.length (offset + limit) = stop
  have some : 0 < stop := by omega
  have bounded : stop ≤ content.text.length := by omega
  have page : (pageAt path content offset limit).lineEnd =
        (splitlines (content.text.take stop)).length ∧
      (pageAt path content offset limit).endOffset = stop := by
    rw [← stopEq]
    exact ⟨rfl, rfl⟩
  rw [page.1, page.2]
  obtain ⟨before, c, taken⟩ := (List.eq_nil_or_concat' (content.text.take stop)).resolve_left
    (List.ne_nil_of_length_pos (by rw [List.length_take]; omega))
  have length : before.length = stop - 1 := by
    have whole := congrArg List.length taken
    rw [List.length_take, Nat.min_eq_left bounded, List.length_append,
      List.length_singleton] at whole
    omega
  have parts : before ++ c :: content.text.drop stop = content.text := by
    rw [← List.singleton_append, ← List.append_assoc, ← taken, List.take_append_drop]
  have line : InLine (splitlines (before ++ c :: content.text.drop stop)) _ _ :=
    inLine_last before (content.text.drop stop) c
  rw [parts, length, ← taken] at line
  refine ⟨List.length_pos_of_ne_nil (linesOf_ne_nil endsLine ?_), line⟩
  rw [taken]
  simp

theorem Paging.located_iff {sizes : List (Option Argument)} {offset : Nat}
    {pages : List CharacterPage} (paging : Paging path content sizes offset pages) :
    ∀ page ∈ pages, page.content ≠ [] →
      (page.Located content.text ↔ StartsPlainly content.text page.offset) := by
  have here : ∀ {offset limit : Nat}, 0 < limit → (pageAt path content offset limit).content ≠ [] →
      ((pageAt path content offset limit).Located content.text ↔
        StartsPlainly content.text (pageAt path content offset limit).offset) := by
    intro offset limit positive some
    have inside : offset < content.text.length := by
      by_contra beyond
      refine some ?_
      rw [pageAt]
      refine List.drop_eq_nil_of_le ?_
      rw [List.length_take]
      omega
    have ends := @pageAt_lineEnd path content offset limit inside positive
    have starts : 1 ≤ (pageAt path content offset limit).lineStart := by
      rw [pageAt]
      dsimp only
      split_ifs with shortened
      · have more : content.text.take offset ≠ [] := by
          refine List.ne_nil_of_length_pos ?_
          rw [List.length_take]
          have := Nat.pos_of_ne_zero shortened.1
          omega
        have some' : 0 < (splitlines (content.text.take offset)).length :=
          List.length_pos_of_ne_nil (linesOf_ne_nil endsLine more)
        omega
      · omega
    rw [CharacterPage.Located]
    refine Iff.trans ?_ (@pageAt_lineStart_iff path content offset limit inside)
    exact ⟨fun located => located.2.1, fun line => ⟨starts, line, ends⟩⟩
  induction paging with
  | last read done =>
    intro page mem some
    obtain ⟨-, limit, sized, rfl⟩ := requestAt_eq_ok read
    obtain rfl := List.mem_singleton.mp mem
    exact here (pageSize_pos sized) some
  | next read more rest ih =>
    intro page mem some
    obtain ⟨-, limit, sized, rfl⟩ := requestAt_eq_ok read
    rcases List.mem_cons.mp mem with rfl | later
    · exact here (pageSize_pos sized) some
    · exact ih page later some

/-- **Pages of any sizes come to an end and are together the text**; and a page lies where it
says exactly when it starts plainly. -/
theorem characterPages_exact (path : String) (content : TextContent) :
    (∀ sizes : Nat → Option Argument, (∀ n, (pageSize (sizes n)).isSome = true) →
      ∃ count pages, Paging path content ((List.range count).map sizes) 0 pages) ∧
    ∀ sizes pages, Paging path content sizes 0 pages →
      pages.flatMap CharacterPage.content = content.text ∧
      ∀ page ∈ pages, page.content ≠ [] →
        (page.Located content.text ↔ StartsPlainly content.text page.offset) := by
  refine ⟨Paging.exists_of_sizes (Nat.zero_le _), fun sizes pages paging => ?_⟩
  refine ⟨?_, paging.located_iff⟩
  rw [paging.content_eq, List.drop_zero]

/-- Behind a form feed the second of two pages is said to begin in the line before. -/
theorem characterPage_behind_form_feed :
    ∃ pages, Paging "notes.txt" ⟨"a\x0cb".toList, "sha256:0"⟩ [some (.int 2), some (.int 2)] 0
        pages ∧
      ∃ page ∈ pages, page.content ≠ [] ∧ ¬ page.Located "a\x0cb".toList := by
  refine ⟨[pageAt "notes.txt" ⟨"a\x0cb".toList, "sha256:0"⟩ 0 2,
    pageAt "notes.txt" ⟨"a\x0cb".toList, "sha256:0"⟩ 2 2], .next rfl rfl (.last rfl rfl),
    _, List.mem_cons_of_mem _ List.mem_cons_self, by decide, fun located => ?_⟩
  exact absurd located.2.1.2 (by decide)

end SkillMind.Agent
