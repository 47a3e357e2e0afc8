import Mathlib.Data.List.Chain
import Mathlib.Data.List.Flatten
import Mathlib.Data.List.TakeWhile
import SkillMind.Core.MarkdownExcerpt

/-!
# Static rejection of generated modules

`analyze_module_sources` looks for forbidden patterns in each line of the generated sources. A
line that starts with `//` or `*` is passed over as a comment. Whether it is one depends on what
stands before: a lexical scan of the whole file says which characters are in a comment, with
strings and templates as JavaScript reads them.

The rules are data, and one matcher interprets them.
-/

namespace SkillMind.Modules

open Library SkillMind.Core

/-! ## Patterns -/

/-- A part of a pattern. -/
inductive Piece where
  /-- `\b`. -/
  | boundary
  | oneOf (chars : List Char)
  | charOf (holds : Char → Bool)
  /-- Any number of these characters. -/
  | many (holds : Char → Bool)

/-- Some of the characters, and then what follows. -/
def manyThen (holds : Char → Bool) (follows : Option Char → List Char → Bool) :
    Option Char → List Char → Bool
  | previous, [] => follows previous []
  | previous, c :: rest =>
    follows previous (c :: rest) || (holds c && manyThen holds follows (some c) rest)

def matchPieces (word : Char → Bool) : List Piece → Option Char → List Char → Bool
  | [], _, _ => true
  | .boundary :: pieces, previous, text =>
    (previous.any word != text.head?.any word) && matchPieces word pieces previous text
  | .oneOf chars :: pieces, _, text =>
    match text with
    | [] => false
    | c :: rest => chars.contains c && matchPieces word pieces (some c) rest
  | .charOf holds :: pieces, _, text =>
    match text with
    | [] => false
    | c :: rest => holds c && matchPieces word pieces (some c) rest
  | .many holds :: pieces, previous, text => manyThen holds (matchPieces word pieces) previous text

def literal (text : String) : List Piece := text.toList.map fun c => .oneOf [c]

def blanks : Piece := .many isSpace

/-- `\bname\s*\(`. -/
def callOf (name : String) : List Piece := .boundary :: literal name ++ [blanks, .oneOf ['(']]

/-- `\bnew\s+Name\s*\(`. -/
def newOf (name : String) : List Piece :=
  .boundary :: literal "new" ++ [.charOf isSpace, blanks] ++ literal name ++ [blanks, .oneOf ['(']]

def wordOf (name : String) : List Piece := .boundary :: literal name ++ [.boundary]

def anyQuote : Piece := .oneOf ['"', Char.ofNat 0x27, Char.ofNat 0x60]

/-- `[a-z]` of a pattern that ignores case. -/
def isLetter (c : Char) : Bool := 'a' ≤ foldCase c && foldCase c ≤ 'z'

def isHostChar (c : Char) : Bool := isLetter c || c.isDigit || c == '.' || c == '-'

structure Rule where
  code : String
  patterns : List (List Piece)

def rules : List Rule :=
  [⟨"dynamic_code_evaluation", [callOf "eval"]⟩,
    ⟨"dynamic_code_evaluation", [newOf "Function"]⟩,
    ⟨"dynamic_code_evaluation", [literal ".innerHTML" ++ [blanks, .oneOf ['=']]]⟩,
    ⟨"dynamic_code_evaluation", [callOf "document.write"]⟩,
    ⟨"dynamic_code_evaluation", [literal "dangerouslySetInnerHTML"]⟩,
    ⟨"direct_network_access", [callOf "fetch"]⟩,
    ⟨"direct_network_access", [newOf "WebSocket"]⟩,
    ⟨"direct_network_access", [newOf "EventSource"]⟩,
    ⟨"direct_network_access", [newOf "XMLHttpRequest"]⟩,
    ⟨"direct_network_access", [callOf "navigator.sendBeacon"]⟩,
    ⟨"host_context_access", [wordOf "document.cookie"]⟩,
    ⟨"host_context_access",
      [wordOf "window.parent", wordOf "window.top", wordOf "window.opener"]⟩,
    ⟨"host_context_access", [.boundary :: literal "window.location" ++ [blanks, .oneOf ['=']]]⟩,
    ⟨"host_context_access", [callOf "parent.postMessage", callOf "top.postMessage"]⟩,
    ⟨"external_resource_url", [anyQuote :: literal "http://", anyQuote :: literal "https://"]⟩,
    ⟨"external_resource_url",
      [anyQuote :: literal "//" ++ [.charOf isHostChar, .many isHostChar, .oneOf ['.'],
        .charOf isLetter, .charOf isLetter]]⟩,
    ⟨"dynamic_import", [callOf "import"]⟩,
    ⟨"dynamic_import", [callOf "require"]⟩,
    ⟨"persistent_storage_write", [wordOf "localStorage", wordOf "sessionStorage"]⟩,
    ⟨"persistent_storage_write", [wordOf "indexedDB"]⟩,
    ⟨"persistent_storage_write", [callOf "caches.open"]⟩]

section Analysis

variable (library : StandardLibrary)

def Rule.matchesAt (rule : Rule) (text : List Char) (position : Nat) : Bool :=
  rule.patterns.any fun pieces =>
    matchPieces (isWord library) pieces (text.take position).getLast? (text.drop position)

/-- `pattern.search(line) is not None`. -/
def Rule.search (rule : Rule) (text : List Char) : Bool :=
  (List.range (text.length + 1)).any (rule.matchesAt library text)

structure ModuleSourceFile where
  path : String
  content : String

structure ModuleFinding where
  code : String
  path : String
  line : Nat
  excerpt : String

structure ModuleStaticReport where
  findings : List ModuleFinding

def ModuleStaticReport.rejected (report : ModuleStaticReport) : Bool := report.findings ≠ []

def withoutBreak (line : List Char) : List Char := line.takeWhile fun c => !isLineBreak c

/-- `content.splitlines()`. -/
def sourceLines (source : ModuleSourceFile) : List (List Char) :=
  (splitlines source.content.toList).map withoutBreak

/-- The line is taken for a comment. -/
def passedOver (line : List Char) : Bool :=
  let stripped := stripText line
  "//".toList.isPrefixOf stripped || "*".toList.isPrefixOf stripped

def lineFindings (path : String) (line : List Char) (index : Nat) : List ModuleFinding :=
  if passedOver line = true then []
  else (rules.filter fun rule => rule.search library line).map fun rule =>
    ⟨rule.code, path, index, String.ofList ((stripText line).take 200)⟩

/-- What is found in one file. -/
def findingsOf (source : ModuleSourceFile) : List ModuleFinding :=
  ((sourceLines source).zipIdx 1).flatMap fun line => lineFindings library source.path line.1 line.2

def analyzeModuleSources (files : List ModuleSourceFile) : ModuleStaticReport :=
  ⟨files.flatMap (findingsOf library)⟩

end Analysis

/-! ## The lexical structure of JavaScript -/

inductive Mode where
  | code
  /-- Behind a slash in code. -/
  | slash
  | lineComment
  | blockComment
  /-- Behind an asterisk in a block comment. -/
  | star
  | quoted (quote : Char)
  /-- Behind a backslash in a string, and behind a carriage return that it escapes. -/
  | escaped (quote : Char)
  | escapedReturn (quote : Char)
  | template
  | templateEscape
  /-- Behind a dollar sign in a template. -/
  | dollar
  deriving DecidableEq

/-- The mode, and the braces that are open in each substitution around. -/
structure State where
  mode : Mode
  braces : List Nat

def backquote : Char := Char.ofNat 0x60

def backslash : Char := Char.ofNat 0x5c

def openBrace : Char := Char.ofNat 0x7b

def closeBrace : Char := Char.ofNat 0x7d

/-- The characters that end a line for JavaScript. -/
def isTerminator (c : Char) : Bool :=
  c.toNat == 0x0a || c.toNat == 0x0d || c.toNat == 0x2028 || c.toNat == 0x2029

def codeStep (braces : List Nat) (c : Char) : State :=
  if c = '/' then ⟨.slash, braces⟩
  else if c = '"' ∨ c = Char.ofNat 0x27 then ⟨.quoted c, braces⟩
  else if c = backquote then ⟨.template, braces⟩
  else if c = openBrace then
    match braces with
    | depth :: outer => ⟨.code, (depth + 1) :: outer⟩
    | [] => ⟨.code, []⟩
  else if c = closeBrace then
    match braces with
    | 0 :: outer => ⟨.template, outer⟩
    | (depth + 1) :: outer => ⟨.code, depth :: outer⟩
    | [] => ⟨.code, []⟩
  else ⟨.code, braces⟩

/-- A character of a string. -/
def quotedStep (quote c : Char) : Mode :=
  if c = quote then .code
  else if c = backslash then .escaped quote
  else if c = '\n' ∨ c = '\r' then .code
  else .quoted quote

def templateStep (braces : List Nat) (c : Char) : State :=
  if c = backquote then ⟨.code, braces⟩
  else if c = backslash then ⟨.templateEscape, braces⟩
  else if c = '$' then ⟨.dollar, braces⟩
  else ⟨.template, braces⟩

def State.step (state : State) (c : Char) : State :=
  match state.mode with
  | .code => codeStep state.braces c
  | .slash =>
    if c = '/' then ⟨.lineComment, state.braces⟩
    else if c = '*' then ⟨.blockComment, state.braces⟩
    else codeStep state.braces c
  | .lineComment => if isTerminator c = true then ⟨.code, state.braces⟩ else state
  | .blockComment => if c = '*' then ⟨.star, state.braces⟩ else state
  | .star =>
    if c = '/' then ⟨.code, state.braces⟩
    else if c = '*' then state
    else ⟨.blockComment, state.braces⟩
  | .quoted quote => ⟨quotedStep quote c, state.braces⟩
  | .escaped quote => ⟨if c = '\r' then .escapedReturn quote else .quoted quote, state.braces⟩
  | .escapedReturn quote =>
    ⟨if c = '\n' then .quoted quote else quotedStep quote c, state.braces⟩
  | .template => templateStep state.braces c
  | .templateEscape => ⟨.template, state.braces⟩
  | .dollar =>
    if c = openBrace then ⟨.code, 0 :: state.braces⟩ else templateStep state.braces c

/-- The character is outside of comments. -/
def Mode.executes (mode : Mode) (c : Char) (next : Option Char) : Bool :=
  match mode with
  | .code => !(c == '/' && (next == some '/' || next == some '*'))
  | .slash => !(c == '/' || c == '*')
  | .lineComment => isTerminator c
  | .blockComment | .star => false
  | _ => true

/-- A character with the state before it. -/
structure Mark where
  char : Char
  state : State
  executable : Bool

def marks (state : State) : List Char → List Mark
  | [] => []
  | c :: rest => ⟨c, state, state.mode.executes c rest.head?⟩ :: marks (state.step c) rest

/-- The lines of a file with the state before each character. -/
def markedLines (source : ModuleSourceFile) : List (List Mark) :=
  (linesOf (fun mark next => endsLine mark.char (next.map Mark.char))
    (marks ⟨.code, []⟩ source.content.toList)).map fun line =>
      line.takeWhile fun mark => !isLineBreak mark.char

/-! ## Lines and their marks -/

theorem linesOf_map {α β : Type} {f : α → β} {ends : β → Option β → Bool} (text : List α) :
    (linesOf (fun a next => ends (f a) (next.map f)) text).map (List.map f) =
      linesOf ends (text.map f) := by
  induction text with
  | nil => rfl
  | cons a rest ih =>
    rw [linesOf, List.map_cons, linesOf, List.head?_map, ← ih]
    split_ifs
    · rfl
    · cases linesOf (fun a next => ends (f a) (next.map f)) rest <;> rfl

theorem map_char_marks (state : State) (text : List Char) :
    (marks state text).map Mark.char = text := by
  induction text generalizing state with
  | nil => rfl
  | cons c rest ih => rw [marks, List.map_cons, ih]

theorem map_char_markedLines (source : ModuleSourceFile) :
    (markedLines source).map (List.map Mark.char) = sourceLines source := by
  rw [markedLines, sourceLines, splitlines, ← map_char_marks ⟨.code, []⟩ source.content.toList,
    ← linesOf_map, map_char_marks, List.map_map, List.map_map]
  refine List.map_congr_left fun line _ => ?_
  rw [Function.comp_apply, Function.comp_apply, withoutBreak, List.takeWhile_map]
  rfl

/-- Each state follows from the one before, and what is executable is so in its mode. -/
structure Scanned (line : List Mark) : Prop where
  chain : line.IsChain fun mark next => next.state = mark.state.step mark.char
  modes : ∀ mark ∈ line, ∃ next, mark.executable = mark.state.mode.executes mark.char next

theorem scanned_marks (state : State) (text : List Char) : Scanned (marks state text) := by
  induction text generalizing state with
  | nil => exact ⟨.nil, fun _ none => by cases none⟩
  | cons c rest ih =>
    obtain ⟨chain, modes⟩ := ih (state.step c)
    refine ⟨?_, ?_⟩
    · cases rest with
      | nil => exact .singleton _
      | cons d more => exact .cons_cons rfl chain
    · intro mark among
      rcases List.mem_cons.mp among with rfl | later
      · exact ⟨_, rfl⟩
      · exact modes mark later

theorem Scanned.part {line text : List Mark} (scanned : Scanned text) (part : line <:+: text) :
    Scanned line := by
  obtain ⟨before, behind, rfl⟩ := part
  have chain := (List.isChain_append.mp (List.isChain_append.mp scanned.chain).1).2.1
  refine ⟨chain, ?_⟩
  intro mark among
  exact scanned.modes mark (List.mem_append_left _ (List.mem_append_right _ among))

theorem Scanned.tail {mark : Mark} {line : List Mark} (scanned : Scanned (mark :: line)) :
    Scanned line :=
  scanned.part (List.suffix_cons mark line).isInfix

theorem part_flatten {α : Type} {part : List α} {parts : List (List α)} (among : part ∈ parts) :
    part <:+: parts.flatten := by
  obtain ⟨before, behind, rfl⟩ := List.append_of_mem among
  rw [List.flatten_append, List.flatten_cons]
  exact ⟨before.flatten, behind.flatten, List.append_assoc ..⟩

theorem scanned_of_mem {source : ModuleSourceFile} {line : List Mark}
    (among : line ∈ markedLines source) :
    Scanned line ∧ ∀ mark ∈ line, isLineBreak mark.char = false := by
  obtain ⟨whole, listed, rfl⟩ := List.mem_map.mp among
  have part := part_flatten listed
  rw [flatten_linesOf] at part
  refine ⟨(scanned_marks _ _).part ((List.takeWhile_prefix _).isInfix.trans part), ?_⟩
  intro mark inside
  simpa using List.mem_takeWhile_imp inside

theorem isTerminator_of_lineBreak {c : Char} (plain : isLineBreak c = false) :
    isTerminator c = false := by
  simp only [isLineBreak, isTerminator, Bool.or_eq_false_iff, Bool.and_eq_false_iff,
    decide_eq_false_iff_not, beq_eq_false_iff_ne] at plain ⊢
  omega

theorem Scanned.not_executable_of_lineComment {line : List Mark} (scanned : Scanned line)
    (plain : ∀ mark ∈ line, isLineBreak mark.char = false)
    (begins : ∀ mark ∈ line.head?, mark.state.mode = .lineComment) :
    ∀ mark ∈ line, mark.executable = false := by
  induction line with
  | nil => intro _ none; cases none
  | cons first rest ih =>
    have mode := begins first rfl
    have stays := isTerminator_of_lineBreak (plain first (.head _))
    intro mark among
    rcases List.mem_cons.mp among with rfl | later
    · obtain ⟨next, executes⟩ := scanned.modes mark (.head _)
      rw [executes, mode]
      exact stays
    · refine ih scanned.tail (fun mark among => plain mark (.tail _ among)) ?_ mark later
      intro second head
      cases rest with
      | nil => cases head
      | cons _ more =>
        obtain rfl := Option.some.inj head
        rw [(List.isChain_cons_cons.mp scanned.chain).1, State.step, mode]
        simp [stays, mode]

theorem Scanned.next_state {first second : Mark} {rest : List Mark}
    (scanned : Scanned (first :: second :: rest)) :
    second.state = first.state.step first.char :=
  (List.isChain_cons_cons.mp scanned.chain).1

theorem codeStep_blank {braces : List Nat} {c : Char} (blank : isSpace c = true) :
    codeStep braces c = ⟨.code, braces⟩ := by
  have other : ∀ d, isSpace d = false → c ≠ d := by
    rintro d ink rfl
    rw [blank] at ink
    cases ink
  have quotes : ¬ (c = '"' ∨ c = Char.ofNat 0x27) := by
    rintro (same | same)
    · exact other _ (by decide) same
    · exact other _ (by decide) same
  simp only [codeStep, if_neg (other '/' (by decide)), if_neg quotes,
    if_neg (other backquote (by decide)), if_neg (other openBrace (by decide)),
    if_neg (other closeBrace (by decide))]

theorem Scanned.not_executable_of_slashes {line : List Mark} (scanned : Scanned line)
    (plain : ∀ mark ∈ line, isLineBreak mark.char = false)
    (begins : ∀ mark ∈ line.head?, mark.state.mode = .code)
    (slashes : ['/', '/'] <+: (line.map Mark.char).dropWhile isSpace) :
    ∀ mark ∈ line, mark.executable = true → isSpace mark.char = true ∨ mark.char = '/' := by
  induction line with
  | nil => intro _ none; cases none
  | cons first rest ih =>
    have mode := begins first rfl
    intro mark among executes
    rw [List.map_cons, List.dropWhile_cons] at slashes
    split_ifs at slashes with blank
    · rcases List.mem_cons.mp among with rfl | later
      · exact .inl blank
      · refine ih scanned.tail (fun mark among => plain mark (.tail _ among)) ?_ slashes mark
          later executes
        intro second head
        cases rest with
        | nil => cases head
        | cons _ more =>
          obtain rfl := Option.some.inj head
          rw [scanned.next_state, State.step, mode]
          exact congrArg State.mode (codeStep_blank blank)
    · obtain ⟨behind, same⟩ := slashes
      cases rest with
      | nil => simp at same
      | cons second more =>
        simp only [List.map_cons, List.cons_append, List.cons.injEq] at same
        obtain ⟨slash, slash', -⟩ := same
        have opened : second.state.mode = .slash := by
          rw [scanned.next_state, State.step, mode, ← slash]
          rfl
        rcases List.mem_cons.mp among with rfl | later
        · exact .inr slash.symm
        · rcases List.mem_cons.mp later with rfl | later
          · exact .inr slash'.symm
          · have comment := scanned.tail.tail.not_executable_of_lineComment
              (fun mark among => plain mark (.tail _ (.tail _ among))) (fun third head => by
                cases more with
                | nil => cases head
                | cons _ others =>
                  obtain rfl := Option.some.inj head
                  rw [scanned.tail.next_state, State.step, opened, ← slash']
                  rfl) mark later
            rw [comment] at executes
            cases executes

/-- The first character that a pattern takes is neither a blank nor a slash. -/
def startsPlain : List Piece → Bool
  | .boundary :: .oneOf chars :: _ | .oneOf chars :: _ =>
    chars.all fun c => !isSpace c && c != '/'
  | _ => false

theorem rules_startPlain : ∀ rule ∈ rules, rule.patterns.all startsPlain = true := by
  decide

theorem head_of_matchPieces {word : Char → Bool} {pieces : List Piece} {previous : Option Char}
    {text : List Char} (plain : startsPlain pieces = true)
    (found : matchPieces word pieces previous text = true) :
    ∃ c rest, text = c :: rest ∧ isSpace c = false ∧ c ≠ '/' := by
  have taken : ∀ {chars : List Char} {more : List Piece} {before : Option Char},
      (chars.all fun c => !isSpace c && c != '/') = true →
        matchPieces word (.oneOf chars :: more) before text = true →
          ∃ c rest, text = c :: rest ∧ isSpace c = false ∧ c ≠ '/' := by
    intro chars more before all found
    cases text with
    | nil => simp [matchPieces] at found
    | cons c rest =>
      rw [matchPieces, Bool.and_eq_true, List.contains_iff_mem] at found
      have holds := List.all_eq_true.mp all c found.1
      rw [Bool.and_eq_true, Bool.not_eq_true', bne_iff_ne] at holds
      exact ⟨c, rest, rfl, holds.1, holds.2⟩
  match pieces with
  | .boundary :: .oneOf chars :: more =>
    rw [matchPieces, Bool.and_eq_true] at found
    exact taken plain found.2
  | .oneOf chars :: more => exact taken plain found

theorem Rule.char_of_matchesAt {library : StandardLibrary} {rule : Rule} (listed : rule ∈ rules)
    {text : List Char} {position : Nat} (found : rule.matchesAt library text position = true) :
    ∃ c, text[position]? = some c ∧ isSpace c = false ∧ c ≠ '/' := by
  obtain ⟨pieces, among, matched⟩ := List.any_eq_true.mp found
  obtain ⟨c, rest, behind, ink, other⟩ := head_of_matchPieces
    (List.all_eq_true.mp (rules_startPlain rule listed) pieces among) matched
  refine ⟨c, ?_, ink, other⟩
  rw [← List.head?_drop, behind]
  rfl

theorem Rule.search_of_matchesAt {library : StandardLibrary} {rule : Rule} (listed : rule ∈ rules)
    {text : List Char} {position : Nat} (found : rule.matchesAt library text position = true) :
    rule.search library text = true := by
  obtain ⟨c, held, -⟩ := rule.char_of_matchesAt listed found
  have inside := (List.getElem?_eq_some_iff.mp held).1
  exact List.any_eq_true.mpr ⟨position, List.mem_range.mpr (by omega), found⟩

/-! ## What the report misses -/

section Report

variable (library : StandardLibrary)

/-- The rule matches in the line at a character that is executable. -/
def MatchesCode (rule : Rule) (marked : List Mark) : Prop :=
  ∃ (position : Nat) (mark : Mark), marked[position]? = some mark ∧ mark.executable = true ∧
    rule.matchesAt library (marked.map Mark.char) position = true

/-- Every executable match of a rule is reported with the file and the line, and rejects. -/
def ReportsAll (files : List ModuleSourceFile) : Prop :=
  ∀ source ∈ files, ∀ (index : Nat) (line : List Mark), (markedLines source)[index]? = some line →
    ∀ rule ∈ rules, MatchesCode library rule line →
      (∃ finding ∈ findingsOf library source, finding.code = rule.code ∧
        finding.path = source.path ∧ finding.line = index + 1 ∧
        finding ∈ (analyzeModuleSources library files).findings) ∧
      (analyzeModuleSources library files).rejected = true

/-- A line that is passed over although it is no comment from its start on: it begins in a block
comment, a string or a template, or it is code that starts with an asterisk. -/
def Exposed (line : List Mark) : Prop :=
  passedOver (line.map Mark.char) = true ∧
    ∃ first ∈ line.head?, first.state.mode ≠ .lineComment ∧
      ¬ (first.state.mode = .code ∧
        ['/', '/'] <+: stripText (line.map Mark.char))

/-- The files with more files among them and more lines within them. -/
def Extends (files more : List ModuleSourceFile) : Prop :=
  ∃ between, List.Forall₂ (fun source source' => source.path = source'.path ∧
      (sourceLines source).Sublist (sourceLines source')) files between ∧ between.Sublist more

/-- A finding without the number of its line. -/
def ModuleFinding.found (finding : ModuleFinding) : String × String × String :=
  (finding.code, finding.path, finding.excerpt)

variable {library}

theorem not_matchesCode_of_not_exposed {source : ModuleSourceFile} {line : List Mark} {rule : Rule}
    (listed : rule ∈ rules) (among : line ∈ markedLines source)
    (passed : passedOver (line.map Mark.char) = true) (hidden : ¬ Exposed line) :
    ¬ MatchesCode library rule line := by
  rintro ⟨position, mark, held, executes, matched⟩
  obtain ⟨scanned, plain⟩ := scanned_of_mem among
  have inside : mark ∈ line := List.mem_of_getElem? held
  obtain ⟨c, stands, ink, other⟩ := rule.char_of_matchesAt listed matched
  rw [List.getElem?_map, held, Option.map_some, Option.some.injEq] at stands
  subst stands
  cases head : line.head? with
  | none =>
    rw [List.head?_eq_none_iff.mp head] at inside
    cases inside
  | some first =>
    by_cases comment : first.state.mode = .lineComment
    · have quiet := scanned.not_executable_of_lineComment plain
        (fun mark found => by rw [head] at found; exact Option.some.inj found ▸ comment) mark
        inside
      rw [quiet] at executes
      cases executes
    · have code : first.state.mode = .code ∧
          ['/', '/'] <+: stripText (line.map Mark.char) := by
        by_contra open_
        exact hidden ⟨passed, first, head, comment, open_⟩
      have slashes : ['/', '/'] <+: (line.map Mark.char).dropWhile isSpace := by
        refine code.2.trans ?_
        rw [stripText, ← List.reverse_suffix, List.reverse_reverse]
        exact List.dropWhile_suffix _
      rcases scanned.not_executable_of_slashes plain
        (fun mark found => by rw [head] at found; exact Option.some.inj found ▸ code.1) slashes
        mark inside executes with blank | slash
      · rw [blank] at ink
        cases ink
      · exact other slash

theorem mem_findingsOf {source : ModuleSourceFile} {finding : ModuleFinding} :
    finding ∈ findingsOf library source ↔
      ∃ index line, (sourceLines source)[index]? = some line ∧
        finding ∈ lineFindings library source.path line (index + 1) := by
  rw [findingsOf, List.mem_flatMap]
  constructor
  · rintro ⟨⟨line, number⟩, among, found⟩
    obtain ⟨index, rfl, held⟩ : ∃ index, number = index + 1 ∧
        (sourceLines source)[index]? = some line := by
      obtain ⟨above, below, held⟩ := List.mem_zipIdx among
      refine ⟨number - 1, by omega, ?_⟩
      rw [held, List.getElem?_eq_getElem]
    exact ⟨index, line, held, found⟩
  · rintro ⟨index, line, held, found⟩
    refine ⟨(line, index + 1), ?_, found⟩
    rw [List.mk_mem_zipIdx_iff_le_and_getElem?_sub]
    exact ⟨by omega, by rw [Nat.add_sub_cancel]; exact held⟩

theorem mem_lineFindings {path : String} {line : List Char} {number : Nat}
    {finding : ModuleFinding} :
    finding ∈ lineFindings library path line number ↔
      passedOver line = false ∧ ∃ rule ∈ rules, rule.search library line = true ∧
        finding = ⟨rule.code, path, number, String.ofList ((stripText line).take 200)⟩ := by
  rw [lineFindings]
  split_ifs with passed
  · simp [passed]
  · rw [List.mem_map]
    simp only [List.mem_filter, and_assoc, Bool.eq_false_of_not_eq_true passed, true_and, eq_comm]

theorem findingsOf_subset {files : List ModuleSourceFile} {source : ModuleSourceFile}
    (among : source ∈ files) :
    findingsOf library source ⊆ (analyzeModuleSources library files).findings :=
  fun _ found => List.mem_flatMap.mpr ⟨source, among, found⟩

theorem reportsAll_iff {files : List ModuleSourceFile} :
    ReportsAll library files ↔
      ∀ source ∈ files, ∀ line ∈ markedLines source, Exposed line →
        ∀ rule ∈ rules, ¬ MatchesCode library rule line := by
  constructor
  · intro reports source among line listed exposed rule known matched
    obtain ⟨index, inside, held⟩ := List.mem_iff_getElem.mp listed
    have at' : (markedLines source)[index]? = some line := by
      rw [List.getElem?_eq_getElem inside, held]
    obtain ⟨⟨finding, found, -, -, numbered, -⟩, -⟩ :=
      reports source among index line at' rule known matched
    obtain ⟨index', line', held', found⟩ := mem_findingsOf.mp found
    obtain ⟨open_, _, -, -, rfl⟩ := mem_lineFindings.mp found
    obtain rfl : index' = index := by simpa using numbered
    rw [← map_char_markedLines, List.getElem?_map, at', Option.map_some,
      Option.some.injEq] at held'
    rw [← held', exposed.1] at open_
    cases open_
  · intro covered source among index line held rule known matched
    have listed : line ∈ markedLines source := List.mem_of_getElem? held
    have read : passedOver (line.map Mark.char) = false := by
      by_contra passed
      rw [Bool.not_eq_false] at passed
      by_cases exposed : Exposed line
      · exact covered source among line listed exposed rule known matched
      · exact not_matchesCode_of_not_exposed known listed passed exposed matched
    obtain ⟨position, mark, -, -, at'⟩ := matched
    have found : (⟨rule.code, source.path, index + 1,
        String.ofList ((stripText (line.map Mark.char)).take 200)⟩ : ModuleFinding) ∈
          findingsOf library source := by
      refine mem_findingsOf.mpr ⟨index, line.map Mark.char, ?_, mem_lineFindings.mpr
        ⟨read, rule, known, rule.search_of_matchesAt known at', rfl⟩⟩
      rw [← map_char_markedLines, List.getElem?_map, held, Option.map_some]
    have reported : _ ∈ (analyzeModuleSources library files).findings :=
      findingsOf_subset among found
    refine ⟨⟨_, found, rfl, rfl, rfl, reported⟩, ?_⟩
    rw [ModuleStaticReport.rejected, decide_eq_true_eq]
    exact List.ne_nil_of_mem reported

variable (library) in
def lineFound (path : String) (line : List Char) : List (String × String × String) :=
  (lineFindings library path line 0).map ModuleFinding.found

theorem found_lineFindings (path : String) (line : List Char) (number : Nat) :
    (lineFindings library path line number).map ModuleFinding.found =
      lineFound library path line := by
  rw [lineFound, lineFindings, lineFindings]
  split_ifs
  · rfl
  · rw [List.map_map, List.map_map]
    rfl

theorem found_findingsOf (source : ModuleSourceFile) :
    (findingsOf library source).map ModuleFinding.found =
      (sourceLines source).flatMap (lineFound library source.path) := by
  rw [findingsOf]
  generalize sourceLines source = lines
  generalize 1 = number
  induction lines generalizing number with
  | nil => rfl
  | cons line rest ih =>
    rw [List.zipIdx_cons, List.flatMap_cons, List.map_append, ih, found_lineFindings,
      List.flatMap_cons]

theorem found_sublist_of_extends {files more : List ModuleSourceFile}
    (extended : Extends files more) :
    ((analyzeModuleSources library files).findings.map ModuleFinding.found).Sublist
      ((analyzeModuleSources library more).findings.map ModuleFinding.found) := by
  obtain ⟨between, lines, sub⟩ := extended
  refine List.Sublist.trans ?_ ((sub.flatMap _).map _)
  clear sub
  induction lines with
  | nil => exact .slnil
  | @cons source source' rest rest' same _ ih =>
    rw [analyzeModuleSources, List.flatMap_cons, List.map_append, List.flatMap_cons,
      List.map_append, found_findingsOf, found_findingsOf, same.1]
    exact List.Sublist.append (same.2.flatMap _) ih

variable (library) in
/-- The report misses nothing executable exactly when no exposed line holds any; and more files
and lines never remove a finding. -/
theorem analyzeModuleSources_reportsAll_iff (files : List ModuleSourceFile) :
    (ReportsAll library files ↔
        ∀ source ∈ files, ∀ line ∈ markedLines source, Exposed line →
          ∀ rule ∈ rules, ¬ MatchesCode library rule line) ∧
      ∀ more, Extends files more →
        ((analyzeModuleSources library files).findings.map ModuleFinding.found).Sublist
            ((analyzeModuleSources library more).findings.map ModuleFinding.found) ∧
          ((analyzeModuleSources library files).rejected = true →
            (analyzeModuleSources library more).rejected = true) := by
  refine ⟨reportsAll_iff, fun more extended => ?_⟩
  have kept : ((analyzeModuleSources library files).findings.map ModuleFinding.found).Sublist
      ((analyzeModuleSources library more).findings.map ModuleFinding.found) :=
    found_sublist_of_extends extended
  refine ⟨kept, fun rejected => ?_⟩
  rw [ModuleStaticReport.rejected, decide_eq_true_eq] at rejected ⊢
  intro none
  rw [none, List.map_nil, List.sublist_nil, List.map_eq_nil_iff] at kept
  exact rejected kept

end Report

/-- The second line is executed, and is taken for the inside of a block comment. -/
def product : ModuleSourceFile := ⟨"index.ts", "2\n* eval(x)"⟩

theorem zeros_length : (List.replicate 64 '0').length = 64 := List.length_replicate

theorem zeros_hexadecimal : (List.replicate 64 '0').all isHexDigit = true := rfl

def asciiLibrary : StandardLibrary :=
  ⟨Char.isAlphanum, fun _ => ⟨List.replicate 64 '0', zeros_length, zeros_hexadecimal⟩⟩

theorem product_not_reported : ¬ ReportsAll asciiLibrary [product] := by
  intro reports
  obtain ⟨⟨finding, found, -⟩, -⟩ := reports product (List.mem_singleton_self product) 1 _ rfl
    ⟨"dynamic_code_evaluation", [callOf "eval"]⟩ (List.mem_cons_self ..)
    ⟨2, _, rfl, by decide, by decide⟩
  have none : findingsOf asciiLibrary product = [] := by decide
  rw [none] at found
  cases found

end SkillMind.Modules
