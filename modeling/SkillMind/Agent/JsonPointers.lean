import SkillMind.Evaluations.Domain
import SkillMind.Library.Association

/-!
# Four readings of a JSON Pointer

A pointer into a JSON value is read in four places: by the checks of a tool sequence, by the
selection of a workspace file, by the read-back of an MCP effect and by the proposals of an
evaluation. Each has its own test for the index of an array.
-/

namespace SkillMind.Agent

open Library SkillMind.Core
open Evaluations (decodePointerToken resolveTokens resolveJsonPointer decimal NoCollision
  taggedSha256_inj)

/-- `(?:/(?:[^~/]|~[01])*)*` behind its first `/`. -/
def pointerBody : List Char → Bool
  | [] => true
  | '~' :: '0' :: rest => pointerBody rest
  | '~' :: '1' :: rest => pointerBody rest
  | '~' :: _ => false
  | _ :: rest => pointerBody rest

/-- `re.fullmatch` of the pattern of a sequence and of a selection. -/
def isPointer : List Char → Bool
  | [] => true
  | '/' :: rest => pointerBody rest
  | _ => false

/-- `re.fullmatch` of `(?:/(?:[^~/]|~[01])*)+`, which a proposed MCP call has to pass. -/
def isReadBackPath (path : List Char) : Bool := path ≠ [] && isPointer path

/-- `text.replace(tilde + digit, by)`. -/
def replaceEscape {α : Type*} [DecidableEq α] (tilde digit by' : α) : List α → List α
  | [] => []
  | [c] => [c]
  | c :: d :: rest =>
    if c = tilde ∧ d = digit then by' :: replaceEscape tilde digit by' rest
    else c :: replaceEscape tilde digit by' (d :: rest)

/-- `raw.replace("~1", "/").replace("~0", "~")`. -/
def unescape (raw : List Char) : List Char :=
  replaceEscape '~' '0' '~' (replaceEscape '~' '1' '/' raw)

/-- `str(key).replace("~", "~0").replace("/", "~1")`. -/
def escapeKey (key : List Char) : List Char :=
  (key.flatMap fun c => if c = '~' then ['~', '0'] else [c]).flatMap fun c =>
    if c = '/' then ['~', '1'] else [c]

/-- `pointer.split("/")[1:] if pointer else ()`. -/
def rawTokens (pointer : List Char) : List (List Char) :=
  if pointer = [] then [] else (pointer.splitOn '/').tail

/-! ## Numbers -/

structure DecimalTable where
  /-- The value of a character of the category Nd. -/
  value : Char → Option Nat
  ascii : ∀ c : Char, c.isDigit = true → value c = some (c.toNat - 0x30)

/-- The digits `int` takes by default. -/
def maxIntDigits : Nat := 4300

variable (table : DecimalTable)

/-- `token.isdecimal()`. -/
def isDecimal (token : List Char) : Bool := token ≠ [] && token.all fun c => (table.value c).isSome

def decimalNumber (token : List Char) : Nat :=
  token.foldl (fun number c => number * 10 + (table.value c).getD 0) 0

/-- `int` of a text of decimal digits, or its `ValueError`. -/
def pyInt (token : List Char) : Option Nat :=
  if maxIntDigits < token.length then none else some (decimalNumber table token)

/-- `re.fullmatch` of `0|[1-9][0-9]*`. -/
def isIndex : List Char → Bool
  | [] => false
  | ['0'] => true
  | c :: rest => c.isDigit && c != '0' && rest.all Char.isDigit

structure SequenceCheck where
  /-- `none`: no text. -/
  pointer : Option String
  equals : Json

/-- The index of an array; `none` where `matches_checks` returns or `int` fails. -/
def sequenceIndex (token : List Char) : Option Nat :=
  if isDecimal table token = false ∨ (token ≠ ['0'] ∧ token.head? = some '0') then none
  else pyInt table token

def sequenceStep (token : List Char) : Json → Option Json
  | .array items => (sequenceIndex table token).bind fun index => items[index]?
  | .object fields => fields.lookup (String.ofList token)
  | _ => none

def sequenceTarget : List (List Char) → Json → Option Json
  | [], target => some target
  | raw :: rest, target =>
    (sequenceStep table (unescape raw) target).bind (sequenceTarget rest)

def matchesChecks (value : Json) (checks : List SequenceCheck) : Bool :=
  checks.all fun check =>
    match check.pointer with
    | none => false
    | some pointer =>
      isPointer pointer.toList &&
        match sequenceTarget table (rawTokens pointer.toList) value with
        | none => false
        | some target => canonicalJson target == canonicalJson check.equals

/-- One round of `_resolve`: outside is the `ValueError` of `int`, inside `_MISSING`. -/
def selectionStep (key : List Char) : Json → Option (Option Json)
  | .object fields => some (fields.lookup (String.ofList key))
  | .array items =>
    if isIndex key = false then some none
    else (pyInt table key).map fun index => items[index]?
  | _ => some none

def resolve : List (List Char) → Json → Option (Option Json)
  | [], value => some (some value)
  | raw :: rest, value =>
    match selectionStep table (unescape raw) value with
    | none => none
    | some none => some none
    | some (some below) => resolve rest below

/-! ## The read-back of an effect -/

inductive Expectation where
  | equals (value : Json)
  | oneOf (values : List Json)

structure ReadBackCheck where
  path : String
  expected : Expectation

structure McpReadBackError where
  code : String
  index : Nat

def Expectation.candidates : Expectation → List Json
  | .equals value => [value]
  | .oneOf values => values

/-- One round of `check_read_back`; `none` is an exception it catches. -/
def readBackStep (key : List Char) : Json → Option Json
  | .array items =>
    if isIndex key = false then none else (pyInt table key).bind fun index => items[index]?
  | .object fields => fields.lookup (String.ofList key)
  | _ => none

def readBackTarget : List (List Char) → Json → Option Json
  | [], value => some value
  | part :: rest, value => (readBackStep table (unescape part) value).bind (readBackTarget rest)

/-- `check["path"][1:].split("/")`. -/
def readBackTokens (path : List Char) : List (List Char) := (path.drop 1).splitOn '/'

def digest (library : StandardLibrary) (value : Json) : String :=
  taggedSha256 library (canonicalJson value)

def checkReadBackFrom (library : StandardLibrary) (result : Json) :
    Nat → List ReadBackCheck → Except McpReadBackError Unit
  | _, [] => .ok ()
  | index, check :: rest =>
    match readBackTarget table (readBackTokens check.path.toList) result with
    | none => .error ⟨"read_back_path_missing", index⟩
    | some value =>
      if check.expected.candidates.any
          fun candidate => digest library value == digest library candidate then
        checkReadBackFrom library result (index + 1) rest
      else .error ⟨"read_back_mismatch", index⟩

def checkReadBack (library : StandardLibrary) (checks : List ReadBackCheck) (result : Json) :
    Except McpReadBackError Unit :=
  checkReadBackFrom table library result 0 checks

/-- Tokens lead from a value down to another.  The mark tells whether an array was entered under
an index that is not in ASCII digits. -/
inductive LeadsTo : Bool → Json → List (List Char) → Json → Prop where
  | here (value : Json) : LeadsTo false value [] value
  | member {abroad : Bool} {fields : List (String × Json)} {key : List Char} {below value : Json}
      {rest : List (List Char)} (held : fields.lookup (String.ofList key) = some below)
      (further : LeadsTo abroad below rest value) :
      LeadsTo abroad (.object fields) (key :: rest) value
  | item {abroad marked : Bool} {items : List Json} {token : List Char} {index : Nat}
      {below value : Json} {rest : List (List Char)} (read : sequenceIndex table token = some index)
      (held : items[index]? = some below) (further : LeadsTo abroad below rest value)
      (mark : marked = (!token.all Char.isDigit || abroad)) :
      LeadsTo marked (.array items) (token :: rest) value

/-- The tokens of a pointer, without escapes. -/
def tokens (pointer : String) : List (List Char) := (rawTokens pointer.toList).map unescape

/-- **Four readings of a pointer agree**: on its form, on whether it names a value and on the
value; and the two that compare accept just the same JSON value. -/
structure PointersAgree (library : StandardLibrary) (document equals : Json) (pointer : String) :
    Prop where
  sameForm : isReadBackPath pointer.toList = isPointer pointer.toList
  formless : isPointer pointer.toList = false →
    (∀ value, resolveJsonPointer document pointer ≠ .ok value) ∧
      matchesChecks table document [⟨some pointer, equals⟩] = false
  sameValue : isPointer pointer.toList = true → ∃ found : Option Json,
    resolve table (rawTokens pointer.toList) document = some found ∧
    sequenceTarget table (rawTokens pointer.toList) document = found ∧
    readBackTarget table (readBackTokens pointer.toList) document = found ∧
    (∀ value, resolveJsonPointer document pointer = .ok value ↔ found = some value) ∧
    (matchesChecks table document [⟨some pointer, equals⟩] = true ↔
      ∃ value, found = some value ∧ value.Same equals) ∧
    (checkReadBack table library [⟨pointer, .equals equals⟩] document = .ok () ↔
      ∃ value, found = some value ∧ value.Same equals)

/-! ## Tokens -/

section Escapes

variable {α : Type*} [DecidableEq α] {tilde digit by' : α}

theorem replaceEscape_cons_cons (c d : α) (rest : List α) :
    replaceEscape tilde digit by' (c :: d :: rest) =
      if c = tilde ∧ d = digit then by' :: replaceEscape tilde digit by' rest
      else c :: replaceEscape tilde digit by' (d :: rest) := rfl

theorem replaceEscape_of_ne {c : α} (plain : c ≠ tilde) (rest : List α) :
    replaceEscape tilde digit by' (c :: rest) = c :: replaceEscape tilde digit by' rest := by
  cases rest with
  | nil => rfl
  | cons d rest => rw [replaceEscape_cons_cons, if_neg fun escape => plain escape.1]

theorem replaceEscape_escape (tilde digit by' : α) (rest : List α) :
    replaceEscape tilde digit by' (tilde :: digit :: rest) =
      by' :: replaceEscape tilde digit by' rest := by
  rw [replaceEscape_cons_cons, if_pos ⟨rfl, rfl⟩]

theorem replaceEscape_other {d : α} (other : d ≠ digit) (plain : d ≠ tilde) (rest : List α) :
    replaceEscape tilde digit by' (tilde :: d :: rest) =
      tilde :: d :: replaceEscape tilde digit by' rest := by
  rw [replaceEscape_cons_cons, if_neg fun escape => other escape.2, replaceEscape_of_ne plain]

theorem length_replaceEscape (tilde digit by' : α) (raw : List α) :
    (replaceEscape tilde digit by' raw).length ≤ raw.length := by
  fun_induction replaceEscape tilde digit by' raw with
  | case1 => exact Nat.le_refl _
  | case2 => exact Nat.le_refl _
  | case3 c d rest escape ih => exact Nat.succ_le_succ (ih.trans (Nat.le_succ _))
  | case4 c d rest other ih => exact Nat.succ_le_succ ih

end Escapes

variable {token : List Char}

theorem decodePointerToken_zero (rest : List Char) : decodePointerToken ('~' :: '0' :: rest) =
    (decodePointerToken rest).bind fun tail => .ok ('~' :: tail) := rfl

theorem decodePointerToken_one (rest : List Char) : decodePointerToken ('~' :: '1' :: rest) =
    (decodePointerToken rest).bind fun tail => .ok ('/' :: tail) := rfl

theorem decodePointerToken_of_ne {c : Char} (plain : c ≠ '~') (rest : List Char) :
    decodePointerToken (c :: rest) =
      (decodePointerToken rest).bind fun tail => .ok (c :: tail) := by
  rw [decodePointerToken]
  · rfl
  all_goals
    intros
    simp_all

theorem not_escape {rest : List Char} (no0 : ∀ tail, rest ≠ '0' :: tail)
    (no1 : ∀ tail, rest ≠ '1' :: tail) : decodePointerToken ('~' :: rest) ≠ .ok token := by
  rw [decodePointerToken]
  · exact fun decoded => nomatch decoded
  · exact no0
  · exact no1

theorem decodePointerToken_eq_ok {raw : List Char}
    (decoded : decodePointerToken raw = .ok token) : unescape raw = token := by
  rw [unescape]
  induction raw using pointerBody.induct generalizing token with
  | case1 =>
    obtain rfl := pure_eq_ok.mp decoded
    rfl
  | case2 rest ih =>
    obtain ⟨tail, read, done⟩ := bind_eq_ok.mp (decodePointerToken_zero rest ▸ decoded)
    obtain rfl := pure_eq_ok.mp done
    rw [replaceEscape_other (by decide) (by decide), replaceEscape_escape, ih read]
  | case3 rest ih =>
    obtain ⟨tail, read, done⟩ := bind_eq_ok.mp (decodePointerToken_one rest ▸ decoded)
    obtain rfl := pure_eq_ok.mp done
    rw [replaceEscape_escape, replaceEscape_of_ne (by decide), ih read]
  | case4 rest no0 no1 => exact absurd decoded (not_escape no0 no1)
  | case5 c rest _ _ plain ih =>
    obtain ⟨tail, read, done⟩ := bind_eq_ok.mp (decodePointerToken_of_ne plain rest ▸ decoded)
    obtain rfl := pure_eq_ok.mp done
    rw [replaceEscape_of_ne plain, replaceEscape_of_ne plain, ih read]

def EscapesOnly (raw : List Char) : Prop := ∃ token, decodePointerToken raw = .ok token

theorem escapesOnly_nil : EscapesOnly [] := ⟨[], rfl⟩

theorem escapesOnly_escape {digit : Char} (escape : digit = '0' ∨ digit = '1') (raw : List Char) :
    EscapesOnly ('~' :: digit :: raw) ↔ EscapesOnly raw := by
  constructor
  · rintro ⟨token, decoded⟩
    rcases escape with rfl | rfl
    · obtain ⟨tail, read, -⟩ := bind_eq_ok.mp (decodePointerToken_zero raw ▸ decoded)
      exact ⟨tail, read⟩
    · obtain ⟨tail, read, -⟩ := bind_eq_ok.mp (decodePointerToken_one raw ▸ decoded)
      exact ⟨tail, read⟩
  · rintro ⟨tail, read⟩
    rcases escape with rfl | rfl
    · exact ⟨_, by rw [decodePointerToken_zero, read]; rfl⟩
    · exact ⟨_, by rw [decodePointerToken_one, read]; rfl⟩

theorem escapesOnly_of_ne {c : Char} (plain : c ≠ '~') (raw : List Char) :
    EscapesOnly (c :: raw) ↔ EscapesOnly raw := by
  constructor
  · rintro ⟨token, decoded⟩
    obtain ⟨tail, read, -⟩ := bind_eq_ok.mp (decodePointerToken_of_ne plain raw ▸ decoded)
    exact ⟨tail, read⟩
  · rintro ⟨tail, read⟩
    exact ⟨_, by rw [decodePointerToken_of_ne plain, read]; rfl⟩

theorem not_escapesOnly {raw : List Char} (no0 : ∀ rest, raw ≠ '0' :: rest)
    (no1 : ∀ rest, raw ≠ '1' :: rest) : ¬ EscapesOnly ('~' :: raw) := fun ⟨_, decoded⟩ =>
  not_escape no0 no1 decoded

section Parts

variable {α : Type*} [DecidableEq α] {separator : α}

theorem splitOn_self (path : List α) :
    (separator :: path).splitOn separator = [] :: path.splitOn separator := by
  rw [List.splitOn_cons_eq_if_modifyHead, if_pos (beq_self_eq_true separator)]

theorem splitOn_cons_of_ne {c : α} (inside : c ≠ separator) (path : List α) :
    ∃ first more, path.splitOn separator = first :: more ∧
      (c :: path).splitOn separator = (c :: first) :: more := by
  obtain ⟨first, more, split⟩ := List.exists_cons_of_ne_nil (List.splitOn_ne_nil separator path)
  refine ⟨first, more, split, ?_⟩
  rw [List.splitOn_cons_eq_if_modifyHead, if_neg (by simpa using inside), split]
  rfl

theorem length_of_mem_splitOn {path raw : List α} (mem : raw ∈ path.splitOn separator) :
    raw.length ≤ path.length := by
  induction path generalizing raw with
  | nil =>
    rw [List.splitOn_nil] at mem
    rw [List.mem_singleton.mp mem]
  | cons c rest ih =>
    by_cases same : c = separator
    · rw [same, splitOn_self] at mem
      rcases List.mem_cons.mp mem with rfl | later
      · exact Nat.zero_le _
      · exact (ih later).trans (Nat.le_succ _)
    · obtain ⟨first, more, split, whole⟩ := splitOn_cons_of_ne same rest
      rw [whole] at mem
      rcases List.mem_cons.mp mem with rfl | later
      · exact Nat.succ_le_succ (ih (split ▸ List.mem_cons_self))
      · exact (ih (split ▸ List.mem_cons_of_mem _ later)).trans (Nat.le_succ _)

end Parts

theorem no_head {c : Char} (inside : c ≠ '/') {path tail : List Char} {more : List (List Char)}
    (none : ∀ rest, path ≠ c :: rest) (split : path.splitOn '/' = (c :: tail) :: more) : False := by
  cases path with
  | nil => cases split
  | cons d rest =>
    by_cases slash : d = '/'
    · rw [slash, splitOn_self] at split
      cases split
    · obtain ⟨first, more', _, whole⟩ := splitOn_cons_of_ne slash rest
      obtain ⟨same, -⟩ := List.cons.inj (whole.symm.trans split)
      obtain ⟨rfl, -⟩ := List.cons.inj same
      exact none rest rfl

theorem pointerBody_iff (path : List Char) :
    pointerBody path = true ↔ ∀ raw ∈ path.splitOn '/', EscapesOnly raw := by
  induction path using pointerBody.induct with
  | case1 => simp [pointerBody, escapesOnly_nil]
  | case2 rest ih =>
    obtain ⟨first, more, split, split'⟩ := splitOn_cons_of_ne (show '0' ≠ '/' by decide) rest
    obtain ⟨first', more', again, whole⟩ :=
      splitOn_cons_of_ne (show '~' ≠ '/' by decide) ('0' :: rest)
    obtain ⟨rfl, rfl⟩ := List.cons.inj (split'.symm.trans again)
    rw [pointerBody, ih, split, whole, List.forall_mem_cons, List.forall_mem_cons,
      escapesOnly_escape (.inl rfl)]
  | case3 rest ih =>
    obtain ⟨first, more, split, split'⟩ := splitOn_cons_of_ne (show '1' ≠ '/' by decide) rest
    obtain ⟨first', more', again, whole⟩ :=
      splitOn_cons_of_ne (show '~' ≠ '/' by decide) ('1' :: rest)
    obtain ⟨rfl, rfl⟩ := List.cons.inj (split'.symm.trans again)
    rw [pointerBody, ih, split, whole, List.forall_mem_cons, List.forall_mem_cons,
      escapesOnly_escape (.inr rfl)]
  | case4 rest no0 no1 =>
    obtain ⟨first, more, split, whole⟩ := splitOn_cons_of_ne (show '~' ≠ '/' by decide) rest
    rw [pointerBody, whole]
    · have bad : ¬ EscapesOnly ('~' :: first) := by
        refine not_escapesOnly (fun tail same => ?_) fun tail same => ?_
        · exact no_head (by decide) no0 (same ▸ split)
        · exact no_head (by decide) no1 (same ▸ split)
      exact iff_of_false Bool.false_ne_true fun all => bad (all _ List.mem_cons_self)
    · exact no0
    · exact no1
  | case5 c rest no0 no1 plain ih =>
    have ne : c ≠ '~' := plain
    have body : pointerBody (c :: rest) = pointerBody rest := by
      rw [pointerBody]
      all_goals
        intros
        simp_all
    rw [body, ih]
    by_cases slash : c = '/'
    · rw [slash, splitOn_self, List.forall_mem_cons]
      exact (and_iff_right escapesOnly_nil).symm
    · obtain ⟨first, more, split, whole⟩ := splitOn_cons_of_ne slash rest
      rw [split, whole, List.forall_mem_cons, List.forall_mem_cons, escapesOnly_of_ne ne]

theorem rawTokens_cons (path : List Char) : rawTokens ('/' :: path) = path.splitOn '/' := by
  rw [rawTokens, if_neg (List.cons_ne_nil _ _), splitOn_self, List.tail_cons]

theorem length_unescape (raw : List Char) : (unescape raw).length ≤ raw.length :=
  (length_replaceEscape _ _ _ _).trans (length_replaceEscape _ _ _ raw)

theorem isIndex_iff (token : List Char) :
    isIndex token = true ↔ token.all Char.isDigit = true ∧ token ≠ [] ∧
      ¬ (1 < token.length ∧ token.head? = some '0') := by
  cases token with
  | nil => simp [isIndex]
  | cons c rest =>
    by_cases zero : c = '0'
    · cases rest with
      | nil => simp [isIndex, zero]
      | cons d rest => simp [isIndex, zero]
    · have body : isIndex (c :: rest) = (c.isDigit && c != '0' && rest.all Char.isDigit) := by
        rw [isIndex]
        intro same
        exact absurd same zero
      rw [body]
      simp [zero]

variable {table}

theorem pyInt_of_digits (digits : token.all Char.isDigit = true)
    (short : token.length ≤ maxIntDigits) : pyInt table token = some (decimal token) := by
  rw [pyInt, if_neg (Nat.not_lt.mpr short), decimalNumber, decimal]
  refine congrArg some ?_
  refine List.foldl_ext _ _ 0 fun number c mem => ?_
  rw [table.ascii c (List.all_eq_true.mp digits c mem), Option.getD_some]

theorem sequenceIndex_of_digits (digits : token.all Char.isDigit = true)
    (short : token.length ≤ maxIntDigits) :
    sequenceIndex table token = if isIndex token = true then some (decimal token) else none := by
  have known : isDecimal table token = decide (token ≠ []) := by
    rw [isDecimal]
    have all : (token.all fun c => (table.value c).isSome) = true := by
      rw [List.all_eq_true] at digits ⊢
      intro c mem
      rw [table.ascii c (digits c mem), Option.isSome_some]
    rw [all, Bool.and_true]
  rw [sequenceIndex, known, pyInt_of_digits digits short]
  by_cases index : isIndex token = true
  · obtain ⟨-, some, plain⟩ := (isIndex_iff token).mp index
    rw [if_pos index, if_neg]
    rintro (empty | ⟨other, zero⟩)
    · exact of_decide_eq_false empty some
    · refine plain ⟨?_, zero⟩
      match token with
      | [] => cases zero
      | [c] => exact absurd (congrArg (fun c => [c]) (Option.some.inj zero)) other
      | _ :: _ :: _ => exact Nat.succ_lt_succ (Nat.succ_pos _)
  · rw [if_neg index, if_pos]
    by_contra neither
    rw [not_or, not_and] at neither
    refine index ((isIndex_iff token).mpr ⟨digits, ?_, ?_⟩)
    · exact of_decide_eq_true (Bool.eq_true_of_not_eq_false neither.1)
    · rintro ⟨long, zero⟩
      refine neither.2 ?_ zero
      rintro rfl
      exact absurd long (by decide)

theorem digit_pos {c : Char} (digit : c.isDigit = true) (other : c ≠ '0') :
    1 ≤ c.toNat - 0x30 := by
  have low : 0x30 ≤ c.toNat := by
    rw [Char.isDigit, Bool.and_eq_true, decide_eq_true_eq] at digit
    exact digit.1
  have differ : c.toNat ≠ 0x30 := fun same => other (Char.toNat_inj.mp same)
  omega

theorem decimal_foldl_le (rest : List Char) (number : Nat) :
    number * 10 ^ rest.length ≤
      rest.foldl (fun number digit => number * 10 + (digit.toNat - 0x30)) number := by
  induction rest generalizing number with
  | nil => exact (Nat.mul_one number).le
  | cons c rest ih =>
    rw [List.foldl_cons, List.length_cons, Nat.pow_succ, Nat.mul_comm _ 10, ← Nat.mul_assoc]
    exact (Nat.mul_le_mul_right _ (Nat.le_add_right _ _)).trans (ih _)

theorem length_of_decimal_lt (index : isIndex token = true) {bound : Nat}
    (below : decimal token < bound) : token.length ≤ (toString bound).length := by
  obtain ⟨digits, some, plain⟩ := (isIndex_iff token).mp index
  obtain ⟨c, rest, rfl⟩ := List.exists_cons_of_ne_nil some
  rw [List.length_cons]
  by_cases single : rest = []
  · rw [single]
    exact Nat.length_repr_pos
  · have long : 0 < rest.length := List.length_pos_of_ne_nil single
    by_contra short
    have few : (toString bound).length ≤ rest.length := by omega
    have small : bound < 10 ^ rest.length := (Nat.length_repr_le_iff long).mp few
    have nonzero : 1 ≤ c.toNat - 0x30 := by
      have digit := List.all_eq_true.mp digits c List.mem_cons_self
      have other : c ≠ '0' := fun zero => plain ⟨Nat.succ_lt_succ long, congrArg Option.some zero⟩
      exact digit_pos digit other
    have large := decimal_foldl_le rest (c.toNat - 0x30)
    have whole : decimal (c :: rest) =
        rest.foldl (fun number digit => number * 10 + (digit.toNat - 0x30)) (c.toNat - 0x30) := by
      rw [decimal, List.foldl_cons, Nat.zero_mul, Nat.zero_add]
    rw [whole] at below
    have least := Nat.mul_le_mul_right (10 ^ rest.length) nonzero
    omega

/-! ## Where the readings lead -/

/-- One step down with ASCII indices. -/
def strictStep (token : List Char) : Json → Option Json
  | .array items => if isIndex token = true then items[decimal token]? else none
  | .object fields => fields.lookup (String.ofList token)
  | _ => none

variable {document : Json}

theorem LeadsTo.unique {abroad abroad' : Bool} {value value' : Json}
    {path : List (List Char)} (first : LeadsTo table abroad document path value)
    (second : LeadsTo table abroad' document path value') : abroad = abroad' ∧ value = value' := by
  induction first generalizing abroad' with
  | here => cases second; exact ⟨rfl, rfl⟩
  | member held further ih =>
    cases second with
    | member held' further' =>
      obtain rfl := Option.some.inj (held.symm.trans held')
      exact ih further'
  | item read held further mark ih =>
    cases second with
    | item read' held' further' mark' =>
      obtain rfl := Option.some.inj (read.symm.trans read')
      obtain rfl := Option.some.inj (held.symm.trans held')
      obtain ⟨rfl, rfl⟩ := ih further'
      exact ⟨mark.trans mark'.symm, rfl⟩

variable {raws : List (List Char)}

theorem sequenceTarget_eq_some {value : Json} :
    sequenceTarget table raws document = some value ↔
      ∃ abroad, LeadsTo table abroad document (raws.map unescape) value := by
  induction raws generalizing document with
  | nil =>
    constructor
    · intro found
      obtain rfl := Option.some.inj found
      exact ⟨false, .here _⟩
    · rintro ⟨abroad, ⟨⟩⟩
      rfl
  | cons raw rest ih =>
    rw [sequenceTarget, Option.bind_eq_some_iff, List.map_cons]
    constructor
    · rintro ⟨below, step, found⟩
      obtain ⟨abroad, further⟩ := ih.mp found
      cases document with
      | array items =>
        obtain ⟨index, read, held⟩ := Option.bind_eq_some_iff.mp step
        exact ⟨_, .item read held further rfl⟩
      | object fields => exact ⟨abroad, .member step further⟩
      | _ => cases step
    · rintro ⟨abroad, leads⟩
      cases leads with
      | member held further => exact ⟨_, held, ih.mpr ⟨_, further⟩⟩
      | item read held further mark =>
        exact ⟨_, Option.bind_eq_some_iff.mpr ⟨_, read, held⟩, ih.mpr ⟨_, further⟩⟩

theorem sequenceIndex_strict {token : List Char} (short : token.length ≤ maxIntDigits)
    {index : Nat} :
    sequenceIndex table token = some index ∧ token.all Char.isDigit = true ↔
      isIndex token = true ∧ decimal token = index := by
  constructor
  · rintro ⟨read, digits⟩
    rw [sequenceIndex_of_digits digits short] at read
    split_ifs at read with plain
    exact ⟨plain, Option.some.inj read⟩
  · rintro ⟨plain, rfl⟩
    have digits := ((isIndex_iff token).mp plain).1
    rw [sequenceIndex_of_digits digits short, if_pos plain]
    exact ⟨rfl, digits⟩

theorem leadsTo_cons (short : token.length ≤ maxIntDigits)
    {rest : List (List Char)} {value : Json} :
    LeadsTo table false document (token :: rest) value ↔
      ∃ below, strictStep token document = some below ∧ LeadsTo table false below rest value := by
  constructor
  · intro leads
    cases leads with
    | member held further => exact ⟨_, held, further⟩
    | item read held further mark =>
      rw [eq_comm, Bool.or_eq_false_iff, Bool.not_eq_false'] at mark
      obtain ⟨digits, rfl⟩ := mark
      obtain ⟨plain, rfl⟩ := (sequenceIndex_strict short).mp ⟨read, digits⟩
      exact ⟨_, (if_pos plain).trans held, further⟩
  · rintro ⟨below, step, further⟩
    cases document with
    | array items =>
      rw [strictStep] at step
      split_ifs at step with plain
      obtain ⟨read, digits⟩ := (@sequenceIndex_strict table token short _).mpr ⟨plain, rfl⟩
      exact .item read step further (by rw [digits]; rfl)
    | object fields => exact .member step further
    | _ => cases step

theorem selectionStep_eq {key : List Char} (short : key.length ≤ maxIntDigits) (value : Json) :
    selectionStep table key value = some (strictStep key value) := by
  cases value with
  | array items =>
    rw [selectionStep, strictStep]
    by_cases plain : isIndex key = true
    · rw [if_neg (by simp [plain]), if_pos plain,
        pyInt_of_digits ((isIndex_iff key).mp plain).1 short]
      rfl
    · rw [if_pos (Bool.eq_false_of_not_eq_true plain), if_neg plain]
  | _ => rfl

theorem readBackStep_eq {key : List Char} (short : key.length ≤ maxIntDigits) (value : Json) :
    readBackStep table key value = strictStep key value := by
  cases value with
  | array items =>
    rw [readBackStep, strictStep]
    by_cases plain : isIndex key = true
    · rw [if_neg (by simp [plain]), if_pos plain,
        pyInt_of_digits ((isIndex_iff key).mp plain).1 short]
      rfl
    · rw [if_pos (Bool.eq_false_of_not_eq_true plain), if_neg plain]
  | _ => rfl

theorem resolve_eq {raws : List (List Char)} (short : ∀ raw ∈ raws, raw.length ≤ maxIntDigits)
    (document : Json) :
    ∃ found, resolve table raws document = some found ∧
      ∀ value, found = some value ↔ LeadsTo table false document (raws.map unescape) value := by
  induction raws generalizing document with
  | nil =>
    refine ⟨some document, rfl, fun value => ?_⟩
    constructor
    · intro found
      obtain rfl := Option.some.inj found
      exact .here _
    · rintro ⟨⟩
      rfl
  | cons raw rest ih =>
    obtain ⟨head, tail⟩ := List.forall_mem_cons.mp short
    have short' := (length_unescape raw).trans head
    simp only [List.map_cons, leadsTo_cons short']
    rw [resolve, selectionStep_eq short']
    cases step : strictStep (unescape raw) document with
    | none =>
      refine ⟨none, rfl, fun value => iff_of_false (Option.some_ne_none value).symm ?_⟩
      rintro ⟨below, same, -⟩
      cases same
    | some below =>
      obtain ⟨found, resolved, leads⟩ := ih tail below
      refine ⟨found, resolved, fun value => (leads value).trans ?_⟩
      constructor
      · exact fun further => ⟨below, rfl, further⟩
      · rintro ⟨below', same, further⟩
        exact Option.some.inj same ▸ further

theorem readBackTarget_eq_some
    (short : ∀ raw ∈ raws, raw.length ≤ maxIntDigits) {value : Json} :
    readBackTarget table raws document = some value ↔
      LeadsTo table false document (raws.map unescape) value := by
  induction raws generalizing document with
  | nil =>
    constructor
    · intro found
      obtain rfl := Option.some.inj found
      exact .here _
    · rintro ⟨⟩
      rfl
  | cons raw rest ih =>
    obtain ⟨head, tail⟩ := List.forall_mem_cons.mp short
    have short' := (length_unescape raw).trans head
    rw [readBackTarget, readBackStep_eq short', Option.bind_eq_some_iff, List.map_cons,
      leadsTo_cons short']
    simp only [ih tail]

theorem lookup_eq_find? {fields : List (String × Json)} {key : String} :
    fields.lookup key = (fields.find? fun field => decide (field.1 = key)).map Prod.snd := by
  induction fields with
  | nil => rfl
  | cons field rest ih =>
    obtain ⟨key', value⟩ := field
    by_cases same : key' = key
    · simp [same]
    · rw [List.find?_cons_of_neg (by rwa [decide_eq_true_eq]), ← ih, List.lookup_cons,
        beq_false_of_ne (Ne.symm same)]

variable {pointer : String}

theorem resolveToken_eq_ok {below : Json} :
    Evaluations.resolveToken pointer token document = .ok below ↔
      strictStep token document = some below := by
  cases document with
  | object fields =>
    rw [Evaluations.resolveToken, orFault_eq_ok, strictStep, lookup_eq_find?]
  | array items =>
    simp only [Evaluations.resolveToken, bind_eq_ok, require_eq_ok, exists_unit, orFault_eq_ok]
    rw [strictStep]
    constructor
    · rintro ⟨index, -, held⟩
      rwa [if_pos ((isIndex_iff token).mpr index)]
    · intro step
      split_ifs at step with plain
      obtain ⟨inside, -⟩ := List.getElem?_eq_some_iff.mp step
      exact ⟨(isIndex_iff token).mp plain, length_of_decimal_lt plain inside, step⟩
  | _ =>
    constructor
    all_goals
      intro found
      cases found

theorem resolveTokens_eq_ok
    (escapes : ∀ raw ∈ raws, EscapesOnly raw)
    (short : ∀ raw ∈ raws, raw.length ≤ maxIntDigits) {value : Json} :
    resolveTokens pointer raws document = .ok value ↔
      LeadsTo table false document (raws.map unescape) value := by
  induction raws generalizing document with
  | nil =>
    rw [resolveTokens, pure_eq_ok]
    constructor
    · rintro rfl
      exact .here _
    · rintro ⟨⟩
      rfl
  | cons raw rest ih =>
    obtain ⟨head, tail⟩ := List.forall_mem_cons.mp short
    obtain ⟨⟨token, decoded⟩, escapes'⟩ := List.forall_mem_cons.mp escapes
    have short' := (length_unescape raw).trans head
    rw [List.map_cons, leadsTo_cons short', decodePointerToken_eq_ok decoded]
    simp only [resolveTokens, bind_eq_ok, decoded, Except.ok.injEq, exists_eq_left',
      resolveToken_eq_ok, ih escapes' tail]

theorem resolveTokens_escapes {value : Json}
    (resolved : resolveTokens pointer raws document = .ok value) :
    ∀ raw ∈ raws, EscapesOnly raw := by
  induction raws generalizing document with
  | nil => exact fun _ mem => nomatch mem
  | cons raw rest ih =>
    simp only [resolveTokens, bind_eq_ok] at resolved
    obtain ⟨token, decoded, below, -, further⟩ := resolved
    exact List.forall_mem_cons.mpr ⟨⟨token, decoded⟩, ih further⟩

theorem LeadsTo.wellFormed {abroad : Bool} {value : Json} {path : List (List Char)}
    (leads : LeadsTo table abroad document path value) (formed : document.wellFormed = true) :
    value.wellFormed = true := by
  induction leads with
  | here => exact formed
  | member held further ih =>
    rw [Json.wellFormed, Bool.and_eq_true] at formed
    exact ih (membersWellFormed_iff.mp formed.2 _ (mem_of_lookup held))
  | item read held further mark ih =>
    exact ih (itemsWellFormed_iff.mp formed _ (List.mem_of_getElem? held))

/-! ## The agreement -/

theorem matchesChecks_iff {equals : Json}
    (form : isPointer pointer.toList = true) (formed : document.wellFormed = true)
    (formed' : equals.wellFormed = true) :
    matchesChecks table document [⟨some pointer, equals⟩] = true ↔
      ∃ value, sequenceTarget table (rawTokens pointer.toList) document = some value ∧
        value.Same equals := by
  simp only [matchesChecks, List.all_cons, List.all_nil, Bool.and_true, form, Bool.true_and]
  cases found : sequenceTarget table (rawTokens pointer.toList) document with
  | none => exact iff_of_false Bool.false_ne_true fun ⟨_, same, _⟩ => by cases same
  | some value =>
    obtain ⟨abroad, leads⟩ := sequenceTarget_eq_some.mp found
    have texts := canonicalJson_eq_iff (leads.wellFormed formed) formed'
    refine beq_iff_eq.trans (texts.trans ?_)
    constructor
    · exact fun same => ⟨value, rfl, same⟩
    · rintro ⟨value', same, alike⟩
      exact Option.some.inj same ▸ alike

theorem checkReadBack_iff {library : StandardLibrary} {equals : Json}
    (short : ∀ raw ∈ readBackTokens pointer.toList, raw.length ≤ maxIntDigits)
    (formed : document.wellFormed = true) (formed' : equals.wellFormed = true)
    (apart : ∀ value, readBackTarget table (readBackTokens pointer.toList) document = some value →
      NoCollision library value equals) :
    checkReadBack table library [⟨pointer, .equals equals⟩] document = .ok () ↔
      ∃ value, readBackTarget table (readBackTokens pointer.toList) document = some value ∧
        value.Same equals := by
  rw [checkReadBack, checkReadBackFrom]
  cases found : readBackTarget table (readBackTokens pointer.toList) document with
  | none => exact iff_of_false (fun same => by cases same) fun ⟨_, same, _⟩ => by cases same
  | some value =>
    have leads := (readBackTarget_eq_some short).mp found
    have texts := canonicalJson_eq_iff (leads.wellFormed formed) formed'
    have digests : digest library value = digest library equals ↔ value.Same equals :=
      ⟨fun same => texts.mp (apart value found (taggedSha256_inj same)),
        fun same => congrArg (taggedSha256 library) (texts.mpr same)⟩
    have one : ((Expectation.equals equals).candidates.any
        fun candidate => digest library value == digest library candidate) = true ↔
          value.Same equals := by
      rw [Expectation.candidates, List.any_cons, List.any_nil, Bool.or_false, beq_iff_eq]
      exact digests
    by_cases same : value.Same equals
    · exact iff_of_true (if_pos (one.mpr same)) ⟨value, rfl, same⟩
    · refine iff_of_false (fun accepted => ?_) fun ⟨_, found', alike⟩ => ?_
      · exact nomatch (if_neg (mt one.mp same)).symm.trans accepted
      · exact same (Option.some.inj found' ▸ alike)

/-- The length every one of the four takes, with the `/` at the front. -/
def maxPointerLength : Nat := 512

theorem exists_body (nonempty : pointer ≠ "")
    (form : isPointer pointer.toList = true) :
    ∃ body, pointer.toList = '/' :: body ∧ pointerBody body = true := by
  cases text : pointer.toList with
  | nil => exact absurd (String.toList_eq_nil_iff.mp text) nonempty
  | cons c body =>
    rw [text] at form
    by_cases slash : c = '/'
    · obtain rfl := slash
      exact ⟨body, rfl, form⟩
    · simp [isPointer, slash] at form

theorem strict_readings {document : Json} {pointer : String} (nonempty : pointer ≠ "")
    (short : pointer.length ≤ maxPointerLength) (form : isPointer pointer.toList = true) :
    ∃ found : Option Json, resolve table (rawTokens pointer.toList) document = some found ∧
      readBackTarget table (readBackTokens pointer.toList) document = found ∧
      (∀ raw ∈ readBackTokens pointer.toList, raw.length ≤ maxIntDigits) ∧
      (∀ value, resolveJsonPointer document pointer = .ok value ↔ found = some value) ∧
      ∀ value, found = some value ↔ LeadsTo table false document (tokens pointer) value := by
  obtain ⟨body, text, escapes⟩ := exists_body nonempty form
  have each := (pointerBody_iff body).mp escapes
  have raws : rawTokens pointer.toList = body.splitOn '/' := by rw [text, rawTokens_cons]
  have parts : readBackTokens pointer.toList = body.splitOn '/' := by
    rw [text, readBackTokens, List.drop_one, List.tail_cons]
  have few : ∀ raw ∈ body.splitOn '/', raw.length ≤ maxIntDigits := by
    intro raw mem
    have inside := length_of_mem_splitOn mem
    have whole : pointer.length = body.length + 1 := by
      rw [← String.length_toList, text, List.length_cons]
    rw [maxPointerLength] at short
    rw [maxIntDigits]
    omega
  obtain ⟨found, resolved, leads⟩ := @resolve_eq table _ few document
  rw [tokens, raws, parts]
  refine ⟨found, resolved, ?_, few, fun value => ?_, leads⟩
  · refine Option.ext fun value => ?_
    rw [readBackTarget_eq_some few, leads]
  · have read : resolveJsonPointer document pointer =
        resolveTokens pointer (body.splitOn '/') document := by
      rw [resolveJsonPointer, text]
      rfl
    rw [read, leads, resolveTokens_eq_ok each few]

/-- **The four readings agree exactly when no array is entered under an index with a decimal digit
beyond ASCII on the way to a value.** -/
theorem pointersAgree_iff {library : StandardLibrary} {document equals : Json} {pointer : String}
    (nonempty : pointer ≠ "") (short : pointer.length ≤ maxPointerLength)
    (formed : document.wellFormed = true) (formed' : equals.wellFormed = true)
    (apart : ∀ value, readBackTarget table (readBackTokens pointer.toList) document = some value →
      NoCollision library value equals) :
    PointersAgree table library document equals pointer ↔
      (isPointer pointer.toList = true →
        ∀ value, ¬ LeadsTo table true document (tokens pointer) value) := by
  constructor
  · intro agree form value abroad
    obtain ⟨found, -, sequence, -, evaluation, -⟩ := agree.sameValue form
    obtain ⟨strict, -, -, -, evaluation', leads⟩ :=
      @strict_readings table document _ nonempty short form
    have target := sequenceTarget_eq_some.mpr ⟨true, abroad⟩
    have reached := (evaluation value).mpr (sequence.symm.trans target)
    exact Bool.false_ne_true (((leads value).mp ((evaluation' value).mp reached)).unique abroad).1
  · intro home
    refine ⟨?_, ?_, ?_⟩
    · rw [isReadBackPath, decide_eq_true (mt String.toList_eq_nil_iff.mp nonempty), Bool.true_and]
    · intro formless
      refine ⟨fun value resolved => ?_, ?_⟩
      · rw [resolveJsonPointer] at resolved
        split at resolved
        · rename_i body text
          have escapes := (pointerBody_iff body).mpr (resolveTokens_escapes resolved)
          rw [text, isPointer, escapes] at formless
          cases formless
        · cases resolved
      · simp only [matchesChecks, List.all_cons, formless, Bool.false_and]
    · intro form
      obtain ⟨found, resolved, readBack, few, evaluation, leads⟩ :=
        @strict_readings table document _ nonempty short form
      have sequence : sequenceTarget table (rawTokens pointer.toList) document = found := by
        refine Option.ext fun value => ?_
        rw [sequenceTarget_eq_some, leads]
        constructor
        · rintro ⟨abroad, reached⟩
          cases abroad with
          | false => exact reached
          | true => exact absurd reached (home form value)
        · exact fun reached => ⟨false, reached⟩
      refine ⟨found, resolved, sequence, readBack, evaluation, ?_, ?_⟩
      · rw [matchesChecks_iff form formed formed', sequence]
      · rw [checkReadBack_iff few formed formed' apart, readBack]

def arabicDigits : DecimalTable where
  value c :=
    if c.isDigit then some (c.toNat - 0x30)
    else if 0x660 ≤ c.toNat ∧ c.toNat ≤ 0x669 then some (c.toNat - 0x660) else none
  ascii _ digit := if_pos digit

/-- A library that knows the digest of the text `3`. -/
def digestOfThree : StandardLibrary where
  isalnum _ := false
  sha256 _ := .ofNat 0x4e07408562bedb8b60ce05c1decfe3ad16b72230967de01f640b7e4729b49fce

def threeNumbers : Json := .array [.number "1", .number "2", .number "3"]

theorem pointersAgree_of_ascii :
    PointersAgree arabicDigits digestOfThree threeNumbers (.number "3") "/2" := by
  refine (pointersAgree_iff (by decide) (by decide) (by decide) (by decide)
    fun value found => ?_).mpr fun _ value leads => ?_
  · have three : readBackTarget arabicDigits (readBackTokens "/2".toList) threeNumbers =
        some (.number "3") := by rfl
    obtain rfl := Option.some.inj (three.symm.trans found)
    exact fun _ => rfl
  · have path : tokens "/2" = [['2']] := by decide
    rw [path, threeNumbers] at leads
    cases leads with
    | item _ _ further mark =>
      cases further
      exact absurd mark (by decide)

/-- A check of a sequence finds the item an Arabic digit names, and no other reading does. -/
theorem pointersAgree_not_arabic :
    ¬ PointersAgree arabicDigits digestOfThree threeNumbers (.number "3") "/٢" ∧
      matchesChecks arabicDigits threeNumbers [⟨some "/٢", .number "3"⟩] = true ∧
      checkReadBack arabicDigits digestOfThree [⟨"/٢", .equals (.number "3")⟩] threeNumbers =
        .error ⟨"read_back_path_missing", 0⟩ := by
  refine ⟨fun agree => ?_, by decide, by rfl⟩
  obtain ⟨found, resolved, sequence, -⟩ := agree.sameValue (by decide)
  have missing : resolve arabicDigits (rawTokens "/٢".toList) threeNumbers = some none := by
    rfl
  have present : sequenceTarget arabicDigits (rawTokens "/٢".toList) threeNumbers =
      some (.number "3") := by rfl
  obtain rfl := Option.some.inj (missing.symm.trans resolved)
  cases present.symm.trans sequence

end SkillMind.Agent
