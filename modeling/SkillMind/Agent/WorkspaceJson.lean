import SkillMind.Agent.JsonPointers
import SkillMind.Agent.WorkspaceReading
import SkillMind.Core.LoadedJson

/-!
# Selections of a JSON file

`select_json` reads a text as JSON and answers with what some pointers name in it, an array page by
page.  The answer is measured by its encoded canonical text, and that is behind the last handler:
what the text holds that cannot be encoded is raised as it is.
-/

namespace SkillMind.Agent

open Library SkillMind.Core
open Evaluations (decimal)

def maxJsonBytes : Nat := 16 * 1024 * 1024
def maxSelectionBytes : Nat := 64 * 1024
def maxJsonNodes : Nat := 1000000
def maxJsonDepth : Nat := 64
def maxSelections : Nat := 50
def maxSelectionPointer : Nat := 2048
def maxArrayLimit : Nat := 200

/-! ## The request -/

/-- `json.loads` without hooks raises one of two classes. -/
inductive LoadFault where
  | valueError
  | recursionError

/-- The `json` module. -/
structure JsonModule where
  loads : PyText → Except LoadFault PyJson
  /-- The nesting `dumps` can write. -/
  nesting : Nat
  nesting_le : 128 ≤ nesting

/-- What is read of the arguments.  An integer came through `int`, so that it can be written. -/
structure JsonArguments where
  /-- `none`: no list; a member that is no text is `none`. -/
  pointers : Option (List (Option PyText))
  /-- `none`: absent. -/
  arrayOffset : Option Argument
  arrayLimit : Option Argument
  /-- `none`: absent or no text. -/
  expectedHash : Option String
  keys : List String

def tilde : CodePoint := CodePoint.ofChar '~'
def zeroPoint : CodePoint := CodePoint.ofChar '0'
def onePoint : CodePoint := CodePoint.ofChar '1'
def slashPoint : CodePoint := CodePoint.ofChar '/'

/-- `(?:/(?:[^~/]|~[01])*)*` behind its first `/`. -/
def pointerPart : PyText → Bool
  | [] => true
  | [c] => decide (c ≠ tilde)
  | c :: d :: rest =>
    if c = tilde then decide (d = zeroPoint ∨ d = onePoint) && pointerPart rest
    else pointerPart (d :: rest)

/-- `_POINTER.fullmatch(pointer)`. -/
def isPointerText : PyText → Bool
  | [] => true
  | c :: rest => decide (c = slashPoint) && pointerPart rest

structure JsonRequest where
  pointers : List PyText
  offset : Nat
  limit : Nat

/-- `type(value) is int`, by a default. -/
def intArgument (preset : Int) : Option Argument → Option Int
  | none => some preset
  | some (.int n) => some n
  | some .other => none

/-- The first condition of `select_json`, for the arguments of the right types. -/
def checkRequest (keys : List String) (pointers : List PyText) (offset limit : Int)
    (hash : String) : Option JsonRequest :=
  if 1 ≤ pointers.length ∧ pointers.length ≤ maxSelections ∧
      (∀ pointer ∈ pointers, pointer.length ≤ maxSelectionPointer ∧ isPointerText pointer = true) ∧
      pointers.Nodup ∧ 0 ≤ offset ∧ 1 ≤ limit ∧ limit ≤ maxArrayLimit ∧
      isTaggedSha256 hash = true ∧
      ∀ key ∈ ["offset", "max_chars", "line_start", "line_end"], key ∉ keys then
    some ⟨pointers, offset.toNat, limit.toNat⟩
  else none

def jsonRequest (arguments : JsonArguments) : Option JsonRequest := do
  let items ← arguments.pointers
  let pointers ← items.mapM id
  let offset ← intArgument 0 arguments.arrayOffset
  let limit ← intArgument 20 arguments.arrayLimit
  let hash ← arguments.expectedHash
  checkRequest arguments.keys pointers offset limit hash

/-- The values directly below a value. -/
def childrenOf : PyJson → List PyJson
  | .array items => items
  | .object fields => fields.map Prod.snd
  | _ => []

/-- The walk of the stack; the first argument is what is left of the nodes. -/
def walk : Nat → List (PyJson × Nat) → Bool
  | _, [] => true
  | 0, _ :: _ => false
  | left + 1, (value, depth) :: stack =>
    if maxJsonDepth < depth then false
    else if value.isFinite = false then false
    else walk left (((childrenOf value).reverse.map fun child => (child, depth + 1)) ++ stack)

inductive SelectFault where
  | tool (error : ToolProviderError)
  | unicodeEncodeError
  | valueError
  | recursionError

def unsupportedJson : SelectFault :=
  .tool (invalidRequest "Workspace file is not supported JSON")

def readSource (json : JsonModule) (text : PyText) : Except SelectFault PyJson :=
  match encodeUtf8 text with
  | none => .error .unicodeEncodeError
  | some data =>
    if maxJsonBytes < data.size then
      .error (.tool ⟨"too_large", "JSON source exceeds its read limit", false⟩)
    else
      match json.loads text with
      | .error _ => .error unsupportedJson
      | .ok source =>
        if source.all PyJson.hooksReturn = true ∧ walk maxJsonNodes [(source, 0)] = true then
          .ok source
        else .error unsupportedJson

/-! ## The selections -/

/-- `raw.replace("~1", "/").replace("~0", "~")`. -/
def unescapePoints (raw : PyText) : PyText :=
  replaceEscape tilde zeroPoint tilde (replaceEscape tilde onePoint slashPoint raw)

/-- `pointer.split("/")[1:] if pointer else ()`. -/
def pointerTokens (pointer : PyText) : List PyText :=
  if pointer = [] then [] else (pointer.splitOn slashPoint).tail

/-- One round of `_resolve`: outside is the `ValueError` of `int`, inside `_MISSING`. -/
def selectStep (key : PyText) : PyJson → Option (Option PyJson)
  | .object fields => some (fields.lookup key)
  | .array items =>
    match toChars? key with
    | none => some none
    | some chars =>
      if isIndex chars = false then some none
      else if maxIntDigits < chars.length then none
      else some items[decimal chars]?
  | _ => some none

/-- `_resolve`. -/
def resolvePointer : List PyText → PyJson → Option (Option PyJson)
  | [], value => some (some value)
  | raw :: rest, value =>
    match selectStep (unescapePoints raw) value with
    | none => none
    | some none => some none
    | some (some below) => resolvePointer rest below

/-- What an entry says of its pointer. -/
inductive Found where
  | missing
  | value (value : PyJson)
  | page (items : List PyJson) (offset : Nat) (nextOffset : Option Nat) (totalItems : Nat)

structure Selection where
  pointer : PyText
  found : Found

def foundOf (offset limit : Nat) : Option PyJson → Found
  | none => .missing
  | some (.array items) =>
    let stop := min items.length (offset + limit)
    .page ((items.take stop).drop offset) offset
      (if stop < items.length then some stop else none) items.length
  | some value => .value value

def number (n : Nat) : PyJson := .number (some (toString n))

/-- An entry of the response. -/
def Selection.toJson (selection : Selection) : PyJson :=
  .object <|
    (pyText "pointer", .string selection.pointer) ::
      match selection.found with
      | .missing => [(pyText "exists", .bool false)]
      | .value value => [(pyText "exists", .bool true), (pyText "value", value)]
      | .page items offset nextOffset totalItems =>
        [(pyText "exists", .bool true), (pyText "value", .array items),
          (pyText "offset", number offset),
          (pyText "next_offset", (nextOffset.map number).getD .null),
          (pyText "total_items", number totalItems)]

def Found.hasMore : Found → Bool
  | .page _ _ (some _) _ => true
  | _ => false

/-- The loop over the pointers. -/
def selectAll (source : PyJson) (request : JsonRequest) : Option (List Selection) :=
  request.pointers.mapM fun pointer =>
    (resolvePointer (pointerTokens pointer) source).map fun target =>
      ⟨pointer, foundOf request.offset request.limit target⟩

/-- `canonical_json`. -/
def dumps (json : JsonModule) (value : PyJson) : Except SelectFault PyText :=
  if value.all PyJson.isFinite = false then .error .valueError
  else if json.nesting < value.height then .error .recursionError
  else .ok value.dumpText

structure JsonResponse where
  selections : List Selection
  truncated : Bool
  warnings : List String

/-- The last lines of `select_json`, from the size of the canonical text on. -/
def measured (selections : List Selection) (canonical : PyText) :
    Except SelectFault JsonResponse :=
  match encodeUtf8 canonical with
  | none => .error .unicodeEncodeError
  | some data =>
    let truncated := selections.any fun selection => selection.found.hasMore
    if maxSelectionBytes < data.size then
      .error (.tool ⟨"too_large",
        "JSON selection is too large; select narrower pointers or array pages", false⟩)
    else
      .ok ⟨selections, truncated, if truncated then ["Selected arrays have more items"] else []⟩

def selectJson (json : JsonModule) (text : PyText) (arguments : JsonArguments) :
    Except SelectFault JsonResponse :=
  match jsonRequest arguments with
  | none => .error (.tool (invalidRequest "JSON selection is invalid"))
  | some request => do
    let source ← readSource json text
    let selections ← orFault .valueError (selectAll source request)
    let canonical ← dumps json (.array (selections.map Selection.toJson))
    measured selections canonical

/-! ## RFC 6901 -/

/-- A raw token is decoded in one pass: `~1` is a slash and `~0` a tilde. -/
inductive Decodes : PyText → PyText → Prop where
  | nil : Decodes [] []
  | tilde {raw token : PyText} (rest : Decodes raw token) :
      Decodes (tilde :: zeroPoint :: raw) (tilde :: token)
  | slash {raw token : PyText} (rest : Decodes raw token) :
      Decodes (tilde :: onePoint :: raw) (slashPoint :: token)
  | plain {c : CodePoint} {raw token : PyText} (other : c ≠ tilde) (inside : c ≠ slashPoint)
      (rest : Decodes raw token) : Decodes (c :: raw) (c :: token)

/-- A pointer is a slash and a raw token, again and again. -/
inductive Reads : PyText → List PyText → Prop where
  | nil : Reads [] []
  | cons {raw token pointer : PyText} {tokens : List PyText} (decoded : Decodes raw token)
      (rest : Reads pointer tokens) : Reads (slashPoint :: (raw ++ pointer)) (token :: tokens)

/-- A token is the index of an item: zero, or digits that do not begin with one. -/
def IsIndexOf (token : PyText) (index : Nat) : Prop :=
  ∃ chars, toChars? token = some chars ∧ isIndex chars = true ∧ decimal chars = index

/-- Tokens name a value of a document. -/
inductive PointsTo : PyJson → List PyText → PyJson → Prop where
  | whole (value : PyJson) : PointsTo value [] value
  | member {fields : List (PyText × PyJson)} {key : PyText} {below value : PyJson}
      {rest : List PyText} (held : (key, below) ∈ fields) (further : PointsTo below rest value) :
      PointsTo (.object fields) (key :: rest) value
  | item {items : List PyJson} {token : PyText} {index : Nat} {below value : PyJson}
      {rest : List PyText} (named : IsIndexOf token index) (held : items[index]? = some below)
      (further : PointsTo below rest value) : PointsTo (.array items) (token :: rest) value

/-- What an entry says is what the tokens name: the page of an array, or the value. -/
def Found.Exact (document : PyJson) (tokens : List PyText) (request : JsonRequest) : Found → Prop
  | .missing => ∀ target, ¬ PointsTo document tokens target
  | .value target => PointsTo document tokens target ∧ ∀ items, target ≠ .array items
  | .page items offset nextOffset totalItems => offset = request.offset ∧
      ∃ whole, PointsTo document tokens (.array whole) ∧ totalItems = whole.length ∧
        items = (whole.drop request.offset).take request.limit ∧
        nextOffset = if request.offset + request.limit < whole.length then
          some (request.offset + request.limit) else none

def referenceTokens (pointer : PyText) : List PyText :=
  (pointerTokens pointer).map unescapePoints

/-- What an entry holds of a value. -/
def pageOf (request : JsonRequest) : PyJson → PyJson
  | .array items => .array ((items.drop request.offset).take request.limit)
  | value => value

def JsonArguments.at (arguments : JsonArguments) (offset : Nat) : JsonArguments :=
  { arguments with arrayOffset := some (.int offset) }

def NextPage (json : JsonModule) (text : PyText) (arguments : JsonArguments) (pointer : PyText)
    (offset next : Nat) : Prop :=
  ∃ response items total, selectJson json text (arguments.at offset) = .ok response ∧
    ⟨pointer, .page items offset (some next) total⟩ ∈ response.selections

/-- The pages of a pointer from an offset on, as `next_offset` is followed. -/
inductive Pages (json : JsonModule) (text : PyText) (arguments : JsonArguments)
    (pointer : PyText) : Nat → List (List PyJson) → Prop where
  | last {offset total : Nat} {items : List PyJson} {response : JsonResponse}
      (selected : selectJson json text (arguments.at offset) = .ok response)
      (entry : ⟨pointer, .page items offset none total⟩ ∈ response.selections) :
      Pages json text arguments pointer offset [items]
  | next {offset next total : Nat} {items : List PyJson} {response : JsonResponse}
      {pages : List (List PyJson)}
      (selected : selectJson json text (arguments.at offset) = .ok response)
      (entry : ⟨pointer, .page items offset (some next) total⟩ ∈ response.selections)
      (rest : Pages json text arguments pointer next pages) :
      Pages json text arguments pointer offset (items :: pages)

/-- A selection is exact, its pages are the array, and nothing but the stable error is raised. -/
structure SelectsExactly (json : JsonModule) (text : PyText) (arguments : JsonArguments) :
    Prop where
  exact : ∀ response, selectJson json text arguments = .ok response →
    ∃ source request, readSource json text = .ok source ∧ jsonRequest arguments = some request ∧
      response.selections.map Selection.pointer = request.pointers ∧
      (∀ selection ∈ response.selections, ∃ tokens, Reads selection.pointer tokens ∧
        selection.found.Exact source tokens request) ∧
      (response.truncated = true ↔ ∃ selection ∈ response.selections, ∃ tokens whole,
        Reads selection.pointer tokens ∧ PointsTo source tokens (.array whole) ∧
          request.offset + request.limit < whole.length)
  whole : ∀ pointer pages, Pages json text arguments pointer 0 pages →
    ∃ source tokens, readSource json text = .ok source ∧ Reads pointer tokens ∧
      PointsTo source tokens (.array pages.flatten)
  ends : ∀ pointer, ¬ ∃ offsets : Nat → Nat, ∀ i,
    NextPage json text arguments pointer (offsets i) (offsets (i + 1))
  complete : ∀ pointer source request whole, jsonRequest (arguments.at 0) = some request →
    pointer ∈ request.pointers → readSource json text = .ok source →
    PointsTo source (referenceTokens pointer) (.array whole) →
    (∀ offset, ∃ response, selectJson json text (arguments.at offset) = .ok response) →
    ∃ pages, Pages json text arguments pointer 0 pages
  raises : ∀ fault, selectJson json text arguments = .error fault → ∃ error, fault = .tool error

theorem tilde_ne_zero : zeroPoint ≠ tilde := by decide

theorem unescapePoints_zero (raw : PyText) :
    unescapePoints (tilde :: zeroPoint :: raw) = tilde :: unescapePoints raw := by
  rw [unescapePoints, replaceEscape_other (by decide) tilde_ne_zero, replaceEscape_escape]
  rfl

theorem unescapePoints_one (raw : PyText) :
    unescapePoints (tilde :: onePoint :: raw) = slashPoint :: unescapePoints raw := by
  rw [unescapePoints, replaceEscape_escape, replaceEscape_of_ne (by decide)]
  rfl

theorem unescapePoints_plain {c : CodePoint} (other : c ≠ tilde) (raw : PyText) :
    unescapePoints (c :: raw) = c :: unescapePoints raw := by
  rw [unescapePoints, replaceEscape_of_ne other, replaceEscape_of_ne other]
  rfl

theorem pointerPart_reads {path : PyText} (matched : pointerPart path = true) :
    ∃ first more rest, path.splitOn slashPoint = first :: more ∧ path = first ++ rest ∧
      Decodes first (unescapePoints first) ∧ Reads rest (more.map unescapePoints) := by
  fun_induction pointerPart path with
  | case1 => exact ⟨[], [], [], rfl, rfl, .nil, .nil⟩
  | case2 c =>
    have other := of_decide_eq_true matched
    by_cases slash : c = slashPoint
    · obtain rfl := slash
      refine ⟨[], [[]], [slashPoint], ?_, rfl, .nil, .cons .nil .nil⟩
      rw [splitOn_self, List.splitOn_nil]
    · obtain ⟨first, more, split, whole⟩ := splitOn_cons_of_ne slash []
      obtain ⟨rfl, rfl⟩ := List.cons.inj ((List.splitOn_nil slashPoint).symm.trans split)
      refine ⟨[c], [], [], whole, rfl, ?_, .nil⟩
      rw [unescapePoints_plain other]
      exact .plain other slash .nil
  | case3 d rest ih =>
    rw [Bool.and_eq_true, decide_eq_true_eq] at matched
    obtain ⟨first, more, tail, split, whole, decoded, reads⟩ := ih matched.2
    have outer : (tilde : CodePoint) ≠ slashPoint := by decide
    have inner : d ≠ slashPoint := by
      rcases matched.1 with rfl | rfl
      · decide
      · decide
    obtain ⟨first', more', split', inside⟩ := splitOn_cons_of_ne inner rest
    obtain ⟨rfl, rfl⟩ := List.cons.inj (split.symm.trans split')
    obtain ⟨first'', more'', split'', around⟩ := splitOn_cons_of_ne outer (d :: rest)
    obtain ⟨rfl, rfl⟩ := List.cons.inj (inside.symm.trans split'')
    refine ⟨_, _, tail, around, by rw [whole]; rfl, ?_, reads⟩
    rcases matched.1 with rfl | rfl
    · rw [unescapePoints_zero]
      exact .tilde decoded
    · rw [unescapePoints_one]
      exact .slash decoded
  | case4 c d rest other ih =>
    obtain ⟨first, more, tail, split, whole, decoded, reads⟩ := ih matched
    by_cases slash : c = slashPoint
    · obtain rfl := slash
      refine ⟨[], first :: more, slashPoint :: (d :: rest), ?_, rfl, .nil, ?_⟩
      · rw [splitOn_self, split]
      · rw [whole, List.map_cons]
        exact .cons decoded reads
    · obtain ⟨first', more', split', around⟩ := splitOn_cons_of_ne slash (d :: rest)
      obtain ⟨rfl, rfl⟩ := List.cons.inj (split.symm.trans split')
      refine ⟨_, _, tail, around, by rw [whole]; rfl, ?_, reads⟩
      rw [unescapePoints_plain other]
      exact .plain other slash decoded

theorem Decodes.no_slash {raw token : PyText} (decoded : Decodes raw token) :
    ∀ c ∈ raw, c ≠ slashPoint := by
  induction decoded with
  | nil => exact fun _ mem => nomatch mem
  | tilde _ ih =>
    exact List.forall_mem_cons.mpr ⟨by decide, List.forall_mem_cons.mpr ⟨by decide, ih⟩⟩
  | slash _ ih =>
    exact List.forall_mem_cons.mpr ⟨by decide, List.forall_mem_cons.mpr ⟨by decide, ih⟩⟩
  | plain _ inside _ ih => exact List.forall_mem_cons.mpr ⟨inside, ih⟩

theorem Decodes.unique {raw token token' : PyText} (first : Decodes raw token)
    (second : Decodes raw token') : token = token' := by
  induction first generalizing token' with
  | nil =>
    cases second
    rfl
  | tilde _ ih =>
    cases second with
    | tilde rest => rw [ih rest]
    | plain other _ _ => exact absurd rfl other
  | slash _ ih =>
    cases second with
    | slash rest => rw [ih rest]
    | plain other _ _ => exact absurd rfl other
  | plain other _ _ ih =>
    cases second with
    | tilde rest => exact absurd rfl other
    | slash rest => exact absurd rfl other
    | plain _ _ rest => rw [ih rest]

variable {pointer : PyText} {tokens : List PyText}

theorem takeWhile_reads {raw token : PyText}
    (decoded : Decodes raw token) (rest : Reads pointer tokens) :
    (raw ++ pointer).takeWhile (fun c => decide (c ≠ slashPoint)) = raw := by
  rw [List.takeWhile_append_of_pos fun c mem => decide_eq_true (decoded.no_slash c mem)]
  cases rest with
  | nil => rw [List.takeWhile_nil, List.append_nil]
  | cons _ _ =>
    rw [List.takeWhile_cons_of_neg (by simp), List.append_nil]

theorem Reads.unique {pointer' : PyText} {tokens' : List PyText}
    (first : Reads pointer tokens) (second : Reads pointer' tokens') (same : pointer = pointer') :
    tokens = tokens' := by
  induction first generalizing pointer' tokens' with
  | nil =>
    cases second with
    | nil => rfl
    | cons _ _ => cases same
  | cons decoded rest ih =>
    cases second with
    | nil => cases same
    | cons decoded' rest' =>
      have bodies := (List.cons.inj same).2
      have raws := congrArg (List.takeWhile fun c => decide (c ≠ slashPoint)) bodies
      rw [takeWhile_reads decoded rest, takeWhile_reads decoded' rest'] at raws
      obtain rfl := raws
      rw [decoded.unique decoded', ih rest' (List.append_cancel_left bodies)]

theorem reads_of_isPointerText (matched : isPointerText pointer = true) :
    Reads pointer (referenceTokens pointer) := by
  rw [referenceTokens]
  cases pointer with
  | nil => exact .nil
  | cons c path =>
    rw [isPointerText, Bool.and_eq_true, decide_eq_true_eq] at matched
    obtain ⟨rfl, matched⟩ := matched
    obtain ⟨first, more, rest, split, whole, decoded, reads⟩ := pointerPart_reads matched
    rw [pointerTokens, if_neg (List.cons_ne_nil _ _), splitOn_self, List.tail_cons, split, whole,
      List.map_cons]
    exact .cons decoded reads

/-! ## Values a pointer names -/

theorem PointsTo.all {test : PyJson → Bool} {document value : PyJson}
    (named : PointsTo document tokens value) (each : document.all test = true) :
    value.all test = true := by
  induction named with
  | whole => exact each
  | member held further ih =>
    rw [PyJson.all, Bool.and_eq_true] at each
    exact ih (PyJson.allFields_iff.mp each.2 _ held)
  | item named held further ih =>
    rw [PyJson.all, Bool.and_eq_true] at each
    exact ih (PyJson.allItems_iff.mp each.2 _ (List.mem_of_getElem? held))

theorem PointsTo.height_le {document value : PyJson}
    (named : PointsTo document tokens value) : value.height ≤ document.height := by
  induction named with
  | whole => exact Nat.le_refl _
  | member held further ih =>
    rw [PyJson.height]
    exact (ih.trans (PyJson.heightFields_le.mp (Nat.le_refl _) _ held)).trans (Nat.le_succ _)
  | item named held further ih =>
    rw [PyJson.height]
    exact (ih.trans (PyJson.heightItems_le.mp (Nat.le_refl _) _
      (List.mem_of_getElem? held))).trans (Nat.le_succ _)

theorem IsIndexOf.unique {token : PyText} {index index' : Nat} (first : IsIndexOf token index)
    (second : IsIndexOf token index') : index = index' := by
  obtain ⟨chars, read, -, rfl⟩ := first
  obtain ⟨chars', read', -, rfl⟩ := second
  rw [Option.some.inj (read.symm.trans read')]

theorem PointsTo.unique {document value value' : PyJson}
    (distinct : document.all PyJson.hooksReturn = true) (first : PointsTo document tokens value)
    (second : PointsTo document tokens value') : value = value' := by
  induction first with
  | whole =>
    cases second
    rfl
  | member held further ih =>
    cases second with
    | member held' further' =>
      rw [PyJson.all, Bool.and_eq_true] at distinct
      have keys := of_decide_eq_true distinct.1
      have looked := lookup_of_distinct keys held
      have looked' := lookup_of_distinct keys held'
      obtain rfl := Option.some.inj (looked.symm.trans looked')
      exact ih (PyJson.allFields_iff.mp distinct.2 _ held) further'
  | item named held further ih =>
    cases second with
    | item named' held' further' =>
      rw [PyJson.all, Bool.and_eq_true] at distinct
      obtain rfl := named.unique named'
      obtain rfl := Option.some.inj (held.symm.trans held')
      exact ih (PyJson.allItems_iff.mp distinct.2 _ (List.mem_of_getElem? held)) further'

variable {text : PyText}

theorem length_toChars? {chars : List Char} (read : toChars? text = some chars) :
    chars.length = text.length := by
  rw [toChars?] at read
  induction text generalizing chars with
  | nil =>
    obtain rfl := Option.some.inj read
    rfl
  | cons point rest ih =>
    rw [List.mapM_cons] at read
    obtain ⟨c, -, read⟩ := Option.bind_eq_some_iff.mp read
    obtain ⟨tail, rest', read⟩ := Option.bind_eq_some_iff.mp read
    obtain rfl := Option.some.inj read
    exact congrArg Nat.succ (ih rest')

theorem pointsTo_iff_of_unnamed {key : PyText} {items : List PyJson}
    (unnamed : ∀ index, ¬ IsIndexOf key index) (rest : List PyText) (value : PyJson) :
    PointsTo (.array items) (key :: rest) value ↔
      ∃ below, (none : Option PyJson) = some below ∧ PointsTo below rest value := by
  constructor
  · intro named
    cases named with
    | item named held further => exact absurd named (unnamed _)
  · rintro ⟨below, ⟨⟩, -⟩

theorem selectStep_eq {key : PyText} (short : key.length ≤ maxIntDigits) {document : PyJson}
    (distinct : document.all PyJson.hooksReturn = true) :
    ∃ found, selectStep key document = some found ∧ ∀ rest value,
      PointsTo document (key :: rest) value ↔
        ∃ below, found = some below ∧ PointsTo below rest value := by
  cases document with
  | object fields =>
    rw [PyJson.all, Bool.and_eq_true] at distinct
    have keys := of_decide_eq_true distinct.1
    refine ⟨fields.lookup key, rfl, fun rest value => ?_⟩
    constructor
    · intro named
      cases named with
      | member held further => exact ⟨_, lookup_of_distinct keys held, further⟩
    · rintro ⟨below, looked, further⟩
      exact .member (mem_of_lookup looked) further
  | array items =>
    cases read : toChars? key with
    | none =>
      have unnamed : ∀ index, ¬ IsIndexOf key index := by
        rintro index ⟨chars, read', -⟩
        cases read.symm.trans read'
      exact ⟨none, by rw [selectStep, read], pointsTo_iff_of_unnamed unnamed⟩
    | some chars =>
      have few : ¬ maxIntDigits < chars.length := by
        rw [length_toChars? read]
        exact Nat.not_lt.mpr short
      by_cases plain : isIndex chars = true
      · refine ⟨items[decimal chars]?, ?_, fun rest value => ?_⟩
        · rw [selectStep, read]
          dsimp only
          rw [if_neg (by simp [plain]), if_neg few]
        · constructor
          · intro named
            cases named with
            | item named held further =>
              obtain ⟨chars', read', -, rfl⟩ := named
              obtain rfl := Option.some.inj (read.symm.trans read')
              exact ⟨_, held, further⟩
          · rintro ⟨below, held, further⟩
            exact .item ⟨chars, read, plain, rfl⟩ held further
      · have unnamed : ∀ index, ¬ IsIndexOf key index := by
          rintro index ⟨chars', read', plain', -⟩
          obtain rfl := Option.some.inj (read.symm.trans read')
          exact absurd plain' plain
        refine ⟨none, ?_, pointsTo_iff_of_unnamed unnamed⟩
        rw [selectStep, read]
        exact if_pos (Bool.eq_false_of_not_eq_true plain)
  | _ =>
    refine ⟨none, rfl, fun rest value => ?_⟩
    constructor
    · intro named
      cases named
    · rintro ⟨below, ⟨⟩, -⟩

/-- **`_resolve` evaluates its tokens as RFC 6901 says, and `int` does not fail.** -/
theorem resolvePointer_eq {raws : List PyText} (short : ∀ raw ∈ raws, raw.length ≤ maxIntDigits)
    {document : PyJson} (distinct : document.all PyJson.hooksReturn = true) :
    ∃ found, resolvePointer raws document = some found ∧
      ∀ value, found = some value ↔ PointsTo document (raws.map unescapePoints) value := by
  induction raws generalizing document with
  | nil =>
    refine ⟨some document, rfl, fun value => ?_⟩
    constructor
    · rintro ⟨⟩
      exact .whole _
    · rintro ⟨⟩
      rfl
  | cons raw rest ih =>
    obtain ⟨head, tail⟩ := List.forall_mem_cons.mp short
    have short' : (unescapePoints raw).length ≤ maxIntDigits :=
      ((length_replaceEscape _ _ _ _).trans (length_replaceEscape _ _ _ raw)).trans head
    obtain ⟨step, stepped, names⟩ := selectStep_eq short' distinct
    rw [resolvePointer, stepped]
    simp only [List.map_cons, names]
    cases step with
    | none =>
      refine ⟨none, rfl, fun value => ?_⟩
      constructor
      · rintro ⟨⟩
      · rintro ⟨below, ⟨⟩, -⟩
    | some below =>
      have named : PointsTo document [unescapePoints raw] below :=
        (names [] below).mpr ⟨below, rfl, .whole below⟩
      obtain ⟨found, resolved, leads⟩ := ih tail (named.all distinct)
      refine ⟨found, resolved, fun value => (leads value).trans ?_⟩
      constructor
      · exact fun further => ⟨below, rfl, further⟩
      · rintro ⟨below', ⟨⟩, further⟩
        exact further

theorem foundOf_exact {document : PyJson} {tokens : List PyText} {request : JsonRequest}
    {target : Option PyJson}
    (names : ∀ value, target = some value ↔ PointsTo document tokens value) :
    (foundOf request.offset request.limit target).Exact document tokens request := by
  cases target with
  | none => exact fun value named => nomatch (names value).mpr named
  | some value =>
    have named := (names value).mp rfl
    cases value with
    | array items =>
      refine ⟨rfl, items, named, rfl, ?_, ?_⟩
      · rw [List.drop_take, List.take_eq_take_iff, List.length_drop]
        omega
      · by_cases more : request.offset + request.limit < items.length
        · rw [if_pos more, min_eq_right more.le, if_pos more]
        · rw [if_neg more, min_eq_left (Nat.not_lt.mp more), if_neg (Nat.lt_irrefl _)]
    | _ => exact ⟨named, fun items same => by cases same⟩

theorem walk_sound {left : Nat} {stack : List (PyJson × Nat)} (walked : walk left stack = true) :
    ∀ entry ∈ stack, entry.1.all PyJson.isFinite = true ∧
      entry.2 + entry.1.height ≤ maxJsonDepth + 1 := by
  fun_induction walk left stack with
  | case1 => exact fun _ mem => nomatch mem
  | case2 => cases walked
  | case3 => cases walked
  | case4 => cases walked
  | case5 left value depth stack shallow finite ih =>
    have behind := ih walked
    rw [List.forall_mem_cons]
    refine ⟨?_, fun entry mem => behind entry (List.mem_append_right _ mem)⟩
    have inside : ∀ child ∈ childrenOf value, child.all PyJson.isFinite = true ∧
        depth + 1 + child.height ≤ maxJsonDepth + 1 := by
      intro child mem
      exact behind (child, depth + 1) (List.mem_append_left _
        (List.mem_map.mpr ⟨child, List.mem_reverse.mpr mem, rfl⟩))
    have finite' := Bool.eq_true_of_not_eq_false finite
    cases value with
    | array items =>
      have each : PyJson.allItems PyJson.isFinite items = true :=
        PyJson.allItems_iff.mpr fun item mem => (inside item mem).1
      have low : PyJson.heightItems items ≤ maxJsonDepth - depth :=
        PyJson.heightItems_le.mpr fun item mem => by
          have bound := (inside item mem).2
          omega
      rw [PyJson.all, PyJson.height, finite', each]
      refine ⟨rfl, ?_⟩
      show depth + (PyJson.heightItems items + 1) ≤ maxJsonDepth + 1
      omega
    | object fields =>
      have each : PyJson.allFields PyJson.isFinite fields = true :=
        PyJson.allFields_iff.mpr fun field mem => (inside field.2 (List.mem_map_of_mem mem)).1
      have low : PyJson.heightFields fields ≤ maxJsonDepth - depth :=
        PyJson.heightFields_le.mpr fun field mem => by
          have bound := (inside field.2 (List.mem_map_of_mem mem)).2
          omega
      rw [PyJson.all, PyJson.height, finite', each]
      refine ⟨rfl, ?_⟩
      show depth + (PyJson.heightFields fields + 1) ≤ maxJsonDepth + 1
      omega
    | _ =>
      refine ⟨finite', ?_⟩
      show depth + 0 ≤ maxJsonDepth + 1
      omega

/-- What a source that was read is. -/
structure Supported (source : PyJson) : Prop where
  distinct : source.all PyJson.hooksReturn = true
  finite : source.all PyJson.isFinite = true
  shallow : source.height ≤ maxJsonDepth + 1

variable {json : JsonModule} {source : PyJson}

theorem readSource_eq_ok
    (read : readSource json text = .ok source) : Supported source := by
  rw [readSource] at read
  split at read
  · cases read
  · split_ifs at read
    split at read
    · cases read
    · split_ifs at read with fine
      obtain rfl := Except.ok.inj read
      obtain ⟨finite, shallow⟩ := walk_sound fine.2 _ List.mem_cons_self
      exact ⟨fine.1, finite, by simpa using shallow⟩

variable {request : JsonRequest}

theorem checkRequest_eq_some {keys : List String} {pointers : List PyText} {offset limit : Int}
    {hash : String}
    (checked : checkRequest keys pointers offset limit hash = some request) :
    ((∀ pointer ∈ request.pointers,
      pointer.length ≤ maxSelectionPointer ∧ isPointerText pointer = true) ∧ 1 ≤ request.limit) ∧
      request.offset = offset.toNat ∧ ∀ n : Nat, checkRequest keys pointers n limit hash =
        some { request with offset := n } := by
  rw [checkRequest] at checked
  split_ifs at checked with fine
  obtain rfl := Option.some.inj checked
  obtain ⟨some, few, form, distinct, -, positive, rest⟩ := fine
  refine ⟨⟨form, ?_⟩, rfl, fun n => ?_⟩
  · dsimp only
    omega
  · rw [checkRequest, if_pos ⟨some, few, form, distinct, Int.natCast_nonneg n, positive, rest⟩,
      Int.toNat_natCast]

variable {arguments : JsonArguments}

theorem jsonRequest_eq_some
    (checked : jsonRequest arguments = some request) :
    (∀ pointer ∈ request.pointers,
      pointer.length ≤ maxSelectionPointer ∧ isPointerText pointer = true) ∧ 1 ≤ request.limit := by
  simp only [jsonRequest, Option.bind_eq_bind, Option.bind_eq_some_iff] at checked
  obtain ⟨items, -, pointers, -, offset, -, limit, -, hash, -, checked⟩ := checked
  exact (checkRequest_eq_some checked).1

theorem jsonRequest_at {offset : Nat}
    (checked : jsonRequest (arguments.at offset) = some request) :
    request.offset = offset ∧
      ∀ n, jsonRequest (arguments.at n) = some { request with offset := n } := by
  simp only [jsonRequest, Option.bind_eq_bind, Option.bind_eq_some_iff] at checked ⊢
  obtain ⟨items, listed, pointers, texts, n, read, limit, limited, hash, hashed, checked⟩ := checked
  obtain rfl := Option.some.inj read
  obtain ⟨-, offset_eq, other⟩ := checkRequest_eq_some checked
  refine ⟨offset_eq, fun n => ?_⟩
  exact ⟨items, listed, pointers, texts, n, rfl, limit, limited, hash, hashed, other n⟩

theorem selectAll_eq (supported : Supported source)
    (form : ∀ pointer ∈ request.pointers,
      pointer.length ≤ maxSelectionPointer ∧ isPointerText pointer = true) :
    ∃ selections, selectAll source request = some selections ∧
      selections.map Selection.pointer = request.pointers ∧
      ∀ selection ∈ selections, ∃ target,
        selection.found = foundOf request.offset request.limit target ∧
        ∀ value, target = some value ↔
          PointsTo source (referenceTokens selection.pointer) value := by
  rw [selectAll]
  generalize request.pointers = pointers at form
  induction pointers with
  | nil => exact ⟨[], rfl, rfl, fun _ mem => nomatch mem⟩
  | cons pointer rest ih =>
    obtain ⟨⟨short, matched⟩, later⟩ := List.forall_mem_cons.mp form
    obtain ⟨selections, selected, pointers, exact⟩ := ih later
    have few : ∀ raw ∈ pointerTokens pointer, raw.length ≤ maxIntDigits := by
      intro raw mem
      rw [pointerTokens] at mem
      split_ifs at mem
      · cases mem
      · have inside := length_of_mem_splitOn (List.mem_of_mem_tail mem)
        rw [maxSelectionPointer] at short
        rw [maxIntDigits]
        omega
    obtain ⟨target, resolved, names⟩ := resolvePointer_eq few supported.distinct
    refine ⟨⟨pointer, foundOf request.offset request.limit target⟩ :: selections, ?_, ?_, ?_⟩
    · rw [List.mapM_cons, resolved, selected]
      rfl
    · rw [List.map_cons, pointers]
    · exact List.forall_mem_cons.mpr ⟨⟨target, rfl, names⟩, exact⟩

/-- An entry passes a test of the nodes when its value or page does. -/
def Found.all (test : PyJson → Bool) : Found → Bool
  | .missing => true
  | .value target => target.all test
  | .page items _ _ _ => PyJson.allItems test items

theorem foundOf_all {test : PyJson → Bool} {target : Option PyJson}
    (array : ∀ items, test (.array items) = true) :
    (foundOf request.offset request.limit target).all test = true ↔
      ∀ value, target = some value → (pageOf request value).all test = true := by
  have one : ∀ value, (foundOf request.offset request.limit (some value)).all test =
      (pageOf request value).all test := by
    intro value
    cases value with
    | array items =>
      have page : (items.take (min items.length (request.offset + request.limit))).drop
          request.offset = (items.drop request.offset).take request.limit := by
        rw [List.drop_take, List.take_eq_take_iff, List.length_drop]
        omega
      rw [foundOf, Found.all, pageOf, PyJson.all, array, Bool.true_and, page]
    | _ => rfl
  cases target with
  | none => exact iff_of_true rfl fun value same => by cases same
  | some value => simp only [one, Option.some.injEq, forall_eq']

theorem foundOf_height {target : Option PyJson} {bound : Nat}
    (low : ∀ value, target = some value → value.height ≤ bound + 1) (pointer : PyText) :
    (Selection.mk pointer (foundOf request.offset request.limit target)).toJson.height ≤
      bound + 2 := by
  cases target with
  | none => simp [foundOf, Selection.toJson, PyJson.height, PyJson.heightFields]
  | some value =>
    have low' := low value rfl
    cases value with
    | array items =>
      rw [PyJson.height] at low'
      have page : PyJson.heightItems
          ((items.take (min items.length (request.offset + request.limit))).drop request.offset) ≤
            bound :=
        PyJson.heightItems_le.mpr fun item mem => PyJson.heightItems_le.mp
          (Nat.le_of_succ_le_succ low') item (List.mem_of_mem_take (List.mem_of_mem_drop mem))
      have next : ∀ n : Option Nat, ((n.map number).getD PyJson.null).height = 0 := by
        rintro (_ | n)
        · rfl
        · rfl
      simp only [foundOf, Selection.toJson, PyJson.height, PyJson.heightFields, number, next]
      omega
    | _ =>
      simp only [foundOf, Selection.toJson, PyJson.height, PyJson.heightFields] at low' ⊢
      omega

theorem toJson_isFinite (selection : Selection) :
    selection.toJson.all PyJson.isFinite = selection.found.all PyJson.isFinite := by
  obtain ⟨pointer, found⟩ := selection
  cases found with
  | missing => rfl
  | value target =>
    simp [Selection.toJson, Found.all, PyJson.all, PyJson.allFields, PyJson.isFinite]
  | page items offset nextOffset totalItems =>
    cases nextOffset with
    | none =>
      simp [Selection.toJson, Found.all, PyJson.all, PyJson.allFields, PyJson.isFinite, number]
    | some next =>
      simp [Selection.toJson, Found.all, PyJson.all, PyJson.allFields, PyJson.isFinite, number]

theorem toJson_isScalar (selection : Selection) :
    selection.toJson.all PyJson.isScalar =
      (!PyJson.hasSurrogate selection.pointer && selection.found.all PyJson.isScalar) := by
  obtain ⟨pointer, found⟩ := selection
  cases found with
  | missing =>
    simp [Selection.toJson, Found.all, PyJson.all, PyJson.allFields, PyJson.isScalar,
      PyJson.hasSurrogate_pyText]
  | value target =>
    simp [Selection.toJson, Found.all, PyJson.all, PyJson.allFields, PyJson.isScalar,
      PyJson.hasSurrogate_pyText]
  | page items offset nextOffset totalItems =>
    cases nextOffset with
    | none =>
      simp [Selection.toJson, Found.all, PyJson.all, PyJson.allFields, PyJson.isScalar, number,
        PyJson.hasSurrogate_pyText]
    | some next =>
      simp [Selection.toJson, Found.all, PyJson.all, PyJson.allFields, PyJson.isScalar, number,
        PyJson.hasSurrogate_pyText]

/-! ## The outcome -/

/-- An entry says what its tokens name. -/
structure Selection.Names (source : PyJson) (request : JsonRequest) (selection : Selection)
    (target : Option PyJson) : Prop where
  reads : Reads selection.pointer (referenceTokens selection.pointer)
  found : selection.found = foundOf request.offset request.limit target
  names : ∀ value, target = some value ↔
    PointsTo source (referenceTokens selection.pointer) value

theorem dumps_selections
    {selections : List Selection} (supported : Supported source)
    (entries : ∀ selection ∈ selections, ∃ target, selection.Names source request target) :
    dumps json (.array (selections.map Selection.toJson)) =
      .ok (PyJson.dumpText (.array (selections.map Selection.toJson))) := by
  have finite : (PyJson.array (selections.map Selection.toJson)).all PyJson.isFinite = true := by
    rw [PyJson.all, Bool.and_eq_true, PyJson.allItems_iff]
    refine ⟨rfl, fun item mem => ?_⟩
    obtain ⟨selection, among, rfl⟩ := List.mem_map.mp mem
    obtain ⟨target, entry⟩ := entries selection among
    rw [toJson_isFinite, entry.found, foundOf_all fun _ => rfl]
    intro value same
    have inside := ((entry.names value).mp same).all supported.finite
    cases value with
    | array items =>
      rw [PyJson.all, Bool.and_eq_true, PyJson.allItems_iff] at inside
      rw [pageOf, PyJson.all, Bool.and_eq_true, PyJson.allItems_iff]
      exact ⟨rfl, fun item mem => inside.2 item (List.mem_of_mem_drop (List.mem_of_mem_take mem))⟩
    | _ => exact inside
  have low : (PyJson.array (selections.map Selection.toJson)).height ≤ maxJsonDepth + 3 := by
    rw [PyJson.height]
    refine Nat.succ_le_succ (PyJson.heightItems_le.mpr fun item mem => ?_)
    obtain ⟨⟨pointer, found⟩, among, rfl⟩ := List.mem_map.mp mem
    obtain ⟨target, entry⟩ := entries _ among
    obtain rfl := entry.found
    exact foundOf_height (fun value same =>
      ((entry.names value).mp same).height_le.trans supported.shallow) pointer
  have room := json.nesting_le
  rw [dumps, if_neg (by simp [finite]), if_neg]
  rw [maxJsonDepth] at low
  omega

theorem selectJson_eq {json : JsonModule} {text : PyText} {arguments : JsonArguments}
    {request : JsonRequest} {source : PyJson} (checked : jsonRequest arguments = some request)
    (read : readSource json text = .ok source) :
    ∃ selections, selections.map Selection.pointer = request.pointers ∧
      (∀ selection ∈ selections, ∃ target, selection.Names source request target) ∧
      selectJson json text arguments =
        measured selections (PyJson.dumpText (.array (selections.map Selection.toJson))) := by
  have supported := readSource_eq_ok read
  have form := (jsonRequest_eq_some checked).1
  obtain ⟨selections, selected, pointers, exact⟩ := selectAll_eq supported form
  have entries : ∀ selection ∈ selections, ∃ target, selection.Names source request target := by
    intro selection mem
    obtain ⟨target, found, names⟩ := exact selection mem
    have asked : selection.pointer ∈ request.pointers := pointers ▸ List.mem_map_of_mem mem
    exact ⟨target, reads_of_isPointerText (form _ asked).2, found, names⟩
  refine ⟨selections, pointers, entries, ?_⟩
  rw [selectJson, checked]
  dsimp only
  rw [read, ok_bind, selected, orFault_some, ok_bind, dumps_selections supported entries, ok_bind]

theorem selectJson_eq_ok
    {response : JsonResponse} (selected : selectJson json text arguments = .ok response) :
    ∃ source request, readSource json text = .ok source ∧ jsonRequest arguments = some request ∧
      response.selections.map Selection.pointer = request.pointers ∧
      (∀ selection ∈ response.selections, ∃ target, selection.Names source request target) ∧
      response.truncated = response.selections.any fun selection => selection.found.hasMore := by
  cases checked : jsonRequest arguments with
  | none =>
    rw [selectJson, checked] at selected
    cases selected
  | some request =>
    cases read : readSource json text with
    | error fault =>
      rw [selectJson, checked] at selected
      dsimp only at selected
      rw [read] at selected
      cases selected
    | ok source =>
      obtain ⟨selections, pointers, entries, outcome⟩ :=
        @selectJson_eq json text arguments request source checked read
      rw [outcome, measured] at selected
      split at selected
      · cases selected
      · dsimp only at selected
        split_ifs at selected
        all_goals
          obtain rfl := Except.ok.inj selected
          exact ⟨source, request, rfl, rfl, pointers, entries, rfl⟩

theorem foundOf_hasMore {target : Option PyJson} :
    (foundOf request.offset request.limit target).hasMore = true ↔
      ∃ whole, target = some (.array whole) ∧
        request.offset + request.limit < whole.length := by
  constructor
  · intro more
    match target with
    | some (.array items) =>
      refine ⟨items, rfl, ?_⟩
      by_contra few
      rw [foundOf, min_eq_left (Nat.not_lt.mp few), if_neg (Nat.lt_irrefl _)] at more
      cases more
  · rintro ⟨whole, rfl, more⟩
    rw [foundOf, min_eq_right more.le, if_pos more]
    rfl

theorem Selection.Names.page {source : PyJson} {request : JsonRequest} {pointer : PyText}
    {target : Option PyJson} {items : List PyJson} {offset total : Nat} {next : Option Nat}
    (entry : Selection.Names source request ⟨pointer, .page items offset next total⟩ target) :
    ∃ whole, PointsTo source (referenceTokens pointer) (.array whole) ∧
      items = (whole.drop request.offset).take request.limit ∧
      next = if request.offset + request.limit < whole.length then
        some (request.offset + request.limit) else none := by
  have exact := @foundOf_exact source _ request target entry.names
  rw [← entry.found] at exact
  obtain ⟨-, whole, named, -, page, more⟩ := exact
  exact ⟨whole, named, page, more⟩

theorem page_of_call
    {offset total : Nat} {items : List PyJson} {next : Option Nat}
    {response : JsonResponse}
    (selected : selectJson json text (arguments.at offset) = .ok response)
    (mem : ⟨pointer, .page items offset next total⟩ ∈ response.selections) :
    ∃ source request whole, readSource json text = .ok source ∧
      jsonRequest (arguments.at 0) = some request ∧ Reads pointer (referenceTokens pointer) ∧
      PointsTo source (referenceTokens pointer) (.array whole) ∧
      items = (whole.drop offset).take request.limit ∧
      next = if offset + request.limit < whole.length then some (offset + request.limit)
        else none := by
  obtain ⟨source, request, read, checked, -, entries, -⟩ := selectJson_eq_ok selected
  obtain ⟨target, entry⟩ := entries _ mem
  obtain ⟨whole, named, page, more⟩ := entry.page
  obtain ⟨offset_eq, others⟩ := jsonRequest_at checked
  rw [offset_eq] at page more
  exact ⟨source, _, whole, read, others 0, entry.reads, named, page, more⟩

theorem Pages.rest
    {offset : Nat} {pages : List (List PyJson)}
    (followed : Pages json text arguments pointer offset pages) :
    ∃ source whole, readSource json text = .ok source ∧ Reads pointer (referenceTokens pointer) ∧
      PointsTo source (referenceTokens pointer) (.array whole) ∧
      pages.flatten = whole.drop offset := by
  induction followed with
  | last selected entry =>
    obtain ⟨source, request, whole, read, -, reads, named, items, ended⟩ :=
      page_of_call selected entry
    refine ⟨source, whole, read, reads, named, ?_⟩
    split_ifs at ended with more
    rw [List.flatten_singleton, items, List.take_of_length_le]
    rw [List.length_drop]
    omega
  | next selected entry _ ih =>
    obtain ⟨source, request, whole, read, -, reads, named, items, further⟩ :=
      page_of_call selected entry
    obtain ⟨source', whole', read', -, named', behind⟩ := ih
    obtain rfl := Except.ok.inj (read.symm.trans read')
    have same := named.unique (readSource_eq_ok read).distinct named'
    obtain rfl := PyJson.array.inj same
    refine ⟨source, whole, read, reads, named, ?_⟩
    split_ifs at further with more
    obtain rfl := Option.some.inj further
    rw [List.flatten_cons, items, behind, ← List.drop_drop, List.take_append_drop]

theorem NextPage.bounds
    {offset next : Nat}
    (step : NextPage json text arguments pointer offset next) :
    ∃ source whole, readSource json text = .ok source ∧
      PointsTo source (referenceTokens pointer) (.array whole) ∧
      offset < next ∧ next < whole.length := by
  obtain ⟨response, items, total, selected, entry⟩ := step
  obtain ⟨source, request, whole, read, checked, -, named, -, further⟩ :=
    page_of_call selected entry
  have positive := (jsonRequest_eq_some checked).2
  split_ifs at further with more
  obtain rfl := Option.some.inj further
  exact ⟨source, whole, read, named, by omega, more⟩

theorem no_endless_pages :
    ¬ ∃ offsets : Nat → Nat, ∀ i,
      NextPage json text arguments pointer (offsets i) (offsets (i + 1)) := by
  rintro ⟨offsets, steps⟩
  obtain ⟨source, whole, read, named, -, -⟩ := (steps 0).bounds
  have bounds : ∀ i, offsets i < offsets (i + 1) ∧ offsets (i + 1) < whole.length := by
    intro i
    obtain ⟨source', whole', read', named', ahead, inside⟩ := (steps i).bounds
    obtain rfl := Except.ok.inj (read.symm.trans read')
    have same := named.unique (readSource_eq_ok read).distinct named'
    obtain rfl := PyJson.array.inj same
    exact ⟨ahead, inside⟩
  have grows : ∀ i, i ≤ offsets i := by
    intro i
    induction i with
    | zero => exact Nat.zero_le _
    | succ i ih => exact Nat.succ_le_of_lt (ih.trans_lt (bounds i).1)
  have last := (bounds whole.length).2
  have beyond := grows (whole.length + 1)
  omega

theorem exists_page
    {whole : List PyJson}
    (checked : jsonRequest (arguments.at 0) = some request) (asked : pointer ∈ request.pointers)
    (read : readSource json text = .ok source)
    (named : PointsTo source (referenceTokens pointer) (.array whole)) {offset : Nat}
    {response : JsonResponse}
    (selected : selectJson json text (arguments.at offset) = .ok response) :
    ∃ items next total, ⟨pointer, .page items offset next total⟩ ∈ response.selections := by
  obtain ⟨source', request', read', checked', pointers, entries, -⟩ := selectJson_eq_ok selected
  obtain rfl := Except.ok.inj (read.symm.trans read')
  obtain rfl := Option.some.inj (((jsonRequest_at checked).2 offset).symm.trans checked')
  obtain ⟨⟨pointer', found⟩, mem, same⟩ := List.mem_map.mp (pointers.symm ▸ asked)
  obtain rfl : pointer' = pointer := same
  obtain ⟨target, entry⟩ := entries _ mem
  obtain rfl := (entry.names _).mpr named
  obtain rfl := entry.found
  exact ⟨_, _, _, mem⟩

theorem exists_pages
    {whole : List PyJson}
    (checked : jsonRequest (arguments.at 0) = some request) (asked : pointer ∈ request.pointers)
    (read : readSource json text = .ok source)
    (named : PointsTo source (referenceTokens pointer) (.array whole))
    (answered : ∀ offset, ∃ response, selectJson json text (arguments.at offset) = .ok response)
    (left offset : Nat) (bound : whole.length ≤ offset + left) :
    ∃ pages, Pages json text arguments pointer offset pages := by
  induction left generalizing offset with
  | zero =>
    obtain ⟨response, selected⟩ := answered offset
    obtain ⟨items, next, total, entry⟩ := exists_page checked asked read named selected
    cases next with
    | none => exact ⟨_, .last selected entry⟩
    | some next =>
      -- There is no page behind the end of the array.
      obtain ⟨source', whole', read', named', ahead, inside⟩ :=
        NextPage.bounds ⟨response, items, total, selected, entry⟩
      obtain rfl := Except.ok.inj (read.symm.trans read')
      obtain rfl := PyJson.array.inj (named.unique (readSource_eq_ok read).distinct named')
      omega
  | succ left ih =>
    obtain ⟨response, selected⟩ := answered offset
    obtain ⟨items, next, total, entry⟩ := exists_page checked asked read named selected
    cases next with
    | none => exact ⟨_, .last selected entry⟩
    | some next =>
      obtain ⟨source', whole', read', named', ahead, inside⟩ :=
        NextPage.bounds ⟨response, items, total, selected, entry⟩
      obtain ⟨pages, rest⟩ := ih next (by omega)
      exact ⟨_, .next selected entry rest⟩

/-! ## Surrogates -/

/-- Nothing that is selected has a surrogate, nor has the text. -/
def Encodable (json : JsonModule) (text : PyText) (arguments : JsonArguments) : Prop :=
  ∀ request, jsonRequest arguments = some request → PyJson.hasSurrogate text = false ∧
    ∀ source, readSource json text = .ok source → ∀ pointer ∈ request.pointers,
      PyJson.hasSurrogate pointer = false ∧
        ∀ value, PointsTo source (referenceTokens pointer) value →
          (pageOf request value).all PyJson.isScalar = true

theorem selections_isScalar {selections : List Selection}
    (pointers : selections.map Selection.pointer = request.pointers)
    (entries : ∀ selection ∈ selections, ∃ target, selection.Names source request target) :
    (PyJson.array (selections.map Selection.toJson)).all PyJson.isScalar = true ↔
      ∀ pointer ∈ request.pointers, PyJson.hasSurrogate pointer = false ∧
        ∀ value, PointsTo source (referenceTokens pointer) value →
          (pageOf request value).all PyJson.isScalar = true := by
  have one : ∀ selection ∈ selections, selection.toJson.all PyJson.isScalar = true ↔
      PyJson.hasSurrogate selection.pointer = false ∧
        ∀ value, PointsTo source (referenceTokens selection.pointer) value →
          (pageOf request value).all PyJson.isScalar = true := by
    intro selection mem
    obtain ⟨target, entry⟩ := entries selection mem
    rw [toJson_isScalar, Bool.and_eq_true, Bool.not_eq_true', entry.found,
      foundOf_all fun _ => rfl]
    simp only [entry.names]
  rw [PyJson.all, Bool.and_eq_true, PyJson.allItems_iff, ← pointers, List.forall_mem_map,
    List.forall_mem_map]
  constructor
  · exact fun scalar selection mem => (one selection mem).mp (scalar.2 selection mem)
  · exact fun each => ⟨rfl, fun selection mem => (one selection mem).mpr (each selection mem)⟩

theorem readSource_eq_error {fault : SelectFault}
    (failed : readSource json text = .error fault) :
    (∃ error, fault = .tool error) ∨
      fault = .unicodeEncodeError ∧ PyJson.hasSurrogate text = true := by
  rw [readSource] at failed
  cases encoded : encodeUtf8 text with
  | none =>
    rw [encoded] at failed
    obtain rfl := Except.error.inj failed
    refine .inr ⟨rfl, Bool.eq_true_of_not_eq_false fun plain => ?_⟩
    have some := PyJson.encodeUtf8_isSome_iff.mpr plain
    rw [encoded] at some
    cases some
  | some data =>
    rw [encoded] at failed
    dsimp only at failed
    split_ifs at failed
    · exact .inl ⟨_, (Except.error.inj failed).symm⟩
    · split at failed
      · exact .inl ⟨_, (Except.error.inj failed).symm⟩
      · split_ifs at failed
        exact .inl ⟨_, (Except.error.inj failed).symm⟩

theorem measured_eq_error {selections : List Selection} {canonical : PyText} {fault : SelectFault}
    (failed : measured selections canonical = .error fault) :
    (∃ error, fault = .tool error) ∨
      fault = .unicodeEncodeError ∧ PyJson.hasSurrogate canonical = true := by
  rw [measured] at failed
  cases encoded : encodeUtf8 canonical with
  | none =>
    rw [encoded] at failed
    obtain rfl := Except.error.inj failed
    refine .inr ⟨rfl, Bool.eq_true_of_not_eq_false fun plain => ?_⟩
    have some := PyJson.encodeUtf8_isSome_iff.mpr plain
    rw [encoded] at some
    cases some
  | some data =>
    rw [encoded] at failed
    dsimp only at failed
    split_ifs at failed
    exact .inl ⟨_, (Except.error.inj failed).symm⟩

theorem encodeUtf8_of_hasSurrogate (surrogate : PyJson.hasSurrogate text = true) :
    encodeUtf8 text = none := by
  cases encoded : encodeUtf8 text with
  | none => rfl
  | some data =>
    have plain := PyJson.encodeUtf8_isSome_iff.mp ((congrArg Option.isSome encoded).trans rfl)
    rw [surrogate] at plain
    cases plain

theorem raises_iff :
    (∀ fault, selectJson json text arguments = .error fault → ∃ error, fault = .tool error) ↔
      Encodable json text arguments := by
  constructor
  · intro raises request checked
    have plain : PyJson.hasSurrogate text = false := by
      refine Bool.eq_false_of_not_eq_true fun surrogate => ?_
      have failed : selectJson json text arguments = .error .unicodeEncodeError := by
        rw [selectJson, checked]
        dsimp only
        rw [readSource, encodeUtf8_of_hasSurrogate surrogate]
        rfl
      obtain ⟨error, same⟩ := raises _ failed
      cases same
    refine ⟨plain, fun source read => ?_⟩
    obtain ⟨selections, pointers, entries, outcome⟩ :=
      @selectJson_eq json text arguments request source checked read
    rw [← selections_isScalar pointers entries]
    by_contra surrogate
    have failed : selectJson json text arguments = .error .unicodeEncodeError := by
      rw [outcome, measured, encodeUtf8_of_hasSurrogate]
      rw [PyJson.hasSurrogate_dumpText, Bool.eq_false_of_not_eq_true surrogate, Bool.not_false]
    obtain ⟨error, same⟩ := raises _ failed
    cases same
  · intro encodable fault failed
    cases checked : jsonRequest arguments with
    | none =>
      rw [selectJson, checked] at failed
      exact ⟨_, (Except.error.inj failed).symm⟩
    | some request =>
      obtain ⟨plain, each⟩ := encodable request checked
      cases read : readSource json text with
      | error fault' =>
        rw [selectJson, checked] at failed
        dsimp only at failed
        rw [read] at failed
        obtain rfl := Except.error.inj failed
        rcases readSource_eq_error read with tool | ⟨-, surrogate⟩
        · exact tool
        · rw [plain] at surrogate
          cases surrogate
      | ok source =>
        obtain ⟨selections, pointers, entries, outcome⟩ :=
          @selectJson_eq json text arguments request source checked read
        rcases measured_eq_error (outcome.symm.trans failed) with tool | ⟨-, surrogate⟩
        · exact tool
        · have scalar := (selections_isScalar pointers entries).mpr (each source read)
          rw [PyJson.hasSurrogate_dumpText, scalar] at surrogate
          cases surrogate

/-- **A selection is exact, and it raises only the stable error exactly when neither the text nor
what is selected of it has a surrogate.** -/
theorem selectsExactly_iff {json : JsonModule} {text : PyText} {arguments : JsonArguments} :
    SelectsExactly json text arguments ↔ Encodable json text arguments := by
  constructor
  · exact fun exactly => raises_iff.mp exactly.raises
  · intro encodable
    refine ⟨?_, ?_, fun pointer => no_endless_pages, ?_, raises_iff.mpr encodable⟩
    · intro response selected
      obtain ⟨source, request, read, checked, pointers, entries, truncated⟩ :=
        selectJson_eq_ok selected
      refine ⟨source, request, read, checked, pointers, fun selection mem => ?_, ?_⟩
      · obtain ⟨target, entry⟩ := entries selection mem
        exact ⟨_, entry.reads, entry.found ▸ foundOf_exact entry.names⟩
      · rw [truncated, List.any_eq_true]
        constructor
        · rintro ⟨selection, mem, more⟩
          obtain ⟨target, entry⟩ := entries selection mem
          rw [entry.found] at more
          obtain ⟨whole, rfl, long⟩ := foundOf_hasMore.mp more
          exact ⟨selection, mem, _, whole, entry.reads, (entry.names _).mp rfl, long⟩
        · rintro ⟨selection, mem, tokens, whole, reads, named, long⟩
          obtain ⟨target, entry⟩ := entries selection mem
          obtain rfl := reads.unique entry.reads rfl
          refine ⟨selection, mem, ?_⟩
          rw [entry.found]
          exact foundOf_hasMore.mpr ⟨whole, (entry.names _).mpr named, long⟩
    · intro pointer pages followed
      obtain ⟨source, whole, read, reads, named, rest⟩ := followed.rest
      rw [List.drop_zero] at rest
      exact ⟨source, _, read, reads, rest ▸ named⟩
    · intro pointer source request whole checked asked read named answered
      exact exists_pages checked asked read named answered whole.length 0 (by omega)

def surrogateText : PyText := pyText "[\"\\ud800\"]"

/-- The `json` module on that text. -/
def surrogateModule : JsonModule where
  loads text :=
    if text = surrogateText then .ok (.array [.string [⟨0xd800, by decide⟩]])
    else .error .valueError
  nesting := 990
  nesting_le := by decide

def firstItem : JsonArguments where
  pointers := some [some (pyText "/0")]
  arrayOffset := none
  arrayLimit := none
  expectedHash := some "sha256:69119aac5ce42bc93c1667db0454297ffaa342c431efa2dfdf48af101c035106"
  keys := ["path", "expected_hash", "pointers"]

/-- A surrogate that is selected is raised as the error of the encoder. -/
theorem selectJson_raises_unicode :
    selectJson surrogateModule surrogateText firstItem = .error .unicodeEncodeError ∧
      ¬ SelectsExactly surrogateModule surrogateText firstItem := by
  have raised : selectJson surrogateModule surrogateText firstItem =
      .error .unicodeEncodeError := by rfl
  refine ⟨raised, fun exactly => ?_⟩
  obtain ⟨error, same⟩ := exactly.raises _ raised
  cases same

end SkillMind.Agent
