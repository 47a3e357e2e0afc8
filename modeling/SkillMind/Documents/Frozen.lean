import SkillMind.Documents.Snapshot
import SkillMind.Documents.Stored

/-!
# What a frozen selection is

The reader of snapshots accepts what `freeze_document_snapshot` writes for stored documents, as
long as none of them lies on a path that the reader reserves.  What it accepts is the snapshot
that was written, and no other value is read as it.
-/

namespace SkillMind.Documents

open Library SkillMind.Core
open Runs (Uuid Timestamp)
open Effects (uuidText)
open Skills (segments strip backslash)

/-! ## Identifiers -/

theorem removed_of_free {first : Char} (pattern : List Char) {text : List Char}
    (free : first ∉ text) :
    removed (first :: pattern) text 0 = text := by
  induction text with
  | nil => rfl
  | cons c rest ih =>
    rw [List.mem_cons, not_or] at free
    have miss : (first :: pattern).isPrefixOf (c :: rest) = false := by
      simp [List.isPrefixOf, free.1]
    rw [removed, miss, if_neg (by decide), ih free.2]

theorem dropWhile_of_none {p : Char → Bool} {text : List Char} (none : ∀ c ∈ text, p c = false) :
    text.dropWhile p = text := by
  cases text with
  | nil => rfl
  | cons c rest => rw [List.dropWhile_cons_of_neg (by simp [none c List.mem_cons_self])]

theorem rdropWhile_of_none {p : Char → Bool} {text : List Char} (none : ∀ c ∈ text, p c = false) :
    text.rdropWhile p = text := by
  rw [List.rdropWhile, dropWhile_of_none (fun c mem => none c (List.mem_reverse.mp mem)),
    List.reverse_reverse]

theorem hexDigit_plain {c : Char} (digit : isHexDigit c = true) :
    c ≠ '-' ∧ c ≠ '+' ∧ c ≠ 'x' ∧ c ≠ 'X' ∧ c ≠ '_' ∧ c ≠ 'u' ∧ isBrace c = false ∧
      isSpace c = false := by
  obtain ⟨value, rfl⟩ := hexDigit_cases digit
  decide +revert

theorem digitsValue_hexDigits (tables : UnicodeTables) (number count acc : Nat)
    (tail : List Char) :
    digitsValue tables (hexDigits number count ++ tail) acc true =
      digitsValue tables tail (acc * 16 ^ count + number % 16 ^ count) true := by
  induction count generalizing number tail with
  | zero => simp [hexDigits, Nat.mod_one]
  | succ count ih =>
    have small : number % 16 < 16 := Nat.mod_lt number (by decide)
    have value : digitValue tables (Nat.digitChar (number % 16)) = some (number % 16) := by
      rw [digitValue, hexValue_digitChar ⟨number % 16, small⟩]
    have plain : ¬ (Nat.digitChar (number % 16) = '_' ∧ true = true) := by
      have digit : isHexDigit (Nat.digitChar (number % 16)) = true := by
        have all : ∀ d : Fin 16, isHexDigit (Nat.digitChar d) = true := by decide
        exact all ⟨number % 16, small⟩
      exact fun both => (hexDigit_plain digit).2.2.2.2.1 both.1
    have split : number % 16 ^ (count + 1) =
        number % 16 + 16 * (number / 16 % 16 ^ count) := by
      rw [Nat.pow_succ, Nat.mul_comm, Nat.mod_mul]
    have step : (acc * 16 ^ count + number / 16 % 16 ^ count) * 16 + number % 16 =
        acc * 16 ^ (count + 1) + number % 16 ^ (count + 1) := by
      rw [split, Nat.pow_succ]
      ring
    rw [hexDigits, List.append_assoc, ih, List.singleton_append, digitsValue, if_neg plain,
      value, ← step]

theorem withoutBase_hex {digits : List Char} (all : ∀ c ∈ digits, isHexDigit c = true) :
    withoutBase digits = digits := by
  have noLower : 'x' ∉ digits := fun mem => (hexDigit_plain (all 'x' mem)).2.2.1 rfl
  have noUpper : 'X' ∉ digits := fun mem => (hexDigit_plain (all 'X' mem)).2.2.2.1 rfl
  unfold withoutBase
  split <;> simp_all

theorem withoutSign_hex {digits : List Char} (all : ∀ c ∈ digits, isHexDigit c = true) :
    withoutSign digits = (false, digits) := by
  have noMinus : '-' ∉ digits := fun mem => (hexDigit_plain (all '-' mem)).1 rfl
  have noPlus : '+' ∉ digits := fun mem => (hexDigit_plain (all '+' mem)).2.1 rfl
  unfold withoutSign
  split <;> simp_all

theorem hexDigits_cons (number count : Nat) :
    ∃ first rest, hexDigits number (count + 1) = first :: rest := by
  cases digits : hexDigits number (count + 1) with
  | nil =>
    have long := length_hexDigits number (count + 1)
    rw [digits] at long
    cases long
  | cons first rest => exact ⟨first, rest, rfl⟩

theorem intBase16_hexDigits {tables : UnicodeTables} {number : Nat} (small : number < 2 ^ 128) :
    intBase16 tables (hexDigits number 32) = some (number : Int) := by
  have all := List.all_eq_true.mp (hexDigits_hexadecimal number 32)
  have stripped : strip (hexDigits number 32) = hexDigits number 32 := by
    have none : ∀ c ∈ hexDigits number 32, isSpace c = false :=
      fun c mem => (hexDigit_plain (all c mem)).2.2.2.2.2.2.2
    rw [strip, dropWhile_of_none none, rdropWhile_of_none none]
  have value := digitsValue_hexDigits tables number 32 0 []
  have whole : number % 16 ^ 32 = number := by
    have same : (16 : Nat) ^ 32 = 2 ^ 128 := by norm_num
    rw [same, Nat.mod_eq_of_lt small]
  rw [List.append_nil, Nat.zero_mul, Nat.zero_add, whole] at value
  have anyFlag : digitsValue tables (hexDigits number 32) 0 false = some number := by
    obtain ⟨first, rest, digits⟩ := hexDigits_cons number 31
    have plain := hexDigit_plain (all first (by rw [digits]; exact List.mem_cons_self))
    rw [digits] at value ⊢
    rw [digitsValue, if_neg (fun both => plain.2.2.2.2.1 both.1)] at value ⊢
    exact value
  rw [intBase16, stripped]
  generalize hexDigits number 32 = digits at all anyFlag
  simp only [withoutSign_hex all, withoutBase_hex all, anyFlag, Option.map_some,
    Bool.false_eq_true, if_false]

theorem uuidText_chars {id : Uuid} : ∀ c ∈ (uuidText id).toList,
    c = '-' ∨ isHexDigit c = true := by
  have all := List.all_eq_true.mp (hexDigits_hexadecimal id 32)
  intro c mem
  simp only [uuidText, String.toList_ofList, List.mem_append, List.mem_cons] at mem
  rcases mem with (((first | same | second) | same | third) | same | fourth) | same | last
  · exact .inr (all c (List.mem_of_mem_take first))
  · exact .inl same
  · exact .inr (all c (List.mem_of_mem_drop (List.mem_of_mem_take second)))
  · exact .inl same
  · exact .inr (all c (List.mem_of_mem_drop (List.mem_of_mem_take third)))
  · exact .inl same
  · exact .inr (all c (List.mem_of_mem_drop (List.mem_of_mem_take fourth)))
  · exact .inl same
  · exact .inr (all c (List.mem_of_mem_drop last))

theorem uuid_uuidText {tables : UnicodeTables} {id : Uuid} (small : id < 2 ^ 128) :
    uuid tables (uuidText id) = some id := by
  have all := List.all_eq_true.mp (hexDigits_hexadecimal id 32)
  have hex : ∀ n, ∀ c ∈ (hexDigits id 32).drop n, isHexDigit c = true :=
    fun n c mem => all c (List.mem_of_mem_drop mem)
  have noLetter : 'u' ∉ (uuidText id).toList := by
    intro mem
    rcases uuidText_chars 'u' mem with same | digit
    · cases same
    · exact (hexDigit_plain digit).2.2.2.2.2.1 rfl
  have noBrace : ∀ c ∈ (uuidText id).toList, isBrace c = false := by
    intro c mem
    rcases uuidText_chars c mem with rfl | digit
    · rfl
    · exact (hexDigit_plain digit).2.2.2.2.2.2.1
  have kept : ∀ n m, (((hexDigits id 32).drop n).take m).filter (fun c => c != '-') =
      ((hexDigits id 32).drop n).take m := by
    intro n m
    rw [List.filter_eq_self]
    intro c mem
    simpa using (hexDigit_plain (hex n c (List.mem_of_mem_take mem))).1
  have front : ((hexDigits id 32).take 8).filter (fun c => c != '-') = (hexDigits id 32).take 8 :=
    kept 0 8
  have back : ((hexDigits id 32).drop 20).filter (fun c => c != '-') =
      (hexDigits id 32).drop 20 := by
    rw [List.filter_eq_self]
    intro c mem
    simpa using (hexDigit_plain (hex 20 c mem)).1
  have digits : (uuidText id).toList.filter (fun c => c != '-') = hexDigits id 32 := by
    have dash : ∀ rest : List Char, ('-' :: rest).filter (fun c => c != '-') =
        rest.filter fun c => c != '-' := fun rest => rfl
    have join : ∀ n m, ((hexDigits id 32).drop n).take m ++ (hexDigits id 32).drop (n + m) =
        (hexDigits id 32).drop n := by
      intro n m
      rw [← List.drop_drop, List.take_append_drop]
    simp only [uuidText, String.toList_ofList, List.filter_append, dash, kept, front, back,
      List.append_assoc]
    rw [join 16 4, join 12 4, join 8 4, List.take_append_drop]
  rw [uuid]
  have urn : removed "urn:".toList (uuidText id).toList 0 = (uuidText id).toList :=
    removed_of_free "rn:".toList noLetter
  have named : removed "uuid:".toList (uuidText id).toList 0 = (uuidText id).toList :=
    removed_of_free "uid:".toList noLetter
  have within : (0 : Int) ≤ (id : Int) ∧ (id : Int) < 2 ^ 128 := by
    constructor
    · omega
    · exact_mod_cast small
  simp only [urn, named, dropWhile_of_none noBrace, rdropWhile_of_none noBrace, digits,
    length_hexDigits, if_pos, intBase16_hexDigits small, if_pos within, Int.toNat_natCast]

theorem toDigits_digit (number : Nat) : ∀ c ∈ Nat.toDigits 10 number, c.isDigit = true := by
  have digit : ∀ value : Fin 10, (Nat.digitChar value).isDigit = true := by decide
  induction number using Nat.strongRecOn with
  | ind number ih =>
    intro c mem
    rcases Nat.lt_or_ge number 10 with small | large
    · rw [Nat.toDigits_of_lt_base small, List.mem_singleton] at mem
      exact mem ▸ digit ⟨number, small⟩
    · rw [Nat.toDigits_of_base_le (by decide) large, List.mem_append,
        List.mem_singleton] at mem
      rcases mem with front | last
      · exact ih (number / 10) (by omega) c front
      · exact last ▸ digit ⟨number % 10, Nat.mod_lt number (by decide)⟩

theorem toDigits_value (number : Nat) :
    (Nat.toDigits 10 number).foldl (fun number c => number * 10 + (c.toNat - 0x30)) 0 =
      number := by
  have value : ∀ digit : Fin 10, (Nat.digitChar digit).toNat - 0x30 = digit.val := by decide
  induction number using Nat.strongRecOn with
  | ind number ih =>
    rcases Nat.lt_or_ge number 10 with small | large
    · rw [Nat.toDigits_of_lt_base small]
      simpa using value ⟨number, small⟩
    · have last := value ⟨number % 10, Nat.mod_lt number (by decide)⟩
      rw [Nat.toDigits_of_base_le (by decide) large, List.foldl_append, ih _ (by omega)]
      simp only [List.foldl_cons, List.foldl_nil] at last ⊢
      omega

theorem toDigits_head (number : Nat) (positive : 0 < number) :
    ∃ c rest, Nat.toDigits 10 number = c :: rest ∧ c ≠ '0' := by
  have digit : ∀ value : Fin 10, 0 < value.val → Nat.digitChar value ≠ '0' := by decide
  induction number using Nat.strongRecOn with
  | ind number ih =>
    rcases Nat.lt_or_ge number 10 with small | large
    · exact ⟨_, _, Nat.toDigits_of_lt_base small, digit ⟨number, small⟩ positive⟩
    · obtain ⟨c, rest, front, plain⟩ := ih (number / 10) (by omega) (by omega)
      refine ⟨c, rest ++ [Nat.digitChar (number % 10)], ?_, plain⟩
      rw [Nat.toDigits_of_base_le (by decide) large, front, List.cons_append]

theorem toList_toString (number : Nat) :
    (toString (number : Int)).toList = Nat.toDigits 10 number := by
  show (Int.repr (number : Int)).toList = _
  simp [Int.repr, Nat.repr]

theorem isNumberToken_toString (number : Nat) :
    isNumberToken (toString (number : Int)).toList = true := by
  rw [toList_toString]
  have digits := toDigits_digit number
  have chars : (Nat.toDigits 10 number).all isNumberChar = true := by
    rw [List.all_eq_true]
    intro c mem
    simp [isNumberChar, digits c mem]
  have whole : integerThen (Nat.toDigits 10 number) = some [] := by
    rcases Nat.eq_zero_or_pos number with rfl | positive
    · rfl
    · obtain ⟨c, rest, front, plain⟩ := toDigits_head number positive
      rw [front] at digits ⊢
      have taken : (c :: rest).takeWhile Char.isDigit = c :: rest :=
        List.takeWhile_eq_self_iff.mpr digits
      have dropped : (c :: rest).dropWhile Char.isDigit = [] :=
        List.dropWhile_eq_nil_iff.mpr digits
      unfold integerThen
      split
      · rename_i zero
        exact absurd (List.cons.inj zero).1 plain
      · rw [digitsThen, taken, dropped]
        rfl
  have unsigned : signed (Nat.toDigits 10 number) = Nat.toDigits 10 number := by
    unfold signed
    split
    · rename_i minus
      have digit := digits '-' (by rw [minus]; exact List.mem_cons_self)
      cases digit
    · rfl
  rw [isNumberToken, chars, unsigned, whole]
  rfl

theorem sizeOf_toString (fault : DocumentSnapshotError) {size : Int} (natural : 0 ≤ size) :
    sizeOf fault (some (.number (toString size))) = .ok size := by
  obtain ⟨number, rfl⟩ := Int.eq_ofNat_of_zero_le natural
  have value := toDigits_value number
  simp only [sizeOf, toList_toString, value]
  rw [require_of trivial]
  rfl

/-- Where a stored document may not lie for the reader of snapshots: below a folder that is a
dot, and below or at the name it reserves. -/
def ReservedPath (folder : Folder) (name : String) : Prop :=
  folder = ["."] ∨ ".skillmind" ∈ documentPath folder name

instance (folder : Folder) (name : String) : Decidable (ReservedPath folder name) :=
  inferInstanceAs (Decidable (_ ∨ _))

variable {tables : UnicodeTables}

theorem path_joined {folder : Folder} (named : ∀ part ∈ folder, part.toList ≠ []) (id : Uuid)
    (name mime checksum : String) (size : Int) :
    (FrozenDocument.path ⟨id, folderText folder, name, mime, size, checksum⟩).toList =
      joined ((documentPath folder name).map String.toList) := by
  cases folder with
  | nil =>
    have root : folderText [] = "" := rfl
    rw [FrozenDocument.path, if_pos root]
    simp [documentPath, joined, List.intercalate]
  | cons first rest =>
    have spelled : (folderText (first :: rest)).toList =
        joined ((first :: rest).map String.toList) := String.toList_ofList
    have written : folderText (first :: rest) ≠ "" := by
      intro empty
      rw [empty] at spelled
      have inked := named first List.mem_cons_self
      cases rest with
      | nil => exact inked (by simpa [joined, List.intercalate] using spelled.symm)
      | cons next more =>
        rw [List.map_cons, List.map_cons, joined_cons_cons] at spelled
        simp at spelled
    rw [FrozenDocument.path, if_neg written]
    simp only [String.toList_append, spelled, documentPath, List.map_append, List.map_cons,
      List.map_nil]
    generalize first.toList = head
    clear spelled written named
    induction rest generalizing head with
    | nil => simp [joined, List.intercalate]
    | cons next more ih =>
      have tail := ih next.toList
      simp only [List.map_cons, List.cons_append, List.append_assoc] at tail ⊢
      rw [joined_cons_cons, joined_cons_cons, List.append_assoc, List.cons_append, tail]

theorem segments_path {folder : Folder} {name : String}
    (named : ∀ part ∈ folder, part.toList ≠ [])
    (free : ∀ part ∈ documentPath folder name, '/' ∉ part.toList) (id : Uuid)
    (mime checksum : String) (size : Int) :
    segments (FrozenDocument.path ⟨id, folderText folder, name, mime, size, checksum⟩).toList =
      (documentPath folder name).map String.toList := by
  rw [path_joined named, segments_joined]
  · simp [documentPath]
  · intro part mem
    obtain ⟨text, member, rfl⟩ := List.mem_map.mp mem
    exact free text member

theorem canonical_parts {projectId : Uuid} {folder : Folder} {name : String}
    (canonical : pathIsCanonical tables projectId folder name = true) :
    (∀ part ∈ folder, part.toList ≠ []) ∧ ∀ part ∈ documentPath folder name, '/' ∉ part.toList := by
  obtain ⟨safeName, dot | good⟩ := pathIsCanonical_safe canonical
  · subst dot
    constructor
    · intro part mem
      rw [List.mem_singleton.mp mem]
      decide
    · intro part mem
      rcases List.mem_append.mp mem with inFolder | last
      · rw [List.mem_singleton.mp inFolder]
        decide
      · rw [List.mem_singleton.mp last]
        exact safeName.undivided
  · constructor
    · exact fun part mem => (good part mem).present
    · intro part mem
      rcases List.mem_append.mp mem with inFolder | last
      · exact (good part inFolder).undivided
      · rw [List.mem_singleton.mp last]
        exact safeName.undivided

theorem mem_joined {parts : List (List Char)} {c : Char} (mem : c ∈ joined parts) :
    c = '/' ∨ ∃ part ∈ parts, c ∈ part := by
  induction parts with
  | nil => simp [joined] at mem
  | cons part rest ih =>
    cases rest with
    | nil => exact .inr ⟨part, List.mem_cons_self, by simpa [joined, List.intercalate] using mem⟩
    | cons next more =>
      rw [joined_cons_cons, List.mem_append, List.mem_cons] at mem
      rcases mem with here | same | later
      · exact .inr ⟨part, List.mem_cons_self, here⟩
      · exact .inl same
      · rcases ih later with same | ⟨other, member, inside⟩
        · exact .inl same
        · exact .inr ⟨other, List.mem_cons_of_mem part member, inside⟩

theorem pathAllowed_iff {projectId : Uuid} {folder : Folder} {name : String}
    (canonical : pathIsCanonical tables projectId folder name = true) :
    pathAllowed tables (folderText folder) name ↔ ¬ ReservedPath folder name := by
  obtain ⟨named, free⟩ := canonical_parts canonical
  have parts := segments_path named free 0 "" "" 0
  have spelled := path_joined named 0 name "" "" 0
  obtain ⟨safeName, safeFolder⟩ := pathIsCanonical_safe canonical
  constructor
  · intro allowed reserved
    have passed := allowed.2.2.2.2
    rw [parts] at passed
    rcases reserved with dot | hidden
    · exact passed ['.'] (by rw [dot]; exact List.mem_cons_self) (by decide)
    · exact passed ".skillmind".toList (List.mem_map_of_mem hidden) (by decide)
  · intro open'
    simp only [ReservedPath, not_or] at open'
    have good : ∀ part ∈ documentPath folder name, SafeSegment tables part.toList := by
      intro part mem
      rcases List.mem_append.mp mem with inFolder | last
      · rcases safeFolder with dot | good
        · exact absurd dot open'.1
        · exact good part inFolder
      · rw [List.mem_singleton.mp last]
        exact safeName
    have whole : ∀ c ∈ (FrozenDocument.path ⟨0, folderText folder, name, "", 0, ""⟩).toList,
        c = '/' ∨ ∃ part ∈ documentPath folder name, c ∈ part.toList := by
      intro c mem
      rw [spelled] at mem
      rcases mem_joined mem with same | ⟨part, member, inside⟩
      · exact .inl same
      · obtain ⟨text, textMem, rfl⟩ := List.mem_map.mp member
        exact .inr ⟨text, textMem, inside⟩
    refine ⟨safeName.undivided, ?_, ?_, ?_, ?_⟩
    · intro mem
      rcases whole _ mem with same | ⟨part, member, inside⟩
      · exact absurd same (by decide)
      · exact (good part member).forward inside
    · rw [List.all_eq_true]
      intro c mem
      rcases whole c mem with same | ⟨part, member, inside⟩
      · exact same ▸ tables.slash
      · exact List.all_eq_true.mp (good part member).printable c inside
    · intro slash
      have first : ([] : List Char) ∈
          segments (FrozenDocument.path ⟨0, folderText folder, name, "", 0, ""⟩).toList := by
        cases chars : (FrozenDocument.path ⟨0, folderText folder, name, "", 0, ""⟩).toList with
        | nil => exact List.mem_cons_self
        | cons c rest =>
          rw [chars] at slash
          cases slash
          rw [segments, if_pos rfl]
          exact List.mem_cons_self
      rw [parts] at first
      obtain ⟨text, member, empty⟩ := List.mem_map.mp first
      exact (good text member).present empty
    · intro part mem
      rw [parts] at mem
      obtain ⟨text, member, rfl⟩ := List.mem_map.mp mem
      have safe := good text member
      simp only [reservedSegments, List.mem_cons, List.not_mem_nil, or_false, not_or]
      refine ⟨safe.present, safe.single, safe.double, ?_⟩
      intro hidden
      have same : text = ".skillmind" := String.toList_injective hidden
      exact open'.2 (same ▸ member)

/-! ## The forms of documents and snapshots -/

/-- What the reader asks of a frozen document. -/
structure Readable (tables : UnicodeTables) (document : FrozenDocument) : Prop where
  id : document.documentId < 2 ^ 128
  name : document.name ≠ ""
  mime : document.mime ≠ ""
  size : 0 ≤ document.size
  contentHash : isTaggedSha256 document.contentHash = true
  path : pathAllowed tables document.folder document.name

@[simp] theorem member_nil (key : String) : member [] key = none := rfl

theorem member_cons (name : String) (value : Json) (rest : List (String × Json)) (key : String) :
    member ((name, value) :: rest) key = if name = key then some value else member rest key := by
  unfold member
  rw [List.find?_cons]
  by_cases same : name = key <;> simp [same]

theorem parseDocument_toJson {document : FrozenDocument} (readable : Readable tables document) :
    parseDocument tables document.toJson = .ok document := by
  have keys : hasKeys documentFields
      [ ("document_id", .string (uuidText document.documentId))
      , ("folder", .string document.folder)
      , ("name", .string document.name)
      , ("mime", .string document.mime)
      , ("size", .number (toString document.size))
      , ("content_hash", .string document.contentHash) ] :=
    ⟨fun _ mem => mem, fun _ mem => mem⟩
  have size := sizeOf_toString ⟨"Frozen document metadata is invalid"⟩ readable.size
  have named : document.name ≠ "" ∧ document.mime ≠ "" ∧
      isTaggedSha256 document.contentHash = true :=
    ⟨readable.name, readable.mime, readable.contentHash⟩
  rw [FrozenDocument.toJson, parseDocument, require_of keys, ok_bind]
  simp only [member, List.find?_cons, decide_true, Option.map_some, textOf,
    uuid_uuidText readable.id, orFault_some, String.reduceEq, decide_false, size,
    require_of named, require_of readable.path, pure_bind, ok_bind]
  rfl

theorem parseDocument_ok {value : Json} {document : FrozenDocument}
    (parsed : parseDocument tables value = .ok document) :
    pathAllowed tables document.folder document.name := by
  cases value with
  | object fields =>
    simp only [parseDocument, bind_eq_ok, require_eq_ok, exists_unit, pure_eq_ok] at parsed
    obtain ⟨-, _, -, _, -, folder, -, name, -, mime, -, size, -, checksum, -, -, allowed,
      rfl⟩ := parsed
    exact allowed
  | null => cases parsed
  | bool value => cases parsed
  | number literal => cases parsed
  | string text => cases parsed
  | array items => cases parsed

theorem wellFormed_document {document : FrozenDocument} (size : 0 ≤ document.size) :
    document.toJson.wellFormed = true := by
  obtain ⟨number, natural⟩ := Int.eq_ofNat_of_zero_le size
  have token := isNumberToken_toString number
  rw [← natural] at token
  have distinct : documentFields.Nodup := by decide
  have keys : ([ ("document_id", Json.string (uuidText document.documentId))
      , ("folder", .string document.folder)
      , ("name", .string document.name)
      , ("mime", .string document.mime)
      , ("size", .number (toString document.size))
      , ("content_hash", .string document.contentHash) ] : List (String × Json)).map Prod.fst =
        documentFields := rfl
  rw [FrozenDocument.toJson, Json.wellFormed, keys]
  simp only [membersWellFormed, Json.wellFormed, token, distinct, decide_true, Bool.and_true]

variable {snapshot : DocumentSnapshot}

theorem wellFormed_snapshot (library : StandardLibrary)
    (sizes : ∀ document ∈ snapshot.documents, 0 ≤ document.size) :
    (snapshot.toJson library).wellFormed = true := by
  have items : itemsWellFormed (snapshot.documents.map FrozenDocument.toJson) = true := by
    rw [itemsWellFormed_iff]
    intro item mem
    obtain ⟨document, source, rfl⟩ := List.mem_map.mp mem
    exact wellFormed_document (sizes document source)
  have distinct : snapshotFields.Nodup := by decide
  have keys : (snapshot.payload ++ [("checksum", Json.string
      (taggedSha256 library (canonicalJson (.object snapshot.payload))))]).map Prod.fst =
        snapshotFields := rfl
  rw [DocumentSnapshot.toJson, Json.wellFormed, keys]
  simp only [DocumentSnapshot.payload, List.cons_append, List.nil_append, membersWellFormed,
    Json.wellFormed, items, distinct, decide_true, Bool.and_true]

/-- What the reader asks of a snapshot. -/
structure Coherent (tables : UnicodeTables) (snapshot : DocumentSnapshot) : Prop where
  bounded : 1 ≤ snapshot.documents.length ∧ snapshot.documents.length ≤ maxSelectedDocuments
  readable : ∀ document ∈ snapshot.documents, Readable tables document
  ordered : (snapshot.documents.map FrozenDocument.documentId).Pairwise (· < ·)
  paths : (snapshot.documents.map FrozenDocument.path).Nodup
  mode : ¬ (snapshot.selectionMode = .single ∧ snapshot.documents.length ≠ 1) ∧
    ¬ (snapshot.selectionMode = .set ∧ snapshot.documents.length < 2)

@[simp] theorem selectionMode_value (mode : DocumentSelectionMode) :
    selectionMode mode.value = some mode := by
  cases mode <;> rfl

/-- The fields of the stored form, under any text in the place of the checksum. -/
def DocumentSnapshot.fields (snapshot : DocumentSnapshot) (checksum : String) :
    List (String × Json) :=
  [ ("snapshot_version", .string "v1")
  , ("project_id", .string (uuidText snapshot.projectId))
  , ("requirement_key", .string snapshot.requirementKey)
  , ("selection_mode", .string snapshot.selectionMode.value)
  , ("documents", .array (snapshot.documents.map FrozenDocument.toJson))
  , ("checksum", .string checksum) ]

theorem hasKeys_fields (snapshot : DocumentSnapshot) (checksum : String) :
    hasKeys snapshotFields (snapshot.fields checksum) :=
  ⟨fun _ mem => mem, fun _ mem => mem⟩

theorem member_fields (snapshot : DocumentSnapshot) (checksum : String) :
    member (snapshot.fields checksum) "snapshot_version" = some (.string "v1") ∧
    member (snapshot.fields checksum) "project_id" =
      some (.string (uuidText snapshot.projectId)) ∧
    member (snapshot.fields checksum) "requirement_key" = some (.string snapshot.requirementKey) ∧
    member (snapshot.fields checksum) "selection_mode" =
      some (.string snapshot.selectionMode.value) ∧
    member (snapshot.fields checksum) "documents" =
      some (.array (snapshot.documents.map FrozenDocument.toJson)) := by
  refine ⟨?_, ?_, ?_, ?_, ?_⟩ <;> simp [DocumentSnapshot.fields, member_cons]

theorem parseDocumentSnapshot_fields (library : StandardLibrary)
    (coherent : Coherent tables snapshot) {checksum : String}
    (same : canonicalChars (snapshot.toJson library) =
      canonicalChars (.object (snapshot.fields checksum))) :
    parseDocumentSnapshot tables library (.object (snapshot.fields checksum)) snapshot.projectId
      snapshot.requirementKey = .ok snapshot := by
  have documents : (snapshot.documents.map FrozenDocument.toJson).mapM (parseDocument tables) =
      .ok snapshot.documents := by
    rw [mapM_eq_ok_iff, List.forall₂_map_left_iff, List.forall₂_same]
    exact fun document mem => parseDocument_toJson (coherent.readable document mem)
  have bounded : 1 ≤ (snapshot.documents.map FrozenDocument.toJson).length ∧
      (snapshot.documents.map FrozenDocument.toJson).length ≤ maxSelectedDocuments := by
    rw [List.length_map]
    exact coherent.bounded
  obtain ⟨version, project, key, mode, members⟩ := member_fields snapshot checksum
  have keys := hasKeys_fields snapshot checksum
  have entries : entriesOf (some (.array (snapshot.documents.map FrozenDocument.toJson))) =
      .ok (snapshot.documents.map FrozenDocument.toJson) := by
    rw [entriesOf, require_of bounded]
    rfl
  have ordered : (snapshot.documents.map FrozenDocument.documentId).Pairwise (· < ·) ∧
      (snapshot.documents.map FrozenDocument.path).Nodup := ⟨coherent.ordered, coherent.paths⟩
  generalize snapshot.fields checksum = fields at *
  rw [parseDocumentSnapshot]
  simp only [version, project, key, mode, members, textOf, pure_bind, and_true, require_of keys,
    ok_bind, selectionMode_value, orFault_some, entries, documents, require_of ordered,
    require_of coherent.mode, require_of same]
  rfl

theorem parseDocumentSnapshot_toJson (library : StandardLibrary)
    (coherent : Coherent tables snapshot) :
    parseDocumentSnapshot tables library (snapshot.toJson library) snapshot.projectId
      snapshot.requirementKey = .ok snapshot := by
  have form : snapshot.toJson library = .object (snapshot.fields
      (taggedSha256 library (canonicalJson (.object snapshot.payload)))) := by
    rw [DocumentSnapshot.toJson, DocumentSnapshot.payload, DocumentSnapshot.fields]
    simp only [List.cons_append, List.nil_append]
  rw [form]
  exact parseDocumentSnapshot_fields library coherent (congrArg canonicalChars form)

theorem parseDocumentSnapshot_ok {library : StandardLibrary} {value : Json} {projectId : Uuid}
    {requirementKey : String}
    (parsed : parseDocumentSnapshot tables library value projectId requirementKey = .ok snapshot) :
    snapshot.projectId = projectId ∧ snapshot.requirementKey = requirementKey ∧
      (∀ document ∈ snapshot.documents, pathAllowed tables document.folder document.name) ∧
      canonicalChars (snapshot.toJson library) = canonicalChars value := by
  cases value with
  | object fields =>
    simp only [parseDocumentSnapshot, bind_eq_ok, require_eq_ok, exists_unit,
      pure_eq_ok] at parsed
    obtain ⟨_, -, _, -, _, -, -, _, -, mode, -, entries, -, documents, read, -, -, same,
      rfl⟩ := parsed
    refine ⟨rfl, rfl, ?_, same⟩
    have all := mapM_eq_ok_iff.mp read
    intro document mem
    clear same read
    induction all with
    | nil => cases mem
    | cons head _ ih =>
      rcases List.mem_cons.mp mem with rfl | later
      · exact parseDocument_ok head
      · exact ih later
  | null => cases parsed
  | bool value => cases parsed
  | number literal => cases parsed
  | string text => cases parsed
  | array items => cases parsed

end SkillMind.Documents
