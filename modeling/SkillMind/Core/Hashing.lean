import Mathlib.Data.List.Sort

/-!
# Canonical JSON

The text by which a JSON value is measured and hashed: the members of an object stand in the
order of their keys, there are no blanks, and only the characters are escaped that a JSON
string cannot hold as they are.

A hash function is not modelled.  `StandardLibrary` holds it together with the one table of
characters that the program reads.
-/

namespace SkillMind.Core

/-- A JSON value as the `json` module reads it.  A number is kept as the text that is written
for it, so that a value without such a text (NaN, an infinity) is no value here. -/
inductive Json where
  | null
  | bool (value : Bool)
  | number (literal : String)
  | string (text : String)
  | array (items : List Json)
  | object (fields : List (String × Json))

/-- A member of an object. -/
def Json.field? (key : String) : Json → Option Json
  | .object fields => fields.lookup key
  | _ => none

def Json.text? : Json → Option String
  | .string text => some text
  | _ => none

def isHexDigit (c : Char) : Bool := c.isDigit || ('a' ≤ c && c ≤ 'f')

/-- The last `count` hexadecimal digits of a number. -/
def hexDigits (number : Nat) : Nat → List Char
  | 0 => []
  | count + 1 => hexDigits (number / 16) count ++ [Nat.digitChar (number % 16)]

@[simp] theorem length_hexDigits (number count : Nat) :
    (hexDigits number count).length = count := by
  induction count generalizing number with
  | zero => rfl
  | succ count ih => simp [hexDigits, ih]

theorem hexDigits_all {p : Char → Bool} (holds : ∀ digit : Fin 16, p (Nat.digitChar digit) = true)
    (number count : Nat) : (hexDigits number count).all p = true := by
  induction count generalizing number with
  | zero => rfl
  | succ count ih =>
    have last := holds ⟨number % 16, Nat.mod_lt number (by decide)⟩
    simp [hexDigits, ih, last]

theorem hexDigits_hexadecimal (number count : Nat) :
    (hexDigits number count).all isHexDigit = true :=
  hexDigits_all (by decide) number count

theorem hexDigit_cases {c : Char} (digit : isHexDigit c = true) :
    ∃ value : Fin 16, c = Nat.digitChar value := by
  have range : ('0' ≤ c ∧ c ≤ '9') ∨ ('a' ≤ c ∧ c ≤ 'f') := by
    simpa [isHexDigit, Char.isDigit, Char.le_def, UInt32.le_iff_toNat_le] using digit
  have small : c.toNat < 103 := by
    rcases range with ⟨-, high⟩ | ⟨-, high⟩
    · have bound : c.toNat ≤ 57 := high
      omega
    · have bound : c.toNat ≤ 102 := high
      omega
  have table : ∀ code : Fin 103, isHexDigit (Char.ofNat code) = true →
      ∃ value : Fin 16, Char.ofNat code = Nat.digitChar value := by decide
  obtain ⟨value, same⟩ := table ⟨c.toNat, small⟩ (by rw [Char.ofNat_toNat]; exact digit)
  exact ⟨value, by rw [← same, Char.ofNat_toNat]⟩

/-! ## The text -/

/-- A character of a JSON string, written with `ensure_ascii=False`. -/
def escaped (c : Char) : List Char :=
  let backslash := Char.ofNat 0x5c
  match c.toNat with
  | 0x22 | 0x5c => [backslash, c]
  | 0x08 => [backslash, 'b']
  | 0x09 => [backslash, 't']
  | 0x0a => [backslash, 'n']
  | 0x0c => [backslash, 'f']
  | 0x0d => [backslash, 'r']
  | code => if code < 0x20 then backslash :: 'u' :: hexDigits code 4 else [c]

def quoted (text : String) : List Char :=
  Char.ofNat 0x22 :: text.toList.flatMap escaped ++ [Char.ofNat 0x22]

/-- The order of texts by code points. -/
def textLe : List Char → List Char → Bool
  | [], _ => true
  | _ :: _, [] => false
  | c :: rest, d :: rest' => c.toNat < d.toNat || (c.toNat == d.toNat && textLe rest rest')

theorem textLe_total (first second : List Char) :
    textLe first second = true ∨ textLe second first = true := by
  induction first generalizing second with
  | nil => exact .inl rfl
  | cons c rest ih =>
    cases second with
    | nil => exact .inr rfl
    | cons d rest' =>
      simp only [textLe, Bool.or_eq_true, Bool.and_eq_true, decide_eq_true_eq, beq_iff_eq]
      rcases Nat.lt_trichotomy c.toNat d.toNat with below | same | beyond
      · exact .inl (.inl below)
      · exact (ih rest').imp (fun tail => .inr ⟨same, tail⟩) fun tail => .inr ⟨same.symm, tail⟩
      · exact .inr (.inl beyond)

theorem textLe_trans {first second third : List Char} (left : textLe first second = true)
    (right : textLe second third = true) : textLe first third = true := by
  induction first generalizing second third with
  | nil => rfl
  | cons c rest ih =>
    cases second with
    | nil => cases left
    | cons d rest' =>
      cases third with
      | nil => cases right
      | cons e rest'' =>
        simp only [textLe, Bool.or_eq_true, Bool.and_eq_true, decide_eq_true_eq,
          beq_iff_eq] at left right ⊢
        rcases left with below | ⟨same, left⟩ <;> rcases right with below' | ⟨same', right⟩
        · exact .inl (by omega)
        · exact .inl (by omega)
        · exact .inl (by omega)
        · exact .inr ⟨same.trans same', ih left right⟩

/-- The members of an object in the order of `sort_keys`. -/
def sortedByKey (members : List (String × List Char)) : List (String × List Char) :=
  members.insertionSort fun first second => textLe first.1.toList second.1.toList = true

mutual
/-- `canonical_json`, as a list of characters. -/
def canonicalChars : Json → List Char
  | .null => "null".toList
  | .bool true => "true".toList
  | .bool false => "false".toList
  | .number literal => literal.toList
  | .string text => quoted text
  | .array items => '[' :: [','].intercalate (canonicalItems items) ++ [']']
  | .object fields =>
    Char.ofNat 0x7b ::
      [','].intercalate ((sortedByKey (canonicalMembers fields)).map Prod.snd) ++
        [Char.ofNat 0x7d]

def canonicalItems : List Json → List (List Char)
  | [] => []
  | item :: rest => canonicalChars item :: canonicalItems rest

def canonicalMembers : List (String × Json) → List (String × List Char)
  | [] => []
  | (key, value) :: rest =>
    (key, quoted key ++ ':' :: canonicalChars value) :: canonicalMembers rest
end

def canonicalJson (value : Json) : String := String.ofList (canonicalChars value)

/-- The length of the canonical text in UTF-8. -/
def canonicalBytes (value : Json) : Nat :=
  (canonicalChars value).foldr (fun c length => c.utf8Size + length) 0

/-- A SHA-256 digest in hexadecimal digits. -/
structure HexDigest where
  digits : List Char
  length_eq : digits.length = 64
  hexadecimal : digits.all isHexDigit = true

def HexDigest.ofNat (value : Nat) : HexDigest :=
  ⟨hexDigits value 64, length_hexDigits value 64, hexDigits_hexadecimal value 64⟩

/-- The parts of the standard library that the program's texts depend on and that have no
definition here. -/
structure StandardLibrary where
  /-- `str.isalnum` of one character. -/
  isalnum : Char → Bool
  /-- `hashlib.sha256(…).hexdigest()` of a text in UTF-8. -/
  sha256 : String → HexDigest

/-- `sha256_hex` behind the prefix that tags it. -/
def taggedSha256 (library : StandardLibrary) (text : String) : String :=
  String.ofList ("sha256:".toList ++ (library.sha256 text).digits)

/-- `sha256:[0-9a-f]{64}` as a whole. -/
def isTaggedSha256 (hash : String) : Bool :=
  let tag := "sha256:".toList
  let digits := hash.toList.drop tag.length
  hash.toList.take tag.length == tag && digits.length == 64 && digits.all isHexDigit

theorem isTaggedSha256_tagged (library : StandardLibrary) (text : String) :
    isTaggedSha256 (taggedSha256 library text) = true := by
  have chars : (taggedSha256 library text).toList =
      "sha256:".toList ++ (library.sha256 text).digits := String.toList_ofList
  simp only [isTaggedSha256, chars, List.take_left', List.drop_left',
    (library.sha256 text).length_eq, (library.sha256 text).hexadecimal, beq_self_eq_true,
    Bool.and_self]

end SkillMind.Core
