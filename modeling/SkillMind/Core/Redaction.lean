import SkillMind.Core.Hashing

/-!
# Names and texts that look like credentials

One judgement decides what is taken for a credential: a member of a JSON value by its name, a text
by an assignment to such a name or by the marker of a private key. Names are compared in lower
case and by parts, so that a column `reset_token` is taken for a credential whatever it holds.
-/

namespace SkillMind.Core

/-- `str.lower` of one character.  Beyond ASCII only two characters have an ASCII character in
their lower case, and names are only compared with ASCII texts. -/
def lowered (c : Char) : List Char :=
  if 'A' ≤ c ∧ c ≤ 'Z' then [Char.ofNat (c.toNat + 32)]
  else if c.toNat = 0x130 then ['i', Char.ofNat 0x307]
  else if c.toNat = 0x212a then ['k']
  else [c]

def lower (text : String) : List Char := text.toList.flatMap lowered

/-- The ASCII letter a character stands for under `re.IGNORECASE`. -/
def foldCase (c : Char) : Char :=
  if 'A' ≤ c ∧ c ≤ 'Z' then Char.ofNat (c.toNat + 32)
  else if c.toNat = 0x130 ∨ c.toNat = 0x131 then 'i'
  else if c.toNat = 0x17f then 's'
  else if c.toNat = 0x212a then 'k'
  else c

/-- `\s` of a regular expression. -/
def isSpace (c : Char) : Bool :=
  let code := c.toNat
  (0x09 ≤ code && code ≤ 0x0d) || (0x1c ≤ code && code ≤ 0x20) || code == 0x85 || code == 0xa0 ||
    code == 0x1680 || (0x2000 ≤ code && code ≤ 0x200a) || code == 0x2028 || code == 0x2029 ||
    code == 0x202f || code == 0x205f || code == 0x3000

/-- `fragment in text`. -/
def occursIn (fragment text : List Char) : Bool := text.tails.any fragment.isPrefixOf

section Library

variable (library : StandardLibrary)

/-- `\w` of a regular expression. -/
def isWord (c : Char) : Bool := library.isalnum c || c == '_'

/-- The names of `_CREDENTIAL_ASSIGNMENT`. -/
def assignedNames : List String :=
  ["apikey", "api_key", "api-key", "authorization", "credential", "password", "secret", "token"]

def endsWord (next : Option Char) : Bool := next.all fun c => !isWord library c

/-- An assignment to one of the names starts here. -/
def assignmentAt (previous : Option Char) (text : List Char) : Bool :=
  endsWord library previous &&
    assignedNames.any fun name =>
      let rest := text.drop name.toList.length
      (text.take name.toList.length).map foldCase == name.toList &&
        endsWord library rest.head? &&
        (rest.dropWhile isSpace).head?.any fun c => c == ':' || c == '='

def searchAssignment (previous : Option Char) : List Char → Bool
  | [] => false
  | c :: rest => assignmentAt library previous (c :: rest) || searchAssignment (some c) rest

/-- `[A-Z0-9 ]+ PRIVATE KEY-----`. -/
def labelledKey : List Char → Bool
  | [] => false
  | c :: rest =>
    (('A' ≤ c && c ≤ 'Z') || ('0' ≤ c && c ≤ '9') || c == ' ') &&
      (" PRIVATE KEY-----".toList.isPrefixOf rest || labelledKey rest)

def privateKeyAt (text : List Char) : Bool :=
  let begins := "-----BEGIN ".toList
  begins.isPrefixOf text &&
    let rest := text.drop begins.length
    "PRIVATE KEY-----".toList.isPrefixOf rest || labelledKey rest

def containsSensitiveContent (text : String) : Bool :=
  searchAssignment library none text.toList || text.toList.tails.any privateKeyAt

def sensitiveKeyNames : List String :=
  ["api_key", "auth", "authorization", "credential", "password", "secret", "token"]

def sensitiveKeyFragments : List String := ["password", "secret", "token"]

def sensitiveName (includePassword : Bool) (key : String) : Bool :=
  let counts (name : String) := includePassword || name != "password"
  (sensitiveKeyNames.any fun name => lower key == name.toList && counts name) ||
    sensitiveKeyFragments.any fun fragment =>
      occursIn fragment.toList (lower key) && counts fragment

/-- `_control_identifier`: a reference to a control of a user interface. -/
def controlIdentifier (key : String) : Json → Bool
  | .string value =>
    "automationid".toList.isSuffixOf ((lower key).filter fun c => c != '_' && c != '-') &&
      decide (0 < value.toList.length ∧ value.toList.length ≤ 512) &&
      value.toList.all (fun c => decide (32 ≤ c.toNat)) &&
      !containsSensitiveContent library value
  | _ => false

mutual
def findSensitiveKey (includePassword : Bool) : Json → Option String
  | .object fields => findSensitiveMember includePassword fields
  | .array items => findSensitiveItem includePassword items
  | _ => none

def findSensitiveMember (includePassword : Bool) : List (String × Json) → Option String
  | [] => none
  | (key, nested) :: rest =>
    if sensitiveName includePassword key = true ∧
        controlIdentifier library key nested = false then
      some key
    else
      match findSensitiveKey includePassword nested with
      | some found => some found
      | none => findSensitiveMember includePassword rest

def findSensitiveItem (includePassword : Bool) : List Json → Option String
  | [] => none
  | nested :: rest =>
    match findSensitiveKey includePassword nested with
    | some found => some found
    | none => findSensitiveItem includePassword rest
end

/-- Nothing of a member looks like a credential. -/
def PublicMember (includePassword : Bool) (member : String × Json) : Prop :=
  (sensitiveName includePassword member.1 = true →
      controlIdentifier library member.1 member.2 = true) ∧
    findSensitiveKey library includePassword member.2 = none

theorem findSensitiveMember_eq_none {includePassword : Bool} {fields : List (String × Json)} :
    findSensitiveMember library includePassword fields = none ↔
      ∀ member ∈ fields, PublicMember library includePassword member := by
  induction fields with
  | nil => simp [findSensitiveMember]
  | cons member rest ih =>
    obtain ⟨key, nested⟩ := member
    rw [findSensitiveMember, List.forall_mem_cons, ← ih, PublicMember]
    by_cases named : sensitiveName includePassword key = true ∧
        controlIdentifier library key nested = false
    · simp [named]
    · rw [if_neg named]
      have control : sensitiveName includePassword key = true →
          controlIdentifier library key nested = true := by
        intro sensitive
        by_contra other
        exact named ⟨sensitive, Bool.eq_false_of_not_eq_true other⟩
      cases findSensitiveKey library includePassword nested with
      | none => simpa using fun _ => control
      | some found => simp

theorem findSensitiveItem_eq_none {includePassword : Bool} {items : List Json} :
    findSensitiveItem library includePassword items = none ↔
      ∀ item ∈ items, findSensitiveKey library includePassword item = none := by
  induction items with
  | nil => simp [findSensitiveItem]
  | cons item rest ih =>
    rw [findSensitiveItem, List.forall_mem_cons, ← ih]
    cases findSensitiveKey library includePassword item <;> simp

end Library

end SkillMind.Core
