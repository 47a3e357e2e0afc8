import SkillMind.Agent.JsonPointers
import SkillMind.Library.Assignments

/-!
# The labels of the references in a result

The model is told to name its sources by short labels.  `project_result_references` adds them to
the copy of a result that the model gets: for every reference that stands in one of the members
made for references, its label and the JSON Pointer of its place.  The saved result keeps its own
text.
-/

namespace SkillMind.Agent

open Library SkillMind.Core

/-- `^(ev|art)_[a-f0-9]{32}$` as a whole. -/
def isReference (text : List Char) : Bool :=
  let digits := if text.take 3 = ['e', 'v', '_'] then text.drop 3
    else if text.take 4 = ['a', 'r', 't', '_'] then text.drop 4 else []
  digits.length == 32 && digits.all isHexDigit

def referenceLabel (library : StandardLibrary) (reference : String) : String :=
  String.ofList ((if reference.toList.take 4 = ['a', 'r', 't', '_'] then 'A' else 'E') ::
    (library.sha256 reference).digits.take 12)

/-- `add`: a text that is a reference, with the pointer of its place. -/
def found (pointer : List Char) : Json → List (String × List Char)
  | .string text => if isReference text.toList = true then [(text, pointer)] else []
  | _ => []

def itemPointer (path : List Char) (index : Nat) : List Char :=
  path ++ '/' :: (toString index).toList

def memberPointer (path : List Char) (key : String) : List Char :=
  path ++ '/' :: escapeKey key.toList

def foundItems (path : List Char) : Nat → List Json → List (String × List Char)
  | _, [] => []
  | index, item :: rest => found (itemPointer path index) item ++ foundItems path (index + 1) rest

/-- The members of one reference. -/
def referenceKeys : List String := ["evidence_ref", "artifact_ref", "before_ref", "after_ref"]

/-- The members of a list of references. -/
def referenceListKeys : List String := ["evidence_refs", "artifact_refs"]

def foundList (pointer : List Char) : Json → Option (List (String × List Char))
  | .array items => some (foundItems pointer 0 items)
  | _ => none

/-- What a member made for references holds; `none` where it is looked through like any other. -/
def foundMember (pointer : List Char) (key : String) (value : Json) :
    Option (List (String × List Char)) :=
  if key ∈ referenceKeys then some (found pointer value)
  else if key ∈ referenceListKeys then foundList pointer value
  else none

mutual
/-- `visit`: the references in a value, in the order in which they are added. -/
def references (path : List Char) : Json → List (String × List Char)
  | .array items => itemReferences path 0 items
  | .object fields => memberReferences path fields
  | _ => []

def itemReferences (path : List Char) : Nat → List Json → List (String × List Char)
  | _, [] => []
  | index, item :: rest =>
    references (itemPointer path index) item ++ itemReferences path (index + 1) rest

def memberReferences (path : List Char) : List (String × Json) → List (String × List Char)
  | [] => []
  | (key, value) :: rest =>
    (foundMember (memberPointer path key) key value).getD
      (references (memberPointer path key) value) ++ memberReferences path rest
end

variable (library : StandardLibrary)

/-- `labels`. -/
def resultLabels (response : List (String × Json)) : List (String × String) :=
  dictOf ((references [] (.object response)).map fun entry =>
    (referenceLabel library entry.1, String.ofList entry.2))

def labelsJson (labels : List (String × String)) : Json :=
  .object (labels.map fun label => (label.1, .string label.2))

def projectResultReferences (response : List (String × Json)) : List (String × Json) :=
  if resultLabels library response = [] then response
  else put response "result_references" (labelsJson (resultLabels library response))

variable {library}

/-- Every other member of the result is kept as it is. -/
theorem lookup_projectResultReferences (response : List (String × Json)) {key : String}
    (other : key ≠ "result_references") :
    (projectResultReferences library response).lookup key = response.lookup key := by
  rw [projectResultReferences]
  split_ifs with none
  · rfl
  · rw [lookup_put, if_neg (by simpa using other)]

/-! ## Where a label points -/

/-- The value at a place of a JSON value, by the text of its pointer. -/
inductive Stands : Json → List Char → Json → Prop where
  | here {value : Json} : Stands value [] value
  | member {fields : List (String × Json)} {key : String} {value target : Json}
      {rest : List Char} (known : (key, value) ∈ fields) (further : Stands value rest target) :
      Stands (.object fields) ('/' :: escapeKey key.toList ++ rest) target
  | item {items : List Json} {index : Nat} {value target : Json} {rest : List Char}
      (known : items[index]? = some value) (further : Stands value rest target) :
      Stands (.array items) ('/' :: (toString index).toList ++ rest) target

/-- A reference stands at its place behind a path. -/
def Placed (path : List Char) (value : Json) (entry : String × List Char) : Prop :=
  isReference entry.1.toList = true ∧
    ∃ rest, entry.2 = path ++ rest ∧ Stands value rest (.string entry.1)

variable {path : List Char} {entry : String × List Char}

theorem Placed.member {fields : List (String × Json)} {key : String} {value : Json}
    (known : (key, value) ∈ fields) (placed : Placed (memberPointer path key) value entry) :
    Placed path (.object fields) entry := by
  obtain ⟨reference, rest, pointer, stands⟩ := placed
  refine ⟨reference, '/' :: escapeKey key.toList ++ rest, ?_, .member known stands⟩
  rw [pointer, memberPointer, List.append_assoc]

theorem Placed.item {items : List Json} {index : Nat} {value : Json}
    (known : items[index]? = some value) (placed : Placed (itemPointer path index) value entry) :
    Placed path (.array items) entry := by
  obtain ⟨reference, rest, pointer, stands⟩ := placed
  refine ⟨reference, '/' :: (toString index).toList ++ rest, ?_, .item known stands⟩
  rw [pointer, itemPointer, List.append_assoc]

theorem placed_of_found {value : Json} (mem : entry ∈ found path value) :
    Placed path value entry := by
  cases value with
  | string text =>
    rw [found] at mem
    split_ifs at mem with reference
    · rw [List.mem_singleton.mp mem]
      exact ⟨reference, [], (List.append_nil path).symm, .here⟩
    · cases mem
  | _ => cases mem

theorem placed_of_foundItems {items : List Json} {index : Nat}
    (mem : entry ∈ foundItems path index items) :
    ∃ offset value, items[offset]? = some value ∧
      Placed (itemPointer path (index + offset)) value entry := by
  induction items generalizing index with
  | nil => cases mem
  | cons item rest ih =>
    rw [foundItems, List.mem_append] at mem
    rcases mem with first | later
    · exact ⟨0, item, rfl, placed_of_found first⟩
    · obtain ⟨offset, value, known, placed⟩ := ih later
      refine ⟨offset + 1, value, known, ?_⟩
      rwa [Nat.add_right_comm, Nat.add_assoc] at placed

theorem placed_of_foundMember {key : String} {value : Json} {entries : List (String × List Char)}
    (made : foundMember path key value = some entries) (mem : entry ∈ entries) :
    Placed path value entry := by
  rw [foundMember] at made
  split_ifs at made with single several
  · obtain rfl := Option.some.inj made
    exact placed_of_found mem
  · cases value with
    | array items =>
      obtain rfl := Option.some.inj made
      obtain ⟨offset, value, known, placed⟩ := placed_of_foundItems mem
      exact .item known (Nat.zero_add offset ▸ placed)
    | _ => cases made

mutual
/-- Every reference that `visit` adds stands where its pointer says. -/
theorem placed_of_references (path : List Char) (value : Json) :
    ∀ entry ∈ references path value, Placed path value entry := by
  cases value with
  | array items =>
    intro entry mem
    rw [references] at mem
    obtain ⟨offset, value, known, placed⟩ := placed_of_itemReferences path 0 items entry mem
    exact .item known (Nat.zero_add offset ▸ placed)
  | object fields =>
    intro entry mem
    rw [references] at mem
    obtain ⟨key, value, known, placed⟩ := placed_of_memberReferences path fields entry mem
    exact .member known placed
  | _ => exact fun entry mem => by cases mem

theorem placed_of_itemReferences (path : List Char) (index : Nat) (items : List Json) :
    ∀ entry ∈ itemReferences path index items, ∃ offset value, items[offset]? = some value ∧
      Placed (itemPointer path (index + offset)) value entry := by
  cases items with
  | nil => exact fun entry mem => by cases mem
  | cons item rest =>
    intro entry mem
    rw [itemReferences, List.mem_append] at mem
    rcases mem with first | later
    · exact ⟨0, item, rfl, placed_of_references _ item entry first⟩
    · obtain ⟨offset, value, known, placed⟩ :=
        placed_of_itemReferences path (index + 1) rest entry later
      refine ⟨offset + 1, value, known, ?_⟩
      rwa [Nat.add_right_comm, Nat.add_assoc] at placed

theorem placed_of_memberReferences (path : List Char) (fields : List (String × Json)) :
    ∀ entry ∈ memberReferences path fields, ∃ key value, (key, value) ∈ fields ∧
      Placed (memberPointer path key) value entry := by
  cases fields with
  | nil => exact fun entry mem => by cases mem
  | cons field rest =>
    obtain ⟨key, value⟩ := field
    intro entry mem
    rw [memberReferences, List.mem_append] at mem
    rcases mem with first | later
    · refine ⟨key, value, List.mem_cons_self, ?_⟩
      cases made : foundMember (memberPointer path key) key value with
      | some entries =>
        rw [made, Option.getD_some] at first
        exact placed_of_foundMember made first
      | none =>
        rw [made, Option.getD_none] at first
        exact placed_of_references _ value entry first
    · obtain ⟨key, value, known, placed⟩ :=
        placed_of_memberReferences path rest entry later
      exact ⟨key, value, List.mem_cons_of_mem _ known, placed⟩
end

/-- **A label stands for a reference of the result**, at the place that its pointer names. -/
theorem placed_of_resultLabels {response : List (String × Json)} {label pointer : String}
    (mem : (label, pointer) ∈ resultLabels library response) :
    ∃ reference, referenceLabel library reference = label ∧
      isReference reference.toList = true ∧
      Stands (.object response) pointer.toList (.string reference) := by
  obtain ⟨entry, among, same⟩ := List.mem_map.mp (mem_of_mem_dictOf mem)
  obtain ⟨rfl, rfl⟩ := Prod.mk.inj same
  obtain ⟨reference, rest, whole, stands⟩ := placed_of_references [] _ entry among
  refine ⟨entry.1, rfl, reference, ?_⟩
  rw [String.toList_ofList, whole, List.nil_append]
  exact stands

end SkillMind.Agent
