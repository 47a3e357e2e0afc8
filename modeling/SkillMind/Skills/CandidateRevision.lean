import SkillMind.Agent.JsonPointers
import Mathlib.Data.List.Dedup

/-!
# Adjustments of a launch contract

An adjustment of a saved interpretation may name the places of its launch contract that it is
allowed to change. The candidate is refused when one of the places where its contract differs from
that of the parent is not at or below one of them. Both are written as JSON Pointers and compared
as texts.
-/

namespace SkillMind.Skills

open Library SkillMind.Core
open Agent (pointerBody unescape escapeKey replaceEscape EscapesOnly rawTokens)

def launchFields : List String :=
  ["title", "description", "input_contract", "input_source_trace", "resource_requirements",
    "resource_source_traces", "tools", "diagnostics"]

inductive RevisionFault where
  /-- `CandidateRevisionError`. -/
  | revision (code path message : String)
  /-- `ValueError`. -/
  | value (message : String)

def parentInvalid : RevisionFault :=
  .revision "candidate_parent_invalid" "/previous_interpretation" "Saved parent is invalid."

/-- `fields[key]`. -/
def required (fields : List (String × Json)) (key : String) : Except RevisionFault Json :=
  match fields.lookup key with
  | some value => .ok value
  | none => .error parentInvalid

def onlyObject : Option Json → Option (List (String × Json))
  | some (.array [.object fields]) => some fields
  | _ => none

def snapshotLaunchContract (manifest : List (String × Json)) :
    Except RevisionFault (Option (List (String × Json))) :=
  match manifest.lookup "skill_execution" with
  | none => .ok none
  | some (.object definition) =>
    match definition.lookup "execution_version", onlyObject (definition.lookup "tasks"),
        onlyObject (manifest.lookup "tasks") with
    | some (.string version), some task, some interface =>
      if version ≠ "skillmind.skill-execution/v2" then .error parentInvalid
      else do
        let title ← required task "title"
        let description ← required task "description"
        let inputContract ← required interface "input_contract"
        let inputSourceTrace ← required interface "contract_source_trace"
        let resourceRequirements ← required definition "resource_requirements"
        let resourceSourceTraces ← required definition "source_traces"
        let tools ← required manifest "tools"
        let diagnostics ←
          match manifest.lookup "compatibility" with
          | some (.object compatibility) =>
            .ok ((compatibility.lookup "diagnostics").getD (.array []))
          | _ => .error parentInvalid
        .ok (some [("title", title), ("description", description),
          ("input_contract", inputContract), ("input_source_trace", inputSourceTrace),
          ("resource_requirements", resourceRequirements),
          ("resource_source_traces", resourceSourceTraces), ("tools", tools),
          ("diagnostics", diagnostics)])
    | _, _, _ => .error parentInvalid
  | some _ => .error parentInvalid

def launchContractChecksum (library : StandardLibrary) (value : Json) : String :=
  taggedSha256 library (canonicalJson value)

/-- The test of one path. -/
def outsideContract (isprintable : Char → Bool) (path : String) : Bool :=
  let tokens := path.toList.splitOn '/'
  512 < path.length || !path.toList.all isprintable || path.toList.head? != some '/' ||
    16 < tokens.length || tokens.tail.any (fun token => token.isEmpty) ||
    !(launchFields.contains (String.ofList (tokens.tail.headD []))) || !pointerBody path.toList

def validateEditablePaths (isprintable : Char → Bool) :
    Json → Except RevisionFault (Option (List String))
  | .null => .ok none
  | .array items =>
    match items.mapM Json.text? with
    | none => .error (.value "Editable paths must be a nonempty bounded list of JSON Pointers")
    | some paths =>
      if paths.length < 1 ∨ 32 < paths.length then
        .error (.value "Editable paths must be a nonempty bounded list of JSON Pointers")
      else if paths.any (outsideContract isprintable) then
        .error (.value "Editable path is outside the launch contract")
      else if ¬ paths.Nodup then .error (.value "Editable paths must be unique")
      else .ok (some paths)
  | _ => .error (.value "Editable paths must be a nonempty bounded list of JSON Pointers")

/-- `sorted(set(before) | set(after))`. -/
def unionKeys (before after : List (String × Json)) : List String :=
  ((before.map Prod.fst ++ after.map Prod.fst).dedup).insertionSort
    fun first second => textLe first.toList second.toList = true

theorem sizeOf_member {fields : List (String × Json)} {key : String} {value : Json}
    (found : fields.lookup key = some value) : sizeOf value < sizeOf (Json.object fields) := by
  have smaller := List.sizeOf_lt_of_mem (mem_of_lookup found)
  simp only [Prod.mk.sizeOf_spec] at smaller
  simp only [Json.object.sizeOf_spec]
  omega

theorem sizeOf_item {items : List Json} {index : Nat} {value : Json}
    (found : items[index]? = some value) : sizeOf value < sizeOf (Json.array items) := by
  have smaller : sizeOf value < sizeOf items := List.sizeOf_lt_of_mem (List.mem_of_getElem? found)
  simp only [Json.array.sizeOf_spec]
  omega

def changedPaths (before after : Json) (path : List Char) : List (List Char) :=
  match before, after with
  | .object before, .object after =>
    (unionKeys before after).flatMap fun key =>
      let child := path ++ '/' :: escapeKey key.toList
      match _found : before.lookup key, after.lookup key with
      | some value, some value' => changedPaths value value' child
      | _, _ => [child]
  | .array before, .array after =>
    (List.range (max before.length after.length)).flatMap fun index =>
      let child := path ++ '/' :: (toString index).toList
      match _found : before[index]?, after[index]? with
      | some value, some value' => changedPaths value value' child
      | _, _ => [child]
  | before, after => if canonicalJson before ≠ canonicalJson after then [path] else []
termination_by sizeOf before
decreasing_by
  · exact sizeOf_member ‹_›
  · exact sizeOf_item ‹_›

structure PreviousInterpretation where
  launchContract : Option Json
  launchContractChecksum : Option String

/-- `changed == path or changed.startswith(path + "/")`. -/
def editable (paths : List String) (changed : List Char) : Bool :=
  paths.any fun path =>
    changed == path.toList || (path.toList ++ ['/']).isPrefixOf changed

def validateAdjustmentScope (library : StandardLibrary) (isprintable : Char → Bool)
    (previous : Option PreviousInterpretation) (adjustment : Option (List (String × Json)))
    (manifest : List (String × Json)) : Except RevisionFault Unit :=
  match (adjustment.getD []).lookup "editable_paths" with
  | none => .ok ()
  | some scope => do
    let paths ← validateEditablePaths isprintable scope
    match paths with
    | none => .error (.revision "candidate_adjustment_scope_invalid" "/adjustment"
        "Explicit scope is invalid.")
    | some paths =>
      let after ← snapshotLaunchContract manifest
      match previous, previous.bind PreviousInterpretation.launchContract, after with
      | some previous, some (.object before), some after =>
        if previous.launchContractChecksum ≠ some (launchContractChecksum library (.object before))
        then .error (.revision "candidate_parent_invalid" "/previous_interpretation"
          "Scoped adjustment requires an intact source-execution parent.")
        else if (changedPaths (.object before) (.object after) []).all (editable paths) then .ok ()
        else .error (.revision "candidate_adjustment_scope_exceeded" "/adjustment"
          "Candidate changed declarations outside the explicitly editable paths.")
      | _, _, _ => .error (.revision "candidate_parent_invalid" "/previous_interpretation"
          "Scoped adjustment requires an intact source-execution parent.")

/-! ## Positions -/

inductive Step where
  | key (name : String)
  | index (position : Nat)

def Step.token : Step → List Char
  | .key name => name.toList
  | .index position => (toString position).toList

def valueAt : List Step → Json → Option Json
  | [], value => some value
  | .key name :: rest, .object fields => (fields.lookup name).bind (valueAt rest)
  | .index position :: rest, .array items => items[position]?.bind (valueAt rest)
  | _ :: _, _ => none

def SameNode : Json → Json → Prop
  | .object _, .object _ | .array _, .array _ => True
  | first, second => first = second

/-- A position is there in both values, with the same node. -/
def Unchanged (before after : Json) (steps : List Step) : Prop :=
  ∃ value value', valueAt steps before = some value ∧ valueAt steps after = some value' ∧
    SameNode value value'

def Editable (paths : List String) (steps : List Step) : Prop :=
  ∃ path ∈ paths, (rawTokens path.toList).map unescape <+: steps.map Step.token

/-- Two values part at a position: they have the same nodes above it. -/
inductive Parts : Json → Json → List Step → Prop where
  | node {before after : Json} (differ : ¬ SameNode before after) : Parts before after []
  | added {before after : List (String × Json)} {name : String} {value : Json}
      (absent : before.lookup name = none) (present : after.lookup name = some value) :
      Parts (.object before) (.object after) [.key name]
  | removed {before after : List (String × Json)} {name : String} {value : Json}
      (present : before.lookup name = some value) (absent : after.lookup name = none) :
      Parts (.object before) (.object after) [.key name]
  | member {before after : List (String × Json)} {name : String} {value value' : Json}
      {rest : List Step} (present : before.lookup name = some value)
      (present' : after.lookup name = some value') (further : Parts value value' rest) :
      Parts (.object before) (.object after) (.key name :: rest)
  | longer {before after : List Json} {position : Nat} {value : Json}
      (absent : before[position]? = none) (present : after[position]? = some value) :
      Parts (.array before) (.array after) [.index position]
  | shorter {before after : List Json} {position : Nat} {value : Json}
      (present : before[position]? = some value) (absent : after[position]? = none) :
      Parts (.array before) (.array after) [.index position]
  | item {before after : List Json} {position : Nat} {value value' : Json} {rest : List Step}
      (present : before[position]? = some value) (present' : after[position]? = some value')
      (further : Parts value value' rest) :
      Parts (.array before) (.array after) (.index position :: rest)

theorem Parts.there {before after : Json} {steps : List Step} (parts : Parts before after steps) :
    ((valueAt steps before).isSome = true ∨ (valueAt steps after).isSome = true) ∧
      ¬ Unchanged before after steps := by
  induction parts with
  | node differ =>
    refine ⟨.inl rfl, ?_⟩
    rintro ⟨value, value', rfl', rfl'', same⟩
    obtain rfl := Option.some.inj rfl'
    obtain rfl := Option.some.inj rfl''
    exact differ same
  | added absent present | removed present absent =>
    refine ⟨by simp [valueAt, present], ?_⟩
    rintro ⟨value, value', there, there', -⟩
    simp [valueAt, absent] at there there'
  | longer absent present | shorter present absent =>
    refine ⟨by simp only [valueAt, present]; simp, ?_⟩
    rintro ⟨value, value', there, there', -⟩
    simp only [valueAt, absent] at there there'
    simp at there there'
  | member present present' further ih | item present present' further ih =>
    simp only [valueAt, Unchanged, present, present', Option.bind_some]
    exact ih

theorem SameNode.cases {before after : Json} (same : SameNode before after) :
    (∃ fields fields', before = .object fields ∧ after = .object fields') ∨
      (∃ items items', before = .array items ∧ after = .array items') ∨
      (∀ step rest, valueAt (step :: rest) before = none) ∧ after = before := by
  cases before with
  | object fields =>
    cases after with
    | object fields' => exact .inl ⟨fields, fields', rfl, rfl⟩
    | _ => cases same
  | array items =>
    cases after with
    | array items' => exact .inr (.inl ⟨items, items', rfl, rfl⟩)
    | _ => cases same
  | _ =>
    refine .inr (.inr ⟨fun step rest => ?_, ?_⟩)
    · cases step <;> rfl
    · cases after with
      | _ => exact Eq.symm same

theorem unchanged_or_parts {before after : Json} (steps : List Step)
    (there : (valueAt steps before).isSome = true ∨ (valueAt steps after).isSome = true) :
    Unchanged before after steps ∨ ∃ above, above <+: steps ∧ Parts before after above := by
  induction steps generalizing before after with
  | nil =>
    by_cases same : SameNode before after
    · exact .inl ⟨before, after, rfl, rfl, same⟩
    · exact .inr ⟨[], List.nil_prefix, .node same⟩
  | cons step rest ih =>
    by_cases same : SameNode before after
    · obtain ⟨fields, fields', rfl, rfl⟩ | ⟨items, items', rfl, rfl⟩ | ⟨below, rfl⟩ := same.cases
      · cases step with
        | index position => simp [valueAt] at there
        | key name =>
          simp only [valueAt] at there
          cases present : fields.lookup name with
          | none =>
            cases present' : fields'.lookup name with
            | none => simp [present, present'] at there
            | some value' => exact .inr ⟨_, ⟨rest, rfl⟩, .added present present'⟩
          | some value =>
            cases present' : fields'.lookup name with
            | none => exact .inr ⟨_, ⟨rest, rfl⟩, .removed present present'⟩
            | some value' =>
              rw [present, present', Option.bind_some, Option.bind_some] at there
              rcases ih there with unchanged | ⟨above, below, parts⟩
              · left
                simpa only [Unchanged, valueAt, present, present', Option.bind_some] using unchanged
              · exact .inr ⟨_, (List.prefix_cons_inj _).mpr below, .member present present' parts⟩
      · cases step with
        | key name => simp [valueAt] at there
        | index position =>
          simp only [valueAt] at there
          cases present : items[position]? with
          | none =>
            cases present' : items'[position]? with
            | none => rw [present, present'] at there; simp at there
            | some value' => exact .inr ⟨_, ⟨rest, rfl⟩, .longer present present'⟩
          | some value =>
            cases present' : items'[position]? with
            | none => exact .inr ⟨_, ⟨rest, rfl⟩, .shorter present present'⟩
            | some value' =>
              rw [present, present', Option.bind_some, Option.bind_some] at there
              rcases ih there with unchanged | ⟨above, below, parts⟩
              · left
                simpa only [Unchanged, valueAt, present, present', Option.bind_some] using unchanged
              · exact .inr ⟨_, (List.prefix_cons_inj _).mpr below, .item present present' parts⟩
      · rw [below step rest] at there
        simp at there
    · exact .inr ⟨[], List.nil_prefix, .node same⟩

theorem parts_within_iff {before after : Json} {within : List Step → Prop}
    (closed : ∀ above below, above <+: below → within above → within below) :
    (∀ steps, Parts before after steps → within steps) ↔
      ∀ steps, ((valueAt steps before).isSome = true ∨ (valueAt steps after).isSome = true) →
        ¬ within steps → Unchanged before after steps := by
  constructor
  · intro all steps there outside
    rcases unchanged_or_parts steps there with unchanged | ⟨above, above_le, parts⟩
    · exact unchanged
    · exact absurd (closed above steps above_le (all above parts)) outside
  · intro all steps parts
    by_contra outside
    exact parts.there.2 (all steps parts.there.1 outside)

def pointerOf (tokens : List (List Char)) : List Char :=
  tokens.flatMap fun token => '/' :: escapeKey token

theorem escapeKey_cons (c : Char) (key : List Char) :
    escapeKey (c :: key) =
      (if c = '~' then ['~', '0'] else if c = '/' then ['~', '1'] else [c]) ++ escapeKey key := by
  rw [escapeKey, List.flatMap_cons, List.flatMap_append]
  by_cases tilde : c = '~'
  · rw [if_pos tilde, if_pos tilde]
    rfl
  · rw [if_neg tilde, if_neg tilde, List.flatMap_cons, List.flatMap_nil, List.append_nil]
    rfl

theorem slash_free_escapeKey (key : List Char) : '/' ∉ escapeKey key := by
  induction key with
  | nil => exact List.not_mem_nil
  | cons c key ih =>
    rw [escapeKey_cons, List.mem_append]
    rintro (mem | mem)
    · split_ifs at mem with tilde slash
      · exact absurd mem (by decide)
      · exact absurd mem (by decide)
      · exact slash (List.mem_singleton.mp mem).symm
    · exact ih mem

theorem unescape_escapeKey (key : List Char) : unescape (escapeKey key) = key := by
  induction key with
  | nil => rfl
  | cons c key ih =>
    rw [escapeKey_cons]
    rw [unescape] at ih ⊢
    split_ifs with tilde slash
    · rw [tilde, List.cons_append, List.cons_append, List.nil_append,
        Agent.replaceEscape_other (by decide) (by decide), Agent.replaceEscape_escape, ih]
    · rw [slash, List.cons_append, List.cons_append, List.nil_append, Agent.replaceEscape_escape,
        Agent.replaceEscape_of_ne (by decide), ih]
    · rw [List.cons_append, List.nil_append, Agent.replaceEscape_of_ne tilde,
        Agent.replaceEscape_of_ne tilde, ih]

theorem escapeKey_unescape {raw : List Char} (free : '/' ∉ raw) (escapes : EscapesOnly raw) :
    escapeKey (unescape raw) = raw := by
  induction raw using SkillMind.Agent.pointerBody.induct with
  | case1 => rfl
  | case2 rest ih =>
    rw [List.mem_cons, List.mem_cons, not_or, not_or] at free
    have inner := ih free.2.2 ((Agent.escapesOnly_escape (.inl rfl) rest).mp escapes)
    rw [unescape] at inner ⊢
    rw [Agent.replaceEscape_other (by decide) (by decide), Agent.replaceEscape_escape,
      escapeKey_cons, if_pos rfl, inner]
    rfl
  | case3 rest ih =>
    rw [List.mem_cons, List.mem_cons, not_or, not_or] at free
    have inner := ih free.2.2 ((Agent.escapesOnly_escape (.inr rfl) rest).mp escapes)
    rw [unescape] at inner ⊢
    rw [Agent.replaceEscape_escape, Agent.replaceEscape_of_ne (by decide), escapeKey_cons,
      if_neg (by decide), if_pos rfl, inner]
    rfl
  | case4 rest no0 no1 => exact absurd escapes (Agent.not_escapesOnly no0 no1)
  | case5 c rest no0 no1 plain ih =>
    have ne : c ≠ '~' := plain
    rw [List.mem_cons, not_or] at free
    have inner := ih free.2 ((Agent.escapesOnly_of_ne ne rest).mp escapes)
    rw [unescape] at inner ⊢
    rw [Agent.replaceEscape_of_ne ne, Agent.replaceEscape_of_ne ne, escapeKey_cons, if_neg ne,
      if_neg (Ne.symm free.1), inner]
    rfl

theorem append_inj_of_slash_free {first second tail tail' : List Char} (free : '/' ∉ first)
    (free' : '/' ∉ second) (goes : ∀ c ∈ tail.head?, c = '/') (goes' : ∀ c ∈ tail'.head?, c = '/')
    (same : first ++ tail = second ++ tail') : first = second ∧ tail = tail' := by
  induction first generalizing second with
  | nil =>
    cases second with
    | nil => exact ⟨rfl, same⟩
    | cons d second =>
      have slash : d = '/' := goes d (by rw [List.nil_append] at same; rw [same]; rfl)
      exact absurd (slash ▸ List.mem_cons_self) free'
  | cons c first ih =>
    cases second with
    | nil =>
      have slash : c = '/' := goes' c (by rw [List.nil_append] at same; rw [← same]; rfl)
      exact absurd (slash ▸ List.mem_cons_self) free
    | cons d second =>
      rw [List.cons_append, List.cons_append, List.cons.injEq] at same
      obtain ⟨rfl, rest⟩ := ih (fun mem => free (List.mem_cons_of_mem _ mem))
        (fun mem => free' (List.mem_cons_of_mem _ mem)) same.2
      exact ⟨by rw [same.1], rest⟩

theorem head_pointerOf (tokens : List (List Char)) : ∀ c ∈ (pointerOf tokens).head?, c = '/' := by
  cases tokens with
  | nil => exact fun _ mem => by cases mem
  | cons token rest =>
    intro c mem
    exact (Option.some.inj mem).symm

theorem pointerOf_inj_tail {tokens tokens' : List (List Char)} {tail : List Char}
    (goes : ∀ c ∈ tail.head?, c = '/') (same : pointerOf tokens' = pointerOf tokens ++ tail) :
    tokens <+: tokens' := by
  induction tokens generalizing tokens' with
  | nil => exact List.nil_prefix
  | cons token rest ih =>
    cases tokens' with
    | nil => cases same
    | cons token' rest' =>
      simp only [pointerOf, List.flatMap_cons, List.cons_append, List.cons.injEq, true_and,
        List.append_assoc] at same
      have goes' : ∀ c ∈ (pointerOf rest ++ tail).head?, c = '/' := by
        cases rest with
        | nil => exact goes
        | cons _ _ => exact fun c mem => (Option.some.inj mem).symm
      obtain ⟨escaped, further⟩ := append_inj_of_slash_free (slash_free_escapeKey _)
        (slash_free_escapeKey _) (head_pointerOf rest') goes' same
      obtain rfl : token' = token := by
        rw [← unescape_escapeKey token', escaped, unescape_escapeKey]
      exact (List.prefix_cons_inj _).mpr (ih further)

theorem pointer_within_iff (tokens tokens' : List (List Char)) :
    (pointerOf tokens' == pointerOf tokens ||
      (pointerOf tokens ++ ['/']).isPrefixOf (pointerOf tokens')) = true ↔ tokens <+: tokens' := by
  rw [Bool.or_eq_true, beq_iff_eq, List.isPrefixOf_iff_prefix]
  constructor
  · rintro (same | ⟨rest, same⟩)
    · have ends : ∀ c ∈ ([] : List Char).head?, c = '/' := fun _ mem => by cases mem
      exact pointerOf_inj_tail ends (same.trans (List.append_nil _).symm)
    · rw [List.append_assoc] at same
      have goes : ∀ c ∈ ('/' :: rest).head?, c = '/' := fun c mem => (Option.some.inj mem).symm
      exact pointerOf_inj_tail goes same.symm
  · rintro ⟨rest, rfl⟩
    cases rest with
    | nil => exact .inl (by rw [List.append_nil])
    | cons token rest =>
      right
      refine ⟨escapeKey token ++ pointerOf rest, ?_⟩
      simp [pointerOf]

theorem joined_splitOn (body : List Char) :
    (body.splitOn '/').flatMap (fun raw => '/' :: raw) = '/' :: body := by
  induction body with
  | nil => rfl
  | cons c body ih =>
    by_cases slash : c = '/'
    · rw [slash, Agent.splitOn_self, List.flatMap_cons, ih]
      rfl
    · obtain ⟨first, more, split, whole⟩ := Agent.splitOn_cons_of_ne slash body
      rw [split, List.flatMap_cons, List.cons_append, List.cons.injEq] at ih
      rw [whole, List.flatMap_cons, List.cons_append, List.cons_append, ih.2]

theorem slash_free_splitOn {body raw : List Char} (mem : raw ∈ body.splitOn '/') : '/' ∉ raw := by
  induction body generalizing raw with
  | nil =>
    obtain rfl := List.mem_singleton.mp mem
    exact List.not_mem_nil
  | cons c body ih =>
    by_cases slash : c = '/'
    · rw [slash, Agent.splitOn_self] at mem
      rcases List.mem_cons.mp mem with rfl | mem
      · exact List.not_mem_nil
      · exact ih mem
    · obtain ⟨first, more, split, whole⟩ := Agent.splitOn_cons_of_ne slash body
      rw [whole] at mem
      rcases List.mem_cons.mp mem with rfl | mem
      · rw [List.mem_cons, not_or]
        exact ⟨Ne.symm slash, ih (split ▸ List.mem_cons_self)⟩
      · exact ih (split ▸ List.mem_cons_of_mem _ mem)

theorem pointerOf_tokens {isprintable : Char → Bool} {path : String}
    (inside : outsideContract isprintable path = false) :
    pointerOf ((rawTokens path.toList).map unescape) = path.toList := by
  simp only [outsideContract, Bool.or_eq_false_iff, Bool.not_eq_false', bne_eq_false_iff_eq]
    at inside
  obtain ⟨⟨⟨⟨⟨-, begins⟩, -⟩, -⟩, -⟩, escapes⟩ := inside
  obtain ⟨body, text⟩ := List.head?_eq_some_iff.mp begins
  rw [text] at escapes ⊢
  have all := (Agent.pointerBody_iff ('/' :: body)).mp escapes
  rw [Agent.splitOn_self] at all
  rw [Agent.rawTokens_cons, pointerOf, List.flatMap_map, ← joined_splitOn]
  refine List.flatMap_congr fun raw mem => ?_
  rw [escapeKey_unescape (slash_free_splitOn mem) (all raw (List.mem_cons_of_mem _ mem))]

theorem editable_iff {isprintable : Char → Bool} {paths : List String}
    (inside : paths.any (outsideContract isprintable) = false) (steps : List Step) :
    editable paths (pointerOf (steps.map Step.token)) = true ↔ Editable paths steps := by
  rw [editable, List.any_eq_true, Editable]
  refine exists_congr fun path => and_congr_right fun mem => ?_
  have tokens := pointerOf_tokens
    (List.any_eq_false.mp inside path mem |> Bool.eq_false_of_not_eq_true)
  rw [← pointer_within_iff, tokens]

/-! ## The places of the differences -/

theorem mem_unionKeys {before after : List (String × Json)} {name : String} :
    name ∈ unionKeys before after ↔
      name ∈ before.map Prod.fst ∨ name ∈ after.map Prod.fst := by
  rw [unionKeys, List.mem_insertionSort, List.mem_dedup, List.mem_append]

theorem canonicalJson_ne_iff {before after : Json} (formed : before.wellFormed = true)
    (formed' : after.wellFormed = true)
    (fields : ∀ fields fields', before = .object fields → after = .object fields' → False)
    (items : ∀ items items', before = .array items → after = .array items' → False) :
    canonicalJson before ≠ canonicalJson after ↔ ¬ SameNode before after := by
  rw [Ne, canonicalJson_eq_iff formed formed', not_iff_not]
  cases before with
  | object members =>
    cases after with
    | object members' => exact absurd rfl fun same => fields members members' same rfl
    | _ => simp [Json.Same, sortMembers, SameNode]
  | array members =>
    cases after with
    | array members' => exact absurd rfl fun same => items members members' same rfl
    | _ => simp [Json.Same, sortMembers, SameNode]
  | _ => cases after <;> simp [Json.Same, sortMembers, SameNode]

theorem escapeKey_index (position : Nat) :
    escapeKey (toString position).toList = (toString position).toList := by
  have plain : ∀ key : List Char, (∀ c ∈ key, c.isDigit = true) → escapeKey key = key := by
    intro key digits
    induction key with
    | nil => rfl
    | cons c key ih =>
      have digit := digits c List.mem_cons_self
      have tilde : c ≠ '~' := by rintro rfl; cases digit
      have slash : c ≠ '/' := by rintro rfl; cases digit
      rw [escapeKey_cons, if_neg tilde, if_neg slash,
        ih fun d mem => digits d (List.mem_cons_of_mem _ mem)]
      rfl
  refine plain _ fun c mem => ?_
  rw [show (toString position).toList = Nat.toDigits 10 position from String.toList_ofList] at mem
  exact Nat.isDigit_of_mem_toDigits (by decide) (by decide) mem

theorem wellFormed_member {fields : List (String × Json)} {name : String} {value : Json}
    (formed : (Json.object fields).wellFormed = true) (found : fields.lookup name = some value) :
    value.wellFormed = true := by
  rw [Json.wellFormed, Bool.and_eq_true] at formed
  exact membersWellFormed_iff.mp formed.2 _ (mem_of_lookup found)

theorem wellFormed_item {items : List Json} {position : Nat} {value : Json}
    (formed : (Json.array items).wellFormed = true) (found : items[position]? = some value) :
    value.wellFormed = true :=
  itemsWellFormed_iff.mp formed _ (List.mem_of_getElem? found)

theorem Parts.of_leaf {before after : Json} {steps : List Step} (parts : Parts before after steps)
    (fields : ∀ fields fields', before = .object fields → after = .object fields' → False)
    (items : ∀ items items', before = .array items → after = .array items' → False) :
    steps = [] := by
  cases parts with
  | node => rfl
  | added | removed | member => exact (fields _ _ rfl rfl).elim
  | longer | shorter | item => exact (items _ _ rfl rfl).elim

theorem parts_object_iff {before after : List (String × Json)} {steps : List Step} :
    Parts (.object before) (.object after) steps ↔
      ∃ name rest, steps = .key name :: rest ∧
        ((∃ value value', before.lookup name = some value ∧ after.lookup name = some value' ∧
            Parts value value' rest) ∨
          rest = [] ∧ (before.lookup name).isSome ≠ (after.lookup name).isSome) := by
  constructor
  · intro parts
    cases parts with
    | node differ => exact absurd trivial differ
    | added absent present | removed present absent =>
      exact ⟨_, [], rfl, .inr ⟨rfl, by rw [absent, present]; simp⟩⟩
    | member present present' further =>
      exact ⟨_, _, rfl, .inl ⟨_, _, present, present', further⟩⟩
  · rintro ⟨name, rest, rfl, ⟨value, value', present, present', further⟩ | ⟨rfl, differ⟩⟩
    · exact .member present present' further
    · cases present : before.lookup name with
      | none =>
        cases present' : after.lookup name with
        | none => rw [present, present'] at differ; exact absurd rfl differ
        | some value' => exact .added present present'
      | some value =>
        cases present' : after.lookup name with
        | none => exact .removed present present'
        | some value' => rw [present, present'] at differ; exact absurd rfl differ

theorem parts_array_iff {before after : List Json} {steps : List Step} :
    Parts (.array before) (.array after) steps ↔
      ∃ position rest, steps = .index position :: rest ∧
        ((∃ value value', before[position]? = some value ∧ after[position]? = some value' ∧
            Parts value value' rest) ∨
          rest = [] ∧ before[position]?.isSome ≠ after[position]?.isSome) := by
  constructor
  · intro parts
    cases parts with
    | node differ => exact absurd trivial differ
    | longer absent present | shorter present absent =>
      exact ⟨_, [], rfl, .inr ⟨rfl, by rw [absent, present]; simp⟩⟩
    | item present present' further =>
      exact ⟨_, _, rfl, .inl ⟨_, _, present, present', further⟩⟩
  · rintro ⟨position, rest, rfl, ⟨value, value', present, present', further⟩ | ⟨rfl, differ⟩⟩
    · exact .item present present' further
    · cases present : before[position]? with
      | none =>
        cases present' : after[position]? with
        | none => rw [present, present'] at differ; exact absurd rfl differ
        | some value' => exact .longer present present'
      | some value =>
        cases present' : after[position]? with
        | none => exact .shorter present present'
        | some value' => rw [present, present'] at differ; exact absurd rfl differ

theorem pointer_key (path : List Char) (name : String) (rest : List Step) :
    path ++ pointerOf ((Step.key name :: rest).map Step.token) =
      (path ++ '/' :: escapeKey name.toList) ++ pointerOf (rest.map Step.token) := by
  rw [List.append_assoc]
  rfl

theorem pointer_index (path : List Char) (position : Nat) (rest : List Step) :
    path ++ pointerOf ((Step.index position :: rest).map Step.token) =
      (path ++ '/' :: (toString position).toList) ++ pointerOf (rest.map Step.token) := by
  rw [← escapeKey_index, List.append_assoc]
  rfl

theorem mem_changedPaths {before after : Json} (formed : before.wellFormed = true)
    (formed' : after.wellFormed = true) (path changed : List Char) :
    changed ∈ changedPaths before after path ↔
      ∃ steps, Parts before after steps ∧ changed = path ++ pointerOf (steps.map Step.token) := by
  induction before, after, path using changedPaths.induct with
  | case1 path before after ih =>
    have below : ∀ {name value value'}, before.lookup name = some value →
        after.lookup name = some value' →
        (changed ∈ changedPaths value value' (path ++ '/' :: escapeKey name.toList) ↔
          ∃ rest, Parts value value' rest ∧ changed =
            path ++ pointerOf ((Step.key name :: rest).map Step.token)) := by
      intro name value value' present present'
      rw [ih name value value' present (wellFormed_member formed present)
        (wellFormed_member formed' present')]
      simp only [pointer_key]
    rw [changedPaths, List.mem_flatMap]
    constructor
    · rintro ⟨name, mem, listed⟩
      dsimp only at listed
      split at listed
      next value value' present present' =>
        obtain ⟨rest, further, same⟩ := (below present present').mp listed
        exact ⟨_, .member present present' further, same⟩
      next missing =>
        refine ⟨[.key name], parts_object_iff.mpr ⟨name, [], rfl, .inr ⟨rfl, ?_⟩⟩, ?_⟩
        · rw [mem_unionKeys, ← lookup_isSome_iff_mem, ← lookup_isSome_iff_mem] at mem
          cases present : before.lookup name with
          | none =>
            rw [present] at mem
            simpa using mem
          | some value =>
            cases present' : after.lookup name with
            | none => exact Bool.noConfusion
            | some value' => exact absurd present' (missing value value' present)
        · rw [List.mem_singleton.mp listed]
          exact (List.append_nil _).symm.trans (pointer_key path name []).symm
    · rintro ⟨steps, parts, same⟩
      obtain ⟨name, rest, rfl, ⟨value, value', present, present', further⟩ | ⟨rfl, differ⟩⟩ :=
        parts_object_iff.mp parts
      · refine ⟨name, mem_unionKeys.mpr (.inl (List.mem_map_of_mem (mem_of_lookup present))), ?_⟩
        dsimp only
        split
        next found found' there there' =>
          obtain rfl := Option.some.inj (present.symm.trans there)
          obtain rfl := Option.some.inj (present'.symm.trans there')
          exact (below there there').mpr ⟨rest, further, same⟩
        next missing => exact absurd present' (missing value value' present)
      · refine ⟨name, ?_, ?_⟩
        · rw [mem_unionKeys, ← lookup_isSome_iff_mem, ← lookup_isSome_iff_mem]
          by_contra absent
          rw [not_or, Bool.not_eq_true, Bool.not_eq_true] at absent
          exact differ (absent.1.trans absent.2.symm)
        · dsimp only
          split
          next value value' present present' =>
            rw [present, present'] at differ
            exact absurd rfl differ
          next =>
            rw [same]
            rw [pointer_key]
            exact List.mem_singleton.mpr (List.append_nil _)
  | case2 path before after ih =>
    have below : ∀ {position value value'}, before[position]? = some value →
        after[position]? = some value' →
        (changed ∈ changedPaths value value' (path ++ '/' :: (toString position).toList) ↔
          ∃ rest, Parts value value' rest ∧ changed =
            path ++ pointerOf ((Step.index position :: rest).map Step.token)) := by
      intro position value value' present present'
      rw [ih position value value' present (wellFormed_item formed present)
        (wellFormed_item formed' present')]
      simp only [pointer_index]
    rw [changedPaths, List.mem_flatMap]
    constructor
    · rintro ⟨position, mem, listed⟩
      dsimp only at listed
      split at listed
      next value value' present present' =>
        obtain ⟨rest, further, same⟩ := (below present present').mp listed
        exact ⟨_, .item present present' further, same⟩
      next missing =>
        refine ⟨[.index position], parts_array_iff.mpr ⟨position, [], rfl, .inr ⟨rfl, ?_⟩⟩, ?_⟩
        · rw [List.mem_range] at mem
          cases present : before[position]? with
          | none =>
            have short := List.getElem?_eq_none_iff.mp present
            have long : position < after.length := by omega
            rw [List.getElem?_eq_getElem long]
            exact Bool.noConfusion
          | some value =>
            cases present' : after[position]? with
            | none => exact Bool.noConfusion
            | some value' => exact absurd present' (missing value value' present)
        · rw [List.mem_singleton.mp listed]
          exact (List.append_nil _).symm.trans (pointer_index path position []).symm
    · rintro ⟨steps, parts, same⟩
      obtain ⟨position, rest, rfl, ⟨value, value', present, present', further⟩ | ⟨rfl, differ⟩⟩ :=
        parts_array_iff.mp parts
      · have long := (List.getElem?_eq_some_iff.mp present).1
        refine ⟨position, List.mem_range.mpr (by omega), ?_⟩
        dsimp only
        split
        next found found' there there' =>
          obtain rfl := Option.some.inj (present.symm.trans there)
          obtain rfl := Option.some.inj (present'.symm.trans there')
          exact (below there there').mpr ⟨rest, further, same⟩
        next missing => exact absurd present' (missing value value' present)
      · refine ⟨position, ?_, ?_⟩
        · rw [List.mem_range]
          by_contra absent
          have short : before.length ≤ position := by omega
          have short' : after.length ≤ position := by omega
          rw [List.getElem?_eq_none_iff.mpr short, List.getElem?_eq_none_iff.mpr short'] at differ
          exact differ rfl
        · dsimp only
          split
          next value value' present present' =>
            rw [present, present'] at differ
            exact absurd rfl differ
          next =>
            rw [same, pointer_index]
            exact List.mem_singleton.mpr (List.append_nil _)
  | case3 path before after fields items differ =>
    have apart := (canonicalJson_ne_iff formed formed' fields items).mp differ
    rw [changedPaths, if_pos differ, List.mem_singleton]
    · constructor
      · rintro rfl
        exact ⟨[], .node apart, (List.append_nil _).symm⟩
      · rintro ⟨steps, parts, rfl⟩
        rw [parts.of_leaf fields items]
        exact List.append_nil _
    all_goals assumption
  | case4 path before after fields items alike =>
    have same := not_imp_not.mpr (canonicalJson_ne_iff formed formed' fields items).mpr alike
    rw [changedPaths, if_neg alike]
    · refine iff_of_false List.not_mem_nil ?_
      rintro ⟨steps, parts, -⟩
      obtain rfl := parts.of_leaf fields items
      cases parts
      exact same ‹_›
    all_goals assumption

theorem validateEditablePaths_eq_ok {isprintable : Char → Bool} {scope : Json}
    {paths : List String} (accepted : validateEditablePaths isprintable scope = .ok (some paths)) :
    paths.any (outsideContract isprintable) = false := by
  cases scope with
  | array items =>
    rw [validateEditablePaths] at accepted
    split at accepted
    · cases accepted
    · split_ifs at accepted with few outside repeated
      obtain rfl := Option.some.inj (Except.ok.inj accepted)
      exact Bool.eq_false_of_not_eq_true outside
  | _ => cases accepted

/-- **Scoped adjustments change nothing else.** -/
theorem validateAdjustmentScope_iff {library : StandardLibrary} {isprintable : Char → Bool}
    {scope : Json} {paths : List String} {before after : List (String × Json)}
    {adjustment manifest : List (String × Json)}
    (explicit : adjustment.lookup "editable_paths" = some scope)
    (accepted : validateEditablePaths isprintable scope = .ok (some paths))
    (projected : snapshotLaunchContract manifest = .ok (some after))
    (formed : (Json.object before).wellFormed = true)
    (formed' : (Json.object after).wellFormed = true) :
    validateAdjustmentScope library isprintable
        (some ⟨some (.object before), some (launchContractChecksum library (.object before))⟩)
        (some adjustment) manifest = .ok () ↔
      ∀ steps, ((valueAt steps (.object before)).isSome = true ∨
          (valueAt steps (.object after)).isSome = true) →
        ¬ Editable paths steps → Unchanged (.object before) (.object after) steps := by
  have inside := validateEditablePaths_eq_ok accepted
  have closed : ∀ above below, above <+: below → Editable paths above → Editable paths below := by
    rintro above below prefixed ⟨path, mem, within⟩
    exact ⟨path, mem, within.trans (prefixed.map Step.token)⟩
  have within : (changedPaths (.object before) (.object after) []).all (editable paths) = true ↔
      ∀ steps, Parts (.object before) (.object after) steps → Editable paths steps := by
    rw [List.all_eq_true]
    constructor
    · intro all steps parts
      have changed := (mem_changedPaths formed formed' [] _).mpr ⟨steps, parts, rfl⟩
      exact (editable_iff inside steps).mp (all _ changed)
    · intro all changed mem
      obtain ⟨steps, parts, rfl⟩ := (mem_changedPaths formed formed' [] _).mp mem
      exact (editable_iff inside steps).mpr (all steps parts)
  rw [← parts_within_iff closed, ← within]
  simp only [validateAdjustmentScope, Option.getD_some, explicit, accepted, ok_bind, projected,
    Option.bind_some, ne_eq, not_true_eq_false, if_false]
  split_ifs with all
  · exact iff_of_true rfl all
  · exact iff_of_false (fun accepted => by cases accepted) all

def titledManifest (title : String) : List (String × Json) :=
  [("skill_execution", .object [("execution_version", .string "skillmind.skill-execution/v2"),
      ("tasks", .array [.object [("title", .string title), ("description", .string "d")]]),
      ("resource_requirements", .array []), ("source_traces", .array [])]),
    ("tasks", .array [.object [("input_contract", .object []),
      ("contract_source_trace", .array [])]]),
    ("tools", .array []), ("compatibility", .object [])]

def titledContract (title : String) : List (String × Json) :=
  [("title", .string title), ("description", .string "d"), ("input_contract", .object []),
    ("input_source_trace", .array []), ("resource_requirements", .array []),
    ("resource_source_traces", .array []), ("tools", .array []), ("diagnostics", .array [])]

theorem validateAdjustmentScope_of_title :
    validateAdjustmentScope Agent.digestOfThree (fun _ => true)
        (some ⟨some (.object (titledContract "a")), some (launchContractChecksum
          Agent.digestOfThree (.object (titledContract "a")))⟩)
        (some [("instruction", .string "Shorten the title."),
          ("editable_paths", .array [.string "/title"])]) (titledManifest "b") = .ok () ↔
      ∀ steps, ((valueAt steps (.object (titledContract "a"))).isSome = true ∨
          (valueAt steps (.object (titledContract "b"))).isSome = true) →
        ¬ Editable ["/title"] steps →
        Unchanged (.object (titledContract "a")) (.object (titledContract "b")) steps :=
  validateAdjustmentScope_iff (by rfl) (by rfl) (by rfl) (by decide) (by decide)

end SkillMind.Skills
