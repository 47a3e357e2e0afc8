import SkillMind.Runs.CreationIdempotence

/-!
# One spelling for a stored request

A stored request is read back only from the text that is written for it, and two requests get one
fingerprint exactly when they ask for the same: the spelling of an identifier and the order of a
set of documents do not count, and nothing else is left out.
-/

namespace SkillMind.Documents

open Library SkillMind.Core

theorem textLe_antisymm {first second : List Char} (left : textLe first second = true)
    (right : textLe second first = true) : first = second := by
  induction first generalizing second with
  | nil =>
    cases second with
    | nil => rfl
    | cons d rest => cases right
  | cons c rest ih =>
    cases second with
    | nil => cases left
    | cons d rest' =>
      simp only [textLe, Bool.or_eq_true, Bool.and_eq_true, decide_eq_true_eq, beq_iff_eq]
        at left right
      have code : c.toNat = d.toNat := by omega
      have same : c = d := Char.toNat_inj.mp code
      have tail : textLe rest rest' = true := by
        rcases left with below | ⟨-, tail⟩
        · omega
        · exact tail
      have tail' : textLe rest' rest = true := by
        rcases right with below | ⟨-, tail⟩
        · omega
        · exact tail
      rw [same, ih tail tail']

instance : Std.Total keyLe := ⟨fun _ _ => textLe_total _ _⟩

instance : IsTrans (String × Json) keyLe := ⟨fun _ _ _ left right => textLe_trans left right⟩

theorem member_eq_some_iff {fields : List (String × Json)}
    (distinct : (fields.map Prod.fst).Nodup) {key : String} {value : Json} :
    member fields key = some value ↔ (key, value) ∈ fields := by
  induction fields with
  | nil => simp
  | cons field rest ih =>
    obtain ⟨name, first⟩ := field
    rw [List.map_cons, List.nodup_cons] at distinct
    rw [member_cons, List.mem_cons]
    by_cases same : name = key
    · subst same
      rw [if_pos rfl]
      constructor
      · intro found
        exact Or.inl (by rw [Option.some.inj found])
      · rintro (found | later)
        · rw [(Prod.mk.inj found).2]
        · exact absurd (List.mem_map_of_mem later) distinct.1
    · rw [if_neg same, ih distinct.2]
      constructor
      · exact Or.inr
      · rintro (found | later)
        · exact absurd (Prod.mk.inj found).1.symm same
        · exact later

theorem member_sortFields (fields : List (String × Json)) (key : String) :
    member (sortFields fields) key = (member fields key).map sortMembers := by
  induction fields with
  | nil => rfl
  | cons field rest ih =>
    obtain ⟨name, value⟩ := field
    rw [sortFields, member_cons, member_cons, ih]
    split <;> rfl

theorem same_object_of_perm {first second : List (String × Json)}
    (distinct : (first.map Prod.fst).Nodup) :
    (Json.object first).Same (.object second) ↔ (sortFields first).Perm (sortFields second) := by
  simp only [Json.Same, sortMembers, Json.object.injEq]
  have left := List.perm_insertionSort keyLe (sortFields first)
  have right := List.perm_insertionSort keyLe (sortFields second)
  constructor
  · intro sorted
    exact left.symm.trans (sorted ▸ right)
  · intro perm
    refine List.Perm.eq_of_pairwise (fun m n mem mem' up down => ?_)
      (List.pairwise_insertionSort keyLe _) (List.pairwise_insertionSort keyLe _)
      (left.trans (perm.trans right.symm))
    have keys : ((sortFields first).map Prod.fst).Nodup := by
      rw [sortFields_keys]
      exact distinct
    have here : n ∈ sortFields first := perm.symm.subset (right.subset mem')
    exact List.inj_on_of_nodup_map keys (left.subset mem) here
      (String.toList_inj.mp (textLe_antisymm up down))

theorem same_iff_members {first second : List (String × Json)}
    (distinct : (first.map Prod.fst).Nodup) (distinct' : (second.map Prod.fst).Nodup) :
    (Json.object first).Same (.object second) ↔
      ∀ key, (member first key).map sortMembers = (member second key).map sortMembers := by
  have keys : ((sortFields first).map Prod.fst).Nodup := by
    rw [sortFields_keys]
    exact distinct
  have keys' : ((sortFields second).map Prod.fst).Nodup := by
    rw [sortFields_keys]
    exact distinct'
  rw [same_object_of_perm distinct,
    List.perm_ext_iff_of_nodup (List.Nodup.of_map _ keys) (List.Nodup.of_map _ keys')]
  constructor
  · intro same key
    rw [← member_sortFields, ← member_sortFields]
    ext value
    rw [member_eq_some_iff keys, member_eq_some_iff keys']
    exact same (key, value)
  · rintro same ⟨key, value⟩
    rw [← member_eq_some_iff keys, ← member_eq_some_iff keys', member_sortFields,
      member_sortFields, same key]

end SkillMind.Documents

namespace SkillMind.Runs

open Library SkillMind.Core
open Documents (UnicodeTables DocumentSelection uuid member member_cons hasKeys
  parseDocumentSelection same_iff_members)
open Effects (uuidText textAt objectAt boolAt asObject asText)
open Evaluations (NoCollision)

variable {tables : UnicodeTables} {library : StandardLibrary}

/-! ## Tokens -/

/-- Two tokens that choose the same: the same documents, the same Integration, or one text. -/
inductive Respelled (tables : UnicodeTables) : String → String → Prop
  | selection {token token' : String} (selection : DocumentSelection)
      (parsed : parseDocumentSelection tables token = .ok selection)
      (parsed' : parseDocumentSelection tables token' = .ok selection) :
      Respelled tables token token'
  | integration {token token' : String} (id : Uuid)
      (read : identifyIntegration tables "" token = .ok id)
      (read' : identifyIntegration tables "" token' = .ok id) : Respelled tables token token'
  | same (token : String) : Respelled tables token token

theorem Respelled.symm {token token' : String} (respelled : Respelled tables token token') :
    Respelled tables token' token := by
  cases respelled with
  | selection selection parsed parsed' => exact .selection selection parsed' parsed
  | integration id read read' => exact .integration id read' read
  | same => exact .same token

theorem normalizeToken_cases {token token' : String}
    (normalized : normalizeToken tables token = .ok token') :
    (∃ selection, parseDocumentSelection tables token = .ok selection) ∨
      (∃ id, identifyIntegration tables "" token = .ok id) ∨ token' = token := by
  rw [normalizeToken] at normalized
  split at normalized
  · simp only [bind_eq_ok, mapError_eq_ok] at normalized
    obtain ⟨selection, parsed, -⟩ := normalized
    exact Or.inl ⟨selection, parsed⟩
  · split at normalized
    · rename_i starts
      simp only [bind_eq_ok, orFault_eq_ok] at normalized
      obtain ⟨id, read, -⟩ := normalized
      exact Or.inr (Or.inl ⟨id, identifyIntegration_ok_iff.mpr ⟨starts, read⟩⟩)
    · cases normalized
      exact Or.inr (Or.inr rfl)

theorem normalizeToken_selection {token token' : String} {selection : DocumentSelection}
    (parsed : parseDocumentSelection tables token = .ok selection)
    (parsed' : parseDocumentSelection tables token' = .ok selection) :
    normalizeToken tables token = normalizeToken tables token' := by
  rw [normalizeToken, if_pos (parseDocumentSelection_shape parsed), parsed, normalizeToken,
    if_pos (parseDocumentSelection_shape parsed'), parsed']

theorem normalizeToken_integration {token token' : String} {id : Uuid}
    (read : identifyIntegration tables "" token = .ok id)
    (read' : identifyIntegration tables "" token' = .ok id) :
    normalizeToken tables token = normalizeToken tables token' := by
  obtain ⟨starts, found⟩ := identifyIntegration_ok_iff.mp read
  obtain ⟨starts', found'⟩ := identifyIntegration_ok_iff.mp read'
  rw [normalizeToken, if_neg (not_documentLike starts), if_pos starts, found, normalizeToken,
    if_neg (not_documentLike starts'), if_pos starts', found']

theorem respelled_of_selecting {token token' normal : String}
    (normalized : normalizeToken tables token = .ok normal)
    (normalized' : normalizeToken tables token' = .ok normal)
    (selects : (∃ selection, parseDocumentSelection tables token = .ok selection) ∨
      ∃ id, identifyIntegration tables "" token = .ok id) : Respelled tables token token' := by
  have alike := normalizeToken_alike normalized
  have alike' := normalizeToken_alike normalized'
  rcases selects with ⟨selection, parsed⟩ | ⟨id, read⟩
  · exact .selection selection parsed
      ((alike'.documents selection).mpr ((alike.documents selection).mp parsed))
  · exact .integration id read
      ((alike'.integration "" id).mpr ((alike.integration "" id).mp read))

theorem normalizeToken_eq_iff {token token' normal normal' : String}
    (normalized : normalizeToken tables token = .ok normal)
    (normalized' : normalizeToken tables token' = .ok normal') :
    normal = normal' ↔ Respelled tables token token' := by
  constructor
  · rintro rfl
    rcases normalizeToken_cases normalized with parsed | read | plain
    · exact respelled_of_selecting normalized normalized' (Or.inl parsed)
    · exact respelled_of_selecting normalized normalized' (Or.inr read)
    · rcases normalizeToken_cases normalized' with parsed | read | plain'
      · exact (respelled_of_selecting normalized' normalized (Or.inl parsed)).symm
      · exact (respelled_of_selecting normalized' normalized (Or.inr read)).symm
      · rw [← plain, ← plain']
        exact .same normal
  · intro respelled
    have same : normalizeToken tables token = normalizeToken tables token' := by
      cases respelled with
      | selection selection parsed parsed' => exact normalizeToken_selection parsed parsed'
      | integration id read read' => exact normalizeToken_integration read read'
      | same => rfl
    rw [normalized, normalized'] at same
    exact Except.ok.inj same

theorem lookup_normalized {sources sources' : List (String × String)}
    (normalized : normalizeSourceChoices tables sources = .ok sources') (key : String) :
    Option.Rel (fun token token' => normalizeToken tables token = .ok token')
      (sources.lookup key) (sources'.lookup key) := by
  rw [normalizeSourceChoices, mapM_eq_ok_iff] at normalized
  induction normalized with
  | nil => exact .none
  | @cons source source' rest rest' head _ ih =>
    simp only [bind_eq_ok, require_eq_ok, exists_unit, pure_eq_ok] at head
    obtain ⟨-, token, spelled, rfl⟩ := head
    rw [List.lookup_cons, List.lookup_cons]
    split
    · exact .some spelled
    · exact ih

theorem member_sourcesJson (sources : List (String × String)) (key : String) :
    member (TaskRunIntent.sourcesJson sources) key = (sources.lookup key).map Json.string := by
  induction sources with
  | nil => rfl
  | cons source rest ih =>
    rw [TaskRunIntent.sourcesJson, List.map_cons, member_cons, List.lookup_cons]
    by_cases same : source.1 = key
    · rw [if_pos same, same, beq_self_eq_true]
      rfl
    · have other : (key == source.1) = false := by
        simpa using fun eq => same eq.symm
      rw [if_neg same, other]
      exact ih

theorem sourcesJson_keys (sources : List (String × String)) :
    (TaskRunIntent.sourcesJson sources).map Prod.fst = sources.map Prod.fst := by
  rw [TaskRunIntent.sourcesJson, List.map_map]
  rfl

theorem same_sourcesJson {sources sources' : List (String × String)}
    (distinct : (sources.map Prod.fst).Nodup) (distinct' : (sources'.map Prod.fst).Nodup) :
    (Json.object (TaskRunIntent.sourcesJson sources)).Same
        (.object (TaskRunIntent.sourcesJson sources')) ↔
      ∀ key, sources.lookup key = sources'.lookup key := by
  rw [same_iff_members (by rwa [sourcesJson_keys]) (by rwa [sourcesJson_keys])]
  constructor
  · intro same key
    have here := same key
    rw [member_sourcesJson, member_sourcesJson, Option.map_map, Option.map_map] at here
    exact Option.map_injective (fun first second eq => Json.string.inj eq) here
  · intro same key
    rw [member_sourcesJson, member_sourcesJson, same key]

theorem lookup_eq_iff {sources sources' normal normal' : List (String × String)}
    (normalized : normalizeSourceChoices tables sources = .ok normal)
    (normalized' : normalizeSourceChoices tables sources' = .ok normal') (key : String) :
    normal.lookup key = normal'.lookup key ↔
      Option.Rel (Respelled tables) (sources.lookup key) (sources'.lookup key) := by
  have left := lookup_normalized normalized key
  have right := lookup_normalized normalized' key
  revert left right
  cases sources.lookup key <;> cases sources'.lookup key <;> cases normal.lookup key <;>
    cases normal'.lookup key <;> intro left right <;> cases left <;> cases right
  · exact ⟨fun _ => .none, fun _ => rfl⟩
  · exact ⟨fun same => (by cases same), fun respelled => (by cases respelled)⟩
  · exact ⟨fun same => (by cases same), fun respelled => (by cases respelled)⟩
  · rename_i spelled spelled'
    rw [Option.some.injEq, normalizeToken_eq_iff spelled spelled']
    exact ⟨fun respelled => .some respelled, fun respelled => (by cases respelled; assumption)⟩

/-- What two requests that ask for the same agree in; the choices are compared as they were
given, before any of them was spelled again. -/
structure SameRequest (tables : UnicodeTables) (first second : TaskRunIntent) : Prop where
  project : first.projectId = second.projectId
  version : first.skillVersionId = second.skillVersionId
  task : first.taskKey = second.taskKey
  actor : first.actorId = second.actorId
  auto : first.autoApprove = second.autoApprove
  git : first.autoApproveGit = second.autoApproveGit
  mcp : first.autoApproveMcp = second.autoApproveMcp
  input : (Json.object first.input).Same (.object second.input)
  sources : ∀ key, Option.Rel (Respelled tables) (first.sources.lookup key)
    (second.sources.lookup key)

namespace TaskRunIntent

/-- The members of a stored request by their keys. -/
structure Members (intent : TaskRunIntent) : Prop where
  project : member intent.members "project_id" = some (.string (uuidText intent.projectId))
  version : member intent.members "skill_version_id" =
    some (.string (uuidText intent.skillVersionId))
  task : member intent.members "task_key" = some (.string intent.taskKey)
  actor : member intent.members "actor_id" = some (.string (uuidText intent.actorId))
  input : member intent.members "input" = some (.object intent.input)
  sources : member intent.members "sources" = some (.object (sourcesJson intent.sources))
  auto : member intent.members "auto_approve" =
    if intent.autoApprove = true then some (.bool true) else none
  git : member intent.members "auto_approve_git" =
    if intent.autoApproveGit = true then some (.bool true) else none
  mcp : member intent.members "auto_approve_mcp" =
    if intent.autoApproveMcp = true then some (.bool true) else none

theorem members_spec (intent : TaskRunIntent) : intent.Members := by
  obtain ⟨_, _, _, _, _, _, auto, git, mcp⟩ := intent
  cases auto <;> cases git <;> cases mcp <;>
    constructor <;> simp [members, flagMember, requestVersion, member]

theorem members_keys (intent : TaskRunIntent) : (intent.members.map Prod.fst).Nodup := by
  obtain ⟨_, _, _, _, _, _, auto, git, mcp⟩ := intent
  cases auto <;> cases git <;> cases mcp <;> simp [members, flagMember]

theorem uuidText_inj (tables : UnicodeTables) {first second : Uuid} (small : first < 2 ^ 128)
    (small' : second < 2 ^ 128) (same : uuidText first = uuidText second) : first = second := by
  have read : uuid tables (uuidText first) = some first := Documents.uuid_uuidText small
  rw [same, Documents.uuid_uuidText small'] at read
  exact (Option.some.inj read).symm

theorem toJson_same_iff {first second : TaskRunIntent}
    (made : checked tables first = .ok first) (made' : checked tables second = .ok second) :
    first.toJson.Same second.toJson ↔
      first.projectId = second.projectId ∧ first.skillVersionId = second.skillVersionId ∧
      first.taskKey = second.taskKey ∧ first.actorId = second.actorId ∧
      first.autoApprove = second.autoApprove ∧ first.autoApproveGit = second.autoApproveGit ∧
      first.autoApproveMcp = second.autoApproveMcp ∧
      (Json.object first.input).Same (.object second.input) ∧
      (Json.object (sourcesJson first.sources)).Same (.object (sourcesJson second.sources)) := by
  obtain ⟨⟨project, version, actor⟩, -⟩ := checked_eq_ok.mp made
  obtain ⟨⟨project', version', actor'⟩, -⟩ := checked_eq_ok.mp made'
  constructor
  · intro same
    have agree := (same_iff_members (members_keys first) (members_keys second)).mp same
    have left := members_spec first
    have right := members_spec second
    have text : ∀ key value value', member first.members key = some (.string value) →
        member second.members key = some (.string value') → value = value' := by
      intro key value value' found found'
      have here := agree key
      rw [found, found'] at here
      exact Json.string.inj (Option.some.inj here)
    have flag : ∀ key (value value' : Bool),
        (member first.members key = if value = true then some (.bool true) else none) →
        (member second.members key = if value' = true then some (.bool true) else none) →
        value = value' := by
      intro key value value' found found'
      have here := agree key
      rw [found, found'] at here
      cases value <;> cases value' <;> simp at here ⊢
    have object : ∀ key fields fields', member first.members key = some (.object fields) →
        member second.members key = some (.object fields') →
        (Json.object fields).Same (.object fields') := by
      intro key fields fields' found found'
      have here := agree key
      rw [found, found'] at here
      exact Option.some.inj here
    exact ⟨uuidText_inj tables project project' (text _ _ _ left.project right.project),
      uuidText_inj tables version version' (text _ _ _ left.version right.version),
      text _ _ _ left.task right.task,
      uuidText_inj tables actor actor' (text _ _ _ left.actor right.actor),
      flag _ _ _ left.auto right.auto, flag _ _ _ left.git right.git,
      flag _ _ _ left.mcp right.mcp, object _ _ _ left.input right.input,
      object _ _ _ left.sources right.sources⟩
  · rintro ⟨sameProject, sameVersion, sameTask, sameActor, auto, git, mcp, input, sources⟩
    have keys : first.members.map Prod.fst = second.members.map Prod.fst := by
      simp only [members, auto, git, mcp, List.map_append, List.map_cons, List.map_nil]
    rw [toJson, toJson, same_object_iff keys (members_keys first)]
    have append : ∀ fields fields' : List (String × Json),
        sortFields (fields ++ fields') = sortFields fields ++ sortFields fields' := by
      intro fields fields'
      induction fields with
      | nil => rfl
      | cons field rest ih => simp [sortFields, ih]
    simp only [members, requestVersion, auto, git, mcp, sameProject, sameVersion, sameTask,
      sameActor, append, sortFields]
    rw [show sortMembers (.object first.input) = sortMembers (.object second.input) from input,
      show sortMembers (.object (sourcesJson first.sources)) =
        sortMembers (.object (sourcesJson second.sources)) from sources]

theorem readSources_keys {fields : List (String × Json)} {sources : List (String × String)}
    (read : readSources fields = some sources) : sources.map Prod.fst = fields.map Prod.fst := by
  rw [readSources] at read
  induction fields generalizing sources with
  | nil =>
    cases read
    rfl
  | cons field rest ih =>
    simp only [List.mapM_cons, Option.bind_eq_bind, Option.bind_eq_some_iff,
      Option.map_eq_some_iff] at read
    obtain ⟨_, ⟨token, -, rfl⟩, more, readRest, same⟩ := read
    cases same
    rw [List.map_cons, List.map_cons, ih readRest]

theorem fromJson_same {value : Json} {intent : TaskRunIntent}
    (formed : value.wellFormed = true) (read : fromJson tables value = .ok intent) :
    checked tables intent = .ok intent ∧ (Json.object intent.input).wellFormed = true ∧
      (intent.sources.map Prod.fst).Nodup ∧ intent.toJson.Same value := by
  simp only [fromJson, bind_eq_ok, orFault_eq_ok, require_eq_ok, exists_unit, pure_eq_ok] at read
  obtain ⟨fields, isObject, -, _, -, _, -, _, -, _, -, _, -, _, -, _, -, input, inputAt, choices,
    choicesAt, sources, sourcesRead, made, checks, same, rfl⟩ := read
  have object : value = .object fields := by
    cases value <;> cases isObject
    rfl
  rw [object] at formed
  have inputFormed : (Json.object input).wellFormed = true := by
    rw [objectAt] at inputAt
    split at inputAt
    · rename_i found
      cases inputAt
      exact Effects.member_wellFormed formed found
    · cases inputAt
  have choicesFormed : (Json.object choices).wellFormed = true := by
    rw [objectAt] at choicesAt
    split at choicesAt
    · rename_i found
      cases choicesAt
      exact Effects.member_wellFormed formed found
    · cases choicesAt
  have keys : sources.map Prod.fst = choices.map Prod.fst := readSources_keys sourcesRead
  have distinct : (sources.map Prod.fst).Nodup := by
    rw [keys]
    simp only [Json.wellFormed, Bool.and_eq_true, decide_eq_true_eq] at choicesFormed
    exact choicesFormed.1
  obtain ⟨again, distinct'⟩ := checked_again checks distinct
  have sameInput : made.input = input := by
    obtain ⟨-, -, -, -, _, -, rfl⟩ := checked_eq_ok.mp checks
    rfl
  rw [← sameInput] at inputFormed
  refine ⟨again, inputFormed, distinct', ?_⟩
  rw [object] at same ⊢
  exact (canonicalJson_eq_iff (toJson_wellFormed inputFormed distinct') formed).mp same

theorem checked_fields {intent made : TaskRunIntent} (checks : checked tables intent = .ok made) :
    made.projectId = intent.projectId ∧ made.skillVersionId = intent.skillVersionId ∧
      made.taskKey = intent.taskKey ∧ made.actorId = intent.actorId ∧
      made.autoApprove = intent.autoApprove ∧ made.autoApproveGit = intent.autoApproveGit ∧
      made.autoApproveMcp = intent.autoApproveMcp ∧ made.input = intent.input ∧
      normalizeSourceChoices tables intent.sources = .ok made.sources := by
  obtain ⟨-, -, -, -, sources, normal, rfl⟩ := checked_eq_ok.mp checks
  exact ⟨rfl, rfl, rfl, rfl, rfl, rfl, rfl, rfl, normal⟩

theorem fingerprint_eq_iff_same {first second made made' : TaskRunIntent}
    (checks : checked tables first = .ok made) (checks' : checked tables second = .ok made')
    (input : (Json.object first.input).wellFormed = true)
    (input' : (Json.object second.input).wellFormed = true)
    (distinct : (first.sources.map Prod.fst).Nodup)
    (distinct' : (second.sources.map Prod.fst).Nodup)
    (apart : NoCollision library made.toJson made'.toJson) :
    made.fingerprint library = made'.fingerprint library ↔ SameRequest tables first second := by
  obtain ⟨again, keys⟩ := checked_again checks distinct
  obtain ⟨again', keys'⟩ := checked_again checks' distinct'
  obtain ⟨project, version, task, actor, auto, git, mcp, sameInput, normal⟩ :=
    checked_fields checks
  obtain ⟨project', version', task', actor', auto', git', mcp', sameInput', normal'⟩ :=
    checked_fields checks'
  rw [← sameInput] at input
  rw [← sameInput'] at input'
  rw [Creation.fingerprint_eq_iff (toJson_wellFormed input keys) (toJson_wellFormed input' keys')
    apart, toJson_same_iff again again', same_sourcesJson keys keys', project, version, task,
    actor, auto, git, mcp, sameInput, project', version', task', actor', auto', git', mcp',
    sameInput']
  constructor
  · rintro ⟨project, version, task, actor, auto, git, mcp, objects, choices⟩
    refine ⟨project, version, task, actor, auto, git, mcp, objects, fun key => ?_⟩
    exact (lookup_eq_iff normal normal' key).mp (choices key)
  · intro same
    refine ⟨same.project, same.version, same.task, same.actor, same.auto, same.git, same.mcp,
      same.input, fun key => ?_⟩
    exact (lookup_eq_iff normal normal' key).mpr (same.sources key)

end TaskRunIntent

end SkillMind.Runs
