import SkillMind.Runs.SourceTokens

/-!
# What a schedule accepts and what its first Run accepts

Saving a schedule and making its Run resolve the same choices.  The saving refuses every choice of
the document library, and it does not ask whether the deployment carries out what is selected, so
the verdicts differ: a schedule that could run is refused, or one is saved that fails at its first
firing.
-/

namespace SkillMind.Schedules

open Library SkillMind.Core Runs
open Documents (UnicodeTables resolveDocumentBinding)
open Effects (ExecutionFeatures)

/-- What the choices of a task are resolved in, at the saving and at the firing. -/
structure SelectionContext where
  tables : UnicodeTables
  library : StandardLibrary
  state : ResourceTables
  projectId : Uuid
  blueprint : Blueprint
  taskScopeKey : String

namespace SelectionContext

variable (c : SelectionContext)

/-- The configured binding and the token of a requirement. -/
def chosen (sources : List (String × String)) (requirement : ResourceRequirement) :
    Option StoredResourceBinding × Option String :=
  chosenToken c.state c.projectId c.taskScopeKey sources requirement

def Saves (sources : List (String × String)) : Prop :=
  saveScheduleSources c.tables c.library c.state c.projectId c.blueprint c.taskScopeKey sources =
    .ok ()

/-- The Run is not refused for these sources. -/
def Creates (features : ExecutionFeatures) (target : Option DocumentLibraryTarget)
    (sources : List (String × String)) : Prop :=
  ∃ selected, createRunSources c.tables c.library c.state c.projectId c.blueprint c.taskScopeKey
    sources features target = .ok selected

/-! ## One choice -/

def WantsLibrary (requirement : ResourceRequirement) : Prop :=
  requirement.kind = "document" ∧ requirementAccess c.blueprint requirement = "write"

def Selects (requirement : ResourceRequirement) (token : String)
    (snapshot : Documents.DocumentSnapshot) : Prop :=
  ∃ capability binding,
    (declaredCapabilities c.blueprint requirement).find?
      (fun item => item ∈ Documents.documentCapabilities) = some capability ∧
    resolveDocumentBinding c.tables c.library c.state.documents c.state.listed c.projectId
      requirement.key token capability c.blueprint.sourceExecution = .ok (snapshot, binding)

def Binds (requirement : ResourceRequirement) (configured : Option StoredResourceBinding)
    (token : String) (source : SelectedIntegration) (binding : ResolvedRunBinding) : Prop :=
  ∃ observe id,
    declaredCapability (declaredCapabilities c.blueprint requirement)
      (requirementAccess c.blueprint requirement) = .ok observe ∧
    identifyIntegration c.tables requirement.key token = .ok id ∧
    bindIntegration c.state c.projectId c.blueprint requirement configured observe id =
      .ok (source, binding)

/-- The choice is one that the task may make: the library of the deployment, documents that can
be frozen, or an Integration that can be bound. -/
def ChoiceSound (target : Option DocumentLibraryTarget) (requirement : ResourceRequirement)
    (configured : Option StoredResourceBinding) (token : String) : Prop :=
  (c.WantsLibrary requirement → target ≠ none ∧ token = "project-library:documents" ∧
    declaredCapabilities c.blueprint requirement = [documentWriteCapability]) ∧
  (requirement.kind = "document" → ¬ c.WantsLibrary requirement →
    requirementAccess c.blueprint requirement = "read" ∧
      ∃ snapshot, c.Selects requirement token snapshot) ∧
  (requirement.kind ≠ "document" →
    ∃ source binding, c.Binds requirement configured token source binding)

def ChoiceHeld (target : Option DocumentLibraryTarget) (requirement : ResourceRequirement)
    (token : String) : Prop :=
  requirement.kind = "document" → ¬ c.WantsLibrary requirement →
    ∀ place, target = some place → ∀ snapshot, c.Selects requirement token snapshot →
      ∀ document ∈ snapshot.documents,
        storedNamespace c.state c.projectId document.documentId = some place.namespace

/-- The deployment carries out what is chosen. -/
def ChoiceEnabled (features : ExecutionFeatures) (requirement : ResourceRequirement)
    (configured : Option StoredResourceBinding) (token : String) : Prop :=
  (c.WantsLibrary requirement → features.effectEnabled .documentWrite "CREATE" = true) ∧
  (requirement.kind ≠ "document" → ∀ source binding,
    c.Binds requirement configured token source binding →
      (c.blueprint.sourceExecution = true →
        accessEnabled features (.integration token source) = true) ∧
      (c.blueprint.sourceExecution = false →
        bindingEnabled features (some (.integration binding)) = true))

variable {c} {target : Option DocumentLibraryTarget} {requirement : ResourceRequirement}
  {configured : Option StoredResourceBinding} {token : String}

theorem resolveChoice_eq_ok_iff {answer : SelectedSource × Option RunBinding} :
    resolveChoice c.tables c.library c.state c.projectId c.blueprint target requirement configured
        token = .ok answer ↔
      (c.WantsLibrary requirement ∧ ∃ place, target = some place ∧
        token = "project-library:documents" ∧
        declaredCapabilities c.blueprint requirement = [documentWriteCapability] ∧
        answer = (.library place, some (.library requirement.key place))) ∨
      (requirement.kind = "document" ∧ ¬ c.WantsLibrary requirement ∧
        requirementAccess c.blueprint requirement = "read" ∧
        ∃ capability snapshot, c.Selects requirement token snapshot ∧
          (∀ place, target = some place → ∀ document ∈ snapshot.documents,
            storedNamespace c.state c.projectId document.documentId = some place.namespace) ∧
          answer = (.documents capability token snapshot target, none) ∧
          (declaredCapabilities c.blueprint requirement).find?
            (fun item => item ∈ Documents.documentCapabilities) = some capability) ∨
      (requirement.kind ≠ "document" ∧ ∃ source binding,
        c.Binds requirement configured token source binding ∧
        answer = (.integration token source, some (.integration binding))) := by
  by_cases document : requirement.kind = "document"
  · by_cases write : requirementAccess c.blueprint requirement = "write"
    · simp only [resolveChoice, WantsLibrary, document, write, if_true, true_and, not_true_eq_false,
        false_and, or_false, ne_eq, bind_eq_ok, orFault_eq_ok, require_eq_ok, exists_unit,
        pure_eq_ok]
      constructor
      · rintro ⟨place, found, ⟨chosen, declared⟩, rfl⟩
        exact ⟨place, found, chosen, declared, rfl⟩
      · rintro ⟨place, found, chosen, declared, rfl⟩
        exact ⟨place, found, ⟨chosen, declared⟩, rfl⟩
    · simp only [resolveChoice, WantsLibrary, document, write, if_true, if_false, true_and,
        and_false, false_and, false_or, not_false_eq_true, not_true_eq_false, or_false, ne_eq,
        bind_eq_ok, orFault_eq_ok, require_eq_ok, exists_unit, pure_eq_ok, mapError_eq_ok,
        resolveDocuments, Selects]
      constructor
      · rintro ⟨access, capability, found, snapshot, ⟨⟨_, binding⟩, resolved, held, rfl⟩, rfl⟩
        exact ⟨access, capability, _, ⟨capability, binding, found, resolved⟩, held, rfl, found⟩
      · rintro ⟨access, capability, snapshot, ⟨other, binding, found', resolved⟩, held, rfl,
          found⟩
        cases found'.symm.trans found
        exact ⟨access, capability, found, snapshot, ⟨(snapshot, binding), resolved, held, rfl⟩,
          rfl⟩
  · simp only [resolveChoice, WantsLibrary, document, if_false, false_and, false_or, ne_eq,
      not_false_eq_true, true_and, bind_eq_ok, pure_eq_ok, Binds]
    constructor
    · rintro ⟨observe, declared, id, identified, ⟨source, binding⟩, bound, rfl⟩
      exact ⟨source, binding, ⟨observe, id, declared, identified, bound⟩, rfl⟩
    · rintro ⟨source, binding, ⟨observe, id, declared, identified, bound⟩, rfl⟩
      exact ⟨observe, declared, id, identified, (source, binding), bound, rfl⟩

theorem Selects.unique {snapshot other : Documents.DocumentSnapshot}
    (selects : c.Selects requirement token snapshot)
    (selects' : c.Selects requirement token other) :
    snapshot = other := by
  obtain ⟨capability, binding, found, resolved⟩ := selects
  obtain ⟨capability', binding', found', resolved'⟩ := selects'
  cases found.symm.trans found'
  exact congrArg Prod.fst (Except.ok.inj (resolved.symm.trans resolved'))

theorem Binds.unique {source source' : SelectedIntegration} {binding binding' : ResolvedRunBinding}
    (binds : c.Binds requirement configured token source binding)
    (binds' : c.Binds requirement configured token source' binding') :
    source = source' ∧ binding = binding' := by
  obtain ⟨observe, id, declared, identified, bound⟩ := binds
  obtain ⟨observe', id', declared', identified', bound'⟩ := binds'
  cases declared.symm.trans declared'
  cases identified.symm.trans identified'
  cases bound.symm.trans bound'
  exact ⟨rfl, rfl⟩

theorem resolveChoice_isOk : (∃ answer, resolveChoice c.tables c.library c.state c.projectId
    c.blueprint target requirement configured token = .ok answer) ↔
      c.ChoiceSound target requirement configured token ∧
        c.ChoiceHeld target requirement token := by
  constructor
  · rintro ⟨answer, resolved⟩
    rcases resolveChoice_eq_ok_iff.mp resolved with ⟨wants, place, found, chosen, declared, -⟩ |
      ⟨document, reads, access, capability, snapshot, selects, held, -, -⟩ |
      ⟨other, source, binding, binds, -⟩
    · refine ⟨⟨fun _ => ⟨by simp [found], chosen, declared⟩, fun _ reads => absurd wants reads,
        fun other => absurd wants.1 other⟩, fun _ reads => absurd wants reads⟩
    · refine ⟨⟨fun wants => absurd wants reads, fun _ _ => ⟨access, snapshot, selects⟩,
        fun other => absurd document other⟩, fun _ _ place found snapshot' selects' => ?_⟩
      exact selects.unique selects' ▸ held place found
    · exact ⟨⟨fun wants => absurd wants.1 other, fun document => absurd document other,
        fun _ => ⟨source, binding, binds⟩⟩, fun document => absurd document other⟩
  · rintro ⟨⟨wanting, reading, integrating⟩, held⟩
    by_cases document : requirement.kind = "document"
    · by_cases wants : c.WantsLibrary requirement
      · obtain ⟨present, chosen, declared⟩ := wanting wants
        obtain ⟨place, found⟩ := Option.ne_none_iff_exists'.mp present
        exact ⟨_, resolveChoice_eq_ok_iff.mpr (.inl ⟨wants, place, found, chosen, declared, rfl⟩)⟩
      · obtain ⟨access, snapshot, selects⟩ := reading document wants
        have selects' := selects
        obtain ⟨capability, -, found, -⟩ := selects'
        exact ⟨_, resolveChoice_eq_ok_iff.mpr (.inr (.inl ⟨document, wants, access, capability,
          snapshot, selects, fun place there => held document wants place there snapshot selects,
          rfl, found⟩))⟩
    · obtain ⟨source, binding, binds⟩ := integrating document
      exact ⟨_, resolveChoice_eq_ok_iff.mpr (.inr (.inr ⟨document, source, binding, binds, rfl⟩))⟩

variable (target) in
theorem resolveChoice_none_isOk : (∃ answer, resolveChoice c.tables c.library c.state c.projectId
    c.blueprint none requirement configured token = .ok answer) ↔
      c.ChoiceSound target requirement configured token ∧ ¬ c.WantsLibrary requirement := by
  rw [resolveChoice_isOk]
  constructor
  · rintro ⟨⟨wanting, reading, integrating⟩, -⟩
    have plain : ¬ c.WantsLibrary requirement := fun wants => (wanting wants).1 rfl
    exact ⟨⟨fun wants => absurd wants plain, reading, integrating⟩, plain⟩
  · rintro ⟨⟨-, reading, integrating⟩, plain⟩
    exact ⟨⟨fun wants => absurd wants plain, reading, integrating⟩,
      fun _ _ _ found => by cases found⟩

variable {features : ExecutionFeatures}

/-- What the Run asks of one selected resource. -/
def ItemEnabled (blueprint : Blueprint) (features : ExecutionFeatures)
    (item : SelectedSource × Option RunBinding) : Prop :=
  (blueprint.sourceExecution = true → accessEnabled features item.1 = true) ∧
  (blueprint.sourceExecution = false → bindingEnabled features item.2 = true) ∧
  savingEnabled features item.2 = true

theorem accessEnabled_documents (capability candidateKey : String)
    (snapshot : Documents.DocumentSnapshot) (place : Option DocumentLibraryTarget) :
    accessEnabled features (.documents capability candidateKey snapshot place) = true := by
  have reading : isWriteCapability "document.read/v1" = false := by decide
  have immediate : isDeferredExecutionCapability "document.read/v1" = false := by decide
  have enabled : providerEnabled features "document.read/v1" "project-documents" = true := by
    rw [providerEnabled, capabilityEnabled, if_neg (by decide), if_neg (by decide),
      if_neg (by decide), if_neg (by decide), if_neg (by decide), if_neg (by decide), immediate]
    simp
  have listed : resourceCapabilities (.documents capability candidateKey snapshot place) =
      "document.read/v1" :: Documents.documentCapabilities.tail := rfl
  rw [accessEnabled, listed, List.any_cons, reading]
  simp only [SelectedSource.provider, enabled, Bool.not_false, Bool.true_and, Bool.true_or,
    Bool.or_true]

theorem itemEnabled_iff {item : SelectedSource × Option RunBinding}
    (resolved : resolveChoice c.tables c.library c.state c.projectId c.blueprint target
      requirement configured token = .ok item) :
    ItemEnabled c.blueprint features item ↔
      c.ChoiceEnabled features requirement configured token := by
  rcases resolveChoice_eq_ok_iff.mp resolved with ⟨wants, place, -, -, -, rfl⟩ |
    ⟨document, reads, -, capability, snapshot, -, -, rfl, -⟩ | ⟨other, source, binding, binds, rfl⟩
  · constructor
    · exact fun enabled => ⟨fun _ => enabled.2.2, fun other => absurd wants.1 other⟩
    · exact fun enabled => ⟨fun _ => rfl, fun _ => rfl, enabled.1 wants⟩
  · constructor
    · exact fun _ => ⟨fun wants => absurd wants reads, fun other => absurd document other⟩
    · exact fun _ => ⟨fun _ => accessEnabled_documents _ _ _ _, fun _ => rfl, rfl⟩
  · constructor
    · rintro ⟨access, provider, -⟩
      refine ⟨fun wants => absurd wants.1 other, fun _ source' binding' binds' => ?_⟩
      obtain ⟨rfl, rfl⟩ := binds.unique binds'
      exact ⟨access, provider⟩
    · rintro ⟨-, enabled⟩
      obtain ⟨access, provider⟩ := enabled other source binding binds
      exact ⟨access, provider, rfl⟩

theorem requireEnabled_isOk {selected : List (ResourceRequirement × SelectedSource ×
    Option RunBinding)} : requireEnabled c.blueprint features selected = .ok () ↔
      ∀ item ∈ selected, ItemEnabled c.blueprint features item.2 := by
  simp only [requireEnabled, bind_eq_ok, require_eq_ok, exists_unit]
  constructor
  · rintro ⟨access, provider, saving⟩ item mem
    exact ⟨fun mode => access mode item mem, fun mode => provider mode item mem, saving item mem⟩
  · intro each
    exact ⟨fun mode item mem => (each item mem).1 mode, fun mode item mem =>
      (each item mem).2.1 mode, fun item mem => (each item mem).2.2⟩

/-! ## All choices of a task -/

variable {sources : List (String × String)}

variable (c) in
/-- Every choice is one that the task may make, and none is missing. -/
structure Sound (target : Option DocumentLibraryTarget) (sources : List (String × String)) :
    Prop where
  known : ∀ source ∈ sources, source.1 ∈ c.blueprint.requirements.map ResourceRequirement.key
  required : ∀ requirement ∈ c.blueprint.requirements, c.blueprint.isRequired requirement = true →
    (c.chosen sources requirement).2 ≠ none
  choices : ∀ requirement ∈ c.blueprint.requirements, ∀ token,
    (c.chosen sources requirement).2 = some token →
      c.ChoiceSound target requirement (c.chosen sources requirement).1 token

variable (c) in
def LibraryChosen (sources : List (String × String)) : Prop :=
  ∃ requirement ∈ c.blueprint.requirements, c.WantsLibrary requirement ∧
    (c.chosen sources requirement).2 ≠ none

variable (c) in
/-- The documents that are chosen lie in the library of the deployment, if it has one. -/
def Held (target : Option DocumentLibraryTarget) (sources : List (String × String)) : Prop :=
  ∀ requirement ∈ c.blueprint.requirements, ∀ token,
    (c.chosen sources requirement).2 = some token → c.ChoiceHeld target requirement token

variable (c) in
/-- The deployment carries out all that is chosen. -/
def Enabled (features : ExecutionFeatures) (sources : List (String × String)) : Prop :=
  ∀ requirement ∈ c.blueprint.requirements, ∀ token,
    (c.chosen sources requirement).2 = some token →
      c.ChoiceEnabled features requirement (c.chosen sources requirement).1 token

theorem resolveRequirement_eq_ok_iff {out : Option (ResourceRequirement × SelectedSource ×
    Option RunBinding)} :
    resolveRequirement c.tables c.library c.state c.projectId c.blueprint target c.taskScopeKey
        sources requirement = .ok out ↔
      (∃ token answer, (c.chosen sources requirement).2 = some token ∧
        resolveChoice c.tables c.library c.state c.projectId c.blueprint target requirement
          (c.chosen sources requirement).1 token = .ok answer ∧
        out = some (requirement, answer)) ∨
      ((c.chosen sources requirement).2 = none ∧ c.blueprint.isRequired requirement = false ∧
        out = none) := by
  rw [resolveRequirement, chosen]
  rcases chosenToken c.state c.projectId c.taskScopeKey sources requirement with
    ⟨configured, _ | token⟩
  · simp only [bind_eq_ok, require_eq_ok, exists_unit, pure_eq_ok, reduceCtorEq, false_and,
      exists_false, false_or, true_and]
    exact and_congr_right fun _ => eq_comm
  · simp only [bind_eq_ok, pure_eq_ok, reduceCtorEq, false_and, or_false, Option.some.injEq]
    constructor
    · rintro ⟨answer, resolved, rfl⟩
      exact ⟨token, answer, rfl, resolved, rfl⟩
    · rintro ⟨_, answer, rfl, resolved, rfl⟩
      exact ⟨answer, resolved, rfl⟩

theorem resolveRequirement_isOk :
    (∃ out, resolveRequirement c.tables c.library c.state c.projectId c.blueprint target
        c.taskScopeKey sources requirement = .ok out) ↔
      (c.blueprint.isRequired requirement = true → (c.chosen sources requirement).2 ≠ none) ∧
      ∀ token, (c.chosen sources requirement).2 = some token →
        ∃ answer, resolveChoice c.tables c.library c.state c.projectId c.blueprint target
          requirement (c.chosen sources requirement).1 token = .ok answer := by
  simp only [resolveRequirement_eq_ok_iff]
  constructor
  · rintro ⟨out, ⟨token, answer, chosen, resolved, -⟩ | ⟨absent, optional, -⟩⟩
    · refine ⟨fun _ => by simp [chosen], fun token' chosen' => ?_⟩
      cases chosen.symm.trans chosen'
      exact ⟨answer, resolved⟩
    · refine ⟨fun required => ?_, fun token' chosen' => ?_⟩
      · rw [optional] at required
        cases required
      · rw [absent] at chosen'
        cases chosen'
  · rintro ⟨required, each⟩
    cases chosen : (c.chosen sources requirement).2 with
    | none =>
      refine ⟨none, .inr ⟨rfl, ?_, rfl⟩⟩
      cases needs : c.blueprint.isRequired requirement with
      | false => rfl
      | true => exact absurd chosen (required needs)
    | some token =>
      obtain ⟨answer, resolved⟩ := each token chosen
      exact ⟨_, .inl ⟨token, answer, rfl, resolved, rfl⟩⟩

theorem resolveSelectedSources_isOk :
    (∃ selected, resolveSelectedSources c.tables c.library c.state c.projectId c.blueprint target
        c.taskScopeKey sources = .ok selected) ↔
      (∀ source ∈ sources, source.1 ∈ c.blueprint.requirements.map ResourceRequirement.key) ∧
      ∀ requirement ∈ c.blueprint.requirements,
        ∃ out, resolveRequirement c.tables c.library c.state c.projectId c.blueprint target
          c.taskScopeKey sources requirement = .ok out := by
  have none_unknown : ((sources.map Prod.fst).filter fun key =>
      key ∉ c.blueprint.requirements.map ResourceRequirement.key) = [] ↔
        ∀ source ∈ sources, source.1 ∈ c.blueprint.requirements.map ResourceRequirement.key := by
    simp [List.filter_eq_nil_iff]
  simp only [resolveSelectedSources, bind_eq_ok, require_eq_ok, exists_unit, pure_eq_ok,
    none_unknown]
  constructor
  · rintro ⟨_, outs, each, known, -⟩
    refine ⟨known, fun requirement inside => ?_⟩
    obtain ⟨out, -, done⟩ := mapM_ok_mem each requirement inside
    exact ⟨out, done⟩
  · rintro ⟨known, each⟩
    obtain ⟨outs, all⟩ := mapM_isOk each
    exact ⟨_, outs, all, known, rfl⟩

theorem mem_resolveSelectedSources {selected : List (ResourceRequirement × SelectedSource ×
    Option RunBinding)} (resolved : resolveSelectedSources c.tables c.library c.state c.projectId
      c.blueprint target c.taskScopeKey sources = .ok selected)
    {item : ResourceRequirement × SelectedSource × Option RunBinding} : item ∈ selected ↔
      ∃ requirement ∈ c.blueprint.requirements, ∃ token,
        (c.chosen sources requirement).2 = some token ∧ item.1 = requirement ∧
        resolveChoice c.tables c.library c.state c.projectId c.blueprint target requirement
          (c.chosen sources requirement).1 token = .ok item.2 := by
  simp only [resolveSelectedSources, bind_eq_ok, require_eq_ok, exists_unit,
    pure_eq_ok] at resolved
  obtain ⟨outs, each, -, rfl⟩ := resolved
  simp only [List.mem_filterMap, id_eq, exists_eq_right]
  constructor
  · intro mem
    obtain ⟨requirement, inside, out⟩ := mapM_ok_image each _ mem
    rcases resolveRequirement_eq_ok_iff.mp out with ⟨token, answer, chosen, done, same⟩ |
      ⟨-, -, absent⟩
    · cases same
      exact ⟨requirement, inside, token, chosen, rfl, done⟩
    · cases absent
  · rintro ⟨requirement, inside, token, chosen, same, done⟩
    have out := resolveRequirement_eq_ok_iff.mpr (.inl ⟨token, item.2, chosen, done, rfl⟩)
    obtain ⟨found, mem, one⟩ := mapM_ok_mem each requirement inside
    cases one.symm.trans out
    rw [← same] at mem
    exact mem

theorem resolved_and_enabled :
    (∃ selected, resolveSelectedSources c.tables c.library c.state c.projectId c.blueprint target
        c.taskScopeKey sources = .ok selected ∧
          requireEnabled c.blueprint features selected = .ok ()) ↔
      c.Sound target sources ∧ c.Held target sources ∧ c.Enabled features sources := by
  have all : (∃ selected, resolveSelectedSources c.tables c.library c.state c.projectId
      c.blueprint target c.taskScopeKey sources = .ok selected) ↔
        c.Sound target sources ∧ c.Held target sources := by
    rw [resolveSelectedSources_isOk]
    constructor
    · rintro ⟨known, each⟩
      have parts := fun requirement inside =>
        resolveRequirement_isOk.mp (each requirement inside)
      exact ⟨⟨known, fun requirement inside => (parts requirement inside).1,
        fun requirement inside token chosen =>
          (resolveChoice_isOk.mp ((parts requirement inside).2 token chosen)).1⟩,
        fun requirement inside token chosen =>
          (resolveChoice_isOk.mp ((parts requirement inside).2 token chosen)).2⟩
    · rintro ⟨sound, held⟩
      refine ⟨sound.known, fun requirement inside => resolveRequirement_isOk.mpr
        ⟨sound.required requirement inside, fun token chosen => ?_⟩⟩
      exact resolveChoice_isOk.mpr ⟨sound.choices requirement inside token chosen,
        held requirement inside token chosen⟩
  constructor
  · rintro ⟨selected, resolved, enabled⟩
    obtain ⟨sound, held⟩ := all.mp ⟨selected, resolved⟩
    refine ⟨sound, held, fun requirement inside token chosen => ?_⟩
    obtain ⟨answer, done⟩ := resolveChoice_isOk.mpr
      ⟨sound.choices requirement inside token chosen, held requirement inside token chosen⟩
    have mem : (requirement, answer) ∈ selected :=
      (mem_resolveSelectedSources resolved).mpr ⟨requirement, inside, token, chosen, rfl, done⟩
    exact (itemEnabled_iff done).mp (requireEnabled_isOk.mp enabled _ mem)
  · rintro ⟨sound, held, enabled⟩
    obtain ⟨selected, resolved⟩ := all.mpr ⟨sound, held⟩
    refine ⟨selected, resolved, requireEnabled_isOk.mpr fun item mem => ?_⟩
    obtain ⟨requirement, inside, token, chosen, -, done⟩ :=
      (mem_resolveSelectedSources resolved).mp mem
    exact (itemEnabled_iff done).mpr (enabled requirement inside token chosen)

variable (target) in
theorem validateTaskSources_ok_iff :
    validateTaskSources c.tables c.library c.state c.projectId c.blueprint c.taskScopeKey
        sources = .ok () ↔
      c.Sound target sources ∧ ¬ c.LibraryChosen sources := by
  have resolved : validateTaskSources c.tables c.library c.state c.projectId c.blueprint
      c.taskScopeKey sources = .ok () ↔ ∃ selected, resolveSelectedSources c.tables c.library
        c.state c.projectId c.blueprint none c.taskScopeKey sources = .ok selected := by
    simp only [validateTaskSources, bind_eq_ok, pure_eq_ok, and_true]
  rw [resolved, resolveSelectedSources_isOk]
  constructor
  · rintro ⟨known, each⟩
    have parts := fun requirement inside =>
      resolveRequirement_isOk.mp (each requirement inside)
    refine ⟨⟨known, fun requirement inside => (parts requirement inside).1,
      fun requirement inside token chosen => ?_⟩, ?_⟩
    · exact ((resolveChoice_none_isOk target).mp ((parts requirement inside).2 token chosen)).1
    · rintro ⟨requirement, inside, wants, present⟩
      obtain ⟨token, chosen⟩ := Option.ne_none_iff_exists'.mp present
      exact ((resolveChoice_none_isOk target).mp
        ((parts requirement inside).2 token chosen)).2 wants
  · rintro ⟨sound, plain⟩
    refine ⟨sound.known, fun requirement inside => resolveRequirement_isOk.mpr
      ⟨sound.required requirement inside, fun token chosen => ?_⟩⟩
    refine (resolveChoice_none_isOk target).mpr ⟨sound.choices requirement inside token chosen, ?_⟩
    exact fun wants => plain ⟨requirement, inside, wants, by simp [chosen]⟩

theorem chosen_of_mem (distinct : (sources.map Prod.fst).Nodup) {source : String × String}
    (mem : source ∈ sources) (same : source.1 = requirement.key) :
    c.chosen sources requirement = (none, some source.2) := by
  have keyed : Keyed Prod.fst sources := distinct
  rw [chosen, chosenToken, keyed.find_eq mem same]

theorem Selects.readable {snapshot : Documents.DocumentSnapshot}
    (selects : c.Selects requirement token snapshot) :
    ∃ answer, resolveDocumentBinding c.tables c.library c.state.documents c.state.listed
      c.projectId requirement.key token "document.read/v1" false = .ok answer := by
  obtain ⟨capability, binding, -, resolved⟩ := selects
  simp only [resolveDocumentBinding, bind_eq_ok, require_eq_ok, exists_unit,
    pure_eq_ok] at resolved ⊢
  obtain ⟨-, selection, parsed, documents, read, frozen, freezes, -⟩ := resolved
  exact ⟨_, by decide, selection, parsed, documents, read, frozen, freezes, rfl⟩

theorem not_isDocumentSource (starts : startsWith "integration:" token = true) :
    isDocumentSource token = false := by
  have head : token.toList.head? = some 'i' := startsWith_head (by decide) starts
  have other : ∀ pre : String, pre.toList.head? ≠ none → pre.toList.head? ≠ some 'i' →
      startsWith pre token = false := by
    intro pre present different
    cases found : startsWith pre token with
    | false => rfl
    | true =>
      obtain ⟨c, first⟩ := Option.ne_none_iff_exists'.mp present
      have same := startsWith_head first found
      rw [head] at same
      exact absurd (first.trans same.symm) different
  have listed : (token ∈ ["project", "project-documents"]) = False := by
    rw [eq_iff_iff, iff_false, List.mem_pair]
    rintro (rfl | rfl) <;> cases head
  simp [isDocumentSource, listed, other "document:" (by decide) (by decide),
    other "documents:" (by decide) (by decide), other "project-documents:" (by decide) (by decide)]

theorem saves_iff (target : Option DocumentLibraryTarget)
    (distinct : (sources.map Prod.fst).Nodup) :
    c.Saves sources ↔ c.Sound target sources ∧ ¬ c.LibraryChosen sources := by
  rw [Saves, saveScheduleSources]
  simp only [bind_eq_ok, exists_unit, mapError_eq_ok, validateTaskSources_ok_iff target]
  constructor
  · exact fun saved => saved.1
  · rintro ⟨sound, plain⟩
    refine ⟨⟨sound, plain⟩, ?_⟩
    rw [revalidateDocumentChoices, forM_eq_ok]
    intro source mem
    obtain ⟨inside, like⟩ := List.mem_filter.mp mem
    obtain ⟨requirement, asked, same⟩ := List.mem_map.mp (sound.known source inside)
    have chosen : c.chosen sources requirement = (none, some source.2) :=
      chosen_of_mem distinct inside same.symm
    have choice := sound.choices requirement asked source.2 (by rw [chosen])
    by_cases document : requirement.kind = "document"
    · have reads : ¬ c.WantsLibrary requirement :=
        fun wants => plain ⟨requirement, asked, wants, by simp [chosen]⟩
      obtain ⟨-, snapshot, selects⟩ := choice.2.1 document reads
      obtain ⟨answer, resolved⟩ := selects.readable
      rw [← same, resolved]
      rfl
    · obtain ⟨_, _, _, id, -, identified, -⟩ := choice.2.2 document
      have starts := (identifyIntegration_ok_iff.mp identified).1
      rw [not_isDocumentSource starts] at like
      cases like

/-! ## The creation -/

/-- The same choices up to their spelling. -/
structure Matched (c : SelectionContext) (sources sources' : List (String × String)) : Prop where
  keys : sources'.map Prod.fst = sources.map Prod.fst
  configured : ∀ requirement,
    (c.chosen sources' requirement).1 = (c.chosen sources requirement).1
  tokens : ∀ requirement, Option.Rel (Alike c.tables) (c.chosen sources requirement).2
    (c.chosen sources' requirement).2

variable {sources' : List (String × String)} {token' : String}

theorem Matched.symm (matched : c.Matched sources sources') : c.Matched sources' sources where
  keys := matched.keys.symm
  configured := fun requirement => (matched.configured requirement).symm
  tokens := by
    intro requirement
    have pair := matched.tokens requirement
    revert pair
    generalize (c.chosen sources requirement).2 = first
    generalize (c.chosen sources' requirement).2 = second
    intro pair
    cases pair with
    | none => exact .none
    | some alike => exact .some alike.symm

theorem matched_of_normalized
    (normalized : normalizeSourceChoices c.tables sources = .ok sources') :
    c.Matched sources sources' := by
  rw [normalizeSourceChoices, mapM_eq_ok_iff] at normalized
  have each : List.Forall₂ (fun source source' : String × String => source'.1 = source.1 ∧
      Alike c.tables source.2 source'.2) sources sources' := by
    refine normalized.imp fun source source' done => ?_
    simp only [bind_eq_ok, require_eq_ok, exists_unit, pure_eq_ok] at done
    obtain ⟨-, token, written, rfl⟩ := done
    exact ⟨rfl, normalizeToken_alike written⟩
  clear normalized
  have found (key : String) :
      ((sources.find? fun source => decide (source.1 = key)) = none ∧
        (sources'.find? fun source => decide (source.1 = key)) = none) ∨
      ∃ source source', (sources.find? fun source => decide (source.1 = key)) = some source ∧
        (sources'.find? fun source => decide (source.1 = key)) = some source' ∧
        Alike c.tables source.2 source'.2 := by
    induction each with
    | nil => exact .inl ⟨rfl, rfl⟩
    | @cons source source' rest rest' head _ ih =>
      rw [List.find?_cons, List.find?_cons, head.1]
      by_cases same : source.1 = key
      · simp only [same, decide_true]
        exact .inr ⟨source, source', rfl, rfl, head.2⟩
      · simp only [same, decide_false]
        exact ih
  refine ⟨?_, fun requirement => ?_, fun requirement => ?_⟩
  · clear found
    induction each with
    | nil => rfl
    | cons head _ ih => rw [List.map_cons, List.map_cons, head.1, ih]
  · rcases found requirement.key with ⟨absent, absent'⟩ | ⟨source, source', here, here', -⟩
    · simp only [chosen, chosenToken, absent, absent']
    · simp only [chosen, chosenToken, here, here']
  · rcases found requirement.key with ⟨absent, absent'⟩ | ⟨source, source', here, here', alike⟩
    · simp only [chosen, chosenToken, absent, absent']
      cases (findConfiguredBinding c.state.bindings c.projectId c.taskScopeKey
        requirement.key).bind StoredResourceBinding.integrationId with
      | none => exact .none
      | some id => exact .some (Alike.refl _)
    · simp only [chosen, chosenToken, here, here']
      exact .some alike

theorem Selects.alike {snapshot : Documents.DocumentSnapshot}
    (selects : c.Selects requirement token snapshot) (alike : Alike c.tables token token') :
    c.Selects requirement token' snapshot := by
  obtain ⟨capability, binding, found, resolved⟩ := selects
  simp only [resolveDocumentBinding, bind_eq_ok, require_eq_ok, exists_unit, pure_eq_ok,
    Prod.mk.injEq] at resolved
  obtain ⟨capable, selection, parsed, documents, read, frozen, freezes, rfl, -⟩ := resolved
  refine ⟨capability, ?_⟩
  simp only [resolveDocumentBinding, bind_eq_ok, require_eq_ok, exists_unit, pure_eq_ok,
    Prod.mk.injEq]
  exact ⟨_, found, capable, selection, (alike.documents selection).mp parsed, documents, read,
    frozen, freezes, rfl, rfl⟩

theorem Binds.alike {source : SelectedIntegration} {binding : ResolvedRunBinding}
    (binds : c.Binds requirement configured token source binding)
    (alike : Alike c.tables token token') :
    c.Binds requirement configured token' source binding := by
  obtain ⟨observe, id, declared, identified, bound⟩ := binds
  exact ⟨observe, id, declared, (alike.integration _ _).mp identified, bound⟩

theorem ChoiceSound.alike (sound : c.ChoiceSound target requirement configured token)
    (alike : Alike c.tables token token') :
    c.ChoiceSound target requirement configured token' := by
  obtain ⟨wanting, reading, integrating⟩ := sound
  refine ⟨fun wants => ?_, fun document reads => ?_, fun other => ?_⟩
  · obtain ⟨present, chosen, declared⟩ := wanting wants
    exact ⟨present, alike.library.mp chosen, declared⟩
  · obtain ⟨access, snapshot, selects⟩ := reading document reads
    exact ⟨access, snapshot, selects.alike alike⟩
  · obtain ⟨source, binding, binds⟩ := integrating other
    exact ⟨source, binding, binds.alike alike⟩

theorem Matched.choice (matched : c.Matched sources sources')
    (chosen' : (c.chosen sources' requirement).2 = some token') :
    ∃ token, (c.chosen sources requirement).2 = some token ∧ Alike c.tables token token' := by
  have pair := matched.tokens requirement
  rw [chosen'] at pair
  cases chosen : (c.chosen sources requirement).2 with
  | none => rw [chosen] at pair; cases pair
  | some token =>
    rw [chosen] at pair
    cases pair with
    | some alike => exact ⟨token, rfl, alike⟩

theorem Sound.matched (sound : c.Sound target sources) (matched : c.Matched sources sources') :
    c.Sound target sources' where
  known := by
    intro source mem
    have key : source.1 ∈ sources'.map Prod.fst := List.mem_map_of_mem mem
    rw [matched.keys] at key
    obtain ⟨other, inside, same⟩ := List.mem_map.mp key
    exact same ▸ sound.known other inside
  required := by
    intro requirement inside required absent
    have pair := matched.tokens requirement
    rw [absent] at pair
    cases chosen : (c.chosen sources requirement).2 with
    | none => exact sound.required requirement inside required chosen
    | some token => rw [chosen] at pair; cases pair
  choices := by
    intro requirement inside token' chosen'
    obtain ⟨token, chosen, alike⟩ := matched.choice chosen'
    rw [matched.configured]
    exact (sound.choices requirement inside token chosen).alike alike

theorem Held.matched (held : c.Held target sources) (matched : c.Matched sources sources') :
    c.Held target sources' := by
  intro requirement inside token' chosen' document reads place found snapshot selects
  obtain ⟨token, chosen, alike⟩ := matched.choice chosen'
  exact held requirement inside token chosen document reads place found snapshot
    (selects.alike alike.symm)

theorem Enabled.matched (enabled : c.Enabled features sources)
    (matched : c.Matched sources sources') : c.Enabled features sources' := by
  intro requirement inside token' chosen'
  obtain ⟨token, chosen, alike⟩ := matched.choice chosen'
  obtain ⟨saving, integrating⟩ := enabled requirement inside token chosen
  refine ⟨saving, fun other source binding binds => ?_⟩
  rw [matched.configured] at binds
  exact integrating other source binding (binds.alike alike.symm)

theorem Sound.normalizes (sound : c.Sound target sources)
    (distinct : (sources.map Prod.fst).Nodup) :
    ∃ sources', normalizeSourceChoices c.tables sources = .ok sources' := by
  apply mapM_isOk
  intro source mem
  obtain ⟨requirement, inside, same⟩ := List.mem_map.mp (sound.known source mem)
  have named : source.1 ≠ "" := same ▸ c.blueprint.named requirement inside
  have choice := sound.choices requirement inside source.2
    (by rw [chosen_of_mem distinct mem same.symm])
  have selects : source.2 = "project-library:documents" ∨
      (∃ selection, Documents.parseDocumentSelection c.tables source.2 = .ok selection) ∨
        ∃ key id, identifyIntegration c.tables key source.2 = .ok id := by
    by_cases document : requirement.kind = "document"
    · by_cases wants : c.WantsLibrary requirement
      · exact .inl (choice.1 wants).2.1
      · obtain ⟨-, snapshot, _, _, -, resolved⟩ := choice.2.1 document wants
        simp only [resolveDocumentBinding, bind_eq_ok] at resolved
        obtain ⟨_, -, selection, parsed, -⟩ := resolved
        exact .inr (.inl ⟨selection, parsed⟩)
    · obtain ⟨_, _, _, id, -, identified, -⟩ := choice.2.2 document
      exact .inr (.inr ⟨_, id, identified⟩)
  obtain ⟨token, written⟩ := normalizeToken_isOk selects
  refine ⟨(source.1, token), ?_⟩
  rw [require_of named, ok_bind, written]
  rfl

theorem creates_iff (distinct : (sources.map Prod.fst).Nodup) :
    c.Creates features target sources ↔
      c.Sound target sources ∧ c.Held target sources ∧ c.Enabled features sources := by
  have steps : c.Creates features target sources ↔ ∃ sources',
      normalizeSourceChoices c.tables sources = .ok sources' ∧ ∃ selected,
        resolveSelectedSources c.tables c.library c.state c.projectId c.blueprint target
          c.taskScopeKey sources' = .ok selected ∧
        requireEnabled c.blueprint features selected = .ok () := by
    simp only [Creates, createRunSources, bind_eq_ok, exists_unit, pure_eq_ok]
    constructor
    · rintro ⟨_, sources', written, selected, resolved, enabled, -⟩
      exact ⟨sources', written, selected, resolved, enabled⟩
    · rintro ⟨sources', written, selected, resolved, enabled⟩
      exact ⟨selected, sources', written, selected, resolved, enabled, rfl⟩
  simp only [steps, resolved_and_enabled]
  constructor
  · rintro ⟨sources', written, sound, held, enabled⟩
    have matched := (matched_of_normalized written).symm
    exact ⟨sound.matched matched, held.matched matched, enabled.matched matched⟩
  · rintro ⟨sound, held, enabled⟩
    obtain ⟨sources', written⟩ := sound.normalizes distinct
    have matched := matched_of_normalized written
    exact ⟨sources', written, sound.matched matched, held.matched matched,
      enabled.matched matched⟩

end SelectionContext

/-- **Saving and firing agree on sound choices exactly when the document library is chosen in
just those cases in which the firing has something to refuse.**  On choices that are not sound
they always agree. -/
theorem schedules_agree_with_runs (c : SelectionContext) (features : ExecutionFeatures)
    (target : Option DocumentLibraryTarget) {sources : List (String × String)}
    (distinct : (sources.map Prod.fst).Nodup) :
    (c.Saves sources ↔ c.Creates features target sources) ↔
      (c.Sound target sources → (c.LibraryChosen sources ↔
        ¬ (c.Held target sources ∧ c.Enabled features sources))) := by
  rw [SelectionContext.saves_iff target distinct, SelectionContext.creates_iff distinct]
  constructor
  · intro agree sound
    constructor
    · intro library kept
      exact (agree.mpr ⟨sound, kept⟩).2 library
    · intro refused
      by_contra plain
      exact refused (agree.mp ⟨sound, plain⟩).2
  · intro agree
    constructor
    · rintro ⟨sound, plain⟩
      refine ⟨sound, ?_⟩
      by_contra refused
      exact plain ((agree sound).mpr refused)
    · rintro ⟨sound, kept⟩
      exact ⟨sound, fun library => (agree sound).mp library kept⟩

def reportTask : Blueprint where
  sourceExecution := false
  requirements :=
    [⟨"report", "document", "library", some "write", [documentWriteCapability], true⟩]
  applyKeys := []
  distinct := by decide
  named := by decide

def toolTask : Blueprint where
  sourceExecution := true
  requirements := [⟨"tools", "mcp", "resource", none, [], true⟩]
  applyKeys := []
  distinct := by decide
  named := by decide

def toolServer : ResolvedIntegration :=
  ⟨7, 5, "mcp", "mcp", .active, 1, ["mcp.tools/v1"], []⟩

/-- A project with one Integration and no documents. -/
def sampleContext (task : Blueprint) : SelectionContext :=
  ⟨Documents.asciiTables, Documents.zeroLibrary, ⟨[toolServer], [], .empty, []⟩, 5, task,
    "1:task"⟩

def reportSources : List (String × String) := [("report", "project-library:documents")]

def toolSources : List (String × String) :=
  [("tools", "integration:00000000-0000-0000-0000-000000000007")]

def reportLibrary : DocumentLibraryTarget := ⟨⟨8, "storage", true⟩, "documents"⟩

/-- A schedule that could run is refused, and one is saved that fails when it is fired. -/
theorem schedules_disagree :
    (¬ (sampleContext reportTask).Saves reportSources ∧
      (sampleContext reportTask).Creates { documentWrites := true } (some reportLibrary)
        reportSources) ∧
    ((sampleContext toolTask).Saves toolSources ∧
      ¬ (sampleContext toolTask).Creates {} (some reportLibrary) toolSources) := by
  simp only [SelectionContext.Saves, SelectionContext.Creates, exists_ok_iff]
  decide

/-- With the tools enabled, the schedule of the second task is saved and can be fired. -/
theorem schedules_agree_with_runs_sample :
    (sampleContext toolTask).Saves toolSources ↔
      (sampleContext toolTask).Creates { mcpTools := true } none toolSources := by
  have saved : (sampleContext toolTask).Saves toolSources := by
    rw [SelectionContext.Saves]
    decide
  have created : (sampleContext toolTask).Creates { mcpTools := true } none toolSources := by
    rw [SelectionContext.Creates, exists_ok_iff]
    decide
  have distinct : (toolSources.map Prod.fst).Nodup := by decide
  refine (schedules_agree_with_runs _ _ _ distinct).mpr fun _ => ?_
  have plain := ((SelectionContext.saves_iff none distinct).mp saved).2
  have kept := ((SelectionContext.creates_iff distinct).mp created).2
  exact ⟨fun library => absurd library plain, fun refused => absurd kept refused⟩

end SkillMind.Schedules
