import SkillMind.Skills.ContractTrees

/-!
# When a draft is compiled

The checks hand the values of enums to the encoder and the patterns to `re.compile`, and stop at
the first one that raises.  The schema is encoded behind the last check.  A draft is compiled
exactly, or refused by the stable error, precisely when nothing of what is handed over raises.
-/

namespace SkillMind.Skills.TaskContract

open Library SkillMind.Core

variable {library : ContractLibrary}

/-! ## What the checks get to -/

section Scans

def Stable {α : Type} (x : Except Fault α) : Prop :=
  ∀ fault, x = .error fault → ∃ code path message, fault = .failure code path message

/-- Checks that hand over values and patterns in order, and stop at the first one that raises. -/
def Scans {α : Type} (checks : Raises → Except Fault α) : Prop :=
  ∃ (handed : List Handed) (outcome : Except Fault α), Stable outcome ∧
    ∀ raises, checks raises = (handed.findSome? raises).elim outcome .error

theorem stable_ok {α : Type} (a : α) : Stable (.ok a) := nofun

theorem stable_failure {α : Type} (code path : String) (message : PyText) :
    Stable (.error (.failure code path message) : Except Fault α) := by
  rintro fault ⟨⟩
  exact ⟨code, path, message, rfl⟩

theorem stable_require {cond : Prop} [Decidable cond] (code path : String) (message : PyText) :
    Stable (require cond (.failure code path message)) := by
  intro fault raised
  obtain ⟨-, rfl⟩ := require_eq_error.mp raised
  exact ⟨code, path, message, rfl⟩

theorem Stable.bind {α β : Type} {x : Except Fault α} {f : α → Except Fault β} (first : Stable x)
    (rest : ∀ a, Stable (f a)) : Stable (x >>= f) := by
  intro fault raised
  rcases bind_eq_error.mp raised with here | ⟨a, -, later⟩
  · exact first fault here
  · exact rest a fault later

theorem Stable.map {α β : Type} {x : Except Fault α} (stable : Stable x) (f : α → β) :
    Stable (x.map f) := by
  cases x with
  | ok a => exact stable_ok _
  | error fault =>
    rintro _ ⟨⟩
    exact stable fault rfl

theorem Stable.scans {α : Type} {x : Except Fault α} (stable : Stable x) : Scans fun _ => x :=
  ⟨[], x, stable, fun _ => rfl⟩

theorem scans_handOver (handed : Handed) : Scans fun raises => handOver raises handed := by
  refine ⟨[handed], .ok (), stable_ok _, fun raises => ?_⟩
  beta_reduce
  rw [handOver, List.findSome?_cons]
  cases raises handed <;> rfl

theorem Scans.bind {α β : Type} {checks : Raises → Except Fault α}
    {rest : Raises → α → Except Fault β} (first : Scans checks)
    (then_ : ∀ a, Scans fun raises => rest raises a) :
    Scans fun raises => checks raises >>= rest raises := by
  obtain ⟨handed, outcome, stable, runs⟩ := first
  cases outcome with
  | error fault =>
    refine ⟨handed, .error fault, ?_, fun raises => ?_⟩
    · intro other raised
      cases raised
      exact stable fault rfl
    · beta_reduce
      rw [runs raises]
      cases handed.findSome? raises <;> rfl
  | ok a =>
    obtain ⟨more, outcome, stable', runs'⟩ := then_ a
    refine ⟨handed ++ more, outcome, stable', fun raises => ?_⟩
    beta_reduce
    rw [runs raises, List.findSome?_append]
    cases handed.findSome? raises with
    | some fault => rfl
    | none => exact runs' raises

theorem Scans.map {α β : Type} {checks : Raises → Except Fault α} (scans : Scans checks)
    (f : α → β) : Scans fun raises => (checks raises).map f := by
  obtain ⟨handed, outcome, stable, runs⟩ := scans
  refine ⟨handed, outcome.map f, stable.map f, fun raises => ?_⟩
  beta_reduce
  rw [runs raises]
  cases handed.findSome? raises <;> rfl

theorem stable_typeOf (path : String) (node : Fields) : Stable (typeOf path node) := by
  intro fault raised
  rw [typeOf, orFault_eq_error] at raised
  exact ⟨_, _, _, raised.2.symm⟩

theorem stable_rejectUnknownKeys (allowed : List String) (path : String) (node : Fields) :
    Stable (rejectUnknownKeys allowed path node) := stable_require _ _ _

theorem stable_rejectInapplicableKeywords (kind : Kind) (path : String) (node : Fields) :
    Stable (rejectInapplicableKeywords kind path node) := stable_require _ _ _

theorem stable_compileDescription (path : String) (node : Fields) :
    Stable (compileDescription path node) := by
  rw [compileDescription]
  cases get "description" node with
  | null => exact stable_ok _
  | string text =>
    exact (stable_require _ _ _).bind fun _ => (stable_require _ _ _).bind fun _ => stable_ok _
  | _ => exact stable_failure _ _ _

theorem stable_optionalInteger (key : String) (upper : Option Nat) (path : String)
    (node : Fields) : Stable (optionalInteger key upper path node) := by
  rw [optionalInteger]
  cases get key node with
  | null => exact stable_ok _
  | number value =>
    cases value with
    | int value => exact (stable_require _ _ _).bind fun _ => stable_ok _
    | _ => exact stable_failure _ _ _
  | _ => exact stable_failure _ _ _

theorem stable_optionalNumber (key path : String) (node : Fields) :
    Stable (optionalNumber key path node) := by
  rw [optionalNumber]
  cases get key node with
  | null | number _ => exact stable_ok _
  | _ => exact stable_failure _ _ _

theorem stable_compileNumber (path : String) (node : Fields) : Stable (compileNumber path node) :=
  (stable_optionalNumber _ _ _).bind fun _ => (stable_optionalNumber _ _ _).bind fun _ =>
    (stable_require _ _ _).bind fun _ => stable_ok _

theorem stable_keyOf (path : String) (field : Fields) : Stable (keyOf path field) := by
  rw [keyOf]
  cases get "key" field with
  | string key => exact (stable_require _ _ _).bind fun _ => stable_ok _
  | _ => exact stable_failure _ _ _

theorem stable_requiredOf (path : String) (field : Fields) : Stable (requiredOf path field) := by
  rw [requiredOf]
  cases get "required" field with
  | bool value => exact stable_ok _
  | _ => exact stable_failure _ _ _

theorem stable_fieldsOf (path : String) (node : Fields) : Stable (fieldsOf path node) := by
  rw [fieldsOf]
  split
  · exact stable_ok _
  · exact stable_ok _
  · exact stable_failure _ _ _

theorem scans_compilePattern (path : String) (node : Fields) :
    Scans fun raises => compilePattern library raises path node := by
  simp only [compilePattern]
  cases get "pattern" node with
  | null => exact (stable_ok _).scans
  | string text =>
    exact (stable_require _ _ _).scans.bind fun _ => (stable_require _ _ _).scans.bind fun _ =>
      (scans_handOver (.pattern text)).bind fun _ => (stable_require _ _ _).scans.bind fun _ =>
        (stable_ok (some text)).scans
  | _ => exact (stable_failure _ _ _).scans

theorem scans_compileString (path : String) (node : Fields) :
    Scans fun raises => compileString library raises path node :=
  (stable_optionalInteger _ _ _ _).scans.bind fun minimum =>
    (stable_optionalInteger _ _ _ _).scans.bind fun maximum => (stable_require _ _ _).scans.bind
      fun _ => (scans_compilePattern path node).bind fun pattern =>
        (stable_ok (keyword "minLength" (minimum.map natural) ++
          keyword "maxLength" (maximum.map natural) ++
          keyword "pattern" (pattern.map Value.string))).scans

theorem scans_compileValues (kind : Kind) (path : String) (index : Nat)
    (values done : List Value) :
    Scans fun raises => compileValues raises kind path index values done := by
  induction values generalizing index done with
  | nil => exact (stable_ok done).scans
  | cons value rest ih =>
    exact (stable_require _ _ _).scans.bind fun _ => (scans_handOver (.value value)).bind fun _ =>
      (stable_require _ _ _).scans.bind fun _ => ih _ _

theorem scans_compileEnum (kind : Kind) (path : String) (node : Fields) :
    Scans fun raises => compileEnum raises kind path node := by
  simp only [compileEnum]
  cases get "enum" node with
  | null => exact (stable_ok _).scans
  | array values =>
    exact (stable_require _ _ _).scans.bind fun _ => (stable_require _ _ _).scans.bind fun _ =>
      (scans_compileValues kind path 0 values []).bind fun _ => (stable_ok _).scans
  | _ => exact (stable_failure _ _ _).scans

variable {compile : Raises → Compile}

theorem scans_compileField
    (each : ∀ path node count, Scans fun raises => compile raises path node count)
    (path : String) (known : List PyText) (raw : Value) (count : Nat) :
    Scans fun raises => compileField (compile raises) path known raw count := by
  cases raw with
  | object field =>
    exact (stable_rejectUnknownKeys _ _ _).scans.bind fun _ => (stable_keyOf _ _).scans.bind
      fun key => (stable_require _ _ _).scans.bind fun _ => (stable_requiredOf _ _).scans.bind
      fun needed => (stable_require _ _ _).scans.bind fun _ => (each path field (count + 1)).bind
      fun result => (stable_ok ((key, needed, result.1), result.2)).scans
  | _ => exact (stable_failure _ _ _).scans

theorem scans_compileFields
    (each : ∀ path node count, Scans fun raises => compile raises path node count)
    (path : String) (index : Nat) (raws : List Value)
    (done : List (PyText × Bool × Fields)) (count : Nat) :
    Scans fun raises => compileFields (compile raises) path index raws done count := by
  induction raws generalizing index done count with
  | nil => exact (stable_ok (done, count)).scans
  | cons raw rest ih =>
    exact (scans_compileField each _ _ raw count).bind fun result =>
      ih (index + 1) (done ++ [result.1]) result.2

theorem scans_compileKind
    (each : ∀ path node count, Scans fun raises => compile raises path node count)
    (kind : Kind) (path : String) (node : Fields) (count : Nat) :
    Scans fun raises => compileKind library raises (compile raises) kind path node count := by
  cases kind with
  | object =>
    exact (stable_fieldsOf _ _).scans.bind fun fields =>
      (scans_compileFields each path 0 fields [] count).bind fun result =>
        (stable_ok (objectKeywords result.1, result.2)).scans
  | array =>
    simp only [compileKind, compileArray]
    cases get "items" node with
    | object item =>
      exact (stable_rejectUnknownKeys _ _ _).scans.bind fun _ =>
        (each _ item count).bind fun result =>
          (stable_ok ([(pyText "items", Value.object result.1)], result.2)).scans
    | _ => exact (stable_failure _ _ _).scans
  | string => exact (scans_compileString path node).map _
  | integer | number => exact ((stable_compileNumber path node).map _).scans
  | boolean => exact (stable_ok _).scans

theorem scans_compileNode (left : Nat) (path : String) (node : Fields) (count : Nat) :
    Scans fun raises => compileNode library raises left path node count := by
  induction left generalizing path node count with
  | zero => exact (stable_failure _ _ _).scans
  | succ left ih =>
    exact (stable_typeOf _ _).scans.bind fun kind =>
      (stable_compileDescription _ _).scans.bind fun description =>
        (scans_compileEnum kind path node).bind fun values =>
          (scans_compileKind ih kind path node count).bind fun result =>
            (stable_rejectInapplicableKeywords kind path node).scans.bind fun _ =>
              (stable_ok ((pyText "type", Value.string (pyText kind.name)) :: description ++
                values ++ result.1, result.2)).scans

theorem scans_compileDraft (library : ContractLibrary) (draft : Fields) :
    Scans fun raises => compileDraft library raises draft :=
  (stable_rejectUnknownKeys _ _ _).scans.bind fun _ => (stable_require _ _ _).scans.bind fun _ =>
    (scans_compileNode maxContractDepth "/" draft 0).bind fun result =>
      (stable_ok ((pyText "$schema", Value.string dialect) :: result.1)).scans

end Scans

/-! ## Exactly when a draft compiles exactly -/

section Result

variable {draft : Fields}

/-- Whatever is told to raise raises `ValueError`. -/
def alarm (raises : Handed → Bool) : Raises :=
  fun handed => if raises handed then some .valueError else none

/-- The checks of a draft get to what they hand over: where it raises, they are stopped. -/
def Reached (library : ContractLibrary) (draft : Fields) (handed : Handed) : Prop :=
  ∀ raises : Handed → Bool, raises handed = true →
    compileDraft library (alarm raises) draft = .error .valueError

/-- A draft that passes its checks when nothing raises that they do not translate. -/
def Passes (library : ContractLibrary) (draft : Fields) : Prop :=
  ∃ schema, compileDraft library (fun _ => none) draft = .ok schema

/-- The values of enums that the checks get to are finite, what `re.compile` raises of the patterns
that they get to is `re.error`, and a draft that passes them has texts with an encoding and finite
bounds. -/
structure Encodes (library : ContractLibrary) (draft : Fields) : Prop where
  values : ∀ value, Reached library draft (.value value) → value.all Value.isFinite = true
  patterns : ∀ text, Reached library draft (.pattern text) →
    ∀ name, library.compiling text ≠ .other name
  passes : Passes library draft → ∀ depth node, NodeAt draft depth node → Writable node

/-- The checks run over exactly what they get to. -/
theorem compileDraft_scan (library : ContractLibrary) (draft : Fields) :
    ∃ (handed : List Handed) (outcome : Except Fault Fields), Stable outcome ∧
      (∀ raises, compileDraft library raises draft =
        (handed.findSome? raises).elim outcome .error) ∧
      ∀ item, Reached library draft item ↔ item ∈ handed := by
  classical
  obtain ⟨handed, outcome, stable, runs⟩ := scans_compileDraft library draft
  refine ⟨handed, outcome, stable, runs, fun item => ⟨fun reached => ?_, fun mem raises told => ?_⟩⟩
  · have stopped := (runs _).symm.trans (reached (fun other => decide (other = item)) (by simp))
    cases found : handed.findSome? (alarm fun other => decide (other = item)) with
    | none =>
      rw [found] at stopped
      obtain ⟨code, path, message, same⟩ := stable _ stopped
      cases same
    | some fault =>
      obtain ⟨other, mem, told⟩ := List.exists_of_findSome?_eq_some found
      rw [alarm] at told
      split_ifs at told with equal
      exact of_decide_eq_true equal ▸ mem
  · cases found : handed.findSome? (alarm raises) with
    | none =>
      have silent := List.findSome?_eq_none_iff.mp found item mem
      rw [alarm, if_pos told] at silent
      cases silent
    | some fault =>
      obtain ⟨other, -, told'⟩ := List.exists_of_findSome?_eq_some found
      rw [alarm] at told'
      split_ifs at told'
      obtain rfl := Option.some.inj told'
      exact (runs _).trans (by rw [found]; rfl)

theorem raisedOf_eq_none {handed : Handed} :
    raisedOf library handed = none ↔
      (∀ value, handed = .value value → value.all Value.isFinite = true) ∧
        ∀ text, handed = .pattern text → ∀ name, library.compiling text ≠ .other name := by
  cases handed with
  | value value => simp [raisedOf, refused]
  | pattern text => cases compiling : library.compiling text <;> simp [raisedOf, compiling]

theorem raisedOf_untranslated {handed : Handed} {fault : Fault}
    (raised : raisedOf library handed = some fault) (code path : String) (message : PyText) :
    fault ≠ .failure code path message := by
  rintro rfl
  cases handed with
  | value value =>
    rw [raisedOf] at raised
    split_ifs at raised
    cases raised
  | pattern text =>
    cases compiling : library.compiling text <;> simp [raisedOf, compiling] at raised

theorem compileDraft_of_silent
    (silent : ∀ handed, Reached library draft handed → raisedOf library handed = none) :
    compileDraft library (raisedOf library) draft = compileDraft library (fun _ => none) draft := by
  obtain ⟨handed, outcome, -, runs, reached⟩ := compileDraft_scan library draft
  have none : handed.findSome? (raisedOf library) = none :=
    List.findSome?_eq_none_iff.mpr fun item mem => silent item ((reached item).mpr mem)
  have never : handed.findSome? (fun _ => (Option.none : Option Fault)) = Option.none :=
    List.findSome?_eq_none_iff.mpr fun _ _ => rfl
  rw [runs, runs, none, never]

/-- What raises at a place that the checks get to is what the compilation raises. -/
theorem compileDraft_of_reached {handed : Handed} (reached : Reached library draft handed)
    (raises : raisedOf library handed ≠ none) :
    ∃ other fault, raisedOf library other = some fault ∧
      compileDraft library (raisedOf library) draft = .error fault := by
  obtain ⟨all, outcome, -, runs, mem⟩ := compileDraft_scan library draft
  cases found : all.findSome? (raisedOf library) with
  | none => exact absurd (List.findSome?_eq_none_iff.mp found _ ((mem handed).mp reached)) raises
  | some fault =>
    obtain ⟨other, -, raised⟩ := List.exists_of_findSome?_eq_some found
    exact ⟨other, fault, raised, (runs _).trans (by rw [found]; rfl)⟩

theorem stable_compileDraft (library : ContractLibrary) (draft : Fields) :
    Stable (compileDraft library (fun _ => none) draft) := by
  obtain ⟨handed, outcome, stable, runs, -⟩ := compileDraft_scan library draft
  have never : handed.findSome? (fun _ => (none : Option Fault)) = none :=
    List.findSome?_eq_none_iff.mpr fun _ _ => rfl
  rw [runs, never]
  exact stable

theorem compileDraft_meta {raises : Raises} {schema : Fields}
    (compiled : compileDraft library raises draft = .ok schema) :
    library.checkSchema schema = .ok () := by
  obtain ⟨inner, counted, below, rfl⟩ := compileDraft_ok compiled
  exact library.checkSchema_ok _
    (.keyword .dialect (compileNode_meta _ _ _ _ _ _ below))

theorem compileDraft_plain {schema : Fields}
    (compiled : compileDraft library (raisedOf library) draft = .ok schema) :
    (Value.object schema).all Value.isPlain = true ↔
      ∀ depth node, NodeAt draft depth node → Writable node := by
  obtain ⟨inner, counted, below, rfl⟩ := compileDraft_ok compiled
  have front : PlainFields (keyword "$schema" (some (.string dialect))) := by
    rw [plainFields_keyword]
    intro one mem
    obtain rfl := Option.some.inj mem
    exact plain_string.mpr (PyJson.hasSurrogate_pyText _)
  rw [plain_object, plainFields_append, and_iff_right front]
  exact compileNode_plain _ _ _ _ _ _ below

theorem Value.isFinite_of_isPlain {value : Value} (plain : value.isPlain = true) :
    value.isFinite = true := by
  cases value <;> first | rfl | exact plain

mutual
theorem all_isFinite : ∀ value : Value, value.all Value.isPlain = true →
    value.all Value.isFinite = true
  | .array items, plain => by
    rw [Value.all, Bool.and_eq_true] at plain ⊢
    exact ⟨Value.isFinite_of_isPlain plain.1, allItems_isFinite items plain.2⟩
  | .object fields, plain => by
    rw [Value.all, Bool.and_eq_true] at plain ⊢
    exact ⟨Value.isFinite_of_isPlain plain.1, allFields_isFinite fields plain.2⟩
  | .null, _ => rfl
  | .bool _, _ => rfl
  | .number _, plain => plain
  | .string _, _ => rfl

theorem allItems_isFinite : ∀ items : List Value, Value.allItems Value.isPlain items = true →
    Value.allItems Value.isFinite items = true
  | [], _ => rfl
  | item :: rest, plain => by
    rw [Value.allItems, Bool.and_eq_true] at plain ⊢
    exact ⟨all_isFinite item plain.1, allItems_isFinite rest plain.2⟩

theorem allFields_isFinite : ∀ fields : Fields, Value.allFields Value.isPlain fields = true →
    Value.allFields Value.isFinite fields = true
  | [], _ => rfl
  | (_, value) :: rest, plain => by
    rw [Value.allFields, Bool.and_eq_true] at plain ⊢
    exact ⟨all_isFinite value plain.1, allFields_isFinite rest plain.2⟩
end

theorem checksumOf_of_plain {schema : Fields}
    (plain : (Value.object schema).all Value.isPlain = true) :
    checksumOf library schema = .ok ("sha256:" ++ library.checksum schema) := by
  have finite : refused (.object schema) = false := by
    rw [refused, all_isFinite _ plain]
    rfl
  rw [checksumOf, require_of finite, ok_bind, require_of plain, ok_bind]

theorem checksumOf_of_not_plain (library : ContractLibrary) {schema : Fields}
    (plain : ¬ (Value.object schema).all Value.isPlain = true) :
    checksumOf library schema = .error .valueError ∨
      checksumOf library schema = .error .unicodeEncodeError := by
  rw [checksumOf]
  by_cases finite : refused (.object schema) = false
  · right
    rw [require_of finite, ok_bind, require, if_neg plain]
    rfl
  · left
    rw [require, if_neg finite]
    rfl

theorem compileTaskContract_of_ok {schema : Fields}
    (compiled : compileDraft library (raisedOf library) draft = .ok schema) :
    compileTaskContract library draft =
      checksumOf library schema >>= fun checksum => .ok ⟨schema, checksum⟩ := by
  rw [compileTaskContract, compiled, ok_bind, compileDraft_meta compiled]

theorem compileTaskContract_ok {contract : CompiledTaskContract}
    (compiled : compileTaskContract library draft = .ok contract) :
    compileDraft library (raisedOf library) draft = .ok contract.schema := by
  obtain ⟨schema, below, rest⟩ := bind_eq_ok.mp compiled
  rw [compileDraft_meta below] at rest
  obtain ⟨checksum, -, same⟩ := bind_eq_ok.mp rest
  obtain rfl := Except.ok.inj same
  exact below

theorem compileTaskContract_exact {contract : CompiledTaskContract}
    (compiled : compileTaskContract library draft = .ok contract) (value : Value) :
    Valid library value contract.schema ↔ Described library value draft := by
  obtain ⟨inner, counted, below, same⟩ := compileDraft_ok (compileTaskContract_ok compiled)
  rw [same, valid_dialect]
  exact compileNode_exact _ _ _ _ _ _ below value

/-- **A draft is compiled with the stable error or exactly, precisely when the values of enums that
its checks get to are finite, `re.compile` raises nothing but `re.error` of the patterns that they
get to and, where it passes them, its texts and bounds can be written.** -/
theorem compilesExactly_iff (library : ContractLibrary) (draft : Fields) :
    CompilesExactly library draft ↔ Encodes library draft := by
  constructor
  · intro exact
    have silent : ∀ handed, Reached library draft handed → raisedOf library handed = none := by
      intro handed reached
      by_contra raises
      obtain ⟨other, fault, raised, stopped⟩ := compileDraft_of_reached reached raises
      have fails : compileTaskContract library draft = .error fault := by
        rw [compileTaskContract, stopped]
        rfl
      obtain ⟨code, path, message, same⟩ := exact.raises _ fails
      exact raisedOf_untranslated raised code path message same
    refine ⟨fun value reached => ?_, fun text reached => ?_, ?_⟩
    · exact (raisedOf_eq_none.mp (silent _ reached)).1 value rfl
    · exact (raisedOf_eq_none.mp (silent _ reached)).2 text rfl
    rintro ⟨schema, passed⟩
    have compiled : compileDraft library (raisedOf library) draft = .ok schema :=
      (compileDraft_of_silent silent).trans passed
    rw [← compileDraft_plain compiled]
    by_contra plain
    rcases checksumOf_of_not_plain library plain with raised | raised
    · have fails := compileTaskContract_of_ok compiled
      rw [raised] at fails
      obtain ⟨code, path, message, same⟩ := exact.raises _ fails
      cases same
    · have fails := compileTaskContract_of_ok compiled
      rw [raised] at fails
      obtain ⟨code, path, message, same⟩ := exact.raises _ fails
      cases same
  · intro encodes
    have same : compileDraft library (raisedOf library) draft =
        compileDraft library (fun _ => none) draft := compileDraft_of_silent fun handed reached =>
      raisedOf_eq_none.mpr ⟨fun value here => encodes.values value (here ▸ reached),
        fun text here => encodes.patterns text (here ▸ reached)⟩
    refine ⟨?_, fun contract compiled => compileTaskContract_exact compiled, ?_⟩
    · intro fault raised
      cases compiled : compileDraft library (raisedOf library) draft with
      | error fault' =>
        have stable := stable_compileDraft library draft
        rw [← same, compiled] at stable
        rw [compileTaskContract, compiled] at raised
        cases raised
        exact stable _ rfl
      | ok schema =>
        have passes : Passes library draft := ⟨schema, same.symm.trans compiled⟩
        have plain := (compileDraft_plain compiled).mpr (encodes.passes passes)
        rw [compileTaskContract_of_ok compiled, checksumOf_of_plain plain] at raised
        cases raised
    · intro contract compiled
      exact compileDraft_withinLimits (compileTaskContract_ok compiled)

end Result

/-- A number from `1e400` on. -/
def infiniteDraft : Fields :=
  [(pyText "contract_version", .string contractVersion),
    (pyText "type", .string (pyText "number")),
    (pyText "minimum", .number (.infinity false))]

def plainLibrary : ContractLibrary where
  compiling text := if text = pyText "\\UFFFFFFFF" then .other "OverflowError" else .compiled
  search _ _ := true
  checkSchema _ := .ok ()
  checksum _ := ""
  checkSchema_ok _ _ := rfl

theorem infiniteDraft_raises :
    compileTaskContract plainLibrary infiniteDraft = .error .valueError ∧
      ¬ CompilesExactly plainLibrary infiniteDraft := by
  have raised : compileTaskContract plainLibrary infiniteDraft = .error .valueError := rfl
  refine ⟨raised, fun exact => ?_⟩
  obtain ⟨code, path, message, same⟩ := exact.raises _ raised
  cases same

/-- A pattern with an escape of a code point that `chr` overflows at. -/
def overflowDraft : Fields :=
  [(pyText "contract_version", .string contractVersion),
    (pyText "type", .string (pyText "string")),
    (pyText "pattern", .string (pyText "\\UFFFFFFFF"))]

example : compileTaskContract plainLibrary overflowDraft =
    .error (.raised (.other "OverflowError")) := rfl

end SkillMind.Skills.TaskContract
