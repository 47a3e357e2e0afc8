import Mathlib.Algebra.BigOperators.Group.List.Basic
import Mathlib.Algebra.Group.Basic
import Mathlib.Data.List.Nodup
import Mathlib.Tactic.Abel

/-!
# Tables of keyed rows

A table is a list of rows with a key that no two rows share. A transaction reads the row with a
key, changes it and writes it back, or appends rows. Writing a row back keeps the keys, touches no
other row, and moves a column total by exactly the difference of the two versions of the row.
-/

namespace SkillMind.Library

universe u v w

variable {ρ : Type u} {κ : Type v} {key : ρ → κ}

/-- The table with the row of the same key overwritten. -/
def replaceRow [DecidableEq κ] (key : ρ → κ) (row : ρ) (rows : List ρ) : List ρ :=
  rows.map fun other => if key other = key row then row else other

/-- No two rows share a key. -/
def Keyed (key : ρ → κ) (rows : List ρ) : Prop :=
  (rows.map key).Nodup

section Replaced

variable [DecidableEq κ]

theorem mem_replaceRow {row r : ρ} {rows : List ρ} (mem : r ∈ replaceRow key row rows) :
    (r = row ∧ ∃ old ∈ rows, key old = key row) ∨ (r ∈ rows ∧ key r ≠ key row) := by
  obtain ⟨old, oldMem, rfl⟩ := List.mem_map.mp mem
  by_cases same : key old = key row
  · exact Or.inl ⟨by simp [same], old, oldMem, same⟩
  · exact Or.inr (by simp [same, oldMem])

theorem mem_replaceRow_self {row old : ρ} {rows : List ρ} (mem : old ∈ rows)
    (same : key old = key row) : row ∈ replaceRow key row rows :=
  List.mem_map.mpr ⟨old, mem, by simp [same]⟩

theorem mem_replaceRow_of_ne {row r : ρ} {rows : List ρ} (mem : r ∈ rows)
    (other : key r ≠ key row) : r ∈ replaceRow key row rows :=
  List.mem_map.mpr ⟨r, mem, by simp [other]⟩

/-! ## Keys -/

@[simp] theorem map_key_replaceRow (row : ρ) (rows : List ρ) :
    (replaceRow key row rows).map key = rows.map key := by
  unfold replaceRow
  rw [List.map_map]
  apply List.map_congr_left
  intro other _
  by_cases same : key other = key row <;> simp [same]

@[simp] theorem length_replaceRow (row : ρ) (rows : List ρ) :
    (replaceRow key row rows).length = rows.length := by
  simp [replaceRow]

theorem replaceRow_replaceRow {first second : ρ} (same : key second = key first) (rows : List ρ) :
    replaceRow key second (replaceRow key first rows) =
      replaceRow key second rows := by
  unfold replaceRow
  rw [List.map_map]
  apply List.map_congr_left
  intro other _
  by_cases hit : key other = key first <;> simp [hit, same]

theorem Keyed.replaceRow {rows : List ρ} (keyed : Keyed key rows) (row : ρ) :
    Keyed key (replaceRow key row rows) := by
  unfold Keyed
  rwa [map_key_replaceRow]

end Replaced

variable {rows : List ρ}

theorem Keyed.eq_of_key (keyed : Keyed key rows) {r r' : ρ} (mem : r ∈ rows)
    (mem' : r' ∈ rows) (same : key r = key r') : r = r' :=
  List.inj_on_of_nodup_map keyed mem mem' same

theorem replaceRow_self [DecidableEq κ] (keyed : Keyed key rows) {row : ρ}
    (mem : row ∈ rows) : replaceRow key row rows = rows := by
  have unchanged : ∀ other ∈ rows, (if key other = key row then row else other) = other := by
    intro other otherMem
    split
    · rename_i same
      exact (keyed.eq_of_key otherMem mem same).symm
    · rfl
  exact (List.map_congr_left unchanged).trans (List.map_id' rows)

theorem Keyed.map {f : ρ → ρ} (keyed : Keyed key rows)
    (same : ∀ r, key (f r) = key r) : Keyed key (rows.map f) := by
  unfold Keyed
  rw [List.map_map, show key ∘ f = key from funext same]
  exact keyed

theorem map_column_replaceRow [DecidableEq κ] {α : Type w} {column : ρ → α}
    (keyed : Keyed key rows) {row old : ρ} (mem : old ∈ rows) (same : key old = key row)
    (kept : column row = column old) :
    (replaceRow key row rows).map column = rows.map column := by
  unfold replaceRow
  rw [List.map_map]
  apply List.map_congr_left
  intro other otherMem
  by_cases hit : key other = key row
  · rw [keyed.eq_of_key otherMem mem (hit.trans same.symm)]
    simp [same, kept]
  · simp [hit]

theorem keyed_append {added : List ρ} :
    Keyed key (rows ++ added) ↔
      Keyed key rows ∧ Keyed key added ∧
        ∀ r ∈ rows, ∀ r' ∈ added, key r ≠ key r' := by
  simp only [Keyed, List.map_append, List.nodup_append, List.mem_map, ne_eq,
    forall_exists_index, and_imp, forall_apply_eq_imp_iff₂]

theorem Keyed.add (keyed : Keyed key rows) {row : ρ}
    (fresh : ∀ other ∈ rows, key row ≠ key other) : Keyed key (rows ++ [row]) := by
  refine keyed_append.mpr ⟨keyed, List.nodup_singleton _, ?_⟩
  intro r mem r' mem'
  rw [List.mem_singleton.mp mem']
  exact (fresh r mem).symm

section Fresh

variable {β : Type w} {make : β → κ → ρ}

theorem mem_zipWith {contents : List β} {ids : List κ} {r : ρ}
    (mem : r ∈ List.zipWith make contents ids) : ∃ b ∈ contents, ∃ k ∈ ids, r = make b k := by
  rw [← List.map_uncurry_zip_eq_zipWith] at mem
  obtain ⟨⟨b, k⟩, pair, rfl⟩ := List.mem_map.mp mem
  exact ⟨b, (List.of_mem_zip pair).1, k, (List.of_mem_zip pair).2, rfl⟩

theorem map_zipWith_content {α : Type w} {column : ρ → α} {value : β → α}
    (from_content : ∀ b k, column (make b k) = value b) {contents : List β} {ids : List κ}
    (length : ids.length = contents.length) :
    (List.zipWith make contents ids).map column = contents.map value := by
  rw [← List.map_uncurry_zip_eq_zipWith, List.map_map]
  have firsts : (contents.zip ids).map Prod.fst = contents := List.map_fst_zip length.ge
  nth_rewrite 2 [← firsts]
  rw [List.map_map]
  exact List.map_congr_left fun pair _ => from_content pair.1 pair.2

theorem map_zipWith_key (from_key : ∀ b k, key (make b k) = k) {contents : List β}
    {ids : List κ} (length : ids.length = contents.length) :
    (List.zipWith make contents ids).map key = ids := by
  rw [← List.map_uncurry_zip_eq_zipWith, List.map_map]
  have seconds : (contents.zip ids).map Prod.snd = ids := List.map_snd_zip length.le
  nth_rewrite 2 [← seconds]
  exact List.map_congr_left fun pair _ => from_key pair.1 pair.2

end Fresh

theorem Keyed.find_of (keyed : Keyed key rows) {r : ρ} (mem : r ∈ rows)
    {p : ρ → Bool} (holds : p r = true) (only : ∀ r', p r' = true → key r' = key r) :
    rows.find? p = some r := by
  cases search : rows.find? p with
  | none => exact absurd holds (List.find?_eq_none.mp search r mem)
  | some found =>
    rw [keyed.eq_of_key mem (List.mem_of_find?_eq_some search)
      (only found (List.find?_some search)).symm]

section Search

variable [DecidableEq κ]

theorem find_key {k : κ} {rows : List ρ} {r : ρ}
    (found : rows.find? (fun row => decide (key row = k)) = some r) : r ∈ rows ∧ key r = k :=
  ⟨List.mem_of_find?_eq_some found, by simpa using List.find?_some found⟩

theorem Keyed.find_eq {rows : List ρ} (keyed : Keyed key rows) {r : ρ} (mem : r ∈ rows) {k : κ}
    (has : key r = k) : rows.find? (fun row => decide (key row = k)) = some r := by
  cases search : rows.find? (fun row => decide (key row = k)) with
  | none =>
    have miss := List.find?_eq_none.mp search r mem
    simp [has] at miss
  | some found =>
    obtain ⟨foundMem, foundKey⟩ := find_key search
    rw [keyed.eq_of_key mem foundMem (has.trans foundKey.symm)]

end Search

section Totals

variable {α : Type w} [AddCommGroup α]

/-- The sum of one column over the table. -/
def total (column : ρ → α) (rows : List ρ) : α :=
  (rows.map column).sum

@[simp] theorem total_nil (column : ρ → α) : total column ([] : List ρ) = 0 := rfl

@[simp] theorem total_append (column : ρ → α) (rows added : List ρ) :
    total column (rows ++ added) = total column rows + total column added := by
  simp [total]

@[simp] theorem total_cons (column : ρ → α) (r : ρ) (rows : List ρ) :
    total column (r :: rows) = column r + total column rows := by
  simp [total]

theorem replaceRow_of_absent [DecidableEq κ] {row : ρ} {rows : List ρ}
    (absent : key row ∉ rows.map key) : replaceRow key row rows = rows := by
  have same : ∀ other ∈ rows, (if key other = key row then row else other) = other := by
    intro other mem
    have ne : key other ≠ key row := fun eq => absent (eq ▸ List.mem_map_of_mem mem)
    simp [ne]
  exact (List.map_congr_left same).trans (List.map_id' rows)

theorem sum_replaceRow [DecidableEq κ] (column : ρ → α) {rows : List ρ} (keyed : Keyed key rows)
    {row old : ρ} (mem : old ∈ rows) (same : key old = key row) :
    total column (replaceRow key row rows) = total column rows - column old + column row := by
  induction rows with
  | nil => simp at mem
  | cons r rest ih =>
    obtain ⟨fresh, keyedRest⟩ := List.nodup_cons.mp keyed
    rcases List.mem_cons.mp mem with rfl | later
    · have rest' : replaceRow key row rest = rest := replaceRow_of_absent (same ▸ fresh)
      have head : replaceRow key row (old :: rest) = row :: replaceRow key row rest := by
        simp [replaceRow, same]
      rw [head, rest', total_cons, total_cons]
      abel
    · have ne : key r ≠ key row := by
        intro eq
        exact fresh (eq ▸ same ▸ List.mem_map_of_mem later)
      have head : replaceRow key row (r :: rest) = r :: replaceRow key row rest := by
        simp [replaceRow, ne]
      rw [head, total_cons, total_cons, ih keyedRest later]
      abel

end Totals

theorem countP_replaceRow [DecidableEq κ] (p : ρ → Bool) (keyed : Keyed key rows)
    {row old : ρ} (mem : old ∈ rows) (same : key old = key row) :
    (replaceRow key row rows).countP p + (p old).toNat = rows.countP p + (p row).toNat := by
  induction rows with
  | nil => simp at mem
  | cons r rest ih =>
    obtain ⟨fresh, keyedRest⟩ := List.nodup_cons.mp keyed
    rcases List.mem_cons.mp mem with rfl | later
    · have rest' : replaceRow key row rest = rest := replaceRow_of_absent (same ▸ fresh)
      have head : replaceRow key row (old :: rest) = row :: replaceRow key row rest := by
        simp [replaceRow, same]
      rw [head, rest', List.countP_cons, List.countP_cons]
      cases p old <;> cases p row <;> simp
    · have ne : key r ≠ key row := by
        intro eq
        exact fresh (eq ▸ same ▸ List.mem_map_of_mem later)
      have head : replaceRow key row (r :: rest) = r :: replaceRow key row rest := by
        simp [replaceRow, ne]
      have counted := ih keyedRest later
      rw [head, List.countP_cons, List.countP_cons]
      omega

end SkillMind.Library
