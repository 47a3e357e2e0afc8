import Mathlib.Data.List.Sort

/-!
# Pages of a growing table

A table is read in pages: the rows behind a cursor in the order of their ranks, at most `limit`
of them, and the rank of the last one as the next cursor when there are more.  Between two pages
rows may be added anywhere, but none is taken away.

Whatever is added, a walk along the cursors visits rows in strictly increasing rank and passes no
row that stood in the table when it began.
-/

namespace SkillMind.Library

universe u v

variable {ρ : Type u} {κ : Type v} [LinearOrder κ] (rank : ρ → κ)

/-- The rows behind a cursor, in order. -/
def rowsBehind (rows : List ρ) (after : Option κ) : List ρ :=
  (rows.filter fun row => decide (∀ cursor ∈ after, cursor < rank row)).insertionSort
    fun first second => rank first ≤ rank second

/-- A page. -/
def pageRows (rows : List ρ) (limit : Nat) (after : Option κ) : List ρ :=
  (rowsBehind rank rows after).take limit

/-- The cursor of the next page. -/
def pageCursor (rows : List ρ) (limit : Nat) (after : Option κ) : Option κ :=
  if limit < (rowsBehind rank rows after).length then
    (pageRows rank rows limit after).getLast?.map rank
  else none

/-- A walk from the start: the table it began with, what it has visited, the cursor it goes on
with, and the table its last page was read from. -/
inductive Walk (start : List ρ) : List ρ → Option κ → List ρ → Prop
  | first {limit : Nat} (distinct : (start.map rank).Nodup) (positive : 0 < limit) :
      Walk start (pageRows rank start limit none) (pageCursor rank start limit none) start
  | next {visited rows rows' : List ρ} {cursor : κ} {limit : Nat}
      (walk : Walk start visited (some cursor) rows) (grown : rows ⊆ rows')
      (distinct : (rows'.map rank).Nodup) (positive : 0 < limit) :
      Walk start (visited ++ pageRows rank rows' limit (some cursor))
        (pageCursor rank rows' limit (some cursor)) rows'

variable {rank}

variable {rows : List ρ}

theorem mem_rowsBehind {after : Option κ} {row : ρ} :
    row ∈ rowsBehind rank rows after ↔ row ∈ rows ∧ ∀ cursor ∈ after, cursor < rank row := by
  simp [rowsBehind, List.mem_insertionSort]

theorem rowsBehind_increasing (distinct : (rows.map rank).Nodup)
    (after : Option κ) :
    (rowsBehind rank rows after).Pairwise fun first second => rank first < rank second := by
  have sorted := List.pairwise_insertionSort (fun first second : ρ => rank first ≤ rank second)
    (rows.filter fun row => decide (∀ cursor ∈ after, cursor < rank row))
  have perm := List.perm_insertionSort (fun first second : ρ => rank first ≤ rank second)
    (rows.filter fun row => decide (∀ cursor ∈ after, cursor < rank row))
  have apart : (rowsBehind rank rows after).Pairwise fun first second =>
      rank first ≠ rank second := by
    rw [← List.pairwise_map]
    exact (perm.map rank).nodup_iff.mpr (distinct.sublist (List.filter_sublist.map rank))
  exact (sorted.and apart).imp fun both => lt_of_le_of_ne both.1 both.2

theorem pageRows_increasing (distinct : (rows.map rank).Nodup) (limit : Nat)
    (after : Option κ) :
    (pageRows rank rows limit after).Pairwise fun first second => rank first < rank second :=
  (rowsBehind_increasing distinct after).sublist (List.take_sublist _ _)

theorem mem_pageRows {limit : Nat} {after : Option κ} {row : ρ}
    (mem : row ∈ pageRows rank rows limit after) :
    row ∈ rows ∧ ∀ cursor ∈ after, cursor < rank row :=
  mem_rowsBehind.mp (List.mem_of_mem_take mem)

theorem pageRows_covers (distinct : (rows.map rank).Nodup) {limit : Nat}
    (positive : 0 < limit) {after : Option κ} {row : ρ} (mem : row ∈ rows)
    (later : ∀ cursor ∈ after, cursor < rank row)
    (reached : ∀ cursor ∈ pageCursor rank rows limit after, rank row ≤ cursor) :
    row ∈ pageRows rank rows limit after := by
  have inside : row ∈ rowsBehind rank rows after := mem_rowsBehind.mpr ⟨mem, later⟩
  have split := List.take_append_drop limit (rowsBehind rank rows after)
  rw [← split, List.mem_append] at inside
  rcases inside with taken | dropped
  · exact taken
  · exfalso
    have longer : limit < (rowsBehind rank rows after).length := by
      by_contra short
      rw [List.drop_eq_nil_of_le (by omega)] at dropped
      cases dropped
    have increasing := rowsBehind_increasing distinct after
    rw [← split, List.pairwise_append] at increasing
    cases last : (pageRows rank rows limit after).getLast? with
    | none =>
      have long : 0 < (pageRows rank rows limit after).length := by
        rw [pageRows, List.length_take]
        omega
      rw [List.getLast?_eq_none_iff.mp last] at long
      exact absurd long (Nat.lt_irrefl 0)
    | some final =>
      have cursor : rank final ∈ pageCursor rank rows limit after := by
        rw [pageCursor, if_pos longer, last]
        rfl
      have before := increasing.2.2 final (List.mem_of_getLast? last) row dropped
      exact absurd (reached _ cursor) (not_le.mpr before)

theorem pageRows_le (distinct : (rows.map rank).Nodup) {limit : Nat}
    {after : Option κ} {cursor : κ} (next : pageCursor rank rows limit after = some cursor)
    {row : ρ} (mem : row ∈ pageRows rank rows limit after) : rank row ≤ cursor := by
  unfold pageCursor at next
  split at next
  · rw [Option.map_eq_some_iff] at next
    obtain ⟨final, last, rfl⟩ := next
    have increasing := pageRows_increasing distinct limit after
    obtain ⟨front, split⟩ := List.getLast?_eq_some_iff.mp last
    rw [split] at mem increasing
    rcases List.mem_append.mp mem with earlier | same
    · exact le_of_lt ((List.pairwise_append.mp increasing).2.2 row earlier final (by simp))
    · rw [List.mem_singleton.mp same]
  · cases next

theorem Walk.visited_subset {start visited : List ρ} {next : Option κ}
    (walk : Walk rank start visited next rows) : start ⊆ rows ∧ visited ⊆ rows := by
  induction walk with
  | first distinct positive =>
    exact ⟨List.Subset.refl start, fun row mem => (mem_pageRows mem).1⟩
  | next walk grown distinct positive ih =>
    refine ⟨List.Subset.trans ih.1 grown, fun row mem => ?_⟩
    rcases List.mem_append.mp mem with before | now
    · exact grown (ih.2 before)
    · exact (mem_pageRows now).1

theorem Walk.visited_le {start visited : List ρ} {cursor : κ}
    (walk : Walk rank start visited (some cursor) rows) : ∀ row ∈ visited, rank row ≤ cursor := by
  generalize place : some cursor = next at walk
  induction walk generalizing cursor with
  | first distinct positive => exact fun row mem => pageRows_le distinct place.symm mem
  | next walk grown distinct positive ih =>
    intro row mem
    rcases List.mem_append.mp mem with before | now
    · have earlier := ih rfl row before
      unfold pageCursor at place
      split at place
      · rw [eq_comm, Option.map_eq_some_iff] at place
        obtain ⟨final, final_last, rfl⟩ := place
        have behind := (mem_pageRows (List.mem_of_getLast? final_last)).2 _ rfl
        exact earlier.trans (le_of_lt behind)
      · cases place
    · exact pageRows_le distinct place.symm now

theorem Walk.increasing {start visited : List ρ} {next : Option κ}
    (walk : Walk rank start visited next rows) :
    visited.Pairwise fun first second => rank first < rank second := by
  induction walk with
  | first distinct positive => exact pageRows_increasing distinct _ none
  | next walk grown distinct positive ih =>
    refine List.pairwise_append.mpr ⟨ih, pageRows_increasing distinct _ _, ?_⟩
    intro row before row' now
    exact lt_of_le_of_lt (walk.visited_le row before) ((mem_pageRows now).2 _ rfl)

theorem Walk.covers {start visited : List ρ} {next : Option κ}
    (walk : Walk rank start visited next rows) :
    ∀ row ∈ start, (∀ cursor ∈ next, rank row ≤ cursor) → row ∈ visited := by
  induction walk with
  | first distinct positive =>
    intro row mem reached
    exact pageRows_covers distinct positive mem (by simp) reached
  | @next visited rows rows' cursor limit walk grown distinct positive ih =>
    intro row mem reached
    rw [List.mem_append]
    by_cases passed : rank row ≤ cursor
    · exact .inl (ih row mem (by simpa using passed))
    · have here : row ∈ rows' := grown (walk.visited_subset.1 mem)
      have later : ∀ place ∈ some cursor, place < rank row := by simpa using passed
      exact .inr (pageRows_covers distinct positive here later reached)

end SkillMind.Library
