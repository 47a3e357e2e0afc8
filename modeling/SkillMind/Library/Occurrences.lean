import Mathlib.Data.List.Basic
import Mathlib.Tactic.Common

/-!
# Occurrences of a pattern

A search from the left finds the first occurrence at or behind a position; one that goes on behind
each occurrence lists the leftmost that do not overlap. These are all occurrences only of a
pattern that never overlaps itself in the text.
-/

namespace SkillMind.Library

universe u

variable {α : Type u} (pattern text : List α)

/-- The pattern stands in the text at position `i`. -/
def OccursAt (i : Nat) : Prop := i ≤ text.length ∧ pattern <+: text.drop i

/-- Two copies of the pattern, one moved by a period of it, stand in the text. -/
def OverlapsItself : Prop :=
  ∃ p, 0 < p ∧ p < pattern.length ∧ pattern.drop p <+: pattern ∧
    ∃ i, OccursAt (pattern.take p ++ pattern) text i

/-- The leftmost occurrences from `start` on, each behind the one before it. -/
inductive Leftmost : Nat → List Nat → Prop
  | done {start : Nat} : (∀ i, start ≤ i → ¬ OccursAt pattern text i) → Leftmost start []
  | next {start i : Nat} {rest : List Nat} : start ≤ i → OccursAt pattern text i →
      (∀ j, start ≤ j → j < i → ¬ OccursAt pattern text j) →
      Leftmost (i + pattern.length) rest → Leftmost start (i :: rest)

variable {pattern text} in
theorem OccursAt.length_le {i : Nat} (occurs : OccursAt pattern text i) :
    i + pattern.length ≤ text.length := by
  have inside := occurs.2.length_le
  have start := occurs.1
  rw [List.length_drop] at inside
  omega

section Search

variable [DecidableEq α]

instance (i : Nat) : Decidable (OccursAt pattern text i) := inferInstanceAs (Decidable (_ ∧ _))

/-- The first position from `start` on at which the pattern stands. -/
def findFrom (start : Nat) : Option Nat :=
  (List.range' start (text.length + 1 - start)).find? fun i => decide (OccursAt pattern text i)

/-- The first `count` positions found, each search behind the one before it. -/
def occurrencesFrom : Nat → Nat → List Nat
  | 0, _ => []
  | count + 1, start =>
    match findFrom pattern text start with
    | none => []
    | some i => i :: occurrencesFrom count (i + max 1 pattern.length)

variable {pattern text}

theorem findFrom_eq_some {start i : Nat} :
    findFrom pattern text start = some i ↔
      start ≤ i ∧ OccursAt pattern text i ∧
        ∀ j, start ≤ j → j < i → ¬ OccursAt pattern text j := by
  rw [findFrom, List.find?_range'_eq_some]
  constructor
  · rintro ⟨found, mem, missed⟩
    refine ⟨(List.mem_range'_1.mp mem).1, of_decide_eq_true found, fun j from' before occurs => ?_⟩
    have := missed j from' before
    rw [decide_eq_true occurs] at this
    cases this
  · rintro ⟨from', occurs, first⟩
    have inside := occurs.1
    refine ⟨decide_eq_true occurs, List.mem_range'_1.mpr ⟨from', by omega⟩, fun j le less => ?_⟩
    rw [decide_eq_false (first j le less)]
    rfl

theorem findFrom_eq_none {start : Nat} :
    findFrom pattern text start = none ↔ ∀ i, start ≤ i → ¬ OccursAt pattern text i := by
  rw [findFrom, List.find?_eq_none]
  constructor
  · intro missed i from' occurs
    have inside := occurs.1
    exact missed i (List.mem_range'_1.mpr ⟨from', by omega⟩) (decide_eq_true occurs)
  · intro missed i mem found
    exact missed i (List.mem_range'_1.mp mem).1 (of_decide_eq_true found)

theorem leftmost_of_length_lt (some : pattern ≠ []) {count start : Nat}
    (short : (occurrencesFrom pattern text count start).length < count) :
    Leftmost pattern text start (occurrencesFrom pattern text count start) := by
  have positive : max 1 pattern.length = pattern.length :=
    Nat.max_eq_right (List.length_pos_of_ne_nil some)
  induction count generalizing start with
  | zero => exact absurd short (Nat.not_lt_zero _)
  | succ count ih =>
    rw [occurrencesFrom] at short ⊢
    cases found : findFrom pattern text start with
    | none => exact Leftmost.done (findFrom_eq_none.mp found)
    | some i =>
      obtain ⟨from', occurs, first⟩ := findFrom_eq_some.mp found
      rw [found] at short
      have rest := ih (Nat.lt_of_succ_lt_succ short)
      refine Leftmost.next from' occurs first ?_
      rwa [positive] at rest ⊢

theorem occursAt_of_mem {count start i : Nat}
    (mem : i ∈ occurrencesFrom pattern text count start) :
    start ≤ i ∧ OccursAt pattern text i := by
  induction count generalizing start with
  | zero => cases mem
  | succ count ih =>
    rw [occurrencesFrom] at mem
    split at mem
    · cases mem
    · rename_i j found
      obtain ⟨from', occurs, -⟩ := findFrom_eq_some.mp found
      rcases List.mem_cons.mp mem with rfl | later
      · exact ⟨from', occurs⟩
      · obtain ⟨behind, occurs'⟩ := ih later
        exact ⟨by omega, occurs'⟩

theorem length_occurrencesFrom_lt {count start : Nat} (some : pattern ≠ [])
    (enough : text.length < start + count) (positive : 0 < count) :
    (occurrencesFrom pattern text count start).length < count := by
  have length := List.length_pos_of_ne_nil some
  induction count generalizing start with
  | zero => exact absurd positive (Nat.lt_irrefl 0)
  | succ count ih =>
    rw [occurrencesFrom]
    split
    · exact positive
    · rename_i i found
      obtain ⟨from', occurs, -⟩ := findFrom_eq_some.mp found
      have inside := occurs.length_le
      rw [List.length_cons]
      exact Nat.succ_lt_succ (ih (by omega) (by omega))

end Search

variable {pattern text}

theorem leftmost_singleton_iff {i : Nat} :
    Leftmost pattern text 0 [i] ↔ OccursAt pattern text i ∧
      (∀ j, j < i → ¬ OccursAt pattern text j) ∧
      ∀ j, i + pattern.length ≤ j → ¬ OccursAt pattern text j := by
  constructor
  · intro leftmost
    cases leftmost with
    | next _ occurs missed rest =>
      cases rest with
      | done none => exact ⟨occurs, fun j less => missed j (Nat.zero_le _) less, none⟩
  · rintro ⟨occurs, before, behind⟩
    exact Leftmost.next (Nat.zero_le _) occurs (fun j _ less => before j less)
      (Leftmost.done behind)

/-- Two copies at a distance of `p` are one copy of the first part and one of the whole. -/
theorem occursAt_take_append_iff {p i : Nat} (inside : p ≤ pattern.length) :
    OccursAt (pattern.take p ++ pattern) text i ↔
      pattern.take p <+: text.drop i ∧ OccursAt pattern text (i + p) := by
  constructor
  · intro occurs
    have length := occurs.length_le
    rw [List.length_append, List.length_take, Nat.min_eq_left inside] at length
    obtain ⟨rest, same⟩ := occurs.2
    have behind : text.drop (i + p) = pattern ++ rest := by
      rw [← List.drop_drop, ← same, List.append_assoc]
      exact List.drop_left' (by rw [List.length_take, Nat.min_eq_left inside])
    refine ⟨⟨pattern ++ rest, by rw [← same, List.append_assoc]⟩, by omega, ?_⟩
    rw [behind]
    exact List.prefix_append _ _
  · rintro ⟨⟨front, first⟩, bound, ⟨rest, same⟩⟩
    refine ⟨by omega, rest, ?_⟩
    have front_eq : front = text.drop (i + p) := by
      rw [← List.drop_drop, ← first]
      exact (List.drop_left' (by rw [List.length_take, Nat.min_eq_left inside])).symm
    rw [List.append_assoc, same, ← front_eq, first]

theorem overlapsItself_iff : OverlapsItself pattern text ↔
    ∃ i j, i < j ∧ j < i + pattern.length ∧ OccursAt pattern text i ∧ OccursAt pattern text j := by
  constructor
  · rintro ⟨p, positive, less, period, i, occurs⟩
    obtain ⟨-, second⟩ := (occursAt_take_append_iff (Nat.le_of_lt less)).mp occurs
    have first : pattern <+: pattern.take p ++ pattern := by
      conv_lhs => rw [← List.take_append_drop p pattern]
      exact List.prefix_append_right_inj _ |>.mpr period
    exact ⟨i, i + p, by omega, by omega, ⟨occurs.1, first.trans occurs.2⟩, second⟩
  · rintro ⟨i, j, less, near, first, second⟩
    have inside : j - i ≤ pattern.length := by omega
    have behind : text.drop j = (text.drop i).drop (j - i) := by
      rw [List.drop_drop]
      congr 1
      omega
    refine ⟨j - i, by omega, by omega, ?_, i, (occursAt_take_append_iff inside).mpr ⟨?_, ?_⟩⟩
    · have rest : pattern.drop (j - i) <+: text.drop j := by
        obtain ⟨rest, same⟩ := first.2
        rw [behind, ← same, List.drop_append_of_le_length inside]
        exact List.prefix_append _ _
      exact List.prefix_of_prefix_length_le rest second.2 (by rw [List.length_drop]; omega)
    · exact (List.take_prefix _ _).trans first.2
    · rw [show i + (j - i) = j by omega]
      exact second

theorem existsUnique_iff_of_leftmost {i : Nat} (leftmost : Leftmost pattern text 0 [i]) :
    (∃ k, ∀ j, OccursAt pattern text j ↔ j = k) ↔ ¬ OverlapsItself pattern text := by
  obtain ⟨occurs, before, behind⟩ := leftmost_singleton_iff.mp leftmost
  rw [overlapsItself_iff]
  constructor
  · rintro ⟨k, only⟩ ⟨a, b, less, -, first, second⟩
    have a_eq := (only a).mp first
    have b_eq := (only b).mp second
    omega
  · intro apart
    refine ⟨i, fun j => ⟨fun occurs' => ?_, fun same => same ▸ occurs⟩⟩
    by_contra other
    rcases Nat.lt_or_ge j i with less | more
    · exact before j less occurs'
    · rcases Nat.lt_or_ge j (i + pattern.length) with near | far
      · exact apart ⟨i, j, by omega, near, occurs, occurs'⟩
      · exact behind j far occurs'

/-! ## Folded texts -/

section Folding

universe v

variable {β : Type v} (fold : α → List β) (folded : List β) (text : List α)

/-- The part of `length` elements from `i` on folds to the pattern. -/
def FoldsAt (i length : Nat) : Prop :=
  i + length ≤ text.length ∧ ((text.drop i).take length).flatMap fold = folded

/-- The leftmost parts from `start` on that fold to the pattern, each behind the one before it. -/
inductive LeftmostFolded : Nat → List Nat → Prop
  | done {start : Nat} : (∀ i length, start ≤ i → ¬ FoldsAt fold folded text i length) →
      LeftmostFolded start []
  | next {start i length : Nat} {rest : List Nat} : start ≤ i →
      FoldsAt fold folded text i length →
      (∀ j other, start ≤ j → j < i → ¬ FoldsAt fold folded text j other) →
      LeftmostFolded (i + length) rest → LeftmostFolded start (i :: rest)

/-- Where element `i` of the text stands in the folded text. -/
def foldedPlace (i : Nat) : Nat := ((text.take i).flatMap fold).length

/-- No element before `i` folds to more or less than one, and `i` with the length of the pattern
is the place of an element. -/
def FoldsPlainly (i : Nat) : Prop :=
  i ≤ text.length ∧ (∀ c ∈ text.take i, (fold c).length = 1) ∧
    ∃ k, k ≤ text.length ∧ foldedPlace fold text k = i + folded.length

variable {fold folded text}

theorem flatMap_split (text : List α) (i : Nat) :
    text.flatMap fold = (text.take i).flatMap fold ++ (text.drop i).flatMap fold := by
  rw [← List.flatMap_append, List.take_append_drop]

theorem drop_foldedPlace (i : Nat) :
    (text.flatMap fold).drop (foldedPlace fold text i) = (text.drop i).flatMap fold := by
  rw [flatMap_split text i]
  exact List.drop_left

theorem foldedPlace_le (i : Nat) : foldedPlace fold text i ≤ (text.flatMap fold).length := by
  rw [flatMap_split text i, List.length_append]
  exact Nat.le_add_right _ _

theorem foldedPlace_add (i length : Nat) : foldedPlace fold text (i + length) =
    foldedPlace fold text i + (((text.drop i).take length).flatMap fold).length := by
  rw [foldedPlace, List.take_add, List.flatMap_append, List.length_append, foldedPlace]

theorem foldedPlace_mono {i j : Nat} (le : i ≤ j) :
    foldedPlace fold text i ≤ foldedPlace fold text j := by
  obtain ⟨length, rfl⟩ := Nat.exists_eq_add_of_le le
  rw [foldedPlace_add]
  exact Nat.le_add_right _ _

theorem foldedPlace_eq_self {i : Nat} (inside : i ≤ text.length)
    (plain : ∀ c ∈ text.take i, (fold c).length = 1) : foldedPlace fold text i = i := by
  rw [foldedPlace, List.length_flatMap, List.map_congr_left plain]
  simp [Nat.min_eq_left inside]

theorem foldedPlace_lt (some : ∀ c, fold c ≠ []) {i j : Nat} (less : i < j)
    (inside : i < text.length) : foldedPlace fold text i < foldedPlace fold text j := by
  have next : foldedPlace fold text (i + 1) ≤ foldedPlace fold text j := foldedPlace_mono less
  obtain ⟨c, rest, behind⟩ := List.exists_cons_of_length_pos
    (show 0 < (text.drop i).length by rw [List.length_drop]; omega)
  have positive := List.length_pos_of_ne_nil (some c)
  rw [foldedPlace_add, behind] at next
  simp only [List.take_succ_cons, List.take_zero, List.flatMap_singleton] at next
  omega

theorem FoldsAt.occursAt {i length : Nat} (folds : FoldsAt fold folded text i length) :
    OccursAt folded (text.flatMap fold) (foldedPlace fold text i) := by
  refine ⟨foldedPlace_le i, ?_⟩
  rw [drop_foldedPlace, flatMap_split (text.drop i) length, folds.2]
  exact List.prefix_append _ _

theorem FoldsPlainly.foldsAt {i : Nat} (plain : FoldsPlainly fold folded text i)
    (occurs : OccursAt folded (text.flatMap fold) i) :
    ∃ length, FoldsAt fold folded text i length ∧
      foldedPlace fold text (i + length) = i + folded.length := by
  obtain ⟨inside, single, k, within, place⟩ := plain
  have self := foldedPlace_eq_self inside single
  have le : i ≤ k := by
    by_contra less
    have before := foldedPlace_eq_self within fun c mem =>
      single c ((List.take_sublist_take_left (by omega)).subset mem)
    omega
  obtain ⟨length, rfl⟩ := Nat.exists_eq_add_of_le le
  have same : (((text.drop i).take length).flatMap fold).length = folded.length := by
    rw [foldedPlace_add] at place
    omega
  refine ⟨length, ⟨within, ?_⟩, place⟩
  have first : folded <+: (text.drop i).flatMap fold := by
    have prefixed := occurs.2
    rwa [← self, drop_foldedPlace] at prefixed
  have second : ((text.drop i).take length).flatMap fold <+: (text.drop i).flatMap fold := by
    rw [flatMap_split (text.drop i) length]
    exact List.prefix_append _ _
  exact (List.prefix_of_prefix_length_le second first (Nat.le_of_eq same)).eq_of_length same

theorem Leftmost.leftmostFolded (some : ∀ c, fold c ≠ []) (nonempty : folded ≠ [])
    {start place : Nat} {found : List Nat}
    (leftmost : Leftmost folded (text.flatMap fold) place found)
    (begins : place = foldedPlace fold text start)
    (plain : ∀ i ∈ found, FoldsPlainly fold folded text i) :
    LeftmostFolded fold folded text start found := by
  induction leftmost generalizing start with
  | done none =>
    refine LeftmostFolded.done fun i length from' folds => ?_
    exact none _ (begins ▸ foldedPlace_mono from') folds.occursAt
  | next from' occurs missed rest ih =>
    rename_i place i found
    have plain' := plain i List.mem_cons_self
    obtain ⟨length, folds, next⟩ := plain'.foldsAt occurs
    have self : foldedPlace fold text i = i := foldedPlace_eq_self plain'.1 plain'.2.1
    have positive := List.length_pos_of_ne_nil nonempty
    refine LeftmostFolded.next ?_ folds (fun j other from'' less folds' => ?_) ?_
    · by_contra before
      have positive' : 0 < length := by
        by_contra zero
        rw [show length = 0 by omega, Nat.add_zero] at next
        omega
      have inside : i < text.length := by
        have := folds.1
        omega
      have later := foldedPlace_lt some (Nat.lt_of_not_le before) inside
      omega
    · have self' : foldedPlace fold text j = j :=
        foldedPlace_eq_self (by have := plain'.1; omega) fun c mem =>
          plain'.2.1 c ((List.take_sublist_take_left (Nat.le_of_lt less)).subset mem)
      have place' : place ≤ j := by
        rw [begins, ← self']
        exact foldedPlace_mono from''
      exact missed j place' less (self' ▸ folds'.occursAt)
    · exact ih next.symm fun j mem => plain j (List.mem_cons_of_mem i mem)

end Folding

end SkillMind.Library
