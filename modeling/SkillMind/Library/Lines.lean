import Mathlib.Data.List.Basic
import Mathlib.Tactic.Common

/-!
# Texts as lists of lines

A text is split behind the elements that end a line; whether an element does may depend on the
element behind it, as a carriage return does not end the line when a line feed follows. So the
lines of a text that is cut in two are not always the lines of both parts: they are when the cut
is between two lines, and else the last line of the first part and the first line of the second
are one.
-/

namespace SkillMind.Library

universe u

variable {α : Type u} (ends : α → Option α → Bool)

/-- The lines of a text, each with the element that ends it. -/
def linesOf : List α → List (List α)
  | [] => []
  | c :: rest =>
    if ends c rest.head? = true then [c] :: linesOf rest
    else
      match linesOf rest with
      | [] => [[c]]
      | line :: lines => (c :: line) :: lines

/-- No line goes on behind the text when `next` follows. -/
def EndsLine (text : List α) (next : Option α) : Prop :=
  ∀ c ∈ text.getLast?, ends c next = true

/-- Position `i` is in line `k`, both counted from zero. -/
def InLine (lines : List (List α)) (k i : Nat) : Prop :=
  (lines.take k).flatten.length ≤ i ∧ i < (lines.take (k + 1)).flatten.length

variable {ends}

@[simp] theorem linesOf_nil : linesOf ends ([] : List α) = [] := rfl

theorem linesOf_cons (c : α) (rest : List α) : linesOf ends (c :: rest) =
    if ends c rest.head? = true then [c] :: linesOf ends rest
    else
      match linesOf ends rest with
      | [] => [[c]]
      | line :: lines => (c :: line) :: lines := rfl

@[simp] theorem linesOf_singleton (c : α) : linesOf ends [c] = [[c]] := by
  rw [linesOf_cons]
  split_ifs
  · rfl
  · rfl

theorem linesOf_cons_of_ends {c : α} {rest : List α} (closes : ends c rest.head? = true) :
    linesOf ends (c :: rest) = [c] :: linesOf ends rest := by
  rw [linesOf_cons, if_pos closes]

theorem linesOf_cons_of_not_ends {c : α} {rest line : List α} {lines : List (List α)}
    (goesOn : ends c rest.head? = false) (split : linesOf ends rest = line :: lines) :
    linesOf ends (c :: rest) = (c :: line) :: lines := by
  rw [linesOf_cons, if_neg (by rw [goesOn]; exact Bool.false_ne_true), split]

variable (ends) in
theorem linesOf_ne_nil {text : List α} (some : text ≠ []) : linesOf ends text ≠ [] := by
  cases text with
  | nil => exact absurd rfl some
  | cons c rest =>
    rw [linesOf_cons]
    split_ifs
    · exact List.cons_ne_nil _ _
    · split
      · exact List.cons_ne_nil _ _
      · exact List.cons_ne_nil _ _

variable (ends) in
@[simp] theorem flatten_linesOf (text : List α) : (linesOf ends text).flatten = text := by
  induction text with
  | nil => rfl
  | cons c rest ih =>
    rw [linesOf_cons]
    split_ifs
    · rw [List.flatten_cons, ih, List.singleton_append]
    · split
      · rename_i none
        rw [none] at ih
        rw [← ih]
        rfl
      · rename_i line lines split
        rw [split, List.flatten_cons] at ih
        rw [List.flatten_cons, List.cons_append, ih]

theorem ne_nil_of_mem_linesOf {text : List α} {line : List α} (mem : line ∈ linesOf ends text) :
    line ≠ [] := by
  induction text generalizing line with
  | nil => cases mem
  | cons c rest ih =>
    rw [linesOf_cons] at mem
    split_ifs at mem
    · rcases List.mem_cons.mp mem with rfl | later
      · exact List.cons_ne_nil _ _
      · exact ih later
    · split at mem
      · rw [List.mem_singleton.mp mem]
        exact List.cons_ne_nil _ _
      · rename_i first lines split
        rcases List.mem_cons.mp mem with rfl | later
        · exact List.cons_ne_nil _ _
        · exact ih (by rw [split]; exact List.mem_cons_of_mem _ later)

theorem closed_nil (next : Option α) : EndsLine ends ([] : List α) next := by
  intro c mem
  cases mem

theorem closed_cons_cons {c d : α} {rest : List α} {next : Option α} :
    EndsLine ends (c :: d :: rest) next ↔ EndsLine ends (d :: rest) next := by
  rw [EndsLine, EndsLine, List.getLast?_cons_cons]

theorem closed_concat {c : α} {rest : List α} {next : Option α} :
    EndsLine ends (rest ++ [c]) next ↔ ends c next = true := by
  simp [EndsLine]

theorem linesOf_append_of_closed {text rest : List α} (closed : EndsLine ends text rest.head?) :
    linesOf ends (text ++ rest) = linesOf ends text ++ linesOf ends rest := by
  induction text with
  | nil => rfl
  | cons c text ih =>
    cases text with
    | nil =>
      have closes : ends c rest.head? = true := closed c rfl
      rw [List.singleton_append, linesOf_cons_of_ends closes, linesOf_singleton,
        List.singleton_append]
    | cons d text =>
      have split := ih (closed_cons_cons.mp closed)
      obtain ⟨line, lines, parts⟩ := List.exists_cons_of_ne_nil
        (linesOf_ne_nil ends (List.cons_ne_nil d text))
      by_cases closes : ends c (some d) = true
      · have whole : linesOf ends (c :: (d :: text ++ rest)) =
            [c] :: linesOf ends (d :: text ++ rest) := linesOf_cons_of_ends closes
        have part : linesOf ends (c :: d :: text) = [c] :: linesOf ends (d :: text) :=
          linesOf_cons_of_ends closes
        rw [List.cons_append, whole, part, split, List.cons_append]
      · have goesOn : ends c (some d) = false := Bool.not_eq_true _ ▸ closes
        rw [parts, List.cons_append] at split
        have whole : linesOf ends (c :: (d :: text ++ rest)) =
            (c :: line) :: (lines ++ linesOf ends rest) := linesOf_cons_of_not_ends goesOn split
        rw [List.cons_append, whole, linesOf_cons_of_not_ends goesOn parts, List.cons_append]

theorem linesOf_append_of_not_closed {text rest : List α}
    (within : ¬ EndsLine ends text rest.head?) (more : rest ≠ []) :
    ∃ before line after lines, linesOf ends text = before ++ [line] ∧
      linesOf ends rest = after :: lines ∧
      linesOf ends (text ++ rest) = before ++ (line ++ after) :: lines := by
  obtain ⟨after, lines, behind⟩ := List.exists_cons_of_ne_nil (linesOf_ne_nil ends more)
  induction text with
  | nil => exact absurd (closed_nil _) within
  | cons c text ih =>
    cases text with
    | nil =>
      have goesOn : ends c rest.head? = false := by
        rw [← Bool.not_eq_true]
        intro closes
        refine within fun d mem => ?_
        cases mem
        exact closes
      exact ⟨[], [c], after, lines, linesOf_singleton c, behind,
        linesOf_cons_of_not_ends goesOn behind⟩
    | cons d text =>
      have open' : ¬ EndsLine ends (d :: text) rest.head? := fun closed =>
        within (closed_cons_cons.mpr closed)
      obtain ⟨before, line, after', lines', parts, behind', joined⟩ := ih open'
      by_cases closes : ends c (some d) = true
      · have whole : linesOf ends (c :: (d :: text ++ rest)) =
            [c] :: linesOf ends (d :: text ++ rest) := linesOf_cons_of_ends closes
        refine ⟨[c] :: before, line, after', lines', ?_, behind', ?_⟩
        · rw [linesOf_cons_of_ends closes, parts, List.cons_append]
        · rw [List.cons_append, whole, joined, List.cons_append]
      · have goesOn : ends c (some d) = false := Bool.not_eq_true _ ▸ closes
        cases before with
        | nil =>
          have whole : linesOf ends (c :: (d :: text ++ rest)) =
              (c :: (line ++ after')) :: lines' := linesOf_cons_of_not_ends goesOn joined
          refine ⟨[], c :: line, after', lines', linesOf_cons_of_not_ends goesOn parts, behind', ?_⟩
          rw [List.cons_append, whole, List.nil_append, List.cons_append]
        | cons first before =>
          have whole : linesOf ends (c :: (d :: text ++ rest)) =
              (c :: first) :: (before ++ (line ++ after') :: lines') :=
            linesOf_cons_of_not_ends goesOn joined
          refine ⟨(c :: first) :: before, line, after', lines',
            linesOf_cons_of_not_ends goesOn parts, behind', ?_⟩
          rw [List.cons_append, whole, List.cons_append]

theorem InLine.unique {lines : List (List α)} {k m i : Nat} (first : InLine lines k i)
    (second : InLine lines m i) : k = m := by
  have grows : ∀ {a b : Nat}, a ≤ b →
      (lines.take a).flatten.length ≤ (lines.take b).flatten.length := fun {a b} le => by
    have prefixed : lines.take a <+: lines.take b := List.take_prefix_take_left le
    obtain ⟨rest, same⟩ := prefixed
    rw [← same, List.flatten_append, List.length_append]
    exact Nat.le_add_right _ _
  rcases Nat.lt_trichotomy k m with less | same | more
  · have before : i < i := Nat.lt_of_lt_of_le first.2 (Nat.le_trans (grows less) second.1)
    exact absurd before (Nat.lt_irrefl i)
  · exact same
  · have before : i < i := Nat.lt_of_lt_of_le second.2 (Nat.le_trans (grows more) first.1)
    exact absurd before (Nat.lt_irrefl i)

theorem inLine_of_append {before lines : List (List α)} {line : List α} {i : Nat}
    (behind : before.flatten.length ≤ i) (within : i < before.flatten.length + line.length) :
    InLine (before ++ line :: lines) before.length i := by
  constructor
  · rwa [List.take_left]
  · have front : (before ++ line :: lines).take (before.length + 1) = before ++ [line] := by
      rw [← List.singleton_append, ← List.append_assoc]
      exact List.take_left' (by rw [List.length_append, List.length_singleton])
    rw [front, List.flatten_append, List.length_append, List.flatten_singleton]
    exact within

theorem inLine_of_closed {text rest : List α} {c : α} (closed : EndsLine ends text (some c)) :
    InLine (linesOf ends (text ++ c :: rest)) (linesOf ends text).length text.length := by
  obtain ⟨line, lines, split⟩ := List.exists_cons_of_ne_nil
    (linesOf_ne_nil ends (List.cons_ne_nil c rest))
  have some : 0 < line.length := List.length_pos_of_ne_nil
    (ne_nil_of_mem_linesOf (split ▸ List.mem_cons_self))
  rw [linesOf_append_of_closed closed, split]
  have front : (linesOf ends text).flatten.length = text.length :=
    congrArg List.length (flatten_linesOf ends text)
  refine inLine_of_append (Nat.le_of_eq front) ?_
  rw [front]
  exact Nat.lt_add_of_pos_right some

theorem inLine_of_not_closed {text rest : List α} {c : α}
    (within : ¬ EndsLine ends text (some c)) :
    InLine (linesOf ends (text ++ c :: rest)) ((linesOf ends text).length - 1) text.length := by
  obtain ⟨before, line, after, lines, parts, behind, joined⟩ :=
    linesOf_append_of_not_closed within (List.cons_ne_nil c rest)
  have some : 0 < after.length := List.length_pos_of_ne_nil
    (ne_nil_of_mem_linesOf (behind ▸ List.mem_cons_self))
  have whole : text.length = before.flatten.length + line.length := by
    rw [← flatten_linesOf ends text, parts]
    simp
  rw [joined, parts, List.length_append, List.length_singleton, Nat.add_sub_cancel]
  refine inLine_of_append ?_ ?_
  · omega
  · rw [List.length_append]
    omega

theorem inLine_last (text rest : List α) (c : α) :
    InLine (linesOf ends (text ++ c :: rest)) ((linesOf ends (text ++ [c])).length - 1)
      text.length := by
  by_cases closed : EndsLine ends text (some c)
  · have split : linesOf ends (text ++ [c]) = linesOf ends text ++ linesOf ends [c] :=
      linesOf_append_of_closed closed
    rw [split, linesOf_singleton, List.length_append, List.length_singleton, Nat.add_sub_cancel]
    exact inLine_of_closed closed
  · obtain ⟨before, line, after, lines, parts, behind, joined⟩ :=
      linesOf_append_of_not_closed closed (List.cons_ne_nil c [])
    have same : (linesOf ends (text ++ [c])).length = (linesOf ends text).length := by
      rw [linesOf_singleton, List.cons.injEq] at behind
      rw [joined, parts, ← behind.2]
      simp
    rw [same]
    exact inLine_of_not_closed closed

end SkillMind.Library
