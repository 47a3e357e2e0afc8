import Mathlib.Data.List.Forall2

/-!
# Computations that end in a value or a fault

A transaction body is a sequence of reads, guards and writes in `Except`.  A guard is
`require`, a row that has to exist is `orFault`.  The lemmas here invert such a sequence:
from a body that ended in a value they recover every guard that held and every
intermediate value, which is how each operation of a model gets its one inversion lemma.
-/

namespace SkillMind.Library

universe u v

variable {ε : Type u} {α β : Type v}

/-- A guard: nothing happens when the condition holds, and the fault is raised otherwise. -/
def require (cond : Prop) [Decidable cond] (fault : ε) : Except ε Unit :=
  if cond then .ok () else .error fault

/-- The value of an optional read, or the fault raised when there is none. -/
def orFault (fault : ε) : Option α → Except ε α
  | some value => .ok value
  | none => .error fault

/-! ## Inversion -/

variable {x : Except ε α}

@[simp] theorem bind_eq_ok {f : α → Except ε β} {b : β} :
    (x >>= f) = .ok b ↔ ∃ a, x = .ok a ∧ f a = .ok b := by
  cases x with
  | error e => simp [bind, Except.bind]
  | ok a => simp [bind, Except.bind]

theorem exists_unit {holds : Unit → Prop} : (∃ u, holds u) ↔ holds () :=
  ⟨fun ⟨_, h⟩ => h, fun h => ⟨(), h⟩⟩

variable {fault : ε}

@[simp] theorem require_eq_ok {cond : Prop} [Decidable cond] {u : Unit} :
    require cond fault = .ok u ↔ cond := by
  unfold require
  split <;> simp_all

@[simp] theorem orFault_eq_ok {o : Option α} {a : α} :
    orFault fault o = .ok a ↔ o = some a := by
  cases o <;> simp [orFault]

@[simp] theorem pure_eq_ok {a b : α} : (pure a : Except ε α) = .ok b ↔ a = b := by
  simp [pure, Except.pure]

theorem exists_ok (succeeds : x.toOption.isSome = true) : ∃ a, x = .ok a := by
  cases x with
  | error e => cases succeeds
  | ok a => exact ⟨a, rfl⟩

theorem exists_ok_of_map {f : α → β} {b : β} (maps : x.toOption.map f = some b) :
    ∃ a, x = .ok a ∧ f a = b := by
  cases x with
  | error e => cases maps
  | ok a => exact ⟨a, rfl, Option.some.inj maps⟩

variable {xs : List α}

theorem forM_eq_ok {check : α → Except ε PUnit} :
    xs.forM check = .ok ⟨⟩ ↔ ∀ x ∈ xs, check x = .ok ⟨⟩ := by
  induction xs with
  | nil => simp
  | cons x rest ih =>
    simp only [List.forM_eq_forM, List.forM_cons, bind_eq_ok] at ih ⊢
    constructor
    · rintro ⟨_, head, tail⟩ y mem
      rcases List.mem_cons.mp mem with rfl | later
      · exact head
      · exact ih.mp tail y later
    · intro all
      exact ⟨⟨⟩, all x List.mem_cons_self,
        ih.mpr fun y mem => all y (List.mem_cons_of_mem x mem)⟩

theorem bind_eq_error {f : α → Except ε β} :
    (x >>= f) = .error fault ↔ x = .error fault ∨ ∃ a, x = .ok a ∧ f a = .error fault := by
  cases x with
  | error e => simp [bind, Except.bind]
  | ok a => simp [bind, Except.bind]

theorem require_eq_error {cond : Prop} [Decidable cond] {fault' : ε} :
    require cond fault = .error fault' ↔ ¬ cond ∧ fault = fault' := by
  unfold require
  split <;> simp_all

theorem orFault_eq_error {fault' : ε} {o : Option α} :
    orFault fault o = .error fault' ↔ o = none ∧ fault = fault' := by
  cases o <;> simp [orFault]

variable {read : α → Except ε β}

theorem mapM_eq_error :
    xs.mapM read = .error fault ↔ ∃ before x behind, xs = before ++ x :: behind ∧
      (∀ y ∈ before, ∃ b, read y = .ok b) ∧ read x = .error fault := by
  induction xs with
  | nil => simp [pure, Except.pure]
  | cons x rest ih =>
    rw [List.mapM_cons, bind_eq_error]
    constructor
    · rintro (first | ⟨b, first, later⟩)
      · exact ⟨[], x, rest, rfl, fun _ mem => (by cases mem), first⟩
      · rw [bind_eq_error] at later
        rcases later with later | ⟨bs, -, done⟩
        · obtain ⟨before, y, behind, rfl, read, fails⟩ := ih.mp later
          refine ⟨x :: before, y, behind, rfl, ?_, fails⟩
          intro z mem
          rcases List.mem_cons.mp mem with rfl | inside
          · exact ⟨b, first⟩
          · exact read z inside
        · cases done
    · rintro ⟨before, y, behind, whole, read, fails⟩
      cases before with
      | nil =>
        obtain ⟨rfl, rfl⟩ := List.cons.inj whole
        exact Or.inl fails
      | cons z before =>
        obtain ⟨rfl, rfl⟩ := List.cons.inj whole
        obtain ⟨b, first⟩ := read x List.mem_cons_self
        refine Or.inr ⟨b, first, ?_⟩
        rw [bind_eq_error]
        exact Or.inl (ih.mpr ⟨before, y, behind, rfl,
          fun w mem => read w (List.mem_cons_of_mem x mem), fails⟩)

/-! ## Running a sequence forward -/

theorem mapM_of_forall {value : α → β}
    (all : ∀ x ∈ xs, read x = .ok (value x)) : xs.mapM read = .ok (xs.map value) := by
  induction xs with
  | nil => rfl
  | cons x rest ih =>
    have tail := ih fun y mem => all y (List.mem_cons_of_mem x mem)
    rw [List.mapM_cons, all x List.mem_cons_self, tail]
    rfl

theorem mapM_eq_ok_iff {ys : List β} :
    xs.mapM read = .ok ys ↔ List.Forall₂ (fun x y => read x = .ok y) xs ys := by
  induction xs generalizing ys with
  | nil =>
    rw [List.mapM_nil, pure_eq_ok, List.forall₂_nil_left_iff, eq_comm]
  | cons x rest ih =>
    simp only [List.mapM_cons, bind_eq_ok, pure_eq_ok, ih, List.forall₂_cons_left_iff]
    constructor
    · rintro ⟨y, head, ys', tail, rfl⟩
      exact ⟨y, ys', head, tail, rfl⟩
    · rintro ⟨y, ys', head, tail, rfl⟩
      exact ⟨y, head, ys', tail, rfl⟩

theorem mapM_ok_mem {ys : List β}
    (each : xs.mapM read = .ok ys) : ∀ x ∈ xs, ∃ y ∈ ys, read x = .ok y := by
  rw [mapM_eq_ok_iff] at each
  induction each with
  | nil => exact fun _ mem => (nomatch mem)
  | cons head _ ih =>
    intro x mem
    rcases List.mem_cons.mp mem with rfl | later
    · exact ⟨_, List.mem_cons_self, head⟩
    · obtain ⟨y, inside, done⟩ := ih x later
      exact ⟨y, List.mem_cons_of_mem _ inside, done⟩

theorem mapM_ok_image {ys : List β}
    (each : xs.mapM read = .ok ys) : ∀ y ∈ ys, ∃ x ∈ xs, read x = .ok y := by
  rw [mapM_eq_ok_iff] at each
  induction each with
  | nil => exact fun _ mem => (nomatch mem)
  | cons head _ ih =>
    intro y mem
    rcases List.mem_cons.mp mem with rfl | later
    · exact ⟨_, List.mem_cons_self, head⟩
    · obtain ⟨x, inside, done⟩ := ih y later
      exact ⟨x, List.mem_cons_of_mem _ inside, done⟩

theorem mapM_isOk
    (all : ∀ x ∈ xs, ∃ y, read x = .ok y) : ∃ ys, xs.mapM read = .ok ys := by
  induction xs with
  | nil => exact ⟨[], rfl⟩
  | cons x rest ih =>
    obtain ⟨y, head⟩ := all x List.mem_cons_self
    obtain ⟨ys, tail⟩ := ih fun z mem => all z (List.mem_cons_of_mem x mem)
    exact ⟨y :: ys, by rw [List.mapM_cons, head, tail]; rfl⟩

theorem exists_ok_iff : (∃ a, x = .ok a) ↔ x.isOk = true := by
  cases x with
  | error fault => simp [Except.isOk, Except.toBool]
  | ok value => simp [Except.isOk, Except.toBool]

theorem mapError_eq_ok {ε' : Type*} {f : ε → ε'} {a : α} :
    x.mapError f = .ok a ↔ x = .ok a := by
  cases x with
  | error fault => simp [Except.mapError]
  | ok value => simp [Except.mapError]

theorem map_eq_ok {f : α → β} {b : β} :
    x.map f = .ok b ↔ ∃ a, x = .ok a ∧ f a = b := by
  cases x with
  | error fault => simp [Except.map]
  | ok value => simp [Except.map]

theorem require_of {cond : Prop} [Decidable cond] (holds : cond) :
    require cond fault = .ok () := by
  rw [require_eq_ok]
  exact holds

theorem orFault_some (fault : ε) (a : α) : orFault fault (some a) = .ok a := rfl

theorem ok_bind (a : α) (f : α → Except ε β) : ((.ok a : Except ε α) >>= f) = f a := rfl

end SkillMind.Library
