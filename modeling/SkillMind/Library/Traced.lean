import SkillMind.Library.Fallible

/-!
# Computations whose effects are counted

A computation that talks to the outside leaves a trace whether it succeeds or not: `Traced` keeps
the events in order beside the value or the fault.  What a sequence ends in is the sequence of
what its parts end in, and an event of it is one of a part that was reached.
-/

namespace SkillMind.Library

universe u

/-- The events of a computation, and the value or the fault that it ended in. -/
structure Traced (τ ε α : Type u) where
  events : List τ
  result : Except ε α

theorem require_pos {ε : Type u} {cond : Prop} [Decidable cond] {fault : ε} (holds : cond) :
    require cond fault = .ok () := if_pos holds

namespace Traced

variable {τ ε α β : Type u}

/-- The part behind a fault is not reached. -/
def bind (x : Traced τ ε α) (f : α → Traced τ ε β) : Traced τ ε β :=
  match x.result with
  | .error fault => ⟨x.events, .error fault⟩
  | .ok a => ⟨x.events ++ (f a).events, (f a).result⟩

instance : Monad (Traced τ ε) where
  pure a := ⟨[], .ok a⟩
  bind := bind

/-- Nothing happens outside. -/
def lift (x : Except ε α) : Traced τ ε α := ⟨[], x⟩

/-- One event, and then what comes of it. -/
def after (event : τ) (x : Except ε α) : Traced τ ε α := ⟨[event], x⟩

/-- What happened outside is not undone by what is made of the result. -/
def andThen (x : Traced τ ε α) (f : Except ε α → Except ε β) : Traced τ ε β :=
  ⟨x.events, f x.result⟩

@[simp] theorem result_pure (a : α) : (pure a : Traced τ ε α).result = .ok a := rfl

@[simp] theorem result_lift (x : Except ε α) : (lift x : Traced τ ε α).result = x := rfl

@[simp] theorem result_after (event : τ) (x : Except ε α) : (after event x).result = x := rfl

@[simp] theorem result_andThen (x : Traced τ ε α) (f : Except ε α → Except ε β) :
    (x.andThen f).result = f x.result := rfl

@[simp] theorem result_bind (x : Traced τ ε α) (f : α → Traced τ ε β) :
    (x >>= f).result = (x.result >>= fun a => (f a).result) := by
  obtain ⟨events, result⟩ := x
  cases result <;> rfl

@[simp] theorem events_pure (a : α) : (pure a : Traced τ ε α).events = [] := rfl

@[simp] theorem events_lift (x : Except ε α) : (lift x : Traced τ ε α).events = [] := rfl

@[simp] theorem events_after (event : τ) (x : Except ε α) : (after event x).events = [event] := rfl

@[simp] theorem events_andThen (x : Traced τ ε α) (f : Except ε α → Except ε β) :
    (x.andThen f).events = x.events := rfl

theorem events_bind (x : Traced τ ε α) (f : α → Traced τ ε β) :
    (x >>= f).events = x.events ∨
      ∃ a, x.result = .ok a ∧ (x >>= f).events = x.events ++ (f a).events := by
  obtain ⟨events, result⟩ := x
  cases result with
  | error fault => exact .inl rfl
  | ok a => exact .inr ⟨a, rfl, rfl⟩

theorem forall_events_bind {x : Traced τ ε α} {f : α → Traced τ ε β} {holds : τ → Prop}
    (first : ∀ event ∈ x.events, holds event)
    (rest : ∀ a, x.result = .ok a → ∀ event ∈ (f a).events, holds event) :
    ∀ event ∈ (x >>= f).events, holds event := by
  intro event among
  rcases events_bind x f with same | ⟨a, ended, same⟩
  · exact first event (same ▸ among)
  · rw [same, List.mem_append] at among
    exact among.elim (first event) (rest a ended event)

theorem events_lift_bind {x : Except ε α} {f : α → Traced τ ε β} :
    (lift x >>= f).events = [] ∨ ∃ a, x = .ok a ∧ (lift x >>= f).events = (f a).events :=
  events_bind (lift x) f

@[simp] theorem events_ok_bind {a : α} {f : α → Traced τ ε β} :
    (lift (.ok a) >>= f).events = (f a).events := rfl

end Traced

end SkillMind.Library
