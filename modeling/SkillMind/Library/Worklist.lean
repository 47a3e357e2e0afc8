import SkillMind.Library.Fallible
import Mathlib.Data.List.Dedup
import Mathlib.Data.List.Perm.Subperm

/-!
# Worklists

A worklist takes an element off, reads the elements it refers to, and puts those on the list that
were not found before. When every element that can be found is known and the fuel counts the known
ones, the run ends with the least set that contains the start and is closed under references.
-/

namespace SkillMind.Library

universe u v

variable {ε : Type u} {α : Type v} [DecidableEq α] (references : α → Except ε (List α))

/-- The elements found from `pending`, with those found before. -/
def follow : Nat → List α → List α → Except ε (List α)
  | _, [], found => .ok found
  | 0, _ :: _, found => .ok found
  | fuel + 1, item :: pending, found => do
    let next ← references item
    let fresh := next.dedup.filter fun other => other ∉ found
    follow fuel (fresh ++ pending) (found ++ fresh)

/-- A set that contains what its elements refer to. -/
def Closed (items : List α) : Prop :=
  ∀ item ∈ items, ∃ next, references item = .ok next ∧ next ⊆ items

/-- Where the run stands: what was found is known, and an element that is not pending has been
followed. -/
structure Following (known pending found : List α) : Prop where
  nodup : found.Nodup
  inside : found ⊆ known
  waitsNodup : pending.Nodup
  waits : pending ⊆ found
  followed : ∀ item ∈ found, item ∉ pending →
    ∃ next, references item = .ok next ∧ next ⊆ found

variable {references}

omit [DecidableEq α] in
theorem Following.room {known pending found : List α}
    (following : Following references known pending found) : found.length ≤ known.length :=
  (List.subperm_of_subset following.nodup following.inside).length_le

theorem Following.step {known pending found next : List α} {item : α}
    (following : Following references known (item :: pending) found)
    (read : references item = .ok next) (within : next ⊆ known) :
    Following references known ((next.dedup.filter fun other => other ∉ found) ++ pending)
      (found ++ next.dedup.filter fun other => other ∉ found) := by
  have freshNodup : (next.dedup.filter fun other => other ∉ found).Nodup :=
    (List.nodup_dedup next).filter _
  have apart : ∀ other ∈ next.dedup.filter fun other => other ∉ found, other ∉ found := by
    intro other mem
    simpa using (List.mem_filter.mp mem).2
  have pendingFound : pending ⊆ found := fun other mem =>
    following.waits (List.mem_cons_of_mem item mem)
  have grown : next ⊆ found ++ next.dedup.filter fun other => other ∉ found := by
    intro other mem
    by_cases old : other ∈ found
    · exact List.mem_append_left _ old
    · exact List.mem_append_right _
        (List.mem_filter.mpr ⟨List.mem_dedup.mpr mem, decide_eq_true old⟩)
  refine ⟨?_, ?_, ?_, ?_, ?_⟩
  · exact following.nodup.append freshNodup fun other old fresh => apart other fresh old
  · intro other mem
    rcases List.mem_append.mp mem with old | fresh
    · exact following.inside old
    · exact within (List.mem_dedup.mp (List.mem_filter.mp fresh).1)
  · exact freshNodup.append (List.nodup_cons.mp following.waitsNodup).2
      fun other fresh old => apart other fresh (pendingFound old)
  · intro other mem
    rcases List.mem_append.mp mem with fresh | old
    · exact List.mem_append_right _ fresh
    · exact List.mem_append_left _ (pendingFound old)
  · intro other mem waits
    rcases List.mem_append.mp mem with old | fresh
    · by_cases same : other = item
      · subst same
        exact ⟨next, read, grown⟩
      · have done : other ∉ item :: pending := by
          intro still
          rcases List.mem_cons.mp still with equal | later
          · exact same equal
          · exact waits (List.mem_append_right _ later)
        obtain ⟨next', read', inside'⟩ := following.followed other old done
        exact ⟨next', read', fun x mem' => List.mem_append_left _ (inside' mem')⟩
    · exact absurd (List.mem_append_left _ fresh) waits

theorem follow_spec {known : List α} (sound : ∀ item next, item ∈ known →
      references item = .ok next → next ⊆ known)
    {fuel : Nat} {pending found result : List α}
    (following : Following references known pending found)
    (enough : known.length + pending.length ≤ fuel + found.length)
    (ran : follow references fuel pending found = .ok result) :
    result.Nodup ∧ result ⊆ known ∧ found ⊆ result ∧ Closed references result ∧
      ∀ items, found ⊆ items → Closed references items → result ⊆ items := by
  induction fuel generalizing pending found with
  | zero =>
    cases pending with
    | nil =>
      cases ran
      exact ⟨following.nodup, following.inside, fun _ mem => mem,
        fun item mem => following.followed item mem (by simp), fun items start _ => start⟩
    | cons item pending =>
      have room := following.room
      simp only [List.length_cons] at enough
      omega
  | succ fuel ih =>
    cases pending with
    | nil =>
      cases ran
      exact ⟨following.nodup, following.inside, fun _ mem => mem,
        fun item mem => following.followed item mem (by simp), fun items start _ => start⟩
    | cons item pending =>
      simp only [follow, bind_eq_ok] at ran
      obtain ⟨next, read, ran⟩ := ran
      have found_ : item ∈ found := following.waits List.mem_cons_self
      have inside := sound item next (following.inside found_) read
      have room : known.length + ((next.dedup.filter fun other => other ∉ found) ++
          pending).length ≤
          fuel + (found ++ next.dedup.filter fun other => other ∉ found).length := by
        simp only [List.length_append, List.length_cons] at enough ⊢
        omega
      obtain ⟨nodup, within, grown, closed, least⟩ := ih (following.step read inside) room ran
      refine ⟨nodup, within, fun x mem => grown (List.mem_append_left _ mem), closed, ?_⟩
      intro items start around
      refine least items (fun x mem => ?_) around
      rcases List.mem_append.mp mem with old | fresh
      · exact start old
      · obtain ⟨next', read', inside'⟩ := around item (start found_)
        rw [read] at read'
        cases read'
        exact inside' (List.mem_dedup.mp (List.mem_filter.mp fresh).1)

theorem follow_ok {items : List α} (closed : Closed references items) {fuel : Nat}
    {pending found : List α} (start : found ⊆ items) (waits : pending ⊆ found) :
    ∃ result, follow references fuel pending found = .ok result := by
  induction fuel generalizing pending found with
  | zero => cases pending <;> exact ⟨found, rfl⟩
  | succ fuel ih =>
    cases pending with
    | nil => exact ⟨found, rfl⟩
    | cons item pending =>
      obtain ⟨next, read, inside⟩ := closed item (start (waits List.mem_cons_self))
      rw [follow, read]
      refine ih (fun x mem => ?_) (fun x mem => ?_)
      · rcases List.mem_append.mp mem with old | fresh
        · exact start old
        · exact inside (List.mem_dedup.mp (List.mem_filter.mp fresh).1)
      · rcases List.mem_append.mp mem with fresh | old
        · exact List.mem_append_right _ fresh
        · exact List.mem_append_left _ (waits (List.mem_cons_of_mem _ old))

end SkillMind.Library
