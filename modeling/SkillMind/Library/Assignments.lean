import SkillMind.Library.Association

/-!
# Dictionaries from pairs

A dictionary is built by assigning pairs one after another: a key stays where it was first, with
the value that it was assigned last. So the dictionary of pairs with distinct keys is their list,
and of pairs with one key it has the last.
-/

namespace SkillMind.Library

universe u v

variable {κ : Type u} {α : Type v} [BEq κ] [LawfulBEq κ]

/-- A pair assigned to a dictionary. -/
def put (fields : List (κ × α)) (key : κ) (value : α) : List (κ × α) :=
  if (fields.map Prod.fst).contains key then
    fields.map fun field => if field.1 == key then (key, value) else field
  else fields ++ [(key, value)]

/-- The dictionary of a list of pairs. -/
def dictOf (pairs : List (κ × α)) : List (κ × α) :=
  pairs.foldl (fun fields pair => put fields pair.1 pair.2) []

variable {fields pairs : List (κ × α)} {key other : κ} {value : α}

theorem put_of_mem (mem : key ∈ fields.map Prod.fst) : put fields key value =
    fields.map fun field => if field.1 == key then (key, value) else field :=
  if_pos (List.contains_iff_mem.mpr mem)

theorem put_of_not_mem (fresh : key ∉ fields.map Prod.fst) :
    put fields key value = fields ++ [(key, value)] :=
  if_neg fun has => fresh (List.contains_iff_mem.mp has)

theorem put_keys : (put fields key value).map Prod.fst =
    if key ∈ fields.map Prod.fst then fields.map Prod.fst else fields.map Prod.fst ++ [key] := by
  by_cases mem : key ∈ fields.map Prod.fst
  · rw [put_of_mem mem, if_pos mem, List.map_map]
    refine List.map_congr_left fun field _ => ?_
    by_cases same : field.1 == key
    · simp [(eq_of_beq same).symm]
    · simp [same]
  · rw [put_of_not_mem mem, if_neg mem, List.map_append]
    rfl

theorem nodup_put (distinct : (fields.map Prod.fst).Nodup) :
    ((put fields key value).map Prod.fst).Nodup := by
  rw [put_keys]
  split_ifs with mem
  · exact distinct
  · exact List.nodup_append.mpr ⟨distinct, List.nodup_singleton key, by
      intro one inside two last
      rw [List.mem_singleton.mp last]
      rintro rfl
      exact mem inside⟩

omit [LawfulBEq κ] in
theorem lookup_one (pair : κ × α) :
    [pair].lookup other = if other == pair.1 then some pair.2 else none := by
  rw [List.lookup_cons]
  cases other == pair.1 with
  | true => rfl
  | false => rfl

theorem lookup_put : (put fields key value).lookup other =
    if other == key then some value else fields.lookup other := by
  by_cases mem : key ∈ fields.map Prod.fst
  · rw [put_of_mem mem]
    by_cases same : other == key
    · obtain rfl := eq_of_beq same
      rw [if_pos same]
      obtain ⟨field, inside, rfl⟩ := List.mem_map.mp mem
      clear mem same
      induction fields with
      | nil => cases inside
      | cons first rest ih =>
        rw [List.map_cons]
        by_cases here : first.1 == field.1
        · rw [if_pos here, List.lookup_cons_self]
        · rw [if_neg here, List.lookup_cons]
          have apart : (field.1 == first.1) = false := by
            rw [beq_eq_false_iff_ne]
            exact fun equal => here (beq_iff_eq.mpr equal.symm)
          rw [apart]
          refine ih ((List.mem_cons.mp inside).resolve_left ?_)
          rintro rfl
          exact here (beq_self_eq_true _)
    · rw [if_neg same]
      clear mem
      induction fields with
      | nil => rfl
      | cons first rest ih =>
        rw [List.map_cons, List.lookup_cons, List.lookup_cons, ih]
        by_cases here : first.1 == key
        · have apart : (other == first.1) = false := by
            rw [eq_of_beq here]
            exact Bool.eq_false_iff.mpr same
          rw [if_pos here, apart, Bool.eq_false_iff.mpr same]
        · rw [if_neg here]
  · rw [put_of_not_mem mem, List.lookup_append, lookup_one]
    by_cases same : other == key
    · obtain rfl := eq_of_beq same
      have none : fields.lookup other = none := by
        rw [← Option.not_isSome_iff_eq_none, lookup_isSome_iff_mem]
        exact mem
      rw [none, if_pos same, Option.none_or]
    · rw [if_neg same, if_neg same, Option.or_none]

theorem nodup_dictOf (pairs : List (κ × α)) : ((dictOf pairs).map Prod.fst).Nodup := by
  have whole : ∀ (pairs fields : List (κ × α)), (fields.map Prod.fst).Nodup →
      ((pairs.foldl (fun fields pair => put fields pair.1 pair.2) fields).map Prod.fst).Nodup := by
    intro pairs
    induction pairs with
    | nil => exact fun _ distinct => distinct
    | cons pair rest ih => exact fun fields distinct => ih _ (nodup_put distinct)
  exact whole pairs [] List.nodup_nil

theorem dictOf_of_nodup (distinct : (pairs.map Prod.fst).Nodup) : dictOf pairs = pairs := by
  have whole : ∀ (pairs fields : List (κ × α)), ((fields ++ pairs).map Prod.fst).Nodup →
      pairs.foldl (fun fields pair => put fields pair.1 pair.2) fields = fields ++ pairs := by
    intro pairs
    induction pairs with
    | nil => exact fun fields _ => (List.append_nil fields).symm
    | cons pair rest ih =>
      intro fields distinct
      have fresh : pair.1 ∉ fields.map Prod.fst := by
        intro mem
        rw [List.map_append, List.nodup_append] at distinct
        exact distinct.2.2 _ mem _ List.mem_cons_self rfl
      rw [List.foldl_cons, put_of_not_mem fresh, ih, List.append_assoc]
      · rfl
      · rwa [List.append_assoc]
  exact whole pairs [] distinct

theorem lookup_dictOf (pairs : List (κ × α)) (key : κ) :
    (dictOf pairs).lookup key = pairs.reverse.lookup key := by
  have whole : ∀ (pairs fields : List (κ × α)),
      (pairs.foldl (fun fields pair => put fields pair.1 pair.2) fields).lookup key =
        (pairs.reverse.lookup key).or (fields.lookup key) := by
    intro pairs
    induction pairs with
    | nil => exact fun fields => by simp
    | cons pair rest ih =>
      intro fields
      rw [List.foldl_cons, ih, lookup_put, List.reverse_cons, List.lookup_append,
        lookup_one, Option.or_assoc]
      by_cases same : key == pair.1
      · rw [if_pos same, if_pos same, Option.some_or]
      · rw [if_neg same, if_neg same, Option.none_or]
  rw [dictOf, whole]
  simp

theorem mem_of_mem_dictOf {pair : κ × α} (mem : pair ∈ dictOf pairs) : pair ∈ pairs := by
  have found := lookup_of_distinct (nodup_dictOf pairs) mem
  rw [lookup_dictOf] at found
  exact List.mem_reverse.mp (mem_of_lookup found)

end SkillMind.Library
