import Mathlib.Data.List.Pairwise
import SkillMind.Library.Evolution

/-!
# Fenced claims

Workers claim the rows of a table one after the other.  Each claim takes the next number of its
row, and the row keeps the seal of the claim until the claim is given up or replaced.
`Fenced claims rows` relates the claims handed out so far, in order, to the rows: the numbers of
one row increase along the list, no claim is above its row, and a sealed row carries the seal of
its latest claim.

Three things can happen to a table: rows change without a claim, a row is claimed, or a row is
added with its first claim. So the holder of a seal is always the latest claim, and no number is
handed out twice.
-/

namespace SkillMind.Library

universe u v w x

/-- How claims and rows are read: the row of a claim, its number and its seal. -/
structure Fencing (ρ : Type u) (κ : Type v) (ι : Type w) (τ : Type x) where
  key : ρ → ι
  counter : ρ → Nat
  sealed : ρ → Option τ
  target : κ → ι
  number : κ → Nat
  sealOf : κ → τ

variable {ρ : Type u} {κ : Type v} {ι : Type w} {τ : Type x} (F : Fencing ρ κ ι τ)

structure Fenced (claims : List κ) (rows : List ρ) : Prop where
  increasing : claims.Pairwise fun earlier later =>
    F.target earlier = F.target later → F.number earlier < F.number later
  counted : ∀ claim ∈ claims, ∃ row ∈ rows, F.key row = F.target claim ∧
    F.number claim ≤ F.counter row
  held : ∀ row ∈ rows, ∀ mark ∈ F.sealed row, ∃ claim ∈ claims,
    F.target claim = F.key row ∧ F.number claim = F.counter row ∧ F.sealOf claim = mark

/-- A row changes without a claim: its number stays, and its seal stays or goes. -/
structure Fencing.Kept (row later : ρ) : Prop where
  key : F.key later = F.key row
  counter : F.counter later = F.counter row
  unsealed : F.sealed later = F.sealed row ∨ F.sealed later = none

variable {F} {claims : List κ} {rows rows' : List ρ}

theorem Fenced.empty (unsealed : ∀ row ∈ rows, F.sealed row = none) : Fenced F [] rows where
  increasing := List.Pairwise.nil
  counted claim mem := by cases mem
  held row mem mark isSealed := by
    rw [unsealed row mem] at isSealed
    cases isSealed

theorem Fenced.evolve (fenced : Fenced F claims rows)
    (evolves : Evolves F.Kept (fun row => F.sealed row = none) rows rows') :
    Fenced F claims rows' where
  increasing := fenced.increasing
  counted claim mem := by
    obtain ⟨row, rowMem, same, below⟩ := fenced.counted claim mem
    obtain ⟨later, laterMem, kept⟩ := evolves.forward rowMem
    exact ⟨later, laterMem, kept.key.trans same, kept.counter ▸ below⟩
  held row mem mark isSealed := by
    rcases evolves.backward mem with ⟨before, beforeMem, kept⟩ | unsealed
    · rcases kept.unsealed with same | dropped
      · rw [same] at isSealed
        rw [kept.key, kept.counter]
        exact fenced.held before beforeMem mark isSealed
      · rw [dropped] at isSealed
        cases isSealed
    · rw [unsealed] at isSealed
      cases isSealed

theorem Fenced.claim [DecidableEq ι] (fenced : Fenced F claims rows) (keyed : Keyed F.key rows)
    {row later : ρ} {taken : κ} (mem : row ∈ rows) (target : F.target taken = F.key row)
    (same : F.key later = F.key row) (next : F.number taken = F.counter row + 1)
    (counter : F.counter later = F.number taken)
    (isSealed : F.sealed later = some (F.sealOf taken)) :
    Fenced F (claims ++ [taken]) (replaceRow F.key later rows) where
  increasing := by
    refine List.pairwise_append.mpr ⟨fenced.increasing, List.pairwise_singleton _ _, ?_⟩
    intro earlier earlierMem other otherMem sameTarget
    rw [List.mem_singleton.mp otherMem] at sameTarget ⊢
    obtain ⟨found, foundMem, foundKey, below⟩ := fenced.counted earlier earlierMem
    rw [keyed.eq_of_key foundMem mem (foundKey.trans (sameTarget.trans target))] at below
    omega
  counted claim claimMem := by
    have written : later ∈ replaceRow F.key later rows := mem_replaceRow_self mem same.symm
    rcases List.mem_append.mp claimMem with old | new
    · obtain ⟨found, foundMem, foundKey, below⟩ := fenced.counted claim old
      by_cases hit : F.key found = F.key later
      · rw [keyed.eq_of_key foundMem mem (hit.trans same)] at below foundKey
        exact ⟨later, written, same.trans foundKey, by omega⟩
      · exact ⟨found, mem_replaceRow_of_ne foundMem hit, foundKey, below⟩
    · rw [List.mem_singleton.mp new]
      exact ⟨later, written, same.trans target.symm, counter.ge⟩
  held other otherMem mark isMarked := by
    rcases mem_replaceRow otherMem with ⟨rfl, -⟩ | ⟨old, -⟩
    · rw [isSealed] at isMarked
      exact ⟨taken, List.mem_append_right claims List.mem_cons_self, target.trans same.symm,
        counter.symm, Option.some.inj isMarked⟩
    · obtain ⟨claim, claimMem, rest⟩ := fenced.held other old mark isMarked
      exact ⟨claim, List.mem_append_left _ claimMem, rest⟩

theorem Fenced.enter (fenced : Fenced F claims rows) {row : ρ} {taken : κ}
    (fresh : ∀ other ∈ rows, F.key row ≠ F.key other) (target : F.target taken = F.key row)
    (number : F.number taken = F.counter row) (isSealed : F.sealed row = some (F.sealOf taken)) :
    Fenced F (claims ++ [taken]) (rows ++ [row]) where
  increasing := by
    refine List.pairwise_append.mpr ⟨fenced.increasing, List.pairwise_singleton _ _, ?_⟩
    intro earlier earlierMem other otherMem sameTarget
    rw [List.mem_singleton.mp otherMem] at sameTarget
    obtain ⟨found, foundMem, foundKey, -⟩ := fenced.counted earlier earlierMem
    exact absurd (foundKey.trans (sameTarget.trans target)).symm (fresh found foundMem)
  counted claim claimMem := by
    rcases List.mem_append.mp claimMem with old | new
    · obtain ⟨found, foundMem, rest⟩ := fenced.counted claim old
      exact ⟨found, List.mem_append_left _ foundMem, rest⟩
    · rw [List.mem_singleton.mp new]
      exact ⟨row, List.mem_append_right _ List.mem_cons_self, target.symm, number.le⟩
  held other otherMem mark isMarked := by
    rcases List.mem_append.mp otherMem with old | new
    · obtain ⟨claim, claimMem, rest⟩ := fenced.held other old mark isMarked
      exact ⟨claim, List.mem_append_left _ claimMem, rest⟩
    · rw [List.mem_singleton.mp new] at isMarked ⊢
      rw [isSealed] at isMarked
      exact ⟨taken, List.mem_append_right _ List.mem_cons_self, target, number,
        Option.some.inj isMarked⟩

theorem Fenced.holder (fenced : Fenced F claims rows) (keyed : Keyed F.key rows) {row : ρ}
    (mem : row ∈ rows) {mark : τ} (isSealed : F.sealed row = some mark) :
    ∃ claim ∈ claims, F.target claim = F.key row ∧ F.sealOf claim = mark ∧
      ∀ other ∈ claims, F.target other = F.key row → F.number other ≤ F.number claim := by
  obtain ⟨claim, claimMem, target, number, same⟩ := fenced.held row mem mark isSealed
  refine ⟨claim, claimMem, target, same, fun other otherMem otherTarget => ?_⟩
  obtain ⟨found, foundMem, foundKey, below⟩ := fenced.counted other otherMem
  rw [keyed.eq_of_key foundMem mem (foundKey.trans otherTarget)] at below
  omega

theorem Fenced.numbers [DecidableEq ι] (fenced : Fenced F claims rows) (k : ι) :
    ((claims.filter fun claim => F.target claim = k).map F.number).Pairwise (· < ·) := by
  rw [List.pairwise_map, List.pairwise_filter]
  refine fenced.increasing.imp fun ordered earlier later => ordered ?_
  exact (of_decide_eq_true earlier).trans (of_decide_eq_true later).symm

theorem Fenced.once [DecidableEq ι] (fenced : Fenced F claims rows) (k : ι) (n : Nat) :
    claims.countP (fun claim => F.target claim = k ∧ F.number claim = n) ≤ 1 := by
  have numbers := (fenced.numbers k).imp (fun less => Nat.ne_of_lt less)
  have counted := List.nodup_iff_count_le_one.mp numbers n
  rw [List.count, List.countP_map, List.countP_filter] at counted
  refine le_of_eq_of_le (List.countP_congr fun claim _ => ?_) counted
  simp [and_comm]

theorem Fenced.unique (fenced : Fenced F claims rows) {first second : κ} (firstMem : first ∈ claims)
    (secondMem : second ∈ claims) (target : F.target first = F.target second)
    (number : F.number first = F.number second) : first = second := by
  have apart : claims.Pairwise fun earlier later =>
      F.target earlier = F.target later → F.number earlier ≠ F.number later :=
    fenced.increasing.imp fun ordered same => Nat.ne_of_lt (ordered same)
  by_contra distinct
  have symmetric : Std.Symm fun earlier later : κ =>
      F.target earlier = F.target later → F.number earlier ≠ F.number later :=
    ⟨fun earlier later differ same => (differ same.symm).symm⟩
  exact apart.forall firstMem secondMem distinct target number

end SkillMind.Library
