import Mathlib.Data.List.Basic
import Mathlib.Tactic.Common

/-!
# Texts with surrogates

A Python text is a list of code points, and a code point may be a surrogate: a text that came
through an escape of JSON can hold one alone.  Such a text is in memory like any other, but it has
no encoding in UTF-8.
-/

namespace SkillMind.Core

/-- A character of a Python text. -/
structure CodePoint where
  value : Nat
  bounded : value < 0x110000
  deriving DecidableEq

namespace CodePoint

def ofChar (c : Char) : CodePoint :=
  ⟨c.toNat, by
    rcases c.valid with low | ⟨-, high⟩
    · exact Nat.lt_trans low (by decide)
    · exact high⟩

/-- The character of a code point that is no surrogate. -/
def toChar? (point : CodePoint) : Option Char :=
  if point.value.isValidChar then some (Char.ofNat point.value) else none

def IsSurrogate (point : CodePoint) : Prop := 0xd800 ≤ point.value ∧ point.value ≤ 0xdfff

instance (point : CodePoint) : Decidable point.IsSurrogate := inferInstanceAs (Decidable (_ ∧ _))

@[simp] theorem toChar?_ofChar (c : Char) : (ofChar c).toChar? = some c := by
  rw [toChar?, if_pos (show (ofChar c).value.isValidChar from c.valid)]
  exact congrArg some (Char.ofNat_toNat c)

theorem toChar?_eq_none_iff {point : CodePoint} : point.toChar? = none ↔ point.IsSurrogate := by
  have bounded := point.bounded
  rw [toChar?]
  split_ifs with valid
  · have valid' : point.value < 0xd800 ∨ 0xdfff < point.value ∧ point.value < 0x110000 := valid
    simp only [IsSurrogate, false_iff, not_and, Nat.not_le]
    omega
  · have valid' : ¬ (point.value < 0xd800 ∨ 0xdfff < point.value ∧ point.value < 0x110000) := valid
    simp only [IsSurrogate, true_iff]
    omega

end CodePoint

abbrev PyText := List CodePoint

def pyText (text : String) : PyText := text.toList.map CodePoint.ofChar

/-- The characters of a text without surrogates. -/
def toChars? (text : PyText) : Option (List Char) := text.mapM CodePoint.toChar?

/-- `text.encode("utf-8")`; a surrogate raises `UnicodeEncodeError`. -/
def encodeUtf8 (text : PyText) : Option ByteArray :=
  (toChars? text).map fun chars => (String.ofList chars).toUTF8

/-- `data.decode("utf-8")`. -/
def decodeUtf8 (data : ByteArray) : Option PyText := (String.fromUTF8? data).map pyText

theorem toChars?_map_ofChar (chars : List Char) :
    toChars? (chars.map CodePoint.ofChar) = some chars := by
  induction chars with
  | nil => rfl
  | cons c chars ih =>
    rw [toChars?] at ih
    rw [toChars?, List.map_cons, List.mapM_cons, CodePoint.toChar?_ofChar, ih]
    rfl

theorem toChars?_pyText (text : String) : toChars? (pyText text) = some text.toList :=
  toChars?_map_ofChar _

theorem toChars?_isSome_iff {text : PyText} :
    (toChars? text).isSome = true ↔ ∀ point ∈ text, ¬ point.IsSurrogate := by
  induction text with
  | nil =>
    refine ⟨fun _ point mem => ?_, fun _ => rfl⟩
    cases mem
  | cons point text ih =>
    rw [toChars?] at ih
    rw [toChars?, List.mapM_cons]
    constructor
    · intro some other mem
      cases read : point.toChar? with
      | none =>
        rw [read] at some
        cases some
      | some c =>
        rw [read] at some
        rcases List.mem_cons.mp mem with rfl | later
        · intro surrogate
          rw [CodePoint.toChar?_eq_none_iff.mpr surrogate] at read
          cases read
        · refine ih.mp ?_ other later
          cases rest : text.mapM CodePoint.toChar? with
          | none =>
            rw [rest] at some
            cases some
          | some chars => rfl
    · intro plain
      cases read : point.toChar? with
      | none =>
        exact absurd (CodePoint.toChar?_eq_none_iff.mp read) (plain point List.mem_cons_self)
      | some c =>
        obtain ⟨chars, rest⟩ := Option.isSome_iff_exists.mp
          (ih.mpr fun other mem => plain other (List.mem_cons_of_mem _ mem))
        rw [rest]
        rfl

end SkillMind.Core
