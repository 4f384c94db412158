import Mathlib.Algebra.Field.Rat
import Mathlib.Algebra.GroupWithZero.Basic
import Mathlib.Data.Rat.Cast.Defs
import TaggedSchema.Proofs.Tags

/-!
# Tags as keys

A tag is the key under which dispatch looks up a branch. This file fixes what it is a key of: of the
type of a scalar and its exact value, a rational number for a number (`Number.value`), in whatever
representation the scalar comes (`Tag.ofJson?_canonical`). Where the value is an integer of 64 bits,
the key is that integer, and elsewhere the float itself (`Number.leastForm_cases`); a key written as
a value and read again is the same key.
-/

namespace TaggedSchema

/-! ## 1. Exact values -/

namespace Binary64

/-- The value `± significand · 2 ^ exponent`. -/
def value (x : Binary64) : ℚ :=
  (if x.negative then -1 else 1) * x.significand * 2 ^ x.exponent

/-- The units count the value. -/
theorem value_mul_unitsPerOne (x : Binary64) : x.value * unitsPerOne = x.units := by
  have hlow := x.le_exponent
  have hpower : (2 : ℚ) ^ x.exponent * unitsPerOne = 2 ^ (x.exponent + 1074).toNat := by
    have hsum : (((x.exponent + 1074).toNat : Nat) : Int) = x.exponent + (1074 : Nat) := by omega
    rw [← zpow_natCast, hsum, zpow_add₀ (by decide), zpow_natCast, unitsPerOne, Nat.cast_pow]
    rfl
  have hmagnitude : (x.significand : ℚ) * 2 ^ x.exponent * unitsPerOne = x.magnitude := by
    rw [mul_assoc, hpower, magnitude, Nat.cast_mul, Nat.cast_pow]
    rfl
  unfold value units
  rw [mul_assoc, mul_assoc, ← mul_assoc (x.significand : ℚ), hmagnitude]
  cases x.negative with
  | true => rw [if_pos rfl, if_pos rfl, neg_one_mul, Int.cast_neg, Int.cast_natCast]
  | false =>
    rw [if_neg Bool.false_ne_true, if_neg Bool.false_ne_true, one_mul, Int.cast_natCast]

end Binary64

namespace Number

/-- The value, exact in both representations. -/
def value : Number → ℚ
  | .int n _ => n
  | .float x => x.value

theorem value_mul_unitsPerOne (a : Number) : a.value * Binary64.unitsPerOne = a.units := by
  cases a with
  | int n fits => rw [value, units, Int.cast_mul, Int.cast_natCast]
  | float x => exact x.value_mul_unitsPerOne

theorem unitsPerOne_ne_zero : (Binary64.unitsPerOne : ℚ) ≠ 0 :=
  Nat.cast_ne_zero.mpr (Nat.ne_of_gt Binary64.unitsPerOne_pos)

/-- **Units are a faithful count of values.** -/
theorem value_eq_iff {a b : Number} : a.value = b.value ↔ a.units = b.units := by
  rw [← mul_left_inj' unitsPerOne_ne_zero, value_mul_unitsPerOne, value_mul_unitsPerOne,
    Int.cast_inj]

theorem value_eq_int_iff {a : Number} {n : Int} :
    a.value = n ↔ a.units = n * Binary64.unitsPerOne := by
  rw [← mul_left_inj' unitsPerOne_ne_zero, value_mul_unitsPerOne, ← Int.cast_natCast,
    ← Int.cast_mul, Int.cast_inj]

/-- **The least form of a number** is the integer of 64 bits that is its value, or, where there is
    none, the float that the number is. -/
theorem leastForm_cases (a : Number) :
    (∃ n, ∃ fits : Fits64 n, a.value = n ∧ a.leastForm = .int n fits) ∨
      ((∀ n, Fits64 n → a.value ≠ n) ∧ ∃ x, a = .float x ∧ a.leastForm = .float x) := by
  by_cases h : ∃ n, Fits64 n ∧ a.units = n * Binary64.unitsPerOne
  · obtain ⟨n, fits, hn⟩ := h
    exact Or.inl ⟨n, fits, value_eq_int_iff.mpr hn, leastForm_of_units fits hn⟩
  · have hnot : ∀ n, Fits64 n → a.units ≠ n * Binary64.unitsPerOne :=
      fun n fits hn => h ⟨n, fits, hn⟩
    obtain ⟨hleast, x, rfl⟩ := leastForm_of_forall_ne hnot
    exact Or.inr ⟨fun n fits hn => hnot n fits (value_eq_int_iff.mp hn), x, rfl, hleast⟩

end Number

/-! ## 2. Scalars -/

/-- A type that tags have, and a value of it. -/
inductive Scalar where
  | string (value : String)
  | number (value : ℚ)
  | bool (value : Bool)
deriving DecidableEq

/-- The type and the value of a scalar other than `null`. -/
def Json.scalar? : Json → Option Scalar
  | .string s => some (.string s)
  | .number n => some (.number n.value)
  | .bool b => some (.bool b)
  | _ => none

/-- What a tag is a key of. -/
def Tag.scalar : Tag → Scalar
  | .string s => .string s
  | .number n => .number n.value
  | .bool b => .bool b

/-- The tag of a value has its type and its value, and no other values have tags. -/
theorem Json.scalar?_eq (a : Json) : a.scalar? = (Tag.ofJson? a).map Tag.scalar := by
  cases a with
  | number n =>
    have hvalue : n.leastForm.value = n.value := Number.value_eq_iff.mpr (Number.units_leastForm n)
    rw [scalar?, Tag.ofJson?, Option.map_some, Tag.scalar, hvalue]
  | _ => rfl

/-- Two values make one tag, or none of them makes one, as their types and values are. -/
theorem Tag.ofJson?_eq_iff {a b : Json} : ofJson? a = ofJson? b ↔ a.scalar? = b.scalar? := by
  constructor
  · intro h
    rw [Json.scalar?_eq, Json.scalar?_eq, h]
  · intro h
    cases a <;> cases b <;>
      simp_all [ofJson?, Json.scalar?, Number.leastForm_eq_iff, Number.value_eq_iff]

/-- A tag that is made from a value is made from what it is written as. -/
theorem Tag.ofJson?_toJson {a : Json} {t : Tag} (h : ofJson? a = some t) :
    ofJson? t.toJson = some t := by
  cases a with
  | number n =>
    cases h
    have hleast : n.leastForm.leastForm = n.leastForm :=
      Number.leastForm_eq_iff.mpr (Number.units_leastForm n)
    rw [toJson, ofJson?, hleast]
  | string s => cases h; rfl
  | bool b => cases h; rfl
  | _ => cases h

/-- **Tags are canonical keys.** Two values make one tag exactly when they are scalars of one type
    and one exact value, `null`, arrays and objects making none. A tag written as a value is of the
    type and the value of what it was made from, and is read again as the same tag. And the tag of a
    number holds the integer of 64 bits that the number is, or else the float that it is. -/
theorem Tag.ofJson?_canonical :
    (∀ a b, ofJson? a = ofJson? b ↔ a.scalar? = b.scalar?) ∧
    (∀ a t, ofJson? a = some t → ofJson? t.toJson = some t ∧ t.toJson.scalar? = a.scalar?) ∧
    ∀ n : Number,
      (∃ k, ∃ fits : Fits64 k, n.value = k ∧
        ofJson? (.number n) = some (.number (.int k fits))) ∨
      ((∀ k, Fits64 k → n.value ≠ k) ∧
        ∃ x, n = .float x ∧ ofJson? (.number n) = some (.number (.float x))) := by
  refine ⟨fun a b => ofJson?_eq_iff, fun a t h => ?_, fun n => ?_⟩
  · have hback := ofJson?_toJson h
    exact ⟨hback, ofJson?_eq_iff.mp (hback.trans h.symm)⟩
  · rcases n.leastForm_cases with ⟨k, fits, hvalue, hleast⟩ | ⟨hnot, x, hx, hleast⟩
    · exact Or.inl ⟨k, fits, hvalue, congrArg (fun m => some (Tag.number m)) hleast⟩
    · exact Or.inr ⟨hnot, x, hx, congrArg (fun m => some (Tag.number m)) hleast⟩

/-- Zero has one tag, whatever sign it is written with. -/
example : Tag.ofJson? (.number (.float ⟨true, 0, -1074, by decide, by decide, by decide, by decide⟩))
    = Tag.ofJson? (.number (.ofNat 0)) := by
  decide +kernel

end TaggedSchema
