import Mathlib.Algebra.Order.Round
import Mathlib.Data.Rat.Floor
import TaggedSchema.Proofs.NumericBounds

/-!
# Multiples

`multipleOf` divides two signed integers of 64 bits exactly. Any other numbers it divides as floats,
and takes the quotient for an integer when it is one but for `2 ^ (-50)` of itself, or of one
(`Binary64.isNearInt_iff`). Rounding the two numbers and their quotient moves it by less than that
(`Number.exists_quotient`), so no multiple is refused. But the margin is more than one where the
greater of the two numbers is beyond `2 ^ 50`, and signed integers end at `2 ^ 63`: behind that,
numbers count as multiples that are only near one (`NearMultiple`, `Compiler.multiples_judged`,
`Compiler.multiple_of_three_admits_others`).
-/

namespace TaggedSchema

/-! ## 1. Near an integer -/

namespace Binary64

theorem units_pos_iff {x : Binary64} : 0 < x.units ↔ 0 < x.value := by
  have hpos : (0 : ℚ) < unitsPerOne := Nat.cast_pos.mpr unitsPerOne_pos
  rw [← mul_pos_iff_of_pos_right hpos, value_mul_unitsPerOne, Int.cast_pos]

/-- How far the magnitude is from the integer to which it is rounded. -/
theorem distanceToInt_eq (x : Binary64) :
    (x.distanceToInt : ℚ) = |(x.magnitude : ℚ) / unitsPerOne
      - (round ((x.magnitude : ℚ) / unitsPerOne) : Int)| * unitsPerOne := by
  have hpos : (0 : ℚ) < unitsPerOne := Nat.cast_pos.mpr unitsPerOne_pos
  have hrest : x.magnitude % unitsPerOne ≤ unitsPerOne := (Nat.mod_lt _ unitsPerOne_pos).le
  rw [abs_sub_round_eq_min, Int.fract_div_natCast_eq_div_natCast_mod, min_mul_of_nonneg _ _ hpos.le,
    div_mul_cancel₀ _ hpos.ne', sub_mul, one_mul, div_mul_cancel₀ _ hpos.ne', ← Nat.cast_sub hrest,
    ← Nat.cast_min]
  rfl

/-- Distances to integers do not depend on the sign. -/
theorem exists_signed_sub_iff {negative : Bool} {t : ℚ} {p : ℚ → Prop} :
    (∃ k : Int, p |signed negative t - k|) ↔ ∃ k : Int, p |t - k| := by
  cases negative with
  | false => rfl
  | true =>
    have hmirror (k : Int) : |signed true t - (-k : Int)| = |t - k| := by
      rw [Int.cast_neg]
      exact abs_signed_sub true t k
    constructor
    · rintro ⟨k, hk⟩
      exact ⟨-k, by rwa [← hmirror, neg_neg]⟩
    · rintro ⟨k, hk⟩
      exact ⟨-k, by rwa [hmirror]⟩

/-- **Near an integer** is a float that one is as near to as `2 ^ (-50)` of it, or of one. -/
theorem isNearInt_iff {x : Binary64} : Check.isNearInt x = true ↔
    ∃ k : Int, |x.value - k| * 2 ^ 50 ≤ max |x.value| 1 := by
  have hpos : (0 : ℚ) < unitsPerOne := Nat.cast_pos.mpr unitsPerOne_pos
  have hnonneg : (0 : ℚ) ≤ x.magnitude / unitsPerOne :=
    div_nonneg (Nat.cast_nonneg _) (Nat.cast_nonneg _)
  rw [value_eq_signed_magnitude, abs_signed, abs_of_nonneg hnonneg,
    exists_signed_sub_iff (p := fun distance => distance * 2 ^ 50 ≤ _)]
  have hunits : Check.isNearInt x = true ↔
      (x.distanceToInt : ℚ) * 2 ^ 50 ≤ max (x.magnitude / unitsPerOne : ℚ) 1 * unitsPerOne := by
    have hnat : Check.isNearInt x = true ↔
        x.distanceToInt * 2 ^ 50 ≤ max x.magnitude unitsPerOne := decide_eq_true_iff
    have hpower : ((2 ^ 50 : Nat) : ℚ) = 2 ^ 50 := by norm_num
    rw [hnat, max_mul_of_nonneg _ _ hpos.le, div_mul_cancel₀ _ hpos.ne', one_mul,
      ← Nat.cast_le (α := ℚ), Nat.cast_mul, Nat.cast_max, hpower]
  rw [hunits, distanceToInt_eq, mul_right_comm, mul_le_mul_iff_left₀ hpos]
  refine ⟨fun h => ⟨_, h⟩, fun ⟨k, hk⟩ => ?_⟩
  exact (mul_le_mul_of_nonneg_right (round_le _ k) (by norm_num)).trans hk

end Binary64

/-! ## 2. The rounded quotient -/

section Quotient

variable {x y n d q t : ℚ}

/-- **Two roundings before a division and one behind it** put the quotient off by less than four of
    them. -/
theorem quotient_error (hd : 0 < d) (hx : |x - n| * 2 ^ 53 ≤ |n|) (hy : |y - d| * 2 ^ 53 ≤ |d|)
    (hq : |q - x / y| * 2 ^ 53 ≤ |x / y|) : |q - n / d| * 2 ^ 54 ≤ 7 * |n / d| := by
  rw [abs_of_pos hd] at hy
  have hylow : d * (2 ^ 53 - 1) ≤ y * 2 ^ 53 := by linarith [neg_le_abs (y - d)]
  have hypos : 0 < y := by linarith
  -- The error of the quotient before it is rounded, times the divisor.
  have hsplit : (x / y - n / d) * y = (x - n) + n / d * (d - y) := by
    rw [sub_mul, mul_sub, div_mul_cancel₀ _ hypos.ne', div_mul_cancel₀ _ hd.ne']
    linarith
  have hnumerator : |n| = |n / d| * d := by
    rw [abs_div, abs_of_pos hd, div_mul_cancel₀ _ hd.ne']
  have hscaled : |x / y - n / d| * y ≤ |x - n| + |n / d| * |y - d| := by
    calc |x / y - n / d| * y = |(x - n) + n / d * (d - y)| := by
          rw [← hsplit, abs_mul, abs_of_pos hypos]
      _ ≤ |x - n| + |n / d * (d - y)| := abs_add_le _ _
      _ = |x - n| + |n / d| * |y - d| := by rw [abs_mul, abs_sub_comm d]
  have hquotient : |x / y - n / d| * (2 ^ 53 - 1) ≤ 2 * |n / d| := by
    refine le_of_mul_le_mul_right ?_ hd
    have hlow := mul_le_mul_of_nonneg_left hylow (abs_nonneg (x / y - n / d))
    have hproduct := mul_le_mul_of_nonneg_left hy (abs_nonneg (n / d))
    linarith
  have htriangle := abs_sub_le q (x / y) (n / d)
  have hsize := abs_sub_abs_le_abs_sub (x / y) (n / d)
  linarith [abs_nonneg (n / d)]

/-- An integer near a number is near the rounded one. -/
theorem near_of_near (hq : |q - t| * 2 ^ 54 ≤ 7 * |t|) {k : Int}
    (hk : |t - k| * 2 ^ 51 ≤ max |t| 1) : |q - k| * 2 ^ 50 ≤ max |q| 1 := by
  have htriangle := abs_sub_le q t k
  have hsize := abs_sub_abs_le_abs_sub t q
  rw [abs_sub_comm t] at hsize
  have hleft := le_max_left |q| 1
  have hright := le_max_right |q| 1
  rcases max_cases |t| 1 with ⟨he, _⟩ | ⟨he, _⟩ <;> rw [he] at hk <;> linarith

/-- And an integer near the rounded number is near the number. -/
theorem near_of_near_rounded (hq : |q - t| * 2 ^ 54 ≤ 7 * |t|) {k : Int}
    (hk : |q - k| * 2 ^ 50 ≤ max |q| 1) : |t - k| * 2 ^ 49 ≤ max |t| 1 := by
  have htriangle := abs_sub_le t q k
  rw [abs_sub_comm t q] at htriangle
  have hsize := abs_sub_abs_le_abs_sub q t
  have hleft := le_max_left |t| 1
  have hright := le_max_right |t| 1
  rcases max_cases |q| 1 with ⟨he, _⟩ | ⟨he, _⟩ <;> rw [he] at hk <;> linarith

end Quotient

namespace Number

variable {divisor a : Number} {d n : Int}

/-- The float to which an integer of 64 bits is rounded is neither great nor small. -/
theorem abs_toBinary64_bounds (ha : a.value = n) (hfits : Fits64 n) :
    |a.toBinary64.value| ≤ 2 ^ 65 ∧ (a.toBinary64.value = 0 ∨ 1 / 2 ≤ |a.toBinary64.value|) := by
  have hround := (toBinary64_spec a).2
  rw [ha] at hround
  have hsize := abs_sub_abs_le_abs_sub a.toBinary64.value n
  constructor
  · have hlarge : |(n : ℚ)| ≤ (2 ^ 64 : Int) := by
      have hlow := hfits.1
      rw [← Int.cast_abs]
      exact Int.cast_le.mpr (abs_le.mpr ⟨by omega, hfits.2.le⟩)
    norm_num at hlarge
    linarith
  · by_cases hn : n = 0
    · rw [hn, Int.cast_zero, sub_zero, abs_zero] at hround
      exact .inl (abs_nonpos_iff.mp (by linarith))
    · have hone : (1 : ℚ) ≤ |(n : ℚ)| := by
        rw [← Int.cast_abs]
        exact Int.cast_one_le_of_pos (abs_pos.mpr hn)
      have hsize' := abs_sub_abs_le_abs_sub (n : ℚ) a.toBinary64.value
      rw [abs_sub_comm (n : ℚ)] at hsize'
      exact .inr (by linarith)

/-- Positive numbers are those that are rounded to positive ones. -/
theorem toBinary64_pos_iff : 0 < a.toBinary64.value ↔ 0 < a.value := by
  have hround := (toBinary64_spec a).2
  constructor
  · intro h
    by_contra hle
    rw [abs_of_nonpos (not_lt.mp hle)] at hround
    linarith [le_abs_self (a.toBinary64.value - a.value)]
  · intro h
    rw [abs_of_pos h] at hround
    linarith [neg_le_abs (a.toBinary64.value - a.value)]

/-- **Two integers of 64 bits have a rounded quotient**, off by less than four roundings. -/
theorem exists_quotient (hd : 0 < d) (hdivisor : divisor.value = d) (ha : a.value = n)
    (hfits : Fits64 d) (hfits' : Fits64 n) :
    ∃ q, a.toBinary64.div? divisor.toBinary64 = some q ∧
      q.Nearest (a.toBinary64.value / divisor.toBinary64.value) ∧
      |q.value - n / d| * 2 ^ 54 ≤ 7 * |(n : ℚ) / d| := by
  have hdpos : (0 : ℚ) < d := Int.cast_pos.mpr hd
  have hypos := toBinary64_pos_iff.mpr (hdivisor ▸ hdpos)
  obtain ⟨hxhigh, hxlow⟩ := abs_toBinary64_bounds ha hfits'
  obtain ⟨hyhigh, hylow⟩ := abs_toBinary64_bounds hdivisor hfits
  have hylow := hylow.resolve_left hypos.ne'
  have hx := (toBinary64_spec a).2
  have hy := (toBinary64_spec divisor).2
  rw [ha] at hx
  rw [hdivisor] at hy
  rw [abs_of_pos hypos] at hyhigh hylow
  generalize a.toBinary64 = x at *
  generalize divisor.toBinary64 = y at *
  have hsmall : |x.value / y.value| < 2 ^ (1023 : Int) := by
    have hle : |x.value / y.value| ≤ 2 ^ (66 : Int) := by
      rw [abs_div, abs_of_pos hypos, div_le_iff₀ hypos]
      norm_num
      linarith
    exact hle.trans_lt (zpow_lt_zpow_right₀ one_lt_two (by decide))
  have hnormal : x.value = 0 ∨ (2 : ℚ) ^ (-1022 : Int) ≤ |x.value / y.value| := by
    refine hxlow.imp_right fun hxlow => ?_
    have hle : (2 : ℚ) ^ (-66 : Int) ≤ |x.value / y.value| := by
      rw [abs_div, abs_of_pos hypos, le_div_iff₀ hypos]
      norm_num
      linarith
    exact (zpow_le_zpow_right₀ one_le_two (by decide)).trans hle
  obtain ⟨q, hq, hnearest, herror⟩ := x.div?_spec hypos.ne' hsmall
  exact ⟨q, hq, hnearest, quotient_error hdpos hx hy (herror hnormal)⟩

end Number

/-! ## 3. What counts as a multiple -/

/-- An integer has a multiple of a divisor as near as one part in `parts` of the greater of the
    two. -/
def NearMultiple (parts : Nat) (d n : Int) : Prop := ∃ k : Int, |n - k * d| * parts ≤ max |n| d

section NearMultiple

variable {parts : Nat} {d n : Int}

theorem nearMultiple_of_dvd (hd : 0 < d) (h : d ∣ n) : NearMultiple parts d n := by
  obtain ⟨k, rfl⟩ := h
  refine ⟨k, ?_⟩
  rw [mul_comm d, sub_self, abs_zero, zero_mul]
  exact hd.le.trans (le_max_right _ _)

/-- Integers that are small enough are near no multiples but themselves. -/
theorem dvd_of_nearMultiple (h : NearMultiple parts d n) (hn : |n| < parts) (hd : d < parts) :
    d ∣ n := by
  obtain ⟨k, hk⟩ := h
  have hzero : |n - k * d| < 1 := by
    refine lt_of_mul_lt_mul_right ?_ (Int.natCast_nonneg parts)
    rw [one_mul]
    exact hk.trans_lt (max_lt hn hd)
  exact ⟨k, by rw [mul_comm]; exact sub_eq_zero.mp (Int.abs_lt_one_iff.mp hzero)⟩

/-- In terms of the quotient. -/
theorem nearMultiple_iff (hd : 0 < d) : NearMultiple parts d n ↔
    ∃ k : Int, |(n : ℚ) / d - k| * parts ≤ max |(n : ℚ) / d| 1 := by
  have hpos : (0 : ℚ) < d := Int.cast_pos.mpr hd
  refine exists_congr fun k => ?_
  rw [← mul_le_mul_iff_left₀ hpos, max_mul_of_nonneg _ _ hpos.le, one_mul, mul_right_comm]
  have hscale (t : ℚ) : |t| * d = |t * d| := by rw [abs_mul, abs_of_pos hpos]
  rw [hscale, hscale, sub_mul, div_mul_cancel₀ _ hpos.ne']
  norm_cast

end NearMultiple

/-! ## 4. What `multipleOf` reports -/

namespace Number

variable {a : Number} {n : Int}

/-- A signed integer of 64 bits, as an integer. -/
def Signed (a : Number) : Prop := a.signed?.isSome = true

theorem signed?_eq_some (h : a.signed? = some n) : a.value = n ∧ n < 2 ^ 63 := by
  cases a with
  | float x => cases h
  | int k fits =>
    unfold signed? at h
    dsimp only at h
    split at h
    next hlt =>
      cases h
      exact ⟨rfl, hlt⟩
    next => cases h

/-- A number from `2 ^ 63` on is none. -/
theorem not_signed_of_le (ha : a.value = n) (h : 2 ^ 63 ≤ n) : ¬ a.Signed := by
  intro hsigned
  obtain ⟨k, hk⟩ := Option.isSome_iff_exists.mp hsigned
  obtain ⟨hvalue, hlt⟩ := signed?_eq_some hk
  have : n = k := Int.cast_injective (ha.symm.trans hvalue)
  omega

end Number

namespace Check

variable {divisor a : Number} {d n : Int}

/-- What `multipleOf` says of a number that is no multiple. -/
def noMultiple (f : Frame) (divisor : Number) : ValidationError :=
  f.error "multipleOf" ("must be multiple of " ++ divisor.text)

/-- Two signed integers are divided exactly. -/
theorem divides_signed (hdivisor : divisor.Signed) (ha : a.Signed) (hd : divisor.value = d)
    (hn : a.value = n) : divides divisor a = true ↔ d ∣ n := by
  obtain ⟨d', hd'⟩ := Option.isSome_iff_exists.mp hdivisor
  obtain ⟨n', hn'⟩ := Option.isSome_iff_exists.mp ha
  obtain rfl : d = d' := Int.cast_injective (hd.symm.trans (Number.signed?_eq_some hd').1)
  obtain rfl : n = n' := Int.cast_injective (hn.symm.trans (Number.signed?_eq_some hn').1)
  unfold divides
  rw [hd', hn']
  exact beq_iff_eq.trans Int.dvd_iff_emod_eq_zero.symm

/-- Any others are divided as floats. -/
theorem divides_rounded (h : ¬ (divisor.Signed ∧ a.Signed)) :
    divides divisor a = (a.toBinary64.div? divisor.toBinary64).any isNearInt := by
  unfold Number.Signed at h
  unfold divides
  split
  next d n hd hn => exact absurd ⟨by rw [hd]; rfl, by rw [hn]; rfl⟩ h
  next => rfl

/-- What the check of `multipleOf` finds in a number. -/
theorem errors_multipleOf {find : Finder} {text : String} {f : Frame} :
    (Rule.assertion (multipleOf divisor text).run).errors find "multipleOf" (.number a) f
      = if divides divisor a then []
        else [f.error "multipleOf" ("must be multiple of " ++ text)] := by
  show Dialogue.errors find "multipleOf" f (if divides divisor a = true then _ else _) = _
  split <;> rfl

end Check

/-- The keyword has nothing against the value. -/
def CompiledNode.Accepts (node : CompiledNode) (p : Program) (name : String) (value : Json)
    (f : Frame) : Prop :=
  node.errorsOf p name value f = []

/-- **What `multipleOf` reports of an integer `n`**, for an integer `d` as its divisor, each of them
    in either representation. -/
structure CompiledNode.JudgesMultiple (node : CompiledNode) (p : Program) (divisor a : Number)
    (d n : Int) (f : Frame) : Prop where
  verdict : node.Accepts p "multipleOf" (.number a) f ∨
    node.errorsOf p "multipleOf" (.number a) f = [Check.noMultiple f divisor]
  /-- Signed integers are divided exactly. -/
  signed : divisor.Signed → a.Signed → (node.Accepts p "multipleOf" (.number a) f ↔ d ∣ n)
  /-- Any others by their rounded quotient. -/
  rounded : ¬ (divisor.Signed ∧ a.Signed) → ∃ q : Binary64,
    q.Nearest (a.toBinary64.value / divisor.toBinary64.value) ∧
    (node.Accepts p "multipleOf" (.number a) f ↔
      ∃ k : Int, |q.value - k| * 2 ^ 50 ≤ max |q.value| 1)
  /-- No multiple is refused. -/
  multiple : d ∣ n → node.Accepts p "multipleOf" (.number a) f
  /-- What is near a multiple counts as one. -/
  near : ¬ (divisor.Signed ∧ a.Signed) → NearMultiple (2 ^ 51) d n →
    node.Accepts p "multipleOf" (.number a) f
  /-- Nothing else does, but for a factor of four. -/
  far : ¬ (divisor.Signed ∧ a.Signed) → node.Accepts p "multipleOf" (.number a) f →
    NearMultiple (2 ^ 49) d n

namespace CompiledNode.JudgesMultiple

variable {node : CompiledNode} {p : Program} {divisor a : Number} {d n : Int} {f : Frame}

/-- Below `2 ^ 49`, the verdict is exact in every representation. -/
theorem small (h : node.JudgesMultiple p divisor a d n f) (hn : |n| < 2 ^ 49) (hd : d < 2 ^ 49) :
    node.Accepts p "multipleOf" (.number a) f ↔ d ∣ n := by
  refine ⟨fun haccepts => ?_, h.multiple⟩
  by_cases hsigned : divisor.Signed ∧ a.Signed
  · exact (h.signed hsigned.1 hsigned.2).mp haccepts
  · exact dvd_of_nearMultiple (h.far hsigned haccepts) hn hd

/-- **From `2 ^ 63` on every number counts as a multiple** of every divisor up to `2 ^ 12`. -/
theorem large (h : node.JudgesMultiple p divisor a d n f) (ha : a.value = n) (hn : 2 ^ 63 ≤ n)
    (hpos : 0 < d) (hd : d ≤ 2 ^ 12) : node.Accepts p "multipleOf" (.number a) f := by
  refine h.near (fun hsigned => Number.not_signed_of_le ha hn hsigned.2) ⟨n / d, ?_⟩
  have hrest : n - n / d * d = n % d := by rw [mul_comm, Int.emod_def]
  have hlow := Int.emod_nonneg n hpos.ne'
  have hhigh := Int.emod_lt_of_pos n hpos
  rw [hrest, abs_of_nonneg hlow]
  refine le_trans ?_ ((le_abs_self n).trans (le_max_left _ _))
  push_cast
  omega

end CompiledNode.JudgesMultiple

/-- `multipleOf` is compiled iff its value is a positive number. -/
theorem Builtin.multipleOf_eq_ok_iff {o : Occurrence} {check : Option Check} :
    multipleOf o = .ok check ↔ ∃ divisor : Number, o.value = .number divisor ∧ 0 < divisor.value ∧
      check = some (.multipleOf divisor divisor.text) := by
  unfold multipleOf
  rw [bind_eq_ok]
  refine exists_congr fun divisor => ?_
  rw [number_eq_ok_iff]
  refine and_congr_right fun hvalue => ?_
  rw [hvalue, ← Number.toBinary64_pos_iff, ← Binary64.units_pos_iff, ← not_le]
  split
  next hunits => exact iff_of_false (fun h => by cases h) fun h => h.1 hunits
  next hunits =>
    rw [and_iff_right hunits]
    exact ⟨fun h => (Except.ok.inj h).symm, fun h => h ▸ rfl⟩

namespace Compiler

variable {c : Compiler} {store : Store} {g : Graph} {start id : NodeId} {p : Program} {n : Node}
  {node : CompiledNode}

/-- `multipleOf` at a node has a positive number for its divisor, and divides by that. -/
theorem errorsOf_multipleOf [Pattern.Library] (hcompiled : c.compileNode g id n = .ok node)
    (hnodup : (n.keywords.map (·.1)).Nodup) (hregistry : c.registry = .default)
    (hkeyword : n.hasKeyword "multipleOf" = true) :
    ∃ divisor : Number, n.keyword? "multipleOf" = some (.number divisor) ∧ 0 < divisor.value ∧
      ∀ (p : Program) value f, node.errorsOf p "multipleOf" value f
        = (Rule.assertion (Check.multipleOf divisor divisor.text).run).errors p.found "multipleOf"
          value f := by
  obtain ⟨written, hwritten⟩ := Option.isSome_iff_exists.mp hkeyword
  obtain ⟨check, hcheck, herrors⟩ :=
    errorsOf_of_check hcompiled hnodup hregistry (by decide) rfl hwritten
  obtain ⟨divisor, hdivisor, hpos, rfl⟩ := Builtin.multipleOf_eq_ok_iff.mp hcheck
  exact ⟨divisor, hwritten.trans (congrArg some hdivisor), hpos, herrors _ rfl⟩

/-- What the check finds is a judgement: the rounded quotient is near an integer where the exact one
    is, and only there, within a factor of two on both sides. -/
theorem judgesMultiple_of_errorsOf {divisor a : Number} {d k : Int} {f : Frame} (hd : 0 < d)
    (hdivisor : divisor.value = d) (ha : a.value = k) (hfits : Fits64 d) (hfits' : Fits64 k)
    (h : node.errorsOf p "multipleOf" (.number a) f
      = if Check.divides divisor a then [] else [Check.noMultiple f divisor]) :
    node.JudgesMultiple p divisor a d k f := by
  have haccepts : node.Accepts p "multipleOf" (.number a) f ↔ Check.divides divisor a = true := by
    unfold CompiledNode.Accepts
    rw [h]
    split <;> simp [*]
  obtain ⟨q, hq, hnearest, herror⟩ := Number.exists_quotient hd hdivisor ha hfits hfits'
  have hrounded (hnot : ¬ (divisor.Signed ∧ a.Signed)) :
      node.Accepts p "multipleOf" (.number a) f ↔
        ∃ k : Int, |q.value - k| * 2 ^ 50 ≤ max |q.value| 1 := by
    rw [haccepts, Check.divides_rounded hnot, hq, Option.any_some, Binary64.isNearInt_iff]
  have hnear (hnot : ¬ (divisor.Signed ∧ a.Signed)) (hmultiple : NearMultiple (2 ^ 51) d k) :
      node.Accepts p "multipleOf" (.number a) f := by
    obtain ⟨j, hj⟩ := (nearMultiple_iff hd).mp hmultiple
    have hpower : ((2 ^ 51 : Nat) : ℚ) = 2 ^ 51 := by norm_num
    rw [hpower] at hj
    exact (hrounded hnot).mpr ⟨j, near_of_near herror hj⟩
  refine ⟨?verdict, fun hs hs' => haccepts.trans (Check.divides_signed hs hs' hdivisor ha),
    fun hnot => ⟨q, hnearest, hrounded hnot⟩, fun hdvd => ?multiple, hnear, fun hnot hok => ?far⟩
  case verdict =>
    unfold CompiledNode.Accepts
    rw [h]
    split
    · exact .inl rfl
    · exact .inr rfl
  case multiple =>
    by_cases hsigned : divisor.Signed ∧ a.Signed
    · exact haccepts.mpr ((Check.divides_signed hsigned.1 hsigned.2 hdivisor ha).mpr hdvd)
    · exact hnear hsigned (nearMultiple_of_dvd hd hdvd)
  case far =>
    obtain ⟨j, hj⟩ := (hrounded hnot).mp hok
    have hpower : ((2 ^ 49 : Nat) : ℚ) = 2 ^ 49 := by norm_num
    refine (nearMultiple_iff hd).mpr ⟨j, ?_⟩
    rw [hpower]
    exact near_of_near_rounded herror hj

/-- **Integers are judged as multiples exactly, or within the margin of a rounded quotient.** In a
    program of built-in keywords, compiled from a store whose documents have distinct keys, a
    reached node with `multipleOf` has a number above zero for its divisor. Let that be an integer
    of 64 bits, and take another, each in either representation. Where both are signed integers, the
    second is accepted iff the first divides it. Otherwise it is accepted iff their rounded quotient
    is near an integer; so every multiple is accepted, and what is no multiple is accepted if it is
    as near to one as `2 ^ (-51)` of the greater of the two, and only if it is as near as
    `2 ^ (-49)`. Hence the verdict is exact below `2 ^ 49` in all representations, and from `2 ^ 63`
    on it is void: all numbers there are accepted as multiples of all divisors up to `2 ^ 12`.
    Values of other types are accepted. And the keyword is compiled for every number above zero. -/
theorem multiples_judged [Uri.Library] [Pattern.Library] (hstore : store.DistinctKeys)
    {root : String} (hg : Graph.resolve store root = .ok g) {o : Options}
    (hp : (builtin o).compile g start = .ok p)
    (hid : id ∈ reached g start) (hn : g.node? id = some n)
    (hkeyword : n.hasKeyword "multipleOf" = true) :
    ∃ node divisor, p.nodes[id]? = some node ∧ node.Accounts p id ∧
      n.keyword? "multipleOf" = some (.number divisor) ∧ 0 < divisor.value ∧
      (∀ d : Int, Fits64 d → divisor.value = d → ∀ k : Int, Fits64 k → ∀ a : Number, a.value = k →
        ∀ f, node.JudgesMultiple p divisor a d k f ∧
          (|k| < 2 ^ 49 → d < 2 ^ 49 → (node.Accepts p "multipleOf" (.number a) f ↔ d ∣ k)) ∧
          (2 ^ 63 ≤ k → d ≤ 2 ^ 12 → node.Accepts p "multipleOf" (.number a) f)) ∧
      (∀ value f, value.number? = none → node.Accepts p "multipleOf" value f) ∧
      ∀ (written : Occurrence) check, Builtin.multipleOf written = .ok check ↔
        ∃ divisor : Number, written.value = .number divisor ∧ 0 < divisor.value ∧
          check = some (.multipleOf divisor divisor.text) := by
  obtain ⟨hresolved, _⟩ := Graph.resolved_of_resolve hg
  have hnodup := hresolved.nodup_keywords hstore hn
  obtain ⟨node, hcompiled, hnode⟩ := node_of_reached hp hid hn
  obtain ⟨divisor, hwritten, hpos, herrors⟩ := errorsOf_multipleOf hcompiled hnodup rfl hkeyword
  refine ⟨node, divisor, hnode,
    accounts_of_compileNode hcompiled hnodup (isBuiltin_of_compile hp) hnode, hwritten, hpos,
    fun d hfits hdivisor k hfits' a ha f => ?_, fun value f hvalue => ?_,
    fun _ _ => Builtin.multipleOf_eq_ok_iff⟩
  · have hd : 0 < d := Int.cast_pos.mp (hdivisor ▸ hpos)
    have hjudges : node.JudgesMultiple p divisor a d k f :=
      judgesMultiple_of_errorsOf hd hdivisor ha hfits hfits'
        ((herrors p (.number a) f).trans Check.errors_multipleOf)
    exact ⟨hjudges, hjudges.small, fun hk hsmall => hjudges.large ha hk hd hsmall⟩
  · unfold CompiledNode.Accepts
    rw [herrors]
    cases value with
    | number a => cases hvalue
    | _ => rfl

end Compiler

/-- A schema of the multiples of three. -/
def threes : Json := .object [("multipleOf", .number (.ofNat 3))]

/-- Of signed integers it accepts the multiples of three, and of the others all. -/
theorem Compiler.multiples_judged_threes :
    ∃ g p node, Graph.ofDocument threes = .ok g ∧ (builtin .default).compile g g.root = .ok p ∧
      p.nodes[g.root]? = some node ∧ ∀ (k : Int) (fits : Fits64 k) f,
        (k < 2 ^ 63 → (node.Accepts p "multipleOf" (.number (.int k fits)) f ↔ 3 ∣ k)) ∧
          (2 ^ 63 ≤ k → node.Accepts p "multipleOf" (.number (.int k fits)) f) := by
  have hall : ((Graph.ofDocument threes).toOption.any fun g =>
      ((builtin .default).compile g g.root).toOption.any fun _ => (g.node? g.root).any fun n =>
        decide (g.root ∈ reached g g.root ∧ n.hasKeyword "multipleOf" = true ∧
          (n.keyword? "multipleOf").bind Json.number? = some (.ofNat 3))) = true := by
    decide +kernel
  obtain ⟨g, hg, hall⟩ := any_toOption_eq_true.mp hall
  obtain ⟨p, hp, hall⟩ := any_toOption_eq_true.mp hall
  obtain ⟨n, hn, hall⟩ := (Option.any_eq_true _ _).mp hall
  obtain ⟨hroot, hkeyword, hwritten⟩ := of_decide_eq_true hall
  have hkeys : threes.DistinctKeys := by simp [threes]
  obtain ⟨node, divisor, hnode, _, hdivisor, _, hjudges, _⟩ :=
    multiples_judged (Store.distinctKeys_single hkeys) hg hp hroot hn hkeyword
  rw [hdivisor] at hwritten
  obtain rfl : divisor = .ofNat 3 := Option.some.inj hwritten
  refine ⟨g, p, node, hg, hp, hnode, fun k fits f => ?_⟩
  obtain ⟨hjudges, _, hlarge⟩ := hjudges 3 (by decide) rfl k fits (.int k fits) rfl f
  refine ⟨fun hlt => hjudges.signed rfl ?_, fun hle => hlarge hle (by decide)⟩
  unfold Number.Signed Number.signed?
  dsimp only
  rw [if_pos hlt]
  rfl

/-- **What is no multiple of three passes as one**: the integer `2 ^ 64 - 2`, which three divides
    with a rest of two. -/
theorem Compiler.multiple_of_three_admits_others :
    ∃ g p, Graph.ofDocument threes = .ok g ∧ (builtin .default).compile g g.root = .ok p ∧
      ¬ (3 : Int) ∣ 18446744073709551614 ∧
      (p.report false (.number (.int 18446744073709551614 (by decide)))).errors = [] := by
  have hall : ((Graph.ofDocument threes).toOption.any fun g =>
      ((builtin .default).compile g g.root).toOption.any fun p =>
        decide ((p.report false (.number (.int 18446744073709551614 (by decide)))).errors = []))
      = true := by
    decide +kernel
  obtain ⟨g, hg, hall⟩ := any_toOption_eq_true.mp hall
  obtain ⟨p, hp, hall⟩ := any_toOption_eq_true.mp hall
  exact ⟨g, p, hg, hp, by decide, of_decide_eq_true hall⟩

end TaggedSchema
