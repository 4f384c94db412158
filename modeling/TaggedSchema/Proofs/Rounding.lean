import Mathlib.Algebra.Order.Field.Power
import Mathlib.Data.Nat.Cast.Order.Field
import Mathlib.Tactic.Linarith
import Mathlib.Tactic.NormNum
import Mathlib.Tactic.Positivity
import TaggedSchema.Proofs.ValueEquality

/-!
# Rounding

`Binary64.round?` is the one rounding step of the arithmetic. This file says what it does to exact
values, which are rational numbers here: it finds a float to which no other is nearer
(`Binary64.Nearest`), and misses the number by at most `2 ^ (-53)` of it, unless that is subnormal
(`Binary64.round?_spec`). An integer of 64 bits and a quotient are rounded by that step, so the same
holds of them (`Number.toBinary64_spec`, `Binary64.div?_spec`).

A nearest float keeps the order of numbers, and is the number itself where that is a float
(`Binary64.Nearest.value_le`, `Binary64.Nearest.value_eq`). This is all that comparing numbers needs
to know about rounding.
-/

namespace TaggedSchema

namespace Binary64

variable {num den : Nat}

/-! ## 1. To the nearest integer -/

/-- A quotient is rounded by half at most. -/
theorem roundHalfEven_bounds (num : Nat) (hden : 0 < den) :
    2 * num ≤ 2 * (roundHalfEven num den * den) + den ∧
      2 * (roundHalfEven num den * den) ≤ 2 * num + den := by
  have hsplit := Nat.div_add_mod num den
  have hrest := Nat.mod_lt num hden
  unfold roundHalfEven
  dsimp only
  generalize num / den = quotient at *
  generalize num % den = rest at *
  have hup : (quotient + 1) * den = den * quotient + den := by
    rw [Nat.add_one_mul, Nat.mul_comm]
  have hdown : quotient * den = den * quotient := Nat.mul_comm _ _
  generalize den * quotient = below at *
  split
  · omega
  · split
    · omega
    · obtain heven | hodd : quotient % 2 = 0 ∨ quotient % 2 = 1 := by omega
      · rw [heven, Nat.add_zero]
        omega
      · rw [hodd]
        omega

theorem abs_roundHalfEven_sub_le (num : Nat) (hden : 0 < den) :
    |(roundHalfEven num den : ℚ) - num / den| ≤ 1 / 2 := by
  obtain ⟨hlow, hhigh⟩ := roundHalfEven_bounds num hden
  have hpos : (0 : ℚ) < den := Nat.cast_pos.mpr hden
  have hquotient : (num : ℚ) / den * den = num := div_mul_cancel₀ _ hpos.ne'
  have hlow : (2 : ℚ) * num ≤ 2 * (roundHalfEven num den * den) + den := by exact_mod_cast hlow
  have hhigh : (2 : ℚ) * (roundHalfEven num den * den) ≤ 2 * num + den := by exact_mod_cast hhigh
  rw [abs_le]
  constructor <;> refine le_of_mul_le_mul_right ?_ hpos <;> linarith

/-- An integer that is off by half at most is a nearest one. -/
theorem abs_sub_le_of_int {r : Int} {t : ℚ} (h : |(r : ℚ) - t| ≤ 1 / 2) (k : Int) :
    |(r : ℚ) - t| ≤ |k - t| := by
  by_cases hk : k = r
  · rw [hk]
  · have hapart : (1 : ℚ) ≤ |(k : ℚ) - r| := by
      have hone : 1 ≤ |k - r| := Int.one_le_abs (sub_ne_zero.mpr hk)
      exact_mod_cast hone
    have htriangle := abs_sub_le (k : ℚ) t r
    rw [abs_sub_comm t r] at htriangle
    linarith

theorem le_of_rounds_below {s n : Nat} {t : ℚ} (h : |(s : ℚ) - t| ≤ 1 / 2) (ht : t < n) :
    s ≤ n := by
  have hlt : (s : ℚ) < (n + 1 : Nat) := by
    rw [Nat.cast_add_one]
    linarith [le_of_abs_le h]
  exact Nat.le_of_lt_succ (Nat.cast_lt.mp hlt)

theorem le_of_rounds_above {s n : Nat} {t : ℚ} (h : |(s : ℚ) - t| ≤ 1 / 2) (ht : n ≤ t) :
    n ≤ s := by
  have hlt : (n : ℚ) < (s + 1 : Nat) := by
    rw [Nat.cast_add_one]
    linarith [neg_le_of_abs_le h]
  exact Nat.le_of_lt_succ (Nat.cast_lt.mp hlt)

/-! ## 2. Scaling by powers -/

theorem two_zpow_pos (e : Int) : (0 : ℚ) < 2 ^ e := zpow_pos two_pos e

theorem cast_pow (b k : Nat) : ((b ^ k : Nat) : ℚ) = (b : ℚ) ^ (k : Int) := by
  rw [zpow_natCast, Nat.cast_pow]

theorem cast_two_pow (k : Nat) : ((2 ^ k : Nat) : ℚ) = 2 ^ (k : Int) := cast_pow 2 k

section Power

variable {b : Nat}

/-- Scaling numerator and denominator scales the quotient. -/
theorem scaled_div (hb : 0 < b) (num den : Nat) (e : Int) :
    ((num * b ^ (-e).toNat : Nat) : ℚ) / (den * b ^ e.toNat : Nat) = num / den / (b : ℚ) ^ e := by
  have hpower : (b : ℚ) ^ ((-e).toNat : Int) / (b : ℚ) ^ (e.toNat : Int) = 1 / (b : ℚ) ^ e := by
    rw [← zpow_sub₀ (Nat.cast_ne_zero.mpr hb.ne'), one_div, ← zpow_neg]
    congr 1
    omega
  rw [Nat.cast_mul, Nat.cast_mul, cast_pow, cast_pow, mul_div_mul_comm, hpower, mul_one_div]

/-- **The leading digit** of a quotient: the numbers of digits of numerator and denominator fix its
    place but for one, and a comparison decides which of the two places it is. -/
theorem leading_spec (hb : 1 < b) {k l : Nat} {guess lead : Int}
    (hnum : b ^ k ≤ num ∧ num < b ^ (k + 1)) (hden : b ^ l ≤ den ∧ den < b ^ (l + 1))
    (hguess : (k : Int) - l = guess)
    (hlead : (if den * b ^ guess.toNat ≤ num * b ^ (-guess).toNat then guess else guess - 1)
      = lead) :
    (b : ℚ) ^ lead ≤ num / den ∧ (num : ℚ) / den < (b : ℚ) ^ (lead + 1) := by
  have hbase : 0 < b := Nat.zero_lt_of_lt hb
  have hne : (b : ℚ) ≠ 0 := Nat.cast_ne_zero.mpr hbase.ne'
  have hpower (e : Int) : (0 : ℚ) < (b : ℚ) ^ e := zpow_pos (Nat.cast_pos.mpr hbase) e
  have hposNat : 0 < den := (Nat.pow_pos hbase).trans_le hden.1
  have hpos : (0 : ℚ) < den := Nat.cast_pos.mpr hposNat
  have hcast {n m : Nat} (h : b ^ m ≤ n ∧ n < b ^ (m + 1)) :
      (b : ℚ) ^ (m : Int) ≤ n ∧ (n : ℚ) < (b : ℚ) ^ ((m : Int) + 1) := by
    have hlow : ((b ^ m : Nat) : ℚ) ≤ n := Nat.cast_le.mpr h.1
    have hhigh : (n : ℚ) < (b ^ (m + 1) : Nat) := Nat.cast_lt.mpr h.2
    rw [cast_pow] at hlow hhigh
    exact ⟨hlow, hhigh⟩
  obtain ⟨hnumlow, hnumhigh⟩ := hcast hnum
  obtain ⟨hdenlow, hdenhigh⟩ := hcast hden
  have hupper : (num : ℚ) / den < (b : ℚ) ^ (guess + 1) := by
    rw [div_lt_iff₀ hpos]
    calc (num : ℚ) < (b : ℚ) ^ ((k : Int) + 1) := hnumhigh
      _ = (b : ℚ) ^ (guess + 1) * (b : ℚ) ^ (l : Int) := by
        rw [← zpow_add₀ hne]
        congr 1
        omega
      _ ≤ (b : ℚ) ^ (guess + 1) * den := mul_le_mul_of_nonneg_left hdenlow (hpower _).le
  have hlower : (b : ℚ) ^ (guess - 1) ≤ num / den := by
    rw [le_div_iff₀ hpos]
    calc (b : ℚ) ^ (guess - 1) * den ≤ (b : ℚ) ^ (guess - 1) * (b : ℚ) ^ ((l : Int) + 1) :=
          mul_le_mul_of_nonneg_left hdenhigh.le (hpower _).le
      _ = (b : ℚ) ^ (k : Int) := by
        rw [← zpow_add₀ hne]
        congr 1
        omega
      _ ≤ num := hnumlow
  have htest : den * b ^ guess.toNat ≤ num * b ^ (-guess).toNat ↔ (b : ℚ) ^ guess ≤ num / den := by
    have hscaled : (0 : ℚ) < (den * b ^ guess.toNat : Nat) :=
      Nat.cast_pos.mpr (Nat.mul_pos hposNat (Nat.pow_pos hbase))
    rw [← one_le_div₀ (hpower guess), ← scaled_div hbase, one_le_div₀ hscaled, Nat.cast_le]
  split at hlead
  next h => exact hlead ▸ ⟨htest.mp h, hupper⟩
  next h =>
    rw [← hlead, sub_add_cancel]
    exact ⟨hlower, lt_of_not_ge fun hle => h (htest.mpr hle)⟩

end Power

/-- **The leading exponent** of a quotient: the quotient lies between its power and the next. -/
theorem leadingExponent_spec (hnum : 0 < num) (hden : 0 < den) :
    (2 : ℚ) ^ leadingExponent num den ≤ num / den ∧
      (num : ℚ) / den < 2 ^ (leadingExponent num den + 1) := by
  have hbits {n : Nat} (hn : 0 < n) : 2 ^ n.log2 ≤ n ∧ n < 2 ^ (n.log2 + 1) :=
    ⟨Nat.log2_self_le hn.ne', Nat.lt_log2_self⟩
  exact leading_spec one_lt_two (hbits hnum) (hbits hden) rfl rfl

/-- On a grid, a number is off by half a step at most. -/
theorem abs_mul_sub_le {s : Nat} {q step : ℚ} (hpos : 0 < step)
    (hs : |(s : ℚ) - q / step| ≤ 1 / 2) : |(s : ℚ) * step - q| ≤ 1 / 2 * step := by
  have hsplit : (s : ℚ) * step - q = (s - q / step) * step := by
    rw [sub_mul, div_mul_cancel₀ _ hpos.ne']
  rw [hsplit, abs_mul, abs_of_pos hpos]
  exact mul_le_mul_of_nonneg_right hs hpos.le

/-! ## 3. Nearest floats -/

/-- No float is nearer to the number. -/
def Nearest (x : Binary64) (t : ℚ) : Prop := ∀ y : Binary64, |x.value - t| ≤ |y.value - t|

/-- A magnitude with a sign. -/
def signed (negative : Bool) (q : ℚ) : ℚ := if negative then -q else q

theorem abs_signed (negative : Bool) (q : ℚ) : |signed negative q| = |q| := by
  cases negative
  · rfl
  · exact abs_neg q

theorem signed_div (a b : Bool) (p q : ℚ) : signed a p / signed b q = signed (a != b) (p / q) := by
  cases a <;> cases b <;> simp [signed, neg_div, div_neg]

theorem value_eq_signed (x : Binary64) :
    x.value = signed x.negative (x.significand * 2 ^ x.exponent) := by
  unfold value signed
  split <;> simp

theorem value_neg (x : Binary64) : x.neg.value = -x.value := by
  unfold value neg
  cases x.negative <;> simp

theorem abs_signed_sub (negative : Bool) (p q : ℚ) :
    |signed negative p - signed negative q| = |p - q| := by
  unfold signed
  split
  · rw [neg_sub_neg, abs_sub_comm]
  · rfl

theorem nearest_value (x : Binary64) : x.Nearest x.value := fun y => by
  rw [sub_self, abs_zero]
  exact abs_nonneg _

/-- To be nearest does not depend on the sign. -/
theorem nearest_of_signed {x : Binary64} {negative : Bool} {p q : ℚ}
    (hx : x.value = signed negative p) (h : ∀ y : Binary64, |p - q| ≤ |y.value - q|) :
    x.Nearest (signed negative q) := by
  intro y
  rw [hx, abs_signed_sub]
  cases negative with
  | false => exact h y
  | true =>
    have hy := h y.neg
    rw [value_neg] at hy
    have hback : y.value - signed true q = -(-y.value - q) := by
      rw [signed, if_pos rfl]
      linarith
    rw [hback, abs_neg]
    exact hy

/-- A float is a whole multiple of every smaller power of two. -/
theorem exists_mul_eq_value {e : Int} (y : Binary64) (h : e ≤ y.exponent) :
    ∃ k : Int, y.value = k * 2 ^ e := by
  have hpower : (2 : ℚ) ^ y.exponent = (2 ^ (y.exponent - e).toNat : Nat) * 2 ^ e := by
    rw [cast_two_pow, ← zpow_add₀ two_ne_zero]
    congr 1
    omega
  refine ⟨(if y.negative then -1 else 1) * y.significand * (2 ^ (y.exponent - e).toNat : Nat), ?_⟩
  rw [value, hpower, ← mul_assoc]
  push_cast
  rfl

theorem value_lt_of_exponent_lt {e : Int} (y : Binary64) (h : y.exponent < e) :
    y.value < 2 ^ (e + 52) := by
  have hpositive : (0 : ℚ) ≤ y.significand * 2 ^ y.exponent :=
    mul_nonneg (Nat.cast_nonneg _) (two_zpow_pos _).le
  have hle : y.value ≤ y.significand * 2 ^ y.exponent := by
    rw [value_eq_signed]
    unfold signed
    split <;> linarith
  have hsignificand : (y.significand : ℚ) < 2 ^ (53 : Int) := by
    have hlt : (y.significand : ℚ) < (2 ^ 53 : Nat) := Nat.cast_lt.mpr y.significand_lt
    rwa [cast_two_pow] at hlt
  calc y.value ≤ y.significand * 2 ^ y.exponent := hle
    _ < 2 ^ (53 : Int) * 2 ^ y.exponent := mul_lt_mul_of_pos_right hsignificand (two_zpow_pos _)
    _ = 2 ^ (53 + y.exponent) := (zpow_add₀ two_ne_zero _ _).symm
    _ ≤ 2 ^ (e + 52) := zpow_le_zpow_right₀ one_le_two (by omega)

section Grid

variable {lead e : Int} {s : Nat} {q : ℚ}

/-- The grid is just fine enough for a number that starts at the bit `lead`: 53 bits hold the
    rounded number, and it fills them unless the grid is the finest. -/
theorem significand_bounds (hlow : 2 ^ lead ≤ q) (hhigh : q < 2 ^ (lead + 1))
    (he : max (lead - 52) (-1074) = e) (hs : |(s : ℚ) - q / 2 ^ e| ≤ 1 / 2) :
    s ≤ 2 ^ 53 ∧ (2 ^ 52 ≤ s ∨ e = -1074) := by
  have hpos := two_zpow_pos e
  constructor
  · refine le_of_rounds_below hs ?_
    rw [div_lt_iff₀ hpos, cast_two_pow, ← zpow_add₀ two_ne_zero]
    exact hhigh.trans_le (zpow_le_zpow_right₀ one_le_two (by omega))
  · refine or_iff_not_imp_right.mpr fun hcoarse => le_of_rounds_above hs ?_
    rw [le_div_iff₀ hpos, cast_two_pow, ← zpow_add₀ two_ne_zero]
    exact (zpow_le_zpow_right₀ one_le_two (by omega)).trans hlow

/-- **What is rounded on the grid of its exponent is nearest among all floats**: floats of greater
    exponents lie on that grid, and floats of smaller ones lie below a point of the grid that is not
    above the number. -/
theorem nearest_on_grid (hs : |(s : ℚ) - q / 2 ^ e| ≤ 1 / 2)
    (hfine : e = -1074 ∨ 2 ^ (e + 52) ≤ q) (y : Binary64) : |s * 2 ^ e - q| ≤ |y.value - q| := by
  have hpos := two_zpow_pos e
  have hscale (r : ℚ) : |r * 2 ^ e - q| = |r - q / 2 ^ e| * 2 ^ e := by
    rw [← abs_of_pos hpos, ← abs_mul, abs_of_pos hpos, sub_mul, div_mul_cancel₀ _ hpos.ne']
  have hgrid (k : Int) : |s * 2 ^ e - q| ≤ |k * 2 ^ e - q| := by
    rw [hscale, hscale]
    exact mul_le_mul_of_nonneg_right (abs_sub_le_of_int (r := s) hs k) hpos.le
  by_cases hy : e ≤ y.exponent
  · obtain ⟨k, hk⟩ := exists_mul_eq_value y hy
    rw [hk]
    exact hgrid k
  · have hlow := y.le_exponent
    have hq := hfine.resolve_left (by omega)
    have hsmall := value_lt_of_exponent_lt y (lt_of_not_ge hy)
    have hpoint : (((2 ^ 52 : Nat) : Int) : ℚ) * 2 ^ e = 2 ^ (e + 52) := by
      rw [Int.cast_natCast, cast_two_pow, ← zpow_add₀ two_ne_zero, add_comm]
      rfl
    calc |s * 2 ^ e - q| ≤ |2 ^ (e + 52) - q| := hpoint ▸ hgrid (2 ^ 52 : Nat)
      _ = q - 2 ^ (e + 52) := by rw [abs_sub_comm, abs_of_nonneg (sub_nonneg.mpr hq)]
      _ ≤ q - y.value := by linarith
      _ ≤ |y.value - q| := by rw [abs_sub_comm]; exact le_abs_self _

/-- The parts of a rounded number make a float, with one more bit where they need it. -/
theorem exists_ofParts (negative : Bool) (hs : s ≤ 2 ^ 53) (hlow : -1074 ≤ e) (hhigh : e ≤ 970)
    (hfull : 2 ^ 52 ≤ s ∨ e = -1074) :
    ∃ x, (if s = 2 ^ 53 then ofParts? negative (2 ^ 52) (e + 1) else ofParts? negative s e)
      = some x ∧ x.value = signed negative (s * 2 ^ e) := by
  split
  next hcarry =>
    subst hcarry
    refine ⟨_, dif_pos ⟨by decide, by omega, by omega, .inl le_rfl⟩, ?_⟩
    rw [value_eq_signed]
    dsimp only
    rw [cast_two_pow, cast_two_pow, ← zpow_add₀ two_ne_zero, ← zpow_add₀ two_ne_zero]
    congr 2
    omega
  next hcarry =>
    exact ⟨_, dif_pos ⟨lt_of_le_of_ne hs hcarry, hlow, by omega, hfull⟩, value_eq_signed _⟩

end Grid

/-- **Rounding finds a nearest float** of any number below `2 ^ 1023`, off by at most `2 ^ (-53)` of
    it, unless that is subnormal. -/
theorem round?_spec (negative : Bool) (hden : 0 < den)
    (hsmall : (num : ℚ) / den < 2 ^ (1023 : Int)) :
    ∃ x, round? negative num den = some x ∧ x.Nearest (signed negative (num / den)) ∧
      (num = 0 ∨ (2 : ℚ) ^ (-1022 : Int) ≤ num / den →
        |x.value - signed negative (num / den)| * 2 ^ 53 ≤ num / den) := by
  unfold round?
  by_cases hzero : num = 0
  · have hvalue : ({ zero with negative } : Binary64).value = signed negative 0 := by
      rw [value_eq_signed]
      congr 1
      show ((0 : Nat) : ℚ) * _ = 0
      rw [Nat.cast_zero, zero_mul]
    subst hzero
    rw [Nat.cast_zero, zero_div]
    refine ⟨_, if_pos rfl, hvalue ▸ nearest_value _, fun _ => ?_⟩
    rw [hvalue, sub_self, abs_zero, zero_mul]
  rw [if_neg hzero]
  obtain ⟨hlow, hhigh⟩ := leadingExponent_spec (Nat.pos_of_ne_zero hzero) hden
  dsimp only
  generalize leadingExponent num den = lead at *
  generalize he : max (lead - 52) (-1074) = e
  have hs := abs_roundHalfEven_sub_le (num * 2 ^ (-e).toNat)
    (Nat.mul_pos hden (Nat.two_pow_pos e.toNat))
  rw [scaled_div two_pos] at hs
  generalize roundHalfEven (num * 2 ^ (-e).toNat) (den * 2 ^ e.toNat) = s at *
  generalize (num : ℚ) / den = q at *
  have hlead : lead < 1023 := (zpow_lt_zpow_iff_right₀ one_lt_two).mp (hlow.trans_lt hsmall)
  have hfine : e = -1074 ∨ 2 ^ (e + 52) ≤ q := or_iff_not_imp_left.mpr fun hcoarse =>
    (zpow_le_zpow_right₀ one_le_two (by omega)).trans hlow
  obtain ⟨hfits, hfull⟩ := significand_bounds hlow hhigh he hs
  obtain ⟨x, hx, hvalue⟩ := exists_ofParts negative hfits (by omega) (by omega) hfull
  refine ⟨x, hx, nearest_of_signed hvalue (nearest_on_grid hs hfine), fun hnormal => ?_⟩
  have hnormal : -1022 < lead + 1 :=
    (zpow_lt_zpow_iff_right₀ one_lt_two).mp ((hnormal.resolve_left hzero).trans_lt hhigh)
  have hpower : (2 : ℚ) ^ e * 2 ^ 52 = 2 ^ lead := by
    rw [show (2 : ℚ) ^ 52 = 2 ^ (52 : Int) from (zpow_natCast _ _).symm, ← zpow_add₀ two_ne_zero]
    congr 1
    omega
  rw [hvalue, abs_signed_sub]
  linarith [abs_mul_sub_le (two_zpow_pos e) hs]

/-! ## 4. What is rounded -/

namespace Nearest

variable {x y : Binary64} {t u : ℚ}

/-- A float is nearest only to itself. -/
theorem value_eq (h : x.Nearest y.value) : x.value = y.value := by
  have hzero := h y
  rw [sub_self, abs_zero] at hzero
  exact sub_eq_zero.mp (abs_nonpos_iff.mp hzero)

/-- Of two floats, the greater is as near only beyond the middle between them. -/
theorem add_le_two_mul (hyx : y.value < x.value) (h : |x.value - t| ≤ |y.value - t|) :
    x.value + y.value ≤ 2 * t := by
  by_contra hlt
  have hcloser : |y.value - t| < x.value - t := abs_lt.mpr ⟨by linarith, by linarith⟩
  linarith [le_abs_self (x.value - t)]

theorem two_mul_le_add (hyx : y.value < x.value) (h : |y.value - t| ≤ |x.value - t|) :
    2 * t ≤ x.value + y.value := by
  by_contra hlt
  have hcloser : |x.value - t| < t - y.value := abs_lt.mpr ⟨by linarith, by linarith⟩
  linarith [neg_le_abs (y.value - t)]

/-- **Rounding keeps the order**, though it may merge what is next to each other. -/
theorem value_le (hx : x.Nearest t) (hy : y.Nearest u) (h : t < u) : x.value ≤ y.value := by
  by_contra hlt
  have hyx := lt_of_not_ge hlt
  linarith [add_le_two_mul hyx (hx y), two_mul_le_add hyx (hy x)]

end Nearest

theorem value_eq_signed_magnitude (x : Binary64) :
    x.value = signed x.negative (x.magnitude / unitsPerOne) := by
  have hunits := x.value_mul_unitsPerOne
  rw [eq_div_of_mul_eq Number.unitsPerOne_ne_zero hunits, units, signed]
  split
  · rw [Int.cast_neg, Int.cast_natCast, neg_div]
  · rw [Int.cast_natCast]

theorem magnitude_eq_zero {x : Binary64} (h : x.value = 0) : x.magnitude = 0 := by
  rw [value_eq_signed_magnitude, ← abs_eq_zero, abs_signed, abs_eq_zero] at h
  exact Nat.cast_eq_zero.mp ((div_eq_zero_iff.mp h).resolve_right Number.unitsPerOne_ne_zero)

/-- **Division finds a float nearest to the quotient**, off by at most `2 ^ (-53)` of it, unless
    that is subnormal. -/
theorem div?_spec (x : Binary64) {y : Binary64} (hy : y.value ≠ 0)
    (hsmall : |x.value / y.value| < 2 ^ (1023 : Int)) :
    ∃ q, x.div? y = some q ∧ q.Nearest (x.value / y.value) ∧
      (x.value = 0 ∨ (2 : ℚ) ^ (-1022 : Int) ≤ |x.value / y.value| →
        |q.value - x.value / y.value| * 2 ^ 53 ≤ |x.value / y.value|) := by
  have hquotient : x.value / y.value
      = signed (x.negative != y.negative) (x.magnitude / y.magnitude) := by
    rw [value_eq_signed_magnitude, value_eq_signed_magnitude, signed_div,
      div_div_div_cancel_right₀ Number.unitsPerOne_ne_zero]
  have hmagnitude : 0 < y.magnitude := by
    refine Nat.pos_of_ne_zero fun hzero => hy ?_
    rw [value_eq_signed_magnitude, hzero, Nat.cast_zero, zero_div, signed, neg_zero, ite_self]
  have habs : |x.value / y.value| = x.magnitude / y.magnitude := by
    rw [hquotient, abs_signed, abs_of_nonneg (div_nonneg (Nat.cast_nonneg _) (Nat.cast_nonneg _))]
  rw [habs] at hsmall ⊢
  rw [hquotient]
  obtain ⟨q, hq, hnearest, herror⟩ := round?_spec (x.negative != y.negative) hmagnitude hsmall
  exact ⟨q, hq, hnearest, fun h => herror (h.imp_left magnitude_eq_zero)⟩

end Binary64

namespace Number

/-- **A number is rounded to a nearest float**, off by at most `2 ^ (-53)` of it. -/
theorem toBinary64_spec (a : Number) :
    a.toBinary64.Nearest a.value ∧ |a.toBinary64.value - a.value| * 2 ^ 53 ≤ |a.value| := by
  cases a with
  | float x =>
    refine ⟨x.nearest_value, ?_⟩
    rw [toBinary64, value, sub_self, abs_zero, zero_mul]
    exact abs_nonneg _
  | int n fits =>
    have hsigned : Binary64.signed (n < 0) ((n.natAbs : Nat) / (1 : Nat)) = (n : ℚ) := by
      rw [Nat.cast_one, div_one, Nat.cast_natAbs, Binary64.signed]
      split
      next h => rw [abs_of_neg (of_decide_eq_true h), Int.cast_neg, neg_neg]
      next h => rw [abs_of_nonneg (not_lt.mp fun hlt => h (decide_eq_true hlt))]
    have hsmall : ((n.natAbs : Nat) : ℚ) / (1 : Nat) < 2 ^ (1023 : Int) := by
      have hfits : n.natAbs < 2 ^ 1023 := by
        have hlow := fits.1
        have hhigh := fits.2
        omega
      rw [Nat.cast_one, div_one]
      exact (Nat.cast_lt.mpr hfits).trans_eq (Binary64.cast_two_pow 1023)
    obtain ⟨x, hx, hnearest, herror⟩ := Binary64.round?_spec (n < 0) Nat.one_pos hsmall
    have hround : (int n fits).toBinary64 = x := by
      rw [toBinary64, Binary64.ofInt, hx]
      rfl
    rw [hsigned] at hnearest herror
    rw [hround, value]
    refine ⟨hnearest, ?_⟩
    have hnormal : n.natAbs = 0 ∨ (2 : ℚ) ^ (-1022 : Int) ≤ (n.natAbs : Nat) / (1 : Nat) := by
      refine or_iff_not_imp_left.mpr fun hzero => ?_
      have hone : (2 : ℚ) ^ (-1022 : Int) ≤ 1 := zpow_le_one_of_nonpos₀ one_le_two (by decide)
      rw [Nat.cast_one, div_one]
      exact hone.trans (Nat.one_le_cast.mpr (Nat.pos_of_ne_zero hzero))
    refine (herror hnormal).trans_eq ?_
    rw [Nat.cast_one, div_one, Nat.cast_natAbs, Int.cast_abs]

end Number

end TaggedSchema
