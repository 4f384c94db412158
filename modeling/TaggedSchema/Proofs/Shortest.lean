import TaggedSchema.Proofs.Rounding

/-!
# Shortest decimals

`Decimal.shortest` looks for the decimal of a float on coarse grids first and on finer ones then,
and takes what lies in the float's rounding interval. The decimal it takes does lie there
(`Decimal.shortest_spec`): on the grid of 17 digits the nearest point always does, since half a step
of that grid is less than the 54th binary digit of the float. The intervals of two floats of
different magnitudes have no number in common (`Decimal.magnitude_eq_of_holds`), so the shortest
decimal tells the magnitude.
-/

namespace TaggedSchema.Decimal

open Binary64 (unitsPerOne roundHalfEven magnitude exponent_le_of_magnitude_le)

/-- The number that a decimal is. -/
def value (d : Decimal) : ℚ := d.digits * 10 ^ d.exponent

/-- The number that a decimal is, in quarters of the unit `2 ^ (-1074)`. -/
def quarters (d : Decimal) : ℚ := d.value * (4 * unitsPerOne : Nat)

theorem four_units_pos : 0 < 4 * unitsPerOne := Nat.mul_pos (by decide) Binary64.unitsPerOne_pos

/-! ## 1. Rounding intervals -/

namespace Interval

variable {i : Interval} {q : ℚ}

/-- A number, in quarter units, lies in the interval. -/
def Holds (i : Interval) (q : ℚ) : Prop :=
  if i.closed then (i.low : ℚ) ≤ q ∧ q ≤ i.high else (i.low : ℚ) < q ∧ q < i.high

theorem Holds.bounds (h : i.Holds q) : (i.low : ℚ) ≤ q ∧ q ≤ i.high := by
  unfold Holds at h
  split at h
  · exact h
  · exact ⟨h.1.le, h.2.le⟩

theorem Holds.of_open (h : i.Holds q) (hopen : i.closed = false) :
    (i.low : ℚ) < q ∧ q < i.high := by
  unfold Holds at h
  rwa [hopen, if_neg Bool.false_ne_true] at h

theorem holds_of_lt (hlow : (i.low : ℚ) < q) (hhigh : q < i.high) : i.Holds q := by
  unfold Holds
  split
  · exact ⟨hlow.le, hhigh.le⟩
  · exact ⟨hlow, hhigh⟩

theorem contains_iff {n : Nat} {e : Int} : i.contains n e = true ↔ i.Holds (quarters ⟨n, e⟩) := by
  have hscale : (0 : ℚ) < (10 ^ (-e).toNat : Nat) := Nat.cast_pos.mpr (Nat.pow_pos (by decide))
  have hvalue : ((n * 10 ^ e.toNat * (4 * unitsPerOne) : Nat) : ℚ)
      = quarters ⟨n, e⟩ * (10 ^ (-e).toNat : Nat) := by
    have hquotient := Binary64.scaled_div (b := 10) (by decide) n 1 (-e)
    rw [neg_neg, Nat.one_mul, div_eq_iff hscale.ne', Nat.cast_one, div_one, zpow_neg,
      div_inv_eq_mul] at hquotient
    rw [Nat.cast_mul, hquotient, mul_right_comm]
    rfl
  have hle (m : Nat) : m * 10 ^ (-e).toNat ≤ n * 10 ^ e.toNat * (4 * unitsPerOne)
      ↔ (m : ℚ) ≤ quarters ⟨n, e⟩ := by
    rw [← Nat.cast_le (α := ℚ), hvalue, Nat.cast_mul]
    exact mul_le_mul_iff_left₀ hscale
  have hge (m : Nat) : n * 10 ^ e.toNat * (4 * unitsPerOne) ≤ m * 10 ^ (-e).toNat
      ↔ quarters ⟨n, e⟩ ≤ (m : ℚ) := by
    rw [← Nat.cast_le (α := ℚ), hvalue, Nat.cast_mul]
    exact mul_le_mul_iff_left₀ hscale
  unfold contains Holds
  split
  · simp only [Bool.and_eq_true, decide_eq_true_iff, hle, hge]
  · simp only [Bool.and_eq_true, decide_eq_true_iff, ← not_le, hle, hge]

end Interval

section Interval

variable {x y : Binary64} {q : ℚ}

/-- The interval reaches on both sides as far as the 54th binary digit. -/
theorem holds_of_near (hne : x.significand ≠ 0)
    (h : |q - (interval x).centre| * 2 ^ 54 < (interval x).centre) : (interval x).Holds q := by
  have hsignificand := x.significand_lt
  have hwidth : ∃ below above, (interval x).low + below = (interval x).centre ∧
      (interval x).high = (interval x).centre + above ∧
      (interval x).centre ≤ below * 2 ^ 54 ∧ (interval x).centre ≤ above * 2 ^ 54 := by
    unfold interval magnitude
    dsimp only
    generalize 2 ^ (x.exponent + 1074).toNat = ulp
    have hleast : ulp ≤ x.significand * ulp := Nat.le_mul_of_pos_left _ (Nat.pos_of_ne_zero hne)
    have hmost : x.significand * ulp ≤ 2 ^ 53 * ulp := Nat.mul_le_mul_right _ hsignificand.le
    refine ⟨_, _, Nat.sub_add_cancel ?_, rfl, ?_, by omega⟩
    · split <;> omega
    · split
      next hpower => rw [hpower.1]; omega
      next => omega
  obtain ⟨below, above, hlow, hhigh, hbelow, habove⟩ := hwidth
  have hlow : ((interval x).low : ℚ) + below = (interval x).centre := by exact_mod_cast hlow
  have hhigh : ((interval x).high : ℚ) = (interval x).centre + above := by exact_mod_cast hhigh
  have hbelow : ((interval x).centre : ℚ) ≤ below * 2 ^ 54 := by exact_mod_cast hbelow
  have habove : ((interval x).centre : ℚ) ≤ above * 2 ^ 54 := by exact_mod_cast habove
  have hdown := neg_abs_le (q - (interval x).centre)
  have hup := le_abs_self (q - (interval x).centre)
  exact Interval.holds_of_lt (by linarith) (by linarith)

/-- **The interval of a smaller float lies below**, and of two that touch, one is open. -/
theorem high_le_low (h : x.magnitude < y.magnitude) :
    (interval x).high ≤ (interval y).low ∧
      ((interval x).high = (interval y).low →
        (interval x).closed = false ∨ (interval y).closed = false) := by
  have hexponent := exponent_le_of_magnitude_le (Nat.le_of_lt h)
  have hx := x.significand_lt
  have hlow := x.le_exponent
  unfold interval
  unfold magnitude at h ⊢
  dsimp only
  rw [decide_eq_false_iff_not, decide_eq_false_iff_not]
  rcases Int.lt_or_eq_of_le hexponent with hlt | heq
  · -- The step of `y` is twice that of `x` at least, and its significand is full.
    have hfull : 2 ^ 52 ≤ y.significand := y.full.resolve_right (by omega)
    have hstep : ∃ w, 2 ^ (x.exponent + 1074).toNat ≤ w ∧
        2 ^ (y.exponent + 1074).toNat = 2 * w := by
      refine ⟨2 ^ ((y.exponent + 1074).toNat - 1),
        Nat.pow_le_pow_right (by decide) (by omega), ?_⟩
      rw [← Nat.pow_succ']
      congr 1
      omega
    have hpos := Nat.two_pow_pos (x.exponent + 1074).toNat
    obtain ⟨w, hw, hy⟩ := hstep
    rw [hy, Nat.mul_left_comm y.significand]
    generalize 2 ^ (x.exponent + 1074).toNat = u at *
    have hmost : x.significand * u ≤ (2 ^ 53 - 1) * u := Nat.mul_le_mul_right _ (by omega)
    by_cases hpower : y.significand = 2 ^ 52
    · rw [if_pos ⟨hpower, by omega⟩, hpower]
      refine ⟨by omega, fun htouch => .inl ?_⟩
      have hall : (2 ^ 53 - 1) * u ≤ x.significand * u := by omega
      have := Nat.le_of_mul_le_mul_right hall hpos
      omega
    · rw [if_neg fun hnot => hpower hnot.1]
      have hleast : (2 ^ 52 + 1) * w ≤ y.significand * w := Nat.mul_le_mul_right _ (by omega)
      exact ⟨by omega, fun htouch => by omega⟩
  · -- Both lie on one grid; below a power of two there would be no full significand.
    have hpower : ¬ (y.significand = 2 ^ 52 ∧ -1074 < y.exponent) := by
      rintro ⟨hy, hcoarse⟩
      have hfull := x.full
      rw [heq, hy] at h
      have := Nat.lt_of_mul_lt_mul_right h
      omega
    rw [if_neg hpower]
    rw [heq] at h ⊢
    have hpos := Nat.two_pow_pos (y.exponent + 1074).toNat
    generalize 2 ^ (y.exponent + 1074).toNat = u at *
    obtain ⟨r, hr⟩ := Nat.exists_eq_add_of_lt (Nat.lt_of_mul_lt_mul_right h)
    have hapart : y.significand * u = x.significand * u + r * u + u := by
      rw [hr, Nat.succ_mul, Nat.add_mul]
    refine ⟨by omega, fun htouch => ?_⟩
    have hzero : r * u = 0 := by omega
    have := (Nat.mul_eq_zero.mp hzero).resolve_right hpos.ne'
    omega

theorem not_holds_of_lt (h : x.magnitude < y.magnitude) (hx : (interval x).Holds q) :
    ¬ (interval y).Holds q := by
  intro hy
  obtain ⟨hle, hopen⟩ := high_le_low h
  have hcast : ((interval x).high : ℚ) ≤ (interval y).low := Nat.cast_le.mpr hle
  have htouch : ((interval x).high : ℚ) = (interval y).low :=
    hcast.antisymm (hy.bounds.1.trans hx.bounds.2)
  rcases hopen (Nat.cast_injective htouch) with hx' | hy'
  · exact absurd (hx.of_open hx').2 (not_lt.mpr (hcast.trans hy.bounds.1))
  · exact absurd (hy.of_open hy').1 (not_lt.mpr (hx.bounds.2.trans hcast))

/-- **Rounding intervals are disjoint.** -/
theorem magnitude_eq_of_holds (hx : (interval x).Holds q) (hy : (interval y).Holds q) :
    x.magnitude = y.magnitude := by
  rcases lt_trichotomy x.magnitude y.magnitude with hlt | heq | hgt
  · exact absurd hy (not_holds_of_lt hlt hx)
  · exact heq
  · exact absurd hx (not_holds_of_lt hgt hy)

end Interval

/-! ## 2. Grids -/

section Grid

variable {i : Interval} {d : Decimal} {e : Int}

/-- The decimal reads back: it is positive, and lies in the interval. -/
structure Within (i : Interval) (d : Decimal) : Prop where
  ne_zero : d.digits ≠ 0
  holds : i.Holds d.quarters

theorem roundHalfEven_eq (num den : Nat) :
    (if 2 * (num % den) < den ∨ 2 * (num % den) = den ∧ num / den % 2 = 0 then num / den
      else num / den + 1) = roundHalfEven num den := by
  unfold roundHalfEven
  dsimp only
  generalize num / den = quotient
  generalize 2 * (num % den) = rest
  split <;> split <;> try split
  all_goals omega

/-- The point of the grid that is nearest to the number. -/
def nearestPoint (i : Interval) (e : Int) : Nat :=
  roundHalfEven (i.centre * 10 ^ (-e).toNat) (4 * unitsPerOne * 10 ^ e.toNat)

/-- On a grid, the nearest point is tried, and then one more. -/
theorem onGrid?_eq (i : Interval) (e : Int) : ∃ other, onGrid? i e =
    if nearestPoint i e ≠ 0 && i.contains (nearestPoint i e) e then some ⟨nearestPoint i e, e⟩
    else if other ≠ 0 && i.contains other e then some ⟨other, e⟩
    else none := by
  let below := i.centre * 10 ^ (-e).toNat / (4 * unitsPerOne * 10 ^ e.toNat)
  refine ⟨if nearestPoint i e = below then below + 1 else below, ?_⟩
  unfold onGrid? nearestPoint
  dsimp only
  rw [roundHalfEven_eq]

theorem within_iff {n : Nat} : (decide (n ≠ 0) && i.contains n e) = true ↔ Within i ⟨n, e⟩ := by
  rw [Bool.and_eq_true, decide_eq_true_iff, Interval.contains_iff]
  exact ⟨fun h => ⟨h.1, h.2⟩, fun h => ⟨h.1, h.2⟩⟩

theorem within_of_onGrid? (h : onGrid? i e = some d) : Within i d := by
  obtain ⟨other, heq⟩ := onGrid?_eq i e
  rw [heq] at h
  split at h
  next hnearest => exact Option.some.inj h ▸ within_iff.mp hnearest
  next =>
    split at h
    next hother => exact Option.some.inj h ▸ within_iff.mp hother
    next => exact absurd h (Option.some_ne_none d).symm

theorem isSome_onGrid? (h : Within i ⟨nearestPoint i e, e⟩) : (onGrid? i e).isSome = true := by
  obtain ⟨other, heq⟩ := onGrid?_eq i e
  rw [heq, if_pos (within_iff.mpr h)]
  rfl

section Search

-- A grid is a computation with numbers of a thousand binary digits; the search does not look
-- inside.
attribute [local irreducible] onGrid?

theorem firstGrid_zero (i : Interval) (e : Int) : firstGrid i 0 e = (onGrid? i e).getD ⟨0, 0⟩ := rfl

theorem firstGrid_succ (i : Interval) (n : Nat) (e : Int) :
    firstGrid i (n + 1) e = match onGrid? i e with
      | some d => d
      | none => firstGrid i n (e - 1) := rfl

/-- Where the search reaches a grid with a decimal that reads back, it finds one. -/
theorem within_firstGrid {n : Nat} (h : (onGrid? i (e - n)).isSome = true) :
    Within i (firstGrid i n e) := by
  induction n generalizing e with
  | zero =>
    obtain ⟨d, hd⟩ := Option.isSome_iff_exists.mp h
    rw [Nat.cast_zero, sub_zero] at hd
    rw [firstGrid_zero, hd]
    exact within_of_onGrid? hd
  | succ n ih =>
    rw [firstGrid_succ]
    cases hgrid : onGrid? i e with
    | some d => exact within_of_onGrid? hgrid
    | none =>
      refine ih ?_
      rwa [sub_sub, add_comm 1, ← Nat.cast_add_one]

end Search

end Grid

/-- The number of decimal digits says between which powers of ten a number lies. -/
theorem exists_digitCount {n : Nat} (hn : 0 < n) :
    ∃ k, digitCount n = k + 1 ∧ 10 ^ k ≤ n ∧ n < 10 ^ (k + 1) := by
  have hlength {k : Nat} (hk : 0 < k) : digitCount n ≤ k ↔ n < 10 ^ k :=
    Nat.length_toDigits_le_iff (by decide) hk
  have hpos : 0 < digitCount n := Nat.length_toDigits_pos
  refine ⟨digitCount n - 1, by omega, ?_, (hlength (Nat.succ_pos _)).mp (by omega)⟩
  rcases Nat.eq_zero_or_pos (digitCount n - 1) with hone | hmore
  · rw [hone]
    exact hn
  · refine Nat.not_lt.mp fun hlt => ?_
    have := (hlength hmore).mpr hlt
    omega

/-- The leading exponent is one of a power of ten below the number. -/
theorem leadingExponent_le {num den : Nat} (hnum : 0 < num) (hden : 0 < den) :
    (10 : ℚ) ^ leadingExponent num den ≤ num / den := by
  obtain ⟨k, hk, hnum⟩ := exists_digitCount hnum
  obtain ⟨l, hl, hden⟩ := exists_digitCount hden
  have hguess : (k : Int) - l = (digitCount num : Int) - (digitCount den : Int) := by omega
  exact (Binary64.leading_spec (b := 10) (by decide) hnum hden hguess rfl).1

/-- The nearest point of a grid is off by half a step at most. -/
theorem abs_nearestPoint_sub_le (i : Interval) (e : Int) :
    |quarters ⟨nearestPoint i e, e⟩ - i.centre| ≤ 1 / 2 * (10 ^ e * (4 * unitsPerOne : Nat)) := by
  have hunit : (0 : ℚ) < (4 * unitsPerOne : Nat) := Nat.cast_pos.mpr four_units_pos
  have hstep : (0 : ℚ) < 10 ^ e := zpow_pos (by norm_num) e
  have hround := Binary64.abs_roundHalfEven_sub_le (i.centre * 10 ^ (-e).toNat)
    (Nat.mul_pos four_units_pos (Nat.pow_pos (n := e.toNat) (show 0 < 10 by decide)))
  rw [Binary64.scaled_div (by decide)] at hround
  have hnear := Binary64.abs_mul_sub_le hstep hround
  have hscale : quarters ⟨nearestPoint i e, e⟩ - i.centre
      = (nearestPoint i e * 10 ^ e - i.centre / (4 * unitsPerOne : Nat))
        * (4 * unitsPerOne : Nat) := by
    rw [sub_mul, div_mul_cancel₀ _ hunit.ne', quarters, value]
  rw [hscale, abs_mul, abs_of_pos hunit, ← mul_assoc]
  exact mul_le_mul_of_nonneg_right hnear hunit.le

/-- **The shortest decimal reads back.** -/
theorem shortest_spec {x : Binary64} (hne : x.significand ≠ 0) :
    Within (interval x) (shortest x) := by
  refine within_firstGrid (isSome_onGrid? ?_)
  have hunit : (0 : ℚ) < (4 * unitsPerOne : Nat) := Nat.cast_pos.mpr four_units_pos
  have hcentre : 0 < (interval x).centre :=
    Nat.mul_pos (by decide) (Nat.mul_pos (Nat.pos_of_ne_zero hne) (Nat.two_pow_pos _))
  have hleading := leadingExponent_le hcentre four_units_pos
  generalize leadingExponent (interval x).centre (4 * unitsPerOne) = lead at *
  have hgrid : lead + 1 - (17 : Nat) = lead - 16 := by omega
  rw [hgrid]
  have hnear := abs_nearestPoint_sub_le (interval x) (lead - 16)
  generalize nearestPoint (interval x) (lead - 16) = n at *
  -- A step of the grid of 17 digits is less than the 53rd binary digit of the number.
  have hstep :
      10 ^ (lead - 16) * ((4 * unitsPerOne : Nat) : ℚ) * 10 ^ 16 ≤ (interval x).centre := by
    have hpower : (10 : ℚ) ^ (lead - 16) * 10 ^ 16 = 10 ^ lead := by
      rw [← zpow_ofNat, ← zpow_add₀ (by norm_num), sub_add_cancel]
    rw [mul_right_comm, hpower]
    exact (le_div_iff₀ hunit).mp hleading
  have hpos : (0 : ℚ) < 10 ^ (lead - 16) * (4 * unitsPerOne : Nat) :=
    mul_pos (zpow_pos (by norm_num) _) hunit
  generalize (10 : ℚ) ^ (lead - 16) * (4 * unitsPerOne : Nat) = step at *
  have hclose : |quarters ⟨n, lead - 16⟩ - (interval x).centre| * 2 ^ 54 < (interval x).centre := by
    linarith
  refine ⟨?_, holds_of_near hne hclose⟩
  rintro (rfl : n = 0)
  have hzero : quarters ⟨0, lead - 16⟩ = 0 := by
    rw [quarters, value, Nat.cast_zero, zero_mul, zero_mul]
  rw [hzero, zero_sub, abs_neg, abs_of_nonneg (Nat.cast_nonneg _)] at hclose
  have hcentre : (0 : ℚ) < (interval x).centre := Nat.cast_pos.mpr hcentre
  linarith

end TaggedSchema.Decimal
