import TaggedSchema.Tag

/-!
# Tags and values

A tag is made from a scalar. This file fixes that it keeps of the scalar exactly its type and its
value (`Tag.eq_iff_sameScalar`): two numbers are one tag when their values are equal, in whatever
representation they come. The value of a number is counted in the least unit of binary64
(`Number.units`), where it is exact.

Equality as `const` and `enum` have it is another one, since there an integer is rounded before it
is compared with a float. Up to `2 ^ 53` rounding an integer changes nothing
(`Binary64.units_ofInt`), and as far as that the two agree (`Json.sameScalar_of_sameValue`); past
`2 ^ 53` it changes nothing where the integer is the value of a float (`Binary64.units_ofInt_of_units`).
-/

namespace TaggedSchema

/-! ## 1. One form for each value -/

namespace Binary64

theorem unitsPerOne_pos : 0 < unitsPerOne := by
  simp only [unitsPerOne, Nat.two_pow_pos]

/-- A float of smaller magnitude has no greater exponent. -/
theorem exponent_le_of_magnitude_le {x y : Binary64} (h : x.magnitude ≤ y.magnitude) :
    x.exponent ≤ y.exponent := by
  refine Int.not_lt.mp fun hlt => ?_
  have hx := x.le_exponent
  have hy := y.le_exponent
  -- Then `x` has its full significand, and is greater than all that `y` can be.
  have hfull : 2 ^ 52 ≤ x.significand := x.full.resolve_right (by omega)
  have hgreater : y.magnitude < x.magnitude :=
    calc y.significand * 2 ^ (y.exponent + 1074).toNat
        < 2 ^ 53 * 2 ^ (y.exponent + 1074).toNat :=
          Nat.mul_lt_mul_of_pos_right y.significand_lt (Nat.pow_pos (by decide))
      _ = 2 ^ 52 * 2 ^ ((y.exponent + 1074).toNat + 1) := by rw [Nat.pow_succ']; omega
      _ ≤ x.significand * 2 ^ (x.exponent + 1074).toNat :=
          Nat.mul_le_mul hfull (Nat.pow_le_pow_right (by decide) (by omega))
  omega

/-- Two floats of one sign and one magnitude are one float. -/
theorem eq_of_magnitude {x y : Binary64} (hsign : x.negative = y.negative)
    (hmagnitude : x.magnitude = y.magnitude) : x = y := by
  have hexponent : x.exponent = y.exponent :=
    Int.le_antisymm (exponent_le_of_magnitude_le (Nat.le_of_eq hmagnitude))
      (exponent_le_of_magnitude_le (Nat.le_of_eq hmagnitude.symm))
  have hsignificand : x.significand = y.significand := by
    unfold magnitude at hmagnitude
    rw [hexponent] at hmagnitude
    exact Nat.eq_of_mul_eq_mul_right (Nat.pow_pos (by decide)) hmagnitude
  cases x
  cases y
  simp only at hsign hexponent hsignificand
  subst hsign hexponent hsignificand
  rfl

/-- **Two floats of one value, other than zero, are one float.** -/
theorem eq_of_units {x y : Binary64} (h : x.units = y.units) (hne : x.units ≠ 0) : x = y := by
  have hsign : x.negative = y.negative := by
    unfold units at h hne
    cases hx : x.negative <;> cases hy : y.negative <;> simp only [hx, hy] at h hne ⊢ <;> grind
  have hmagnitude : x.magnitude = y.magnitude := by
    unfold units at h
    rw [hsign] at h
    cases hy : y.negative <;> simp only [hy] at h <;> grind
  exact eq_of_magnitude hsign hmagnitude

theorem toInt?_eq_some_iff {x : Binary64} {n : Int} :
    x.toInt? = some n ↔ x.units = n * unitsPerOne := by
  have hpos : (unitsPerOne : Int) ≠ 0 := Int.ofNat_ne_zero.mpr (Nat.ne_of_gt unitsPerOne_pos)
  unfold toInt?
  constructor
  · intro h
    split at h
    next hmod =>
      cases h
      exact (Int.ediv_mul_cancel_of_emod_eq_zero hmod).symm
    next => cases h
  · intro h
    rw [h, if_pos (Int.mul_emod_left _ _), Int.mul_ediv_cancel _ hpos]

end Binary64

namespace Number

/-- The value in units of `2 ^ (-1074)`: exact in both representations. -/
def units : Number → Int
  | .int n _ => n * Binary64.unitsPerOne
  | .float x => x.units

theorem toInt?_eq_some_iff {a : Number} {n : Int} :
    a.toInt? = some n ↔ a.units = n * Binary64.unitsPerOne := by
  cases a with
  | int k fits =>
    have hpos : (Binary64.unitsPerOne : Int) ≠ 0 :=
      Int.ofNat_ne_zero.mpr (Nat.ne_of_gt Binary64.unitsPerOne_pos)
    rw [toInt?, units, Option.some.injEq]
    exact ⟨fun h => h ▸ rfl, fun h => Int.eq_of_mul_eq_mul_right hpos h⟩
  | float x => exact Binary64.toInt?_eq_some_iff

/-- A number that is an integer of 64 bits has that integer as its least form. -/
theorem leastForm_of_units {a : Number} {n : Int} (fits : Fits64 n)
    (h : a.units = n * Binary64.unitsPerOne) : a.leastForm = .int n fits := by
  unfold leastForm
  rw [toInt?_eq_some_iff.mpr h, Option.bind_some, ofInt?, dif_pos fits]
  rfl

/-- Any other number is its own least form, and a float. -/
theorem leastForm_of_forall_ne {a : Number}
    (h : ∀ n, Fits64 n → a.units ≠ n * Binary64.unitsPerOne) :
    a.leastForm = a ∧ ∃ x, a = .float x := by
  constructor
  · unfold leastForm
    cases hint : a.toInt? with
    | none => rfl
    | some n =>
      have hfits : ¬ Fits64 n := fun fits => h n fits (toInt?_eq_some_iff.mp hint)
      rw [Option.bind_some, ofInt?, dif_neg hfits]
      rfl
  · cases a with
    | int n fits => exact absurd rfl (h n fits)
    | float x => exact ⟨x, rfl⟩

theorem units_leastForm (a : Number) : a.leastForm.units = a.units := by
  by_cases h : ∃ n, Fits64 n ∧ a.units = n * Binary64.unitsPerOne
  · obtain ⟨n, fits, hn⟩ := h
    rw [leastForm_of_units fits hn, hn]
    rfl
  · rw [(leastForm_of_forall_ne fun n fits hn => h ⟨n, fits, hn⟩).1]

/-- **The least forms of numbers are the values of numbers.** -/
theorem leastForm_eq_iff {a b : Number} : a.leastForm = b.leastForm ↔ a.units = b.units := by
  refine ⟨fun h => by rw [← units_leastForm a, h, units_leastForm], fun h => ?_⟩
  by_cases hint : ∃ n, Fits64 n ∧ a.units = n * Binary64.unitsPerOne
  · obtain ⟨n, fits, hn⟩ := hint
    rw [leastForm_of_units fits hn, leastForm_of_units fits (h ▸ hn)]
  · have hnot : ∀ n, Fits64 n → a.units ≠ n * Binary64.unitsPerOne :=
      fun n fits hn => hint ⟨n, fits, hn⟩
    obtain ⟨hx, x, rfl⟩ := leastForm_of_forall_ne hnot
    obtain ⟨hy, y, rfl⟩ := leastForm_of_forall_ne (h ▸ hnot)
    have hzero : x.units ≠ 0 := fun hz => hnot 0 (by decide) (by rw [Int.zero_mul]; exact hz)
    rw [hx, hy, Binary64.eq_of_units h hzero]

end Number

/-! ## 2. Tags of scalars -/

/-- Two scalars are of one type and one value. -/
def Json.SameScalar : Json → Json → Prop
  | .string a, .string b => a = b
  | .bool a, .bool b => a = b
  | .number a, .number b => a.units = b.units
  | _, _ => False

/-- The value makes a tag. -/
def Json.IsScalar (value : Json) : Prop := ∃ tag, Tag.ofJson? value = some tag

/-- **Two values are one tag when they are scalars of one type and one value.** -/
theorem Tag.eq_iff_sameScalar {a b : Json} {tag : Tag} (h : ofJson? a = some tag) :
    ofJson? b = some tag ↔ a.SameScalar b := by
  cases a <;> cases h <;> cases b <;>
    simp [ofJson?, Json.SameScalar, Number.leastForm_eq_iff, eq_comm]

/-! ## 3. Equality of keywords -/

namespace Binary64

theorem leadingExponent_one {n : Nat} (hne : n ≠ 0) : leadingExponent n 1 = n.log2 := by
  have hlow : 2 ^ n.log2 ≤ n := Nat.log2_self_le hne
  have hone : Nat.log2 1 = 0 := by decide
  unfold leadingExponent
  rw [hone]
  have hguess : ((n.log2 : Int) - (0 : Nat)).toNat = n.log2 := by omega
  have hrest : (-((n.log2 : Int) - (0 : Nat))).toNat = 0 := by omega
  dsimp only
  rw [hguess, hrest, if_pos (by omega)]
  omega

theorem two_pow_units (k : Nat) : 2 ^ (k + 1074) = 2 ^ k * unitsPerOne := by
  rw [unitsPerOne]
  generalize 1074 = places
  exact Nat.pow_add ..

theorem roundHalfEven_mul {num den : Nat} (h : 0 < den) : roundHalfEven (num * den) den = num := by
  unfold roundHalfEven
  rw [Nat.mul_mod_left, if_pos h, Nat.mul_div_cancel _ h]

/-- **A natural number is a float** when what lies past its highest 53 binary digits is zero. -/
theorem round?_of_dvd (negative : Bool) {n : Nat} (hne : n ≠ 0) (hlt : n < 2 ^ 64)
    (hdvd : 2 ^ (n.log2 - 52) ∣ n) :
    ∃ x, round? negative n 1 = some x ∧ x.negative = negative ∧
      x.magnitude = n * unitsPerOne := by
  have hlow : 2 ^ n.log2 ≤ n := Nat.log2_self_le hne
  have hhigh : n < 2 ^ (n.log2 + 1) := Nat.lt_log2_self
  have hk : n.log2 < 64 := (Nat.log2_lt hne).mpr hlt
  have hexponent : max (leadingExponent n 1 - 52) (-1074) = (n.log2 : Int) - 52 := by
    rw [leadingExponent_one hne]
    omega
  unfold round?
  rw [if_neg hne]
  dsimp only
  rw [hexponent]
  generalize n.log2 = k at hlow hhigh hk hdvd
  obtain ⟨q, hq⟩ := hdvd
  have hdown : (-((k : Int) - 52)).toNat = 52 - k := by omega
  have hup : ((k : Int) - 52).toNat = k - 52 := by omega
  -- One of the shifts is by no digits; together they put the highest digit at the place of `2 ^ 52`.
  have hshift : q * 2 ^ (52 - k) * 2 ^ (k - 52) = n * 2 ^ (52 - k) := by
    rw [hq, Nat.mul_right_comm, Nat.mul_comm q]
  have hplaces : 52 + (k - 52) = k + (52 - k) := by omega
  have hleast : 2 ^ 52 ≤ q * 2 ^ (52 - k) := by
    refine Nat.le_of_mul_le_mul_right ?_ (Nat.two_pow_pos (k - 52))
    rw [hshift, ← Nat.pow_add, hplaces, Nat.pow_add]
    exact Nat.mul_le_mul_right _ hlow
  have hmost : q * 2 ^ (52 - k) < 2 ^ 53 := by
    refine Nat.lt_of_mul_lt_mul_right (a := 2 ^ (k - 52)) ?_
    rw [hshift, ← Nat.pow_add, Nat.succ_add 52, hplaces, ← Nat.succ_add, Nat.pow_add]
    exact Nat.mul_lt_mul_of_pos_right hhigh (Nat.two_pow_pos _)
  rw [hdown, hup, Nat.one_mul, ← hshift, roundHalfEven_mul (Nat.two_pow_pos _),
    if_neg (Nat.ne_of_lt hmost)]
  unfold ofParts?
  rw [dif_pos ⟨hmost, by omega, by omega, Or.inl hleast⟩]
  refine ⟨_, rfl, rfl, ?_⟩
  have hunits : 52 - k + ((k : Int) - 52 + 1074).toNat = k - 52 + 1074 := by omega
  calc q * 2 ^ (52 - k) * 2 ^ ((k : Int) - 52 + 1074).toNat
      = q * (2 ^ (k - 52) * unitsPerOne) := by
        rw [Nat.mul_assoc, ← Nat.pow_add, hunits, two_pow_units]
    _ = n * unitsPerOne := by rw [hq, ← Nat.mul_assoc, Nat.mul_comm q]

/-- So is an integer. -/
theorem units_ofInt_of_dvd {n : Int} (hlt : n.natAbs < 2 ^ 64)
    (hdvd : 2 ^ (n.natAbs.log2 - 52) ∣ n.natAbs) : (ofInt n).units = n * unitsPerOne := by
  have hround : ∃ x, round? (n < 0) n.natAbs 1 = some x ∧ x.negative = decide (n < 0) ∧
      x.magnitude = n.natAbs * unitsPerOne := by
    by_cases hzero : n.natAbs = 0
    · refine ⟨{ zero with negative := n < 0 }, if_pos hzero, rfl, ?_⟩
      rw [hzero, Nat.zero_mul, magnitude]
      exact Nat.zero_mul _
    · exact round?_of_dvd _ hzero hlt hdvd
  obtain ⟨x, hx, hsign, hmagnitude⟩ := hround
  unfold ofInt units
  rw [hx, Option.getD_some, hsign, hmagnitude, Int.natCast_mul]
  by_cases hneg : n < 0
  · rw [decide_eq_true hneg, if_pos rfl, ← Int.neg_mul]
    congr 1
    omega
  · rw [decide_eq_false hneg, if_neg (by decide)]
    congr 1
    omega

/-- **Up to `2 ^ 53` an integer is a float of its value.** -/
theorem units_ofInt {n : Int} (h : n.natAbs ≤ 2 ^ 53) : (ofInt n).units = n * unitsPerOne := by
  refine units_ofInt_of_dvd (Nat.lt_of_le_of_lt h (by decide)) ?_
  rcases Nat.lt_or_eq_of_le h with hlt | heq
  · by_cases hzero : n.natAbs = 0
    · rw [hzero]
      exact Nat.dvd_zero _
    · have hk : n.natAbs.log2 - 52 = 0 := by
        have := (Nat.log2_lt hzero).mpr hlt
        omega
      rw [hk]
      exact Nat.one_dvd _
  · rw [heq, Nat.log2_two_pow]
    decide

/-- **An integer of 64 bits that is the value of a float** is rounded to a float of that value. -/
theorem units_ofInt_of_units {n : Int} (fits : Fits64 n) {x : Binary64}
    (h : x.units = n * unitsPerOne) : (ofInt n).units = n * unitsPerOne := by
  have hbound : n.natAbs < 2 ^ 64 := by
    obtain ⟨hleast, hmost⟩ := fits
    omega
  refine units_ofInt_of_dvd hbound ?_
  by_cases hzero : n.natAbs = 0
  · rw [hzero]
    exact Nat.dvd_zero _
  have hlow : 2 ^ n.natAbs.log2 ≤ n.natAbs := Nat.log2_self_le hzero
  have hmagnitude : x.significand * 2 ^ (x.exponent + 1074).toNat = n.natAbs * unitsPerOne := by
    have habs : x.units.natAbs = x.magnitude := by
      unfold units
      split <;> omega
    rw [h, Int.natAbs_mul, Int.natAbs_natCast] at habs
    exact habs.symm
  generalize n.natAbs = m at *
  generalize (x.exponent + 1074).toNat = e at hmagnitude
  -- The significand has no more than 53 digits, so the power of two makes up for the rest.
  have hrest : m.log2 - 52 = 0 ∨ m.log2 - 52 + 1074 ≤ e := by
    refine Decidable.byContradiction fun hnot => ?_
    have hless : x.significand * 2 ^ e < m * unitsPerOne :=
      calc x.significand * 2 ^ e < 2 ^ 53 * 2 ^ e :=
            Nat.mul_lt_mul_of_pos_right x.significand_lt (Nat.two_pow_pos _)
        _ = 2 ^ (53 + e) := (Nat.pow_add ..).symm
        _ ≤ 2 ^ (m.log2 + 1074) := Nat.pow_le_pow_right (by decide) (by omega)
        _ = 2 ^ m.log2 * unitsPerOne := two_pow_units _
        _ ≤ m * unitsPerOne := Nat.mul_le_mul_right _ hlow
    exact Nat.ne_of_lt hless hmagnitude
  rcases hrest with hfew | hmore
  · rw [hfew]
    exact Nat.one_dvd _
  · refine Nat.dvd_of_mul_dvd_mul_right unitsPerOne_pos ?_
    rw [← hmagnitude, ← two_pow_units]
    exact Nat.dvd_mul_left_of_dvd (Nat.pow_dvd_pow 2 hmore) _

end Binary64

/-- The number is a float or an integer that is a float. -/
def Number.Exact : Number → Prop
  | .int n _ => n.natAbs ≤ 2 ^ 53
  | .float _ => True

instance : DecidablePred Number.Exact
  | .int n _ => inferInstanceAs (Decidable (n.natAbs ≤ 2 ^ 53))
  | .float _ => .isTrue trivial

theorem Number.units_toBinary64 {a : Number} (h : a.Exact) : a.toBinary64.units = a.units := by
  cases a with
  | int n fits => exact Binary64.units_ofInt h
  | float x => rfl

/-- Of numbers that are floats, keywords compare the values. -/
theorem Number.units_of_sameValue {a b : Number} (ha : a.Exact) (hb : b.Exact)
    (h : a.sameValue b = true) : a.units = b.units := by
  rw [← units_toBinary64 ha, ← units_toBinary64 hb]
  cases a with
  | int n fits =>
    cases b with
    | int k fits' =>
      have hnk : n = k := eq_of_beq h
      subst hnk
      rfl
    | float y => exact eq_of_beq h
  | float x => cases b <;> exact eq_of_beq h

/-- **As far as that, what equals a scalar for keywords is the same tag.** -/
theorem Json.sameScalar_of_sameValue {a b : Json} (ha : ∀ x, a = .number x → x.Exact)
    (hb : ∀ x, b = .number x → x.Exact) (hscalar : b.IsScalar) (h : a.sameValue b = true) :
    b.SameScalar a := by
  obtain ⟨tag, htag⟩ := hscalar
  cases b with
  | string s =>
    cases a with
    | string s' => exact (eq_of_beq h).symm
    | _ => cases h
  | number y =>
    cases a with
    | number x => exact (Number.units_of_sameValue (ha x rfl) (hb y rfl) h).symm
    | _ => cases h
  | bool b =>
    cases a with
    | bool b' => exact (eq_of_beq h).symm
    | _ => cases h
  | _ => cases htag

end TaggedSchema
