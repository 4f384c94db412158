import TaggedSchema.Proofs.Shortest

/-!
# The text of numbers

A number is written with a sign, digits, a point or none, and a power of ten or none. Such a text
has one reading (`Written.eq_of_chars`), and the number it spells is the decimal that was laid out
(`Decimal.value_written`, `Decimal.toList_text`), whichever of the four layouts it got. The text of
an integer has neither a point nor a power of ten, and the text of a float has one of them; so no
two numbers have one text (`Number.text_injective`), the two zeros of binary64 included.
-/

namespace TaggedSchema

/-! ## 1. How numbers are written -/

/-- The parts of a number as it is written: digits, perhaps a point and more digits, perhaps a power
    of ten with its sign. -/
structure Written where
  whole : List Char
  fraction : Option (List Char)
  power : Option (List Char)

namespace Written

/-- There are digits in front, and nothing but digits behind the point. -/
structure Proper (w : Written) : Prop where
  ne_nil : w.whole ≠ []
  whole : ∀ c ∈ w.whole, c.isDigit = true
  fraction : ∀ c ∈ w.fraction.getD [], c.isDigit = true

/-- The parts in one text. -/
def chars (w : Written) : List Char :=
  w.whole ++ (w.fraction.elim [] ('.' :: ·) ++ w.power.elim [] ('e' :: ·))

/-- The number that a power of ten with its sign spells. -/
def exponentOf : List Char → Int
  | '-' :: digits => -(Nat.ofDigitChars 10 digits 0 : Nat)
  | '+' :: digits => (Nat.ofDigitChars 10 digits 0 : Nat)
  | digits => (Nat.ofDigitChars 10 digits 0 : Nat)

/-- The number that is written. -/
def value (w : Written) : ℚ :=
  Nat.ofDigitChars 10 (w.whole ++ w.fraction.getD []) 0
    * 10 ^ ((w.power.elim 0 exponentOf) - ((w.fraction.getD []).length : Int))

/-- Digits end where something else begins. -/
theorem digits_append_inj {digits digits' rest rest' : List Char}
    (h : ∀ c ∈ digits, c.isDigit = true) (h' : ∀ c ∈ digits', c.isDigit = true)
    (hrest : ∀ c ∈ rest.head?, c.isDigit = false) (hrest' : ∀ c ∈ rest'.head?, c.isDigit = false)
    (heq : digits ++ rest = digits' ++ rest') : digits = digits' ∧ rest = rest' := by
  have htake {ds r : List Char} (h : ∀ c ∈ ds, c.isDigit = true)
      (hr : ∀ c ∈ r.head?, c.isDigit = false) : (ds ++ r).takeWhile Char.isDigit = ds := by
    rw [List.takeWhile_append_of_pos h]
    cases r with
    | nil => exact List.append_nil _
    | cons c r =>
      rw [List.takeWhile_cons_of_neg (by rw [hr c rfl]; exact Bool.false_ne_true),
        List.append_nil]
  have hdigits : digits = digits' := by rw [← htake h hrest, heq, htake h' hrest']
  subst hdigits
  exact ⟨rfl, List.append_cancel_left heq⟩

theorem head?_power (power : Option (List Char)) :
    ∀ c ∈ (power.elim [] ('e' :: ·)).head?, c.isDigit = false := by
  rintro c hc
  cases power <;> cases hc
  rfl

/-- **A text has one reading**: the parts of a number can be told from its text. -/
theorem eq_of_chars {w w' : Written} (h : w.Proper) (h' : w'.Proper) (heq : w.chars = w'.chars) :
    w = w' := by
  obtain ⟨whole, fraction, power⟩ := w
  obtain ⟨whole', fraction', power'⟩ := w'
  have hpower {p p' : Option (List Char)}
      (hp : (p.elim [] ('e' :: ·) : List Char) = p'.elim [] ('e' :: ·)) : p = p' := by
    cases p <;> cases p' <;> cases hp <;> rfl
  have hhead (f p : Option (List Char)) :
      ∀ c ∈ (f.elim [] ('.' :: ·) ++ p.elim [] ('e' :: ·)).head?, c.isDigit = false := by
    cases f with
    | none => exact head?_power p
    | some digits => rintro c ⟨⟩; rfl
  obtain ⟨hwhole, hrest⟩ := digits_append_inj h.whole h'.whole (hhead _ _) (hhead _ _) heq
  dsimp only at hwhole hrest
  subst hwhole
  cases fraction with
  | none =>
    cases fraction' with
    | none => rw [hpower hrest]
    | some digits' => cases power <;> cases hrest
  | some digits =>
    cases fraction' with
    | none => cases power' <;> cases hrest
    | some digits' =>
      have hfraction : ∀ c ∈ digits, c.isDigit = true := h.fraction
      have hfraction' : ∀ c ∈ digits', c.isDigit = true := h'.fraction
      obtain ⟨hdigits, hrest⟩ := digits_append_inj hfraction hfraction' (head?_power _)
        (head?_power _) (List.cons.inj hrest).2
      rw [hdigits, hpower hrest]

/-- What is written, with its sign in front. -/
def signedChars (w : Written) (negative : Bool) : List Char :=
  if negative then '-' :: w.chars else w.chars

theorem toList_signed {w : Written} {magnitude : String} (h : magnitude.toList = w.chars)
    (negative : Prop) [Decidable negative] :
    (if negative then "-" ++ magnitude else magnitude).toList = w.signedChars negative := by
  by_cases hneg : negative
  · rw [if_pos hneg, signedChars, if_pos (decide_eq_true hneg), String.toList_append, h]
    rfl
  · rw [if_neg hneg, signedChars, if_neg (mt of_decide_eq_true hneg), h]

theorem exists_head {w : Written} (h : w.Proper) :
    ∃ c rest, w.chars = c :: rest ∧ c.isDigit = true := by
  obtain ⟨c, rest, hwhole⟩ := List.exists_cons_of_ne_nil h.ne_nil
  exact ⟨c, _, by rw [chars, hwhole]; rfl, h.whole c (hwhole ▸ List.mem_cons_self)⟩

theorem eq_of_signedChars {w w' : Written} {negative negative' : Bool} (h : w.Proper)
    (h' : w'.Proper) (heq : w.signedChars negative = w'.signedChars negative') :
    negative = negative' ∧ w = w' := by
  obtain ⟨c, rest, hchars, hc⟩ := exists_head h
  obtain ⟨c', rest', hchars', hc'⟩ := exists_head h'
  cases negative <;> cases negative'
  · exact ⟨rfl, eq_of_chars h h' heq⟩
  · rw [signedChars, signedChars, if_neg Bool.false_ne_true, if_pos rfl, hchars] at heq
    rw [(List.cons.inj heq).1] at hc
    cases hc
  · rw [signedChars, signedChars, if_neg Bool.false_ne_true, if_pos rfl, hchars'] at heq
    rw [← (List.cons.inj heq).1] at hc'
    cases hc'
  · exact ⟨rfl, eq_of_chars h h' (List.cons.inj heq).2⟩

end Written

/-! ## 2. The text of a decimal -/

namespace Decimal

theorem isDigit_zeros {n : Nat} : ∀ c ∈ List.replicate n '0', c.isDigit = true := by
  intro c hc
  rw [List.eq_of_mem_replicate hc]
  rfl

/-- The sign and the digits of a power of ten. -/
def signed (n : Int) : List Char := (if n < 0 then "-" else "+").toList ++ Nat.toDigits 10 n.natAbs

theorem exponentOf_signed (n : Int) : Written.exponentOf (signed n) = n := by
  have hdigits : Nat.ofDigitChars 10 (Nat.toDigits 10 n.natAbs) 0 = n.natAbs :=
    Nat.ofDigitChars_ten_toDigits
  unfold signed
  split
  next hneg =>
    show -((Nat.ofDigitChars 10 (Nat.toDigits 10 n.natAbs) 0 : Nat) : Int) = n
    rw [hdigits]
    omega
  next hpos =>
    show ((Nat.ofDigitChars 10 (Nat.toDigits 10 n.natAbs) 0 : Nat) : Int) = n
    rw [hdigits]
    omega

/-- The digits of a decimal before and behind the point, by the layout of its text; `leading` is the
    power of ten of the first digit. -/
def parts (digits : List Char) (leading exponent : Int) : Written :=
  if Layout.json.leastPositional ≤ leading ∧ leading ≤ Layout.json.greatestPositional then
    if 0 ≤ exponent then ⟨digits ++ List.replicate exponent.toNat '0', some ['0'], none⟩
    else if 0 ≤ leading then
      ⟨digits.take (leading.toNat + 1), some (digits.drop (leading.toNat + 1)), none⟩
    else ⟨['0'], some (List.replicate (-leading - 1).toNat '0' ++ digits), none⟩
  else
    match digits with
    | [] => ⟨[], none, some (signed leading)⟩
    | [c] => ⟨[c], none, some (signed leading)⟩
    | c :: rest => ⟨[c], some rest, some (signed leading)⟩

section Parts

variable {digits : List Char} {leading exponent : Int}

theorem proper_parts (hne : digits ≠ []) (hdigits : ∀ c ∈ digits, c.isDigit = true) :
    (parts digits leading exponent).Proper := by
  obtain ⟨c, rest, rfl⟩ := List.exists_cons_of_ne_nil hne
  obtain ⟨hc, hrest⟩ := List.forall_mem_cons.mp hdigits
  unfold parts
  split
  · split
    · exact ⟨List.append_ne_nil_of_left_ne_nil hne _,
        List.forall_mem_append.mpr ⟨hdigits, isDigit_zeros⟩, isDigit_zeros (n := 1)⟩
    · split
      · exact ⟨List.cons_ne_nil _ _, fun d hd => hdigits d (List.mem_of_mem_take hd),
          fun d hd => hdigits d (List.mem_of_mem_drop hd)⟩
      · exact ⟨List.cons_ne_nil _ _, isDigit_zeros (n := 1),
          List.forall_mem_append.mpr ⟨isDigit_zeros, hdigits⟩⟩
  · cases rest with
    | nil => exact ⟨hne, hdigits, nofun⟩
    | cons c' rest => exact ⟨List.cons_ne_nil _ _, List.forall_mem_singleton.mpr hc, hrest⟩

/-- What is written with neither a point nor a power of ten is an integer, and no decimal. -/
theorem marked_parts (hne : digits ≠ []) :
    (parts digits leading exponent).fraction.isSome = true ∨
      (parts digits leading exponent).power.isSome = true := by
  obtain ⟨c, rest, rfl⟩ := List.exists_cons_of_ne_nil hne
  unfold parts
  split
  · split
    · exact .inl rfl
    · split <;> exact .inl rfl
  · cases rest <;> exact .inr rfl

theorem value_parts (hne : digits ≠ [])
    (hleading : (digits.length : Int) + exponent - 1 = leading) :
    (parts digits leading exponent).value = Nat.ofDigitChars 10 digits 0 * 10 ^ exponent := by
  unfold parts Written.value
  split
  · split
    next hexponent =>
      have hpower : (10 : ℚ) ^ exponent = 10 ^ exponent.toNat := by
        rw [← zpow_natCast, Int.toNat_of_nonneg hexponent]
      rw [Option.getD_some, ← List.replicate_one, List.append_assoc,
        List.replicate_append_replicate, Nat.ofDigitChars_append, Nat.ofDigitChars_replicate_zero,
        hpower, Option.elim_none, List.length_replicate, zero_sub, Nat.cast_one, zpow_neg_one,
        Nat.cast_mul, Nat.cast_pow, Nat.cast_ofNat, pow_succ, mul_right_comm,
        mul_inv_cancel_right₀ (by norm_num), mul_comm]
    next hexponent =>
      split
      next hpoint =>
        rw [Option.getD_some, List.take_append_drop, List.length_drop, Option.elim_none]
        congr 2
        omega
      next hpoint =>
        rw [Option.getD_some, ← List.append_assoc, Nat.ofDigitChars_append, ← List.replicate_one,
          List.replicate_append_replicate, Nat.ofDigitChars_replicate_zero, Nat.mul_zero,
          List.length_append, List.length_replicate, Option.elim_none]
        congr 2
        omega
  · obtain ⟨c, rest, rfl⟩ := List.exists_cons_of_ne_nil hne
    rw [List.length_cons] at hleading
    cases rest with
    | nil =>
      rw [Option.getD_none, List.append_nil, Option.elim_some, exponentOf_signed]
      congr 2
      omega
    | cons c' rest =>
      rw [Option.getD_some, List.singleton_append, Option.elim_some, exponentOf_signed]
      congr 2
      omega

end Parts

/-- The parts of the text of a decimal. -/
def written (d : Decimal) : Written :=
  parts (Nat.toDigits 10 d.digits) ((Nat.toDigits 10 d.digits).length + d.exponent - 1) d.exponent

theorem proper_written (d : Decimal) : d.written.Proper :=
  proper_parts Nat.toDigits_ne_nil fun _ hc =>
    Nat.isDigit_of_mem_toDigits (by decide) (Nat.le_refl 10) hc

theorem marked_written (d : Decimal) :
    d.written.fraction.isSome = true ∨ d.written.power.isSome = true :=
  marked_parts Nat.toDigits_ne_nil

theorem value_written (d : Decimal) : d.written.value = d.value := by
  rw [written, value_parts Nat.toDigits_ne_nil rfl, Nat.ofDigitChars_ten_toDigits, value]

/-- **The text of a decimal** consists of these parts. -/
theorem toList_text (d : Decimal) : (d.text .json).toList = d.written.chars := by
  unfold text written parts Written.chars zeros
  dsimp only
  split
  · split
    · simp only [String.toList_append, String.toList_ofList]
      rfl
    · split
      · simp only [String.toList_append, String.toList_ofList, List.append_assoc, Option.elim,
          List.append_nil]
        rfl
      · simp only [String.toList_append, String.toList_ofList, List.append_assoc, Option.elim,
          List.append_nil]
        rfl
  · simp only [String.toList_append, List.append_assoc, Nat.toList_repr]
    cases Nat.toDigits 10 d.digits with
    | nil => rfl
    | cons c rest =>
      cases rest with
      | nil => simp only [String.toList_ofList]; rfl
      | cons c' rest => simp only [String.toList_ofList]; rfl

end Decimal

/-! ## 3. The text of a number -/

namespace Binary64

/-- What is written says the magnitude of the float: it is zero, or a number that is rounded to
    it. -/
structure Tells (x : Binary64) (w : Written) : Prop where
  proper : w.Proper
  marked : w.fraction.isSome = true ∨ w.power.isSome = true
  zero : x.significand = 0 → w.value = 0
  holds : x.significand ≠ 0 →
    w.value ≠ 0 ∧ (Decimal.interval x).Holds (w.value * (4 * unitsPerOne : Nat))

/-- **The text of a float** is its sign and a number that says its magnitude. -/
theorem exists_tells (x : Binary64) :
    ∃ w, x.Tells w ∧ x.text.toList = w.signedChars x.negative := by
  have hsigned {w : Written} {magnitude : String} (h : magnitude.toList = w.chars) :
      (if x.negative = true then "-" ++ magnitude else magnitude).toList
        = w.signedChars x.negative := by
    rw [Written.toList_signed h, Bool.decide_eq_true]
  by_cases hzero : x.significand = 0
  · refine ⟨⟨['0'], some ['0'], none⟩, ⟨⟨List.cons_ne_nil _ _, Decimal.isDigit_zeros (n := 1),
      Decimal.isDigit_zeros (n := 1)⟩, .inl rfl, fun _ => ?_, fun hne => absurd hzero hne⟩, ?_⟩
    · show ((0 : Nat) : ℚ) * _ = 0
      rw [Nat.cast_zero, zero_mul]
    · exact hsigned (by rw [if_pos hzero]; rfl)
  · obtain ⟨hdigits, hholds⟩ := Decimal.shortest_spec hzero
    refine ⟨(Decimal.shortest x).written, ⟨Decimal.proper_written _, Decimal.marked_written _,
      fun h => absurd h hzero, fun _ => ?_⟩, hsigned (by rw [if_neg hzero, Decimal.toList_text])⟩
    rw [Decimal.value_written]
    exact ⟨mul_ne_zero (Nat.cast_ne_zero.mpr hdigits) (zpow_ne_zero _ (by norm_num)), hholds⟩

/-- So two floats of one text have one magnitude. -/
theorem magnitude_eq_of_tells {x y : Binary64} {w : Written} (hx : x.Tells w) (hy : y.Tells w) :
    x.magnitude = y.magnitude := by
  by_cases hxzero : x.significand = 0
  · by_cases hyzero : y.significand = 0
    · rw [magnitude, magnitude, hxzero, hyzero, Nat.zero_mul, Nat.zero_mul]
    · exact absurd (hx.zero hxzero) (hy.holds hyzero).1
  · by_cases hyzero : y.significand = 0
    · exact absurd (hy.zero hyzero) (hx.holds hxzero).1
    · exact Decimal.magnitude_eq_of_holds (hx.holds hxzero).2 (hy.holds hyzero).2

end Binary64

namespace Number

/-- An integer is written with digits alone. -/
def writtenInt (n : Int) : Written := ⟨Nat.toDigits 10 n.natAbs, none, none⟩

theorem proper_writtenInt (n : Int) : (writtenInt n).Proper :=
  ⟨Nat.toDigits_ne_nil, fun _ hc => Nat.isDigit_of_mem_toDigits (by decide) (Nat.le_refl 10) hc,
    nofun⟩

theorem toList_text_int (n : Int) (fits : Fits64 n) :
    (int n fits).text.toList = (writtenInt n).signedChars (n < 0) := by
  have hchars : (Nat.repr n.natAbs).toList = (writtenInt n).chars := by
    rw [Nat.toList_repr]
    exact (List.append_nil _).symm
  exact Written.toList_signed hchars (n < 0)

/-- A float's text has a point or a power of ten, and an integer's has neither. -/
theorem text_int_ne_text_float (n : Int) (fits : Fits64 n) (x : Binary64) :
    (int n fits).text ≠ (float x).text := by
  intro heq
  obtain ⟨w, hw, htext⟩ := x.exists_tells
  have hchars := congrArg String.toList heq
  rw [toList_text_int, text, htext] at hchars
  have hparts := (Written.eq_of_signedChars (proper_writtenInt n) hw.proper hchars).2
  rcases hparts ▸ hw.marked with h | h <;> cases h

/-- **Different numbers have different texts.** -/
theorem text_injective : Function.Injective text := by
  intro a b heq
  cases a with
  | int n fits =>
    cases b with
    | int m fits' =>
      have hchars := congrArg String.toList heq
      rw [toList_text_int, toList_text_int] at hchars
      obtain ⟨hsign, hparts⟩ :=
        Written.eq_of_signedChars (proper_writtenInt n) (proper_writtenInt m) hchars
      have habs : n.natAbs = m.natAbs := by
        rw [← Nat.ofDigitChars_ten_toDigits (n := n.natAbs), (Written.mk.inj hparts).1,
          Nat.ofDigitChars_ten_toDigits]
      have hnm : n = m := by
        rw [decide_eq_decide] at hsign
        omega
      subst hnm
      rfl
    | float y => exact absurd heq (text_int_ne_text_float n fits y)
  | float x =>
    cases b with
    | int m fits' => exact absurd heq.symm (text_int_ne_text_float m fits' x)
    | float y =>
      obtain ⟨w, hw, htext⟩ := x.exists_tells
      obtain ⟨w', hw', htext'⟩ := y.exists_tells
      have hchars := congrArg String.toList heq
      rw [text, text, htext, htext'] at hchars
      obtain ⟨hsign, rfl⟩ := Written.eq_of_signedChars hw.proper hw'.proper hchars
      rw [Binary64.eq_of_magnitude hsign (Binary64.magnitude_eq_of_tells hw hw')]

/-- The text of a number begins with its sign or a digit. -/
theorem exists_head (a : Number) :
    ∃ c rest, a.text.toList = c :: rest ∧ (c = '-' ∨ c.isDigit = true) := by
  have hhead {w : Written} (hw : w.Proper) (negative : Bool) :
      ∃ c rest, w.signedChars negative = c :: rest ∧ (c = '-' ∨ c.isDigit = true) := by
    cases negative with
    | true => exact ⟨_, _, rfl, .inl rfl⟩
    | false =>
      obtain ⟨c, rest, hchars, hc⟩ := Written.exists_head hw
      exact ⟨c, rest, hchars, .inr hc⟩
  cases a with
  | int n fits => exact toList_text_int n fits ▸ hhead (proper_writtenInt n) _
  | float x =>
    obtain ⟨w, hw, htext⟩ := x.exists_tells
    rw [text, htext]
    exact hhead hw.proper _

end Number

end TaggedSchema
