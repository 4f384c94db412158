import TaggedSchema.Proofs.Requests
import TaggedSchema.Proofs.TagIdentity

/-!
# Equality of values

`const`, `enum` and `uniqueItems` compare values by `Json.sameValue`, and there an integer is rounded
before it is compared with a float. So an integer that is no float equals the float to which it is
rounded (`Number.Rounds`), and this is all that sets the relation apart from equality of exact
values (`Number.sameValue_iff`). The relation is reflexive and symmetric. It is transitive only as
far as no two integers are rounded to one float (`Number.sameValue_trans_iff`), and on values whose
integers are floats it is equality of exact values, which is what tags are keys of
(`Json.sameValue_up_to_rounding`).
-/

namespace TaggedSchema

/-! ## 1. Numbers -/

namespace Binary64

theorem value_eq_iff {x y : Binary64} : x.value = y.value ↔ x.units = y.units :=
  Number.value_eq_iff (a := .float x) (b := .float y)

/-- Of two numbers, equality sees the nearest floats. -/
theorem sameValue_iff {x y : Binary64} : x.sameValue y = true ↔ x.value = y.value := by
  rw [value_eq_iff]
  exact beq_iff_eq

/-- An integer that is the value of a float is rounded to that value. -/
theorem value_ofInt {n : Int} (fits : Fits64 n) {x : Binary64} (h : x.value = n) :
    (ofInt n).value = n := by
  have hunits := Number.value_eq_int_iff (a := .float x).mp h
  exact Number.value_eq_int_iff (a := .float (ofInt n)).mpr (units_ofInt_of_units fits hunits)

end Binary64

namespace Number

variable {a b c : Number}

/-- The first is an integer that is no float, and the second the float to which it is rounded. -/
def Rounds : Number → Number → Prop
  | .int n _, .float x => (Binary64.ofInt n).value = x.value ∧ x.value ≠ n
  | _, _ => False

/-- Not two integers that differ. -/
def IntegersAgree : Number → Number → Prop
  | .int n _, .int k _ => n = k
  | _, _ => True

/-- A float, or an integer that is one: to be rounded does not change the value. -/
def IsFloat (a : Number) : Prop := a.toBinary64.value = a.value

/-- Up to `2 ^ 53` all integers are floats. -/
theorem IsFloat.of_exact (h : a.Exact) : a.IsFloat :=
  value_eq_iff (a := .float a.toBinary64).mpr (units_toBinary64 h)

@[simp] theorem sameValue_self (a : Number) : a.sameValue a = true := by
  cases a <;> exact beq_self_eq_true _

theorem sameValue_comm (a b : Number) : a.sameValue b = b.sameValue a := by
  cases a <;> cases b <;> exact BEq.comm

/-- An integer and a float are compared as floats. -/
theorem sameValue_int_float {n : Int} {fits : Fits64 n} {x : Binary64} :
    (int n fits).sameValue (.float x) = true ↔ (Binary64.ofInt n).value = x.value :=
  Binary64.sameValue_iff

/-- **Equal are numbers of one value, and an integer and the float to which it is rounded.** -/
theorem sameValue_iff : a.sameValue b = true ↔ a.value = b.value ∨ a.Rounds b ∨ b.Rounds a := by
  have hmixed (n : Int) (fits : Fits64 n) (x : Binary64) :
      (int n fits).sameValue (.float x) = true ↔ x.value = n ∨ Rounds (.int n fits) (.float x) := by
    rw [sameValue_int_float]
    by_cases hvalue : x.value = n
    · rw [hvalue, Binary64.value_ofInt fits hvalue]
      exact iff_of_true rfl (Or.inl rfl)
    · exact ⟨fun h => Or.inr ⟨h, hvalue⟩, fun h => (h.resolve_left hvalue).1⟩
  cases a with
  | int n fits =>
    cases b with
    | int k fits' => simp [sameValue, value, Rounds]
    | float x => rw [hmixed]; simp [value, Rounds, eq_comm]
  | float x =>
    cases b with
    | int k fits' => rw [sameValue_comm, hmixed]; simp [value, Rounds]
    | float y =>
      simp only [value, Rounds, or_false]
      exact Binary64.sameValue_iff

/-- **Equality is handed on** except between two integers that are rounded to one float. -/
theorem sameValue_trans_iff (hab : a.sameValue b = true) (hbc : b.sameValue c = true) :
    a.sameValue c = true ↔ a.IntegersAgree c := by
  cases b with
  | int k fits =>
    -- The middle one is the first or the last, or else both of them are floats.
    cases a with
    | int n fits' =>
      obtain rfl : n = k := eq_of_beq hab
      refine iff_of_true hbc ?_
      cases c with
      | int m fits'' => exact eq_of_beq hbc
      | float z => trivial
    | float x =>
      refine iff_of_true ?_ trivial
      rw [sameValue_comm, sameValue_int_float] at hab
      cases c with
      | int m fits'' =>
        obtain rfl : k = m := eq_of_beq hbc
        rw [sameValue_comm, sameValue_int_float]
        exact hab
      | float z =>
        rw [sameValue_int_float] at hbc
        exact Binary64.sameValue_iff.mpr (hab.symm.trans hbc)
  | float y =>
    have hay : a.toBinary64.value = y.value := by
      cases a <;> exact Binary64.sameValue_iff.mp hab
    have hyc : y.value = c.toBinary64.value := by
      cases c <;> exact Binary64.sameValue_iff.mp hbc
    cases a with
    | int n fits =>
      cases c with
      | int m fits' => exact beq_iff_eq
      | float z => exact iff_of_true (Binary64.sameValue_iff.mpr (hay.trans hyc)) trivial
    | float x =>
      refine iff_of_true ?_ trivial
      cases c <;> exact Binary64.sameValue_iff.mpr (hay.trans hyc)

/-- Among numbers that are floats, equality is equality of values. -/
theorem sameValue_iff_value (ha : a.IsFloat) (hb : b.IsFloat) :
    a.sameValue b = true ↔ a.value = b.value := by
  refine ⟨fun h => ?_, fun h => sameValue_iff.mpr (Or.inl h)⟩
  have hnot {x y : Number} (hx : x.IsFloat) : ¬ x.Rounds y := by
    cases x with
    | int n fits =>
      cases y with
      | int k fits' => exact id
      | float y => exact fun hrounds => hrounds.2 (hrounds.1.symm.trans hx)
    | float x => cases y <;> exact id
  rcases sameValue_iff.mp h with hvalue | hrounds | hrounds
  · exact hvalue
  · exact absurd hrounds (hnot ha)
  · exact absurd hrounds (hnot hb)

end Number

/-! ## 2. Values -/

namespace Json

/-- What holds of a value when it holds of its parts holds of all values. -/
theorem part_induction {motive : Json → Prop} (h : ∀ a, (∀ b, Part b a → motive b) → motive a)
    (a : Json) : motive a :=
  (InvImage.wf height Nat.lt_wfRel.wf).induction a fun a ih => h a fun b hb => ih b hb.height_lt

/-- Values that differ in their numbers only, and whose numbers in each place are related. -/
inductive Alike (R : Number → Number → Prop) : Json → Json → Prop where
  | null : Alike R .null .null
  | bool (b : Bool) : Alike R (.bool b) (.bool b)
  | number {a b : Number} (h : R a b) : Alike R (.number a) (.number b)
  | string (s : String) : Alike R (.string s) (.string s)
  | array {xs ys : List Json} (hlength : xs.length = ys.length)
      (h : ∀ (i : Nat) (x y : Json), xs[i]? = some x → ys[i]? = some y → Alike R x y) :
      Alike R (.array xs) (.array ys)
  | object {xs ys : List (String × Json)} (hkeys : xs.map (·.1) = ys.map (·.1))
      (h : ∀ (i : Nat) (x y : String × Json), xs[i]? = some x → ys[i]? = some y →
        Alike R x.2 y.2) :
      Alike R (.object xs) (.object ys)

namespace Alike

variable {R S T : Number → Number → Prop} {a b c : Json}

theorem refl (hR : ∀ n, R n n) (a : Json) : Alike R a a := by
  induction a using part_induction with
  | h a ih =>
    cases a with
    | null => exact .null
    | bool b => exact .bool b
    | number n => exact .number (hR n)
    | string s => exact .string s
    | array xs =>
      refine .array rfl fun i x y hx hy => ?_
      obtain rfl : x = y := Option.some.inj (hx.symm.trans hy)
      exact ih x (.item (List.mem_of_getElem? hx))
    | object xs =>
      refine .object rfl fun i x y hx hy => ?_
      obtain rfl : x = y := Option.some.inj (hx.symm.trans hy)
      exact ih x.2 (.member (List.mem_of_getElem? hx))

theorem symm (h : Alike R a b) (hRS : ∀ x y, R x y → S y x) : Alike S b a := by
  induction h with
  | null => exact .null
  | bool b => exact .bool b
  | number h => exact .number (hRS _ _ h)
  | string s => exact .string s
  | array hlength _ ih => exact .array hlength.symm fun i x y hx hy => ih i y x hy hx
  | object hkeys _ ih => exact .object hkeys.symm fun i x y hx hy => ih i y x hy hx

theorem comp (hab : Alike R a b) (hbc : Alike S b c) (hRST : ∀ x y z, R x y → S y z → T x z) :
    Alike T a c := by
  induction hab generalizing c with
  | null => cases hbc; exact .null
  | bool b => cases hbc; exact .bool b
  | number hxy =>
    cases hbc with
    | number hyz => exact .number (hRST _ _ _ hxy hyz)
  | string s => cases hbc; exact .string s
  | @array xs ys hlength _ ih =>
    cases hbc with
    | array hlength' h' =>
      refine .array (hlength.trans hlength') fun i x z hx hz => ?_
      have hi : i < ys.length := hlength ▸ (List.getElem?_eq_some_iff.mp hx).1
      have hy := List.getElem?_eq_getElem hi
      exact ih i x _ hx hy (h' i _ z hy hz)
  | @object xs ys hkeys _ ih =>
    cases hbc with
    | object hkeys' h' =>
      refine .object (hkeys.trans hkeys') fun i x z hx hz => ?_
      have hlength : xs.length = ys.length := by
        rw [← List.length_map (·.1), hkeys, List.length_map]
      have hi : i < ys.length := hlength ▸ (List.getElem?_eq_some_iff.mp hx).1
      have hy := List.getElem?_eq_getElem hi
      exact ih i x _ hx hy (h' i _ z hy hz)

/-- Two ways to be alike make a third, in numbers that are parts of the values. -/
theorem both (h : Alike R a b) (h' : Alike S a b)
    (hRST : ∀ x y, Relation.ReflTransGen Part (.number x) a →
      Relation.ReflTransGen Part (.number y) b → R x y → S x y → T x y) : Alike T a b := by
  induction h with
  | null => exact .null
  | bool b => exact .bool b
  | number h =>
    cases h' with
    | number h' => exact .number (hRST _ _ .refl .refl h h')
  | string s => exact .string s
  | array hlength _ ih =>
    cases h' with
    | array _ h' =>
      refine .array hlength fun i x y hx hy => ih i x y hx hy (h' i x y hx hy) ?_
      exact fun m n hm hn => hRST m n (hm.tail (.item (List.mem_of_getElem? hx)))
        (hn.tail (.item (List.mem_of_getElem? hy)))
  | object hkeys _ ih =>
    cases h' with
    | object _ h' =>
      refine .object hkeys fun i x y hx hy => ih i x y hx hy (h' i x y hx hy) ?_
      exact fun m n hm hn => hRST m n (hm.tail (.member (List.mem_of_getElem? hx)))
        (hn.tail (.member (List.mem_of_getElem? hy)))

theorem mono (h : Alike R a b) (hRS : ∀ x y, R x y → S x y) : Alike S a b :=
  h.both h fun x y _ _ hR _ => hRS x y hR

end Alike

theorem sameItems_iff {xs ys : List Json} :
    sameItems xs ys = true ↔ xs.length = ys.length ∧
      ∀ (i : Nat) (x y : Json), xs[i]? = some x → ys[i]? = some y → x.sameValue y = true := by
  induction xs generalizing ys with
  | nil => cases ys <;> simp [sameItems]
  | cons x xs ih =>
    cases ys with
    | nil => simp [sameItems]
    | cons y ys =>
      rw [sameItems, Bool.and_eq_true, ih]
      constructor
      · rintro ⟨hfirst, hlength, hrest⟩
        refine ⟨congrArg (· + 1) hlength, fun i u v hu hv => ?_⟩
        cases i with
        | zero => cases hu; cases hv; exact hfirst
        | succ i => exact hrest i u v hu hv
      · rintro ⟨hlength, hall⟩
        exact ⟨hall 0 x y rfl rfl, Nat.succ.inj hlength, fun i => hall (i + 1)⟩

theorem sameMembers_iff {xs ys : List (String × Json)} :
    sameMembers xs ys = true ↔ xs.map (·.1) = ys.map (·.1) ∧
      ∀ (i : Nat) (x y : String × Json), xs[i]? = some x → ys[i]? = some y →
        x.2.sameValue y.2 = true := by
  induction xs generalizing ys with
  | nil => cases ys <;> simp [sameMembers]
  | cons x xs ih =>
    cases ys with
    | nil => simp [sameMembers]
    | cons y ys =>
      obtain ⟨key, x⟩ := x
      obtain ⟨other, y⟩ := y
      rw [sameMembers, Bool.and_eq_true, Bool.and_eq_true, ih, beq_iff_eq]
      constructor
      · rintro ⟨⟨hkey, hfirst⟩, hkeys, hrest⟩
        refine ⟨List.cons_eq_cons.mpr ⟨hkey, hkeys⟩, fun i u v hu hv => ?_⟩
        cases i with
        | zero => cases hu; cases hv; exact hfirst
        | succ i => exact hrest i u v hu hv
      · rintro ⟨hkeys, hall⟩
        obtain ⟨hkey, hkeys⟩ := List.cons_eq_cons.mp hkeys
        exact ⟨⟨hkey, hall 0 _ _ rfl rfl⟩, hkeys, fun i => hall (i + 1)⟩

/-- **Equal are values that differ in their numbers only, and there are equal.** -/
theorem sameValue_iff_alike {a b : Json} :
    a.sameValue b = true ↔ Alike (fun x y => x.sameValue y = true) a b := by
  constructor
  · intro h
    induction a using part_induction generalizing b with
    | h a ih =>
      cases a with
      | array xs =>
        cases b with
        | array ys =>
          obtain ⟨hlength, hall⟩ := sameItems_iff.mp h
          exact .array hlength fun i x y hx hy =>
            ih x (.item (List.mem_of_getElem? hx)) (hall i x y hx hy)
        | _ => cases h
      | object xs =>
        cases b with
        | object ys =>
          obtain ⟨hkeys, hall⟩ := sameMembers_iff.mp h
          exact .object hkeys fun i x y hx hy =>
            ih x.2 (.member (List.mem_of_getElem? hx)) (hall i x y hx hy)
        | _ => cases h
      | null =>
        cases b with
        | null => exact .null
        | _ => cases h
      | bool p =>
        cases b with
        | bool q => exact eq_of_beq h ▸ .bool p
        | _ => cases h
      | number x =>
        cases b with
        | number y => exact .number h
        | _ => cases h
      | string s =>
        cases b with
        | string t => exact eq_of_beq h ▸ .string s
        | _ => cases h
  · intro h
    induction h with
    | null => rfl
    | bool b => exact beq_self_eq_true b
    | number h => exact h
    | string s => exact beq_self_eq_true s
    | array hlength _ ih => exact sameItems_iff.mpr ⟨hlength, ih⟩
    | object hkeys _ ih => exact sameMembers_iff.mpr ⟨hkeys, ih⟩

/-- Two numbers that are equal, though their values are not: one of them is an integer that is no
    float, and the other the float to which it is rounded. -/
def Confused : Json → Json → Prop
  | .number x, .number y => x.Rounds y ∨ y.Rounds x
  | _, _ => False

/-- What equals a scalar makes the same tag, or is confused with it. -/
theorem sameValue_iff_tag {a b : Json} {t : Tag} (h : Tag.ofJson? a = some t) :
    a.sameValue b = true ↔ Tag.ofJson? b = some t ∨ a.Confused b := by
  have hsame : Tag.ofJson? b = some t ↔ a.scalar? = b.scalar? := by
    rw [← h, Tag.ofJson?_eq_iff, eq_comm]
  rw [hsame]
  cases a with
  | number x =>
    cases b with
    | number y => simp [sameValue, Number.sameValue_iff, scalar?, Confused]
    | _ => simp [sameValue, scalar?, Confused]
  | string s => cases b <;> simp [sameValue, scalar?, Confused]
  | bool p => cases b <;> simp [sameValue, scalar?, Confused]
  | _ => cases h

/-- All numbers in the value are floats, or integers that are floats. -/
def HasFloats (value : Json) : Prop :=
  ∀ a, Relation.ReflTransGen Part (.number a) value → a.IsFloat

/-- **Equality of values, up to rounding.** It is reflexive and symmetric. Two values that equal a third
    are equal when no two integers that differ stand in one place of them. Equal are the values that
    differ in their numbers only, where in each place are numbers of one exact value, or an integer
    that is no float and the float to which it is rounded; so a value equals a scalar when it makes the
    same tag, or when one of the two is such an integer and the other such a float. Equality of exact
    values is an equivalence, and on values whose integers are floats, as all up to `2 ^ 53` are, it is
    the same relation. -/
theorem sameValue_up_to_rounding (a b c : Json) :
    a.sameValue a = true ∧
    a.sameValue b = b.sameValue a ∧
    (a.sameValue b = true → b.sameValue c = true →
      (a.sameValue c = true ↔ Alike Number.IntegersAgree a c)) ∧
    (a.sameValue b = true ↔ Alike (fun x y => x.value = y.value ∨ x.Rounds y ∨ y.Rounds x) a b) ∧
    (∀ t, Tag.ofJson? a = some t →
      (a.sameValue b = true ↔ Tag.ofJson? b = some t ∨ a.Confused b)) ∧
    Equivalence (Alike fun x y => x.value = y.value) ∧
    (a.HasFloats → b.HasFloats →
      (a.sameValue b = true ↔ Alike (fun x y => x.value = y.value) a b)) ∧
    ∀ n : Number, n.Exact → n.IsFloat := by
  have hsymm {a b : Json} (h : a.sameValue b = true) : b.sameValue a = true :=
    sameValue_iff_alike.mpr ((sameValue_iff_alike.mp h).symm fun x y hxy =>
      (y.sameValue_comm x).trans hxy)
  refine ⟨sameValue_iff_alike.mpr (.refl Number.sameValue_self a),
    Bool.eq_iff_iff.mpr ⟨hsymm, hsymm⟩, fun hab hbc => ?_, ?_, fun t => sameValue_iff_tag,
    ⟨.refl fun _ => rfl, fun h => h.symm fun _ _ => Eq.symm,
      fun h h' => h.comp h' fun _ _ _ => Eq.trans⟩,
    fun ha hb => ?_, fun _ => Number.IsFloat.of_exact⟩
  · -- Number by number, both relations between the ends are known through the number between.
    have hac : Alike (fun x z => x.sameValue z = true ↔ x.IntegersAgree z) a c :=
      (sameValue_iff_alike.mp hab).comp (sameValue_iff_alike.mp hbc) fun _ _ _ =>
        Number.sameValue_trans_iff
    rw [sameValue_iff_alike]
    exact ⟨fun h => h.both hac fun _ _ _ _ hsame hiff => hiff.mp hsame,
      fun h => h.both hac fun _ _ _ _ hagree hiff => hiff.mpr hagree⟩
  · rw [sameValue_iff_alike]
    exact ⟨fun h => h.mono fun _ _ => Number.sameValue_iff.mp,
      fun h => h.mono fun _ _ => Number.sameValue_iff.mpr⟩
  · rw [sameValue_iff_alike]
    exact ⟨fun h => h.both h fun x y hx hy hsame _ =>
        (Number.sameValue_iff_value (ha x hx) (hb y hy)).mp hsame,
      fun h => h.mono fun _ _ hvalue => Number.sameValue_iff.mpr (Or.inl hvalue)⟩

/-- The integer `2 ^ 53 + 1`, which is no float. -/
def oddInteger : Json := .number (.int 9007199254740993 (by decide))

/-- The integer `2 ^ 53`. -/
def evenInteger : Json := .number (.int 9007199254740992 (by decide))

/-- The float `2 ^ 53`. -/
def evenFloat : Json :=
  .number (.float ⟨false, 2 ^ 52, 1, by decide, by decide, by decide, by decide⟩)

/-- **Equality is not handed on past `2 ^ 53`**, where two integers are rounded to one float; and there
    it does not tell tags apart. -/
theorem sameValue_not_transitive :
    oddInteger.sameValue evenFloat = true ∧ evenFloat.sameValue evenInteger = true ∧
      oddInteger.sameValue evenInteger = false ∧
      Tag.ofJson? oddInteger ≠ Tag.ofJson? evenFloat ∧
      Tag.ofJson? evenInteger = Tag.ofJson? evenFloat := by
  decide +kernel

end Json

end TaggedSchema
