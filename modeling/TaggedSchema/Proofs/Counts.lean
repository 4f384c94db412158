import TaggedSchema.Proofs.Counting
import TaggedSchema.Proofs.Rounding

/-!
# Counts

The limits on lengths and sizes are counts: natural numbers of 64 bits, which a document may also
write as floats. A float passes the test for a count by comparing with a bound that is itself
rounded, and is then cut off to 64 bits; since the bound is rounded up to `2 ^ 64`, the test lets
through exactly what is not changed by cutting off (`Binary64.clamp64_eq_iff`). So a value is read
as a count exactly if it is one (`Builtin.asCount?_eq_some_iff`), in either representation, the
negative zero included.

A keyword that wants a count is then compiled to the check of that count and of nothing else, or
refused, and so are the counts beside `contains` (`Compiler.counts_spec`).
-/

namespace TaggedSchema

/-! ## 1. Numbers that are counts -/

/-- The value is a natural number that 64 bits hold, in whatever representation. -/
def Json.IsCount (value : Json) (n : Nat) : Prop :=
  ∃ a : Number, value = .number a ∧ a.value = n ∧ n < 2 ^ 64

theorem Json.isCount_number {a : Number} {n : Nat} :
    (Json.number a).IsCount n ↔ a.value = n ∧ n < 2 ^ 64 :=
  ⟨fun ⟨_, h, hn⟩ => (by cases h; exact hn), fun hn => ⟨a, rfl, hn⟩⟩

namespace Binary64

/-- The greatest number of 64 bits is rounded up. -/
theorem units_ofNat_greatest : (ofNat (2 ^ 64 - 1)).units = 2 ^ 64 * unitsPerOne := by
  decide +kernel

/-- **Below that bound, cutting off loses nothing**: what passes the test is a natural number of 64
    bits. -/
theorem clamp64_eq_iff {x : Binary64} {n : Nat} :
    (0 ≤ x.units ∧ x.isIntegral = true ∧ x.units < (ofNat (2 ^ 64 - 1)).units) ∧ x.clamp64 = n ↔
      x.units = n * unitsPerOne ∧ n < 2 ^ 64 := by
  have hpos : (0 : Int) < unitsPerOne := Int.natCast_pos.mpr unitsPerOne_pos
  have hclamp {m : Nat} (hm : x.units = m * unitsPerOne) (hlt : m < 2 ^ 64) : x.clamp64 = m := by
    rw [clamp64, hm, Int.mul_ediv_cancel _ hpos.ne', Int.toNat_natCast]
    omega
  rw [units_ofNat_greatest]
  constructor
  · rintro ⟨⟨hlow, hintegral, hhigh⟩, rfl⟩
    obtain ⟨k, hk⟩ := Option.isSome_iff_exists.mp hintegral
    rw [toInt?_eq_some_iff] at hk
    obtain ⟨m, rfl⟩ : ∃ m : Nat, k = m := by
      refine ⟨k.toNat, (Int.toNat_of_nonneg ?_).symm⟩
      exact nonneg_of_mul_nonneg_left (hk ▸ hlow) hpos
    have hlt : m < 2 ^ 64 := by
      rw [hk] at hhigh
      have := lt_of_mul_lt_mul_right hhigh hpos.le
      omega
    rw [hclamp hk hlt]
    exact ⟨hk, hlt⟩
  · rintro ⟨hunits, hlt⟩
    refine ⟨⟨?_, ?_, ?_⟩, hclamp hunits hlt⟩
    · rw [hunits]
      exact mul_nonneg (Int.natCast_nonneg n) hpos.le
    · exact Option.isSome_iff_exists.mpr ⟨n, toInt?_eq_some_iff.mpr hunits⟩
    · rw [hunits]
      exact mul_lt_mul_of_pos_right (by omega) hpos

end Binary64

namespace Number

/-- A negative number is rounded to a negative float. -/
theorem units_toBinary64_neg {a : Number} (h : a.value < 0) : a.toBinary64.units < 0 := by
  have herror := a.toBinary64_spec.2
  rw [abs_of_neg h] at herror
  have hvalue : a.toBinary64.value < 0 := by
    linarith [le_abs_self (a.toBinary64.value - a.value), abs_nonneg (a.toBinary64.value - a.value)]
  have hunits := a.toBinary64.value_mul_unitsPerOne
  have hneg : (a.toBinary64.units : ℚ) < 0 := by
    rw [← hunits]
    exact mul_neg_of_neg_of_pos hvalue (Nat.cast_pos.mpr Binary64.unitsPerOne_pos)
  exact Int.cast_lt_zero.mp hneg

end Number

theorem Builtin.asCount?_number {a : Number} {n : Nat} :
    asCount? (.number a) = some n ↔ a.value = n ∧ n < 2 ^ 64 := by
  have hfloat (x : Binary64) : asCount? (.number (.float x)) = some n ↔
      (Number.float x).value = n ∧ n < 2 ^ 64 := by
    have hvalue : (Number.float x).value = n ↔ x.units = n * Binary64.unitsPerOne :=
      Number.value_eq_int_iff (n := n)
    rw [hvalue, ← Binary64.clamp64_eq_iff]
    exact Option.ite_some_none_eq_some
  cases a with
  | float x => exact hfloat x
  | int k fits =>
    have hvalue : (Number.int k fits).value = n ↔ k = n := Int.cast_inj (α := ℚ) (n := n)
    rw [hvalue]
    by_cases hk : 0 ≤ k
    · have hunsigned : (Number.int k fits).unsigned? = some k.toNat := if_pos hk
      have hcount : asCount? (.number (.int k fits)) = some k.toNat := by
        unfold asCount? Json.number?
        dsimp only
        rw [hunsigned]
      have hhigh := fits.2
      rw [hcount, Option.some.injEq]
      omega
    · have hnone : asCount? (.number (.int k fits)) = none := by
        have hneg : (Number.int k fits).value < 0 := Int.cast_lt_zero.mpr (Int.not_le.mp hk)
        have hunits := Number.units_toBinary64_neg hneg
        have hunsigned : (Number.int k fits).unsigned? = none := if_neg hk
        unfold asCount? Json.number?
        dsimp only
        rw [hunsigned]
        exact if_neg fun h => absurd h.1 (Int.not_le.mpr hunits)
      rw [hnone]
      exact ⟨fun h => absurd h.symm (Option.some_ne_none n),
        fun h => absurd (h.1 ▸ Int.natCast_nonneg n) hk⟩

/-- **What is read as a count** is a natural number that 64 bits hold. -/
theorem Builtin.asCount?_eq_some_iff {value : Json} {n : Nat} :
    asCount? value = some n ↔ value.IsCount n := by
  cases value with
  | number a => rw [asCount?_number, Json.isCount_number]
  | _ => exact ⟨nofun, fun ⟨_, h, _⟩ => nomatch h⟩

theorem Builtin.asCount?_eq_none_iff {value : Json} :
    asCount? value = none ↔ ∀ n, ¬ value.IsCount n := by
  rw [Option.eq_none_iff_forall_ne_some]
  exact forall_congr' fun n => not_congr asCount?_eq_some_iff

/-- Numbers of one value are one count, or none. -/
theorem Builtin.asCount?_congr {a b : Number} (h : a.value = b.value) :
    asCount? (.number a) = asCount? (.number b) := by
  ext n
  rw [asCount?_number, asCount?_number, h]

/-- **A number is no count** if it is negative, too large or no integer, and only then. -/
theorem Json.not_isCount_iff {a : Number} : (∀ n, ¬ (Json.number a).IsCount n) ↔
    a.value < 0 ∨ 2 ^ 64 ≤ a.value ∨ ∀ k : Int, a.value ≠ k := by
  simp only [isCount_number]
  constructor
  · intro h
    by_contra hnot
    push Not at hnot
    obtain ⟨hlow, hhigh, k, hk⟩ := hnot
    rw [hk] at hlow hhigh
    have hlow : 0 ≤ k := by exact_mod_cast hlow
    have hhigh : k < 2 ^ 64 := by exact_mod_cast hhigh
    refine h k.toNat ⟨?_, by omega⟩
    rw [hk, ← Int.cast_natCast, Int.toNat_of_nonneg hlow]
  · rintro (hneg | hlarge | hfraction) n ⟨hn, hlt⟩
    · exact absurd hneg (not_lt.mpr (hn ▸ Nat.cast_nonneg n))
    · rw [hn] at hlarge
      have : 2 ^ 64 ≤ n := by exact_mod_cast hlarge
      omega
    · exact hfraction n (by rw [hn, Int.cast_natCast])

/-! ## 2. Keywords -/

/-- The keywords whose value is a count, and their checks. -/
def Builtin.countKeywords : List (String × (Nat → Check)) :=
  [("minLength", fun n => .length (.least n)), ("maxLength", fun n => .length (.most n)),
    ("minItems", fun n => .itemCount (.least n)), ("maxItems", fun n => .itemCount (.most n)),
    ("minProperties", fun n => .propertyCount (.least n)),
    ("maxProperties", fun n => .propertyCount (.most n))]

/-- The fault of a keyword whose value is no count. -/
def Node.badCount (n : Node) (name : String) : SchemaError :=
  ⟨n.location.join name, .invalidKeywordValue name Builtin.notACount⟩

theorem Builtin.siblingCount_eq_error {o : Occurrence} {name : String} {value : Json}
    (hvalue : o.node.keyword? name = some value) (hbad : asCount? value = none) :
    siblingCount o name = .error (o.node.badCount name) := by
  unfold siblingCount Occurrence.sibling?
  rw [hvalue]
  dsimp only
  rw [hbad]
  rfl

theorem Builtin.siblingCount_of_map {o : Occurrence} {name : String} {count : Option Nat}
    (h : (o.node.keyword? name).map asCount? = count.map some) :
    siblingCount o name = .ok count := by
  unfold siblingCount Occurrence.sibling?
  cases hvalue : o.node.keyword? name with
  | none =>
    rw [hvalue] at h
    cases count with
    | none => rfl
    | some n => cases h
  | some value =>
    rw [hvalue] at h
    cases count with
    | none => cases h
    | some n =>
      dsimp only
      rw [Option.some.inj h]

namespace Compiler

variable {c : Compiler} {g : Graph} {id start : NodeId} {p : Program} {n : Node}
  {d : Option Discriminator} {value : Json}

/-- **The rule of a keyword that wants a count** is the check of the count that is its value. -/
theorem keywordRule_count [Pattern.Library] (hregistry : c.registry = .default)
    {entry : String × (Nat → Check)} (hentry : entry ∈ Builtin.countKeywords) :
    c.keywordRule g id n d entry.1 value = match Builtin.asCount? value with
      | some k => .ok (some (.assertion (entry.2 k).run))
      | none => .error (n.badCount entry.1) := by
  have hbuiltin : (CoreKeyword.ofName? entry.1 = none ∧ isAnnotationKeyword entry.1 = false) ∧
      Registry.default.find? entry.1
        = some (Builtin.plugin fun o => do return some (entry.2 (← Builtin.count o))) := by
    simp only [Builtin.countKeywords, List.mem_cons, List.not_mem_nil, or_false] at hentry
    rcases hentry with rfl | rfl | rfl | rfl | rfl | rfl <;> exact ⟨by decide, rfl⟩
  rw [keywordRule_eq hregistry hbuiltin.1 hbuiltin.2]
  unfold Builtin.count
  dsimp only
  cases Builtin.asCount? value <;> rfl

theorem find?_contains [Pattern.Library] :
    Registry.default.find? "contains" = some (Builtin.plugin Builtin.contains) := rfl

/-- The rule of `contains` has the counts that are written beside it. -/
theorem keywordRule_contains [Pattern.Library] (hregistry : c.registry = .default) {schema : NodeId}
    {fewest most : Option Nat} (h : n.ContainsWith schema fewest most) :
    c.keywordRule g id n d "contains" value
      = .ok (some (.assertion (Check.contains schema (fewest.getD 1) most).run)) := by
  have hschema : Occurrence.subschema ⟨"contains", value, id, n, g⟩ = .ok schema := by
    unfold Occurrence.subschema
    rw [h.schema]
  have hcheck : Builtin.contains ⟨"contains", value, id, n, g⟩
      = .ok (some (.contains schema (fewest.getD 1) most)) :=
    bind_eq_ok.mpr ⟨fewest, Builtin.siblingCount_of_map h.fewest,
      bind_eq_ok.mpr ⟨most, Builtin.siblingCount_of_map h.most,
        bind_pure_eq_ok.mpr ⟨schema, hschema, rfl⟩⟩⟩
  rw [keywordRule_eq hregistry (by decide) find?_contains, hcheck]
  rfl

/-- What is no count under `minContains` is refused where `contains` is compiled. -/
theorem keywordRule_contains_badLeast [Pattern.Library] (hregistry : c.registry = .default)
    {least : Json} (hleast : n.keyword? "minContains" = some least)
    (hbad : Builtin.asCount? least = none) :
    c.keywordRule g id n d "contains" value = .error (n.badCount "minContains") := by
  have hcheck : Builtin.contains ⟨"contains", value, id, n, g⟩
      = .error (n.badCount "minContains") :=
    bind_eq_error.mpr (.inl (Builtin.siblingCount_eq_error hleast hbad))
  rw [keywordRule_eq hregistry (by decide) find?_contains, hcheck]
  rfl

/-- So is what is no count under `maxContains`, but that is read after `minContains`. -/
theorem keywordRule_contains_badMost [Pattern.Library] (hregistry : c.registry = .default)
    {fewest : Option Nat} {most : Json}
    (hfewest : (n.keyword? "minContains").map Builtin.asCount? = fewest.map some)
    (hmost : n.keyword? "maxContains" = some most) (hbad : Builtin.asCount? most = none) :
    c.keywordRule g id n d "contains" value = .error (n.badCount "maxContains") := by
  have hcheck : Builtin.contains ⟨"contains", value, id, n, g⟩
      = .error (n.badCount "maxContains") :=
    bind_eq_error.mpr (.inr ⟨fewest, Builtin.siblingCount_of_map hfewest,
      bind_eq_error.mpr (.inl (Builtin.siblingCount_eq_error hmost hbad))⟩)
  rw [keywordRule_eq hregistry (by decide) find?_contains, hcheck]
  rfl

/-! ## 3. Programs -/

/-- In a program, a keyword that wants a count has one, and the node checks it. -/
theorem count_of_compile [Pattern.Library] (hp : c.compile g start = .ok p)
    (hregistry : c.registry = .default) (hid : id ∈ reached g start) (hn : g.node? id = some n)
    {entry : String × (Nat → Check)}
    (hentry : entry ∈ Builtin.countKeywords) (hvalue : n.keyword? entry.1 = some value) :
    ∃ node k, p.nodes[id]? = some node ∧ value.IsCount k ∧
      ⟨entry.1, .assertion (entry.2 k).run⟩ ∈ node.keywords := by
  obtain ⟨node, hcompiled, hnode⟩ := node_of_reached hp hid hn
  have hkeyword : n.hasKeyword entry.1 = true := Option.isSome_iff_exists.mpr ⟨value, hvalue⟩
  obtain ⟨d, _, hrules⟩ := keywordRules_of_compileNode hkeyword hcompiled
  obtain ⟨rule, hrule, hmem⟩ := keywordRule_of_mem hrules (mem_of_lookup hvalue)
  rw [keywordRule_count hregistry hentry] at hrule
  cases hcount : Builtin.asCount? value with
  | none =>
    rw [hcount] at hrule
    cases hrule
  | some k =>
    rw [hcount] at hrule
    exact ⟨node, k, hnode, Builtin.asCount?_eq_some_iff.mp hcount,
      hmem _ (Except.ok.inj hrule).symm⟩

/-- So have the counts beside `contains`. -/
theorem siblingCount_of_compile [Pattern.Library] (hp : c.compile g start = .ok p)
    (hregistry : c.registry = .default) (hid : id ∈ reached g start) (hn : g.node? id = some n)
    (hcontains : n.hasKeyword "contains" = true) {name : String}
    (hname : name = "minContains" ∨ name = "maxContains") (hvalue : n.keyword? name = some value) :
    ∃ k, value.IsCount k := by
  obtain ⟨node, hcompiled, _⟩ := node_of_reached hp hid hn
  obtain ⟨d, _, hrules⟩ := keywordRules_of_compileNode hcontains hcompiled
  obtain ⟨written, hwritten⟩ := Option.isSome_iff_exists.mp hcontains
  obtain ⟨rule, hrule, _⟩ := keywordRule_of_mem hrules (mem_of_lookup hwritten)
  obtain ⟨schema, fewest, most, hwith, _⟩ := contains_of_keywordRule hregistry hrule
  have hcount {count : Option Nat} (h : (n.keyword? name).map Builtin.asCount? = count.map some) :
      ∃ k, value.IsCount k := by
    rw [hvalue] at h
    cases count with
    | none => cases h
    | some k => exact ⟨k, Builtin.asCount?_eq_some_iff.mp (Option.some.inj h)⟩
  rcases hname with rfl | rfl
  · exact hcount hwith.fewest
  · exact hcount hwith.most

theorem exists_error_of_no_program (h : ∀ p, c.compile g start ≠ .ok p) :
    ∃ e, c.compile g start = .error e := by
  cases hp : c.compile g start with
  | error e => exact ⟨e, rfl⟩
  | ok p => exact absurd hp (h p)

/-- The number under a name, where there is none or it is a count. -/
theorem exists_count {name : String}
    (h : ∀ value, n.keyword? name = some value → ∃ k, value.IsCount k) :
    ∃ count : Option Nat, (n.keyword? name).map Builtin.asCount? = count.map some := by
  cases hvalue : n.keyword? name with
  | none => exact ⟨none, rfl⟩
  | some value =>
    obtain ⟨k, hk⟩ := h value hvalue
    exact ⟨some k, congrArg some (Builtin.asCount?_eq_some_iff.mpr hk)⟩

/-- **Count keywords accept the natural numbers of 64 bits**, in either representation, and nothing
    else. A value is read as a count exactly if it is one; a number is none exactly if it is
    negative, past 64 bits or no integer. A keyword that wants a count compiles to its check of the
    count, or is refused where it stands, so two numbers of one value compile to one rule; `contains`
    compiles to the check of the counts beside it, or is refused at the first of the two that is
    none. A reached node with such a value makes the program fail. -/
theorem counts_spec [Pattern.Library] (o : Options) (g : Graph) :
    (∀ value k, Builtin.asCount? value = some k ↔ value.IsCount k) ∧
    (∀ a : Number, (∀ k, ¬ (Json.number a).IsCount k) ↔
      a.value < 0 ∨ 2 ^ 64 ≤ a.value ∨ ∀ k : Int, a.value ≠ k) ∧
    (∀ id n d value, ∀ entry ∈ Builtin.countKeywords,
      (∀ k, value.IsCount k → (builtin o).keywordRule g id n d entry.1 value
        = .ok (some (.assertion (entry.2 k).run))) ∧
      ((∀ k, ¬ value.IsCount k) → (builtin o).keywordRule g id n d entry.1 value
        = .error (n.badCount entry.1))) ∧
    (∀ id n d (a b : Number), a.value = b.value → ∀ entry ∈ Builtin.countKeywords,
      (builtin o).keywordRule g id n d entry.1 (.number a)
        = (builtin o).keywordRule g id n d entry.1 (.number b)) ∧
    (∀ id n d value,
      (∀ schema fewest most, n.ContainsWith schema fewest most →
        (builtin o).keywordRule g id n d "contains" value
          = .ok (some (.assertion (Check.contains schema (fewest.getD 1) most).run))) ∧
      (∀ least, n.keyword? "minContains" = some least → (∀ k, ¬ least.IsCount k) →
        (builtin o).keywordRule g id n d "contains" value
          = .error (n.badCount "minContains")) ∧
      (∀ most, n.keyword? "maxContains" = some most → (∀ k, ¬ most.IsCount k) →
        (∀ least, n.keyword? "minContains" = some least → ∃ k, least.IsCount k) →
        (builtin o).keywordRule g id n d "contains" value
          = .error (n.badCount "maxContains"))) ∧
    ∀ start id n, id ∈ reached g start → g.node? id = some n →
      (∀ entry ∈ Builtin.countKeywords, ∀ value, n.keyword? entry.1 = some value →
        (∀ k, ¬ value.IsCount k) → ∃ e, (builtin o).compile g start = .error e) ∧
      (n.hasKeyword "contains" = true → ∀ name, name = "minContains" ∨ name = "maxContains" →
        ∀ value, n.keyword? name = some value → (∀ k, ¬ value.IsCount k) →
          ∃ e, (builtin o).compile g start = .error e) := by
  refine ⟨fun _ _ => Builtin.asCount?_eq_some_iff, fun _ => Json.not_isCount_iff,
    fun id n d value entry hentry => ⟨fun k hk => ?_, fun hbad => ?_⟩,
    fun id n d a b hab entry hentry => ?_, fun id n d value =>
      ⟨fun _ _ _ => keywordRule_contains rfl, fun _ hleast hbad => ?_,
        fun _ hmost hbad hleast => ?_⟩,
    fun start id n hid hn => ⟨fun entry hentry value hvalue hbad => ?_,
      fun hcontains name hname value hvalue hbad => ?_⟩⟩
  · rw [keywordRule_count rfl hentry, Builtin.asCount?_eq_some_iff.mpr hk]
  · rw [keywordRule_count rfl hentry, Builtin.asCount?_eq_none_iff.mpr hbad]
  · rw [keywordRule_count rfl hentry, keywordRule_count rfl hentry, Builtin.asCount?_congr hab]
  · exact keywordRule_contains_badLeast rfl hleast (Builtin.asCount?_eq_none_iff.mpr hbad)
  · obtain ⟨fewest, hfewest⟩ := exists_count hleast
    exact keywordRule_contains_badMost rfl hfewest hmost (Builtin.asCount?_eq_none_iff.mpr hbad)
  · refine exists_error_of_no_program fun p hp => ?_
    obtain ⟨_, k, _, hk, _⟩ := count_of_compile hp rfl hid hn hentry hvalue
    exact hbad k hk
  · refine exists_error_of_no_program fun p hp => ?_
    obtain ⟨k, hk⟩ := siblingCount_of_compile hp rfl hid hn hcontains hname hvalue
    exact hbad k hk

/-- A schema that wants two items, written as a float, and fewer than none of one kind. -/
def twoAndBelowZero : Json :=
  .object
    [("contains", .bool true), ("maxContains", .number (.int (-1) (by decide))),
      ("minItems", .number (.float (.ofNat 2)))]

/-- The float is the count that it equals, and the negative number is refused. -/
theorem counts_spec_twoAndBelowZero :
    ∃ g n, Graph.ofDocument twoAndBelowZero = .ok g ∧ g.node? g.root = some n ∧
      (∀ d, (builtin .default).keywordRule g g.root n d "minItems" (.number (.float (.ofNat 2)))
        = .ok (some (.assertion (Check.itemCount (.least 2)).run))) ∧
      ∃ e, (builtin .default).compile g g.root = .error e := by
  have hall : ((Graph.ofDocument twoAndBelowZero).toOption.any fun g =>
      (reached g g.root).contains g.root && (g.node? g.root).any fun n =>
        n.hasKeyword "contains" && (n.keyword? "maxContains").any fun value =>
          Builtin.asCount? value == none) = true := by
    decide +kernel
  obtain ⟨g, hg, hall⟩ := any_toOption_eq_true.mp hall
  obtain ⟨hreached, hall⟩ := Bool.and_eq_true_iff.mp hall
  obtain ⟨n, hn, hall⟩ := (Option.any_eq_true _ _).mp hall
  obtain ⟨hcontains, hall⟩ := Bool.and_eq_true_iff.mp hall
  obtain ⟨value, hvalue, hbad⟩ := (Option.any_eq_true _ _).mp hall
  have htwo : (Json.number (.float (.ofNat 2))).IsCount 2 :=
    Builtin.asCount?_eq_some_iff.mp (by decide +kernel)
  obtain ⟨-, -, hkeyword, -, -, hcompile⟩ := counts_spec .default g
  have hmem : ("minItems", fun n => Check.itemCount (.least n)) ∈ Builtin.countKeywords :=
    .tail _ (.tail _ (.head _))
  refine ⟨g, n, hg, hn, fun d => (hkeyword g.root n d _ _ hmem).1 2 htwo, ?_⟩
  exact (hcompile g.root g.root n (List.contains_iff_mem.mp hreached) hn).2 hcontains
    "maxContains" (.inr rfl) value hvalue (Builtin.asCount?_eq_none_iff.mp (beq_iff_eq.mp hbad))

end Compiler

end TaggedSchema
