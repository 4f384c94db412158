import TaggedSchema.Proofs.Calls
import TaggedSchema.Proofs.Rounding

/-!
# Bounds on numbers

`minimum`, `maximum`, `exclusiveMinimum` and `exclusiveMaximum` compare the floats that are nearest
to a number and to the limit. Rounding keeps the order, so the comparison is that of the exact
values (`Comparison.Compares`) unless the two are rounded to one float, though they differ
(`Number.Merges`). From `2 ^ 53` on this happens to neighbours, and then the two count as equal: an
inclusive bound accepts what lies beyond it, and an exclusive one refuses what lies within
(`Compiler.bounds_compare`, `Compiler.maximum_admits_greater`).
-/

namespace TaggedSchema

/-! ## 1. Comparing rounded numbers -/

namespace Comparison

/-- Whether the limit itself is within the bound. -/
def inclusive : Comparison → Bool
  | atLeast | atMost => true
  | above | below => false

/-- The comparison of exact values. -/
def Compares (c : Comparison) (value limit : ℚ) : Prop :=
  match c with
  | atLeast => limit ≤ value
  | atMost => value ≤ limit
  | above => limit < value
  | below => value < limit

instance (c : Comparison) (value limit : ℚ) : Decidable (c.Compares value limit) :=
  match c with
  | atLeast => inferInstanceAs (Decidable (limit ≤ value))
  | atMost => inferInstanceAs (Decidable (value ≤ limit))
  | above => inferInstanceAs (Decidable (limit < value))
  | below => inferInstanceAs (Decidable (value < limit))

end Comparison

namespace Binary64

variable {x y : Binary64}

theorem units_le_iff : x.units ≤ y.units ↔ x.value ≤ y.value := by
  have hpos : (0 : ℚ) < unitsPerOne := Nat.cast_pos.mpr unitsPerOne_pos
  rw [← mul_le_mul_iff_left₀ hpos, value_mul_unitsPerOne, value_mul_unitsPerOne, Int.cast_le]

theorem units_lt_iff : x.units < y.units ↔ x.value < y.value := by
  rw [← not_le, units_le_iff, not_le]

/-- Floats are compared by their values. -/
theorem holds_iff (c : Comparison) : c.holds x y = true ↔ c.Compares x.value y.value := by
  cases c <;> simp [Comparison.holds, Comparison.Compares, units_le_iff, units_lt_iff]

end Binary64

namespace Number

variable {a b : Number}

/-- The numbers differ, but are rounded to one float. -/
def Merges (a b : Number) : Prop :=
  a.value ≠ b.value ∧ a.toBinary64.value = b.toBinary64.value

theorem Merges.symm (h : a.Merges b) : b.Merges a := ⟨h.1.symm, h.2.symm⟩

/-- Numbers of one value are rounded to one float. -/
theorem value_toBinary64_congr (h : a.value = b.value) :
    a.toBinary64.value = b.toBinary64.value := by
  have hnearest := fun n : Number => (toBinary64_spec n).1
  cases a with
  | float x =>
    have hb := hnearest b
    rw [← h, value] at hb
    exact hb.value_eq.symm
  | int n fits =>
    cases b with
    | float y =>
      have ha := hnearest (int n fits)
      rw [h, value] at ha
      exact ha.value_eq
    | int k fits' =>
      obtain rfl : n = k := Int.cast_injective h
      rfl

/-- **Rounding keeps the order of numbers that it does not merge.** -/
theorem value_toBinary64_lt_iff (h : ¬ a.Merges b) :
    a.toBinary64.value < b.toBinary64.value ↔ a.value < b.value := by
  have hnearest := fun n : Number => (toBinary64_spec n).1
  rcases lt_trichotomy a.value b.value with hlt | heq | hgt
  · have hle := (hnearest a).value_le (hnearest b) hlt
    exact iff_of_true (lt_of_le_of_ne hle fun he => h ⟨hlt.ne, he⟩) hlt
  · exact iff_of_false (value_toBinary64_congr heq).not_lt heq.not_lt
  · have hle := (hnearest b).value_le (hnearest a) hgt
    exact iff_of_false hle.not_gt hgt.not_gt

theorem value_toBinary64_le_iff (h : ¬ a.Merges b) :
    a.toBinary64.value ≤ b.toBinary64.value ↔ a.value ≤ b.value := by
  rw [← not_lt, ← not_lt, value_toBinary64_lt_iff fun hm => h hm.symm]

/-- Then a comparison of the rounded numbers is one of the exact values. -/
theorem holds_toBinary64_iff (c : Comparison) (h : ¬ a.Merges b) :
    c.holds a.toBinary64 b.toBinary64 = true ↔ c.Compares a.value b.value := by
  rw [Binary64.holds_iff]
  cases c with
  | atLeast => exact value_toBinary64_le_iff fun hm => h hm.symm
  | atMost => exact value_toBinary64_le_iff h
  | above => exact value_toBinary64_lt_iff fun hm => h hm.symm
  | below => exact value_toBinary64_lt_iff h

/-- Numbers that are merged count as equal. -/
theorem Merges.holds_eq (h : a.Merges b) (c : Comparison) :
    c.holds a.toBinary64 b.toBinary64 = c.inclusive := by
  rw [Bool.eq_iff_iff, Binary64.holds_iff, h.2]
  cases c <;> simp [Comparison.Compares, Comparison.inclusive]

/-- A number that is no float is beyond `2 ^ 53`, and so is the float to which it is rounded. -/
theorem le_abs_of_not_isFloat (h : ¬ a.IsFloat) :
    2 ^ 53 ≤ |a.value| ∧ 2 ^ 53 ≤ |a.toBinary64.value| := by
  cases a with
  | float x => exact absurd rfl h
  | int n fits =>
    have hlarge : 2 ^ 53 < n.natAbs := lt_of_not_ge fun hle => h (.of_exact hle)
    have hend (k : Int) (fits : Fits64 k) (hk : k.natAbs ≤ 2 ^ 53) :
        (int k fits).toBinary64.value = k := IsFloat.of_exact (a := int k fits) hk
    have hhigh := hend (2 ^ 53) (by decide) (by decide)
    have hlow := hend (-2 ^ 53) (by decide) (by decide)
    have hkeeps {x y : Number} (hxy : x.value < y.value) :=
      (toBinary64_spec x).1.value_le (toBinary64_spec y).1 hxy
    rcases lt_or_ge n 0 with hneg | hpos
    · have hlt : (n : ℚ) < ((-2 ^ 53 : Int) : ℚ) := Int.cast_lt.mpr (by omega)
      have hle := hkeeps (x := int n fits) (y := int (-2 ^ 53) (by decide)) hlt
      rw [hlow] at hle
      norm_num at hlt hle
      exact ⟨le_abs.mpr (.inr (by rw [value]; linarith)), le_abs.mpr (.inr (by linarith))⟩
    · have hlt : ((2 ^ 53 : Int) : ℚ) < n := Int.cast_lt.mpr (by omega)
      have hle := hkeeps (x := int (2 ^ 53) (by decide)) (y := int n fits) hlt
      rw [hhigh] at hle
      norm_num at hlt hle
      exact ⟨le_abs.mpr (.inl (by rw [value]; linarith)), le_abs.mpr (.inl (by linarith))⟩

/-- **Only neighbours beyond `2 ^ 53` are merged.** -/
theorem Merges.far (h : a.Merges b) :
    2 ^ 53 ≤ |a.value| ∧ 2 ^ 53 ≤ |b.value| ∧
      |a.value - b.value| * 2 ^ 52 ≤ max |a.value| |b.value| := by
  obtain ⟨hne, hsame⟩ := h
  have hfloat {x y : Number} (hx : ¬ x.IsFloat) (hsame : x.toBinary64.value = y.toBinary64.value) :
      2 ^ 53 ≤ |x.value| ∧ 2 ^ 53 ≤ |y.value| := by
    obtain ⟨hvalue, hrounded⟩ := le_abs_of_not_isFloat hx
    by_cases hy : y.IsFloat
    · rw [hsame, hy] at hrounded
      exact ⟨hvalue, hrounded⟩
    · exact ⟨hvalue, (le_abs_of_not_isFloat hy).1⟩
  have hlarge : 2 ^ 53 ≤ |a.value| ∧ 2 ^ 53 ≤ |b.value| := by
    by_cases ha : a.IsFloat
    · by_cases hb : b.IsFloat
      · exact absurd (ha.symm.trans (hsame.trans hb)) hne
      · exact (hfloat hb hsame.symm).symm
    · exact hfloat ha hsame
  refine ⟨hlarge.1, hlarge.2, ?_⟩
  have ha := (toBinary64_spec a).2
  have hb := (toBinary64_spec b).2
  have htriangle := abs_sub_le a.value b.toBinary64.value b.value
  rw [hsame, abs_sub_comm] at ha
  linarith [le_max_left |a.value| |b.value|, le_max_right |a.value| |b.value|]

end Number

/-! ## 2. What a bound reports -/

/-- What a bound says of a number beyond it. -/
def Comparison.violation (c : Comparison) (f : Frame) (limit : Number) : ValidationError :=
  f.error c.keyword ("must be " ++ c.sign ++ " " ++ limit.text)

/-- **What a bound reports of a number**: it goes by the exact values, but numbers that are merged
    with the limit count as equal to it. -/
structure CompiledNode.Bounds (node : CompiledNode) (p : Program) (c : Comparison)
    (limit a : Number) (f : Frame) : Prop where
  apart : ¬ a.Merges limit → node.errorsOf p c.keyword (.number a) f
    = if c.Compares a.value limit.value then [] else [c.violation f limit]
  merged : a.Merges limit → node.errorsOf p c.keyword (.number a) f
    = if c.inclusive then [] else [c.violation f limit]

/-- So the verdict is that of the exact values iff the number is not merged with the limit, or is on
    the side of it that equal numbers are taken to be on. -/
theorem CompiledNode.Bounds.exact_iff {node : CompiledNode} {p : Program} {c : Comparison}
    {limit a : Number} {f : Frame} (h : node.Bounds p c limit a f) :
    (node.errorsOf p c.keyword (.number a) f = [] ↔ c.Compares a.value limit.value) ↔
      (a.Merges limit → (c.inclusive = true ↔ c.Compares a.value limit.value)) := by
  by_cases hm : a.Merges limit
  · rw [h.merged hm]
    simp [hm]
  · rw [h.apart hm]
    simp [hm]

/-- What the check of a bound finds in a number. -/
theorem Check.errors_bound {find : Finder} {c : Comparison} {limit : Binary64} {text : String}
    {a : Number} {f : Frame} :
    (Rule.assertion (bound c limit text).run).errors find c.keyword (.number a) f
      = if c.holds a.toBinary64 limit then []
        else [f.error c.keyword ("must be " ++ c.sign ++ " " ++ text)] := by
  show Dialogue.errors find c.keyword f (if c.holds a.toBinary64 limit = true then _ else _) = _
  split <;> rfl

namespace Builtin

variable {o : Occurrence} {check : Option Check}

theorem number_eq_ok_iff {a : Number} : number o = .ok a ↔ o.value = .number a := by
  unfold number
  split
  next written hvalue => rw [hvalue, Except.ok.injEq, Json.number.injEq]
  next hnone => exact iff_of_false (fun h => by cases h) (hnone a)

/-- A bound is compiled iff its value is a number. -/
theorem bound_eq_ok_iff {comparison : Comparison} : bound comparison o = .ok check ↔
    ∃ limit, o.value = .number limit ∧
      check = some (.bound comparison limit.toBinary64 limit.text) := by
  unfold bound
  rw [bind_pure_eq_ok]
  refine exists_congr fun limit => ?_
  rw [number_eq_ok_iff]
  refine and_congr_right fun hvalue => ?_
  rw [hvalue]
  exact eq_comm

end Builtin

namespace Compiler

variable {c : Compiler} {store : Store} {g : Graph} {start id : NodeId} {p : Program} {n : Node}
  {node : CompiledNode}

variable [Pattern.Library]

/-- What a built-in keyword has against a value, its check finds. -/
theorem errorsOf_of_check (hcompiled : c.compileNode g id n = .ok node)
    (hnodup : (n.keywords.map (·.1)).Nodup) (hregistry : c.registry = .default) {name : String}
    {compile : Occurrence → Except SchemaError (Option Check)}
    (hname : CoreKeyword.ofName? name = none ∧ isAnnotationKeyword name = false)
    (hplugin : Registry.default.find? name = some (Builtin.plugin compile)) {written : Json}
    (hwritten : n.keyword? name = some written) :
    ∃ check, compile ⟨name, written, id, n, g⟩ = .ok check ∧ ∀ found, check = some found →
      ∀ (p : Program) value f, node.errorsOf p name value f
        = (Rule.assertion found.run).errors p.found name value f := by
  have hkeyword : n.hasKeyword name = true := by rw [Node.hasKeyword, hwritten]; rfl
  obtain ⟨d, _, hrules⟩ := keywordRules_of_compileNode hkeyword hcompiled
  obtain ⟨rule, hrule, hfilter⟩ := filter_keywordRules hrules hnodup (mem_of_lookup hwritten)
  obtain ⟨check, hcheck, rfl⟩ := check_of_keywordRule hregistry hname hplugin hrule
  refine ⟨check, hcheck, fun found hfound p value f => ?_⟩
  subst hfound
  exact CompiledNode.errorsOf_singleton hfilter

/-- A bound at a node has a number for its limit, and compares with that. -/
theorem errorsOf_bound (hcompiled : c.compileNode g id n = .ok node)
    (hnodup : (n.keywords.map (·.1)).Nodup) (hregistry : c.registry = .default)
    (comparison : Comparison) (hkeyword : n.hasKeyword comparison.keyword = true) :
    ∃ limit : Number, n.keyword? comparison.keyword = some (.number limit) ∧
      ∀ (p : Program) value f, node.errorsOf p comparison.keyword value f
        = (Rule.assertion (Check.bound comparison limit.toBinary64 limit.text).run).errors p.found
          comparison.keyword value f := by
  obtain ⟨written, hwritten⟩ := Option.isSome_iff_exists.mp hkeyword
  have hname : CoreKeyword.ofName? comparison.keyword = none ∧
      isAnnotationKeyword comparison.keyword = false := by
    cases comparison <;> decide
  have hplugin : Registry.default.find? comparison.keyword
      = some (Builtin.plugin (Builtin.bound comparison)) := by
    cases comparison <;> rfl
  obtain ⟨check, hcheck, herrors⟩ :=
    errorsOf_of_check hcompiled hnodup hregistry hname hplugin hwritten
  obtain ⟨limit, hlimit, rfl⟩ := Builtin.bound_eq_ok_iff.mp hcheck
  exact ⟨limit, hwritten.trans (congrArg some hlimit), herrors _ rfl⟩

/-- **Bounds compare exact values, but for numbers that rounding merges with the limit.** In a
    program of built-in keywords, compiled from a store whose documents have distinct keys, a
    reached node with one of the four keywords has a number for its limit. Of a number, in any
    representation, it reports what the exact comparison says, unless the number differs from the
    limit and is rounded to the same float: then it reports what it says of the limit itself. So the
    verdict is exact iff this does not happen, or does no harm. It happens only where both are as
    great as `2 ^ 53`, and at most `2 ^ (-52)` of the greater apart. On values of other types a
    bound reports nothing. And each of the keywords is compiled for every number as its limit. -/
theorem bounds_compare [Uri.Library] (hstore : store.DistinctKeys) {root : String}
    (hg : Graph.resolve store root = .ok g) {o : Options} (hp : (builtin o).compile g start = .ok p)
    (hid : id ∈ reached g start) (hn : g.node? id = some n) (comparison : Comparison)
    (hkeyword : n.hasKeyword comparison.keyword = true) :
    ∃ node limit, p.nodes[id]? = some node ∧ node.Accounts p id ∧
      n.keyword? comparison.keyword = some (.number limit) ∧
      (∀ a f, node.Bounds p comparison limit a f ∧
        ((node.errorsOf p comparison.keyword (.number a) f = [] ↔
            comparison.Compares a.value limit.value) ↔
          (a.Merges limit →
            (comparison.inclusive = true ↔ comparison.Compares a.value limit.value)))) ∧
      (∀ value f, value.number? = none → node.errorsOf p comparison.keyword value f = []) ∧
      (∀ a : Number, a.Merges limit → 2 ^ 53 ≤ |a.value| ∧ 2 ^ 53 ≤ |limit.value| ∧
        |a.value - limit.value| * 2 ^ 52 ≤ max |a.value| |limit.value|) ∧
      ∀ (written : Occurrence) check, Builtin.bound comparison written = .ok check ↔
        ∃ limit, written.value = .number limit ∧
          check = some (.bound comparison limit.toBinary64 limit.text) := by
  obtain ⟨hresolved, _⟩ := Graph.resolved_of_resolve hg
  have hnodup := hresolved.nodup_keywords hstore hn
  obtain ⟨node, hcompiled, hnode⟩ := node_of_reached hp hid hn
  obtain ⟨limit, hlimit, herrors⟩ := errorsOf_bound hcompiled hnodup rfl comparison hkeyword
  have hbounds (a : Number) (f : Frame) : node.Bounds p comparison limit a f := by
    refine ⟨fun hapart => ?_, fun hmerged => ?_⟩ <;> rw [herrors, Check.errors_bound]
    · simp only [Number.holds_toBinary64_iff comparison hapart]
      rfl
    · rw [hmerged.holds_eq]
      rfl
  refine ⟨node, limit, hnode,
    accounts_of_compileNode hcompiled hnodup (isBuiltin_of_compile hp) hnode, hlimit,
    fun a f => ⟨hbounds a f, (hbounds a f).exact_iff⟩, fun value f hvalue => ?_,
    fun a => Number.Merges.far, fun _ _ => Builtin.bound_eq_ok_iff⟩
  rw [herrors]
  cases value with
  | number a => cases hvalue
  | _ => rfl

end Compiler

/-- A schema of the numbers from zero on. -/
def fromZero : Json := .object [("minimum", .number (.ofNat 0))]

/-- No number is merged with zero, so the comparison with it is exact. -/
theorem Compiler.bounds_compare_fromZero :
    ∃ g p node, Graph.ofDocument fromZero = .ok g ∧ (builtin .default).compile g g.root = .ok p ∧
      p.nodes[g.root]? = some node ∧ ∀ (a : Number) f,
        node.errorsOf p "minimum" (.number a) f = [] ↔ 0 ≤ a.value := by
  have hall : ((Graph.ofDocument fromZero).toOption.any fun g =>
      ((builtin .default).compile g g.root).toOption.any fun _ => (g.node? g.root).any fun n =>
        decide (g.root ∈ reached g g.root ∧ n.hasKeyword "minimum" = true ∧
          (n.keyword? "minimum").bind Json.number? = some (.ofNat 0))) = true := by
    decide +kernel
  obtain ⟨g, hg, hall⟩ := any_toOption_eq_true.mp hall
  obtain ⟨p, hp, hall⟩ := any_toOption_eq_true.mp hall
  obtain ⟨n, hn, hall⟩ := (Option.any_eq_true _ _).mp hall
  obtain ⟨hroot, hkeyword, hwritten⟩ := of_decide_eq_true hall
  have hkeys : fromZero.DistinctKeys := by simp [fromZero]
  obtain ⟨node, limit, hnode, _, hlimit, hbounds, _, hfar, _⟩ :=
    bounds_compare (Store.distinctKeys_single hkeys) hg hp hroot hn .atLeast hkeyword
  rw [Comparison.keyword] at hlimit
  rw [hlimit] at hwritten
  obtain rfl : limit = .ofNat 0 := Option.some.inj hwritten
  have hzero : (Number.ofNat 0).value = 0 := Int.cast_zero
  refine ⟨g, p, node, hg, hp, hnode, fun a f => ?_⟩
  have hapart : ¬ a.Merges (.ofNat 0) := fun hmerged => by
    have hlimit := (hfar a hmerged).2.1
    rw [hzero, abs_zero] at hlimit
    norm_num at hlimit
  have hexact := (hbounds a f).2.mpr fun hmerged => absurd hmerged hapart
  rw [hzero] at hexact
  exact hexact

/-- A schema of the numbers up to `2 ^ 53`. -/
def upToEven : Json := .object [("maximum", Json.evenInteger)]

/-- **A maximum lets a greater number pass**: `2 ^ 53` and the integer behind it are rounded to one
    float. -/
theorem Compiler.maximum_admits_greater :
    ∃ g p, Graph.ofDocument upToEven = .ok g ∧ (builtin .default).compile g g.root = .ok p ∧
      Json.evenInteger = .number (.int 9007199254740992 (by decide)) ∧
      ¬ Comparison.atMost.Compares 9007199254740993 9007199254740992 ∧
      (p.report false (.number (.int 9007199254740993 (by decide)))).errors = [] := by
  have hall : ((Graph.ofDocument upToEven).toOption.any fun g =>
      ((builtin .default).compile g g.root).toOption.any fun p =>
        decide ((p.report false Json.oddInteger).errors = [])) = true := by
    decide +kernel
  obtain ⟨g, hg, hall⟩ := any_toOption_eq_true.mp hall
  obtain ⟨p, hp, hall⟩ := any_toOption_eq_true.mp hall
  exact ⟨g, p, hg, hp, rfl, by norm_num [Comparison.Compares], of_decide_eq_true hall⟩

end TaggedSchema
