import TaggedSchema.Proofs.Combinators

/-!
# Counting the items that pass

`contains` counts the items of an array that its schema lets pass, and stops counting at a number
from which on, so it is meant, nothing changes any more (`Check.enoughItems`). This file compares
what it says with what a count of all items says (`Check.passing`):

* the count that stops is the full one, cut off at that number (`Check.errors_countItems`);
* cut off there, it leads to the same error or to none, as long as the upper limit is at least the
  lower one less one (`Check.errors_contains_few`, `Check.errors_contains_many`,
  `Check.errors_contains_enough`);
* so an array is refused exactly when too few items or too many pass, but where the limits
  contradict each other too few are reported even of an array in which too many pass
  (`Compiler.contains_counts`, `Compiler.contains_calls_many_few`).
-/

namespace TaggedSchema

namespace Check

variable {find : Finder} {schema : NodeId} {f : Frame} {least : Nat} {most : Option Nat}

/-! ## 1. The count and where it stops -/

/-- Whether a numbered item passes the schema of `contains`. -/
def itemPasses (find : Finder) (schema : NodeId) (f : Frame) (item : Json × Nat) : Bool :=
  (find schema item.1 (f.descended (Nat.repr item.2) ["contains"])).isEmpty

/-- How many items of an array pass the schema of `contains`. -/
def passing (find : Finder) (schema : NodeId) (f : Frame) (items : List Json) : Nat :=
  items.zipIdx.countP (itemPasses find schema f)

/-- What `contains` says where too few items pass. -/
def tooFew (f : Frame) (least : Nat) : ValidationError :=
  f.error "contains" ("must contain at least " ++ Nat.repr least ++ " valid item(s)")

/-- What `contains` says where too many items pass. -/
def tooMany (f : Frame) (most : Nat) : ValidationError :=
  f.error "contains" ("must contain at most " ++ Nat.repr most ++ " valid item(s)")

theorem countItems_cons_errors {enough found : Nat} (hgo : found < enough)
    (verdict : Nat → Dialogue) (item : Json × Nat) (rest : List (Json × Nat)) :
    (countItems schema enough verdict found (item :: rest)).errors find "contains" f
      = (countItems schema enough verdict
          (if itemPasses find schema f item then found + 1 else found) rest).errors
        find "contains" f := by
  rw [countItems, if_neg (Nat.not_le_of_lt hgo)]
  rfl

/-- **The count that stops is the full one, cut off**: by induction on the items, the number found
    so far being no greater than the one at which it stops. -/
theorem errors_countItems {enough : Nat} (verdict : Nat → Dialogue) (items : List (Json × Nat))
    {found : Nat} (hfound : found ≤ enough) :
    (countItems schema enough verdict found items).errors find "contains" f
      = (verdict (min enough (found + items.countP (itemPasses find schema f)))).errors
        find "contains" f := by
  induction items generalizing found with
  | nil => rw [List.countP_nil, Nat.add_zero, Nat.min_eq_right hfound, countItems]
  | cons item rest ih =>
    obtain rfl | hgo := Nat.eq_or_lt_of_le hfound
    · rw [countItems, if_pos (Nat.le_refl _), Nat.min_eq_left (Nat.le_add_right _ _)]
    · rw [countItems_cons_errors hgo, List.countP_cons]
      split
      · rw [ih (Nat.succ_le_of_lt hgo), Nat.succ_add, Nat.add_succ]
      · rw [ih hfound, Nat.add_zero]

/-! ## 2. What is said of a number of items -/

theorem errors_verdict_few {found : Nat} (h : found < least) :
    (containsVerdict least most found).errors find "contains" f = [tooFew f least] := by
  unfold containsVerdict
  rw [if_pos h]
  rfl

theorem errors_verdict_many {found limit : Nat} (hleast : least ≤ found) (hmost : limit < found) :
    (containsVerdict least (some limit) found).errors find "contains" f = [tooMany f limit] := by
  unfold containsVerdict
  rw [if_neg (Nat.not_lt_of_le hleast)]
  dsimp only
  rw [if_pos hmost]
  rfl

theorem errors_verdict_enough {found : Nat} (hleast : least ≤ found)
    (hmost : ∀ limit, most = some limit → found ≤ limit) :
    (containsVerdict least most found).errors find "contains" f = [] := by
  unfold containsVerdict
  rw [if_neg (Nat.not_lt_of_le hleast)]
  cases most with
  | none => rfl
  | some limit =>
    dsimp only
    rw [if_neg (Nat.not_lt_of_le (hmost limit rfl))]
    rfl

section Outcome

variable {items : List Json}

theorem errors_contains :
    (Rule.assertion (contains schema least most).run).errors find "contains" (.array items) f
      = (containsVerdict least most
          (min (enoughItems least most) (passing find schema f items))).errors
        find "contains" f := by
  show (countItems schema _ _ 0 items.zipIdx).errors find "contains" f = _
  rw [errors_countItems _ _ (Nat.zero_le _), Nat.zero_add, passing]

/-- Too few are reported where too few pass, and where the count stops before enough could. -/
theorem errors_contains_few
    (h : passing find schema f items < least ∨ ∃ limit, most = some limit ∧ limit + 1 < least) :
    (Rule.assertion (contains schema least most).run).errors find "contains" (.array items) f
      = [tooFew f least] := by
  rw [errors_contains]
  refine errors_verdict_few ?_
  obtain h | ⟨limit, rfl, hlimit⟩ := h
  · exact Nat.lt_of_le_of_lt (Nat.min_le_right _ _) h
  · have hstop : enoughItems least (some limit) ≤ limit + 1 := Nat.min_le_left _ _
    exact Nat.lt_of_le_of_lt (Nat.le_trans (Nat.min_le_left _ _) hstop) hlimit

theorem errors_contains_many {limit : Nat} (hlength : items.length < 2 ^ 64)
    (hlimits : least ≤ limit + 1) (hleast : least ≤ passing find schema f items)
    (hmost : limit < passing find schema f items) :
    (Rule.assertion (contains schema least (some limit)).run).errors
      find "contains" (.array items) f = [tooMany f limit] := by
  have hitems : passing find schema f items ≤ items.length :=
    List.length_zipIdx (l := items) ▸ List.countP_le_length
  rw [errors_contains]
  refine errors_verdict_many ?_ ?_ <;> rw [enoughItems] <;> omega

theorem errors_contains_enough (hleast : least ≤ passing find schema f items)
    (hbound : least < 2 ^ 64)
    (hmost : ∀ limit, most = some limit → passing find schema f items ≤ limit) :
    (Rule.assertion (contains schema least most).run).errors find "contains" (.array items) f
      = [] := by
  rw [errors_contains]
  refine errors_verdict_enough ?_ fun limit h => ?_
  · cases most with
    | none => exact Nat.le_min.mpr ⟨Nat.le_refl _, hleast⟩
    | some limit =>
      have := hmost limit rfl
      rw [enoughItems]
      omega
  · exact Nat.le_trans (Nat.min_le_right _ _) (hmost limit h)

end Outcome

end Check

/-! ## 3. Compiled nodes -/

/-- **What `contains` adds**, by the number of items of an array that pass its schema: too few,
    where there are fewer than the least, or where the greatest number lies more than one below the
    least; else too many, where there are more than the greatest; else nothing. -/
structure CompiledNode.Counts (node : CompiledNode) (p : Program) (schema : NodeId) (least : Nat)
    (most : Option Nat) (items : List Json) (f : Frame) : Prop where
  few : Check.passing p.found schema f items < least ∨
    (∃ limit, most = some limit ∧ limit + 1 < least) →
    node.Adds p "contains" (.array items) f [Check.tooFew f least]
  many : ∀ limit, most = some limit → least ≤ limit + 1 →
    least ≤ Check.passing p.found schema f items → limit < Check.passing p.found schema f items →
    node.Adds p "contains" (.array items) f [Check.tooMany f limit]
  enough : least ≤ Check.passing p.found schema f items →
    (∀ limit, most = some limit → Check.passing p.found schema f items ≤ limit) →
    node.Adds p "contains" (.array items) f []

/-- A node adds one list of errors under a name. -/
theorem CompiledNode.Adds.unique {node : CompiledNode} {p : Program} {name : String} {value : Json}
    {f : Frame} {errors errors' : List ValidationError} (h : node.Adds p name value f errors)
    (h' : node.Adds p name value f errors') : errors = errors' := by
  obtain ⟨⟨k, hk, hname⟩, hadds⟩ := h
  have hsame :=
    (hadds k hk hname (.empty false) rfl).symm.trans (h'.2 k hk hname (.empty false) rfl)
  exact congrArg Report.errors hsame

/-- An array is accepted iff its number of passing items lies within both limits, even where too few
    are reported of too many. -/
theorem CompiledNode.Counts.adds_nil_iff {node : CompiledNode} {p : Program} {schema : NodeId}
    {least : Nat} {most : Option Nat} {items : List Json} {f : Frame}
    (h : node.Counts p schema least most items f) :
    node.Adds p "contains" (.array items) f [] ↔
      least ≤ Check.passing p.found schema f items ∧
        ∀ limit, most = some limit → Check.passing p.found schema f items ≤ limit := by
  refine ⟨fun hnone => ?_, fun ⟨hleast, hmost⟩ => h.enough hleast hmost⟩
  have hfew : least ≤ Check.passing p.found schema f items :=
    Nat.le_of_not_lt fun hlt => List.cons_ne_nil _ _ ((h.few (.inl hlt)).unique hnone)
  refine ⟨hfew, fun limit hlimit => Nat.le_of_not_lt fun hlt => ?_⟩
  have hcut : least ≤ limit + 1 := Nat.le_of_not_lt fun hcut =>
    List.cons_ne_nil _ _ ((h.few (.inr ⟨limit, hlimit, hcut⟩)).unique hnone)
  exact List.cons_ne_nil _ _ ((h.many limit hlimit hcut hfew hlt).unique hnone)

theorem Number.lt_of_unsigned? {a : Number} {n : Nat} (h : a.unsigned? = some n) : n < 2 ^ 64 := by
  cases a with
  | float x => cases h
  | int k fits =>
    have hhigh := fits.2
    rw [unsigned?] at h
    split at h
    next =>
      cases h
      omega
    next => cases h

/-- A count fits into 64 bits. -/
theorem Builtin.lt_of_asCount? {value : Json} {n : Nat} (h : asCount? value = some n) :
    n < 2 ^ 64 := by
  unfold asCount? at h
  split at h
  next => cases h
  next a _ =>
    split at h
    next count hcount =>
      cases h
      exact Number.lt_of_unsigned? hcount
    next =>
      dsimp only at h
      split at h
      next =>
        cases h
        exact Nat.lt_of_le_of_lt (Nat.min_le_right _ _) (by decide)
      next => cases h

/-- A sibling that is read as a count is one, or is not there. -/
theorem Builtin.siblingCount_eq_ok {o : Occurrence} {name : String} {count : Option Nat}
    (h : siblingCount o name = .ok count) :
    (o.node.keyword? name).map asCount? = count.map some := by
  unfold siblingCount Occurrence.sibling? at h
  cases hwritten : o.node.keyword? name with
  | none =>
    rw [hwritten] at h
    cases h
    rfl
  | some value =>
    rw [hwritten] at h
    dsimp only at h
    split at h
    next n hn =>
      cases h
      rw [Option.map_some, hn]
      rfl
    next => cases h

/-- The schema of `contains` at a node, and the counts that are written beside it. -/
structure Node.ContainsWith (n : Node) (schema : NodeId) (fewest most : Option Nat) : Prop where
  schema : n.child? "contains" = some schema
  fewest : (n.keyword? "minContains").map Builtin.asCount? = fewest.map some
  most : (n.keyword? "maxContains").map Builtin.asCount? = most.map some

namespace Node.ContainsWith

variable {n : Node} {schema schema' : NodeId} {fewest fewest' most most' : Option Nat}

/-- A node has one schema under `contains`, and one count of each kind. -/
theorem unique (h : n.ContainsWith schema fewest most) (h' : n.ContainsWith schema' fewest' most') :
    schema = schema' ∧ fewest = fewest' ∧ most = most' := by
  have hsame {a b : Option Nat} (h : a.map some = b.map some) : a = b :=
    Option.map_injective (fun _ _ => Option.some.inj) h
  exact ⟨Option.some.inj (h.schema.symm.trans h'.schema), hsame (h.fewest.symm.trans h'.fewest),
    hsame (h.most.symm.trans h'.most)⟩

/-- The least number of items fits into 64 bits. -/
theorem least_lt (h : n.ContainsWith schema fewest most) : fewest.getD 1 < 2 ^ 64 := by
  cases fewest with
  | none => decide
  | some least =>
    obtain ⟨value, _, hvalue⟩ := Option.map_eq_some_iff.mp h.fewest
    exact Builtin.lt_of_asCount? hvalue

end Node.ContainsWith

namespace Compiler

variable {c : Compiler} {store : Store} {g : Graph} {start id : NodeId} {p : Program} {n : Node}
  {d : Option Discriminator} {value : Json} {rule : Option Rule} {node : CompiledNode}

variable [Pattern.Library]

/-- The rule of `contains`, by what its node has beside it. -/
theorem contains_of_keywordRule (hregistry : c.registry = .default)
    (h : c.keywordRule g id n d "contains" value = .ok rule) :
    ∃ schema fewest most, n.ContainsWith schema fewest most ∧
      rule = some (.assertion (Check.contains schema (fewest.getD 1) most).run) := by
  obtain ⟨check, hcheck, rfl⟩ := check_of_keywordRule hregistry (by decide) rfl h
  obtain ⟨fewest, hfewest, hcheck⟩ := bind_eq_ok.mp hcheck
  obtain ⟨most, hmost, hcheck⟩ := bind_eq_ok.mp hcheck
  obtain ⟨schema, hschema, rfl⟩ := bind_pure_eq_ok.mp hcheck
  exact ⟨schema, fewest, most, ⟨Occurrence.child?_of_subschema hschema,
    Builtin.siblingCount_eq_ok hfewest, Builtin.siblingCount_eq_ok hmost⟩, rfl⟩

/-- A node that has `contains` adds what the one check of its schema and its limits finds. -/
theorem adds_contains (hcompiled : c.compileNode g id n = .ok node)
    (hregistry : c.registry = .default) (hp : p.IsBuiltin)
    (hkeyword : n.hasKeyword "contains" = true) :
    ∃ schema fewest most, n.ContainsWith schema fewest most ∧ ∀ value f,
      node.Adds p "contains" value f
        ((Rule.assertion (Check.contains schema (fewest.getD 1) most).run).errors p.found
          "contains" value f) := by
  obtain ⟨d, _, hrules⟩ := keywordRules_of_compileNode hkeyword hcompiled
  obtain ⟨written, hwritten⟩ := Option.isSome_iff_exists.mp hkeyword
  obtain ⟨rule, hrule, _⟩ := keywordRule_of_mem hrules (mem_of_lookup hwritten)
  obtain ⟨schema, fewest, most, hwith, _⟩ := contains_of_keywordRule hregistry hrule
  refine ⟨schema, fewest, most, hwith, fun value f => ?_⟩
  refine adds_of_keywordRule hcompiled hp _ hkeyword (fun _ _ _ _ hrule => ?_) value f
  obtain ⟨schema', fewest', most', hwith', rfl⟩ := contains_of_keywordRule hregistry hrule
  obtain ⟨rfl, rfl, rfl⟩ := hwith.unique hwith'
  rfl

/-- **`contains` counts correctly where its limits do not contradict each other.** In a program of
    built-in keywords, a reached node with the keyword has a schema for it, and its limits are
    counts; without `minContains` the least number is one. On every array, in any frame, it reports
    too few items iff fewer pass than the least number, or the greatest number lies more than one
    below the least; otherwise too many iff more pass than the greatest number; otherwise nothing.
    In any case it accepts an array iff neither too few nor too many items pass. -/
theorem contains_counts {o : Options} (hp : (builtin o).compile g start = .ok p)
    (hid : id ∈ reached g start) (hn : g.node? id = some n)
    (hkeyword : n.hasKeyword "contains" = true) :
    ∃ node schema fewest most, p.nodes[id]? = some node ∧ n.ContainsWith schema fewest most ∧
      ∀ items f, items.length < 2 ^ 64 →
        node.Counts p schema (fewest.getD 1) most items f ∧
          (node.Adds p "contains" (.array items) f [] ↔
            fewest.getD 1 ≤ Check.passing p.found schema f items ∧
              ∀ limit, most = some limit → Check.passing p.found schema f items ≤ limit) := by
  obtain ⟨node, hcompiled, hnode⟩ := node_of_reached hp hid hn
  obtain ⟨schema, fewest, most, hwith, hadds⟩ :=
    adds_contains hcompiled rfl (isBuiltin_of_compile hp) hkeyword
  suffices hcounts : ∀ items f, items.length < 2 ^ 64 →
      node.Counts p schema (fewest.getD 1) most items f from
    ⟨node, schema, fewest, most, hnode, hwith, fun items f hlength =>
      ⟨hcounts items f hlength, (hcounts items f hlength).adds_nil_iff⟩⟩
  intro items f hlength
  refine ⟨fun h => ?few, fun limit hmost hlimits hleast hmany => ?many,
    fun hleast hmost => ?enough⟩
  case few => exact Check.errors_contains_few h ▸ hadds (.array items) f
  case many =>
    subst hmost
    exact Check.errors_contains_many hlength hlimits hleast hmany ▸ hadds (.array items) f
  case enough =>
    exact Check.errors_contains_enough hleast hwith.least_lt hmost ▸ hadds (.array items) f

end Compiler

/-- A schema that wants two or three of the items to be strings. -/
def twoOrThreeTexts : Json :=
  .object
    [("contains", .object [("type", .string "string")]), ("maxContains", .number (.ofNat 3)),
      ("minContains", .number (.ofNat 2))]

/-- The limits of that schema are the ones that are written. -/
theorem Compiler.contains_counts_twoOrThreeTexts :
    ∃ g p node schema, Graph.ofDocument twoOrThreeTexts = .ok g ∧
      (builtin .default).compile g g.root = .ok p ∧ p.nodes[g.root]? = some node ∧
      ∀ items f, items.length < 2 ^ 64 → node.Counts p schema 2 (some 3) items f := by
  have hall : ((Graph.ofDocument twoOrThreeTexts).toOption.any fun g =>
      ((builtin .default).compile g g.root).toOption.any fun _ =>
        (reached g g.root).contains g.root && (g.node? g.root).any fun n =>
          n.hasKeyword "contains" &&
            ((n.keyword? "minContains").map Builtin.asCount? == some (some 2) &&
              (n.keyword? "maxContains").map Builtin.asCount? == some (some 3))) = true := by
    decide +kernel
  obtain ⟨g, hg, hall⟩ := any_toOption_eq_true.mp hall
  obtain ⟨p, hp, hall⟩ := any_toOption_eq_true.mp hall
  obtain ⟨hreached, hall⟩ := Bool.and_eq_true_iff.mp hall
  obtain ⟨n, hn, hall⟩ := (Option.any_eq_true _ _).mp hall
  obtain ⟨hkeyword, hall⟩ := Bool.and_eq_true_iff.mp hall
  obtain ⟨hfewest, hmost⟩ := Bool.and_eq_true_iff.mp hall
  obtain ⟨node, schema, fewest, most, hnode, hwith, hcounts⟩ :=
    contains_counts hp (List.contains_iff_mem.mp hreached) hn hkeyword
  have hlimits : n.ContainsWith schema (some 2) (some 3) :=
    ⟨hwith.schema, beq_iff_eq.mp hfewest, beq_iff_eq.mp hmost⟩
  obtain ⟨-, rfl, rfl⟩ := hwith.unique hlimits
  exact ⟨g, p, node, schema, hg, hp, hnode, fun items f hlength => (hcounts items f hlength).1⟩

/-- A schema that wants at least three items, and at most one of them. -/
def atLeastThreeAtMostOne : Json :=
  .object
    [("contains", .bool true), ("maxContains", .number (.ofNat 1)),
      ("minContains", .number (.ofNat 3))]

/-- Three items that all pass are reported as fewer than three. -/
theorem Compiler.contains_calls_many_few :
    ∃ g p n schema, Graph.ofDocument atLeastThreeAtMostOne = .ok g ∧
      (builtin .default).compile g g.root = .ok p ∧ g.node? g.root = some n ∧
      n.ContainsWith schema (some 3) (some 1) ∧
      Check.passing p.found schema .root [.null, .null, .null] = 3 ∧
      (p.report false (.array [.null, .null, .null])).errors = [Check.tooFew .root 3] := by
  have hall : ((Graph.ofDocument atLeastThreeAtMostOne).toOption.any fun g =>
      ((builtin .default).compile g g.root).toOption.any fun p =>
        (g.node? g.root).any fun n => (n.child? "contains").any fun schema =>
          (n.keyword? "minContains").map Builtin.asCount? == some (some 3) &&
            ((n.keyword? "maxContains").map Builtin.asCount? == some (some 1) &&
              (Check.passing p.found schema .root [.null, .null, .null] == 3 &&
                (p.report false (.array [.null, .null, .null])).errors
                  == [Check.tooFew .root 3]))) = true := by
    decide +kernel
  obtain ⟨g, hg, hall⟩ := any_toOption_eq_true.mp hall
  obtain ⟨p, hp, hall⟩ := any_toOption_eq_true.mp hall
  obtain ⟨n, hn, hall⟩ := (Option.any_eq_true _ _).mp hall
  obtain ⟨schema, hschema, hall⟩ := (Option.any_eq_true _ _).mp hall
  simp only [Bool.and_eq_true, beq_iff_eq] at hall
  obtain ⟨hfewest, hmost, hpassing, herrors⟩ := hall
  exact ⟨g, p, n, schema, hg, hp, hn, ⟨hschema, hfewest, hmost⟩, hpassing, herrors⟩

end TaggedSchema
