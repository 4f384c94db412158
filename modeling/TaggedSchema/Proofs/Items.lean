import TaggedSchema.Proofs.Calls

/-!
# Items of arrays

Two keywords give items of arrays to schemas. `prefixItems` has one for each of the first indices.
`items` has one schema for all the indices behind them, or one for each of the first indices, and
then `additionalItems` is for those behind; that keyword does nothing by itself.

`Node.leadingPlace?` and `Node.itemPlace?` say what the two keywords have for an index, and
`Compiler.items_partitioned` that each of them has just these schemas evaluated: item by item, each
on the item at its index.
-/

namespace TaggedSchema

/-! ## 1. What keywords have for an index -/

/-- What a tuple has for an index: the schema of the index, or else the additional one, and the
    segments of its place below the node. -/
def tuplePlace? (schemas : List NodeId) (additional : Option NodeId) (i : Nat) :
    Option (NodeId × List String) :=
  match schemas[i]? with
  | some schema => some (schema, ["items", Nat.repr i])
  | none => additional.map (·, ["additionalItems"])

namespace Node

/-- The schemas of `prefixItems`. -/
def leading (n : Node) : List NodeId := (n.childList? "prefixItems").getD []

/-- What `prefixItems` has for an index: its schema, and the segments of its place. -/
def leadingPlace? (n : Node) (i : Nat) : Option (NodeId × List String) :=
  n.leading[i]?.map (·, ["prefixItems", Nat.repr i])

/-- What `items` has for an index: as a schema, itself for the indices that `prefixItems` leaves; as
    a tuple, the schema of the index, or else that of `additionalItems`, if there is one. -/
def itemPlace? (n : Node) (i : Nat) : Option (NodeId × List String) :=
  match n.children? "items" with
  | some (.single schema) => if i < n.leading.length then none else some (schema, ["items"])
  | some (.list schemas) => tuplePlace? schemas (n.child? "additionalItems") i
  | _ => none

end Node

/-- The evaluations of items by what there is for their indices, in the order of the items: none for
    an index for which there is nothing, and otherwise one, of the item, at its index. -/
def itemCalls (f : Frame) (given : Nat → Option (NodeId × List String))
    (items : List (Json × Nat)) : List Call :=
  items.filterMap fun item => (given item.2).map fun place =>
    ⟨place.1, item.1, f.descended (Nat.repr item.2) place.2⟩

section ItemCalls

variable {f : Frame} {given : Nat → Option (NodeId × List String)} {items : List (Json × Nat)}
  {item : Json × Nat} {place : NodeId × List String}

theorem itemCalls_eq_nil (h : ∀ item ∈ items, given item.2 = none) : itemCalls f given items = [] :=
  List.filterMap_eq_nil_iff.mpr fun item hitem => by rw [h item hitem, Option.map_none]

theorem itemCalls_cons_of_none (h : given item.2 = none) :
    itemCalls f given (item :: items) = itemCalls f given items :=
  List.filterMap_cons_none (by rw [h, Option.map_none])

theorem itemCalls_cons_of_some (h : given item.2 = some place) :
    itemCalls f given (item :: items)
      = ⟨place.1, item.1, f.descended (Nat.repr item.2) place.2⟩ :: itemCalls f given items :=
  List.filterMap_cons_some (by rw [h, Option.map_some])

/-- Where one schema is for all the items, each of them has it. -/
theorem itemCalls_of_all (h : ∀ item ∈ items, given item.2 = some place) :
    itemCalls f given items
      = items.flatMap fun item => [⟨place.1, item.1, f.descended (Nat.repr item.2) place.2⟩] := by
  rw [itemCalls, List.filterMap_eq_flatMap_toList]
  refine List.flatMap_congr fun item hitem => ?_
  rw [h item hitem]
  rfl

/-- The evaluations are at ascending indices, none of them twice. -/
theorem itemCalls_ascend (f : Frame) (given : Nat → Option (NodeId × List String))
    (list : List Json) :
    ∃ indices : List Nat, indices.Sublist (List.range list.length) ∧
      (itemCalls f given list.zipIdx).map (·.frame.instancePath)
        = indices.map fun i => f.instancePath.join (Nat.repr i) := by
  refine ⟨(list.zipIdx.filter fun item => (given item.2).isSome).map (·.2), ?_, ?_⟩
  · have hindices : list.zipIdx.map (·.2) = List.range list.length := by
      rw [List.zipIdx_map_snd, List.range_eq_range']
    exact hindices ▸ List.filter_sublist.map _
  · generalize list.zipIdx = items
    induction items with
    | nil => rfl
    | cons item rest ih =>
      cases hgiven : given item.2 with
      | none =>
        rw [itemCalls_cons_of_none hgiven, List.filter_cons_of_neg (by simp [hgiven]), ih]
      | some place =>
        rw [itemCalls_cons_of_some hgiven, List.filter_cons_of_pos (by simp [hgiven]),
          List.map_cons, List.map_cons, List.map_cons, ih]
        rfl

theorem lt_of_mem_take_zipIdx {list : List Json} {count : Nat}
    (h : item ∈ list.zipIdx.take count) : item.2 < count := by
  obtain ⟨i, hi, rfl⟩ := List.mem_take_iff_getElem.mp h
  rw [List.getElem_zipIdx]
  omega

theorem le_of_mem_drop_zipIdx {list : List Json} {count : Nat}
    (h : item ∈ list.zipIdx.drop count) : count ≤ item.2 := by
  obtain ⟨i, hi, rfl⟩ := List.mem_drop_iff_getElem.mp h
  rw [List.getElem_zipIdx]
  omega

/-- Where one schema is for all the indices from one on, and nothing before, the items from there on
    have it. -/
theorem itemCalls_from {start : Nat} (hbefore : ∀ i < start, given i = none)
    (hbehind : ∀ i, start ≤ i → given i = some place) (list : List Json) :
    itemCalls f given list.zipIdx = (list.zipIdx.drop start).flatMap fun item =>
      [⟨place.1, item.1, f.descended (Nat.repr item.2) place.2⟩] := by
  have hnothing : itemCalls f given (list.zipIdx.take start) = [] :=
    itemCalls_eq_nil fun item hitem => hbefore _ (lt_of_mem_take_zipIdx hitem)
  calc itemCalls f given list.zipIdx
    _ = itemCalls f given (list.zipIdx.take start ++ list.zipIdx.drop start) := by
        rw [List.take_append_drop]
    _ = itemCalls f given (list.zipIdx.take start) ++ itemCalls f given (list.zipIdx.drop start) :=
        List.filterMap_append
    _ = itemCalls f given (list.zipIdx.drop start) := by rw [hnothing, List.nil_append]
    _ = _ := itemCalls_of_all fun item hitem => hbehind _ (le_of_mem_drop_zipIdx hitem)

/-- Where there is one schema for each of the first indices, the items are paired with them, by
    induction on the items from any index on. -/
theorem itemCalls_zip (keyword : String) (schemas : List NodeId) (list : List Json) (k : Nat) :
    itemCalls f (fun i => schemas[i]?.map (·, [keyword, Nat.repr i])) (list.zipIdx k)
      = ((list.zipIdx k).zip (schemas.drop k)).flatMap fun item =>
        [⟨item.2, item.1.1, f.descended (Nat.repr item.1.2) [keyword, Nat.repr item.1.2]⟩] := by
  induction list generalizing k with
  | nil => rfl
  | cons item rest ih =>
    rw [List.zipIdx_cons]
    cases hget : schemas[k]? with
    | none =>
      -- the schemas are used up: `zip` has nothing more, and neither has any later index
      have hlength : schemas.length ≤ k := List.getElem?_eq_none_iff.mp hget
      rw [itemCalls_cons_of_none (by rw [hget, Option.map_none]), ih,
        List.drop_eq_nil_of_le hlength, List.drop_eq_nil_of_le (Nat.le_succ_of_le hlength),
        List.zip_nil_right, List.zip_nil_right]
    | some schema =>
      obtain ⟨hlt, rfl⟩ := List.getElem?_eq_some_iff.mp hget
      rw [itemCalls_cons_of_some (by rw [hget, Option.map_some]), ih,
        List.drop_eq_getElem_cons hlt, List.zip_cons_cons, List.flatMap_cons]
      rfl

end ItemCalls

/-! ## 2. The checks -/

namespace Check

variable {p : Program} {f : Frame}

/-- One schema for the items from an index on. -/
theorem checks_items (schema : NodeId) (skip : Nat) (list : List Json) :
    ((items schema skip).run (.array list)).Checks p "items" f
      (itemCalls f (fun i => if i < skip then none else some (schema, ["items"])) list.zipIdx) := by
  rw [itemCalls_from (fun i hi => if_pos hi) fun i hi => if_neg (Nat.not_lt_of_le hi)]
  exact .each fun item _ next more hnext => hnext.check

/-- One schema for each of the first items. -/
theorem checks_leadingItems (schemas : List NodeId) (list : List Json) :
    ((leadingItems schemas).run (.array list)).Checks p "prefixItems" f
      (itemCalls f (fun i => schemas[i]?.map (·, ["prefixItems", Nat.repr i])) list.zipIdx) := by
  rw [itemCalls_zip]
  exact .each fun item _ next more hnext => hnext.check

/-- A tuple, from any index on. Where its schemas are used up and there is no additional one, it
    ends at once, and there is nothing for any later index. -/
theorem checks_tuple (schemas : List NodeId) (additional : Option NodeId) (list : List Json)
    (k : Nat) :
    (Dialogue.each (tupleItem schemas additional) (list.zipIdx k)).Checks p "items" f
      (itemCalls f (tuplePlace? schemas additional) (list.zipIdx k)) := by
  induction list generalizing k with
  | nil => exact .done
  | cons item rest ih =>
    refine .each_cons ?_
    unfold tupleItem
    dsimp only
    cases hget : schemas[k]? with
    | some schema =>
      have hplace : tuplePlace? schemas additional k = some (schema, ["items", Nat.repr k]) := by
        rw [tuplePlace?, hget]
      rw [List.zipIdx_cons, itemCalls_cons_of_some hplace]
      exact (ih (k + 1)).check
    | none =>
      cases additional with
      | some schema =>
        have hplace : tuplePlace? schemas (some schema) k = some (schema, ["additionalItems"]) := by
          rw [tuplePlace?, hget, Option.map_some]
        rw [List.zipIdx_cons, itemCalls_cons_of_some hplace]
        exact (ih (k + 1)).check
      | none =>
        -- the step has dropped the rest of the items, so there must be nothing for any of them
        have hlength : schemas.length ≤ k := List.getElem?_eq_none_iff.mp hget
        rw [itemCalls_eq_nil]
        · exact .done
        · intro later hlater
          have hle := List.le_snd_of_mem_zipIdx hlater
          rw [tuplePlace?, List.getElem?_eq_none_iff.mpr (Nat.le_trans hlength hle),
            Option.map_none]

end Check

/-! ## 3. Compiled nodes -/

/-- The schemas that a node has for items are there exactly where their keywords are written. -/
structure Node.HoldsItemSchemas (n : Node) : Prop where
  leading : (n.childList? "prefixItems").isSome = n.hasKeyword "prefixItems"
  items : ((n.child? "items").isSome || (n.childList? "items").isSome) = n.hasKeyword "items"
  additional : (n.child? "additionalItems").isSome = n.hasKeyword "additionalItems"

/-- **How the items of an array are given to schemas** by the keywords of a compiled node. Each
    keyword has these schemas evaluated in the order of the items, and nothing else, and what it has
    against the array is what they have against the items. Apart from `contains`, no other keyword
    looks into the array. -/
structure CompiledNode.PartitionsItems (node : CompiledNode) (p : Program) (n : Node)
    (list : List Json) (f : Frame) : Prop where
  leading : node.Evaluates p "prefixItems" (.array list) f (itemCalls f n.leadingPlace? list.zipIdx)
  items : node.Evaluates p "items" (.array list) f (itemCalls f n.itemPlace? list.zipIdx)
  additional : node.Evaluates p "additionalItems" (.array list) f []
  ascending : ∀ name ∈ ["prefixItems", "items"], ∃ indices : List Nat,
    indices.Sublist (List.range list.length) ∧
      (node.callsOf p name (.array list) f).map (·.frame.instancePath)
        = indices.map fun i => f.instancePath.join (Nat.repr i)
  others : ∀ name, name ∉ ["contains", "items", "prefixItems"] →
    ∀ a ∈ node.callsOf p name (.array list) f,
      a.value = .array list ∧ a.frame.instancePath = f.instancePath

namespace Compiler

variable {c : Compiler} {store : Store} {g : Graph} {start id : NodeId} {p : Program} {n : Node}
  {d : Option Discriminator} {value : Json} {rule : Option Rule} {node : CompiledNode} {f : Frame}
  {list : List Json}

theorem leadingItems_of_keywordRule [Pattern.Library] (hregistry : c.registry = .default)
    (h : c.keywordRule g id n d "prefixItems" value = .ok rule) :
    ∃ schemas, n.childList? "prefixItems" = some schemas ∧
      rule = some (.assertion (Check.leadingItems schemas).run) := by
  obtain ⟨check, hcheck, rfl⟩ := check_of_keywordRule hregistry (by decide) rfl h
  obtain ⟨schemas, hschemas, rfl⟩ := bind_pure_eq_ok.mp hcheck
  exact ⟨schemas, Occurrence.childList?_of_subschemas hschemas, rfl⟩

/-- The rule of `items`, by the form in which it is written. -/
theorem items_of_keywordRule [Pattern.Library] (hregistry : c.registry = .default)
    (h : c.keywordRule g id n d "items" value = .ok rule) :
    (∃ schema, n.children? "items" = some (.single schema) ∧
      rule = some (.assertion (Check.items schema n.leading.length).run)) ∨
    ∃ schemas, n.children? "items" = some (.list schemas) ∧
      rule = some (.assertion (Check.tuple schemas (n.child? "additionalItems")).run) := by
  obtain ⟨check, hcheck, rfl⟩ := check_of_keywordRule hregistry (by decide) rfl h
  change Builtin.items _ = .ok check at hcheck
  unfold Builtin.items at hcheck
  split at hcheck
  next schema hschema =>
    cases hcheck
    exact .inl ⟨schema, hschema, rfl⟩
  next schemas hschemas =>
    cases hcheck
    exact .inr ⟨schemas, hschemas, rfl⟩
  next => cases hcheck

section Node

variable [Uri.Library] [Pattern.Library] (hg : g.Resolved store) (hn : g.node? id = some n)
  (hcompiled : c.compileNode g id n = .ok node) (hregistry : c.registry = .default)
  (hnodup : (n.keywords.map (·.1)).Nodup)

include hg hn hcompiled hregistry hnodup

theorem evaluates_prefixItems : node.Evaluates p "prefixItems" (.array list) f
    (itemCalls f n.leadingPlace? list.zipIdx) := by
  cases hkeyword : n.hasKeyword "prefixItems" with
  | true =>
    obtain ⟨d, written, rule, hrule, hrules⟩ := rulesOf_of_keyword hcompiled hnodup hkeyword
    obtain ⟨schemas, hschemas, rfl⟩ := leadingItems_of_keywordRule hregistry hrule
    have hleading : n.leading = schemas := by rw [Node.leading, hschemas, Option.getD_some]
    unfold Node.leadingPlace?
    rw [hleading]
    exact CompiledNode.evaluates_of_checks hrules (Check.checks_leadingItems schemas list)
  | false =>
    have hleading : n.leading = [] := by
      rw [Node.leading, hg.childList?_eq_none hn hkeyword, Option.getD_none]
    rw [itemCalls_eq_nil fun item _ => by rw [Node.leadingPlace?, hleading]; rfl]
    exact CompiledNode.evaluates_nil (rulesOf_of_no_keyword hcompiled (by decide) hkeyword)

theorem evaluates_items : node.Evaluates p "items" (.array list) f
    (itemCalls f n.itemPlace? list.zipIdx) := by
  unfold Node.itemPlace?
  cases hkeyword : n.hasKeyword "items" with
  | true =>
    obtain ⟨d, written, rule, hrule, hrules⟩ := rulesOf_of_keyword hcompiled hnodup hkeyword
    obtain ⟨schema, hschema, rfl⟩ | ⟨schemas, hschemas, rfl⟩ := items_of_keywordRule hregistry hrule
    · rw [hschema]
      exact CompiledNode.evaluates_of_checks hrules (Check.checks_items schema _ list)
    · rw [hschemas]
      exact CompiledNode.evaluates_of_checks hrules (Check.checks_tuple schemas _ list 0)
  | false =>
    rw [hg.children?_eq_none hn hkeyword, itemCalls_eq_nil fun _ _ => rfl]
    exact CompiledNode.evaluates_nil (rulesOf_of_no_keyword hcompiled (by decide) hkeyword)

omit [Uri.Library] hg hn in
/-- `additionalItems` does nothing by itself. -/
theorem evaluates_additionalItems : node.Evaluates p "additionalItems" value f [] := by
  refine CompiledNode.evaluates_nil ?_
  cases hkeyword : n.hasKeyword "additionalItems" with
  | true =>
    obtain ⟨d, written, rule, hrule, hrules⟩ := rulesOf_of_keyword hcompiled hnodup hkeyword
    cases passive_of_keywordRule hregistry (by decide) rfl hrule
    exact hrules
  | false => exact rulesOf_of_no_keyword hcompiled (by decide) hkeyword

theorem partitionsItems_of_compileNode : node.PartitionsItems p n list f := by
  have hleading : node.Evaluates p "prefixItems" (.array list) f _ :=
    evaluates_prefixItems hg hn hcompiled hregistry hnodup
  have hitems : node.Evaluates p "items" (.array list) f _ :=
    evaluates_items hg hn hcompiled hregistry hnodup
  refine ⟨hleading, hitems, evaluates_additionalItems hcompiled hregistry hnodup, ?_,
    fun name hname a ha => stays_of_mem_callsOf hregistry hcompiled hname ha⟩
  intro name hname
  simp only [List.mem_cons, List.not_mem_nil, or_false] at hname
  rcases hname with rfl | rfl
  · rw [hleading.1]
    exact itemCalls_ascend f _ list
  · rw [hitems.1]
    exact itemCalls_ascend f _ list

/-- The schemas for items are there where their keywords are written. -/
theorem holdsItemSchemas_of_compileNode : n.HoldsItemSchemas := by
  refine ⟨?leading, ?items, ?additional⟩
  case leading =>
    refine Node.isSome_eq_hasKeyword (fun hkeyword => ?_) (hg.childList?_eq_none hn)
    obtain ⟨d, written, rule, hrule, _⟩ := rulesOf_of_keyword hcompiled hnodup hkeyword
    obtain ⟨schemas, hschemas, _⟩ := leadingItems_of_keywordRule hregistry hrule
    exact ⟨schemas, hschemas⟩
  case items =>
    cases hkeyword : n.hasKeyword "items" with
    | true =>
      obtain ⟨d, written, rule, hrule, _⟩ := rulesOf_of_keyword hcompiled hnodup hkeyword
      unfold Node.child? Node.childList?
      obtain ⟨_, hschema, _⟩ | ⟨_, hschemas, _⟩ := items_of_keywordRule hregistry hrule
      · rw [hschema]
        rfl
      · rw [hschemas]
        rfl
    | false =>
      rw [hg.child?_eq_none hn hkeyword, hg.childList?_eq_none hn hkeyword]
      rfl
  case additional =>
    exact Node.isSome_eq_hasKeyword (hg.exists_child_of_keyword hn rfl) (hg.child?_eq_none hn)

end Node

/-- **The items of arrays are partitioned correctly.** In a program of built-in keywords, compiled
    from a store whose documents have distinct keys, at every reached node and for every array:
    `prefixItems` has each item whose index it has a schema for evaluated with it, once; `items` as
    a schema has the other items evaluated with it, once, and as a tuple each item with the schema
    of its index, or else with that of `additionalItems`, if it is written; and `additionalItems`
    does nothing by itself. All these evaluations are at the index of their item, in the order of
    the items. They are evaluations that a validation makes, and there are no others but those of
    keywords that stay at the array, and those of `contains`. -/
theorem items_partitioned [Uri.Library] [Pattern.Library] {o : Options} {root : String}
    (hg : Graph.resolve store root = .ok g) (hstore : store.DistinctKeys)
    (hp : (builtin o).compile g start = .ok p) :
    (∀ id ∈ reached g start, ∀ n, g.node? id = some n → ∃ node, p.nodes[id]? = some node ∧
      n.HoldsItemSchemas ∧ (∀ list f, node.PartitionsItems p n list f) ∧ node.Accounts p id) ∧
    p.settled = p.step (fun _ => pure ()) p.settled ∧
    ∀ value, p.report false value = p.settled p.root value .root (.empty false) := by
  have hbuiltin := isBuiltin_of_compile hp
  obtain ⟨hresolved, _⟩ := Graph.resolved_of_resolve hg
  refine ⟨fun id hid n hn => ?_, Program.settled_eq_step hbuiltin,
    Program.report_eq_settled hbuiltin false⟩
  have hnodup := hresolved.nodup_keywords hstore hn
  obtain ⟨node, hcompiled, hnode⟩ := node_of_reached hp hid hn
  exact ⟨node, hnode, holdsItemSchemas_of_compileNode hresolved hn hcompiled rfl hnodup,
    fun list f => partitionsItems_of_compileNode hresolved hn hcompiled rfl hnodup,
    accounts_of_compileNode hcompiled hnodup hbuiltin hnode⟩

/-- Rows of a text, a truth value, and then numbers, where the text is one of two. -/
def row : Json :=
  .object
    [("additionalItems", .object [("type", .string "number")]),
      ("items", .array
        [.object [("type", .string "string")], .object [("type", .string "boolean")]]),
      ("prefixItems", .array [.object [("enum", .array [.string "buy", .string "sell"])]])]

/-- The first item has two schemas, one of each keyword, and the third item the additional one. -/
theorem items_partitioned_row :
    ∃ g p node, Graph.ofDocument row = .ok g ∧ (builtin .default).compile g g.root = .ok p ∧
      p.nodes[g.root]? = some node ∧ ∀ x y z f,
        node.callsOf p "items" (.array [x, y, z]) f
            = [⟨2, x, f.descended "0" ["items", "0"]⟩, ⟨3, y, f.descended "1" ["items", "1"]⟩,
              ⟨1, z, f.descended "2" ["additionalItems"]⟩] ∧
          node.callsOf p "prefixItems" (.array [x, y, z]) f
            = [⟨4, x, f.descended "0" ["prefixItems", "0"]⟩] := by
  have hall : ((Graph.ofDocument row).toOption.any fun g =>
      ((builtin .default).compile g g.root).toOption.any fun _ => (g.node? g.root).any fun n =>
        decide (g.root ∈ reached g g.root ∧ n.children? "items" = some (.list [2, 3]) ∧
          n.child? "additionalItems" = some 1 ∧ n.childList? "prefixItems" = some [4])) = true := by
    decide +kernel
  obtain ⟨g, hg, hall⟩ := any_toOption_eq_true.mp hall
  obtain ⟨p, hp, hall⟩ := any_toOption_eq_true.mp hall
  obtain ⟨n, hn, hall⟩ := (Option.any_eq_true _ _).mp hall
  obtain ⟨hroot, hitems, hadditional, hleading⟩ := of_decide_eq_true hall
  have hkeys : row.DistinctKeys := by simp [row]
  have hzero : Nat.repr 0 = "0" := by decide
  have hone : Nat.repr 1 = "1" := by decide
  have htwo : Nat.repr 2 = "2" := by decide
  obtain ⟨hnodes, _⟩ := items_partitioned hg (Store.distinctKeys_single hkeys) hp
  obtain ⟨node, hnode, _, hpartitions, _⟩ := hnodes _ hroot n hn
  refine ⟨g, p, node, hg, hp, hnode, fun x y z f => ⟨?_, ?_⟩⟩
  · rw [(hpartitions [x, y, z] f).items.1]
    unfold Node.itemPlace?
    rw [hitems, hadditional]
    simp [itemCalls, tuplePlace?, hzero, hone, htwo]
  · rw [(hpartitions [x, y, z] f).leading.1]
    unfold Node.leadingPlace? Node.leading
    rw [hleading]
    simp [itemCalls, hzero]

end Compiler

end TaggedSchema
