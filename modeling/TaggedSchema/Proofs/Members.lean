import Mathlib.Data.Multiset.Bind
import TaggedSchema.Proofs.Calls

/-!
# Members of objects

Three keywords give members of objects to schemas, by their names: `properties` by the name itself,
`patternProperties` by the patterns that it matches, and `additionalProperties` has the members that
the other two leave. Where its schema is `false`, it reports these members itself.

`Node.propertyPlaces`, `Node.patternPlaces` and `Node.additionalPlaces` say what the keywords have
for a name, and `Compiler.members_partitioned` that each of them has just these schemas evaluated,
on the members of that name. Which names a pattern matches is for the library of patterns to say,
of which nothing is assumed.
-/

namespace TaggedSchema

/-! ## 1. What keywords have for a name -/

/-- Whether a name matches a pattern as it is written. No name matches what is no pattern. -/
def Pattern.accepts [Pattern.Library] (pattern name : String) : Bool :=
  match Library.read pattern with
  | .ok isMatch => isMatch name
  | .error _ => false

namespace Node

/-- The patterns of `patternProperties`, with their schemas. -/
def patterns (n : Node) : List (String × NodeId) := (n.childMap? "patternProperties").getD []

variable [Pattern.Library]

/-- Whether `properties` declares a name, or a pattern matches it. -/
def names (n : Node) (name : String) : Bool :=
  (n.property? name).isSome || n.patterns.any fun entry => Pattern.accepts entry.1 name

/-- What `properties` has for a name: the schema that is declared, and the segments of its place
    below the node. -/
def propertyPlaces (n : Node) (name : String) : List (NodeId × List String) :=
  ((n.property? name).map (·, ["properties", name])).toList

/-- What `patternProperties` has for a name: the schemas of the patterns that it matches. -/
def patternPlaces (n : Node) (name : String) : List (NodeId × List String) :=
  (n.patterns.filter fun entry => Pattern.accepts entry.1 name).map fun entry =>
    (entry.2, ["patternProperties", entry.1])

/-- What `additionalProperties` has for a name: its schema, unless the other two name it. -/
def additionalPlaces (n : Node) (name : String) : List (NodeId × List String) :=
  if n.names name then []
  else ((n.child? "additionalProperties").map (·, ["additionalProperties"])).toList

end Node

/-- The evaluations of members by what there is for their names, in the order of the members: one
    for each schema that there is, of the value of the member, at its name. -/
def memberCalls (f : Frame) (given : String → List (NodeId × List String))
    (members : List (String × Json)) : List Call :=
  members.flatMap fun member => (given member.1).map fun place =>
    ⟨place.1, member.2, f.descended member.1 place.2⟩

theorem memberCalls_eq_nil {f : Frame} {given : String → List (NodeId × List String)}
    {members : List (String × Json)} (h : ∀ name, given name = []) :
    memberCalls f given members = [] :=
  List.flatMap_eq_nil_iff.mpr fun member _ => by rw [h, List.map_nil]

/-! ## 2. Properties -/

section Lookup

variable {α β γ : Type} {key : String}

/-- What is found under a key, by a pass over all entries. -/
theorem toList_map_lookup {entries : List (String × α)} (hnodup : (entries.map (·.1)).Nodup)
    (make : α → β) : ((entries.lookup key).map make).toList
      = entries.flatMap fun entry => if entry.1 = key then [make entry.2] else [] := by
  induction entries with
  | nil => rfl
  | cons entry rest ih =>
    obtain ⟨first, value⟩ := entry
    obtain ⟨hfirst, hrest⟩ := List.nodup_cons.mp hnodup
    rw [List.flatMap_cons]
    by_cases hkey : first = key
    · subst hkey
      have hothers :
          (rest.flatMap fun entry => if entry.1 = first then [make entry.2] else []) = [] :=
        List.flatMap_eq_nil_iff.mpr fun entry hentry =>
          if_neg fun he => hfirst (List.mem_map.mpr ⟨entry, hentry, he⟩)
      rw [List.lookup_cons_self, if_pos rfl, hothers]
      rfl
    · rw [List.lookup_cons, beq_eq_false_iff_ne.mpr (Ne.symm hkey), if_neg hkey, List.nil_append]
      exact ih hrest

/-- Two passes inside each other may be exchanged, but for the order. -/
theorem flatMap_comm_perm (l : List α) (more : List β) (make : α → β → List γ) :
    (l.flatMap fun a => more.flatMap fun b => make a b).Perm
      (more.flatMap fun b => l.flatMap fun a => make a b) := by
  have hcomm : ((l : Multiset α).bind fun a => (more : Multiset β).bind fun b => make a b)
      = (more : Multiset β).bind fun b => (l : Multiset α).bind fun a => (make a b : Multiset γ) :=
    Multiset.bind_bind _ _
  simp only [Multiset.coe_bind] at hcomm
  exact Multiset.coe_eq_coe.mp hcomm

end Lookup

namespace Rule

variable {p : Program} {f : Frame} {members : List (String × Json)}
  {entries : List (String × NodeId)}

/-- The evaluations of the properties that are present are those of the members that are declared,
    though they come in the order of the declarations. -/
theorem propertyCalls_perm (hmembers : (members.map (·.1)).Nodup)
    (hentries : (entries.map (·.1)).Nodup) :
    (propertyCalls f "properties" members entries).Perm
      (memberCalls f (fun name => ((entries.lookup name).map (·, ["properties", name])).toList)
        members) := by
  let call (name : String) (schema : NodeId) (value : Json) : Call :=
    ⟨schema, value, f.descended name ["properties", name]⟩
  -- both are passes over all pairs of an entry and a member, one the other way round
  have hdeclared : propertyCalls f "properties" members entries
      = entries.flatMap fun entry => members.flatMap fun member =>
        if member.1 = entry.1 then [call member.1 entry.2 member.2] else [] := by
    rw [propertyCalls, List.filterMap_eq_flatMap_toList]
    refine List.flatMap_congr fun entry _ => ?_
    rw [toList_map_lookup hmembers]
    refine List.flatMap_congr fun member _ => ?_
    split
    next he => rw [he]
    next => rfl
  have hpresent : memberCalls f
      (fun name => ((entries.lookup name).map (·, ["properties", name])).toList) members
      = members.flatMap fun member => entries.flatMap fun entry =>
        if member.1 = entry.1 then [call member.1 entry.2 member.2] else [] := by
    refine List.flatMap_congr fun member _ => ?_
    dsimp only
    rw [toList_map_lookup hentries, List.map_flatMap]
    refine List.flatMap_congr fun entry _ => ?_
    by_cases he : entry.1 = member.1
    · rw [if_pos he, if_pos he.symm]
      rfl
    · rw [if_neg he, if_neg (Ne.symm he)]
      rfl
  rw [hdeclared, hpresent]
  exact flatMap_comm_perm entries members _

theorem propertyErrors_eq : propertyErrors p.found f "properties" members entries
    = p.foundIn (propertyCalls f "properties" members entries) := by
  rw [Program.foundIn, propertyCalls, List.filterMap_eq_flatMap_toList, List.flatMap_assoc]
  refine List.flatMap_congr fun entry _ => ?_
  cases members.lookup entry.1 with
  | none => rfl
  | some value => exact (List.append_nil _).symm

end Rule

/-! ## 3. Patterns and what is left -/

namespace Builtin

variable {o : Occurrence} {entries : List (String × NodeId)} {name : String}

variable [Pattern.Library]

/-- A pattern is read from its text, and matches what the text matches. -/
theorem keyPattern_eq_ok {text : String} {q : NamedPattern}
    (h : keyPattern o text = .ok q) : q.text = text ∧
      ∀ name, q.isMatch name = Pattern.accepts text name := by
  unfold keyPattern at h
  unfold Pattern.accepts
  cases hread : Pattern.Library.read text with
  | error reason =>
    rw [hread] at h
    cases h
  | ok isMatch =>
    rw [hread] at h
    cases h
    exact ⟨rfl, fun _ => rfl⟩

theorem accepts_of_read {read : List (NamedPattern × NodeId)}
    (h : (entries.mapM fun entry => do return (← keyPattern o entry.1, entry.2)) = .ok read) :
    ∀ entry ∈ read, ∀ name, entry.1.isMatch name = Pattern.accepts entry.1.text name := by
  induction entries generalizing read with
  | nil =>
    cases h
    exact fun _ hmem => absurd hmem List.not_mem_nil
  | cons entry rest ih =>
    rw [List.mapM_cons] at h
    obtain ⟨first, hfirst, h⟩ := bind_eq_ok.mp h
    obtain ⟨more, hmore, rfl⟩ := bind_pure_eq_ok.mp h
    obtain ⟨q, hq, rfl⟩ := bind_pure_eq_ok.mp hfirst
    obtain ⟨htext, haccepts⟩ := keyPattern_eq_ok hq
    exact List.forall_mem_cons.mpr ⟨htext ▸ haccepts, ih hmore⟩

theorem any_isMatch_of_read {patterns : List NamedPattern}
    (h : (entries.mapM fun entry => keyPattern o entry.1) = .ok patterns) :
    patterns.any (·.isMatch name) = entries.any fun entry => Pattern.accepts entry.1 name := by
  induction entries generalizing patterns with
  | nil =>
    cases h
    rfl
  | cons entry rest ih =>
    rw [List.mapM_cons] at h
    obtain ⟨q, hq, h⟩ := bind_eq_ok.mp h
    obtain ⟨more, hmore, rfl⟩ := bind_pure_eq_ok.mp h
    rw [List.any_cons, List.any_cons, (keyPattern_eq_ok hq).2, ih hmore]

end Builtin

/-- The names that are declared are those under which something is declared. -/
theorem Node.contains_known (n : Node) (name : String) :
    (((n.childMap? "properties").getD []).map (·.1)).contains name = (n.property? name).isSome := by
  unfold property?
  cases n.childMap? "properties" with
  | none => rfl
  | some entries =>
    rw [Bool.eq_iff_iff, List.contains_iff_mem, Option.getD_some, Option.bind_some,
      ← not_iff_not, ← lookup_eq_none_iff, Option.not_isSome_iff_eq_none]

namespace Check

variable {p : Program} {f : Frame} {members : List (String × Json)}

/-- The pass over members and patterns has the schemas of the patterns that match evaluated. -/
theorem checks_patternProperties [Pattern.Library] {read : List (NamedPattern × NodeId)}
    {entries : List (String × NodeId)} (hentries : read.map (fun r => (r.1.text, r.2)) = entries)
    (hread : ∀ r ∈ read, ∀ name, r.1.isMatch name = Pattern.accepts r.1.text name) :
    ((patternProperties read).run (.object members)).Checks p "patternProperties" f
      (memberCalls f (fun name => (entries.filter fun entry => Pattern.accepts entry.1 name).map
        fun entry => (entry.2, ["patternProperties", entry.1])) members) := by
  let own (pair : (String × Json) × (NamedPattern × NodeId)) : List Call :=
    if pair.2.1.isMatch pair.1.1 then
      [⟨pair.2.2, pair.1.2, f.descended pair.1.1 ["patternProperties", pair.2.1.text]⟩]
    else []
  have hown : memberCalls f
      (fun name => (entries.filter fun entry => Pattern.accepts entry.1 name).map fun entry =>
        (entry.2, ["patternProperties", entry.1])) members
      = (members.flatMap fun member => read.map (member, ·)).flatMap own := by
    subst hentries
    rw [List.flatMap_assoc]
    refine List.flatMap_congr fun member _ => ?_
    induction read with
    | nil => rfl
    | cons r rest ih =>
      obtain ⟨hr, hrest⟩ := List.forall_mem_cons.mp hread
      rw [List.map_cons, List.map_cons, List.flatMap_cons, ← ih hrest]
      dsimp only [own]
      rw [hr, List.filter_cons]
      split <;> rfl
  rw [hown]
  refine .each fun pair _ next more hnext => ?_
  obtain ⟨⟨name, value⟩, q, schema⟩ := pair
  dsimp only [own, patternMember]
  split
  · exact hnext.check
  · exact hnext

variable [Pattern.Library] {n : Node} {schema : NodeId} {known : List String}
  {patterns : List NamedPattern}
  (hnames : ∀ name, (known.contains name || patterns.any (·.isMatch name)) = n.names name)

include hnames

/-- The pass over the members that nothing else names has them evaluated with the one schema. -/
theorem checks_additionalProperties :
    ((additionalProperties schema false known patterns).run (.object members)).Checks p
      "additionalProperties" f
      (memberCalls f (fun name => if n.names name then [] else [(schema, ["additionalProperties"])])
        members) := by
  refine .each fun member _ next more hnext => ?_
  unfold additionalMember
  dsimp only
  rw [hnames]
  cases n.names member.1 with
  | true => exact hnext
  | false => exact hnext.check

/-- Where no such member is allowed, they are reported, each of them, and nothing is evaluated. -/
theorem forbids_additional :
    let d := (additionalProperties schema true known patterns).run (.object members)
    d.calls p.found "additionalProperties" f = [] ∧
      d.errors p.found "additionalProperties" f
        = (members.filter fun member => !n.names member.1).map fun member =>
          f.error "additionalProperties"
            ("must NOT have additional property '" ++ member.1 ++ "'") := by
  induction members with
  | nil => exact ⟨rfl, rfl⟩
  | cons member rest ih =>
    dsimp only [run] at ih ⊢
    obtain ⟨hcalls, herrors⟩ := ih
    -- a report that is never full lets the pass go on with the next member
    rw [List.filter_cons]
    change (additionalMember schema true known patterns member _).calls _ _ _ = _ ∧
      (additionalMember schema true known patterns member _).errors _ _ _ = _
    unfold additionalMember
    rw [hnames]
    cases n.names member.1 with
    | true => exact ⟨hcalls, herrors⟩
    | false => exact ⟨hcalls, congrArg _ herrors⟩

end Check

/-! ## 4. Compiled nodes -/

/-- The schemas that a node has for members are there exactly where their keywords are written,
    under the keys that are written. -/
structure Node.HoldsMemberSchemas (n : Node) : Prop where
  properties : (n.childMap? "properties").isSome = n.hasKeyword "properties"
  patterns : (n.childMap? "patternProperties").isSome = n.hasKeyword "patternProperties"
  additional : (n.child? "additionalProperties").isSome = n.hasKeyword "additionalProperties"
  keys : ∀ name entries, n.childMap? name = some entries → ∃ written,
    n.keyword? name = some (.object written) ∧ entries.map (·.1) = written.map (·.1)

/-- The schema of `additionalProperties` is `false`. -/
def Graph.Forbids (g : Graph) (n : Node) : Prop :=
  ((n.child? "additionalProperties").bind fun schema => (g.node? schema).bind Node.bool?)
    = some false

/-- **How the members of an object are given to schemas** by the keywords of a compiled node. Each
    keyword has these schemas evaluated and nothing else, and what it has against the object is what
    they have against the members.

    Where the schema of `additionalProperties` is `false`, nothing is evaluated: the keyword reports
    each member for which it would have been, as the evaluations would find one error for each of
    them, and so it rejects the same objects.

    Apart from `propertyNames`, which looks at names, no other keyword looks into the object. -/
structure CompiledNode.PartitionsMembers [Pattern.Library] (node : CompiledNode) (p : Program)
    (g : Graph) (n : Node) (members : List (String × Json)) (f : Frame) : Prop where
  declared : ∃ calls, node.Evaluates p "properties" (.object members) f calls ∧
    calls.Perm (memberCalls f n.propertyPlaces members)
  matching : node.Evaluates p "patternProperties" (.object members) f
    (memberCalls f n.patternPlaces members)
  additional : ¬ g.Forbids n → node.Evaluates p "additionalProperties" (.object members) f
    (memberCalls f n.additionalPlaces members)
  forbidden : g.Forbids n →
    (node.callsOf p "additionalProperties" (.object members) f = [] ∧
      node.errorsOf p "additionalProperties" (.object members) f
        = (members.filter fun member => !n.names member.1).map fun member =>
          f.error "additionalProperties"
            ("must NOT have additional property '" ++ member.1 ++ "'")) ∧
    p.foundIn (memberCalls f n.additionalPlaces members)
      = (members.filter fun member => !n.names member.1).map fun member =>
        ⟨f.instancePath.join member.1, f.schemaPath.join "additionalProperties", "false",
          "boolean schema is false"⟩
  rejects : g.Forbids n →
    (node.errorsOf p "additionalProperties" (.object members) f = [] ↔
      p.foundIn (memberCalls f n.additionalPlaces members) = [])
  names : node.Evaluates p "propertyNames" (.object members) f
    ((n.child? "propertyNames").toList.flatMap fun schema => members.map fun member =>
      ⟨schema, .string member.1, f.descended member.1 ["propertyNames"]⟩)
  others : ∀ name,
    name ∉ ["additionalProperties", "patternProperties", "properties", "propertyNames"] →
    ∀ a ∈ node.callsOf p name (.object members) f,
      a.value = .object members ∧ a.frame.instancePath = f.instancePath

namespace Compiler

variable {c : Compiler} {store : Store} {g : Graph} {start id : NodeId} {p : Program} {n : Node}
  {d : Option Discriminator} {value : Json} {rule : Option Rule} {node : CompiledNode} {f : Frame}
  {members : List (String × Json)}

theorem properties_of_keywordRule [Pattern.Library]
    (h : c.keywordRule g id n d "properties" value = .ok rule) :
    ∃ entries, n.childMap? "properties" = some entries ∧ rule = some (.properties entries) := by
  cases coreRule_of_keywordRule .properties h with
  | properties hentries => exact ⟨_, hentries, rfl⟩

theorem patternProperties_of_keywordRule [Pattern.Library] (hregistry : c.registry = .default)
    (h : c.keywordRule g id n d "patternProperties" value = .ok rule) :
    ∃ entries read, n.childMap? "patternProperties" = some entries ∧
      read.map (fun r => (r.1.text, r.2)) = entries ∧
      (∀ r ∈ read, ∀ name, r.1.isMatch name = Pattern.accepts r.1.text name) ∧
      rule = some (.assertion (Check.patternProperties read).run) := by
  obtain ⟨check, hcheck, rfl⟩ := check_of_keywordRule hregistry (by decide) rfl h
  obtain ⟨entries, hentries, hcheck⟩ := bind_eq_ok.mp hcheck
  obtain ⟨read, hread, rfl⟩ := bind_pure_eq_ok.mp hcheck
  exact ⟨entries, read, Occurrence.childMap?_of_subschemaMap hentries,
    Builtin.map_text_of_read hread, Builtin.accepts_of_read hread, rfl⟩

/-- The rule of `additionalProperties` passes over the members that the other two keywords name. -/
theorem additionalProperties_of_keywordRule [Pattern.Library] (hregistry : c.registry = .default)
    (h : c.keywordRule g id n d "additionalProperties" value = .ok rule) :
    ∃ schema known patterns, n.child? "additionalProperties" = some schema ∧
      (∀ name, (known.contains name || patterns.any (·.isMatch name)) = n.names name) ∧
      rule = some (.assertion (Check.additionalProperties schema
        ((g.node? schema).bind Node.bool? == some false) known patterns).run) := by
  obtain ⟨check, hcheck, rfl⟩ := check_of_keywordRule hregistry (by decide) rfl h
  obtain ⟨schema, hschema, hcheck⟩ := bind_eq_ok.mp hcheck
  obtain ⟨patterns, hpatterns, rfl⟩ := bind_pure_eq_ok.mp hcheck
  refine ⟨schema, _, patterns, Occurrence.child?_of_subschema hschema, fun name => ?_, rfl⟩
  rw [Builtin.any_isMatch_of_read hpatterns]
  exact congrArg (· || _) (n.contains_known name)

theorem propertyNames_of_keywordRule [Pattern.Library] (hregistry : c.registry = .default)
    (h : c.keywordRule g id n d "propertyNames" value = .ok rule) :
    ∃ schema, n.child? "propertyNames" = some schema ∧
      rule = some (.assertion (Check.propertyNames schema).run) := by
  obtain ⟨check, hcheck, rfl⟩ := check_of_keywordRule hregistry (by decide) rfl h
  obtain ⟨schema, hschema, rfl⟩ := bind_pure_eq_ok.mp hcheck
  exact ⟨schema, Occurrence.child?_of_subschema hschema, rfl⟩

/-- The schema `false` has one thing against every value. -/
theorem found_of_false (hp : c.compile g start = .ok p) (hbuiltin : p.IsBuiltin)
    (hid : id ∈ reached g start) (hfalse : (g.node? id).bind Node.bool? = some false)
    (hdepth : f.depth ≤ p.maxDepth) :
    p.found id value f = [⟨f.instancePath, f.schemaPath, "false", "boolean schema is false"⟩] := by
  obtain ⟨m, hm, hbool⟩ := Option.bind_eq_some_iff.mp hfalse
  obtain ⟨node, hcompiled, hnode⟩ := node_of_reached hp hid hm
  have hbody : m.body = .bool false := by
    unfold Node.bool? at hbool
    split at hbool
    next b hb =>
      cases hbool
      exact hb
    next => cases hbool
  unfold compileNode at hcompiled
  rw [hbody] at hcompiled
  cases hcompiled
  rw [Program.found_eq hbuiltin, if_neg (Nat.not_lt_of_le hdepth), hnode]
  rfl

section Node

variable [Uri.Library] [Pattern.Library] (hg : g.Resolved store) (hstore : store.DistinctKeys)
  (hn : g.node? id = some n) (hcompiled : c.compileNode g id n = .ok node)
  (hregistry : c.registry = .default)

include hg hstore hn hcompiled

theorem evaluates_properties (hmembers : (members.map (·.1)).Nodup) :
    ∃ calls, node.Evaluates p "properties" (.object members) f calls ∧
      calls.Perm (memberCalls f n.propertyPlaces members) := by
  have hnodup := hg.nodup_keywords hstore hn
  cases hkeyword : n.hasKeyword "properties" with
  | true =>
    obtain ⟨d, written, rule, hrule, hrules⟩ := rulesOf_of_keyword hcompiled hnodup hkeyword
    obtain ⟨entries, hentries, rfl⟩ := properties_of_keywordRule hrule
    obtain ⟨_, _, _, hkeys⟩ := hg.keys_of_childMap? hstore hn hentries
    refine ⟨Rule.propertyCalls f "properties" members entries,
      ⟨CompiledNode.callsOf_singleton hrules, ?_⟩, ?_⟩
    · rw [CompiledNode.errorsOf_singleton hrules]
      exact Rule.propertyErrors_eq
    · unfold Node.propertyPlaces Node.property?
      rw [hentries]
      exact Rule.propertyCalls_perm hmembers hkeys
  | false =>
    refine ⟨[], CompiledNode.evaluates_nil
      (rulesOf_of_no_keyword hcompiled (by decide) hkeyword), ?_⟩
    have hnone (name : String) : n.propertyPlaces name = [] := by
      rw [Node.propertyPlaces, Node.property?, hg.childMap?_eq_none hn hkeyword]
      rfl
    rw [memberCalls_eq_nil hnone]

include hregistry

theorem evaluates_patternProperties : node.Evaluates p "patternProperties" (.object members) f
    (memberCalls f n.patternPlaces members) := by
  have hnodup := hg.nodup_keywords hstore hn
  cases hkeyword : n.hasKeyword "patternProperties" with
  | true =>
    obtain ⟨d, written, rule, hrule, hrules⟩ := rulesOf_of_keyword hcompiled hnodup hkeyword
    obtain ⟨entries, read, hentries, htexts, hread, rfl⟩ :=
      patternProperties_of_keywordRule hregistry hrule
    unfold Node.patternPlaces Node.patterns
    rw [hentries]
    exact CompiledNode.evaluates_of_checks hrules (Check.checks_patternProperties htexts hread)
  | false =>
    have hnone (name : String) : n.patternPlaces name = [] := by
      rw [Node.patternPlaces, Node.patterns, hg.childMap?_eq_none hn hkeyword]
      rfl
    rw [memberCalls_eq_nil hnone]
    exact CompiledNode.evaluates_nil (rulesOf_of_no_keyword hcompiled (by decide) hkeyword)

theorem evaluates_propertyNames : node.Evaluates p "propertyNames" (.object members) f
    ((n.child? "propertyNames").toList.flatMap fun schema => members.map fun member =>
      ⟨schema, .string member.1, f.descended member.1 ["propertyNames"]⟩) := by
  have hnodup := hg.nodup_keywords hstore hn
  cases hkeyword : n.hasKeyword "propertyNames" with
  | true =>
    obtain ⟨d, written, rule, hrule, hrules⟩ := rulesOf_of_keyword hcompiled hnodup hkeyword
    obtain ⟨schema, hschema, rfl⟩ := propertyNames_of_keywordRule hregistry hrule
    rw [hschema, Option.toList_some, List.flatMap_singleton, List.map_eq_flatMap]
    exact CompiledNode.evaluates_of_checks hrules (.each fun _ _ _ _ hnext => hnext.check)
  | false =>
    rw [hg.child?_eq_none hn hkeyword]
    exact CompiledNode.evaluates_nil (rulesOf_of_no_keyword hcompiled (by decide) hkeyword)

theorem evaluates_additionalProperties (hallowed : ¬ g.Forbids n) :
    node.Evaluates p "additionalProperties" (.object members) f
      (memberCalls f n.additionalPlaces members) := by
  have hnodup := hg.nodup_keywords hstore hn
  unfold Graph.Forbids at hallowed
  cases hkeyword : n.hasKeyword "additionalProperties" with
  | true =>
    obtain ⟨d, written, rule, hrule, hrules⟩ := rulesOf_of_keyword hcompiled hnodup hkeyword
    obtain ⟨schema, known, patterns, hschema, hnames, rfl⟩ :=
      additionalProperties_of_keywordRule hregistry hrule
    rw [hschema, Option.bind_some] at hallowed
    rw [beq_eq_false_iff_ne.mpr hallowed] at hrules
    unfold Node.additionalPlaces
    rw [hschema]
    exact CompiledNode.evaluates_of_checks hrules (Check.checks_additionalProperties hnames)
  | false =>
    have hnone (name : String) : n.additionalPlaces name = [] := by
      rw [Node.additionalPlaces, hg.child?_eq_none hn hkeyword]
      exact ite_self []
    rw [memberCalls_eq_nil hnone]
    exact CompiledNode.evaluates_nil (rulesOf_of_no_keyword hcompiled (by decide) hkeyword)

/-- The keyword reports the members that it forbids. -/
theorem forbids_of_compileNode (hforbids : g.Forbids n) :
    node.callsOf p "additionalProperties" (.object members) f = [] ∧
      node.errorsOf p "additionalProperties" (.object members) f
        = (members.filter fun member => !n.names member.1).map fun member =>
          f.error "additionalProperties"
            ("must NOT have additional property '" ++ member.1 ++ "'") := by
  obtain ⟨schema, hschema, hfalse⟩ := Option.bind_eq_some_iff.mp hforbids
  have hkeyword := hg.hasKeyword_of_children hn (Node.children?_of_child? hschema)
  obtain ⟨d, written, rule, hrule, hrules⟩ :=
    rulesOf_of_keyword hcompiled (hg.nodup_keywords hstore hn) hkeyword
  obtain ⟨schema', known, patterns, hschema', hnames, rfl⟩ :=
    additionalProperties_of_keywordRule hregistry hrule
  cases hschema.symm.trans hschema'
  rw [hfalse] at hrules
  obtain ⟨hcalls, herrors⟩ := Check.forbids_additional hnames
  exact ⟨(CompiledNode.callsOf_singleton hrules).trans hcalls,
    (CompiledNode.errorsOf_singleton hrules).trans herrors⟩

omit hstore hcompiled hregistry in
/-- The evaluation of the schema `false` on these members would find one error for each of them. -/
theorem foundIn_of_forbids (hp : c.compile g start = .ok p) (hbuiltin : p.IsBuiltin)
    (hid : id ∈ reached g start) (hforbids : g.Forbids n) :
    p.foundIn (memberCalls f n.additionalPlaces members)
      = (members.filter fun member => !n.names member.1).map fun member =>
        ⟨f.instancePath.join member.1, f.schemaPath.join "additionalProperties", "false",
          "boolean schema is false"⟩ := by
  obtain ⟨schema, hschema, hfalse⟩ := Option.bind_eq_some_iff.mp hforbids
  -- a start that is no node reaches nothing but itself
  have hstart : start < g.size := by
    by_contra hnot
    have hnone : g.node? start = none := Array.getElem?_eq_none (Nat.le_of_not_lt hnot)
    rw [reached_of_none hnone] at hid
    cases List.mem_singleton.mp hid
    cases hnone.symm.trans hn
  have hreached : schema ∈ reached g start :=
    mem_reached_of_child hg hstart hid hn (Node.children?_of_child? hschema) rfl
      (List.mem_singleton.mpr rfl)
  have hfound (value : Json) (name : String) :
      p.found schema value (f.descended name ["additionalProperties"])
        = [⟨f.instancePath.join name, f.schemaPath.join "additionalProperties", "false",
          "boolean schema is false"⟩] :=
    found_of_false hp hbuiltin hreached hfalse (Nat.zero_le _)
  rw [Program.foundIn, memberCalls, List.flatMap_assoc]
  unfold Node.additionalPlaces
  rw [hschema]
  induction members with
  | nil => rfl
  | cons member rest ih =>
    rw [List.flatMap_cons, ih, List.filter_cons]
    cases n.names member.1 with
    | true => rfl
    | false =>
      show (p.found schema member.2 (f.descended member.1 ["additionalProperties"]) ++ []) ++ _ = _
      rw [hfound]
      rfl

theorem partitionsMembers_of_compileNode (hp : c.compile g start = .ok p) (hbuiltin : p.IsBuiltin)
    (hid : id ∈ reached g start) (hmembers : (members.map (·.1)).Nodup) :
    node.PartitionsMembers p g n members f where
  declared := evaluates_properties hg hstore hn hcompiled hmembers
  matching := evaluates_patternProperties hg hstore hn hcompiled hregistry
  additional := evaluates_additionalProperties hg hstore hn hcompiled hregistry
  forbidden hforbids :=
    ⟨forbids_of_compileNode hg hstore hn hcompiled hregistry hforbids,
      foundIn_of_forbids hg hn hp hbuiltin hid hforbids⟩
  rejects hforbids := by
    rw [(forbids_of_compileNode hg hstore hn hcompiled hregistry hforbids).2,
      foundIn_of_forbids hg hn hp hbuiltin hid hforbids, List.map_eq_nil_iff, List.map_eq_nil_iff]
  names := evaluates_propertyNames hg hstore hn hcompiled hregistry
  others _ hname _ ha := stays_of_mem_callsOf hregistry hcompiled hname ha

/-- The schemas for members are there where their keywords are written. -/
theorem holdsMemberSchemas_of_compileNode : n.HoldsMemberSchemas := by
  have hnodup := hg.nodup_keywords hstore hn
  refine ⟨?properties, ?patterns, ?additional, ?keys⟩
  case properties =>
    refine Node.isSome_eq_hasKeyword (fun hkeyword => ?_) (hg.childMap?_eq_none hn)
    obtain ⟨d, written, rule, hrule, _⟩ := rulesOf_of_keyword hcompiled hnodup hkeyword
    obtain ⟨entries, hentries, _⟩ := properties_of_keywordRule hrule
    exact ⟨entries, hentries⟩
  case patterns =>
    refine Node.isSome_eq_hasKeyword (fun hkeyword => ?_) (hg.childMap?_eq_none hn)
    obtain ⟨d, written, rule, hrule, _⟩ := rulesOf_of_keyword hcompiled hnodup hkeyword
    obtain ⟨entries, _, hentries, _⟩ := patternProperties_of_keywordRule hregistry hrule
    exact ⟨entries, hentries⟩
  case additional =>
    exact Node.isSome_eq_hasKeyword (hg.exists_child_of_keyword hn rfl) (hg.child?_eq_none hn)
  case keys =>
    intro name entries hentries
    obtain ⟨written, hwritten, hkeys, _⟩ := hg.keys_of_childMap? hstore hn hentries
    exact ⟨written, hwritten, hkeys⟩

end Node

/-- **The members of objects are partitioned correctly.** In a program of built-in keywords,
    compiled from a store whose documents have distinct keys, at every reached node and for every
    object of distinct keys: a member is evaluated with the schema that `properties` declares for
    its name, once, if there is one; with the schema of each pattern of `patternProperties` that its
    name matches, once; and with the schema of `additionalProperties`, once, exactly if neither is
    the case. Where that schema is `false`, the keyword reports one error for each of these members
    instead, and so rejects the objects that the evaluations would reject. All these evaluations are
    at the name of their member. They are evaluations that a validation makes, and there are no
    others but those of keywords that stay at the object, and of names by `propertyNames`. -/
theorem members_partitioned [Uri.Library] [Pattern.Library] {o : Options} {root : String}
    (hg : Graph.resolve store root = .ok g) (hstore : store.DistinctKeys)
    (hp : (builtin o).compile g start = .ok p) :
    (∀ id ∈ reached g start, ∀ n, g.node? id = some n → ∃ node, p.nodes[id]? = some node ∧
      n.HoldsMemberSchemas ∧
      (∀ members f, (members.map (·.1)).Nodup → node.PartitionsMembers p g n members f) ∧
      node.Accounts p id) ∧
    p.settled = p.step (fun _ => pure ()) p.settled ∧
    ∀ value, p.report false value = p.settled p.root value .root (.empty false) := by
  have hbuiltin := isBuiltin_of_compile hp
  obtain ⟨hresolved, _⟩ := Graph.resolved_of_resolve hg
  refine ⟨fun id hid n hn => ?_, Program.settled_eq_step hbuiltin,
    Program.report_eq_settled hbuiltin false⟩
  obtain ⟨node, hcompiled, hnode⟩ := node_of_reached hp hid hn
  exact ⟨node, hnode, holdsMemberSchemas_of_compileNode hresolved hstore hn hcompiled rfl,
    fun members f hmembers =>
      partitionsMembers_of_compileNode hresolved hstore hn hcompiled rfl hp hbuiltin hid hmembers,
    accounts_of_compileNode hcompiled (hresolved.nodup_keywords hstore hn) hbuiltin hnode⟩

/-- Objects with a text under `name`, anything under the empty name, and nothing else. -/
def labelled : Json :=
  .object
    [("additionalProperties", .bool false),
      ("patternProperties", .object [("^$", .bool true)]),
      ("properties", .object [("name", .object [("type", .string "string")])])]

/-- A member of another name is reported, whatever its value is, and the other two are evaluated. -/
theorem members_partitioned_labelled :
    ∃ g p node, Graph.ofDocument labelled = .ok g ∧ (builtin .default).compile g g.root = .ok p ∧
      p.nodes[g.root]? = some node ∧ ∀ x y z f,
        node.callsOf p "properties" (.object [("", x), ("age", y), ("name", z)]) f
            = [⟨3, z, f.descended "name" ["properties", "name"]⟩] ∧
          node.callsOf p "patternProperties" (.object [("", x), ("age", y), ("name", z)]) f
            = [⟨2, x, f.descended "" ["patternProperties", "^$"]⟩] ∧
          node.errorsOf p "additionalProperties" (.object [("", x), ("age", y), ("name", z)]) f
            = [f.error "additionalProperties" "must NOT have additional property 'age'"] := by
  have hall : ((Graph.ofDocument labelled).toOption.any fun g =>
      ((builtin .default).compile g g.root).toOption.any fun _ => (g.node? g.root).any fun n =>
        decide (g.root ∈ reached g g.root ∧ n.childMap? "properties" = some [("name", 3)] ∧
          n.childMap? "patternProperties" = some [("^$", 2)] ∧
          n.child? "additionalProperties" = some 1 ∧
          (g.node? 1).bind Node.bool? = some false)) = true := by
    decide +kernel
  obtain ⟨g, hg, hall⟩ := any_toOption_eq_true.mp hall
  obtain ⟨p, hp, hall⟩ := any_toOption_eq_true.mp hall
  obtain ⟨n, hn, hall⟩ := (Option.any_eq_true _ _).mp hall
  obtain ⟨hroot, hproperties, hpatterns, hadditional, hfalse⟩ := of_decide_eq_true hall
  have hkeys : labelled.DistinctKeys := by
    have hbool (b : Bool) : (Json.bool b).DistinctKeys := Json.distinctKeys_of_scalar rfl rfl
    simp [labelled, hbool]
  have hforbids : g.Forbids n := by
    unfold Graph.Forbids
    rw [hadditional, Option.bind_some, hfalse]
  have hempty : Pattern.accepts "^$" "" = true := by decide +kernel
  have hage : Pattern.accepts "^$" "age" = false := by decide +kernel
  have hname : Pattern.accepts "^$" "name" = false := by decide +kernel
  obtain ⟨hnodes, _⟩ := members_partitioned hg (Store.distinctKeys_single hkeys) hp
  obtain ⟨node, hnode, _, hpartitions, _⟩ := hnodes _ hroot n hn
  refine ⟨g, p, node, hg, hp, hnode, fun x y z f => ?_⟩
  have hmembers := hpartitions [("", x), ("age", y), ("name", z)] f (by simp)
  refine ⟨?properties, ?patterns, ?additional⟩
  case properties =>
    obtain ⟨calls, ⟨hcalls, _⟩, hperm⟩ := hmembers.declared
    have hone : memberCalls f n.propertyPlaces [("", x), ("age", y), ("name", z)]
        = [⟨3, z, f.descended "name" ["properties", "name"]⟩] := by
      simp [memberCalls, Node.propertyPlaces, Node.property?, hproperties, List.lookup_cons]
    rw [hcalls]
    exact List.perm_singleton.mp (hone ▸ hperm)
  case patterns =>
    rw [hmembers.matching.1]
    simp [memberCalls, Node.patternPlaces, Node.patterns, hpatterns, hempty, hage, hname]
  case additional =>
    rw [(hmembers.forbidden hforbids).1.2]
    simp [Node.names, Node.property?, Node.patterns, hproperties, hpatterns, hempty, hage,
      List.lookup_cons]

end Compiler

end TaggedSchema
