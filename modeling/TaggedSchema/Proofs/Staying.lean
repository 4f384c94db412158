import TaggedSchema.Proofs.Nesting
import TaggedSchema.Proofs.Cycles

/-!
# Evaluations that stay at their place

An evaluation inside another stays at the place of the instance or descends, and the evaluator
counts only the first kind. Which kind it is, is decided by each keyword on its own. This file ties
the decision to the schema: staying, for the built-in keywords, is going along an edge of the graph
that is a reference or lies under one of eight keywords (`Graph.stays`), so the count of the
evaluator is the length of a path of such edges (`Compiler.stays_of_nests`).

On the way each check is assigned the keyword that is compiled to it (`Check.keyword`,
`Builtin.keyword_of_mem`).
-/

namespace TaggedSchema

/-! ## 1. The keywords of checks -/

/-- The keyword of a comparison. -/
def Comparison.keyword : Comparison → String
  | .atLeast => "minimum"
  | .atMost => "maximum"
  | .above => "exclusiveMinimum"
  | .below => "exclusiveMaximum"

/-- The keyword that is compiled to a check. -/
def Check.keyword : Check → String
  | .not _ => "not"
  | .conditional .. => "if"
  | .items .. => "items"
  | .tuple .. => "items"
  | .leadingItems _ => "prefixItems"
  | .contains .. => "contains"
  | .additionalProperties .. => "additionalProperties"
  | .patternProperties _ => "patternProperties"
  | .propertyNames _ => "propertyNames"
  | .dependentSchemas _ => "dependentSchemas"
  | .bound comparison _ _ => comparison.keyword
  | .multipleOf .. => "multipleOf"
  | .length (.least _) => "minLength"
  | .length (.most _) => "maxLength"
  | .pattern _ => "pattern"
  | .itemCount (.least _) => "minItems"
  | .itemCount (.most _) => "maxItems"
  | .propertyCount (.least _) => "minProperties"
  | .propertyCount (.most _) => "maxProperties"
  | .uniqueItems => "uniqueItems"

namespace Builtin

/-- Whatever a keyword is compiled to is a check of that name. -/
def Names (entry : String × (Occurrence → Except SchemaError (Option Check))) : Prop :=
  ∀ o check, entry.2 o = .ok (some check) → check.keyword = entry.1

/-- A keyword that reads something and makes a check of it. -/
theorem names_of_read {α : Type} {name : String}
    {compile : Occurrence → Except SchemaError (Option Check)}
    (read : Occurrence → Except SchemaError α) (make : Occurrence → α → Check)
    (h : ∀ o, compile o = (read o >>= fun a => pure (some (make o a))))
    (hmake : ∀ o a, (make o a).keyword = name) : Names (name, compile) := by
  intro o check hcheck
  have hread : (read o >>= fun a => pure (some (make o a))) = .ok (some check) := h o ▸ hcheck
  obtain ⟨a, _, he⟩ := bind_pure_eq_ok.mp hread
  cases he
  exact hmake o a

theorem names_passive (name : String) : Names (name, passive) := fun _ _ h => by cases h

theorem names_items : Names ("items", items) := by
  intro o check h
  dsimp only [items] at h
  split at h
  · cases h
    rfl
  · cases h
    rfl
  · cases h

theorem names_contains : Names ("contains", contains) := by
  intro o check h
  obtain ⟨_, _, h⟩ := bind_eq_ok.mp h
  obtain ⟨_, _, h⟩ := bind_eq_ok.mp h
  obtain ⟨_, _, he⟩ := bind_pure_eq_ok.mp h
  cases he
  rfl

theorem names_additionalProperties [Pattern.Library] : Names
    ("additionalProperties", additionalProperties) := by
  intro o check h
  obtain ⟨_, _, h⟩ := bind_eq_ok.mp h
  obtain ⟨_, _, he⟩ := bind_pure_eq_ok.mp h
  cases he
  rfl

theorem names_patternProperties [Pattern.Library] : Names
    ("patternProperties", patternProperties) := by
  intro o check h
  obtain ⟨_, _, h⟩ := bind_eq_ok.mp h
  obtain ⟨_, _, he⟩ := bind_pure_eq_ok.mp h
  cases he
  rfl

theorem names_conditional : Names ("if", conditional) := by
  intro o check h
  obtain ⟨_, _, h⟩ := bind_eq_ok.mp h
  split at h
  · cases h
  · cases h
    rfl

theorem names_multipleOf : Names ("multipleOf", multipleOf) := by
  intro o check h
  obtain ⟨_, _, h⟩ := bind_eq_ok.mp h
  split at h
  · cases h
  · cases h
    rfl

theorem names_pattern [Pattern.Library] : Names ("pattern", pattern) := by
  intro o check h
  dsimp only [pattern] at h
  split at h
  · split at h
    · cases h
      rfl
    · cases h
  · cases h

theorem names_format : Names ("format", format) := by
  intro o check h
  dsimp only [format] at h
  split at h <;> cases h

theorem names_uniqueItems : Names ("uniqueItems", uniqueItems) := by
  intro o check h
  dsimp only [uniqueItems] at h
  split at h
  · cases h
    rfl
  · cases h
  · cases h

theorem names_bound (comparison : Comparison) : Names (comparison.keyword, bound comparison) :=
  names_of_read number (fun o limit => .bound comparison limit.toBinary64 o.value.text)
    (fun _ => rfl) fun _ _ => rfl

/-- A keyword that makes a check of a count. -/
theorem names_of_count {name : String} {compile : Occurrence → Except SchemaError (Option Check)}
    (make : Nat → Check) (h : ∀ o, compile o = (count o >>= fun n => pure (some (make n))))
    (hmake : ∀ n, (make n).keyword = name) : Names (name, compile) :=
  names_of_read count (fun _ => make) h fun _ => hmake

/-- **Every check comes from the keyword of its name.** -/
theorem keyword_of_mem [Pattern.Library] {name : String}
    {compile : Occurrence → Except SchemaError (Option Check)} (hmem : (name, compile) ∈ keywords)
    {o : Occurrence} {check : Check} (h : compile o = .ok (some check)) : check.keyword = name := by
  have hall : ∀ entry ∈ keywords, Names entry := by
    simp only [keywords, List.forall_mem_cons]
    exact ⟨names_of_read Occurrence.subschema (fun _ => .not) (fun _ => rfl) fun _ _ => rfl,
      names_items,
      names_of_read Occurrence.subschemas (fun _ => .leadingItems) (fun _ => rfl) fun _ _ => rfl,
      names_passive _, names_contains, names_passive _, names_passive _,
      names_additionalProperties, names_patternProperties,
      names_of_read Occurrence.subschema (fun _ => .propertyNames) (fun _ => rfl) fun _ _ => rfl,
      names_of_read Occurrence.subschemaMap (fun _ => .dependentSchemas) (fun _ => rfl)
        fun _ _ => rfl,
      names_conditional, names_passive _, names_passive _, names_bound .atLeast,
      names_bound .atMost, names_bound .above, names_bound .below, names_multipleOf,
      names_of_count (fun n => .length (.least n)) (fun _ => rfl) fun _ => rfl,
      names_of_count (fun n => .length (.most n)) (fun _ => rfl) fun _ => rfl,
      names_pattern, names_format,
      names_of_count (fun n => .itemCount (.least n)) (fun _ => rfl) fun _ => rfl,
      names_of_count (fun n => .itemCount (.most n)) (fun _ => rfl) fun _ => rfl,
      names_of_count (fun n => .propertyCount (.least n)) (fun _ => rfl) fun _ => rfl,
      names_of_count (fun n => .propertyCount (.most n)) (fun _ => rfl) fun _ => rfl,
      names_uniqueItems, fun _ h => absurd h List.not_mem_nil⟩
  exact hall _ hmem o check h

end Builtin

/-! ## 2. Staying -/

/-- The keywords whose schemas are evaluated at the place of the keyword. -/
def inPlaceKeywords : List String :=
  ["allOf", "anyOf", "oneOf", "not", "if", "then", "else", "dependentSchemas"]

/-- The nodes that a node has evaluated at its own place: the target of its reference, and its
    children under the keywords in place. -/
def Node.stays (n : Node) : List NodeId :=
  n.reference.toList ++
    inPlaceKeywords.flatMap fun name => ((n.children? name).map Children.ids).getD []

/-- The edges of a graph along which an evaluation stays at its place. -/
def Graph.stays (g : Graph) (id : NodeId) : List NodeId :=
  match g.node? id with
  | some n => n.stays
  | none => []

theorem Node.mem_stays_of_reference {n : Node} {target : NodeId} (h : n.reference = some target) :
    target ∈ n.stays :=
  List.mem_append_left _ (by rw [h]; exact List.mem_singleton.mpr rfl)

theorem Node.mem_stays_of_children {n : Node} {name : String} {c : Children} {id : NodeId}
    (hname : name ∈ inPlaceKeywords) (h : n.children? name = some c) (hid : id ∈ c.ids) :
    id ∈ n.stays := by
  refine List.mem_append_right _ (List.mem_flatMap.mpr ⟨name, hname, ?_⟩)
  rw [h]
  exact hid

theorem Node.mem_stays_of_childList {n : Node} {name : String} {ids : List NodeId} {i : Nat}
    {id : NodeId} (hname : name ∈ inPlaceKeywords) (h : n.childList? name = some ids)
    (hi : ids[i]? = some id) : id ∈ n.stays :=
  mem_stays_of_children hname (children?_of_childList? h) (List.mem_of_getElem? hi)

/-- What the segments below a keyword in place lead to, stays. -/
theorem Node.LeadsTo.mem_stays {n : Node} {name : String} {rest : List String} {id : NodeId}
    (h : n.LeadsTo (name :: rest) id) (hname : name ∈ inPlaceKeywords) : id ∈ n.stays := by
  cases h with
  | reference h => exact mem_stays_of_reference h
  | single h => exact mem_stays_of_children hname h (List.mem_singleton.mpr rfl)
  | item h hi => exact mem_stays_of_children hname h (List.mem_of_getElem? hi)
  | entry h hmem =>
    exact mem_stays_of_children hname h (List.mem_map_of_mem (f := fun entry => entry.2) hmem)

namespace Check

/-- The checks in place are those of keywords in place. -/
theorem InPlace.mem_keywords {c : Check} (h : c.InPlace) : c.keyword ∈ inPlaceKeywords := by
  cases c with
  | not schema => exact (by decide : "not" ∈ inPlaceKeywords)
  | conditional condition positive negative => exact (by decide : "if" ∈ inPlaceKeywords)
  | dependentSchemas entries => exact (by decide : "dependentSchemas" ∈ inPlaceKeywords)
  | _ => exact h.elim

/-- The schemas of a check in place stand under keywords in place. -/
theorem Offers.segmentsOf_inPlace {c : Check} {place : SchemaPlace} {id : NodeId}
    (h : c.Offers place id) (hc : c.InPlace) :
    ∃ name rest, Frame.segmentsOf c.keyword place = name :: rest ∧ name ∈ inPlaceKeywords := by
  cases place with
  | own segment =>
    cases segment with
    | none => exact ⟨c.keyword, [], rfl, hc.mem_keywords⟩
    | some segment => exact ⟨c.keyword, [segment], rfl, hc.mem_keywords⟩
  | sibling name =>
    refine ⟨name, [], rfl, ?_⟩
    cases h with
    | positive => decide
    | negative => decide
    | additional => exact hc.elim

end Check

/-! ## 3. Compiled nodes -/

namespace Compiler

variable {c : Compiler} {g : Graph} {start id : NodeId} {p : Program}

variable [Pattern.Library]

/-- What a keyword has evaluated at its own place, its node has there. -/
theorem mem_stays_of_request (hregistry : c.registry = .default) {n : Node}
    {d : Option Discriminator} {name : String} {written : Json} {rule : Rule}
    (hrule : c.keywordRule g id n d name written = .ok (some rule)) {value : Json}
    {segments : List String} {r : Request} (hr : rule.Requests name value segments r)
    (hsegment : r.segment = none) : r.schema ∈ n.stays := by
  rcases keywordRule_cases hrule with
    ⟨core, _, hcore⟩ | ⟨_, hnone⟩ | ⟨plugin, act, _, hplugin, hact, he⟩
  · cases hr with
    | property => cases hsegment
    | ref =>
      cases hcore with
      | ref h => exact Node.mem_stays_of_reference h
    | allOf hid =>
      cases hcore with
      | allOf h => exact Node.mem_stays_of_childList (by decide) h hid
    | anyOf hid =>
      cases hcore with
      | anyOf h => exact Node.mem_stays_of_childList (by decide) h hid
    | oneOf hid =>
      cases hcore with
      | oneOf h _ => exact Node.mem_stays_of_childList (by decide) h hid
    | dispatch hid =>
      cases hcore with
      | dispatch h _ => exact Node.mem_stays_of_childList (by decide) h hid
    | assertion => cases hcore
  · cases hnone
  · cases act with
    | none => cases he
    | some act =>
      cases he
      rw [hregistry] at hplugin
      obtain ⟨compile, check, hmem, hcheck, rfl⟩ := Registry.exists_check_of_find? hplugin hact
      have hname : check.keyword = name := Builtin.keyword_of_mem hmem hcheck
      cases hr with
      | assertion hr =>
        have hconfined : (check.run value).Confined (check.Evaluates value) :=
          (check.run_poses value).confined (fun _ _ h => h) fun _ h => h.evaluates
        obtain ⟨⟨_, hoffers⟩, hplace⟩ := Dialogue.Confined.of_requests hconfined hr
        obtain ⟨first, rest, hsegments, hfirst⟩ := hoffers.segmentsOf_inPlace (hplace hsegment)
        have hleads := Builtin.leadsOwn_of_mem hmem _ check hcheck _ _ hoffers
        rw [hname] at hsegments
        rw [hsegments] at hleads
        exact hleads.mem_stays hfirst

/-- **An evaluation inside another goes along an edge that stays**, one level deeper, or descends, to
    the first level. -/
theorem stays_of_nests (hregistry : c.registry = .default) (hp : c.compile g start = .ok p)
    {a b : Call} (h : p.Nests a b) :
    (b.node ∈ g.stays a.node ∧ b.frame.depth = a.frame.depth + 1) ∨ b.frame.depth = 0 := by
  cases h with
  | @request node k segments r hdepth hnode hk hr =>
    obtain ⟨_, n, hn, hcompiled⟩ := compileNode_of_keyword hp hnode hk
    dsimp only
    cases hsegment : r.segment with
    | some segment => exact Or.inr rfl
    | none =>
      refine Or.inl ⟨?_, rfl⟩
      rcases keywordRule_of_compileNode hcompiled hk with hnever | ⟨_, _, _, _, hrule⟩
      · rw [hnever] at hr
        cases hr
      · unfold Graph.stays
        rw [hn]
        exact mem_stays_of_request hregistry hrule hr hsegment

end Compiler

end TaggedSchema
