import TaggedSchema.Proofs.DispatchAgreement
import TaggedSchema.Proofs.Provenance

/-!
# Schema locations of errors

The schema location of an error is not where a schema stands in a document but on which way it was
reached: the segments from the root of the schema on, through the target of each reference that was
followed. This file fixes how such segments are walked in a graph (`Graph.walk?`), and that in a
resolved graph the location of every error can be walked (`Compiler.schemaLocation_walks`). It ends
at a keyword that is written there, that of the error, or at the `false` schema itself, or where the
evaluation was nested too deeply.

The walk comes to the node of every evaluation: rules lead where the schema has their subschemas
(`Node.LeadsTo`), and each of their segments is one step of the walk (`walk?_of_leadsTo`).
-/

namespace TaggedSchema

/-! ## 1. Walking a schema -/

namespace Graph

/-- Where a walk stands: at a node, or among the subschemas under one of its keywords. -/
inductive Spot where
  | node (id : NodeId)
  | among (children : Children)

/-- One step of a walk. From a node `$ref` leads to the target of its reference, and any other
    keyword to what the node has under it, and to the subschema itself if there is just one. Among
    subschemas the segment is the index or the key of one of them. -/
def step? (g : Graph) : Spot → String → Option Spot
  | .node id, segment =>
    (g.node? id).bind fun n =>
      if segment = "$ref" then n.reference.map .node
      else
        (n.children? segment).map fun
          | .single child => .node child
          | children => .among children
  | .among (.list ids), segment => ((Pointer.index? segment).bind fun i => ids[i]?).map .node
  | .among (.map entries), segment => (entries.lookup segment).map .node
  | .among (.single _), _ => none

/-- Where the segments lead from a node. -/
def walk? (g : Graph) (start : NodeId) (segments : List String) : Option Spot :=
  segments.foldlM g.step? (.node start)

variable {g : Graph} {store : Store} {id start child : NodeId} {n : Node}
  {front segments : List String}

@[simp] theorem walk?_nil : g.walk? start [] = some (.node start) := rfl

/-- Walks are walked on from where they lead. -/
theorem walk?_append_of_eq_some (h : g.walk? start front = some (.node id)) :
    g.walk? start (front ++ segments) = g.walk? id segments := by
  unfold walk? at h
  unfold walk?
  rw [List.foldlM_append, h]
  rfl

namespace Resolved

variable [Uri.Library]

/-- A keyword with subschemas is no reference. -/
theorem ne_ref_of_children (h : g.Resolved store) (hn : g.node? id = some n) {name : String}
    {c : Children} (hc : n.children? name = some c) : name ≠ "$ref" := by
  rintro rfl
  obtain ⟨_, shape, _, _, hshape, _⟩ := h.children_spec hn (mem_of_lookup hc)
  have hnone : Structure.of? "$ref" = none := by decide
  rw [hnone] at hshape
  cases hshape

/-- Of named subschemas those of one name are one. -/
theorem lookup_of_mem_entries (h : g.Resolved store) (hn : g.node? id = some n) {name : String}
    {entries : List (String × NodeId)} (hc : n.children? name = some (.map entries)) {key : String}
    (hmem : (key, child) ∈ entries) : entries.lookup key = some child := by
  obtain ⟨_, _, places, _, _, _, hat⟩ := h.children_spec hn (mem_of_lookup hc)
  have hstands : ∀ entry ∈ entries,
      g.StandsAt entry.2 ((n.location.join name).join entry.1) := by
    cases places with
    | map keys => exact hat.2
    | _ => exact hat.elim
  have hsome : (entries.lookup key).isSome = true :=
    List.lookup_isSome_iff.mpr ⟨_, hmem, beq_self_eq_true key⟩
  obtain ⟨child', hchild'⟩ := Option.isSome_iff_exists.mp hsome
  have hsame : child' = child :=
    h.distinct child' child _ (hstands _ (mem_of_lookup hchild')) (hstands _ hmem)
  rw [hchild', hsame]

/-- **The segments that lead from a node to another are walked there.** -/
theorem walk?_of_leadsTo (h : g.Resolved store) (hn : g.node? id = some n)
    (hleads : n.LeadsTo segments child) : g.walk? id segments = some (.node child) := by
  cases hleads with
  | reference htarget => simp [walk?, step?, hn, htarget]
  | single hc =>
    have hname := h.ne_ref_of_children hn hc
    simp [walk?, step?, hn, hname, hc]
  | item hc hi =>
    have hname := h.ne_ref_of_children hn hc
    simp [walk?, step?, hn, hname, hc, Pointer.index?_repr, hi]
  | entry hc hmem =>
    have hname := h.ne_ref_of_children hn hc
    have hlookup := h.lookup_of_mem_entries hn hc hmem
    simp [walk?, step?, hn, hname, hc, hlookup]

end Resolved

end Graph

/-! ## 2. Keywords of errors -/

/-- **The schema location of an error is a way from a node**: to a keyword that is written at its
    end, which is that of the error; to the `false` schema; or to where the evaluation was nested
    too deeply. -/
inductive Graph.Traces (g : Graph) (start : NodeId) (maxDepth : Nat) (e : ValidationError) :
    Prop where
  | keyword {front : List String} {id : NodeId} {n : Node}
      (hlocation : e.schemaLocation.segments = front ++ [e.keyword])
      (hwalk : g.walk? start front = some (.node id)) (hn : g.node? id = some n)
      (hkeyword : n.hasKeyword e.keyword = true) : Traces g start maxDepth e
  | never {id : NodeId} {n : Node}
      (hwalk : g.walk? start e.schemaLocation.segments = some (.node id))
      (hn : g.node? id = some n) (hbody : n.bool? = some false) (hname : e.keyword = "false") :
      Traces g start maxDepth e
  | depth {id : NodeId} (hwalk : g.walk? start e.schemaLocation.segments = some (.node id))
      (hname : e.keyword = "$ref")
      (hmessage : e.message = "maximum evaluation depth (" ++ Nat.repr maxDepth ++ ") exceeded") :
      Traces g start maxDepth e

namespace Compiler

variable {c : Compiler} {g : Graph} {start id : NodeId} {p : Program} {n : Node}
  {node : CompiledNode} {k : CompiledKeyword}

/-- A rule that can hold comes from a keyword of its name. -/
theorem hasKeyword_of_ne_never (h : c.compileNode g id n = .ok node) (hk : k ∈ node.keywords)
    (hrule : k.rule ≠ .never) : n.hasKeyword k.name = true := by
  rcases keywordRule_of_compileNode h hk with hnever | ⟨_, _, _, hmem, _⟩
  · exact absurd hnever hrule
  · exact Node.hasKeyword_of_mem hmem

/-- What a rule reports is traced, if its node is reached by the way of the frame. -/
theorem traces_of_reports (hn : g.node? id = some n) (hcompiled : c.compileNode g id n = .ok node)
    (hk : k ∈ node.keywords) {f : Frame} {value : Json} {e : ValidationError}
    (hwalk : g.walk? start f.schemaPath.segments = some (.node id))
    (he : k.rule.Reports k.name value f e) : g.Traces start p.maxDepth e := by
  generalize hrule : k.rule = rule at he
  cases he with
  | never =>
    obtain ⟨hbody, hname⟩ := bool?_of_never hcompiled hk hrule
    exact .never hwalk hn hbody hname
  | own hnever =>
    exact .keyword rfl hwalk hn (hasKeyword_of_ne_never hcompiled hk (hrule ▸ hnever))
  | refused hrefuses =>
    obtain ⟨hkeyword, hlocation⟩ := hrefuses.at_discriminator
    refine .keyword ?_ hwalk hn ?_
    · rw [hkeyword, hlocation]
      rfl
    · rw [hkeyword]
      exact (analysed_of_dispatch hn hcompiled hk hrule).1

/-- The walk comes to the node of every evaluation. -/
theorem maintains_walk [Uri.Library] [Pattern.Library] {store : Store} (hg : g.Resolved store)
    (hc : c.registry.IsBuiltin) (hp : c.compile g start = .ok p) :
    p.Maintains (fun id _ f => g.walk? start f.schemaPath.segments = some (.node id))
      (g.Traces start p.maxDepth) where
  depth := fun id value f hwalk => .depth hwalk rfl rfl
  step := by
    intro id value f hwalk node hnode k hk
    obtain ⟨n, hn, _, hconfined⟩ := confined_of_compile hc hp hnode hk
    refine (hconfined value).mono fun segments r hr => ?_
    rw [Frame.moved_schemaPath, Graph.walk?_append_of_eq_some hwalk]
    exact hg.walk?_of_leadsTo hn hr.2
  report := by
    intro id value f hwalk node hnode k hk e he
    obtain ⟨n, hn, hcompiled, _⟩ := confined_of_compile hc hp hnode hk
    exact traces_of_reports hn hcompiled hk hwalk he

/-- **Schema locations are ways through the schema.** Walked from the node at which the evaluation
    starts, the schema location of every error leads to a keyword that is written there, and is the
    keyword of the error; only for the `false` schema and for an evaluation that is nested too
    deeply it leads to the node itself. -/
theorem schemaLocation_walks [Uri.Library] [Pattern.Library] (hc : c.registry.IsBuiltin)
    {store : Store} {root : String} (hg : Graph.resolve store root = .ok g)
    (hp : c.compile g start = .ok p) (failFast : Bool)
    (value : Json) : ∀ e ∈ (p.report failFast value).errors, g.Traces start c.options.maxDepth e := by
  obtain ⟨hresolved, _⟩ := Graph.resolved_of_resolve hg
  have hmaintains := maintains_walk hresolved hc hp
  obtain ⟨_, _, _, rfl⟩ := compile_eq_ok_iff.mp hp
  intro e he
  exact hmaintains.mem_report Graph.walk?_nil he

/-- A schema that refers to arrays of one string and nothing else. -/
def singles : Json :=
  .object
    [("definitions", .object
        [("single", .object
          [("additionalItems", .bool false),
            ("items", .array [.object [("type", .string "string")]])])]),
      ("properties", .object [("a", .object [("$ref", .string "#/definitions/single")])])]

/-- One error at a keyword and one at the `false` schema, both behind a reference. -/
theorem schemaLocation_walks_singles :
    ∃ g p, Graph.ofDocument singles = .ok g ∧ (builtin .default).compile g g.root = .ok p ∧
      (p.report false (.object [("a", .array [.null, .null])])).errors.map
          (fun e => (e.schemaLocation.segments, e.keyword))
        = [(["properties", "a", "$ref", "items", "0", "type"], "type"),
          (["properties", "a", "$ref", "additionalItems"], "false")] ∧
      ∀ e ∈ (p.report false (.object [("a", .array [.null, .null])])).errors,
        g.Traces g.root Options.default.maxDepth e := by
  have hall : ((Graph.ofDocument singles).toOption.any fun g =>
      ((builtin .default).compile g g.root).toOption.any fun p =>
        (p.report false (.object [("a", .array [.null, .null])])).errors.map
            (fun e => (e.schemaLocation.segments, e.keyword))
          == [(["properties", "a", "$ref", "items", "0", "type"], "type"),
            (["properties", "a", "$ref", "additionalItems"], "false")]) = true := by
    decide +kernel
  obtain ⟨g, hg, hall⟩ := any_toOption_eq_true.mp hall
  obtain ⟨p, hp, hall⟩ := any_toOption_eq_true.mp hall
  exact ⟨g, p, hg, hp, beq_iff_eq.mp hall,
    schemaLocation_walks Registry.isBuiltin_default hg hp false _⟩

end Compiler

end TaggedSchema
