import TaggedSchema.Proofs.Congruence
import Mathlib.Logic.Relation

/-!
# What an evaluation does not depend on

A rule has other nodes evaluated, and no others than those it holds (`Rule.Uses`); a keyword of a
host holds those that its dialogue asks for, whatever it is told. So the evaluation of a node
depends on the nodes to which rules lead from it (`Program.Leads`), step by step, and on nothing
else of the program but its limit of depth (`Program.evaluate_eq_of_agrees`).
-/

namespace TaggedSchema

/-! ## 1. The nodes that a rule uses -/

/-- The dialogue asks for a schema, after some answers. -/
def Dialogue.Asks (schema : NodeId) : Dialogue → Prop
  | .done => False
  | .report _ next => next.Asks schema
  | .evaluate _ request next =>
    request.schema = schema ∨ ∃ answer, (next answer).Asks schema
  | .test request next => request.schema = schema ∨ ∃ answer, (next answer).Asks schema
  | .whenFull next => ∃ answer, (next answer).Asks schema
  | .locate next => ∃ place, (next place).Asks schema
  | .note _ next => next.Asks schema

/-- The rule may have a node evaluated. -/
def Rule.Uses (id : NodeId) : Rule → Prop
  | .properties entries => ∃ entry ∈ entries, entry.2 = id
  | .ref target => target = id
  | .allOf schemas => id ∈ schemas
  | .anyOf schemas => id ∈ schemas
  | .oneOf branches => id ∈ branches
  | .dispatch _ branches _ => id ∈ branches
  | .assertion act => ∃ value, (act value).Asks id
  | _ => False

/-- A dialogue that asks only for schemas of a kind, seen from its requests. -/
theorem Dialogue.within_of_asks {kind : NodeId → Prop} {d : Dialogue}
    (h : ∀ id, d.Asks id → kind id) : d.Within fun r => kind r.schema := by
  induction d with
  | done => trivial
  | report message next ih => exact ih h
  | evaluate place request next ih =>
    exact ⟨h _ (Or.inl rfl), fun answer => ih answer fun id hid => h id (Or.inr ⟨answer, hid⟩)⟩
  | test request next ih =>
    exact ⟨h _ (Or.inl rfl), fun answer => ih answer fun id hid => h id (Or.inr ⟨answer, hid⟩)⟩
  | whenFull next ih => exact fun answer => ih answer fun id hid => h id ⟨answer, hid⟩
  | locate next ih => exact fun place => ih place fun id hid => h id ⟨place, hid⟩
  | note label next ih => exact ih h

/-- The same, seen from the schemas. -/
theorem Dialogue.Within.of_asks {kind : NodeId → Prop} {d : Dialogue}
    (h : d.Within fun r => kind r.schema) {id : NodeId} (hid : d.Asks id) : kind id := by
  induction d with
  | done => exact hid.elim
  | report message next ih => exact ih h hid
  | evaluate place request next ih =>
    rcases hid with rfl | ⟨answer, hid⟩
    · exact h.1
    · exact ih answer (h.2 answer) hid
  | test request next ih =>
    rcases hid with rfl | ⟨answer, hid⟩
    · exact h.1
    · exact ih answer (h.2 answer) hid
  | whenFull next ih =>
    obtain ⟨answer, hid⟩ := hid
    exact ih answer (h answer) hid
  | locate next ih =>
    obtain ⟨place, hid⟩ := hid
    exact ih place (h place) hid
  | note label next ih => exact ih h hid

/-- What a rule evaluates are nodes that it uses. -/
theorem Rule.within_uses (rule : Rule) (keyword : String) (value : Json) (f : Frame) :
    rule.Within (fun id _ _ => rule.Uses id) keyword value f := by
  cases rule with
  | properties entries => exact fun _ _ _ _ _ hentry _ => ⟨_, hentry, rfl⟩
  | ref target => exact rfl
  | allOf schemas => exact fun _ _ hschema => List.mem_of_getElem? hschema
  | anyOf schemas => exact fun _ _ hschema => List.mem_of_getElem? hschema
  | oneOf branches => exact fun _ _ hbranch => List.mem_of_getElem? hbranch
  | dispatch d branches typeChecked => exact fun _ _ hbranch => List.mem_of_getElem? hbranch
  | assertion act =>
    have hasks (id : NodeId) (hid : (act value).Asks id) : (Rule.assertion act).Uses id :=
      ⟨value, hid⟩
    exact Dialogue.Within.mono (fun _ hr _ => hr) (Dialogue.within_of_asks hasks)
  | _ => trivial

/-! ## 2. Programs that agree below a node -/

namespace Program

/-- A rule of the node uses the other. -/
def Leads (p : Program) (id next : NodeId) : Prop :=
  ∃ node, p.nodes[id]? = some node ∧ ∃ keyword ∈ node.keywords, keyword.rule.Uses next

/-- **The programs agree below a node**: they have the same limit of depth, and the same nodes
    wherever rules lead from it. What else they hold is arbitrary. -/
structure AgreesBelow (p p' : Program) (id : NodeId) : Prop where
  maxDepth : p'.maxDepth = p.maxDepth
  nodes : ∀ a, Relation.ReflTransGen p.Leads id a → p'.nodes[a]? = p.nodes[a]?

variable {p p' : Program} {id : NodeId}

theorem AgreesBelow.next (h : p.AgreesBelow p' id) {next : NodeId} (hleads : p.Leads id next) :
    p.AgreesBelow p' next :=
  ⟨h.maxDepth, fun a ha => h.nodes a (ha.head hleads)⟩

theorem AgreesBelow.depthError (h : p.AgreesBelow p' id) (f : Frame) :
    p'.depthError f = p.depthError f := by
  unfold Program.depthError
  rw [h.maxDepth]

/-- Programs that agree below a node find the same there. -/
theorem errors_eq_of_agrees (h : p.AgreesBelow p' id) (fuel : Nat) (value : Json) (f : Frame) :
    p'.errors fuel id value f = p.errors fuel id value f := by
  induction fuel generalizing id value f with
  | zero => exact congrArg ([·]) (h.depthError f)
  | succ fuel ih =>
    simp only [errors]
    rw [h.maxDepth, h.nodes id .refl, h.depthError]
    split
    · rfl
    · cases hnode : p.nodes[id]? with
      | none => rfl
      | some node =>
        refine keywordErrors_rel agreement_eq (List.forall₂_same.mpr fun keyword hk => ?_)
        refine Rule.errors_rel agreement_eq (fun next part f' huses => ?_)
          (keyword.rule.within_uses keyword.name value f)
        exact ih (h.next ⟨node, hnode, keyword, hk, huses⟩) part f'

/-- **The evaluation of a node depends on what is below it only.** -/
theorem evaluate_eq_of_agrees (h : p.AgreesBelow p' id) (fuel : Nat) (value : Json) (f : Frame)
    (out : Report) : p'.evaluate fuel id value f out = p.evaluate fuel id value f out := by
  rw [p'.evaluate_eq_pushAll, p.evaluate_eq_pushAll, errors_eq_of_agrees h]

end Program

end TaggedSchema
