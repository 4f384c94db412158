import TaggedSchema.Proofs.Combinators
import TaggedSchema.Proofs.Transparency

/-!
# The evaluations that a keyword makes

`Program.errors` lists what an evaluation finds. This file lists what it has evaluated to find that:
the evaluations that lie directly inside it, in their order (`Rule.calls`, `Program.keywordCalls`).
They are those that an evaluator notes which answers as the evaluation does and writes down every
question (`Program.noting`): running the rules of a node with it changes nothing of what they
report, and it has noted just that list (`Program.step_noting`).

A keyword that passes on all that its evaluations find, in order, and nothing else, evaluates a list
of schemas (`CompiledNode.Evaluates`). That is what keywords are for that distribute the members of
an object or the items of an array over schemas.
-/

namespace TaggedSchema

/-! ## 1. Dialogues and rules -/

/-- The evaluations of a dialogue whose report is never full. -/
def Dialogue.calls (find : Finder) (keyword : String) (f : Frame) : Dialogue → List Call
  | .done => []
  | .report _ next => calls find keyword f next
  | .evaluate place request next =>
    let frame := f.requested keyword place request.segment
    ⟨request.schema, request.value, frame⟩ ::
      calls find keyword f (next (find request.schema request.value frame).isEmpty)
  | .test request next =>
    let frame := f.requested keyword (.own none) request.segment
    ⟨request.schema, request.value, frame⟩ ::
      calls find keyword f (next (find request.schema request.value frame).isEmpty)
  | .whenFull next => calls find keyword f (next false)
  | .locate next => calls find keyword f (next f.instancePath)
  | .note _ next => calls find keyword f next

namespace Rule

/-- The evaluations of the properties that are present. -/
def propertyCalls (f : Frame) (keyword : String) (members : List (String × Json))
    (entries : List (String × NodeId)) : List Call :=
  entries.filterMap fun entry => (members.lookup entry.1).map fun value =>
    ⟨entry.2, value, f.descended entry.1 [keyword, entry.1]⟩

/-- The evaluations of each schema of a list, from a position on. -/
def branchCalls (f : Frame) (keyword : String) (value : Json) (start : Nat)
    (schemas : List NodeId) : List Call :=
  (schemas.zipIdx start).map fun (schema, index) =>
    ⟨schema, value, f.nested [keyword, Nat.repr index]⟩

/-- Evaluations up to the first that finds nothing. -/
def untilHolds (find : Finder) : List Call → List Call
  | [] => []
  | c :: rest => c :: if (find c.node c.value c.frame).isEmpty then [] else untilHolds find rest

/-- The evaluation of the branch that the tag of an object selects. -/
def dispatchCalls (f : Frame) (keyword : String) (d : Discriminator) (branches : List NodeId)
    (value : Json) : List Call :=
  match ((value.get? d.property).bind Tag.ofJson?).bind d.branchFor? with
  | some index =>
    (branches[index]?.map fun branch => ⟨branch, value, f.nested [keyword, Nat.repr index]⟩).toList
  | none => []

/-- What a keyword has evaluated on a value. -/
def calls (find : Finder) (keyword : String) (value : Json) (f : Frame) : Rule → List Call
  | properties entries =>
    match value with
    | .object members => propertyCalls f keyword members entries
    | _ => []
  | ref target => [⟨target, value, f.nested [keyword]⟩]
  | allOf schemas => branchCalls f keyword value 0 schemas
  | anyOf schemas => untilHolds find (branchCalls f keyword value 0 schemas)
  | oneOf branches => branchCalls f keyword value 0 branches
  | dispatch d branches _ => dispatchCalls f keyword d branches value
  | assertion act => (act value).calls find keyword f
  | _ => []

end Rule

/-- What the keywords of a node have evaluated, one after another. -/
def Program.keywordCalls (find : Finder) (value : Json) (f : Frame)
    (keywords : List CompiledKeyword) : List Call :=
  keywords.flatMap fun keyword => keyword.rule.calls find keyword.name value f

/-! ## 2. Noting them -/

/-- The evaluator that answers as the evaluation does, and notes what it is asked. -/
def Program.noting (p : Program) : Evaluator (StateM (List Call)) := fun id value f out => do
  modify (· ++ [⟨id, value, f⟩])
  pure (p.settled id value f out)

/-- A computation has the result of another, and notes some evaluations on its way. -/
def Notes {α : Type} (x : StateM (List Call) α) (y : Id α) (calls : List Call) : Prop :=
  ∀ log, x log = (y, log ++ calls)

namespace Notes

variable {α β : Type} {x : StateM (List Call) α} {y : Id α} {calls more : List Call}

protected theorem pure (a : α) : Notes (pure a) (pure a) [] := fun log => by
  rw [List.append_nil]
  rfl

protected theorem bind {k : α → StateM (List Call) β} {k' : α → Id β} (hx : Notes x y calls)
    (hk : Notes (k y) (k' y) more) : Notes (x >>= k) (y >>= k') (calls ++ more) := by
  intro log
  show k (x log).1 (x log).2 = _
  rw [hx log, ← List.append_assoc]
  exact hk _

/-- What is done last notes nothing more. -/
theorem bind_pure {k : α → StateM (List Call) β} {k' : α → Id β} (hx : Notes x y calls)
    (hk : Notes (k y) (k' y) []) : Notes (x >>= k) (y >>= k') calls :=
  List.append_nil calls ▸ hx.bind hk

theorem noting (p : Program) (id : NodeId) (value : Json) (f : Frame) (out : Report) :
    Notes (p.noting id value f out) (p.settled id value f out) [⟨id, value, f⟩] :=
  fun _ => rfl

end Notes

namespace Rule

variable {p : Program} {keyword : String} {value : Json} {f : Frame} {out : Report}

/-- Into a report, the settled evaluation adds something iff it finds something. -/
theorem size_settled (hp : p.IsBuiltin) (hout : out.failFast = false) (id : NodeId) (value : Json)
    (f : Frame) :
    ((p.settled id value f out).size == out.size) = (p.found id value f).isEmpty := by
  rw [Program.pushes_settled hp,
    Report.size_pushAll_beq (Report.isFull_eq_false_of_collecting hout)]

theorem isEmpty_settled (hp : p.IsBuiltin) (failFast : Bool) (id : NodeId) (value : Json)
    (f : Frame) :
    (p.settled id value f (.empty failFast)).isEmpty = (p.found id value f).isEmpty := by
  rw [Program.pushes_settled hp, Report.isEmpty_empty_pushAll]

/-- The settled evaluation leaves a report collecting. -/
theorem failFast_settled (hp : p.IsBuiltin) (hout : out.failFast = false) (id : NodeId)
    (value : Json) (f : Frame) : (p.settled id value f out).failFast = false := by
  rw [Program.pushes_settled hp, Report.failFast_pushAll, hout]

/-- **A dialogue notes its evaluations**, on a collecting report: by induction on the dialogue, the
    answers being those of a report that is never full. -/
theorem converse_noting (hp : p.IsBuiltin) (hout : out.failFast = false) (d : Dialogue) :
    Notes (converse (fun _ => pure ()) p.noting keyword f d out)
      (converse (fun _ => (pure () : Id Unit)) p.settled keyword f d out)
      (d.calls p.found keyword f) := by
  induction d generalizing out with
  | done => exact .pure out
  | report message next ih => exact ih (by rw [Report.failFast_push, hout])
  | evaluate place request next ih =>
    unfold Dialogue.calls
    dsimp only
    rw [← size_settled hp hout]
    exact (Notes.noting p _ _ _ out).bind (ih _ (failFast_settled hp hout _ _ _))
  | test request next ih =>
    unfold Dialogue.calls
    dsimp only
    rw [← isEmpty_settled hp true]
    exact (Notes.noting p _ _ _ _).bind (ih _ hout)
  | whenFull next ih =>
    unfold converse Dialogue.calls
    rw [Report.isFull_eq_false_of_collecting hout]
    exact ih _ hout
  | locate next ih => exact ih _ hout
  | note label next ih => exact (Notes.pure ()).bind (ih hout)

theorem runProperties_noting (hp : p.IsBuiltin) (hout : out.failFast = false)
    (members : List (String × Json)) (entries : List (String × NodeId)) :
    Notes (runProperties p.noting f keyword members entries out)
      (runProperties (m := Id) p.settled f keyword members entries out)
      (propertyCalls f keyword members entries) := by
  induction entries generalizing out with
  | nil => exact .pure out
  | cons entry rest ih =>
    obtain ⟨name, schema⟩ := entry
    unfold runProperties
    rw [Report.isFull_eq_false_of_collecting hout, propertyCalls, List.filterMap_cons]
    cases members.lookup name with
    | none => exact ih hout
    | some part =>
      exact (Notes.noting p _ _ _ out).bind (ih (failFast_settled hp hout _ _ _))

theorem runAll_noting (hp : p.IsBuiltin) (hout : out.failFast = false) (schemas : List NodeId)
    (start : Nat) :
    Notes (runAll p.noting f keyword value start schemas out)
      (runAll (m := Id) p.settled f keyword value start schemas out)
      (branchCalls f keyword value start schemas) := by
  induction schemas generalizing start out with
  | nil => exact .pure out
  | cons schema rest ih =>
    unfold runAll
    rw [Report.isFull_eq_false_of_collecting hout, branchCalls, List.zipIdx_cons, List.map_cons]
    exact (Notes.noting p _ _ _ out).bind (ih (failFast_settled hp hout _ _ _) _)

theorem tryUntil_noting (hp : p.IsBuiltin) (failFast : Bool) (schemas : List NodeId)
    (start : Nat) :
    Notes (tryUntil p.noting f keyword value (.empty failFast) start schemas)
      (tryUntil (m := Id) p.settled f keyword value (.empty failFast) start schemas)
      (untilHolds p.found (branchCalls f keyword value start schemas)) := by
  induction schemas generalizing start with
  | nil => exact .pure _
  | cons schema rest ih =>
    have hfirst :=
      Notes.noting p schema value (f.nested [keyword, Nat.repr start]) (.empty failFast)
    have hholds := isEmpty_settled hp failFast schema value (f.nested [keyword, Nat.repr start])
    unfold tryUntil
    rw [branchCalls, List.zipIdx_cons, List.map_cons, untilHolds, ← hholds]
    refine hfirst.bind ?_
    generalize p.settled schema value _ _ = apart
    show Notes (if apart.isEmpty then _ else _) (if apart.isEmpty then _ else _)
      (if apart.isEmpty then _ else _)
    split
    · exact .pure _
    · exact (ih (start + 1)).bind_pure (.pure _)

theorem tryAll_noting (failFast : Bool) (schemas : List NodeId) (start : Nat) :
    Notes (tryAll p.noting f keyword value (.empty failFast) start schemas)
      (tryAll (m := Id) p.settled f keyword value (.empty failFast) start schemas)
      (branchCalls f keyword value start schemas) := by
  induction schemas generalizing start with
  | nil => exact .pure _
  | cons schema rest ih =>
    unfold tryAll
    rw [branchCalls, List.zipIdx_cons, List.map_cons]
    exact (Notes.noting p _ _ _ _).bind ((ih (start + 1)).bind_pure (.pure _))

theorem runAnyOf_noting (hp : p.IsBuiltin) (schemas : List NodeId) :
    Notes (runAnyOf p.noting f keyword value schemas out)
      (runAnyOf (m := Id) p.settled f keyword value schemas out)
      (untilHolds p.found (branchCalls f keyword value 0 schemas)) := by
  refine (tryUntil_noting hp out.failFast schemas 0).bind_pure ?_
  generalize tryUntil (m := Id) _ _ _ _ _ _ _ = failures
  cases failures <;> exact .pure _

theorem runOneOf_noting (branches : List NodeId) :
    Notes (runOneOf p.noting f keyword value branches out)
      (runOneOf (m := Id) p.settled f keyword value branches out)
      (branchCalls f keyword value 0 branches) := by
  refine (tryAll_noting out.failFast branches 0).bind_pure ?_
  dsimp only
  split <;> exact .pure _

theorem runDispatch_noting (d : Discriminator) (branches : List NodeId) (typeChecked : Bool) :
    Notes (runDispatch p.noting f keyword d branches typeChecked value out)
      (runDispatch (m := Id) p.settled f keyword d branches typeChecked value out)
      (dispatchCalls f keyword d branches value) := by
  unfold runDispatch dispatchCalls
  cases value with
  | object members =>
    dsimp only [Json.get?]
    cases members.lookup d.property with
    | none => exact .pure _
    | some raw =>
      dsimp only [Option.bind_some]
      cases Tag.ofJson? raw with
      | none => exact .pure _
      | some tag =>
        dsimp only [Option.bind_some]
        cases d.branchFor? tag with
        | none => exact .pure _
        | some index =>
          dsimp only
          cases branches[index]? with
          | none => exact .pure _
          | some branch => exact .noting p _ _ _ out
  | _ => cases typeChecked <;> exact .pure _

/-- **A rule notes its evaluations**, on a collecting report. -/
theorem run_noting (hp : p.IsBuiltin) (hout : out.failFast = false) (rule : Rule) :
    Notes (rule.run (fun _ => pure ()) p.noting keyword value f out)
      (rule.run (fun _ => (pure () : Id Unit)) p.settled keyword value f out)
      (rule.calls p.found keyword value f) := by
  cases rule with
  | never => exact .pure _
  | type types => exact .pure _
  | const expected => exact .pure _
  | enum allowed => exact .pure _
  | required names => cases value <;> exact .pure _
  | properties entries =>
    cases value with
    | object members => exact runProperties_noting hp hout members entries
    | _ => exact .pure out
  | ref target => exact .noting p _ _ _ out
  | allOf schemas => exact runAll_noting hp hout schemas 0
  | anyOf schemas => exact runAnyOf_noting hp schemas
  | oneOf branches => exact runOneOf_noting branches
  | dispatch d branches typeChecked => exact runDispatch_noting d branches typeChecked
  | assertion act => exact converse_noting hp hout (act value)

end Rule

namespace Program

variable {p : Program} {value : Json} {f : Frame} {out : Report}

theorem runKeywords_noting (hp : p.IsBuiltin) (hout : out.failFast = false)
    (keywords : List CompiledKeyword) :
    Notes (runKeywords (fun _ => pure ()) p.noting value f keywords out)
      (runKeywords (fun _ => (pure () : Id Unit)) p.settled value f keywords out)
      (keywordCalls p.found value f keywords) := by
  induction keywords generalizing out with
  | nil => exact .pure out
  | cons k rest ih =>
    unfold runKeywords
    rw [Report.isFull_eq_false_of_collecting hout, keywordCalls, List.flatMap_cons]
    refine (Rule.run_noting hp hout k.rule).bind (ih ?_)
    rw [Rule.run_eq_pushAll (pushes_settled hp)]
    exact (Report.failFast_pushAll _ _).trans hout

/-- **An evaluation has evaluated what its keywords have evaluated**, and noting it changes
    nothing. -/
theorem step_noting (hp : p.IsBuiltin) {id : NodeId} {node : CompiledNode}
    (hnode : p.nodes[id]? = some node) (hdepth : f.depth ≤ p.maxDepth)
    (hout : out.failFast = false) :
    Notes (p.step (fun _ => pure ()) p.noting id value f out) (p.settled id value f out)
      (keywordCalls p.found value f node.keywords) := by
  rw [settled_eq_step hp]
  unfold step
  rw [if_neg (Nat.not_lt_of_le hdepth), if_neg (Nat.not_lt_of_le hdepth), hnode]
  exact runKeywords_noting hp hout node.keywords

end Program

/-! ## 3. Where they come from -/

theorem Dialogue.exists_request_of_mem_calls {find : Finder} {keyword : String} {f : Frame}
    {d : Dialogue} {c : Call} (h : c ∈ d.calls find keyword f) :
    ∃ place r, d.Requests place r ∧
      c = ⟨r.schema, r.value, f.requested keyword place r.segment⟩ := by
  induction d with
  | done => cases h
  | report message next ih => exact ih h
  | evaluate asked asking next ih =>
    rcases List.mem_cons.mp h with rfl | h
    · exact ⟨asked, asking, Or.inl ⟨rfl, rfl⟩, rfl⟩
    · obtain ⟨place, r, hr, hc⟩ := ih _ h
      exact ⟨place, r, Or.inr ⟨_, hr⟩, hc⟩
  | test asking next ih =>
    rcases List.mem_cons.mp h with rfl | h
    · exact ⟨.own none, asking, Or.inl ⟨rfl, rfl⟩, rfl⟩
    · obtain ⟨place, r, hr, hc⟩ := ih _ h
      exact ⟨place, r, Or.inr ⟨_, hr⟩, hc⟩
  | whenFull next ih =>
    obtain ⟨place, r, hr, hc⟩ := ih _ h
    exact ⟨place, r, ⟨_, hr⟩, hc⟩
  | locate next ih =>
    obtain ⟨place, r, hr, hc⟩ := ih _ h
    exact ⟨place, r, ⟨_, hr⟩, hc⟩
  | note label next ih => exact ih h

namespace Rule

variable {find : Finder} {keyword : String} {value : Json} {f : Frame}

theorem exists_of_mem_branchCalls {schemas : List NodeId} {c : Call}
    (h : c ∈ branchCalls f keyword value 0 schemas) :
    ∃ i id, schemas[i]? = some id ∧ c = ⟨id, value, f.nested [keyword, Nat.repr i]⟩ := by
  obtain ⟨⟨id, i⟩, hmem, rfl⟩ := List.mem_map.mp h
  exact ⟨i, id, List.mem_zipIdx_iff_getElem?.mp hmem, rfl⟩

theorem mem_of_mem_untilHolds {calls : List Call} {c : Call} (h : c ∈ untilHolds find calls) :
    c ∈ calls := by
  induction calls with
  | nil => exact h
  | cons first rest ih =>
    unfold untilHolds at h
    rcases List.mem_cons.mp h with rfl | h
    · exact List.mem_cons_self
    · split at h
      · cases h
      · exact List.mem_cons_of_mem _ (ih h)

/-- **A rule has evaluated what it requests**, and nothing else. -/
theorem exists_request_of_mem_calls {rule : Rule} {c : Call}
    (h : c ∈ rule.calls find keyword value f) :
    ∃ segments r, rule.Requests keyword value segments r ∧
      c = ⟨r.schema, r.value, f.moved segments r.segment⟩ := by
  cases rule with
  | properties entries =>
    cases value with
    | object members =>
      obtain ⟨⟨name, schema⟩, hentry, hc⟩ := List.mem_filterMap.mp h
      obtain ⟨part, hpart, rfl⟩ := Option.map_eq_some_iff.mp hc
      exact ⟨_, _, .property rfl hentry hpart, rfl⟩
    | _ => cases h
  | ref target =>
    cases List.mem_singleton.mp h
    exact ⟨_, _, .ref, rfl⟩
  | allOf schemas =>
    obtain ⟨i, id, hid, rfl⟩ := exists_of_mem_branchCalls h
    exact ⟨_, _, .allOf hid, rfl⟩
  | anyOf schemas =>
    obtain ⟨i, id, hid, rfl⟩ := exists_of_mem_branchCalls (mem_of_mem_untilHolds h)
    exact ⟨_, _, .anyOf hid, rfl⟩
  | oneOf branches =>
    obtain ⟨i, id, hid, rfl⟩ := exists_of_mem_branchCalls h
    exact ⟨_, _, .oneOf hid, rfl⟩
  | dispatch d branches typeChecked =>
    change c ∈ dispatchCalls f keyword d branches value at h
    unfold dispatchCalls at h
    split at h
    · next i _ =>
      obtain ⟨id, hid, rfl⟩ := Option.map_eq_some_iff.mp (Option.mem_toList.mp h)
      exact ⟨_, _, .dispatch hid, rfl⟩
    · cases h
  | assertion act =>
    obtain ⟨place, r, hr, rfl⟩ := Dialogue.exists_request_of_mem_calls h
    exact ⟨_, r, .assertion hr, by rw [Frame.requested_eq_moved]⟩
  | _ => cases h

end Rule

/-- The keywords that have parts of a value evaluated. -/
def descendingKeywords : Json → List String
  | .array _ => ["contains", "items", "prefixItems"]
  | .object _ => ["additionalProperties", "patternProperties", "properties", "propertyNames"]
  | _ => []

namespace Check

variable {c : Check} {value : Json} {place : SchemaPlace} {r : Request}

/-- A check in place never descends. -/
theorem segment_of_inPlace (hplace : c.InPlace) (h : (c.run value).Requests place r) :
    r.segment = none := by
  have hposes : (c.run value).Poses (fun _ r => r.segment = none) (fun r => r.segment = none) := by
    cases c with
    | not schema =>
      refine ⟨rfl, fun passed => ?_⟩
      cases passed <;> trivial
    | conditional condition positive negative =>
      refine ⟨rfl, fun passed => ?_⟩
      cases passed <;> exact poses_branch _ fun _ _ => rfl
    | dependentSchemas entries =>
      cases value with
      | object members =>
        exact Dialogue.poses_each fun _ _ _ hnext =>
          Dialogue.poses_ite (Dialogue.poses_check rfl hnext) hnext
      | _ => trivial
    | _ => exact hplace.elim
  exact Dialogue.Confined.of_requests (hposes.confined (fun _ _ h => h) fun _ h => h) h

/-- A check with schemas asks for them in place, or descends by its keyword, or has nothing to do
    with the value. -/
theorem inPlace_or_descends {id : NodeId} (h : c.Offers place id) (value : Json) :
    c.InPlace ∨ c.keyword ∈ descendingKeywords value ∨ c.run value = .done := by
  cases h <;> cases value <;> simp [InPlace, keyword, descendingKeywords, run]

/-- A check of another keyword never descends. -/
theorem segment_of_requests (hkeyword : c.keyword ∉ descendingKeywords value)
    (h : (c.run value).Requests place r) : r.segment = none := by
  obtain ⟨_, hoffers⟩ := Dialogue.Confined.of_requests (c.run_confined value) h
  rcases inPlace_or_descends hoffers value with hplace | hdescends | hdone
  · exact segment_of_inPlace hplace h
  · exact absurd hdescends hkeyword
  · rw [hdone] at h
    exact h.elim

end Check

/-- **A rule of another keyword never descends**: what it requests, it requests on the value
    itself. -/
theorem Compiler.stays_of_requests [Pattern.Library] {c : Compiler}
    (hregistry : c.registry = .default) {g : Graph} {id : NodeId} {n : Node}
    {d : Option Discriminator} {keyword : String} {written : Json}
    {rule : Rule} (hrule : c.keywordRule g id n d keyword written = .ok (some rule)) {value : Json}
    (hkeyword : keyword ∉ descendingKeywords value) {segments : List String} {r : Request}
    (hr : rule.Requests keyword value segments r) : r.segment = none ∧ r.value = value := by
  rcases keywordRule_cases hrule with
    ⟨core, hname, hcore⟩ | ⟨_, hnone⟩ | ⟨plugin, act, _, hplugin, hact, he⟩
  · cases hr with
    | property hvalue =>
      cases hcore
      cases name_of_ofName? hname
      subst hvalue
      simp [descendingKeywords, CoreKeyword.name] at hkeyword
    | assertion => cases hcore
    | _ => exact ⟨rfl, rfl⟩
  · cases hnone
  · cases act with
    | none => cases he
    | some act =>
      cases he
      rw [hregistry] at hplugin
      obtain ⟨compile, check, hmem, hcheck, rfl⟩ := Registry.exists_check_of_find? hplugin hact
      cases Builtin.keyword_of_mem hmem hcheck
      cases hr with
      | assertion hr =>
        have hsegment := Check.segment_of_requests hkeyword hr
        obtain ⟨hlocates, _⟩ := Dialogue.Confined.of_requests (check.run_confined value) hr
        unfold Request.Locates at hlocates
        rw [hsegment] at hlocates
        exact ⟨hsegment, hlocates⟩

/-! ## 4. Evaluating a list of schemas -/

/-- What is found in a list of evaluations, one after another. -/
def Program.foundIn (p : Program) (calls : List Call) : List ValidationError :=
  calls.flatMap fun c => p.found c.node c.value c.frame

/-- The dialogue has a list of schemas evaluated, and finds what they find. -/
def Dialogue.Checks (p : Program) (keyword : String) (f : Frame) (d : Dialogue)
    (calls : List Call) : Prop :=
  d.calls p.found keyword f = calls ∧ d.errors p.found keyword f = p.foundIn calls

namespace Dialogue.Checks

variable {p : Program} {keyword : String} {f : Frame} {next : Dialogue} {calls : List Call}

theorem done : Checks p keyword f .done [] := ⟨rfl, rfl⟩

theorem check {place : SchemaPlace} {r : Request} (h : next.Checks p keyword f calls) :
    (Dialogue.check place r next).Checks p keyword f
      (⟨r.schema, r.value, f.requested keyword place r.segment⟩ :: calls) := by
  obtain ⟨hcalls, herrors⟩ := h
  constructor
  · show _ :: next.calls p.found keyword f = _
    rw [hcalls]
  · show _ ++ next.errors p.found keyword f = _
    rw [herrors]
    rfl

theorem each_cons {α : Type} {step : α → Dialogue → Dialogue} {a : α} {rest : List α}
    (h : (step a (Dialogue.each step rest)).Checks p keyword f calls) :
    (Dialogue.each step (a :: rest)).Checks p keyword f calls := h

/-- Where each step has a list of schemas evaluated, all of them have one list after another. -/
theorem each {α : Type} {step : α → Dialogue → Dialogue} {own : α → List Call} {l : List α}
    (h : ∀ a ∈ l, ∀ next more, next.Checks p keyword f more →
      (step a next).Checks p keyword f (own a ++ more)) :
    (Dialogue.each step l).Checks p keyword f (l.flatMap own) := by
  induction l with
  | nil => exact .done
  | cons a rest ih =>
    obtain ⟨ha, hrest⟩ := List.forall_mem_cons.mp h
    exact each_cons (ha _ _ (ih hrest))

end Dialogue.Checks

namespace CompiledNode

variable {node : CompiledNode} {p : Program} {name : String} {value : Json} {f : Frame}
  {rule : Rule}

/-- The rules of a keyword. -/
def rulesOf (node : CompiledNode) (name : String) : List CompiledKeyword :=
  node.keywords.filter (·.name == name)

/-- What a keyword of the node has evaluated. -/
def callsOf (node : CompiledNode) (p : Program) (name : String) (value : Json) (f : Frame) :
    List Call :=
  Program.keywordCalls p.found value f (node.rulesOf name)

/-- What a keyword of the node has against a value. -/
def errorsOf (node : CompiledNode) (p : Program) (name : String) (value : Json) (f : Frame) :
    List ValidationError :=
  Program.keywordErrors p.found value f (node.rulesOf name)

/-- **A keyword of the node has a list of schemas evaluated**, in this order, and nothing else, and
    it has against the value what they find. -/
def Evaluates (node : CompiledNode) (p : Program) (name : String) (value : Json) (f : Frame)
    (calls : List Call) : Prop :=
  node.callsOf p name value f = calls ∧ node.errorsOf p name value f = p.foundIn calls

/-- What it means that the keywords of a node account for its evaluation, in a frame that is not too
    deep. Each keyword has at most one rule. What is found is what the keywords find, one after
    another. And an evaluator that notes what it is asked has noted, when the evaluation has gone
    through, what the keywords have evaluated, and has changed nothing of the report. -/
structure Accounts (node : CompiledNode) (p : Program) (id : NodeId) : Prop where
  once : (node.keywords.map (·.name)).Nodup
  found : ∀ value f, f.depth ≤ p.maxDepth → p.found id value f
    = (node.keywords.map (·.name)).flatMap fun name => node.errorsOf p name value f
  noted : ∀ value f out, f.depth ≤ p.maxDepth → out.failFast = false →
    Notes (p.step (fun _ => pure ()) p.noting id value f out) (p.settled id value f out)
      ((node.keywords.map (·.name)).flatMap fun name => node.callsOf p name value f)

/-- A keyword without a rule has nothing evaluated. -/
theorem evaluates_nil (h : node.rulesOf name = []) : node.Evaluates p name value f [] := by
  unfold Evaluates callsOf errorsOf
  rw [h]
  exact ⟨rfl, rfl⟩

theorem callsOf_singleton (h : node.rulesOf name = [⟨name, rule⟩]) :
    node.callsOf p name value f = rule.calls p.found name value f := by
  rw [callsOf, h]
  exact List.append_nil _

theorem errorsOf_singleton (h : node.rulesOf name = [⟨name, rule⟩]) :
    node.errorsOf p name value f = rule.errors p.found name value f := by
  rw [errorsOf, h]
  exact List.append_nil _

/-- Where no two rules have one name, the rules of a keyword are that keyword. -/
theorem rulesOf_of_mem (hnodup : (node.keywords.map (·.name)).Nodup) {k : CompiledKeyword}
    (hk : k ∈ node.keywords) : node.rulesOf k.name = [k] := by
  unfold rulesOf
  generalize node.keywords = keywords at hnodup hk
  induction keywords with
  | nil => cases hk
  | cons first rest ih =>
    obtain ⟨hfirst, hrest⟩ := List.nodup_cons.mp hnodup
    rcases List.mem_cons.mp hk with rfl | hk
    · have hnone : rest.filter (·.name == k.name) = [] :=
        List.filter_eq_nil_iff.mpr fun k' hk' hsame =>
          hfirst (List.mem_map.mpr ⟨k', hk', beq_iff_eq.mp hsame⟩)
      rw [List.filter_cons, if_pos (beq_self_eq_true _), hnone]
    · have hne : ¬(first.name == k.name) = true := fun hsame =>
        hfirst (List.mem_map.mpr ⟨k, hk, (beq_iff_eq.mp hsame).symm⟩)
      rw [List.filter_cons, if_neg hne, ih hrest hk]

/-- Then all keywords have evaluated what each of them has. -/
theorem keywordCalls_eq (hnodup : (node.keywords.map (·.name)).Nodup) :
    Program.keywordCalls p.found value f node.keywords
      = (node.keywords.map (·.name)).flatMap fun name => node.callsOf p name value f := by
  rw [List.flatMap_map]
  refine List.flatMap_congr fun k hk => ?_
  exact (callsOf_singleton (rulesOf_of_mem hnodup hk)).symm

/-- And what all keywords have against a value is what each of them has. -/
theorem keywordErrors_eq (hnodup : (node.keywords.map (·.name)).Nodup) :
    Program.keywordErrors p.found value f node.keywords
      = (node.keywords.map (·.name)).flatMap fun name => node.errorsOf p name value f := by
  rw [List.flatMap_map]
  refine List.flatMap_congr fun k hk => ?_
  exact (errorsOf_singleton (rulesOf_of_mem hnodup hk)).symm

/-- A keyword has evaluated what its dialogue asks for. -/
theorem evaluates_of_checks {act : Assertion} {calls : List Call}
    (h : node.rulesOf name = [⟨name, .assertion act⟩])
    (hchecks : (act value).Checks p name f calls) : node.Evaluates p name value f calls :=
  ⟨(callsOf_singleton h).trans hchecks.1, (errorsOf_singleton h).trans hchecks.2⟩

end CompiledNode

namespace Compiler

variable {c : Compiler} {g : Graph} {id : NodeId} {n : Node} {d : Option Discriminator}
  {name : String} {written : Json} {keywords : List (String × Json)} {ks : List CompiledKeyword}
  {node : CompiledNode}

theorem filter_keywordRules_of_not_mem (h : c.keywordRules g id n d keywords = .ok ks)
    (hname : name ∉ keywords.map (·.1)) : ks.filter (·.name == name) = [] := by
  refine List.filter_eq_nil_iff.mpr fun k hk hsame => hname ?_
  obtain ⟨value, hvalue, _⟩ := mem_of_keywordRules h hk
  exact List.mem_map.mpr ⟨_, hvalue, beq_iff_eq.mp hsame⟩

/-- Where each keyword is written once, its rules are those of its one value. -/
theorem filter_keywordRules (h : c.keywordRules g id n d keywords = .ok ks)
    (hnodup : (keywords.map (·.1)).Nodup) (hmem : (name, written) ∈ keywords) :
    ∃ rule, c.keywordRule g id n d name written = .ok rule ∧
      ks.filter (·.name == name) = (rule.map (⟨name, ·⟩)).toList := by
  induction keywords generalizing ks with
  | nil => cases hmem
  | cons entry rest ih =>
    obtain ⟨first, value⟩ := entry
    obtain ⟨rule, rules, hrule, hrules, rfl⟩ := keywordRules_cons.mp h
    obtain ⟨hfirst, hrest⟩ := List.nodup_cons.mp hnodup
    rw [List.filter_append]
    rcases List.mem_cons.mp hmem with he | hmem
    · cases he
      refine ⟨rule, hrule, ?_⟩
      rw [filter_keywordRules_of_not_mem hrules hfirst, List.append_nil]
      cases rule <;> simp
    · obtain ⟨found, hfound, hfilter⟩ := ih hrules hrest hmem
      have hne : first ≠ name := fun he => hfirst (List.mem_map.mpr ⟨_, hmem, he.symm⟩)
      refine ⟨found, hfound, ?_⟩
      rw [hfilter]
      cases rule <;> simp [hne]

/-- **The rules of a keyword that a node has**: one, or none. -/
theorem rulesOf_of_keyword (hcompiled : c.compileNode g id n = .ok node)
    (hnodup : (n.keywords.map (·.1)).Nodup) (hkeyword : n.hasKeyword name = true) :
    ∃ d written rule, c.keywordRule g id n d name written = .ok rule ∧
      node.rulesOf name = (rule.map (⟨name, ·⟩)).toList := by
  obtain ⟨d, _, hrules⟩ := keywordRules_of_compileNode hkeyword hcompiled
  obtain ⟨written, hwritten⟩ := Option.isSome_iff_exists.mp hkeyword
  obtain ⟨rule, hrule, hfilter⟩ := filter_keywordRules hrules hnodup (mem_of_lookup hwritten)
  exact ⟨d, written, rule, hrule, hfilter⟩

/-- A node has no rules of a keyword that it does not have. -/
theorem rulesOf_of_no_keyword (hcompiled : c.compileNode g id n = .ok node) (hname : name ≠ "false")
    (hkeyword : n.hasKeyword name = false) : node.rulesOf name = [] := by
  refine List.filter_eq_nil_iff.mpr fun k hk hsame => ?_
  cases beq_iff_eq.mp hsame
  rcases keywordRule_of_compileNode hcompiled hk with hnever | ⟨_, _, _, hwritten, _⟩
  · exact hname (bool?_of_never hcompiled hk hnever).2
  · rw [Node.hasKeyword_of_mem hwritten] at hkeyword
    cases hkeyword

/-- What a keyword of a node has evaluated, one of its rules requests. -/
theorem exists_request_of_mem_callsOf (hcompiled : c.compileNode g id n = .ok node) {p : Program}
    {value : Json} {f : Frame} {a : Call} (ha : a ∈ node.callsOf p name value f) :
    ∃ d written rule segments r, c.keywordRule g id n d name written = .ok (some rule) ∧
      rule.Requests name value segments r ∧
      a = ⟨r.schema, r.value, f.moved segments r.segment⟩ := by
  obtain ⟨k, hk, hcall⟩ := List.mem_flatMap.mp ha
  obtain ⟨hmem, hname⟩ := List.mem_filter.mp hk
  cases beq_iff_eq.mp hname
  obtain ⟨segments, r, hr, rfl⟩ := Rule.exists_request_of_mem_calls hcall
  rcases keywordRule_of_compileNode hcompiled hmem with hnever | ⟨d, written, _, _, hrule⟩
  · rw [hnever] at hr
    cases hr
  · exact ⟨d, written, k.rule, segments, r, hrule, hr, rfl⟩

/-- **The other keywords of a node stay at the place of the value.** -/
theorem stays_of_mem_callsOf [Pattern.Library] (hregistry : c.registry = .default)
    (hcompiled : c.compileNode g id n = .ok node) {p : Program} {value : Json} {f : Frame}
    (hname : name ∉ descendingKeywords value) {a : Call}
    (ha : a ∈ node.callsOf p name value f) :
    a.value = value ∧ a.frame.instancePath = f.instancePath := by
  obtain ⟨d, written, rule, segments, r, hrule, hr, rfl⟩ :=
    exists_request_of_mem_callsOf hcompiled ha
  obtain ⟨hsegment, hvalue⟩ := stays_of_requests hregistry hrule hname hr
  refine ⟨hvalue, ?_⟩
  rw [hsegment]
  rfl

theorem sublist_of_keywordRules (h : c.keywordRules g id n d keywords = .ok ks) :
    (ks.map (·.name)).Sublist (keywords.map (·.1)) := by
  induction keywords generalizing ks with
  | nil =>
    cases h
    exact .slnil
  | cons entry rest ih =>
    obtain ⟨rule, rules, _, hrules, rfl⟩ := keywordRules_cons.mp h
    cases rule with
    | none => exact (ih hrules).cons _
    | some rule => exact (ih hrules).cons_cons _

/-- Where each keyword is written once, a compiled node has at most one rule of a name. -/
theorem nodup_names (hcompiled : c.compileNode g id n = .ok node)
    (hnodup : (n.keywords.map (·.1)).Nodup) : (node.keywords.map (·.name)).Nodup := by
  unfold compileNode at hcompiled
  unfold Node.keywords at hnodup
  split at hcompiled
  next =>
    cases hcompiled
    exact .nil
  next =>
    cases hcompiled
    exact List.nodup_singleton _
  next keywords hbody =>
    obtain ⟨d, _, hcompiled⟩ := bind_eq_ok.mp hcompiled
    obtain ⟨rules, hrules, rfl⟩ := bind_pure_eq_ok.mp hcompiled
    rw [hbody] at hnodup
    exact (sublist_of_keywordRules hrules).nodup hnodup

/-- **The keywords of a node account for its evaluation.** -/
theorem accounts_of_compileNode (hcompiled : c.compileNode g id n = .ok node)
    (hnodup : (n.keywords.map (·.1)).Nodup) {p : Program} (hp : p.IsBuiltin)
    (hnode : p.nodes[id]? = some node) : node.Accounts p id := by
  have hnames := nodup_names hcompiled hnodup
  refine ⟨hnames, fun value f hdepth => ?_, fun value f out hdepth hout => ?_⟩
  · rw [Program.found_eq hp, if_neg (Nat.not_lt_of_le hdepth), hnode]
    exact CompiledNode.keywordErrors_eq hnames
  · rw [← CompiledNode.keywordCalls_eq hnames]
    exact Program.step_noting hp hnode hdepth hout

end Compiler

end TaggedSchema
