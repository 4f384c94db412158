import TaggedSchema.Proofs.Provenance

/-!
# Evaluations inside each other

The evaluator runs the rules of a node, and the rules have other nodes evaluated. This file says
which evaluations lie directly inside another (`Program.Nests`) and that this is all there is: two
evaluators that correspond on the evaluations inside one make it correspond, in whatever monads they
run (`Program.step_corresponds`). What corresponding means is any relation that is kept by `pure` and
`bind`.

One use of that is the list of all evaluations of a validation, those on scratch reports included
(`Program.calls`): each of them lies inside the evaluation of the root, at the end of a chain
(`Program.reached_of_mem_calls`). So what is shown along chains is shown of every evaluation.
-/

namespace TaggedSchema

/-! ## 1. What rules request -/

/-- What a dialogue is known to ask for, it also asks for. -/
theorem Dialogue.Poses.requests {evaluated : SchemaPlace → Request → Prop}
    {tested : Request → Prop} {d : Dialogue} (h : d.Poses evaluated tested) :
    d.Poses (fun place r => evaluated place r ∧ d.Requests place r)
      (fun r => tested r ∧ d.Requests (.own none) r) := by
  induction d with
  | done => trivial
  | report message next ih => exact ih h
  | evaluate asked asking next ih =>
    refine ⟨⟨h.1, Or.inl ⟨rfl, rfl⟩⟩, fun answer => (ih answer (h.2 answer)).mono
      (fun _ _ hr => ⟨hr.1, Or.inr ⟨answer, hr.2⟩⟩) fun _ hr => ⟨hr.1, Or.inr ⟨answer, hr.2⟩⟩⟩
  | test asking next ih =>
    refine ⟨⟨h.1, Or.inl ⟨rfl, rfl⟩⟩, fun answer => (ih answer (h.2 answer)).mono
      (fun _ _ hr => ⟨hr.1, Or.inr ⟨answer, hr.2⟩⟩) fun _ hr => ⟨hr.1, Or.inr ⟨answer, hr.2⟩⟩⟩
  | whenFull next ih =>
    exact fun answer => (ih answer (h answer)).mono (fun _ _ hr => ⟨hr.1, answer, hr.2⟩)
      fun _ hr => ⟨hr.1, answer, hr.2⟩
  | locate next ih => exact h.elim
  | note label next ih => exact ih h

theorem Dialogue.Requests.asks {d : Dialogue} {place : SchemaPlace} {r : Request}
    (h : d.Requests place r) : d.Asks r.schema := by
  induction d with
  | done => exact h.elim
  | report message next ih => exact ih h
  | evaluate asked asking next ih =>
    rcases h with ⟨_, rfl⟩ | ⟨answer, h⟩
    · exact Or.inl rfl
    · exact Or.inr ⟨answer, ih answer h⟩
  | test asking next ih =>
    rcases h with ⟨_, rfl⟩ | ⟨answer, h⟩
    · exact Or.inl rfl
    · exact Or.inr ⟨answer, ih answer h⟩
  | whenFull next ih =>
    obtain ⟨answer, h⟩ := h
    exact ⟨answer, ih answer h⟩
  | locate next ih =>
    obtain ⟨answer, h⟩ := h
    exact ⟨answer, ih answer h⟩
  | note label next ih => exact ih h

/-- What a rule requests are nodes that it uses. -/
theorem Rule.Requests.uses {rule : Rule} {keyword : String} {value : Json}
    {segments : List String} {r : Request} (h : rule.Requests keyword value segments r) :
    rule.Uses r.schema := by
  cases h with
  | property _ hentry _ => exact ⟨_, hentry, rfl⟩
  | ref => exact rfl
  | allOf hid => exact List.mem_of_getElem? hid
  | anyOf hid => exact List.mem_of_getElem? hid
  | oneOf hid => exact List.mem_of_getElem? hid
  | dispatch hid => exact List.mem_of_getElem? hid
  | assertion h => exact ⟨value, Dialogue.Requests.asks h⟩

/-! ## 2. Computations that correspond -/

/-- A relation between computations in two monads that is kept by everything a rule builds them
    from. -/
structure Correspondence {m m' : Type → Type} [Monad m] [Monad m']
    (R : ∀ α : Type, m α → m' α → Prop) : Prop where
  pure : ∀ {α : Type} (a : α), R α (pure a) (pure a)
  bind : ∀ {α β : Type} {x : m α} {x' : m' α} {k : α → m β} {k' : α → m' β},
    R α x x' → (∀ a, R β (k a) (k' a)) → R β (x >>= k) (x' >>= k')

namespace Rule

variable {m m' : Type → Type} {R : ∀ α : Type, m α → m' α → Prop} {observe : String → m Unit}
  {observe' : String → m' Unit} {eval : Evaluator m} {eval' : Evaluator m'} {keyword : String}
  {value : Json} {f : Frame}

/-- What the two evaluators make of a request corresponds, on every report. -/
def Corresponds (R : ∀ α : Type, m α → m' α → Prop) (eval : Evaluator m) (eval' : Evaluator m')
    (f : Frame) (segments : List String) (r : Request) : Prop :=
  ∀ out, R Report (eval r.schema r.value (f.moved segments r.segment) out)
    (eval' r.schema r.value (f.moved segments r.segment) out)

/-- The schemas of a list correspond, each under its position. -/
def ListCorresponds (R : ∀ α : Type, m α → m' α → Prop) (eval : Evaluator m) (eval' : Evaluator m')
    (keyword : String) (value : Json) (f : Frame) (start : Nat) (schemas : List NodeId) : Prop :=
  ∀ i id, schemas[i]? = some id →
    Corresponds R eval eval' f [keyword, Nat.repr (start + i)] ⟨id, value, none⟩

theorem ListCorresponds.of_cons {start : Nat} {schema : NodeId} {rest : List NodeId}
    (h : ListCorresponds R eval eval' keyword value f start (schema :: rest)) :
    Corresponds R eval eval' f [keyword, Nat.repr start] ⟨schema, value, none⟩ ∧
      ListCorresponds R eval eval' keyword value f (start + 1) rest := by
  refine ⟨h 0 schema rfl, fun i id hid => ?_⟩
  have hnext := h (i + 1) id hid
  rwa [Nat.add_comm i 1, ← Nat.add_assoc] at hnext

variable [Monad m] [Monad m']

theorem converse_corresponds (hR : Correspondence R)
    (hobserve : ∀ label, R Unit (observe label) (observe' label)) {d : Dialogue}
    (h : ∀ place r, d.Requests place r →
      Corresponds R eval eval' f (Frame.segmentsOf keyword place) r) (out : Report) :
    R Report (converse observe eval keyword f d out)
      (converse observe' eval' keyword f d out) := by
  induction d generalizing out with
  | done => exact hR.pure out
  | report message next ih => exact ih h _
  | evaluate place request next ih =>
    have hrequest := h place request (Or.inl ⟨rfl, rfl⟩) out
    unfold converse
    rw [Frame.requested_eq_moved]
    refine hR.bind hrequest fun after => ih _ (fun place' r hr => ?_) after
    exact h place' r (Or.inr ⟨_, hr⟩)
  | test request next ih =>
    have hrequest := h (.own none) request (Or.inl ⟨rfl, rfl⟩) (.empty true)
    unfold converse
    rw [Frame.requested_eq_moved]
    refine hR.bind hrequest fun apart => ih _ (fun place' r hr => ?_) out
    exact h place' r (Or.inr ⟨_, hr⟩)
  | whenFull next ih => exact ih _ (fun place r hr => h place r ⟨_, hr⟩) out
  | locate next ih => exact ih _ (fun place r hr => h place r ⟨_, hr⟩) out
  | note label next ih => exact hR.bind (hobserve label) fun _ => ih h out

theorem runProperties_corresponds (hR : Correspondence R) {members : List (String × Json)}
    {entries : List (String × NodeId)}
    (h : ∀ name schema part, (name, schema) ∈ entries → members.lookup name = some part →
      Corresponds R eval eval' f [keyword, name] ⟨schema, part, some name⟩) (out : Report) :
    R Report (runProperties eval f keyword members entries out)
      (runProperties eval' f keyword members entries out) := by
  induction entries generalizing out with
  | nil => exact hR.pure out
  | cons entry rest ih =>
    obtain ⟨name, schema⟩ := entry
    have hrest := ih fun name schema part hmem => h name schema part (List.mem_cons_of_mem _ hmem)
    unfold runProperties
    by_cases hfull : out.isFull = true
    · rw [if_pos hfull, if_pos hfull]
      exact hR.pure out
    · rw [if_neg hfull, if_neg hfull]
      cases hpart : members.lookup name with
      | none => exact hrest out
      | some part => exact hR.bind (h name schema part List.mem_cons_self hpart out) hrest

theorem runAll_corresponds (hR : Correspondence R) {start : Nat} {schemas : List NodeId}
    (h : ListCorresponds R eval eval' keyword value f start schemas) (out : Report) :
    R Report (runAll eval f keyword value start schemas out)
      (runAll eval' f keyword value start schemas out) := by
  induction schemas generalizing start out with
  | nil => exact hR.pure out
  | cons schema rest ih =>
    obtain ⟨hfirst, hrest⟩ := h.of_cons
    unfold runAll
    by_cases hfull : out.isFull = true
    · rw [if_pos hfull, if_pos hfull]
      exact hR.pure out
    · rw [if_neg hfull, if_neg hfull]
      exact hR.bind (hfirst out) fun after => ih hrest after

theorem tryUntil_corresponds (hR : Correspondence R) (scratch : Report) {start : Nat}
    {schemas : List NodeId} (h : ListCorresponds R eval eval' keyword value f start schemas) :
    R _ (tryUntil eval f keyword value scratch start schemas)
      (tryUntil eval' f keyword value scratch start schemas) := by
  induction schemas generalizing start with
  | nil => exact hR.pure _
  | cons schema rest ih =>
    obtain ⟨hfirst, hrest⟩ := h.of_cons
    unfold tryUntil
    refine hR.bind (hfirst scratch) fun apart => ?_
    split
    · exact hR.pure _
    · exact hR.bind (ih hrest) fun more => hR.pure _

theorem tryAll_corresponds (hR : Correspondence R) (scratch : Report) {start : Nat}
    {schemas : List NodeId} (h : ListCorresponds R eval eval' keyword value f start schemas) :
    R _ (tryAll eval f keyword value scratch start schemas)
      (tryAll eval' f keyword value scratch start schemas) := by
  induction schemas generalizing start with
  | nil => exact hR.pure _
  | cons schema rest ih =>
    obtain ⟨hfirst, hrest⟩ := h.of_cons
    unfold tryAll
    exact hR.bind (hfirst scratch) fun apart => hR.bind (ih hrest) fun more => hR.pure _

theorem runAnyOf_corresponds (hR : Correspondence R) {schemas : List NodeId}
    (h : ListCorresponds R eval eval' keyword value f 0 schemas) (out : Report) :
    R Report (runAnyOf eval f keyword value schemas out)
      (runAnyOf eval' f keyword value schemas out) := by
  refine hR.bind (tryUntil_corresponds hR out.scratch h) fun failures => ?_
  cases failures with
  | none => exact hR.pure out
  | some failures => exact hR.pure _

theorem runOneOf_corresponds (hR : Correspondence R) {branches : List NodeId}
    (h : ListCorresponds R eval eval' keyword value f 0 branches) (out : Report) :
    R Report (runOneOf eval f keyword value branches out)
      (runOneOf eval' f keyword value branches out) := by
  refine hR.bind (tryAll_corresponds hR out.scratch h) fun results => ?_
  dsimp only
  split
  · exact hR.pure out
  · exact hR.pure _

theorem runDispatch_corresponds (hR : Correspondence R) (d : Discriminator)
    {branches : List NodeId} (typeChecked : Bool)
    (h : ListCorresponds R eval eval' keyword value f 0 branches) (out : Report) :
    R Report (runDispatch eval f keyword d branches typeChecked value out)
      (runDispatch eval' f keyword d branches typeChecked value out) := by
  unfold runDispatch
  cases value with
  | object members =>
    dsimp only
    cases members.lookup d.property with
    | none => exact hR.pure _
    | some raw =>
      dsimp only
      cases Tag.ofJson? raw with
      | none => exact hR.pure _
      | some tag =>
        dsimp only
        cases d.branchFor? tag with
        | none => exact hR.pure _
        | some i =>
          dsimp only
          cases hbranch : branches[i]? with
          | none => exact hR.pure out
          | some branch =>
            have hselected := h i branch hbranch out
            rwa [Nat.zero_add] at hselected
  | _ => cases typeChecked <;> exact hR.pure _

/-- **Evaluators that correspond on what a rule requests make the rule correspond.** -/
theorem run_corresponds (hR : Correspondence R)
    (hobserve : ∀ label, R Unit (observe label) (observe' label)) {rule : Rule}
    (h : ∀ segments r, rule.Requests keyword value segments r →
      Corresponds R eval eval' f segments r) (out : Report) :
    R Report (rule.run observe eval keyword value f out)
      (rule.run observe' eval' keyword value f out) := by
  cases rule with
  | never => exact hR.pure _
  | type types => exact hR.pure _
  | const expected => exact hR.pure _
  | enum allowed => exact hR.pure _
  | required names => cases value <;> exact hR.pure _
  | properties entries =>
    cases value with
    | object members =>
      exact runProperties_corresponds hR (fun name schema part hentry hpart =>
        h _ _ (.property rfl hentry hpart)) out
    | _ => exact hR.pure out
  | ref target => exact h _ _ .ref out
  | allOf schemas =>
    exact runAll_corresponds hR (fun i id hid => (Nat.zero_add i).symm ▸ h _ _ (.allOf hid)) out
  | anyOf schemas =>
    exact runAnyOf_corresponds hR (fun i id hid => (Nat.zero_add i).symm ▸ h _ _ (.anyOf hid)) out
  | oneOf branches =>
    exact runOneOf_corresponds hR (fun i id hid => (Nat.zero_add i).symm ▸ h _ _ (.oneOf hid)) out
  | dispatch d branches typeChecked =>
    exact runDispatch_corresponds hR d typeChecked
      (fun i id hid => (Nat.zero_add i).symm ▸ h _ _ (.dispatch hid)) out
  | assertion act =>
    exact converse_corresponds hR hobserve (fun place r hr => h _ r (.assertion hr)) out

end Rule

/-! ## 3. Calls -/

/-- One evaluation: of a node, on a value, in a frame. -/
structure Call where
  node : NodeId
  value : Json
  frame : Frame

namespace Program

/-- The evaluation of the root on a whole instance. -/
def rootCall (p : Program) (value : Json) : Call := ⟨p.root, value, .root⟩

/-- The evaluations that may lie directly inside another: those that a rule of its node requests,
    as long as the limit of depth is kept. -/
inductive Nests (p : Program) (c : Call) : Call → Prop where
  | request {node : CompiledNode} {k : CompiledKeyword} {segments : List String} {r : Request}
      (hdepth : c.frame.depth ≤ p.maxDepth) (hnode : p.nodes[c.node]? = some node)
      (hk : k ∈ node.keywords) (hr : k.rule.Requests k.name c.value segments r) :
      Nests p c ⟨r.schema, r.value, c.frame.moved segments r.segment⟩

theorem Nests.leads {p : Program} {c c' : Call} (h : p.Nests c c') : p.Leads c.node c'.node := by
  obtain ⟨_, hnode, hk, hr⟩ := h
  exact ⟨_, hnode, _, hk, hr.uses⟩

/-- One evaluation, by what is done with those inside it. -/
def step {m : Type → Type} [Monad m] (observe : String → m Unit) (p : Program)
    (eval : Evaluator m) : Evaluator m := fun id value f out =>
  if p.maxDepth < f.depth then pure (out.push (p.depthError f))
  else
    match p.nodes[id]? with
    | some node => runKeywords observe eval value f node.keywords out
    | none => pure out

section Corresponding

variable {m m' : Type → Type} [Monad m] [Monad m'] {R : ∀ α : Type, m α → m' α → Prop}
  {observe : String → m Unit} {observe' : String → m' Unit} {eval : Evaluator m}
  {eval' : Evaluator m'}

theorem runKeywords_corresponds (hR : Correspondence R)
    (hobserve : ∀ label, R Unit (observe label) (observe' label)) {value : Json} {f : Frame}
    {keywords : List CompiledKeyword}
    (h : ∀ k ∈ keywords, ∀ segments r, k.rule.Requests k.name value segments r →
      Rule.Corresponds R eval eval' f segments r) (out : Report) :
    R Report (runKeywords observe eval value f keywords out)
      (runKeywords observe' eval' value f keywords out) := by
  induction keywords generalizing out with
  | nil => exact hR.pure out
  | cons k rest ih =>
    obtain ⟨hfirst, hrest⟩ := List.forall_mem_cons.mp h
    unfold runKeywords
    by_cases hfull : out.isFull = true
    · rw [if_pos hfull, if_pos hfull]
      exact hR.pure out
    · rw [if_neg hfull, if_neg hfull]
      exact hR.bind (Rule.run_corresponds hR hobserve hfirst out) fun after => ih hrest after

/-- **Evaluators that correspond on what lies inside an evaluation make it correspond.** -/
theorem step_corresponds (hR : Correspondence R)
    (hobserve : ∀ label, R Unit (observe label) (observe' label)) {p : Program} {c : Call}
    (h : ∀ c', p.Nests c c' → ∀ out, R Report (eval c'.node c'.value c'.frame out)
      (eval' c'.node c'.value c'.frame out)) (out : Report) :
    R Report (p.step observe eval c.node c.value c.frame out)
      (p.step observe' eval' c.node c.value c.frame out) := by
  unfold step
  by_cases hdepth : p.maxDepth < c.frame.depth
  · rw [if_pos hdepth, if_pos hdepth]
    exact hR.pure _
  · rw [if_neg hdepth, if_neg hdepth]
    cases hnode : p.nodes[c.node]? with
    | none => exact hR.pure out
    | some node =>
      refine runKeywords_corresponds hR hobserve (fun k hk segments r hr => ?_) out
      exact h _ (.request (Nat.le_of_not_lt hdepth) hnode hk hr)

end Corresponding

/-! ## 4. All evaluations of a validation -/

/-- The evaluator that notes every evaluation, whatever report it is on. -/
def traced (p : Program) : Nat → Evaluator (StateM (List Call))
  | 0 => fun id value f out => do
    modify (· ++ [⟨id, value, f⟩])
    pure (out.push (p.depthError f))
  | fuel + 1 => fun id value f out => do
    modify (· ++ [⟨id, value, f⟩])
    p.step (fun _ => pure ()) (p.traced fuel) id value f out

/-- The evaluations of a validation, in their order. -/
def calls (p : Program) (failFast : Bool) (value : Json) : List Call :=
  (p.traced (p.budget value) p.root value .root (.empty failFast) []).2

/-- The traced computation has the same result and only adds notes of a kind. -/
def Traces (kind : Call → Prop) (α : Type) (x : Id α) (traced : StateM (List Call) α) : Prop :=
  ∀ log, ∃ more, traced log = (x, log ++ more) ∧ ∀ c ∈ more, kind c

theorem correspondence_traces (kind : Call → Prop) : Correspondence (Traces kind) where
  pure _ log := ⟨[], by rw [List.append_nil]; rfl, fun _ h => absurd h List.not_mem_nil⟩
  bind {α β x traced k k'} hx hk log := by
    obtain ⟨more, htraced, hmore⟩ := hx log
    obtain ⟨rest, hrest, hkind⟩ := hk x (log ++ more)
    refine ⟨more ++ rest, ?_, fun c hc => ?_⟩
    · show (k' (traced log).1 (traced log).2) = _
      rw [htraced, ← List.append_assoc]
      exact hrest
    · exact (List.mem_append.mp hc).elim (hmore c) (hkind c)

/-- Tracing changes nothing, and notes the evaluation and what lies inside it. -/
theorem traced_spec (p : Program) (fuel : Nat) (c : Call) (out : Report) :
    Traces (Relation.ReflTransGen p.Nests c) Report (p.evaluate fuel c.node c.value c.frame out)
      (p.traced fuel c.node c.value c.frame out) := by
  induction fuel generalizing c out with
  | zero =>
    intro log
    exact ⟨[c], rfl, fun c' hc' => List.mem_singleton.mp hc' ▸ .refl⟩
  | succ fuel ih =>
    intro log
    have hR := correspondence_traces (Relation.ReflTransGen p.Nests c)
    have hbelow : Traces (Relation.ReflTransGen p.Nests c) Report
        (p.step (fun _ => pure ()) (p.evaluate fuel) c.node c.value c.frame out)
        (p.step (fun _ => pure ()) (p.traced fuel) c.node c.value c.frame out) := by
      refine step_corresponds hR (fun _ => hR.pure ()) (fun c' hnests out log => ?_) out
      obtain ⟨more, htraced, hmore⟩ := ih c' out log
      exact ⟨more, htraced, fun c'' hc'' => (hmore c'' hc'').head hnests⟩
    obtain ⟨more, htraced, hmore⟩ := hbelow (log ++ [c])
    refine ⟨c :: more, ?_, List.forall_mem_cons.mpr ⟨.refl, hmore⟩⟩
    rw [List.append_cons]
    exact htraced

/-- **Every evaluation of a validation** lies inside the evaluation of the root. -/
theorem reached_of_mem_calls {p : Program} {failFast : Bool} {value : Json} {c : Call}
    (hc : c ∈ p.calls failFast value) : Relation.ReflTransGen p.Nests (p.rootCall value) c := by
  obtain ⟨more, htraced, hmore⟩ :=
    p.traced_spec (p.budget value) (p.rootCall value) (.empty failFast) []
  have hcalls : p.calls failFast value = more := congrArg Prod.snd htraced
  exact hmore c (hcalls ▸ hc)

/-- The evaluations are those that make up the report. -/
theorem traced_eq (p : Program) (failFast : Bool) (value : Json) :
    p.traced (p.budget value) p.root value .root (.empty failFast) []
      = (p.report failFast value, p.calls failFast value) := by
  obtain ⟨more, htraced, _⟩ :=
    p.traced_spec (p.budget value) (p.rootCall value) (.empty failFast) []
  have hreport := congrArg Prod.fst htraced
  exact Prod.ext hreport rfl

end Program

/-- Evaluations inside each other are of reached nodes. -/
theorem Compiler.mem_reached_of_chain [Uri.Library] [Pattern.Library] {c : Compiler}
    {store : Store} {g : Graph} {start : NodeId} {p : Program} (hregistry : c.registry = .default)
    (hg : g.Resolved store)
    (hstart : start < g.size) (hp : c.compile g start = .ok p) {value : Json} {a : Call}
    (h : Relation.ReflTransGen p.Nests (p.rootCall value) a) : a.node ∈ reached g start := by
  induction h with
  | refl =>
    obtain ⟨_, _, _, rfl⟩ := compile_eq_ok_iff.mp hp
    exact (Graph.mem_reach_of_edge (edges_lt_size hg) hstart).1
  | tail _ hnests ih =>
    exact mem_reached_of_edge hg hstart ih (mem_edges_of_leads hregistry hp hnests.leads)

end TaggedSchema
